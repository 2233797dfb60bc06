import RecordGraph.Text.Alphabetic

/-!
# Sets of characters

A set of characters is held as closed ranges of code points in ascending order, with a gap between
each two. The sets that patterns know by a name are given here too.
-/

namespace RecordGraph

/-- A set of characters. The ranges ascend and do not touch each other. -/
structure Charset where
  ranges : List (Nat × Nat)
  deriving DecidableEq, Repr, Inhabited

namespace Charset

/-! ### Operations -/

def lastCode : Nat := 0x10ffff

/-- Joins ranges that overlap or touch; their beginnings ascend. -/
def join : List (Nat × Nat) → List (Nat × Nat)
  | [] => []
  | r :: rest =>
    match join rest with
    | [] => [r]
    | t :: more =>
      if t.1 ≤ r.2 + 1 then (r.1, max r.2 t.2) :: more else r :: t :: more

/-- The set of the characters in ranges that stand in any order. -/
def ofRanges (ranges : List (Nat × Nat)) : Charset :=
  ⟨join (ranges.mergeSort fun a b => a.1 ≤ b.1)⟩

def empty : Charset := ⟨[]⟩

def all : Charset := ⟨[(0, lastCode)]⟩

def singleton (c : Char) : Charset := ⟨[(c.toNat, c.toNat)]⟩

def contains (s : Charset) (c : Char) : Bool :=
  s.ranges.any fun r => r.1 ≤ c.toNat && c.toNat ≤ r.2

/-- The gaps between ascending ranges, from a code point on. -/
def gaps : Nat → List (Nat × Nat) → List (Nat × Nat)
  | low, [] => if low ≤ lastCode then [(low, lastCode)] else []
  | low, (a, b) :: rest =>
    if low < a then (low, a - 1) :: gaps (b + 1) rest else gaps (b + 1) rest

def complement (s : Charset) : Charset := ⟨gaps 0 s.ranges⟩

def union (s t : Charset) : Charset := ofRanges (s.ranges ++ t.ranges)

def inter (s t : Charset) : Charset := (s.complement.union t.complement).complement

def diff (s t : Charset) : Charset := s.inter t.complement

/-- What is in one of two sets only. -/
def symmDiff (s t : Charset) : Charset := (s.diff t).union (t.diff s)

def isAscii (s : Charset) : Bool := s.ranges.all fun r => r.2 < 128

/-- The part of a range that lies between two bounds, moved down and up by a distance. -/
def clip (low high down up : Nat) (r : Nat × Nat) : Option (Nat × Nat) :=
  if max low r.1 ≤ min high r.2 then some (max low r.1 + up - down, min high r.2 + up - down)
  else none

/-- The set with the other case of every letter from a to z. -/
def foldCase (s : Charset) : Charset :=
  let lower := s.ranges.filterMap (clip 65 90 0 32)
  let upper := s.ranges.filterMap (clip 97 122 32 0)
  ofRanges (s.ranges ++ lower ++ upper)

/-! ### Sets with a name -/

def digits (unicode : Bool) : Charset :=
  if unicode then
    (ofRanges ((48, 57) :: Text.digitZeros.toList.map fun z => (z, z + 9))).diff
      ⟨Text.newerWordRanges.toList⟩
  else ⟨[(48, 57)]⟩

def blanks (unicode : Bool) : Charset :=
  if unicode then
    ⟨[(9, 13), (0x20, 0x20), (0x85, 0x85), (0xa0, 0xa0), (0x1680, 0x1680), (0x2000, 0x200a),
      (0x2028, 0x2029), (0x202f, 0x202f), (0x205f, 0x205f), (0x3000, 0x3000)]⟩
  else ⟨[(9, 13), (32, 32)]⟩

def word (unicode : Bool) : Charset :=
  let ascii := [(48, 57), (65, 90), (95, 95), (97, 122)]
  if unicode then
    (ofRanges (ascii ++ Text.alphabeticRanges.toList ++ Text.wordExtraRanges.toList)).diff
      ⟨Text.newerWordRanges.toList⟩
  else ⟨ascii⟩

/-- The sets of ASCII characters that are named between brackets and colons. -/
def posix? : String → Option Charset
  | "alnum" => some ⟨[(48, 57), (65, 90), (97, 122)]⟩
  | "alpha" => some ⟨[(65, 90), (97, 122)]⟩
  | "ascii" => some ⟨[(0, 127)]⟩
  | "blank" => some ⟨[(9, 9), (32, 32)]⟩
  | "cntrl" => some ⟨[(0, 31), (127, 127)]⟩
  | "digit" => some ⟨[(48, 57)]⟩
  | "graph" => some ⟨[(33, 126)]⟩
  | "lower" => some ⟨[(97, 122)]⟩
  | "print" => some ⟨[(32, 126)]⟩
  | "punct" => some ⟨[(33, 47), (58, 64), (91, 96), (123, 126)]⟩
  | "space" => some ⟨[(9, 13), (32, 32)]⟩
  | "upper" => some ⟨[(65, 90)]⟩
  | "word" => some ⟨[(48, 57), (65, 90), (95, 95), (97, 122)]⟩
  | "xdigit" => some ⟨[(48, 57), (65, 70), (97, 102)]⟩
  | _ => none

end Charset

end RecordGraph
