import RecordGraph.Pattern.Escape

/-!
# Sets between brackets

A set of characters is written between brackets: characters, ranges, sets with a name and sets
between brackets of their own, which are united; two signs cut, subtract or compare what stands on
their sides, from left to right. Outside of Unicode a set may hold ASCII characters only.
-/

namespace RecordGraph.Pattern

/-- What is done with the sets on both sides of a sign. -/
inductive SetSign where
  | cut
  | subtract
  | compare
  deriving DecidableEq, Repr

def SetSign.apply : SetSign → Charset → Charset → Charset
  | cut, a, b => a.inter b
  | subtract, a, b => a.diff b
  | compare, a, b => a.symmDiff b

/-- The members read so far on one side: their number, the set of them and how deep it is nested. -/
structure Members where
  count : Nat
  set : Charset
  depth : Nat

namespace Members

def none : Members := ⟨0, .empty, 0⟩

def add (ms : Members) (set : Charset) (depth : Nat) : Members :=
  ⟨ms.count + 1, ms.set.union set, max ms.depth depth⟩

/-- How deep the union of the members is nested. -/
def nesting (ms : Members) : Nat := if ms.count ≤ 1 then ms.depth else ms.depth + 1

end Members

/-- What stands before a sign: the set, its nesting and the sign. -/
structure LeftSide where
  set : Charset
  depth : Nat
  sign : SetSign

/-! ### Members -/

/-- The set with the other case of its letters, where the mode asks for it. -/
def Mode.fold (m : Mode) (set : Charset) : Charset := if m.ignoreCase then set.foldCase else set

/-- The set as it counts where it is written, and `none` where it may not hold its characters. -/
def Mode.finish? (m : Mode) (denied : Bool) (set : Charset) : Option Charset :=
  let set := if denied then (m.fold set).complement else m.fold set
  if m.unicode || set.isAscii then some set else none

/-- A set with a name between colons, behind its opening bracket, and whether it is denied. -/
def namedSet? (s : List Char) : Option (Bool × Charset × List Char) := do
  let (denied, s) ← match s with
    | ':' :: '^' :: rest => some (true, rest)
    | ':' :: rest => some (false, rest)
    | _ => none
  let (name, rest) ← Text.cut (· == ':') s
  let set ← Charset.posix? (String.ofList name)
  match rest with
  | ']' :: rest => return (denied, set, rest)
  | _ => none

/-- One item: an escape or a character that stands for itself. -/
def classItem (m : Mode) : List Char → Option (Atom × List Char)
  | [] => none
  | '\\' :: rest => escape m rest
  | c :: rest => some (.literal c, rest)

def itemSet? (m : Mode) : Atom → Option Charset
  | .literal c => if m.unicode || c.toNat < 128 then some (.singleton c) else none
  | .set s => some s
  | .place _ => none

def range? (m : Mode) : Atom → Atom → Option Charset
  | .literal a, .literal b =>
    if a ≤ b && (m.unicode || b.toNat < 128) then some ⟨[(a.toNat, b.toNat)]⟩ else none
  | _, _ => none

/-- An item or a range. A hyphen before a closing bracket or another hyphen makes no range. -/
def classRange (m : Mode) (s : List Char) : Option (Charset × List Char) := do
  let (first, rest) ← classItem m s
  match m.skip rest with
  | '-' :: rest =>
    let after := m.skip rest
    if after.head? = some ']' ∨ after.head? = some '-' then
      return (← itemSet? m first, '-' :: rest)
    let (last, rest) ← classItem m after
    return (← range? m first last, rest)
  | rest => return (← itemSet? m first, rest)

/-- Hyphens that stand for themselves at the beginning of a set. `fuel` bounds their number. -/
def leadingHyphens (m : Mode) : Nat → Members → List Char → Members × List Char
  | fuel + 1, ms, '-' :: rest =>
    leadingHyphens m fuel (ms.add (.singleton '-') 0) (m.skip rest)
  | _, ms, s => (ms, s)

/-- The beginning of a set behind its opening bracket: whether the set is denied, and the hyphens
or the closing bracket that stand for themselves there. -/
def classStart (m : Mode) (s : List Char) : Bool × Members × List Char :=
  let (denied, s) := match m.skip s with
    | '^' :: rest => (true, m.skip rest)
    | s => (false, s)
  let (ms, s) := leadingHyphens m s.length .none s
  match ms.count, s with
  | 0, ']' :: rest => (denied, ms.add (.singleton ']') 0, m.skip rest)
  | _, s => (denied, ms, s)

/-! ### Sets -/

/-- A side of a sign joined with what stands before it. -/
def joinSides (m : Mode) (left : Option LeftSide) (right : Members) : Charset × Nat :=
  match left with
  | none => (right.set, right.nesting)
  | some l => (l.sign.apply (m.fold l.set) (m.fold right.set), max l.depth right.nesting + 1)

/-- The rest of a set up to and with its closing bracket, the set and its nesting. `fuel` bounds
the number of members and signs. -/
def classRest (m : Mode) :
    Nat → Bool → Option LeftSide → Members → List Char → Option (Charset × Nat × List Char)
  | 0, _, _, _, _ => none
  | fuel + 1, denied, left, ms, s =>
    let withSign (sign : SetSign) (rest : List Char) :=
      let (set, depth) := joinSides m left ms
      classRest m fuel denied (some ⟨set, depth, sign⟩) .none rest
    match m.skip s with
    | [] => none
    | '[' :: rest =>
      match namedSet? rest with
      | some (d, set, rest) =>
        match m.finish? d set with
        | some set => classRest m fuel denied left (ms.add set 0) rest
        | none => none
      | none =>
        let (d, inner, rest) := classStart m rest
        match classRest m fuel d none inner rest with
        | some (set, depth, rest) => classRest m fuel denied left (ms.add set depth) rest
        | none => none
    | ']' :: rest =>
      let (set, depth) := joinSides m left ms
      (m.finish? denied set).map fun set => (set, depth + 1, rest)
    | '&' :: '&' :: rest => withSign .cut rest
    | '-' :: '-' :: rest => withSign .subtract rest
    | '~' :: '~' :: rest => withSign .compare rest
    | s =>
      match classRange m s with
      | some (set, rest) => classRest m fuel denied left (ms.add set 0) rest
      | none => none

def charClass (m : Mode) (s : List Char) : Option (Charset × Nat × List Char) :=
  let (denied, ms, rest) := classStart m s
  classRest m (s.length + 1) denied none ms rest

end RecordGraph.Pattern
