import RecordGraph.Pattern.Basic
import RecordGraph.Pattern.Property
import RecordGraph.Text.Blank
import RecordGraph.Text.Hex

/-!
# Escapes

What a backslash in a pattern stands for: a character that it takes its meaning, a character given
by its code point, a set with a name or a condition on a place. How a pattern is read depends on
modes, which it may change on the way.
-/

namespace RecordGraph.Pattern

structure Mode where
  ignoreCase : Bool
  /-- Whether the marks of a line hold at every line. -/
  multiLine : Bool
  /-- Whether the dot stands for the end of a line too. -/
  dotAll : Bool
  /-- Whether a carriage return ends a line too. -/
  carriageReturn : Bool
  unicode : Bool
  /-- Whether blanks and comments stand for nothing. -/
  spaced : Bool
  deriving DecidableEq, Repr

def Mode.standard : Mode := ⟨false, false, false, false, true, false⟩

/-! ### Blanks -/

/-- The text behind blanks and comments, from outside or inside a comment. -/
def skipSpaced (inComment : Bool) : List Char → List Char
  | [] => []
  | c :: rest =>
    if inComment then skipSpaced (c ≠ '\n') rest
    else if Text.isBlank c then skipSpaced false rest
    else if c = '#' then skipSpaced true rest
    else c :: rest

/-- The text behind what stands for nothing. -/
def Mode.skip (m : Mode) (s : List Char) : List Char := if m.spaced then skipSpaced false s else s

/-! ### Escapes -/

/-- What stands for one character or one place. -/
inductive Atom where
  | literal (c : Char)
  | set (s : Charset)
  | place (p : Place)
  deriving Repr

def character? (n : Nat) : Option Char := if Nat.isValidChar n then some (Char.ofNat n) else none

/-- The number of some hexadecimal digits, with those before them. -/
def fixedHex (m : Mode) : Nat → Nat → List Char → Option (Nat × List Char)
  | 0, n, s => some (n, s)
  | _ + 1, _, [] => none
  | width + 1, n, c :: rest => do
    let d ← Text.hexValue? c
    fixedHex m width (16 * n + d) (m.skip rest)

/-- What stands before a closing brace, and the text behind the brace. -/
def braced (m : Mode) (inComment : Bool) : List Char → Option (List Char × List Char)
  | [] => none
  | c :: rest =>
    if inComment then braced m (c ≠ '\n') rest
    else if m.spaced && Text.isBlank c then braced m false rest
    else if m.spaced && c = '#' then braced m true rest
    else if c = '\x7d' then some ([], rest)
    else (braced m false rest).map fun p => (c :: p.1, p.2)

/-- A character by its code point, behind the letter that says how many digits it has. Outside of
Unicode two digits give a byte, of which only those of ASCII are characters. -/
def hexLiteral (m : Mode) (width : Nat) (s : List Char) : Option (Atom × List Char) :=
  match m.skip s with
  | '\x7b' :: rest => do
    let (inside, rest) ← braced m false rest
    guard (!inside.isEmpty)
    let n ← inside.foldlM (fun n c => (Text.hexValue? c).map (16 * n + ·)) 0
    let c ← character? n
    return (.literal c, m.skip rest)
  | s => do
    let (n, rest) ← fixedHex m width 0 s
    guard (m.unicode || width ≠ 2 || n < 128)
    let c ← character? n
    return (.literal c, rest)

/-- A property, behind the letter that says whether it is denied. -/
def property (m : Mode) (denied : Bool) (s : List Char) : Option (Atom × List Char) := do
  guard m.unicode
  let set := if denied then Property.charset.complement else Property.charset
  match m.skip s with
  | [] => none
  | '\x7b' :: rest =>
    let (inside, rest) ← braced m false rest
    if Property.isKnown inside then return (.set set, rest) else none
  | c :: rest => if Property.isSingle [c] then return (.set set, m.skip rest) else none

/-- The condition on words with a name. -/
def wordPlace? (unicode : Bool) : String → Option Place
  | "start" => some (.word unicode (some false) (some true))
  | "end" => some (.word unicode (some true) (some false))
  | "start-half" => some (.word unicode (some false) none)
  | "end-half" => some (.word unicode none (some false))
  | _ => none

/-- A word boundary, which a name in braces may say more about. A brace behind which no name begins
is left to a repetition. -/
def wordBoundary (m : Mode) (s : List Char) : Option (Atom × List Char) :=
  let isName (c : Char) : Bool := c.isAlpha || c == '-'
  match s with
  | '\x7b' :: rest =>
    match m.skip rest with
    | [] => none
    | c :: _ =>
      if isName c then do
        let (name, rest) ← braced m false rest
        let p ← wordPlace? m.unicode (String.ofList name)
        return (.place p, rest)
      else some (.place (.wordBoundary m.unicode), s)
  | s => some (.place (.wordBoundary m.unicode), s)

/-- A set with a letter; the capital letter stands for the other characters, which outside of
Unicode are no characters. -/
def letterSet (m : Mode) (denied : Bool) (set : Charset) (rest : List Char) :
    Option (Atom × List Char) :=
  if denied then if m.unicode then some (.set set.complement, rest) else none
  else some (.set set, rest)

/-- What an escape stands for, behind its backslash. -/
def escape (m : Mode) : List Char → Option (Atom × List Char)
  | [] => none
  | c :: rest =>
    match c with
    | 'x' => hexLiteral m 2 rest
    | 'u' => hexLiteral m 4 rest
    | 'U' => hexLiteral m 8 rest
    | 'p' => property m false rest
    | 'P' => property m true rest
    | 'd' => letterSet m false (Charset.digits m.unicode) rest
    | 'D' => letterSet m true (Charset.digits m.unicode) rest
    | 's' => letterSet m false (Charset.blanks m.unicode) rest
    | 'S' => letterSet m true (Charset.blanks m.unicode) rest
    | 'w' => letterSet m false (Charset.word m.unicode) rest
    | 'W' => letterSet m true (Charset.word m.unicode) rest
    | 'a' => some (.literal '\x07', rest)
    | 'f' => some (.literal '\x0c', rest)
    | 't' => some (.literal '\t', rest)
    | 'n' => some (.literal '\n', rest)
    | 'r' => some (.literal '\r', rest)
    | 'v' => some (.literal '\x0b', rest)
    | 'A' => some (.place .textStart, rest)
    | 'z' => some (.place .textEnd, rest)
    | 'b' => wordBoundary m rest
    | 'B' => some (.place (.noWordBoundary m.unicode), rest)
    | '<' => some (.place (.word m.unicode (some false) (some true)), rest)
    | '>' => some (.place (.word m.unicode (some true) (some false)), rest)
    | c =>
      if c.toNat < 128 && !c.isAlphanum then some (.literal c, rest) else none

end RecordGraph.Pattern
