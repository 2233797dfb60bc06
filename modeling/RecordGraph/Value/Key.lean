import RecordGraph.Text.Quoted
import RecordGraph.Value.Basic

/-!
# Keys

A key is what two columns are matched by. Integers of all widths with the same number are one key,
and so are a text, a character and an identifier with the same text. Other kinds of value and nulls
have no key.
-/

namespace RecordGraph

inductive Key where
  | int (n : Int)
  | text (s : String)
  deriving DecidableEq, Repr

namespace Key

/-- The key of a value, if it has one. -/
def ofValue? : Value → Option Key
  | .text (some s) => some (text s)
  | .char (some c) => some (text (String.ofList [c]))
  | .uuid (some u) => some (text u.text)
  | v => v.integer?.map int

/-- A key that refers to nothing: zero, the empty text, the text of the zero identifier. -/
def isZero : Key → Bool
  | int n => n = 0
  | text s => s.isEmpty || s = "00000000-0000-0000-0000-000000000000"

/-- A number as it is, a text in quotes. -/
def display : Key → String
  | int n => toString n
  | text s => Text.quoted s

/-- Numbers come before texts; texts are ordered by their code points. -/
def compare : Key → Key → Ordering
  | int a, int b => Ord.compare a b
  | int _, text _ => .lt
  | text _, int _ => .gt
  | text a, text b => Ord.compare a b

/-- The order of two keys that may be missing; a missing one comes first. -/
def compare? : Option Key → Option Key → Ordering
  | none, none => .eq
  | none, some _ => .lt
  | some _, none => .gt
  | some a, some b => a.compare b

end Key

end RecordGraph
