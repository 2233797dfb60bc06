import RecordGraph.Text.Blank
import RecordGraph.Text.Pieces

/-!
# Annotations

The raw annotation of a field is a sequence of pairs `name:"body"`, each with blanks before it. A
name is not empty and holds no colon, blank or quote. In a body a backslash takes the character
after it as it is, so that quotes and backslashes can be written. Reading stops at the first place
where no pair can be read; what was read before it counts.
-/

namespace RecordGraph.Annotation

open Text

/-- Reads a body up to its closing quote, and gives the text after it. -/
def readBody : List Char → Option (List Char × List Char)
  | [] => none
  | '"' :: rest => some ([], rest)
  | '\\' :: c :: rest => (readBody rest).map fun p => (c :: p.1, p.2)
  | ['\\'] => none
  | c :: rest => (readBody rest).map fun p => (c :: p.1, p.2)

def isName (name : List Char) : Bool :=
  !name.isEmpty && name.all fun c => !isBlank c && c != '"'

def readPair (s : List Char) : Option ((List Char × List Char) × List Char) :=
  match cut (· == ':') (trimStart s) with
  | some (name, '"' :: rest) =>
    if isName name then (readBody rest).map fun p => ((name, p.1), p.2) else none
  | _ => none

/-- The pairs that a text begins with, at most `fuel` of them. -/
def readPairs : Nat → List Char → List (List Char × List Char)
  | 0, _ => []
  | fuel + 1, s =>
    match readPair s with
    | some (p, rest) => p :: readPairs fuel rest
    | none => []

/-- All pairs that a text begins with; a text has fewer pairs than characters. -/
def pairs (s : List Char) : List (List Char × List Char) := readPairs s.length s

/-- The body of the first pair with a name. -/
def lookup (raw name : String) : Option String :=
  ((pairs raw.toList).find? fun p => p.1 = name.toList).map fun p => String.ofList p.2

end RecordGraph.Annotation
