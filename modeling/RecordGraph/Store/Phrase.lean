import RecordGraph.Sql.Select
import RecordGraph.Text.Alphabetic

/-!
# Phrases

A phrase is read at the beginning of a text and leaves the rest of it. Names stand between quote
marks of any dialect and consist of word characters. `find?` looks for the first place of a text
where a phrase can be read, `findAll` for all such places that do not overlap.
-/

namespace RecordGraph.Store

/-- What can be read at the beginning of a text: its meaning and the rest of the text. -/
abbrev Phrase := StateT (List Char) Option

namespace Phrase

variable {α : Type}

def words (w : String) : Phrase Unit := fun s =>
  if w.toList.isPrefixOf s then some ((), s.drop w.toList.length) else none

/-- Whether a character is the quote mark of some dialect. -/
def isMark (c : Char) : Bool := Dialect.all.any fun d => d.quote = c

/-- A name between quote marks, which need not be the same. -/
def name : Phrase String
  | [] => none
  | c :: rest =>
    match rest.dropWhile Text.isWordChar with
    | [] => none
    | d :: after =>
      let inner := rest.takeWhile Text.isWordChar
      if isMark c && !inner.isEmpty && isMark d then some (String.ofList inner, after) else none

def column : Phrase ColumnName := do
  let table ← name
  words "."
  let column ← name
  return ⟨table, column⟩

/-! ### Places -/

/-- The first place where a phrase can be read: the text before it, its meaning, and the rest. -/
def find? (p : Phrase α) : List Char → Option (List Char × α × List Char)
  | [] => (p []).map fun r => ([], r)
  | c :: rest =>
    match p (c :: rest) with
    | some r => some ([], r)
    | none => (find? p rest).map fun r => (c :: r.1, r.2)

/-- What a phrase means at its first place. -/
def first? (p : Phrase α) (s : List Char) : Option α := (p.find? s).map fun r => r.2.1

/-- What a phrase means at all places, each looked for behind the one before it. -/
def findAll (p : Phrase α) (s : List Char) : List α :=
  match p.find? s with
  | none => []
  | some (_, a, rest) => if rest.length < s.length then a :: findAll p rest else [a]
termination_by s.length

/-- What a phrase means if it is the whole text. -/
def whole? (p : Phrase α) (s : List Char) : Option α :=
  match p s with
  | some (a, []) => some a
  | _ => none

end Phrase

end RecordGraph.Store
