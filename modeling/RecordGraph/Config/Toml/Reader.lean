import RecordGraph.Config.Toml.Scalar
import RecordGraph.Config.Toml.Table

/-!
# Reading documents

A document in the format TOML: lines with a key and a value, a header or a comment. A text that
breaks a rule anywhere is no document.
-/

namespace RecordGraph.Toml

/-! ### Blank parts -/

/-- The text behind a comment, at the end of its line; nothing is an empty comment. -/
def skipComment : List Char → List Char
  | '#' :: rest => rest.dropWhile isPlain
  | s => s

/-- The text behind the end of a line, before which blanks and a comment may stand. -/
def lineEnd? (s : List Char) : Option (List Char) :=
  match skipComment (skipBlanks s) with
  | [] => some []
  | s => newline? s

/-- The text behind blanks, comments and ends of lines. `fuel` bounds the number of lines. -/
def skipLines : Nat → List Char → List Char
  | 0, s => s
  | fuel + 1, s =>
    match newline? (skipComment (skipBlanks s)) with
    | some rest => skipLines fuel rest
    | none => skipBlanks s

/-! ### Keys -/

def isBare (c : Char) : Bool := c.isAlphanum || c == '_' || c == '-'

def keyName (s : List Char) : Option (String × List Char) :=
  match s with
  | '"' :: rest => shortText '"' rest
  | '\'' :: rest => shortText '\'' rest
  | s =>
    match s.takeWhile isBare with
    | [] => none
    | name => some (String.ofList name, s.dropWhile isBare)

/-- The depth to which keys and values may be nested. -/
def maxDepth : Nat := 79

/-- The names of a key, with dots between them: those before the last one, and the last one.
`fuel` bounds their number. -/
def keyNames : Nat → List Char → Option ((List String × String) × List Char)
  | 0, _ => none
  | fuel + 1, s => do
    let (name, s) ← keyName (skipBlanks s)
    match skipBlanks s with
    | '.' :: rest =>
      let ((path, last), rest) ← keyNames fuel rest
      return ((name :: path, last), rest)
    | rest => return (([], name), rest)

/-- A key, whose names are at most as many as tables may be nested. -/
def key (s : List Char) : Option ((List String × String) × List Char) := keyNames maxDepth s

/-! ### Values -/

mutual

/-- A value. `fuel` bounds the number of tokens and `depth` the nesting. -/
def value (fuel depth : Nat) (s : List Char) : Option (Setting × List Char) :=
  match fuel with
  | 0 => none
  | fuel + 1 =>
    match s with
    | '[' :: rest =>
      if depth = 0 then none
      else (items fuel (depth - 1) rest).map fun p => (.list p.1, p.2)
    | '{' :: rest =>
      if depth = 0 then none
      else match skipBlanks rest with
        | '}' :: rest => some (.table [], rest)
        | rest => (members fuel (depth - 1) [] rest).map fun p => (.table (settings p.1), p.2)
    | s => scalar s

/-- The items of a list up to and with its closing bracket; a comma may follow the last one. -/
def items (fuel depth : Nat) (s : List Char) : Option (List Setting × List Char) :=
  match fuel with
  | 0 => none
  | fuel + 1 =>
    match skipLines s.length s with
    | ']' :: rest => some ([], rest)
    | s => do
      let (item, rest) ← value fuel depth s
      match skipLines rest.length rest with
      | ',' :: rest =>
        let (more, rest) ← items fuel depth rest
        return (item :: more, rest)
      | ']' :: rest => return ([item], rest)
      | _ => none

/-- The members of a table on one line, up to and with its closing brace, added to those read
before. -/
def members (fuel depth : Nat) (es : Entries) (s : List Char) : Option (Entries × List Char) :=
  match fuel with
  | 0 => none
  | fuel + 1 => do
    let ((path, name), s) ← key s
    match s with
    | '=' :: rest =>
      let (v, rest) ← value fuel depth (skipBlanks rest)
      let es ← es.insert? path name v
      match skipBlanks rest with
      | ',' :: rest => members fuel depth es rest
      | '}' :: rest => return (es, rest)
      | _ => none
    | _ => none

end

/-! ### Lines -/

/-- What has been read: the tables, and the path of the table that lines add to. -/
structure Progress where
  root : Entries
  current : List String

def Progress.insert? (p : Progress) (path : List String) (name : String) (v : Setting) :
    Option Progress := do
  let root ← Entries.within false (fun _ es => es.insert? path name v) .header p.current p.root
  return { p with root }

def header (p : Progress) (s : List Char) : Option (Progress × List Char) := do
  let ((path, name), s) ← key s
  match s with
  | ']' :: rest =>
    let root ← p.root.openTable? path name
    return (⟨root, path ++ [name]⟩, rest)
  | _ => none

/-- A line with the header of a list of tables, after its opening brackets. -/
def listHeader (p : Progress) (s : List Char) : Option (Progress × List Char) := do
  let ((path, name), s) ← key s
  match s with
  | ']' :: ']' :: rest =>
    let root ← p.root.openListed? path name
    return (⟨root, path ++ [name]⟩, rest)
  | _ => none

def assignment (p : Progress) (s : List Char) : Option (Progress × List Char) := do
  let ((path, name), s) ← key s
  match s with
  | '=' :: rest =>
    let body := skipBlanks rest
    let (v, rest) ← value (2 * body.length + 1) maxDepth body
    let p ← p.insert? path name v
    return (p, rest)
  | _ => none

/-- All lines. `fuel` bounds their number. -/
def lines : Nat → Progress → List Char → Option Progress
  | 0, _, _ => none
  | _, p, [] => some p
  | fuel + 1, p, s =>
    match skipBlanks s with
    | '[' :: '[' :: rest => do
      let (p, rest) ← listHeader p rest
      let rest ← lineEnd? rest
      lines fuel p rest
    | '[' :: rest => do
      let (p, rest) ← header p rest
      let rest ← lineEnd? rest
      lines fuel p rest
    | s =>
      match lineEnd? s with
      | some rest => lines fuel p rest
      | none => do
        let (p, rest) ← assignment p s
        let rest ← lineEnd? rest
        lines fuel p rest

/-- Reads a whole text as a document. A byte-order mark may begin it. -/
def read? (s : String) : Option (List (String × Setting)) :=
  let s := match s.toList with
    | '\ufeff' :: rest => rest
    | s => s
  (lines (s.length + 1) ⟨[], []⟩ s).map fun p => settings p.root

end RecordGraph.Toml
