import RecordGraph.Config.Toml.Reader
import RecordGraph.Text.Digits

/-!
# Layers

A configuration is loaded in two layers: a document, and over it the variables of an environment.
Names in both are read without regard to case. The name at the top of a document and the name of a
variable say where a setting is placed, as a path of names and indices; tables on the way are made,
and a table that is placed over another one is merged with it.
-/

namespace RecordGraph

namespace Setting

/-! ### Merging -/

def spelling (name : String) : String := Text.lower name

mutual

/-- A setting placed over what was there: a table is merged, anything else replaces. -/
def overlay : Setting → Option Setting → Setting
  | table es, old => merge es (old.getD (table []))
  | null, _ => null
  | bool b, _ => bool b
  | integer n, _ => integer n
  | real bits, _ => real bits
  | text s, _ => text s
  | list items, _ => list items

/-- Entries placed one after the other over a tree. -/
def merge : List (String × Setting) → Setting → Setting
  | [], s => s
  | (name, v) :: rest, s =>
    merge rest (table (putEntry (spelling name)
      (overlay v (member? (spelling name) s.entries)) s.entries))

end

/-! ### Places -/

inductive PathStep where
  | name (s : String)
  /-- An index; a negative one counts from the end. -/
  | index (i : Int)
  deriving DecidableEq, Repr

def items : Setting → List Setting
  | list items => items
  | _ => []

/-- Replaces the item at an index; a list that is too short is filled up with nulls. -/
def putItem (i : Int) (change : Setting → Setting) (old : List Setting) : List Setting :=
  let n := if 0 ≤ i then i.toNat else (old.length + i).toNat
  let long := old ++ List.replicate (n + 1 - old.length) null
  long.set n (change (long[n]?.getD null))

/-- Places a setting in a tree. What stands on the way and is no table or list is replaced. -/
def place (v : Setting) : List PathStep → Setting → Setting
  | [], _ => v
  | [.name n], s => merge [(n, v)] s
  | .name n :: step :: rest, s =>
    let old := (member? (spelling n) s.entries).getD null
    table (putEntry (spelling n) (place v (step :: rest) old) s.entries)
  | .index i :: rest, s => list (putItem i (place v rest) s.items)

def isPathChar (c : Char) : Bool := c.isAlphanum || c == ' ' || c == '_' || c == '-'

/-- An index between brackets; it has to fit into 64 bits with a sign. -/
def index? (s : List Char) : Option Int :=
  let s := s.dropWhile (fun c => c == ' ' || c == '\t')
  let (negative, s) := match s with
    | '-' :: rest => (true, rest)
    | s => (false, s)
  let digits := s.takeWhile Char.isDigit
  let rest := (s.dropWhile Char.isDigit).dropWhile (fun c => c == ' ' || c == '\t')
  let n : Int := if negative then -Text.digitsValue digits else Text.digitsValue digits
  if digits.isEmpty || !rest.isEmpty || n < -0x8000000000000000 || 0x7fffffffffffffff < n then none
  else some n

/-- The steps behind the first name. `fuel` bounds their number. -/
def steps? : Nat → List Char → Option (List PathStep)
  | _, [] => some []
  | 0, _ => none
  | fuel + 1, '.' :: rest =>
    let name := rest.takeWhile isPathChar
    if name.isEmpty then none
    else (steps? fuel (rest.dropWhile isPathChar)).map (.name (String.ofList name) :: ·)
  | fuel + 1, '[' :: rest => do
    let (inside, rest) ← Text.cut (· == ']') rest
    let i ← index? inside
    let steps ← steps? fuel rest
    return .index i :: steps
  | _, _ => none

/-- The place that a text spells; a text that spells none is one name. -/
def placeOf (s : String) : List PathStep :=
  let cs := s.toList
  let name := cs.takeWhile isPathChar
  if name.isEmpty then [.name s]
  else match steps? cs.length (cs.dropWhile isPathChar) with
    | some steps => .name (String.ofList name) :: steps
    | none => [.name s]

/-- Places entries one after the other in a tree, each where its name says. -/
def layer (es : List (String × Setting)) (s : Setting) : Setting :=
  es.foldl (fun s e => place e.2 (placeOf e.1) s) s

end Setting

/-! ### Loading -/

namespace Config

def variableStart : List Char := "lifeline__".toList

/-- The rest of a variable's name with dots for its double underscores. -/
def dotted : List Char → List Char
  | '_' :: '_' :: rest => '.' :: dotted rest
  | c :: rest => c :: dotted rest
  | [] => []

/-- The setting that a variable stands for. -/
def ofVariable? (v : String × String) : Option (String × Setting) :=
  let name := (Text.lower v.1).toList
  if variableStart.isPrefixOf name then
    some (String.ofList (dotted (name.drop variableStart.length)), .text v.2)
  else none

/-- The content of a file without the byte-order mark that may begin it. -/
def unmarked (content : String) : String :=
  match content.toList with
  | '\ufeff' :: rest => String.ofList rest
  | _ => content

/-- Loads a configuration from the text of a document, which may be missing, and variables. A text
that is no document is passed over; `none` if some setting cannot be read. -/
def load? (document : Option String) (environment : List (String × String)) : Option Config :=
  let es := (document.bind fun content => Toml.read? (unmarked content)).getD []
  let tree := Setting.layer (environment.filterMap ofVariable?) (Setting.layer es (.table []))
  Setting.Strictness.layers.readConfig tree

end Config

end RecordGraph
