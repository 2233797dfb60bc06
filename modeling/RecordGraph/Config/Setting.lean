import RecordGraph.Config.Basic
import RecordGraph.Json.Basic
import RecordGraph.Number.Shortest
import RecordGraph.Text.Cased

/-!
# Settings

A configuration is read from a tree of settings. A group of settings is a table, of which unknown
names are ignored, or a list with the settings in their order; in both, missing settings have their
standard value. A document is read strictly: a text has to be a text. Settings merged from layers
are read leniently: numbers and truth values count as their text.
-/

namespace RecordGraph

/-- A tree of settings. -/
inductive Setting where
  | null
  | bool (b : Bool)
  | integer (n : Int)
  /-- A number with a fraction or an exponent, by the bits of a double. -/
  | real (bits : Nat)
  | text (s : String)
  | list (items : List Setting)
  | table (entries : List (String × Setting))
  deriving Inhabited, Repr

namespace Setting

/-! ### Trees -/

def member? (name : String) : List (String × Setting) → Option Setting
  | [] => none
  | (n, v) :: rest => if n = name then some v else member? name rest

/-- Replaces the entry with a name, or adds it at the end. -/
def putEntry (name : String) (value : Setting) :
    List (String × Setting) → List (String × Setting)
  | [] => [(name, value)]
  | (n, v) :: rest =>
    if n = name then (name, value) :: rest else (n, v) :: putEntry name value rest

/-- The entries of a table; anything else has none. -/
def entries : Setting → List (String × Setting)
  | table es => es
  | _ => []

mutual

def ofJson : Json → Setting
  | .null => null
  | .bool b => bool b
  | .integer n => integer n
  | .real bits => real bits
  | .text s => text s
  | .array items => list (ofJsonItems items)
  | .object members => table (ofJsonMembers members)

def ofJsonItems : List Json → List Setting
  | [] => []
  | j :: rest => ofJson j :: ofJsonItems rest

def ofJsonMembers : List (String × Json) → List (String × Setting)
  | [] => []
  | (name, j) :: rest => (name, ofJson j) :: ofJsonMembers rest

end

/-! ### Reading -/

/-- How much a reader accepts. -/
inductive Strictness where
  | document
  | layers
  deriving DecidableEq, Repr

namespace Strictness

def readText (m : Strictness) : Setting → Option String
  | text s => some s
  | bool b => if m = layers then some (if b then "true" else "false") else none
  | integer n => if m = layers then some (toString n) else none
  | real bits => if m = layers then some (Number.doubleText bits) else none
  | _ => none

def readTexts (m : Strictness) : Setting → Option (List String)
  | list items => items.mapM m.readText
  | _ => none

/-- Adds an alias in the order of spellings. -/
def insertAlias (key value : String) : List (String × String) → List (String × String)
  | [] => [(key, value)]
  | (k, v) :: rest =>
    if key < k then (key, value) :: (k, v) :: rest
    else if key = k then (key, value) :: rest
    else (k, v) :: insertAlias key value rest

def readAliases (m : Strictness) : Setting → Option (List (String × String))
  | table es => es.foldlM
      (fun aliases e => (m.readText e.2).map fun s => insertAlias e.1 s aliases) []
  | _ => none

/-- A dialect, or a table with a dialect as its only name. -/
def readDialect (m : Strictness) : Setting → Option Dialect
  | text s => ofSpelling s
  | table [(name, value)] =>
    match m, value with
    | layers, _ => ofSpelling name
    | document, null => ofSpelling name
    | document, _ => none
  | _ => none
where
  /-- The dialect of a spelling; in layers in either case. -/
  ofSpelling (s : String) : Option Dialect :=
    if m = layers then Dialect.ofSpelling? (Text.lower s)
    else Dialect.ofSpelling? s

/-- Whether a setting can be a group of `size` settings. -/
def isGroup (m : Strictness) (size : Nat) : Setting → Bool
  | table _ => true
  | list items => m = layers || items.length ≤ size
  | _ => false

/-- A setting of a group by its name or its place, with the value that holds if it is missing. -/
def readPart {α : Type} (group : Setting) (name : String) (place : Nat) (standard : α)
    (read : Setting → Option α) : Option α :=
  let part := match group with
    | table es => member? name es
    | list items => items[place]?
    | _ => none
  match part with
  | some s => read s
  | none => some standard

def readKeys (m : Strictness) (s : Setting) : Option KeyDefaults := do
  guard (m.isGroup 4 s)
  let std := KeyDefaults.standard
  let primaryKey ← readPart s "primary_key" 0 std.primaryKey m.readText
  let createdKey ← readPart s "created_key" 1 std.createdKey m.readText
  let updatedKey ← readPart s "updated_key" 2 std.updatedKey m.readText
  let deletedKey ← readPart s "deleted_key" 3 std.deletedKey m.readText
  return ⟨primaryKey, createdKey, updatedKey, deletedKey⟩

def readTags (m : Strictness) (s : Setting) : Option TagOptions := do
  guard (m.isGroup 4 s)
  let std := TagOptions.standard
  let name ← readPart s "name" 0 std.name m.readText
  let namespaces ← readPart s "namespaces" 1 std.namespaces m.readTexts
  let columns ← readPart s "column_namespaces" 2 std.columnNamespaces m.readTexts
  let aliases ← readPart s "key_aliases" 3 std.keyAliases m.readAliases
  return ⟨name, namespaces, columns, aliases⟩

def readPreload (m : Strictness) (s : Setting) : Option Dialect := do
  guard (m.isGroup 1 s)
  readPart s "dialect" 0 Config.standard.dialect m.readDialect

/-- A whole configuration; `none` if some setting cannot be read. -/
def readConfig (m : Strictness) (s : Setting) : Option Config := do
  guard (m.isGroup 3 s)
  let std := Config.standard
  let schema ← readPart s "schema" 0 std.schema m.readKeys
  let tags ← readPart s "tags" 1 std.tags m.readTags
  let dialect ← readPart s "preload" 2 std.dialect m.readPreload
  return ⟨schema, tags, dialect⟩

end Strictness

end Setting

end RecordGraph
