import RecordGraph.Tag.Annotation
import RecordGraph.Tag.Basic

/-!
# Tags of an annotation

The properties of a field are read from the bodies of the configured names of its annotation, in
the configured order, and merged under one name. A body is a list of fragments separated by commas
or semicolons. A fragment is a key, which then has the value `true`, or a key and a value with a
colon between them; in a name that holds only columns a fragment is the name of a column. Fragments
without a key or with an empty value are skipped.
-/

namespace RecordGraph

/-- Where properties are read from and what they are called. -/
structure TagOptions where
  /-- The name that all properties are stored under. -/
  name : String
  /-- The names that are read from an annotation, in order. -/
  namespaces : List String
  /-- The names whose fragments are columns. -/
  columnNamespaces : List String
  /-- Other spellings of keys, in the order of these spellings. -/
  keyAliases : List (String × String)
  deriving DecidableEq, Repr

namespace TagOptions

def standard : TagOptions where
  name := "lifeline"
  namespaces := ["lifeline", "ll", "db"]
  columnNamespaces := ["db"]
  keyAliases := [("col", "column"), ("rel", "relation")]

instance : Inhabited TagOptions := ⟨standard⟩

/-- Settings that read nothing but columns from one name. -/
def columnOnly (name : String) : TagOptions := ⟨name, [name], [name], []⟩

def resolveAlias (o : TagOptions) (key : String) : String :=
  match o.keyAliases.find? fun a => a.1 = key with
  | some a => a.2
  | none => key

end TagOptions

namespace Tags

/-! ### Keys with a meaning -/

def excludedKey : String := "-"

def columnKey : String := "column"

def primaryKey : String := "pk"

def foreignKey : String := "fk"

def defaultKey : String := "default"

def relationKey : String := "relation"

/-- The value of a key that stands alone. -/
def trueValue : String := "true"

/-! ### Reading -/

/-- The property of a fragment that is trimmed and not empty. -/
def readFragment (o : TagOptions) (columnOnly : Bool) (fragment : List Char) :
    Option TagProperty :=
  if String.ofList fragment = excludedKey then some ⟨excludedKey, trueValue⟩
  else if columnOnly then some ⟨columnKey, String.ofList fragment⟩
  else match Text.cut (· == ':') fragment with
    | none => some ⟨o.resolveAlias (String.ofList fragment), trueValue⟩
    | some (key, value) =>
      let key := Text.trim key
      let value := Text.trim value
      if key.isEmpty || value.isEmpty then none
      else some ⟨o.resolveAlias (String.ofList key), String.ofList value⟩

/-- The fragments of a body, trimmed, without the empty ones. -/
def fragments (body : String) : List (List Char) :=
  ((Text.pieces (fun c => c == ',' || c == ';') body.toList).map Text.trim).filter
    fun f => !f.isEmpty

def propertiesOf (o : TagOptions) (raw name : String) : List TagProperty :=
  match Annotation.lookup raw name with
  | none => []
  | some body => (fragments body).filterMap (readFragment o (o.columnNamespaces.contains name))

/-- The properties of an annotation: of each configured name once, in the configured order. -/
def properties (o : TagOptions) (raw : String) : List TagProperty :=
  o.namespaces.eraseDups.flatMap (propertiesOf o raw)

def ofAnnotation (o : TagOptions) (raw : String) : Tags :=
  (properties o raw).foldl (fun t p => t.set o.name p) empty

end Tags

end RecordGraph
