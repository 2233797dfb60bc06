/-!
# Tags

A tag is a named list of properties that annotates a field. Properties keep the order in which they
were set, and the first one with a key is the one that counts.
-/

namespace RecordGraph

/-- One annotation: a key with a value. -/
structure TagProperty where
  key : String
  value : String
  deriving DecidableEq, Repr, Inhabited

/-- Properties under one name. -/
structure Tag where
  name : String
  properties : List TagProperty
  deriving DecidableEq, Repr, Inhabited

def Tag.get? (t : Tag) (key : String) : Option String :=
  (t.properties.find? fun p => p.key = key).map TagProperty.value

/-- The tags of a field, in the order in which their names were first set. -/
structure Tags where
  toList : List Tag
  deriving DecidableEq, Repr, Inhabited

namespace Tags

def empty : Tags := ⟨[]⟩

def isEmpty (t : Tags) : Bool := t.toList.isEmpty

def get? (t : Tags) (name : String) : Option Tag := t.toList.find? fun tag => tag.name = name

/-- Adds a property to the first tag of the name in a list, or a new tag at its end. -/
def setIn (name : String) (p : TagProperty) : List Tag → List Tag
  | [] => [⟨name, [p]⟩]
  | tag :: rest =>
    if tag.name = name then ⟨tag.name, tag.properties ++ [p]⟩ :: rest
    else tag :: setIn name p rest

def set (t : Tags) (name : String) (p : TagProperty) : Tags := ⟨setIn name p t.toList⟩

def value? (t : Tags) (name key : String) : Option String := (t.get? name).bind (·.get? key)

def hasKey (t : Tags) (name key : String) : Bool := (t.value? name key).isSome

end Tags

end RecordGraph
