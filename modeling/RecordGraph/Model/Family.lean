import RecordGraph.Text.Quoted
import RecordGraph.Value.Column

/-!
# Models

A model names its table and declares its fields: columns, single references and collections. Models
refer to one another, also in cycles, so they are given together, as a finite family indexed by the
type `M` of their identities.
-/

namespace RecordGraph

variable {M : Type}

/-- What a field holds. -/
inductive FieldType (M : Type) where
  | column (T : ColumnType)
  /-- At most one record; it may be boxed, which only its type name shows. -/
  | reference (target : M) (boxed : Bool)
  /-- Any number of records, which a join model may link to their owner. -/
  | collection (target : M) (through : Option M)
  deriving DecidableEq, Repr

structure FieldDecl (M : Type) where
  name : String
  annotation : String
  type : FieldType M
  deriving DecidableEq, Repr

structure Model (M : Type) where
  name : String
  /-- The full name of the type of its records. -/
  typeName : String
  table : String
  /-- The primary key column, where it is not the conventional one. -/
  primaryKey : Option String
  fields : List (FieldDecl M)
  deriving DecidableEq, Repr

/-- A finite family of models. -/
structure Family (M : Type) where
  model : M → Model M
  all : List M
  mem_all : ∀ m, m ∈ all

/-! ### Fields of a model -/

namespace FieldType

def isAssociation : FieldType M → Bool
  | column _ => false
  | _ => true

def kind? : FieldType M → Option ColumnKind
  | column T => some T.kind
  | _ => none

def target? : FieldType M → Option M
  | column _ => none
  | reference target _ => some target
  | collection target _ => some target

def typeName (F : Family M) : FieldType M → String
  | column T => T.typeName
  | reference target false => "core::option::Option<" ++ (F.model target).typeName ++ ">"
  | reference target true =>
    "core::option::Option<alloc::boxed::Box<" ++ (F.model target).typeName ++ ">>"
  | collection target _ => "alloc::vec::Vec<" ++ (F.model target).typeName ++ ">"

end FieldType

namespace Model

def field? (m : Model M) (name : String) : Option (FieldDecl M) :=
  m.fields.find? fun f => f.name = name

/-- The place of the first field with a name. -/
def position? (m : Model M) (name : String) : Option Nat :=
  m.fields.findIdx? fun f => f.name = name

end Model

/-! ### Descriptions -/

def ColumnKind.title : ColumnKind → String
  | integer => "Integer" | unsigned => "Unsigned" | float => "Float" | bool => "Bool"
  | string => "String" | bytes => "Bytes" | json => "Json" | uuid => "Uuid"
  | datetime => "DateTime"

namespace Family

open Text (quoted bracketed)

/-- A named group of parts in braces. -/
def group (name : String) (parts : List (String × String)) : String :=
  name ++ " \x7b " ++ ", ".intercalate (parts.map fun p => p.1 ++ ": " ++ p.2) ++ " \x7d"

def describeTarget (F : Family M) (m : M) : String :=
  group "TargetRef" [("model_name", quoted (F.model m).name),
    ("table_name", quoted (F.model m).table)]

def describeType (F : Family M) : FieldType M → String
  | .column T =>
    (if T.isNullable then "OptionalScalar(" else "Scalar(") ++ T.kind.title ++ ")"
  | .reference target _ => "One(" ++ F.describeTarget target ++ ")"
  | .collection target through =>
    group "Many" [("target", F.describeTarget target),
      ("through", match through with
        | some join => "Some(" ++ F.describeTarget join ++ ")"
        | none => "None")]

def describeField (F : Family M) (f : FieldDecl M) : String :=
  group "FieldDescriptor" [("name", quoted f.name), ("tag", quoted f.annotation),
    ("shape", F.describeType f.type), ("value_type", quoted (f.type.typeName F))]

def describe (F : Family M) (m : M) : String :=
  let model := F.model m
  group "ModelDescriptor" [("model_name", quoted model.name), ("table_name", quoted model.table),
    ("primary_key", match model.primaryKey with
      | some key => "Some(" ++ quoted key ++ ")"
      | none => "None"),
    ("fields", bracketed (model.fields.map F.describeField))]

end Family

end RecordGraph
