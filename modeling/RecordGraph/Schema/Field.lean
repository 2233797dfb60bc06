import RecordGraph.Tag.Basic
import RecordGraph.Value.Column

/-!
# Fields of a schema

What a schema knows about the field of a column, and the keys among these fields. Keys are of two
types, integers and texts; a column of another kind cannot be a key.
-/

namespace RecordGraph

/-- A declared column with what its tags say. An excluded field has no column in the table. -/
structure Field where
  model : String
  table : String
  name : String
  index : Nat
  column : String
  kind : ColumnKind
  isNullable : Bool
  tags : Tags
  isPrimaryKey : Bool
  /-- The table or model that a foreign key refers to. -/
  foreignKey : Option String
  isExcluded : Bool
  default : Option String
  hasDefault : Bool
  isCreatedKey : Bool
  isUpdatedKey : Bool
  isDeletedKey : Bool
  deriving DecidableEq, Repr

/-- The column with its table. -/
def Field.path (f : Field) : String := f.table ++ "." ++ f.column

inductive KeyType where
  | integer | string
  deriving DecidableEq, Repr

namespace KeyType

def name : KeyType → String
  | integer => "integer"
  | string => "string"

/-- The type of a key in a column of a kind. -/
def ofKind? (kind : ColumnKind) : Option KeyType :=
  if kind.isInteger then some integer
  else if kind.isStringLike then some string
  else none

end KeyType

inductive KeyStrategy where
  | database | ulid | uuidV1 | uuidV4
  deriving DecidableEq, Repr

namespace KeyStrategy

def name : KeyStrategy → String
  | database => "Database"
  | ulid => "Ulid"
  | uuidV1 => "UuidV1"
  | uuidV4 => "UuidV4"

def ofTag? (tag : String) : Option KeyStrategy :=
  if tag = "" || tag = "true" || tag = "db" then some database
  else if tag = "ulid" then some ulid
  else if tag = "uuid-v1" then some uuidV1
  else if tag = "uuid-v4" || tag = "uuid" then some uuidV4
  else none

end KeyStrategy

structure PrimaryKey where
  field : Field
  keyType : KeyType
  strategy : KeyStrategy
  deriving DecidableEq, Repr

/-- The form of a generated key. -/
inductive GeneratedKey where
  /-- A text of a length. -/
  | text (length : Nat)
  | uuid
  deriving DecidableEq, Repr

/-- The form of the keys that are generated for new records; none if the database makes them. -/
def PrimaryKey.generated? (k : PrimaryKey) : Option GeneratedKey :=
  match k.strategy with
  | .database => none
  | .ulid => some (if k.field.kind = .uuid then .uuid else .text 26)
  | .uuidV1 => some (if k.field.kind = .uuid then .uuid else .text 36)
  | .uuidV4 => some (if k.field.kind = .uuid then .uuid else .text 36)

structure ForeignKey where
  field : Field
  /-- The table or the model that it refers to. -/
  reference : String
  keyType : KeyType
  deriving DecidableEq, Repr

namespace ForeignKey

def isOptional (k : ForeignKey) : Bool := k.field.isNullable

/-- Whether the key refers to a model by its table or its name. -/
def refersTo (k : ForeignKey) (table model : String) : Bool :=
  k.reference = table || k.reference = model

end ForeignKey

end RecordGraph
