import RecordGraph.Value.Basic

/-!
# Column types

The type of a field that is stored in a column. A type is a base type, or another type in one of
two wrappers that can also hold nothing: an option, and a pair of a validity flag and a value. A
datum `x` of the type `T` is an element of `T.Carrier`, and `T.toValue x` is what goes into the
column.
-/

namespace RecordGraph

/-! ### Kinds -/

/-- The broad category of a column type. -/
inductive ColumnKind where
  | integer | unsigned | float | bool | string | bytes | json | uuid | datetime
  deriving DecidableEq, Repr, Inhabited

namespace ColumnKind

def name : ColumnKind → String
  | integer => "integer" | unsigned => "unsigned" | float => "float" | bool => "bool"
  | string => "string" | bytes => "bytes" | json => "json" | uuid => "uuid"
  | datetime => "datetime"

def isInteger : ColumnKind → Bool
  | integer | unsigned => true
  | _ => false

def isStringLike : ColumnKind → Bool
  | string | uuid => true
  | _ => false

end ColumnKind

/-! ### Base types -/

/-- A column type that cannot hold a null. -/
inductive BaseType where
  | int (t : IntType)
  | f32 | f64 | bool | text | bytes | json | uuid | datetime | datetimeUtc
  deriving DecidableEq, Repr, Inhabited

namespace BaseType

abbrev Carrier : BaseType → Type
  | int t => t.Word
  | f32 => UInt32
  | f64 => UInt64
  | bool => Bool
  | text => String
  | bytes => List UInt8
  | json => Json
  | uuid => Uuid
  | datetime => Instant
  | datetimeUtc => Instant

def kind : BaseType → ColumnKind
  | int t => if t.isSigned then .integer else .unsigned
  | f32 => .float
  | f64 => .float
  | bool => .bool
  | text => .string
  | bytes => .bytes
  | json => .json
  | uuid => .uuid
  | datetime => .datetime
  | datetimeUtc => .datetime

/-- The name of the type in the reason why a value cannot be read. -/
def label : BaseType → String
  | int t => t.name
  | f32 => "f32"
  | f64 => "f64"
  | bool => "bool"
  | text => "String"
  | bytes => "Vec<u8>"
  | json => "json"
  | uuid => "uuid"
  | datetime => "datetime"
  | datetimeUtc => "datetime"

def typeName : BaseType → String
  | int t => t.name
  | f32 => "f32"
  | f64 => "f64"
  | bool => "bool"
  | text => "alloc::string::String"
  | bytes => "alloc::vec::Vec<u8>"
  | json => "serde_json::value::Value"
  | uuid => "uuid::Uuid"
  | datetime => "chrono::naive::datetime::NaiveDateTime"
  | datetimeUtc => "chrono::datetime::DateTime<chrono::offset::utc::Utc>"

/-- The datum of a field that nothing was written to. -/
def initial : (b : BaseType) → b.Carrier
  | int _ => (default : IntType.Word _)
  | f32 => (0 : UInt32)
  | f64 => (0 : UInt64)
  | bool => false
  | text => ""
  | bytes => ([] : List UInt8)
  | json => Json.null
  | uuid => Uuid.zero
  | datetime => Instant.epoch
  | datetimeUtc => Instant.epoch

/-- The value that a datum is stored as. -/
def toValue : (b : BaseType) → b.Carrier → Value
  | int t, n => .int t (some n)
  | f32, bits => .f32 (some bits)
  | f64, bits => .f64 (some bits)
  | bool, b => .bool (some b)
  | text, s => .text (some s)
  | bytes, b => .bytes (some b)
  | json, j => .json (some j)
  | uuid, u => .uuid (some u)
  | datetime, i => .datetime (some i)
  | datetimeUtc, i => .datetimeUtc (some i)

def null : BaseType → Value
  | int t => .int t none
  | f32 => .f32 none
  | f64 => .f64 none
  | bool => .bool none
  | text => .text none
  | bytes => .bytes none
  | json => .json none
  | uuid => .uuid none
  | datetime => .datetime none
  | datetimeUtc => .datetimeUtc none

/-- Whether a datum is the initial one, or one that counts as nothing. -/
def isZero : (b : BaseType) → b.Carrier → Bool
  | int _, n => n.val = 0
  | f32, bits => Number.single.isZero bits.toNat
  | f64, bits => Number.double.isZero bits.toNat
  | bool, b => !b
  | text, s => s.isEmpty
  | bytes, b => b.isEmpty
  | json, j => j.isNull
  | uuid, u => decide ((u : Uuid) = Uuid.zero)
  | datetime, i => decide ((i : Instant) = Instant.epoch)
  | datetimeUtc, i => decide ((i : Instant) = Instant.epoch)

theorem isNull_toValue (b : BaseType) (x : b.Carrier) : (b.toValue x).isNull = false := by
  cases b <;> rfl

theorem isNull_null (b : BaseType) : b.null.isNull = true := by
  cases b <;> rfl

end BaseType

/-! ### Values with a validity flag -/

/-- A value and whether it counts. What stands in `value` when `valid` is false is ignored. -/
structure Nullable (α : Type) where
  valid : Bool
  value : α
  deriving DecidableEq, Repr

namespace Nullable

variable {α : Type}

/-- A value that counts. -/
def new (value : α) : Nullable α := ⟨true, value⟩

/-- No value, with the given one in its place. -/
def null (initial : α) : Nullable α := ⟨false, initial⟩

def toOption (n : Nullable α) : Option α := if n.valid then some n.value else none

def ofOption (initial : α) : Option α → Nullable α
  | some value => new value
  | none => null initial

@[simp] theorem toOption_ofOption (initial : α) (o : Option α) :
    (ofOption initial o).toOption = o := by
  cases o <;> rfl

end Nullable

/-! ### Column types -/

/-- The type of a stored field. -/
inductive ColumnType where
  | plain (b : BaseType)
  /-- Another type or nothing. -/
  | option (T : ColumnType)
  /-- Another type with a validity flag. -/
  | nullable (T : ColumnType)
  deriving DecidableEq, Repr, Inhabited

namespace ColumnType

/-- The base type inside all wrappers. -/
def base : ColumnType → BaseType
  | plain b => b
  | option T => T.base
  | nullable T => T.base

abbrev Carrier : ColumnType → Type
  | plain b => b.Carrier
  | option T => Option T.Carrier
  | nullable T => Nullable T.Carrier

def kind (T : ColumnType) : ColumnKind := T.base.kind

/-- Whether the type can hold nothing. -/
def isNullable : ColumnType → Bool
  | plain _ => false
  | option _ => true
  | nullable _ => true

def typeName : ColumnType → String
  | plain b => b.typeName
  | option T => "core::option::Option<" ++ T.typeName ++ ">"
  | nullable T => "lifeline::value::nullable::Nullable<" ++ T.typeName ++ ">"

def initial : (T : ColumnType) → T.Carrier
  | plain b => b.initial
  | option _ => none
  | nullable T => Nullable.null T.initial

def null (T : ColumnType) : Value := T.base.null

/-- The value that a datum is stored as; nothing is stored as the null. -/
def toValue : (T : ColumnType) → T.Carrier → Value
  | plain b, x => b.toValue x
  | option T, x => match x with
    | some y => T.toValue y
    | none => T.null
  | nullable T, x => if x.valid then T.toValue x.value else T.null

def isZero : (T : ColumnType) → T.Carrier → Bool
  | plain b, x => b.isZero x
  | option T, x => match x with
    | some y => T.isZero y
    | none => true
  | nullable T, x => !x.valid || T.isZero x.value

end ColumnType

end RecordGraph
