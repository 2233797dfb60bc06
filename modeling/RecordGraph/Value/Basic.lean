import RecordGraph.Calendar
import RecordGraph.Json.Basic
import RecordGraph.Number.Binary
import RecordGraph.Uuid

/-!
# Column values

What a database column may hold. Every kind of value has a null of its own. An integer carries its
width and lies in the range of that width; a floating-point number is held by its bits.
-/

namespace RecordGraph

/-! ### Integer widths -/

/-- A fixed width, with or without a sign. -/
inductive IntType where
  | i8 | i16 | i32 | i64 | u8 | u16 | u32 | u64
  deriving DecidableEq, Repr, Inhabited

namespace IntType

def name : IntType → String
  | i8 => "i8" | i16 => "i16" | i32 => "i32" | i64 => "i64"
  | u8 => "u8" | u16 => "u16" | u32 => "u32" | u64 => "u64"

def isSigned : IntType → Bool
  | i8 | i16 | i32 | i64 => true
  | u8 | u16 | u32 | u64 => false

def least : IntType → Int
  | i8 => -0x80 | i16 => -0x8000 | i32 => -0x80000000 | i64 => -0x8000000000000000
  | u8 | u16 | u32 | u64 => 0

def greatest : IntType → Int
  | i8 => 0x7f | i16 => 0x7fff | i32 => 0x7fffffff | i64 => 0x7fffffffffffffff
  | u8 => 0xff | u16 => 0xffff | u32 => 0xffffffff | u64 => 0xffffffffffffffff

/-- A number in the range of the width. -/
abbrev Word (t : IntType) := { n : Int // t.least ≤ n ∧ n ≤ t.greatest }

def ofInt? (t : IntType) (n : Int) : Option t.Word :=
  if h : t.least ≤ n ∧ n ≤ t.greatest then some ⟨n, h⟩ else none

theorem ofInt?_val (t : IntType) (w : t.Word) : t.ofInt? w.val = some w := by
  simp [ofInt?, w.property]

theorem zero_inRange (t : IntType) : t.least ≤ 0 ∧ 0 ≤ t.greatest := by
  cases t <;> decide

instance (t : IntType) : Inhabited t.Word := ⟨⟨0, t.zero_inRange⟩⟩

end IntType

/-! ### Values -/

/-- A value of a column; `none` is the null of its kind. -/
inductive Value where
  | int (t : IntType) (n : Option t.Word)
  /-- Single precision, by its bits. -/
  | f32 (bits : Option UInt32)
  /-- Double precision, by its bits. -/
  | f64 (bits : Option UInt64)
  | bool (b : Option Bool)
  | text (s : Option String)
  | char (c : Option Char)
  | bytes (b : Option (List UInt8))
  | json (j : Option Json)
  | uuid (u : Option Uuid)
  /-- A moment without a time zone. -/
  | datetime (i : Option Instant)
  /-- A moment of universal time. -/
  | datetimeUtc (i : Option Instant)
  /-- A moment with an offset in seconds, that of a given zone or of local time. No column type has
  such values, and no operation tells the two apart, so that they are one kind. -/
  | datetimeTz (i : Option (Instant × Int))
  | date (d : Option Date)
  | time (t : Option TimeOfDay)
  deriving Inhabited, Repr

namespace Value

/-- The name of the kind of a value; the kinds that no column type maps to share one. -/
def typeName : Value → String
  | int t _ => t.name
  | f32 _ => "f32"
  | f64 _ => "f64"
  | bool _ => "bool"
  | text _ => "string"
  | char _ => "char"
  | bytes _ => "bytes"
  | json _ => "json"
  | uuid _ => "uuid"
  | datetime _ => "datetime"
  | datetimeUtc _ => "datetime_utc"
  | datetimeTz _ => "other"
  | date _ => "other"
  | time _ => "other"

def isNull : Value → Bool
  | int _ n => n.isNone
  | f32 b => b.isNone
  | f64 b => b.isNone
  | bool b => b.isNone
  | text s => s.isNone
  | char c => c.isNone
  | bytes b => b.isNone
  | json j => j.isNone
  | uuid u => u.isNone
  | datetime i => i.isNone
  | datetimeUtc i => i.isNone
  | datetimeTz i => i.isNone
  | date d => d.isNone
  | time t => t.isNone

def integer? : Value → Option Int
  | int _ n => n.map Subtype.val
  | _ => none

/-- Whether a value stands for nothing: a null, a zero, `false`, or an empty text. -/
def isZero (v : Value) : Bool :=
  v.isNull || match v with
    | bool (some b) => !b
    | f32 (some bits) => Number.single.isZero bits.toNat
    | f64 (some bits) => Number.double.isZero bits.toNat
    | text (some s) => s.isEmpty
    | bytes (some b) => b.isEmpty
    | uuid (some u) => u = Uuid.zero
    | v => v.integer? = some 0

end Value

end RecordGraph
