import RecordGraph.Json.Reader
import RecordGraph.Value.Column

/-!
# Reading values into column types

A stored value is read into a field by coercion. An integer of any width is accepted wherever the
number fits, and by the floating types and, if it is zero or one, by the booleans; a text is
accepted where it can be read as the type. A null is accepted by the types that can hold nothing.
-/

namespace RecordGraph

/-! ### Reasons -/

/-- Why a value of an accepted kind could not be converted. -/
inductive Conversion where
  /-- The number does not fit the width. -/
  | overflow (n : Int) (t : IntType)
  /-- The number is neither zero nor one. -/
  | notBool (n : Int)
  /-- The text or the bytes are no written form of the type. -/
  | unreadable
  deriving DecidableEq, Repr

/-- The text of the reason; none is given for what cannot be read. -/
def Conversion.text : Conversion → String
  | overflow n t => toString n ++ " overflows " ++ t.name
  | notBool n => toString n ++ " is not a bool"
  | unreadable => "#"

/-- Why a value was not accepted. -/
inductive ScanError where
  | null (expected : String)
  | mismatch (expected actual : String)
  | conversion (reason : Conversion)
  deriving DecidableEq, Repr

namespace ScanError

/-- What would have been accepted. -/
def expected : ScanError → String
  | null expected => expected
  | mismatch expected _ => expected
  | conversion _ => "convertible value"

/-- What was there instead. -/
def actual : ScanError → String
  | null _ => "null"
  | mismatch _ actual => actual
  | conversion reason => reason.text

def conversionMessage (reason : String) : String := "Conversion error: " ++ reason

def message : ScanError → String
  | null expected => "cannot scan null into " ++ expected
  | mismatch expected actual => "Type mismatch: expected " ++ expected ++ ", got " ++ actual
  | conversion reason => conversionMessage reason.text

end ScanError

/-! ### Base types -/

namespace BaseType

/-- The refusal of a value of a kind that is never accepted. -/
def refusal (b : BaseType) (v : Value) : ScanError :=
  if v.isNull then .null b.label else .mismatch b.label v.typeName

def converted {α : Type} : Option α → Except ScanError α
  | some x => .ok x
  | none => .error (.conversion .unreadable)

/-- An integer that has to fit the width. -/
def scanInt (t : IntType) (v : Value) : Except ScanError t.Word :=
  match v.integer? with
  | some n => match t.ofInt? n with
    | some w => .ok w
    | none => .error (.conversion (.overflow n t))
  | none => .error ((int t).refusal v)

/-- A double, or the double nearest to a number of another kind. -/
def scanDouble (v : Value) : Except ScanError UInt64 :=
  match v with
  | .f64 (some bits) => .ok bits
  | .f32 (some bits) => .ok (UInt64.ofNat (Number.single.convert Number.double bits.toNat))
  | v => match v.integer? with
    | some n => .ok (UInt64.ofNat (Number.double.ofInt n))
    | none => .error (f64.refusal v)

/-- A single, or the single nearest to a number of another kind. -/
def scanSingle (v : Value) : Except ScanError UInt32 :=
  match v with
  | .f32 (some bits) => .ok bits
  | .f64 (some bits) => .ok (UInt32.ofNat (Number.double.convert Number.single bits.toNat))
  | v => match v.integer? with
    | some n => .ok (UInt32.ofNat (Number.single.ofInt n))
    | none => .error (f32.refusal v)

/-- A boolean, or an integer that is zero or one. -/
def scanBool (v : Value) : Except ScanError Bool :=
  match v with
  | .bool (some b) => .ok b
  | v => match v.integer? with
    | some n =>
      if n = 0 then .ok false
      else if n = 1 then .ok true
      else .error (.conversion (.notBool n))
    | none => .error (bool.refusal v)

/-- A text, a character or the canonical text of an identifier. -/
def scanText (v : Value) : Except ScanError String :=
  match v with
  | .text (some s) => .ok s
  | .char (some c) => .ok (String.ofList [c])
  | .uuid (some u) => .ok u.text
  | v => .error (text.refusal v)

/-- Bytes, or those of a text. -/
def scanBytes (v : Value) : Except ScanError (List UInt8) :=
  match v with
  | .bytes (some b) => .ok b
  | .text (some s) => .ok s.toUTF8.data.toList
  | v => .error (bytes.refusal v)

/-- A JSON value, or a text that is one. -/
def scanJson (v : Value) : Except ScanError Json :=
  match v with
  | .json (some j) => .ok j
  | .text (some s) => converted (Json.read? s)
  | v => .error (json.refusal v)

/-- An identifier, a written form of one, or its sixteen bytes. -/
def scanUuid (v : Value) : Except ScanError Uuid :=
  match v with
  | .uuid (some u) => .ok u
  | .text (some s) => converted (Uuid.read? s)
  | .bytes (some b) => converted (Uuid.ofBytes? b)
  | v => .error (uuid.refusal v)

/-- A moment of either kind, or a plain written form. -/
def scanDatetime (v : Value) : Except ScanError Instant :=
  match v with
  | .datetime (some i) => .ok i
  | .datetimeUtc (some i) => .ok i
  | .text (some s) => converted (Calendar.readPlain? s)
  | v => .error (datetime.refusal v)

/-- A moment of either kind, or a written form with an offset. -/
def scanDatetimeUtc (v : Value) : Except ScanError Instant :=
  match v with
  | .datetimeUtc (some i) => .ok i
  | .datetime (some i) => .ok i
  | .text (some s) => converted (Calendar.readExact? s)
  | v => .error (datetimeUtc.refusal v)

def scan : (b : BaseType) → Value → Except ScanError b.Carrier
  | int t, v => scanInt t v
  | f32, v => scanSingle v
  | f64, v => scanDouble v
  | bool, v => scanBool v
  | text, v => scanText v
  | bytes, v => scanBytes v
  | json, v => scanJson v
  | uuid, v => scanUuid v
  | datetime, v => scanDatetime v
  | datetimeUtc, v => scanDatetimeUtc v

theorem scan_toValue (b : BaseType) (x : b.Carrier) : b.scan (b.toValue x) = .ok x := by
  cases b with
  | int t => simp [scan, scanInt, toValue, Value.integer?, IntType.ofInt?_val]
  | _ => rfl

end BaseType

/-! ### Column types -/

namespace ColumnType

/-- Reads a value into the type; a null is nothing for the types that can hold it. -/
def scan : (T : ColumnType) → Value → Except ScanError T.Carrier
  | plain b, v => b.scan v
  | option T, v =>
    if v.isNull then .ok none
    else match T.scan v with
      | .ok x => .ok (some x)
      | .error e => .error e
  | nullable T, v =>
    if v.isNull then .ok (Nullable.null T.initial)
    else match T.scan v with
      | .ok x => .ok (Nullable.new x)
      | .error e => .error e

/-- Reads a value and gives it back as it is then stored. -/
def coerce (T : ColumnType) (v : Value) : Except ScanError Value :=
  match T.scan v with
  | .ok x => .ok (T.toValue x)
  | .error e => .error e

end ColumnType

end RecordGraph
