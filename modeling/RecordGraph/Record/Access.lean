import RecordGraph.Error
import RecordGraph.Record.Basic

/-!
# Reading and writing fields

A field is read and written by its name. A column takes every value that its type accepts. A
reference takes a record of its target or nothing. A collection takes a list of records of its
target; a field can also be pushed to, which adds records to a collection and is the same as writing
for any other field. What was added to a collection before a record of another model stays.
-/

namespace RecordGraph

variable {M : Type} [DecidableEq M]

/-- What a slot takes, and what it was given instead. -/
structure Mismatch where
  expected : String
  actual : String
  deriving DecidableEq, Repr

/-- How a value is written. -/
inductive WriteMode where
  | replace
  /-- Adds to a collection. -/
  | append
  deriving DecidableEq, Repr

namespace Family

variable (F : Family M)

/-- A field value in the message of a mismatch. -/
def describeValue : FieldValue (Record M) → String
  | .column v => v.typeName
  | .one (some r) => (F.model r.model).name
  | .one none => "empty reference"
  | .many _ => "collection"

/-! ### Slots -/

/-- The record if it is of the target. -/
def checkTarget (target : M) (r : Record M) : Except Mismatch (Record M) :=
  if r.model = target then .ok r
  else .error ⟨(F.model target).typeName, (F.model r.model).name⟩

/-- The records if all of them are of the target; else what the first other one is. -/
def checkTargets (target : M) : List (Record M) → Except Mismatch (List (Record M))
  | [] => .ok []
  | r :: rest =>
    match F.checkTarget target r with
    | .error e => .error e
    | .ok r => match checkTargets target rest with
      | .error e => .error e
      | .ok rs => .ok (r :: rs)

/-- The records before the first one that is not of the target, and what that one is. -/
def takeTargets (target : M) : List (Record M) → List (Record M) × Option Mismatch
  | [] => ([], none)
  | r :: rest =>
    match F.checkTarget target r with
    | .error e => ([], some e)
    | .ok r => let (rs, e) := takeTargets target rest; (r :: rs, e)

/-- A slot after a write, and why the write failed if it did. -/
abbrev SlotWrite (M : Type) := Slot M (Record M) × Option Mismatch

def writeSlot (mode : WriteMode) (s : Slot M (Record M)) (v : FieldValue (Record M)) :
    SlotWrite M :=
  match s with
  | .column T _ =>
    match v with
    | .column value =>
      match T.scan value with
      | .ok x => (.column T x, none)
      | .error e => (s, some ⟨e.expected, e.actual⟩)
    | v => (s, some ⟨T.typeName, F.describeValue v⟩)
  | .reference target _ =>
    match v with
    | .one (some r) =>
      match F.checkTarget target r with
      | .ok r => (.reference target (some r), none)
      | .error e => (s, some e)
    | .one none => (.reference target none, none)
    | v => (s, some ⟨(F.model target).typeName, F.describeValue v⟩)
  | .collection target records =>
    match mode, v with
    | .replace, .many rs =>
      match F.checkTargets target rs with
      | .ok rs => (.collection target rs, none)
      | .error e => (s, some e)
    | .append, .many rs =>
      let (taken, e) := F.takeTargets target rs
      (.collection target (records ++ taken), e)
    | .append, .one (some r) =>
      match F.checkTarget target r with
      | .ok r => (.collection target (records ++ [r]), none)
      | .error e => (s, some e)
    | .append, .one none => (s, none)
    | _, v =>
      (s, some ⟨(FieldType.collection target none).typeName F, F.describeValue v⟩)

/-! ### Fields by name -/

def noField (m : M) (name : String) : Error := .fieldNotFound (F.model m).name name

/-- The place, the declaration and the slot of a field of a record. -/
def locate (r : Record M) (name : String) :
    Except Error (Nat × FieldDecl M × Slot M (Record M)) :=
  match (F.model r.model).position? name with
  | none => .error (F.noField r.model name)
  | some i =>
    match (F.model r.model).fields[i]?, r.slots[i]? with
    | some f, some s => .ok (i, f, s)
    | _, _ => .error (F.noField r.model name)

def getField (r : Record M) (name : String) : Except Error (FieldValue (Record M)) :=
  match F.locate r name with
  | .ok (_, _, s) => .ok s.read
  | .error e => .error e

/-- Writes into the slot in one place, which belongs to a declaration. -/
def writeAt (mode : WriteMode) (r : Record M) (i : Nat) (f : FieldDecl M)
    (s : Slot M (Record M)) (v : FieldValue (Record M)) : Attempt (Record M) Unit :=
  let (s, failure) := F.writeSlot mode s v
  ⟨r.setSlot i s, match failure with
    | none => .ok ()
    | some e => .error (.typeMismatch (F.model r.model).name f.name e.expected e.actual)⟩

def writeField (mode : WriteMode) (r : Record M) (name : String) (v : FieldValue (Record M)) :
    Attempt (Record M) Unit :=
  match F.locate r name with
  | .ok (i, f, s) => F.writeAt mode r i f s v
  | .error e => .failed r e

def setField (r : Record M) (name : String) (v : FieldValue (Record M)) :
    Attempt (Record M) Unit := F.writeField .replace r name v

def pushField (r : Record M) (name : String) (v : FieldValue (Record M)) :
    Attempt (Record M) Unit := F.writeField .append r name v

def setFields (r : Record M) : List (String × FieldValue (Record M)) → Attempt (Record M) Unit
  | [] => .done r ()
  | (name, v) :: rest =>
    let a := F.setField r name v
    match a.result with
    | .ok () => setFields a.state rest
    | .error _ => a

/-- A record of a model with the given contents of fields. -/
def build (m : M) (contents : List (String × FieldValue (Record M))) :
    Except Error (Record M) :=
  let a := F.setFields (F.blank m) contents
  match a.result with
  | .ok () => .ok a.state
  | .error e => .error e

end Family

end RecordGraph
