import RecordGraph.Model.Family
import RecordGraph.Value.Scan

/-!
# Records

A record of a model holds one slot for each declared field, in the order of declaration. A slot
holds the datum of a column, at most one record, or a list of records. What is read from a slot and
written into it is a field value, in which a column is a plain value.
-/

namespace RecordGraph

variable {M R : Type}

/-- What one field of a record holds; `R` is the type of records. -/
inductive Slot (M R : Type) where
  | column (T : ColumnType) (x : T.Carrier)
  | reference (target : M) (record : Option R)
  | collection (target : M) (records : List R)

inductive Record (M : Type) where
  | mk (model : M) (slots : List (Slot M (Record M)))

/-- The content of a field outside of a record. -/
inductive FieldValue (R : Type) where
  | column (v : Value)
  | one (record : Option R)
  | many (records : List R)

namespace Record

def model : Record M → M
  | mk m _ => m

def slots : Record M → List (Slot M (Record M))
  | mk _ ss => ss

def withSlots (r : Record M) (ss : List (Slot M (Record M))) : Record M := mk r.model ss

def setSlot (r : Record M) (i : Nat) (s : Slot M (Record M)) : Record M :=
  r.withSlots (r.slots.set i s)

@[simp] theorem model_withSlots (r : Record M) (ss : List (Slot M (Record M))) :
    (r.withSlots ss).model = r.model := rfl

@[simp] theorem slots_withSlots (r : Record M) (ss : List (Slot M (Record M))) :
    (r.withSlots ss).slots = ss := rfl

@[simp] theorem model_setSlot (r : Record M) (i : Nat) (s : Slot M (Record M)) :
    (r.setSlot i s).model = r.model := rfl

@[simp] theorem slots_setSlot (r : Record M) (i : Nat) (s : Slot M (Record M)) :
    (r.setSlot i s).slots = r.slots.set i s := rfl

@[simp] theorem setSlot_setSlot (r : Record M) (i : Nat) (s t : Slot M (Record M)) :
    (r.setSlot i s).setSlot i t = r.setSlot i t := by
  simp [setSlot, withSlots, model, slots, List.set_set]

end Record

/-! ### Default records -/

/-- The slot of a field that nothing was written to. -/
def FieldType.blank : FieldType M → Slot M R
  | column T => .column T T.initial
  | reference target _ => .reference target none
  | collection target _ => .collection target []

/-- The default record of a model, which nothing was written to. It is made of the initial data of the
column types and of no associated records, so a model whose default record holds other data is none
of a family. -/
def Family.blank (F : Family M) (m : M) : Record M :=
  .mk m ((F.model m).fields.map fun f => f.type.blank)

/-! ### Field values -/

namespace FieldValue

def value? : FieldValue R → Option Value
  | column v => some v
  | _ => none

/-- Whether the field holds nothing. -/
def isZero : FieldValue R → Bool
  | column v => v.isZero
  | one record => record.isNone
  | many records => records.isEmpty

/-- The single record, if it is of a model. -/
def one? [DecidableEq M] (m : M) : FieldValue (Record M) → Option (Record M)
  | one (some r) => if r.model = m then some r else none
  | _ => none

def recordsOf [DecidableEq M] (m : M) : FieldValue (Record M) → List (Record M)
  | many rs => rs.filter fun r => r.model = m
  | _ => []

def records : FieldValue R → List R
  | column _ => []
  | one record => record.toList
  | many records => records

end FieldValue

/-- What a slot holds, as a field value. -/
def Slot.read : Slot M R → FieldValue R
  | column T x => .column (T.toValue x)
  | reference _ record => .one record
  | collection _ records => .many records

/-- The records that a slot of an association holds; a column has none to speak of. -/
def Slot.records? : Slot M R → Option (List R)
  | column _ _ => none
  | reference _ record => some record.toList
  | collection _ records => some records

/-- Whether a slot can belong to a field. -/
def FieldType.Fits (type : FieldType M) (s : Slot M R) : Prop :=
  match type, s with
  | .column T, .column U _ => T = U
  | .reference target _, .reference t _ => target = t
  | .collection target _, .collection t _ => target = t
  | _, _ => False

end RecordGraph
