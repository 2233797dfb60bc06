import RecordGraph.Record.Access
import RecordGraph.Text.Pieces

/-!
# Index paths

A dotted path of field names, of which all but the last are single references, is resolved once to
the places of the fields. A record is then read and written along the places. Absent references on
the way become default records, also when the field at the end is only read.
-/

namespace RecordGraph

variable {M : Type} [DecidableEq M]

namespace Family

variable (F : Family M)

def notReference (m : M) (f : FieldDecl M) : Error :=
  .typeMismatch (F.model m).name f.name "single reference" (f.type.typeName F)

def noPlace (m : M) (i : Nat) : Error := .fieldNotFound (F.model m).name ("#" ++ toString i)

/-- The places of a list of field names, beginning at a model. -/
def indicesOf (m : M) : List String → Except Error (List Nat)
  | [] => .ok []
  | [name] =>
    match (F.model m).position? name with
    | some i => .ok [i]
    | none => .error (F.noField m name)
  | name :: next :: rest =>
    match (F.model m).position? name with
    | none => .error (F.noField m name)
    | some i =>
      match (F.model m).fields[i]? with
      | none => .error (F.noField m name)
      | some f =>
        match f.type with
        | .reference target _ =>
          match indicesOf target (next :: rest) with
          | .ok is => .ok (i :: is)
          | .error e => .error e
        | _ => .error (F.notReference m f)

/-- The places of the fields of a dotted path. -/
def indexPath (m : M) (path : String) : Except Error (List Nat) :=
  F.indicesOf m (Text.segments path)

/-- Applies an operation to the field in the last place of a path. -/
def atPath {α : Type} (op : Record M → Nat → FieldDecl M → Slot M (Record M) → Attempt (Record M) α)
    (r : Record M) : List Nat → Attempt (Record M) α
  | [] => .failed r (.fieldNotFound "" "empty index path")
  | [i] =>
    match (F.model r.model).fields[i]?, r.slots[i]? with
    | some f, some s => op r i f s
    | _, _ => .failed r (F.noPlace r.model i)
  | i :: j :: rest =>
    match (F.model r.model).fields[i]?, r.slots[i]? with
    | some _, some (.reference target record) =>
      (atPath op (record.getD (F.blank target)) (j :: rest)).mapState fun child =>
        r.setSlot i (.reference target (some child))
    | some f, some _ => .failed r (F.notReference r.model f)
    | _, _ => .failed r (F.noPlace r.model i)

def getAt (r : Record M) (path : List Nat) : Attempt (Record M) (FieldValue (Record M)) :=
  F.atPath (fun r _ _ s => .done r s.read) r path

def setAt (r : Record M) (path : List Nat) (v : FieldValue (Record M)) : Attempt (Record M) Unit :=
  F.atPath (fun r i f s => F.writeAt .replace r i f s v) r path

end Family

end RecordGraph
