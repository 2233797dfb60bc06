import RecordGraph.Schema.Basic
import RecordGraph.Sql.Select

/-!
# Handlers

A handler asks for the records at the end of a path of relations. It may ask for deleted records
too, and may refine the statement that loads its records.
-/

namespace RecordGraph

structure Handler where
  path : String
  /-- Whether deleted records count. -/
  unscoped : Bool
  /-- A change to the statement. -/
  refine : Option (Select → Select)

namespace Handler

def ofPath (path : String) : Handler := ⟨path, false, none⟩

def describe (h : Handler) : String :=
  Family.group "Preload" [("path", Text.quoted h.path), ("unscoped", toString h.unscoped),
    ("callback", toString h.refine.isSome)]

end Handler

/-! ### The statement of a relation -/

variable {M : Type}

/-- The label of the column that holds the key of the owner in a joined row. -/
def ownerKeyLabel : String := "__lifeline_owner_key"

/-- The statement that selects the targets of a relation for a list of keys. Rows that are marked
as deleted are left out unless the statement is unscoped. -/
def selectRelated (target : Schema M) (r : Relation M) (keys : List Value) (unscoped : Bool) :
    Select :=
  let own := target.columns.map fun c => (⟨⟨target.table, c⟩, none⟩ : Selected)
  let reference : ColumnName := ⟨target.table, r.reference.column⟩
  let base : Select := match r.through with
    | some t =>
      let ownerColumn : ColumnName := ⟨t.table, t.ownerColumn⟩
      { columns := own ++ [⟨ownerColumn, some ownerKeyLabel⟩]
        table := target.table
        join := some ⟨t.table, ⟨t.table, t.targetColumn⟩, reference⟩
        conditions := [.isIn ownerColumn keys]
        order := []
        limit := none }
    | none =>
      { columns := own
        table := target.table
        join := none
        conditions := [.isIn reference keys]
        order := []
        limit := none }
  if unscoped then base
  else match target.deletedKey? with
    | some f => base.andWhere (.isNull ⟨target.table, f.column⟩)
    | none => base

end RecordGraph
