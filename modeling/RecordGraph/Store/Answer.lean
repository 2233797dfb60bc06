import RecordGraph.Store.Query

/-!
# Answers

The rows that answer a query over tables of rows. With a join, a row of the table is paired with
every row of the joined table whose key is the same; without one it stands alone.
-/

namespace RecordGraph.Store

/-- Tables of rows by name; a table that was never filled is empty. -/
abbrev Tables := List (String × List Row)

namespace Tables

def rows (t : Tables) (name : String) : List Row := (t.lookup name).getD []

def append (name : String) (new : List Row) : Tables → Tables
  | [] => [(name, new)]
  | (n, old) :: rest =>
    if n = name then (n, old ++ new) :: rest else (n, old) :: append name new rest

end Tables

/-- A row of the table that is read, with its row of the joined table. -/
structure Pairing where
  target : Row
  link : Option Row

def keyAt? (r : Row) (column : String) : Option Key := (r.get? column).bind Key.ofValue?

namespace Query

/-- Whether two rows belong together in a join; a missing key never does. -/
def joins (j : Join) (target link : Row) : Bool :=
  match keyAt? link j.left.column with
  | some k => keyAt? target j.right.column = some k
  | none => false

/-- All pairings, with the rows of the table outermost. -/
def pairings (q : Query) (t : Tables) : List Pairing :=
  match q.join with
  | none => (t.rows q.table).map fun r => ⟨r, none⟩
  | some j => (t.rows q.table).flatMap fun r =>
    ((t.rows j.table).filter (joins j r)).map fun l => ⟨r, some l⟩

/-- The value in a column of a pairing. Any table but the one that is read means the joined one. -/
def cell? (q : Query) (p : Pairing) (c : ColumnName) : Option Value :=
  let row := if c.table = q.table then some p.target else p.link
  row.bind fun r => r.get? c.column

/-- Whether a pairing has one of the keys of the list, if there is one. -/
def passes (q : Query) (p : Pairing) : Bool :=
  match q.filter with
  | none => true
  | some (c, keys) =>
    match (q.cell? p c).bind Key.ofValue? with
    | some k => keys.contains k
    | none => false

/-- Whether a column of a pairing is missing or null. -/
def lacks (q : Query) (p : Pairing) (c : ColumnName) : Bool :=
  match q.cell? p c with
  | some v => v.isNull
  | none => true

/-- The pairings that satisfy all conditions. -/
def kept (q : Query) (t : Tables) : List Pairing :=
  (q.pairings t).filter fun p => q.passes p && q.nulls.all (q.lacks p)

/-- Whether a pairing need not come after another one in an order. -/
def before (o : String × Direction) (a b : Pairing) : Bool :=
  let order := Key.compare? (keyAt? a.target o.1) (keyAt? b.target o.1)
  match o.2 with
  | .ascending => order != .gt
  | .descending => order != .lt

/-- Pairings in the order that was asked for; equal ones stay as they are. -/
def arranged (q : Query) (ps : List Pairing) : List Pairing :=
  match q.order with
  | some o => ps.mergeSort (before o)
  | none => ps

/-- The row of the selected columns that a pairing has. -/
def output (q : Query) (p : Pairing) : Row :=
  ⟨q.columns.filterMap fun s =>
    (q.cell? p s.source).map fun v => (s.label.getD s.source.column, v)⟩

def answer (q : Query) (t : Tables) : List Row := (q.arranged (q.kept t)).map q.output

end Query

end RecordGraph.Store
