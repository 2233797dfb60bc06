import RecordGraph.Pattern.Reader
import RecordGraph.Pattern.Search
import RecordGraph.Store.Answer

/-!
# The store

An executor over tables in memory. It keeps every statement that reaches it and can be told to
fail. A statement is refused if its context is done, else if a failure waits for it, and is then
answered from the tables.
-/

namespace RecordGraph

namespace Store

/-- A failure that waits for a statement: any, or one that a pattern occurs in. -/
structure Failure where
  pattern : Option Pattern
  error : ExecError
  deriving Repr

def Failure.awaits (f : Failure) (sql : String) : Bool :=
  match f.pattern with
  | some pattern => pattern.occursIn sql
  | none => true

/-- The error of the first failure that waits for a statement, and the other failures. -/
def takeFailure? (sql : String) : List Failure → Option (ExecError × List Failure)
  | [] => none
  | f :: rest =>
    if f.awaits sql then some (f.error, rest)
    else (takeFailure? sql rest).map fun r => (r.1, f :: r.2)

end Store

/-- Tables in memory, the failures that wait and the statements received, in order. -/
structure Store where
  tables : Store.Tables
  failures : List Store.Failure
  received : List Statement

namespace Store

def empty : Store := ⟨[], [], []⟩

def insert (st : Store) (table : String) (rows : List Row) : Store :=
  { st with tables := st.tables.append table rows }

def clear (st : Store) : Store := { st with received := [] }

def failNext (st : Store) (e : ExecError) : Store :=
  { st with failures := st.failures ++ [⟨none, e⟩] }

/-- Lets the first statement fail that a pattern occurs in; `none` if it is not well-formed. -/
def failOn? (st : Store) (pattern : String) (e : ExecError) : Option Store :=
  (Pattern.read? pattern).map fun p => { st with failures := st.failures ++ [⟨some p, e⟩] }

def select (tables : Tables) (s : Statement) : Except ExecError (List Row) :=
  match Query.ofStatement? s with
  | some q => .ok (q.answer tables)
  | none => .error (.query ("mock cannot answer: " ++ s.sql))

/-- Takes a statement in, and says why it is refused. -/
def receive (s : Statement) (c : Connection Store) : Option ExecError × Connection Store :=
  let st := { c.peer with received := c.peer.received ++ [s] }
  match c.halted? with
  | some e => (some e, { c with peer := st })
  | none =>
    match takeFailure? s.sql st.failures with
    | some (e, rest) => (some e, { c with peer := { st with failures := rest } })
    | none => (none, { c with peer := st })

/-- The store as an executor. No statement that it executes affects a row. -/
def executor : Executor (Connection Store) where
  halted? c := c.halted?
  query s c :=
    match receive s c with
    | (some e, c) => (.error e, c)
    | (none, c) => (select c.peer.tables s, c)
  execute s c :=
    match receive s c with
    | (some e, c) => (.error e, c)
    | (none, c) => (.ok 0, c)

end Store

end RecordGraph
