import RecordGraph.Context
import RecordGraph.Row

/-!
# Executors

An executor answers statements with rows. Its state, which also holds the context that statements
run under, is any type; a statement may change it, also when it fails.
-/

namespace RecordGraph

structure Statement where
  sql : String
  values : List Value
  deriving Inhabited, Repr

structure Executor (σ : Type) where
  /-- Why the context lets no work go on. -/
  halted? : σ → Option ExecError
  /-- The answer to a statement and the state after it. -/
  query : Statement → σ → Except ExecError (List Row) × σ
  /-- The number of rows that a statement affects, and the state after it. -/
  execute : Statement → σ → Except ExecError Nat × σ

namespace Executor

variable {σ : Type}

/-- The first row of an answer; an answer without rows is an error. -/
def queryOne (e : Executor σ) (s : Statement) (state : σ) : Except ExecError Row × σ :=
  match e.query s state with
  | (.ok (row :: _), state) => (.ok row, state)
  | (.ok [], state) => (.error .noRows, state)
  | (.error err, state) => (.error err, state)

/-- The executor that also keeps the statements that reached it, in order. -/
def logged (e : Executor σ) : Executor (σ × List Statement) where
  halted? s := e.halted? s.1
  query s state :=
    let answer := e.query s state.1
    (answer.1, answer.2, state.2 ++ [s])
  execute s state :=
    let answer := e.execute s state.1
    (answer.1, answer.2, state.2 ++ [s])

end Executor

/-- Something that answers statements, reached under a context at a time. -/
structure Connection (α : Type) where
  context : Context
  now : Time
  peer : α

def Connection.halted? {α : Type} (c : Connection α) : Option ExecError := c.context.error? c.now

end RecordGraph
