import RecordGraph.Executor

/-!
# Scripts

An executor that gives prepared replies in their order, whatever it is asked. Behind the last reply
every statement is answered with no rows.
-/

namespace RecordGraph

/-- A prepared reply; it may cancel the context before it is given. -/
structure Reply where
  answer : Except ExecError (List Row)
  cancels : Bool

/-- The replies that are left and the statements received, in order. -/
structure Script where
  replies : List Reply
  received : List Statement

namespace Script

/-- The reply to a statement, and the script and its context after it. -/
def reply (s : Statement) (c : Connection Script) :
    Except ExecError (List Row) × Connection Script :=
  let received := c.peer.received ++ [s]
  match c.peer.replies with
  | [] => (.ok [], { c with peer := ⟨[], received⟩ })
  | r :: rest =>
    (r.answer, {
      c with
      context := if r.cancels then c.context.cancel else c.context
      peer := ⟨rest, received⟩ })

/-- A script as an executor. A statement that it executes affects the rows of its reply. -/
def executor : Executor (Connection Script) where
  halted? c := c.halted?
  query := reply
  execute s c :=
    let answer := reply s c
    (answer.1.map List.length, answer.2)

end Script

end RecordGraph
