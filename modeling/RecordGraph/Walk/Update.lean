import RecordGraph.Walk.Basic

/-!
# Changing records along paths

An operation is applied to every record that a list of names leads to, in the order of the walk, up
to the first failure. What was changed before a failure stays changed.
-/

namespace RecordGraph

variable {M R : Type} [DecidableEq M]

/-! ### Operations with a running state -/

/-- An operation on a record that also passes a state on. -/
abbrev Visitor (σ R : Type) := σ → R → σ × R

def visitList {σ : Type} (f : Visitor σ R) : σ → List R → σ × List R
  | s, [] => (s, [])
  | s, r :: rest =>
    let (s, r) := f s r
    let (s, rest) := visitList f s rest
    (s, r :: rest)

def Slot.visit {σ : Type} (f : Visitor σ R) (s : σ) : Slot M R → σ × Slot M R
  | column T x => (s, column T x)
  | reference target none => (s, reference target none)
  | reference target (some r) =>
    let (s, r) := f s r
    (s, reference target (some r))
  | collection target rs =>
    let (s, rs) := visitList f s rs
    (s, collection target rs)

namespace Family

variable (F : Family M)

/-- Visits the records that a list of names leads to from one record. -/
def visitAt {σ : Type} (f : Visitor σ (Record M)) : List String → Visitor σ (Record M)
  | [], s, r => f s r
  | name :: names, s, r =>
    match F.locate r name with
    | .error _ => (s, r)
    | .ok (i, _, slot) =>
      let (s, slot) := slot.visit (visitAt f names) s
      (s, r.setSlot i slot)

/-! ### Operations that may fail -/

/-- The visitor of an operation: it counts the records that were done, and does nothing after a
failure. -/
def untilFailure (op : Record M → Attempt (Record M) Unit) :
    Visitor (Except Error Nat) (Record M)
  | .error e, r => (.error e, r)
  | .ok n, r =>
    let a := op r
    match a.result with
    | .ok () => (.ok (n + 1), a.state)
    | .error e => (.error e, a.state)

def updateAll (op : Record M → Attempt (Record M) Unit) (names : List String)
    (roots : List (Record M)) : Attempt (List (Record M)) Nat :=
  let (result, roots) := visitList (F.visitAt (untilFailure op) names) (.ok 0) roots
  ⟨roots, result⟩

/-- Pushes a value to the field at the end of a path, in every record that the names before it lead
to, and counts these records. -/
def push (path : String) (v : FieldValue (Record M)) (roots : List (Record M)) :
    Attempt (List (Record M)) Nat :=
  match walkNames path with
  | .error e => .failed roots e
  | .ok names =>
    match F.reach names.dropLast roots with
    | .error e => .failed roots e
    | .ok _ =>
      F.updateAll (fun r => F.pushField r (names.getLast?.getD "") v) names.dropLast roots

/-- The outcome of an operation on the records at the end of a path. -/
structure Found (M : Type) where
  /-- The number of records found, if there are any. -/
  count : Option Nat
  outcome : Attempt (List (Record M)) Unit

/-- Applies an operation to every record that a path leads to. -/
def find (path : String) (op : Record M → Attempt (Record M) Unit) (roots : List (Record M)) :
    Found M :=
  match walkNames path with
  | .error e => ⟨none, .failed roots e⟩
  | .ok names =>
    match F.reach names roots with
    | .error e => ⟨none, .failed roots e⟩
    | .ok leaves =>
      let a := F.updateAll op names roots
      ⟨if leaves.isEmpty then none else some leaves.length, a.state, a.result.map fun _ => ()⟩

end Family

end RecordGraph
