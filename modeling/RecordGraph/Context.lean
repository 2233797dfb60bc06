import RecordGraph.Error

/-!
# Contexts

A context says whether work may go on. Contexts that derive from one another form a family and
share one flag: cancelling one cancels all of them. A deadline belongs to a context and to what is
derived from it afterwards, and a derived context keeps the earlier of two deadlines.
-/

namespace RecordGraph

abbrev Time := Int

structure Context where
  cancelled : Bool
  deadline : Option Time
  deriving DecidableEq, Repr

namespace Context

def background : Context := ⟨false, none⟩

instance : Inhabited Context := ⟨background⟩

def earlier (deadline : Option Time) (t : Time) : Time :=
  match deadline with
  | some d => if d < t then d else t
  | none => t

def withDeadline (c : Context) (t : Time) : Context :=
  { c with deadline := some (earlier c.deadline t) }

def cancel (c : Context) : Context := { c with cancelled := true }

/-- Why work may not go on at a time. Cancellation comes before the deadline. -/
def error? (c : Context) (now : Time) : Option ExecError :=
  if c.cancelled then some .cancelled
  else match c.deadline with
    | some d => if d ≤ now then some .deadlineExceeded else none
    | none => none

end Context

/-! ### Families -/

/-- A context of a pool: the family whose flag it shares, and its deadline. -/
structure Member where
  family : Nat
  deadline : Option Time
  deriving DecidableEq, Repr, Inhabited

/-- Contexts numbered in the order in which they were made, and the flags of their families. -/
structure ContextPool where
  /-- For each family whether it is cancelled. -/
  flags : List Bool
  members : List Member
  deriving DecidableEq, Repr

/-- A step that makes a context or cancels one. -/
inductive ContextStep where
  /-- A context with a new family. -/
  | background
  /-- A context like the one with a number. -/
  | clone (i : Nat)
  /-- A context like the one with a number that ends at a time. -/
  | withDeadline (i : Nat) (t : Time)
  /-- A context like the one with a number that ends after a while. -/
  | withTimeout (i : Nat) (duration : Nat)
  | cancel (i : Nat)
  deriving DecidableEq, Repr

namespace ContextPool

def initial : ContextPool := ⟨[false], [⟨0, none⟩]⟩

/-- Adds a context that derives from the one with a number. -/
def derive (p : ContextPool) (i : Nat) (deadline : Option Time → Option Time) : ContextPool :=
  match p.members[i]? with
  | some m => { p with members := p.members ++ [⟨m.family, deadline m.deadline⟩] }
  | none => p

/-- One step at a time; a step on a number that no context has changes nothing. -/
def step (now : Time) (p : ContextPool) : ContextStep → ContextPool
  | .background => ⟨p.flags ++ [false], p.members ++ [⟨p.flags.length, none⟩]⟩
  | .clone i => p.derive i id
  | .withDeadline i t => p.derive i fun d => some (Context.earlier d t)
  | .withTimeout i duration => p.derive i fun d => some (Context.earlier d (now + duration))
  | .cancel i =>
    match p.members[i]? with
    | some m => { p with flags := p.flags.set m.family true }
    | none => p

/-- What the context with a number says. -/
def view (p : ContextPool) (m : Member) : Context :=
  ⟨p.flags[m.family]?.getD false, m.deadline⟩

def views (p : ContextPool) : List Context := p.members.map p.view

end ContextPool

end RecordGraph
