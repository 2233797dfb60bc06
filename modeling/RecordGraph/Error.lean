import RecordGraph.Text.Quoted

/-!
# Errors

Why a statement was not carried out, and why an operation on models or records failed. An error is
its cause; `message` is its text.
-/

namespace RecordGraph

/-! ### Statements -/

inductive ExecError where
  | cancelled
  | deadlineExceeded
  | noRows
  | query (reason : String)
  | parse (reason : String)
  | other (reason : String)
  deriving DecidableEq, Repr

namespace ExecError

def message : ExecError → String
  | cancelled => "Execution cancelled"
  | deadlineExceeded => "Execution deadline exceeded"
  | noRows => "Query returned no rows"
  | query reason => "Query error: " ++ reason
  | parse reason => "Parse error: " ++ reason
  | other reason => "Execution error: " ++ reason

/-- Whether the context, and not the database, ended the statement. -/
def isCancelled : ExecError → Bool
  | cancelled => true
  | deadlineExceeded => true
  | _ => false

end ExecError

/-! ### Models and records -/

inductive Error where
  | fieldNotFound (model field : String)
  | typeMismatch (model field expected actual : String)
  | missingPrimaryKey (model : String)
  | duplicatePrimaryKey (model first second : String)
  | invalidPrimaryKeyType (model field kind : String)
  | invalidForeignKeyType (model field kind : String)
  | invalidAssociation (model field reason : String)
  /-- No foreign key leads to the target; an empty target is not mentioned. -/
  | unresolvableReference (model field target : String)
  | invalidRelationPath (path segment model : String)
  /-- The statement that loads a relation failed. -/
  | queryFailed (relation : String) (source : ExecError)
  deriving DecidableEq, Repr

namespace Error

def message : Error → String
  | fieldNotFound model field => "field not found: " ++ model ++ "." ++ field
  | typeMismatch model field expected actual =>
    "type mismatch on " ++ model ++ "." ++ field ++ ": expected " ++ expected ++ ", got " ++ actual
  | missingPrimaryKey model => "model " ++ model ++ " has no primary key"
  | duplicatePrimaryKey model first second =>
    "model " ++ model ++ " declares more than one primary key: " ++ first ++ " and " ++ second
  | invalidPrimaryKeyType model field kind =>
    "primary key " ++ model ++ "." ++ field ++ " has unsupported type " ++ kind
  | invalidForeignKeyType model field kind =>
    "foreign key " ++ model ++ "." ++ field ++ " has unsupported type " ++ kind
  | invalidAssociation model field reason =>
    "invalid association " ++ model ++ "." ++ field ++ ": " ++ reason
  | unresolvableReference model field target =>
    "cannot resolve reference of " ++ model ++ "." ++ field
      ++ (if target.isEmpty then "" else " to " ++ target)
  | invalidRelationPath path segment model =>
    "invalid relation path " ++ Text.quoted path ++ ": " ++ model ++ " has no relation "
      ++ Text.quoted segment
  | queryFailed relation source => "failed to preload " ++ relation ++ ": " ++ source.message

/-- The error of the statement below this error. -/
def source? : Error → Option ExecError
  | queryFailed _ source => some source
  | _ => none

def isCancelled (e : Error) : Bool :=
  match e.source? with
  | some source => source.isCancelled
  | none => false

end Error

/-! ### Attempts -/

/-- The outcome of an operation on a state that may fail half-way: the state that it leaves behind
and its result. -/
structure Attempt (σ α : Type) where
  state : σ
  result : Except Error α

namespace Attempt

variable {σ τ α : Type}

def done (state : σ) (value : α) : Attempt σ α := ⟨state, .ok value⟩

def failed (state : σ) (error : Error) : Attempt σ α := ⟨state, .error error⟩

/-- The same outcome seen in a larger state. -/
def mapState (f : σ → τ) (a : Attempt σ α) : Attempt τ α := ⟨f a.state, a.result⟩

end Attempt

end RecordGraph
