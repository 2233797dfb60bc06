import RecordGraph.Schema.Build

/-!
# Registries

A registry keeps the schemas of models under one configuration. A schema is built when it is first
asked for, together with all that it leads to; a failure keeps nothing. A kept schema carries a mark
that tells where it was built, so that the same schema can be recognised in two registries.
-/

namespace RecordGraph

variable {M : Type} [DecidableEq M]

/-- Where and as which one in its registry a schema was built. -/
structure Origin where
  registry : Nat
  serial : Nat
  deriving DecidableEq, Repr

structure KeptSchema (M : Type) where
  origin : Origin
  schema : Schema M

structure Registry (M : Type) where
  /-- The number of the registry in the marks of its schemas. -/
  number : Nat
  defaults : KeyDefaults
  options : TagOptions
  /-- The schemas by model, each model once. -/
  kept : List (M × KeptSchema M)
  /-- How many schemas were built here. -/
  built : Nat

namespace Registry

def ofConfig (number : Nat) (config : Config) : Registry M :=
  ⟨number, config.schema, config.tags, [], 0⟩

def get? (R : Registry M) (m : M) : Option (KeptSchema M) :=
  (R.kept.find? fun e => e.1 = m).map Prod.snd

def size (R : Registry M) : Nat := R.kept.length

def isEmpty (R : Registry M) : Bool := R.kept.isEmpty

def flush (R : Registry M) : Registry M := { R with kept := [] }

/-- Puts an entry in the place of the one of its model, or at the end. -/
def putEntry (m : M) (k : KeptSchema M) : List (M × KeptSchema M) → List (M × KeptSchema M)
  | [] => [(m, k)]
  | e :: rest => if e.1 = m then (m, k) :: rest else e :: putEntry m k rest

def set (R : Registry M) (k : KeptSchema M) : Registry M :=
  { R with kept := putEntry k.schema.model k R.kept }

/-- What schemas of this registry are built from. -/
def workshop (F : Family M) (R : Registry M) : Workshop M :=
  ⟨F, R.defaults, R.options, R.kept.map fun e => (e.1, e.2.schema)⟩

/-- Keeps the schemas that a request completed. -/
def keep (R : Registry M) (schemas : List (M × Schema M)) : Registry M :=
  let marked := schemas.mapIdx fun i e => (e.1, (⟨⟨R.number, R.built + i⟩, e.2⟩ : KeptSchema M))
  { R with kept := R.kept ++ marked, built := R.built + schemas.length }

/-- The schema of a model, built if it is not kept. -/
def schemaFor (F : Family M) (R : Registry M) (m : M) : Attempt (Registry M) (Schema M) :=
  match R.get? m with
  | some k => .done R k.schema
  | none =>
    match (R.workshop F).run m with
    | some ⟨st, .ok s⟩ => .done (R.keep st.schemas) s
    | some ⟨_, .error e⟩ => .failed R e
    | none => .failed R (.missingPrimaryKey (F.model m).name)

/-- The kept schema of a model after it was asked for. -/
def request (F : Family M) (R : Registry M) (m : M) : Attempt (Registry M) (KeptSchema M) :=
  let a := R.schemaFor F m
  match a.result with
  | .error e => .failed a.state e
  | .ok s => .done a.state ((a.state.get? m).getD ⟨⟨R.number, R.built⟩, s⟩)

end Registry

end RecordGraph
