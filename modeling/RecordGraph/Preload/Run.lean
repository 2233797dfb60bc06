import RecordGraph.Preload.Load

/-!
# Preloading

Preloading attaches to a batch of records of one model all records that the paths of some handlers
lead to. The plan is made first, so that an invalid path changes nothing and sends nothing.
-/

namespace RecordGraph

variable {M σ : Type} [DecidableEq M]

/-- What preloading works on. -/
structure Batch (M σ : Type) where
  registry : Registry M
  roots : List (Record M)
  state : σ

/-- Attaches to records of a model what handlers ask for. -/
def Family.preload (F : Family M) (E : Executor σ) (d : Dialect) (model : M)
    (handlers : List Handler) (b : Batch M σ) : Attempt (Batch M σ) Unit :=
  let root := b.registry.schemaFor F model
  match root.result with
  | .error e => .failed { b with registry := root.state } e
  | .ok schema =>
    let plan := Plan.ofHandlers F schema handlers root.state
    match plan.result with
    | .error e => .failed { b with registry := plan.state } e
    | .ok steps =>
      let a := F.runPlan E d steps b.roots b.state
      ⟨⟨plan.state, a.state.1, a.state.2⟩, a.result⟩

end RecordGraph
