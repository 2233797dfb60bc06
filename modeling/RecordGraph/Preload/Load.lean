import RecordGraph.Preload.Plan
import RecordGraph.Record.Access
import RecordGraph.Value.Key
import RecordGraph.Walk.Update

/-!
# Loading one step

One step of a plan loads a relation for all its owners with one statement. The keys of the owners
are collected, each once and in the order of its first owner; the rows of the answer are read into
records of the target; and every owner gets the records whose key equals its own. A step without
keys sends no statement, and owners without a key get nothing.
-/

namespace RecordGraph

variable {M σ : Type} [DecidableEq M]

namespace Family

variable (F : Family M)

/-! ### Keys of owners -/

/-- The key of an owner with the value it is stored as; zero keys do not count. -/
def ownerKey? (r : Relation M) (owner : Record M) : Except Error (Option (Key × Value)) :=
  match F.getField owner r.source.field with
  | .error e => .error e
  | .ok (.column v) =>
    match Key.ofValue? v with
    | some k => .ok (if k.isZero then none else some (k, v))
    | none => .ok none
  | .ok v =>
    .error (.typeMismatch (F.model owner.model).name r.source.field "key column"
      (F.describeValue v))

def ownerKeys (r : Relation M) : List (Record M) → Except Error (List (Option (Key × Value)))
  | [] => .ok []
  | owner :: rest =>
    match F.ownerKey? r owner with
    | .error e => .error e
    | .ok k =>
      match ownerKeys r rest with
      | .error e => .error e
      | .ok ks => .ok (k :: ks)

/-- The values of distinct keys, each the first one with its key; keys in `seen` are left out. -/
def distinctValues (seen : List Key) : List (Option (Key × Value)) → List Value
  | [] => []
  | none :: rest => distinctValues seen rest
  | some (k, v) :: rest =>
    if k ∈ seen then distinctValues seen rest else v :: distinctValues (k :: seen) rest

/-! ### Records of rows -/

/-- A record read from a row with the key that it is matched by. -/
structure Fetched (M : Type) where
  key : Option Key
  record : Record M

/-- Writes the cells of a row into a record. The key of the owner in a joined row is kept apart. -/
def fill (target : Schema M) (link : Option Key) (r : Record M) :
    List (String × Value) → Except Error (Fetched M)
  | [] => .ok ⟨link, r⟩
  | (column, v) :: rest =>
    if column = ownerKeyLabel then fill target (Key.ofValue? v) r rest
    else
      match target.fieldByColumn? column with
      | none => .error (.fieldNotFound target.modelName column)
      | some f =>
        match (F.model target.model).fields[f.index]?, r.slots[f.index]? with
        | some d, some s =>
          let a := F.writeAt .replace r f.index d s (.column v)
          match a.result with
          | .ok () => fill target link a.state rest
          | .error e => .error e
        | _, _ => .error (.fieldNotFound target.modelName column)

/-- Reads a row into a record of the target. It is matched by the key of the owner if the relation
goes through a join table, else by its reference column. -/
def hydrate (target : Schema M) (r : Relation M) (row : Row) : Except Error (Fetched M) :=
  match F.fill target none (F.blank target.model) row.cells with
  | .error e => .error e
  | .ok fetched =>
    match r.through with
    | some _ => .ok fetched
    | none =>
      match F.getField fetched.record r.reference.field with
      | .error e => .error e
      | .ok v => .ok ⟨v.value?.bind Key.ofValue?, fetched.record⟩

def hydrateAll (target : Schema M) (r : Relation M) : List Row → Except Error (List (Fetched M))
  | [] => .ok []
  | row :: rest =>
    match F.hydrate target r row with
    | .error e => .error e
    | .ok f =>
      match hydrateAll target r rest with
      | .error e => .error e
      | .ok fs => .ok (f :: fs)

/-! ### Attaching records -/

def matching (k : Key) (fetched : List (Fetched M)) : List (Record M) :=
  fetched.filterMap fun f => if f.key = some k then some f.record else none

/-- The content of an association with some records: the first one or all. -/
def contentOf (r : Relation M) (records : List (Record M)) : FieldValue (Record M) :=
  if r.kind.isToOne then .one records.head? else .many records

def assign (r : Relation M) (v : FieldValue (Record M)) (owner : Record M) :
    Attempt (Record M) Unit :=
  match (F.model owner.model).fields[r.index]?, owner.slots[r.index]? with
  | some d, some s => F.writeAt .replace owner r.index d s v
  | _, _ => .failed owner (.fieldNotFound (F.model owner.model).name r.name)

/-- Attaches to an owner the records that match its key. -/
def attach (r : Relation M) (fetched : List (Fetched M)) (owner : Record M) :
    Attempt (Record M) Unit :=
  match F.ownerKey? r owner with
  | .error e => .failed owner e
  | .ok none => F.assign r (contentOf r []) owner
  | .ok (some (k, _)) => F.assign r (contentOf r (matching k fetched)) owner

/-! ### The step -/

def statementOf (d : Dialect) (s : Step M) (keys : List Value) : Statement :=
  let unscoped := match s.handler with
    | some h => h.unscoped
    | none => false
  let select := selectRelated s.target s.relation keys unscoped
  d.render (match s.handler.bind Handler.refine with
    | some refine => refine select
    | none => select)

/-- Fetches the records of a step for its owners. Nothing is sent where no owner has a key. -/
def fetch (E : Executor σ) (d : Dialect) (s : Step M) (owners : List (Record M)) (state : σ) :
    Except Error (List (Fetched M)) × σ :=
  match F.ownerKeys s.relation owners with
  | .error e => (.error e, state)
  | .ok ks =>
    let keys := distinctValues [] ks
    if keys.isEmpty then (.ok [], state)
    else match E.halted? state with
      | some err => (.error (.queryFailed s.path err), state)
      | none =>
        match E.query (statementOf d s keys) state with
        | (.error err, state) => (.error (.queryFailed s.path err), state)
        | (.ok rows, state) => (F.hydrateAll s.target s.relation rows, state)

/-- The owners of a step: the roots or the records at its parent path. -/
def ownersOf (s : Step M) (roots : List (Record M)) : Except Error (List (Record M)) :=
  if s.parentPath.isEmpty then .ok roots else F.collect s.parentPath roots

/-- The names that lead from the roots to the owners of a step. -/
def ownerNames (s : Step M) : List String :=
  if s.parentPath.isEmpty then [] else Text.segments s.parentPath

/-- Loads a relation for its owners, which are the records that the names lead to from the roots.
Nothing is attached before all rows are read. -/
def load (E : Executor σ) (d : Dialect) (s : Step M) (names : List String)
    (owners roots : List (Record M)) (state : σ) : Attempt (List (Record M) × σ) Unit :=
  match F.fetch E d s owners state with
  | (.error e, state) => .failed (roots, state) e
  | (.ok fetched, state) =>
    let a := F.updateAll (F.attach s.relation fetched) names roots
    ⟨(a.state, state), a.result.map fun _ => ()⟩

def runStep (E : Executor σ) (d : Dialect) (s : Step M) (roots : List (Record M)) (state : σ) :
    Attempt (List (Record M) × σ) Unit :=
  match F.ownersOf s roots with
  | .error e => .failed (roots, state) e
  | .ok owners =>
    if owners.isEmpty then .done (roots, state) ()
    else F.load E d s (ownerNames s) owners roots state

/-- Carries out steps in order, up to the first failure. -/
def runPlan (E : Executor σ) (d : Dialect) :
    Plan M → List (Record M) → σ → Attempt (List (Record M) × σ) Unit
  | [], roots, state => .done (roots, state) ()
  | s :: rest, roots, state =>
    let a := F.runStep E d s roots state
    match a.result with
    | .error _ => a
    | .ok () => runPlan E d rest a.state.1 a.state.2

end Family

end RecordGraph
