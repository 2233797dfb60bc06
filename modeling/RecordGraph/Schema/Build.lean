import RecordGraph.Schema.Basic

/-!
# Building schemas

The relations of a model need the keys of the models they lead to, so building one schema builds
the schemas of all models that can be reached, each once. Associations may form cycles: the keys of
a model whose schema is being built further up come from its analysis. Schemas are staged in the
order in which they are completed; what was cached before is used as it is.
-/

namespace RecordGraph

variable {M : Type} [DecidableEq M]

inductive KeySource (M : Type) where
  | built (s : Schema M)
  | analysed (a : Analysis M)

def KeySource.keys : KeySource M → ModelKeys M
  | built s => s.keys
  | analysed a => a.keys

/-- The work on one request. -/
structure Staging (M : Type) where
  /-- The schemas that were completed, in order. -/
  schemas : List (M × Schema M)
  /-- The models whose schemas were begun, in order. -/
  begun : List M

def Staging.empty : Staging M := ⟨[], []⟩

def schemaIn? (m : M) (schemas : List (M × Schema M)) : Option (Schema M) :=
  (schemas.find? fun e => e.1 = m).map Prod.snd

/-- What schemas are built from: a family with its conventions, and the schemas known before. -/
structure Workshop (M : Type) where
  family : Family M
  defaults : KeyDefaults
  options : TagOptions
  cache : List (M × Schema M)

namespace Workshop

variable (W : Workshop M)

def analyze (m : M) : Except Error (Analysis M) := W.family.analyze W.defaults W.options m

/-- The schema of a model that is known or was completed. -/
def lookup? (st : Staging M) (m : M) : Option (Schema M) :=
  match schemaIn? m W.cache with
  | some s => some s
  | none => schemaIn? m st.schemas

/-- A function that builds the schema of a model; none when it ran out of fuel. -/
abbrev Builder (M : Type) := Staging M → M → Option (Attempt (Staging M) (Schema M))

/-- The keys of a model that an association leads to, while the models in `busy` are being built. -/
def keysOf (next : Builder M) (busy : List M) (st : Staging M) (m : M) :
    Option (Attempt (Staging M) (KeySource M)) :=
  match W.lookup? st m with
  | some s => some (.done st (.built s))
  | none =>
    if m ∈ busy then
      match W.analyze m with
      | .ok a => some (.done st (.analysed a))
      | .error e => some (.failed st e)
    else
      match next st m with
      | none => none
      | some ⟨st, .ok s⟩ => some (.done st (.built s))
      | some ⟨st, .error e⟩ => some (.failed st e)

def joinKeysOf (next : Builder M) (busy : List M) (st : Staging M) :
    Option M → Option (Attempt (Staging M) (Option (KeySource M)))
  | none => some (.done st none)
  | some join =>
    match W.keysOf next busy st join with
    | none => none
    | some ⟨st, .ok k⟩ => some (.done st (some k))
    | some ⟨st, .error e⟩ => some (.failed st e)

def relationOf (next : Builder M) (busy : List M) (owner : ModelKeys M) (st : Staging M)
    (a : Association M) : Option (Attempt (Staging M) (Relation M)) :=
  match W.keysOf next busy st a.target with
  | none => none
  | some ⟨st, .error e⟩ => some (.failed st e)
  | some ⟨st, .ok target⟩ =>
    match W.joinKeysOf next busy st a.through with
    | none => none
    | some ⟨st, .error e⟩ => some (.failed st e)
    | some ⟨st, .ok join⟩ =>
      some ⟨st, W.family.resolve owner a target.keys (join.map KeySource.keys)⟩

def relationsOf (next : Builder M) (busy : List M) (owner : ModelKeys M) (st : Staging M) :
    List (Association M) → Option (Attempt (Staging M) (List (Relation M)))
  | [] => some (.done st [])
  | a :: rest =>
    match W.relationOf next busy owner st a with
    | none => none
    | some ⟨st, .error e⟩ => some (.failed st e)
    | some ⟨st, .ok r⟩ =>
      match relationsOf next busy owner st rest with
      | none => none
      | some ⟨st, .error e⟩ => some (.failed st e)
      | some ⟨st, .ok rs⟩ => some (.done st (r :: rs))

/-- The schema of a model, while the models in `busy` are being built. Each level of the recursion
adds a model to `busy`, so the number of models is enough fuel. -/
def build : Nat → List M → Builder M
  | fuel, busy, st, m =>
    match W.lookup? st m with
    | some s => some (.done st s)
    | none =>
      match fuel with
      | 0 => none
      | fuel + 1 =>
        let st : Staging M := { st with begun := st.begun ++ [m] }
        match W.analyze m with
        | .error e => some (.failed st e)
        | .ok a =>
          match W.relationsOf (fun st m' => build fuel (m :: busy) st m') (m :: busy) a.keys st
              a.associations with
          | none => none
          | some ⟨st, .error e⟩ => some (.failed st e)
          | some ⟨st, .ok relations⟩ =>
            let s := Schema.ofAnalysis W.family a relations
            some (.done { st with schemas := st.schemas ++ [(m, s)] } s)

/-- Builds the schema of a model from nothing but the cache. -/
def run (m : M) : Option (Attempt (Staging M) (Schema M)) :=
  W.build W.family.all.length [] .empty m

end Workshop

end RecordGraph
