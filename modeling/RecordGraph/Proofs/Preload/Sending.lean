import RecordGraph.Proofs.Preload.Repeating

/-!
# What preloading sends

A step sends at most one statement, for all its owners together, and it sends none if no owner has a
key. The statements of a run are therefore told by the steps and the owners that they are sent for:
the log of a run holds the statements of its requests.
-/

namespace RecordGraph

variable {M σ : Type}

/-- A statement that is sent: the step that sends it and the owners that it is sent for. -/
structure Request (M : Type) where
  step : Step M
  owners : List (Record M)

namespace Request

def values (F : Family M) (q : Request M) : List Value := F.ownerValues q.step.relation q.owners

def statement (F : Family M) (d : Dialect) (q : Request M) : Statement :=
  Family.statementOf d q.step (q.values F)

def entry (F : Family M) (d : Dialect) (q : Request M) : List String × Statement :=
  (q.step.names, q.statement F d)

end Request

namespace Family

/-! ### Requests of a run -/

def requestsFor (F : Family M) (E : Executor σ) (s : Step M) (owners : List (Record M))
    (state : σ) : List (Request M) :=
  if F.ownerValues s.relation owners = [] ∨ (E.halted? state).isSome then [] else [⟨s, owners⟩]

def requestsOf (F : Family M) (E : Executor σ) (s : Step M) (roots : List (Record M))
    (state : σ) : List (Request M) :=
  match F.ownersOf s roots with
  | .error _ => []
  | .ok owners => F.requestsFor E s owners state

section

variable {F : Family M} {E : Executor σ} {s : Step M} {roots : List (Record M)} {state : σ}

theorem step_of_mem_requestsOf {q : Request M} (h : q ∈ F.requestsOf E s roots state) :
    q.step = s ∧ F.ownersOf s roots = .ok q.owners ∧ q.values F ≠ [] := by
  unfold requestsOf requestsFor at h
  split at h
  · cases h
  · rename_i owners howners
    split at h
    · cases h
    · rename_i hsends
      cases List.mem_singleton.mp h
      exact ⟨rfl, howners, fun hnone => hsends (Or.inl hnone)⟩

theorem requestsOf_sublist : ((F.requestsOf E s roots state).map Request.step).Sublist [s] := by
  unfold requestsOf requestsFor
  split
  · exact List.nil_sublist [s]
  · split
    · exact List.nil_sublist [s]
    · exact List.Sublist.refl [s]

theorem map_statement_of_entry {d : Dialect} {xs ys : List (Request M)}
    (h : xs.map (Request.entry F d) = ys.map (Request.entry F d)) :
    xs.map (Request.statement F d) = ys.map (Request.statement F d) := by
  have hstatements := congrArg (List.map Prod.snd) h
  rw [List.map_map, List.map_map] at hstatements
  exact hstatements

end

variable [DecidableEq M]

/-- What the steps of a plan send, up to the first failure. -/
def requests (F : Family M) (E : Executor σ) (d : Dialect) :
    Plan M → List (Record M) → σ → List (Request M)
  | [], _, _ => []
  | s :: rest, roots, state =>
    F.requestsOf E s roots state ++
      match (F.runStep E d s roots state).result with
      | .error _ => []
      | .ok () => requests F E d rest (F.runStep E d s roots state).state.1
          (F.runStep E d s roots state).state.2

def requested (F : Family M) (E : Executor σ) (d : Dialect) (model : M) (handlers : List Handler)
    (b : Batch M σ) : List (Request M) :=
  match b.registry.planFor F model handlers with
  | .error _ => []
  | .ok p => F.requests E d p b.roots b.state

variable {F : Family M} {E : Executor σ} {d : Dialect} {s : Step M} {p before after : Plan M}
  {roots roots' owners : List (Record M)} {state state' : σ} {log : List Statement}

theorem requests_of_done (h : F.runStep E d s roots state = .done (roots', state') ())
    (p : Plan M) :
    F.requests E d (s :: p) roots state =
      F.requestsOf E s roots state ++ F.requests E d p roots' state' := by
  simp only [requests, h, Attempt.done]

theorem requests_of_failed {e : Error}
    (h : F.runStep E d s roots state = .failed (roots', state') e) (p : Plan M) :
    F.requests E d (s :: p) roots state = F.requestsOf E s roots state := by
  simp only [requests, h, Attempt.failed, List.append_nil]

/-! ### The log of a run -/

theorem fetch_logged : F.fetch E.logged d s owners (state, log) =
    ((F.fetch E d s owners state).1, (F.fetch E d s owners state).2,
      log ++ (F.requestsFor E s owners state).map (Request.statement F d)) := by
  cases hkeys : F.ownerKeys s.relation owners with
  | error e =>
    have hvalues : F.ownerValues s.relation owners = [] := by simp only [ownerValues, hkeys]
    simp only [fetch, requestsFor, hkeys, hvalues, true_or, if_true, List.map_nil, List.append_nil]
  | ok ks =>
    have hvalues : F.ownerValues s.relation owners = distinctValues [] ks := by
      simp only [ownerValues, hkeys]
    by_cases hnone : distinctValues [] ks = []
    · simp only [fetch, requestsFor, hkeys, hvalues, hnone, List.isEmpty_nil, true_or, if_true,
        List.map_nil, List.append_nil]
    · have hsome : (distinctValues [] ks).isEmpty = false := List.isEmpty_eq_false_iff.mpr hnone
      cases hhalted : E.halted? state with
      | some err =>
        simp only [fetch, requestsFor, hkeys, hsome, Executor.logged, hhalted, Option.isSome_some,
          or_true, if_true, Bool.false_eq_true, if_false, List.map_nil, List.append_nil]
      | none =>
        cases hquery : E.query (statementOf d s (distinctValues [] ks)) state with
        | mk result next =>
          simp only [fetch, requestsFor, hkeys, hvalues, hnone, hsome, Executor.logged, hhalted,
            hquery, Option.isSome_none, Bool.false_eq_true, or_false, if_false, List.map_cons,
            List.map_nil, Request.statement, Request.values]
          cases result <;> rfl

theorem runStep_logged : F.runStep E.logged d s roots (state, log) =
    ⟨((F.runStep E d s roots state).state.1, (F.runStep E d s roots state).state.2,
      log ++ (F.requestsOf E s roots state).map (Request.statement F d)),
      (F.runStep E d s roots state).result⟩ := by
  cases howners : F.ownersOf s roots with
  | error e =>
    simp only [runStep, requestsOf, howners, Attempt.failed, List.map_nil, List.append_nil]
  | ok owners =>
    cases hempty : owners.isEmpty with
    | true =>
      have hnil : owners = [] := List.isEmpty_iff.mp hempty
      have hvalues : F.ownerValues s.relation owners = [] := by rw [hnil]; rfl
      simp only [runStep, requestsOf, requestsFor, howners, hempty, hvalues, true_or, if_true,
        Attempt.done, List.map_nil, List.append_nil]
    | false =>
      simp only [runStep, requestsOf, howners, hempty, Bool.false_eq_true, if_false, load,
        fetch_logged]
      cases hfetch : F.fetch E d s owners state with
      | mk result next =>
        cases result <;> rfl

/-- Besides its log, a logged run is the run. -/
theorem runPlan_logged : F.runPlan E.logged d p roots (state, log) =
    ⟨((F.runPlan E d p roots state).state.1, (F.runPlan E d p roots state).state.2,
      log ++ (F.requests E d p roots state).map (Request.statement F d)),
      (F.runPlan E d p roots state).result⟩ := by
  induction p generalizing roots state log with
  | nil => simp only [runPlan, requests, Attempt.done, List.map_nil, List.append_nil]
  | cons s p ih =>
    simp only [runPlan, requests, runStep_logged]
    cases hresult : (F.runStep E d s roots state).result with
    | error e => simp only [hresult, List.append_nil]
    | ok u => simp only [ih, List.map_append, List.append_assoc]

theorem sent_eq {config : Config} {R : Registry M} (hR : R.Faithful F config) (model : M)
    (handlers : List Handler) (roots : List (Record M)) (state : σ) :
    F.sent E d model handlers ⟨R, roots, state⟩ =
      (F.requested E d model handlers ⟨R, roots, state⟩).map (Request.statement F d) := by
  obtain ⟨registry, -, hrun⟩ := preload_eq_runPlan hR model handlers
  simp only [sent, requested, hrun]
  cases R.planFor F model handlers with
  | error e => rfl
  | ok p => simp only [runPlan_logged, List.nil_append]

/-! ### The steps that send -/

theorem requests_sublist : ((F.requests E d p roots state).map Request.step).Sublist p := by
  induction p generalizing roots state with
  | nil => exact List.Sublist.slnil
  | cons s p ih =>
    unfold requests
    rw [List.map_append]
    refine requestsOf_sublist.append ?_
    split
    · exact List.nil_sublist p
    · exact ih

/-- A run of a plan comes to a step, and these are the owners of the step there. -/
def Arrives (F : Family M) (E : Executor σ) (d : Dialect) (p : Plan M) (roots : List (Record M))
    (state : σ) (s : Step M) (owners : List (Record M)) : Prop :=
  ∃ before after roots' state', p = before ++ s :: after ∧
    F.runPlan E d before roots state = .done (roots', state') () ∧
    F.ownersOf s roots' = .ok owners

theorem Arrives.cons {t : Step M} (h : F.runStep E d t roots state = .done (roots', state') ())
    (ha : F.Arrives E d p roots' state' s owners) :
    F.Arrives E d (t :: p) roots state s owners := by
  obtain ⟨before, after, more, next, hp, hrun, howners⟩ := ha
  refine ⟨t :: before, after, more, next, by rw [hp, List.cons_append], ?_, howners⟩
  rw [runPlan_of_done h]
  exact hrun

theorem Arrives.unique (hp : p.Nodup) {owners' : List (Record M)}
    (h : F.Arrives E d p roots state s owners) (h' : F.Arrives E d p roots state s owners') :
    owners = owners' := by
  obtain ⟨before, after, more, next, rfl, hrun, howners⟩ := h
  obtain ⟨before', after', more', next', hsplit, hrun', howners'⟩ := h'
  obtain ⟨hnot, -⟩ := List.nodup_cons.mp (List.nodup_middle.mp hp)
  rw [List.mem_append, not_or] at hnot
  obtain ⟨rfl, -, -⟩ := (List.append_cons_inj_of_notMem hnot.1 hnot.2).mp hsplit
  cases hrun.symm.trans hrun'
  exact Except.ok.inj (howners.symm.trans howners')

theorem runStep_cases_of_result (F : Family M) (E : Executor σ) (d : Dialect) (s : Step M)
    (roots : List (Record M)) (state : σ) :
    (∃ roots' state', F.runStep E d s roots state = .done (roots', state') ()) ∨
      ∃ roots' state' e, F.runStep E d s roots state = .failed (roots', state') e := by
  cases h : F.runStep E d s roots state with
  | mk after result =>
    cases result with
    | ok u => exact Or.inl ⟨after.1, after.2, rfl⟩
    | error e => exact Or.inr ⟨after.1, after.2, e, rfl⟩

theorem arrives_of_mem_requests {q : Request M} (h : q ∈ F.requests E d p roots state) :
    F.Arrives E d p roots state q.step q.owners ∧ q.values F ≠ [] := by
  induction p generalizing roots state with
  | nil => cases h
  | cons s p ih =>
    have hhere : ∀ hq : q ∈ F.requestsOf E s roots state,
        F.Arrives E d (s :: p) roots state q.step q.owners ∧ q.values F ≠ [] := by
      intro hq
      obtain ⟨hstep, howners, hvalues⟩ := step_of_mem_requestsOf hq
      rw [hstep]
      exact ⟨⟨[], p, roots, state, rfl, rfl, howners⟩, hvalues⟩
    rcases runStep_cases_of_result F E d s roots state with
      ⟨more, next, hrun⟩ | ⟨more, next, e, hrun⟩
    · rw [requests_of_done hrun, List.mem_append] at h
      rcases h with h | h
      · exact hhere h
      · obtain ⟨harrives, hvalues⟩ := ih h
        exact ⟨harrives.cons hrun, hvalues⟩
    · rw [requests_of_failed hrun] at h
      exact hhere h

theorem requestsOf_of_done (h : F.runStep E d s roots state = .done (roots', state') ()) :
    ∃ owners, F.ownersOf s roots = .ok owners ∧
      (F.ownerValues s.relation owners ≠ [] → F.requestsOf E s roots state = [⟨s, owners⟩]) := by
  cases howners : F.ownersOf s roots with
  | error e =>
    simp only [runStep, howners, Attempt.failed] at h
    cases h
  | ok owners =>
    refine ⟨owners, rfl, fun hvalues => ?_⟩
    cases hkeys : F.ownerKeys s.relation owners with
    | error e => exact absurd (by simp only [ownerValues, hkeys]) hvalues
    | ok ks =>
      have hsome : (distinctValues [] ks).isEmpty = false := by
        simpa only [ownerValues, hkeys, List.isEmpty_eq_false_iff] using hvalues
      have hempty : owners.isEmpty = false := by
        rw [List.isEmpty_eq_false_iff]
        rintro rfl
        exact hvalues rfl
      cases hhalted : E.halted? state with
      | none =>
        simp only [requestsOf, requestsFor, howners, hvalues, hhalted, Option.isSome_none,
          Bool.false_eq_true, or_false, if_false]
      | some err =>
        simp only [runStep, howners, hempty, load, fetch, hkeys, hsome, hhalted,
          Bool.false_eq_true, if_false] at h
        cases h

omit [DecidableEq M] in
theorem requestsOf_same_keys {W : Workshop M} {root owner : Schema M} {done : List String}
    {name : String} (hF : W.family.DistinctNames) (hN : W.family.FilledNames)
    (hs : W.Placed root s done owner name) (hroot : W.direct root.model = .ok root)
    (hnamed : s.Named) (hroots : W.family.AllConform root.model roots)
    (hroots' : W.family.AllConform root.model roots')
    (hkeys : ∀ owners owners', W.family.reach done roots = .ok owners →
      W.family.reach done roots' = .ok owners' →
        W.family.ownerKeys s.relation owners = W.family.ownerKeys s.relation owners')
    (hlive : E.halted? state = E.halted? state') :
    (W.family.requestsOf E s roots state).map (Request.entry W.family d) =
      (W.family.requestsOf E s roots' state').map (Request.entry W.family d) := by
  obtain ⟨owners, ho, -, howners, -⟩ := hs.ownersOf hF hN hroot hnamed hroots
  obtain ⟨owners', ho', -, howners', -⟩ := hs.ownersOf hF hN hroot hnamed hroots'
  have hvalues : W.family.ownerValues s.relation owners =
      W.family.ownerValues s.relation owners' := by
    simp only [ownerValues, hkeys owners owners' ho ho']
  simp only [requestsOf, requestsFor, howners, howners', hvalues, hlive]
  split
  · rfl
  · simp only [List.map_cons, List.map_nil, Request.entry, Request.statement, Request.values,
      hvalues]

/-- A run that goes well comes to every step of its plan, and every step with a key sends. -/
theorem arrives_of_done (h : (F.runPlan E d p roots state).result = .ok ()) (hs : s ∈ p) :
    ∃ owners, F.Arrives E d p roots state s owners ∧
      (F.ownerValues s.relation owners ≠ [] → ⟨s, owners⟩ ∈ F.requests E d p roots state) := by
  induction p generalizing roots state with
  | nil => cases hs
  | cons t p ih =>
    rcases runStep_cases_of_result F E d t roots state with
      ⟨more, next, hrun⟩ | ⟨more, next, e, hrun⟩
    · rw [runPlan_of_done hrun] at h
      rw [requests_of_done hrun]
      rcases List.mem_cons.mp hs with rfl | hs
      · obtain ⟨owners, howners, hsends⟩ := requestsOf_of_done hrun
        refine ⟨owners, ⟨[], p, roots, state, rfl, rfl, howners⟩, fun hvalues => ?_⟩
        rw [hsends hvalues]
        exact List.mem_append_left _ List.mem_cons_self
      · obtain ⟨owners, harrives, hsends⟩ := ih h hs
        exact ⟨owners, harrives.cons hrun, fun hvalues => List.mem_append_right _ (hsends hvalues)⟩
    · simp only [runPlan, hrun, Attempt.failed] at h
      cases h

end Family

end RecordGraph
