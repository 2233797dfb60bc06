import RecordGraph.Proofs.Preload.Prefixes
import RecordGraph.Proofs.Preload.Running

/-!
# Runs by what they fetch

A step either fetches records and attaches them to its owners, or it fetches nothing and leaves the
roots alone. Preloading is making a plan and running it, and all registries of a configuration make
the same plan. What two runs have to do with one another is therefore told by what they fetch.
-/

namespace RecordGraph

variable {M σ : Type} [DecidableEq M]

/-! ### What a step fetches -/

namespace Family

section

variable {F : Family M} {E : Executor σ} {d : Dialect} {s : Step M}
  {owners roots : List (Record M)} {state state' : σ} {fetched : List (Fetched M)}

theorem hydrateAll_of_fetch (h : F.fetch E d s owners state = (.ok fetched, state')) :
    ∃ rows, F.hydrateAll s.target s.relation rows = .ok fetched := by
  simp only [fetch] at h
  split at h
  · cases h
  · split at h
    · cases h
      exact ⟨[], rfl⟩
    · split at h
      · cases h
      · split at h
        · cases h
        · rename_i rows state₁ _
          exact ⟨rows, (Prod.mk.inj h).1⟩

theorem fetch_conform (ht : F.Describes s.target) (htarget : s.target.model = s.relation.target)
    (h : F.fetch E d s owners state = (.ok fetched, state')) :
    ∀ f ∈ fetched, f.record.model = s.relation.target ∧ F.Conforms f.record := by
  obtain ⟨rows, hrows⟩ := hydrateAll_of_fetch h
  intro f hf
  obtain ⟨hm, hconforms⟩ := conforms_of_hydrateAll ht hrows f hf
  exact ⟨hm.trans htarget, hconforms⟩

theorem load_of_fetch (hF : F.DistinctNames) (hr : F.Grounded s.relation)
    (ht : F.Describes s.target) (htarget : s.target.model = s.relation.target)
    {names : List String} (ho : F.reach names roots = .ok owners)
    (howners : F.AllConform s.relation.owner owners)
    (h : F.fetch E d s owners state = (.ok fetched, state')) :
    F.load E d s names owners roots state =
      .done (roots.map (F.mapAt (F.attached s.relation fetched) names), state') () := by
  have hmodels : ∀ f ∈ fetched, f.record.model = s.relation.target :=
    fun f hf => (fetch_conform ht htarget h f hf).1
  obtain ⟨k, hk⟩ := updateAll_goesWell (attach_goesWell hF hr ho howners hmodels)
  simp only [load, h, hk, Attempt.done, Except.map]

theorem runPlan_of_done {roots' : List (Record M)}
    (h : F.runStep E d s roots state = .done (roots', state') ()) (p : Plan M) :
    F.runPlan E d (s :: p) roots state = F.runPlan E d p roots' state' := by
  simp only [runPlan, h, Attempt.done]

theorem runPlan_of_failed {e : Error} (h : F.runStep E d s roots state = .failed (roots, state') e)
    (p : Plan M) : F.runPlan E d (s :: p) roots state = .failed (roots, state') e := by
  simp only [runPlan, h, Attempt.failed]

end

variable {W : Workshop M} {root owner : Schema M} {s : Step M} {done : List String} {name : String}
  {roots : List (Record M)}

theorem runStep_fetch (hF : W.family.DistinctNames) (hN : W.family.FilledNames)
    (hs : W.Placed root s done owner name) (hroot : W.direct root.model = .ok root)
    (hnamed : s.Named) (hroots : W.family.AllConform root.model roots) :
    ∃ owners, W.family.reach done roots = .ok owners ∧
      W.family.AllConform s.relation.owner owners ∧
      ∀ {τ : Type} (E : Executor τ) (d : Dialect) (state : τ),
        (∃ fetched state', W.family.fetch E d s owners state = (.ok fetched, state') ∧
          W.family.AllConform root.model
            (roots.map (W.family.mapAt (W.family.attached s.relation fetched) done)) ∧
          W.family.runStep E d s roots state =
            .done (roots.map (W.family.mapAt (W.family.attached s.relation fetched) done),
              state') ()) ∨
        ∃ e state', W.family.fetch E d s owners state = (.error e, state') ∧
          W.family.runStep E d s roots state = .failed (roots, state') e := by
  obtain ⟨owners, howners, hconform⟩ := Workshop.reach_of_chain hF hroot hs.chain hroots
  rw [← hs.owner_model hroot] at hconform
  refine ⟨owners, howners, hconform, fun E d state => ?_⟩
  obtain ⟨owners', howners', -, -, hrun⟩ := runStep_eq_load hF hN hs hroot hnamed hroots E d state
  cases howners.symm.trans howners'
  have hfollows := hs.follows hroot
  rw [hrun]
  cases hfetch : W.family.fetch E d s owners state with
  | mk result state' =>
    cases result with
    | ok fetched =>
      have hkeeps : W.family.Keeps s.relation.owner (W.family.attached s.relation fetched) :=
        keeps_attached hfollows.grounded
          (fetch_conform hfollows.describes hfollows.target_model hfetch)
      rw [hs.owner_model hroot] at hkeeps
      exact Or.inl ⟨fetched, state', rfl,
        (Workshop.keeps_mapAt hF hroot hs.chain hkeeps).map hroots,
        load_of_fetch hF hfollows.grounded hfollows.describes hfollows.target_model howners hconform
          hfetch⟩
    | error e => exact Or.inr ⟨e, state', rfl, by simp only [load, hfetch]⟩

end Family

/-! ### The plan of a preload -/

/-- The plan that a registry makes for handlers on records of a model. -/
def Registry.planFor (F : Family M) (R : Registry M) (model : M) (handlers : List Handler) :
    Except Error (Plan M) :=
  match (R.schemaFor F model).result with
  | .error e => .error e
  | .ok schema => (Plan.ofHandlers F schema handlers (R.schemaFor F model).state).result

namespace Registry

variable {F : Family M} {config : Config} {R S : Registry M} {model : M} {handlers : List Handler}

theorem Faithful.planFor_eq (hR : R.Faithful F config) (hS : S.Faithful F config) (model : M)
    (handlers : List Handler) : R.planFor F model handlers = S.planFor F model handlers := by
  have hanswer := hR.result_eq hS model
  simp only [planFor, hanswer]
  cases (S.schemaFor F model).result with
  | error e => rfl
  | ok schema => exact Plan.addHandlers_result_eq (hR.schemaFor model) (hS.schemaFor model)

theorem Faithful.planFor_serves (hR : R.Faithful F config) {p : Plan M}
    (h : R.planFor F model handlers = .ok p) :
    ∃ root, root.model = model ∧ (Workshop.ofConfig F config).Finished root ∧
      Plan.Serves (Workshop.ofConfig F config) root handlers [] p := by
  simp only [planFor] at h
  split at h
  · cases h
  · rename_i root hroot
    exact ⟨root, Workshop.model_of_direct (hR.result_ok hroot).1, hR.finished hroot,
      Plan.ofHandlers_serves (hR.schemaFor model) h⟩

/-- Whatever serves handlers is the plan that a registry makes for them. -/
theorem Faithful.planFor_of_serves (hR : R.Faithful F config) {root : Schema M}
    (hroot : (Workshop.ofConfig F config).Finished root) {p : Plan M}
    (h : Plan.Serves (Workshop.ofConfig F config) root handlers [] p) :
    R.planFor F root.model handlers = .ok p := by
  obtain ⟨schema, hschema, hdirect⟩ := hR.result_of_complete hroot.complete
  cases hdirect.symm.trans hroot.direct
  have hnext := hR.schemaFor root.model
  have hchains : ∀ g ∈ handlers, ∃ t, (Workshop.ofConfig F config).Chain root g.names t := by
    intro g hg
    obtain ⟨s, hs, hnames⟩ := List.mem_map.mp (h.mem_of_names hg)
    obtain ⟨done, owner, name, hplaced⟩ := h.placed s hs
    rw [← hnames, hplaced.names_eq]
    exact ⟨s.target, Workshop.chain_concat hplaced.chain hplaced.relation hplaced.target⟩
  obtain ⟨q, hq⟩ : ∃ q, (Plan.ofHandlers F root handlers
      (R.schemaFor F root.model).state).result = .ok q :=
    Plan.addHandlers_ok hnext hroot.direct hroot.complete hchains
  have hcovers := (Plan.ofHandlers_serves hnext hq).covers hnext hroot
  have hsame : q = p :=
    hcovers.unique (h.covers hnext hroot) (fun _ => Iff.rfl) fun _ => rfl
  simp only [planFor, hschema]
  rw [hq, hsame]

end Registry

namespace Family

variable {F : Family M} {config : Config} {R : Registry M}

/-- Preloading runs the plan of its handlers; without a plan it does nothing. -/
theorem preload_eq_runPlan (hR : R.Faithful F config) (model : M) (handlers : List Handler) :
    ∃ registry, registry.Faithful F config ∧
      ∀ {τ : Type} (E : Executor τ) (d : Dialect) (roots : List (Record M)) (state : τ),
        F.preload E d model handlers ⟨R, roots, state⟩ =
          match R.planFor F model handlers with
          | .error e => .failed ⟨registry, roots, state⟩ e
          | .ok p => ⟨⟨registry, (F.runPlan E d p roots state).state.1,
              (F.runPlan E d p roots state).state.2⟩, (F.runPlan E d p roots state).result⟩ := by
  cases hschema : (R.schemaFor F model).result with
  | error e =>
    refine ⟨(R.schemaFor F model).state, hR.schemaFor model, fun E d roots state => ?_⟩
    simp only [preload, Registry.planFor, hschema]
  | ok schema =>
    have hregistry : (Plan.ofHandlers F schema handlers
        (R.schemaFor F model).state).state.Faithful F config :=
      Plan.faithful_addHandlers (hR.schemaFor model)
    refine ⟨(Plan.ofHandlers F schema handlers (R.schemaFor F model).state).state, hregistry,
      fun E d roots state => ?_⟩
    cases hplan : (Plan.ofHandlers F schema handlers (R.schemaFor F model).state).result with
    | error e => simp only [preload, Registry.planFor, hschema, hplan]
    | ok p => simp only [preload, Registry.planFor, hschema, hplan]

theorem runPlan_of_preload (hR : R.Faithful F config) {E : Executor σ} {d : Dialect} {model : M}
    {handlers : List Handler} {roots : List (Record M)} {state : σ}
    (h : (F.preload E d model handlers ⟨R, roots, state⟩).result = .ok ()) :
    ∃ root p next, root.model = model ∧ (Workshop.ofConfig F config).Finished root ∧
      Plan.Serves (Workshop.ofConfig F config) root handlers [] p ∧
      R.planFor F model handlers = .ok p ∧
      F.runPlan E d p roots state =
        .done ((F.preload E d model handlers ⟨R, roots, state⟩).state.roots, next) () := by
  obtain ⟨registry, -, hrun⟩ := preload_eq_runPlan hR model handlers
  rw [hrun] at h ⊢
  cases hp : R.planFor F model handlers with
  | error e =>
    rw [hp] at h
    cases h
  | ok p =>
    obtain ⟨root, hmodel, hroot, hserves⟩ := hR.planFor_serves hp
    simp only [hp] at h
    exact ⟨root, p, (F.runPlan E d p roots state).state.2, hmodel, hroot, hserves, rfl,
      congrArg (Attempt.mk _) h⟩

theorem preload_of_runPlan (hR : R.Faithful F config) {E : Executor σ} {d : Dialect} {model : M}
    {handlers : List Handler} {p : Plan M} {roots more : List (Record M)} {state next : σ}
    (hp : R.planFor F model handlers = .ok p)
    (h : F.runPlan E d p roots state = .done (more, next) ()) :
    ∃ registry, registry.Faithful F config ∧
      F.preload E d model handlers ⟨R, roots, state⟩ = .done ⟨registry, more, next⟩ () := by
  obtain ⟨registry, hregistry, hrun⟩ := preload_eq_runPlan hR model handlers
  refine ⟨registry, hregistry, ?_⟩
  simp only [hrun, hp, h, Attempt.done]

theorem faithful_preload (hR : R.Faithful F config) (E : Executor σ) (d : Dialect) (model : M)
    (handlers : List Handler) (roots : List (Record M)) (state : σ) :
    (F.preload E d model handlers ⟨R, roots, state⟩).state.registry.Faithful F config := by
  obtain ⟨registry, hregistry, hrun⟩ := preload_eq_runPlan hR model handlers
  rw [hrun]
  cases R.planFor F model handlers with
  | error e => exact hregistry
  | ok p => exact hregistry

end Family

end RecordGraph
