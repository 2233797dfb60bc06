import RecordGraph.Preload.Run
import RecordGraph.Proofs.Preload.Loading
import RecordGraph.Proofs.Preload.Planning

/-!
# Running a plan

The names before the last one of a step lead from conforming roots to conforming owners, so the walk
to the owners never fails and a step keeps the roots conforming. A plan therefore stops only at a
step that is refused or whose rows cannot be read, and this step leaves no trace in the records.
-/

namespace RecordGraph

variable {M σ : Type}

namespace Family

variable {F : Family M}

/-- In every model the fields have names that are not empty. -/
def FilledNames (F : Family M) : Prop := ∀ m, ∀ d ∈ (F.model m).fields, d.name ≠ ""

theorem Grounded.declared {r : Relation M} (h : F.Grounded r) :
    ∃ d, (F.model r.owner).fields[r.index]? = some d ∧ d.name = r.name ∧
      d.type.target? = some r.target := by
  obtain ⟨d, hd, hname, hone, hmany⟩ := h.association
  refine ⟨d, hd, hname, ?_⟩
  cases hk : r.kind.isToOne with
  | true =>
    obtain ⟨boxed, hT⟩ := hone hk
    rw [hT]
    rfl
  | false =>
    obtain ⟨join, hT⟩ := hmany hk
    rw [hT]
    rfl

/-! ### Changing records below -/

/-- The change keeps conforming records of a model such. -/
def Keeps (F : Family M) (m : M) (g : Record M → Record M) : Prop :=
  ∀ r, r.model = m → F.Conforms r → (g r).model = m ∧ F.Conforms (g r)

theorem Keeps.map {m : M} {g : Record M → Record M} (hg : F.Keeps m g) {rs : List (Record M)}
    (h : F.AllConform m rs) : F.AllConform m (rs.map g) := by
  intro r hr
  obtain ⟨x, hx, rfl⟩ := List.mem_map.mp hr
  obtain ⟨hm, hconforms⟩ := h x hx
  exact hg x hm hconforms

theorem fits_mapRecords {type : FieldType M} {s : Slot M (Record M)} {g : Record M → Record M}
    (h : type.Fits s) : type.Fits (s.mapRecords g) := by
  cases type <;> cases s <;> exact h

theorem Suits.mapRecords {type : FieldType M} {s : Slot M (Record M)} {t : M}
    {g : Record M → Record M} (h : F.Suits type s) (ht : type.target? = some t)
    (hg : F.Keeps t g) : F.Suits type (s.mapRecords g) := by
  obtain ⟨rs, hrs, hconform⟩ := h.records ht
  have hmapped : (s.mapRecords g).records? = some (rs.map g) := by
    rw [Slot.records?_mapRecords, hrs, Option.map_some]
  refine ⟨fits_mapRecords h.fits, fun cs hcs c hc => ?_⟩
  cases hmapped.symm.trans hcs
  obtain ⟨hm, hconforms⟩ := hg.map hconform c hc
  refine ⟨?_, hconforms⟩
  rw [Slot.target?_mapRecords, h.target? ht, hm]

end Family

namespace Workshop

variable {W : Workshop M} {s t : Schema M} {names : List String}

theorem filled_of_chain (hnames : W.family.FilledNames) (hs : W.direct s.model = .ok s)
    (h : W.Chain s names t) : ∀ name ∈ names, name ≠ "" := by
  induction names generalizing s with
  | nil => exact fun name hn => nomatch hn
  | cons first names ih =>
    obtain ⟨r, mid, hr, hmid, h⟩ := h
    obtain ⟨hmem, hname⟩ := Schema.relation?_cases hr
    obtain ⟨d, hd, hfield, -⟩ := (grounded_of_direct hs hmem).declared
    intro name hn
    rcases List.mem_cons.mp hn with rfl | hn
    · rw [← hname, ← hfield]
      exact hnames _ d (List.mem_of_getElem? hd)
    · exact ih (direct_model hmid) h name hn

theorem reach_of_chain (hF : W.family.DistinctNames) (hs : W.direct s.model = .ok s)
    (h : W.Chain s names t) {roots : List (Record M)} (hroots : W.family.AllConform s.model roots) :
    ∃ owners, W.family.reach names roots = .ok owners ∧ W.family.AllConform t.model owners := by
  induction names generalizing s roots with
  | nil =>
    cases h
    exact ⟨roots, rfl, hroots⟩
  | cons name names ih =>
    obtain ⟨r, mid, hr, hmid, h⟩ := h
    obtain ⟨hmem, hname⟩ := Schema.relation?_cases hr
    obtain ⟨d, hd, hfield, htarget⟩ := (grounded_of_direct hs hmem).declared
    rw [owner_of_direct hs hmem] at hd
    obtain ⟨below, hbelow, hconform⟩ := Family.follow_conform hF hd htarget hroots
    have hmodel : mid.model = r.target := model_of_direct hmid
    obtain ⟨owners, howners, hall⟩ := ih (hmodel.symm ▸ hmid) h (hmodel.symm ▸ hconform)
    refine ⟨owners, Family.reach_cons_name.mpr ⟨below, ?_, howners⟩, hall⟩
    rw [← hname, ← hfield]
    exact hbelow

theorem keeps_mapAt (hF : W.family.DistinctNames) (hs : W.direct s.model = .ok s)
    (h : W.Chain s names t) {g : Record M → Record M} (hg : W.family.Keeps t.model g) :
    W.family.Keeps s.model (W.family.mapAt g names) := by
  induction names generalizing s with
  | nil =>
    cases h
    exact hg
  | cons name names ih =>
    obtain ⟨r, mid, hr, hmid, h⟩ := h
    obtain ⟨hmem, hname⟩ := Schema.relation?_cases hr
    obtain ⟨d, hd, hfield, htarget⟩ := (grounded_of_direct hs hmem).declared
    rw [owner_of_direct hs hmem] at hd
    have hmodel : mid.model = r.target := model_of_direct hmid
    have hbelow := ih (hmodel.symm ▸ hmid) h
    rw [hmodel] at hbelow
    intro x hx hconforms
    rw [← hx] at hd
    obtain ⟨slot, hlocate, -, hsuits⟩ := hconforms.locate hF hd
    rw [hfield, hname] at hlocate
    simp only [Family.mapAt, hlocate]
    exact ⟨hx, hconforms.setSlot hd (hsuits.mapRecords htarget hbelow)⟩

end Workshop

namespace Workshop

variable {W : Workshop M} {root owner : Schema M} {s : Step M} {done : List String} {name : String}

theorem Placed.follows (hs : W.Placed root s done owner name)
    (hroot : W.direct root.model = .ok root) : Family.Follows W s :=
  ⟨⟨owner.model, owner, direct_of_chain hroot hs.chain, (Schema.relation?_cases hs.relation).1⟩,
    hs.target⟩

theorem Placed.owner_model (hs : W.Placed root s done owner name)
    (hroot : W.direct root.model = .ok root) : s.relation.owner = owner.model :=
  owner_of_direct (direct_of_chain hroot hs.chain) (Schema.relation?_cases hs.relation).1

theorem Placed.ownersOf (hF : W.family.DistinctNames) (hN : W.family.FilledNames)
    (hs : W.Placed root s done owner name) (hroot : W.direct root.model = .ok root)
    (hnamed : s.Named) {roots : List (Record M)} (hroots : W.family.AllConform root.model roots) :
    ∃ owners, W.family.reach done roots = .ok owners ∧
      W.family.AllConform s.relation.owner owners ∧ W.family.ownersOf s roots = .ok owners ∧
      Family.ownerNames s = done := by
  obtain ⟨owners, howners, hconform⟩ := reach_of_chain hF hroot hs.chain hroots
  rw [← hs.owner_model hroot] at hconform
  have hdone : s.names.dropLast = done := by rw [hs.names_eq, List.dropLast_concat]
  have hundotted : ∀ x ∈ done, Text.Undotted x := by
    intro x hx
    refine hnamed.2 x ?_
    rw [hs.names_eq]
    exact List.mem_append_left [name] hx
  have hfilled := filled_of_chain hN hroot hs.chain
  have hempty : s.parentPath.isEmpty = done.isEmpty := by
    rw [Step.parentPath, hdone, Text.isEmpty_joinDots hundotted hfilled]
  refine ⟨owners, howners, hconform, ?_, ?_⟩
  · cases done with
    | nil =>
      cases howners
      simp only [Family.ownersOf, hempty, List.isEmpty_nil, if_true]
    | cons first done =>
      have hsegments : Text.segments s.parentPath = first :: done := by
        rw [Step.parentPath, hdone]
        exact Text.segments_joinDots (List.cons_ne_nil first done) hundotted
      have hwalk : Family.walkNames s.parentPath = .ok (first :: done) := by
        have hany : (first :: done).any String.isEmpty = false := by
          rw [List.any_eq_false]
          intro x hx
          simpa using hfilled x hx
        simp only [Family.walkNames, hsegments, hany, Bool.false_eq_true, if_false]
      simp only [Family.ownersOf, hempty, List.isEmpty_cons, Bool.false_eq_true, if_false,
        Family.collect, hwalk, howners]
  · cases done with
    | nil => simp only [Family.ownerNames, hempty, List.isEmpty_nil, if_true]
    | cons first done =>
      simp only [Family.ownerNames, hempty, List.isEmpty_cons, Bool.false_eq_true, if_false]
      rw [Step.parentPath, hdone]
      exact Text.segments_joinDots (List.cons_ne_nil first done) hundotted

end Workshop

/-! ### Steps -/

namespace Family

variable {W : Workshop M} {root owner : Schema M} {s : Step M} {done : List String} {name : String}
  {E : Executor σ} {d : Dialect} {roots owners : List (Record M)} {state : σ}

section

variable {F : Family M} {e : Error} {state' : σ}

theorem keeps_attached {r : Relation M} (hr : F.Grounded r) {fetched : List (Fetched M)}
    (hfetched : ∀ f ∈ fetched, f.record.model = r.target ∧ F.Conforms f.record) :
    F.Keeps r.owner (F.attached r fetched) :=
  fun _ hm hconforms => attached_conforms hr hfetched hm hconforms

theorem answers_nil (F : Family M) (E : Executor σ) (d : Dialect) (s : Step M) (state : σ) :
    F.Answers E d s [] state [] state := .idle rfl

variable [DecidableEq M]

/-- How a step fails on some roots, and the state of the executor after it: the context or the
executor refuses the statement, or a row of the answer cannot be read. -/
inductive StepFails (F : Family M) (E : Executor σ) (d : Dialect) (s : Step M)
    (roots : List (Record M)) (state : σ) : Error → σ → Prop where
  | refused {owners : List (Record M)} {err : ExecError} {state' : σ}
      (howners : F.reach (ownerNames s) roots = .ok owners)
      (hrefuses : F.Refuses E d s owners state err state') :
      StepFails F E d s roots state (.queryFailed s.path err) state'
  | unreadable {owners : List (Record M)} {rows : List Row} {row : Row} {e : Error} {state' : σ}
      (howners : F.reach (ownerNames s) roots = .ok owners)
      (hanswers : F.Answers E d s owners state rows state') (hrow : row ∈ rows)
      (hhydrate : F.hydrate s.target s.relation row = .error e) :
      StepFails F E d s roots state e state'

end

variable [DecidableEq M]

theorem runStep_eq_load (hF : W.family.DistinctNames) (hN : W.family.FilledNames)
    (hs : W.Placed root s done owner name) (hroot : W.direct root.model = .ok root)
    (hnamed : s.Named) (hroots : W.family.AllConform root.model roots) (E : Executor σ)
    (d : Dialect) (state : σ) :
    ∃ owners, W.family.reach done roots = .ok owners ∧
      W.family.AllConform s.relation.owner owners ∧ ownerNames s = done ∧
      W.family.runStep E d s roots state = W.family.load E d s done owners roots state := by
  obtain ⟨owners, howners, hconform, hof, hnames⟩ := hs.ownersOf hF hN hroot hnamed hroots
  refine ⟨owners, howners, hconform, hnames, ?_⟩
  simp only [runStep, hof, hnames]
  cases howner : owners.isEmpty with
  | false => simp only [Bool.false_eq_true, if_false]
  | true =>
    have hnil : owners = [] := List.isEmpty_iff.mp howner
    subst hnil
    have hfollows := hs.follows hroot
    rw [load_of_hydrated hF hfollows.grounded hfollows.describes hfollows.target_model howners
      hconform (answers_nil W.family E d s state) rfl, map_mapAt_of_reach_nil howners]
    simp only [if_true]

/-- A step attaches the records of its answer or fails without a trace in the roots. -/
theorem runStep_cases (hF : W.family.DistinctNames) (hN : W.family.FilledNames)
    (hs : W.Placed root s done owner name) (hroot : W.direct root.model = .ok root)
    (hnamed : s.Named) (hroots : W.family.AllConform root.model roots) (E : Executor σ)
    (d : Dialect) (state : σ) :
    (∃ roots' state', W.family.runStep E d s roots state = .done (roots', state') () ∧
      W.family.AllConform root.model roots') ∨
    ∃ e state', W.family.runStep E d s roots state = .failed (roots, state') e ∧
      W.family.StepFails E d s roots state e state' := by
  obtain ⟨owners, howners, hconform, hnames, hrun⟩ :=
    runStep_eq_load hF hN hs hroot hnamed hroots E d state
  have hfollows := hs.follows hroot
  have hreach : W.family.reach (ownerNames s) roots = .ok owners := hnames ▸ howners
  rw [hrun]
  rcases load_cases hF hfollows.grounded hfollows.describes hfollows.target_model howners
    hconform with ⟨rows, fetched, state', ha, hrows, hload⟩ | ⟨rows, e, state', ha, hrow, hload⟩ |
      ⟨err, state', ha, hload⟩
  · refine Or.inl ⟨_, state', hload, ?_⟩
    have hkeeps : W.family.Keeps s.relation.owner (W.family.attached s.relation fetched) := by
      refine keeps_attached hfollows.grounded fun f hf => ?_
      obtain ⟨hm, hc⟩ := conforms_of_hydrateAll hfollows.describes hrows f hf
      exact ⟨hm.trans hfollows.target_model, hc⟩
    rw [hs.owner_model hroot] at hkeeps
    exact (Workshop.keeps_mapAt hF hroot hs.chain hkeeps).map hroots
  · obtain ⟨row, hrow, he⟩ := hrow
    exact Or.inr ⟨e, state', hload, .unreadable hreach ha hrow he⟩
  · exact Or.inr ⟨_, state', hload, .refused hreach ha⟩

/-! ### Plans -/

/-- A plan that fails ran all steps before the failing one, and that one changed no record. -/
theorem runPlan_error (hF : W.family.DistinctNames) (hN : W.family.FilledNames)
    (hroot : W.direct root.model = .ok root) {p : Plan M}
    (hplaced : ∀ s ∈ p, ∃ done owner name, W.Placed root s done owner name)
    (hnamed : ∀ s ∈ p, s.Named) (hroots : W.family.AllConform root.model roots) {e : Error}
    (he : (W.family.runPlan E d p roots state).result = .error e) :
    ∃ before s after state', p = before ++ s :: after ∧
      W.family.runPlan E d before roots state =
        .done ((W.family.runPlan E d p roots state).state.1, state') () ∧
      W.family.StepFails E d s (W.family.runPlan E d p roots state).state.1 state' e
        (W.family.runPlan E d p roots state).state.2 := by
  induction p generalizing roots state with
  | nil => cases he
  | cons s p ih =>
    obtain ⟨done, owner, name, hs⟩ := hplaced s List.mem_cons_self
    rcases runStep_cases hF hN hs hroot (hnamed s List.mem_cons_self) hroots E d state with
      ⟨roots', state₁, hstep, hroots'⟩ | ⟨e', state₁, hstep, hfails⟩
    · have hrun : ∀ q : Plan M, W.family.runPlan E d (s :: q) roots state =
          W.family.runPlan E d q roots' state₁ := by
        intro q
        simp only [runPlan, hstep, Attempt.done]
      rw [hrun] at he ⊢
      obtain ⟨before, t, after, state', hp, hbefore, hfails⟩ :=
        ih (fun t ht => hplaced t (List.mem_cons_of_mem s ht))
          (fun t ht => hnamed t (List.mem_cons_of_mem s ht)) hroots' he
      refine ⟨s :: before, t, after, state', by rw [hp, List.cons_append], ?_, hfails⟩
      rw [hrun]
      exact hbefore
    · have hrun : W.family.runPlan E d (s :: p) roots state = .failed (roots, state₁) e' := by
        simp only [runPlan, hstep, Attempt.failed]
      rw [hrun] at he ⊢
      cases he
      exact ⟨[], s, p, state, rfl, rfl, hfails⟩

/-- Once its plan is made, preloading fails only where the statement of a step is refused or a row
of its answer cannot be read. The roots are then what the steps before it made of them, and the
executor is left as this step left it. -/
theorem preload_fails_between_steps {F : Family M} {config : Config} {b : Batch M σ}
    (hR : b.registry.Reached F config) (hF : F.DistinctNames) (hN : F.FilledNames) {model : M}
    {schema : Schema M} (hschema : (b.registry.schemaFor F model).result = .ok schema)
    {handlers : List Handler} {steps : Plan M}
    (hsteps : (Plan.ofHandlers F schema handlers (b.registry.schemaFor F model).state).result =
      .ok steps)
    (hroots : F.AllConform model b.roots) (E : Executor σ) (d : Dialect) {e : Error}
    (he : (F.preload E d model handlers b).result = .error e) :
    ∃ before s after state, steps = before ++ s :: after ∧
      F.runPlan E d before b.roots b.state =
        .done ((F.preload E d model handlers b).state.roots, state) () ∧
      F.StepFails E d s (F.preload E d model handlers b).state.roots state e
        (F.preload E d model handlers b).state.state := by
  have hfaithful := hR.faithful
  obtain ⟨hdirect, -⟩ := hfaithful.result_ok hschema
  have hmodel : schema.model = model := Workshop.model_of_direct hdirect
  have hserves := Plan.ofHandlers_serves (hfaithful.schemaFor model) hsteps
  simp only [preload, hschema, hsteps] at he ⊢
  exact runPlan_error (W := Workshop.ofConfig F config) hF hN (hmodel.symm ▸ hdirect)
    hserves.placed hserves.named (hmodel.symm ▸ hroots) he

end Family

/-! ### A failing second level -/

namespace Registry

theorem filledNames_shelf : shelf.FilledNames := by
  intro m
  cases m <;> decide

/-- An executor that answers one statement with the books and no other one. -/
def onceExecutor : Executor Nat where
  halted? _ := none
  query _ n := if n = 0 then (.ok bookRows, 1) else (.error .noRows, n + 1)
  execute _ n := (.ok 0, n + 1)

/-- Three authors without books, a registry without schemas and an executor without statements. -/
def authorsBatch : Batch Shelf Nat := ⟨ofConfig 0 .standard, threeAuthors, 0⟩

/-- The books of authors and, below them, the authors of books. -/
def booksHandlers : List Handler := [.ofPath "books.author"]

theorem isSome_booksPlan : (Plan.ofHandlers shelf (shelfSchema .author) booksHandlers
    (authorsBatch.registry.schemaFor shelf .author).state).result.toOption.isSome := by
  decide +kernel

theorem preload_authors_error :
    (shelf.preload onceExecutor .postgres .author booksHandlers authorsBatch).result =
      .error (.queryFailed "books.author" .noRows) := by
  decide +kernel

/-- The authors keep their books when the authors of these cannot be loaded. -/
theorem preload_authors_fails_between_steps : ∃ steps before s after state,
    (Plan.ofHandlers shelf (shelfSchema .author) booksHandlers
      (authorsBatch.registry.schemaFor shelf .author).state).result = .ok steps ∧
    steps = before ++ s :: after ∧
    shelf.runPlan onceExecutor .postgres before threeAuthors 0 =
      .done ((shelf.preload onceExecutor .postgres .author booksHandlers authorsBatch).state.roots,
        state) () := by
  obtain ⟨steps, hsteps⟩ := exists_ok isSome_booksPlan
  obtain ⟨before, s, after, state, heq, hrun, -⟩ :=
    Family.preload_fails_between_steps (b := authorsBatch) (Reached.fresh 0) distinctNames_shelf
      filledNames_shelf (schemaFor_shelf .author) hsteps threeAuthors_conform onceExecutor .postgres
      preload_authors_error
  exact ⟨steps, before, s, after, state, hsteps, heq, hrun⟩

end Registry

end RecordGraph
