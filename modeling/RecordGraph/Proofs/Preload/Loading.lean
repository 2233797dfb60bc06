import RecordGraph.Proofs.Preload.Hydration

/-!
# Loading a relation for its owners

Keys, context, statement and rows all come before the first owner is changed, and attaching cannot
fail. So a step either attaches exactly what the executor answered or changes nothing.
-/

namespace RecordGraph

variable {M σ : Type}

namespace Family

variable {F : Family M}

/-- The values that the statement of a relation is bound to for some owners. -/
def ownerValues (F : Family M) (r : Relation M) (owners : List (Record M)) : List Value :=
  match F.ownerKeys r owners with
  | .ok ks => distinctValues [] ks
  | .error _ => []

/-- The rows that a step gets for its owners, and the state of the executor after it. -/
inductive Answers (F : Family M) (E : Executor σ) (d : Dialect) (s : Step M)
    (owners : List (Record M)) (state : σ) : List Row → σ → Prop where
  | idle (hkeys : F.ownerValues s.relation owners = []) : Answers F E d s owners state [] state
  | sent {rows : List Row} {state' : σ} (hkeys : F.ownerValues s.relation owners ≠ [])
      (hlive : E.halted? state = none)
      (hquery : E.query (statementOf d s (F.ownerValues s.relation owners)) state =
        (.ok rows, state')) : Answers F E d s owners state rows state'

/-- The reason why a step gets no rows, and the state of the executor after it. -/
inductive Refuses (F : Family M) (E : Executor σ) (d : Dialect) (s : Step M)
    (owners : List (Record M)) (state : σ) : ExecError → σ → Prop where
  | halted {err : ExecError} (hkeys : F.ownerValues s.relation owners ≠ [])
      (hhalted : E.halted? state = some err) : Refuses F E d s owners state err state
  | failed {err : ExecError} {state' : σ} (hkeys : F.ownerValues s.relation owners ≠ [])
      (hlive : E.halted? state = none)
      (hquery : E.query (statementOf d s (F.ownerValues s.relation owners)) state =
        (.error err, state')) : Refuses F E d s owners state err state'

variable {E : Executor σ} {d : Dialect} {s : Step M} {owners roots : List (Record M)}
  {state state' : σ}

/-! ### Fetching -/

theorem ownerKeys_eq_ok (hF : F.DistinctNames) {r : Relation M} (hr : F.Grounded r)
    (h : F.AllConform r.owner owners) :
    ∃ ks, F.ownerKeys r owners = .ok ks ∧ F.ownerValues r owners = distinctValues [] ks := by
  obtain ⟨ks, hks, -⟩ := ownerKeys_ok hF hr h
  exact ⟨ks, hks, by simp only [ownerValues, hks]⟩

theorem answers_or_refuses (F : Family M) (E : Executor σ) (d : Dialect) (s : Step M)
    (owners : List (Record M)) (state : σ) :
    (∃ rows state', F.Answers E d s owners state rows state') ∨
      ∃ err state', F.Refuses E d s owners state err state' := by
  by_cases hkeys : F.ownerValues s.relation owners = []
  · exact Or.inl ⟨[], state, .idle hkeys⟩
  · cases hhalted : E.halted? state with
    | some err => exact Or.inr ⟨err, state, .halted hkeys hhalted⟩
    | none =>
      cases hquery : E.query (statementOf d s (F.ownerValues s.relation owners)) state with
      | mk result state' =>
        cases result with
        | ok rows => exact Or.inl ⟨rows, state', .sent hkeys hhalted hquery⟩
        | error err => exact Or.inr ⟨err, state', .failed hkeys hhalted hquery⟩

variable [DecidableEq M]

theorem fetch_of_answers (hF : F.DistinctNames) (hr : F.Grounded s.relation)
    (h : F.AllConform s.relation.owner owners) {rows : List Row}
    (ha : F.Answers E d s owners state rows state') :
    F.fetch E d s owners state = (F.hydrateAll s.target s.relation rows, state') := by
  obtain ⟨ks, hks, hvalues⟩ := ownerKeys_eq_ok hF hr h
  cases ha with
  | idle hkeys =>
    rw [hvalues] at hkeys
    simp only [fetch, hks, hkeys, List.isEmpty_nil, if_true, hydrateAll]
  | sent hkeys hlive hquery =>
    rw [hvalues] at hkeys hquery
    have hempty : (distinctValues [] ks).isEmpty = false := List.isEmpty_eq_false_iff.mpr hkeys
    simp only [fetch, hks, hempty, hlive, hquery, Bool.false_eq_true, if_false]

theorem fetch_of_refuses (hF : F.DistinctNames) (hr : F.Grounded s.relation)
    (h : F.AllConform s.relation.owner owners) {err : ExecError}
    (ha : F.Refuses E d s owners state err state') :
    F.fetch E d s owners state = (.error (.queryFailed s.path err), state') := by
  obtain ⟨ks, hks, hvalues⟩ := ownerKeys_eq_ok hF hr h
  cases ha with
  | halted hkeys hhalted =>
    rw [hvalues] at hkeys
    have hempty : (distinctValues [] ks).isEmpty = false := List.isEmpty_eq_false_iff.mpr hkeys
    simp only [fetch, hks, hempty, hhalted, Bool.false_eq_true, if_false]
  | failed hkeys hlive hquery =>
    rw [hvalues] at hkeys hquery
    have hempty : (distinctValues [] ks).isEmpty = false := List.isEmpty_eq_false_iff.mpr hkeys
    simp only [fetch, hks, hempty, hlive, hquery, Bool.false_eq_true, if_false]

/-! ### Loading -/

theorem attach_goesWell (hF : F.DistinctNames) {r : Relation M} (hr : F.Grounded r)
    {names : List String} (ho : F.reach names roots = .ok owners)
    (h : F.AllConform r.owner owners) {fetched : List (Fetched M)}
    (hfetched : ∀ f ∈ fetched, f.record.model = r.target) :
    F.GoesWell (F.attach r fetched) (F.attached r fetched) names roots := by
  refine ⟨owners, ho, fun owner howner => ?_⟩
  obtain ⟨hm, hconforms⟩ := h owner howner
  exact attach_ok hF hr hfetched hm hconforms

theorem load_of_hydrated (hF : F.DistinctNames) (hr : F.Grounded s.relation)
    (ht : F.Describes s.target) (htarget : s.target.model = s.relation.target)
    {names : List String} (ho : F.reach names roots = .ok owners)
    (h : F.AllConform s.relation.owner owners) {rows : List Row} {fetched : List (Fetched M)}
    (ha : F.Answers E d s owners state rows state')
    (hrows : F.hydrateAll s.target s.relation rows = .ok fetched) :
    F.load E d s names owners roots state =
      .done (roots.map (F.mapAt (F.attached s.relation fetched) names), state') () := by
  have hfetched : ∀ f ∈ fetched, f.record.model = s.relation.target := by
    intro f hf
    exact (conforms_of_hydrateAll ht hrows f hf).1.trans htarget
  obtain ⟨k, hk⟩ := updateAll_goesWell (attach_goesWell hF hr ho h hfetched)
  have hfetch := fetch_of_answers hF hr h ha
  rw [hrows] at hfetch
  simp only [load, hfetch, hk, Attempt.done, Except.map]

/-- A step changes its owners as said or leaves all records as they are. -/
theorem load_cases (hF : F.DistinctNames) (hr : F.Grounded s.relation)
    (ht : F.Describes s.target) (htarget : s.target.model = s.relation.target)
    {names : List String} (ho : F.reach names roots = .ok owners)
    (h : F.AllConform s.relation.owner owners) :
    (∃ rows fetched state', F.Answers E d s owners state rows state' ∧
      F.hydrateAll s.target s.relation rows = .ok fetched ∧
      F.load E d s names owners roots state =
        .done (roots.map (F.mapAt (F.attached s.relation fetched) names), state') ()) ∨
    (∃ rows e state', F.Answers E d s owners state rows state' ∧
      (∃ row ∈ rows, F.hydrate s.target s.relation row = .error e) ∧
      F.load E d s names owners roots state = .failed (roots, state') e) ∨
    ∃ err state', F.Refuses E d s owners state err state' ∧
      F.load E d s names owners roots state =
        .failed (roots, state') (.queryFailed s.path err) := by
  rcases answers_or_refuses F E d s owners state with ⟨rows, state', ha⟩ | ⟨err, state', ha⟩
  · cases hrows : F.hydrateAll s.target s.relation rows with
    | ok fetched =>
      exact Or.inl ⟨rows, fetched, state', ha, hrows,
        load_of_hydrated hF hr ht htarget ho h ha hrows⟩
    | error e =>
      have hfetch := fetch_of_answers hF hr h ha
      rw [hrows] at hfetch
      exact Or.inr (Or.inl ⟨rows, e, state', ha, hydrateAll_error hrows,
        by simp only [load, hfetch]⟩)
  · have hfetch := fetch_of_refuses hF hr h ha
    exact Or.inr (Or.inr ⟨err, state', ha, by simp only [load, hfetch]⟩)

/-! ### Steps of schemas -/

/-- The step follows a relation of a direct schema to the direct schema of the target. -/
structure Follows (W : Workshop M) (s : Step M) : Prop where
  relation : ∃ m schema, W.direct m = .ok schema ∧ s.relation ∈ schema.relations
  target : W.direct s.relation.target = .ok s.target

variable {W : Workshop M}

omit [DecidableEq M] in
theorem Follows.grounded (h : Follows W s) : W.family.Grounded s.relation := by
  obtain ⟨m, schema, hm, hr⟩ := h.relation
  exact Workshop.grounded_of_direct hm hr

omit [DecidableEq M] in
theorem Follows.target_model (h : Follows W s) : s.target.model = s.relation.target :=
  Workshop.model_of_direct h.target

omit [DecidableEq M] in
theorem Follows.describes (h : Follows W s) : W.family.Describes s.target :=
  describes_of_direct h.target

theorem follows_of_schemaFor {config : Config} {R S : Registry M} (hR : R.Reached F config)
    (hS : S.Reached F config) {m : M} {schema : Schema M}
    (hm : (R.schemaFor F m).result = .ok schema) (hr : s.relation ∈ schema.relations)
    (ht : (S.schemaFor F s.relation.target).result = .ok s.target) :
    Follows (Workshop.ofConfig F config) s :=
  ⟨⟨m, schema, (hR.faithful.result_ok hm).1, hr⟩, (hS.faithful.result_ok ht).1⟩

end Family

/-! ### Books of authors -/

namespace Registry

theorem distinctNames_shelf : shelf.DistinctNames := by
  intro m
  cases m <;> decide

theorem isSome_books : ((shelfSchema .author).relation? "books").isSome := by
  decide +kernel

def booksStep : Step Shelf :=
  ⟨["books"], Option.get _ isSome_books, shelfSchema .book, none⟩

theorem schemaFor_books : ((ofConfig 0 .standard).schemaFor shelf booksStep.relation.target).result =
    .ok booksStep.target := by
  have htarget : booksStep.relation.target = .book := by decide +kernel
  rw [htarget]
  exact schemaFor_shelf .book

theorem books_mem : booksStep.relation ∈ (shelfSchema .author).relations :=
  (Schema.relation?_cases (Option.some_get isSome_books).symm).1

def author (n : IntType.i64.Word) : Record Shelf :=
  (shelf.blank .author).setSlot 0 (.column (.plain (.int .i64)) n)

theorem conforms_author (n : IntType.i64.Word) : shelf.Conforms (author n) :=
  (Family.conforms_blank Shelf.author).setSlot (d := ⟨"id", "", .column (.plain (.int .i64))⟩) rfl
    (Family.suits_column (.plain (.int .i64)) n)

/-- A number of the width that the keys have; zero stands for a number that does not fit. -/
def keyWord (n : Int) : IntType.i64.Word := (IntType.i64.ofInt? n).getD default

/-- Two authors with one key and an author without a key. -/
def threeAuthors : List (Record Shelf) :=
  [author (keyWord 7), author (keyWord 0), author (keyWord 7)]

theorem threeAuthors_conform : shelf.AllConform .author threeAuthors := by
  intro r hr
  simp only [threeAuthors, List.mem_cons, List.not_mem_nil, or_false] at hr
  rcases hr with rfl | rfl | rfl <;> exact ⟨rfl, conforms_author _⟩

/-- Books of two known authors, and one of nobody. -/
def bookRows : List Row :=
  [⟨[("id", .int .i64 (some (keyWord 1))), ("author_id", .int .i64 (some (keyWord 7)))]⟩,
    ⟨[("id", .int .i64 (some (keyWord 2))), ("author_id", .int .i64 (some (keyWord 9)))]⟩,
    ⟨[("id", .int .i64 (some (keyWord 3))), ("author_id", .int .i64 none)]⟩,
    ⟨[("id", .int .i64 (some (keyWord 4))), ("author_id", .int .i64 (some (keyWord 7)))]⟩]

/-- An executor that answers every statement with the books and counts the statements. -/
def bookExecutor : Executor Nat where
  halted? _ := none
  query _ n := (.ok bookRows, n + 1)
  execute _ n := (.ok 0, n + 1)

end Registry

end RecordGraph
