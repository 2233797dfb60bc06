import RecordGraph.Proofs.Preload.Fetching
import RecordGraph.Proofs.Preload.Refinement

/-!
# Many roots at once and each one alone

An executor that answers the statement of a relation with the rows of the keys it was asked for
gives an owner the same records whatever other keys were in the statement. A root therefore gets the
same from a batch as it gets alone.
-/

namespace RecordGraph

variable {M σ : Type} [DecidableEq M]

/-! ### Executors that answer by keys -/

/-- The registry answers a schema that has the relation, and the target is the schema it answers. -/
structure Registry.Relates (F : Family M) (R : Registry M) (r : Relation M) (target : Schema M) :
    Prop where
  relation : ∃ m schema, (R.schemaFor F m).result = .ok schema ∧ r ∈ schema.relations
  target : (R.schemaFor F r.target).result = .ok target

/-- For every relation there are rows for either scope, and the executor answers the plain statement
with those of them that have one of its keys, in their order. The key of a row that can be read is
the one that its record is matched by. The states are those of a kind in which the context lets
either all statements through or none. -/
structure Executor.AnswersByKey (E : Executor σ) (F : Family M) (R : Registry M) (d : Dialect)
    (rows : Relation M → Bool → List Row) (key : Relation M → Row → Option Key) (P : σ → Prop) :
    Prop where
  halted_eq : ∀ s t, P s → P t → E.halted? s = E.halted? t
  key_eq : ∀ r target, R.Relates F r target → ∀ row f, F.hydrate target r row = .ok f →
    f.key = key r row
  answer : ∀ r target, R.Relates F r target → ∀ (keys : List Value) unscoped s, keys ≠ [] → P s →
    ∃ t, E.query (d.render (selectRelated target r keys unscoped)) s =
      (.ok ((rows r unscoped).filter fun row =>
        (key r row).any fun k => k ∈ keys.filterMap Key.ofValue?), t) ∧ P t

namespace Family

variable {F : Family M} {R : Registry M} {E : Executor σ} {d : Dialect}
  {rows : Relation M → Bool → List Row} {key : Relation M → Row → Option Key} {P : σ → Prop}
  {s : Step M} {owners few : List (Record M)} {state state' other : σ} {fetched : List (Fetched M)}

/-! ### What one owner is given -/

theorem hydrateAll_filter {target : Schema M} {r : Relation M} {rs : List Row}
    {keyed : Row → Option Key} (h : F.hydrateAll target r rs = .ok fetched)
    (hkeyed : ∀ row f, F.hydrate target r row = .ok f → f.key = keyed row) (k : Key) :
    F.hydrateAll target r (rs.filter fun row => keyed row = some k) =
      .ok (fetched.filter fun f => f.key = some k) := by
  have hrows := hydrateAll_ok_iff.mp h
  refine hydrateAll_ok_iff.mpr (List.rel_filter (fun row f hf => ?_) hrows)
  show decide (keyed row = some k) = true ↔ decide (f.key = some k) = true
  rw [hkeyed row f hf]

/-- The rows that an executor has for one key. -/
def rowsOfKey (rows : Relation M → Bool → List Row) (key : Relation M → Row → Option Key)
    (s : Step M) (k : Key) : List Row :=
  (rows s.relation s.unscoped).filter fun row => key s.relation row = some k

/-- What was fetched for some owners holds for the key of each of them the records of its rows. -/
theorem fetch_by_key (hF : F.DistinctNames) (hr : F.Grounded s.relation)
    (hE : E.AnswersByKey F R d rows key P) (hrelates : R.Relates F s.relation s.target)
    (hrefine : s.handler.bind Handler.refine = none)
    (howners : F.AllConform s.relation.owner owners) (hs : P state)
    (h : F.fetch E d s owners state = (.ok fetched, state')) :
    P state' ∧ ∀ owner ∈ owners, ∀ k, F.keyOf s.relation owner = some k →
      E.halted? state = none ∧ F.hydrateAll s.target s.relation (rowsOfKey rows key s k) =
        .ok (fetched.filter fun f => f.key = some k) := by
  rcases answers_or_refuses F E d s owners state with ⟨answer, next, ha⟩ | ⟨err, next, ha⟩
  · have hfetch := fetch_of_answers hF hr howners ha
    rw [h] at hfetch
    obtain ⟨hanswer, rfl⟩ := Prod.mk.inj hfetch
    cases ha with
    | idle hkeys =>
      refine ⟨hs, fun owner howner k hk => ?_⟩
      have hmem := mem_ownerValues hF hr howners howner hk
      rw [hkeys] at hmem
      cases hmem
    | sent hkeys hlive hquery =>
      obtain ⟨t, hquery', ht⟩ := hE.answer s.relation s.target hrelates
        (F.ownerValues s.relation owners) s.unscoped state hkeys hs
      rw [statementOf_eq hrefine, hquery'] at hquery
      obtain ⟨hrows, rfl⟩ := Prod.mk.inj hquery
      cases hrows
      refine ⟨ht, fun owner howner k hk => ⟨hlive, ?_⟩⟩
      have hmem := mem_ownerValues hF hr howners howner hk
      have hread := hydrateAll_filter hanswer.symm
        (hE.key_eq s.relation s.target hrelates) k
      rw [List.filter_filter] at hread
      rw [← hread, rowsOfKey]
      refine congrArg (F.hydrateAll s.target s.relation) (List.filter_congr fun row _ => ?_)
      by_cases hrow : key s.relation row = some k
      · simp only [hrow, Option.any_some, hmem, decide_true, Bool.and_self]
      · simp only [hrow, decide_false, Bool.false_and]
  · rw [fetch_of_refuses hF hr howners ha] at h
    cases h

theorem exists_fetch (hF : F.DistinctNames) (hr : F.Grounded s.relation)
    (hE : E.AnswersByKey F R d rows key P) (hrelates : R.Relates F s.relation s.target)
    (hrefine : s.handler.bind Handler.refine = none)
    (howners : F.AllConform s.relation.owner owners) (hs : P state)
    (hreads : ∀ owner ∈ owners, ∀ k, F.keyOf s.relation owner = some k →
      E.halted? state = none ∧ ∀ row ∈ rowsOfKey rows key s k,
        ∃ f, F.hydrate s.target s.relation row = .ok f) :
    ∃ fetched state', F.fetch E d s owners state = (.ok fetched, state') := by
  by_cases hkeys : F.ownerValues s.relation owners = []
  · exact ⟨[], state, fetch_of_answers hF hr howners (.idle hkeys)⟩
  · obtain ⟨v, hv⟩ := List.exists_mem_of_ne_nil _ hkeys
    obtain ⟨owner, howner, k, hk, -⟩ := owner_of_mem_ownerValues hF hr howners hv
    have hlive := (hreads owner howner k hk).1
    obtain ⟨t, hquery, -⟩ := hE.answer s.relation s.target hrelates
      (F.ownerValues s.relation owners) s.unscoped state hkeys hs
    rw [← statementOf_eq hrefine] at hquery
    have hfetch := fetch_of_answers hF hr howners (.sent hkeys hlive hquery)
    obtain ⟨fetched, hfetched⟩ : ∃ fetched, F.hydrateAll s.target s.relation
        ((rows s.relation s.unscoped).filter fun row => (key s.relation row).any fun k =>
          k ∈ (F.ownerValues s.relation owners).filterMap Key.ofValue?) = .ok fetched := by
      refine hydrateAll_of_forall fun row hrow => ?_
      obtain ⟨hrow, hkey⟩ := List.mem_filter.mp hrow
      cases hl : key s.relation row with
      | none =>
        rw [hl] at hkey
        cases hkey
      | some l =>
        rw [hl, Option.any_some] at hkey
        obtain ⟨w, hw, hwl⟩ := List.mem_filterMap.mp (of_decide_eq_true hkey)
        obtain ⟨x, hx, k', hk', hwk⟩ := owner_of_mem_ownerValues hF hr howners hw
        cases hwk.symm.trans hwl
        exact (hreads x hx l hk').2 row (List.mem_filter.mpr ⟨hrow, by simpa using hl⟩)
    rw [hfetched] at hfetch
    exact ⟨fetched, t, hfetch⟩

theorem fetch_alone (hF : F.DistinctNames) (hr : F.Grounded s.relation)
    (hE : E.AnswersByKey F R d rows key P) (hrelates : R.Relates F s.relation s.target)
    (hrefine : s.handler.bind Handler.refine = none)
    (howners : F.AllConform s.relation.owner owners) (hfew : ∀ owner ∈ few, owner ∈ owners)
    (hs : P state) (h : F.fetch E d s owners state = (.ok fetched, state')) (ho : P other) :
    ∃ fetched' other', F.fetch E d s few other = (.ok fetched', other') ∧ P other' ∧
      ∀ owner ∈ few, F.matched s.relation fetched' owner = F.matched s.relation fetched owner := by
  have hconform : F.AllConform s.relation.owner few := fun x hx => howners x (hfew x hx)
  obtain ⟨-, hall⟩ := fetch_by_key hF hr hE hrelates hrefine howners hs h
  obtain ⟨fetched', other', hfetch⟩ : ∃ fetched' other',
      F.fetch E d s few other = (.ok fetched', other') := by
    refine exists_fetch hF hr hE hrelates hrefine hconform ho fun owner howner k hk => ?_
    obtain ⟨hlive, hread⟩ := hall owner (hfew owner howner) k hk
    exact ⟨(hE.halted_eq other state ho hs).trans hlive, forall_of_hydrateAll hread⟩
  obtain ⟨ho', hmine⟩ := fetch_by_key hF hr hE hrelates hrefine hconform ho hfetch
  refine ⟨fetched', other', hfetch, ho', fun owner howner => ?_⟩
  cases hk : F.keyOf s.relation owner with
  | none => simp only [matched, hk]
  | some k =>
    have hread := (hall owner (hfew owner howner) k hk).2
    have hread' := (hmine owner howner k hk).2
    have hsame := Except.ok.inj (hread'.symm.trans hread)
    simp only [matched, hk, matching_eq, hsame]

end Family

/-! ### Steps and plans on one root -/

namespace Family

omit [DecidableEq M] in
theorem exists_reach_one {F : Family M} {names : List String} {roots owners : List (Record M)}
    (h : F.reach names roots = .ok owners) {x : Record M} (hx : x ∈ roots) :
    ∃ few, F.reach names [x] = .ok few ∧ ∀ owner ∈ few, owner ∈ owners := by
  induction roots generalizing owners with
  | nil => cases hx
  | cons r roots ih =>
    obtain ⟨first, second, hfirst, hsecond, rfl⟩ := reach_cons.mp h
    rcases List.mem_cons.mp hx with rfl | hx
    · exact ⟨first, hfirst, fun owner howner => List.mem_append_left second howner⟩
    · obtain ⟨few, hfew, hmem⟩ := ih hsecond hx
      exact ⟨few, hfew, fun owner howner => List.mem_append_right first (hmem owner howner)⟩

theorem relates_of_placed {F : Family M} {config : Config} {R : Registry M}
    (hR : R.Faithful F config) {root owner : Schema M}
    (hroot : (Workshop.ofConfig F config).Finished root) {s : Step M} {done : List String}
    {name : String} (hs : (Workshop.ofConfig F config).Placed root s done owner name) :
    R.Relates F s.relation s.target := by
  have howner := hroot.of_chain hs.chain
  obtain ⟨schema, hschema, hdirect⟩ := hR.result_of_complete howner.complete
  cases hdirect.symm.trans howner.direct
  obtain ⟨target, htarget, hdirect', -⟩ := hR.target_answered howner hs.relation
  cases hdirect'.symm.trans hs.target
  exact ⟨⟨owner.model, owner, hschema, (Schema.relation?_cases hs.relation).1⟩, htarget⟩

section

variable {W : Workshop M} {R : Registry M} {E : Executor σ} {d : Dialect}
  {rows : Relation M → Bool → List Row} {key : Relation M → Row → Option Key} {P : σ → Prop}
  {s : Step M} {root owner : Schema M} {done : List String} {name : String}
  {roots : List (Record M)} {state : σ}

theorem runStep_alone (hF : W.family.DistinctNames) (hN : W.family.FilledNames)
    (hE : E.AnswersByKey W.family R d rows key P) (hroot : W.direct root.model = .ok root)
    (hs : W.Placed root s done owner name) (hnamed : s.Named)
    (hrelates : R.Relates W.family s.relation s.target)
    (hrefine : s.handler.bind Handler.refine = none)
    (hroots : W.family.AllConform root.model roots) (hstate : P state) :
    (∃ e state', W.family.runStep E d s roots state = .failed (roots, state') e) ∨
    ∃ g state', W.family.runStep E d s roots state = .done (roots.map g, state') () ∧ P state' ∧
      W.family.AllConform root.model (roots.map g) ∧
      ∀ x ∈ roots, ∀ other, P other → ∃ other',
        W.family.runStep E d s [x] other = .done ([g x], other') () ∧ P other' := by
  have hgrounded := (hs.follows hroot).grounded
  obtain ⟨owners, howners, hconform, hcases⟩ := runStep_fetch hF hN hs hroot hnamed hroots
  rcases hcases E d state with ⟨fetched, state', hfetch, hall, hrun⟩ | ⟨e, state', -, hrun⟩
  · have hstate' := (fetch_by_key hF hgrounded hE hrelates hrefine hconform hstate hfetch).1
    refine Or.inr ⟨_, state', hrun, hstate', hall, fun x hx other ho => ?_⟩
    obtain ⟨few, hfew, hmem⟩ := exists_reach_one howners hx
    obtain ⟨fetched', other', hfetch', ho', hsame⟩ := fetch_alone hF hgrounded hE hrelates hrefine
      hconform hmem hstate hfetch ho
    have hone : W.family.AllConform root.model [x] := by
      intro y hy
      rw [List.mem_singleton.mp hy]
      exact hroots x hx
    obtain ⟨few', hfew', -, hcases'⟩ := runStep_fetch hF hN hs hroot hnamed hone
    cases hfew.symm.trans hfew'
    rcases hcases' E d other with ⟨fetched'', next, hfetch'', -, hrun'⟩ | ⟨e, next, hfetch'', -⟩
    · cases hfetch'.symm.trans hfetch''
      have hattached : ∀ o ∈ few, W.family.attached s.relation fetched' o =
          W.family.attached s.relation fetched o := by
        intro o howner
        simp only [attached, hsame o howner]
      rw [mapAt_congr hfew hattached] at hrun'
      exact ⟨other', hrun', ho'⟩
    · cases hfetch'.symm.trans hfetch''
  · exact Or.inl ⟨e, state', hrun⟩

/-- A plan that goes well changes each root as it changes it alone. -/
theorem runPlan_alone (hF : W.family.DistinctNames) (hN : W.family.FilledNames)
    (hE : E.AnswersByKey W.family R d rows key P) (hroot : W.direct root.model = .ok root)
    {plan : Plan M} (hplaced : ∀ s ∈ plan, ∃ done owner name, W.Placed root s done owner name)
    (hnamed : ∀ s ∈ plan, s.Named)
    (hrelates : ∀ s ∈ plan, R.Relates W.family s.relation s.target)
    (hrefine : ∀ s ∈ plan, s.handler.bind Handler.refine = none)
    (hroots : W.family.AllConform root.model roots) (hstate : P state)
    (hok : (W.family.runPlan E d plan roots state).result = .ok ()) :
    ∃ g : Record M → Record M, (W.family.runPlan E d plan roots state).state.1 = roots.map g ∧
      ∀ x ∈ roots, ∀ other, P other → ∃ other', W.family.runPlan E d plan [x] other =
        .done ([g x], other') () := by
  induction plan generalizing roots state with
  | nil => exact ⟨id, (List.map_id roots).symm, fun x _ other _ => ⟨other, rfl⟩⟩
  | cons s plan ih =>
    obtain ⟨done, owner, name, hs⟩ := hplaced s List.mem_cons_self
    rcases runStep_alone hF hN hE hroot hs (hnamed s List.mem_cons_self)
        (hrelates s List.mem_cons_self) (hrefine s List.mem_cons_self) hroots hstate with
      ⟨e, state', hrun⟩ | ⟨g, state', hrun, hstate', hmore, halone⟩
    · rw [runPlan_of_failed hrun] at hok
      cases hok
    · rw [runPlan_of_done hrun] at hok ⊢
      obtain ⟨g', hrest, halone'⟩ := ih (fun t ht => hplaced t (List.mem_cons_of_mem s ht))
        (fun t ht => hnamed t (List.mem_cons_of_mem s ht))
        (fun t ht => hrelates t (List.mem_cons_of_mem s ht))
        (fun t ht => hrefine t (List.mem_cons_of_mem s ht)) hmore hstate' hok
      refine ⟨g' ∘ g, by rw [hrest, List.map_map], fun x hx other ho => ?_⟩
      obtain ⟨next, hx', hnext⟩ := halone x hx other ho
      obtain ⟨last, hlast⟩ := halone' (g x) (List.mem_map_of_mem hx) next hnext
      exact ⟨last, (runPlan_of_done hx' plan).trans hlast⟩

end

variable {F : Family M} {config : Config} {E : Executor σ} {d : Dialect}
  {rows : Relation M → Bool → List Row} {key : Relation M → Row → Option Key} {P : σ → Prop}

/-- Where a batch goes well, every root alone goes well too, and the batch is the list of what the
roots are alone. -/
theorem preload_each_alone {R : Registry M} (hR : R.Reached F config) (hF : F.DistinctNames)
    (hN : F.FilledNames) (hE : E.AnswersByKey F R d rows key P) {model : M}
    {handlers : List Handler} (hfree : ∀ h ∈ handlers, h.refine = none) {roots : List (Record M)}
    (hroots : F.AllConform model roots) {state : σ} (hstate : P state)
    (hok : (F.preload E d model handlers ⟨R, roots, state⟩).result = .ok ()) :
    ∃ alone : Record M → Record M,
      (F.preload E d model handlers ⟨R, roots, state⟩).state.roots = roots.map alone ∧
      ∀ x ∈ roots, ∀ S other, Registry.Reached F config S → P other → ∃ registry next,
        F.preload E d model handlers ⟨S, [x], other⟩ = .done ⟨registry, [alone x], next⟩ () := by
  have hfaithful := hR.faithful
  obtain ⟨registry, -, hrun⟩ := preload_eq_runPlan hfaithful model handlers
  rw [hrun] at hok ⊢
  cases hplan : R.planFor F model handlers with
  | error e =>
    rw [hplan] at hok
    cases hok
  | ok plan =>
    rw [hplan] at hok
    obtain ⟨root, rfl, hroot, hserves⟩ := hfaithful.planFor_serves hplan
    have hrelates : ∀ s ∈ plan, R.Relates F s.relation s.target := by
      intro s hs
      obtain ⟨done, owner, name, hplaced⟩ := hserves.placed s hs
      exact relates_of_placed hfaithful hroot hplaced
    obtain ⟨alone, hmap, halone⟩ := runPlan_alone (W := Workshop.ofConfig F config) hF hN hE
      hroot.direct hserves.placed hserves.named hrelates
      (fun s hs => hserves.refine_eq_none hfree hs) hroots hstate hok
    refine ⟨alone, hmap, fun x hx S other hS ho => ?_⟩
    obtain ⟨registry', -, hrun'⟩ := preload_eq_runPlan hS.faithful root.model handlers
    obtain ⟨next, hone⟩ := halone x hx other ho
    have hone : F.runPlan E d plan [x] other = .done ([alone x], next) () := hone
    refine ⟨registry', next, ?_⟩
    rw [hrun', hS.faithful.planFor_eq hfaithful, hplan]
    simp only [hone, Attempt.done]

end Family

/-! ### The store answers by keys -/

section

open Store (Tables)

/-- The rows that the store has for a relation: those that count and belong to a key. -/
def storedRows (schemas : M → Schema M) (tables : Tables) (r : Relation M) (unscoped : Bool) :
    List Row :=
  (((tables.rows (schemas r.target).table).flatMap (pairingsOf r tables)).filter fun p =>
    counts (schemas r.target) unscoped p.target && (pairingKey? r p).isSome).map
      ((lookupOf (schemas r.target) r unscoped).query []).output

def storedKey (F : Family M) (schemas : M → Schema M) (r : Relation M) (row : Row) : Option Key :=
  (F.hydrate (schemas r.target) r row).toOption.bind Family.Fetched.key

variable {F : Family M} {schemas : M → Schema M} {tables : Tables} {r : Relation M}

theorem storedKey_output (hF : F.DistinctNames) (h : Linked F r (schemas r.target))
    {p : Store.Pairing} (hrow : F.Stores (schemas r.target) p.target) {k : Key}
    (hk : pairingKey? r p = some k) (unscoped : Bool) :
    storedKey F schemas r (((lookupOf (schemas r.target) r unscoped).query []).output p) =
      some k := by
  have hread : F.hydrate (schemas r.target) r
      (((lookupOf (schemas r.target) r unscoped).query []).output p) =
        .ok ⟨some k, F.recordOf (schemas r.target) p.target⟩ := hydrate_output hF h hrow hk
  simp only [storedKey, hread]
  rfl

theorem answer_eq_storedRows (hF : F.DistinctNames) (h : Linked F r (schemas r.target))
    (hrows : ∀ row ∈ tables.rows (schemas r.target).table, F.Stores (schemas r.target) row)
    (keys : List Key) (unscoped : Bool) :
    ((lookupOf (schemas r.target) r unscoped).query keys).answer tables =
      (storedRows schemas tables r unscoped).filter fun row =>
        (storedKey F schemas r row).any fun k => k ∈ keys := by
  have hanswer : ((lookupOf (schemas r.target) r unscoped).query keys).answer tables =
      (((lookupOf (schemas r.target) r unscoped).query keys).kept tables).map
        ((lookupOf (schemas r.target) r unscoped).query []).output := rfl
  rw [hanswer, storedRows, List.filter_map, List.filter_filter, Store.Query.kept, pairings_query]
  refine congrArg (List.map _) (List.filter_congr fun p hp => ?_)
  obtain ⟨row, hrow, hp⟩ := List.mem_flatMap.mp hp
  have hstored : F.Stores (schemas r.target) p.target := by
    rw [target_of_mem_pairingsOf hp]
    exact hrows row hrow
  rw [Bool.eq_iff_iff, kept_iff h.worded]
  cases hk : pairingKey? r p with
  | none => simp
  | some k =>
    have hkey := storedKey_output hF h hstored hk unscoped
    simp only [Function.comp, hkey, Option.any_some, Option.isSome_some, Bool.and_true,
      Bool.and_eq_true, decide_eq_true_eq, Option.some_inj]
    constructor
    · rintro ⟨hcounts, l, hl, rfl⟩
      exact ⟨hl, hcounts⟩
    · rintro ⟨hmem, hcounts⟩
      exact ⟨hcounts, k, hmem, rfl⟩

/-- A store of rows answers every relation of the family by keys. -/
theorem Prepared.answersByKey {config : Config} {R : Registry M} (hR : R.Faithful F config)
    (h : Prepared (Workshop.ofConfig F config) schemas tables) (d : Dialect) :
    Store.executor.AnswersByKey F R d (storedRows schemas tables) (storedKey F schemas)
      (Store.Ready tables) := by
  have htarget : ∀ r target, R.Relates F r target → target = schemas r.target := by
    intro r target hr
    exact Except.ok.inj ((hR.result_ok hr.target).1.symm.trans (h.direct r.target))
  refine ⟨fun s t hs ht => hs.live.trans ht.live.symm, fun r target hr row f hf => ?_,
    fun r target hr keys unscoped c hkeys hc => ?_⟩
  · rw [htarget r target hr] at hf
    simp only [storedKey, hf]
    rfl
  · rw [htarget r target hr]
    obtain ⟨m, schema, hm, hmem⟩ := hr.relation
    have hschema : schema = schemas m :=
      Except.ok.inj ((hR.result_ok hm).1.symm.trans (h.direct m))
    have hlinked : Linked F r (schemas r.target) := h.plain.linked h.direct (hschema ▸ hmem)
    obtain ⟨c', hquery, hc'⟩ := Store.query_ready hc (hlinked.worded.ofStatement?_render d
      hkeys unscoped)
    rw [answer_eq_storedRows h.distinct hlinked (h.stores r.target)] at hquery
    exact ⟨c', hquery, hc'⟩

theorem Prepared.preload_ok {config : Config} {R : Registry M} (hR : R.Faithful F config)
    (h : Prepared (Workshop.ofConfig F config) schemas tables) {model : M}
    {handlers : List Handler} (hfree : ∀ h ∈ handlers, h.refine = none) {plan : Plan M}
    (hplan : R.planFor F model handlers = .ok plan) {roots : List (Record M)}
    (hroots : F.AllConform model roots) {c : Connection Store} (hc : Store.Ready tables c)
    (d : Dialect) : (F.preload Store.executor d model handlers ⟨R, roots, c⟩).result = .ok () := by
  obtain ⟨registry, -, hrun⟩ := Family.preload_eq_runPlan hR model handlers
  obtain ⟨root, rfl, hroot, hserves⟩ := hR.planFor_serves hplan
  have hschema : root = schemas root.model :=
    Except.ok.inj (hroot.direct.symm.trans (h.direct root.model))
  have hstart : roots.map (joined F schemas tables (Plan.wishes handlers ([] : Plan M))
      (depthOf handlers) []) = roots := by
    rw [List.map_congr_left fun x _ => joined_eq_self fun more _ _ => rfl, List.map_id']
  obtain ⟨c', hdone⟩ := h.runPlan_joined hfree (hschema ▸ hserves) (List.nil_append plan).symm
    hroots (hstart.symm ▸ hroots) hc d
  have hdone : F.runPlan Store.executor d plan (roots.map (joined F schemas tables
      (Plan.wishes handlers ([] : Plan M)) (depthOf handlers) [])) c = _ := hdone
  rw [hstart] at hdone
  rw [hrun, hplan]
  simp only [hdone, Attempt.done]

end

/-! ### Articles one by one -/

namespace Registry

theorem prepared_catalog :
    Prepared (Workshop.ofConfig catalog .standard) catalogSchema catalogTables :=
  ⟨fun m => ((faithful_ofConfig 0).result_ok (schemaFor_catalog m)).1, distinctNames_catalog,
    filledNames_catalog, plain_catalog, catalogTables_stored⟩

theorem isSome_topicsPlan : ((ofConfig 0 .standard : Registry Catalog).planFor catalog .article
    topicHandlers).toOption.isSome := by
  decide +kernel

/-- Every article is given the topics that it would be given alone. -/
theorem preload_topics_each_alone : ∃ alone : Record Catalog → Record Catalog,
    (catalog.preload Store.executor .mysql .article topicHandlers
      ⟨ofConfig 0 .standard, catalogBatch.roots, catalogBatch.state⟩).state.roots =
        catalogBatch.roots.map alone ∧
    ∀ x ∈ catalogBatch.roots, ∃ registry next,
      catalog.preload Store.executor .mysql .article topicHandlers
        ⟨ofConfig 0 .standard, [x], catalogBatch.state⟩ = .done ⟨registry, [alone x], next⟩ () := by
  have hready : Store.Ready catalogTables catalogBatch.state := ⟨rfl, rfl, rfl⟩
  have hfree : ∀ h ∈ topicHandlers, h.refine = none := by decide
  obtain ⟨plan, hplan⟩ := exists_ok isSome_topicsPlan
  have hok := prepared_catalog.preload_ok (faithful_ofConfig 0) hfree hplan catalogBatch_conform
    hready .mysql
  obtain ⟨alone, hbatch, halone⟩ := Family.preload_each_alone (Reached.fresh 0)
    distinctNames_catalog filledNames_catalog (prepared_catalog.answersByKey (faithful_ofConfig 0)
      .mysql) hfree catalogBatch_conform hready hok
  exact ⟨alone, hbatch, fun x hx => halone x hx (ofConfig 0 .standard) catalogBatch.state
    (Reached.fresh 0) hready⟩

end Registry

end RecordGraph
