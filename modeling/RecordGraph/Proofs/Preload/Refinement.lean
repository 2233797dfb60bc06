import RecordGraph.Proofs.Preload.Stepping

/-!
# Preloading is joining

Over tables of stored rows a plan attaches what the join of every single owner attaches: one
statement for all owners of a step, read back from its text by the store, gives each of them its own
records.
-/

namespace RecordGraph

open Store (Tables)

variable {M : Type}

/-! ### What handlers wish for -/

/-- The paths of handlers with all levels on the way. The first handler of exactly a path says
whether deleted records count there. -/
def wishesOf (handlers : List Handler) : Wishes where
  loads names := handlers.any fun h => names.isPrefixOf h.names
  unscoped names := (handlers.find? fun h => h.names = names).any Handler.unscoped

/-- The greatest number of levels that a handler asks for. -/
def depthOf : List Handler → Nat
  | [] => 0
  | h :: rest => max h.names.length (depthOf rest)

def Plan.wishes (handlers : List Handler) (p : Plan M) : Wishes where
  loads names := names ∈ p.map Step.names
  unscoped := (wishesOf handlers).unscoped

theorem length_le_depthOf {handlers : List Handler} {h : Handler} (hh : h ∈ handlers) :
    h.names.length ≤ depthOf handlers := by
  induction handlers with
  | nil => cases hh
  | cons g rest ih =>
    simp only [depthOf]
    rcases List.mem_cons.mp hh with rfl | hh
    · omega
    · have hrest := ih hh
      omega

theorem Plan.wishes_concat (handlers : List Handler) (p : Plan M) (s : Step M) :
    Plan.wishes handlers (p ++ [s]) = (Plan.wishes handlers p).with s.names := by
  have hloads : (Plan.wishes handlers (p ++ [s])).loads =
      ((Plan.wishes handlers p).with s.names).loads := by
    funext names
    simp only [Plan.wishes, Wishes.with, List.map_append, List.map_cons, List.map_nil,
      List.mem_append, List.mem_singleton, Bool.decide_or]
  simp only [Plan.wishes, Wishes.with, Wishes.mk.injEq, and_true] at hloads ⊢
  exact hloads

/-! ### The levels of a plan -/

namespace Plan

variable {W : Workshop M} {root : Schema M} {handlers : List Handler} {p before after : Plan M}
  {s : Step M}

theorem Serves.loads_before (h : Serves W root handlers [] p) (hp : p = before ++ s :: after)
    {more : List String} (hne : more ≠ []) (hmore : more <+: s.names) (hother : more ≠ s.names) :
    (Plan.wishes handlers before).loads more = true := by
  simp only [Plan.wishes, decide_eq_true_eq]
  exact h.mem_before hp hne hmore hother

theorem Serves.not_loads_below (h : Serves W root handlers [] p) (hp : p = before ++ s :: after)
    {more : List String} (hmore : s.names <+: more) :
    (Plan.wishes handlers before).loads more = false := by
  rw [← Bool.not_eq_true]
  simp only [Plan.wishes, decide_eq_true_eq]
  intro hmem
  obtain ⟨t, ht, rfl⟩ := List.mem_map.mp hmem
  have hsorted := h.sorted
  rw [hp] at hsorted
  have hearlier := (hsorted.mem_before_iff (List.mem_append_left _ ht)).mp ht
  have hdepth := Step.depth_le_of_before hearlier
  have hlength := hmore.length_le
  simp only [Step.depth] at hdepth
  have hsame : s.names = t.names := hmore.eq_of_length (by omega)
  exact Step.names_ne_of_before hearlier hsame.symm

theorem Serves.length_le (h : Serves W root handlers [] p) (hs : s ∈ p) :
    s.names.length ≤ depthOf handlers := by
  have hsnames : s.names ∈ p.map Step.names := List.mem_map.mpr ⟨s, hs, rfl⟩
  obtain ⟨hsne, hasked | ⟨g, hg, hasked⟩⟩ := (h.asked s.names).mp hsnames
  · exact absurd (List.prefix_nil.mp hasked) hsne
  · exact Nat.le_trans hasked.length_le (length_le_depthOf hg)

theorem Serves.unscoped_eq (h : Serves W root handlers [] p) (hs : s ∈ p) :
    (wishesOf handlers).unscoped s.names = s.unscoped := by
  simp only [wishesOf, Step.unscoped, h.handler_eq s hs]

theorem Serves.refine_eq_none (h : Serves W root handlers [] p)
    (hfree : ∀ g ∈ handlers, g.refine = none) (hs : s ∈ p) :
    s.handler.bind Handler.refine = none := by
  rw [h.handler_eq s hs]
  cases hg : handlers.find? fun g => g.names = s.names with
  | none => rfl
  | some g => exact hfree g (List.mem_of_find?_eq_some hg)

theorem Serves.loads_iff (h : Serves W root handlers [] p) {names : List String}
    (hne : names ≠ []) :
    (Plan.wishes handlers p).loads names = (wishesOf handlers).loads names := by
  rw [Bool.eq_iff_iff]
  simp only [Plan.wishes, wishesOf, decide_eq_true_eq, h.asked, List.any_eq_true,
    List.isPrefixOf_iff_prefix, List.prefix_nil]
  constructor
  · rintro ⟨-, hnil | hasked⟩
    · exact absurd hnil hne
    · exact hasked
  · intro hasked
    exact ⟨hne, Or.inr hasked⟩

end Plan

/-! ### Steps of the store -/

/-- The schemas of a family with plain names, and tables of stored rows. -/
structure Prepared (W : Workshop M) (schemas : M → Schema M) (tables : Tables) : Prop where
  direct : ∀ m, W.direct m = .ok (schemas m)
  distinct : W.family.DistinctNames
  filled : W.family.FilledNames
  plain : Plain schemas
  stores : ∀ m, ∀ row ∈ tables.rows (schemas m).table, W.family.Stores (schemas m) row

namespace Prepared

variable {W : Workshop M} {schemas : M → Schema M} {tables : Tables} {m : M}
  {roots : List (Record M)} {c : Connection Store} {d : Dialect}

theorem root_direct (h : Prepared W schemas tables) (m : M) :
    W.direct (schemas m).model = .ok (schemas m) := by
  rw [Workshop.model_of_direct (h.direct m)]
  exact h.direct m

variable [DecidableEq M]

/-- A step on joined records joins one more path. -/
theorem runStep_joined (h : Prepared W schemas tables) {s : Step M} {done : List String}
    {owner : Schema M} {name : String} (hs : W.Placed (schemas m) s done owner name)
    (hnamed : s.Named) (hrefine : s.handler.bind Handler.refine = none) {w : Wishes}
    (hunscoped : w.unscoped s.names = s.unscoped)
    (hloaded : ∀ more, more ≠ [] → more <+: done → w.loads more = true)
    (hbelow : ∀ more, s.names <+: more → w.loads more = false) {n : Nat} (hn : done.length < n)
    (hroots : W.family.AllConform m roots)
    (hjoined : W.family.AllConform m (roots.map (joined W.family schemas tables w n [])))
    (hc : Store.Ready tables c) (d : Dialect) :
    ∃ c', W.family.runStep Store.executor d s
          (roots.map (joined W.family schemas tables w n [])) c =
        .done (roots.map (joined W.family schemas tables (w.with s.names) n []), c') () ∧
      Store.Ready tables c' ∧
      W.family.AllConform m (roots.map (joined W.family schemas tables (w.with s.names) n [])) := by
  have hroot := h.root_direct m
  have hmodel : (schemas m).model = m := Workshop.model_of_direct (h.direct m)
  have hfollows := hs.follows hroot
  obtain ⟨hmem, hname⟩ := Schema.relation?_cases hs.relation
  have howner : owner = schemas owner.model :=
    Except.ok.inj ((Workshop.direct_of_chain hroot hs.chain).symm.trans (h.direct owner.model))
  have htarget : s.target = schemas s.relation.target :=
    Except.ok.inj (hs.target.symm.trans (h.direct s.relation.target))
  have hlinked : Linked W.family s.relation s.target := by
    rw [htarget]
    rw [howner] at hmem
    exact h.plain.linked h.direct hmem
  obtain ⟨owners, howners, hconform, -, hrun⟩ := Family.runStep_eq_load h.distinct h.filled hs hroot
    hnamed (hmodel.symm ▸ hjoined) Store.executor d c
  obtain ⟨rows, fetched, c', hanswers, hhydrate, hc', hmatched⟩ := hlinked.answered h.distinct
    hfollows.grounded hconform hrefine (htarget ▸ h.stores s.relation.target) hc d
  have hload := Family.load_of_hydrated h.distinct hfollows.grounded hfollows.describes
    hfollows.target_model howners hconform hanswers hhydrate
  have hwith : ∀ x ∈ owners, W.family.attached s.relation fetched x =
      withRelated W.family tables s.target s.relation s.unscoped x := by
    intro x hx
    simp only [Family.attached, withRelated, hmatched x hx]
  have hmap : (roots.map (joined W.family schemas tables w n [])).map
      (W.family.mapAt (W.family.attached s.relation fetched) done) =
        roots.map (joined W.family schemas tables (w.with s.names) n []) := by
    rw [Family.mapAt_congr howners hwith, List.map_map]
    refine List.map_congr_left fun x hx => ?_
    obtain ⟨hxm, hxc⟩ := hroots x hx
    rw [htarget, ← hunscoped]
    refine mapAt_joined h.distinct h.direct h.stores hxc ?_ hs.relation ?_ hloaded hbelow hn
    · rw [hxm]
      exact hs.chain
    · rw [hs.names_eq, List.nil_append]
  have hkeeps : W.family.Keeps s.relation.owner (W.family.attached s.relation fetched) := by
    refine Family.keeps_attached hfollows.grounded fun f hf => ?_
    obtain ⟨hm, hc⟩ := Family.conforms_of_hydrateAll hfollows.describes hhydrate f hf
    exact ⟨hm.trans hfollows.target_model, hc⟩
  rw [hs.owner_model hroot] at hkeeps
  have hresult := (Workshop.keeps_mapAt h.distinct hroot hs.chain hkeeps).map
    (hmodel.symm ▸ hjoined)
  rw [hmodel, hmap] at hresult
  rw [hmap] at hload
  exact ⟨c', hrun.trans hload, hc', hresult⟩

/-- From any place on, the steps of a plan join the paths that are left. -/
theorem runPlan_joined (h : Prepared W schemas tables) {handlers : List Handler}
    (hfree : ∀ g ∈ handlers, g.refine = none) {p before after : Plan M}
    (hserves : Plan.Serves W (schemas m) handlers [] p) (hp : p = before ++ after)
    (hroots : W.family.AllConform m roots)
    (hjoined : W.family.AllConform m
      (roots.map (joined W.family schemas tables (Plan.wishes handlers before)
        (depthOf handlers) [])))
    (hc : Store.Ready tables c) (d : Dialect) :
    ∃ c', W.family.runPlan Store.executor d after
        (roots.map (joined W.family schemas tables (Plan.wishes handlers before)
          (depthOf handlers) [])) c =
      .done (roots.map (joined W.family schemas tables (Plan.wishes handlers p)
        (depthOf handlers) []), c') () := by
  -- `before` is what has run: the wishes it serves are those joined so far.
  induction after generalizing before c with
  | nil =>
    rw [List.append_nil] at hp
    rw [hp]
    exact ⟨c, rfl⟩
  | cons s after ih =>
    have hs : s ∈ p := by
      rw [hp]
      exact List.mem_append_right before List.mem_cons_self
    obtain ⟨done, owner, name, hplaced⟩ := hserves.placed s hs
    have hlength := hserves.length_le hs
    rw [hplaced.names_eq, List.length_append, List.length_singleton] at hlength
    have hloaded : ∀ more, more ≠ [] → more <+: done →
        (Plan.wishes handlers before).loads more = true := by
      intro more hne hmore
      refine hserves.loads_before hp hne ?_ ?_
      · rw [hplaced.names_eq]
        exact hmore.trans (List.prefix_append done [name])
      · rintro rfl
        have hlong := hmore.length_le
        rw [hplaced.names_eq, List.length_append, List.length_singleton] at hlong
        omega
    have hunscoped : (Plan.wishes handlers before).unscoped s.names = s.unscoped :=
      hserves.unscoped_eq hs
    obtain ⟨c', hstep, hc', hconform⟩ := h.runStep_joined hplaced (hserves.named s hs)
      (hserves.refine_eq_none hfree hs) hunscoped hloaded
      (fun more hmore => hserves.not_loads_below hp hmore) hlength hroots hjoined hc d
    rw [← Plan.wishes_concat] at hstep hconform
    obtain ⟨c'', hrun⟩ := ih (by rw [hp, List.append_assoc, List.singleton_append]) hconform hc'
    refine ⟨c'', ?_⟩
    simp only [Family.runPlan, hstep, Attempt.done]
    exact hrun

end Prepared

/-! ### Preloading -/

/-- Whether every name of a path is that of a relation, from a model on. -/
def leadsOn (schemas : M → Schema M) : M → List String → Bool
  | _, [] => true
  | m, name :: names =>
    match (schemas m).relation? name with
    | some r => leadsOn schemas r.target names
    | none => false

theorem chain_of_leadsOn {W : Workshop M} {schemas : M → Schema M}
    (hdirect : ∀ m, W.direct m = .ok (schemas m)) {m : M} {names : List String}
    (h : leadsOn schemas m names = true) : ∃ t, W.Chain (schemas m) names t := by
  induction names generalizing m with
  | nil => exact ⟨schemas m, rfl⟩
  | cons name names ih =>
    simp only [leadsOn] at h
    split at h
    · rename_i r hr
      obtain ⟨t, ht⟩ := ih h
      exact ⟨t, r, schemas r.target, hr, hdirect r.target, ht⟩
    · cases h

/-- Preloading from a store of rows attaches to every owner on a path the records of its own join.
No statement fails, whatever the dialect, the tables, the roots and the paths are. -/
theorem Family.preload_eq_joined [DecidableEq M] {F : Family M} {config : Config}
    {b : Batch M (Connection Store)} (hR : b.registry.Reached F config) (hF : F.DistinctNames)
    (hN : F.FilledNames) {schemas : M → Schema M}
    (hschemas : ∀ m, (b.registry.schemaFor F m).result = .ok (schemas m)) (hplain : Plain schemas)
    (hstores : ∀ m, ∀ row ∈ b.state.peer.tables.rows (schemas m).table, F.Stores (schemas m) row)
    (hfailures : b.state.peer.failures = []) (hlive : b.state.halted? = none) {model : M}
    (hroots : F.AllConform model b.roots) {handlers : List Handler}
    (hvalid : ∀ h ∈ handlers, leadsOn schemas model h.names = true)
    (hfree : ∀ h ∈ handlers, h.refine = none) (d : Dialect) :
    ∃ registry state, F.preload Store.executor d model handlers b = .done
      ⟨registry, b.roots.map (joined F schemas b.state.peer.tables (wishesOf handlers)
        (depthOf handlers) []), state⟩ () := by
  have hfaithful := hR.faithful
  have hprepared : Prepared (Workshop.ofConfig F config) schemas b.state.peer.tables :=
    ⟨fun m => (hfaithful.result_ok (hschemas m)).1, hF, hN, hplain, hstores⟩
  have hmodel : (schemas model).model = model := Workshop.model_of_direct (hprepared.direct model)
  have hcomplete := (hfaithful.result_ok (hschemas model)).2
  rw [← hmodel] at hcomplete
  obtain ⟨p, hp⟩ : ∃ p, (Plan.ofHandlers F (schemas model) handlers
      (b.registry.schemaFor F model).state).result = .ok p :=
    Plan.addHandlers_ok (hfaithful.schemaFor model) (hprepared.root_direct model) hcomplete
      fun h hh => chain_of_leadsOn hprepared.direct (hvalid h hh)
  have hserves := Plan.ofHandlers_serves (hfaithful.schemaFor model) hp
  have hstart : b.roots.map (joined F schemas b.state.peer.tables
      (Plan.wishes handlers ([] : Plan M)) (depthOf handlers) []) = b.roots := by
    rw [List.map_congr_left fun x _ => joined_eq_self fun more _ _ => rfl, List.map_id']
  have hend : joined F schemas b.state.peer.tables (Plan.wishes handlers p) (depthOf handlers) [] =
      joined F schemas b.state.peer.tables (wishesOf handlers) (depthOf handlers) [] := by
    funext x
    exact joined_congr rfl fun more _ hne => hserves.loads_iff hne
  obtain ⟨c, hrun⟩ : ∃ c, F.runPlan Store.executor d p (b.roots.map (joined F schemas
      b.state.peer.tables (Plan.wishes handlers ([] : Plan M)) (depthOf handlers) [])) b.state =
        .done (b.roots.map (joined F schemas b.state.peer.tables (Plan.wishes handlers p)
          (depthOf handlers) []), c) () :=
    hprepared.runPlan_joined hfree hserves (List.nil_append p).symm hroots (hstart.symm ▸ hroots)
      ⟨rfl, hfailures, hlive⟩ d
  rw [hstart, hend] at hrun
  refine ⟨(Plan.ofHandlers F (schemas model) handlers (b.registry.schemaFor F model).state).state,
    c, ?_⟩
  simp only [Family.preload, hschemas, hp, hrun, Attempt.done]

/-! ### Topics of articles -/

namespace Registry

/-- The models of a small catalog. -/
inductive Catalog where
  | article | topic | link
  deriving DecidableEq, Repr

/-- Articles and topics, which are linked to one another. A topic can be marked as deleted. -/
def catalog : Family Catalog where
  model
    | .article => ⟨"Article", "catalog::Article", "articles", none,
        [⟨"id", "", .column (.plain (.int .i64))⟩, ⟨"topics", "", .collection .topic (some .link)⟩]⟩
    | .topic => ⟨"Topic", "catalog::Topic", "topics", none,
        [⟨"id", "", .column (.plain (.int .i64))⟩,
          ⟨"deleted_at", "", .column (.option (.plain .datetime))⟩,
          ⟨"articles", "", .collection .article (some .link)⟩]⟩
    | .link => ⟨"Link", "catalog::Link", "links", none,
        [⟨"id", "", .column (.plain (.int .i64))⟩,
          ⟨"article_id", "ll:\"fk:articles\"", .column (.plain (.int .i64))⟩,
          ⟨"topic_id", "ll:\"fk:topics\"", .column (.plain (.int .i64))⟩]⟩
  all := [.article, .topic, .link]
  mem_all m := by cases m <;> decide

theorem isSome_catalog (m : Catalog) :
    ((ofConfig 0 .standard : Registry Catalog).schemaFor catalog m).result.toOption.isSome := by
  cases m <;> decide +kernel

def catalogSchema (m : Catalog) : Schema Catalog := Option.get _ (isSome_catalog m)

theorem schemaFor_catalog (m : Catalog) :
    ((ofConfig 0 .standard : Registry Catalog).schemaFor catalog m).result =
      .ok (catalogSchema m) :=
  ok_get (isSome_catalog m)

theorem distinctNames_catalog : catalog.DistinctNames := by
  intro m
  cases m <;> decide

theorem filledNames_catalog : catalog.FilledNames := by
  intro m
  cases m <;> decide

theorem plain_catalog : Plain catalogSchema := by
  constructor
  · intro m
    cases m <;> exact ⟨by decide +kernel, by decide +kernel, by decide +kernel, by decide +kernel⟩
  · have hapart : ∀ m, ∀ r ∈ (catalogSchema m).relations,
        (r.through.all fun t => t.table != (catalogSchema r.target).table) = true := by
      intro m
      cases m <;> decide +kernel
    intro m r hr t ht
    have hr := hapart m r hr
    rw [ht] at hr
    simpa using hr

def keyValue (n : IntType.i64.Word) : Value := .int .i64 (some n)

/-- Two articles and three topics, one of them deleted. The first article is linked to every
topic, and to the first topic twice. -/
def catalogTables : Store.Tables :=
  [("articles", [⟨[("id", keyValue (keyWord 1))]⟩, ⟨[("id", keyValue (keyWord 2))]⟩]),
    ("topics", [⟨[("id", keyValue (keyWord 5))]⟩,
      ⟨[("id", keyValue (keyWord 6)), ("deleted_at", .datetime (some Instant.epoch))]⟩,
      ⟨[("id", keyValue (keyWord 7)), ("deleted_at", .datetime none)]⟩]),
    ("links", [⟨[("article_id", keyValue (keyWord 1)), ("topic_id", keyValue (keyWord 5))]⟩,
      ⟨[("article_id", keyValue (keyWord 1)), ("topic_id", keyValue (keyWord 6))]⟩,
      ⟨[("article_id", keyValue (keyWord 1)), ("topic_id", keyValue (keyWord 7))]⟩,
      ⟨[("article_id", keyValue (keyWord 1)), ("topic_id", keyValue (keyWord 5))]⟩,
      ⟨[("article_id", keyValue (keyWord 2)), ("topic_id", keyValue (keyWord 5))]⟩])]

def article (n : IntType.i64.Word) : Record Catalog :=
  (catalog.blank .article).setSlot 0 (.column (.plain (.int .i64)) n)

theorem conforms_article (n : IntType.i64.Word) : catalog.Conforms (article n) :=
  (Family.conforms_blank Catalog.article).setSlot (d := ⟨"id", "", .column (.plain (.int .i64))⟩)
    rfl (Family.suits_column (.plain (.int .i64)) n)

/-- Two articles and one without a key, a registry without schemas and the store of the catalog. -/
def catalogBatch : Batch Catalog (Connection Store) :=
  ⟨ofConfig 0 .standard, [article (keyWord 1), article (keyWord 0), article (keyWord 2)],
    ⟨.background, 0, ⟨catalogTables, [], []⟩⟩⟩

theorem catalogBatch_conform : catalog.AllConform .article catalogBatch.roots := by
  intro r hr
  simp only [catalogBatch, List.mem_cons, List.not_mem_nil, or_false] at hr
  rcases hr with rfl | rfl | rfl <;> exact ⟨rfl, conforms_article _⟩

theorem catalogTables_stored (m : Catalog) :
    ∀ row ∈ catalogTables.rows (catalogSchema m).table, catalog.Stores (catalogSchema m) row := by
  cases m <;> decide +kernel

/-- The topics of articles and, below them, the articles of topics. -/
def topicHandlers : List Handler := [.ofPath "topics.articles"]

/-- The topics of the articles and the articles of these are those of the joins. The deleted topic
is left out, and a topic that is linked twice comes twice. -/
theorem preload_catalog_eq_joined : (∃ registry state,
    catalog.preload Store.executor .mysql .article topicHandlers catalogBatch = .done
      ⟨registry, catalogBatch.roots.map (joined catalog catalogSchema catalogTables
        (wishesOf topicHandlers) (depthOf topicHandlers) []), state⟩ ()) ∧
    (catalog.collect "topics.articles" (catalogBatch.roots.map (joined catalog catalogSchema
      catalogTables (wishesOf topicHandlers) (depthOf topicHandlers) []))).toOption.map
        List.length = some 10 :=
  ⟨Family.preload_eq_joined (b := catalogBatch) (Reached.fresh 0) distinctNames_catalog
    filledNames_catalog schemaFor_catalog plain_catalog catalogTables_stored rfl rfl
    catalogBatch_conform (by decide +kernel) (by decide) .mysql, by decide +kernel⟩

end Registry

end RecordGraph
