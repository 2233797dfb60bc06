import RecordGraph.Proofs.Preload.Refinement
import RecordGraph.Proofs.Preload.Sending

/-!
# Handlers with nothing in common

Handlers whose paths begin with different names fill different associations of the roots, and
neither reads what the other ones fill. The steps of the one kind therefore run by themselves as
they run among the steps of the other kind, and the two kinds can be loaded together or one after
the other, in any order.
-/

namespace RecordGraph

variable {M σ : Type}

/-! ### Plans by the first names of their steps -/

namespace Plan

variable {W : Workshop M} {root : Schema M} {handlers : List Handler} {p : Plan M}

theorem Serves.filter (h : Serves W root handlers [] p) (k : Option String → Bool) :
    Serves W root (handlers.filter fun g => k g.names.head?) []
      (p.filter fun s => k s.names.head?) := by
  have hhead : ∀ {names more : List String}, names ≠ [] → names <+: more →
      names.head? = more.head? := by
    rintro names more hne ⟨rest, rfl⟩
    exact (List.head?_append_of_ne_nil names hne).symm
  refine ⟨fun s hs => h.placed s (List.mem_of_mem_filter hs),
    fun s hs => h.named s (List.mem_of_mem_filter hs), h.sorted.filter _, fun names => ?_,
    fun s hs => ?_⟩
  · constructor
    · intro hmem
      obtain ⟨s, hs, rfl⟩ := List.mem_map.mp hmem
      obtain ⟨hs, hk⟩ := List.mem_filter.mp hs
      obtain ⟨hne, hasked | ⟨g, hg, hprefix⟩⟩ := (h.asked s.names).mp (List.mem_map_of_mem hs)
      · exact ⟨hne, Or.inl hasked⟩
      · refine ⟨hne, Or.inr ⟨g, List.mem_filter.mpr ⟨hg, ?_⟩, hprefix⟩⟩
        rw [← hhead hne hprefix]
        exact hk
    · rintro ⟨hne, hasked | ⟨g, hg, hprefix⟩⟩
      · exact absurd (List.prefix_nil.mp hasked) hne
      · obtain ⟨hg, hk⟩ := List.mem_filter.mp hg
        obtain ⟨s, hs, rfl⟩ := List.mem_map.mp ((h.asked names).mpr ⟨hne, Or.inr ⟨g, hg, hprefix⟩⟩)
        refine List.mem_map_of_mem (List.mem_filter.mpr ⟨hs, ?_⟩)
        rw [hhead hne hprefix]
        exact hk
  · obtain ⟨hs, hk⟩ := List.mem_filter.mp hs
    rw [h.handler_eq s hs, List.find?_filter]
    refine List.find?_congr fun g _ => ?_
    by_cases hnames : g.names = s.names <;> simp [hnames, hk]

end Plan

namespace Family

variable [DecidableEq M] {W : Workshop M} {root : Schema M} {E : Executor σ} {P : σ → Prop}
  {d : Dialect} {plan : Plan M} {roots roots' more : List (Record M)} {state state' next : σ}

/-! ### A part of a plan -/

/-- The field is a column or an association with a name of the kind. -/
def Under (k : Option String → Bool) (d : FieldDecl M) : Prop :=
  d.IsColumn ∨ k (some d.name) = true

theorem runStep_of_done (hF : W.family.DistinctNames) (hN : W.family.FilledNames)
    (hroot : W.direct root.model = .ok root) (hE : E.Steady P) {s : Step M} {owner : Schema M}
    {done : List String} {name : String} (hstep : W.Placed root s done owner name)
    (hnamed : s.Named) (hroots : W.family.AllConform root.model roots) (hs : P state)
    (hrun : W.family.runPlan E d (s :: plan) roots state = .done (more, next) ()) :
    ∃ fetched mid, W.family.runStep E d s roots state =
        .done (roots.map (W.family.mapAt (W.family.attached s.relation fetched) done), mid) () ∧
      W.family.AllConform root.model
        (roots.map (W.family.mapAt (W.family.attached s.relation fetched) done)) ∧ P mid ∧
      W.family.runPlan E d plan
        (roots.map (W.family.mapAt (W.family.attached s.relation fetched) done)) mid =
          .done (more, next) () := by
  obtain ⟨owners, -, -, hcases⟩ := runStep_fetch hF hN hstep hroot hnamed hroots
  rcases hcases E d state with ⟨fetched, mid, hfetch, hconform, hmid⟩ | ⟨e, mid, -, hmid⟩
  · have hsteady : P (W.family.fetch E d s owners state).2 :=
      (fetch_mirrors hE.mirrors rfl ⟨hs, hs⟩).2.1
    rw [hfetch] at hsteady
    rw [runPlan_of_done hmid] at hrun
    exact ⟨fetched, mid, hmid, hconform, hsteady, hrun⟩
  · rw [runPlan_of_failed hmid] at hrun
    cases hrun

/-- Steps with other first names leave the columns and the associations of the kind alone. -/
theorem runPlan_beside (hF : W.family.DistinctNames) (hN : W.family.FilledNames)
    (hroot : W.direct root.model = .ok root)
    (hplaced : ∀ s ∈ plan, ∃ done owner name, W.Placed root s done owner name)
    (hnamed : ∀ s ∈ plan, s.Named) {k : Option String → Bool}
    (hother : ∀ s ∈ plan, k s.names.head? = false) (hroots : W.family.AllConform root.model roots)
    (hrun : W.family.runPlan E d plan roots state = .done (more, next) ()) :
    W.family.AllConform root.model more ∧
      List.Forall₂ (W.family.Alike (Under k)) roots more := by
  have hframe : W.family.AllConform root.model (W.family.runPlan E d plan roots state).state.1 ∧
      List.Forall₂ (W.family.Alike (Under k)) roots
        (W.family.runPlan E d plan roots state).state.1 := by
    refine runPlan_frame hF hN hroot hplaced hnamed hroots fun s hs d hd hcolumn hunder => ?_
    have hk := hother s hs
    rw [hd, hunder.resolve_left hcolumn] at hk
    cases hk
  rw [hrun] at hframe
  exact hframe

/-- The steps with first names of a kind run by themselves as they run within the plan. -/
theorem runPlan_filter (hF : W.family.DistinctNames) (hN : W.family.FilledNames)
    (hroot : W.direct root.model = .ok root) (hE : E.Steady P)
    (hplaced : ∀ s ∈ plan, ∃ done owner name, W.Placed root s done owner name)
    (hnamed : ∀ s ∈ plan, s.Named) (k : Option String → Bool)
    (hroots : W.family.AllConform root.model roots)
    (hroots' : W.family.AllConform root.model roots')
    (h : List.Forall₂ (W.family.Alike (Under k)) roots roots') (hs : P state) (hs' : P state')
    (hrun : W.family.runPlan E d plan roots state = .done (more, next) ()) :
    ∃ more' next', W.family.runPlan E d (plan.filter fun s => k s.names.head?) roots' state' =
        .done (more', next') () ∧
      P next' ∧ List.Forall₂ (W.family.Alike (Under k)) more more' ∧
      (W.family.requests E d (plan.filter fun s => k s.names.head?) roots' state').map
          (Request.entry W.family d) =
        ((W.family.requests E d plan roots state).filter fun q => k q.step.names.head?).map
          (Request.entry W.family d) := by
  induction plan generalizing roots roots' state state' with
  | nil =>
    cases hrun
    exact ⟨roots', state', rfl, hs', h, rfl⟩
  | cons s plan ih =>
    obtain ⟨done, owner, name, hstep⟩ := hplaced s List.mem_cons_self
    have hsnamed := hnamed s List.mem_cons_self
    have hplaced' := fun t ht => hplaced t (List.mem_cons_of_mem s ht)
    have hnamed' := fun t ht => hnamed t (List.mem_cons_of_mem s ht)
    have hhere : ∀ q ∈ W.family.requestsOf E s roots state,
        k q.step.names.head? = k s.names.head? := by
      intro q hq
      rw [(step_of_mem_requestsOf hq).1]
    cases hk : k s.names.head? with
    | true =>
      have hfilter : (s :: plan).filter (fun s => k s.names.head?) =
          s :: plan.filter fun s => k s.names.head? := List.filter_cons_of_pos hk
      have hcolumns : ∀ d : FieldDecl M, d.IsColumn → Under k d := fun d hd => Or.inl hd
      have hfirst : ∀ first rest, done = first :: rest → ∀ d : FieldDecl M, d.name = first →
          Under k d := by
        rintro first rest rfl d rfl
        rw [hstep.names_eq] at hk
        exact Or.inr hk
      have hkeys : ∀ owners owners', W.family.reach done roots = .ok owners →
          W.family.reach done roots' = .ok owners' →
            W.family.ownerKeys s.relation owners = W.family.ownerKeys s.relation owners' :=
        fun _ _ ho ho' => hstep.ownerKeys_eq hF hroot hroots h hcolumns hfirst ho ho'
      have hsent := requestsOf_same_keys (d := d) hF hN hstep hroot hsnamed hroots hroots' hkeys
        ((hE.live state hs).trans (hE.live state' hs').symm)
      rcases runStep_same_keys (d := d) hF hN hstep hroot hsnamed hroots hroots' hkeys hE.mirrors
        ⟨hs, hs'⟩ with ⟨fetched, mid, mid', hmid, hmid', hconform, hconform', hp, hp'⟩ |
          ⟨e, mid, mid', hmid, -⟩
      · rw [runPlan_of_done hmid] at hrun
        have hnext := hstep.alike_mapAt hF hroot hroots hroots' h hcolumns hfirst
          (fun d hd => Or.inl hd) fetched
        obtain ⟨more', next', hrun', hnext', hmore, hrest⟩ :=
          ih hplaced' hnamed' hconform hconform' hnext hp hp' hrun
        rw [hfilter, runPlan_of_done hmid', requests_of_done hmid,
          requests_of_done hmid', List.filter_append, List.map_append, List.map_append, hrest,
          List.filter_eq_self.mpr fun q hq => (hhere q hq).trans hk, hsent]
        exact ⟨more', next', hrun', hnext', hmore, rfl⟩
      · rw [runPlan_of_failed hmid] at hrun
        cases hrun
    | false =>
      have hnot : ¬ k s.names.head? = true := by
        rw [hk]
        exact Bool.false_ne_true
      have hfilter : (s :: plan).filter (fun s => k s.names.head?) =
          plan.filter fun s => k s.names.head? := List.filter_cons_of_neg hnot
      obtain ⟨fetched, mid, hmid, hconform, hp, hrun⟩ :=
        runStep_of_done hF hN hroot hE hstep hsnamed hroots hs hrun
      have hframe : List.Forall₂ (W.family.Alike (Under k)) roots
          (roots.map (W.family.mapAt (W.family.attached s.relation fetched) done)) := by
        refine hstep.frame_mapAt hF hroot hroots (fun d hd hcolumn hunder => ?_) fetched
        rw [hd] at hnot
        exact hnot (hunder.resolve_left hcolumn)
      obtain ⟨more', next', hrun', hnext', hmore, hrest⟩ :=
        ih hplaced' hnamed' hconform hroots'
          (forall₂_alike_trans (forall₂_alike_symm hframe) h) hp hs' hrun
      have hnone : (W.family.requestsOf E s roots state).filter
          (fun q => k q.step.names.head?) = [] := by
        rw [List.filter_eq_nil_iff]
        intro q hq
        rw [hhere q hq]
        exact hnot
      rw [hfilter, requests_of_done hmid, List.filter_append, hnone, List.nil_append]
      exact ⟨more', next', hrun', hnext', hmore, hrest⟩

/-! ### Two parts of a plan -/

/-- A plan does what its two parts by the first names of its steps do one after the other. -/
theorem runPlan_parts (hF : W.family.DistinctNames) (hN : W.family.FilledNames)
    (hroot : W.direct root.model = .ok root) (hE : E.Steady P) {handlers : List Handler}
    (hserves : Plan.Serves W root handlers [] plan) (k : Option String → Bool)
    (hroots : W.family.AllConform root.model roots) (hs : P state)
    (hrun : W.family.runPlan E d plan roots state = .done (more, next) ()) :
    ∃ middle mid last,
      W.family.runPlan E d (plan.filter fun s => k s.names.head?) roots state =
        .done (middle, mid) () ∧
      W.family.runPlan E d (plan.filter fun s => !k s.names.head?) middle mid =
        .done (more, last) () ∧
      ((W.family.requests E d (plan.filter fun s => k s.names.head?) roots state).map
          (Request.statement W.family d) ++
        (W.family.requests E d (plan.filter fun s => !k s.names.head?) middle mid).map
          (Request.statement W.family d)).Perm
        ((W.family.requests E d plan roots state).map (Request.statement W.family d)) := by
  have hfirst := hserves.filter k
  have hsecond := hserves.filter fun name => !k name
  obtain ⟨hmore, -⟩ := runPlan_beside (k := fun _ => false) hF hN hroot hserves.placed
    hserves.named (fun _ _ => rfl) hroots hrun
  obtain ⟨middle, mid, hrun₁, hmid, halike₁, hsent₁⟩ :=
    runPlan_filter hF hN hroot hE hserves.placed hserves.named k hroots hroots
      (forall₂_alike_refl W.family _ roots) hs hs hrun
  obtain ⟨hmiddle, hbeside₁⟩ := runPlan_beside (k := fun name => !k name) hF hN hroot
    hfirst.placed hfirst.named
    (fun s hs => congrArg Bool.not (List.mem_filter.mp hs).2) hroots hrun₁
  obtain ⟨last, final, hrun₂, -, halike₂, hsent₂⟩ :=
    runPlan_filter hF hN hroot hE hserves.placed hserves.named (fun name => !k name) hroots hmiddle
      hbeside₁ hs hmid hrun
  obtain ⟨hlast, hbeside₂⟩ := runPlan_beside (k := k) hF hN hroot hsecond.placed hsecond.named
    (fun s hs => Bool.not_eq_true' _ ▸ (List.mem_filter.mp hs).2) hmiddle hrun₂
  have hsame : more = last := by
    refine eq_of_alike (forall₂_alike_trans halike₁ hbeside₂) halike₂ (fun d => ?_) hmore hlast
    cases hk : k (some d.name) with
    | true => exact Or.inl (Or.inr hk)
    | false => exact Or.inr (Or.inr (congrArg Bool.not hk))
  refine ⟨middle, mid, final, hrun₁, hsame ▸ hrun₂, ?_⟩
  rw [map_statement_of_entry hsent₁, map_statement_of_entry hsent₂, ← List.map_append]
  exact (List.filter_append_perm _ _).map _

/-- Preloading with some handlers and then with others goes well. It leaves the roots and sends the
statements, whatever their order. -/
def LoadsInTurn (F : Family M) (E : Executor σ) (d : Dialect) (model : M)
    (first second : List Handler) (b : Batch M σ) (roots : List (Record M))
    (statements : List Statement) : Prop :=
  ∃ b₁ b₂, F.preload E d model first b = .done b₁ () ∧ F.preload E d model second b₁ = .done b₂ () ∧
    b₂.roots = roots ∧
    (F.sent E d model first b ++ F.sent E d model second b₁).Perm statements

section

variable {F : Family M} {config : Config} {R : Registry M} {model : M}

theorem loadsInTurn_filter (hR : R.Faithful F config) (hF : F.DistinctNames) (hN : F.FilledNames)
    (hE : E.Steady P) (d : Dialect) (hroots : F.AllConform model roots) (hs : P state)
    {handlers : List Handler} (k : Option String → Bool)
    (hok : (F.preload E d model handlers ⟨R, roots, state⟩).result = .ok ()) :
    F.LoadsInTurn E d model (handlers.filter fun g => k g.names.head?)
      (handlers.filter fun g => !k g.names.head?) ⟨R, roots, state⟩
      (F.preload E d model handlers ⟨R, roots, state⟩).state.roots
      (F.sent E d model handlers ⟨R, roots, state⟩) := by
  obtain ⟨root, p, next, rfl, hroot, hserves, hp, hrun⟩ := runPlan_of_preload hR hok
  obtain ⟨middle, mid, last, hrun₁, hrun₂, hsent⟩ :=
    runPlan_parts (W := Workshop.ofConfig F config) hF hN hroot.direct hE hserves k hroots hs hrun
  have hp₁ := hR.planFor_of_serves hroot (hserves.filter k)
  obtain ⟨registry₁, hregistry₁, hpreload₁⟩ := preload_of_runPlan hR hp₁ hrun₁
  have hp₂ := hregistry₁.planFor_of_serves hroot (hserves.filter fun name => !k name)
  obtain ⟨registry₂, -, hpreload₂⟩ := preload_of_runPlan hregistry₁ hp₂ hrun₂
  refine ⟨_, _, hpreload₁, hpreload₂, rfl, ?_⟩
  rw [sent_eq hR, sent_eq hR, sent_eq hregistry₁]
  simp only [requested, hp, hp₁, hp₂]
  exact hsent

/-- Handlers whose paths begin with different names do not meet. Where preloading with all of them
goes well, preloading with some and then with the others does too, in either order; the roots are
the same, and so are the statements, up to their order. -/
theorem preload_append_comm (hR : R.Reached F config) (hF : F.DistinctNames) (hN : F.FilledNames)
    (hE : E.Steady P) (d : Dialect) (hroots : F.AllConform model roots) (hs : P state)
    {first second : List Handler}
    (hapart : ∀ g ∈ first, ∀ h ∈ second, g.names.head? ≠ h.names.head?)
    (hok : (F.preload E d model (first ++ second) ⟨R, roots, state⟩).result = .ok ()) :
    F.LoadsInTurn E d model first second ⟨R, roots, state⟩
      (F.preload E d model (first ++ second) ⟨R, roots, state⟩).state.roots
      (F.sent E d model (first ++ second) ⟨R, roots, state⟩) ∧
    F.LoadsInTurn E d model second first ⟨R, roots, state⟩
      (F.preload E d model (first ++ second) ⟨R, roots, state⟩).state.roots
      (F.sent E d model (first ++ second) ⟨R, roots, state⟩) := by
  have hfaithful := hR.faithful
  let k : Option String → Bool := fun name => decide (name ∈ first.map fun g => g.names.head?)
  have hin : ∀ g ∈ first, k g.names.head? = true := by
    intro g hg
    exact decide_eq_true (List.mem_map.mpr ⟨g, hg, rfl⟩)
  have hout : ∀ h ∈ second, k h.names.head? = false := by
    intro h hh
    refine decide_eq_false fun hmem => ?_
    obtain ⟨g, hg, he⟩ := List.mem_map.mp hmem
    exact hapart g hg h hh he
  have hfirst : (first ++ second).filter (fun g => k g.names.head?) = first := by
    rw [List.filter_append, List.filter_eq_self.mpr hin, List.filter_eq_nil_iff.mpr,
      List.append_nil]
    intro h hh
    rw [hout h hh]
    exact Bool.false_ne_true
  have hsecond : (first ++ second).filter (fun g => !k g.names.head?) = second := by
    rw [List.filter_append, List.filter_eq_nil_iff.mpr, List.nil_append, List.filter_eq_self.mpr]
    · intro h hh
      rw [hout h hh]
      rfl
    · intro g hg
      rw [hin g hg]
      exact Bool.false_ne_true
  have hforth := loadsInTurn_filter hfaithful hF hN hE d hroots hs k hok
  have hback := loadsInTurn_filter hfaithful hF hN hE d hroots hs (fun name => !k name) hok
  simp only [Bool.not_not] at hback
  rw [hfirst, hsecond] at hforth hback
  exact ⟨hforth, hback⟩

end

end Family

/-! ### Orders with their customers and items -/

namespace Registry

/-- The models of a small shop. -/
inductive Shop where
  | order | customer | item
  deriving DecidableEq, Repr

/-- Orders with a customer and items. An item can be marked as deleted. -/
def shop : Family Shop where
  model
    | .order => ⟨"Order", "shop::Order", "orders", none,
        [⟨"id", "", .column (.plain (.int .i64))⟩,
          ⟨"customer_id", "ll:\"fk:customers\"", .column (.plain (.int .i64))⟩,
          ⟨"customer", "", .reference .customer false⟩, ⟨"items", "", .collection .item none⟩]⟩
    | .customer => ⟨"Customer", "shop::Customer", "customers", none,
        [⟨"id", "", .column (.plain (.int .i64))⟩, ⟨"orders", "", .collection .order none⟩]⟩
    | .item => ⟨"Item", "shop::Item", "items", none,
        [⟨"id", "", .column (.plain (.int .i64))⟩,
          ⟨"order_id", "ll:\"fk:orders\"", .column (.plain (.int .i64))⟩,
          ⟨"deleted_at", "", .column (.option (.plain .datetime))⟩]⟩
  all := [.order, .customer, .item]
  mem_all m := by cases m <;> decide

theorem distinctNames_shop : shop.DistinctNames := by
  intro m
  cases m <;> decide

theorem filledNames_shop : shop.FilledNames := by
  intro m
  cases m <;> decide

def order (n customer : IntType.i64.Word) : Record Shop :=
  ((shop.blank .order).setSlot 0 (.column (.plain (.int .i64)) n)).setSlot 1
    (.column (.plain (.int .i64)) customer)

theorem conforms_order (n customer : IntType.i64.Word) : shop.Conforms (order n customer) := by
  have hid : shop.Conforms ((shop.blank .order).setSlot 0 (.column (.plain (.int .i64)) n)) :=
    (Family.conforms_blank Shop.order).setSlot (d := ⟨"id", "", .column (.plain (.int .i64))⟩) rfl
      (Family.suits_column (.plain (.int .i64)) n)
  exact hid.setSlot
    (d := ⟨"customer_id", "ll:\"fk:customers\"", .column (.plain (.int .i64))⟩) rfl
    (Family.suits_column (.plain (.int .i64)) customer)

def twoOrders : List (Record Shop) :=
  [order (keyWord 1) (keyWord 8), order (keyWord 2) (keyWord 8)]

theorem twoOrders_conform : shop.AllConform .order twoOrders := by
  intro r hr
  simp only [twoOrders, List.mem_cons, List.not_mem_nil, or_false] at hr
  rcases hr with rfl | rfl <;> exact ⟨rfl, conforms_order _ _⟩

/-- Items of both orders; the second one is deleted. -/
def itemRows : List Row :=
  [⟨[("id", keyValue (keyWord 3)), ("order_id", keyValue (keyWord 1))]⟩,
    ⟨[("id", keyValue (keyWord 4)), ("order_id", keyValue (keyWord 1)),
      ("deleted_at", .datetime (some Instant.epoch))]⟩,
    ⟨[("id", keyValue (keyWord 5)), ("order_id", keyValue (keyWord 2))]⟩]

/-- The answer to a statement, by the table that it reads first and whether it leaves out what is
deleted. -/
def shopRows (sql : List Char) : List Row :=
  if "SELECT \"items\"".toList.isPrefixOf sql then
    if "IS NULL".toList.isSuffixOf sql then itemRows.eraseIdx 1 else itemRows
  else if "SELECT \"orders\"".toList.isPrefixOf sql then
    [⟨[("id", keyValue (keyWord 1)), ("customer_id", keyValue (keyWord 8))]⟩,
      ⟨[("id", keyValue (keyWord 2)), ("customer_id", keyValue (keyWord 8))]⟩]
  else [⟨[("id", keyValue (keyWord 8))]⟩]

/-- An executor that answers from the shop and counts the statements. -/
def shopExecutor : Executor Nat where
  halted? _ := none
  query s n := (.ok (shopRows s.sql.toList), n + 1)
  execute _ n := (.ok 0, n + 1)

theorem shopExecutor_steady : shopExecutor.Steady fun _ => True :=
  ⟨fun _ _ => rfl, fun _ _ _ _ _ => rfl, fun _ _ _ => trivial⟩

theorem preload_shop_ok : (shop.preload shopExecutor .postgres .order
    ([.ofPath "items"] ++ [.ofPath "customer.orders"])
    ⟨ofConfig 0 .standard, twoOrders, 0⟩).result = .ok () := by
  decide +kernel

/-- The items of orders, and their customers with the orders of these, are loaded together or one
after the other. -/
theorem preload_items_customers_comm : ∃ roots statements,
    shop.LoadsInTurn shopExecutor .postgres .order [.ofPath "items"] [.ofPath "customer.orders"]
      ⟨ofConfig 0 .standard, twoOrders, 0⟩ roots statements ∧
    shop.LoadsInTurn shopExecutor .postgres .order [.ofPath "customer.orders"] [.ofPath "items"]
      ⟨ofConfig 0 .standard, twoOrders, 0⟩ roots statements := by
  have hapart : ∀ g ∈ [Handler.ofPath "items"], ∀ h ∈ [Handler.ofPath "customer.orders"],
      g.names.head? ≠ h.names.head? := by
    intro g hg h hh
    rw [List.mem_singleton.mp hg, List.mem_singleton.mp hh]
    decide +kernel
  exact ⟨_, _, Family.preload_append_comm (Reached.fresh 0) distinctNames_shop filledNames_shop
    shopExecutor_steady .postgres twoOrders_conform trivial hapart preload_shop_ok⟩

end Registry

end RecordGraph
