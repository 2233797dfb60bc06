import RecordGraph.Proofs.Preload.Fetching
import RecordGraph.Proofs.Record.Likeness

/-!
# Preloading again

What preloading sends and attaches depends on the columns of the roots only. A step reads its owners
either from the roots or from an association that an earlier step has filled, so records that were
attached before a run are replaced before they are read. A second run therefore changes nothing.
-/

namespace RecordGraph

variable {M σ τ : Type}

/-! ### First names -/

namespace Handler

/-- The associations of the roots that handlers ask for. -/
def firstNames (handlers : List Handler) : List String :=
  handlers.filterMap fun h => h.names.head?

end Handler

namespace Plan

/-- The associations of the roots that a plan leads through. -/
def firstNames (p : Plan M) : List String := p.filterMap fun s => s.names.head?

variable {W : Workshop M} {root : Schema M} {handlers : List Handler} {p before after : Plan M}
  {s : Step M} {name : String}

theorem mem_firstNames : name ∈ firstNames p ↔ ∃ s ∈ p, s.names.head? = some name :=
  List.mem_filterMap

theorem mem_firstNames_concat :
    name ∈ firstNames (before ++ [s]) ↔ name ∈ firstNames before ∨ s.names.head? = some name := by
  simp only [mem_firstNames, List.mem_append, List.mem_singleton, or_and_right, exists_or,
    exists_eq_left]

theorem Serves.mem_of_firstNames (h : Serves W root handlers [] p)
    (hname : name ∈ Handler.firstNames handlers) : ∃ s ∈ p, s.names = [name] := by
  obtain ⟨g, hg, hhead⟩ := List.mem_filterMap.mp hname
  obtain ⟨rest, hrest⟩ := List.head?_eq_some_iff.mp hhead
  have hasked : [name] ∈ p.map Step.names := by
    refine (h.asked [name]).mpr ⟨List.cons_ne_nil name [], Or.inr ⟨g, hg, ?_⟩⟩
    rw [hrest]
    exact List.cons_prefix_cons.mpr ⟨rfl, List.nil_prefix⟩
  exact List.mem_map.mp hasked

theorem Serves.mem_firstNames (h : Serves W root handlers [] p) :
    name ∈ firstNames p ↔ name ∈ Handler.firstNames handlers := by
  rw [Plan.mem_firstNames]
  constructor
  · rintro ⟨s, hs, hname⟩
    obtain ⟨hne, hasked | ⟨g, hg, rest, hasked⟩⟩ :=
      (h.asked s.names).mp (List.mem_map.mpr ⟨s, hs, rfl⟩)
    · exact absurd (List.prefix_nil.mp hasked) hne
    · exact List.mem_filterMap.mpr
        ⟨g, hg, by rw [← hasked, List.head?_append_of_ne_nil s.names hne, hname]⟩
  · intro hname
    obtain ⟨s, hs, hnames⟩ := h.mem_of_firstNames hname
    exact ⟨s, hs, by rw [hnames]; rfl⟩

theorem Serves.first_before (h : Serves W root handlers [] p) (hp : p = before ++ s :: after)
    {first last : String} {rest : List String} (hnames : s.names = first :: rest ++ [last]) :
    first ∈ firstNames before := by
  have hmem : [first] ∈ before.map Step.names := by
    refine h.mem_before hp (List.cons_ne_nil first []) ?_ ?_
    · rw [hnames]
      exact List.cons_prefix_cons.mpr ⟨rfl, List.nil_prefix⟩
    · rw [hnames]
      simp
  obtain ⟨t, ht, htnames⟩ := List.mem_map.mp hmem
  exact Plan.mem_firstNames.mpr ⟨t, ht, by rw [htnames]; rfl⟩

end Plan

/-! ### Owners that share their columns -/

namespace Family

variable {F : Family M} {r : Relation M} {p : FieldDecl M → Prop} {x y : Record M}
  {xs ys : List (Record M)}

theorem Alike.source_eq (hF : F.DistinctNames) (hr : F.Grounded r) (h : F.Alike p x y)
    (hcolumns : ∀ d : FieldDecl M, d.IsColumn → p d) (hm : x.model = r.owner) :
    F.getField x r.source.field = F.getField y r.source.field := by
  obtain ⟨d, hd, hname, T, hT⟩ := hr.source
  obtain ⟨i, hi⟩ := List.mem_iff_getElem?.mp hd
  have hcolumn : d.IsColumn := by simp only [FieldDecl.IsColumn, hT, FieldType.target?]
  rw [← hname]
  exact h.getField_eq hF (hm ▸ hi) (hcolumns d hcolumn)

theorem Alike.matched_eq (hF : F.DistinctNames) (hr : F.Grounded r) (h : F.Alike p x y)
    (hcolumns : ∀ d : FieldDecl M, d.IsColumn → p d) (hm : x.model = r.owner)
    (fetched : List (Fetched M)) : F.matched r fetched x = F.matched r fetched y := by
  simp only [matched, keyOf, h.source_eq hF hr hcolumns hm]

theorem ownerKeys_eq_of_alike (hF : F.DistinctNames) (hr : F.Grounded r)
    (h : List.Forall₂ (F.Alike p) xs ys) (hcolumns : ∀ d : FieldDecl M, d.IsColumn → p d)
    (hm : ∀ x ∈ xs, x.model = r.owner) : F.ownerKeys r xs = F.ownerKeys r ys := by
  induction h with
  | nil => rfl
  | @cons x y xs ys hx _ ih =>
    have hsource := hx.source_eq hF hr hcolumns (hm x List.mem_cons_self)
    have hkey : F.ownerKey? r x = F.ownerKey? r y := by
      simp only [ownerKey?, hsource, hx.model_eq]
    have hrest := ih fun z hz => hm z (List.mem_cons_of_mem x hz)
    simp only [ownerKeys, hkey, hrest]

end Family

/-! ### Steps on records that share fields -/

namespace Workshop

variable {W : Workshop M} {root owner : Schema M} {s : Step M} {done : List String} {name : String}
  {p q : FieldDecl M → Prop} {x y : Record M} {roots roots' owners owners' : List (Record M)}

/-- A step fills one association of a root, and of a root that shares the columns and what the step
leads through it fills it alike. -/
theorem Placed.mapAt_setSlot (hF : W.family.DistinctNames) (hs : W.Placed root s done owner name)
    (hroot : W.direct root.model = .ok root) (hx : x.model = root.model)
    (hconforms : W.family.Conforms x) (h : W.family.Alike p x y)
    (hcolumns : ∀ d : FieldDecl M, d.IsColumn → p d)
    (hfirst : ∀ first rest, done = first :: rest → ∀ d : FieldDecl M, d.name = first → p d)
    (fetched : List (Family.Fetched M)) :
    ∃ i d slot, (W.family.model x.model).fields[i]? = some d ∧ s.names.head? = some d.name ∧
      ¬ d.IsColumn ∧
      W.family.mapAt (W.family.attached s.relation fetched) done x = x.setSlot i slot ∧
      W.family.mapAt (W.family.attached s.relation fetched) done y = y.setSlot i slot := by
  have hchain := hs.chain
  have hnames := hs.names_eq
  cases done with
  | nil =>
    cases hchain
    have hmem := (Schema.relation?_cases hs.relation).1
    have hgrounded := grounded_of_direct hroot hmem
    have howner : x.model = s.relation.owner := hx.trans (owner_of_direct hroot hmem).symm
    obtain ⟨d, hd, hname, htarget⟩ := hgrounded.declared
    have hmatched := h.matched_eq hF hgrounded hcolumns howner fetched
    refine ⟨s.relation.index, d,
      Family.slotOf s.relation (W.family.matched s.relation fetched x), howner ▸ hd, ?_, ?_, rfl,
      ?_⟩
    · rw [hnames, hname, (Schema.relation?_cases hs.relation).2]
      rfl
    · simp only [FieldDecl.IsColumn, htarget]
      exact Option.some_ne_none _
    · rw [hmatched]
      rfl
  | cons first rest =>
    obtain ⟨r, mid, hr, hmid, -⟩ := hchain
    obtain ⟨hmem, hrname⟩ := Schema.relation?_cases hr
    obtain ⟨d, hd, hname, htarget⟩ := (grounded_of_direct hroot hmem).declared
    rw [owner_of_direct hroot hmem, ← hx] at hd
    rw [hrname] at hname
    obtain ⟨slot, hlocate, -, -⟩ := hconforms.locate hF hd
    have hlocate' := h.locate_eq hF hd (hfirst first rest rfl d hname)
    rw [hname] at hlocate hlocate'
    rw [hlocate] at hlocate'
    refine ⟨r.index, d,
      slot.mapRecords (W.family.mapAt (W.family.attached s.relation fetched) rest), hd, ?_, ?_, ?_,
      ?_⟩
    · rw [hnames, hname]
      rfl
    · simp only [FieldDecl.IsColumn, htarget]
      exact Option.some_ne_none _
    · simp only [Family.mapAt, hlocate]
    · simp only [Family.mapAt, ← hlocate']

theorem Placed.alike_mapAt (hF : W.family.DistinctNames) (hs : W.Placed root s done owner name)
    (hroot : W.direct root.model = .ok root) (hroots : W.family.AllConform root.model roots)
    (hroots' : W.family.AllConform root.model roots')
    (h : List.Forall₂ (W.family.Alike p) roots roots')
    (hcolumns : ∀ d : FieldDecl M, d.IsColumn → p d)
    (hfirst : ∀ first rest, done = first :: rest → ∀ d : FieldDecl M, d.name = first → p d)
    (hq : ∀ d : FieldDecl M, q d → p d ∨ s.names.head? = some d.name)
    (fetched : List (Family.Fetched M)) :
    List.Forall₂ (W.family.Alike q)
      (roots.map (W.family.mapAt (W.family.attached s.relation fetched) done))
      (roots'.map (W.family.mapAt (W.family.attached s.relation fetched) done)) := by
  refine hroots.forall₂_map hroots' h fun x y hx hxc _ hyc hxy => ?_
  obtain ⟨i, d, slot, hd, hhead, -, hxset, hyset⟩ :=
    hs.mapAt_setSlot hF hroot hx hxc hxy hcolumns hfirst fetched
  rw [hxset, hyset]
  refine hxy.setSlot hxc hyc hd slot fun j e he hqe => ?_
  rcases hq e hqe with hp | hsame
  · exact Or.inl hp
  · have hname : e.name = d.name := Option.some.inj (hsame.symm.trans hhead)
    have hj := Family.position?_of_declared hF he
    have hi := Family.position?_of_declared hF hd
    rw [hname, hi] at hj
    exact Or.inr (Option.some.inj hj).symm

theorem Placed.frame_mapAt (hF : W.family.DistinctNames) (hs : W.Placed root s done owner name)
    (hroot : W.direct root.model = .ok root) (hroots : W.family.AllConform root.model roots)
    (hq : ∀ d : FieldDecl M, s.names.head? = some d.name → ¬ d.IsColumn → ¬ q d)
    (fetched : List (Family.Fetched M)) :
    List.Forall₂ (W.family.Alike q) roots
      (roots.map (W.family.mapAt (W.family.attached s.relation fetched) done)) := by
  refine List.forall₂_map_right_iff.mpr (List.forall₂_same.mpr fun x hx => ?_)
  obtain ⟨hm, hc⟩ := hroots x hx
  obtain ⟨i, d, slot, hd, hhead, hcolumn, hset, -⟩ :=
    hs.mapAt_setSlot hF hroot hm hc (Family.Alike.refl W.family (fun _ => True) x)
      (fun _ _ => trivial) (fun _ _ _ _ _ => trivial) fetched
  rw [hset]
  exact Family.alike_setSlot_self W.family x hd (hq d hhead hcolumn) slot

theorem Placed.ownerKeys_eq (hF : W.family.DistinctNames) (hs : W.Placed root s done owner name)
    (hroot : W.direct root.model = .ok root) (hroots : W.family.AllConform root.model roots)
    (h : List.Forall₂ (W.family.Alike p) roots roots')
    (hcolumns : ∀ d : FieldDecl M, d.IsColumn → p d)
    (hfirst : ∀ first rest, done = first :: rest → ∀ d : FieldDecl M, d.name = first → p d)
    (ho : W.family.reach done roots = .ok owners)
    (ho' : W.family.reach done roots' = .ok owners') :
    W.family.ownerKeys s.relation owners = W.family.ownerKeys s.relation owners' := by
  have hchain := hs.chain
  cases done with
  | nil =>
    cases hchain
    cases ho
    cases ho'
    have hmem := (Schema.relation?_cases hs.relation).1
    refine Family.ownerKeys_eq_of_alike hF (grounded_of_direct hroot hmem) h hcolumns
      fun x hx => ?_
    exact (hroots x hx).1.trans (owner_of_direct hroot hmem).symm
  | cons first rest =>
    obtain ⟨r, mid, hr, -, -⟩ := hchain
    obtain ⟨hmem, hrname⟩ := Schema.relation?_cases hr
    obtain ⟨d, hd, hname, -⟩ := (grounded_of_direct hroot hmem).declared
    rw [owner_of_direct hroot hmem] at hd
    rw [hrname] at hname
    have hfollow := Family.follow_eq_of_alike hF hd (hfirst first rest rfl d hname) h
      fun x hx => (hroots x hx).1
    rw [hname] at hfollow
    have hsame : W.family.reach (first :: rest) roots = W.family.reach (first :: rest) roots' := by
      simp only [Family.reach, hfollow]
    rw [ho, ho'] at hsame
    rw [Except.ok.inj hsame]

end Workshop

/-! ### Executors that answer alike -/

namespace Executor

/-- Two executors in related states answer every statement alike and stay related. -/
structure Mirrors (E : Executor σ) (E' : Executor τ) (Q : σ → τ → Prop) : Prop where
  halted_eq : ∀ s t, Q s t → E.halted? s = E'.halted? t
  answer_eq : ∀ st s t, Q s t → (E.query st s).1 = (E'.query st t).1
  next : ∀ st s t, Q s t → Q (E.query st s).2 (E'.query st t).2

/-- In the states of a kind the context is live and the answer only depends on the statement. -/
structure Steady (E : Executor σ) (P : σ → Prop) : Prop where
  live : ∀ s, P s → E.halted? s = none
  answer_eq : ∀ st s t, P s → P t → (E.query st s).1 = (E.query st t).1
  next : ∀ st s, P s → P (E.query st s).2

variable {E : Executor σ} {P : σ → Prop}

theorem Steady.mirrors (h : E.Steady P) : E.Mirrors E fun s t => P s ∧ P t := by
  refine ⟨fun s t hst => ?_, fun st s t hst => h.answer_eq st s t hst.1 hst.2, fun st s t hst => ?_⟩
  · rw [h.live s hst.1, h.live t hst.2]
  · exact ⟨h.next st s hst.1, h.next st t hst.2⟩

theorem Mirrors.logged {E' : Executor τ} {Q : σ → τ → Prop} (h : E.Mirrors E' Q) :
    E.logged.Mirrors E'.logged fun s t => Q s.1 t.1 ∧ s.2 = t.2 := by
  refine ⟨fun s t hst => h.halted_eq s.1 t.1 hst.1, fun st s t hst => h.answer_eq st s.1 t.1 hst.1,
    fun st s t hst => ⟨h.next st s.1 t.1 hst.1, ?_⟩⟩
  simp only [Executor.logged, hst.2]

end Executor

namespace Family

variable [DecidableEq M]

/-! ### Two runs of a plan -/

section

variable {F : Family M} {E : Executor σ} {E' : Executor τ} {Q : σ → τ → Prop} {d : Dialect}
  {s : Step M} {owners owners' : List (Record M)} {state : σ} {state' : τ}

theorem fetch_mirrors (hE : E.Mirrors E' Q)
    (hkeys : F.ownerKeys s.relation owners = F.ownerKeys s.relation owners') (hQ : Q state state') :
    (F.fetch E d s owners state).1 = (F.fetch E' d s owners' state').1 ∧
      Q (F.fetch E d s owners state).2 (F.fetch E' d s owners' state').2 := by
  cases hks : F.ownerKeys s.relation owners' with
  | error e =>
    rw [hks] at hkeys
    simp only [fetch, hkeys, hks, true_and]
    exact hQ
  | ok ks =>
    rw [hks] at hkeys
    have hanswer := hE.answer_eq (statementOf d s (distinctValues [] ks)) state state' hQ
    have hnext := hE.next (statementOf d s (distinctValues [] ks)) state state' hQ
    simp only [fetch, hkeys, hks, hE.halted_eq state state' hQ]
    split
    · exact ⟨rfl, hQ⟩
    · split
      · exact ⟨rfl, hQ⟩
      · cases hquery : E.query (statementOf d s (distinctValues [] ks)) state with
        | mk result next =>
          cases hquery' : E'.query (statementOf d s (distinctValues [] ks)) state' with
          | mk result' next' =>
            rw [hquery, hquery'] at hanswer hnext
            cases hanswer
            cases result <;> exact ⟨rfl, hnext⟩

end

variable {W : Workshop M} {root owner : Schema M} {s : Step M} {done : List String} {name : String}
  {E : Executor σ} {E' : Executor τ} {Q : σ → τ → Prop} {d : Dialect}
  {p q : FieldDecl M → Prop} {roots roots' : List (Record M)} {state : σ} {state' : τ}

theorem runStep_same_keys (hF : W.family.DistinctNames) (hN : W.family.FilledNames)
    (hs : W.Placed root s done owner name) (hroot : W.direct root.model = .ok root)
    (hnamed : s.Named) (hroots : W.family.AllConform root.model roots)
    (hroots' : W.family.AllConform root.model roots')
    (hkeys : ∀ owners owners', W.family.reach done roots = .ok owners →
      W.family.reach done roots' = .ok owners' →
        W.family.ownerKeys s.relation owners = W.family.ownerKeys s.relation owners')
    (hE : E.Mirrors E' Q) (hQ : Q state state') :
    (∃ fetched next next',
      W.family.runStep E d s roots state =
        .done (roots.map (W.family.mapAt (W.family.attached s.relation fetched) done), next) () ∧
      W.family.runStep E' d s roots' state' =
        .done (roots'.map (W.family.mapAt (W.family.attached s.relation fetched) done), next') () ∧
      W.family.AllConform root.model
        (roots.map (W.family.mapAt (W.family.attached s.relation fetched) done)) ∧
      W.family.AllConform root.model
        (roots'.map (W.family.mapAt (W.family.attached s.relation fetched) done)) ∧
      Q next next') ∨
    ∃ e next next', W.family.runStep E d s roots state = .failed (roots, next) e ∧
      W.family.runStep E' d s roots' state' = .failed (roots', next') e ∧ Q next next' := by
  obtain ⟨owners, ho, -, hcases⟩ := runStep_fetch hF hN hs hroot hnamed hroots
  obtain ⟨owners', ho', -, hcases'⟩ := runStep_fetch hF hN hs hroot hnamed hroots'
  obtain ⟨hanswer, hnext⟩ :=
    fetch_mirrors (d := d) (s := s) hE (hkeys owners owners' ho ho') hQ
  rcases hcases E d state with ⟨fetched, next, hfetch, hmore, hrun⟩ | ⟨e, next, hfetch, hrun⟩
  · rcases hcases' E' d state' with
      ⟨fetched', next', hfetch', hmore', hrun'⟩ | ⟨e, next', hfetch', hrun'⟩
    · rw [hfetch, hfetch'] at hanswer hnext
      cases hanswer
      exact Or.inl ⟨fetched, next, next', hrun, hrun', hmore, hmore', hnext⟩
    · rw [hfetch, hfetch'] at hanswer
      cases hanswer
  · rcases hcases' E' d state' with ⟨fetched', next', hfetch', -, -⟩ | ⟨e', next', hfetch', hrun'⟩
    · rw [hfetch, hfetch'] at hanswer
      cases hanswer
    · rw [hfetch, hfetch'] at hanswer hnext
      cases hanswer
      exact Or.inr ⟨e, next, next', hrun, hrun', hnext⟩

/-- A step on roots that share what it reads fetches the same for both or fails for both. -/
theorem runStep_mirrors (hF : W.family.DistinctNames) (hN : W.family.FilledNames)
    (hs : W.Placed root s done owner name) (hroot : W.direct root.model = .ok root)
    (hnamed : s.Named) (hroots : W.family.AllConform root.model roots)
    (hroots' : W.family.AllConform root.model roots')
    (h : List.Forall₂ (W.family.Alike p) roots roots')
    (hcolumns : ∀ d : FieldDecl M, d.IsColumn → p d)
    (hfirst : ∀ first rest, done = first :: rest → ∀ d : FieldDecl M, d.name = first → p d)
    (hq : ∀ d : FieldDecl M, q d → p d ∨ s.names.head? = some d.name)
    (hE : E.Mirrors E' Q) (hQ : Q state state') :
    (∃ more more' next next', W.family.runStep E d s roots state = .done (more, next) () ∧
      W.family.runStep E' d s roots' state' = .done (more', next') () ∧
      W.family.AllConform root.model more ∧ W.family.AllConform root.model more' ∧
      List.Forall₂ (W.family.Alike q) more more' ∧ Q next next') ∨
    ∃ e next next', W.family.runStep E d s roots state = .failed (roots, next) e ∧
      W.family.runStep E' d s roots' state' = .failed (roots', next') e ∧ Q next next' := by
  have hkeys : ∀ owners owners', W.family.reach done roots = .ok owners →
      W.family.reach done roots' = .ok owners' →
        W.family.ownerKeys s.relation owners = W.family.ownerKeys s.relation owners' :=
    fun _ _ ho ho' => hs.ownerKeys_eq hF hroot hroots h hcolumns hfirst ho ho'
  rcases runStep_same_keys (d := d) hF hN hs hroot hnamed hroots hroots' hkeys hE hQ with
    ⟨fetched, next, next', hrun, hrun', hmore, hmore', hnext⟩ | hfailed
  · exact Or.inl ⟨_, _, next, next', hrun, hrun', hmore, hmore',
      hs.alike_mapAt hF hroot hroots hroots' h hcolumns hfirst hq fetched, hnext⟩
  · exact Or.inr hfailed

/-- From any place on, a plan runs alike on roots that share the columns and the associations that
were filled so far. -/
theorem runPlan_mirrors (hF : W.family.DistinctNames) (hN : W.family.FilledNames)
    (hroot : W.direct root.model = .ok root) {handlers : List Handler} {plan before after : Plan M}
    (hserves : Plan.Serves W root handlers [] plan) (hp : plan = before ++ after)
    (hroots : W.family.AllConform root.model roots)
    (hroots' : W.family.AllConform root.model roots')
    (h : List.Forall₂ (W.family.Alike fun d => d.IsColumn ∨ d.name ∈ Plan.firstNames before)
      roots roots') (hE : E.Mirrors E' Q) (hQ : Q state state') :
    (W.family.runPlan E d after roots state).result =
      (W.family.runPlan E' d after roots' state').result ∧
    Q (W.family.runPlan E d after roots state).state.2
      (W.family.runPlan E' d after roots' state').state.2 ∧
    ((W.family.runPlan E d after roots state).result = .ok () →
      List.Forall₂ (W.family.Alike fun d => d.IsColumn ∨ d.name ∈ Plan.firstNames plan)
        (W.family.runPlan E d after roots state).state.1
        (W.family.runPlan E' d after roots' state').state.1) := by
  induction after generalizing before roots roots' state state' with
  | nil =>
    rw [List.append_nil] at hp
    rw [hp]
    exact ⟨rfl, hQ, fun _ => h⟩
  | cons s after ih =>
    have hs : s ∈ plan := by
      rw [hp]
      exact List.mem_append_right before List.mem_cons_self
    obtain ⟨done, owner, name, hplaced⟩ := hserves.placed s hs
    have hfirst : ∀ first rest, done = first :: rest → ∀ d : FieldDecl M, d.name = first →
        d.IsColumn ∨ d.name ∈ Plan.firstNames before := by
      rintro first rest rfl d rfl
      exact Or.inr (hserves.first_before hp hplaced.names_eq)
    have hafter : ∀ d : FieldDecl M, d.IsColumn ∨ d.name ∈ Plan.firstNames (before ++ [s]) →
        (d.IsColumn ∨ d.name ∈ Plan.firstNames before) ∨ s.names.head? = some d.name := by
      intro d hd
      rw [Plan.mem_firstNames_concat] at hd
      tauto
    rcases runStep_mirrors hF hN hplaced hroot (hserves.named s hs) hroots hroots' h
        (fun d hd => Or.inl hd) hfirst hafter hE hQ with
      ⟨more, more', next, next', hrun, hrun', hmore, hmore', hsame, hnext⟩ |
        ⟨e, next, next', hrun, hrun', hnext⟩
    · rw [runPlan_of_done hrun, runPlan_of_done hrun']
      refine ih ?_ hmore hmore' hsame hnext
      rw [hp, List.append_assoc, List.singleton_append]
    · rw [runPlan_of_failed hrun, runPlan_of_failed hrun']
      exact ⟨rfl, hnext, fun hok => nomatch hok⟩

/-- A plan changes no columns, and no associations that it does not lead through. -/
theorem runPlan_frame (hF : W.family.DistinctNames) (hN : W.family.FilledNames)
    (hroot : W.direct root.model = .ok root) {plan : Plan M}
    (hplaced : ∀ s ∈ plan, ∃ done owner name, W.Placed root s done owner name)
    (hnamed : ∀ s ∈ plan, s.Named) (hroots : W.family.AllConform root.model roots)
    (hq : ∀ s ∈ plan, ∀ d : FieldDecl M, s.names.head? = some d.name → ¬ d.IsColumn → ¬ q d) :
    W.family.AllConform root.model (W.family.runPlan E d plan roots state).state.1 ∧
      List.Forall₂ (W.family.Alike q) roots (W.family.runPlan E d plan roots state).state.1 := by
  induction plan generalizing roots state with
  | nil => exact ⟨hroots, forall₂_alike_refl W.family q roots⟩
  | cons s plan ih =>
    obtain ⟨done, owner, name, hs⟩ := hplaced s List.mem_cons_self
    obtain ⟨owners, -, -, hcases⟩ :=
      runStep_fetch hF hN hs hroot (hnamed s List.mem_cons_self) hroots
    rcases hcases E d state with ⟨fetched, next, -, hmore, hrun⟩ | ⟨e, next, -, hrun⟩
    · have hstep := hs.frame_mapAt hF hroot hroots (hq s List.mem_cons_self) fetched
      obtain ⟨hconform, hrest⟩ := @ih _ next
        (fun t ht => hplaced t (List.mem_cons_of_mem s ht))
        (fun t ht => hnamed t (List.mem_cons_of_mem s ht)) hmore
        fun t ht => hq t (List.mem_cons_of_mem s ht)
      rw [runPlan_of_done hrun]
      exact ⟨hconform, forall₂_alike_trans hstep hrest⟩
    · rw [runPlan_of_failed hrun]
      exact ⟨hroots, forall₂_alike_refl W.family q roots⟩

/-! ### Two preloads -/

def sent (F : Family M) (E : Executor σ) (d : Dialect) (model : M) (handlers : List Handler)
    (b : Batch M σ) : List Statement :=
  (F.preload E.logged d model handlers ⟨b.registry, b.roots, b.state, []⟩).state.state.2

section

variable {F : Family M} {config : Config} {R R' : Registry M} {model : M} {handlers : List Handler}

theorem preload_mirrors (hR : R.Faithful F config) (hR' : R'.Faithful F config)
    (hF : F.DistinctNames) (hN : F.FilledNames) (hE : E.Mirrors E' Q) (d : Dialect)
    (handlers : List Handler) (hroots : F.AllConform model roots)
    (hroots' : F.AllConform model roots')
    (h : List.Forall₂ (F.Alike FieldDecl.IsColumn) roots roots') (state : σ) (state' : τ)
    (hQ : Q state state') :
    (F.preload E d model handlers ⟨R, roots, state⟩).result =
      (F.preload E' d model handlers ⟨R', roots', state'⟩).result ∧
    Q (F.preload E d model handlers ⟨R, roots, state⟩).state.state
      (F.preload E' d model handlers ⟨R', roots', state'⟩).state.state ∧
    ((F.preload E d model handlers ⟨R, roots, state⟩).result = .ok () →
      List.Forall₂ (F.Alike fun d => d.IsColumn ∨ d.name ∈ Handler.firstNames handlers)
        (F.preload E d model handlers ⟨R, roots, state⟩).state.roots
        (F.preload E' d model handlers ⟨R', roots', state'⟩).state.roots) := by
  obtain ⟨registry, -, hrun⟩ := preload_eq_runPlan hR model handlers
  obtain ⟨registry', -, hrun'⟩ := preload_eq_runPlan hR' model handlers
  rw [hrun, hrun', hR'.planFor_eq hR model handlers]
  cases hplan : R.planFor F model handlers with
  | error e => exact ⟨rfl, hQ, fun hok => nomatch hok⟩
  | ok plan =>
    obtain ⟨root, rfl, hroot, hserves⟩ := hR.planFor_serves hplan
    have hstart : List.Forall₂ (F.Alike fun d => d.IsColumn ∨ d.name ∈
        Plan.firstNames ([] : Plan M)) roots roots' := by
      refine h.imp fun x y hxy => hxy.mono fun d hd => hd.resolve_right List.not_mem_nil
    obtain ⟨hresult, hstate, hsame⟩ := runPlan_mirrors (W := Workshop.ofConfig F config) (d := d)
      hF hN hroot.direct hserves (List.nil_append plan).symm hroots hroots' hstart hE hQ
    refine ⟨hresult, hstate, fun hok => (hsame hok).imp fun x y hxy => hxy.mono fun d hd => ?_⟩
    exact hd.imp id hserves.mem_firstNames.mpr

theorem preload_frame (hR : R.Faithful F config) (hF : F.DistinctNames) (hN : F.FilledNames)
    (E : Executor σ) (d : Dialect) (handlers : List Handler) (hroots : F.AllConform model roots)
    (state : σ) :
    F.AllConform model (F.preload E d model handlers ⟨R, roots, state⟩).state.roots ∧
      List.Forall₂ (F.Alike fun d => d.IsColumn ∨ d.name ∉ Handler.firstNames handlers) roots
        (F.preload E d model handlers ⟨R, roots, state⟩).state.roots := by
  obtain ⟨registry, -, hrun⟩ := preload_eq_runPlan hR model handlers
  rw [hrun]
  cases hplan : R.planFor F model handlers with
  | error e => exact ⟨hroots, forall₂_alike_refl F _ roots⟩
  | ok plan =>
    obtain ⟨root, rfl, hroot, hserves⟩ := hR.planFor_serves hplan
    refine runPlan_frame (W := Workshop.ofConfig F config) hF hN hroot.direct hserves.placed
      hserves.named hroots fun s hs d hhead hcolumn hkept => ?_
    have hmem : d.name ∈ Plan.firstNames plan := Plan.mem_firstNames.mpr ⟨s, hs, hhead⟩
    exact hkept.elim hcolumn fun hout => hout (hserves.mem_firstNames.mp hmem)

/-- Preloading what was preloaded changes nothing. -/
theorem preload_twice (hR : R.Faithful F config) (hF : F.DistinctNames) (hN : F.FilledNames)
    {P : σ → Prop} (hE : E.Steady P) (hroots : F.AllConform model roots) (hs : P state)
    {registry : Registry M} {more : List (Record M)} {next : σ}
    (hrun : F.preload E d model handlers ⟨R, roots, state⟩ = .done ⟨registry, more, next⟩ ()) :
    ∃ registry' next', F.preload E d model handlers ⟨registry, more, next⟩ =
      .done ⟨registry', more, next'⟩ () := by
  have hregistry := faithful_preload hR E d model handlers roots state
  have hframe := preload_frame hR hF hN E d handlers hroots state
  have hnext := (preload_mirrors hR hR hF hN hE.mirrors d handlers hroots hroots
    (forall₂_alike_refl F FieldDecl.IsColumn roots) state state ⟨hs, hs⟩).2.1
  simp only [hrun, Attempt.done] at hregistry hframe hnext
  obtain ⟨hmore, hframe⟩ := hframe
  have hcolumns : List.Forall₂ (F.Alike FieldDecl.IsColumn) roots more :=
    hframe.imp fun x y hxy => hxy.mono fun d hd => Or.inl hd
  have hagain := preload_mirrors hR hregistry hF hN hE.mirrors d handlers hroots hmore hcolumns
    state next ⟨hs, hnext.1⟩
  have hframe' := preload_frame hregistry hF hN E d handlers hmore next
  simp only [hrun, Attempt.done] at hagain
  obtain ⟨hresult, -, hsame⟩ := hagain
  obtain ⟨hmore', hframe'⟩ := hframe'
  have heq := eq_of_alike (hsame trivial) hframe' (fun d => by tauto) hmore hmore'
  cases hrun' : F.preload E d model handlers ⟨registry, more, next⟩ with
  | mk twice result =>
    obtain ⟨registry', more', next'⟩ := twice
    rw [hrun'] at heq hresult
    cases heq
    cases hresult
    exact ⟨registry', next', rfl⟩

/-- What was attached before makes no difference. On roots that share their columns, preloading
sends the same statements, ends alike, and where it goes well fills the associations that handlers
ask for alike. All other fields stay as they were, whatever the outcome, and preloading what was
preloaded changes nothing. -/
theorem preload_ignores_attached (hR : R.Reached F config) (hR' : R'.Reached F config)
    (hF : F.DistinctNames) (hN : F.FilledNames) {E : Executor σ} {P : σ → Prop}
    (hE : E.Steady P) (d : Dialect) (hroots : F.AllConform model roots)
    (hroots' : F.AllConform model roots')
    (h : List.Forall₂ (F.Alike FieldDecl.IsColumn) roots roots') (handlers : List Handler)
    (state state' : σ) (hs : P state) (hs' : P state') :
    F.sent E d model handlers ⟨R, roots, state⟩ = F.sent E d model handlers ⟨R', roots', state'⟩ ∧
    (F.preload E d model handlers ⟨R, roots, state⟩).result =
      (F.preload E d model handlers ⟨R', roots', state'⟩).result ∧
    ((F.preload E d model handlers ⟨R, roots, state⟩).result = .ok () →
      List.Forall₂ (F.Alike fun d => d.IsColumn ∨ d.name ∈ Handler.firstNames handlers)
        (F.preload E d model handlers ⟨R, roots, state⟩).state.roots
        (F.preload E d model handlers ⟨R', roots', state'⟩).state.roots) ∧
    List.Forall₂ (F.Alike fun d => d.IsColumn ∨ d.name ∉ Handler.firstNames handlers) roots
      (F.preload E d model handlers ⟨R, roots, state⟩).state.roots ∧
    ∀ registry more next,
      F.preload E d model handlers ⟨R, roots, state⟩ = .done ⟨registry, more, next⟩ () →
        ∃ registry' next', F.preload E d model handlers ⟨registry, more, next⟩ =
          .done ⟨registry', more, next'⟩ () := by
  have hfaithful := hR.faithful
  have hmirrors := hE.mirrors
  obtain ⟨hresult, -, hsame⟩ := preload_mirrors hfaithful hR'.faithful hF hN hmirrors d handlers
    hroots hroots' h state state' ⟨hs, hs'⟩
  obtain ⟨-, hlog, -⟩ := preload_mirrors hfaithful hR'.faithful hF hN hmirrors.logged d handlers
    hroots hroots' h (state, []) (state', []) ⟨⟨hs, hs'⟩, rfl⟩
  obtain ⟨-, hframe⟩ := preload_frame hfaithful hF hN E d handlers hroots state
  exact ⟨hlog.2, hresult, hsame, hframe, fun registry more next hrun =>
    preload_twice hfaithful hF hN hE hroots hs hrun⟩

end

end Family

/-! ### Authors with old books -/

namespace Registry

/-- An author with a key and a book that nobody wrote. -/
def oldAuthor (n : IntType.i64.Word) : Record Shelf :=
  (author n).setSlot 2 (.collection .book [shelf.blank .book])

theorem conforms_oldAuthor (n : IntType.i64.Word) : shelf.Conforms (oldAuthor n) := by
  refine (conforms_author n).setSlot (d := ⟨"books", "", .collection .book none⟩) rfl ⟨rfl, ?_⟩
  intro cs hcs c hc
  cases hcs
  cases List.mem_singleton.mp hc
  exact ⟨rfl, Family.conforms_blank Shelf.book⟩

theorem alike_oldAuthor (n : IntType.i64.Word) :
    shelf.Alike FieldDecl.IsColumn (author n) (oldAuthor n) :=
  Family.alike_setSlot_self shelf (author n) (e := ⟨"books", "", .collection .book none⟩) rfl
    (fun hcolumn => nomatch hcolumn) _

def oldAuthors : List (Record Shelf) :=
  [oldAuthor (keyWord 7), oldAuthor (keyWord 0), oldAuthor (keyWord 7)]

theorem oldAuthors_conform : shelf.AllConform .author oldAuthors := by
  intro r hr
  simp only [oldAuthors, List.mem_cons, List.not_mem_nil, or_false] at hr
  rcases hr with rfl | rfl | rfl <;> exact ⟨rfl, conforms_oldAuthor _⟩

theorem bookExecutor_steady : bookExecutor.Steady fun _ => True :=
  ⟨fun _ _ => rfl, fun _ _ _ _ _ => rfl, fun _ _ _ => trivial⟩

theorem preload_books_ok : (shelf.preload bookExecutor .postgres .author [.ofPath "books"]
    ⟨ofConfig 0 .standard, threeAuthors, 0⟩).result = .ok () := by
  decide +kernel

/-- Old books make no difference, and loading the books again does not either. -/
theorem preload_oldAuthors :
    (shelf.sent bookExecutor .postgres .author [.ofPath "books"]
      ⟨ofConfig 0 .standard, threeAuthors, 0⟩ =
        shelf.sent bookExecutor .postgres .author [.ofPath "books"]
          ⟨ofConfig 0 .standard, oldAuthors, 5⟩) ∧
    (shelf.preload bookExecutor .postgres .author [.ofPath "books"]
      ⟨ofConfig 0 .standard, oldAuthors, 5⟩).result = .ok () ∧
    ∃ registry more next, shelf.preload bookExecutor .postgres .author [.ofPath "books"]
        ⟨ofConfig 0 .standard, threeAuthors, 0⟩ = .done ⟨registry, more, next⟩ () ∧
      ∃ registry' next', shelf.preload bookExecutor .postgres .author [.ofPath "books"]
        ⟨registry, more, next⟩ = .done ⟨registry', more, next'⟩ () := by
  have halike : List.Forall₂ (shelf.Alike FieldDecl.IsColumn) threeAuthors oldAuthors :=
    .cons (alike_oldAuthor _) (.cons (alike_oldAuthor _) (.cons (alike_oldAuthor _) .nil))
  obtain ⟨hsent, hresult, -, -, hagain⟩ := Family.preload_ignores_attached (Reached.fresh 0)
    (Reached.fresh 0) distinctNames_shelf filledNames_shelf bookExecutor_steady .postgres
    threeAuthors_conform oldAuthors_conform halike [.ofPath "books"] 0 5 trivial trivial
  obtain ⟨registry, more, next, hrun⟩ : ∃ registry more next,
      shelf.preload bookExecutor .postgres .author [.ofPath "books"]
        ⟨ofConfig 0 .standard, threeAuthors, 0⟩ = .done ⟨registry, more, next⟩ () :=
    ⟨_, _, _, congrArg (Attempt.mk _) preload_books_ok⟩
  exact ⟨hsent, hresult.symm.trans preload_books_ok, registry, more, next, hrun,
    hagain registry more next hrun⟩

end Registry

end RecordGraph
