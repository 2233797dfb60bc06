import RecordGraph.Proofs.Context.Families
import RecordGraph.Proofs.Preload.Needed

/-!
# Preloading under a context that is done

The context is asked between the keys of a step and its statement. Under a context that lets no work
go on, a step whose owners have no keys clears its association all the same, and the first step of
the roots with a key fails. Deeper steps have no owners by then, since the association that leads to
them was cleared, so no statement is ever sent.
-/

namespace RecordGraph

variable {M σ : Type}

namespace Family

/-! ### Cleared associations -/

/-- The associations with some names hold nothing, and the other fields what they held before. -/
structure Cleared (F : Family M) (p : String → Prop) (x y : Record M) : Prop where
  kept : F.Alike (fun d => d.IsColumn ∨ ¬ p d.name) x y
  cleared : ∀ (i : Nat) d, (F.model x.model).fields[i]? = some d → ¬ d.IsColumn → p d.name →
    y.slots[i]? = some d.type.blank

variable {F : Family M} {p q : String → Prop} {r : Relation M} {x y : Record M}
  {xs ys : List (Record M)}

theorem Cleared.refl (F : Family M) (x : Record M) : F.Cleared (fun _ => False) x x :=
  ⟨Alike.refl F _ x, fun _ _ _ _ hp => hp.elim⟩

theorem Cleared.congr (h : F.Cleared p x y) (hpq : ∀ name, p name ↔ q name) :
    F.Cleared q x y :=
  (funext fun name => propext (hpq name) : p = q) ▸ h

theorem Cleared.setSlot (hF : F.DistinctNames) (h : F.Cleared p x y) (hy : F.Conforms y) {i : Nat}
    {d : FieldDecl M} (hd : (F.model x.model).fields[i]? = some d) (hcolumn : ¬ d.IsColumn) :
    F.Cleared (fun name => p name ∨ name = d.name) x (y.setSlot i d.type.blank) := by
  have hlength : i < y.slots.length := by
    rw [hy.length_eq, ← h.kept.model_eq]
    exact (List.getElem?_eq_some_iff.mp hd).1
  have hplace : ∀ (j : Nat) e, (F.model x.model).fields[j]? = some e → j ≠ i → e.name ≠ d.name := by
    intro j e he hne hname
    have hj := position?_of_declared hF he
    rw [hname, position?_of_declared hF hd] at hj
    exact hne (Option.some_inj.mp hj).symm
  refine ⟨⟨h.kept.model_eq, fun j e he hkept => ?_⟩, fun j e he hassociation hgone => ?_⟩
  · have hne : j ≠ i := by
      rintro rfl
      cases hd.symm.trans he
      exact hkept.elim hcolumn fun hnot => hnot (Or.inr rfl)
    rw [Record.slots_setSlot, List.getElem?_set_ne hne.symm]
    exact h.kept.slot_eq j e he (hkept.imp id fun hnot hp => hnot (Or.inl hp))
  · by_cases hij : j = i
    · subst hij
      cases hd.symm.trans he
      rw [Record.slots_setSlot, List.getElem?_set_self hlength]
    · rw [Record.slots_setSlot, List.getElem?_set_ne (Ne.symm hij)]
      exact h.cleared j e he hassociation (hgone.resolve_right (hplace j e he hij))

theorem Cleared.keyOf_eq (hF : F.DistinctNames) (hr : F.Grounded r) (h : F.Cleared p x y)
    (hm : x.model = r.owner) : F.keyOf r x = F.keyOf r y := by
  simp only [keyOf, h.kept.source_eq hF hr (fun d hd => Or.inl hd) hm]

theorem Grounded.slotOf_nil (hr : F.Grounded r) : ∃ d,
    (F.model r.owner).fields[r.index]? = some d ∧ d.name = r.name ∧ ¬ d.IsColumn ∧
      slotOf r [] = (d.type.blank : Slot M (Record M)) := by
  obtain ⟨d, hd, hname, hone, hmany⟩ := hr.association
  refine ⟨d, hd, hname, ?_⟩
  cases hk : r.kind.isToOne with
  | true =>
    obtain ⟨boxed, hT⟩ := hone hk
    simp [FieldDecl.IsColumn, FieldType.target?, slotOf, hk, hT, FieldType.blank]
  | false =>
    obtain ⟨join, hT⟩ := hmany hk
    simp [FieldDecl.IsColumn, FieldType.target?, slotOf, hk, hT, FieldType.blank]

theorem Cleared.attached (hF : F.DistinctNames) (hr : F.Grounded r) (h : F.Cleared p x y)
    (hy : F.Conforms y) (hm : x.model = r.owner) :
    F.Cleared (fun name => p name ∨ name = r.name) x (F.attached r [] y) := by
  obtain ⟨d, hd, hname, hcolumn, hblank⟩ := hr.slotOf_nil
  have hmatched : F.matched r [] y = [] := by
    simp only [matched]
    cases F.keyOf r y <;> rfl
  rw [← hname, Family.attached, hmatched, hblank]
  exact h.setSlot hF hy (hm ▸ hd) hcolumn

theorem Cleared.children_eq (hF : F.DistinctNames) (hr : F.Grounded r) (h : F.Cleared p x y)
    (hm : x.model = r.owner) (hp : p r.name) : F.children r.name y = .ok [] := by
  obtain ⟨d, hd, hname, hcolumn, -⟩ := hr.slotOf_nil
  rw [← hm] at hd
  have hblank := h.cleared r.index d hd hcolumn (hname ▸ hp)
  rw [h.kept.model_eq] at hd
  have hlocate := locate_of (position?_of_declared hF hd) hd hblank
  rw [hname] at hlocate
  refine children_of_locate hlocate ?_
  cases htype : d.type with
  | column T => exact absurd (by simp [FieldDecl.IsColumn, htype, FieldType.target?]) hcolumn
  | reference target boxed => rfl
  | collection target through => rfl

theorem follow_cleared (hF : F.DistinctNames) (hr : F.Grounded r)
    (h : List.Forall₂ (F.Cleared p) xs ys) (hm : ∀ x ∈ xs, x.model = r.owner) (hp : p r.name) :
    F.follow r.name ys = .ok [] := by
  induction h with
  | nil => rfl
  | @cons x y xs ys hx _ ih =>
    have hrest := ih fun z hz => hm z (List.mem_cons_of_mem x hz)
    have hhere := hx.children_eq hF hr (hm x List.mem_cons_self) hp
    exact follow_cons.mpr ⟨[], [], hhere, hrest, rfl⟩

theorem exists_keyOf_iff (hF : F.DistinctNames) (hr : F.Grounded r)
    (h : List.Forall₂ (F.Cleared p) xs ys) (hm : ∀ x ∈ xs, x.model = r.owner) :
    (∃ x ∈ xs, (F.keyOf r x).isSome = true) ↔ ∃ y ∈ ys, (F.keyOf r y).isSome = true := by
  induction h with
  | nil => exact Iff.rfl
  | @cons x y xs ys hx _ ih =>
    have hrest := ih fun z hz => hm z (List.mem_cons_of_mem x hz)
    simp only [List.exists_mem_cons_iff, hx.keyOf_eq hF hr (hm x List.mem_cons_self), hrest]

theorem forall₂_cleared_attached (hF : F.DistinctNames) (hr : F.Grounded r)
    (h : List.Forall₂ (F.Cleared p) xs ys) (hxs : F.AllConform r.owner xs)
    (hys : F.AllConform r.owner ys) :
    List.Forall₂ (F.Cleared fun name => p name ∨ name = r.name) xs
      (ys.map (F.attached r [])) := by
  induction h with
  | nil => exact .nil
  | @cons x y xs ys hx _ ih =>
    exact .cons (hx.attached hF hr (hys y List.mem_cons_self).2 (hxs x List.mem_cons_self).1)
      (ih (fun z hz => hxs z (List.mem_cons_of_mem x hz))
        fun z hz => hys z (List.mem_cons_of_mem y hz))

/-! ### Steps from the roots -/

/-- The step leads from the roots, and some root has a key for it. -/
def Sends (F : Family M) (roots : List (Record M)) (s : Step M) : Prop :=
  s.names.length = 1 ∧ ∃ x ∈ roots, (F.keyOf s.relation x).isSome = true

variable {W : Workshop M} {root owner : Schema M} {s : Step M} {done : List String} {name : String}
  {roots here : List (Record M)}

theorem root_model_of_placed (hs : W.Placed root s [] owner name)
    (hroot : W.direct root.model = .ok root) : root.model = s.relation.owner := by
  have hchain := hs.chain
  cases hchain
  exact (hs.owner_model hroot).symm

/-- A step from the roots sends just if the owners that it has by now have keys. -/
theorem sends_iff_ownerValues (hF : W.family.DistinctNames) (hs : W.Placed root s [] owner name)
    (hroot : W.direct root.model = .ok root) (hroots : W.family.AllConform root.model roots)
    (hhere : W.family.AllConform root.model here)
    (hcleared : List.Forall₂ (W.family.Cleared p) roots here) :
    W.family.Sends roots s ↔ W.family.ownerValues s.relation here ≠ [] := by
  have hgrounded := (hs.follows hroot).grounded
  have hmodel := root_model_of_placed hs hroot
  have hlength : s.names.length = 1 := by
    rw [hs.names_eq]
    rfl
  rw [ownerValues_ne_nil_iff hF hgrounded (hmodel ▸ hhere), Sends, and_iff_right hlength]
  exact exists_keyOf_iff hF hgrounded hcleared fun x hx => (hroots x hx).1.trans hmodel

theorem reach_cleared (hF : W.family.DistinctNames) (hroot : W.direct root.model = .ok root)
    {first : String} {rest : List String} (hchain : W.Chain root (first :: rest) owner)
    (hroots : W.family.AllConform root.model roots)
    (hcleared : List.Forall₂ (W.family.Cleared p) roots here) (hgone : p first) :
    W.family.reach (first :: rest) here = .ok [] := by
  obtain ⟨r, mid, hr, -, -⟩ := hchain
  obtain ⟨hmem, rfl⟩ := Schema.relation?_cases hr
  have hmodel := Workshop.owner_of_direct hroot hmem
  have hfollow := follow_cleared hF (Workshop.grounded_of_direct hroot hmem) hcleared
    (fun x hx => (hroots x hx).1.trans hmodel.symm) hgone
  exact reach_cons_name.mpr ⟨[], hfollow, reach_nil_records⟩

/-! ### The associations of the roots -/

theorem path_of_names (h : s.names = [name]) : s.path = name := by
  simp only [Step.path, h, Text.joinDots, String.intercalate_singleton]

section

variable {handlers : List Handler} {plan mid after : Plan M} {n : String}

theorem mem_of_name_lt (hserves : Plan.Serves W root handlers [] plan)
    (hplan : plan = mid ++ s :: after) (hnames : s.names = [name]) {t : Step M} (ht : t ∈ plan)
    (htnames : t.names = [n]) (hlt : n < name) : t ∈ mid := by
  have hsorted := hserves.sorted
  rw [hplan] at hsorted ht
  refine (hsorted.mem_before_iff ht).mpr (Step.before_iff.mpr (Or.inr ⟨?_, ?_⟩))
  · rw [Step.depth, Step.depth, htnames, hnames]
    rfl
  · rwa [path_of_names htnames, path_of_names hnames]

theorem mem_firstNames_before (hserves : Plan.Serves W root handlers [] plan)
    (hplan : plan = mid ++ s :: after) (hnames : s.names = [name]) :
    n ∈ Plan.firstNames mid ↔ n ∈ Handler.firstNames handlers ∧ n < name := by
  constructor
  · intro hn
    obtain ⟨t, ht, hhead⟩ := Plan.mem_firstNames.mp hn
    have hmem : t ∈ plan := hplan ▸ List.mem_append_left _ ht
    refine ⟨hserves.mem_firstNames.mp (Plan.mem_firstNames.mpr ⟨t, hmem, hhead⟩), ?_⟩
    obtain ⟨more, hmore⟩ := List.head?_eq_some_iff.mp hhead
    have hsorted := hserves.sorted
    rw [hplan] at hsorted hmem
    rcases Step.before_iff.mp ((hsorted.mem_before_iff hmem).mp ht) with
      hdepth | ⟨hdepth, hpath⟩
    · simp [Step.depth, hmore, hnames] at hdepth
    · have hnone : more = [] := by simpa [Step.depth, hmore, hnames] using hdepth
      rw [hnone] at hmore
      rwa [path_of_names hmore, path_of_names hnames] at hpath
  · rintro ⟨hn, hlt⟩
    obtain ⟨t, ht, htnames⟩ := hserves.mem_of_firstNames hn
    have hmem := mem_of_name_lt hserves hplan hnames ht htnames hlt
    exact Plan.mem_firstNames.mpr ⟨t, hmem, by rw [htnames]; rfl⟩

end

/-- Some root has a key for the association. -/
def Wanted (F : Family M) (root : Schema M) (roots : List (Record M)) (name : String) : Prop :=
  ∃ r, root.relation? name = some r ∧ ∃ x ∈ roots, (F.keyOf r x).isSome = true

theorem sends_iff {handlers : List Handler} {plan : Plan M}
    (hserves : Plan.Serves W root handlers [] plan) (hs : s ∈ plan) (hnames : s.names = [name]) :
    W.family.Sends roots s ↔ W.family.Wanted root roots name := by
  obtain ⟨done, owner, last, hplaced⟩ := hserves.placed s hs
  have hsplit : done = [] ∧ last = name := by
    have heq := hplaced.names_eq.symm.trans hnames
    cases done with
    | nil => exact ⟨rfl, List.head_eq_of_cons_eq heq⟩
    | cons first more => simp at heq
  obtain ⟨rfl, rfl⟩ := hsplit
  have hchain := hplaced.chain
  cases hchain
  constructor
  · rintro ⟨-, hkey⟩
    exact ⟨s.relation, hplaced.relation, hkey⟩
  · rintro ⟨r, hr, hkey⟩
    cases hplaced.relation.symm.trans hr
    exact ⟨by rw [hnames]; rfl, hkey⟩

/-! ### A step under a context that is done -/

variable [DecidableEq M] {E : Executor σ} {state : σ} {err : ExecError}

theorem runStep_unsent (hF : W.family.DistinctNames) (hN : W.family.FilledNames)
    (hs : W.Placed root s done owner name) (hroot : W.direct root.model = .ok root)
    (hnamed : s.Named) (hhere : W.family.AllConform root.model here) (E : Executor σ) (d : Dialect)
    (state : σ) :
    ∃ owners, W.family.reach done here = .ok owners ∧
      W.family.AllConform s.relation.owner owners ∧
      (W.family.ownerValues s.relation owners = [] → W.family.AllConform root.model
          (here.map (W.family.mapAt (W.family.attached s.relation []) done)) ∧
        W.family.runStep E d s here state =
          .done (here.map (W.family.mapAt (W.family.attached s.relation []) done), state) ()) ∧
      (W.family.ownerValues s.relation owners ≠ [] → ∀ err, E.halted? state = some err →
        W.family.runStep E d s here state = .failed (here, state) (.queryFailed s.path err)) := by
  obtain ⟨owners, howners, hconform, hrun⟩ := runStep_fetch hF hN hs hroot hnamed hhere
  have hgrounded := (hs.follows hroot).grounded
  refine ⟨owners, howners, hconform, fun hkeys => ?_, fun hkeys err hhalted => ?_⟩
  · have hidle : W.family.fetch E d s owners state = (.ok [], state) :=
      fetch_of_answers hF hgrounded hconform (.idle hkeys)
    rcases hrun E d state with ⟨fetched, next, hfetch, hall, hdone⟩ | ⟨e, next, hfetch, -⟩
    · cases hidle.symm.trans hfetch
      exact ⟨hall, hdone⟩
    · cases hidle.symm.trans hfetch
  · have hrefused := fetch_of_refuses (d := d) hF hgrounded hconform (.halted hkeys hhalted)
    rcases hrun E d state with ⟨fetched, next, hfetch, -⟩ | ⟨e, next, hfetch, hfailed⟩
    · cases hrefused.symm.trans hfetch
    · cases hrefused.symm.trans hfetch
      exact hfailed

/-- Under a context that is done, a step from the roots with a key fails, and every other step clears
what it would fill: one from the roots its association, a deeper one nothing, since nothing is left
below the roots that it could fill. -/
theorem runStep_halted (hF : W.family.DistinctNames) (hN : W.family.FilledNames)
    (hs : W.Placed root s done owner name) (hroot : W.direct root.model = .ok root)
    (hnamed : s.Named) (hroots : W.family.AllConform root.model roots)
    (hhere : W.family.AllConform root.model here)
    (hcleared : List.Forall₂ (W.family.Cleared p) roots here)
    (hfirst : ∀ first rest, done = first :: rest → p first) (d : Dialect)
    (hhalted : E.halted? state = some err) :
    (W.family.Sends roots s ∧
      W.family.runStep E d s here state = .failed (here, state) (.queryFailed s.path err)) ∨
    (¬ W.family.Sends roots s ∧ ∃ next, W.family.runStep E d s here state = .done (next, state) () ∧
      W.family.AllConform root.model next ∧
      List.Forall₂ (W.family.Cleared fun n => p n ∨ s.names.head? = some n) roots next) := by
  obtain ⟨owners, howners, hconform, hidle, hrefused⟩ :=
    runStep_unsent hF hN hs hroot hnamed hhere E d state
  have hgrounded := (hs.follows hroot).grounded
  have hnames := hs.names_eq
  cases done with
  | nil =>
    cases howners
    have hname : s.relation.name = name := (Schema.relation?_cases hs.relation).2
    have hsends := sends_iff_ownerValues hF hs hroot hroots hhere hcleared
    by_cases hkeys : W.family.ownerValues s.relation here = []
    · obtain ⟨hall, hdone⟩ := hidle hkeys
      have hmodel := root_model_of_placed hs hroot
      refine Or.inr ⟨fun h => hsends.mp h hkeys, _, hdone, hall, ?_⟩
      refine (forall₂_cleared_attached hF hgrounded hcleared (hmodel ▸ hroots) hconform).imp
        fun x y hxy => hxy.congr fun n => ?_
      rw [hnames, hname]
      simp [eq_comm]
    · exact Or.inl ⟨hsends.mpr hkeys, hrefused hkeys err hhalted⟩
  | cons first rest =>
    have hgone := hfirst first rest rfl
    have hreach := reach_cleared hF hroot hs.chain hroots hcleared hgone
    cases howners.symm.trans hreach
    obtain ⟨hall, hdone⟩ := hidle rfl
    rw [map_mapAt_of_reach_nil hreach] at hall hdone
    refine Or.inr ⟨fun h => ?_, here, hdone, hall, hcleared.imp fun x y hxy => hxy.congr fun n => ?_⟩
    · have hlength := h.1
      rw [hnames] at hlength
      simp at hlength
    · have hhead : s.names.head? = some first := by
        rw [hnames]
        rfl
      rw [hhead]
      constructor
      · exact Or.inl
      · rintro (hp | hn)
        · exact hp
        · cases hn
          exact hgone

/-! ### A run under a context that is done -/

/-- A plan is run up to the first step from the roots with a key, and the steps before it clear the
associations that they lead through. -/
theorem runPlan_halted {handlers : List Handler} {plan before rest : Plan M}
    (hF : W.family.DistinctNames) (hN : W.family.FilledNames)
    (hroot : W.direct root.model = .ok root) (hserves : Plan.Serves W root handlers [] plan)
    (hplan : plan = before ++ rest) (hroots : W.family.AllConform root.model roots)
    (hhere : W.family.AllConform root.model here)
    (hcleared : List.Forall₂ (W.family.Cleared (· ∈ Plan.firstNames before)) roots here)
    (d : Dialect) (hhalted : E.halted? state = some err) :
    (∃ mid s after next, rest = mid ++ s :: after ∧ W.family.Sends roots s ∧
      (∀ t ∈ mid, ¬ W.family.Sends roots t) ∧
      W.family.runPlan E d rest here state = .failed (next, state) (.queryFailed s.path err) ∧
      W.family.AllConform root.model next ∧
      List.Forall₂ (W.family.Cleared (· ∈ Plan.firstNames (before ++ mid))) roots next) ∨
    ((∀ t ∈ rest, ¬ W.family.Sends roots t) ∧ ∃ next,
      W.family.runPlan E d rest here state = .done (next, state) () ∧
      W.family.AllConform root.model next ∧
      List.Forall₂ (W.family.Cleared (· ∈ Plan.firstNames plan)) roots next) := by
  induction rest generalizing before here with
  | nil =>
    rw [List.append_nil] at hplan
    exact Or.inr ⟨fun t ht => absurd ht List.not_mem_nil, here, rfl, hhere, hplan ▸ hcleared⟩
  | cons s rest ih =>
    have hs : s ∈ plan := hplan ▸ List.mem_append_right before List.mem_cons_self
    obtain ⟨done, owner, name, hplaced⟩ := hserves.placed s hs
    have hfirst : ∀ first more, done = first :: more → first ∈ Plan.firstNames before := by
      rintro first more rfl
      exact hserves.first_before hplan hplaced.names_eq
    rcases runStep_halted hF hN hplaced hroot (hserves.named s hs) hroots hhere hcleared hfirst d
      hhalted with ⟨hsends, hfailed⟩ | ⟨hrests, next, hdone, hconform, hnext⟩
    · refine Or.inl ⟨[], s, rest, here, rfl, hsends, fun t ht => absurd ht List.not_mem_nil,
        runPlan_of_failed hfailed rest, hhere, ?_⟩
      rw [List.append_nil]
      exact hcleared
    · have hnext' : List.Forall₂ (W.family.Cleared (· ∈ Plan.firstNames (before ++ [s]))) roots
          next := hnext.imp fun x y hxy => hxy.congr fun n => Plan.mem_firstNames_concat.symm
      have hsplit : plan = (before ++ [s]) ++ rest := by
        rw [hplan, List.append_assoc, List.singleton_append]
      rw [runPlan_of_done hdone]
      rcases ih hsplit hconform hnext' with
        ⟨mid, t, after, last, rfl, hsends, hmid, hrun, hconform', hlast⟩ | ⟨hall, hrun⟩
      · refine Or.inl ⟨s :: mid, t, after, last, rfl, hsends, fun u hu => ?_, hrun, hconform', ?_⟩
        · rcases List.mem_cons.mp hu with rfl | hu
          · exact hrests
          · exact hmid u hu
        · rw [List.append_assoc, List.singleton_append] at hlast
          exact hlast
      · refine Or.inr ⟨fun u hu => ?_, hrun⟩
        rcases List.mem_cons.mp hu with rfl | hu
        · exact hrests
        · exact hall u hu

/-! ### Preloading under a context that is done -/

/-- What a preload leaves whose executor lets no work go on: the first association with a key, in
the order of the names, fails it, and those before it are cleared. -/
theorem preload_halted {F : Family M} {config : Config} {R : Registry M} (hR : R.Reached F config)
    (hF : F.DistinctNames) (hN : F.FilledNames) (d : Dialect) {model : M}
    (hschema : (R.schemaFor F model).result = .ok root) {handlers : List Handler} {plan : Plan M}
    (hplan : R.planFor F model handlers = .ok plan) (hroots : F.AllConform model roots)
    (hhalted : E.halted? state = some err) :
    ∃ registry next, F.AllConform model next ∧
      ((∃ name ∈ Handler.firstNames handlers, F.Wanted root roots name ∧
        (∀ other ∈ Handler.firstNames handlers, F.Wanted root roots other → name ≤ other) ∧
        F.preload E d model handlers ⟨R, roots, state⟩ =
          .failed ⟨registry, next, state⟩ (.queryFailed name err) ∧
        List.Forall₂ (F.Cleared fun n => n ∈ Handler.firstNames handlers ∧ n < name) roots next) ∨
      ((∀ name ∈ Handler.firstNames handlers, ¬ F.Wanted root roots name) ∧
        F.preload E d model handlers ⟨R, roots, state⟩ = .done ⟨registry, next, state⟩ () ∧
        List.Forall₂ (F.Cleared (· ∈ Handler.firstNames handlers)) roots next)) := by
  have hfaithful := hR.faithful
  obtain ⟨root', hmodel, hroot, hserves⟩ := hfaithful.planFor_serves hplan
  obtain ⟨registry, -, hrun⟩ := preload_eq_runPlan hfaithful model handlers
  have hsame : root' = root := by
    have hdirect := (hfaithful.result_ok hschema).1
    rw [← hmodel] at hdirect
    exact Except.ok.inj (hroot.direct.symm.trans hdirect)
  subst hsame
  subst hmodel
  have hstart : List.Forall₂ (F.Cleared (· ∈ Plan.firstNames ([] : Plan M))) roots roots :=
    List.forall₂_same.mpr fun x _ => (Cleared.refl F x).congr fun n => by simp [Plan.firstNames]
  rw [hrun, hplan]
  rcases runPlan_halted (W := Workshop.ofConfig F config) hF hN hroot.direct hserves
    (List.nil_append plan).symm hroots hroots hstart d hhalted with
    ⟨mid, s, after, next, hsplit, hsends, hmid, hfailed, hconform, hnext⟩ |
      ⟨hrests, next, hdone, hconform, hnext⟩
  · have hs : s ∈ plan := hsplit ▸ List.mem_append_right mid List.mem_cons_self
    obtain ⟨name, hnames⟩ := List.length_eq_one_iff.mp hsends.1
    have hname : name ∈ Handler.firstNames handlers :=
      hserves.mem_firstNames.mp (Plan.mem_firstNames.mpr ⟨s, hs, by rw [hnames]; rfl⟩)
    refine ⟨registry, next, hconform, Or.inl ⟨name, hname,
      (sends_iff hserves hs hnames).mp hsends, fun other hother hwanted => ?_, ?_, ?_⟩⟩
    · obtain ⟨t, ht, htnames⟩ := hserves.mem_of_firstNames hother
      exact String.not_lt.mp fun hlt =>
        hmid t (mem_of_name_lt hserves hsplit hnames ht htnames hlt)
          ((sends_iff hserves ht htnames).mpr hwanted)
    · rw [path_of_names hnames] at hfailed
      have hresult : F.runPlan E d plan roots state =
        .failed (next, state) (.queryFailed name err) := hfailed
      simp only [hresult, Attempt.failed]
    · exact hnext.imp fun x y hxy => hxy.congr fun n =>
        mem_firstNames_before hserves hsplit hnames
  · refine ⟨registry, next, hconform, Or.inr ⟨fun name hname hwanted => ?_, ?_, ?_⟩⟩
    · obtain ⟨s, hs, hnames⟩ := hserves.mem_of_firstNames hname
      exact hrests s hs ((sends_iff hserves hs hnames).mpr hwanted)
    · have hresult : F.runPlan E d plan roots state = .done (next, state) () := hdone
      simp only [hresult, Attempt.done]
    · exact hnext.imp fun x y hxy => hxy.congr fun n => hserves.mem_firstNames

/-- A context that is done runs nothing. No statement reaches the executor. Preloading fails just if
some root has a key for an association that a path begins with. The first such association, in the
order of the names, is then the one that failed, the associations before it are cleared on every
root, and nothing else is changed. Otherwise all associations that paths begin with are cleared. -/
theorem preload_of_done_context {F : Family M} {config : Config} {R : Registry M}
    (hR : R.Reached F config) (hF : F.DistinctNames) (hN : F.FilledNames) (E : Executor σ)
    (d : Dialect) {model : M} (hschema : (R.schemaFor F model).result = .ok root)
    {handlers : List Handler} {plan : Plan M} (hplan : R.planFor F model handlers = .ok plan)
    (hroots : F.AllConform model roots) {c : Context} {now : Time} (hdone : c.Done now)
    {state : σ} (hE : E.halted? state = c.error? now) :
    F.sent E d model handlers ⟨R, roots, state⟩ = [] ∧
    (F.preload E d model handlers ⟨R, roots, state⟩).state.state = state ∧
    F.AllConform model (F.preload E d model handlers ⟨R, roots, state⟩).state.roots ∧
    ((∃ e, (F.preload E d model handlers ⟨R, roots, state⟩).result = .error e) ↔
      ∃ name ∈ Handler.firstNames handlers, F.Wanted root roots name) ∧
    (∀ e, (F.preload E d model handlers ⟨R, roots, state⟩).result = .error e →
      ∃ name ∈ Handler.firstNames handlers, F.Wanted root roots name ∧
        (∀ other ∈ Handler.firstNames handlers, F.Wanted root roots other → name ≤ other) ∧
        e = .queryFailed name (if c.cancelled then .cancelled else .deadlineExceeded) ∧
        e.isCancelled = true ∧
        List.Forall₂ (F.Cleared fun n => n ∈ Handler.firstNames handlers ∧ n < name) roots
          (F.preload E d model handlers ⟨R, roots, state⟩).state.roots) ∧
    ((F.preload E d model handlers ⟨R, roots, state⟩).result = .ok () →
      List.Forall₂ (F.Cleared (· ∈ Handler.firstNames handlers)) roots
        (F.preload E d model handlers ⟨R, roots, state⟩).state.roots) := by
  have hhalted : E.halted? state = some c.reason := hE.trans hdone.error?_eq
  have hsent : F.sent E d model handlers ⟨R, roots, state⟩ = [] := by
    have hlogged : E.logged.halted? (state, []) = some c.reason := hhalted
    obtain ⟨registry, next, -, ⟨name, -, -, -, hrun, -⟩ | ⟨-, hrun, -⟩⟩ :=
      preload_halted hR hF hN d hschema hplan hroots hlogged
    · simp only [sent, hrun, Attempt.failed]
    · simp only [sent, hrun, Attempt.done]
  obtain ⟨registry, next, hconform, hcases⟩ :=
    preload_halted hR hF hN d hschema hplan hroots hhalted
  refine ⟨hsent, ?_⟩
  rcases hcases with ⟨name, hname, hwanted, hleast, hrun, hcleared⟩ | ⟨hnone, hrun, hcleared⟩
  · rw [hrun]
    refine ⟨rfl, hconform, iff_of_true ⟨_, rfl⟩ ⟨name, hname, hwanted⟩, ?_, ?_⟩
    · intro e he
      cases he
      exact ⟨name, hname, hwanted, hleast, rfl, c.isCancelled_reason, hcleared⟩
    · intro hok
      cases hok
  · rw [hrun]
    refine ⟨rfl, hconform, iff_of_false ?_ ?_, ?_, fun _ => hcleared⟩
    · rintro ⟨e, he⟩
      cases he
    · rintro ⟨name, hname, hwanted⟩
      exact hnone name hname hwanted
    · intro e he
      cases he

end Family

/-! ### Authors after the deadline -/

namespace Registry

/-- A context whose deadline was at three. -/
def lateContext : Context := ⟨false, some 3⟩

/-- An executor that is asked at five, under a context whose deadline was at three. -/
def lateExecutor : Executor Nat := { bookExecutor with halted? := fun _ => lateContext.error? 5 }

theorem wanted_books : shelf.Wanted (shelfSchema .author) threeAuthors "books" := by
  refine ⟨booksStep.relation, Option.eq_some_of_isSome isSome_books, author (keyWord 7),
    List.mem_cons_self, ?_⟩
  decide +kernel

/-- One of the three authors has a key, so that the books fail, without a statement. -/
theorem preload_authors_late :
    shelf.sent lateExecutor .postgres .author booksHandlers
      ⟨ofConfig 0 .standard, threeAuthors, 0⟩ = [] ∧
    ∃ name, (shelf.preload lateExecutor .postgres .author booksHandlers
        ⟨ofConfig 0 .standard, threeAuthors, 0⟩).result =
      .error (.queryFailed name .deadlineExceeded) ∧
    List.Forall₂ (shelf.Cleared fun n => n ∈ Handler.firstNames booksHandlers ∧ n < name)
      threeAuthors (shelf.preload lateExecutor .postgres .author booksHandlers
        ⟨ofConfig 0 .standard, threeAuthors, 0⟩).state.roots := by
  obtain ⟨plan, hplan⟩ := exists_ok isSome_planFor_books
  have hdone : lateContext.Done 5 := Or.inr ⟨3, rfl, by decide⟩
  have hhalted : lateExecutor.halted? 0 = lateContext.error? 5 := rfl
  obtain ⟨hsent, -, -, hfails, herror, -⟩ := Family.preload_of_done_context (Reached.fresh 0)
    distinctNames_shelf filledNames_shelf lateExecutor .postgres (schemaFor_shelf .author) hplan
    threeAuthors_conform hdone hhalted
  have hbooks : "books" ∈ Handler.firstNames booksHandlers := by decide +kernel
  obtain ⟨e, he⟩ := hfails.mpr ⟨"books", hbooks, wanted_books⟩
  obtain ⟨name, -, -, -, rfl, -, hcleared⟩ := herror e he
  exact ⟨hsent, name, he, hcleared⟩

end Registry

end RecordGraph
