import RecordGraph.Proofs.Preload.Composing
import RecordGraph.Proofs.Record.Besides

/-!
# The options of one handler

A handler acts on the steps of its own path only. With other options for one path, the steps that
are neither at this path nor below it have owners with the same keys, send the same statements and
attach the same records.
-/

namespace RecordGraph

variable {M σ : Type}

/-! ### Changes beside a path -/

namespace Workshop

variable {W : Workshop M} {s t mid : Schema M} {done path : List String} {name : String}
  {r : Relation M} {x y : Record M} {xs ys os os' : List (Record M)}

theorem chain_of_prefix {names : List String} (h : W.Chain s names t) ( hprefix : done <+: names) :
    ∃ mid, W.Chain s done mid := by
  induction done generalizing s names with
  | nil => exact ⟨s, rfl⟩
  | cons m done ih =>
    obtain ⟨rest, rfl⟩ := hprefix
    obtain ⟨q, next, hq, hnext, h⟩ := h
    obtain ⟨mid, hmid⟩ := ih h (List.prefix_append done rest)
    exact ⟨mid, q, next, hq, hnext, hmid⟩

theorem locate_relation (hF : W.family.DistinctNames) (hs : W.direct s.model = .ok s)
    (hr : s.relation? name = some r) (hmid : W.direct r.target = .ok mid) :
    ∃ d, (W.family.model s.model).fields[r.index]? = some d ∧ d.name = name ∧ ¬ d.IsColumn ∧
      ∀ x : Record M, x.model = s.model → W.family.Conforms x → ∃ slot rs,
        W.family.locate x name = .ok (r.index, d, slot) ∧ slot.records? = some rs ∧
          W.family.AllConform mid.model rs := by
  obtain ⟨hmem, hname⟩ := Schema.relation?_cases hr
  obtain ⟨d, hd, hfield, htarget⟩ := (grounded_of_direct hs hmem).declared
  rw [owner_of_direct hs hmem] at hd
  rw [← model_of_direct hmid] at htarget
  refine ⟨d, hd, hfield.trans hname, ?_, fun x hx hconforms => ?_⟩
  · simp only [FieldDecl.IsColumn, htarget]
    exact Option.some_ne_none _
  · obtain ⟨slot, hlocate, -, hsuits⟩ := hconforms.locate hF (hx.symm ▸ hd)
    obtain ⟨rs, hrs, hall⟩ := hsuits.records htarget
    rw [hfield, hname] at hlocate
    exact ⟨slot, rs, hlocate, hrs, hall⟩

/-- What a step attaches at the end of a path or below it is not seen beside the path. -/
theorem beside_mapAt (hF : W.family.DistinctNames) (hs : W.direct s.model = .ok s)
    (h : W.Chain s done t) (hr : t.relation? name = some r) (hmid : W.direct r.target = .ok mid)
    (hpath : path <+: done ++ [name]) (hx : x.model = s.model) (hxc : W.family.Conforms x)
    (fetched : List (Family.Fetched M)) :
    W.family.Beside path x (W.family.mapAt (W.family.attached r fetched) done x) := by
  induction done generalizing s path x with
  | nil =>
    cases h
    cases path with
    | nil => trivial
    | cons first rest =>
      obtain ⟨rfl, hrest⟩ := List.cons_prefix_cons.mp hpath
      obtain ⟨d, -, hname, hcolumn, hlocate⟩ := locate_relation hF hs hr hmid
      obtain ⟨slot, rs, hx, -, -⟩ := hlocate x hx hxc
      exact Family.Beside.setSlot_self hcolumn hx hname fun hne =>
        absurd (List.prefix_nil.mp hrest) hne
  | cons m done ih =>
    obtain ⟨q, next, hq, hnext, h⟩ := h
    cases path with
    | nil => trivial
    | cons first rest =>
      obtain ⟨rfl, hrest⟩ := List.cons_prefix_cons.mp hpath
      obtain ⟨d, -, hname, hcolumn, hlocate⟩ := locate_relation hF hs hq hnext
      obtain ⟨slot, rs, hx, hrs, hall⟩ := hlocate x hx hxc
      simp only [Family.mapAt, hx]
      refine Family.Beside.setSlot_self hcolumn hx hname fun _ => ?_
      rw [Slot.records?_mapRecords, hrs, Option.map_some]
      refine .some (List.forall₂_map_right_iff.mpr (List.forall₂_same.mpr fun c hc => ?_))
      exact ih (direct_model hnext) h hrest (hall c hc).1 (hall c hc).2

theorem Placed.beside_attached {root owner : Schema M} {step : Step M}
    (hF : W.family.DistinctNames) (hstep : W.Placed root step done owner name)
    (hroot : W.direct root.model = .ok root) (hpath : path <+: step.names)
    (hxs : W.family.AllConform root.model xs) (fetched : List (Family.Fetched M)) :
    List.Forall₂ (W.family.Beside path) xs
      (xs.map (W.family.mapAt (W.family.attached step.relation fetched) done)) := by
  refine List.forall₂_map_right_iff.mpr (List.forall₂_same.mpr fun x hx => ?_)
  obtain ⟨hm, hc⟩ := hxs x hx
  exact beside_mapAt hF hroot hstep.chain hstep.relation hstep.target (hstep.names_eq ▸ hpath) hm hc
    fetched

theorem beside_mapAt_mapAt (hF : W.family.DistinctNames) (hs : W.direct s.model = .ok s)
    (h : W.Chain s done t) (hr : t.relation? name = some r) (hmid : W.direct r.target = .ok mid)
    (hpath : ¬ path <+: done ++ [name]) (hx : x.model = s.model) (hxc : W.family.Conforms x)
    (hy : y.model = s.model) (hyc : W.family.Conforms y) (hxy : W.family.Beside path x y)
    (fetched : List (Family.Fetched M)) :
    W.family.Beside path (W.family.mapAt (W.family.attached r fetched) done x)
      (W.family.mapAt (W.family.attached r fetched) done y) := by
  induction done generalizing s path x y with
  | nil =>
    cases h
    cases path with
    | nil => trivial
    | cons first rest =>
      have hmem := (Schema.relation?_cases hr).1
      have howner : x.model = r.owner := hx.trans (owner_of_direct hs hmem).symm
      obtain ⟨d, hd, hname, hcolumn, hlocate⟩ := locate_relation hF hs hr hmid
      have hmatched := hxy.1.matched_eq hF (grounded_of_direct hs hmem) (fun d hd => Or.inl hd)
        howner fetched
      simp only [Family.mapAt, Family.attached, ← hmatched]
      by_cases hfirst : name = first
      · subst hfirst
        obtain ⟨slot, -, hx, -, -⟩ := hlocate x hx hxc
        obtain ⟨slot', -, hy, -, -⟩ := hlocate y hy hyc
        refine Family.Beside.setSlot hxy.1 hcolumn hx hy hname fun _ => ?_
        cases (Family.slotOf r (W.family.matched r fetched x)).records? with
        | none => exact .none
        | some rs => exact .some (List.forall₂_same.mpr fun c _ => Family.Beside.refl _ rest c)
      · exact hxy.setSlot_ne hxc hyc (hx.symm ▸ hd) (fun he => hfirst (hname.symm.trans he)) _
  | cons m done ih =>
    obtain ⟨q, next, hq, hnext, h⟩ := h
    cases path with
    | nil => trivial
    | cons first rest =>
      obtain ⟨d, hd, hname, hcolumn, hlocate⟩ := locate_relation hF hs hq hnext
      obtain ⟨slot, rs, hxl, hrs, hall⟩ := hlocate x hx hxc
      obtain ⟨slot', rs', hyl, hrs', hall'⟩ := hlocate y hy hyc
      simp only [Family.mapAt, hxl, hyl]
      by_cases hfirst : m = first
      · subst hfirst
        have hbelow : ¬ rest <+: done ++ [name] := fun hrest =>
          hpath (List.cons_prefix_cons.mpr ⟨rfl, hrest⟩)
        refine Family.Beside.setSlot hxy.1 hcolumn hxl hyl hname fun hne => ?_
        have hchildren := hxy.2 hne
        rw [Family.toOption_children hxl, Family.toOption_children hyl, hrs, hrs'] at hchildren
        rw [Slot.records?_mapRecords, Slot.records?_mapRecords, hrs, hrs', Option.map_some,
          Option.map_some]
        cases hchildren with
        | some hpairs =>
          exact .some (hall.forall₂_map hall' hpairs fun a b ha hac hb hbc hab =>
            ih (direct_model hnext) h hbelow ha hac hb hbc hab)
      · have hsame := hxy.1.locate_eq hF (hx.symm ▸ hd)
          (Or.inr fun he => hfirst (hname.symm.trans he))
        rw [hname, hxl, hyl] at hsame
        cases hsame
        exact hxy.setSlot_ne hxc hyc (hx.symm ▸ hd) (fun he => hfirst (hname.symm.trans he)) _

/-- From records that are equal beside a path, a way that ends before the path does leads to records
that are equal beside the rest of it, and a way that leaves the path leads to equal records. -/
theorem reach_beside (hF : W.family.DistinctNames) (hs : W.direct s.model = .ok s)
    (h : W.Chain s done t) (hxs : W.family.AllConform s.model xs)
    (hys : W.family.AllConform s.model ys) (hxy : List.Forall₂ (W.family.Beside path) xs ys)
    (hpath : ¬ path <+: done) (hos : W.family.reach done xs = .ok os)
    (hos' : W.family.reach done ys = .ok os') :
    (∃ rest, path = done ++ rest ∧ rest ≠ [] ∧ List.Forall₂ (W.family.Beside rest) os os') ∨
      (¬ done <+: path ∧ os = os') := by
  induction done generalizing s path xs ys with
  | nil =>
    cases hos
    cases hos'
    exact Or.inl ⟨path, rfl, fun hnil => hpath (hnil ▸ List.nil_prefix), hxy⟩
  | cons m done ih =>
    cases path with
    | nil => exact absurd List.nil_prefix hpath
    | cons first rest =>
      obtain ⟨q, next, hq, hnext, h⟩ := h
      obtain ⟨below, hbelow, hos⟩ := Family.reach_cons_name.mp hos
      obtain ⟨below', hbelow', hos'⟩ := Family.reach_cons_name.mp hos'
      by_cases hfirst : m = first
      · subst hfirst
        have hrest : ¬ rest <+: done := fun hrest =>
          hpath (List.cons_prefix_cons.mpr ⟨rfl, hrest⟩)
        have hone : W.Chain s [m] next := ⟨q, next, hq, hnext, rfl⟩
        have conform : ∀ {zs zs' : List (Record M)}, W.family.AllConform s.model zs →
            W.family.follow m zs = .ok zs' → W.family.AllConform next.model zs' := by
          intro zs zs' hzs hfollow
          obtain ⟨_, hreach, hall⟩ := reach_of_chain hF hs hone hzs
          obtain ⟨_, hfollow', hreach⟩ := Family.reach_cons_name.mp hreach
          cases hfollow.symm.trans hfollow'
          cases hreach
          exact hall
        have hpairs := Family.follow_beside hxy
          (fun hnil => hrest (hnil ▸ List.nil_prefix)) hbelow hbelow'
        rcases ih (direct_model hnext) h (conform hxs hbelow) (conform hys hbelow') hpairs hrest
          hos hos' with ⟨more, hmore, hne, hall⟩ | ⟨hnot, hsame⟩
        · exact Or.inl ⟨more, by rw [hmore]; rfl, hne, hall⟩
        · exact Or.inr ⟨fun hprefix => hnot (List.cons_prefix_cons.mp hprefix).2, hsame⟩
      · obtain ⟨d, hd, hname, -, -⟩ := locate_relation hF hs hq hnext
        have hfollow := Family.follow_eq_of_alike (p := fun d => d.IsColumn ∨ d.name ≠ first) hF hd
          (Or.inr fun he => hfirst (hname.symm.trans he)) (hxy.imp fun _ _ h => h.1)
          fun x hx => (hxs x hx).1
        rw [hname, hbelow, hbelow'] at hfollow
        cases hfollow
        refine Or.inr ⟨fun hprefix => hfirst (List.cons_prefix_cons.mp hprefix).1, ?_⟩
        exact Except.ok.inj (hos.symm.trans hos')

theorem Placed.ownerKeys_beside {root owner : Schema M} {step : Step M}
    (hF : W.family.DistinctNames) (hstep : W.Placed root step done owner name)
    (hroot : W.direct root.model = .ok root) (hxs : W.family.AllConform root.model xs)
    (hys : W.family.AllConform root.model ys) (hxy : List.Forall₂ (W.family.Beside path) xs ys)
    (hpath : ¬ path <+: step.names) (hos : W.family.reach done xs = .ok os)
    (hos' : W.family.reach done ys = .ok os') :
    W.family.ownerKeys step.relation os = W.family.ownerKeys step.relation os' := by
  have hdone : ¬ path <+: done := by
    intro h
    rw [hstep.names_eq] at hpath
    exact hpath (h.trans (List.prefix_append done [name]))
  rcases reach_beside hF hroot hstep.chain hxs hys hxy hdone hos hos' with
    ⟨rest, -, hne, hall⟩ | ⟨-, rfl⟩
  · obtain ⟨_, hreach, hconform⟩ := reach_of_chain hF hroot hstep.chain hxs
    cases hos.symm.trans hreach
    refine Family.ownerKeys_eq_of_alike hF (hstep.follows hroot).grounded
      (hall.imp fun _ _ h => h.columns hne) (fun _ hd => hd) fun x hx => ?_
    rw [hstep.owner_model hroot]
    exact (hconform x hx).1
  · rfl

end Workshop

/-! ### Plans with other handlers -/

namespace Step

/-- The step with the handler that other handlers have for it. -/
def reassign (handlers : List Handler) (s : Step M) : Step M :=
  { s with handler := handlers.find? fun g => g.names = s.names }

end Step

namespace Plan

variable {W : Workshop M} {root : Schema M} {handlers more : List Handler} {p : Plan M}

theorem Serves.reassign (h : Serves W root handlers [] p)
    (hnames : more.map Handler.names = handlers.map Handler.names) :
    Serves W root more [] (p.map (Step.reassign more)) := by
  have hmap : (p.map (Step.reassign more)).map Step.names = p.map Step.names := by
    rw [List.map_map]
    rfl
  have hasked : ∀ names : List String, (∃ g ∈ more, names <+: g.names) ↔
      ∃ g ∈ handlers, names <+: g.names := by
    intro names
    have hmem : (∃ l ∈ more.map Handler.names, names <+: l) ↔
        ∃ l ∈ handlers.map Handler.names, names <+: l := by rw [hnames]
    simpa only [List.mem_map, exists_exists_and_eq_and] using hmem
  refine ⟨fun s hs => ?_, fun s hs => ?_, List.pairwise_map.mpr h.sorted, fun names => ?_,
    fun s hs => ?_⟩
  · obtain ⟨t, ht, rfl⟩ := List.mem_map.mp hs
    obtain ⟨done, owner, name, hplaced⟩ := h.placed t ht
    exact ⟨done, owner, name, hplaced.names_eq, hplaced.chain, hplaced.relation, hplaced.target⟩
  · obtain ⟨t, ht, rfl⟩ := List.mem_map.mp hs
    exact h.named t ht
  · rw [hmap, hasked]
    exact h.asked names
  · obtain ⟨t, -, rfl⟩ := List.mem_map.mp hs
    rfl

theorem Serves.reassign_eq {before after : List Handler} {g h : Handler}
    (hserves : Serves W root (before ++ g :: after) [] p) {s : Step M} (hs : s ∈ p)
    (hg : ¬ g.names <+: s.names) (hh : ¬ h.names <+: s.names) :
    s.reassign (before ++ h :: after) = s := by
  have apart : ∀ {f : Handler}, ¬ f.names <+: s.names → ¬ decide (f.names = s.names) = true := by
    intro f hf he
    rw [decide_eq_true_eq] at he
    exact hf (he ▸ List.prefix_rfl)
  have hskip : (g :: after).find? (fun f => f.names = s.names) =
      after.find? fun f => f.names = s.names := List.find?_cons_of_neg (apart hg)
  have hskip' : (h :: after).find? (fun f => f.names = s.names) =
      after.find? fun f => f.names = s.names := List.find?_cons_of_neg (apart hh)
  have hfind : s.handler =
      (before ++ h :: after).find? fun f => f.names = s.names := by
    rw [hserves.handler_eq s hs, List.find?_append, List.find?_append, hskip, hskip']
  simp only [Step.reassign, ← hfind]

end Plan

namespace Family

/-! ### Runs with other handlers -/

/-- The statements that are sent beside a path, with the names of their steps. -/
def entriesBeside (F : Family M) (d : Dialect) (path : List String) (issued : List (Request M)) :
    List (List String × Statement) :=
  (issued.map (Request.entry F d)).filter fun e => !path.isPrefixOf e.1

section

variable {F : Family M} {E : Executor σ} {d : Dialect} {path : List String} {s : Step M}
  {roots : List (Record M)} {state : σ}

theorem entriesBeside_append (xs ys : List (Request M)) :
    F.entriesBeside d path (xs ++ ys) = F.entriesBeside d path xs ++ F.entriesBeside d path ys := by
  simp only [entriesBeside, List.map_append, List.filter_append]

theorem entriesBeside_requestsOf (h : path <+: s.names) :
    F.entriesBeside d path (F.requestsOf E s roots state) = [] := by
  rw [entriesBeside, List.filter_eq_nil_iff]
  intro e he
  obtain ⟨q, hq, rfl⟩ := List.mem_map.mp he
  have hprefix : path.isPrefixOf q.step.names = true := by
    rw [(step_of_mem_requestsOf hq).1]
    exact List.isPrefixOf_iff_prefix.mpr h
  simp only [Request.entry, hprefix, Bool.not_true]
  exact Bool.false_ne_true

end

variable [DecidableEq M] {W : Workshop M} {root : Schema M} {E : Executor σ} {P : σ → Prop}
  {d : Dialect} {plan : Plan M} {path : List String} {more : List Handler}
  {roots roots' final final' : List (Record M)} {state state' next next' : σ}

/-- Two runs of a plan with different handlers at or below a path send the same and attach the same
beside the path. -/
theorem runPlan_reassign (hF : W.family.DistinctNames) (hN : W.family.FilledNames)
    (hroot : W.direct root.model = .ok root) (hE : E.Steady P)
    (hplaced : ∀ s ∈ plan, ∃ done owner name, W.Placed root s done owner name)
    (hnamed : ∀ s ∈ plan, s.Named)
    (hother : ∀ s ∈ plan, ¬ path <+: s.names → s.reassign more = s)
    (hroots : W.family.AllConform root.model roots)
    (hroots' : W.family.AllConform root.model roots')
    (h : List.Forall₂ (W.family.Beside path) roots roots') (hs : P state) (hs' : P state')
    (hrun : W.family.runPlan E d plan roots state = .done (final, next) ())
    (hrun' : W.family.runPlan E d (plan.map (Step.reassign more)) roots' state' =
      .done (final', next') ()) :
    W.family.AllConform root.model final ∧ W.family.AllConform root.model final' ∧
      List.Forall₂ (W.family.Beside path) final final' ∧
      W.family.entriesBeside d path (W.family.requests E d plan roots state) =
        W.family.entriesBeside d path
          (W.family.requests E d (plan.map (Step.reassign more)) roots' state') := by
  induction plan generalizing roots roots' state state' with
  | nil =>
    cases hrun
    cases hrun'
    exact ⟨hroots, hroots', h, rfl⟩
  | cons s plan ih =>
    obtain ⟨done, owner, name, hstep⟩ := hplaced s List.mem_cons_self
    have hsnamed := hnamed s List.mem_cons_self
    have hplaced' := fun t ht => hplaced t (List.mem_cons_of_mem s ht)
    have hnamed' := fun t ht => hnamed t (List.mem_cons_of_mem s ht)
    have hother' := fun t ht => hother t (List.mem_cons_of_mem s ht)
    have hmap : (s :: plan).map (Step.reassign more) =
        s.reassign more :: plan.map (Step.reassign more) := rfl
    rw [hmap] at hrun' ⊢
    by_cases hpath : path <+: s.names
    · have hchanged : W.Placed root (s.reassign more) done owner name :=
        ⟨hstep.names_eq, hstep.chain, hstep.relation, hstep.target⟩
      have hchangedPath : path <+: (s.reassign more).names := hpath
      obtain ⟨fetched, mid, hmid, hconform, hp, hrun⟩ :=
        runStep_of_done hF hN hroot hE hstep hsnamed hroots hs hrun
      obtain ⟨fetched', mid', hmid', hconform', hp', hrun'⟩ :=
        runStep_of_done hF hN hroot hE hchanged hsnamed hroots' hs' hrun'
      have hleft := hstep.beside_attached hF hroot hpath hroots fetched
      have hright := hchanged.beside_attached hF hroot hchangedPath hroots' fetched'
      have hnext := forall₂_trans Beside.trans (hleft.flip.imp fun _ _ hxy => hxy.symm)
        (forall₂_trans Beside.trans h hright)
      obtain ⟨hfinal, hfinal', hall, hrest⟩ :=
        ih hplaced' hnamed' hother' hconform hconform' hnext hp hp' hrun hrun'
      refine ⟨hfinal, hfinal', hall, ?_⟩
      rw [requests_of_done hmid, requests_of_done hmid', entriesBeside_append,
        entriesBeside_append, entriesBeside_requestsOf hpath, entriesBeside_requestsOf hchangedPath,
        hrest]
    · have hsame := hother s List.mem_cons_self hpath
      rw [hsame] at hrun' ⊢
      have hkeys : ∀ owners owners', W.family.reach done roots = .ok owners →
          W.family.reach done roots' = .ok owners' →
            W.family.ownerKeys s.relation owners = W.family.ownerKeys s.relation owners' :=
        fun _ _ ho ho' => hstep.ownerKeys_beside hF hroot hroots hroots' h hpath ho ho'
      have hsent := requestsOf_same_keys (d := d) hF hN hstep hroot hsnamed hroots hroots' hkeys
        ((hE.live state hs).trans (hE.live state' hs').symm)
      rcases runStep_same_keys (d := d) hF hN hstep hroot hsnamed hroots hroots' hkeys hE.mirrors
        ⟨hs, hs'⟩ with ⟨fetched, mid, mid', hmid, hmid', hconform, hconform', hp, hp'⟩ |
          ⟨e, mid, mid', hmid, -⟩
      · rw [runPlan_of_done hmid] at hrun
        rw [runPlan_of_done hmid'] at hrun'
        have hnext := hroots.forall₂_map hroots' h fun x y hx hxc hy hyc hxy =>
          Workshop.beside_mapAt_mapAt hF hroot hstep.chain hstep.relation hstep.target
            (hstep.names_eq ▸ hpath) hx hxc hy hyc hxy fetched
        obtain ⟨hfinal, hfinal', hall, hrest⟩ :=
          ih hplaced' hnamed' hother' hconform hconform' hnext hp hp' hrun hrun'
        refine ⟨hfinal, hfinal', hall, ?_⟩
        rw [requests_of_done hmid, requests_of_done hmid', entriesBeside_append,
          entriesBeside_append, hrest]
        simp only [entriesBeside, hsent]
      · rw [runPlan_of_failed hmid] at hrun
        cases hrun

variable {F : Family M} {config : Config} {R R' : Registry M} {model : M}

/-- The options of a handler act at or below its own path only. Two preloads whose handlers differ
in the options of one path, and which both go well, send the same statements for the same steps
beside the path, and the roots are equal afterwards apart from what lies at or below the path: the
records at other paths are equal, or, where the path goes on from them, equal beside the rest. -/
theorem preload_options_act_below (hR : R.Reached F config) (hR' : R'.Reached F config)
    (hF : F.DistinctNames) (hN : F.FilledNames) (hE : E.Steady P) (d : Dialect)
    {before after : List Handler} {g h : Handler} (hgh : h.path = g.path)
    (hroots : F.AllConform model roots) (hs : P state) (hs' : P state')
    (hok : (F.preload E d model (before ++ g :: after) ⟨R, roots, state⟩).result = .ok ())
    (hok' : (F.preload E d model (before ++ h :: after) ⟨R', roots, state'⟩).result = .ok ()) :
    F.sent E d model (before ++ g :: after) ⟨R, roots, state⟩ =
      (F.requested E d model (before ++ g :: after) ⟨R, roots, state⟩).map
        (Request.statement F d) ∧
    F.sent E d model (before ++ h :: after) ⟨R', roots, state'⟩ =
      (F.requested E d model (before ++ h :: after) ⟨R', roots, state'⟩).map
        (Request.statement F d) ∧
    F.entriesBeside d g.names (F.requested E d model (before ++ g :: after) ⟨R, roots, state⟩) =
      F.entriesBeside d g.names
        (F.requested E d model (before ++ h :: after) ⟨R', roots, state'⟩) ∧
    List.Forall₂ (F.Beside g.names)
      (F.preload E d model (before ++ g :: after) ⟨R, roots, state⟩).state.roots
      (F.preload E d model (before ++ h :: after) ⟨R', roots, state'⟩).state.roots ∧
    ∀ f ∈ before ++ g :: after, ∀ names, names <+: f.names → ¬ g.names <+: names →
      ∃ leaves leaves',
        F.reach names
          (F.preload E d model (before ++ g :: after) ⟨R, roots, state⟩).state.roots =
            .ok leaves ∧
        F.reach names
          (F.preload E d model (before ++ h :: after) ⟨R', roots, state'⟩).state.roots =
            .ok leaves' ∧
        ((∃ rest, g.names = names ++ rest ∧ rest ≠ [] ∧
          List.Forall₂ (F.Beside rest) leaves leaves') ∨
            (¬ names <+: g.names ∧ leaves = leaves')) := by
  have hfaithful := hR.faithful
  have hfaithful' := hR'.faithful
  obtain ⟨root, p, next, rfl, hroot, hserves, hp, hrun⟩ := runPlan_of_preload hfaithful hok
  obtain ⟨-, p', next', -, -, -, hp', hrun'⟩ := runPlan_of_preload hfaithful' hok'
  have hnames : h.names = g.names := congrArg Text.segments hgh
  have hlist : (before ++ h :: after).map Handler.names =
      (before ++ g :: after).map Handler.names := by
    simp only [List.map_append, List.map_cons, hnames]
  have hplan := hfaithful'.planFor_of_serves hroot (hserves.reassign hlist)
  cases hp'.symm.trans hplan
  have hother : ∀ s ∈ p, ¬ g.names <+: s.names → s.reassign (before ++ h :: after) = s :=
    fun s hs hpath => hserves.reassign_eq hs hpath (hnames ▸ hpath)
  obtain ⟨hfinal, hfinal', hbeside, hentries⟩ :=
    runPlan_reassign (W := Workshop.ofConfig F config) hF hN hroot.direct hE hserves.placed
      hserves.named hother hroots hroots
      (List.forall₂_same.mpr fun x _ => Beside.refl F g.names x) hs hs' hrun hrun'
  refine ⟨sent_eq hfaithful _ _ _ _, sent_eq hfaithful' _ _ _ _, ?_, hbeside,
    fun f hf names hprefix hpath => ?_⟩
  · simp only [requested, hp, hp']
    exact hentries
  · obtain ⟨s, hs, hsnames⟩ := List.mem_map.mp (hserves.mem_of_names hf)
    obtain ⟨done, owner, name, hplaced⟩ := hserves.placed s hs
    have hchain := Workshop.chain_concat hplaced.chain hplaced.relation hplaced.target
    rw [← hplaced.names_eq, hsnames] at hchain
    obtain ⟨mid, hmid⟩ := Workshop.chain_of_prefix hchain hprefix
    obtain ⟨leaves, hleaves, -⟩ := Workshop.reach_of_chain hF hroot.direct hmid hfinal
    obtain ⟨leaves', hleaves', -⟩ := Workshop.reach_of_chain hF hroot.direct hmid hfinal'
    exact ⟨leaves, leaves', hleaves, hleaves', Workshop.reach_beside hF hroot.direct hmid hfinal
      hfinal' hbeside hpath hleaves hleaves'⟩

end Family

/-! ### Deleted items -/

namespace Registry

theorem preload_unscoped_ok : (shop.preload shopExecutor .postgres .order
    ([] ++ ⟨"items", true, none⟩ :: [.ofPath "customer.orders"])
    ⟨ofConfig 0 .standard, twoOrders, 0⟩).result = .ok () := by
  decide +kernel

/-- With the deleted items the orders have the same customers, and only other items. -/
theorem preload_unscoped_acts_below :
    shop.entriesBeside .postgres (Handler.ofPath "items").names
      (shop.requested shopExecutor .postgres .order
        ([] ++ .ofPath "items" :: [.ofPath "customer.orders"])
        ⟨ofConfig 0 .standard, twoOrders, 0⟩) =
      shop.entriesBeside .postgres (Handler.ofPath "items").names
        (shop.requested shopExecutor .postgres .order
          ([] ++ ⟨"items", true, none⟩ :: [.ofPath "customer.orders"])
          ⟨ofConfig 0 .standard, twoOrders, 0⟩) ∧
    List.Forall₂ (shop.Beside (Handler.ofPath "items").names)
      (shop.preload shopExecutor .postgres .order
        ([] ++ .ofPath "items" :: [.ofPath "customer.orders"])
        ⟨ofConfig 0 .standard, twoOrders, 0⟩).state.roots
      (shop.preload shopExecutor .postgres .order
        ([] ++ ⟨"items", true, none⟩ :: [.ofPath "customer.orders"])
        ⟨ofConfig 0 .standard, twoOrders, 0⟩).state.roots := by
  have hpath : Handler.path ⟨"items", true, none⟩ = Handler.path (.ofPath "items") := rfl
  have hlist : [] ++ Handler.ofPath "items" :: [.ofPath "customer.orders"] =
      [.ofPath "items"] ++ [.ofPath "customer.orders"] := rfl
  have hscoped : (shop.preload shopExecutor .postgres .order
      ([] ++ .ofPath "items" :: [.ofPath "customer.orders"])
      ⟨ofConfig 0 .standard, twoOrders, 0⟩).result = .ok () := by
    rw [hlist]
    exact preload_shop_ok
  obtain ⟨-, -, hentries, hbeside, -⟩ := Family.preload_options_act_below (Reached.fresh 0)
    (Reached.fresh 0) distinctNames_shop filledNames_shop shopExecutor_steady .postgres hpath
    twoOrders_conform trivial trivial hscoped preload_unscoped_ok
  exact ⟨hentries, hbeside⟩

end Registry

end RecordGraph
