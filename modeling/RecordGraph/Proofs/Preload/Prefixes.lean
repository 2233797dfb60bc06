import Mathlib.Data.List.Find
import Mathlib.Data.List.Sort
import RecordGraph.Preload.Run
import RecordGraph.Proofs.Preload.Planning

/-!
# A plan is the prefix closure of its paths

The steps of a plan are the beginnings of the paths of the handlers and nothing else, and what a
step holds can be read off from its names alone. So a plan depends on its handlers as a set, except
for which handler comes first on a path. A plan fails at the first name that no relation has.
-/

namespace RecordGraph

variable {M : Type}

/-! ### Schemas whose targets are answered -/

namespace Workshop

/-- The schema is the direct one of its model, and so are the schemas of all models it leads to. -/
structure Finished (W : Workshop M) (s : Schema M) : Prop where
  direct : W.direct s.model = .ok s
  complete : W.Complete s.model

variable {W : Workshop M} {s t : Schema M} {r : Relation M} {name : String} {names : List String}

theorem finished_of_direct {m : M} (h : W.direct m = .ok s) (hm : W.Complete m) : W.Finished s := by
  have hmodel : s.model = m := model_of_direct h
  rw [← hmodel] at h hm
  exact ⟨h, hm⟩

theorem Finished.complete_target (h : W.Finished s) (hr : s.relation? name = some r) :
    W.Complete r.target :=
  h.complete.of_leads (leads_target h.direct (Schema.relation?_cases hr).1)

theorem Finished.of_chain (h : W.Finished s) (ht : W.Chain s names t) : W.Finished t := by
  induction names generalizing s with
  | nil =>
    cases ht
    exact h
  | cons name names ih =>
    obtain ⟨r, mid, hr, hmid, ht⟩ := ht
    exact ih (finished_of_direct hmid (h.complete_target hr)) ht

end Workshop

namespace Registry

variable [DecidableEq M] {F : Family M} {config : Config} {R S : Registry M} {s t : Schema M}
  {r : Relation M} {name : String} {names : List String}

theorem Faithful.finished (hR : R.Faithful F config) {m : M}
    (h : (R.schemaFor F m).result = .ok s) : (Workshop.ofConfig F config).Finished s := by
  obtain ⟨hdirect, hcomplete⟩ := hR.result_ok h
  exact Workshop.finished_of_direct hdirect hcomplete

theorem Faithful.result_eq (hR : R.Faithful F config) (hS : S.Faithful F config) (m : M) :
    (R.schemaFor F m).result = (S.schemaFor F m).result := by
  obtain ⟨a, ha, hra⟩ := schemaFor_run hR m
  obtain ⟨b, hb, hrb⟩ := schemaFor_run hS m
  have hover : S.workshop F = (R.workshop F).withCache (S.workshop F).cache := by
    rw [workshop_eq hS, workshop_eq hR]
    rfl
  have hstocked := hS.workshop_stocked
  rw [hover] at hb hstocked
  obtain ⟨a', b', ha', hb', he⟩ := Workshop.run_result_withCache hR.workshop_stocked hstocked m
  cases ha.symm.trans ha'
  cases hb.symm.trans hb'
  rw [hra, hrb, he]

theorem Faithful.target_answered (hR : R.Faithful F config)
    (hs : (Workshop.ofConfig F config).Finished s) (hr : s.relation? name = some r) :
    ∃ t, (R.schemaFor F r.target).result = .ok t ∧
      (Workshop.ofConfig F config).direct r.target = .ok t ∧
      (Workshop.ofConfig F config).Finished t := by
  have hcomplete := hs.complete_target hr
  obtain ⟨t, ht, hdirect⟩ := hR.result_of_complete hcomplete
  exact ⟨t, ht, hdirect, Workshop.finished_of_direct hdirect hcomplete⟩

/-! ### Following names -/

/-- The schema that names lead to along relations, with the targets that the registry answers. -/
def follow? (F : Family M) (R : Registry M) : Schema M → List String → Option (Schema M)
  | s, [] => some s
  | s, name :: names =>
    match s.relation? name with
    | none => none
    | some r =>
      match (R.schemaFor F r.target).result with
      | .error _ => none
      | .ok t => follow? F R t names

theorem chain_iff_follow? (hR : R.Faithful F config)
    (hs : (Workshop.ofConfig F config).Finished s) :
    (Workshop.ofConfig F config).Chain s names t ↔ R.follow? F s names = some t := by
  induction names generalizing s with
  | nil => exact Option.some_inj.symm
  | cons name names ih =>
    cases hr : s.relation? name with
    | none => simp [Workshop.Chain, follow?, hr]
    | some r =>
      obtain ⟨u, hu, hdirect, hfinished⟩ := hR.target_answered hs hr
      simp only [follow?, hr, hu]
      rw [← ih hfinished]
      constructor
      · rintro ⟨q, mid, hq, hmid, h⟩
        cases hr.symm.trans hq
        cases hdirect.symm.trans hmid
        exact h
      · intro h
        exact ⟨r, u, hr, hdirect, h⟩

/-- Every name is that of a relation of the schema that the names before it lead to. -/
def Follows (F : Family M) (R : Registry M) (s : Schema M) (names : List String) : Prop :=
  ∀ before name after, names = before ++ name :: after →
    ∃ owner, R.follow? F s before = some owner ∧ (owner.relation? name).isSome

theorem follows_iff (hR : R.Faithful F config) (hs : (Workshop.ofConfig F config).Finished s) :
    R.Follows F s names ↔ ∃ t, (Workshop.ofConfig F config).Chain s names t := by
  induction names generalizing s with
  | nil =>
    constructor
    · intro _
      exact ⟨s, rfl⟩
    · intro _ before name after h
      simp at h
  | cons first names ih =>
    constructor
    · intro h
      obtain ⟨owner, howner, hfirst⟩ := h [] first names rfl
      cases howner
      obtain ⟨r, hr⟩ := Option.isSome_iff_exists.mp hfirst
      obtain ⟨u, hu, hdirect, hfinished⟩ := hR.target_answered hs hr
      obtain ⟨t, ht⟩ := (ih hfinished).mp fun before name after hsplit => by
        have hmore := h (first :: before) name after (by rw [hsplit]; rfl)
        simp only [follow?, hr, hu] at hmore
        exact hmore
      exact ⟨t, r, u, hr, hdirect, ht⟩
    · rintro ⟨t, r, u, hr, hdirect, ht⟩
      obtain ⟨v, hv, hv', hfinished⟩ := hR.target_answered hs hr
      cases hdirect.symm.trans hv'
      have hmore : R.Follows F u names := (ih hfinished).mpr ⟨t, ht⟩
      intro before name after hsplit
      cases before with
      | nil =>
        obtain ⟨rfl, -⟩ := List.cons.inj hsplit
        exact ⟨s, rfl, by rw [hr]; rfl⟩
      | cons other before =>
        obtain ⟨rfl, hrest⟩ := List.cons.inj hsplit
        obtain ⟨owner, howner, hname⟩ := hmore before name after hrest
        exact ⟨owner, by simp only [follow?, hr, hv, howner], hname⟩

end Registry

/-! ### What a plan holds for every path -/

namespace Plan

variable [DecidableEq M]

/-- The plan has one step for every beginning of a path, owners before what is below them. A step
holds what its names lead to, and the first handler of exactly its path. -/
structure Covers (F : Family M) (R : Registry M) (root : Schema M) (handlers : List Handler)
    (p : Plan M) : Prop where
  asked : ∀ names, names ∈ p.map Step.names ↔ names ≠ [] ∧ ∃ h ∈ handlers, names <+: h.names
  once : (p.map Step.names).Nodup
  sorted : p.Pairwise fun s t => s.depth < t.depth ∨ (s.depth = t.depth ∧ s.path < t.path)
  parents : ∀ before s after, p = before ++ s :: after → s.names.dropLast ≠ [] →
    s.names.dropLast ∈ before.map Step.names
  follows : ∀ s ∈ p, ∃ done owner name, s.names = done ++ [name] ∧
    R.follow? F root done = some owner ∧ owner.relation? name = some s.relation ∧
    (R.schemaFor F s.relation.target).result = .ok s.target
  handler_eq : ∀ s ∈ p, s.handler = handlers.find? fun h => h.path = s.path

variable {F : Family M} {config : Config} {R S : Registry M} {root owner : Schema M}
  {handlers more : List Handler} {p q : Plan M} {g : Handler} {done rest : List String} {e : Error}

theorem Serves.covers (hR : R.Faithful F config)
    (hroot : (Workshop.ofConfig F config).Finished root)
    (h : Serves (Workshop.ofConfig F config) root handlers [] p) : Covers F R root handlers p := by
  refine ⟨fun names => ?_, ?_, ?_, ?_, fun s hs => ?_, fun s hs => ?_⟩
  · rw [h.asked]
    constructor
    · rintro ⟨hne, hnil | hasked⟩
      · exact absurd (List.prefix_nil.mp hnil) hne
      · exact ⟨hne, hasked⟩
    · rintro ⟨hne, hasked⟩
      exact ⟨hne, Or.inr hasked⟩
  · exact List.pairwise_map.mpr (h.sorted.imp fun hbefore => Step.names_ne_of_before hbefore)
  · exact h.sorted.imp fun hbefore => Step.before_iff.mp hbefore
  · intro before s after hp hne
    have hs : s ∈ p := by
      rw [hp]
      exact List.mem_append_right before List.mem_cons_self
    have hlength : s.names.dropLast.length ≠ s.names.length := by
      have hpos := List.length_pos_iff.mpr (h.named s hs).1
      rw [List.length_dropLast]
      omega
    exact h.mem_before hp hne (List.dropLast_prefix s.names) fun he =>
      hlength (congrArg List.length he)
  · obtain ⟨done, owner, name, hplaced⟩ := h.placed s hs
    have howner := hroot.of_chain hplaced.chain
    obtain ⟨t, ht, hdirect, -⟩ := hR.target_answered howner hplaced.relation
    cases hdirect.symm.trans hplaced.target
    exact ⟨done, owner, name, hplaced.names_eq,
      (Registry.chain_iff_follow? hR hroot).mp hplaced.chain, hplaced.relation, ht⟩
  · rw [h.handler_eq s hs]
    refine List.find?_congr fun f _ => ?_
    rw [decide_eq_decide]
    have hs := h.named s hs
    constructor
    · intro he
      rw [← Text.joinDots_segments f.path]
      exact congrArg Text.joinDots he
    · intro he
      simp only [Handler.names, he]
      exact Text.segments_joinDots hs.1 hs.2

/-- What a plan covers is all there is to it. -/
theorem Covers.unique (h : Covers F R root handlers p) (h' : Covers F R root more q)
    (hmem : ∀ g, g ∈ more ↔ g ∈ handlers)
    (hfind : ∀ path, more.find? (fun g => g.path = path) =
      handlers.find? fun g => g.path = path) : p = q := by
  have same : ∀ {s t : Step M}, s ∈ p → t ∈ q → s.names = t.names → s = t := by
    intro s t hs ht hnames
    obtain ⟨done, owner, name, hsnames, howner, hrelation, htarget⟩ := h.follows s hs
    obtain ⟨done', owner', name', htnames, howner', hrelation', htarget'⟩ := h'.follows t ht
    obtain ⟨rfl, hname⟩ := List.append_inj' (hsnames.symm.trans (hnames.trans htnames)) rfl
    cases hname
    cases howner.symm.trans howner'
    have hr : s.relation = t.relation := Option.some.inj (hrelation.symm.trans hrelation')
    rw [hr] at htarget
    have hpath : s.path = t.path := congrArg Text.joinDots hnames
    have hhandler : s.handler = t.handler := by
      rw [h.handler_eq s hs, h'.handler_eq t ht, hfind, hpath]
    obtain ⟨names, relation, target, handler⟩ := s
    cases hnames
    cases hr
    cases hhandler
    cases htarget.symm.trans htarget'
    rfl
  have asked : ∀ names, names ∈ p.map Step.names ↔ names ∈ q.map Step.names := by
    intro names
    simp only [h.asked, h'.asked, hmem]
  have : Std.Irrefl fun s t : Step M => s.depth < t.depth ∨ (s.depth = t.depth ∧ s.path < t.path) :=
    ⟨fun s hs => Step.names_ne_of_before (Step.before_iff.mpr hs) rfl⟩
  have : Std.Antisymm fun s t : Step M =>
      s.depth < t.depth ∨ (s.depth = t.depth ∧ s.path < t.path) := by
    refine ⟨fun s t hst hts => ?_⟩
    have hself := Step.before_trans (Step.before_iff.mpr hst) (Step.before_iff.mpr hts)
    exact absurd rfl (Step.names_ne_of_before hself)
  refine List.Pairwise.eq_of_mem_iff h.sorted h'.sorted fun s => ?_
  constructor
  · intro hs
    obtain ⟨t, ht, hnames⟩ := List.mem_map.mp ((asked s.names).mp (List.mem_map.mpr ⟨s, hs, rfl⟩))
    rw [same hs ht hnames.symm]
    exact ht
  · intro ht
    obtain ⟨s', hs', hnames⟩ :=
      List.mem_map.mp ((asked s.names).mpr (List.mem_map.mpr ⟨s, ht, rfl⟩))
    rw [← same hs' ht hnames]
    exact hs'

/-! ### Registries that answer alike plan alike -/

theorem addNames_result_eq (hR : R.Faithful F config) (hS : S.Faithful F config) :
    (addNames F g done owner rest R p).result = (addNames F g done owner rest S p).result := by
  induction rest generalizing done owner R S p with
  | nil => rfl
  | cons name rest ih =>
    simp only [addNames]
    cases hr : owner.relation? name with
    | none => rfl
    | some r =>
      have hanswer := hR.result_eq hS r.target
      cases ht : (R.schemaFor F r.target).result with
      | error e =>
        rw [ht] at hanswer
        simp only [ht, ← hanswer, Attempt.failed]
      | ok t =>
        rw [ht] at hanswer
        simp only [ht, ← hanswer]
        exact ih (hR.schemaFor r.target) (hS.schemaFor r.target)

theorem addHandlers_result_eq (hR : R.Faithful F config) (hS : S.Faithful F config) :
    (addHandlers F root handlers R p).result = (addHandlers F root handlers S p).result := by
  induction handlers generalizing R S p with
  | nil => rfl
  | cons g handlers ih =>
    have hnames : (addNames F g [] root (Text.segments g.path) R p).result =
        (addNames F g [] root (Text.segments g.path) S p).result := addNames_result_eq hR hS
    simp only [addHandlers]
    cases hp : (addNames F g [] root (Text.segments g.path) R p).result with
    | error e =>
      rw [hp] at hnames
      simp only [← hnames, Attempt.failed]
    | ok p' =>
      rw [hp] at hnames
      simp only [← hnames]
      exact ih (faithful_addNames hR) (faithful_addNames hS)

/-! ### Paths that lead nowhere -/

theorem addNames_chain (hR : R.Faithful F config)
    (h : (addNames F g done owner rest R p).result = .ok q) :
    ∃ t, (Workshop.ofConfig F config).Chain owner rest t := by
  induction rest generalizing done owner R p with
  | nil => exact ⟨owner, rfl⟩
  | cons name rest ih =>
    simp only [addNames] at h
    split at h
    · cases h
    · rename_i r hr
      split at h
      · cases h
      · rename_i target htarget
        obtain ⟨t, ht⟩ := ih (hR.schemaFor r.target) h
        exact ⟨t, r, target, hr, (hR.result_ok htarget).1, ht⟩

theorem addNames_error (hR : R.Faithful F config)
    (howner : (Workshop.ofConfig F config).Finished owner)
    (h : (addNames F g done owner rest R p).result = .error e) :
    ∃ before name after stop, rest = before ++ name :: after ∧
      (Workshop.ofConfig F config).Chain owner before stop ∧ stop.relation? name = none ∧
      e = .invalidRelationPath g.path name stop.modelName := by
  induction rest generalizing done owner R p with
  | nil => cases h
  | cons name rest ih =>
    simp only [addNames] at h
    cases hr : owner.relation? name with
    | none =>
      rw [hr] at h
      cases h
      exact ⟨[], name, rest, owner, rfl, rfl, hr, rfl⟩
    | some r =>
      obtain ⟨t, ht, hdirect, hfinished⟩ := hR.target_answered howner hr
      simp only [hr, ht] at h
      obtain ⟨before, other, after, stop, hsplit, hstop, hnone, he⟩ :=
        ih (hR.schemaFor r.target) hfinished h
      exact ⟨name :: before, other, after, stop, by rw [hsplit]; rfl,
        ⟨r, t, hr, hdirect, hstop⟩, hnone, he⟩

/-- The error names the path of the first handler that cannot be followed, its first name that no
relation has, and the model that the names before it lead to. -/
def Blames (F : Family M) (R : Registry M) (root : Schema M) (handlers : List Handler)
    (e : Error) : Prop :=
  ∃ earlier g later before name after stop, handlers = earlier ++ g :: later ∧
    (∀ f ∈ earlier, R.Follows F root f.names) ∧ g.names = before ++ name :: after ∧
    R.follow? F root before = some stop ∧ stop.relation? name = none ∧
    e = .invalidRelationPath g.path name stop.modelName

theorem addHandlers_error (hR : R.Faithful F config) (hS : S.Faithful F config)
    (hroot : (Workshop.ofConfig F config).Finished root)
    (h : (addHandlers F root handlers S p).result = .error e) : Blames F R root handlers e := by
  induction handlers generalizing S p with
  | nil => cases h
  | cons g handlers ih =>
    simp only [addHandlers] at h
    split at h
    · rename_i e' he
      cases h
      obtain ⟨before, name, after, stop, hsplit, hstop, hnone, rfl⟩ := addNames_error hS hroot he
      exact ⟨[], g, handlers, before, name, after, stop, rfl,
        (fun f hf => absurd hf List.not_mem_nil), hsplit,
        (Registry.chain_iff_follow? hR hroot).mp hstop, hnone, rfl⟩
    · rename_i p' hp'
      obtain ⟨earlier, f, later, before, name, after, stop, rfl, hearlier, hrest⟩ :=
        ih (faithful_addNames hS) h
      refine ⟨g :: earlier, f, later, before, name, after, stop, rfl, fun x hx => ?_, hrest⟩
      rcases List.mem_cons.mp hx with rfl | hx
      · exact (Registry.follows_iff hR hroot).mpr (addNames_chain hS hp')
      · exact hearlier x hx

theorem ofHandlers_ok_iff (hR : R.Faithful F config)
    (hroot : (Workshop.ofConfig F config).Finished root) :
    (∃ p, (ofHandlers F root handlers R).result = .ok p) ↔
      ∀ h ∈ handlers, R.Follows F root h.names := by
  constructor
  · rintro ⟨p, hp⟩ h hh
    have hserves := ofHandlers_serves hR hp
    obtain ⟨s, hs, hnames⟩ := List.mem_map.mp (hserves.mem_of_names hh)
    obtain ⟨done, owner, name, hplaced⟩ := hserves.placed s hs
    rw [Registry.follows_iff hR hroot, ← hnames, hplaced.names_eq]
    exact ⟨s.target, Workshop.chain_concat hplaced.chain hplaced.relation hplaced.target⟩
  · intro h
    exact addHandlers_ok hR hroot.direct hroot.complete fun g hg =>
      (Registry.follows_iff hR hroot).mp (h g hg)

/-! ### Plans of handlers -/

omit [DecidableEq M] in
theorem find?_of_perm (hperm : more.Perm handlers) (honce : (handlers.map Handler.path).Nodup)
    (path : String) :
    more.find? (fun g => g.path = path) = handlers.find? fun g => g.path = path := by
  refine (List.find?_eq_find?_of_perm hperm.symm ?_).symm
  rintro f ⟨hf, hfpath⟩ g ⟨hg, hgpath⟩
  have hf' : f.path = path := by simpa using hfpath
  have hg' : g.path = path := by simpa using hgpath
  exact List.inj_on_of_nodup_map honce hf hg (hf'.trans hg'.symm)

theorem ofHandlers_perm (hR : R.Faithful F config)
    (hroot : (Workshop.ofConfig F config).Finished root) (hperm : more.Perm handlers)
    (honce : (handlers.map Handler.path).Nodup)
    (hp : (ofHandlers F root handlers R).result = .ok p) :
    (ofHandlers F root more R).result = .ok p := by
  have hvalid := (ofHandlers_ok_iff hR hroot).mp ⟨p, hp⟩
  obtain ⟨q, hq⟩ : ∃ q, (ofHandlers F root more R).result = .ok q :=
    (ofHandlers_ok_iff hR hroot).mpr fun g hg => hvalid g (hperm.mem_iff.mp hg)
  have hcovers := (ofHandlers_serves hR hp).covers hR hroot
  have hcovers' := (ofHandlers_serves hR hq).covers hR hroot
  have hsame : p = q :=
    hcovers.unique hcovers' (fun g => hperm.mem_iff) (find?_of_perm hperm honce)
  rw [hq, hsame]

/-- A plan is made if every name of every path is that of a relation of the model reached before it.
It then covers the beginnings of the paths, whatever the order of handlers with different paths. If
it fails, the error names the first handler and the first name that go wrong; preloading ends with
it, the roots are as before and no executor has been asked anything. -/
theorem ofHandlers_prefix_closure (hR : R.Reached F config) (hS : S.Reached F config) {m : M}
    (hroot : (S.schemaFor F m).result = .ok root) (handlers : List Handler) :
    ((∃ p, (ofHandlers F root handlers R).result = .ok p) ↔
      ∀ h ∈ handlers, R.Follows F root h.names) ∧
    (∀ p, (ofHandlers F root handlers R).result = .ok p → Covers F R root handlers p ∧
      ∀ more : List Handler, more.Perm handlers → (handlers.map Handler.path).Nodup →
        (ofHandlers F root more R).result = .ok p) ∧
    ∀ e, (ofHandlers F root handlers R).result = .error e → Blames F R root handlers e ∧
      ∀ {σ : Type} (E : Executor σ) (d : Dialect) (roots : List (Record M)) (state : σ),
        ∃ registry, F.preload E d m handlers ⟨R, roots, state⟩ =
          .failed ⟨registry, roots, state⟩ e := by
  have hfaithful := hR.faithful
  have hfinished := hS.faithful.finished hroot
  refine ⟨ofHandlers_ok_iff hfaithful hfinished, fun p hp => ⟨?_, fun more hperm honce => ?_⟩,
    fun e he => ⟨?_, fun E d roots state => ?_⟩⟩
  · exact (ofHandlers_serves hfaithful hp).covers hfaithful hfinished
  · exact ofHandlers_perm hfaithful hfinished hperm honce hp
  · exact addHandlers_error hfaithful hfaithful hfinished he
  · have hanswer : (R.schemaFor F m).result = .ok root :=
      (hfaithful.result_eq hS.faithful m).trans hroot
    have hplan : (ofHandlers F root handlers (R.schemaFor F m).state).result = .error e :=
      (addHandlers_result_eq (hfaithful.schemaFor m) hfaithful).trans he
    refine ⟨(ofHandlers F root handlers (R.schemaFor F m).state).state, ?_⟩
    simp only [Family.preload, hanswer, hplan]

end Plan

/-! ### Paths from authors -/

namespace Registry

/-- The authors of books, and the books by themselves as well. -/
def authorPaths : List Handler := [.ofPath "books.author", .ofPath "books"]

/-- Books have no editors. -/
def strayPaths : List Handler := [.ofPath "books", .ofPath "books.editor"]

theorem isSome_authorPlan : (Plan.ofHandlers shelf (shelfSchema .author) authorPaths
    (ofConfig 0 .standard)).result.toOption.isSome := by
  decide +kernel

theorem isNone_strayPlan : (Plan.ofHandlers shelf (shelfSchema .author) strayPaths
    (ofConfig 0 .standard)).result.toOption.isNone := by
  decide +kernel

/-- Both paths of authors are in one plan, and the path to editors has none. -/
theorem authorPaths_prefix_closure :
    (∃ p, (Plan.ofHandlers shelf (shelfSchema .author) authorPaths
        (ofConfig 0 .standard)).result = .ok p ∧
      Plan.Covers shelf (ofConfig 0 .standard) (shelfSchema .author) authorPaths p) ∧
    ∃ e, (Plan.ofHandlers shelf (shelfSchema .author) strayPaths
        (ofConfig 0 .standard)).result = .error e ∧
      Plan.Blames shelf (ofConfig 0 .standard) (shelfSchema .author) strayPaths e := by
  have hreached : (ofConfig 0 .standard : Registry Shelf).Reached shelf .standard := .fresh 0
  obtain ⟨-, hok, -⟩ := Plan.ofHandlers_prefix_closure hreached hreached
    (schemaFor_shelf .author) authorPaths
  obtain ⟨-, -, herror⟩ := Plan.ofHandlers_prefix_closure hreached hreached
    (schemaFor_shelf .author) strayPaths
  constructor
  · obtain ⟨p, hp⟩ := exists_ok isSome_authorPlan
    exact ⟨p, hp, (hok p hp).1⟩
  · cases he : (Plan.ofHandlers shelf (shelfSchema .author) strayPaths
        (ofConfig 0 .standard)).result with
    | error e => exact ⟨e, rfl, (herror e he).1⟩
    | ok p =>
      have hnone := isNone_strayPlan
      rw [he] at hnone
      cases hnone

end Registry

end RecordGraph
