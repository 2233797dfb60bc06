import RecordGraph.Preload.Plan
import RecordGraph.Proofs.Schema.History
import RecordGraph.Proofs.Text.Segments

/-!
# What a plan holds

A plan holds one step for every beginning of a path that some handler asks for, owners before what
is below them. The names of a step lead along relations from the root to its owners, and the handler
of a step is the first one that asks for exactly its path.
-/

namespace RecordGraph

variable {M : Type}

def Handler.names (h : Handler) : List String := Text.segments h.path

/-! ### The order of steps -/

namespace Step

variable {s t u : Step M}

theorem before_iff :
    s.before t = true ↔ s.depth < t.depth ∨ (s.depth = t.depth ∧ s.path < t.path) := by
  simp [before]

theorem before_trans (h : s.before t = true) (h' : t.before u = true) : s.before u = true := by
  rw [before_iff] at h h' ⊢
  rcases h with h | ⟨h, hpath⟩ <;> rcases h' with h' | ⟨h', hpath'⟩
  · exact Or.inl (by omega)
  · exact Or.inl (by omega)
  · exact Or.inl (by omega)
  · exact Or.inr ⟨by omega, String.lt_trans hpath hpath'⟩

theorem names_ne_of_before (h : s.before t = true) : s.names ≠ t.names := by
  intro he
  have hpath : s.path = t.path := congrArg Text.joinDots he
  have hdepth : s.depth = t.depth := congrArg List.length he
  rw [before_iff] at h
  rcases h with h | ⟨-, h⟩
  · omega
  · rw [hpath] at h
    exact String.lt_irrefl t.path h

theorem before_congr_right (h : t.names = u.names) : s.before t = s.before u := by
  have hpath : t.path = u.path := congrArg Text.joinDots h
  have hdepth : t.depth = u.depth := congrArg List.length h
  rw [Bool.eq_iff_iff, before_iff, before_iff, hpath, hdepth]

theorem depth_le_of_before (h : s.before t = true) : s.depth ≤ t.depth := by
  rw [before_iff] at h
  omega

/-- The names are names of a path. -/
def Named (s : Step M) : Prop := s.names ≠ [] ∧ ∀ name ∈ s.names, Text.Undotted name

theorem before_of_not_before (hs : s.Named) (ht : t.Named) (hne : t.names ≠ s.names)
    (h : ¬ s.before t = true) : t.before s = true := by
  rw [before_iff] at h ⊢
  by_cases hdepth : t.depth < s.depth
  · exact Or.inl hdepth
  · have hsame : t.depth = s.depth := by omega
    refine Or.inr ⟨hsame, ?_⟩
    have hnot : ¬ s.path < t.path := fun hlt => h (Or.inr ⟨hsame.symm, hlt⟩)
    by_cases hlt : t.path < s.path
    · exact hlt
    · have hpath : t.path = s.path :=
        String.le_antisymm (String.not_lt.mp hnot) (String.not_lt.mp hlt)
      exact absurd (Text.joinDots_injective ht.1 hs.1 ht.2 hs.2 hpath) hne

/-- The step with another handler if it has none. -/
def orHandler (s : Step M) (handler : Option Handler) : Step M :=
  { s with handler := s.handler.or handler }

end Step

/-! ### Adding a step -/

namespace Plan

variable {s t : Step M} {p : Plan M}

def Sorted (p : Plan M) : Prop := p.Pairwise fun s t => s.before t = true

/-- In a sorted plan just the steps that come before a step in the order stand before it. -/
theorem Sorted.mem_before_iff {before after : Plan M} (h : Sorted (before ++ s :: after))
    (ht : t ∈ before ++ s :: after) : t ∈ before ↔ t.before s = true := by
  obtain ⟨-, hrest, hearlier⟩ := List.pairwise_append.mp h
  constructor
  · intro hbefore
    exact hearlier t hbefore s List.mem_cons_self
  · intro hts
    rcases List.mem_append.mp ht with hbefore | hafter
    · exact hbefore
    · rcases List.mem_cons.mp hafter with rfl | hafter
      · exact absurd rfl (Step.names_ne_of_before hts)
      · have hst := (List.pairwise_cons.mp hrest).1 t hafter
        exact absurd rfl (Step.names_ne_of_before (Step.before_trans hts hst))

theorem mem_names_insert {names : List String} :
    names ∈ (insert s p).map Step.names ↔ names = s.names ∨ names ∈ p.map Step.names := by
  induction p with
  | nil => simp [insert]
  | cons u p ih =>
    simp only [insert]
    split
    · rename_i hu
      simp only [List.map_cons, List.mem_cons, hu]
      tauto
    · split
      · simp only [List.map_cons, List.mem_cons]
      · simp only [List.map_cons, List.mem_cons, ih]
        tauto

theorem names_of_mem_insert (h : t ∈ insert s p) : t.names = s.names ∨ t ∈ p := by
  induction p with
  | nil => exact Or.inl (congrArg Step.names (List.mem_singleton.mp h))
  | cons u p ih =>
    simp only [insert] at h
    split at h
    · rename_i hu
      rcases List.mem_cons.mp h with rfl | h
      · exact Or.inl hu
      · exact Or.inr (List.mem_cons_of_mem u h)
    · split at h
      · rcases List.mem_cons.mp h with rfl | h
        · exact Or.inl rfl
        · exact Or.inr h
      · rcases List.mem_cons.mp h with rfl | h
        · exact Or.inr List.mem_cons_self
        · exact (ih h).imp id (List.mem_cons_of_mem u)

/-- The steps after adding one: other steps, the step of the same names with its handler or the new
one, or the new step if there was none of its names. -/
theorem insert_cases (hp : Sorted p) (h : t ∈ insert s p) :
    (t ∈ p ∧ t.names ≠ s.names) ∨
    (∃ u ∈ p, u.names = s.names ∧ t = u.orHandler s.handler) ∨
    (t = s ∧ ∀ u ∈ p, u.names ≠ s.names) := by
  induction p with
  | nil => exact Or.inr (Or.inr ⟨List.mem_singleton.mp h, fun u hu => nomatch hu⟩)
  | cons u p ih =>
    obtain ⟨hu, hp⟩ := List.pairwise_cons.mp hp
    simp only [insert] at h
    split at h
    · rename_i hnames
      rcases List.mem_cons.mp h with rfl | h
      · refine Or.inr (Or.inl ⟨u, List.mem_cons_self, hnames, ?_⟩)
        simp only [Step.orHandler]
        cases u.handler <;> rfl
      · refine Or.inl ⟨List.mem_cons_of_mem u h, fun he => ?_⟩
        exact Step.names_ne_of_before (hu t h) (hnames.trans he.symm)
    · rename_i hnames
      split at h
      · rename_i hbefore
        have hall : ∀ v ∈ u :: p, v.names ≠ s.names := by
          intro v hv he
          rcases List.mem_cons.mp hv with rfl | hv
          · exact hnames he
          · exact Step.names_ne_of_before (Step.before_trans hbefore (hu v hv)) he.symm
        rcases List.mem_cons.mp h with rfl | h
        · exact Or.inr (Or.inr ⟨rfl, hall⟩)
        · exact Or.inl ⟨h, hall t h⟩
      · rcases List.mem_cons.mp h with rfl | h
        · exact Or.inl ⟨List.mem_cons_self, hnames⟩
        · rcases ih hp h with ⟨ht, hne⟩ | ⟨v, hv, hsame, rfl⟩ | ⟨rfl, hall⟩
          · exact Or.inl ⟨List.mem_cons_of_mem u ht, hne⟩
          · exact Or.inr (Or.inl ⟨v, List.mem_cons_of_mem u hv, hsame, rfl⟩)
          · refine Or.inr (Or.inr ⟨rfl, fun v hv => ?_⟩)
            rcases List.mem_cons.mp hv with rfl | hv
            · exact hnames
            · exact hall v hv

theorem sorted_insert (hs : s.Named) (hnamed : ∀ t ∈ p, t.Named) (hp : Sorted p) :
    Sorted (insert s p) := by
  induction p with
  | nil => exact List.pairwise_singleton _ s
  | cons u p ih =>
    have hsorted := hp
    obtain ⟨hu, hp⟩ := List.pairwise_cons.mp hp
    simp only [insert]
    split
    · rename_i hnames
      refine List.pairwise_cons.mpr ⟨fun v hv => ?_, hp⟩
      exact hu v hv
    · rename_i hnames
      split
      · rename_i hbefore
        refine List.pairwise_cons.mpr ⟨fun v hv => ?_, hsorted⟩
        rcases List.mem_cons.mp hv with rfl | hv
        · exact hbefore
        · exact Step.before_trans hbefore (hu v hv)
      · rename_i hbefore
        have hnamed' : ∀ t ∈ p, t.Named := fun t ht => hnamed t (List.mem_cons_of_mem u ht)
        refine List.pairwise_cons.mpr ⟨fun v hv => ?_, ih hnamed' hp⟩
        rcases names_of_mem_insert hv with hv | hv
        · rw [Step.before_congr_right hv]
          exact Step.before_of_not_before hs (hnamed u List.mem_cons_self) hnames hbefore
        · exact hu v hv

end Plan

/-! ### Ways along relations -/

namespace Workshop

variable {W : Workshop M} {root owner s t : Schema M} {done : List String} {name : String}

/-- The names lead along relations from one schema to another, over direct schemas. -/
def Chain (W : Workshop M) : Schema M → List String → Schema M → Prop
  | s, [], t => s = t
  | s, name :: names, t =>
    ∃ r mid, s.relation? name = some r ∧ W.direct r.target = .ok mid ∧ W.Chain mid names t

theorem chain_concat {r : Relation M} (h : W.Chain s done owner)
    (hr : owner.relation? name = some r) (ht : W.direct r.target = .ok t) :
    W.Chain s (done ++ [name]) t := by
  induction done generalizing s with
  | nil =>
    cases h
    exact ⟨r, t, hr, ht, rfl⟩
  | cons first done ih =>
    obtain ⟨q, mid, hq, hmid, h⟩ := h
    exact ⟨q, mid, hq, hmid, ih h⟩

theorem direct_of_chain (hs : W.direct s.model = .ok s) (h : W.Chain s done t) :
    W.direct t.model = .ok t := by
  induction done generalizing s with
  | nil =>
    cases h
    exact hs
  | cons name done ih =>
    obtain ⟨r, mid, -, hmid, h⟩ := h
    refine ih ?_ h
    rw [model_of_direct hmid]
    exact hmid

/-- The step follows a relation of the schema that the names before its last one lead to. -/
structure Placed (W : Workshop M) (root : Schema M) (s : Step M) (done : List String)
    (owner : Schema M) (name : String) : Prop where
  names_eq : s.names = done ++ [name]
  chain : W.Chain root done owner
  relation : owner.relation? name = some s.relation
  target : W.direct s.relation.target = .ok s.target

end Workshop

/-! ### The plan of handlers -/

namespace Plan

variable {W : Workshop M} {root : Schema M} {handlers : List Handler}
  {done : List String} {p : Plan M}

/-- The plan of some handlers, and of one more handler up to a level. -/
structure Serves (W : Workshop M) (root : Schema M) (handlers : List Handler) (done : List String)
    (p : Plan M) : Prop where
  placed : ∀ s ∈ p, ∃ done owner name, W.Placed root s done owner name
  named : ∀ s ∈ p, s.Named
  sorted : Sorted p
  asked : ∀ names, names ∈ p.map Step.names ↔
    names ≠ [] ∧ (names <+: done ∨ ∃ h ∈ handlers, names <+: h.names)
  handler_eq : ∀ s ∈ p, s.handler = handlers.find? fun h => h.names = s.names

theorem serves_nil : Serves W root [] [] [] := by
  refine ⟨(fun s hs => nomatch hs), (fun s hs => nomatch hs), List.Pairwise.nil, fun names => ?_,
    (fun s hs => nomatch hs)⟩
  constructor
  · intro h
    cases h
  · rintro ⟨hne, h | ⟨h, hh, -⟩⟩
    · exact absurd (List.prefix_nil.mp h) hne
    · cases hh

theorem Serves.mem_of_names (h : Serves W root handlers done p) {g : Handler} (hg : g ∈ handlers) :
    g.names ∈ p.map Step.names :=
  (h.asked g.names).mpr ⟨Text.segments_ne_nil g.path, Or.inr ⟨g, hg, List.prefix_rfl⟩⟩

theorem Serves.find?_of_new (h : Serves W root handlers done p) {names : List String}
    (hnew : ∀ u ∈ p, u.names ≠ names) : handlers.find? (fun g => g.names = names) = none := by
  rw [List.find?_eq_none]
  intro g hg he
  have he : g.names = names := by simpa using he
  obtain ⟨u, hu, hnames⟩ := List.mem_map.mp (h.mem_of_names hg)
  exact hnew u hu (hnames.trans he)

theorem Serves.named_insert (h : Serves W root handlers done p) {s : Step M} (hs : s.Named) :
    ∀ t ∈ insert s p, t.Named := by
  intro t ht
  rcases names_of_mem_insert ht with hnames | ht
  · exact ⟨hnames ▸ hs.1, hnames ▸ hs.2⟩
  · exact h.named t ht

theorem Serves.placed_insert (h : Serves W root handlers done p) {s : Step M} {owner : Schema M}
    {before : List String} {name : String} (hs : W.Placed root s before owner name) :
    ∀ t ∈ insert s p, ∃ done owner name, W.Placed root t done owner name := by
  intro t ht
  rcases insert_cases h.sorted ht with ⟨ht, -⟩ | ⟨u, hu, -, rfl⟩ | ⟨rfl, -⟩
  · exact h.placed t ht
  · obtain ⟨done, owner, name, hu⟩ := h.placed u hu
    exact ⟨done, owner, name, hu.names_eq, hu.chain, hu.relation, hu.target⟩
  · exact ⟨before, owner, name, hs⟩

theorem Serves.insert_inner (h : Serves W root handlers done p) {s : Step M} {owner : Schema M}
    {name : String} (hs : W.Placed root s done owner name) (hnamed : s.Named)
    (hnone : s.handler = none) : Serves W root handlers (done ++ [name]) (insert s p) := by
  refine ⟨h.placed_insert hs, h.named_insert hnamed, sorted_insert hnamed h.named h.sorted,
    fun names => ?_, fun t ht => ?_⟩
  · have hne : done ++ [name] ≠ [] := by simp
    rw [mem_names_insert, h.asked, hs.names_eq, List.prefix_concat_iff]
    constructor
    · rintro (rfl | ⟨hne', hnames⟩)
      · exact ⟨hne, Or.inl (Or.inl rfl)⟩
      · exact ⟨hne', hnames.imp Or.inr id⟩
    · rintro ⟨hne', (rfl | hnames) | hnames⟩
      · exact Or.inl rfl
      · exact Or.inr ⟨hne', Or.inl hnames⟩
      · exact Or.inr ⟨hne', Or.inr hnames⟩
  · rcases insert_cases h.sorted ht with ⟨ht, -⟩ | ⟨u, hu, -, rfl⟩ | ⟨rfl, hnew⟩
    · exact h.handler_eq t ht
    · simp only [Step.orHandler, hnone, Option.or_none]
      exact h.handler_eq u hu
    · rw [hnone, h.find?_of_new hnew]

theorem Serves.insert_last (h : Serves W root handlers done p) {s : Step M} {owner : Schema M}
    {name : String} {g : Handler} (hs : W.Placed root s done owner name) (hnamed : s.Named)
    (hg : g.names = s.names) (hhandler : s.handler = some g) :
    Serves W root (handlers ++ [g]) [] (insert s p) := by
  refine ⟨h.placed_insert hs, h.named_insert hnamed, sorted_insert hnamed h.named h.sorted,
    fun names => ?_, fun t ht => ?_⟩
  · have hne : g.names ≠ [] := Text.segments_ne_nil g.path
    have hprefix : names <+: g.names ↔ names = g.names ∨ names <+: done := by
      rw [hg, hs.names_eq, List.prefix_concat_iff]
    have hmore : (∃ f ∈ handlers ++ [g], names <+: f.names) ↔
        (∃ f ∈ handlers, names <+: f.names) ∨ names <+: g.names := by
      simp only [List.mem_append, List.mem_singleton, or_and_right, exists_or, exists_eq_left]
    rw [mem_names_insert, h.asked, hmore, hprefix, List.prefix_nil, ← hg]
    constructor
    · rintro (rfl | ⟨hne', hnames | hnames⟩)
      · exact ⟨hne, Or.inr (Or.inr (Or.inl rfl))⟩
      · exact ⟨hne', Or.inr (Or.inr (Or.inr hnames))⟩
      · exact ⟨hne', Or.inr (Or.inl hnames)⟩
    · rintro ⟨hne', hnames | hnames | hnames | hnames⟩
      · exact absurd hnames hne'
      · exact Or.inr ⟨hne', Or.inr hnames⟩
      · exact Or.inl hnames
      · exact Or.inr ⟨hne', Or.inl hnames⟩
  · rw [List.find?_append]
    rcases insert_cases h.sorted ht with ⟨ht, hnames⟩ | ⟨u, hu, hnames, rfl⟩ | ⟨rfl, hnew⟩
    · have hother : [g].find? (fun f => f.names = t.names) = none := by
        have hne : g.names ≠ t.names := fun he => hnames (he.symm.trans hg)
        simp [hne]
      rw [hother, Option.or_none]
      exact h.handler_eq t ht
    · have hown : [g].find? (fun f => f.names = (u.orHandler s.handler).names) = some g := by
        have he : g.names = (u.orHandler s.handler).names := hg.trans hnames.symm
        simp [he]
      rw [hown]
      show u.handler.or s.handler = (handlers.find? fun f => f.names = u.names).or (some g)
      rw [hhandler, h.handler_eq u hu]
    · have hown : [g].find? (fun f => f.names = t.names) = some g := by simp [hg]
      rw [hown, h.find?_of_new hnew, Option.none_or, hhandler]

theorem Serves.mem_before (h : Serves W root handlers [] p) {before after : Plan M} {s : Step M}
    (hp : p = before ++ s :: after) {more : List String} (hne : more ≠ [])
    (hmore : more <+: s.names) (hother : more ≠ s.names) : more ∈ before.map Step.names := by
  have hs : s ∈ p := by
    rw [hp]
    exact List.mem_append_right before List.mem_cons_self
  have hsnames : s.names ∈ p.map Step.names := List.mem_map.mpr ⟨s, hs, rfl⟩
  obtain ⟨hsne, hasked | ⟨g, hg, hasked⟩⟩ := (h.asked s.names).mp hsnames
  · exact absurd (List.prefix_nil.mp hasked) hsne
  have hall : more ∈ p.map Step.names :=
    (h.asked more).mpr ⟨hne, Or.inr ⟨g, hg, hmore.trans hasked⟩⟩
  obtain ⟨t, ht, rfl⟩ := List.mem_map.mp hall
  have hlength : t.names.length < s.names.length := by
    have hle := hmore.length_le
    have hlt : t.names.length ≠ s.names.length := fun he => hother (hmore.eq_of_length he)
    omega
  have hsorted := h.sorted
  rw [hp] at ht hsorted
  have hearlier : t.before s = true := Step.before_iff.mpr (Or.inl hlength)
  exact List.mem_map.mpr ⟨t, (hsorted.mem_before_iff ht).mpr hearlier, rfl⟩

/-! ### Making a plan -/

section

variable [DecidableEq M] {F : Family M} {config : Config} {R : Registry M} {owner : Schema M}
  {rest : List String} {g : Handler}

theorem faithful_addNames (hR : R.Faithful F config) :
    (addNames F g done owner rest R p).state.Faithful F config := by
  induction rest generalizing done owner R p with
  | nil => exact hR
  | cons name rest ih =>
    simp only [addNames]
    split
    · exact hR
    · rename_i r hr
      split
      · exact hR.schemaFor r.target
      · exact ih (hR.schemaFor r.target)

theorem faithful_addHandlers (hR : R.Faithful F config) :
    (addHandlers F root handlers R p).state.Faithful F config := by
  induction handlers generalizing R p with
  | nil => exact hR
  | cons g handlers ih =>
    simp only [addHandlers]
    split
    · exact faithful_addNames hR
    · exact ih (faithful_addNames hR)

theorem addNames_serves (hrest : rest ≠ []) (hnames : g.names = done ++ rest)
    (hR : R.Faithful F config) (howner : (Workshop.ofConfig F config).Chain root done owner)
    (hp : Serves (Workshop.ofConfig F config) root handlers done p) {p' : Plan M}
    (h : (addNames F g done owner rest R p).result = .ok p') :
    Serves (Workshop.ofConfig F config) root (handlers ++ [g]) [] p' := by
  induction rest generalizing done owner R p with
  | nil => exact absurd rfl hrest
  | cons name rest ih =>
    simp only [addNames] at h
    split at h
    · cases h
    · rename_i r hr
      split at h
      · cases h
      · rename_i target htarget
        obtain ⟨hdirect, -⟩ := hR.result_ok htarget
        have hnamed : ∀ handler, (⟨done ++ [name], r, target, handler⟩ : Step M).Named := by
          refine fun handler => ⟨by simp, fun x hx => ?_⟩
          have hall : x ∈ done ++ name :: rest := by
            rcases List.mem_append.mp hx with hx | hx
            · exact List.mem_append_left _ hx
            · rw [List.mem_singleton.mp hx]
              exact List.mem_append_right done List.mem_cons_self
          rw [← hnames] at hall
          exact Text.undotted_of_mem_segments hall
        have hplaced : ∀ handler, (Workshop.ofConfig F config).Placed root
            ⟨done ++ [name], r, target, handler⟩ done owner name :=
          fun handler => ⟨rfl, howner, hr, hdirect⟩
        cases rest with
        | nil =>
          cases h
          exact hp.insert_last (hplaced (some g)) (hnamed (some g)) hnames rfl
        | cons next rest =>
          refine ih (List.cons_ne_nil next rest) ?_ (hR.schemaFor r.target)
            (Workshop.chain_concat howner hr hdirect)
            (hp.insert_inner (hplaced none) (hnamed none) rfl) h
          rw [hnames, List.append_assoc, List.singleton_append]

theorem addHandlers_serves {more : List Handler} (hR : R.Faithful F config)
    (hp : Serves (Workshop.ofConfig F config) root handlers [] p) {p' : Plan M}
    (h : (addHandlers F root more R p).result = .ok p') :
    Serves (Workshop.ofConfig F config) root (handlers ++ more) [] p' := by
  induction more generalizing handlers R p with
  | nil =>
    cases h
    rw [List.append_nil]
    exact hp
  | cons g more ih =>
    simp only [addHandlers] at h
    split at h
    · cases h
    · rename_i q hq
      have hroot : (Workshop.ofConfig F config).Chain root [] root := rfl
      have hserves := addNames_serves (Text.segments_ne_nil g.path) rfl hR hroot hp hq
      have hmore := ih (faithful_addNames hR) hserves h
      rw [List.append_assoc, List.singleton_append] at hmore
      exact hmore

theorem ofHandlers_serves (hR : R.Faithful F config) {p' : Plan M}
    (h : (ofHandlers F root handlers R).result = .ok p') :
    Serves (Workshop.ofConfig F config) root handlers [] p' :=
  addHandlers_serves hR serves_nil h

/-! ### Valid paths -/

theorem addNames_ok (hR : R.Faithful F config)
    (howner : (Workshop.ofConfig F config).direct owner.model = .ok owner)
    (hcomplete : (Workshop.ofConfig F config).Complete owner.model)
    (hvalid : ∃ t, (Workshop.ofConfig F config).Chain owner rest t) :
    ∃ p', (addNames F g done owner rest R p).result = .ok p' := by
  induction rest generalizing done owner R p with
  | nil => exact ⟨p, rfl⟩
  | cons name rest ih =>
    obtain ⟨t, r, mid, hr, hmid, hvalid⟩ := hvalid
    have hmem := (Schema.relation?_cases hr).1
    have htarget := hcomplete.of_leads (Workshop.leads_target howner hmem)
    obtain ⟨s, hs, hdirect⟩ := hR.result_of_complete htarget
    cases hmid.symm.trans hdirect
    have hmodel : mid.model = r.target := Workshop.model_of_direct hmid
    simp only [addNames, hr, hs]
    refine ih (hR.schemaFor r.target) ?_ ?_ ⟨t, hvalid⟩
    · rw [hmodel]
      exact hmid
    · rw [hmodel]
      exact htarget

theorem addHandlers_ok (hR : R.Faithful F config)
    (hroot : (Workshop.ofConfig F config).direct root.model = .ok root)
    (hcomplete : (Workshop.ofConfig F config).Complete root.model)
    (hvalid : ∀ h ∈ handlers, ∃ t, (Workshop.ofConfig F config).Chain root h.names t) :
    ∃ p', (addHandlers F root handlers R p).result = .ok p' := by
  induction handlers generalizing R p with
  | nil => exact ⟨p, rfl⟩
  | cons g handlers ih =>
    obtain ⟨q, hq⟩ : ∃ q, (addNames F g [] root g.names R p).result = .ok q :=
      addNames_ok hR hroot hcomplete (hvalid g List.mem_cons_self)
    have hmore := ih (R := (addNames F g [] root g.names R p).state) (p := q)
      (faithful_addNames hR) fun h hh => hvalid h (List.mem_cons_of_mem g hh)
    simp only [addHandlers]
    simp only [Handler.names] at hq hmore
    rw [hq]
    exact hmore

end

end Plan

end RecordGraph
