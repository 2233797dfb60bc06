import RecordGraph.Proofs.Preload.Answering
import RecordGraph.Proofs.Preload.Refinement
import RecordGraph.Proofs.Preload.Sending
import RecordGraph.Proofs.Store.Rendering

/-!
# One statement for each step, over the keys that are needed

The values of a statement are the source values of the owners that the run comes to, each key where
it first occurs. Owners without a key add nothing, and where no owner has one nothing is sent.
-/

namespace RecordGraph

variable {M σ : Type}

namespace Family

/-! ### First occurrences -/

def storedValues (ks : List (Option (Key × Value))) : List Value :=
  ks.filterMap (Option.map Prod.snd)

theorem distinctValues_sublist (seen : List Key) (ks : List (Option (Key × Value))) :
    (distinctValues seen ks).Sublist (storedValues ks) := by
  induction ks generalizing seen with
  | nil => exact List.Sublist.slnil
  | cons head ks ih =>
    cases head with
    | none => exact ih seen
    | some entry =>
      obtain ⟨k, v⟩ := entry
      have hstored : storedValues (some (k, v) :: ks) = v :: storedValues ks := rfl
      simp only [distinctValues, hstored]
      split
      · exact (ih seen).cons v
      · exact (ih (k :: seen)).cons_cons v

theorem Keyed.tail {head : Option (Key × Value)} {ks : List (Option (Key × Value))}
    (h : Keyed (head :: ks)) : Keyed ks :=
  fun k v hmem => h k v (List.mem_cons_of_mem head hmem)

/-- The values left are those whose keys were not seen before, each the first with its key. -/
theorem distinctValues_spec {ks : List (Option (Key × Value))} (hks : Keyed ks) (seen : List Key) :
    ((distinctValues seen ks).map Key.ofValue?).Nodup ∧
      ∀ v ∈ distinctValues seen ks, (∃ k, Key.ofValue? v = some k ∧ k ∉ seen) ∧
        (storedValues ks).find? (fun w => Key.ofValue? w = Key.ofValue? v) = some v := by
  induction ks generalizing seen with
  | nil => exact ⟨List.nodup_nil, fun v hv => nomatch hv⟩
  | cons head ks ih =>
    cases head with
    | none => exact ih hks.tail seen
    | some entry =>
      obtain ⟨k, v⟩ := entry
      have hv : Key.ofValue? v = some k := hks k v List.mem_cons_self
      have hstored : storedValues (some (k, v) :: ks) = v :: storedValues ks := rfl
      have hlater : ∀ w : Value, (∃ l, Key.ofValue? w = some l ∧ l ≠ k) →
          (v :: storedValues ks).find? (fun u => Key.ofValue? u = Key.ofValue? w) =
            (storedValues ks).find? fun u => Key.ofValue? u = Key.ofValue? w := by
        rintro w ⟨l, hw, hne⟩
        refine List.find?_cons_of_neg ?_
        rw [hv, hw, decide_eq_true_eq, Option.some_inj]
        exact fun he => hne he.symm
      simp only [distinctValues, hstored]
      split
      · rename_i hseen
        obtain ⟨hnodup, hall⟩ := ih hks.tail seen
        refine ⟨hnodup, fun w hw => ?_⟩
        obtain ⟨⟨l, hl, hnew⟩, hfirst⟩ := hall w hw
        refine ⟨⟨l, hl, hnew⟩, (hlater w ⟨l, hl, ?_⟩).trans hfirst⟩
        rintro rfl
        exact hnew hseen
      · rename_i hunseen
        obtain ⟨hnodup, hall⟩ := ih hks.tail (k :: seen)
        constructor
        · rw [List.map_cons, List.nodup_cons]
          refine ⟨fun hmem => ?_, hnodup⟩
          obtain ⟨w, hw, he⟩ := List.mem_map.mp hmem
          obtain ⟨⟨l, hl, hnew⟩, -⟩ := hall w hw
          rw [hl, hv] at he
          exact hnew (List.mem_cons.mpr (Or.inl (Option.some.inj he)))
        · intro w hw
          rcases List.mem_cons.mp hw with rfl | hw
          · exact ⟨⟨k, hv, hunseen⟩, List.find?_cons_of_pos (by rw [decide_eq_true_eq])⟩
          · obtain ⟨⟨l, hl, hnew⟩, hfirst⟩ := hall w hw
            rw [List.mem_cons, not_or] at hnew
            exact ⟨⟨l, hl, hnew.2⟩, (hlater w ⟨l, hl, hnew.1⟩).trans hfirst⟩

/-- The place of the first entry with the key of a value. -/
def placeOf (ks : List (Option (Key × Value))) (v : Value) : Nat :=
  (ks.map (Option.map Prod.fst)).idxOf (Key.ofValue? v)

theorem placeOf_cons_of_seen {ks : List (Option (Key × Value))} (hks : Keyed ks) {seen : List Key}
    {head : Option (Key × Value)} (hseen : ∀ k v, head = some (k, v) → k ∈ seen) {w : Value}
    (hw : w ∈ distinctValues seen ks) : placeOf (head :: ks) w = placeOf ks w + 1 := by
  obtain ⟨⟨l, hl, hnew⟩, -⟩ := (distinctValues_spec hks seen).2 w hw
  have hne : head.map Prod.fst ≠ Key.ofValue? w := by
    intro he
    rw [hl] at he
    obtain ⟨⟨k, v⟩, hhead, rfl⟩ := Option.map_eq_some_iff.mp he
    exact hnew (hseen k v hhead)
  rw [placeOf, List.map_cons, List.idxOf_cons_ne _ hne, placeOf]

/-- The values left stand in the order in which their keys are first met. -/
theorem distinctValues_ordered {ks : List (Option (Key × Value))} (hks : Keyed ks)
    (seen : List Key) :
    (distinctValues seen ks).Pairwise fun v w => placeOf ks v < placeOf ks w := by
  induction ks generalizing seen with
  | nil => exact List.Pairwise.nil
  | cons head ks ih =>
    have hlater : ∀ seen, (∀ k v, head = some (k, v) → k ∈ seen) →
        (distinctValues seen ks).Pairwise fun v w =>
          placeOf (head :: ks) v < placeOf (head :: ks) w := by
      intro seen hseen
      refine (ih hks.tail seen).imp_of_mem fun hv hw hlt => ?_
      rw [placeOf_cons_of_seen hks.tail hseen hv, placeOf_cons_of_seen hks.tail hseen hw]
      exact Nat.succ_lt_succ hlt
    cases head with
    | none =>
      refine hlater seen fun k v he => ?_
      cases he
    | some entry =>
      obtain ⟨k, v⟩ := entry
      simp only [distinctValues]
      split
      · rename_i hseen
        refine hlater seen fun l w he => ?_
        cases he
        exact hseen
      · have hseen : ∀ l w, some (k, v) = some (l, w) → l ∈ k :: seen := by
          intro l w he
          cases he
          exact List.mem_cons_self
        have hhead : Key.ofValue? v = some k := hks k v List.mem_cons_self
        refine List.pairwise_cons.mpr ⟨fun w hw => ?_, hlater (k :: seen) hseen⟩
        rw [placeOf_cons_of_seen hks.tail hseen hw, placeOf, List.map_cons, hhead, Option.map_some,
          List.idxOf_cons_self]
        exact Nat.succ_pos _

/-! ### The keys that owners need -/

/-- The value of the source column of an owner, if it has a key. -/
def sourceValue? (F : Family M) (r : Relation M) (owner : Record M) : Option Value :=
  match F.getField owner r.source.field with
  | .ok v => v.value?.bind fun v => (presentKey? v).map fun _ => v
  | .error _ => none

/-- The values are the source values of the owners that have a key, of each key the first one, in the
order of the first owners with the keys. -/
structure Needed (F : Family M) (r : Relation M) (owners : List (Record M)) (values : List Value) :
    Prop where
  sublist : values.Sublist (owners.filterMap (F.sourceValue? r))
  first : ∀ v ∈ values, (owners.filterMap (F.sourceValue? r)).find?
    (fun w => Key.ofValue? w = Key.ofValue? v) = some v
  ordered : values.Pairwise fun v w =>
    (owners.map (F.keyOf r)).idxOf (Key.ofValue? v) <
      (owners.map (F.keyOf r)).idxOf (Key.ofValue? w)
  distinct : (values.map Key.ofValue?).Nodup
  present : ∀ v ∈ values, ∃ k, Key.ofValue? v = some k ∧ k.isZero = false
  covers : ∀ owner ∈ owners, ∀ k, F.keyOf r owner = some k → some k ∈ values.map Key.ofValue?

variable {F : Family M} {r : Relation M} {owners : List (Record M)}

theorem storedValues_ownerKeys (hF : F.DistinctNames) (hr : F.Grounded r)
    (h : F.AllConform r.owner owners) {ks : List (Option (Key × Value))}
    (hks : F.ownerKeys r owners = .ok ks) :
    storedValues ks = owners.filterMap (F.sourceValue? r) := by
  induction owners generalizing ks with
  | nil =>
    cases hks
    rfl
  | cons owner owners ih =>
    obtain ⟨hm, ho⟩ := h owner List.mem_cons_self
    obtain ⟨v, hv, hkey⟩ := ownerKey?_ok hF hr hm ho
    have hrest : F.AllConform r.owner owners := fun x hx => h x (List.mem_cons_of_mem owner hx)
    obtain ⟨ls, hls, -⟩ := ownerKeys_ok hF hr hrest
    simp only [ownerKeys, hkey, hls] at hks
    cases hks
    have hof : F.keyOf r owner = presentKey? v := by
      simp only [keyOf, hv, FieldValue.value?, Option.bind_some]
    have hsource : F.sourceValue? r owner = (presentKey? v).map fun _ => v := by
      simp only [sourceValue?, hv, FieldValue.value?, Option.bind_some]
    rw [List.filterMap_cons, hsource, ← ih hrest hls, storedValues, List.filterMap_cons, hof]
    cases presentKey? v <;> rfl

theorem needed_ownerValues (hF : F.DistinctNames) (hr : F.Grounded r)
    (h : F.AllConform r.owner owners) : F.Needed r owners (F.ownerValues r owners) := by
  obtain ⟨ks, hks, hvalues⟩ := ownerKeys_eq_ok hF hr h
  obtain ⟨hkeyed, -⟩ := keyed_ownerKeys hF hr h hks
  obtain ⟨hnodup, hfirst⟩ := distinctValues_spec hkeyed []
  have hordered := distinctValues_ordered hkeyed []
  have hstored := storedValues_ownerKeys hF hr h hks
  simp only [placeOf, map_fst_ownerKeys hF hr h hks] at hordered
  rw [← hvalues] at hnodup hfirst hordered
  refine ⟨?_, fun v hv => ?_, hordered, hnodup, fun v hv => ?_, fun owner howner k hk => ?_⟩
  · rw [hvalues, ← hstored]
    exact distinctValues_sublist [] ks
  · rw [← hstored]
    exact (hfirst v hv).2
  · obtain ⟨owner, -, k, hk, hkey⟩ := owner_of_mem_ownerValues hF hr h hv
    refine ⟨k, hkey, ?_⟩
    simp only [keyOf] at hk
    split at hk
    · obtain ⟨w, -, hw⟩ := Option.bind_eq_some_iff.mp hk
      have hnonzero := (Option.filter_eq_some_iff.mp hw).2
      simpa using hnonzero
    · cases hk
  · obtain ⟨v, hv, hkey⟩ := List.mem_filterMap.mp (mem_ownerValues hF hr h howner hk)
    exact List.mem_map.mpr ⟨v, hv, hkey⟩

theorem ownerValues_ne_nil_iff (hF : F.DistinctNames) (hr : F.Grounded r)
    (h : F.AllConform r.owner owners) :
    F.ownerValues r owners ≠ [] ↔ ∃ owner ∈ owners, (F.keyOf r owner).isSome := by
  constructor
  · intro hne
    obtain ⟨v, hv⟩ := List.exists_mem_of_ne_nil _ hne
    obtain ⟨owner, howner, k, hk, -⟩ := owner_of_mem_ownerValues hF hr h hv
    exact ⟨owner, howner, by rw [hk]; rfl⟩
  · rintro ⟨owner, howner, hkey⟩ hnil
    obtain ⟨k, hk⟩ := Option.isSome_iff_exists.mp hkey
    have hmem := mem_ownerValues hF hr h howner hk
    rw [hnil] at hmem
    cases hmem

theorem values_statementOf {s : Step M} (hrefine : s.handler.bind Handler.refine = none)
    (d : Dialect) {keys : List Value} (hkeys : keys ≠ []) :
    (statementOf d s keys).values = keys := by
  rw [statementOf_eq hrefine, selectRelated_eq]
  exact Store.values_render _ hkeys

/-! ### The statements of a run -/

variable [DecidableEq M] {W : Workshop M} {root : Schema M} {handlers : List Handler} {p : Plan M}
  {E : Executor σ} {d : Dialect} {s : Step M} {roots : List (Record M)} {state : σ}

theorem Arrives.conform (hF : W.family.DistinctNames) (hN : W.family.FilledNames)
    (hroot : W.direct root.model = .ok root) (hserves : Plan.Serves W root handlers [] p)
    (hroots : W.family.AllConform root.model roots)
    (h : W.family.Arrives E d p roots state s owners) :
    W.family.Grounded s.relation ∧ W.family.AllConform s.relation.owner owners := by
  obtain ⟨before, after, more, next, rfl, hrun, howners⟩ := h
  have hs : s ∈ before ++ s :: after := List.mem_append_right before List.mem_cons_self
  obtain ⟨done, owner, name, hplaced⟩ := hserves.placed s hs
  have hmore : W.family.AllConform root.model
      (W.family.runPlan E d before roots state).state.1 :=
    (runPlan_frame (q := fun _ => False) hF hN hroot
      (fun t ht => hserves.placed t (List.mem_append_left _ ht))
      (fun t ht => hserves.named t (List.mem_append_left _ ht)) hroots fun _ _ _ _ _ h => h).1
  rw [hrun] at hmore
  obtain ⟨owners', -, hconform, howners', -⟩ :=
    hplaced.ownersOf hF hN hroot (hserves.named s hs) hmore
  cases howners.symm.trans howners'
  exact ⟨(hplaced.follows hroot).grounded, hconform⟩

/-- The statements of a preload without refining handlers come in the order of its plan, which has
one step for every beginning of a path. A step sends at most one statement, whatever the number of
its owners, and it binds the keys that the owners need. A preload that goes well sends a statement
for exactly the steps that have an owner with a key. -/
theorem preload_sends_needed_keys {config : Config} {R : Registry M} (hR : R.Reached F config)
    (hF : F.DistinctNames) (hN : F.FilledNames) (E : Executor σ) (d : Dialect) {model : M}
    (hroots : F.AllConform model roots) (hplain : ∀ g ∈ handlers, g.refine = none)
    (hp : R.planFor F model handlers = .ok p) (state : σ) :
    (p.Pairwise fun s t => s.depth < t.depth ∨ (s.depth = t.depth ∧ s.path < t.path)) ∧
    (p.map Step.names).Nodup ∧
    (∀ names, names ∈ p.map Step.names ↔ names ≠ [] ∧ ∃ g ∈ handlers, names <+: g.names) ∧
    ∃ issued : List (Request M),
      F.sent E d model handlers ⟨R, roots, state⟩ = issued.map (Request.statement F d) ∧
      (issued.map Request.step).Sublist p ∧
      (∀ q ∈ issued, F.Arrives E d p roots state q.step q.owners ∧
        q.statement F d =
          d.render (selectRelated q.step.target q.step.relation (q.values F) q.step.unscoped) ∧
        (q.statement F d).values = q.values F ∧
        F.Needed q.step.relation q.owners (q.values F)) ∧
      ((F.preload E d model handlers ⟨R, roots, state⟩).result = .ok () →
        ∀ s ∈ p, ∃ owners, F.Arrives E d p roots state s owners ∧
          (s ∈ issued.map Request.step ↔
            ∃ owner ∈ owners, (F.keyOf s.relation owner).isSome)) := by
  have hfaithful := hR.faithful
  obtain ⟨root, rfl, hroot, hserves⟩ := hfaithful.planFor_serves hp
  have hcovers := hserves.covers hfaithful hroot
  have harrives : ∀ s owners, F.Arrives E d p roots state s owners →
      F.Grounded s.relation ∧ F.AllConform s.relation.owner owners := fun s owners h =>
    h.conform (W := Workshop.ofConfig F config) hF hN hroot.direct hserves hroots
  have hsent := sent_eq (E := E) (d := d) hfaithful root.model handlers roots state
  simp only [requested, hp] at hsent
  refine ⟨hcovers.sorted, hcovers.once, hcovers.asked, F.requests E d p roots state, hsent,
    requests_sublist, fun q hq => ?_, fun hok s hs => ?_⟩
  · obtain ⟨harrived, hvalues⟩ := arrives_of_mem_requests hq
    obtain ⟨hgrounded, hconform⟩ := harrives q.step q.owners harrived
    have hstep : q.step ∈ p := requests_sublist.subset (List.mem_map.mpr ⟨q, hq, rfl⟩)
    have hrefine := hserves.refine_eq_none hplain hstep
    exact ⟨harrived, statementOf_eq hrefine d _, values_statementOf hrefine d hvalues,
      needed_ownerValues hF hgrounded hconform⟩
  · obtain ⟨registry, -, hrun⟩ := preload_eq_runPlan hfaithful root.model handlers
    rw [hrun, hp] at hok
    obtain ⟨owners, harrived, hsends⟩ := arrives_of_done hok hs
    obtain ⟨hgrounded, hconform⟩ := harrives s owners harrived
    refine ⟨owners, harrived, ?_⟩
    rw [← ownerValues_ne_nil_iff hF hgrounded hconform]
    constructor
    · intro hmem
      obtain ⟨q, hq, rfl⟩ := List.mem_map.mp hmem
      obtain ⟨harrived', hvalues⟩ := arrives_of_mem_requests hq
      rw [harrived.unique hcovers.once.of_map harrived']
      exact hvalues
    · intro hvalues
      exact List.mem_map.mpr ⟨_, hsends hvalues, rfl⟩

end Family

/-! ### The keys of three authors -/

namespace Registry

theorem isSome_planFor_books :
    ((ofConfig 0 .standard).planFor shelf .author booksHandlers).toOption.isSome := by
  decide +kernel

/-- Two of the three authors have a key, and it is the same one. -/
theorem preload_authors_sends_needed_keys : ∃ (p : Plan Shelf) (issued : List (Request Shelf)),
    (ofConfig 0 .standard).planFor shelf .author booksHandlers = .ok p ∧
    shelf.sent bookExecutor .postgres .author booksHandlers
      ⟨ofConfig 0 .standard, threeAuthors, 0⟩ = issued.map (Request.statement shelf .postgres) ∧
    (issued.map Request.step).Sublist p ∧
    ∀ q ∈ issued, shelf.Needed q.step.relation q.owners (q.values shelf) := by
  obtain ⟨p, hp⟩ := exists_ok isSome_planFor_books
  have hplain : ∀ g ∈ booksHandlers, g.refine = none := by
    intro g hg
    rw [List.mem_singleton.mp hg]
    rfl
  obtain ⟨-, -, -, issued, hsent, hsublist, hissued, -⟩ :=
    Family.preload_sends_needed_keys (Reached.fresh 0) distinctNames_shelf filledNames_shelf
      bookExecutor .postgres threeAuthors_conform hplain hp 0
  exact ⟨p, issued, hp, hsent, hsublist, fun q hq => (hissued q hq).2.2.2⟩

example : (shelf.sent bookExecutor .postgres .author booksHandlers
    ⟨ofConfig 0 .standard, threeAuthors, 0⟩).map (fun s => s.values.map Key.ofValue?) =
      [[some (.int 7)], [some (.int 7)]] := by
  decide +kernel

end Registry

end RecordGraph
