import RecordGraph.Preload.Load
import RecordGraph.Proofs.Record.Conformity
import RecordGraph.Proofs.Schema.History

/-!
# What a relation step attaches

A step fetches rows for the keys of its owners, reads them into records of the target and attaches
to every owner the records with its key. The source key of an owner is read from a column that the
attaching does not touch, so every owner gets its own records whatever the others get.
-/

namespace RecordGraph

variable {M : Type}

namespace Family

variable {F : Family M} {r : Relation M}

/-! ### Keys of owners -/

/-- The key that counts: one that is not zero. -/
def presentKey? (v : Value) : Option Key := (Key.ofValue? v).filter fun k => !k.isZero

/-- The key of an owner under a relation. -/
def keyOf (F : Family M) (r : Relation M) (owner : Record M) : Option Key :=
  match F.getField owner r.source.field with
  | .ok v => v.value?.bind presentKey?
  | .error _ => none

theorem source_column (hF : F.DistinctNames) (hr : F.Grounded r) {owner : Record M}
    (hm : owner.model = r.owner) (ho : F.Conforms owner) :
    ∃ v, F.getField owner r.source.field = .ok (.column v) := by
  obtain ⟨d, hd, hname, T, hT⟩ := hr.source
  obtain ⟨i, hi⟩ := List.mem_iff_getElem?.mp hd
  obtain ⟨x, hx, -⟩ := ho.getField_column hF (hm ▸ hi) hT
  rw [hname] at hx
  exact ⟨T.toValue x, hx⟩

theorem ownerKey?_of_column {owner : Record M} {v : Value}
    (h : F.getField owner r.source.field = .ok (.column v)) :
    F.ownerKey? r owner = .ok ((F.keyOf r owner).map fun k => (k, v)) := by
  simp only [ownerKey?, keyOf, h, FieldValue.value?, Option.bind_some, presentKey?]
  cases Key.ofValue? v with
  | none => rfl
  | some k => cases hk : k.isZero <;> simp [Option.filter, hk]

theorem ownerKey?_ok (hF : F.DistinctNames) (hr : F.Grounded r) {owner : Record M}
    (hm : owner.model = r.owner) (ho : F.Conforms owner) :
    ∃ v, F.getField owner r.source.field = .ok (.column v) ∧
      F.ownerKey? r owner = .ok ((F.keyOf r owner).map fun k => (k, v)) := by
  obtain ⟨v, hv⟩ := source_column hF hr hm ho
  exact ⟨v, hv, ownerKey?_of_column hv⟩

theorem ownerKeys_ok (hF : F.DistinctNames) (hr : F.Grounded r) {owners : List (Record M)}
    (h : F.AllConform r.owner owners) :
    ∃ ks, F.ownerKeys r owners = .ok ks ∧
      ks.map (Option.map Prod.fst) = owners.map (F.keyOf r) := by
  induction owners with
  | nil => exact ⟨[], rfl, rfl⟩
  | cons owner owners ih =>
    obtain ⟨hm, ho⟩ := h owner List.mem_cons_self
    obtain ⟨v, -, hk⟩ := ownerKey?_ok hF hr hm ho
    obtain ⟨ks, hks, hmap⟩ := ih fun x hx => h x (List.mem_cons_of_mem owner hx)
    refine ⟨(F.keyOf r owner).map (fun k => (k, v)) :: ks, ?_, ?_⟩
    · simp only [ownerKeys, hk, hks]
    · rw [List.map_cons, List.map_cons, hmap, Option.map_map]
      cases F.keyOf r owner <;> rfl

theorem map_fst_ownerKeys (hF : F.DistinctNames) (hr : F.Grounded r) {owners : List (Record M)}
    (h : F.AllConform r.owner owners) {ks : List (Option (Key × Value))}
    (hks : F.ownerKeys r owners = .ok ks) :
    ks.map (Option.map Prod.fst) = owners.map (F.keyOf r) := by
  obtain ⟨ls, hls, hmap⟩ := ownerKeys_ok hF hr h
  cases hks.symm.trans hls
  exact hmap

/-! ### Attaching -/

def slotOf (r : Relation M) (records : List (Record M)) : Slot M (Record M) :=
  if r.kind.isToOne then .reference r.target records.head? else .collection r.target records

theorem read_slotOf (records : List (Record M)) :
    (slotOf r records).read = contentOf r records := by
  cases h : r.kind.isToOne <;> simp [slotOf, contentOf, h, Slot.read]

def matched (F : Family M) (r : Relation M) (fetched : List (Fetched M)) (owner : Record M) :
    List (Record M) :=
  match F.keyOf r owner with
  | none => []
  | some k => matching k fetched

def attached (F : Family M) (r : Relation M) (fetched : List (Fetched M)) (owner : Record M) :
    Record M := owner.setSlot r.index (slotOf r (F.matched r fetched owner))

theorem mem_matching {k : Key} {fetched : List (Fetched M)} {c : Record M} :
    c ∈ matching k fetched ↔ ∃ f ∈ fetched, f.key = some k ∧ f.record = c := by
  simp only [matching, List.mem_filterMap]
  constructor
  · rintro ⟨f, hf, h⟩
    split at h
    · rename_i hk
      exact ⟨f, hf, hk, Option.some_inj.mp h⟩
    · cases h
  · rintro ⟨f, hf, hk, hc⟩
    exact ⟨f, hf, by simp [hk, hc]⟩

theorem matching_eq (k : Key) (fetched : List (Fetched M)) :
    matching k fetched = (fetched.filter fun f => f.key = some k).map Fetched.record := by
  induction fetched with
  | nil => rfl
  | cons f fetched ih =>
    simp only [matching] at ih ⊢
    by_cases h : f.key = some k <;> simp [h, ih]

theorem mem_matched {fetched : List (Fetched M)} {owner c : Record M}
    (h : c ∈ F.matched r fetched owner) : ∃ f ∈ fetched, f.record = c := by
  simp only [matched] at h
  split at h
  · cases h
  · obtain ⟨f, hf, -, hc⟩ := mem_matching.mp h
    exact ⟨f, hf, hc⟩

theorem suits_slotOf (hr : F.Grounded r) {d : FieldDecl M}
    (hd : (F.model r.owner).fields[r.index]? = some d) {records : List (Record M)}
    (h : F.AllConform r.target records) : F.Suits d.type (slotOf r records) := by
  obtain ⟨e, he, -, hone, hmany⟩ := hr.association
  cases hd.symm.trans he
  cases hk : r.kind.isToOne with
  | true =>
    obtain ⟨boxed, hT⟩ := hone hk
    rw [hT]
    simp only [slotOf, hk, if_true]
    refine ⟨rfl, fun cs hcs c hc => ?_⟩
    cases hcs
    cases records with
    | nil => cases hc
    | cons b bs =>
      cases List.mem_singleton.mp hc
      obtain ⟨hmodel, hconforms⟩ := h c List.mem_cons_self
      exact ⟨congrArg some hmodel.symm, hconforms⟩
  | false =>
    obtain ⟨join, hT⟩ := hmany hk
    rw [hT]
    simp only [slotOf, hk]
    refine ⟨rfl, fun cs hcs c hc => ?_⟩
    cases hcs
    obtain ⟨hmodel, hconforms⟩ := h c hc
    exact ⟨congrArg some hmodel.symm, hconforms⟩

theorem attached_conforms (hr : F.Grounded r) {fetched : List (Fetched M)}
    (hfetched : ∀ f ∈ fetched, f.record.model = r.target ∧ F.Conforms f.record)
    {owner : Record M} (hm : owner.model = r.owner) (ho : F.Conforms owner) :
    (F.attached r fetched owner).model = r.owner ∧ F.Conforms (F.attached r fetched owner) := by
  obtain ⟨d, hd, -⟩ := hr.association
  refine ⟨hm, ho.setSlot (hm.symm ▸ hd) (suits_slotOf hr hd fun c hc => ?_)⟩
  obtain ⟨f, hf, rfl⟩ := mem_matched hc
  exact hfetched f hf

theorem getField_attached (hF : F.DistinctNames) (hr : F.Grounded r) (fetched : List (Fetched M))
    {owner : Record M} (hm : owner.model = r.owner) (ho : F.Conforms owner) :
    F.getField (F.attached r fetched owner) r.name =
      .ok (contentOf r (F.matched r fetched owner)) := by
  obtain ⟨d, hd, hname, -⟩ := hr.association
  rw [← hm] at hd
  obtain ⟨s, hlocate, -⟩ := ho.locate hF hd
  rw [hname] at hlocate
  rw [← read_slotOf]
  exact getField_of_locate (locate_setSlot hlocate)

theorem getField_attached_ne (hr : F.Grounded r) (fetched : List (Fetched M)) {owner : Record M}
    (hm : owner.model = r.owner) {name : String} (hne : name ≠ r.name) :
    F.getField (F.attached r fetched owner) name = F.getField owner name := by
  obtain ⟨d, hd, hname, -⟩ := hr.association
  rw [← hm] at hd
  exact getField_setSlot_ne hd (by rw [hname]; exact hne)

variable [DecidableEq M]

theorem assign_ok (hr : F.Grounded r) {owner : Record M} (hm : owner.model = r.owner)
    (ho : F.Conforms owner) {records : List (Record M)} (h : ∀ c ∈ records, c.model = r.target) :
    F.assign r (contentOf r records) owner =
      .done (owner.setSlot r.index (slotOf r records)) () := by
  obtain ⟨d, hd, -, hone, hmany⟩ := hr.association
  rw [← hm] at hd
  obtain ⟨s, hs⟩ := ho.exists_slot hd
  have hsuits := ho.suits hd hs
  simp only [assign, hd, hs, writeAt]
  cases hk : r.kind.isToOne with
  | true =>
    obtain ⟨boxed, hT⟩ := hone hk
    rw [hT] at hsuits
    cases s with
    | column T x => exact hsuits.fits.elim
    | collection t rs => exact hsuits.fits.elim
    | reference t record =>
      have ht : r.target = t := hsuits.fits
      subst ht
      cases records with
      | nil => simp [contentOf, slotOf, hk, writeSlot, Attempt.done]
      | cons c cs =>
        have hc := checkTarget_ok (F := F) (h c List.mem_cons_self)
        simp [contentOf, slotOf, hk, writeSlot, hc, Attempt.done]
  | false =>
    obtain ⟨join, hT⟩ := hmany hk
    rw [hT] at hsuits
    cases s with
    | column T x => exact hsuits.fits.elim
    | reference t record => exact hsuits.fits.elim
    | collection t rs =>
      have ht : r.target = t := hsuits.fits
      subst ht
      simp [contentOf, slotOf, hk, writeSlot, checkTargets_ok h, Attempt.done]

/-- Attaching records of the target never fails. -/
theorem attach_ok (hF : F.DistinctNames) (hr : F.Grounded r) {fetched : List (Fetched M)}
    (hfetched : ∀ f ∈ fetched, f.record.model = r.target) {owner : Record M}
    (hm : owner.model = r.owner) (ho : F.Conforms owner) :
    F.attach r fetched owner = .done (F.attached r fetched owner) () := by
  obtain ⟨v, -, hk⟩ := ownerKey?_ok hF hr hm ho
  have htargets : ∀ c ∈ F.matched r fetched owner, c.model = r.target := by
    intro c hc
    obtain ⟨f, hf, rfl⟩ := mem_matched hc
    exact hfetched f hf
  have hassign := assign_ok hr hm ho htargets
  simp only [attach, hk, attached]
  simp only [matched] at hassign ⊢
  cases hkey : F.keyOf r owner with
  | none =>
    simp only [hkey] at hassign
    exact hassign
  | some k =>
    simp only [hkey] at hassign
    exact hassign

end Family

end RecordGraph
