import Mathlib.Data.List.Nodup
import RecordGraph.Proofs.Walk.Reaching

/-!
# Records that conform to their models

A record conforms to its model if every slot belongs to the declared field in its place and every
attached record is a conforming one of the target. Fields with distinct names are then found in
their places, and writing a column keeps a record conforming.
-/

namespace RecordGraph

variable {M R : Type}

/-- The model whose records a slot holds. -/
def Slot.target? : Slot M R → Option M
  | column _ _ => none
  | reference target _ => some target
  | collection target _ => some target

theorem Slot.target?_mapRecords {f : R → R} {s : Slot M R} :
    (s.mapRecords f).target? = s.target? := by
  cases s <;> rfl

namespace Family

/-- In every model the fields have distinct names. -/
def DistinctNames (F : Family M) : Prop := ∀ m, ((F.model m).fields.map FieldDecl.name).Nodup

/-- Slots belong to their fields, and attached records conform to their targets. -/
inductive Conforms (F : Family M) : Record M → Prop where
  | intro {r : Record M}
      (length_eq : r.slots.length = (F.model r.model).fields.length)
      (fits : ∀ (i : Nat) (d : FieldDecl M) (s : Slot M (Record M)),
        (F.model r.model).fields[i]? = some d → r.slots[i]? = some s → d.type.Fits s)
      (targets : ∀ s ∈ r.slots, ∀ cs, s.records? = some cs → ∀ c ∈ cs,
        s.target? = some c.model)
      (attached : ∀ s ∈ r.slots, ∀ cs, s.records? = some cs → ∀ c ∈ cs, Conforms F c) :
      Conforms F r

/-- The slot belongs to a field of the type, and what is attached conforms to the target. -/
structure Suits (F : Family M) (type : FieldType M) (s : Slot M (Record M)) : Prop where
  fits : type.Fits s
  attached : ∀ cs, s.records? = some cs → ∀ c ∈ cs, s.target? = some c.model ∧ F.Conforms c

variable {F : Family M}

/-! ### Finding fields -/

theorem position?_of_nodup {m : M} (h : ((F.model m).fields.map FieldDecl.name).Nodup) {i : Nat}
    {d : FieldDecl M} (hd : (F.model m).fields[i]? = some d) :
    (F.model m).position? d.name = some i := by
  obtain ⟨hlt, hget⟩ := List.getElem?_eq_some_iff.mp hd
  refine List.findIdx?_eq_some_iff_getElem.mpr ⟨hlt, by simp [hget], fun j hj => ?_⟩
  have hjlt : j < (F.model m).fields.length := by omega
  have hne : (F.model m).fields[j].name ≠ d.name := by
    intro he
    refine List.nodup_iff_getElem?_ne_getElem?.mp h j i hj (by simpa using hlt) ?_
    rw [List.getElem?_map, List.getElem?_map, hd, List.getElem?_eq_getElem hjlt, Option.map_some,
      Option.map_some, he]
  simpa using hne

theorem position?_of_declared (hF : F.DistinctNames) {m : M} {i : Nat} {d : FieldDecl M}
    (hd : (F.model m).fields[i]? = some d) : (F.model m).position? d.name = some i :=
  position?_of_nodup (hF m) hd

theorem Conforms.suits {r : Record M} (h : F.Conforms r) {i : Nat} {d : FieldDecl M}
    {s : Slot M (Record M)} (hd : (F.model r.model).fields[i]? = some d)
    (hs : r.slots[i]? = some s) : F.Suits d.type s := by
  cases h with
  | intro _ fits targets attached =>
    have hmem := List.mem_of_getElem? hs
    exact ⟨fits i d s hd hs, fun cs hcs c hc =>
      ⟨targets s hmem cs hcs c hc, attached s hmem cs hcs c hc⟩⟩

theorem Conforms.exists_slot {r : Record M} (h : F.Conforms r) {i : Nat} {d : FieldDecl M}
    (hd : (F.model r.model).fields[i]? = some d) : ∃ s, r.slots[i]? = some s := by
  cases h with
  | intro length_eq _ _ _ =>
    have hlt := (List.getElem?_eq_some_iff.mp hd).1
    exact ⟨_, List.getElem?_eq_getElem (length_eq ▸ hlt)⟩

theorem Conforms.locate (h : F.DistinctNames) {r : Record M} (hr : F.Conforms r) {i : Nat}
    {d : FieldDecl M} (hd : (F.model r.model).fields[i]? = some d) :
    ∃ s, F.locate r d.name = .ok (i, d, s) ∧ r.slots[i]? = some s ∧ F.Suits d.type s := by
  obtain ⟨s, hs⟩ := hr.exists_slot hd
  exact ⟨s, locate_of (position?_of_declared h hd) hd hs, hs, hr.suits hd hs⟩

theorem locate_setSlot_ne {r : Record M} {name : String} {j : Nat} {d : FieldDecl M}
    {t : Slot M (Record M)} (hd : (F.model r.model).fields[j]? = some d) (hne : name ≠ d.name) :
    F.locate (r.setSlot j t) name = F.locate r name := by
  have absent : (F.model r.model).position? name ≠ some j := by
    intro hj
    obtain ⟨hlt, hname, -⟩ := List.findIdx?_eq_some_iff_getElem.mp hj
    rw [List.getElem?_eq_getElem hlt] at hd
    cases hd
    have hname : (F.model r.model).fields[j].name = name := by simpa using hname
    exact hne hname.symm
  simp only [Family.locate, Record.model_setSlot, Record.slots_setSlot]
  cases hi : (F.model r.model).position? name with
  | none => rfl
  | some i =>
    have hij : j ≠ i := by
      rintro rfl
      exact absent hi
    simp only [List.getElem?_set_ne hij]

theorem getField_setSlot_ne {r : Record M} {name : String} {j : Nat} {d : FieldDecl M}
    {t : Slot M (Record M)} (hd : (F.model r.model).fields[j]? = some d) (hne : name ≠ d.name) :
    F.getField (r.setSlot j t) name = F.getField r name := by
  simp only [getField, locate_setSlot_ne hd hne]

theorem getField_of_locate {r : Record M} {name : String} {i : Nat} {d : FieldDecl M}
    {s : Slot M (Record M)} (h : F.locate r name = .ok (i, d, s)) :
    F.getField r name = .ok s.read := by
  simp only [getField, h]

/-! ### Changing slots -/

theorem Conforms.setSlot {r : Record M} (h : F.Conforms r) {i : Nat} {d : FieldDecl M}
    {t : Slot M (Record M)} (hd : (F.model r.model).fields[i]? = some d) (ht : F.Suits d.type t) :
    F.Conforms (r.setSlot i t) := by
  have suits : ∀ s ∈ (r.setSlot i t).slots, ∀ cs, s.records? = some cs → ∀ c ∈ cs,
      s.target? = some c.model ∧ F.Conforms c := by
    intro s hs
    rw [Record.slots_setSlot] at hs
    rcases List.mem_or_eq_of_mem_set hs with hs | rfl
    · cases h with
      | intro _ _ targets attached =>
        exact fun cs hcs c hc => ⟨targets s hs cs hcs c hc, attached s hs cs hcs c hc⟩
    · exact ht.attached
  cases h with
  | intro length_eq fits _ _ =>
    refine .intro ?_ (fun j e s he hs => ?_) (fun s hs cs hcs c hc => (suits s hs cs hcs c hc).1)
      fun s hs cs hcs c hc => (suits s hs cs hcs c hc).2
    · simpa using length_eq
    · rw [Record.slots_setSlot] at hs
      by_cases hij : i = j
      · subst hij
        have hlt : i < r.slots.length := length_eq ▸ (List.getElem?_eq_some_iff.mp hd).1
        rw [List.getElem?_set_self hlt] at hs
        cases hs
        cases hd.symm.trans he
        exact ht.fits
      · rw [List.getElem?_set_ne hij] at hs
        exact fits j e s he hs

theorem suits_blank (type : FieldType M) : F.Suits type type.blank := by
  cases type with
  | column T => exact ⟨rfl, fun _ hcs => nomatch hcs⟩
  | reference target boxed =>
    refine ⟨rfl, fun cs hcs c hc => ?_⟩
    cases hcs
    cases hc
  | collection target through =>
    refine ⟨rfl, fun cs hcs c hc => ?_⟩
    cases hcs
    cases hc

theorem conforms_blank (m : M) : F.Conforms (F.blank m) := by
  have slots_eq : (F.blank m).slots = (F.model m).fields.map fun f => f.type.blank := rfl
  have suits : ∀ s ∈ (F.blank m).slots, ∀ cs, s.records? = some cs → ∀ c ∈ cs,
      s.target? = some c.model ∧ F.Conforms c := by
    intro s hs
    rw [slots_eq] at hs
    obtain ⟨d, -, rfl⟩ := List.mem_map.mp hs
    exact (suits_blank d.type).attached
  refine .intro ?_ (fun i d s hd hs => ?_) (fun s hs cs hcs c hc => (suits s hs cs hcs c hc).1)
    fun s hs cs hcs c hc => (suits s hs cs hcs c hc).2
  · rw [slots_eq, List.length_map]
    rfl
  · have hd : (F.model m).fields[i]? = some d := hd
    rw [slots_eq, List.getElem?_map, hd] at hs
    cases hs
    exact (suits_blank (F := F) d.type).fits

/-! ### Associations -/

/-- The records are conforming ones of a model. -/
def AllConform (F : Family M) (m : M) (rs : List (Record M)) : Prop :=
  ∀ r ∈ rs, r.model = m ∧ F.Conforms r

theorem Suits.target? {type : FieldType M} {s : Slot M (Record M)} {t : M} (h : F.Suits type s)
    (ht : type.target? = some t) : s.target? = some t := by
  have hfits := h.fits
  cases type with
  | column T => cases ht
  | reference target boxed =>
    cases ht
    cases s with
    | column U x => exact hfits.elim
    | reference u record => exact congrArg some (Eq.symm hfits)
    | collection u records => exact hfits.elim
  | collection target through =>
    cases ht
    cases s with
    | column U x => exact hfits.elim
    | reference u record => exact hfits.elim
    | collection u records => exact congrArg some (Eq.symm hfits)

theorem Suits.records {type : FieldType M} {s : Slot M (Record M)} {t : M} (h : F.Suits type s)
    (ht : type.target? = some t) : ∃ rs, s.records? = some rs ∧ F.AllConform t rs := by
  have htarget := h.target? ht
  obtain ⟨rs, hrs⟩ : ∃ rs, s.records? = some rs := by
    cases s with
    | column U x => cases htarget
    | reference u record => exact ⟨_, rfl⟩
    | collection u records => exact ⟨_, rfl⟩
  refine ⟨rs, hrs, fun c hc => ?_⟩
  obtain ⟨hmodel, hconforms⟩ := h.attached rs hrs c hc
  exact ⟨Option.some_inj.mp (hmodel.symm.trans htarget), hconforms⟩

theorem follow_conform (hF : F.DistinctNames) {m t : M} {i : Nat} {d : FieldDecl M}
    (hd : (F.model m).fields[i]? = some d) (ht : d.type.target? = some t) {rs : List (Record M)}
    (h : F.AllConform m rs) : ∃ below, F.follow d.name rs = .ok below ∧ F.AllConform t below := by
  induction rs with
  | nil => exact ⟨[], rfl, fun _ hr => nomatch hr⟩
  | cons r rs ih =>
    obtain ⟨hm, hr⟩ := h r List.mem_cons_self
    obtain ⟨there, hthere, hconform⟩ := ih fun x hx => h x (List.mem_cons_of_mem r hx)
    obtain ⟨s, hlocate, -, hsuits⟩ := hr.locate hF (hm.symm ▸ hd)
    obtain ⟨here, hhere, hconform'⟩ := hsuits.records ht
    refine ⟨here ++ there, follow_cons.mpr ⟨here, there, ?_, hthere, rfl⟩, fun x hx => ?_⟩
    · exact children_of_locate hlocate hhere
    · rcases List.mem_append.mp hx with hx | hx
      · exact hconform' x hx
      · exact hconform x hx

/-! ### Columns -/

theorem Suits.column {T : ColumnType} {s : Slot M (Record M)} (h : F.Suits (.column T) s) :
    ∃ x, s = .column T x := by
  cases s with
  | column U x =>
    have hT : T = U := h.fits
    subst hT
    exact ⟨x, rfl⟩
  | reference target record => exact h.fits.elim
  | collection target records => exact h.fits.elim

theorem suits_column (T : ColumnType) (x : T.Carrier) :
    F.Suits (.column T) (.column T x : Slot M (Record M)) :=
  ⟨rfl, fun _ hcs => nomatch hcs⟩

theorem Conforms.getField_column (h : F.DistinctNames) {r : Record M} (hr : F.Conforms r) {i : Nat}
    {d : FieldDecl M} {T : ColumnType} (hd : (F.model r.model).fields[i]? = some d)
    (hT : d.type = .column T) :
    ∃ x, F.getField r d.name = .ok (.column (T.toValue x)) ∧ r.slots[i]? = some (.column T x) := by
  obtain ⟨s, hlocate, hs, hsuits⟩ := hr.locate h hd
  rw [hT] at hsuits
  obtain ⟨x, rfl⟩ := hsuits.column
  exact ⟨x, getField_of_locate hlocate, hs⟩

section

variable [DecidableEq M]

theorem writeAt_column {r : Record M} {i : Nat} {d : FieldDecl M} {T : ColumnType} {x : T.Carrier}
    (v : Value) :
    F.writeAt .replace r i d (.column T x) (.column v) =
      match T.scan v with
      | .ok y => .done (r.setSlot i (.column T y)) ()
      | .error e => .failed (r.setSlot i (.column T x))
          (.typeMismatch (F.model r.model).name d.name e.expected e.actual) := by
  simp only [writeAt, writeSlot]
  cases T.scan v <;> rfl

theorem checkTarget_ok {t : M} {c : Record M} (h : c.model = t) : F.checkTarget t c = .ok c := by
  simp only [checkTarget, h, if_true]

theorem checkTargets_ok {t : M} {cs : List (Record M)} (h : ∀ c ∈ cs, c.model = t) :
    F.checkTargets t cs = .ok cs := by
  induction cs with
  | nil => rfl
  | cons c cs ih =>
    have hrest := ih fun x hx => h x (List.mem_cons_of_mem c hx)
    simp only [checkTargets, checkTarget_ok (h c List.mem_cons_self), hrest]

end

end Family

end RecordGraph
