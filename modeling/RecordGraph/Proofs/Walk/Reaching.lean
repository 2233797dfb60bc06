import RecordGraph.Walk.Update

/-!
# Changing all records that a walk reaches

An operation that goes well on every record that a list of names leads to changes exactly these
records: the walk afterwards leads to the changed records, in the same order.
-/

namespace RecordGraph

variable {M : Type}

def Slot.mapRecords {R : Type} (f : R → R) : Slot M R → Slot M R
  | column T x => column T x
  | reference target record => reference target (record.map f)
  | collection target records => collection target (records.map f)

namespace Slot

variable {R : Type} {f g : R → R} {s : Slot M R}

theorem records?_mapRecords : (s.mapRecords f).records? = s.records?.map (List.map f) := by
  cases s with
  | column T x => rfl
  | reference target record => cases record <;> rfl
  | collection target records => rfl

theorem mapRecords_congr (h : ∀ rs, s.records? = some rs → ∀ r ∈ rs, f r = g r) :
    s.mapRecords f = s.mapRecords g := by
  cases s with
  | column T x => rfl
  | reference target record =>
    cases record with
    | none => rfl
    | some r =>
      have hr : f r = g r := h [r] rfl r List.mem_cons_self
      simp only [mapRecords, Option.map_some, hr]
  | collection target records =>
    have hrs : records.map f = records.map g := List.map_congr_left (h records rfl)
    simp only [mapRecords, hrs]

theorem mapRecords_eq_self {rs : List R} (hs : s.records? = some rs) (h : rs.map f = rs) :
    s.mapRecords f = s := by
  cases s with
  | column T x => rfl
  | reference target record =>
    cases record with
    | none => rfl
    | some r =>
      cases hs
      have hr : f r = r := by simpa using h
      simp only [mapRecords, Option.map_some, hr]
  | collection target records =>
    cases hs
    simp only [mapRecords, h]

end Slot

namespace Family

variable {F : Family M}

/-- The record with every record changed that the names lead to. -/
def mapAt (F : Family M) (g : Record M → Record M) : List String → Record M → Record M
  | [], r => g r
  | name :: names, r =>
    match F.locate r name with
    | .error _ => r
    | .ok (i, _, slot) => r.setSlot i (slot.mapRecords (mapAt F g names))

/-! ### Places of fields -/

theorem locate_cases {r : Record M} {name : String} {i : Nat} {d : FieldDecl M}
    {s : Slot M (Record M)} (h : F.locate r name = .ok (i, d, s)) :
    (F.model r.model).position? name = some i ∧ (F.model r.model).fields[i]? = some d ∧
      r.slots[i]? = some s := by
  simp only [locate] at h
  split at h
  · cases h
  · rename_i j hj
    split at h
    · rename_i e t he ht
      cases h
      exact ⟨hj, he, ht⟩
    · cases h

theorem locate_of {r : Record M} {name : String} {i : Nat} {d : FieldDecl M}
    {s : Slot M (Record M)} (hi : (F.model r.model).position? name = some i)
    (hd : (F.model r.model).fields[i]? = some d) (hs : r.slots[i]? = some s) :
    F.locate r name = .ok (i, d, s) := by
  simp only [locate, hi, hd, hs]

theorem exists_of_position? {m : M} {name : String} {i : Nat}
    (h : (F.model m).position? name = some i) : ∃ d, (F.model m).fields[i]? = some d := by
  obtain ⟨hlt, -, -⟩ := List.findIdx?_eq_some_iff_getElem.mp h
  exact ⟨_, List.getElem?_eq_getElem hlt⟩

theorem locate_setSlot {r : Record M} {name : String} {i : Nat} {d : FieldDecl M}
    {s t : Slot M (Record M)} (h : F.locate r name = .ok (i, d, s)) :
    F.locate (r.setSlot i t) name = .ok (i, d, t) := by
  obtain ⟨hi, hd, hs⟩ := locate_cases h
  refine locate_of hi hd ?_
  have hlt := (List.getElem?_eq_some_iff.mp hs).1
  rw [Record.slots_setSlot, List.getElem?_set_self hlt]

theorem children_of_locate {r : Record M} {name : String} {i : Nat} {d : FieldDecl M}
    {s : Slot M (Record M)} {rs : List (Record M)} (h : F.locate r name = .ok (i, d, s))
    (hs : s.records? = some rs) : F.children name r = .ok rs := by
  simp only [children, h, hs]

theorem children_cases {r : Record M} {name : String} {rs : List (Record M)}
    (h : F.children name r = .ok rs) :
    ∃ i d s, F.locate r name = .ok (i, d, s) ∧ s.records? = some rs := by
  simp only [children] at h
  split at h
  · cases h
  · rename_i i d s hlocate
    split at h
    · rename_i rs' hrs
      cases h
      exact ⟨i, d, s, hlocate, hrs⟩
    · cases h

/-! ### Walks -/

theorem follow_cons {name : String} {r : Record M} {rs below : List (Record M)} :
    F.follow name (r :: rs) = .ok below ↔
      ∃ here there, F.children name r = .ok here ∧ F.follow name rs = .ok there ∧
        below = here ++ there := by
  simp only [follow]
  constructor
  · intro h
    split at h
    · cases h
    · rename_i here hhere
      split at h
      · cases h
      · rename_i there hthere
        cases h
        exact ⟨here, there, hhere, hthere, rfl⟩
  · rintro ⟨here, there, hhere, hthere, rfl⟩
    simp only [hhere, hthere]

theorem reach_cons_name {name : String} {names : List String} {rs leaves : List (Record M)} :
    F.reach (name :: names) rs = .ok leaves ↔
      ∃ below, F.follow name rs = .ok below ∧ F.reach names below = .ok leaves := by
  simp only [reach]
  constructor
  · intro h
    split at h
    · cases h
    · rename_i below hbelow
      exact ⟨below, hbelow, h⟩
  · rintro ⟨below, hbelow, h⟩
    simp only [hbelow, h]

theorem follow_append {name : String} {rs ts below : List (Record M)} :
    F.follow name (rs ++ ts) = .ok below ↔
      ∃ first second, F.follow name rs = .ok first ∧ F.follow name ts = .ok second ∧
        below = first ++ second := by
  induction rs generalizing below with
  | nil =>
    constructor
    · intro h
      exact ⟨[], below, rfl, h, rfl⟩
    · rintro ⟨first, second, hfirst, hsecond, rfl⟩
      cases hfirst
      exact hsecond
  | cons r rs ih =>
    rw [List.cons_append, follow_cons]
    constructor
    · rintro ⟨here, there, hhere, hthere, rfl⟩
      obtain ⟨first, second, hfirst, hsecond, rfl⟩ := ih.mp hthere
      exact ⟨here ++ first, second, follow_cons.mpr ⟨here, first, hhere, hfirst, rfl⟩, hsecond,
        (List.append_assoc here first second).symm⟩
    · rintro ⟨first, second, hfirst, hsecond, rfl⟩
      obtain ⟨here, there, hhere, hthere, rfl⟩ := follow_cons.mp hfirst
      exact ⟨here, there ++ second, hhere, ih.mpr ⟨there, second, hthere, hsecond, rfl⟩,
        List.append_assoc here there second⟩

theorem reach_append {names : List String} {rs ts leaves : List (Record M)} :
    F.reach names (rs ++ ts) = .ok leaves ↔
      ∃ first second, F.reach names rs = .ok first ∧ F.reach names ts = .ok second ∧
        leaves = first ++ second := by
  induction names generalizing rs ts leaves with
  | nil =>
    constructor
    · intro h
      cases h
      exact ⟨rs, ts, rfl, rfl, rfl⟩
    · rintro ⟨first, second, hfirst, hsecond, rfl⟩
      cases hfirst
      cases hsecond
      rfl
  | cons name names ih =>
    constructor
    · intro h
      obtain ⟨below, hbelow, h⟩ := reach_cons_name.mp h
      obtain ⟨first, second, hfirst, hsecond, rfl⟩ := follow_append.mp hbelow
      obtain ⟨a, b, ha, hb, rfl⟩ := ih.mp h
      exact ⟨a, b, reach_cons_name.mpr ⟨first, hfirst, ha⟩,
        reach_cons_name.mpr ⟨second, hsecond, hb⟩, rfl⟩
    · rintro ⟨a, b, ha, hb, rfl⟩
      obtain ⟨first, hfirst, ha⟩ := reach_cons_name.mp ha
      obtain ⟨second, hsecond, hb⟩ := reach_cons_name.mp hb
      exact reach_cons_name.mpr ⟨first ++ second,
        follow_append.mpr ⟨first, second, hfirst, hsecond, rfl⟩, ih.mpr ⟨a, b, ha, hb, rfl⟩⟩

theorem reach_cons {names : List String} {r : Record M} {rs leaves : List (Record M)} :
    F.reach names (r :: rs) = .ok leaves ↔
      ∃ first second, F.reach names [r] = .ok first ∧ F.reach names rs = .ok second ∧
        leaves = first ++ second := by
  rw [← List.singleton_append, reach_append]

theorem reach_nil_records {names : List String} : F.reach names [] = .ok [] := by
  induction names with
  | nil => rfl
  | cons name names ih => exact reach_cons_name.mpr ⟨[], rfl, ih⟩

theorem reach_one {name : String} {names : List String} {r : Record M} {leaves : List (Record M)} :
    F.reach (name :: names) [r] = .ok leaves ↔
      ∃ here, F.children name r = .ok here ∧ F.reach names here = .ok leaves := by
  rw [reach_cons_name]
  constructor
  · rintro ⟨below, hbelow, h⟩
    obtain ⟨here, there, hhere, hthere, rfl⟩ := follow_cons.mp hbelow
    cases hthere
    rw [List.append_nil] at h
    exact ⟨here, hhere, h⟩
  · rintro ⟨here, hhere, h⟩
    exact ⟨here, follow_cons.mpr ⟨here, [], hhere, rfl, (List.append_nil here).symm⟩, h⟩

/-- A walk told one record after the other: what the remaining names lead to from the records below
comes before what all names lead to from the other records. -/
inductive Reaches (F : Family M) : List String → List (Record M) → List (Record M) → Prop where
  | here (rs : List (Record M)) : Reaches F [] rs rs
  | none (name : String) (names : List String) : Reaches F (name :: names) [] []
  | step {name : String} {names : List String} {r : Record M} {rs cs first second : List (Record M)}
      (children : F.children name r = .ok cs) (below : Reaches F names cs first)
      (others : Reaches F (name :: names) rs second) :
      Reaches F (name :: names) (r :: rs) (first ++ second)

theorem reaches_of_reach {names : List String} {rs leaves : List (Record M)}
    (h : F.reach names rs = .ok leaves) : F.Reaches names rs leaves := by
  induction names generalizing rs leaves with
  | nil =>
    cases h
    exact .here rs
  | cons name names ih =>
    induction rs generalizing leaves with
    | nil =>
      cases reach_nil_records.symm.trans h
      exact .none name names
    | cons r rs ihrs =>
      obtain ⟨first, second, hfirst, hsecond, rfl⟩ := reach_cons.mp h
      obtain ⟨cs, hcs, hfirst⟩ := reach_one.mp hfirst
      exact .step hcs (ih hfirst) (ihrs hsecond)

/-! ### Changes -/

/-- The operation goes well on every record that the names lead to. -/
def GoesWell (F : Family M) (op : Record M → Attempt (Record M) Unit) (g : Record M → Record M)
    (names : List String) (rs : List (Record M)) : Prop :=
  ∃ leaves, F.reach names rs = .ok leaves ∧ ∀ r ∈ leaves, op r = .done (g r) ()

theorem goesWell_cons {op : Record M → Attempt (Record M) Unit} {g : Record M → Record M}
    {names : List String} {r : Record M} {rs : List (Record M)}
    (h : F.GoesWell op g names (r :: rs)) :
    F.GoesWell op g names [r] ∧ F.GoesWell op g names rs := by
  obtain ⟨leaves, hleaves, hop⟩ := h
  obtain ⟨first, second, hfirst, hsecond, rfl⟩ := reach_cons.mp hleaves
  exact ⟨⟨first, hfirst, fun x hx => hop x (List.mem_append_left second hx)⟩,
    ⟨second, hsecond, fun x hx => hop x (List.mem_append_right first hx)⟩⟩

theorem visitList_goesWell {op : Record M → Attempt (Record M) Unit} {g : Record M → Record M}
    {names : List String}
    (one : ∀ r n, F.GoesWell op g names [r] →
      ∃ k, F.visitAt (untilFailure op) names (.ok n) r = (.ok k, F.mapAt g names r))
    {rs : List (Record M)} (n : Nat) (h : F.GoesWell op g names rs) :
    ∃ k, visitList (F.visitAt (untilFailure op) names) (.ok n) rs =
      (.ok k, rs.map (F.mapAt g names)) := by
  induction rs generalizing n with
  | nil => exact ⟨n, rfl⟩
  | cons r rs ih =>
    obtain ⟨hr, hrs⟩ := goesWell_cons h
    obtain ⟨k, hk⟩ := one r n hr
    obtain ⟨l, hl⟩ := ih k hrs
    exact ⟨l, by simp only [visitList, hk, hl, List.map_cons]⟩

theorem visitAt_goesWell {op : Record M → Attempt (Record M) Unit} {g : Record M → Record M}
    (names : List String) (r : Record M) (n : Nat) (h : F.GoesWell op g names [r]) :
    ∃ k, F.visitAt (untilFailure op) names (.ok n) r = (.ok k, F.mapAt g names r) := by
  induction names generalizing r n with
  | nil =>
    obtain ⟨leaves, hleaves, hop⟩ := h
    cases hleaves
    have hr := hop r List.mem_cons_self
    exact ⟨n + 1, by simp only [visitAt, untilFailure, hr, Attempt.done, mapAt]⟩
  | cons name names ih =>
    obtain ⟨leaves, hleaves, hop⟩ := h
    obtain ⟨here, hhere, hleaves⟩ := reach_one.mp hleaves
    obtain ⟨i, d, s, hlocate, hs⟩ := children_cases hhere
    have below : F.GoesWell op g names here := ⟨leaves, hleaves, hop⟩
    simp only [visitAt, mapAt, hlocate]
    cases s with
    | column T x => cases hs
    | reference target record =>
      cases record with
      | none => exact ⟨n, rfl⟩
      | some c =>
        cases hs
        obtain ⟨k, hk⟩ := ih c n below
        exact ⟨k, by simp only [Slot.visit, hk, Slot.mapRecords, Option.map_some]⟩
    | collection target records =>
      cases hs
      obtain ⟨k, hk⟩ := visitList_goesWell ih n below
      exact ⟨k, by simp only [Slot.visit, hk, Slot.mapRecords]⟩

theorem updateAll_goesWell {op : Record M → Attempt (Record M) Unit} {g : Record M → Record M}
    {names : List String} {roots : List (Record M)} (h : F.GoesWell op g names roots) :
    ∃ k, F.updateAll op names roots = ⟨roots.map (F.mapAt g names), .ok k⟩ := by
  obtain ⟨k, hk⟩ := visitList_goesWell (fun r n => visitAt_goesWell names r n) 0 h
  exact ⟨k, by simp only [updateAll, hk]⟩

/-- After a change the names lead to the changed records. -/
theorem reach_mapAt {g : Record M → Record M} {names : List String} {rs leaves : List (Record M)}
    (h : F.reach names rs = .ok leaves) :
    F.reach names (rs.map (F.mapAt g names)) = .ok (leaves.map g) := by
  replace h := reaches_of_reach h
  induction h with
  | here rs => simp only [reach, mapAt]
  | none name names => exact reach_nil_records
  | @step name names r rs cs first second children below others ihbelow ihothers =>
    rw [List.map_cons, List.map_append]
    refine reach_cons.mpr ⟨first.map g, second.map g, ?_, ihothers, rfl⟩
    obtain ⟨i, d, s, hlocate, hs⟩ := children_cases children
    refine reach_one.mpr ⟨cs.map (F.mapAt g names), ?_, ihbelow⟩
    simp only [mapAt, hlocate]
    refine children_of_locate (locate_setSlot hlocate) ?_
    rw [Slot.records?_mapRecords, hs, Option.map_some]

theorem setSlot_eq_self {r : Record M} {i : Nat} {s : Slot M (Record M)}
    (h : r.slots[i]? = some s) : r.setSlot i s = r := by
  cases r with
  | mk m slots =>
    obtain ⟨hlt, hget⟩ := List.getElem?_eq_some_iff.mp h
    have hslots : slots.set i s = slots := by
      rw [← hget]
      exact List.set_getElem_self hlt
    exact congrArg (Record.mk m) hslots

theorem map_mapAt_of_reach_nil {g : Record M → Record M} {names : List String}
    {rs : List (Record M)} (h : F.reach names rs = .ok []) : rs.map (F.mapAt g names) = rs := by
  replace h := reaches_of_reach h
  generalize hnil : [] = leaves at h
  induction h with
  | here rs =>
    rw [← hnil]
    rfl
  | none name names => rfl
  | @step name names r rs cs first second children below others ihbelow ihothers =>
    obtain ⟨rfl, rfl⟩ := List.append_eq_nil_iff.mp hnil.symm
    obtain ⟨i, d, s, hlocate, hs⟩ := children_cases children
    have hslot : s.mapRecords (F.mapAt g names) = s :=
      Slot.mapRecords_eq_self hs (ihbelow rfl)
    have hr : F.mapAt g (name :: names) r = r := by
      simp only [mapAt, hlocate, hslot]
      exact setSlot_eq_self (locate_cases hlocate).2.2
    rw [List.map_cons, hr, ihothers rfl]

end Family

end RecordGraph
