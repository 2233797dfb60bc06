import RecordGraph.Proofs.Preload.Hydration
import RecordGraph.Proofs.Schema.Direct
import RecordGraph.Proofs.Value.Storing

/-!
# Records of stored rows

A stored row holds in every mapped column the value of some datum of the type of the column, or the
column is absent. The cells of the mapped columns can then all be read, and every column of the
record read from them has the value of the row.
-/

namespace RecordGraph

variable {M : Type}

namespace Family

variable {F : Family M} {target : Schema M} {row : Row}

/-! ### The record of a row -/

/-- Reads the column of a field, if the row has it. -/
def readInto (row : Row) (record : Record M) (f : Field) : Record M :=
  match record.slots[f.index]?, row.get? f.column with
  | some (.column T _), some v =>
    match T.scan v with
    | .ok y => record.setSlot f.index (.column T y)
    | .error _ => record
  | _, _ => record

/-- The record of the mapped columns of a row. -/
def recordOf (F : Family M) (target : Schema M) (row : Row) : Record M :=
  target.mapped.foldl (readInto row) (F.blank target.model)

/-- Every value in a mapped column is that of a datum of its type. -/
def Stores (F : Family M) (target : Schema M) (row : Row) : Prop :=
  ∀ f ∈ target.mapped, ∀ v, row.get? f.column = some v →
    ∃ d T x, (F.model target.model).fields[f.index]? = some d ∧ d.type = .column T ∧
      v = T.toValue x

/-- Whether the value in the column of a field is that of a datum of its type. -/
def storesAt (F : Family M) (m : M) (row : Row) (f : Field) : Bool :=
  match row.get? f.column, (F.model m).fields[f.index]? with
  | none, _ => true
  | some v, some ⟨_, _, .column T⟩ => T.isOwn v
  | _, _ => false

theorem storesAt_iff (m : M) (f : Field) : F.storesAt m row f = true ↔
    ∀ v, row.get? f.column = some v → ∃ d T x, (F.model m).fields[f.index]? = some d ∧
      d.type = .column T ∧ v = T.toValue x := by
  simp only [storesAt]
  split
  · rename_i hnone
    simp [hnone]
  · rename_i v name annotation T hv hd
    rw [ColumnType.isOwn_iff]
    constructor
    · rintro ⟨x, hx⟩ w hw
      cases hv.symm.trans hw
      exact ⟨_, T, x, hd, rfl, hx⟩
    · intro h
      obtain ⟨d, U, x, hd', hU, hx⟩ := h v hv
      cases hd.symm.trans hd'
      cases hU
      exact ⟨x, hx⟩
  · rename_i hnone hcolumn
    refine ⟨(fun h => nomatch h), fun h => ?_⟩
    cases hv : row.get? f.column with
    | none => exact absurd hv hnone
    | some v =>
      obtain ⟨⟨name, annotation, type⟩, T, x, hd, hT, -⟩ := h v hv
      cases hT
      exact absurd hd (hcolumn v name annotation T hv)

instance : Decidable (F.Stores target row) :=
  decidable_of_iff (target.mapped.all (F.storesAt target.model row) = true) (by
    rw [List.all_eq_true]
    exact forall₂_congr fun f _ => storesAt_iff target.model f)

theorem readInto_cases (hrow : F.Stores target row) {f : Field} (hf : f ∈ target.mapped)
    {record : Record M} (hm : record.model = target.model) (hr : F.Conforms record) :
    (row.get? f.column = none ∧ readInto row record f = record) ∨
      ∃ v d T y, row.get? f.column = some v ∧ (F.model target.model).fields[f.index]? = some d ∧
        d.type = .column T ∧ T.scan v = .ok y ∧ T.toValue y = v ∧
        readInto row record f = record.setSlot f.index (.column T y) := by
  cases hv : row.get? f.column with
  | none =>
    refine Or.inl ⟨rfl, ?_⟩
    simp only [readInto, hv]
    split
    · rename_i he
      cases he
    · rfl
  | some v =>
    obtain ⟨d, T, x, hd, hT, rfl⟩ := hrow f hf v hv
    obtain ⟨y, hy, hsame⟩ := T.scan_toValue x
    have hdecl : (F.model record.model).fields[f.index]? = some d := hm ▸ hd
    obtain ⟨s, hs⟩ := hr.exists_slot hdecl
    have hsuits := hr.suits hdecl hs
    rw [hT] at hsuits
    obtain ⟨z, rfl⟩ := hsuits.column
    exact Or.inr ⟨_, d, T, y, rfl, hd, hT, hy, hsame, by simp only [readInto, hs, hv, hy]⟩

theorem readInto_conforms (hrow : F.Stores target row) {f : Field} (hf : f ∈ target.mapped)
    {record : Record M} (hm : record.model = target.model) (hr : F.Conforms record) :
    (readInto row record f).model = target.model ∧ F.Conforms (readInto row record f) := by
  rcases readInto_cases hrow hf hm hr with ⟨-, he⟩ | ⟨v, d, T, y, -, hd, hT, -, -, he⟩
  · rw [he]
    exact ⟨hm, hr⟩
  · rw [he]
    refine ⟨hm, hr.setSlot (hm ▸ hd) ?_⟩
    rw [hT]
    exact suits_column T y

theorem foldl_readInto_conforms (hrow : F.Stores target row) {fs : List Field}
    (hfs : ∀ f ∈ fs, f ∈ target.mapped) {record : Record M} (hm : record.model = target.model)
    (hr : F.Conforms record) : (fs.foldl (readInto row) record).model = target.model ∧
      F.Conforms (fs.foldl (readInto row) record) := by
  induction fs generalizing record with
  | nil => exact ⟨hm, hr⟩
  | cons f fs ih =>
    obtain ⟨hm, hr⟩ := readInto_conforms hrow (hfs f List.mem_cons_self) hm hr
    exact ih (fun g hg => hfs g (List.mem_cons_of_mem f hg)) hm hr

theorem recordOf_conforms (hrow : F.Stores target row) :
    (F.recordOf target row).model = target.model ∧ F.Conforms (F.recordOf target row) :=
  foldl_readInto_conforms hrow (fun _ hf => hf) rfl (conforms_blank target.model)

theorem foldl_readInto_slot (hrow : F.Stores target row)
    (hindex : ∀ f ∈ target.mapped, ∀ g ∈ target.mapped, f.index = g.index → f = g)
    {fs : List Field} (hfs : ∀ f ∈ fs, f ∈ target.mapped) {record : Record M}
    (hm : record.model = target.model) (hr : F.Conforms record) {f : Field}
    (hf : f ∈ target.mapped) {v : Value} (hv : row.get? f.column = some v) {T : ColumnType}
    {y : T.Carrier} (hscan : T.scan v = .ok y) {d : FieldDecl M}
    (hd : (F.model target.model).fields[f.index]? = some d) (hT : d.type = .column T)
    (h : f ∈ fs ∨ record.slots[f.index]? = some (.column T y)) :
    (fs.foldl (readInto row) record).slots[f.index]? = some (.column T y) := by
  induction fs generalizing record with
  | nil =>
    rcases h with h | h
    · cases h
    · exact h
  | cons g fs ih =>
    have hg := hfs g List.mem_cons_self
    obtain ⟨hm', hr'⟩ := readInto_conforms hrow hg hm hr
    refine ih (fun x hx => hfs x (List.mem_cons_of_mem g hx)) hm' hr' ?_
    by_cases hgf : g = f
    · subst hgf
      obtain ⟨s, hs⟩ := hr.exists_slot
        (hm.symm ▸ hd : (F.model record.model).fields[g.index]? = some d)
      have hlt := (List.getElem?_eq_some_iff.mp hs).1
      rcases readInto_cases hrow hg hm hr with ⟨hnone, -⟩ | ⟨w, e, U, z, hw, he, hU, hz, -, heq⟩
      · cases hv.symm.trans hnone
      · cases hv.symm.trans hw
        cases hd.symm.trans he
        cases hT.symm.trans hU
        cases hscan.symm.trans hz
        right
        rw [heq, Record.slots_setSlot, List.getElem?_set_self hlt]
    · rcases h with h | h
      · rcases List.mem_cons.mp h with rfl | h
        · exact absurd rfl hgf
        · exact Or.inl h
      · right
        have hne : g.index ≠ f.index := fun he => hgf (hindex g hg f hf he)
        rcases readInto_cases hrow hg hm hr with ⟨-, heq⟩ | ⟨w, e, U, z, -, -, -, -, -, heq⟩
        · rw [heq]
          exact h
        · rw [heq, Record.slots_setSlot, List.getElem?_set_ne hne]
          exact h

theorem getField_recordOf (hF : F.DistinctNames) (hrow : F.Stores target row)
    (hindex : ∀ f ∈ target.mapped, ∀ g ∈ target.mapped, f.index = g.index → f = g)
    (ht : F.Describes target) {f : Field} (hf : f ∈ target.mapped) {v : Value}
    (hv : row.get? f.column = some v) :
    F.getField (F.recordOf target row) f.name = .ok (.column v) := by
  obtain ⟨d, T, x, hd, hT, rfl⟩ := hrow f hf v hv
  obtain ⟨y, hy, hsame⟩ := T.scan_toValue x
  obtain ⟨e, U, hstands⟩ := ht f (List.mem_filter.mp hf).1
  cases hd.symm.trans hstands.declared
  obtain ⟨hm, -⟩ := recordOf_conforms hrow
  have hslot : (F.recordOf target row).slots[f.index]? = some (.column T y) :=
    foldl_readInto_slot hrow hindex (fun _ hg => hg) rfl (conforms_blank target.model) hf hv hy hd
      hT (Or.inl hf)
  have hdecl : (F.model (F.recordOf target row).model).fields[f.index]? = some d := hm.symm ▸ hd
  have hlocate := locate_of (position?_of_declared hF hdecl) hdecl hslot
  rw [hstands.name_eq, getField_of_locate hlocate, Slot.read, hsame]

/-! ### Filling a record from the mapped columns -/

def cellsOf (row : Row) (fs : List Field) : List (String × Value) :=
  fs.filterMap fun f => (row.get? f.column).map fun v => (f.column, v)

variable [DecidableEq M]

theorem fill_cellsOf (hrow : F.Stores target row)
    (hfind : ∀ f ∈ target.mapped, target.fieldByColumn? f.column = some f)
    (hlabel : ∀ f ∈ target.mapped, f.column ≠ ownerKeyLabel) {fs : List Field}
    (hfs : ∀ f ∈ fs, f ∈ target.mapped) {record : Record M} (hm : record.model = target.model)
    (hr : F.Conforms record) (link : Option Key) (rest : List (String × Value)) :
    F.fill target link record (cellsOf row fs ++ rest) =
      F.fill target link (fs.foldl (readInto row) record) rest := by
  induction fs generalizing record with
  | nil => rfl
  | cons f fs ih =>
    have hf := hfs f List.mem_cons_self
    obtain ⟨hm', hr'⟩ := readInto_conforms hrow hf hm hr
    have hrest := ih (fun x hx => hfs x (List.mem_cons_of_mem f hx)) hm' hr'
    rw [List.foldl_cons, ← hrest]
    rcases readInto_cases hrow hf hm hr with ⟨hnone, he⟩ | ⟨v, d, T, y, hv, hd, hT, hy, -, he⟩
    · rw [he, cellsOf, List.filterMap_cons, hnone]
      rfl
    · have hdecl : (F.model record.model).fields[f.index]? = some d := hm.symm ▸ hd
      obtain ⟨s, hs⟩ := hr.exists_slot hdecl
      have hsuits := hr.suits hdecl hs
      rw [hT] at hsuits
      obtain ⟨z, rfl⟩ := hsuits.column
      rw [he, cellsOf, List.filterMap_cons, hv]
      simp only [Option.map_some, List.cons_append, fill, hlabel f hf, if_false, hfind f hf, hd, hs,
        writeAt_column, hy, Attempt.done]
      rfl

end Family

end RecordGraph
