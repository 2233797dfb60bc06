import RecordGraph.Proofs.Preload.Attaching
import RecordGraph.Proofs.Schema.Columns

/-!
# Records read from rows

Every cell of a row is read into the column of the target that it names, and the key of the owner in
a joined row is kept apart. The records are conforming ones of the target. Their keys are those of
the reference column, or of the last cell under the label of the owner key.
-/

namespace RecordGraph

variable {M σ : Type}

/-- The key in the last cell that holds the key of an owner. -/
def Row.linkKey? (row : Row) : Option Key :=
  ((row.cells.filter fun c => c.1 = ownerKeyLabel).getLast?).bind fun c => Key.ofValue? c.2

/-- The mapped columns are told apart from each other and from the key of the owner, and none could
be read as a table with a column. -/
structure Schema.Plain (s : Schema M) : Prop where
  distinct : s.columns.Nodup
  undotted : ∀ c ∈ s.columns, '.' ∉ c.toList
  label : ownerKeyLabel ∉ s.columns

namespace Schema

variable {s : Schema M}

instance : Decidable s.Plain :=
  decidable_of_iff (s.columns.Nodup ∧ (∀ c ∈ s.columns, '.' ∉ c.toList) ∧
      ownerKeyLabel ∉ s.columns)
    ⟨fun ⟨h, hdot, hlabel⟩ => ⟨h, hdot, hlabel⟩, fun h => ⟨h.distinct, h.undotted, h.label⟩⟩

theorem Plain.fieldByColumn?_eq (h : s.Plain) {f : Field} (hf : f ∈ s.mapped) :
    s.fieldByColumn? f.column = some f := by
  have hundotted : Text.Undotted f.column := Text.undotted_iff.mpr (h.undotted _ (column_mem hf))
  obtain ⟨g, hg, hcolumn⟩ := exists_leading (column_mem hf)
  obtain rfl := List.inj_on_of_nodup_map h.distinct hg.mem hf hcolumn
  exact fieldByColumn?_eq_some_iff.mpr ⟨hg, Or.inl ⟨hundotted, rfl⟩⟩

theorem Plain.column_ne_label (h : s.Plain) {f : Field} (hf : f ∈ s.mapped) :
    f.column ≠ ownerKeyLabel := by
  intro he
  exact h.label (he ▸ column_mem hf)

end Schema

namespace Family

variable {F : Family M} {target : Schema M} {r : Relation M}

/-- The fields of the schema stand for declared columns of its model. -/
def Describes (F : Family M) (target : Schema M) : Prop :=
  ∀ f ∈ target.fields, ∃ d T, F.StandsFor target.model f d T

theorem describes_of_direct {W : Workshop M} {m : M} (h : W.direct m = .ok target) :
    W.family.Describes target := by
  obtain ⟨a, rs, ha, -, rfl⟩ := Workshop.direct_cases h
  have hm : (Schema.ofAnalysis W.family a rs).model = m := Family.analyze_model ha
  intro f hf
  rw [hm]
  exact exists_standsFor ha hf

theorem mem_of_fieldByColumn? {column : String} {f : Field}
    (h : target.fieldByColumn? column = some f) : f ∈ target.mapped := by
  simp only [Schema.fieldByColumn?] at h
  split at h
  · exact List.mem_of_find?_eq_some h
  · cases h

/-- The key that a record read from a row is matched by. -/
def matchKey? (F : Family M) (r : Relation M) (row : Row) (record : Record M) : Option Key :=
  match r.through with
  | some _ => row.linkKey?
  | none =>
    match F.getField record r.reference.field with
    | .ok v => v.value?.bind Key.ofValue?
    | .error _ => none

/-! ### Filling a record -/

theorem conforms_written {f : Field} {d : FieldDecl M} {T : ColumnType}
    (h : F.StandsFor target.model f d T) {record : Record M} (hm : record.model = target.model)
    (hr : F.Conforms record) (y : T.Carrier) :
    (record.setSlot f.index (.column T y)).model = target.model ∧
      F.Conforms (record.setSlot f.index (.column T y)) := by
  refine ⟨hm, hr.setSlot (hm ▸ h.declared) ?_⟩
  rw [h.type_eq]
  exact suits_column T y

variable [DecidableEq M]

theorem fill_cons (ht : F.Describes target) {record : Record M} (hm : record.model = target.model)
    (hr : F.Conforms record) (link : Option Key) (column : String) (v : Value)
    (rest : List (String × Value)) :
    (column = ownerKeyLabel ∧ F.fill target link record ((column, v) :: rest) =
      F.fill target (Key.ofValue? v) record rest) ∨
    (column ≠ ownerKeyLabel ∧ target.fieldByColumn? column = none ∧
      F.fill target link record ((column, v) :: rest) =
        .error (.fieldNotFound target.modelName column)) ∨
    ∃ f d T, column ≠ ownerKeyLabel ∧ target.fieldByColumn? column = some f ∧
      F.StandsFor target.model f d T ∧
      F.fill target link record ((column, v) :: rest) =
        match T.scan v with
        | .ok y => F.fill target link (record.setSlot f.index (.column T y)) rest
        | .error e => .error (.typeMismatch (F.model target.model).name d.name e.expected e.actual)
    := by
  by_cases hlabel : column = ownerKeyLabel
  · exact Or.inl ⟨hlabel, by simp only [fill, hlabel, if_true]⟩
  · cases hf : target.fieldByColumn? column with
    | none => exact Or.inr (Or.inl ⟨hlabel, rfl, by simp only [fill, hlabel, if_false, hf]⟩)
    | some f =>
      obtain ⟨d, T, hstands⟩ := ht f (List.mem_filter.mp (mem_of_fieldByColumn? hf)).1
      have hdecl : (F.model record.model).fields[f.index]? = some d := hm ▸ hstands.declared
      obtain ⟨s, hs⟩ := hr.exists_slot hdecl
      have hsuits := hr.suits hdecl hs
      rw [hstands.type_eq] at hsuits
      obtain ⟨x, rfl⟩ := hsuits.column
      refine Or.inr (Or.inr ⟨f, d, T, hlabel, rfl, hstands, ?_⟩)
      simp only [fill, hlabel, if_false, hf, hstands.declared, hs, writeAt_column]
      rw [hm]
      cases T.scan v <;> rfl

theorem fill_cons_ok (ht : F.Describes target) {record : Record M}
    (hm : record.model = target.model) (hr : F.Conforms record) {link : Option Key}
    {column : String} {v : Value} {rest : List (String × Value)} {fetched : Fetched M}
    (h : F.fill target link record ((column, v) :: rest) = .ok fetched) :
    (column = ownerKeyLabel ∧ F.fill target (Key.ofValue? v) record rest = .ok fetched) ∨
    ∃ f x, column ≠ ownerKeyLabel ∧ target.fieldByColumn? column = some f ∧
      (record.setSlot f.index x).model = target.model ∧ F.Conforms (record.setSlot f.index x) ∧
      F.fill target link (record.setSlot f.index x) rest = .ok fetched := by
  rcases fill_cons ht hm hr link column v rest with ⟨hlabel, he⟩ | ⟨-, -, he⟩ |
    ⟨f, d, T, hlabel, hf, hstands, he⟩
  · exact Or.inl ⟨hlabel, he.symm.trans h⟩
  · cases he.symm.trans h
  · rw [he] at h
    cases hscan : T.scan v with
    | error e =>
      rw [hscan] at h
      cases h
    | ok y =>
      rw [hscan] at h
      obtain ⟨hm, hr⟩ := conforms_written hstands hm hr y
      exact Or.inr ⟨f, _, hlabel, hf, hm, hr, h⟩

theorem fill_conforms (ht : F.Describes target) {cells : List (String × Value)}
    {link : Option Key} {record : Record M} {fetched : Fetched M}
    (hm : record.model = target.model) (hr : F.Conforms record)
    (h : F.fill target link record cells = .ok fetched) :
    fetched.record.model = target.model ∧ F.Conforms fetched.record := by
  induction cells generalizing link record with
  | nil =>
    cases h
    exact ⟨hm, hr⟩
  | cons cell cells ih =>
    rcases fill_cons_ok ht hm hr h with ⟨-, h⟩ | ⟨f, x, -, -, hm, hr, h⟩
    · exact ih hm hr h
    · exact ih hm hr h

theorem fill_key (ht : F.Describes target) {cells : List (String × Value)} {link : Option Key}
    {record : Record M} {fetched : Fetched M} (hm : record.model = target.model)
    (hr : F.Conforms record) (h : F.fill target link record cells = .ok fetched) :
    fetched.key = match (cells.filter fun c => c.1 = ownerKeyLabel).getLast? with
      | some c => Key.ofValue? c.2
      | none => link := by
  induction cells generalizing link record with
  | nil =>
    cases h
    rfl
  | cons cell cells ih =>
    rcases fill_cons_ok ht hm hr h with ⟨hlabel, h⟩ | ⟨f, x, hlabel, -, hm, hr, h⟩
    · rw [ih hm hr h, List.filter_cons_of_pos (by simpa using hlabel), List.getLast?_cons]
      cases (cells.filter fun c => c.1 = ownerKeyLabel).getLast? <;> rfl
    · rw [List.filter_cons_of_neg (by simpa using hlabel)]
      exact ih hm hr h

/-! ### Reading rows -/

/-- A record read from a row conforms to the target and carries its match key. -/
theorem hydrate_ok (ht : F.Describes target) {row : Row} {f : Fetched M}
    (h : F.hydrate target r row = .ok f) :
    f.record.model = target.model ∧ F.Conforms f.record ∧ f.key = F.matchKey? r row f.record := by
  simp only [hydrate] at h
  split at h
  · cases h
  · rename_i fetched hfill
    obtain ⟨hmodel, hconforms⟩ := fill_conforms ht rfl (conforms_blank target.model) hfill
    have hkey := fill_key ht rfl (conforms_blank target.model) hfill
    split at h
    · rename_i t hthrough
      cases h
      refine ⟨hmodel, hconforms, ?_⟩
      rw [hkey]
      simp only [matchKey?, hthrough, Row.linkKey?]
      cases (row.cells.filter fun c => c.1 = ownerKeyLabel).getLast? <;> rfl
    · rename_i hthrough
      split at h
      · cases h
      · rename_i v hv
        cases h
        exact ⟨hmodel, hconforms, by simp only [matchKey?, hthrough, hv]⟩

theorem hydrateAll_ok_iff {rows : List Row} {fetched : List (Fetched M)} :
    F.hydrateAll target r rows = .ok fetched ↔
      List.Forall₂ (fun row f => F.hydrate target r row = .ok f) rows fetched := by
  induction rows generalizing fetched with
  | nil =>
    constructor
    · intro h
      cases h
      exact .nil
    · intro h
      cases h
      rfl
  | cons row rows ih =>
    simp only [hydrateAll]
    constructor
    · intro h
      split at h
      · cases h
      · rename_i f hf
        split at h
        · cases h
        · rename_i fs hfs
          cases h
          exact .cons hf (ih.mp hfs)
    · intro h
      cases h with
      | cons hf hfs => simp only [hf, ih.mpr hfs]

theorem hydrateAll_of_forall {rows : List Row}
    (h : ∀ row ∈ rows, ∃ f, F.hydrate target r row = .ok f) :
    ∃ fetched, F.hydrateAll target r rows = .ok fetched := by
  induction rows with
  | nil => exact ⟨[], rfl⟩
  | cons row rows ih =>
    obtain ⟨f, hf⟩ := h row List.mem_cons_self
    obtain ⟨fs, hfs⟩ := ih fun x hx => h x (List.mem_cons_of_mem row hx)
    exact ⟨f :: fs, by simp only [hydrateAll, hf, hfs]⟩

theorem forall_of_hydrateAll {rows : List Row} {fetched : List (Fetched M)}
    (h : F.hydrateAll target r rows = .ok fetched) :
    ∀ row ∈ rows, ∃ f, F.hydrate target r row = .ok f := by
  have hrows := hydrateAll_ok_iff.mp h
  clear h
  intro row hrow
  induction hrows with
  | nil => cases hrow
  | cons hf _ ih =>
    rcases List.mem_cons.mp hrow with rfl | hrow
    · exact ⟨_, hf⟩
    · exact ih hrow

theorem hydrateAll_error {rows : List Row} {e : Error} (h : F.hydrateAll target r rows = .error e) :
    ∃ row ∈ rows, F.hydrate target r row = .error e := by
  induction rows with
  | nil => cases h
  | cons row rows ih =>
    simp only [hydrateAll] at h
    split at h
    · rename_i e' hf
      cases h
      exact ⟨row, List.mem_cons_self, hf⟩
    · split at h
      · rename_i e' hfs
        cases h
        obtain ⟨row', hmem, hrow⟩ := ih hfs
        exact ⟨row', List.mem_cons_of_mem row hmem, hrow⟩
      · cases h

theorem conforms_of_hydrateAll (ht : F.Describes target) {rows : List Row}
    {fetched : List (Fetched M)} (h : F.hydrateAll target r rows = .ok fetched) :
    ∀ f ∈ fetched, f.record.model = target.model ∧ F.Conforms f.record := by
  have hrows := hydrateAll_ok_iff.mp h
  clear h
  intro f hf
  induction hrows with
  | nil => cases hf
  | cons hrow _ ih =>
    rcases List.mem_cons.mp hf with rfl | hf
    · obtain ⟨hmodel, hconforms, -⟩ := hydrate_ok ht hrow
      exact ⟨hmodel, hconforms⟩
    · exact ih hf

end Family

end RecordGraph
