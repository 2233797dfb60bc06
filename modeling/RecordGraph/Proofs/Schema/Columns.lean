import RecordGraph.Proofs.Schema.Direct
import RecordGraph.Proofs.Text.Segments

/-!
# Columns and their names

A column goes by its bare name and by its path, which is the bare name after the table and a dot. A
name is read up to its first dot. So a bare name is read as itself if it has no dot, and a path is
read back if the table has none. Whatever a name finds is the first mapped field of its column.
-/

namespace RecordGraph

variable {M : Type}

/-! ### The table of a field -/

namespace Family

variable {F : Family M} {defaults : KeyDefaults} {options : TagOptions} {m : M}

theorem table_of_role {i : Nat} {d : FieldDecl M} {r : FieldRole M} {f : Field}
    (h : F.role defaults options m i d = .ok r) (hf : r.field? = some f) :
    f.table = (F.model m).table := by
  simp only [role] at h
  split at h
  · split at h
    · cases h
      cases hf
      rfl
    · split at h
      · cases h
      · cases h
        cases hf
        rfl
  · rw [associationRole_field? h] at hf
    cases hf
  · rw [associationRole_field? h] at hf
    cases hf

theorem table_of_analyze {a : Analysis M} (h : F.analyze defaults options m = .ok a) {f : Field}
    (hf : f ∈ a.fields) : f.table = (F.model m).table := by
  obtain ⟨roles, place, -, hroles, -, -, hfields, -⟩ := analyze_cases h
  rw [hfields] at hf
  obtain ⟨g, hg, hfg⟩ := mem_modify_marked hf
  obtain ⟨r, hr, hgr⟩ := List.mem_filterMap.mp hg
  obtain ⟨j, d, -, hj⟩ := role_of_mem_roles hroles hr
  have htable := table_of_role hj hgr
  rcases hfg with rfl | rfl <;> exact htable

end Family

namespace Schema

variable {s : Schema M}

theorem column_mem {f : Field} (hf : f ∈ s.mapped) : f.column ∈ s.columns :=
  List.mem_map.mpr ⟨f, hf, rfl⟩

def pathOf (s : Schema M) (column : String) : String := s.table ++ "." ++ column

theorem path_of_direct {W : Workshop M} {m : M} (h : W.direct m = .ok s) {f : Field}
    (hf : f ∈ s.mapped) : f.path = s.pathOf f.column := by
  obtain ⟨a, rs, ha, -, rfl⟩ := Workshop.direct_cases h
  have hmodel : a.model = m := Family.analyze_model ha
  have htable : f.table = (W.family.model a.model).table := by
    rw [hmodel]
    exact Family.table_of_analyze ha (List.mem_filter.mp hf).1
  simp only [Field.path, pathOf, htable, ofAnalysis]

theorem columnPaths_of_direct {W : Workshop M} {m : M} (h : W.direct m = .ok s) :
    s.columnPaths = s.columns.map s.pathOf := by
  rw [columnPaths, columns, List.map_map]
  exact List.map_congr_left fun f hf => path_of_direct h hf

/-! ### The first field of a column -/

/-- The field is mapped, and no mapped field before it has its column. -/
def Leading (s : Schema M) (f : Field) : Prop :=
  ∃ before after, s.mapped = before ++ f :: after ∧ ∀ g ∈ before, g.column ≠ f.column

theorem Leading.mem {f : Field} (h : s.Leading f) : f ∈ s.mapped := by
  obtain ⟨before, after, hmapped, -⟩ := h
  rw [hmapped]
  exact List.mem_append_right _ List.mem_cons_self

theorem find?_column_eq_some_iff {column : String} {f : Field} :
    (s.mapped.find? fun g => g.column = column) = some f ↔ s.Leading f ∧ f.column = column := by
  rw [List.find?_eq_some_iff_append]
  constructor
  · rintro ⟨hcolumn, before, after, hmapped, hbefore⟩
    have hcolumn : f.column = column := by simpa using hcolumn
    exact ⟨⟨before, after, hmapped, fun g hg => by simpa [hcolumn] using hbefore g hg⟩, hcolumn⟩
  · rintro ⟨⟨before, after, hmapped, hbefore⟩, rfl⟩
    exact ⟨by simp, before, after, hmapped, fun g hg => by simpa using hbefore g hg⟩

theorem exists_leading {column : String} (h : column ∈ s.columns) :
    ∃ f, s.Leading f ∧ f.column = column := by
  obtain ⟨f, hf, rfl⟩ := List.mem_map.mp h
  cases hfind : s.mapped.find? fun g => g.column = f.column with
  | none =>
    have hnot := List.find?_eq_none.mp hfind f hf
    simp at hnot
  | some g => exact ⟨g, find?_column_eq_some_iff.mp hfind⟩

/-! ### Reading a name -/

theorem bareColumn?_of_undotted {name : String} (h : Text.Undotted name) :
    s.bareColumn? name = some name := by
  simp only [bareColumn?, Text.cut_eq_none_iff.mpr h]

theorem bareColumn?_append {table : String} (h : Text.Undotted table) (column : String) :
    s.bareColumn? (table ++ "." ++ column) = if table = s.table then some column else none := by
  simp only [bareColumn?, Text.cut_append_dot h, String.ofList_toList]

/-- A name refers to a column just if it is the column without a dot, or its path after a table
without a dot. -/
theorem bareColumn?_eq_some_iff {name column : String} : s.bareColumn? name = some column ↔
    Text.Undotted column ∧ name = column ∨ Text.Undotted s.table ∧ name = s.pathOf column := by
  rcases Text.undotted_or_append name with h | ⟨table, rest, h, rfl⟩
  · rw [bareColumn?_of_undotted h, Option.some.injEq]
    constructor
    · rintro rfl
      exact Or.inl ⟨h, rfl⟩
    · rintro (⟨-, he⟩ | ⟨-, rfl⟩)
      · exact he
      · exact absurd h (Text.not_undotted_append s.table column)
  · rw [bareColumn?_append h]
    constructor
    · intro he
      split at he
      · rename_i htable
        cases he
        subst htable
        exact Or.inr ⟨h, rfl⟩
      · cases he
    · rintro (⟨hcolumn, rfl⟩ | ⟨htable, he⟩)
      · exact absurd hcolumn (Text.not_undotted_append table rest)
      · obtain ⟨rfl, rfl⟩ := Text.append_dot_inj h htable he
        rw [if_pos rfl]

theorem fieldByColumn?_eq_some_iff {name : String} {f : Field} :
    s.fieldByColumn? name = some f ↔ s.Leading f ∧
      (Text.Undotted f.column ∧ name = f.column ∨
        Text.Undotted s.table ∧ name = s.pathOf f.column) := by
  rw [← bareColumn?_eq_some_iff]
  simp only [fieldByColumn?]
  cases s.bareColumn? name with
  | none => simp
  | some column =>
    simp only [find?_column_eq_some_iff, Option.some.injEq]
    exact and_congr_right fun _ => eq_comm

theorem hasColumn_iff {name : String} :
    s.hasColumn name = true ↔ ∃ f, s.fieldByColumn? name = some f := by
  rw [hasColumn, Option.isSome_iff_exists]

/-! ### Finding a column -/

/-- A name is known and finds the first mapped field of a column. -/
structure Finds (s : Schema M) (name column : String) : Prop where
  known : s.hasColumn name = true
  first : ∃ f, s.fieldByColumn? name = some f ∧ s.Leading f ∧ f.column = column

theorem finds_iff {name column : String} (h : column ∈ s.columns) : s.Finds name column ↔
    Text.Undotted column ∧ name = column ∨ Text.Undotted s.table ∧ name = s.pathOf column := by
  constructor
  · rintro ⟨-, f, hf, -, rfl⟩
    exact (fieldByColumn?_eq_some_iff.mp hf).2
  · intro hname
    obtain ⟨f, hf, rfl⟩ := exists_leading h
    have hfind := fieldByColumn?_eq_some_iff.mpr ⟨hf, hname⟩
    exact ⟨hasColumn_iff.mpr ⟨f, hfind⟩, f, hfind, hf, rfl⟩

theorem pathOf_ne (s : Schema M) (column : String) : s.pathOf column ≠ column := by
  intro he
  have hlength := congrArg (fun name => name.toList.length) he
  simp only [pathOf, Text.toList_append_dot, List.length_append, List.length_cons] at hlength
  omega

theorem finds_column_iff {column : String} (h : column ∈ s.columns) :
    s.Finds column column ↔ Text.Undotted column := by
  rw [finds_iff h]
  constructor
  · rintro (⟨hcolumn, -⟩ | ⟨-, he⟩)
    · exact hcolumn
    · exact absurd he.symm (s.pathOf_ne column)
  · exact fun hcolumn => Or.inl ⟨hcolumn, rfl⟩

theorem finds_pathOf_iff {column : String} (h : column ∈ s.columns) :
    s.Finds (s.pathOf column) column ↔ Text.Undotted s.table := by
  rw [finds_iff h]
  constructor
  · rintro (⟨-, he⟩ | ⟨htable, -⟩)
    · exact absurd he (s.pathOf_ne column)
    · exact htable
  · exact fun htable => Or.inr ⟨htable, rfl⟩

theorem hasColumn_foreign {table : String} (h : table ≠ s.table)
    (hundotted : Text.Undotted table ∨ ∀ c ∈ s.columns, Text.Undotted c) (rest : String) :
    s.hasColumn (table ++ "." ++ rest) = false := by
  rw [← Bool.not_eq_true, hasColumn_iff]
  rintro ⟨f, hf⟩
  obtain ⟨hleading, ⟨hcolumn, he⟩ | ⟨hown, he⟩⟩ := fieldByColumn?_eq_some_iff.mp hf
  · rw [← he] at hcolumn
    exact Text.not_undotted_append table rest hcolumn
  · rcases hundotted with htable | hcolumns
    · exact h (Text.append_dot_inj htable hown he).1
    · rcases Text.undotted_or_append table with htable | ⟨p, q, hp, rfl⟩
      · exact h (Text.append_dot_inj htable hown he).1
      · have htext : p ++ "." ++ q ++ "." ++ rest = p ++ "." ++ (q ++ "." ++ rest) := by
          simp only [String.append_assoc]
        rw [htext] at he
        have hcolumn := hcolumns f.column (column_mem hleading.mem)
        rw [← (Text.append_dot_inj hp hown he).2] at hcolumn
        exact Text.not_undotted_append q rest hcolumn

end Schema

end RecordGraph
