import Mathlib.Algebra.Order.BigOperators.Group.List
import Mathlib.Algebra.Order.Group.Nat
import RecordGraph.Proofs.Text.Segments
import RecordGraph.Row

/-!
# Looking up cells

A name finds the first cell whose column has the same bare name, whatever stands before the last
dots. `preferred?` looks for a column of exactly the name first, and then for one of the bare name
that is not of another table. The two differ where a row has columns of several tables, and where a
name is of a table that the row does not have.
-/

namespace RecordGraph

namespace Row

variable {r : Row} {name column : String} {v : Value}

theorem sameColumn_iff (a b : String) :
    sameColumn a b = true ↔ Text.bareName a = Text.bareName b := by
  simp only [sameColumn, Bool.or_eq_true, decide_eq_true_eq, or_iff_right_iff_imp]
  rintro rfl
  rfl

def found? (r : Row) (name : String) : Option (String × Value) :=
  r.cells.find? fun c => sameColumn c.1 name

theorem get?_eq_map (r : Row) (name : String) : r.get? name = (r.found? name).map Prod.snd := rfl

/-- A column and a name with one bare name, which are not of two tables. -/
def Interchangeable (column name : String) : Prop :=
  Text.bareName column = Text.bareName name ∧ (Text.Undotted column ∨ Text.Undotted name)

instance (column name : String) : Decidable (Interchangeable column name) :=
  inferInstanceAs (Decidable (_ ∧ _))

/-- The first cell of exactly the name, or else the first one of an interchangeable name. -/
def preferred? (r : Row) (name : String) : Option (String × Value) :=
  (r.cells.find? fun c => c.1 = name).or (r.cells.find? fun c => Interchangeable c.1 name)

/-! ### The cell that is found -/

theorem found?_eq_some_iff : r.found? name = some (column, v) ↔
    ∃ before after, r.cells = before ++ (column, v) :: after ∧
      Text.bareName column = Text.bareName name ∧
      ∀ c ∈ before, Text.bareName c.1 ≠ Text.bareName name := by
  rw [found?, List.find?_eq_some_iff_append]
  constructor
  · rintro ⟨hcolumn, before, after, hcells, hbefore⟩
    refine ⟨before, after, hcells, (sameColumn_iff _ _).mp hcolumn, fun c hc hsame => ?_⟩
    have hnot := hbefore c hc
    rw [(sameColumn_iff _ _).mpr hsame] at hnot
    cases hnot
  · rintro ⟨before, after, hcells, hcolumn, hbefore⟩
    refine ⟨(sameColumn_iff _ _).mpr hcolumn, before, after, hcells, fun c hc => ?_⟩
    rw [Bool.not_eq_true', ← Bool.not_eq_true, sameColumn_iff]
    exact hbefore c hc

theorem found?_eq_none_iff :
    r.found? name = none ↔ ∀ column ∈ r.columns, Text.bareName column ≠ Text.bareName name := by
  simp only [found?, List.find?_eq_none, sameColumn_iff, columns, List.forall_mem_map]

theorem mem_columns_of_found? (h : r.found? name = some (column, v)) : column ∈ r.columns :=
  List.mem_map.mpr ⟨(column, v), List.mem_of_find?_eq_some h, rfl⟩

theorem bareName_of_found? (h : r.found? name = some (column, v)) :
    Text.bareName column = Text.bareName name := by
  obtain ⟨-, -, -, hcolumn, -⟩ := found?_eq_some_iff.mp h
  exact hcolumn

/-! ### The cell that is preferred -/

theorem find?_name_eq_none_iff :
    (r.cells.find? fun c => c.1 = name) = none ↔ name ∉ r.columns := by
  simp only [List.find?_eq_none, columns, decide_eq_true_eq, List.mem_map, not_exists, not_and]

theorem preferred?_of_mem (h : name ∈ r.columns) :
    ∃ v, r.preferred? name = some (name, v) := by
  cases hexact : r.cells.find? fun c => c.1 = name with
  | none => exact absurd h (find?_name_eq_none_iff.mp hexact)
  | some c =>
    obtain rfl : c.1 = name := by simpa using List.find?_some hexact
    exact ⟨c.2, by rw [preferred?, hexact, Option.some_or]⟩

theorem preferred?_of_not_mem (h : name ∉ r.columns) :
    r.preferred? name = r.cells.find? fun c => Interchangeable c.1 name := by
  rw [preferred?, find?_name_eq_none_iff.mpr h, Option.none_or]

theorem preferred?_of_found? (h : r.found? name = some (column, v)) :
    r.preferred? name = some (column, v) ↔
      column = name ∨ (name ∉ r.columns ∧ (Text.Undotted column ∨ Text.Undotted name)) := by
  obtain ⟨before, after, hcells, hcolumn, hbefore⟩ := found?_eq_some_iff.mp h
  constructor
  · intro hpreferred
    by_cases hname : name ∈ r.columns
    · obtain ⟨w, hw⟩ := preferred?_of_mem hname
      rw [hpreferred] at hw
      cases hw
      exact Or.inl rfl
    · rw [preferred?_of_not_mem hname] at hpreferred
      have hfits : Interchangeable column name := by simpa using List.find?_some hpreferred
      exact Or.inr ⟨hname, hfits.2⟩
  · rintro (rfl | ⟨hname, htables⟩)
    · have hexact : (r.cells.find? fun c => c.1 = column) = some (column, v) := by
        rw [List.find?_eq_some_iff_append]
        refine ⟨by simp, before, after, hcells, fun c hc => ?_⟩
        have hne : c.1 ≠ column := fun he => hbefore c hc (congrArg Text.bareName he)
        simpa using hne
      rw [preferred?, hexact, Option.some_or]
    · rw [preferred?_of_not_mem hname, List.find?_eq_some_iff_append]
      refine ⟨by simpa using ⟨hcolumn, htables⟩, before, after, hcells, fun c hc => ?_⟩
      have hnot : ¬ Interchangeable c.1 name := fun hfits => hbefore c hc hfits.1
      simpa using hnot

theorem preferred?_of_found?_none (h : r.found? name = none) : r.preferred? name = none := by
  rw [found?_eq_none_iff] at h
  have hname : name ∉ r.columns := fun hmem => h name hmem rfl
  rw [preferred?_of_not_mem hname, List.find?_eq_none]
  intro c hc
  have hnot : ¬ Interchangeable c.1 name := fun hfits =>
    h c.1 (List.mem_map.mpr ⟨c, hc, rfl⟩) hfits.1
  simpa using hnot

theorem found?_eq_preferred?_iff : r.found? name = r.preferred? name ↔
    ∀ column v, r.found? name = some (column, v) →
      column = name ∨ (name ∉ r.columns ∧ (Text.Undotted column ∨ Text.Undotted name)) := by
  constructor
  · intro h column v hfound
    rw [← preferred?_of_found? hfound, ← h, hfound]
  · intro h
    cases hfound : r.found? name with
    | none => exact (preferred?_of_found?_none hfound).symm
    | some c => exact ((preferred?_of_found? hfound).mpr (h c.1 c.2 hfound)).symm

/-! ### Rows of one table -/

theorem exists_fresh_table (names : List String) : ∃ table, ∀ q, table ++ "." ++ q ∉ names := by
  refine ⟨String.join names, fun q hmem => ?_⟩
  have hlength := List.le_sum_of_mem (List.mem_map_of_mem (f := String.length) hmem)
  rw [String.length_append, String.length_append, String.length_join] at hlength
  have hdot : ".".length = 1 := rfl
  omega

theorem undotted_of_found?_eq_preferred? (h : ∀ name, r.found? name = r.preferred? name)
    (hcolumn : column ∈ r.columns) : Text.Undotted column := by
  by_contra hdotted
  have hown := found?_eq_preferred?_iff.mp (h column)
  obtain ⟨table, hfresh⟩ := exists_fresh_table r.columns
  have hother := found?_eq_preferred?_iff.mp (h (table ++ "." ++ column))
  have hbare := Text.bareName_append_dot table column
  cases hfound : r.found? column with
  | none => exact found?_eq_none_iff.mp hfound column hcolumn rfl
  | some c =>
    obtain rfl : c.1 = column := (hown c.1 c.2 hfound).resolve_right fun hnot => hnot.1 hcolumn
    have hfound' : r.found? (table ++ "." ++ c.1) = some (c.1, c.2) := by
      rw [found?_eq_some_iff, hbare, ← found?_eq_some_iff]
      exact hfound
    rcases hother c.1 c.2 hfound' with he | ⟨-, hplain | hplain⟩
    · exact hfresh c.1 (he ▸ hcolumn)
    · exact hdotted hplain
    · exact Text.not_undotted_append table c.1 hplain

theorem found?_eq_preferred?_of_undotted (h : ∀ column ∈ r.columns, Text.Undotted column)
    (name : String) : r.found? name = r.preferred? name := by
  rw [found?_eq_preferred?_iff]
  intro column v hfound
  have hplain := h column (mem_columns_of_found? hfound)
  by_cases hname : name ∈ r.columns
  · left
    rw [← Text.bareName_of_undotted hplain, bareName_of_found? hfound,
      Text.bareName_of_undotted (h name hname)]
  · exact Or.inr ⟨hname, Or.inl hplain⟩

/-- A name finds the first column with its bare name, and nothing where there is none. This is the
preferred one just if it has the very name, or if none has and one of the two is bare. So it is the
preferred one for all names just if the row has bare columns only. -/
theorem get?_finds_bare_name (r : Row) :
    (∀ name v, r.get? name = some v ↔ ∃ before column after,
      r.cells = before ++ (column, v) :: after ∧ Text.bareName column = Text.bareName name ∧
        ∀ c ∈ before, Text.bareName c.1 ≠ Text.bareName name) ∧
    (∀ name, r.get? name = none ↔
      ∀ column ∈ r.columns, Text.bareName column ≠ Text.bareName name) ∧
    (∀ name, r.found? name = r.preferred? name ↔ ∀ column v, r.found? name = some (column, v) →
      column = name ∨ (name ∉ r.columns ∧ (Text.Undotted column ∨ Text.Undotted name))) ∧
    ((∀ name, r.found? name = r.preferred? name) ↔
      ∀ column ∈ r.columns, Text.Undotted column) := by
  refine ⟨fun name v => ?_, fun name => ?_, fun name => found?_eq_preferred?_iff,
    fun h column hcolumn => undotted_of_found?_eq_preferred? h hcolumn,
    found?_eq_preferred?_of_undotted⟩
  · rw [get?_eq_map, Option.map_eq_some_iff]
    constructor
    · rintro ⟨c, hfound, rfl⟩
      obtain ⟨before, after, hcells, hcolumn, hbefore⟩ := found?_eq_some_iff.mp hfound
      exact ⟨before, c.1, after, hcells, hcolumn, hbefore⟩
    · rintro ⟨before, column, after, hcells, hcolumn, hbefore⟩
      exact ⟨(column, v), found?_eq_some_iff.mpr ⟨before, after, hcells, hcolumn, hbefore⟩, rfl⟩
  · rw [get?_eq_map, Option.map_eq_none_iff, found?_eq_none_iff]

/-- A row with bare and qualified columns, as drivers report them. -/
def userRow : Row := ⟨[("id", .text (some "u7")), ("users.username", .text (some "ada"))]⟩

/-- A qualified name finds a bare column, and the other way around. -/
theorem get?_finds_bare_name_user :
    userRow.get? "users.id" = some (.text (some "u7")) ∧
    userRow.get? "username" = some (.text (some "ada")) ∧
    userRow.get? "email" = none := by
  obtain ⟨hsome, hnone, -⟩ := get?_finds_bare_name userRow
  refine ⟨(hsome "users.id" _).mpr ⟨[], _, _, rfl, rfl, by decide⟩,
    (hsome "username" _).mpr ⟨[("id", .text (some "u7"))], _, [], rfl, rfl, ?_⟩,
    (hnone "email").mpr (by decide)⟩
  intro c hc
  obtain rfl := List.mem_singleton.mp hc
  decide

/-- A row with columns of two tables and one bare name. -/
def joinedRow : Row := ⟨[("a.x", .text (some "first")), ("b.x", .text (some "second"))]⟩

/-- The second column is not found by its own name, and the first one is found in a table that the
row does not have. -/
theorem get?_crosses_tables :
    (joinedRow.get? "b.x" = some (.text (some "first")) ∧
      (joinedRow.preferred? "b.x").map Prod.snd = some (.text (some "second")) ∧
      joinedRow.get? "b.x" ≠ (joinedRow.preferred? "b.x").map Prod.snd) ∧
    joinedRow.get? "c.x" = some (.text (some "first")) ∧ joinedRow.preferred? "c.x" = none := by
  have hcrossed : joinedRow.get? "b.x" = some (.text (some "first")) := rfl
  have hown : (joinedRow.preferred? "b.x").map Prod.snd = some (.text (some "second")) := rfl
  refine ⟨⟨hcrossed, hown, ?_⟩, rfl, rfl⟩
  rw [hcrossed, hown]
  simp

end Row

end RecordGraph
