import RecordGraph.Proofs.Preload.Loading
import RecordGraph.Proofs.Preload.Restoring

/-!
# Rows that list the selected columns

The statement of a relation selects the columns that the schema of its target reports, and a row of
the answer lists them by these names. Every name of a column without a dot is found again, so such a
row is never refused for a column that is not found. A name with a dot is read as a table with a
column, and a row that lists it is not read if nothing is found.
-/

namespace RecordGraph

variable {M : Type}

/-- The name that a row lists a selected column by. -/
def Selected.rowName (c : Selected) : String := c.label.getD c.source.column

theorem map_rowName_selectRelated (target : Schema M) (r : Relation M) (keys : List Value)
    (unscoped : Bool) : (selectRelated target r keys unscoped).columns.map Selected.rowName =
      target.columns ++ (r.through.map fun _ => ownerKeyLabel).toList := by
  have hown : (target.columns.map fun c => (⟨⟨target.table, c⟩, none⟩ : Selected)).map
      Selected.rowName = target.columns := by
    rw [List.map_map]
    exact List.map_id _
  cases ht : r.through <;> cases unscoped <;> cases hd : target.deletedKey? <;>
    simp only [selectRelated, ht, hd, Select.andWhere, if_true, if_false, Bool.false_eq_true,
      List.map_append, hown, Option.map_none, Option.map_some, Option.toList_none,
      Option.toList_some, List.append_nil] <;> rfl

namespace Family

variable {F : Family M} {target : Schema M} {r : Relation M} [DecidableEq M]

/-! ### Columns that are not found -/

theorem fill_fieldNotFound (ht : F.Describes target) {cells : List (String × Value)}
    {link : Option Key} {record : Record M} (hm : record.model = target.model)
    (hr : F.Conforms record) {owner name : String}
    (h : F.fill target link record cells = .error (.fieldNotFound owner name)) :
    owner = target.modelName ∧ name ∈ cells.map Prod.fst ∧ name ≠ ownerKeyLabel ∧
      target.hasColumn name = false := by
  induction cells generalizing link record with
  | nil => cases h
  | cons cell cells ih =>
    obtain ⟨column, v⟩ := cell
    rcases fill_cons ht hm hr link column v cells with ⟨-, he⟩ | ⟨hlabel, hnone, he⟩ |
      ⟨f, d, T, -, -, hstands, he⟩
    · obtain ⟨howner, hmem, hname⟩ := ih hm hr (he.symm.trans h)
      exact ⟨howner, List.mem_cons_of_mem column hmem, hname⟩
    · cases he.symm.trans h
      exact ⟨rfl, List.mem_cons_self, hlabel, by rw [Schema.hasColumn, hnone]; rfl⟩
    · rw [he] at h
      cases hscan : T.scan v with
      | error e =>
        rw [hscan] at h
        cases h
      | ok y =>
        rw [hscan] at h
        obtain ⟨hm', hr'⟩ := conforms_written hstands hm hr y
        obtain ⟨howner, hmem, hname⟩ := ih hm' hr' h
        exact ⟨howner, List.mem_cons_of_mem column hmem, hname⟩

theorem hasColumn_of_fill (ht : F.Describes target) {cells : List (String × Value)}
    {link : Option Key} {record : Record M} {fetched : Fetched M}
    (hm : record.model = target.model) (hr : F.Conforms record)
    (h : F.fill target link record cells = .ok fetched) {name : String}
    (hname : name ∈ cells.map Prod.fst) :
    name = ownerKeyLabel ∨ target.hasColumn name = true := by
  induction cells generalizing link record with
  | nil => cases hname
  | cons cell cells ih =>
    rcases fill_cons_ok ht hm hr h with ⟨hlabel, h⟩ | ⟨f, x, -, hf, hm, hr, h⟩
    · rcases List.mem_cons.mp hname with rfl | hname
      · exact Or.inl hlabel
      · exact ih hm hr h hname
    · rcases List.mem_cons.mp hname with rfl | hname
      · exact Or.inr (Schema.hasColumn_iff.mpr ⟨f, hf⟩)
      · exact ih hm hr h hname

theorem hydrate_fieldNotFound (ht : F.Describes target)
    (href : ∃ d ∈ (F.model target.model).fields, d.name = r.reference.field) {row : Row}
    {owner name : String} (h : F.hydrate target r row = .error (.fieldNotFound owner name)) :
    owner = target.modelName ∧ name ∈ row.columns ∧ name ≠ ownerKeyLabel ∧
      target.hasColumn name = false := by
  simp only [hydrate] at h
  split at h
  · rename_i e hfill
    cases h
    exact fill_fieldNotFound ht rfl (conforms_blank target.model) hfill
  · rename_i fetched hfill
    split at h
    · cases h
    · obtain ⟨hmodel, hconforms⟩ := fill_conforms ht rfl (conforms_blank target.model) hfill
      obtain ⟨d, hd, hdname⟩ := href
      obtain ⟨v, hv, -⟩ := getField_of_mem hconforms (hmodel.symm ▸ hd)
      rw [hdname] at hv
      rw [hv] at h
      cases h

theorem hasColumn_of_hydrate (ht : F.Describes target) {row : Row} {fetched : Fetched M}
    (h : F.hydrate target r row = .ok fetched) {name : String} (hname : name ∈ row.columns) :
    name = ownerKeyLabel ∨ target.hasColumn name = true := by
  simp only [hydrate] at h
  split at h
  · cases h
  · rename_i filled hfill
    exact hasColumn_of_fill ht rfl (conforms_blank target.model) hfill hname

end Family

theorem undotted_ownerKeyLabel : Text.Undotted ownerKeyLabel := by
  decide +kernel

namespace Registry

variable [DecidableEq M]

/-- A column is found by its bare name just if that has no dot, and by its path just if the table has
none; what is found is the first mapped field of the column, and under no other name. A row of the
columns that a relation selects is refused for a missing field only if it lists a column with a dot
that is not found, and is not read if it lists one. -/
theorem columns_found (F : Family M) (config : Config) {R : Registry M} {m : M} {s : Schema M}
    (hR : Reached F config R) (hs : (R.schemaFor F m).result = .ok s) :
    (∀ f ∈ s.mapped, f.column ∈ s.columns ∧ f.path = s.pathOf f.column ∧
      (s.Finds f.column f.column ↔ Text.Undotted f.column) ∧
      (s.Finds f.path f.column ↔ Text.Undotted s.table)) ∧
    s.columnPaths = s.columns.map s.pathOf ∧
    (∀ name f, s.fieldByColumn? name = some f ↔ s.Leading f ∧
      (Text.Undotted f.column ∧ name = f.column ∨ Text.Undotted s.table ∧ name = f.path)) ∧
    (∀ table rest, table ≠ s.table →
      Text.Undotted table ∨ (∀ c ∈ s.columns, Text.Undotted c) →
        s.hasColumn (table ++ "." ++ rest) = false) ∧
    ∀ o t rel, (R.schemaFor F o).result = .ok t → rel ∈ t.relations → rel.target = m →
      ∀ keys unscoped (row : Row),
        row.columns = (selectRelated s rel keys unscoped).columns.map Selected.rowName →
          (∀ owner name, F.hydrate s rel row = .error (.fieldNotFound owner name) →
            owner = s.modelName ∧ name ∈ s.columns ∧ ¬ Text.Undotted name ∧
              s.hasColumn name = false) ∧
          ∀ c ∈ s.columns, s.hasColumn c = false → ∀ q, F.hydrate s rel row ≠ .ok q := by
  obtain ⟨hdirect, -⟩ := hR.faithful.result_ok hs
  have hmodel : s.model = m := Workshop.model_of_direct hdirect
  have ht : F.Describes s := Family.describes_of_direct hdirect
  have hdotted : ∀ c ∈ s.columns, s.hasColumn c = false → ¬ Text.Undotted c := by
    intro c hc hunknown hundotted
    cases hunknown.symm.trans ((Schema.finds_column_iff hc).mpr hundotted).known
  refine ⟨fun f hf => ?_, Schema.columnPaths_of_direct hdirect, fun name f => ?_,
    fun table rest htable hundotted => Schema.hasColumn_foreign htable hundotted rest, ?_⟩
  · have hcolumn := Schema.column_mem hf
    have hpath := Schema.path_of_direct hdirect hf
    refine ⟨hcolumn, hpath, Schema.finds_column_iff hcolumn, ?_⟩
    rw [hpath]
    exact Schema.finds_pathOf_iff hcolumn
  · rw [Schema.fieldByColumn?_eq_some_iff]
    refine and_congr_right fun hleading => ?_
    rw [Schema.path_of_direct hdirect hleading.mem]
  · intro o t rel ho hrel htarget keys unscoped row hrow
    rw [map_rowName_selectRelated] at hrow
    obtain ⟨hodirect, -⟩ := hR.faithful.result_ok ho
    obtain ⟨d, hd, hname, -⟩ := (Workshop.grounded_of_direct hodirect hrel).reference
    rw [htarget, ← hmodel] at hd
    constructor
    · intro owner name h
      obtain ⟨howner, hmem, hlabel, hunknown⟩ :=
        Family.hydrate_fieldNotFound ht ⟨d, hd, hname⟩ h
      rw [hrow] at hmem
      rcases List.mem_append.mp hmem with hmem | hmem
      · exact ⟨howner, hmem, hdotted name hmem hunknown, hunknown⟩
      · obtain ⟨-, -, rfl⟩ := Option.map_eq_some_iff.mp (Option.mem_toList.mp hmem)
        exact absurd rfl hlabel
    · intro c hc hunknown q hq
      have hlisted : c ∈ row.columns := by
        rw [hrow]
        exact List.mem_append_left _ hc
      rcases Family.hasColumn_of_hydrate ht hq hlisted with rfl | hknown
      · exact hdotted _ hc hunknown undotted_ownerKeyLabel
      · cases hunknown.symm.trans hknown

/-! ### Names with a dot -/

/-- The models of a small harbour. -/
inductive Harbor where
  | ship | pilot | berth
  deriving DecidableEq, Repr

/-- Pilots have a column with a dot, and berths a table with a dot. -/
def harbor : Family Harbor where
  model
    | .ship => ⟨"Ship", "harbor::Ship", "ships", none,
        [⟨"id", "", .column (.plain (.int .i64))⟩,
          ⟨"pilot_id", "ll:\"fk:pilots\"", .column (.plain (.int .i64))⟩,
          ⟨"pilot", "", .reference .pilot false⟩]⟩
    | .pilot => ⟨"Pilot", "harbor::Pilot", "pilots", none,
        [⟨"id", "", .column (.plain (.int .i64))⟩,
          ⟨"name", "ll:\"column:full.name\"", .column (.plain .text)⟩]⟩
    | .berth => ⟨"Berth", "harbor::Berth", "db.berths", none,
        [⟨"id", "", .column (.plain (.int .i64))⟩]⟩
  all := [.ship, .pilot, .berth]
  mem_all m := by cases m <;> decide

theorem isSome_harbor (m : Harbor) :
    ((ofConfig 0 .standard : Registry Harbor).schemaFor harbor m).result.toOption.isSome := by
  cases m <;> decide +kernel

def harborSchema (m : Harbor) : Schema Harbor := Option.get _ (isSome_harbor m)

theorem schemaFor_harbor (m : Harbor) :
    ((ofConfig 0 .standard : Registry Harbor).schemaFor harbor m).result = .ok (harborSchema m) :=
  ok_get (isSome_harbor m)

def pilotRow : Row :=
  ⟨[("id", .int .i64 (some (keyWord 5))), ("full.name", .text (some "Ada"))]⟩

theorem pilot_relation : ∃ rel ∈ (harborSchema .ship).relations, rel.target = .pilot ∧
    rel.through = none ∧
    pilotRow.columns = (selectRelated (harborSchema .pilot) rel [] true).columns.map
      Selected.rowName ∧
    (match harbor.hydrate (harborSchema .pilot) rel pilotRow with
      | .ok _ => none
      | .error e => some e) = some (.fieldNotFound "Pilot" "full.name") := by
  decide +kernel

/-- The full name is found by its path only, nothing of the ships is found among the pilots, and the
row of a pilot is not read. -/
theorem columns_found_pilots :
    ((harborSchema .pilot).Finds "id" "id" ∧ (harborSchema .pilot).Finds "pilots.id" "id") ∧
    (harborSchema .pilot).Finds "pilots.full.name" "full.name" ∧
    ¬ (harborSchema .pilot).Finds "full.name" "full.name" ∧
    (harborSchema .pilot).hasColumn "ships.id" = false ∧
    ∃ rel ∈ (harborSchema .ship).relations, rel.target = .pilot ∧
      pilotRow.columns = (selectRelated (harborSchema .pilot) rel [] true).columns.map
        Selected.rowName ∧
      (∀ owner name, harbor.hydrate (harborSchema .pilot) rel pilotRow =
        .error (.fieldNotFound owner name) → owner = "Pilot" ∧ name = "full.name") ∧
      ∀ q, harbor.hydrate (harborSchema .pilot) rel pilotRow ≠ .ok q := by
  obtain ⟨hfinds, -, -, hforeign, hrows⟩ :=
    columns_found harbor .standard (.fresh 0) (schemaFor_harbor .pilot)
  have htable : (harborSchema .pilot).table = "pilots" := by decide +kernel
  have hid : ∃ f ∈ (harborSchema .pilot).mapped, f.column = "id" ∧ f.path = "pilots.id" := by
    decide +kernel
  have hname : ∃ f ∈ (harborSchema .pilot).mapped, f.column = "full.name" ∧
      f.path = "pilots.full.name" := by
    decide +kernel
  obtain ⟨f, hf, hfcolumn, hfpath⟩ := hid
  obtain ⟨g, hg, hgcolumn, hgpath⟩ := hname
  have hfirst := hfinds f hf
  have hsecond := hfinds g hg
  rw [hfcolumn, hfpath, htable] at hfirst
  rw [hgcolumn, hgpath, htable] at hsecond
  obtain ⟨hcolumn, -, hbare, hpath⟩ := hsecond
  have hundotted : Text.Undotted "id" ∧ Text.Undotted "ships" ∧ Text.Undotted "pilots" ∧
      ¬ Text.Undotted "full.name" := by
    decide +kernel
  obtain ⟨hkey, hships, hpilots, hdot⟩ := hundotted
  refine ⟨⟨hfirst.2.2.1.mpr hkey, hfirst.2.2.2.mpr hpilots⟩, hpath.mpr hpilots,
    fun h => hdot (hbare.mp h), ?_, ?_⟩
  · exact hforeign "ships" "id" (by rw [htable]; decide) (Or.inl hships)
  · obtain ⟨rel, hrel, htarget, -, hrow, -⟩ := pilot_relation
    obtain ⟨hrefused, hunread⟩ :=
      hrows .ship _ rel (schemaFor_harbor .ship) hrel htarget [] true pilotRow hrow
    refine ⟨rel, hrel, htarget, hrow, fun owner name h => ?_,
      hunread "full.name" hcolumn (by decide +kernel)⟩
    obtain ⟨rfl, hmem, hdotted, -⟩ := hrefused owner name h
    have hcolumns : (harborSchema .pilot).columns = ["id", "full.name"] := by decide +kernel
    rw [hcolumns] at hmem
    refine ⟨by decide +kernel, ?_⟩
    rcases List.mem_cons.mp hmem with rfl | hmem
    · exact absurd hkey hdotted
    · exact List.mem_singleton.mp hmem

/-- The column of the full name is not found by its name, the key of the berths is not found by its
path, and the row of a pilot is refused for the full name. -/
theorem pilot_refused :
    ((ofConfig 0 .standard).schemaFor harbor .pilot).result = .ok (harborSchema .pilot) ∧
    ((ofConfig 0 .standard).schemaFor harbor .berth).result = .ok (harborSchema .berth) ∧
    (∃ c ∈ (harborSchema .pilot).columns, (harborSchema .pilot).hasColumn c = false) ∧
    (∃ c ∈ (harborSchema .berth).columnPaths, (harborSchema .berth).hasColumn c = false) ∧
    ∃ rel ∈ (harborSchema .ship).relations, rel.target = .pilot ∧ rel.through = none ∧
      pilotRow.columns = (selectRelated (harborSchema .pilot) rel [] true).columns.map
        Selected.rowName ∧
      harbor.hydrate (harborSchema .pilot) rel pilotRow =
        .error (.fieldNotFound "Pilot" "full.name") := by
  refine ⟨schemaFor_harbor .pilot, schemaFor_harbor .berth, by decide +kernel, by decide +kernel, ?_⟩
  obtain ⟨rel, hrel, htarget, hthrough, hrow, hrefused⟩ := pilot_relation
  refine ⟨rel, hrel, htarget, hthrough, hrow, ?_⟩
  cases h : harbor.hydrate (harborSchema .pilot) rel pilotRow with
  | ok q =>
    rw [h] at hrefused
    cases hrefused
  | error e =>
    rw [h] at hrefused
    exact congrArg Except.error (Option.some_inj.mp hrefused)

end Registry

end RecordGraph
