import RecordGraph.Proofs.Preload.Rows
import RecordGraph.Proofs.Schema.History
import RecordGraph.Proofs.Schema.WellFormed

/-!
# Records restored from their rows

A row that lists columns of a record, in any order, is read into a record that has the data of these
columns and is otherwise as if nothing was written to it. Whatever row is read, the fields that are
not mapped stay as they were. A datum that is stored as the null comes back as the initial one, and
the record is matched by the first field that has the name of the reference column.
-/

namespace RecordGraph

variable {M : Type}

namespace Record

def stored? (r : Record M) (i : Nat) : Option Value := r.slots[i]?.bind fun s => s.read.value?

/-- The row that lists the columns of some fields with the values of a record. -/
def row (r : Record M) (fs : List Field) : Row :=
  ⟨fs.filterMap fun f => (r.stored? f.index).map fun v => (f.column, v)⟩

end Record

namespace Family

variable (F : Family M)

def named? (r : Record M) (name : String) : Option Value :=
  ((F.model r.model).position? name).bind r.stored?

/-- A record has the columns of some fields from another one, and is otherwise a blank one. -/
structure Restores (r : Record M) (fs : List Field) (q : Record M) : Prop where
  model_eq : q.model = r.model
  conforms : F.Conforms q
  listed : ∀ f ∈ fs, ∃ T x, r.slots[f.index]? = some (.column T x) ∧
    q.slots[f.index]? = some (.column T (T.restored x))
  others : ∀ i d, (F.model r.model).fields[i]? = some d → (∀ f ∈ fs, f.index ≠ i) →
    q.slots[i]? = some d.type.blank

variable {F : Family M} {target : Schema M}

/-! ### Reading the columns of a record -/

theorem slots_blank {m : M} {i : Nat} {d : FieldDecl M} (hd : (F.model m).fields[i]? = some d) :
    (F.blank m).slots[i]? = some d.type.blank := by
  have hslots : (F.blank m).slots = (F.model m).fields.map fun f => f.type.blank := rfl
  rw [hslots, List.getElem?_map, hd]
  rfl

theorem exists_stored (ht : F.Describes target) {r : Record M} (hm : r.model = target.model)
    (hr : F.Conforms r) {f : Field} (hf : f ∈ target.mapped) :
    ∃ d T x, F.StandsFor target.model f d T ∧ r.slots[f.index]? = some (.column T x) := by
  obtain ⟨d, T, hstands⟩ := ht f (List.mem_filter.mp hf).1
  have hdecl : (F.model r.model).fields[f.index]? = some d := hm ▸ hstands.declared
  obtain ⟨s, hs⟩ := hr.exists_slot hdecl
  have hsuits := hr.suits hdecl hs
  rw [hstands.type_eq] at hsuits
  obtain ⟨x, rfl⟩ := hsuits.column
  exact ⟨d, T, x, hstands, hs⟩

variable [DecidableEq M]

/-- The columns of a record are written one after the other, each over what was there. -/
theorem fill_row (ht : F.Describes target) (hplain : target.Plain) {r : Record M}
    (hm : r.model = target.model) (hr : F.Conforms r) {fs : List Field}
    (hfs : ∀ f ∈ fs, f ∈ target.mapped) (link : Option Key) {p : Record M}
    (hp : p.model = target.model) (hpc : F.Conforms p) :
    ∃ q, F.fill target link p (r.row fs).cells = .ok ⟨link, q⟩ ∧ q.model = target.model ∧
      F.Conforms q ∧
      (∀ f ∈ fs, ∃ T x, r.slots[f.index]? = some (.column T x) ∧
        q.slots[f.index]? = some (.column T (T.restored x))) ∧
      ∀ i, (∀ f ∈ fs, f.index ≠ i) → q.slots[i]? = p.slots[i]? := by
  induction fs generalizing p with
  | nil => exact ⟨p, rfl, hp, hpc, (fun f hf => nomatch hf), fun _ _ => rfl⟩
  | cons f fs ih =>
    have hf := hfs f List.mem_cons_self
    obtain ⟨d, T, x, hstands, hslot⟩ := exists_stored ht hm hr hf
    have hcells : (r.row (f :: fs)).cells = (f.column, T.toValue x) :: (r.row fs).cells := by
      have hstored : r.stored? f.index = some (T.toValue x) := by
        rw [Record.stored?, hslot]
        rfl
      simp only [Record.row, List.filterMap_cons, hstored, Option.map_some]
    obtain ⟨hp', hpc'⟩ := conforms_written hstands hp hpc (T.restored x)
    obtain ⟨q, hfill, hq, hqc, hlisted, hothers⟩ :=
      ih (fun g hg => hfs g (List.mem_cons_of_mem f hg)) hp' hpc'
    refine ⟨q, ?_, hq, hqc, fun g hg => ?_, fun i hi => ?_⟩
    · rw [hcells]
      rcases fill_cons ht hp hpc link f.column (T.toValue x) (r.row fs).cells with
        ⟨hlabel, -⟩ | ⟨-, hnone, -⟩ | ⟨g, e, U, -, hg, hstands', he⟩
      · exact absurd hlabel (hplain.column_ne_label hf)
      · cases hnone.symm.trans (hplain.fieldByColumn?_eq hf)
      · cases hg.symm.trans (hplain.fieldByColumn?_eq hf)
        cases hstands.declared.symm.trans hstands'.declared
        cases hstands.type_eq.symm.trans hstands'.type_eq
        rw [he, ColumnType.scan_toValue_eq]
        exact hfill
    · by_cases hlater : ∃ g' ∈ fs, g'.index = g.index
      · obtain ⟨g', hg', he⟩ := hlater
        exact he ▸ hlisted g' hg'
      · have hlater : ∀ g' ∈ fs, g'.index ≠ g.index := fun g' hg' he => hlater ⟨g', hg', he⟩
        rcases List.mem_cons.mp hg with rfl | hg
        · refine ⟨T, x, hslot, ?_⟩
          obtain ⟨e, U, y, -, hpslot⟩ := exists_stored ht hp hpc hf
          rw [hothers _ hlater, Record.slots_setSlot,
            List.getElem?_set_self (List.getElem?_eq_some_iff.mp hpslot).1]
        · exact absurd rfl (hlater g hg)
    · rw [hothers i fun g hg => hi g (List.mem_cons_of_mem f hg), Record.slots_setSlot,
        List.getElem?_set_ne (hi f List.mem_cons_self)]

theorem fill_unmapped (ht : F.Describes target) {cells : List (String × Value)}
    {link : Option Key} {p : Record M} {fetched : Fetched M} (hp : p.model = target.model)
    (hpc : F.Conforms p) (h : F.fill target link p cells = .ok fetched) {i : Nat}
    (hi : ∀ f ∈ target.mapped, f.index ≠ i) : fetched.record.slots[i]? = p.slots[i]? := by
  induction cells generalizing link p with
  | nil =>
    cases h
    rfl
  | cons cell cells ih =>
    rcases fill_cons_ok ht hp hpc h with ⟨-, h⟩ | ⟨f, x, -, hf, hp, hpc, h⟩
    · exact ih hp hpc h
    · rw [ih hp hpc h, Record.slots_setSlot,
        List.getElem?_set_ne (hi f (mem_of_fieldByColumn? hf))]

theorem hydrate_unmapped (ht : F.Describes target) {r : Relation M} {row : Row}
    {fetched : Fetched M} (h : F.hydrate target r row = .ok fetched) {i : Nat} {d : FieldDecl M}
    (hd : (F.model target.model).fields[i]? = some d) (hi : ∀ f ∈ target.mapped, f.index ≠ i) :
    fetched.record.slots[i]? = some d.type.blank := by
  rw [← slots_blank hd]
  simp only [hydrate] at h
  split at h
  · cases h
  · rename_i filled hfill
    have hunmapped := fill_unmapped ht rfl (conforms_blank target.model) hfill hi
    split at h
    · cases h
      exact hunmapped
    · split at h
      · cases h
      · cases h
        exact hunmapped

/-! ### The key of a restored record -/

omit [DecidableEq M] in
theorem getField_of_mem {q : Record M} (hq : F.Conforms q) {d : FieldDecl M}
    (hd : d ∈ (F.model q.model).fields) :
    ∃ v, F.getField q d.name = .ok v ∧ v.value? = F.named? q d.name := by
  cases hi : (F.model q.model).position? d.name with
  | none =>
    have := List.findIdx?_eq_none_iff.mp hi d hd
    simp at this
  | some i =>
    obtain ⟨hlt, -⟩ := List.findIdx?_eq_some_iff_getElem.mp hi
    have hdecl := List.getElem?_eq_getElem hlt
    obtain ⟨s, hs⟩ := hq.exists_slot hdecl
    refine ⟨s.read, getField_of_locate (locate_of hi hdecl hs), ?_⟩
    simp only [named?, hi, Record.stored?, hs, Option.bind_some]

theorem hydrate_row (ht : F.Describes target) (hplain : target.Plain) {rel : Relation M}
    (href : ∃ d ∈ (F.model target.model).fields, d.name = rel.reference.field) {r : Record M}
    (hm : r.model = target.model) (hr : F.Conforms r) {fs : List Field}
    (hfs : ∀ f ∈ fs, f ∈ target.mapped) :
    ∃ q, F.hydrate target rel (r.row fs) = .ok q ∧ F.Restores r fs q.record ∧
      (rel.through = none →
        q.key = (F.named? q.record rel.reference.field).bind Key.ofValue?) := by
  obtain ⟨q, hfill, hq, hqc, hlisted, hothers⟩ :=
    fill_row ht hplain hm hr hfs none rfl (conforms_blank target.model)
  have hrestores : F.Restores r fs q := by
    refine ⟨hq.trans hm.symm, hqc, hlisted, fun i d hd hi => ?_⟩
    rw [hothers i hi]
    exact slots_blank (hm ▸ hd)
  cases hthrough : rel.through with
  | some j =>
    refine ⟨⟨none, q⟩, ?_, hrestores, fun h => nomatch h⟩
    simp only [hydrate, hfill, hthrough]
  | none =>
    obtain ⟨d, hd, hname⟩ := href
    obtain ⟨v, hv, hvalue⟩ := getField_of_mem hqc (hq.symm ▸ hd)
    rw [hname] at hv hvalue
    refine ⟨⟨v.value?.bind Key.ofValue?, q⟩, ?_, hrestores, fun _ => ?_⟩
    · simp only [hydrate, hfill, hthrough, hv]
    · rw [hvalue]

end Family

theorem Workshop.index_ne_of_unmapped {W : Workshop M} {m : M} {s : Schema M}
    (hs : W.direct m = .ok s) {i : Nat} {d : FieldDecl M}
    (hd : (W.family.model m).fields[i]? = some d) (hclass : d.fieldClass W.options ≠ .mapped) :
    ∀ f ∈ s.mapped, f.index ≠ i := by
  rintro f hf rfl
  obtain ⟨a, rs, ha, -, rfl⟩ := Workshop.direct_cases hs
  obtain ⟨hmem, hmapped⟩ := List.mem_filter.mp hf
  obtain ⟨e, T, hreads⟩ := (Family.classified_of_analyze ha).reads f hmem
  cases hd.symm.trans hreads.declared
  exact hclass (hreads.mapped_iff.mp (by simpa using hmapped))

namespace Registry

variable [DecidableEq M]

/-- Reading the row that lists columns of a record, in any order, restores these columns and nothing
else, and a direct relation matches the record by the first field that has the name of its reference
column. Reading any row leaves the fields that are not mapped blank. -/
theorem hydrate_restores (F : Family M) (config : Config) {R : Registry M} {m : M} {s : Schema M}
    (hR : Reached F config R) (hs : (R.schemaFor F m).result = .ok s) :
    (∀ o t rel, (R.schemaFor F o).result = .ok t → rel ∈ t.relations → rel.target = m → s.Plain →
      ∀ r, r.model = m → F.Conforms r → ∀ fs, (∀ f ∈ fs, f ∈ s.mapped) →
        ∃ q, F.hydrate s rel (r.row fs) = .ok q ∧ F.Restores r fs q.record ∧
          (rel.through = none →
            q.key = (F.named? q.record rel.reference.field).bind Key.ofValue? ∧
            ∃ f ∈ s.mapped, f.name = rel.reference.field ∧ f.column = rel.reference.column ∧
              (((F.model m).fields.map FieldDecl.name).Nodup →
                q.key = (q.record.stored? f.index).bind Key.ofValue?))) ∧
    ∀ rel row (q : Family.Fetched M), F.hydrate s rel row = .ok q →
      ∀ (i : Nat) (d : FieldDecl M), (F.model m).fields[i]? = some d →
        d.fieldClass config.tags ≠ .mapped → q.record.slots[i]? = some d.type.blank := by
  obtain ⟨hdirect, -⟩ := hR.faithful.result_ok hs
  have hmodel : s.model = m := Workshop.model_of_direct hdirect
  have ht : F.Describes s := Family.describes_of_direct hdirect
  constructor
  · intro o t rel ho hrel htarget hplain r hm hr fs hfs
    obtain ⟨hodirect, -⟩ := hR.faithful.result_ok ho
    obtain ⟨d, hd, hname, -⟩ := (Workshop.grounded_of_direct hodirect hrel).reference
    have hd : d ∈ (F.model s.model).fields := by
      rw [hmodel, ← htarget]
      exact hd
    obtain ⟨q, hq, hrestores, hkey⟩ :=
      Family.hydrate_row ht hplain ⟨d, hd, hname⟩ (hm.trans hmodel.symm) hr hfs
    refine ⟨q, hq, hrestores, fun hthrough => ⟨hkey hthrough, ?_⟩⟩
    obtain ⟨f, hf, hfname, hfcolumn⟩ :=
      Workshop.reference_mapped hodirect hrel (htarget.symm ▸ hdirect)
    refine ⟨f, hf, hfname, hfcolumn, fun hnodup => ?_⟩
    obtain ⟨e, T, hstands⟩ := ht f (List.mem_filter.mp hf).1
    have hqmodel : q.record.model = m := hrestores.model_eq.trans hm
    have hposition : (F.model q.record.model).position? rel.reference.field = some f.index := by
      rw [hqmodel, ← hfname, hstands.name_eq]
      exact Family.position?_of_nodup hnodup (hmodel ▸ hstands.declared)
    rw [hkey hthrough, Family.named?, hposition, Option.bind_some]
  · intro rel row q hq i d hd hclass
    exact Family.hydrate_unmapped ht hq (hmodel.symm ▸ hd)
      (Workshop.index_ne_of_unmapped hdirect hd hclass)

def ada : Record Shelf :=
  ((shelf.blank .author).setSlot 0 (.column (.plain (.int .i64)) ⟨7, by decide⟩)).setSlot 1
    (.column (.plain .text) "Ada")

theorem ada_conforms : shelf.Conforms ada :=
  ((Family.conforms_blank Shelf.author).setSlot (i := 0) rfl (Family.suits_column _ _)).setSlot
    (i := 1) rfl (Family.suits_column _ _)

/-- The author is restored from the row that lists the name before the key. -/
theorem ada_restored : ∃ rel ∈ (shelfSchema .book).relations,
    ∃ q, shelf.hydrate (shelfSchema .author) rel
        (ada.row (shelfSchema .author).mapped.reverse) = .ok q ∧
      shelf.Restores ada (shelfSchema .author).mapped.reverse q.record ∧
      (∃ f ∈ (shelfSchema .author).mapped, f.column = rel.reference.column ∧
        q.key = (q.record.stored? f.index).bind Key.ofValue?) ∧
      q.record.slots[2]? = some (.collection .book []) := by
  have hrel : ∃ rel ∈ (shelfSchema .book).relations, rel.target = .author ∧ rel.through = none := by
    decide +kernel
  obtain ⟨rel, hrel, htarget, hthrough⟩ := hrel
  obtain ⟨hrestores, hunmapped⟩ :=
    hydrate_restores shelf .standard (.fresh 0) (schemaFor_shelf .author)
  obtain ⟨q, hq, hrecord, hkey⟩ := hrestores .book _ rel (schemaFor_shelf .book) hrel htarget
    (by decide +kernel) ada rfl ada_conforms _ fun f hf => List.mem_reverse.mp hf
  obtain ⟨-, f, hf, -, hcolumn, hreference⟩ := hkey hthrough
  exact ⟨rel, hrel, q, hq, hrecord, ⟨f, hf, hcolumn, hreference (by decide)⟩,
    hunmapped rel _ q hq 2 _ rfl (by decide +kernel)⟩

/-! ### Two fields of one name -/

/-- The models of a small fair. -/
inductive Fair where
  | visitor | stall
  deriving DecidableEq, Repr

/-- Stalls have two fields of one name, of which only the second one is mapped, and a note in two
wrappers. -/
def fair : Family Fair where
  model
    | .visitor => ⟨"Visitor", "fair::Visitor", "visitors", none,
        [⟨"id", "", .column (.plain (.int .i64))⟩,
          ⟨"stall_id", "ll:\"fk:stalls\"", .column (.plain (.int .i64))⟩,
          ⟨"stall", "", .reference .stall false⟩]⟩
    | .stall => ⟨"Stall", "fair::Stall", "stalls", none,
        [⟨"id", "ll:\"-\"", .column (.plain (.int .i64))⟩,
          ⟨"id", "ll:\"pk,column:key\"", .column (.plain (.int .i64))⟩,
          ⟨"note", "", .column (.option (.option (.plain .text)))⟩]⟩
  all := [.visitor, .stall]
  mem_all m := by cases m <;> decide

theorem isSome_fair (m : Fair) :
    ((ofConfig 0 .standard : Registry Fair).schemaFor fair m).result.toOption.isSome := by
  cases m <;> decide +kernel

def fairSchema (m : Fair) : Schema Fair := Option.get _ (isSome_fair m)

theorem schemaFor_fair (m : Fair) :
    ((ofConfig 0 .standard : Registry Fair).schemaFor fair m).result = .ok (fairSchema m) :=
  ok_get (isSome_fair m)

/-- A stall with the key five, whose note is nothing inside a note. -/
def stall : Record Fair :=
  ((fair.blank .stall).setSlot 1 (.column (.plain (.int .i64)) ⟨5, by decide⟩)).setSlot 2
    (.column (.option (.option (.plain .text))) (some none))

theorem stall_conforms : fair.Conforms stall :=
  ((Family.conforms_blank Fair.stall).setSlot (i := 1) rfl (Family.suits_column _ _)).setSlot
    (i := 2) rfl (Family.suits_column _ _)

theorem describes_fair (m : Fair) : fair.Describes (fairSchema m) :=
  Family.describes_of_direct (W := Workshop.ofConfig fair .standard)
    ((Reached.fresh 0).faithful.result_ok (schemaFor_fair m)).1

/-- The stall that is read from the row of its columns is matched by its first field, which is not
the reference column, and its note is nothing. -/
theorem stall_apart :
    ((ofConfig 0 .standard).schemaFor fair .stall).result = .ok (fairSchema .stall) ∧
    ((ofConfig 0 .standard).schemaFor fair .visitor).result = .ok (fairSchema .visitor) ∧
    (fairSchema .stall).Plain ∧ fair.Conforms stall ∧
    ∃ rel ∈ (fairSchema .visitor).relations, rel.target = .stall ∧ rel.through = none ∧
      ∃ q, fair.hydrate (fairSchema .stall) rel (stall.row (fairSchema .stall).mapped) = .ok q ∧
        (∃ f ∈ (fairSchema .stall).mapped, f.name = rel.reference.field ∧
          f.column = rel.reference.column ∧
          q.key ≠ (q.record.stored? f.index).bind Key.ofValue?) ∧
        ∃ g ∈ (fairSchema .stall).mapped,
          stall.slots[g.index]? = some (.column (.option (.option (.plain .text))) (some none)) ∧
          q.record.slots[g.index]? = some (.column (.option (.option (.plain .text))) none) := by
  have hplain : (fairSchema .stall).Plain := by decide +kernel
  have hrel : ∃ rel ∈ (fairSchema .visitor).relations, rel.target = .stall ∧ rel.through = none ∧
      rel.reference.field = "id" ∧ rel.reference.column = "key" := by
    decide +kernel
  obtain ⟨rel, hrel, htarget, hthrough, hname, hcolumn⟩ := hrel
  have hmodel : (fairSchema .stall).model = .stall := by decide +kernel
  have hstall : stall.model = (fairSchema .stall).model := hmodel.symm
  have hdeclared : ∃ d ∈ (fair.model (fairSchema .stall).model).fields,
      d.name = rel.reference.field := by
    rw [hmodel, hname]
    decide
  obtain ⟨q, hq, hrestores, hkey⟩ := Family.hydrate_row (describes_fair .stall) hplain hdeclared
    hstall stall_conforms fun f hf => hf
  refine ⟨schemaFor_fair .stall, schemaFor_fair .visitor, hplain, stall_conforms, rel, hrel,
    htarget, hthrough, q, hq, ?_, ?_⟩
  · have hmapped : ∃ f ∈ (fairSchema .stall).mapped, f.name = "id" ∧ f.column = "key" ∧
        f.index = 1 := by
      decide +kernel
    obtain ⟨f, hf, hfname, hfcolumn, hindex⟩ := hmapped
    refine ⟨f, hf, hfname.trans hname.symm, hfcolumn.trans hcolumn.symm, ?_⟩
    have hfirst : q.key = some (.int 0) := by
      have hposition : (fair.model stall.model).position? "id" = some 0 := by decide
      have hblank := hrestores.others 0 _ rfl (by decide +kernel)
      rw [hkey hthrough, hname, Family.named?, hrestores.model_eq, hposition, Option.bind_some,
        Record.stored?, hblank]
      rfl
    have hreference : (q.record.stored? f.index).bind Key.ofValue? = some (.int 5) := by
      obtain ⟨T, x, hslot, hread⟩ := hrestores.listed f hf
      rw [hindex] at hslot hread ⊢
      cases hslot
      rw [Record.stored?, hread]
      rfl
    rw [hfirst, hreference]
    decide
  · have hmapped : ∃ g ∈ (fairSchema .stall).mapped, g.index = 2 := by decide +kernel
    obtain ⟨g, hg, hindex⟩ := hmapped
    obtain ⟨T, x, hslot, hread⟩ := hrestores.listed g hg
    refine ⟨g, hg, ?_⟩
    rw [hindex] at hslot hread ⊢
    cases hslot
    exact ⟨rfl, hread⟩

end Registry

end RecordGraph
