import RecordGraph.Preload.Load
import RecordGraph.Proofs.Preload.Rows
import RecordGraph.Proofs.Store.Conditions

/-!
# The statement of a relation

The statement of a relation is a lookup: of the rows whose reference column has one of the keys, or
of those that a join model links to one of them. Where all tables and columns are words, the store
reads the lookup back from its text.
-/

namespace RecordGraph

open Store (ColumnWords IsWord Lookup)

variable {M : Type}

/-! ### Schemas of plain names -/

/-- The table and the mapped columns are words, and the columns are told apart from each other and
from the key of the owner. -/
structure Schema.Tidy (s : Schema M) : Prop where
  table : IsWord s.table
  columns : ∀ c ∈ s.columns, IsWord c
  label : ownerKeyLabel ∉ s.columns
  distinct : s.columns.Nodup

theorem isWord_ownerKeyLabel : IsWord ownerKeyLabel := by
  decide +kernel

namespace Schema.Tidy

variable {s : Schema M}

theorem plain (h : s.Tidy) : s.Plain where
  distinct := h.distinct
  undotted c hc hdot := absurd ((h.columns c hc).isWordChar _ hdot) (by decide)
  label := h.label

theorem fieldByColumn?_eq (h : s.Tidy) {f : Field} (hf : f ∈ s.mapped) :
    s.fieldByColumn? f.column = some f := h.plain.fieldByColumn?_eq hf

theorem column_ne_label (h : s.Tidy) {f : Field} (hf : f ∈ s.mapped) :
    f.column ≠ ownerKeyLabel := h.plain.column_ne_label hf

end Schema.Tidy

/-! ### Relations of plain names -/

/-- All tables and columns that the statement of a relation names are words, and a join model has
another table than the target. -/
structure Worded (target : Schema M) (r : Relation M) : Prop where
  table : IsWord target.table
  columns : ∀ c ∈ target.columns, IsWord c
  reference : IsWord r.reference.column
  through : ∀ t, r.through = some t →
    IsWord t.table ∧ IsWord t.ownerColumn ∧ IsWord t.targetColumn ∧ t.table ≠ target.table

/-- The target of a relation and the columns that link to it can be named in a statement. -/
structure Linked (F : Family M) (r : Relation M) (target : Schema M) : Prop where
  tidy : target.Tidy
  describes : F.Describes target
  index : ∀ f ∈ target.mapped, ∀ g ∈ target.mapped, f.index = g.index → f = g
  reference : ∃ f ∈ target.mapped, f.name = r.reference.field ∧ f.column = r.reference.column
  through : ∀ t, r.through = some t →
    IsWord t.table ∧ IsWord t.ownerColumn ∧ IsWord t.targetColumn ∧ t.table ≠ target.table

/-- The schemas of a family are tidy, and no join model has the table of the target it links to. -/
structure Plain (schemas : M → Schema M) : Prop where
  tidy : ∀ m, (schemas m).Tidy
  apart : ∀ m, ∀ r ∈ (schemas m).relations, ∀ t, r.through = some t →
    t.table ≠ (schemas r.target).table

theorem Plain.linked {W : Workshop M} {schemas : M → Schema M} (h : Plain schemas)
    (hdirect : ∀ m, W.direct m = .ok (schemas m)) {m : M} {r : Relation M}
    (hr : r ∈ (schemas m).relations) : Linked W.family r (schemas r.target) := by
  refine ⟨h.tidy r.target, Family.describes_of_direct (hdirect r.target), fun f hf g hg he => ?_,
    Workshop.reference_mapped (hdirect m) hr (hdirect r.target), fun t ht => ?_⟩
  · exact Workshop.index_injective (hdirect r.target) hf hg he
  · obtain ⟨htable, howner, htarget⟩ :=
      Workshop.through_mapped (hdirect m) hr ht (hdirect t.model)
    have htidy := h.tidy t.model
    exact ⟨htable ▸ htidy.table, htidy.columns _ howner, htidy.columns _ htarget,
      h.apart m r hr t ht⟩

/-! ### The lookup of a relation -/

def lookupOf (target : Schema M) (r : Relation M) (unscoped : Bool) : Lookup where
  columns := (target.columns.map fun c => ⟨⟨target.table, c⟩, none⟩) ++
    match r.through with
    | some t => [⟨⟨t.table, t.ownerColumn⟩, some ownerKeyLabel⟩]
    | none => []
  table := target.table
  join := r.through.map fun t =>
    ⟨t.table, ⟨t.table, t.targetColumn⟩, ⟨target.table, r.reference.column⟩⟩
  key :=
    match r.through with
    | some t => ⟨t.table, t.ownerColumn⟩
    | none => ⟨target.table, r.reference.column⟩
  null := if unscoped then none else target.deletedKey?.map fun f => ⟨target.table, f.column⟩

theorem selectRelated_eq (target : Schema M) (r : Relation M) (keys : List Value)
    (unscoped : Bool) :
    selectRelated target r keys unscoped = (lookupOf target r unscoped).select keys := by
  cases ht : r.through with
  | none =>
    cases unscoped with
    | true => simp [selectRelated, lookupOf, Lookup.select, ht]
    | false =>
      cases hd : target.deletedKey? <;>
        simp [selectRelated, lookupOf, Lookup.select, Select.andWhere, ht, hd]
  | some t =>
    cases unscoped with
    | true => simp [selectRelated, lookupOf, Lookup.select, ht]
    | false =>
      cases hd : target.deletedKey? <;>
        simp [selectRelated, lookupOf, Lookup.select, Select.andWhere, ht, hd]

theorem mem_of_deletedKey? {target : Schema M} {f : Field} (h : target.deletedKey? = some f) :
    f ∈ target.mapped := List.mem_of_find?_eq_some h

variable {F : Family M} {r : Relation M} {target : Schema M}

theorem Linked.reference_word (h : Linked F r target) : IsWord r.reference.column := by
  obtain ⟨f, hf, -, hcolumn⟩ := h.reference
  exact hcolumn ▸ h.tidy.columns f.column (Schema.column_mem hf)

theorem Linked.worded (h : Linked F r target) : Worded target r :=
  ⟨h.tidy.table, h.tidy.columns, h.reference_word, h.through⟩

theorem Worded.lookup_plain (h : Worded target r) (unscoped : Bool) :
    (lookupOf target r unscoped).Plain := by
  have hreference : ColumnWords ⟨target.table, r.reference.column⟩ := ⟨h.table, h.reference⟩
  refine ⟨fun s hs => ?_, h.table, fun j hj => ?_, ?_, fun c hc => ?_⟩
  · rcases List.mem_append.mp hs with hs | hs
    · obtain ⟨c, hc, rfl⟩ := List.mem_map.mp hs
      exact ⟨⟨h.table, h.columns c hc⟩, fun label hlabel => nomatch hlabel⟩
    · cases ht : r.through with
      | none =>
        rw [ht] at hs
        cases hs
      | some t =>
        rw [ht] at hs
        obtain ⟨htable, howner, -, -⟩ := h.through t ht
        rw [List.mem_singleton.mp hs]
        refine ⟨⟨htable, howner⟩, fun label hlabel => ?_⟩
        cases hlabel
        exact isWord_ownerKeyLabel
  · obtain ⟨t, ht, rfl⟩ := Option.map_eq_some_iff.mp hj
    obtain ⟨htable, -, htarget, -⟩ := h.through t ht
    exact ⟨htable, ⟨htable, htarget⟩, hreference⟩
  · cases ht : r.through with
    | none =>
      simp only [lookupOf, ht]
      exact hreference
    | some t =>
      obtain ⟨htable, howner, -, -⟩ := h.through t ht
      simp only [lookupOf, ht]
      exact ⟨htable, howner⟩
  · simp only [lookupOf] at hc
    split at hc
    · cases hc
    · obtain ⟨f, hf, rfl⟩ := Option.map_eq_some_iff.mp hc
      exact ⟨h.table, h.columns f.column (Schema.column_mem (mem_of_deletedKey? hf))⟩

def Step.unscoped (s : Step M) : Bool := s.handler.any Handler.unscoped

theorem statementOf_eq {s : Step M} (hrefine : s.handler.bind Handler.refine = none) (d : Dialect)
    (keys : List Value) : Family.statementOf d s keys =
      d.render (selectRelated s.target s.relation keys s.unscoped) := by
  cases hhandler : s.handler with
  | none =>
    simp only [Family.statementOf, Step.unscoped, hhandler, Option.bind_none, Option.any_none]
  | some g =>
    rw [hhandler, Option.bind_some] at hrefine
    simp only [Family.statementOf, Step.unscoped, hhandler, Option.bind_some, hrefine,
      Option.any_some]

theorem Worded.ofStatement?_render (h : Worded target r) (d : Dialect) {keys : List Value}
    (hkeys : keys ≠ []) (unscoped : Bool) :
    Store.Query.ofStatement? (d.render (selectRelated target r keys unscoped)) =
      some ((lookupOf target r unscoped).query (keys.filterMap Key.ofValue?)) := by
  rw [selectRelated_eq]
  exact Store.ofStatement?_render (h.lookup_plain unscoped) hkeys

/-- Without keys the store does not see that there are none. -/
theorem Worded.ofStatement?_render_nil (h : Worded target r) (d : Dialect) (unscoped : Bool) :
    Store.Query.ofStatement? (d.render (selectRelated target r [] unscoped)) =
      some (lookupOf target r unscoped).openQuery := by
  rw [selectRelated_eq]
  exact Store.ofStatement?_render_nil (h.lookup_plain unscoped)

theorem Linked.ofStatement?_statementOf {s : Step M} (h : Linked F s.relation s.target)
    (hrefine : s.handler.bind Handler.refine = none) (d : Dialect) {keys : List Value}
    (hkeys : keys ≠ []) : Store.Query.ofStatement? (Family.statementOf d s keys) =
      some ((lookupOf s.target s.relation s.unscoped).query (keys.filterMap Key.ofValue?)) := by
  rw [statementOf_eq hrefine]
  exact h.worded.ofStatement?_render d hkeys s.unscoped

end RecordGraph
