import RecordGraph.Proofs.Preload.Statements
import RecordGraph.Store.Answer

/-!
# The rows of an owner

The records of one owner can be found without any statement: they are those of the rows of the table
of the target with the key of the owner, in table order, and where a join model links them one for
every linking row. The answer of the store for the keys of many owners holds exactly the rows of
each of them.
-/

namespace RecordGraph

open Store (Pairing Query Tables keyAt?)

variable {M : Type}

/-! ### The join of one owner -/

/-- Whether a row counts: it is not marked as deleted, or deleted rows count too. -/
def counts (target : Schema M) (unscoped : Bool) (row : Row) : Bool :=
  unscoped || match target.deletedKey? with
    | none => true
    | some f =>
      match row.get? f.column with
      | some v => v.isNull
      | none => true

/-- The keys of the owners of a row: the one in the reference column, or those of the rows of the
join model that refer to the row. -/
def ownersOfRow (r : Relation M) (tables : Tables) (row : Row) : List Key :=
  match r.through with
  | none => (keyAt? row r.reference.column).toList
  | some t =>
    match keyAt? row r.reference.column with
    | none => []
    | some k =>
      ((tables.rows t.table).filter fun link => keyAt? link t.targetColumn = some k).filterMap
        fun link => keyAt? link t.ownerColumn

/-- The records with the key of an owner, one for each time that a row is linked to it. -/
def joinedRecords (F : Family M) (tables : Tables) (target : Schema M) (r : Relation M)
    (unscoped : Bool) (k : Key) : List (Record M) :=
  ((tables.rows target.table).filter (counts target unscoped)).flatMap fun row =>
    List.replicate ((ownersOfRow r tables row).count k) (F.recordOf target row)

/-- The records of an owner; an owner whose key does not count has none. -/
def related (F : Family M) (tables : Tables) (target : Schema M) (r : Relation M)
    (unscoped : Bool) (owner : Record M) : List (Record M) :=
  match F.keyOf r owner with
  | none => []
  | some k => joinedRecords F tables target r unscoped k

/-! ### The pairings of a row -/

def pairingsOf (r : Relation M) (tables : Tables) (row : Row) : List Pairing :=
  match r.through with
  | none => [⟨row, none⟩]
  | some t =>
    ((tables.rows t.table).filter fun link =>
      Store.Query.joins ⟨t.table, ⟨t.table, t.targetColumn⟩, ⟨"", r.reference.column⟩⟩ row link).map
        fun link => ⟨row, some link⟩

def pairingKey? (r : Relation M) (p : Pairing) : Option Key :=
  match r.through with
  | none => keyAt? p.target r.reference.column
  | some t => p.link.bind fun link => keyAt? link t.ownerColumn

section

variable {F : Family M} {r : Relation M} {target : Schema M} {tables : Tables} {unscoped : Bool}
  {keys : List Key} {row : Row} {p : Pairing}

theorem target_of_mem_pairingsOf (h : p ∈ pairingsOf r tables row) : p.target = row := by
  cases ht : r.through with
  | none =>
    simp only [pairingsOf, ht] at h
    rw [List.mem_singleton.mp h]
  | some t =>
    simp only [pairingsOf, ht] at h
    obtain ⟨link, -, rfl⟩ := List.mem_map.mp h
    rfl

theorem joins_iff {j : Join} {target link : Row} : Store.Query.joins j target link = true ↔
    ∃ k, keyAt? target j.right.column = some k ∧ keyAt? link j.left.column = some k := by
  simp only [Store.Query.joins]
  cases keyAt? link j.left.column with
  | none => simp
  | some k => simp

theorem filterMap_pairingKey? :
    (pairingsOf r tables row).filterMap (pairingKey? r) = ownersOfRow r tables row := by
  cases ht : r.through with
  | none =>
    simp only [pairingsOf, ownersOfRow, pairingKey?, ht, List.filterMap_cons, List.filterMap_nil]
    cases keyAt? row r.reference.column <;> rfl
  | some t =>
    have hkey : (pairingKey? r ∘ fun link => ⟨row, some link⟩) =
        fun link => keyAt? link t.ownerColumn := by
      funext link
      simp only [Function.comp, pairingKey?, ht, Option.bind_some]
    simp only [pairingsOf, ownersOfRow, ht, List.filterMap_map, hkey]
    cases hk : keyAt? row r.reference.column with
    | none =>
      have hnone : ∀ link, Store.Query.joins ⟨t.table, ⟨t.table, t.targetColumn⟩,
          ⟨"", r.reference.column⟩⟩ row link = false := by
        intro link
        rw [← Bool.not_eq_true, joins_iff]
        rintro ⟨k, hrow, -⟩
        cases hk.symm.trans hrow
      simp only [hnone, List.filter_false, List.filterMap_nil]
    | some k =>
      have hsame : ∀ link, Store.Query.joins ⟨t.table, ⟨t.table, t.targetColumn⟩,
          ⟨"", r.reference.column⟩⟩ row link = decide (keyAt? link t.targetColumn = some k) := by
        intro link
        rw [Bool.eq_iff_iff, joins_iff, decide_eq_true_eq]
        simp only [hk, Option.some_inj]
        constructor
        · rintro ⟨k, rfl, hlink⟩
          exact hlink
        · intro hlink
          exact ⟨k, rfl, hlink⟩
      simp only [hsame]

/-! ### The pairings of the answer -/

theorem pairings_query (tables : Tables) (unscoped : Bool) (keys : List Key) :
    ((lookupOf target r unscoped).query keys).pairings tables =
      (tables.rows target.table).flatMap (pairingsOf r tables) := by
  cases ht : r.through with
  | none =>
    have hone : pairingsOf r tables = fun row => [⟨row, none⟩] := by
      funext row
      simp only [pairingsOf, ht]
    simp only [Query.pairings, Store.Lookup.query, lookupOf, ht, Option.map_none, hone]
    rw [List.map_eq_flatMap]
  | some t =>
    have hmany : pairingsOf r tables = fun row =>
        ((tables.rows t.table).filter (Store.Query.joins ⟨t.table, ⟨t.table, t.targetColumn⟩,
          ⟨target.table, r.reference.column⟩⟩ row)).map fun link => ⟨row, some link⟩ := by
      funext row
      simp only [pairingsOf, ht]
      rfl
    simp only [Query.pairings, Store.Lookup.query, lookupOf, ht, Option.map_some, hmany]

theorem cell?_target (r : Relation M) (target : Schema M) (unscoped : Bool) (keys : List Key)
    (p : Pairing) (c : String) :
    ((lookupOf target r unscoped).query keys).cell? p ⟨target.table, c⟩ = p.target.get? c := by
  simp only [Query.cell?, Store.Lookup.query, lookupOf, if_true, Option.bind_some]

theorem cell?_link (h : Worded target r) {t : Through M} (ht : r.through = some t)
    (unscoped : Bool) (keys : List Key) (p : Pairing) (c : String) :
    ((lookupOf target r unscoped).query keys).cell? p ⟨t.table, c⟩ =
      p.link.bind fun link => link.get? c := by
  have hne : t.table ≠ target.table := (h.through t ht).2.2.2
  simp only [Query.cell?, Store.Lookup.query, lookupOf, hne, if_false]

theorem cell?_key (h : Worded target r) (unscoped : Bool) (keys : List Key) (p : Pairing) :
    (((lookupOf target r unscoped).query keys).cell? p (lookupOf target r unscoped).key).bind
      Key.ofValue? = pairingKey? r p := by
  cases ht : r.through with
  | none =>
    have hkey : (lookupOf target r unscoped).key = ⟨target.table, r.reference.column⟩ := by
      simp only [lookupOf, ht]
    rw [hkey, cell?_target]
    simp only [pairingKey?, ht]
    rfl
  | some t =>
    have hkey : (lookupOf target r unscoped).key = ⟨t.table, t.ownerColumn⟩ := by
      simp only [lookupOf, ht]
    rw [hkey, cell?_link h ht]
    simp only [pairingKey?, ht]
    cases p.link <;> rfl

theorem nulls_all (unscoped : Bool) (keys : List Key) (p : Pairing) :
    ((lookupOf target r unscoped).query keys).nulls.all
      (((lookupOf target r unscoped).query keys).lacks p) = counts target unscoped p.target := by
  have hall : ((lookupOf target r unscoped).query keys).nulls =
      (lookupOf target r unscoped).null.toList := rfl
  rw [hall]
  cases hu : unscoped with
  | true => simp [lookupOf, counts]
  | false =>
    cases hd : target.deletedKey? with
    | none => simp [lookupOf, counts, hd]
    | some f =>
      have hcell := cell?_target r target false keys p f.column
      simp only [lookupOf, counts, hd, Option.map_some, Bool.false_eq_true, if_false,
        Option.toList_some, List.all_cons, List.all_nil, Bool.and_true, Bool.false_or]
      simp only [Query.lacks]
      simp only [lookupOf, hd, Option.map_some, Bool.false_eq_true, if_false] at hcell
      cases hv : p.target.get? f.column <;> simp only [hcell, hv]

theorem passes_iff (h : Worded target r) (p : Pairing) :
    ((lookupOf target r unscoped).query keys).passes p = true ↔
      ∃ k ∈ keys, pairingKey? r p = some k := by
  have hkey := cell?_key h unscoped keys p
  simp only [Query.passes, Store.Lookup.query] at hkey ⊢
  rw [hkey]
  cases pairingKey? r p with
  | none => simp
  | some k => simp

theorem kept_iff (h : Worded target r) (p : Pairing) :
    (((lookupOf target r unscoped).query keys).passes p &&
      ((lookupOf target r unscoped).query keys).nulls.all
        (((lookupOf target r unscoped).query keys).lacks p)) = true ↔
      counts target unscoped p.target = true ∧ ∃ k ∈ keys, pairingKey? r p = some k := by
  rw [Bool.and_eq_true, passes_iff h, nulls_all, and_comm]

/-! ### The records of the answer -/

/-- The cell of the key of the owner, which only comes with a row of a join model. -/
def ownerCells (r : Relation M) (p : Pairing) : List (String × Value) :=
  match r.through with
  | none => []
  | some t => ((p.link.bind fun link => link.get? t.ownerColumn).map
      fun v => (ownerKeyLabel, v)).toList

theorem output_eq (h : Worded target r) (unscoped : Bool) (keys : List Key) (p : Pairing) :
    ((lookupOf target r unscoped).query keys).output p =
      ⟨Family.cellsOf p.target target.mapped ++ ownerCells r p⟩ := by
  have hown : (target.columns.map fun c => (⟨⟨target.table, c⟩, none⟩ : Selected)).filterMap
      (fun s => (((lookupOf target r unscoped).query keys).cell? p s.source).map
        fun v => (s.label.getD s.source.column, v)) = Family.cellsOf p.target target.mapped := by
    simp only [Schema.columns, List.filterMap_map, List.map_map, Family.cellsOf]
    refine List.filterMap_congr fun f _ => ?_
    simp only [Function.comp, cell?_target, Option.getD_none]
  have hcolumns : ((lookupOf target r unscoped).query keys).columns =
      (lookupOf target r unscoped).columns := rfl
  cases ht : r.through with
  | none =>
    have hends : (lookupOf target r unscoped).columns =
        target.columns.map fun c => ⟨⟨target.table, c⟩, none⟩ := by
      simp only [lookupOf, ht, List.append_nil]
    simp only [Query.output, hcolumns, hends, hown, ownerCells, ht, List.append_nil]
  | some t =>
    have hends : (lookupOf target r unscoped).columns =
        (target.columns.map fun c => ⟨⟨target.table, c⟩, none⟩) ++
          [⟨⟨t.table, t.ownerColumn⟩, some ownerKeyLabel⟩] := by
      simp only [lookupOf, ht]
    simp only [Query.output, hcolumns, hends, List.filterMap_append, hown, List.filterMap_cons,
      List.filterMap_nil, cell?_link h ht, ownerCells, ht, Option.getD_some]
    cases p.link.bind fun link => link.get? t.ownerColumn <;> rfl

theorem ownerCells_of_key {k : Key} (hk : pairingKey? r p = some k) :
    (r.through = none → ownerCells r p = []) ∧
      ∀ t, r.through = some t →
        ∃ v, ownerCells r p = [(ownerKeyLabel, v)] ∧ Key.ofValue? v = some k := by
  refine ⟨fun ht => by simp only [ownerCells, ht], fun t ht => ?_⟩
  simp only [pairingKey?, ht] at hk
  obtain ⟨link, hp, hkey⟩ := Option.bind_eq_some_iff.mp hk
  obtain ⟨v, hv, hkey⟩ := Option.bind_eq_some_iff.mp hkey
  refine ⟨v, ?_, hkey⟩
  simp only [ownerCells, ht, hp, Option.bind_some, hv, Option.map_some, Option.toList_some]

/-- The records with a key among the pairings of all rows. -/
theorem filter_pairings (rows : List Row) (k : Key) :
    ((rows.flatMap (pairingsOf r tables)).filter fun p =>
        counts target unscoped p.target && pairingKey? r p = some k).map
          (fun p => F.recordOf target p.target) =
      (rows.filter (counts target unscoped)).flatMap fun row =>
        List.replicate ((ownersOfRow r tables row).count k) (F.recordOf target row) := by
  induction rows with
  | nil => rfl
  | cons row rows ih =>
    have hone : ((pairingsOf r tables row).filter fun p =>
        counts target unscoped p.target && pairingKey? r p = some k).map
          (fun p => F.recordOf target p.target) =
        if counts target unscoped row then
          List.replicate ((ownersOfRow r tables row).count k) (F.recordOf target row) else [] := by
      have htarget : ∀ p ∈ pairingsOf r tables row, p.target = row :=
        fun p hp => target_of_mem_pairingsOf hp
      have hcount : (ownersOfRow r tables row).count k =
          (pairingsOf r tables row).countP fun p => pairingKey? r p = some k := by
        rw [← filterMap_pairingKey?, List.count_filterMap]
        exact List.countP_congr fun p _ => by simp
      rw [hcount]
      generalize pairingsOf r tables row = ps at htarget
      induction ps with
      | nil => simp
      | cons p ps ihps =>
        have hp := htarget p List.mem_cons_self
        have hps := ihps fun x hx => htarget x (List.mem_cons_of_mem p hx)
        cases hc : counts target unscoped row with
        | false =>
          rw [hc] at hps
          rw [List.filter_cons_of_neg (by simp [hp, hc])]
          exact hps
        | true =>
          rw [hc] at hps
          by_cases hk : pairingKey? r p = some k
          · rw [List.filter_cons_of_pos (by simp [hp, hc, hk]), List.map_cons, hps, hp,
              List.countP_cons_of_pos (by simpa using hk)]
            simp only [if_true, List.replicate_succ]
          · rw [List.filter_cons_of_neg (by simp [hk]), hps,
              List.countP_cons_of_neg (by simpa using hk)]
    rw [List.flatMap_cons, List.filter_append, List.map_append, ih, hone]
    cases hc : counts target unscoped row with
    | true => rw [List.filter_cons_of_pos hc, List.flatMap_cons, if_pos rfl]
    | false =>
      rw [List.filter_cons_of_neg (by simp [hc]), if_neg Bool.false_ne_true, List.nil_append]

variable [DecidableEq M]

theorem hydrate_output (hF : F.DistinctNames) (h : Linked F r target)
    (hrow : F.Stores target p.target) {k : Key} (hk : pairingKey? r p = some k) :
    F.hydrate target r (((lookupOf target r unscoped).query keys).output p) =
      .ok ⟨some k, F.recordOf target p.target⟩ := by
  obtain ⟨hdirect, hthrough⟩ := ownerCells_of_key hk
  have hfill := Family.fill_cellsOf hrow (fun f hf => h.tidy.fieldByColumn?_eq hf)
    (fun f hf => h.tidy.column_ne_label hf) (fun f hf => hf) rfl
    (Family.conforms_blank target.model) none (ownerCells r p)
  have hcells : (((lookupOf target r unscoped).query keys).output p).cells =
      Family.cellsOf p.target target.mapped ++ ownerCells r p := by
    rw [output_eq h.worded]
  rw [← hcells] at hfill
  cases ht : r.through with
  | none =>
    simp only [pairingKey?, ht] at hk
    obtain ⟨v, hv, hkey⟩ := Option.bind_eq_some_iff.mp hk
    obtain ⟨f, hf, hname, hcolumn⟩ := h.reference
    rw [← hcolumn] at hv
    have hread := Family.getField_recordOf hF hrow h.index h.describes hf hv
    rw [hname] at hread
    rw [hdirect ht] at hfill
    simp only [Family.hydrate, hfill, Family.fill, ht]
    simp only [Family.recordOf] at hread ⊢
    rw [hread]
    simp only [FieldValue.value?, Option.bind_some, hkey]
  | some t =>
    obtain ⟨v, hrest, hkey⟩ := hthrough t ht
    rw [hrest] at hfill
    simp only [Family.hydrate, hfill, Family.fill, ht, if_true, hkey]
    rfl

/-- All rows of an answer can be read, and for every key that was asked for they hold the records
with this key. -/
theorem hydrateAll_answer (hF : F.DistinctNames) (h : Linked F r target)
    (hrows : ∀ row ∈ tables.rows target.table, F.Stores target row) (unscoped : Bool)
    (keys : List Key) :
    ∃ fetched, F.hydrateAll target r
        (((lookupOf target r unscoped).query keys).answer tables) = .ok fetched ∧
      ∀ k ∈ keys, Family.matching k fetched = joinedRecords F tables target r unscoped k := by
  have hkept : ∀ p ∈ ((lookupOf target r unscoped).query keys).kept tables,
      F.Stores target p.target ∧ ∃ k, pairingKey? r p = some k := by
    intro p hp
    obtain ⟨hp, hcondition⟩ := List.mem_filter.mp hp
    obtain ⟨-, k, -, hk⟩ := (kept_iff h.worded p).mp hcondition
    rw [pairings_query] at hp
    obtain ⟨row, hrow, hp⟩ := List.mem_flatMap.mp hp
    rw [target_of_mem_pairingsOf hp]
    exact ⟨hrows row hrow, k, hk⟩
  refine ⟨(((lookupOf target r unscoped).query keys).kept tables).map fun p =>
    ⟨pairingKey? r p, F.recordOf target p.target⟩, ?_, fun k hk => ?_⟩
  · refine Family.hydrateAll_ok_iff.mpr ?_
    have harranged : ((lookupOf target r unscoped).query keys).answer tables =
        (((lookupOf target r unscoped).query keys).kept tables).map
          ((lookupOf target r unscoped).query keys).output := rfl
    rw [harranged]
    refine List.forall₂_map_left_iff.mpr (List.forall₂_map_right_iff.mpr
      (List.forall₂_same.mpr fun p hp => ?_))
    obtain ⟨hrow, k, hk⟩ := hkept p hp
    rw [hk]
    exact hydrate_output hF h hrow hk
  · rw [Family.matching_eq, List.filter_map, List.map_map, joinedRecords, ← filter_pairings,
      ← pairings_query tables unscoped keys, Query.kept, List.filter_filter]
    refine congrArg (List.map _) (List.filter_congr fun p _ => ?_)
    rw [Bool.eq_iff_iff, Bool.and_eq_true, kept_iff h.worded]
    simp only [Function.comp, decide_eq_true_eq, Bool.and_eq_true]
    constructor
    · rintro ⟨hkey, hcounts, -⟩
      exact ⟨hcounts, hkey⟩
    · rintro ⟨hcounts, hkey⟩
      exact ⟨hkey, hcounts, k, hk, hkey⟩

end

end RecordGraph
