import RecordGraph.Proofs.Preload.Refinement

/-!
# What a relation selects

The rows of a relation are said here as a join of two tables, with no statement in between. In every
dialect the store answers the statement of the relation with exactly these rows, in their order. A
statement without values is rendered with a comparison that never holds. The store passes over it,
so that it answers the rows of all keys.
-/

namespace RecordGraph

open Store (Pairing Query Tables keyAt?)

variable {M : Type}

/-! ### The rows of a relation -/

/-- Whether a row of a join model refers to a row of the target: both have the key, and the same. -/
def refersTo (r : Relation M) (t : Through M) (row link : Row) : Bool :=
  (keyAt? row r.reference.column).any fun k => keyAt? link t.targetColumn = some k

/-- The cell that shows the owner which a row of a join model refers to. -/
def ownerCell (t : Through M) (link : Row) : List (String × Value) :=
  ((link.get? t.ownerColumn).map fun v => (ownerKeyLabel, v)).toList

/-- The rows of a relation: of every row of the target that counts and whose owner is wanted, the
mapped columns that it has. With a join model there is one for each of its rows that refers to the
row of the target, and the key of the owner comes last. -/
def selectedRows (tables : Tables) (target : Schema M) (r : Relation M) (unscoped : Bool)
    (wanted : Option Key → Bool) : List Row :=
  match r.through with
  | none =>
    ((tables.rows target.table).filter fun row =>
      counts target unscoped row && wanted (keyAt? row r.reference.column)).map
        fun row => ⟨Family.cellsOf row target.mapped⟩
  | some t =>
    (tables.rows target.table).flatMap fun row =>
      ((tables.rows t.table).filter fun link => refersTo r t row link &&
        (counts target unscoped row && wanted (keyAt? link t.ownerColumn))).map
          fun link => ⟨Family.cellsOf row target.mapped ++ ownerCell t link⟩

/-- Whether a key is the key of one of the values. -/
def isKeyOf (values : List Value) (k? : Option Key) : Bool :=
  k?.any fun k => values.any fun v => Key.ofValue? v = some k

/-- Whether the store takes a key for one that is asked for. Without values it takes every one, and
a missing key too. -/
def isAsked (values : List Value) (k? : Option Key) : Bool :=
  values.isEmpty || isKeyOf values k?

section

variable {r : Relation M} {target : Schema M} {tables : Tables} {unscoped : Bool}
  {wanted : Option Key → Bool}

/-! ### The answer to a statement -/

theorem map_filter_pairings (tables : Tables) (target : Schema M) (r : Relation M)
    (unscoped : Bool) (wanted : Option Key → Bool) :
    (((tables.rows target.table).flatMap (pairingsOf r tables)).filter fun p =>
        counts target unscoped p.target && wanted (pairingKey? r p)).map
          (fun p => (⟨Family.cellsOf p.target target.mapped ++ ownerCells r p⟩ : Row)) =
      selectedRows tables target r unscoped wanted := by
  cases ht : r.through with
  | none =>
    have hone : pairingsOf r tables = fun row => [⟨row, none⟩] := by
      funext row
      simp only [pairingsOf, ht]
    rw [hone, ← List.map_eq_flatMap, List.filter_map, List.map_map, selectedRows, ht]
    simp only [Function.comp_def, pairingKey?, ownerCells, ht, List.append_nil]
  | some t =>
    have hjoins : ∀ row link, Store.Query.joins ⟨t.table, ⟨t.table, t.targetColumn⟩,
        ⟨"", r.reference.column⟩⟩ row link = refersTo r t row link := by
      intro row link
      rw [Bool.eq_iff_iff, joins_iff, refersTo, Option.any_eq_true]
      simp only [decide_eq_true_eq]
    rw [List.filter_flatMap, List.map_flatMap, selectedRows, ht]
    refine List.flatMap_congr fun row _ => ?_
    simp only [pairingsOf, ht]
    rw [List.filter_map, List.map_map, List.filter_filter]
    simp only [Function.comp_def, pairingKey?, ownerCells, ownerCell, ht, Option.bind_some, hjoins,
      Bool.and_comm]

/-- The query of a relation with any filter on the keys, or with none. -/
def queryBy (target : Schema M) (r : Relation M) (unscoped : Bool)
    (filter : Option (ColumnName × List Key)) : Query :=
  { (lookupOf target r unscoped).query [] with filter }

theorem answer_of_passes (h : Worded target r) {filter : Option (ColumnName × List Key)}
    (hpasses : ∀ p, (queryBy target r unscoped filter).passes p =
      wanted (pairingKey? r p)) (tables : Tables) :
    (queryBy target r unscoped filter).answer tables =
      selectedRows tables target r unscoped wanted := by
  have hnulls : ∀ p : Pairing, (queryBy target r unscoped filter).nulls.all
      ((queryBy target r unscoped filter).lacks p) =
        counts target unscoped p.target := nulls_all unscoped []
  have houtput : (queryBy target r unscoped filter).output =
      fun p => ⟨Family.cellsOf p.target target.mapped ++ ownerCells r p⟩ :=
    funext (output_eq h unscoped [])
  have hpairings : (queryBy target r unscoped filter).pairings tables =
      (tables.rows target.table).flatMap (pairingsOf r tables) := pairings_query tables unscoped []
  have harranged : (queryBy target r unscoped filter).answer tables =
      ((queryBy target r unscoped filter).kept tables).map
        (queryBy target r unscoped filter).output := rfl
  rw [harranged, houtput, Query.kept, hpairings, ← map_filter_pairings]
  simp only [hpasses, hnulls, Bool.and_comm]

/-- The store answers the statement of a relation with the rows of the relation. -/
theorem Worded.query_selectRelated (h : Worded target r) {c : Connection Store}
    (hc : Store.Ready tables c) (d : Dialect) (values : List Value) (unscoped : Bool) :
    ∃ c', Store.executor.query (d.render (selectRelated target r values unscoped)) c =
        (.ok (selectedRows tables target r unscoped (isAsked values)), c') ∧
      Store.Ready tables c' := by
  cases values with
  | nil =>
    obtain ⟨c', hquery, hc'⟩ := Store.query_ready hc (h.ofStatement?_render_nil d unscoped)
    refine ⟨c', ?_, hc'⟩
    rw [hquery]
    exact congrArg (fun rows => (Except.ok rows, c')) (answer_of_passes h (fun p => rfl) tables)
  | cons v vs =>
    obtain ⟨c', hquery, hc'⟩ := Store.query_ready hc
      (h.ofStatement?_render d (List.cons_ne_nil v vs) unscoped)
    refine ⟨c', ?_, hc'⟩
    rw [hquery]
    refine congrArg (fun rows => (Except.ok rows, c')) (answer_of_passes h (fun p => ?_) tables)
    rw [Bool.eq_iff_iff]
    refine (passes_iff h p).trans ?_
    simp only [isAsked, isKeyOf, List.isEmpty_cons, Bool.false_or, Option.any_eq_true,
      List.any_eq_true, decide_eq_true_eq, List.mem_filterMap]
    constructor
    · rintro ⟨k, hk, hkey⟩
      exact ⟨k, hkey, hk⟩
    · rintro ⟨k, hkey, hk⟩
      exact ⟨k, hk, hkey⟩

end

/-! ### The topics of articles -/

namespace Registry

theorem isSome_topicsRelation : ((catalogSchema .article).relation? "topics").isSome := by
  decide +kernel

def topicsRelation : Relation Catalog := Option.get _ isSome_topicsRelation

theorem worded_topics : Worded (catalogSchema .topic) topicsRelation := by
  refine ⟨by decide +kernel, by decide +kernel, by decide +kernel, fun t ht => ?_⟩
  have hall : (topicsRelation.through.all fun t => decide (Store.IsWord t.table ∧
      Store.IsWord t.ownerColumn ∧ Store.IsWord t.targetColumn ∧
        t.table ≠ (catalogSchema .topic).table)) = true := by decide +kernel
  rw [ht] at hall
  exact of_decide_eq_true hall

/-- The first article has one topic that is linked to it twice and another one, and not the deleted
one. -/
theorem query_selectRelated_topics : ∃ c', Store.executor.query (Dialect.mysql.render
      (selectRelated (catalogSchema .topic) topicsRelation [keyValue (keyWord 1)] false))
        catalogBatch.state =
    (.ok [⟨[("id", keyValue (keyWord 5)), (ownerKeyLabel, keyValue (keyWord 1))]⟩,
      ⟨[("id", keyValue (keyWord 5)), (ownerKeyLabel, keyValue (keyWord 1))]⟩,
      ⟨[("id", keyValue (keyWord 7)), ("deleted_at", .datetime none),
        (ownerKeyLabel, keyValue (keyWord 1))]⟩], c') ∧ Store.Ready catalogTables c' :=
  worded_topics.query_selectRelated ⟨rfl, rfl, rfl⟩ .mysql [keyValue (keyWord 1)] false

/-- Without values no row has a key of one of them, but the store answers rows. -/
theorem query_selectRelated_nil : ¬ ∃ c', Store.executor.query (Dialect.postgres.render
      (selectRelated (catalogSchema .topic) topicsRelation [] false)) catalogBatch.state =
    (.ok (selectedRows catalogTables (catalogSchema .topic) topicsRelation false
      (isKeyOf [])), c') := by
  rintro ⟨c', hquery⟩
  have hready : Store.Ready catalogTables catalogBatch.state := ⟨rfl, rfl, rfl⟩
  obtain ⟨c'', hopen, -⟩ := Store.query_ready hready
    (worded_topics.ofStatement?_render_nil .postgres false)
  rw [hopen] at hquery
  have hanswer := Except.ok.inj (congrArg Prod.fst hquery)
  have hopened : ((lookupOf (catalogSchema .topic) topicsRelation false).openQuery.answer
      catalogTables).length = 4 := by decide +kernel
  have hclaimed : (selectedRows catalogTables (catalogSchema .topic) topicsRelation false
      (isKeyOf [])).length = 0 := by decide +kernel
  rw [hanswer, hclaimed] at hopened
  cases hopened

end Registry

end RecordGraph
