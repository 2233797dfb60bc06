import RecordGraph.Proofs.Preload.Joining
import RecordGraph.Proofs.Preload.Loading
import RecordGraph.Store.Basic

/-!
# Steps answered by the store

A store without waiting failures, under a context that lets work go on, answers the statement of
every step, and stays such a store. Every owner then gets the records of its own join.
-/

namespace RecordGraph

open Store (Tables)

variable {M : Type}

namespace Family

variable {F : Family M} {r : Relation M} {owners : List (Record M)}

/-! ### The keys of a statement -/

/-- Every key is the key of the value that it comes with. -/
def Keyed (ks : List (Option (Key × Value))) : Prop :=
  ∀ k v, some (k, v) ∈ ks → Key.ofValue? v = some k

theorem mem_distinctValues {ks : List (Option (Key × Value))} (hks : Keyed ks) {k : Key}
    {v : Value} (h : some (k, v) ∈ ks) (seen : List Key) :
    k ∈ seen ∨ k ∈ (distinctValues seen ks).filterMap Key.ofValue? := by
  induction ks generalizing seen with
  | nil => cases h
  | cons head ks ih =>
    have hrest : Keyed ks := fun k v hmem => hks k v (List.mem_cons_of_mem head hmem)
    cases head with
    | none =>
      rcases List.mem_cons.mp h with h | h
      · cases h
      · exact ih hrest h seen
    | some entry =>
      obtain ⟨l, w⟩ := entry
      have hw : Key.ofValue? w = some l := hks l w List.mem_cons_self
      by_cases hl : l ∈ seen
      · rw [distinctValues, if_pos hl]
        rcases List.mem_cons.mp h with h | h
        · cases h
          exact Or.inl hl
        · exact ih hrest h seen
      · rw [distinctValues, if_neg hl, List.filterMap_cons, hw]
        rcases List.mem_cons.mp h with h | h
        · cases h
          exact Or.inr List.mem_cons_self
        · rcases ih hrest h (l :: seen) with h | h
          · rcases List.mem_cons.mp h with rfl | h
            · exact Or.inr List.mem_cons_self
            · exact Or.inl h
          · exact Or.inr (List.mem_cons_of_mem l h)

theorem ofValue?_of_keyOf {owner : Record M} {v : Value} {k : Key}
    (hv : F.getField owner r.source.field = .ok (.column v)) (hk : F.keyOf r owner = some k) :
    Key.ofValue? v = some k := by
  simp only [keyOf, hv, FieldValue.value?, Option.bind_some, presentKey?] at hk
  exact (Option.filter_eq_some_iff.mp hk).1

theorem keyed_ownerKeys (hF : F.DistinctNames) (hr : F.Grounded r) (h : F.AllConform r.owner owners)
    {ks : List (Option (Key × Value))} (hks : F.ownerKeys r owners = .ok ks) :
    Keyed ks ∧ ∀ owner ∈ owners, ∀ k, F.keyOf r owner = some k → ∃ v, some (k, v) ∈ ks := by
  induction owners generalizing ks with
  | nil =>
    cases hks
    exact ⟨(fun k v hmem => nomatch hmem), fun owner hmem => nomatch hmem⟩
  | cons owner owners ih =>
    obtain ⟨hm, ho⟩ := h owner List.mem_cons_self
    obtain ⟨v, hv, hkey⟩ := ownerKey?_ok hF hr hm ho
    have hrest : F.AllConform r.owner owners := fun x hx => h x (List.mem_cons_of_mem owner hx)
    obtain ⟨ls, hls, -⟩ := ownerKeys_ok hF hr hrest
    simp only [ownerKeys, hkey, hls] at hks
    cases hks
    obtain ⟨hkeyed, hall⟩ := ih hrest hls
    constructor
    · intro k w hmem
      rcases List.mem_cons.mp hmem with he | hmem
      · obtain ⟨l, hl, he⟩ := Option.map_eq_some_iff.mp he.symm
        cases he
        exact ofValue?_of_keyOf hv hl
      · exact hkeyed k w hmem
    · intro x hx k hk
      rcases List.mem_cons.mp hx with rfl | hx
      · exact ⟨v, by rw [hk]; exact List.mem_cons_self⟩
      · obtain ⟨w, hw⟩ := hall x hx k hk
        exact ⟨w, List.mem_cons_of_mem _ hw⟩

theorem mem_ownerValues (hF : F.DistinctNames) (hr : F.Grounded r) (h : F.AllConform r.owner owners)
    {owner : Record M} (howner : owner ∈ owners) {k : Key} (hk : F.keyOf r owner = some k) :
    k ∈ (F.ownerValues r owners).filterMap Key.ofValue? := by
  obtain ⟨ks, hks, hvalues⟩ := ownerKeys_eq_ok hF hr h
  obtain ⟨hkeyed, hall⟩ := keyed_ownerKeys hF hr h hks
  obtain ⟨v, hv⟩ := hall owner howner k hk
  rw [hvalues]
  rcases mem_distinctValues hkeyed hv [] with hmem | hmem
  · cases hmem
  · exact hmem

theorem exists_of_mem_distinctValues {ks : List (Option (Key × Value))} {v : Value}
    {seen : List Key} (h : v ∈ distinctValues seen ks) : ∃ k, some (k, v) ∈ ks := by
  induction ks generalizing seen with
  | nil => cases h
  | cons head ks ih =>
    cases head with
    | none =>
      obtain ⟨k, hk⟩ := ih h
      exact ⟨k, List.mem_cons_of_mem none hk⟩
    | some entry =>
      obtain ⟨l, w⟩ := entry
      simp only [distinctValues] at h
      split at h
      · obtain ⟨k, hk⟩ := ih h
        exact ⟨k, List.mem_cons_of_mem _ hk⟩
      · rcases List.mem_cons.mp h with rfl | h
        · exact ⟨l, List.mem_cons_self⟩
        · obtain ⟨k, hk⟩ := ih h
          exact ⟨k, List.mem_cons_of_mem _ hk⟩

theorem owner_of_mem_ownerValues (hF : F.DistinctNames) (hr : F.Grounded r)
    (h : F.AllConform r.owner owners) {v : Value} (hv : v ∈ F.ownerValues r owners) :
    ∃ owner ∈ owners, ∃ k, F.keyOf r owner = some k ∧ Key.ofValue? v = some k := by
  obtain ⟨ks, hks, hvalues⟩ := ownerKeys_eq_ok hF hr h
  rw [hvalues] at hv
  obtain ⟨k, hk⟩ := exists_of_mem_distinctValues hv
  have hmem : some k ∈ owners.map (F.keyOf r) := by
    rw [← map_fst_ownerKeys hF hr h hks]
    exact List.mem_map.mpr ⟨some (k, v), hk, rfl⟩
  obtain ⟨owner, howner, hkey⟩ := List.mem_map.mp hmem
  exact ⟨owner, howner, k, hkey, (keyed_ownerKeys hF hr h hks).1 k v hk⟩

end Family

/-! ### Stores that answer -/

namespace Store

/-- The store has the tables and no waiting failures, and the context lets work go on. -/
structure Ready (tables : Tables) (c : Connection Store) : Prop where
  tables_eq : c.peer.tables = tables
  failures_eq : c.peer.failures = []
  live : c.halted? = none

variable {tables : Tables} {c : Connection Store}

theorem query_ready (h : Ready tables c) {st : Statement} {q : Query}
    (hq : Query.ofStatement? st = some q) :
    ∃ c', executor.query st c = (.ok (q.answer tables), c') ∧ Ready tables c' := by
  refine ⟨{ c with peer := { c.peer with received := c.peer.received ++ [st] } }, ?_, ?_⟩
  · simp only [executor, receive, h.live, h.failures_eq, takeFailure?, select, hq, h.tables_eq]
  · exact ⟨h.tables_eq, h.failures_eq, h.live⟩

end Store

variable [DecidableEq M] {F : Family M} {s : Step M} {owners : List (Record M)} {tables : Tables}
  {c : Connection Store}

/-- The store answers a step so that every owner gets the records of its own join. -/
theorem Linked.answered (h : Linked F s.relation s.target) (hF : F.DistinctNames)
    (hr : F.Grounded s.relation) (howners : F.AllConform s.relation.owner owners)
    (hrefine : s.handler.bind Handler.refine = none)
    (hrows : ∀ row ∈ tables.rows s.target.table, F.Stores s.target row)
    (hc : Store.Ready tables c) (d : Dialect) :
    ∃ rows fetched c', F.Answers Store.executor d s owners c rows c' ∧
      F.hydrateAll s.target s.relation rows = .ok fetched ∧ Store.Ready tables c' ∧
      ∀ owner ∈ owners, F.matched s.relation fetched owner =
        related F tables s.target s.relation s.unscoped owner := by
  by_cases hkeys : F.ownerValues s.relation owners = []
  · refine ⟨[], [], c, .idle hkeys, rfl, hc, fun owner howner => ?_⟩
    have hnone : F.keyOf s.relation owner = none := by
      cases hk : F.keyOf s.relation owner with
      | none => rfl
      | some k =>
        have hmem := Family.mem_ownerValues hF hr howners howner hk
        rw [hkeys] at hmem
        cases hmem
    simp only [Family.matched, related, hnone]
  · obtain ⟨c', hquery, hc'⟩ := Store.query_ready hc
      (h.ofStatement?_statementOf hrefine d hkeys)
    obtain ⟨fetched, hhydrate, hmatching⟩ := hydrateAll_answer hF h hrows s.unscoped
      ((F.ownerValues s.relation owners).filterMap Key.ofValue?)
    refine ⟨_, fetched, c', .sent hkeys hc.live hquery, hhydrate, hc', fun owner howner => ?_⟩
    cases hk : F.keyOf s.relation owner with
    | none => simp only [Family.matched, related, hk]
    | some k =>
      have hmem := Family.mem_ownerValues hF hr howners howner hk
      simp only [Family.matched, related, hk, hmatching k hmem]

end RecordGraph
