import RecordGraph.Proofs.Walk.Values

/-!
# Pushes that go well

A push along a path that goes well writes into the last field of every record that the part before it
leads to, and counts these records. Nothing else changes: every record on the way keeps all its
fields but the association of the path, and that one keeps its records but for the change below
them.
-/

namespace RecordGraph

variable {M R : Type}

namespace Slot

/-- What a push of a value makes of a slot. A column takes the datum that the value is read as, a
reference takes the record or nothing, and a collection the records behind its own. -/
inductive Pushed : FieldValue (Record M) → Slot M (Record M) → Slot M (Record M) → Prop where
  | column {T : ColumnType} {old new : T.Carrier} {value : Value} (scanned : T.scan value = .ok new) :
      Pushed (.column value) (.column T old) (.column T new)
  | reference {target : M} {old record : Option (Record M)} (own : ∀ r ∈ record, r.model = target) :
      Pushed (.one record) (.reference target old) (.reference target record)
  | record {target : M} {old : List (Record M)} {record : Option (Record M)}
      (own : ∀ r ∈ record, r.model = target) :
      Pushed (.one record) (.collection target old) (.collection target (old ++ record.toList))
  | records {target : M} {old more : List (Record M)} (own : ∀ r ∈ more, r.model = target) :
      Pushed (.many more) (.collection target old) (.collection target (old ++ more))

/-- The slots are of one association, and their records are related one by one. -/
inductive Relates (p : R → R → Prop) : Slot M R → Slot M R → Prop where
  | reference {target : M} {a b : Option R} (records : Option.Rel p a b) :
      Relates p (.reference target a) (.reference target b)
  | collection {target : M} {as bs : List R} (records : List.Forall₂ p as bs) :
      Relates p (.collection target as) (.collection target bs)

theorem relates_mapRecords {p : R → R → Prop} {f : R → R} {s : Slot M R} {rs : List R}
    (hs : s.records? = some rs) (h : List.Forall₂ p rs (rs.map f)) :
    s.Relates p (s.mapRecords f) := by
  cases s with
  | column T x => cases hs
  | reference target record =>
    cases hs
    cases record with
    | none => exact .reference .none
    | some r =>
      cases h with
      | cons hr _ => exact .reference (.some hr)
  | collection target records =>
    cases hs
    exact .collection h

end Slot

namespace Family

variable {F : Family M}

def Holds (F : Family M) (name : String) (r : Record M) (s : Slot M (Record M)) : Prop :=
  ∃ i d, F.locate r name = .ok (i, d, s)

/-- The second record is the first one, but that in all records that the names lead to the field
under a name is changed. -/
def ChangedAt (F : Family M) (change : Slot M (Record M) → Slot M (Record M) → Prop)
    (name : String) : List String → Record M → Record M → Prop
  | [], r, r' => ∃ i d s t, F.locate r name = .ok (i, d, s) ∧ change s t ∧ r' = r.setSlot i t
  | next :: names, r, r' => ∃ i d s t, F.locate r next = .ok (i, d, s) ∧
      s.Relates (ChangedAt F change name names) t ∧ r' = r.setSlot i t

section

variable {change : Slot M (Record M) → Slot M (Record M) → Prop} {name : String}
  {g : Record M → Record M}

theorem changedAt_mapAt {names : List String} {rs owners : List (Record M)}
    (h : F.reach names rs = .ok owners)
    (hg : ∀ r ∈ owners, F.ChangedAt change name [] r (g r)) :
    List.Forall₂ (F.ChangedAt change name names) rs (rs.map (F.mapAt g names)) := by
  replace h := reaches_of_reach h
  induction h with
  | here rs => exact List.forall₂_map_right_iff.mpr (List.forall₂_same.mpr hg)
  | none next names => exact .nil
  | @step next names r rs cs first second children below others ihbelow ihothers =>
    obtain ⟨i, d, s, hlocate, hs⟩ := children_cases children
    have hbelow := ihbelow fun x hx => hg x (List.mem_append_left second hx)
    refine .cons ⟨i, d, s, _, hlocate, Slot.relates_mapRecords hs hbelow, ?_⟩
      (ihothers fun x hx => hg x (List.mem_append_right first hx))
    simp only [mapAt, hlocate]

theorem exists_slots {owners : List (Record M)}
    (h : ∀ r ∈ owners, F.ChangedAt change name [] r (g r)) :
    ∃ olds news, List.Forall₂ (F.Holds name) owners olds ∧ List.Forall₂ change olds news ∧
      List.Forall₂ (F.Holds name) (owners.map g) news := by
  induction owners with
  | nil => exact ⟨[], [], .nil, .nil, .nil⟩
  | cons r owners ih =>
    obtain ⟨i, d, s, t, hlocate, hchange, hr⟩ := h r List.mem_cons_self
    obtain ⟨olds, news, holds, hchanges, hnews⟩ := ih fun x hx => h x (List.mem_cons_of_mem r hx)
    refine ⟨s :: olds, t :: news, .cons ⟨i, d, hlocate⟩ holds, .cons hchange hchanges,
      .cons ⟨i, d, ?_⟩ hnews⟩
    rw [hr]
    exact locate_setSlot hlocate

theorem readAll_holds {owners : List (Record M)} {slots : List (Slot M (Record M))}
    (h : List.Forall₂ (F.Holds name) owners slots) :
    F.readAll name owners = .ok (slots.map Slot.read) := by
  induction h with
  | nil => rfl
  | cons hr _ ih =>
    obtain ⟨i, d, hlocate⟩ := hr
    simp only [readAll, getField_of_locate hlocate, ih, List.map_cons]

end

variable [DecidableEq M]

/-! ### Writing one record -/

theorem checkTarget_eq_ok {t : M} {r r' : Record M} (h : F.checkTarget t r = .ok r') :
    r' = r ∧ r.model = t := by
  by_cases hr : r.model = t
  · cases (checkTarget_ok hr).symm.trans h
    exact ⟨rfl, hr⟩
  · cases (checkTarget_error hr).symm.trans h

theorem pushed_of_writeSlot {s t : Slot M (Record M)} {v : FieldValue (Record M)}
    (h : F.writeSlot .append s v = (t, none)) : Slot.Pushed v s t := by
  cases s with
  | column T x =>
    cases v with
    | column value =>
      simp only [writeSlot] at h
      split at h
      · rename_i y hscan
        cases h
        exact .column hscan
      · cases h
    | one record => cases h
    | many records => cases h
  | reference target old =>
    cases v with
    | column value => cases h
    | one record =>
      cases record with
      | none =>
        cases h
        exact .reference fun r hr => absurd hr (Option.not_mem_none r)
      | some r =>
        simp only [writeSlot] at h
        split at h
        · rename_i r' hr
          obtain ⟨rfl, hmodel⟩ := checkTarget_eq_ok hr
          cases h
          exact .reference fun c hc => Option.mem_some.mp hc ▸ hmodel
        · cases h
    | many records => cases h
  | collection target old =>
    cases v with
    | column value => cases h
    | one record =>
      cases record with
      | none =>
        cases h
        have hnone : Slot.Pushed (.one none) (.collection target old)
            (.collection target (old ++ Option.toList none)) :=
          .record fun r hr => absurd hr (Option.not_mem_none r)
        rwa [Option.toList_none, List.append_nil] at hnone
      | some r =>
        simp only [writeSlot] at h
        split at h
        · rename_i r' hr
          obtain ⟨rfl, hmodel⟩ := checkTarget_eq_ok hr
          cases h
          have hone : Slot.Pushed (.one (some r')) (.collection target old)
              (.collection target (old ++ Option.toList (some r'))) :=
            .record fun c hc => Option.mem_some.mp hc ▸ hmodel
          exact hone
        · cases h
    | many more =>
      rcases own_or_foreign target more with hown | ⟨taken, other, rest, rfl, hown, hother⟩
      · have hall := takeTargets_append (F := F) hown []
        rw [List.append_nil] at hall
        simp only [writeSlot, hall, takeTargets, List.append_nil] at h
        cases h
        exact .records hown
      · simp only [writeSlot, takeTargets_append hown, takeTargets_foreign hother] at h
        cases h

theorem changedAt_of_pushField {r : Record M} {name : String} {v : FieldValue (Record M)}
    (h : (F.pushField r name v).result = .ok ()) :
    F.ChangedAt (Slot.Pushed v) name [] r (F.pushField r name v).state := by
  simp only [pushField, writeField] at h ⊢
  cases hlocate : F.locate r name with
  | error e =>
    rw [hlocate] at h
    cases h
  | ok place =>
    obtain ⟨i, d, s⟩ := place
    rw [hlocate] at h
    simp only [writeAt] at h ⊢
    cases hwrite : F.writeSlot .append s v with
    | mk t failure =>
      rw [hwrite] at h
      cases failure with
      | some e => cases h
      | none => exact ⟨i, d, s, t, hlocate, pushed_of_writeSlot hwrite, rfl⟩

/-! ### Writing all records -/

omit [DecidableEq M] in
theorem result_of_visitList {op : Record M → Attempt (Record M) Unit} {rs : List (Record M)}
    {k n : Nat} (h : (visitList (untilFailure op) (.ok k) rs).1 = .ok n) :
    (∀ r ∈ rs, (op r).result = .ok ()) ∧ n = k + rs.length := by
  induction rs generalizing k with
  | nil =>
    cases h
    exact ⟨fun r hr => absurd hr List.not_mem_nil, rfl⟩
  | cons r rs ih =>
    cases hr : (op r).result with
    | error e =>
      simp only [visitList, untilFailure, hr, visitList_untilFailure_error] at h
      cases h
    | ok u =>
      simp only [visitList, untilFailure, hr] at h
      obtain ⟨hrest, hn⟩ := ih h
      refine ⟨List.forall_mem_cons.mpr ⟨hr, hrest⟩, ?_⟩
      rw [List.length_cons]
      omega

/-- A push that goes well counts the records whose field the path ends with. In these records it
changes that field, and it changes nothing else anywhere below the roots. The path ends with the
changed fields afterwards. -/
theorem push_changes_leaves {path : String} {v : FieldValue (Record M)}
    {roots roots' : List (Record M)} {n : Nat} (h : F.push path v roots = .done roots' n) :
    ∃ owners olds news, F.ownersAt path roots = .ok owners ∧ owners.length = n ∧
      List.Forall₂ (F.ChangedAt (Slot.Pushed v) (Text.bareName path)
        (Text.segments path).dropLast) roots roots' ∧
      List.Forall₂ (F.Holds (Text.bareName path)) owners olds ∧
      List.Forall₂ (Slot.Pushed v) olds news ∧
      F.values path roots = .ok (olds.map Slot.read) ∧
      F.values path roots' = .ok (news.map Slot.read) := by
  simp only [push] at h
  split at h
  · cases h
  · rename_i names hnames
    obtain ⟨hfilled, rfl⟩ := walkNames_eq_ok hnames
    rw [Text.getLast?_segments] at h
    split at h
    · cases h
    · rename_i owners hreach
      have howners := (ownersAt_eq hfilled roots).trans hreach
      obtain ⟨hresults, hn⟩ :=
        result_of_visitList (congrArg Attempt.result ((updateAll_eq hreach).symm.trans h))
      have hchanged : ∀ r ∈ owners, F.ChangedAt (Slot.Pushed v) (Text.bareName path) [] r
          (F.pushField r (Text.bareName path) v).state :=
        fun r hr => changedAt_of_pushField (hresults r hr)
      have hgoes : F.GoesWell (fun r => F.pushField r (Text.bareName path) v)
          (fun r => (F.pushField r (Text.bareName path) v).state)
          (Text.segments path).dropLast roots := by
        refine ⟨owners, hreach, fun r hr => ?_⟩
        rw [Attempt.done, ← hresults r hr]
      obtain ⟨k, hk⟩ := updateAll_goesWell hgoes
      cases hk.symm.trans h
      have hreach' := reach_mapAt (g := fun r => (F.pushField r (Text.bareName path) v).state) hreach
      obtain ⟨olds, news, holds, hpushed, hnews⟩ := exists_slots hchanged
      refine ⟨owners, olds, news, howners, ?_, changedAt_mapAt hreach hchanged, holds, hpushed,
        ?_, ?_⟩
      · omega
      · rw [values_filled hfilled, howners, Except.bind, readAll_holds holds]
      · rw [values_filled hfilled, ownersAt_eq hfilled, hreach', Except.bind, readAll_holds hnews]

end Family

namespace Registry

/-- The writers after the author of a book, who had no books, was given two. -/
def busyWriters : List (Record Shelf) :=
  [authorOf [bookBy none, bookBy (some (authorOf [bookBy none, bookBy none]))], authorOf []]

def pairOfBooks : FieldValue (Record Shelf) := .many [bookBy none, bookBy none]

/-- The books go to the one author that the books of the writers have. -/
theorem push_pairOfBooks :
    shelf.push "books.author.books" pairOfBooks writers = .done busyWriters 1 ∧
    ∃ (owners : List (Record Shelf)) (news : List (Slot Shelf (Record Shelf))),
      shelf.ownersAt "books.author.books" writers = .ok owners ∧ owners.length = 1 ∧
      List.Forall₂ (shelf.ChangedAt (Slot.Pushed pairOfBooks) "books" ["books", "author"]) writers
        busyWriters ∧
      shelf.values "books.author.books" busyWriters = .ok (news.map Slot.read) := by
  have hpush : shelf.push "books.author.books" pairOfBooks writers = .done busyWriters 1 := rfl
  obtain ⟨owners, olds, news, howners, hlength, hchanged, -, -, -, hvalues⟩ :=
    Family.push_changes_leaves hpush
  exact ⟨hpush, owners, news, howners, hlength, hchanged, hvalues⟩

end Registry

end RecordGraph
