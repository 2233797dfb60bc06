import RecordGraph.Proofs.Record.Conformity
import RecordGraph.Proofs.Schema.History
import RecordGraph.Proofs.Walk.Visiting

/-!
# Writes that fail

A write that fails leaves the record as it was, with one exception: of a list of records that is
added to a collection, those before the first one of another model stay there. Whether a write fails
does not depend on what the field held. So a push along a path fails at the first record that it
reaches or at none, and a push that failed changed nothing, or added records to the first
collection.
-/

namespace RecordGraph

variable {M : Type} [DecidableEq M]

namespace Family

variable {F : Family M}

/-! ### Slots -/

/-- The records before one of another model are added to the collection, and that one is what the
write fails for. -/
inductive CutShort (F : Family M) :
    Slot M (Record M) → FieldValue (Record M) → Mismatch → Slot M (Record M) → Prop where
  | mk {target : M} {records taken rest : List (Record M)} {other : Record M}
      (some_taken : taken ≠ []) (own : ∀ r ∈ taken, r.model = target)
      (foreign : other.model ≠ target) :
      CutShort F (.collection target records) (.many (taken ++ other :: rest))
        ⟨(F.model target).typeName, (F.model other.model).name⟩
        (.collection target (records ++ taken))

theorem checkTarget_error {t : M} {r : Record M} (h : r.model ≠ t) :
    F.checkTarget t r = .error ⟨(F.model t).typeName, (F.model r.model).name⟩ := by
  simp only [checkTarget, h, if_false]

theorem takeTargets_append {t : M} {taken : List (Record M)} (own : ∀ r ∈ taken, r.model = t)
    (rest : List (Record M)) : F.takeTargets t (taken ++ rest) =
      (taken ++ (F.takeTargets t rest).1, (F.takeTargets t rest).2) := by
  induction taken with
  | nil => rfl
  | cons r taken ih =>
    have hr : F.checkTarget t r = .ok r := checkTarget_ok (own r List.mem_cons_self)
    have hrest := ih fun x hx => own x (List.mem_cons_of_mem r hx)
    simp only [List.cons_append, takeTargets, hr, hrest]

theorem takeTargets_foreign {t : M} {other : Record M} (foreign : other.model ≠ t)
    (rest : List (Record M)) : F.takeTargets t (other :: rest) =
      ([], some ⟨(F.model t).typeName, (F.model other.model).name⟩) := by
  simp only [takeTargets, checkTarget_error foreign]

theorem own_or_foreign (t : M) (rs : List (Record M)) : (∀ r ∈ rs, r.model = t) ∨
    ∃ taken other rest, rs = taken ++ other :: rest ∧ (∀ r ∈ taken, r.model = t) ∧
      other.model ≠ t := by
  induction rs with
  | nil => exact Or.inl fun r hr => absurd hr List.not_mem_nil
  | cons r rs ih =>
    by_cases hr : r.model = t
    · rcases ih with hall | ⟨taken, other, rest, rfl, htaken, hother⟩
      · exact Or.inl (List.forall_mem_cons.mpr ⟨hr, hall⟩)
      · exact Or.inr ⟨r :: taken, other, rest, rfl, List.forall_mem_cons.mpr ⟨hr, htaken⟩, hother⟩
    · exact Or.inr ⟨[], r, rs, rfl, fun x hx => absurd hx List.not_mem_nil, hr⟩

theorem CutShort.writeSlot_append {s t : Slot M (Record M)} {v : FieldValue (Record M)}
    {e : Mismatch} (h : F.CutShort s v e t) : F.writeSlot .append s v = (t, some e) := by
  cases h with
  | mk _ own foreign => simp only [writeSlot, takeTargets_append own, takeTargets_foreign foreign,
      List.append_nil]

omit [DecidableEq M] in
theorem CutShort.ne {s t : Slot M (Record M)} {v : FieldValue (Record M)} {e : Mismatch}
    (h : F.CutShort s v e t) : t ≠ s := by
  cases h with
  | @mk target records taken rest other some_taken _ _ =>
    intro hsame
    have hrecords : records ++ taken = records := by injection hsame
    exact some_taken (List.append_right_eq_self.mp hrecords)

/-- A slot that a write failed on is as it was, or a list of records was cut short. -/
theorem writeSlot_failed {mode : WriteMode} {s t : Slot M (Record M)} {v : FieldValue (Record M)}
    {e : Mismatch} (h : F.writeSlot mode s v = (t, some e)) :
    t = s ∨ (mode = .append ∧ F.CutShort s v e t) := by
  cases s with
  | column T x =>
    simp only [writeSlot] at h
    split at h
    · split at h <;> cases h
      exact Or.inl rfl
    · cases h
      exact Or.inl rfl
  | reference target record =>
    simp only [writeSlot] at h
    split at h
    · split at h <;> cases h
      exact Or.inl rfl
    · cases h
    · cases h
      exact Or.inl rfl
  | collection target records =>
    cases mode with
    | replace =>
      cases v with
      | many rs =>
        simp only [writeSlot] at h
        split at h <;> cases h
        exact Or.inl rfl
      | column value =>
        cases h
        exact Or.inl rfl
      | one record =>
        cases h
        exact Or.inl rfl
    | append =>
      cases v with
      | column value =>
        cases h
        exact Or.inl rfl
      | one record =>
        cases record with
        | none => cases h
        | some r =>
          simp only [writeSlot] at h
          split at h <;> cases h
          exact Or.inl rfl
      | many rs =>
        rcases own_or_foreign target rs with hown | ⟨taken, other, rest, rfl, hown, hother⟩
        · have hall := takeTargets_append (F := F) hown []
          rw [List.append_nil] at hall
          simp only [writeSlot, hall, takeTargets] at h
          cases h
        · simp only [writeSlot, takeTargets_append hown, takeTargets_foreign hother,
            List.append_nil] at h
          cases h
          cases taken with
          | nil => exact Or.inl (by rw [List.append_nil])
          | cons r taken => exact Or.inr ⟨rfl, .mk (List.cons_ne_nil r taken) hown hother⟩

/-- Why a field of a type refuses a value. What the field held before does not matter. -/
def refusal? (F : Family M) (mode : WriteMode) (type : FieldType M) (v : FieldValue (Record M)) :
    Option Mismatch := (F.writeSlot mode type.blank v).2

theorem writeSlot_refusal {mode : WriteMode} {type : FieldType M} {s : Slot M (Record M)}
    (h : type.Fits s) (v : FieldValue (Record M)) :
    (F.writeSlot mode s v).2 = F.refusal? mode type v := by
  cases type with
  | column T =>
    cases s with
    | column U x =>
      have hT : T = U := h
      subst hT
      simp only [refusal?, FieldType.blank, writeSlot]
      split
      · split <;> rfl
      · rfl
    | reference target record => exact h.elim
    | collection target records => exact h.elim
  | reference target boxed =>
    cases s with
    | column U x => exact h.elim
    | reference u record =>
      have htarget : target = u := h
      subst htarget
      simp only [refusal?, FieldType.blank, writeSlot]
      split
      · split <;> rfl
      · rfl
      · rfl
    | collection u records => exact h.elim
  | collection target through =>
    cases s with
    | column U x => exact h.elim
    | reference u record => exact h.elim
    | collection u records =>
      have htarget : target = u := h
      subst htarget
      simp only [refusal?, FieldType.blank, writeSlot]
      split
      · split <;> rfl
      · rfl
      · split <;> rfl
      · rfl
      · rfl

/-! ### Fields -/

/-- A part of the records stays in the field, and the error names the first one of another model. -/
inductive KeepsPart (F : Family M) (name : String) (v : FieldValue (Record M)) (r : Record M) :
    Error → Record M → Prop where
  | mk {i : Nat} {d : FieldDecl M} {s t : Slot M (Record M)} {e : Mismatch}
      (place : F.locate r name = .ok (i, d, s)) (cut : F.CutShort s v e t) :
      KeepsPart F name v r (.typeMismatch (F.model r.model).name d.name e.expected e.actual)
        (r.setSlot i t)

theorem writeField_failed {mode : WriteMode} {r r' : Record M} {name : String}
    {v : FieldValue (Record M)} {e : Error} (h : F.writeField mode r name v = .failed r' e) :
    r' = r ∨ (mode = .append ∧ F.KeepsPart name v r e r') := by
  simp only [writeField] at h
  split at h
  · rename_i i d s hlocate
    cases hwrite : F.writeSlot mode s v with
    | mk t failure =>
      simp only [writeAt, hwrite] at h
      cases failure with
      | none => cases h
      | some mismatch =>
        cases h
        rcases writeSlot_failed hwrite with rfl | ⟨hmode, hcut⟩
        · exact Or.inl (setSlot_eq_self (locate_cases hlocate).2.2)
        · exact Or.inr ⟨hmode, .mk hlocate hcut⟩
  · cases h
    exact Or.inl rfl

theorem setField_failed {r r' : Record M} {name : String} {v : FieldValue (Record M)} {e : Error}
    (h : F.setField r name v = .failed r' e) : r' = r := by
  rcases writeField_failed h with hsame | ⟨hmode, -⟩
  · exact hsame
  · cases hmode

theorem pushField_failed {r r' : Record M} {name : String} {v : FieldValue (Record M)} {e : Error}
    (h : F.pushField r name v = .failed r' e) : r' = r ∨ F.KeepsPart name v r e r' :=
  (writeField_failed h).imp id And.right

theorem KeepsPart.pushField_eq {r r' : Record M} {name : String} {v : FieldValue (Record M)}
    {e : Error} (h : F.KeepsPart name v r e r') : F.pushField r name v = .failed r' e := by
  cases h with
  | mk place cut => simp only [pushField, writeField, place, writeAt, cut.writeSlot_append,
      Attempt.failed]

omit [DecidableEq M] in
theorem KeepsPart.ne {r r' : Record M} {name : String} {v : FieldValue (Record M)} {e : Error}
    (h : F.KeepsPart name v r e r') : r' ≠ r := by
  cases h with
  | @mk i d s t mismatch place cut =>
    intro hsame
    have hs := (locate_cases place).2.2
    have ht : (r.setSlot i t).slots[i]? = some t := by
      rw [Record.slots_setSlot, List.getElem?_set_self (List.getElem?_eq_some_iff.mp hs).1]
    rw [hsame, hs] at ht
    exact cut.ne (Option.some_inj.mp ht).symm

/-! ### Records of one model -/

/-- What a write into a field of a record comes to, as far as its model tells. -/
def verdict (F : Family M) (mode : WriteMode) (m : M) (name : String) (v : FieldValue (Record M)) :
    Except Error Unit :=
  match (F.model m).position? name with
  | none => .error (F.noField m name)
  | some i =>
    match (F.model m).fields[i]? with
    | none => .error (F.noField m name)
    | some d =>
      match F.refusal? mode d.type v with
      | none => .ok ()
      | some e => .error (.typeMismatch (F.model m).name d.name e.expected e.actual)

theorem writeField_result {r : Record M} (hr : F.Conforms r) (mode : WriteMode) (name : String)
    (v : FieldValue (Record M)) :
    (F.writeField mode r name v).result = F.verdict mode r.model name v := by
  simp only [writeField, locate, verdict]
  cases (F.model r.model).position? name with
  | none => rfl
  | some i =>
    cases hd : (F.model r.model).fields[i]? with
    | none => simp only [hd, Attempt.failed]
    | some d =>
      obtain ⟨s, hs⟩ := hr.exists_slot hd
      have hsame : (F.writeSlot mode s v).2 = F.refusal? mode d.type v :=
        writeSlot_refusal (hr.suits hd hs).fits v
      cases hv : F.refusal? mode d.type v with
      | none => simp only [hd, hs, writeAt, hsame, hv]
      | some e => simp only [hd, hs, writeAt, hsame, hv]

section

omit [DecidableEq M]

/-- The model that an association of a model leads to. -/
def target? (F : Family M) (m : M) (name : String) : Option M :=
  ((F.model m).position? name).bind fun i => ((F.model m).fields[i]?).bind fun d => d.type.target?

theorem Suits.target_of_records {type : FieldType M} {s : Slot M (Record M)}
    {here : List (Record M)} (h : F.Suits type s) (hs : s.records? = some here) :
    ∃ t, type.target? = some t := by
  cases type with
  | column T =>
    obtain ⟨x, rfl⟩ := h.column
    cases hs
  | reference target boxed => exact ⟨target, rfl⟩
  | collection target through => exact ⟨target, rfl⟩

theorem children_allConform {name : String} {r : Record M} {here : List (Record M)}
    (hr : F.Conforms r) (h : F.children name r = .ok here) :
    ∃ t, F.target? r.model name = some t ∧ F.AllConform t here := by
  obtain ⟨i, d, s, hlocate, hs⟩ := children_cases h
  obtain ⟨hi, hd, hslot⟩ := locate_cases hlocate
  have hsuits := hr.suits hd hslot
  obtain ⟨t, ht⟩ := hsuits.target_of_records hs
  obtain ⟨here', hs', hconform⟩ := hsuits.records ht
  cases hs.symm.trans hs'
  exact ⟨t, by simp only [target?, hi, hd, ht, Option.bind_some], hconform⟩

theorem follow_allConform {m : M} {name : String} {rs below : List (Record M)}
    (h : F.AllConform m rs) (hfollow : F.follow name rs = .ok below) :
    ∃ t, F.AllConform t below ∧ (rs ≠ [] → F.target? m name = some t) := by
  induction rs generalizing below with
  | nil =>
    cases hfollow
    exact ⟨m, fun x hx => absurd hx List.not_mem_nil, fun hne => absurd rfl hne⟩
  | cons r rs ih =>
    obtain ⟨here, there, hhere, hthere, rfl⟩ := follow_cons.mp hfollow
    obtain ⟨rfl, hr⟩ := h r List.mem_cons_self
    obtain ⟨t, ht, hconform⟩ := children_allConform hr hhere
    obtain ⟨u, hrest, hu⟩ := ih (fun x hx => h x (List.mem_cons_of_mem r hx)) hthere
    refine ⟨t, fun x hx => ?_, fun _ => ht⟩
    rcases List.mem_append.mp hx with hx | hx
    · exact hconform x hx
    · cases rs with
      | nil =>
        cases hthere
        exact absurd hx List.not_mem_nil
      | cons y ys =>
        cases ht.symm.trans (hu (List.cons_ne_nil y ys))
        exact hrest x hx

theorem reach_allConform {m : M} {names : List String} {rs owners : List (Record M)}
    (h : F.AllConform m rs) (hreach : F.reach names rs = .ok owners) :
    ∃ t, F.AllConform t owners := by
  induction names generalizing m rs with
  | nil =>
    cases hreach
    exact ⟨m, h⟩
  | cons name names ih =>
    obtain ⟨below, hfollow, hreach⟩ := reach_cons_name.mp hreach
    obtain ⟨t, hbelow, -⟩ := follow_allConform h hfollow
    exact ih hbelow hreach

end

/-! ### Pushes -/

omit [DecidableEq M] in
theorem visitList_untilFailure_error (op : Record M → Attempt (Record M) Unit) (e : Error)
    (rs : List (Record M)) : visitList (untilFailure op) (.error e) rs = (.error e, rs) := by
  induction rs with
  | nil => rfl
  | cons r rs ih => simp only [visitList, untilFailure, ih]

omit [DecidableEq M] in
theorem visitList_untilFailure_ok {op : Record M → Attempt (Record M) Unit} {rs : List (Record M)}
    (h : ∀ r ∈ rs, (op r).result = .ok ()) (n : Nat) : visitList (untilFailure op) (.ok n) rs =
      (.ok (n + rs.length), rs.map fun r => (op r).state) := by
  induction rs generalizing n with
  | nil => rfl
  | cons r rs ih =>
    have hr := h r List.mem_cons_self
    have hrest := ih (fun x hx => h x (List.mem_cons_of_mem r hx)) (n + 1)
    simp only [visitList, untilFailure, hr, hrest, List.length_cons, List.map_cons, Prod.mk.injEq,
      Except.ok.injEq, and_true]
    omega

/-- A push along a path that fails leaves all records as they were, or a part of the pushed records
stays in the first one that it reaches. -/
theorem push_failed {m : M} {path : String} {v : FieldValue (Record M)}
    {roots rs : List (Record M)} {e : Error} (hroots : F.AllConform m roots)
    (h : F.push path v roots = .failed rs e) : rs = roots ∨
      ∃ names owner owners owner', walkNames path = .ok names ∧
        F.reach names.dropLast roots = .ok (owner :: owners) ∧
        F.KeepsPart (names.getLast?.getD "") v owner e owner' ∧
        rs = F.refill names.dropLast (owner' :: owners) roots := by
  simp only [push] at h
  split at h
  · cases h
    exact Or.inl rfl
  · rename_i names hnames
    split at h
    · cases h
      exact Or.inl rfl
    · rename_i owners hreach
      obtain ⟨t, howners⟩ := reach_allConform hroots hreach
      have hverdict : ∀ r ∈ owners, (F.pushField r (names.getLast?.getD "") v).result =
          F.verdict .append t (names.getLast?.getD "") v := by
        intro r hr
        obtain ⟨rfl, hconforms⟩ := howners r hr
        exact writeField_result hconforms .append _ v
      rw [updateAll_eq hreach] at h
      cases howner : F.verdict .append t (names.getLast?.getD "") v with
      | ok u =>
        rw [visitList_untilFailure_ok fun r hr => (hverdict r hr).trans howner] at h
        cases h
      | error e' =>
        cases owners with
        | nil => cases h
        | cons owner owners =>
          have hfailed := (hverdict owner List.mem_cons_self).trans howner
          simp only [visitList, untilFailure, hfailed, visitList_untilFailure_error] at h
          obtain ⟨rfl, rfl⟩ : _ ∧ _ := by simpa [Attempt.failed] using h
          have hpush : F.pushField owner (names.getLast?.getD "") v = .failed
              (F.pushField owner (names.getLast?.getD "") v).state e' := by
            rw [Attempt.failed, ← hfailed]
          rcases pushField_failed hpush with hsame | hkeeps
          · rw [hsame, refill_reached hreach]
            exact Or.inl rfl
          · exact Or.inr ⟨names, owner, owners, _, hnames, hreach, hkeeps, rfl⟩

/-- A write that fails leaves the record as it was, and so does a push into a field, unless it keeps
a part of the records. A push along a path from records of one model changes at most the first
record that it reaches before it fails. -/
theorem failed_writes (F : Family M) :
    (∀ r r' name v e, F.setField r name v = .failed r' e → r' = r) ∧
    (∀ r r' name v e, (F.pushField r name v = .failed r' e ∧ r' ≠ r) ↔
      F.KeepsPart name v r e r') ∧
    ∀ m path v roots rs e, F.AllConform m roots → F.push path v roots = .failed rs e →
      rs = roots ∨ ∃ names owner owners owner', walkNames path = .ok names ∧
        F.reach names.dropLast roots = .ok (owner :: owners) ∧
        F.KeepsPart (names.getLast?.getD "") v owner e owner' ∧
        rs = F.refill names.dropLast (owner' :: owners) roots := by
  refine ⟨fun r r' name v e h => setField_failed h, fun r r' name v e => ⟨?_, ?_⟩,
    fun m path v roots rs e hroots h => push_failed hroots h⟩
  · rintro ⟨h, hne⟩
    exact (pushField_failed h).resolve_left hne
  · intro h
    exact ⟨h.pushField_eq, h.ne⟩

end Family

namespace Registry

/-- A book and an author in one list. -/
def mixed : FieldValue (Record Shelf) := .many [shelf.blank Shelf.book, shelf.blank Shelf.author]

/-- An author who was given the book of the list. -/
def partlyGiven : Record Shelf :=
  (shelf.blank .author).setSlot 2 (.collection Shelf.book [shelf.blank .book])

def mixedError : Error := .typeMismatch "Author" "books" "library::Book" "Author"

theorem keepsPart_mixed :
    shelf.KeepsPart "books" mixed (shelf.blank .author) mixedError partlyGiven := by
  have place : shelf.locate (shelf.blank .author) "books" =
      .ok (2, ⟨"books", "", .collection .book none⟩, .collection .book []) := rfl
  exact .mk place (@Family.CutShort.mk Shelf shelf .book [] [shelf.blank .book] []
    (shelf.blank .author) (List.cons_ne_nil _ _) (List.forall_mem_singleton.mpr rfl) (by decide))

theorem push_mixed : shelf.push "books" mixed [shelf.blank .author] =
    .failed [partlyGiven] mixedError := by
  have hnames : Family.walkNames "books" = .ok ["books"] := rfl
  simp only [Family.push, hnames]
  rfl

/-- The list cannot be written over the books of an author, who has no books then. Where it was
pushed along a path, only the first author can have changed, and kept a part. -/
theorem failed_writes_mixed :
    (shelf.setField (shelf.blank .author) "books" mixed).state = shelf.blank .author ∧
      ([partlyGiven] = [shelf.blank .author] ∨ ∃ owner owner',
        shelf.KeepsPart "books" mixed owner mixedError owner') := by
  obtain ⟨hset, -, hpush⟩ := Family.failed_writes shelf
  have hauthor : shelf.AllConform .author [shelf.blank .author] :=
    List.forall_mem_singleton.mpr ⟨rfl, Family.conforms_blank _⟩
  refine ⟨hset (shelf.blank .author) _ "books" mixed mixedError rfl, ?_⟩
  refine (hpush .author "books" mixed _ _ _ hauthor push_mixed).imp id ?_
  rintro ⟨names, owner, owners, owner', hnames, -, hkeeps, -⟩
  cases hnames
  exact ⟨owner, owner', hkeeps⟩

/-- The book stays with the author though both pushes fail. -/
theorem book_kept : shelf.Conforms (shelf.blank .author) ∧
    shelf.pushField (shelf.blank .author) "books" mixed = .failed partlyGiven mixedError ∧
    shelf.push "books" mixed [shelf.blank .author] = .failed [partlyGiven] mixedError ∧
    partlyGiven ≠ shelf.blank .author :=
  ⟨Family.conforms_blank _, keepsPart_mixed.pushField_eq, push_mixed, keepsPart_mixed.ne⟩

end Registry

end RecordGraph
