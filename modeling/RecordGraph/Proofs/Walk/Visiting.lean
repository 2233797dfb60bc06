import RecordGraph.Proofs.Walk.Reaching

/-!
# Visiting in place and in a row

A visitor goes down to the records that a list of names leads to and changes each of them where it
is. It may as well be sent along the list of these records: the state it ends with is the same, and
the records that come out, put back in order into the places they were taken from, make the changed
roots.
-/

namespace RecordGraph

variable {M R σ : Type}

/-! ### Lists and slots -/

section

variable (f : Visitor σ R)

theorem visitList_append (s : σ) (rs ts : List R) : visitList f s (rs ++ ts) =
    ((visitList f (visitList f s rs).1 ts).1,
      (visitList f s rs).2 ++ (visitList f (visitList f s rs).1 ts).2) := by
  induction rs generalizing s with
  | nil => rfl
  | cons r rs ih => simp only [List.cons_append, visitList, ih]

theorem length_visitList (s : σ) (rs : List R) : (visitList f s rs).2.length = rs.length := by
  induction rs generalizing s with
  | nil => rfl
  | cons r rs ih => simp only [visitList, List.length_cons, ih]

/-- The visitor that changes nothing. -/
def idle : Visitor Unit R := fun s r => (s, r)

theorem visitList_idle {f : Visitor Unit R} (h : ∀ r, f () r = ((), r)) (rs : List R) :
    visitList f () rs = ((), rs) := by
  induction rs with
  | nil => rfl
  | cons r rs ih => simp only [visitList, h, ih]

namespace Slot

def withRecords : Slot M R → List R → Slot M R
  | column T x, _ => column T x
  | reference target _, rs => reference target rs.head?
  | collection target _, rs => collection target rs

theorem visit_eq {slot : Slot M R} {rs : List R} (h : slot.records? = some rs) (s : σ) :
    slot.visit f s = ((visitList f s rs).1, slot.withRecords (visitList f s rs).2) := by
  cases slot with
  | column T x => cases h
  | reference target record =>
    cases h
    cases record <;> rfl
  | collection target records =>
    cases h
    rfl

end Slot

end

/-! ### Taking records out and putting them back -/

/-- The visitor that puts the records of a supply in the places of those it finds. -/
def supply : Visitor (List R) R
  | [], r => ([], r)
  | x :: xs, _ => (xs, x)

theorem visitList_supply {fresh rs : List R} (h : fresh.length = rs.length) (more : List R) :
    visitList supply (fresh ++ more) rs = (more, fresh) := by
  induction rs generalizing fresh with
  | nil =>
    cases List.length_eq_zero_iff.mp h
    rfl
  | cons r rs ih =>
    cases fresh with
    | nil => cases h
    | cons x fresh =>
      have hlength : fresh.length = rs.length := Nat.succ.inj h
      simp only [List.cons_append, visitList, supply, ih hlength]

namespace Family

variable {F : Family M}

/-- The roots with other records in the places that the names lead to. -/
def refill (F : Family M) (names : List String) (fresh roots : List (Record M)) :
    List (Record M) := (visitList (F.visitAt supply names) fresh roots).2

theorem visitAt_nil (f : Visitor σ (Record M)) : F.visitAt f [] = f := rfl

theorem visitAt_of_locate (f : Visitor σ (Record M)) (names : List String) (s : σ) {name : String}
    {r : Record M} {i : Nat} {d : FieldDecl M} {slot : Slot M (Record M)} {here : List (Record M)}
    (hlocate : F.locate r name = .ok (i, d, slot)) (hslot : slot.records? = some here) :
    F.visitAt f (name :: names) s r = ((visitList (F.visitAt f names) s here).1,
      r.setSlot i (slot.withRecords (visitList (F.visitAt f names) s here).2)) := by
  simp only [visitAt, hlocate, Slot.visit_eq (F.visitAt f names) hslot s]

/-- Going down to the records is going along them in a row and putting back what comes out, and
there is nothing left over to put back. -/
theorem visitList_visitAt (f : Visitor σ (Record M)) {names : List String}
    {roots owners : List (Record M)} (h : F.reach names roots = .ok owners) (s : σ)
    (more : List (Record M)) :
    visitList (F.visitAt f names) s roots = ((visitList f s owners).1,
      (visitList (F.visitAt supply names) ((visitList f s owners).2 ++ more) roots).2) ∧
    (visitList (F.visitAt supply names) ((visitList f s owners).2 ++ more) roots).1 = more := by
  replace h := reaches_of_reach h
  induction h generalizing s more with
  | here roots =>
    have hsupply := visitList_supply (length_visitList f s roots) more
    exact ⟨by rw [visitAt_nil, visitAt_nil, hsupply], by rw [visitAt_nil, hsupply]⟩
  | none name names => exact ⟨rfl, rfl⟩
  | @step name names r roots cs first second children below others ihbelow ihothers =>
    obtain ⟨i, d, slot, hlocate, hslot⟩ := children_cases children
    obtain ⟨hbelow, hleft⟩ := ihbelow s ((visitList f (visitList f s first).1 second).2 ++ more)
    obtain ⟨hothers, hmore⟩ := ihothers (visitList f s first).1 more
    have hroot := visitAt_of_locate f names s hlocate hslot
    have hplace := visitAt_of_locate supply names ((visitList f s (first ++ second)).2 ++ more)
      hlocate hslot
    rw [visitList_append, List.append_assoc] at hplace
    rw [visitList_append, List.append_assoc]
    simp only [visitList, hroot, hplace, hbelow, hleft, hothers, hmore, and_self]

theorem visitAt_idle (names : List String) (r : Record M) :
    F.visitAt idle names () r = ((), r) := by
  induction names generalizing r with
  | nil => rfl
  | cons name names ih =>
    simp only [visitAt]
    split
    · rfl
    · rename_i i d slot hlocate
      have hslot : slot.visit (F.visitAt idle names) () = ((), slot) := by
        cases slot with
        | column T x => rfl
        | reference target record =>
          cases record with
          | none => rfl
          | some c => simp only [Slot.visit, ih]
        | collection target records => simp only [Slot.visit, visitList_idle ih]
      rw [hslot, setSlot_eq_self (locate_cases hlocate).2.2]

theorem visitList_eq_refill (f : Visitor σ (Record M)) {names : List String}
    {roots owners : List (Record M)} (h : F.reach names roots = .ok owners) (s : σ) :
    visitList (F.visitAt f names) s roots =
      ((visitList f s owners).1, F.refill names (visitList f s owners).2 roots) := by
  have hlaw := (visitList_visitAt f h s []).1
  rwa [List.append_nil] at hlaw

theorem refill_reached {names : List String} {roots owners : List (Record M)}
    (h : F.reach names roots = .ok owners) : F.refill names owners roots = roots := by
  have hidle := visitList_eq_refill idle h ()
  rw [visitList_idle (f := idle) fun r => rfl, visitList_idle (visitAt_idle names)] at hidle
  exact (congrArg Prod.snd hidle).symm

/-- An operation is done on the records that the names lead to, one after the other. -/
theorem updateAll_eq {op : Record M → Attempt (Record M) Unit} {names : List String}
    {roots owners : List (Record M)} (h : F.reach names roots = .ok owners) :
    F.updateAll op names roots =
      ⟨F.refill names (visitList (untilFailure op) (.ok 0) owners).2 roots,
        (visitList (untilFailure op) (.ok 0) owners).1⟩ := by
  simp only [updateAll, visitList_eq_refill (untilFailure op) h]

end Family

end RecordGraph
