import Mathlib.Data.List.Induction
import RecordGraph.Context

/-!
# Where contexts come from

A log of steps tells how every context was made: by a call of its own, or from another context, with
a deadline or without one. `Lineage` follows a context back to the call that it comes from, and
collects the deadlines on the way. What happens later changes no lineage.
-/

namespace RecordGraph

/-- Steps with the times at which they were made, in order. -/
abbrev ContextLog := List (Time × ContextStep)

/-- How a context was made. -/
inductive Birth where
  | background
  /-- From the context with a number, which may have been given a deadline. -/
  | derived (source : Nat) (deadline : Option Time)
  deriving DecidableEq, Repr

namespace ContextStep

/-- A context can be derived from one of those that are there. -/
def derivedOf (count source : Nat) (deadline : Option Time) : Option Birth :=
  if source < count then some (.derived source deadline) else none

/-- How the context is made that the step makes, if it makes one. -/
def birth? (now : Time) (count : Nat) : ContextStep → Option Birth
  | .background => some .background
  | .clone i => derivedOf count i none
  | .withDeadline i t => derivedOf count i (some t)
  | .withTimeout i duration => derivedOf count i (some (now + duration))
  | .cancel _ => none

end ContextStep

namespace ContextLog

/-- How the contexts were made, by their numbers. The first one is there from the start. -/
def births (log : ContextLog) : List Birth :=
  log.foldl (fun bs e => bs ++ (e.2.birth? e.1 bs.length).toList) [.background]

/-- The context `k` comes from the call that made the context `root`, and the deadlines were applied
one after the other on the way. -/
inductive Lineage (bs : List Birth) : Nat → Nat → List Time → Prop where
  | background {root : Nat} (h : bs[root]? = some .background) : Lineage bs root root []
  | derived {k source root : Nat} {deadline : Option Time} {ts : List Time}
      (h : bs[k]? = some (.derived source deadline)) (hsource : Lineage bs source root ts) :
      Lineage bs k root (ts ++ deadline.toList)

/-- The two contexts come from one call. -/
def SameOrigin (log : ContextLog) (i j : Nat) : Prop :=
  ∃ root ts us, Lineage (births log) i root ts ∧ Lineage (births log) j root us

/-- The context was cancelled at some point when it was there. -/
def Cancels (log : ContextLog) (j : Nat) : Prop :=
  ∃ before now rest, log = before ++ (now, .cancel j) :: rest ∧ j < (births before).length

/-- Some context from the same call was cancelled at some point. -/
def FamilyCancelled (log : ContextLog) (k : Nat) : Prop :=
  ∃ j, Cancels log j ∧ SameOrigin log j k

/-! ### Logs -/

theorem births_concat (log : ContextLog) (now : Time) (s : ContextStep) :
    births (log ++ [(now, s)]) = births log ++ (s.birth? now (births log).length).toList := by
  unfold births
  rw [List.foldl_append, List.foldl_cons, List.foldl_nil]

theorem births_concat_none {log : ContextLog} {now : Time} {s : ContextStep}
    (h : s.birth? now (births log).length = none) : births (log ++ [(now, s)]) = births log := by
  rw [births_concat, h]
  exact List.append_nil _

theorem births_prefix_append (log more : ContextLog) : births log <+: births (log ++ more) := by
  induction more using List.reverseRecOn with
  | nil => simp
  | append_singleton more e ih =>
    obtain ⟨now, s⟩ := e
    rw [← List.append_assoc, births_concat]
    exact ih.trans (List.prefix_append _ _)

theorem Cancels.lt {log : ContextLog} {j : Nat} (h : Cancels log j) : j < (births log).length := by
  obtain ⟨before, now, rest, rfl, hj⟩ := h
  exact Nat.lt_of_lt_of_le hj (births_prefix_append before _).length_le

theorem Cancels.append {log : ContextLog} {j : Nat} (h : Cancels log j) (more : ContextLog) :
    Cancels (log ++ more) j := by
  obtain ⟨before, now, rest, rfl, hj⟩ := h
  exact ⟨before, now, rest ++ more, by simp, hj⟩

theorem cancels_concat_iff {log : ContextLog} {now : Time} {s : ContextStep} {j : Nat} :
    Cancels (log ++ [(now, s)]) j ↔ Cancels log j ∨ (s = .cancel j ∧ j < (births log).length) := by
  constructor
  · rintro ⟨before, t, rest, hlog, hj⟩
    rcases List.eq_nil_or_concat rest with rfl | ⟨rest, e, rfl⟩
    · obtain ⟨rfl, hlast⟩ := List.append_inj' hlog rfl
      cases hlast
      exact Or.inr ⟨rfl, hj⟩
    · left
      have hsplit : log ++ [(now, s)] = (before ++ (t, .cancel j) :: rest) ++ [e] := by
        rw [hlog]
        simp
      obtain ⟨rfl, -⟩ := List.append_inj' hsplit rfl
      exact ⟨before, t, rest, rfl, hj⟩
  · rintro (h | ⟨rfl, hj⟩)
    · exact h.append _
    · exact ⟨log, now, [], rfl, hj⟩

/-! ### Lineages -/

namespace Lineage

variable {bs : List Birth} {k root : Nat} {ts : List Time}

theorem root_eq (h : Lineage bs k root ts) : bs[root]? = some .background := by
  induction h with
  | background h => exact h
  | derived _ _ ih => exact ih

theorem of_prefix {more : List Birth} (hmore : bs <+: more) (h : Lineage bs k root ts) :
    Lineage more k root ts := by
  obtain ⟨tail, rfl⟩ := hmore
  have hold : ∀ {i : Nat} {b : Birth}, bs[i]? = some b → (bs ++ tail)[i]? = some b := by
    intro i b hi
    rw [List.getElem?_append_left (List.getElem?_eq_some_iff.mp hi).1, hi]
  induction h with
  | background h => exact .background (hold h)
  | derived h _ ih => exact .derived (hold h) ih

theorem unique {other : Nat} {us : List Time} (h : Lineage bs k root ts)
    (h' : Lineage bs k other us) : root = other ∧ ts = us := by
  induction h generalizing us with
  | background h =>
    cases h' with
    | background => exact ⟨rfl, rfl⟩
    | derived h' => cases h.symm.trans h'
  | derived h _ ih =>
    cases h' with
    | background h' => cases h.symm.trans h'
    | derived h' hsource =>
      cases h.symm.trans h'
      obtain ⟨rfl, rfl⟩ := ih hsource
      exact ⟨rfl, rfl⟩

end Lineage

theorem SameOrigin.append {log : ContextLog} {i j : Nat} (h : SameOrigin log i j)
    (more : ContextLog) : SameOrigin (log ++ more) i j := by
  obtain ⟨root, ts, us, hi, hj⟩ := h
  have hmore := births_prefix_append log more
  exact ⟨root, ts, us, hi.of_prefix hmore, hj.of_prefix hmore⟩

end ContextLog

/-! ### Deadlines -/

namespace Context

/-- The deadline after another one was applied, if one was. -/
def tightened (deadline : Option Time) : Option Time → Option Time
  | none => deadline
  | some t => some (earlier deadline t)

theorem min?_append_toList (ts : List Time) (deadline : Option Time) :
    (ts ++ deadline.toList).min? = tightened ts.min? deadline := by
  cases deadline with
  | none => simp [tightened]
  | some t =>
    show (ts ++ [t]).min? = some (earlier ts.min? t)
    rw [List.min?_eq_some_iff]
    cases hmin : ts.min? with
    | none =>
      rw [List.min?_eq_none_iff] at hmin
      subst hmin
      simp [earlier]
    | some d =>
      obtain ⟨hd, hleast⟩ := List.min?_eq_some_iff.mp hmin
      simp only [earlier]
      constructor
      · split
        · exact List.mem_append_left _ hd
        · simp
      · intro b hb
        rcases List.mem_append.mp hb with hb | hb
        · have hle := hleast b hb
          split
          · exact hle
          · rename_i hlate
            exact Int.le_trans (Int.not_lt.mp hlate) hle
        · obtain rfl := List.mem_singleton.mp hb
          split
          · rename_i hearly
            exact Int.le_of_lt hearly
          · exact Int.le_refl b

end Context

end RecordGraph
