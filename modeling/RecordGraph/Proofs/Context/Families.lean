import RecordGraph.Proofs.Context.Lineage

/-!
# Families of contexts

All that a context says can be read off the log that it was made in: it shares its flag with the
contexts from the same call, it is cancelled once one of these was, and its deadline is the earliest
one that was applied on its way from the call. One step is told by `Moves`, and what all steps of a
log have made by `Tracks`.
-/

namespace RecordGraph

/-! ### Contexts that are done -/

namespace Context

variable {c : Context} {now : Time}

/-- The context was cancelled, or its deadline has come. -/
def Done (c : Context) (now : Time) : Prop :=
  c.cancelled = true ∨ ∃ t, c.deadline = some t ∧ t ≤ now

/-- Why a context that is done lets no work go on. -/
def reason (c : Context) : ExecError := if c.cancelled then .cancelled else .deadlineExceeded

theorem Done.error?_eq (h : c.Done now) : c.error? now = some c.reason := by
  cases hcancelled : c.cancelled with
  | true => simp only [error?, reason, hcancelled, if_true]
  | false =>
    rcases h with h | ⟨t, ht, hpast⟩
    · cases hcancelled.symm.trans h
    · simp only [error?, reason, hcancelled, ht, hpast, Bool.false_eq_true, if_false, if_true]

theorem isCancelled_reason (c : Context) : c.reason.isCancelled = true := by
  simp only [reason]
  split <;> rfl

theorem error?_eq_none_iff : c.error? now = none ↔ ¬ c.Done now := by
  constructor
  · intro hnone hdone
    cases hnone.symm.trans hdone.error?_eq
  · intro hlive
    have hcancelled : c.cancelled = false := by
      rw [← Bool.not_eq_true]
      exact fun h => hlive (Or.inl h)
    simp only [error?, hcancelled, Bool.false_eq_true, if_false]
    split
    · rename_i t ht
      rw [if_neg fun hpast => hlive (Or.inr ⟨t, ht, hpast⟩)]
    · rfl

theorem error?_eq_cancelled_iff : c.error? now = some .cancelled ↔ c.cancelled = true := by
  constructor
  · intro h
    simp only [error?] at h
    split at h
    · assumption
    · split at h
      · split at h <;> cases h
      · cases h
  · intro hcancelled
    simp only [error?, hcancelled, if_true]

theorem error?_eq_deadlineExceeded_iff : c.error? now = some .deadlineExceeded ↔
    c.cancelled = false ∧ ∃ t, c.deadline = some t ∧ t ≤ now := by
  constructor
  · intro h
    have hlive : c.cancelled = false := by
      rw [← Bool.not_eq_true, ← error?_eq_cancelled_iff, h]
      exact fun hc => nomatch hc
    have hdone : c.Done now := by
      by_contra hnot
      cases h.symm.trans (error?_eq_none_iff.mpr hnot)
    refine ⟨hlive, hdone.resolve_left fun hc => ?_⟩
    cases hlive.symm.trans hc
  · rintro ⟨hlive, hdue⟩
    rw [Done.error?_eq (Or.inr hdue), reason, if_neg (by simp [hlive])]

theorem Done.mono {c' : Context} {later : Time} (h : c.Done now)
    (hcancelled : c.cancelled = true → c'.cancelled = true) (hdeadline : c'.deadline = c.deadline)
    (hlater : now ≤ later) : c'.Done later := by
  rcases h with h | ⟨t, ht, hpast⟩
  · exact Or.inl (hcancelled h)
  · exact Or.inr ⟨t, hdeadline.trans ht, Int.le_trans hpast hlater⟩

end Context

namespace ContextPool

open ContextLog

def after (log : ContextLog) : ContextPool := log.foldl (fun p e => p.step e.1 e.2) initial

theorem after_concat (log : ContextLog) (now : Time) (s : ContextStep) :
    after (log ++ [(now, s)]) = (after log).step now s := by
  unfold after
  rw [List.foldl_append, List.foldl_cons, List.foldl_nil]

/-! ### One step -/

/-- What a step does to the contexts, and how the context was made that it made. -/
inductive Moves (p : ContextPool) : ContextStep → Option Birth → ContextPool → Prop where
  | background : Moves p .background (some .background)
      ⟨p.flags ++ [false], p.members ++ [⟨p.flags.length, none⟩]⟩
  | derived {s : ContextStep} {source : Nat} {m : Member} {deadline : Option Time}
      (hs : ∀ i, s ≠ .cancel i) (hm : p.members[source]? = some m) :
      Moves p s (some (.derived source deadline))
        ⟨p.flags, p.members ++ [⟨m.family, Context.tightened m.deadline deadline⟩]⟩
  | cancel {i : Nat} {m : Member} (hm : p.members[i]? = some m) :
      Moves p (.cancel i) none ⟨p.flags.set m.family true, p.members⟩
  | idle {s : ContextStep} (hs : ∀ i, s = .cancel i → p.members.length ≤ i) : Moves p s none p

theorem moves_derive {p : ContextPool} {s : ContextStep} (hs : ∀ i, s ≠ .cancel i) (source : Nat)
    {deadline : Option Time} {f : Option Time → Option Time}
    (hf : ∀ d, f d = Context.tightened d deadline) :
    Moves p s (ContextStep.derivedOf p.members.length source deadline) (p.derive source f) := by
  unfold derive ContextStep.derivedOf
  cases hm : p.members[source]? with
  | none =>
    have hlarge : ¬ source < p.members.length := by
      rw [List.getElem?_eq_none_iff] at hm
      omega
    rw [if_neg hlarge]
    exact .idle fun i hi => absurd hi (hs i)
  | some m =>
    have hsmall : source < p.members.length := (List.getElem?_eq_some_iff.mp hm).1
    rw [if_pos hsmall]
    simp only [hf]
    exact .derived hs hm

theorem moves_step (now : Time) (p : ContextPool) (s : ContextStep) :
    Moves p s (s.birth? now p.members.length) (p.step now s) := by
  cases s with
  | background => exact .background
  | clone i => exact moves_derive (by simp) i fun d => rfl
  | withDeadline i t => exact moves_derive (by simp) i fun d => rfl
  | withTimeout i duration => exact moves_derive (by simp) i fun d => rfl
  | cancel i =>
    simp only [step]
    cases hm : p.members[i]? with
    | none =>
      refine .idle fun j hj => ?_
      cases hj
      exact List.getElem?_eq_none_iff.mp hm
    | some m => exact .cancel hm

/-! ### All steps -/

/-- The contexts are those that the log made. -/
structure Tracks (log : ContextLog) (p : ContextPool) : Prop where
  length_eq : p.members.length = (births log).length
  /-- Every family has a flag. -/
  bounded : ∀ m ∈ p.members, m.family < p.flags.length
  /-- A context has the flag of the context that its call made. -/
  lineage : ∀ (k : Nat) (m : Member), p.members[k]? = some m → ∃ root ts founder,
    Lineage (births log) k root ts ∧ m.deadline = ts.min? ∧
      p.members[root]? = some founder ∧ founder.family = m.family
  /-- Every call makes a flag of its own. -/
  apart : ∀ (i j : Nat) (m n : Member), (births log)[i]? = some .background →
    (births log)[j]? = some .background → p.members[i]? = some m → p.members[j]? = some n →
    m.family = n.family → i = j
  /-- A flag is set once a context with the flag was cancelled. -/
  flags : ∀ f, p.flags[f]? = some true ↔
    ∃ (j : Nat) (m : Member), Cancels log j ∧ p.members[j]? = some m ∧ m.family = f

theorem getElem?_concat_iff {α : Type} {l : List α} {a x : α} {i : Nat} :
    (l ++ [a])[i]? = some x ↔ l[i]? = some x ∨ (i = l.length ∧ x = a) := by
  grind

theorem tracks_initial : Tracks [] initial where
  length_eq := rfl
  bounded m hm := by
    obtain rfl := List.mem_singleton.mp hm
    exact Nat.zero_lt_one
  lineage k m hm := by
    obtain ⟨hk, rfl⟩ : k = 0 ∧ m = ⟨0, none⟩ := by
      simpa using getElem?_concat_iff (l := []).mp hm
    subst hk
    exact ⟨0, [], ⟨0, none⟩, .background rfl, rfl, rfl, rfl⟩
  apart i j m n _ _ hm hn _ := by
    have hi := (List.getElem?_eq_some_iff.mp hm).1
    have hj := (List.getElem?_eq_some_iff.mp hn).1
    simp only [initial, List.length_singleton] at hi hj
    omega
  flags f := by
    constructor
    · intro hf
      have hset := getElem?_concat_iff (l := []).mp hf
      simp at hset
    · rintro ⟨j, m, ⟨before, now, rest, hlog, -⟩, -⟩
      simp at hlog

theorem Tracks.grow {log : ContextLog} {p : ContextPool} (h : Tracks log p) {now : Time}
    {s : ContextStep} {b : Birth} {m : Member} {flags : List Bool}
    (hs : ∀ i, s ≠ .cancel i) (hb : s.birth? now (births log).length = some b)
    (hflags : ∀ f : Nat, flags[f]? = some true ↔ p.flags[f]? = some true)
    (hlength : p.flags.length ≤ flags.length) (hm : m.family < flags.length)
    (hlineage : ∃ root ts founder, Lineage (births log ++ [b]) p.members.length root ts ∧
      m.deadline = ts.min? ∧ (p.members ++ [m])[root]? = some founder ∧
      founder.family = m.family)
    (hnew : b = .background → ∀ n ∈ p.members, n.family ≠ m.family) :
    Tracks (log ++ [(now, s)]) ⟨flags, p.members ++ [m]⟩ := by
  have hbirths : births (log ++ [(now, s)]) = births log ++ [b] := by
    rw [births_concat, hb]
    rfl
  have hcancels : ∀ j, Cancels (log ++ [(now, s)]) j ↔ Cancels log j := by
    intro j
    rw [cancels_concat_iff]
    exact or_iff_left fun hj => hs j hj.1
  have hold : ∀ {i : Nat} {n : Member}, p.members[i]? = some n →
      (p.members ++ [m])[i]? = some n := fun hn => getElem?_concat_iff.mpr (Or.inl hn)
  constructor
  case length_eq =>
    rw [hbirths, List.length_append, List.length_append, h.length_eq]
    rfl
  case bounded =>
    intro n hn
    rcases List.mem_append.mp hn with hn | hn
    · exact Nat.lt_of_lt_of_le (h.bounded n hn) hlength
    · obtain rfl := List.mem_singleton.mp hn
      exact hm
  case lineage =>
    intro k n hn
    rw [hbirths]
    rcases getElem?_concat_iff.mp hn with hn | ⟨rfl, rfl⟩
    · obtain ⟨root, ts, founder, hline, hdeadline, hfounder, hfamily⟩ := h.lineage k n hn
      exact ⟨root, ts, founder, hline.of_prefix (List.prefix_append _ _), hdeadline,
        hold hfounder, hfamily⟩
    · exact hlineage
  case apart =>
    intro i j n n' hi hj hn hn' hfamily
    rw [hbirths] at hi hj
    rcases getElem?_concat_iff.mp hn with hin | ⟨hi', hnm⟩ <;>
      rcases getElem?_concat_iff.mp hn' with hjn | ⟨hj', hnm'⟩
    · have hlt := (List.getElem?_eq_some_iff.mp hin).1
      have hlt' := (List.getElem?_eq_some_iff.mp hjn).1
      rw [h.length_eq] at hlt hlt'
      rw [List.getElem?_append_left hlt] at hi
      rw [List.getElem?_append_left hlt'] at hj
      exact h.apart i j n n' hi hj hin hjn hfamily
    · rw [hj', h.length_eq, List.getElem?_concat_length] at hj
      rw [hnm'] at hfamily
      exact absurd hfamily (hnew (Option.some_inj.mp hj) n (List.mem_of_getElem? hin))
    · rw [hi', h.length_eq, List.getElem?_concat_length] at hi
      rw [hnm] at hfamily
      exact absurd hfamily.symm (hnew (Option.some_inj.mp hi) n' (List.mem_of_getElem? hjn))
    · rw [hi', hj']
  case flags =>
    intro f
    rw [hflags, h.flags]
    simp only [hcancels]
    constructor
    · rintro ⟨j, n, hj, hn, hf⟩
      exact ⟨j, n, hj, hold hn, hf⟩
    · rintro ⟨j, n, hj, hn, hf⟩
      have hlt := hj.lt
      rw [← h.length_eq] at hlt
      rw [List.getElem?_append_left hlt] at hn
      exact ⟨j, n, hj, hn, hf⟩

theorem Tracks.stay {log : ContextLog} {p : ContextPool} (h : Tracks log p) {now : Time}
    {s : ContextStep} (hb : s.birth? now (births log).length = none) {flags : List Bool}
    (hlength : flags.length = p.flags.length)
    (hflags : ∀ f : Nat, flags[f]? = some true ↔ ∃ (j : Nat) (m : Member),
      Cancels (log ++ [(now, s)]) j ∧ p.members[j]? = some m ∧ m.family = f) :
    Tracks (log ++ [(now, s)]) ⟨flags, p.members⟩ := by
  have hbirths := births_concat_none hb
  refine ⟨?_, fun n hn => ?_, ?_, ?_, hflags⟩
  · rw [hbirths]
    exact h.length_eq
  · rw [hlength]
    exact h.bounded n hn
  · rw [hbirths]
    exact h.lineage
  · rw [hbirths]
    exact h.apart

theorem Tracks.step {log : ContextLog} {p : ContextPool} (h : Tracks log p) (now : Time)
    (s : ContextStep) : Tracks (log ++ [(now, s)]) (p.step now s) := by
  have hmoves := moves_step now p s
  rw [h.length_eq] at hmoves
  generalize hb : s.birth? now (births log).length = b at hmoves
  generalize p.step now s = q at hmoves
  cases hmoves with
  | background =>
    refine h.grow (fun i hi => nomatch hi) hb (fun f => ?_) (by simp) (by simp) ?_ ?_
    · rw [getElem?_concat_iff]
      simp
    · refine ⟨p.members.length, [], _, .background ?_, rfl, List.getElem?_concat_length, rfl⟩
      rw [h.length_eq, List.getElem?_concat_length]
    · intro _ n hn
      exact Nat.ne_of_lt (h.bounded n hn)
  | @derived _ source m deadline hs hm =>
    obtain ⟨root, ts, founder, hline, hdeadline, hfounder, hfamily⟩ := h.lineage source m hm
    refine h.grow hs hb (fun f => Iff.rfl) (Nat.le_refl _)
      (h.bounded m (List.mem_of_getElem? hm)) ?_ (fun hbirth => nomatch hbirth)
    refine ⟨root, ts ++ deadline.toList, founder,
      .derived ?_ (hline.of_prefix (List.prefix_append _ _)), ?_,
      getElem?_concat_iff.mpr (Or.inl hfounder), hfamily⟩
    · rw [h.length_eq, List.getElem?_concat_length]
    · rw [Context.min?_append_toList, ← hdeadline]
  | @cancel i m hm =>
    have hi : i < (births log).length := by
      rw [← h.length_eq]
      exact (List.getElem?_eq_some_iff.mp hm).1
    have hfamily := h.bounded m (List.mem_of_getElem? hm)
    refine h.stay hb List.length_set fun f => ?_
    simp only [cancels_concat_iff, List.getElem?_set, ContextStep.cancel.injEq]
    constructor
    · intro hf
      split at hf
      · rename_i hmf
        exact ⟨i, m, Or.inr ⟨rfl, hi⟩, hm, hmf⟩
      · obtain ⟨j, n, hj, hn, hnf⟩ := (h.flags f).mp hf
        exact ⟨j, n, Or.inl hj, hn, hnf⟩
    · rintro ⟨j, n, hj | ⟨rfl, -⟩, hn, hnf⟩
      · have hf := (h.flags f).mpr ⟨j, n, hj, hn, hnf⟩
        split
        · rfl
        · exact hf
      · cases hm.symm.trans hn
        rw [if_pos hnf, if_pos hfamily]
  | idle hs =>
    have hcancels : ∀ j, Cancels (log ++ [(now, s)]) j ↔ Cancels log j := by
      intro j
      rw [cancels_concat_iff]
      refine or_iff_left fun ⟨hj, hlt⟩ => ?_
      have hle := hs j hj
      rw [h.length_eq] at hle
      omega
    refine h.stay hb rfl fun f => ?_
    simp only [hcancels]
    exact h.flags f

theorem tracks_after (log : ContextLog) : Tracks log (after log) := by
  induction log using List.reverseRecOn with
  | nil => exact tracks_initial
  | append_singleton log e ih =>
    obtain ⟨now, s⟩ := e
    rw [after_concat]
    exact ih.step now s

/-! ### What a context says -/

def context? (log : ContextLog) (k : Nat) : Option Context := (after log).views[k]?

theorem context?_eq_some_iff {log : ContextLog} {k : Nat} {c : Context} :
    context? log k = some c ↔
      ∃ m, (after log).members[k]? = some m ∧ (after log).view m = c := by
  unfold context? views
  rw [List.getElem?_map, Option.map_eq_some_iff]

theorem exists_context?_iff {log : ContextLog} {k : Nat} :
    (∃ c, context? log k = some c) ↔ k < (births log).length := by
  rw [← Option.ne_none_iff_exists', ne_eq, context?, List.getElem?_eq_none_iff, Nat.not_le, views,
    List.length_map, (tracks_after log).length_eq]

theorem family_eq_iff {log : ContextLog} {i j : Nat} {m n : Member}
    (hm : (after log).members[i]? = some m) (hn : (after log).members[j]? = some n) :
    m.family = n.family ↔ SameOrigin log i j := by
  have h := tracks_after log
  obtain ⟨root, ts, founder, hi, -, hfounder, hfamily⟩ := h.lineage i m hm
  obtain ⟨root', us, founder', hj, -, hfounder', hfamily'⟩ := h.lineage j n hn
  constructor
  · intro hsame
    have hshared : founder.family = founder'.family := by rw [hfamily, hfamily', hsame]
    obtain rfl := h.apart _ _ _ _ hi.root_eq hj.root_eq hfounder hfounder' hshared
    exact ⟨root, ts, us, hi, hj⟩
  · rintro ⟨common, ts', us', hi', hj'⟩
    obtain ⟨rfl, -⟩ := hi.unique hi'
    obtain ⟨rfl, -⟩ := hj.unique hj'
    cases hfounder.symm.trans hfounder'
    rw [← hfamily, ← hfamily']

theorem cancelled_iff {log : ContextLog} {k : Nat} {c : Context} (hc : context? log k = some c) :
    c.cancelled = true ↔ FamilyCancelled log k := by
  have h := tracks_after log
  obtain ⟨m, hm, rfl⟩ := context?_eq_some_iff.mp hc
  have hflag : ((after log).view m).cancelled = true ↔ (after log).flags[m.family]? = some true := by
    simp only [view]
    cases (after log).flags[m.family]? with
    | none => simp
    | some flag => simp
  rw [hflag, h.flags]
  constructor
  · rintro ⟨j, n, hj, hn, hfamily⟩
    exact ⟨j, hj, (family_eq_iff hn hm).mp hfamily⟩
  · rintro ⟨j, hj, hsame⟩
    have hlt := hj.lt
    rw [← h.length_eq] at hlt
    have hn := List.getElem?_eq_getElem hlt
    exact ⟨j, _, hj, hn, (family_eq_iff hn hm).mpr hsame⟩

theorem deadline_eq_min? {log : ContextLog} {k : Nat} {c : Context}
    (hc : context? log k = some c) :
    ∃ root ts, Lineage (births log) k root ts ∧ c.deadline = ts.min? := by
  obtain ⟨m, hm, rfl⟩ := context?_eq_some_iff.mp hc
  obtain ⟨root, ts, -, hline, hdeadline, -⟩ := (tracks_after log).lineage k m hm
  exact ⟨root, ts, hline, hdeadline⟩

theorem deadline_le_source {log : ContextLog} {k source : Nat} {deadline : Option Time}
    {c c' : Context} (hbirth : (births log)[k]? = some (.derived source deadline))
    (hc : context? log k = some c) (hc' : context? log source = some c') {t : Time}
    (ht : c'.deadline = some t) : ∃ u, c.deadline = some u ∧ u ≤ t := by
  obtain ⟨root, ts, hline, hdeadline⟩ := deadline_eq_min? hc
  obtain ⟨root', us, hsource, hdeadline'⟩ := deadline_eq_min? hc'
  obtain ⟨rfl, rfl⟩ := hline.unique (.derived hbirth hsource)
  rw [hdeadline'] at ht
  obtain ⟨hmem, -⟩ := List.min?_eq_some_iff.mp ht
  cases hmin : (us ++ deadline.toList).min? with
  | none =>
    rw [List.min?_eq_none_iff] at hmin
    rw [(List.append_eq_nil_iff.mp hmin).1] at hmem
    cases hmem
  | some u =>
    have hleast := (List.min?_eq_some_iff.mp hmin).2
    exact ⟨u, hdeadline.trans hmin, hleast t (List.mem_append_left _ hmem)⟩

/-! ### What happens later -/

theorem context?_append {log : ContextLog} {k : Nat} {c : Context} (hc : context? log k = some c)
    (more : ContextLog) : ∃ c', context? (log ++ more) k = some c' ∧ c'.deadline = c.deadline ∧
      (c.cancelled = true → c'.cancelled = true) := by
  have hk := exists_context?_iff.mp ⟨c, hc⟩
  have hmore := births_prefix_append log more
  obtain ⟨c', hc'⟩ := exists_context?_iff.mpr (Nat.lt_of_lt_of_le hk hmore.length_le)
  obtain ⟨root, ts, hline, hdeadline⟩ := deadline_eq_min? hc
  obtain ⟨root', us, hline', hdeadline'⟩ := deadline_eq_min? hc'
  obtain ⟨-, rfl⟩ := hline'.unique (hline.of_prefix hmore)
  refine ⟨c', hc', hdeadline'.trans hdeadline.symm, fun hcancelled => ?_⟩
  obtain ⟨j, hj, hsame⟩ := (cancelled_iff hc).mp hcancelled
  exact (cancelled_iff hc').mpr ⟨j, hj.append more, hsame.append more⟩

theorem context?_cancel {log : ContextLog} {i k : Nat} {c : Context}
    (hi : i < (births log).length) (hc : context? log k = some c) (now : Time) :
    ∃ c', context? (log ++ [(now, .cancel i)]) k = some c' ∧ c'.deadline = c.deadline ∧
      (c'.cancelled = true ↔ c.cancelled = true ∨ SameOrigin log i k) := by
  obtain ⟨c', hc', hdeadline, -⟩ := context?_append hc [(now, .cancel i)]
  refine ⟨c', hc', hdeadline, ?_⟩
  have hbirths : births (log ++ [(now, .cancel i)]) = births log := births_concat_none rfl
  rw [cancelled_iff hc', cancelled_iff hc]
  unfold FamilyCancelled SameOrigin
  simp only [cancels_concat_iff, hbirths, ContextStep.cancel.injEq]
  constructor
  · rintro ⟨j, hj | ⟨rfl, -⟩, hsame⟩
    · exact Or.inl ⟨j, hj, hsame⟩
    · exact Or.inr hsame
  · rintro (⟨j, hj, hsame⟩ | hsame)
    · exact ⟨j, Or.inl hj, hsame⟩
    · exact ⟨i, Or.inr ⟨rfl, hi⟩, hsame⟩

/-! ### Families -/

/-- What the log tells of the context with a number. -/
structure Tells (log : ContextLog) (k : Nat) (c : Context) : Prop where
  /-- It is cancelled if a context from the same call was, whichever of the two was made first. -/
  cancelled_iff : c.cancelled = true ↔ FamilyCancelled log k
  /-- Its deadline is the earliest one that was applied on its way from the call. -/
  deadline_eq : ∃ root ts, Lineage (births log) k root ts ∧ c.deadline = ts.min?
  not_later : ∀ source deadline c' t, (births log)[k]? = some (.derived source deadline) →
    context? log source = some c' → c'.deadline = some t → ∃ u, c.deadline = some u ∧ u ≤ t

/-- Contexts share their flag just with those from the same call. Cancelling one cancels these, for
good, and changes nothing else. A deadline only is the earliest one on the way from the call, and why
a context lets no work go on is told by its flag and then by its deadline, so that it never lets work
go on again. -/
theorem contexts_form_families (log : ContextLog) :
    (∀ k, (∃ c, context? log k = some c) ↔ k < (births log).length) ∧
    (∀ (i j : Nat) (m n : Member), (after log).members[i]? = some m →
      (after log).members[j]? = some n → (m.family = n.family ↔ SameOrigin log i j)) ∧
    ∀ k c, context? log k = some c → Tells log k c ∧
      (∀ now, (c.error? now = some .cancelled ↔ c.cancelled = true) ∧
        (c.error? now = some .deadlineExceeded ↔
          c.cancelled = false ∧ ∃ t, c.deadline = some t ∧ t ≤ now) ∧
        (c.error? now = none ↔ ¬ c.Done now)) ∧
      (∀ now i, i < (births log).length →
        ∃ c', context? (log ++ [(now, .cancel i)]) k = some c' ∧ c'.deadline = c.deadline ∧
          (c'.cancelled = true ↔ c.cancelled = true ∨ SameOrigin log i k)) ∧
      ∀ more, ∃ c', context? (log ++ more) k = some c' ∧ c'.deadline = c.deadline ∧
        (c.cancelled = true → c'.cancelled = true) ∧
        ∀ now later, now ≤ later → c.error? now ≠ none → c'.error? later ≠ none := by
  refine ⟨fun k => exists_context?_iff, fun i j m n hm hn => family_eq_iff hm hn,
    fun k c hc => ⟨⟨cancelled_iff hc, deadline_eq_min? hc, ?_⟩, fun now => ?_,
      fun now i hi => context?_cancel hi hc now, fun more => ?_⟩⟩
  · intro source deadline c' t hbirth hc' ht
    exact deadline_le_source hbirth hc hc' ht
  · exact ⟨Context.error?_eq_cancelled_iff, Context.error?_eq_deadlineExceeded_iff,
      Context.error?_eq_none_iff⟩
  · obtain ⟨c', hc', hdeadline, hcancelled⟩ := context?_append hc more
    refine ⟨c', hc', hdeadline, hcancelled, fun now later hlater herror => ?_⟩
    rw [ne_eq, Context.error?_eq_none_iff, not_not] at herror ⊢
    exact herror.mono hcancelled hdeadline hlater

/-- Two calls; from the first one a context with a deadline, one that times out before it, and one
that is made after the family was cancelled. -/
def requestLog : ContextLog :=
  [(0, .withDeadline 0 30), (1, .withTimeout 1 10), (2, .background), (3, .clone 3),
    (4, .cancel 1), (5, .clone 0)]

/-- The context that was made last is cancelled, and the one that timed out first keeps its own
deadline. The other family goes on. -/
theorem contexts_form_families_requests :
    (context? requestLog 2 = some ⟨true, some 11⟩ ∧
      Lineage (births requestLog) 2 0 [30, 11]) ∧
    (context? requestLog 5 = some ⟨true, none⟩ ∧ FamilyCancelled requestLog 5) ∧
    (context? requestLog 4 = some ⟨false, none⟩ ∧ ¬ FamilyCancelled requestLog 4 ∧
      ¬ SameOrigin requestLog 4 5) := by
  obtain ⟨-, hshared, htells⟩ := contexts_form_families requestLog
  have htimed : context? requestLog 2 = some ⟨true, some 11⟩ := by decide
  have hlast : context? requestLog 5 = some ⟨true, none⟩ := by decide
  have hother : context? requestLog 4 = some ⟨false, none⟩ := by decide
  refine ⟨⟨htimed, ?_⟩, ⟨hlast, ((htells 5 _ hlast).1.cancelled_iff).mp rfl⟩, hother, fun h => ?_,
    fun h => ?_⟩
  · have hcall : (births requestLog)[0]? = some .background := rfl
    have hfirst : (births requestLog)[1]? = some (.derived 0 (some 30)) := rfl
    have hsecond : (births requestLog)[2]? = some (.derived 1 (some 11)) := rfl
    have hlineage := Lineage.derived hsecond (.derived hfirst (.background hcall))
    exact hlineage
  · cases ((htells 4 _ hother).1.cancelled_iff).mpr h
  · have hfamily := (hshared 4 5 ⟨1, none⟩ ⟨0, none⟩ (by decide) (by decide)).mpr h
    cases hfamily

end ContextPool

end RecordGraph
