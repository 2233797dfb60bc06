import RecordGraph.Proofs.Schema.Building

/-!
# Two builds agree

Two builds of one model that start from different caches go through the same models that are not
complete, in the same order, so they end with the same schema or with the same error. Complete
models may be known to one and built by the other; they always go well.
-/

namespace RecordGraph

variable {M : Type} [DecidableEq M]

namespace Workshop

def withCache (W : Workshop M) (cache : List (M × Schema M)) : Workshop M :=
  { W with cache := cache }

variable {W : Workshop M} {cache : List (M × Schema M)} {busy : List M} {m n : M}
  {st st' : Staging M}

omit [DecidableEq M] in
theorem linkFrom_withCache (owner : ModelKeys M) (a : Association M) :
    (W.withCache cache).linkFrom owner a = W.linkFrom owner a := by
  cases h : a.through <;> simp only [linkFrom, h] <;> rfl

omit [DecidableEq M] in
theorem linksFrom_withCache (owner : ModelKeys M) (as : List (Association M)) :
    (W.withCache cache).linksFrom owner as = W.linksFrom owner as := by
  induction as with
  | nil => rfl
  | cons a as ih => simp only [linksFrom, linkFrom_withCache, ih]

omit [DecidableEq M] in
theorem direct_withCache (m : M) : (W.withCache cache).direct m = W.direct m := by
  simp only [Workshop.direct, linksFrom_withCache]
  rfl

omit [DecidableEq M] in
theorem complete_withCache : (W.withCache cache).Complete m ↔ W.Complete m := by
  simp only [Complete, direct_withCache]
  exact Iff.rfl

/-! ### Agreement -/

/-- Both stagings hold direct schemas, and they know the same models that are not complete. -/
structure Twins (W : Workshop M) (cache : List (M × Schema M)) (st st' : Staging M) : Prop where
  fits : W.Fits st
  fits' : (W.withCache cache).Fits st'
  same : ∀ k, ¬ W.Complete k → W.lookup? st k = (W.withCache cache).lookup? st' k

/-- Two outcomes are the same error, or related results with twin stagings. -/
def Agree {α β : Type} (W : Workshop M) (cache : List (M × Schema M)) (R : α → β → Prop)
    (a : Attempt (Staging M) α) (b : Attempt (Staging M) β) : Prop :=
  match a.result, b.result with
  | .ok x, .ok y => R x y ∧ W.Twins cache a.state b.state
  | .error e, .error e' => e = e'
  | _, _ => False

/-- Two builders agree on models that are neither complete nor known nor being built. -/
def Agreeing (W : Workshop M) (cache : List (M × Schema M)) (busy : List M)
    (next next' : Builder M) : Prop :=
  ∀ st st' m, m ∉ busy → ¬ W.Complete m → W.lookup? st m = none → W.Twins cache st st' →
    ∃ a b, next st m = some a ∧ next' st' m = some b ∧ W.Agree cache Eq a b

theorem Twins.of_begun {ms ms' : List M} (h : W.Twins cache st st') :
    W.Twins cache { st with begun := ms } { st' with begun := ms' } := ⟨h.fits, h.fits', h.same⟩

theorem Twins.grew {t t' : Staging M} (h : W.Twins cache st st') (hm : W.Complete m)
    (hg : W.Grew busy m st t) (hg' : (W.withCache cache).Grew busy m st' t') :
    W.Twins cache t t' where
  fits := hg.fits
  fits' := hg'.fits
  same k hk := by
    rw [hg.lookup?_eq hm hk, h.same k hk]
    exact (hg'.lookup?_eq (complete_withCache.mpr hm) (mt complete_withCache.mp hk)).symm

theorem Twins.stage {s : Schema M} (h : W.Twins cache st st') (hm : W.lookup? st m = none)
    (hm' : (W.withCache cache).lookup? st' m = none) (hs : W.direct m = .ok s) :
    W.Twins cache { st with schemas := st.schemas ++ [(m, s)] }
      { st' with schemas := st'.schemas ++ [(m, s)] } where
  fits := h.fits.stage hm hs
  fits' := h.fits'.stage hm' ((direct_withCache m).trans hs)
  same k hk := by rw [lookup?_stage hm, lookup?_stage hm', h.same k hk]

theorem keysOf_agree {next next' : Builder M} (hnext : W.Settles busy next)
    (hnext' : (W.withCache cache).Settles busy next') (hagree : W.Agreeing cache busy next next')
    (h : W.Twins cache st st') (n : M) :
    ∃ a b, W.keysOf next busy st n = some a ∧ (W.withCache cache).keysOf next' busy st' n = some b ∧
      W.Agree cache (fun k k' => k.keys = k'.keys) a b := by
  obtain ⟨⟨t, result⟩, ha, hs⟩ := keysOf_settled (n := n) hnext h.fits
  obtain ⟨⟨t', result'⟩, hb, hs'⟩ := keysOf_settled (n := n) hnext' h.fits'
  by_cases hn : W.Complete n
  · refine ⟨_, _, ha, hb, ?_⟩
    cases result with
    | error e => exact absurd hn hs
    | ok k =>
      cases result' with
      | error e => exact absurd (complete_withCache.mpr hn) hs'
      | ok k' =>
        obtain ⟨⟨⟨x, hx, hk⟩, -⟩, hg⟩ := hs
        obtain ⟨⟨⟨x', hx', hk'⟩, -⟩, hg'⟩ := hs'
        have hx' : W.analyze n = .ok x' := hx'
        cases hx.symm.trans hx'
        exact ⟨hk.trans hk'.symm, h.grew hn hg hg'⟩
  · have hsame := h.same n hn
    simp only [keysOf, ← hsame]
    cases hk : W.lookup? st n with
    | some s => exact ⟨_, _, rfl, rfl, rfl, h⟩
    | none =>
      by_cases hb : n ∈ busy
      · simp only [hb, if_true]
        have ha : (W.withCache cache).analyze n = W.analyze n := rfl
        rw [ha]
        cases W.analyze n with
        | error e => exact ⟨_, _, rfl, rfl, rfl⟩
        | ok a => exact ⟨_, _, rfl, rfl, rfl, h⟩
      · simp only [hb, if_false]
        obtain ⟨⟨u, r⟩, ⟨u', r'⟩, hu, hu', hr⟩ := hagree st st' n hb hn hk h
        rw [hu, hu']
        cases r with
        | error e =>
          cases r' with
          | error e' => exact ⟨_, _, rfl, rfl, hr⟩
          | ok s' => exact hr.elim
        | ok s =>
          cases r' with
          | error e' => exact hr.elim
          | ok s' =>
            obtain ⟨rfl, ht⟩ := hr
            exact ⟨_, _, rfl, rfl, rfl, ht⟩

theorem joinKeysOf_agree {next next' : Builder M} (hnext : W.Settles busy next)
    (hnext' : (W.withCache cache).Settles busy next') (hagree : W.Agreeing cache busy next next')
    (h : W.Twins cache st st') (through : Option M) :
    ∃ a b, W.joinKeysOf next busy st through = some a ∧
      (W.withCache cache).joinKeysOf next' busy st' through = some b ∧
      W.Agree cache (fun k k' => k.map KeySource.keys = k'.map KeySource.keys) a b := by
  cases through with
  | none => exact ⟨_, _, rfl, rfl, rfl, h⟩
  | some join =>
    obtain ⟨⟨t, r⟩, ⟨t', r'⟩, ha, hb, hr⟩ := keysOf_agree hnext hnext' hagree h join
    simp only [joinKeysOf, ha, hb]
    cases r with
    | error e =>
      cases r' with
      | error e' => exact ⟨_, _, rfl, rfl, hr⟩
      | ok k' => exact hr.elim
    | ok k =>
      cases r' with
      | error e' => exact hr.elim
      | ok k' => exact ⟨_, _, rfl, rfl, congrArg some hr.1, hr.2⟩

theorem relationOf_agree {next next' : Builder M} (hnext : W.Settles busy next)
    (hnext' : (W.withCache cache).Settles busy next') (hagree : W.Agreeing cache busy next next')
    (h : W.Twins cache st st') (owner : ModelKeys M) (x : Association M) :
    ∃ a b, W.relationOf next busy owner st x = some a ∧
      (W.withCache cache).relationOf next' busy owner st' x = some b ∧ W.Agree cache Eq a b := by
  obtain ⟨⟨t, r⟩, ⟨t', r'⟩, ha, hb, hr⟩ := keysOf_agree hnext hnext' hagree h x.target
  simp only [relationOf, ha, hb]
  cases r with
  | error e =>
    cases r' with
    | error e' => exact ⟨_, _, rfl, rfl, hr⟩
    | ok k' => exact hr.elim
  | ok k =>
    cases r' with
    | error e' => exact hr.elim
    | ok k' =>
      obtain ⟨⟨u, j⟩, ⟨u', j'⟩, hc, hd, hj⟩ := joinKeysOf_agree hnext hnext' hagree hr.2 x.through
      simp only [hc, hd]
      cases j with
      | error e =>
        cases j' with
        | error e' => exact ⟨_, _, rfl, rfl, hj⟩
        | ok k' => exact hj.elim
      | ok j =>
        cases j' with
        | error e' => exact hj.elim
        | ok j' =>
          have hfamily : (W.withCache cache).family = W.family := rfl
          refine ⟨_, _, rfl, rfl, ?_⟩
          rw [hr.1, hj.1, hfamily]
          cases hq : W.family.resolve owner x k'.keys (j'.map KeySource.keys) with
          | error e => rfl
          | ok q => exact ⟨rfl, hj.2⟩

theorem relationsOf_agree {next next' : Builder M} (hnext : W.Settles busy next)
    (hnext' : (W.withCache cache).Settles busy next') (hagree : W.Agreeing cache busy next next')
    (h : W.Twins cache st st') (owner : ModelKeys M) (as : List (Association M)) :
    ∃ a b, W.relationsOf next busy owner st as = some a ∧
      (W.withCache cache).relationsOf next' busy owner st' as = some b ∧ W.Agree cache Eq a b := by
  induction as generalizing st st' with
  | nil => exact ⟨_, _, rfl, rfl, rfl, h⟩
  | cons x as ih =>
    obtain ⟨⟨t, r⟩, ⟨t', r'⟩, ha, hb, hr⟩ := relationOf_agree hnext hnext' hagree h owner x
    simp only [relationsOf, ha, hb]
    cases r with
    | error e =>
      cases r' with
      | error e' => exact ⟨_, _, rfl, rfl, hr⟩
      | ok q' => exact hr.elim
    | ok q =>
      cases r' with
      | error e' => exact hr.elim
      | ok q' =>
        obtain ⟨rfl, ht⟩ := hr
        obtain ⟨⟨u, qs⟩, ⟨u', qs'⟩, hc, hd, hs⟩ := ih ht
        simp only [hc, hd]
        cases qs with
        | error e =>
          cases qs' with
          | error e' => exact ⟨_, _, rfl, rfl, hs⟩
          | ok _ => exact hs.elim
        | ok qs =>
          cases qs' with
          | error e' => exact hs.elim
          | ok qs' => exact ⟨_, _, rfl, rfl, by rw [hs.1], hs.2⟩

/-- Two builds agree on every model that is not complete. -/
theorem build_agree (fuel : Nat) (busy : List M)
    (hfuel : W.family.all.length ≤ fuel + busy.length) (hbusy : busy.Nodup) :
    W.Agreeing cache busy (W.build fuel busy) ((W.withCache cache).build fuel busy) := by
  induction fuel generalizing busy with
  | zero =>
    intro st st' m hm
    have := length_lt_of_not_mem W.family hbusy hm
    omega
  | succ fuel ih =>
    intro st st' m hm hcomplete hst h
    have hnodup : (m :: busy).Nodup := List.nodup_cons.mpr ⟨hm, hbusy⟩
    have hmore : W.family.all.length ≤ fuel + (m :: busy).length := by
      simp only [List.length_cons]
      omega
    have hst' : (W.withCache cache).lookup? st' m = none := (h.same m hcomplete).symm.trans hst
    have hanalyze : (W.withCache cache).analyze m = W.analyze m := rfl
    simp only [build, hst, hst', hanalyze]
    cases ha : W.analyze m with
    | error e => exact ⟨_, _, rfl, rfl, rfl⟩
    | ok a =>
      have begun : W.Twins cache { st with begun := st.begun ++ [m] }
          { st' with begun := st'.begun ++ [m] } := h.of_begun
      have hnext := build_settles (W := W) fuel (m :: busy) hmore hnodup
      have hnext' := build_settles (W := W.withCache cache) fuel (m :: busy) hmore hnodup
      obtain ⟨⟨t, rs⟩, ⟨t', rs'⟩, hb, hb', hr⟩ := relationsOf_agree hnext hnext'
        (ih (m :: busy) hmore hnodup) begun a.keys a.associations
      obtain ⟨_, hc, settled⟩ := relationsOf_settled hnext begun.fits ha fun _ hx => hx
      obtain ⟨_, hc', settled'⟩ := relationsOf_settled hnext' begun.fits' ha fun _ hx => hx
      cases hb.symm.trans hc
      cases hb'.symm.trans hc'
      simp only [hb, hb']
      cases rs with
      | error e =>
        cases rs' with
        | error e' => exact ⟨_, _, rfl, rfl, hr⟩
        | ok _ => exact hr.elim
      | ok rs =>
        cases rs' with
        | error e' => exact hr.elim
        | ok rs' =>
          obtain ⟨rfl, ht⟩ := hr
          have hg := settled.2.of_begun
          have hg' := settled'.2.of_begun
          exact ⟨_, _, rfl, rfl, rfl, ht.stage (hg.unknown hst) (hg'.unknown hst')
            (direct_of_linksFrom ha settled.1.1)⟩

end Workshop

end RecordGraph
