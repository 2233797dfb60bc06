import Mathlib.Data.List.Perm.Subperm
import RecordGraph.Proofs.Schema.Direct

/-!
# What building a schema does

Building a model from known schemas either yields its direct schema or shows that the model is not
complete. All that it adds on the way are direct schemas of models that can be reached, and what
such a model leads to is known afterwards or still being built. Fuel never runs out, since every
level of the recursion adds a model to the ones being built.
-/

open Relation (ReflTransGen)

namespace RecordGraph

variable {M : Type} [DecidableEq M]

namespace Workshop

section

variable (W : Workshop M)

def Knows (st : Staging M) (m : M) : Prop := ∃ s, W.lookup? st m = some s

/-- All known schemas are direct ones. -/
def Fits (st : Staging M) : Prop := ∀ m s, W.lookup? st m = some s → W.direct m = .ok s

/-- What was known stays known, and what is new can be reached from `m` and leads to models that
are known or being built. -/
structure Grew (busy : List M) (m : M) (st st' : Staging M) : Prop where
  kept : ∀ k s, W.lookup? st k = some s → W.lookup? st' k = some s
  fits : W.Fits st'
  /-- A model does not become known while it is being built. -/
  waiting : ∀ k ∈ busy, W.Knows st' k → W.Knows st k
  reached : ∀ k, W.Knows st' k → W.Knows st k ∨ ReflTransGen W.Leads m k
  closed : ∀ k, W.Knows st' k → W.Knows st k ∨ ∀ n, W.Leads k n → W.Knows st' n ∨ n ∈ busy

/-- Work for the model `m` went well, or shows that `m` is not complete. -/
def Settled {α : Type} (busy : List M) (m : M) (st : Staging M) (P : Staging M → α → Prop)
    (a : Attempt (Staging M) α) : Prop :=
  match a.result with
  | .ok x => P a.state x ∧ W.Grew busy m st a.state
  | .error _ => ¬ W.Complete m

/-- A builder settles every model that is neither known nor being built. -/
def Settles (busy : List M) (next : Builder M) : Prop :=
  ∀ st m, m ∉ busy → W.lookup? st m = none → W.Fits st →
    ∃ a, next st m = some a ∧
      W.Settled busy m st (fun st s => W.direct m = .ok s ∧ W.lookup? st m = some s) a

end

variable {W : Workshop M} {busy : List M} {m n : M} {st st' : Staging M}

/-! ### Growth -/

theorem Grew.refl (h : W.Fits st) : W.Grew busy m st st :=
  ⟨fun _ _ hk => hk, h, fun _ _ hk => hk, fun _ hk => Or.inl hk, fun _ hk => Or.inl hk⟩

theorem Grew.knows (h : W.Grew busy m st st') (hk : W.Knows st n) : W.Knows st' n := by
  obtain ⟨s, hs⟩ := hk
  exact ⟨s, h.kept n s hs⟩

theorem Grew.trans {st'' : Staging M} (h : W.Grew busy m st st') (h' : W.Grew busy m st' st'') :
    W.Grew busy m st st'' where
  kept k s hk := h'.kept k s (h.kept k s hk)
  fits := h'.fits
  waiting k hb hk := h.waiting k hb (h'.waiting k hb hk)
  reached k hk := by
    rcases h'.reached k hk with hk | hk
    · exact h.reached k hk
    · exact Or.inr hk
  closed k hk := by
    rcases h'.closed k hk with hk | hk
    · rcases h.closed k hk with hk | hk
      · exact Or.inl hk
      · exact Or.inr fun n hn => (hk n hn).imp h'.knows id
    · exact Or.inr hk

theorem Grew.of_leads (hl : W.Leads m n) (h : W.Grew busy n st st') : W.Grew busy m st st' where
  kept := h.kept
  fits := h.fits
  waiting := h.waiting
  reached k hk := (h.reached k hk).imp id fun hr => ReflTransGen.head hl hr
  closed := h.closed

theorem Grew.unknown (h : W.Grew (m :: busy) n st st') (hm : W.lookup? st m = none) :
    W.lookup? st' m = none := by
  cases hs : W.lookup? st' m with
  | none => rfl
  | some s =>
    obtain ⟨t, ht⟩ := h.waiting m List.mem_cons_self ⟨s, hs⟩
    rw [hm] at ht
    cases ht

theorem Grew.lookup?_eq (hm : W.Complete m) (h : W.Grew busy m st st') (hn : ¬ W.Complete n) :
    W.lookup? st' n = W.lookup? st n := by
  cases hs : W.lookup? st n with
  | some s => exact h.kept n s hs
  | none =>
    cases hs' : W.lookup? st' n with
    | none => rfl
    | some s' =>
      rcases h.reached n ⟨s', hs'⟩ with ⟨s, hk⟩ | hk
      · rw [hs] at hk
        cases hk
      · exact absurd (hm.of_reaches hk) hn

theorem Settled.of_leads {α : Type} {P : Staging M → α → Prop} {a : Attempt (Staging M) α}
    (hl : W.Leads m n) (h : W.Settled busy n st P a) : W.Settled busy m st P a := by
  obtain ⟨st', result⟩ := a
  cases result with
  | ok x => exact ⟨h.1, h.2.of_leads hl⟩
  | error e => exact fun hm => h (hm.of_leads hl)

theorem settled_done {α : Type} {P : Staging M → α → Prop} {x : α} (hx : P st' x)
    (h : W.Grew busy m st st') : W.Settled busy m st P (.done st' x) := ⟨hx, h⟩

theorem settled_failed {α : Type} {P : Staging M → α → Prop} {e : Error} (h : ¬ W.Complete m) :
    W.Settled busy m st P (.failed st' e) := h

/-! ### Lookups -/

theorem lookup?_stage {s : Schema M} (h : W.lookup? st m = none) (k : M) :
    W.lookup? { st with schemas := st.schemas ++ [(m, s)] } k =
      if k = m then some s else W.lookup? st k := by
  simp only [lookup?] at h ⊢
  by_cases hk : k = m
  · subst hk
    cases hc : schemaIn? k W.cache with
    | some t =>
      rw [hc] at h
      cases h
    | none =>
      rw [hc] at h
      have h : schemaIn? k st.schemas = none := h
      simp only [schemaIn?, Option.map_eq_none_iff] at h
      simp [schemaIn?, List.find?_append, h]
  · cases hc : schemaIn? k W.cache with
    | some t => simp [hk]
    | none =>
      have hm : (m = k) = False := by simp [Ne.symm hk]
      simp [hk, hm, schemaIn?, List.find?_append]

theorem Fits.stage {s : Schema M} (h : W.Fits st) (hm : W.lookup? st m = none)
    (hs : W.direct m = .ok s) : W.Fits { st with schemas := st.schemas ++ [(m, s)] } := by
  intro k t ht
  rw [lookup?_stage hm] at ht
  split at ht
  · rename_i hk
    cases ht
    rw [hk]
    exact hs
  · exact h k t ht

/-! ### Keys -/

theorem keysOf_settled {next : Builder M} (hnext : W.Settles busy next) (hst : W.Fits st) :
    ∃ a, W.keysOf next busy st n = some a ∧ W.Settled busy n st (fun st k =>
      (∃ t, W.analyze n = .ok t ∧ k.keys = t.keys) ∧ (W.Knows st n ∨ n ∈ busy)) a := by
  have direct_keys : ∀ s, W.direct n = .ok s → ∃ t, W.analyze n = .ok t ∧ s.keys = t.keys := by
    intro s hs
    obtain ⟨t, -, ht, -⟩ := direct_cases hs
    exact ⟨t, ht, keys_of_direct hs ht⟩
  simp only [keysOf]
  cases hk : W.lookup? st n with
  | some s =>
    exact ⟨_, rfl, settled_done ⟨direct_keys s (hst n s hk), Or.inl ⟨s, hk⟩⟩ (Grew.refl hst)⟩
  | none =>
    by_cases hb : n ∈ busy
    · simp only [hb, if_true]
      cases ha : W.analyze n with
      | error e => exact ⟨_, rfl, settled_failed (not_complete_of_analyze ha)⟩
      | ok t => exact ⟨_, rfl, settled_done ⟨⟨t, rfl, rfl⟩, Or.inr trivial⟩ (Grew.refl hst)⟩
    · simp only [hb, if_false]
      obtain ⟨⟨st', result⟩, ha, hs⟩ := hnext st n hb hk hst
      rw [ha]
      cases result with
      | error e => exact ⟨_, rfl, settled_failed hs⟩
      | ok s =>
        obtain ⟨⟨hdirect, hknown⟩, hgrew⟩ := hs
        exact ⟨_, rfl, settled_done ⟨direct_keys s hdirect, Or.inl ⟨s, hknown⟩⟩ hgrew⟩

theorem joinKeysOf_settled {next : Builder M} (hnext : W.Settles busy next) (hst : W.Fits st)
    {through : Option M} (hl : ∀ j, through = some j → W.Leads m j) :
    ∃ a, W.joinKeysOf next busy st through = some a ∧ W.Settled busy m st (fun st k =>
      (∃ j, W.joinAnalysis through = .ok j ∧ k.map KeySource.keys = j.map Analysis.keys) ∧
        ∀ j, through = some j → W.Knows st j ∨ j ∈ busy) a := by
  cases through with
  | none => exact ⟨_, rfl, settled_done ⟨⟨none, rfl, rfl⟩, fun _ hj => nomatch hj⟩ (Grew.refl hst)⟩
  | some join =>
    obtain ⟨⟨st', result⟩, ha, hs⟩ := keysOf_settled (n := join) hnext hst
    have hs := hs.of_leads (hl join rfl)
    simp only [joinKeysOf, ha]
    cases result with
    | error e => exact ⟨_, rfl, settled_failed hs⟩
    | ok k =>
      obtain ⟨⟨⟨t, ht, hkeys⟩, hknown⟩, hgrew⟩ := hs
      refine ⟨_, rfl, settled_done ⟨⟨some t, ?_, ?_⟩, ?_⟩ hgrew⟩
      · simp [joinAnalysis, ht]
      · simp [hkeys]
      · intro j hj
        cases hj
        exact hknown

/-! ### Relations -/

theorem relationOf_settled {next : Builder M} (hnext : W.Settles busy next) (hst : W.Fits st)
    {a : Analysis M} (ha : W.analyze m = .ok a) {x : Association M} (hx : x ∈ a.associations) :
    ∃ b, W.relationOf next busy a.keys st x = some b ∧ W.Settled busy m st (fun st r =>
      W.linkFrom a.keys x = .ok r ∧
        ∀ n, x.target = n ∨ x.through = some n → W.Knows st n ∨ n ∈ busy) b := by
  obtain ⟨⟨st₁, target⟩, h₁, hs₁⟩ := keysOf_settled (n := x.target) hnext hst
  have hs₁ := hs₁.of_leads ⟨a, ha, x, hx, Or.inl rfl⟩
  simp only [relationOf, h₁]
  cases target with
  | error e => exact ⟨_, rfl, settled_failed hs₁⟩
  | ok target =>
    obtain ⟨⟨⟨t, ht, htarget⟩, hknown₁⟩, hgrew₁⟩ := hs₁
    have hleads : ∀ j, x.through = some j → W.Leads m j :=
      fun j hj => ⟨a, ha, x, hx, Or.inr hj⟩
    obtain ⟨⟨st₂, join⟩, h₂, hs₂⟩ := joinKeysOf_settled hnext hgrew₁.fits hleads
    simp only [h₂]
    cases join with
    | error e => exact ⟨_, rfl, settled_failed hs₂⟩
    | ok join =>
      obtain ⟨⟨⟨j, hj, hjoin⟩, hknown₂⟩, hgrew₂⟩ := hs₂
      have hlink : W.linkFrom a.keys x =
          W.family.resolve a.keys x target.keys (join.map KeySource.keys) := by
        simp only [linkFrom, ht, hj, htarget, hjoin]
      refine ⟨_, rfl, ?_⟩
      cases hr : W.family.resolve a.keys x target.keys (join.map KeySource.keys) with
      | error e => exact not_complete_of_linkFrom ha hx (hlink.trans hr)
      | ok r =>
        refine ⟨⟨hlink.trans hr, fun n hn => ?_⟩, hgrew₁.trans hgrew₂⟩
        rcases hn with rfl | hn
        · exact hknown₁.imp hgrew₂.knows id
        · exact hknown₂ n hn

theorem relationsOf_settled {next : Builder M} (hnext : W.Settles busy next) (hst : W.Fits st)
    {a : Analysis M} (ha : W.analyze m = .ok a) {as : List (Association M)}
    (has : ∀ x ∈ as, x ∈ a.associations) :
    ∃ b, W.relationsOf next busy a.keys st as = some b ∧ W.Settled busy m st (fun st rs =>
      W.linksFrom a.keys as = .ok rs ∧
        ∀ x ∈ as, ∀ n, x.target = n ∨ x.through = some n → W.Knows st n ∨ n ∈ busy) b := by
  induction as generalizing st with
  | nil => exact ⟨_, rfl, settled_done ⟨rfl, fun _ hx => nomatch hx⟩ (Grew.refl hst)⟩
  | cons x as ih =>
    obtain ⟨⟨st₁, first⟩, h₁, hs₁⟩ := relationOf_settled hnext hst ha (has x List.mem_cons_self)
    simp only [relationsOf, h₁]
    cases first with
    | error e => exact ⟨_, rfl, settled_failed hs₁⟩
    | ok r =>
      obtain ⟨⟨hlink, hknown₁⟩, hgrew₁⟩ := hs₁
      obtain ⟨⟨st₂, others⟩, h₂, hs₂⟩ :=
        ih hgrew₁.fits fun y hy => has y (List.mem_cons_of_mem x hy)
      simp only [h₂]
      cases others with
      | error e => exact ⟨_, rfl, settled_failed hs₂⟩
      | ok rs =>
        obtain ⟨⟨hlinks, hknown₂⟩, hgrew₂⟩ := hs₂
        refine ⟨_, rfl, settled_done ⟨?_, ?_⟩ (hgrew₁.trans hgrew₂)⟩
        · simp only [linksFrom, hlink, hlinks]
        · intro y hy n hn
          rcases List.mem_cons.mp hy with rfl | hy
          · exact (hknown₁ n hn).imp hgrew₂.knows id
          · exact hknown₂ y hy n hn

/-! ### Building -/

omit [DecidableEq M] in
theorem length_le_of_nodup (F : Family M) {l : List M} (h : l.Nodup) : l.length ≤ F.all.length :=
  (List.subperm_of_subset h fun m _ => F.mem_all m).length_le

omit [DecidableEq M] in
theorem length_lt_of_not_mem (F : Family M) {l : List M} (h : l.Nodup) (hm : m ∉ l) :
    l.length < F.all.length := length_le_of_nodup F (List.nodup_cons.mpr ⟨hm, h⟩)

theorem Grew.of_begun {ms : List M} (h : W.Grew busy m { st with begun := ms } st') :
    W.Grew busy m st st' := ⟨h.kept, h.fits, h.waiting, h.reached, h.closed⟩

theorem grew_stage {s : Schema M} (hst : W.lookup? st m = none) (hm : m ∉ busy)
    (hs : W.direct m = .ok s) {st₀ : Staging M} (h : W.Grew (m :: busy) m st₀ st)
    (hclosed : ∀ n, W.Leads m n → W.Knows st n ∨ n ∈ m :: busy) :
    W.Grew busy m st₀ { st with schemas := st.schemas ++ [(m, s)] } := by
  have stays : ∀ k, W.Knows st k → W.Knows { st with schemas := st.schemas ++ [(m, s)] } k := by
    rintro k ⟨t, ht⟩
    by_cases hk : k = m
    · subst hk
      rw [hst] at ht
      cases ht
    · exact ⟨t, by rw [lookup?_stage hst, if_neg hk, ht]⟩
  have known : W.Knows { st with schemas := st.schemas ++ [(m, s)] } m :=
    ⟨s, by rw [lookup?_stage hst, if_pos rfl]⟩
  have opened : ∀ n, W.Knows st n ∨ n ∈ m :: busy →
      W.Knows { st with schemas := st.schemas ++ [(m, s)] } n ∨ n ∈ busy := by
    intro n hn
    rcases hn with hn | hn
    · exact Or.inl (stays n hn)
    · rcases List.mem_cons.mp hn with rfl | hn
      · exact Or.inl known
      · exact Or.inr hn
  have before : ∀ k, W.Knows { st with schemas := st.schemas ++ [(m, s)] } k →
      k = m ∨ W.Knows st k := by
    rintro k ⟨t, ht⟩
    by_cases hk : k = m
    · exact Or.inl hk
    · rw [lookup?_stage hst, if_neg hk] at ht
      exact Or.inr ⟨t, ht⟩
  refine ⟨fun k t ht => ?_, h.fits.stage hst hs, fun k hb hk => ?_, fun k hk => ?_, fun k hk => ?_⟩
  · have hk := h.kept k t ht
    by_cases he : k = m
    · subst he
      rw [hst] at hk
      cases hk
    · rw [lookup?_stage hst, if_neg he, hk]
  · rcases before k hk with rfl | hk
    · exact absurd hb hm
    · exact h.waiting k (List.mem_cons_of_mem m hb) hk
  · rcases before k hk with rfl | hk
    · exact Or.inr ReflTransGen.refl
    · exact h.reached k hk
  · rcases before k hk with rfl | hk
    · exact Or.inr fun n hn => opened n (hclosed n hn)
    · exact (h.closed k hk).imp id fun hl n hn => opened n (hl n hn)

theorem leads_known {a : Analysis M} (ha : W.analyze m = .ok a)
    (h : ∀ x ∈ a.associations, ∀ n, x.target = n ∨ x.through = some n → W.Knows st n ∨ n ∈ busy) :
    ∀ n, W.Leads m n → W.Knows st n ∨ n ∈ busy := by
  rintro n ⟨b, hb, x, hx, hn⟩
  cases ha.symm.trans hb
  exact h x hx n hn

/-- Building settles every model: `build` has enough fuel for all models that are not being
built. -/
theorem build_settles (fuel : Nat) (busy : List M)
    (hfuel : W.family.all.length ≤ fuel + busy.length) (hbusy : busy.Nodup) :
    W.Settles busy (W.build fuel busy) := by
  induction fuel generalizing busy with
  | zero =>
    intro st m hm
    have := length_lt_of_not_mem W.family hbusy hm
    omega
  | succ fuel ih =>
    intro st m hm hst hfits
    have hnext := ih (m :: busy) (by simp only [List.length_cons]; omega)
      (List.nodup_cons.mpr ⟨hm, hbusy⟩)
    simp only [build, hst]
    cases ha : W.analyze m with
    | error e => exact ⟨_, rfl, settled_failed (not_complete_of_analyze ha)⟩
    | ok a =>
      have hbegun : W.Fits { st with begun := st.begun ++ [m] } := hfits
      have hall : ∀ x ∈ a.associations, x ∈ a.associations := fun _ hx => hx
      obtain ⟨⟨st', result⟩, hb, hs⟩ := relationsOf_settled hnext hbegun ha hall
      simp only [hb]
      cases result with
      | error e => exact ⟨_, rfl, settled_failed hs⟩
      | ok rs =>
        obtain ⟨⟨hlinks, hclosed⟩, hgrew⟩ := hs
        have hdirect := direct_of_linksFrom ha hlinks
        have hunknown : W.lookup? st' m = none := by
          cases hk : W.lookup? st' m with
          | none => rfl
          | some s =>
            obtain ⟨t, ht⟩ := hgrew.waiting m List.mem_cons_self ⟨s, hk⟩
            exact absurd (hst.symm.trans ht) (by simp)
        have hstaged := grew_stage hunknown hm hdirect hgrew.of_begun (leads_known ha hclosed)
        refine ⟨_, rfl, settled_done ⟨hdirect, ?_⟩ hstaged⟩
        rw [lookup?_stage hunknown, if_pos rfl]

end Workshop

end RecordGraph
