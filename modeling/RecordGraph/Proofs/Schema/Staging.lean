import RecordGraph.Proofs.Schema.Building

/-!
# What every step of a build keeps

Building begins models and completes them, in a nested order. What beginning and completing one
model keep is kept by a whole build, also by one that fails half-way, in which some models are still
being built. It follows that every model is staged at most once, and only if it was not known.
-/

namespace RecordGraph

variable {M : Type} [DecidableEq M]

namespace Workshop

section

variable (W : Workshop M) (I : List M → Staging M → Prop)

/-- Beginning a model that is neither known nor being built keeps `I`, and so does completing the
model that was begun last. -/
structure Maintains : Prop where
  begins : ∀ busy st m, m ∉ busy → W.lookup? st m = none → I busy st →
    I (m :: busy) { st with begun := st.begun ++ [m] }
  completes : ∀ busy st m s, I (m :: busy) st →
    I busy { st with schemas := st.schemas ++ [(m, s)] }

end

/-- `I` holds after some work. Where the work failed, more models may still be being built. -/
def Maintained {α : Type} (I : List M → Staging M → Prop) (busy : List M)
    (a : Attempt (Staging M) α) : Prop :=
  match a.result with
  | .ok _ => I busy a.state
  | .error _ => ∃ more, I (more ++ busy) a.state

/-- A builder keeps `I` on models that are neither known nor being built. -/
def MaintainedBy (W : Workshop M) (I : List M → Staging M → Prop) (busy : List M)
    (next : Builder M) : Prop :=
  ∀ st m, m ∉ busy → W.lookup? st m = none → I busy st → ∀ a, next st m = some a →
    Maintained I busy a

variable {W : Workshop M} {I : List M → Staging M → Prop} {busy : List M} {st : Staging M}
  {next : Builder M}

omit [DecidableEq M] in
theorem maintained_failed {α : Type} {e : Error} (h : I busy st) :
    Maintained I busy (.failed st e : Attempt (Staging M) α) := ⟨[], h⟩

theorem keysOf_maintained (hnext : W.MaintainedBy I busy next) (hst : I busy st) {m : M}
    {a : Attempt (Staging M) (KeySource M)} (ha : W.keysOf next busy st m = some a) :
    Maintained I busy a := by
  simp only [keysOf] at ha
  cases hk : W.lookup? st m with
  | some s =>
    rw [hk] at ha
    cases ha
    exact hst
  | none =>
    simp only [hk] at ha
    by_cases hb : m ∈ busy
    · simp only [hb, if_true] at ha
      cases hanalyze : W.analyze m with
      | error e =>
        rw [hanalyze] at ha
        cases ha
        exact maintained_failed hst
      | ok t =>
        rw [hanalyze] at ha
        cases ha
        exact hst
    · simp only [hb, if_false] at ha
      cases hn : next st m with
      | none =>
        rw [hn] at ha
        cases ha
      | some b =>
        have hkept := hnext st m hb hk hst b hn
        obtain ⟨st', result⟩ := b
        rw [hn] at ha
        cases result <;> cases ha <;> exact hkept

theorem joinKeysOf_maintained (hnext : W.MaintainedBy I busy next) (hst : I busy st)
    {through : Option M} {a : Attempt (Staging M) (Option (KeySource M))}
    (ha : W.joinKeysOf next busy st through = some a) : Maintained I busy a := by
  cases through with
  | none =>
    cases ha
    exact hst
  | some join =>
    simp only [joinKeysOf] at ha
    cases hk : W.keysOf next busy st join with
    | none =>
      rw [hk] at ha
      cases ha
    | some b =>
      have hkept := keysOf_maintained hnext hst hk
      obtain ⟨st', result⟩ := b
      rw [hk] at ha
      cases result <;> cases ha <;> exact hkept

theorem relationOf_maintained (hnext : W.MaintainedBy I busy next) (hst : I busy st)
    {owner : ModelKeys M} {x : Association M} {a : Attempt (Staging M) (Relation M)}
    (ha : W.relationOf next busy owner st x = some a) : Maintained I busy a := by
  simp only [relationOf] at ha
  cases hk : W.keysOf next busy st x.target with
  | none =>
    rw [hk] at ha
    cases ha
  | some b =>
    have hkept := keysOf_maintained hnext hst hk
    obtain ⟨st₁, target⟩ := b
    simp only [hk] at ha
    cases target with
    | error e =>
      cases ha
      exact hkept
    | ok target =>
      simp only at ha
      cases hj : W.joinKeysOf next busy st₁ x.through with
      | none =>
        rw [hj] at ha
        cases ha
      | some c =>
        have hkept := joinKeysOf_maintained hnext hkept hj
        obtain ⟨st₂, join⟩ := c
        simp only [hj] at ha
        cases join with
        | error e =>
          cases ha
          exact hkept
        | ok join =>
          cases ha
          cases hr : W.family.resolve owner x target.keys (join.map KeySource.keys) with
          | error e => exact maintained_failed hkept
          | ok r => exact hkept

theorem relationsOf_maintained (hnext : W.MaintainedBy I busy next) (hst : I busy st)
    {owner : ModelKeys M} {as : List (Association M)}
    {a : Attempt (Staging M) (List (Relation M))}
    (ha : W.relationsOf next busy owner st as = some a) : Maintained I busy a := by
  induction as generalizing st a with
  | nil =>
    cases ha
    exact hst
  | cons x as ih =>
    simp only [relationsOf] at ha
    cases hr : W.relationOf next busy owner st x with
    | none =>
      rw [hr] at ha
      cases ha
    | some b =>
      have hkept := relationOf_maintained hnext hst hr
      obtain ⟨st₁, first⟩ := b
      simp only [hr] at ha
      cases first with
      | error e =>
        cases ha
        exact hkept
      | ok r =>
        simp only at ha
        cases hs : W.relationsOf next busy owner st₁ as with
        | none =>
          rw [hs] at ha
          cases ha
        | some c =>
          have hkept := ih hkept hs
          obtain ⟨st₂, others⟩ := c
          rw [hs] at ha
          cases others <;> cases ha <;> exact hkept

/-- What every step keeps is kept by a build. -/
theorem build_maintained (hI : W.Maintains I) (fuel : Nat) (busy : List M) :
    W.MaintainedBy I busy (W.build fuel busy) := by
  induction fuel generalizing busy with
  | zero =>
    intro st m _ hst _ a ha
    simp only [build, hst] at ha
    cases ha
  | succ fuel ih =>
    intro st m hm hst hkept a ha
    have hbegun := hI.begins busy st m hm hst hkept
    simp only [build, hst] at ha
    cases hanalyze : W.analyze m with
    | error e =>
      rw [hanalyze] at ha
      cases ha
      exact ⟨[m], hbegun⟩
    | ok t =>
      simp only [hanalyze] at ha
      cases hr : W.relationsOf (fun st m' => W.build fuel (m :: busy) st m') (m :: busy) t.keys
          { st with begun := st.begun ++ [m] } t.associations with
      | none =>
        rw [hr] at ha
        cases ha
      | some b =>
        have hkept := relationsOf_maintained (ih (m :: busy)) hbegun hr
        obtain ⟨st', result⟩ := b
        rw [hr] at ha
        cases result with
        | error e =>
          cases ha
          obtain ⟨more, hmore⟩ := hkept
          refine ⟨more ++ [m], ?_⟩
          rw [List.append_assoc, List.singleton_append]
          exact hmore
        | ok rs =>
          cases ha
          exact hI.completes busy st' m _ hkept

/-! ### Staging each model once -/

theorem find?_eq_none_iff {α : Type} {m : M} {l : List (M × α)} :
    (l.find? fun e => e.1 = m).map Prod.snd = none ↔ m ∉ l.map Prod.fst := by
  rw [Option.map_eq_none_iff, List.find?_eq_none, List.mem_map, not_exists]
  refine forall_congr' fun e => ?_
  rw [not_and, decide_eq_true_eq]

theorem schemaIn?_eq_none {m : M} {schemas : List (M × Schema M)} :
    schemaIn? m schemas = none ↔ m ∉ schemas.map Prod.fst := find?_eq_none_iff

/-- The staged models are told apart, and neither they nor the models being built are cached. -/
structure Single (W : Workshop M) (busy : List M) (st : Staging M) : Prop where
  once : (st.schemas.map Prod.fst).Nodup
  busy_nodup : busy.Nodup
  staged : ∀ k ∈ st.schemas.map Prod.fst, schemaIn? k W.cache = none ∧ k ∉ busy
  building : ∀ k ∈ busy, schemaIn? k W.cache = none

theorem lookup?_eq_none {m : M} :
    W.lookup? st m = none ↔ schemaIn? m W.cache = none ∧ schemaIn? m st.schemas = none := by
  simp only [lookup?]
  cases schemaIn? m W.cache <;> simp

theorem maintains_single : W.Maintains W.Single where
  begins busy st m hm hst h := by
    obtain ⟨hcache, hnew⟩ := lookup?_eq_none.mp hst
    refine ⟨h.once, List.nodup_cons.mpr ⟨hm, h.busy_nodup⟩, fun k hk => ?_, fun k hk => ?_⟩
    · obtain ⟨huncached, hk'⟩ := h.staged k hk
      refine ⟨huncached, fun hb => ?_⟩
      rcases List.mem_cons.mp hb with rfl | hb
      · exact schemaIn?_eq_none.mp hnew hk
      · exact hk' hb
    · rcases List.mem_cons.mp hk with rfl | hk
      · exact hcache
      · exact h.building k hk
  completes busy st m s h := by
    obtain ⟨hm, hbusy⟩ := List.nodup_cons.mp h.busy_nodup
    refine ⟨?_, hbusy, fun k hk => ?_, fun k hk => h.building k (List.mem_cons_of_mem m hk)⟩
    · rw [List.map_append]
      refine List.nodup_append.mpr ⟨h.once, List.nodup_singleton m, fun k hk l hl => ?_⟩
      rw [List.mem_singleton.mp hl]
      rintro rfl
      exact (h.staged k hk).2 List.mem_cons_self
    · rw [List.map_append] at hk
      rcases List.mem_append.mp hk with hk | hk
      · exact ⟨(h.staged k hk).1, fun hb => (h.staged k hk).2 (List.mem_cons_of_mem m hb)⟩
      · rw [List.mem_singleton.mp hk]
        exact ⟨h.building m List.mem_cons_self, hm⟩

theorem single_empty : W.Single [] .empty :=
  ⟨List.nodup_nil, List.nodup_nil, (fun _ hk => nomatch hk), fun _ hk => nomatch hk⟩

end Workshop

end RecordGraph
