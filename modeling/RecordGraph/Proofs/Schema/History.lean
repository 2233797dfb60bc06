import RecordGraph.Proofs.Schema.Agreement
import RecordGraph.Schema.Registry

/-!
# Schemas do not depend on the history of a registry

A registry that was reached from an empty one by requests, flushes and copies from other registries
of its configuration keeps direct schemas of complete models only. What it answers is therefore what
an empty registry answers, be it a schema or an error.
-/

open Relation (ReflTransGen)

namespace RecordGraph

variable {M : Type} [DecidableEq M]

namespace Workshop

/-- What an empty registry of a configuration builds from. -/
def ofConfig (F : Family M) (config : Config) : Workshop M := ⟨F, config.schema, config.tags, []⟩

/-- All schemas of the cache are direct ones of complete models. -/
def Stocked (W : Workshop M) : Prop :=
  ∀ m s, schemaIn? m W.cache = some s → W.direct m = .ok s ∧ W.Complete m

variable {W : Workshop M} {cache : List (M × Schema M)}

theorem lookup?_empty (m : M) : W.lookup? .empty m = schemaIn? m W.cache := by
  simp only [lookup?]
  cases h : schemaIn? m W.cache with
  | some s => rfl
  | none => simp [schemaIn?, Staging.empty]

theorem Stocked.fits (h : W.Stocked) : W.Fits .empty := by
  intro m s hs
  rw [lookup?_empty] at hs
  exact (h m s hs).1

theorem run_settled (h : W.Stocked) {m : M} (hm : schemaIn? m W.cache = none) :
    ∃ a, W.run m = some a ∧ W.Settled [] m .empty (fun st s =>
      W.direct m = .ok s ∧ W.lookup? st m = some s) a :=
  build_settles W.family.all.length [] (by simp) List.nodup_nil .empty m List.not_mem_nil
    ((lookup?_empty m).trans hm) h.fits

theorem run_cached {m : M} {s : Schema M} (hm : schemaIn? m W.cache = some s) :
    W.run m = some (.done .empty s) := by
  have hknown : W.lookup? .empty m = some s := (lookup?_empty m).trans hm
  simp only [run]
  cases W.family.all.length <;> simp only [build, hknown]

theorem complete_of_knows (h : W.Stocked) {m : M} {st : Staging M} (hg : W.Grew [] m .empty st)
    {k : M} (hk : W.Knows st k) : W.Complete k := by
  intro n hn
  induction hn using ReflTransGen.head_induction_on with
  | refl =>
    obtain ⟨s, hs⟩ := hk
    exact ⟨s, hg.fits n s hs⟩
  | head hl hrest ih =>
    rcases hg.closed _ hk with ⟨s, hs⟩ | hnew
    · rw [lookup?_empty] at hs
      exact (h _ s hs).2 n (ReflTransGen.head hl hrest)
    · rcases hnew _ hl with hknown | hbusy
      · exact ih hknown
      · cases hbusy

theorem run_exists (h : W.Stocked) (m : M) : ∃ a, W.run m = some a := by
  cases hk : schemaIn? m W.cache with
  | some s => exact ⟨_, run_cached hk⟩
  | none =>
    obtain ⟨a, ha, -⟩ := run_settled h hk
    exact ⟨a, ha⟩

theorem run_ok (h : W.Stocked) {m : M} {a : Attempt (Staging M) (Schema M)}
    (ha : W.run m = some a) {s : Schema M} (hs : a.result = .ok s) :
    W.direct m = .ok s ∧ W.Complete m := by
  cases hk : schemaIn? m W.cache with
  | some t =>
    cases ha.symm.trans (run_cached hk)
    cases hs
    exact h m s hk
  | none =>
    obtain ⟨⟨st, result⟩, hb, hr⟩ := run_settled h hk
    cases ha.symm.trans hb
    cases hs
    exact ⟨hr.1.1, complete_of_knows h hr.2 ⟨s, hr.1.2⟩⟩

theorem run_error (h : W.Stocked) {m : M} {a : Attempt (Staging M) (Schema M)}
    (ha : W.run m = some a) {e : Error} (he : a.result = .error e) : ¬ W.Complete m := by
  cases hk : schemaIn? m W.cache with
  | some t =>
    cases ha.symm.trans (run_cached hk)
    cases he
  | none =>
    obtain ⟨⟨st, result⟩, hb, hr⟩ := run_settled h hk
    cases ha.symm.trans hb
    cases he
    exact hr

/-- Two runs from stocked caches end alike. -/
theorem run_result_withCache (h : W.Stocked) (h' : (W.withCache cache).Stocked) (m : M) :
    ∃ a b, W.run m = some a ∧ (W.withCache cache).run m = some b ∧ a.result = b.result := by
  by_cases hm : W.Complete m
  · obtain ⟨s, hs⟩ := hm.direct
    have ends : ∀ V : Workshop M, V.Stocked → V.Complete m → V.direct m = .ok s →
        ∃ a, V.run m = some a ∧ a.result = .ok s := by
      intro V hV hcomplete hdirect
      obtain ⟨⟨st, result⟩, ha⟩ := run_exists hV m
      cases result with
      | error e => exact absurd hcomplete (run_error hV ha rfl)
      | ok t =>
        cases (run_ok hV ha rfl).1.symm.trans hdirect
        exact ⟨_, ha, rfl⟩
    obtain ⟨a, ha, hr⟩ := ends W h hm hs
    obtain ⟨b, hb, hr'⟩ := ends (W.withCache cache) h' (complete_withCache.mpr hm)
      ((direct_withCache m).trans hs)
    exact ⟨a, b, ha, hb, hr.trans hr'.symm⟩
  · have unknown : ∀ k, ¬ W.Complete k → schemaIn? k W.cache = none := by
      intro k hk
      cases hs : schemaIn? k W.cache with
      | none => rfl
      | some s => exact absurd (h k s hs).2 hk
    have unknown' : ∀ k, ¬ W.Complete k → schemaIn? k cache = none := by
      intro k hk
      cases hs : schemaIn? k cache with
      | none => rfl
      | some s => exact absurd (complete_withCache.mp (h' k s hs).2) hk
    have twins : W.Twins cache .empty .empty := by
      refine ⟨h.fits, h'.fits, fun k hk => ?_⟩
      rw [lookup?_empty, lookup?_empty, unknown k hk]
      exact (unknown' k hk).symm
    obtain ⟨⟨st, r⟩, ⟨st', r'⟩, ha, hb, hr⟩ := build_agree W.family.all.length []
      (by simp) List.nodup_nil .empty .empty m List.not_mem_nil hm
      ((lookup?_empty m).trans (unknown m hm)) twins
    refine ⟨_, _, ha, hb, ?_⟩
    cases r with
    | error e =>
      cases r' with
      | error e' => exact congrArg Except.error hr
      | ok s' => exact hr.elim
    | ok s =>
      cases r' with
      | error e' => exact hr.elim
      | ok s' => exact congrArg Except.ok hr.1

end Workshop

namespace Registry

variable {F : Family M} {config : Config} {R : Registry M} {m : M}

/-- Registries of a configuration after any requests, failing ones too, flushes, and copies of what
other such registries keep. -/
inductive Reached (F : Family M) (config : Config) : Registry M → Prop where
  | fresh (number : Nat) : Reached F config (ofConfig number config)
  | request {R : Registry M} (h : Reached F config R) (m : M) :
      Reached F config (R.schemaFor F m).state
  | flush {R : Registry M} (h : Reached F config R) : Reached F config R.flush
  | set {R S : Registry M} {m : M} {k : KeptSchema M} (h : Reached F config R)
      (hS : Reached F config S) (hk : S.get? m = some k) : Reached F config (R.set k)

/-- The registry is of the configuration and keeps direct schemas of complete models. -/
structure Faithful (F : Family M) (config : Config) (R : Registry M) : Prop where
  defaults_eq : R.defaults = config.schema
  options_eq : R.options = config.tags
  stocked : ∀ m k, R.get? m = some k →
    (Workshop.ofConfig F config).direct m = .ok k.schema ∧
      (Workshop.ofConfig F config).Complete m

/-! ### Kept schemas -/

theorem schemaIn?_kept (kept : List (M × KeptSchema M)) :
    schemaIn? m (kept.map fun e => (e.1, e.2.schema)) =
      ((kept.find? fun e => e.1 = m).map Prod.snd).map KeptSchema.schema := by
  rw [schemaIn?, List.find?_map, Option.map_map, Option.map_map]
  rfl

theorem schemaIn?_workshop : schemaIn? m (R.workshop F).cache = (R.get? m).map KeptSchema.schema :=
  schemaIn?_kept R.kept

theorem workshop_eq (h : Faithful F config R) :
    R.workshop F = (Workshop.ofConfig F config).withCache (R.workshop F).cache := by
  simp only [workshop, Workshop.ofConfig, Workshop.withCache, h.defaults_eq, h.options_eq]

theorem Faithful.workshop_stocked (h : Faithful F config R) : (R.workshop F).Stocked := by
  intro m s hs
  rw [schemaIn?_workshop] at hs
  obtain ⟨k, hk, rfl⟩ := Option.map_eq_some_iff.mp hs
  obtain ⟨hdirect, hcomplete⟩ := h.stocked m k hk
  rw [workshop_eq h]
  exact ⟨(Workshop.direct_withCache m).trans hdirect, Workshop.complete_withCache.mpr hcomplete⟩

theorem get?_putEntry (kept : List (M × KeptSchema M)) (k : KeptSchema M) (m n : M) :
    ((putEntry m k kept).find? fun e => e.1 = n).map Prod.snd =
      if m = n then some k else (kept.find? fun e => e.1 = n).map Prod.snd := by
  induction kept with
  | nil => by_cases h : m = n <;> simp [putEntry, h]
  | cons e kept ih =>
    by_cases he : e.1 = m
    · by_cases h : m = n
      · simp [putEntry, he, h]
      · simp [putEntry, he, h]
    · simp only [putEntry, he, if_false]
      by_cases hn : e.1 = n
      · have h : m ≠ n := fun h => he (hn.trans h.symm)
        simp [hn, h]
      · simp only [List.find?_cons, hn, decide_false]
        exact ih

theorem get?_set (k : KeptSchema M) (n : M) :
    (R.set k).get? n = if k.schema.model = n then some k else R.get? n :=
  get?_putEntry R.kept k k.schema.model n

theorem schemaIn?_marked (schemas : List (M × Schema M)) (origin : Nat → Origin) :
    ((schemas.mapIdx fun i e => (e.1, (⟨origin i, e.2⟩ : KeptSchema M))).find?
      fun e => e.1 = m).map (fun e => e.2.schema) = schemaIn? m schemas := by
  induction schemas generalizing origin with
  | nil => rfl
  | cons e schemas ih =>
    rw [List.mapIdx_cons]
    by_cases h : e.1 = m
    · simp [schemaIn?, h]
    · have tail := ih fun i => origin (i + 1)
      simp only [schemaIn?] at tail
      simp [schemaIn?, h, tail]

theorem schema_of_get?_keep {schemas : List (M × Schema M)} {k : KeptSchema M}
    (h : (R.keep schemas).get? m = some k) :
    R.get? m = some k ∨ R.get? m = none ∧ schemaIn? m schemas = some k.schema := by
  simp only [keep, get?, List.find?_append] at h ⊢
  cases hk : R.kept.find? fun e => e.1 = m with
  | some e =>
    rw [hk] at h
    exact Or.inl h
  | none =>
    rw [hk, Option.none_or] at h
    refine Or.inr ⟨rfl, ?_⟩
    rw [← schemaIn?_marked schemas fun i => ⟨R.number, R.built + i⟩]
    obtain ⟨e, he, rfl⟩ := Option.map_eq_some_iff.mp h
    rw [he]
    rfl

/-! ### Requests -/

theorem faithful_ofConfig (number : Nat) : Faithful F config (ofConfig number config) :=
  ⟨rfl, rfl, fun _ _ hk => nomatch hk⟩

theorem Faithful.set {k : KeptSchema M} (h : Faithful F config R)
    (hk : (Workshop.ofConfig F config).direct m = .ok k.schema)
    (hm : (Workshop.ofConfig F config).Complete m) : Faithful F config (R.set k) := by
  refine ⟨h.defaults_eq, h.options_eq, fun n l hl => ?_⟩
  rw [get?_set] at hl
  split at hl
  · rename_i hn
    cases hl
    rw [← hn, Workshop.model_of_direct hk]
    exact ⟨hk, hm⟩
  · exact h.stocked n l hl

theorem Faithful.schemaFor (h : Faithful F config R) (m : M) :
    Faithful F config (R.schemaFor F m).state := by
  simp only [Registry.schemaFor]
  cases hk : R.get? m with
  | some k => exact h
  | none =>
    have hcache : schemaIn? m (R.workshop F).cache = none := by rw [schemaIn?_workshop, hk]; rfl
    obtain ⟨⟨st, result⟩, ha, hs⟩ := Workshop.run_settled h.workshop_stocked hcache
    rw [ha]
    cases result with
    | error e => exact h
    | ok s =>
      have hg := hs.2
      refine ⟨h.defaults_eq, h.options_eq, fun n l hl => ?_⟩
      rcases schema_of_get?_keep hl with hl | ⟨hn, hl⟩
      · exact h.stocked n l hl
      · have hknown : (R.workshop F).lookup? st n = some l.schema := by
          simp only [Workshop.lookup?, schemaIn?_workshop, hn, Option.map_none]
          exact hl
        have hcomplete := Workshop.complete_of_knows h.workshop_stocked hg ⟨_, hknown⟩
        have hdirect := hg.fits n _ hknown
        rw [workshop_eq h] at hcomplete hdirect
        exact ⟨(Workshop.direct_withCache n).symm.trans hdirect,
          Workshop.complete_withCache.mp hcomplete⟩

/-- Every reached registry is faithful. -/
theorem Reached.faithful (h : Reached F config R) : Faithful F config R := by
  induction h with
  | fresh number => exact faithful_ofConfig number
  | request _ m ih => exact ih.schemaFor m
  | flush _ ih => exact ⟨ih.defaults_eq, ih.options_eq, fun _ _ hk => nomatch hk⟩
  | set _ _ hk ihR ihS =>
    obtain ⟨hdirect, hcomplete⟩ := ihS.stocked _ _ hk
    exact ihR.set hdirect hcomplete

theorem schemaFor_run (h : Faithful F config R) (m : M) :
    ∃ a, (R.workshop F).run m = some a ∧ (R.schemaFor F m).result = a.result := by
  simp only [Registry.schemaFor]
  cases hk : R.get? m with
  | some k =>
    refine ⟨_, Workshop.run_cached (s := k.schema) ?_, rfl⟩
    rw [schemaIn?_workshop, hk]
    rfl
  | none =>
    obtain ⟨⟨st, result⟩, ha⟩ := Workshop.run_exists h.workshop_stocked m
    rw [ha]
    cases result <;> exact ⟨_, rfl, rfl⟩

theorem Faithful.result_ok (h : Faithful F config R) {s : Schema M}
    (hs : (R.schemaFor F m).result = .ok s) :
    (Workshop.ofConfig F config).direct m = .ok s ∧ (Workshop.ofConfig F config).Complete m := by
  obtain ⟨⟨st, result⟩, ha, hr⟩ := schemaFor_run h m
  obtain ⟨hdirect, hcomplete⟩ := Workshop.run_ok h.workshop_stocked ha (hr.symm.trans hs)
  rw [workshop_eq h] at hdirect hcomplete
  exact ⟨(Workshop.direct_withCache m).symm.trans hdirect, Workshop.complete_withCache.mp hcomplete⟩

theorem Faithful.result_of_complete (h : Faithful F config R)
    (hm : (Workshop.ofConfig F config).Complete m) :
    ∃ s, (R.schemaFor F m).result = .ok s ∧ (Workshop.ofConfig F config).direct m = .ok s := by
  obtain ⟨⟨st, result⟩, ha, hr⟩ := schemaFor_run h m
  cases result with
  | ok s => exact ⟨s, hr, (h.result_ok hr).1⟩
  | error e =>
    have hfails := Workshop.run_error h.workshop_stocked ha rfl
    rw [workshop_eq h, Workshop.complete_withCache] at hfails
    exact absurd hm hfails

/-- The answer of a registry does not depend on its history: it is the answer of an empty registry.
A schema that is answered takes the keys of all targets from their analyses, and a kept target tells
the keys that its analysis tells while it is being built. -/
theorem schemaFor_result_eq_fresh (h : Reached F config R) (number : Nat) (m : M) :
    (R.schemaFor F m).result = ((ofConfig number config).schemaFor F m).result ∧
      (∀ s, (R.schemaFor F m).result = .ok s → (Workshop.ofConfig F config).direct m = .ok s) ∧
      ∀ t k, R.get? t = some k → ∃ a, F.analyze config.schema config.tags t = .ok a ∧
        (KeySource.built k.schema).keys = (KeySource.analysed a).keys := by
  have hR := h.faithful
  have hS : Faithful F config (ofConfig number config) := faithful_ofConfig number
  refine ⟨?_, fun s hs => (hR.result_ok hs).1, fun t k hk => ?_⟩
  · obtain ⟨a, ha, hra⟩ := schemaFor_run hR m
    obtain ⟨b, hb, hrb⟩ := schemaFor_run hS m
    have hover : ((ofConfig number config).workshop F) =
        (R.workshop F).withCache ((ofConfig number config).workshop F).cache := by
      rw [workshop_eq hR]
      rfl
    have stocked' := hS.workshop_stocked
    rw [hover] at hb stocked'
    obtain ⟨a', b', ha', hb', he⟩ := Workshop.run_result_withCache hR.workshop_stocked stocked' m
    cases ha.symm.trans ha'
    cases hb.symm.trans hb'
    rw [hra, hrb, he]
  · obtain ⟨hdirect, -⟩ := hR.stocked t k hk
    obtain ⟨a, rs, ha, -⟩ := Workshop.direct_cases hdirect
    exact ⟨a, ha, Workshop.keys_of_direct hdirect ha⟩

/-! ### Two models that name each other -/

/-- The models of a small library. -/
inductive Shelf where
  | author | book
  deriving DecidableEq, Repr

def shelf : Family Shelf where
  model
    | .author => ⟨"Author", "library::Author", "authors", none,
        [⟨"id", "", .column (.plain (.int .i64))⟩, ⟨"name", "", .column (.plain .text)⟩,
          ⟨"books", "", .collection .book none⟩]⟩
    | .book => ⟨"Book", "library::Book", "books", none,
        [⟨"id", "", .column (.plain (.int .i64))⟩,
          ⟨"author_id", "ll:\"fk:authors\"", .column (.option (.plain (.int .i64)))⟩,
          ⟨"author", "", .reference .author false⟩]⟩
  all := [.author, .book]
  mem_all m := by cases m <;> decide

/-- The registry that got its authors from another one and was then asked for books. -/
def shelfRegistry : Registry Shelf :=
  let other : Registry Shelf := ((ofConfig 1 .standard).schemaFor shelf .book).state
  match other.get? .author with
  | some k => (((ofConfig 0 .standard : Registry Shelf).set k).schemaFor shelf .book).state
  | none => ofConfig 0 .standard

theorem reached_shelfRegistry : Reached shelf .standard shelfRegistry := by
  have hother : Reached shelf .standard ((ofConfig 1 .standard).schemaFor shelf Shelf.book).state :=
    (Reached.fresh 1).request Shelf.book
  simp only [shelfRegistry]
  split
  · rename_i k hk
    exact ((Reached.fresh 0).set hother hk).request Shelf.book
  · exact Reached.fresh 0

/-- The registry keeps both models, one of them from elsewhere. -/
theorem schemaFor_shelfRegistry_eq_fresh :
    shelfRegistry.size = 2 ∧ (shelfRegistry.schemaFor shelf .author).result =
      ((ofConfig 0 .standard).schemaFor shelf .author).result :=
  ⟨by decide +kernel, (schemaFor_result_eq_fresh reached_shelfRegistry 0 .author).1⟩

theorem ok_get {α : Type} {x : Except Error α} (h : x.toOption.isSome) :
    x = .ok (x.toOption.get h) := by
  cases x with
  | error e => cases h
  | ok a => rfl

theorem exists_ok {α : Type} {x : Except Error α} (h : x.toOption.isSome) : ∃ a, x = .ok a :=
  ⟨_, ok_get h⟩

theorem isSome_shelf (m : Shelf) :
    ((ofConfig 0 .standard : Registry Shelf).schemaFor shelf m).result.toOption.isSome := by
  cases m <;> decide +kernel

def shelfSchema (m : Shelf) : Schema Shelf := Option.get _ (isSome_shelf m)

theorem schemaFor_shelf (m : Shelf) :
    ((ofConfig 0 .standard : Registry Shelf).schemaFor shelf m).result = .ok (shelfSchema m) :=
  ok_get (isSome_shelf m)

end Registry

end RecordGraph
