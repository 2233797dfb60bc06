import RecordGraph.Proofs.Schema.History
import RecordGraph.Proofs.Schema.Staging

/-!
# What a registry keeps is closed

A registry that was only asked for schemas and flushed keeps, with every model, all models that it
leads to. A request that fails keeps nothing, and one that goes well adds exactly the models that
can be reached and were not kept before. So the target of a kept relation never has to be built.
-/

open Relation (ReflTransGen)

namespace RecordGraph

variable {M : Type}

/-! ### The models that a model names -/

def FieldType.models : FieldType M → List M
  | .column _ => []
  | .reference target _ => [target]
  | .collection target through => target :: through.toList

def FieldDecl.isExcluded (options : TagOptions) (d : FieldDecl M) : Bool :=
  ((Tags.ofAnnotation options d.annotation).value? options.name Tags.excludedKey).isSome

namespace Family

/-- One model names the other one in an association that is not excluded. -/
def Names (F : Family M) (options : TagOptions) (m n : M) : Prop :=
  ∃ d ∈ (F.model m).fields, d.isExcluded options = false ∧ n ∈ d.type.models

variable {F : Family M} {defaults : KeyDefaults} {options : TagOptions} {m : M}

theorem associationRole_cases {i : Nat} {d : FieldDecl M} {t : M} {c : Bool} {join : Option M}
    {r : FieldRole M} (h : F.associationRole options m i d
      (Tags.ofAnnotation options d.annotation) t c join = .ok r) :
    (d.isExcluded options = true ∧ r = .dropped) ∨
    (d.isExcluded options = false ∧ ∃ hint, r = .association ⟨d.name, i, t, c, join, hint⟩) := by
  simp only [associationRole] at h
  split at h
  · rename_i hexcluded
    cases h
    exact Or.inl ⟨hexcluded, rfl⟩
  · rename_i hexcluded
    split at h
    · cases h
    · cases h
      exact Or.inr ⟨by simpa [FieldDecl.isExcluded] using hexcluded, _, rfl⟩

theorem models_of_role {i : Nat} {d : FieldDecl M} {r : FieldRole M}
    (h : F.role defaults options m i d = .ok r) (n : M) :
    (d.isExcluded options = false ∧ n ∈ d.type.models) ↔
      ∃ a, r.association? = some a ∧ (a.target = n ∨ a.through = some n) := by
  have dropped : (FieldRole.dropped : FieldRole M).association? = none := rfl
  simp only [role] at h
  split at h
  case h_1 T hT =>
    rw [hT]
    have hnone : r.association? = none := by
      split at h
      · cases h
        rfl
      · split at h
        · cases h
        · cases h
          rfl
    simp [hnone, FieldType.models]
  case h_2 t boxed hT =>
    rw [hT]
    rcases associationRole_cases h with ⟨hexcluded, rfl⟩ | ⟨hexcluded, hint, rfl⟩
    · simp [dropped, hexcluded]
    · simp [FieldRole.association?, hexcluded, FieldType.models, eq_comm]
  case h_3 t join hT =>
    rw [hT]
    rcases associationRole_cases h with ⟨hexcluded, rfl⟩ | ⟨hexcluded, hint, rfl⟩
    · simp [dropped, hexcluded]
    · simp [FieldRole.association?, hexcluded, FieldType.models, eq_comm]

theorem exists_role_of_mem {ds : List (FieldDecl M)} {first : Option String} {i : Nat}
    {rs : List (FieldRole M)} (h : F.roles defaults options m first i ds = .ok rs)
    {d : FieldDecl M} (hd : d ∈ ds) : ∃ j, ∃ r ∈ rs, F.role defaults options m j d = .ok r := by
  induction ds generalizing first i rs with
  | nil => cases hd
  | cons e ds ih =>
    obtain ⟨r, rest, first', hr, hrest, rfl⟩ := roles_cons h
    rcases List.mem_cons.mp hd with rfl | hd
    · exact ⟨i, r, List.mem_cons_self, hr⟩
    · obtain ⟨j, q, hq, hrole⟩ := ih hrest hd
      exact ⟨j, q, List.mem_cons_of_mem r hq, hrole⟩

end Family

namespace Workshop

variable {W : Workshop M} {m n : M}

theorem names_of_leads (h : W.Leads m n) : W.family.Names W.options m n := by
  obtain ⟨a, ha, x, hx, hn⟩ := h
  obtain ⟨roles, -, -, hroles, -, -, -, -, -, -, hassociations⟩ := Family.analyze_cases ha
  rw [hassociations] at hx
  obtain ⟨r, hr, hxr⟩ := List.mem_filterMap.mp hx
  obtain ⟨j, d, hd, hrole⟩ := Family.role_of_mem_roles hroles hr
  exact ⟨d, List.mem_of_getElem? hd, (Family.models_of_role hrole n).mpr ⟨x, hxr, hn⟩⟩

theorem leads_of_names {a : Analysis M} (ha : W.analyze m = .ok a)
    (h : W.family.Names W.options m n) : W.Leads m n := by
  obtain ⟨d, hd, hn⟩ := h
  obtain ⟨roles, -, -, hroles, -, -, -, -, -, -, hassociations⟩ := Family.analyze_cases ha
  obtain ⟨j, r, hr, hrole⟩ := Family.exists_role_of_mem hroles hd
  obtain ⟨x, hx, hn⟩ := (Family.models_of_role hrole n).mp hn
  refine ⟨a, ha, x, ?_, hn⟩
  rw [hassociations]
  exact List.mem_filterMap.mpr ⟨r, hr, hx⟩

/-- From a complete model, names lead to the same models as analyses do. -/
theorem reaches_iff (hm : W.Complete m) :
    ReflTransGen (W.family.Names W.options) m n ↔ ReflTransGen W.Leads m n := by
  constructor
  · intro h
    induction h using ReflTransGen.head_induction_on with
    | refl => exact ReflTransGen.refl
    | head hnames _ ih =>
      obtain ⟨s, hs⟩ := hm.direct
      obtain ⟨a, rs, ha, -⟩ := direct_cases hs
      have hleads := leads_of_names ha hnames
      exact ReflTransGen.head hleads (ih (hm.of_leads hleads))
  · intro h
    exact ReflTransGen.mono (fun _ _ hleads => names_of_leads hleads) _ _ h

theorem leads_join {s : Schema M} (h : W.direct m = .ok s) {r : Relation M}
    (hr : r ∈ s.relations) (hkind : r.kind = .manyToMany) :
    ∃ t, r.through = some t ∧ W.Leads m t.model := by
  obtain ⟨a, x, target, join, ha, hx, -, hjoin, hresolve⟩ := relation_cases h hr
  obtain ⟨-, hk, -⟩ | ⟨-, hk, -⟩ | ⟨-, hk, -⟩ | ⟨-, -, -, -, keys, hkeys, k, l, -, hthrough⟩ :=
    Family.linkOf?_cases (Family.resolve_cases hresolve).1
  · cases hkind.symm.trans hk
  · cases hkind.symm.trans hk
  · cases hkind.symm.trans hk
  · obtain ⟨b, rfl, rfl⟩ := Option.map_eq_some_iff.mp hkeys
    obtain ⟨n, hn, hb⟩ := joinAnalysis_some hjoin
    refine ⟨_, hthrough, a, ha, x, hx, Or.inr ?_⟩
    exact hn.trans (congrArg some (Family.analyze_model hb).symm)

end Workshop

/-! ### Requests -/

namespace Registry

variable [DecidableEq M] {F : Family M} {config : Config} {R : Registry M} {m n : M}

/-- Registries of a configuration after any requests, failing ones too, and flushes. -/
inductive Requested (F : Family M) (config : Config) : Registry M → Prop where
  | fresh (number : Nat) : Requested F config (ofConfig number config)
  | request {R : Registry M} (h : Requested F config R) (m : M) :
      Requested F config (R.schemaFor F m).state
  | flush {R : Registry M} (h : Requested F config R) : Requested F config R.flush

theorem Requested.reached (h : Requested F config R) : Reached F config R := by
  induction h with
  | fresh number => exact .fresh number
  | request _ m ih => exact ih.request m
  | flush _ ih => exact ih.flush

/-- The models with a kept schema. -/
def models (R : Registry M) : List M := R.kept.map Prod.fst

omit [DecidableEq M] in
theorem models_keep (schemas : List (M × Schema M)) :
    (R.keep schemas).models = R.models ++ schemas.map Prod.fst := by
  have hmarked : ∀ origin : Nat → Origin,
      (schemas.mapIdx fun i e => (e.1, (⟨origin i, e.2⟩ : KeptSchema M))).map Prod.fst =
        schemas.map Prod.fst := by
    intro origin
    refine List.ext_getElem? fun i => ?_
    simp [Option.map_map, Function.comp_def]
  simp only [models, keep, List.map_append, hmarked]

theorem get?_eq_none : R.get? m = none ↔ m ∉ R.models := Workshop.find?_eq_none_iff

theorem exists_get? (h : m ∈ R.models) : ∃ k, R.get? m = some k := by
  cases hk : R.get? m with
  | some k => exact ⟨k, rfl⟩
  | none => exact absurd h (get?_eq_none.mp hk)

theorem mem_models_of_get? {k : KeptSchema M} (h : R.get? m = some k) : m ∈ R.models := by
  by_contra hm
  rw [get?_eq_none.mpr hm] at h
  cases h

theorem knows_iff {st : Staging M} :
    (R.workshop F).Knows st m ↔ m ∈ R.models ∨ m ∈ st.schemas.map Prod.fst := by
  have hcache : schemaIn? m (R.workshop F).cache = none ↔ m ∉ R.models := by
    rw [schemaIn?_workshop, Option.map_eq_none_iff, get?_eq_none]
  have hknows : (R.workshop F).Knows st m ↔ ¬ (R.workshop F).lookup? st m = none := by
    simp only [Workshop.Knows, ← Option.ne_none_iff_exists']
  rw [hknows, Workshop.lookup?_eq_none, hcache, Workshop.schemaIn?_eq_none]
  tauto

theorem leads_workshop (h : Faithful F config R) :
    (R.workshop F).Leads m n ↔ (Workshop.ofConfig F config).Leads m n := by
  rw [workshop_eq h]
  rfl

/-- A request that goes well finds its schema kept, or keeps what its build staged. -/
theorem schemaFor_ok_cases (h : Faithful F config R) {s : Schema M}
    (hs : (R.schemaFor F m).result = .ok s) :
    (m ∈ R.models ∧ (R.schemaFor F m).state = R) ∨
    ∃ st, (R.schemaFor F m).state = R.keep st.schemas ∧ (R.workshop F).Knows st m ∧
      (R.workshop F).Grew [] m .empty st ∧ (R.workshop F).Single [] st := by
  simp only [schemaFor] at hs ⊢
  cases hk : R.get? m with
  | some k => exact Or.inl ⟨mem_models_of_get? hk, rfl⟩
  | none =>
    have hcache : schemaIn? m (R.workshop F).cache = none := by rw [schemaIn?_workshop, hk]; rfl
    obtain ⟨⟨st, result⟩, ha, hsettled⟩ := Workshop.run_settled h.workshop_stocked hcache
    have hsingle := Workshop.build_maintained Workshop.maintains_single _ [] .empty m
      List.not_mem_nil ((Workshop.lookup?_empty m).trans hcache) Workshop.single_empty _ ha
    simp only [hk, ha] at hs ⊢
    cases result with
    | error e => cases hs
    | ok t => exact Or.inr ⟨st, rfl, ⟨t, hsettled.1.2⟩, hsettled.2, hsingle⟩

theorem schemaFor_error {e : Error} (he : (R.schemaFor F m).result = .error e) :
    (R.schemaFor F m).state = R := by
  simp only [schemaFor] at he ⊢
  split at he
  · cases he
  · split at he
    · cases he
    · rfl
    · rfl

/-! ### Closed registries -/

/-- With every model, the registry keeps all models that it leads to. -/
def Closed (F : Family M) (config : Config) (R : Registry M) : Prop :=
  ∀ m ∈ R.models, ∀ n, (Workshop.ofConfig F config).Leads m n → n ∈ R.models

omit [DecidableEq M] in
theorem Closed.mem_of_reaches (h : Closed F config R) (hm : m ∈ R.models)
    (hn : ReflTransGen (Workshop.ofConfig F config).Leads m n) : n ∈ R.models := by
  induction hn with
  | refl => exact hm
  | tail _ hleads ih => exact h _ ih _ hleads

theorem Closed.schemaFor (h : Closed F config R) (hR : Faithful F config R) (m : M) :
    Closed F config (R.schemaFor F m).state := by
  cases hs : (R.schemaFor F m).result with
  | error e =>
    rw [schemaFor_error hs]
    exact h
  | ok s =>
    rcases schemaFor_ok_cases hR hs with ⟨-, hstate⟩ | ⟨st, hstate, -, hgrew, -⟩
    · rw [hstate]
      exact h
    · rw [hstate]
      intro k hk n hn
      rw [models_keep, List.mem_append] at hk ⊢
      have hknown : (R.workshop F).Knows st k := knows_iff.mpr hk
      rcases hgrew.closed k hknown with hbefore | hnew
      · have hkept : k ∈ R.models := (knows_iff.mp hbefore).resolve_right List.not_mem_nil
        exact Or.inl (h k hkept n hn)
      · have hnext := hnew n ((leads_workshop hR).mpr hn)
        exact knows_iff.mp (hnext.resolve_right List.not_mem_nil)

theorem Requested.closed (h : Requested F config R) : Closed F config R := by
  induction h with
  | fresh number => exact fun _ hm => nomatch hm
  | request h m ih => exact ih.schemaFor h.reached.faithful m
  | flush _ _ => exact fun _ hm => nomatch hm

theorem schemaFor_added (h : Closed F config R) (hR : Faithful F config R) {s : Schema M}
    (hs : (R.schemaFor F m).result = .ok s) :
    ∃ added, (R.schemaFor F m).state.kept = R.kept ++ added ∧ (added.map Prod.fst).Nodup ∧
      ∀ n, n ∈ added.map Prod.fst ↔
        n ∉ R.models ∧ ReflTransGen (Workshop.ofConfig F config).Leads m n := by
  rcases schemaFor_ok_cases hR hs with ⟨hm, hstate⟩ | ⟨st, hstate, hknown, hgrew, hsingle⟩
  · refine ⟨[], by rw [hstate, List.append_nil], List.nodup_nil, fun n => ?_⟩
    constructor
    · intro hn
      cases hn
    · rintro ⟨hn, hreaches⟩
      exact absurd (h.mem_of_reaches hm hreaches) hn
  · have hclosed := h.schemaFor hR m
    obtain ⟨added, hadded⟩ : ∃ added, (R.keep st.schemas).kept = R.kept ++ added := ⟨_, rfl⟩
    have hmodels : added.map Prod.fst = st.schemas.map Prod.fst := by
      have hkept := models_keep (R := R) st.schemas
      rw [models, hadded, List.map_append] at hkept
      exact List.append_cancel_left hkept
    rw [hstate] at hclosed
    have hm : m ∈ (R.keep st.schemas).models := by
      rw [models_keep, List.mem_append]
      exact knows_iff.mp hknown
    refine ⟨added, by rw [hstate, hadded], by rw [hmodels]; exact hsingle.once, fun n => ?_⟩
    rw [hmodels]
    constructor
    · intro hn
      have huncached := (hsingle.staged n hn).1
      rw [schemaIn?_workshop, Option.map_eq_none_iff, get?_eq_none] at huncached
      refine ⟨huncached, ?_⟩
      rcases hgrew.reached n (knows_iff.mpr (Or.inr hn)) with hbefore | hreaches
      · exact absurd ((knows_iff.mp hbefore).resolve_right List.not_mem_nil) huncached
      · exact ReflTransGen.mono (fun _ _ hleads => (leads_workshop hR).mp hleads) _ _ hreaches
    · rintro ⟨hn, hreaches⟩
      have hkept := hclosed.mem_of_reaches hm hreaches
      rw [models_keep, List.mem_append] at hkept
      exact hkept.resolve_left hn

/-- With every kept schema the registry keeps the targets and the join models of its relations, so
a target is always answered as it is kept. A request that fails changes nothing. One that goes well
leaves what was kept and adds, each once, the models that were not kept and that its model reaches
through associations that are not excluded. -/
theorem requested_keeps_closed (h : Requested F config R) :
    (∀ m k, R.get? m = some k → ∀ r ∈ k.schema.relations,
      (∃ l, R.get? r.target = some l ∧ R.schemaFor F r.target = .done R l.schema) ∧
      (r.kind = .manyToMany → ∃ t l, r.through = some t ∧ R.get? t.model = some l)) ∧
    (∀ m e, (R.schemaFor F m).result = .error e → (R.schemaFor F m).state = R) ∧
    ∀ m s, (R.schemaFor F m).result = .ok s → ∃ added,
      (R.schemaFor F m).state.kept = R.kept ++ added ∧ (added.map Prod.fst).Nodup ∧
      ∀ n, n ∈ added.map Prod.fst ↔
        R.get? n = none ∧ ReflTransGen (F.Names config.tags) m n := by
  have hR := h.reached.faithful
  refine ⟨fun m k hk r hr => ?_, fun m e he => schemaFor_error he, fun m s hs => ?_⟩
  · have hdirect := (hR.stocked m k hk).1
    have hm := mem_models_of_get? hk
    constructor
    · obtain ⟨l, hl⟩ := exists_get? (h.closed m hm _ (Workshop.leads_target hdirect hr))
      exact ⟨l, hl, by simp only [schemaFor, hl]⟩
    · intro hkind
      obtain ⟨t, ht, hleads⟩ := Workshop.leads_join hdirect hr hkind
      obtain ⟨l, hl⟩ := exists_get? (h.closed m hm _ hleads)
      exact ⟨t, l, ht, hl⟩
  · obtain ⟨added, hkept, honce, hadded⟩ := schemaFor_added h.closed hR hs
    have hcomplete := (hR.result_ok hs).2
    refine ⟨added, hkept, honce, fun n => ?_⟩
    rw [hadded, get?_eq_none]
    exact and_congr_right fun _ => (Workshop.reaches_iff hcomplete).symm

/-- A registry that was asked for authors, flushed and asked for books. -/
def askedRegistry : Registry Shelf :=
  (((ofConfig 0 .standard : Registry Shelf).schemaFor shelf .author).state.flush.schemaFor shelf
    .book).state

theorem requested_askedRegistry : Requested shelf .standard askedRegistry :=
  (((Requested.fresh 0).request Shelf.author).flush).request Shelf.book

/-- The registry keeps authors and books, and the relations of both lead to kept schemas. -/
theorem askedRegistry_keeps_closed : askedRegistry.models = [.author, .book] ∧
    ∀ m k, askedRegistry.get? m = some k → ∀ r ∈ k.schema.relations,
      ∃ l, askedRegistry.get? r.target = some l :=
  ⟨by decide +kernel, fun m k hk r hr => by
    obtain ⟨⟨l, hl, -⟩, -⟩ := (requested_keeps_closed requested_askedRegistry).1 m k hk r hr
    exact ⟨l, hl⟩⟩

end Registry

end RecordGraph
