import Mathlib.Logic.Relation
import RecordGraph.Proofs.Schema.Declared
import RecordGraph.Schema.Build

/-!
# The schema of a model by itself

A schema only depends on the analyses of its model and of the models that its associations name.
`direct` reads it off from these, with no order of building and no cache. A model is complete if
every model that it leads to has a direct schema. The relations of a direct schema are grounded in
the declarations: the association, the source and the reference are declared fields of their kinds.
-/

namespace RecordGraph

variable {M : Type}

/-! ### Inference of a link -/

namespace Family

variable {F : Family M}

theorem mem_of_linkTo? {source : ModelKeys M} {target : M} {hint : Option String} {k : ForeignKey}
    (h : F.linkTo? source target hint = some k) : k ∈ source.foreignKeys :=
  List.mem_of_find?_eq_some h

theorem pointsAt_of_linkTo? {source : ModelKeys M} {target : M} {hint : Option String}
    {k : ForeignKey} (h : F.linkTo? source target hint = some k) :
    F.pointsAt k target hint = true := by
  simpa using List.find?_some h

/-- The keys of a join model by which it links two models: the first one that refers to the owner,
and the first one with another name that refers to the target. -/
def joinKeys? (F : Family M) (join : ModelKeys M) (owner target : M) (hint : Option String) :
    Option (ForeignKey × ForeignKey) :=
  match F.linkTo? join owner hint with
  | none => none
  | some k =>
    (join.foreignKeys.find? fun l => F.pointsAt l target none && l.field.name ≠ k.field.name).map
      fun l => (k, l)

theorem joinKeys?_cases {join : ModelKeys M} {owner target : M} {hint : Option String}
    {k l : ForeignKey} (h : F.joinKeys? join owner target hint = some (k, l)) :
    (k ∈ join.foreignKeys ∧ F.pointsAt k owner hint = true) ∧
      (l ∈ join.foreignKeys ∧ F.pointsAt l target none = true) ∧ l.field.name ≠ k.field.name := by
  simp only [joinKeys?] at h
  split at h
  · cases h
  · rename_i k' hk
    obtain ⟨l', hl, heq⟩ := Option.map_eq_some_iff.mp h
    cases heq
    have hpoints := List.find?_some hl
    simp only [Bool.and_eq_true, decide_eq_true_eq] at hpoints
    exact ⟨⟨mem_of_linkTo? hk, pointsAt_of_linkTo? hk⟩, ⟨List.mem_of_find?_eq_some hl, hpoints.1⟩,
      hpoints.2⟩

theorem linkOf?_cases {owner target : ModelKeys M} {join : Option (ModelKeys M)} {a : Association M}
    {kind : RelationKind} {source reference : KeyRef} {through : Option (Through M)}
    (h : F.linkOf? owner a target join = some (kind, source, reference, through)) :
    (a.isCollection = false ∧ kind = .manyToOne ∧ through = none ∧
      ∃ k ∈ owner.foreignKeys, source = .ofForeign k ∧ reference = .ofPrimary target.primaryKey) ∨
    (a.isCollection = false ∧ kind = .oneToOne ∧ through = none ∧
      ∃ k ∈ target.foreignKeys, source = .ofPrimary owner.primaryKey ∧ reference = .ofForeign k) ∨
    (a.isCollection = true ∧ kind = .oneToMany ∧ through = none ∧
      ∃ k ∈ target.foreignKeys, source = .ofPrimary owner.primaryKey ∧ reference = .ofForeign k) ∨
    (a.isCollection = true ∧ kind = .manyToMany ∧ source = .ofPrimary owner.primaryKey ∧
      reference = .ofPrimary target.primaryKey ∧
      ∃ j, join = some j ∧ ∃ k l, F.joinKeys? j owner.model target.model a.hint = some (k, l) ∧
        through = some ⟨j.model, (F.model j.model).table, k.field.column, l.field.column⟩) := by
  simp only [linkOf?] at h
  split at h
  · rename_i hcollection
    split at h
    · rename_i j
      split at h
      · cases h
      · rename_i k hk
        split at h
        · cases h
        · rename_i l hl
          have hkeys : F.joinKeys? j owner.model target.model a.hint = some (k, l) := by
            simp only [joinKeys?, hk, hl, Option.map_some]
          cases h
          exact Or.inr (Or.inr (Or.inr ⟨hcollection, rfl, rfl, rfl, j, rfl, k, l, hkeys, rfl⟩))
    · split at h
      · rename_i k hk
        cases h
        exact Or.inr (Or.inr (Or.inl ⟨hcollection, rfl, rfl, k, mem_of_linkTo? hk, rfl, rfl⟩))
      · cases h
  · rename_i hsingle
    have hsingle : a.isCollection = false := by simpa using hsingle
    split at h
    · rename_i k hk
      cases h
      exact Or.inl ⟨hsingle, rfl, rfl, k, mem_of_linkTo? hk, rfl, rfl⟩
    · split at h
      · rename_i k hk
        cases h
        exact Or.inr (Or.inl ⟨hsingle, rfl, rfl, k, mem_of_linkTo? hk, rfl, rfl⟩)
      · cases h

theorem resolve_cases {owner target : ModelKeys M} {join : Option (ModelKeys M)}
    {a : Association M} {r : Relation M} (h : F.resolve owner a target join = .ok r) :
    F.linkOf? owner a target join = some (r.kind, r.source, r.reference, r.through) ∧
      r.source.keyType = r.reference.keyType ∧ r.name = a.name ∧ r.index = a.index ∧
      r.owner = owner.model ∧ r.target = target.model := by
  simp only [resolve] at h
  split at h
  · cases h
  · rename_i kind source reference through hlink
    split at h
    · rename_i hkeys
      cases h
      exact ⟨hlink, hkeys, rfl, rfl, rfl, rfl⟩
    · cases h

theorem isToOne_of_resolve {owner target : ModelKeys M} {join : Option (ModelKeys M)}
    {a : Association M} {r : Relation M} (h : F.resolve owner a target join = .ok r) :
    r.kind.isToOne = !a.isCollection := by
  have hcases := linkOf?_cases (resolve_cases h).1
  obtain ⟨hc, hk, -⟩ | ⟨hc, hk, -⟩ | ⟨hc, hk, -⟩ | ⟨hc, hk, -⟩ := hcases <;> rw [hc, hk] <;> rfl

end Family

/-- The column is the primary key of the model or one of its foreign keys. -/
def ModelKeys.Has (k : ModelKeys M) (c : KeyRef) : Prop :=
  c = .ofPrimary k.primaryKey ∨ ∃ f ∈ k.foreignKeys, c = .ofForeign f

namespace Family

variable {F : Family M}

theorem has_of_resolve {owner target : ModelKeys M} {join : Option (ModelKeys M)}
    {a : Association M} {r : Relation M} (h : F.resolve owner a target join = .ok r) :
    owner.Has r.source ∧ target.Has r.reference := by
  obtain ⟨-, -, -, k, hk, hs, hr⟩ | ⟨-, -, -, k, hk, hs, hr⟩ | ⟨-, -, -, k, hk, hs, hr⟩ |
    ⟨-, -, hs, hr, -⟩ := linkOf?_cases (resolve_cases h).1
  · exact ⟨Or.inr ⟨k, hk, hs⟩, Or.inl hr⟩
  · exact ⟨Or.inl hs, Or.inr ⟨k, hk, hr⟩⟩
  · exact ⟨Or.inl hs, Or.inr ⟨k, hk, hr⟩⟩
  · exact ⟨Or.inl hs, Or.inl hr⟩

theorem mapped_of_has {defaults : KeyDefaults} {options : TagOptions} {m : M} {a : Analysis M}
    (h : F.analyze defaults options m = .ok a) {c : KeyRef} (hc : a.keys.Has c) :
    ∃ f ∈ a.fields, f.isExcluded = false ∧ f.name = c.field ∧ f.column = c.column ∧
      KeyType.ofKind? f.kind = some c.keyType := by
  rcases hc with rfl | ⟨k, hk, rfl⟩
  · obtain ⟨hmem, hmapped⟩ := primaryKey_mem h
    exact ⟨a.primaryKey.field, hmem, hmapped, rfl, rfl, kind_of_primaryKey h⟩
  · obtain ⟨hmem, hmapped⟩ := foreignKey_mem h hk
    exact ⟨k.field, hmem, hmapped, rfl, rfl, kind_of_foreignKey h hk⟩

/-- The relation joins declared fields: an association of its kind to the target, a column of the
owner and a column of the target. -/
structure Grounded (F : Family M) (r : Relation M) : Prop where
  association : ∃ d, (F.model r.owner).fields[r.index]? = some d ∧ d.name = r.name ∧
    (r.kind.isToOne = true → ∃ boxed, d.type = .reference r.target boxed) ∧
    (r.kind.isToOne = false → ∃ join, d.type = .collection r.target join)
  source : ∃ d ∈ (F.model r.owner).fields, d.name = r.source.field ∧ ∃ T, d.type = .column T
  reference : ∃ d ∈ (F.model r.target).fields, d.name = r.reference.field ∧ ∃ T, d.type = .column T

end Family

/-! ### Direct schemas -/

namespace Workshop

section

variable (W : Workshop M)

/-- The analysis of a join model, where there is one. -/
def joinAnalysis : Option M → Except Error (Option (Analysis M))
  | none => .ok none
  | some join =>
    match W.analyze join with
    | .error e => .error e
    | .ok a => .ok (some a)

/-- The relation of an association, with all keys taken from analyses. -/
def linkFrom (owner : ModelKeys M) (a : Association M) : Except Error (Relation M) :=
  match W.analyze a.target with
  | .error e => .error e
  | .ok target =>
    match W.joinAnalysis a.through with
    | .error e => .error e
    | .ok join => W.family.resolve owner a target.keys (join.map Analysis.keys)

/-- The relations of associations, in order. -/
def linksFrom (owner : ModelKeys M) : List (Association M) → Except Error (List (Relation M))
  | [] => .ok []
  | a :: rest =>
    match W.linkFrom owner a with
    | .error e => .error e
    | .ok r =>
      match linksFrom owner rest with
      | .error e => .error e
      | .ok rs => .ok (r :: rs)

/-- The schema of a model, with all keys taken from analyses. -/
def direct (m : M) : Except Error (Schema M) :=
  match W.analyze m with
  | .error e => .error e
  | .ok a =>
    match W.linksFrom a.keys a.associations with
    | .error e => .error e
    | .ok relations => .ok (Schema.ofAnalysis W.family a relations)

/-- One model names the other one in an association, as its target or its join model. -/
def Leads (m n : M) : Prop :=
  ∃ a, W.analyze m = .ok a ∧ ∃ x ∈ a.associations, x.target = n ∨ x.through = some n

/-- Every model that can be reached has a direct schema. -/
def Complete (m : M) : Prop :=
  ∀ n, Relation.ReflTransGen W.Leads m n → ∃ s, W.direct n = .ok s

end

variable {W : Workshop M}

theorem Complete.direct {m : M} (h : W.Complete m) : ∃ s, W.direct m = .ok s :=
  h m Relation.ReflTransGen.refl

theorem Complete.of_leads {m n : M} (h : W.Complete m) (hn : W.Leads m n) : W.Complete n :=
  fun k hk => h k (Relation.ReflTransGen.head hn hk)

theorem Complete.of_reaches {m n : M} (h : W.Complete m)
    (hn : Relation.ReflTransGen W.Leads m n) : W.Complete n :=
  fun k hk => h k (hn.trans hk)

theorem direct_cases {m : M} {s : Schema M} (h : W.direct m = .ok s) :
    ∃ a rs, W.analyze m = .ok a ∧ W.linksFrom a.keys a.associations = .ok rs ∧
      s = Schema.ofAnalysis W.family a rs := by
  simp only [Workshop.direct] at h
  split at h
  · cases h
  · rename_i a ha
    split at h
    · cases h
    · rename_i rs hrs
      cases h
      exact ⟨a, rs, ha, hrs, rfl⟩

theorem direct_of_linksFrom {m : M} {a : Analysis M} {rs : List (Relation M)}
    (ha : W.analyze m = .ok a) (h : W.linksFrom a.keys a.associations = .ok rs) :
    W.direct m = .ok (Schema.ofAnalysis W.family a rs) := by
  simp only [Workshop.direct, ha, h]

theorem model_of_direct {m : M} {s : Schema M} (h : W.direct m = .ok s) : s.model = m := by
  obtain ⟨a, rs, ha, -, rfl⟩ := direct_cases h
  exact Family.analyze_model ha

theorem direct_model {m : M} {s : Schema M} (h : W.direct m = .ok s) : W.direct s.model = .ok s :=
  (model_of_direct h).symm ▸ h

/-- A built schema and an analysis of one model tell the same keys. -/
theorem keys_of_direct {m : M} {s : Schema M} {a : Analysis M} (h : W.direct m = .ok s)
    (ha : W.analyze m = .ok a) : s.keys = a.keys := by
  obtain ⟨b, rs, hb, -, rfl⟩ := direct_cases h
  cases hb.symm.trans ha
  rfl

theorem linkFrom_cases {owner : ModelKeys M} {a : Association M} {r : Relation M}
    (h : W.linkFrom owner a = .ok r) :
    ∃ target join, W.analyze a.target = .ok target ∧ W.joinAnalysis a.through = .ok join ∧
      W.family.resolve owner a target.keys (join.map Analysis.keys) = .ok r := by
  simp only [linkFrom] at h
  split at h
  · cases h
  · rename_i target htarget
    split at h
    · cases h
    · rename_i join hjoin
      exact ⟨target, join, htarget, hjoin, h⟩

theorem linkFrom_through {owner : ModelKeys M} {a : Association M} {target join : Analysis M}
    {n : M} (htarget : W.analyze a.target = .ok target) (hn : a.through = some n)
    (hjoin : W.analyze n = .ok join) :
    W.linkFrom owner a = W.family.resolve owner a target.keys (some join.keys) := by
  simp only [linkFrom, htarget, hn, joinAnalysis, hjoin, Option.map_some]

theorem joinAnalysis_some {through : Option M} {b : Analysis M}
    (h : W.joinAnalysis through = .ok (some b)) : ∃ n, through = some n ∧ W.analyze n = .ok b := by
  cases through with
  | none => cases h
  | some n =>
    simp only [joinAnalysis] at h
    split at h
    · cases h
    · rename_i c hc
      cases h
      exact ⟨n, rfl, hc⟩

theorem mem_linksFrom {owner : ModelKeys M} {as : List (Association M)} {rs : List (Relation M)}
    (h : W.linksFrom owner as = .ok rs) {r : Relation M} (hr : r ∈ rs) :
    ∃ a ∈ as, W.linkFrom owner a = .ok r := by
  induction as generalizing rs with
  | nil =>
    simp only [linksFrom, Except.ok.injEq] at h
    subst h
    cases hr
  | cons a as ih =>
    simp only [linksFrom] at h
    split at h
    · cases h
    · rename_i q hq
      split at h
      · cases h
      · rename_i rest hrest
        cases h
        rcases List.mem_cons.mp hr with rfl | hr
        · exact ⟨a, List.mem_cons_self, hq⟩
        · obtain ⟨b, hb, hbr⟩ := ih hrest hr
          exact ⟨b, List.mem_cons_of_mem a hb, hbr⟩

theorem not_complete_of_analyze {m : M} {e : Error} (h : W.analyze m = .error e) :
    ¬ W.Complete m := by
  intro hm
  obtain ⟨s, hs⟩ := hm.direct
  obtain ⟨a, rs, ha, -⟩ := direct_cases hs
  cases h.symm.trans ha

theorem linkFrom_of_linksFrom {owner : ModelKeys M} {as : List (Association M)}
    {rs : List (Relation M)} (h : W.linksFrom owner as = .ok rs) {x : Association M}
    (hx : x ∈ as) : ∃ r, W.linkFrom owner x = .ok r := by
  induction as generalizing rs with
  | nil => cases hx
  | cons a as ih =>
    simp only [linksFrom] at h
    split at h
    · cases h
    · rename_i r hr
      split at h
      · cases h
      · rename_i rest hrest
        rcases List.mem_cons.mp hx with rfl | hx
        · exact ⟨r, hr⟩
        · exact ih hrest hx

theorem not_complete_of_linkFrom {m : M} {a : Analysis M} (ha : W.analyze m = .ok a)
    {x : Association M} (hx : x ∈ a.associations) {e : Error}
    (h : W.linkFrom a.keys x = .error e) : ¬ W.Complete m := by
  intro hm
  obtain ⟨s, hs⟩ := hm.direct
  obtain ⟨b, rs, hb, hrs, -⟩ := direct_cases hs
  cases ha.symm.trans hb
  obtain ⟨r, hr⟩ := linkFrom_of_linksFrom hrs hx
  cases h.symm.trans hr

end Workshop

/-! ### Relations of a direct schema -/

namespace Schema

theorem mem_insertRelation {r q : Relation M} {rs : List (Relation M)}
    (h : q ∈ insertRelation r rs) : q = r ∨ q ∈ rs := by
  induction rs with
  | nil => exact Or.inl (List.mem_singleton.mp h)
  | cons s rs ih =>
    simp only [insertRelation] at h
    split at h
    · rcases List.mem_cons.mp h with h | h
      · exact Or.inl h
      · exact Or.inr (List.mem_cons_of_mem s h)
    · rcases List.mem_cons.mp h with h | h
      · exact Or.inr (h ▸ List.mem_cons_self)
      · exact (ih h).imp id (List.mem_cons_of_mem s)

theorem mem_foldl_insertRelation {rs acc : List (Relation M)} {q : Relation M}
    (h : q ∈ rs.foldl (fun rs r => insertRelation r rs) acc) : q ∈ rs ∨ q ∈ acc := by
  induction rs generalizing acc with
  | nil => exact Or.inr h
  | cons r rs ih =>
    rcases ih h with h | h
    · exact Or.inl (List.mem_cons_of_mem r h)
    · rcases mem_insertRelation h with rfl | h
      · exact Or.inl List.mem_cons_self
      · exact Or.inr h

theorem relation?_cases {s : Schema M} {name : String} {r : Relation M}
    (h : s.relation? name = some r) : r ∈ s.relations ∧ r.name = name :=
  ⟨List.mem_of_find?_eq_some h, by simpa using List.find?_some h⟩

end Schema

namespace Workshop

variable {W : Workshop M}

theorem relation_cases {m : M} {s : Schema M} (h : W.direct m = .ok s) {r : Relation M}
    (hr : r ∈ s.relations) :
    ∃ a x target join, W.analyze m = .ok a ∧ x ∈ a.associations ∧
      W.analyze x.target = .ok target ∧ W.joinAnalysis x.through = .ok join ∧
      W.family.resolve a.keys x target.keys (join.map Analysis.keys) = .ok r := by
  obtain ⟨a, rs, ha, hrs, rfl⟩ := direct_cases h
  rcases Schema.mem_foldl_insertRelation hr with hr | hr
  · obtain ⟨x, hx, hlink⟩ := mem_linksFrom hrs hr
    obtain ⟨target, join, htarget, hjoin, hresolve⟩ := linkFrom_cases hlink
    exact ⟨a, x, target, join, ha, hx, htarget, hjoin, hresolve⟩
  · cases hr

theorem owner_of_direct {m : M} {s : Schema M} (h : W.direct m = .ok s) {r : Relation M}
    (hr : r ∈ s.relations) : r.owner = m := by
  obtain ⟨a, x, target, join, ha, -, -, -, hresolve⟩ := relation_cases h hr
  obtain ⟨-, -, -, -, ho, -⟩ := Family.resolve_cases hresolve
  rw [ho]
  exact Family.analyze_model ha

theorem target_of_relation {x : Association M} {owner : ModelKeys M} {target : Analysis M}
    {join : Option (ModelKeys M)} {r : Relation M} (htarget : W.analyze x.target = .ok target)
    (h : W.family.resolve owner x target.keys join = .ok r) : r.target = x.target := by
  obtain ⟨-, -, -, -, -, ht⟩ := Family.resolve_cases h
  rw [ht]
  exact Family.analyze_model htarget

theorem leads_target {m : M} {s : Schema M} (h : W.direct m = .ok s) {r : Relation M}
    (hr : r ∈ s.relations) : W.Leads m r.target := by
  obtain ⟨a, x, target, join, ha, hx, htarget, -, hresolve⟩ := relation_cases h hr
  exact ⟨a, ha, x, hx, Or.inl (target_of_relation htarget hresolve).symm⟩

theorem grounded_of_direct {m : M} {s : Schema M} (h : W.direct m = .ok s) {r : Relation M}
    (hr : r ∈ s.relations) : W.family.Grounded r := by
  obtain ⟨a, x, target, join, ha, hx, htarget, -, hresolve⟩ := relation_cases h hr
  obtain ⟨-, -, hname, hindex, howner, -⟩ := Family.resolve_cases hresolve
  have htargetModel := target_of_relation htarget hresolve
  have howner : r.owner = m := howner.trans (Family.analyze_model ha)
  have hkind := Family.isToOne_of_resolve hresolve
  obtain ⟨hsource, hreference⟩ := Family.has_of_resolve hresolve
  obtain ⟨d, hd⟩ := Family.exists_announces ha hx
  refine ⟨⟨d, ?_, hd.name_eq.symm.trans hname.symm, fun hone => ?_, fun hmany => ?_⟩, ?_, ?_⟩
  · rw [howner, hindex]
    exact hd.declared
  · rw [htargetModel]
    exact (hd.single (by simpa [hkind] using hone)).2
  · rw [htargetModel]
    exact ⟨x.through, hd.several (by simpa [hkind] using hmany)⟩
  · obtain ⟨f, hf, -, hn, -⟩ := Family.mapped_of_has ha hsource
    obtain ⟨e, T, he⟩ := Family.exists_standsFor ha hf
    rw [howner]
    exact ⟨e, List.mem_of_getElem? he.declared, he.name_eq.symm.trans hn, T, he.type_eq⟩
  · obtain ⟨f, hf, -, hn, -⟩ := Family.mapped_of_has htarget hreference
    obtain ⟨e, T, he⟩ := Family.exists_standsFor htarget hf
    rw [htargetModel]
    exact ⟨e, List.mem_of_getElem? he.declared, he.name_eq.symm.trans hn, T, he.type_eq⟩

theorem reference_mapped {m : M} {s t : Schema M} (h : W.direct m = .ok s) {r : Relation M}
    (hr : r ∈ s.relations) (ht : W.direct r.target = .ok t) :
    ∃ f ∈ t.mapped, f.name = r.reference.field ∧ f.column = r.reference.column := by
  obtain ⟨a, x, target, join, ha, hx, htarget, -, hresolve⟩ := relation_cases h hr
  obtain ⟨b, rs, hb, -, rfl⟩ := direct_cases ht
  rw [target_of_relation htarget hresolve] at hb
  cases htarget.symm.trans hb
  obtain ⟨f, hf, hx, hn, hc, -⟩ := Family.mapped_of_has htarget (Family.has_of_resolve hresolve).2
  exact ⟨f, List.mem_filter.mpr ⟨hf, by simp [hx]⟩, hn, hc⟩

theorem through_mapped {m : M} {s j : Schema M} (h : W.direct m = .ok s) {r : Relation M}
    (hr : r ∈ s.relations) {t : Through M} (ht : r.through = some t)
    (hj : W.direct t.model = .ok j) :
    t.table = j.table ∧ t.ownerColumn ∈ j.columns ∧ t.targetColumn ∈ j.columns := by
  obtain ⟨a, x, target, join, -, -, -, hjoin, hresolve⟩ := relation_cases h hr
  obtain ⟨-, -, hnone, -⟩ | ⟨-, -, hnone, -⟩ | ⟨-, -, hnone, -⟩ |
    ⟨-, -, -, -, keys, hkeys, k, l, hjoinKeys, hthrough⟩ :=
      Family.linkOf?_cases (Family.resolve_cases hresolve).1
  · cases ht.symm.trans hnone
  · cases ht.symm.trans hnone
  · cases ht.symm.trans hnone
  · obtain ⟨b, rfl, rfl⟩ := Option.map_eq_some_iff.mp hkeys
    cases ht.symm.trans hthrough
    obtain ⟨⟨hk, -⟩, ⟨hl, -⟩, -⟩ := Family.joinKeys?_cases hjoinKeys
    obtain ⟨n, -, hn⟩ := joinAnalysis_some hjoin
    obtain ⟨c, rs, hc, -, rfl⟩ := direct_cases hj
    have hmodel : b.keys.model = n := Family.analyze_model hn
    rw [hmodel] at hc ⊢
    cases hn.symm.trans hc
    have hcolumn : ∀ k ∈ b.foreignKeys,
        k.field.column ∈ (Schema.ofAnalysis W.family b rs).columns := by
      intro k hk
      obtain ⟨hmem, hx⟩ := Family.foreignKey_mem hn hk
      exact List.mem_map.mpr ⟨k.field, List.mem_filter.mpr ⟨hmem, by simp [hx]⟩, rfl⟩
    refine ⟨?_, hcolumn k hk, hcolumn l hl⟩
    rw [← hmodel]
    rfl

theorem index_injective {m : M} {s : Schema M} (h : W.direct m = .ok s) {f g : Field}
    (hf : f ∈ s.mapped) (hg : g ∈ s.mapped) (he : f.index = g.index) : f = g := by
  obtain ⟨a, rs, ha, -, rfl⟩ := direct_cases h
  exact Family.index_injective ha (List.mem_filter.mp hf).1 (List.mem_filter.mp hg).1 he

end Workshop

end RecordGraph
