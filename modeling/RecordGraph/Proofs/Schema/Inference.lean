import RecordGraph.Proofs.Schema.KeyTypes
import RecordGraph.Proofs.Schema.WellFormed

/-!
# Inference of relations

The rules by which the relation of an association is inferred from foreign keys, apart from the
search that follows them. A rule takes the first foreign key, in the order of declaration, that
refers to the wanted model and is the hinted one. Resolving an association gives a relation if and
only if the rules infer it and its two columns have keys of one type, and otherwise it tells which
of the two is missing.
-/

namespace RecordGraph

variable {M : Type}

/-- The first key with a property, in the order in which the fields are declared. -/
structure ForeignKey.IsFirst (p : ForeignKey → Prop) (ks : List ForeignKey) (k : ForeignKey) :
    Prop where
  mem : k ∈ ks
  holds : p k
  first : ∀ l ∈ ks, p l → k.field.index ≤ l.field.index

namespace Family

variable (F : Family M)

/-- The key refers to the model, by its table or by its name, and its name or its column is the
hint, if there is one. -/
structure Candidate (n : M) (hint : Option String) (k : ForeignKey) : Prop where
  refers : k.reference = (F.model n).table ∨ k.reference = (F.model n).name
  hinted : ∀ h, hint = some h → k.field.name = h ∨ k.field.column = h

/-- What the rules infer for an association of one analysed model with another one and, where there
is one, a join model. -/
inductive Infers (a : Analysis M) (x : Association M) (b : Analysis M) :
    Option (Analysis M) → RelationKind → KeyRef → KeyRef → Option (Through M) → Prop
  /-- The owner has a key of the target. -/
  | owning {c : Option (Analysis M)} {k : ForeignKey} (single : x.isCollection = false)
      (key : ForeignKey.IsFirst (F.Candidate b.model x.hint) a.foreignKeys k) :
      Infers a x b c .manyToOne (.ofForeign k) (.ofPrimary b.primaryKey) none
  /-- The owner has no key of the target, but the target has one of the owner. -/
  | owned {c : Option (Analysis M)} {k : ForeignKey} (single : x.isCollection = false)
      (unowning : ∀ l ∈ a.foreignKeys, ¬ F.Candidate b.model x.hint l)
      (key : ForeignKey.IsFirst (F.Candidate a.model x.hint) b.foreignKeys k) :
      Infers a x b c .oneToOne (.ofPrimary a.primaryKey) (.ofForeign k) none
  /-- The members of a collection have a key of the owner. -/
  | listed {k : ForeignKey} (several : x.isCollection = true)
      (key : ForeignKey.IsFirst (F.Candidate a.model x.hint) b.foreignKeys k) :
      Infers a x b none .oneToMany (.ofPrimary a.primaryKey) (.ofForeign k) none
  /-- The join model has a key of the owner and a key of the target with another name. -/
  | linked {c : Analysis M} {k l : ForeignKey} (several : x.isCollection = true)
      (ownerKey : ForeignKey.IsFirst (F.Candidate a.model x.hint) c.foreignKeys k)
      (targetKey : ForeignKey.IsFirst
        (fun l => F.Candidate b.model none l ∧ l.field.name ≠ k.field.name) c.foreignKeys l) :
      Infers a x b (some c) .manyToMany (.ofPrimary a.primaryKey) (.ofPrimary b.primaryKey)
        (some ⟨c.model, (F.model c.model).table, k.field.column, l.field.column⟩)

/-- An association of an analysed model, with the analyses of the models that it names. -/
structure Meets (config : Config) (a : Analysis M) (x : Association M) (b : Analysis M)
    (c : Option (Analysis M)) : Prop where
  owner : F.analyze config.schema config.tags a.model = .ok a
  declared : x ∈ a.associations
  target : F.analyze config.schema config.tags x.target = .ok b
  join : x.through.map (F.analyze config.schema config.tags) = c.map Except.ok

/-- The relation between the two models that the association has in its place. -/
structure RelatesBy (a : Analysis M) (x : Association M) (r : Relation M) : Prop where
  name_eq : r.name = x.name
  index_eq : r.index = x.index
  owner_eq : r.owner = a.model
  target_eq : r.target = x.target

end Family

/-- The schema has a mapped key column that the reference names. -/
structure Schema.Names (s : Schema M) (c : KeyRef) (f : Field) : Prop where
  mapped : f ∈ s.mapped
  name_eq : f.name = c.field
  column_eq : f.column = c.column
  type_eq : KeyType.ofKind? f.kind = some c.keyType
  optional_eq : f.isNullable = c.isOptional
  isKey : f = s.primaryKey.field ∨ ∃ k ∈ s.foreignKeys, k.field = f

/-! ### The first key -/

namespace ForeignKey

/-- The keys are in the order in which their fields are declared. -/
def InOrder (ks : List ForeignKey) : Prop := ks.Pairwise fun k l => k.field.index < l.field.index

variable {ks : List ForeignKey} {p : ForeignKey → Bool} {k : ForeignKey}

theorem InOrder.eq_of_index (h : InOrder ks) {l : ForeignKey} (hk : k ∈ ks) (hl : l ∈ ks)
    (he : k.field.index = l.field.index) : k = l := by
  have nodup : (ks.map fun k => k.field.index).Nodup :=
    (List.pairwise_map.mpr h).imp fun hlt => Nat.ne_of_lt hlt
  exact List.inj_on_of_nodup_map nodup hk hl he

theorem isFirst_of_find? (h : InOrder ks) (hk : ks.find? p = some k) :
    IsFirst (fun l => p l = true) ks k := by
  obtain ⟨hp, front, back, rfl, hfront⟩ := List.find?_eq_some_iff_append.mp hk
  refine ⟨List.mem_append_right front List.mem_cons_self, hp, fun l hl hpl => ?_⟩
  rcases List.mem_append.mp hl with hl | hl
  · have hno := hfront l hl
    rw [hpl] at hno
    cases hno
  · rcases List.mem_cons.mp hl with rfl | hl
    · exact Nat.le_refl _
    · exact Nat.le_of_lt ((List.pairwise_cons.mp (List.pairwise_append.mp h).2.1).1 l hl)

theorem find?_eq_some_iff (h : InOrder ks) :
    ks.find? p = some k ↔ IsFirst (fun l => p l = true) ks k := by
  refine ⟨isFirst_of_find? h, fun hk => ?_⟩
  cases hfound : ks.find? p with
  | none => exact absurd hk.holds (List.find?_eq_none.mp hfound k hk.mem)
  | some l =>
    have hl := isFirst_of_find? h hfound
    have hindex := Nat.le_antisymm (hl.first k hk.mem hk.holds) (hk.first l hl.mem hl.holds)
    rw [h.eq_of_index hl.mem hk.mem hindex]

end ForeignKey

namespace Family

variable {F : Family M}

theorem inOrder_of_analyze {defaults : KeyDefaults} {options : TagOptions} {m : M} {a : Analysis M}
    (h : F.analyze defaults options m = .ok a) : ForeignKey.InOrder a.foreignKeys := by
  have hclassified := classified_of_analyze h
  have hfields : (a.foreignKeys.map ForeignKey.field).Pairwise fun f g => f.index < g.index := by
    rw [hclassified.foreignKeys]
    exact hclassified.ordered.filter _
  rw [List.pairwise_map] at hfields
  exact hfields

theorem pointsAt_iff {k : ForeignKey} {n : M} {hint : Option String} :
    F.pointsAt k n hint = true ↔ F.Candidate n hint k := by
  simp only [pointsAt, ForeignKey.refersTo, Bool.and_eq_true, Bool.or_eq_true, decide_eq_true_eq]
  constructor
  · rintro ⟨hrefers, hhint⟩
    refine ⟨hrefers, fun h he => ?_⟩
    subst he
    simpa using hhint
  · rintro ⟨hrefers, hhint⟩
    refine ⟨hrefers, ?_⟩
    cases hint with
    | none => rfl
    | some h => simpa using hhint h rfl

theorem linkTo?_eq_some_iff {s : ModelKeys M} (h : ForeignKey.InOrder s.foreignKeys) {n : M}
    {hint : Option String} {k : ForeignKey} : F.linkTo? s n hint = some k ↔
      ForeignKey.IsFirst (F.Candidate n hint) s.foreignKeys k := by
  rw [linkTo?, ForeignKey.find?_eq_some_iff h]
  simp only [pointsAt_iff]

theorem linkTo?_eq_none_iff {s : ModelKeys M} {n : M} {hint : Option String} :
    F.linkTo? s n hint = none ↔ ∀ k ∈ s.foreignKeys, ¬ F.Candidate n hint k := by
  rw [linkTo?, List.find?_eq_none]
  simp only [pointsAt_iff]

/-- The keys of a join model are the first key of the owner and the first other key of the
target. -/
theorem joinKeys?_eq_some_iff {s : ModelKeys M} (h : ForeignKey.InOrder s.foreignKeys)
    {owner target : M} {hint : Option String} {k l : ForeignKey} :
    F.joinKeys? s owner target hint = some (k, l) ↔
      ForeignKey.IsFirst (F.Candidate owner hint) s.foreignKeys k ∧
      ForeignKey.IsFirst (fun l => F.Candidate target none l ∧ l.field.name ≠ k.field.name)
        s.foreignKeys l := by
  have hother : ∀ k l : ForeignKey, (s.foreignKeys.find? fun l =>
      F.pointsAt l target none && l.field.name ≠ k.field.name) = some l ↔
        ForeignKey.IsFirst (fun l => F.Candidate target none l ∧ l.field.name ≠ k.field.name)
          s.foreignKeys l := by
    intro k l
    rw [ForeignKey.find?_eq_some_iff h]
    simp only [Bool.and_eq_true, pointsAt_iff, decide_eq_true_eq]
  rw [← linkTo?_eq_some_iff h, ← hother k l, joinKeys?]
  cases F.linkTo? s owner hint with
  | none => simp
  | some k' =>
    simp only [Option.map_eq_some_iff, Prod.mk.injEq, Option.some.injEq]
    constructor
    · rintro ⟨l', hl, rfl, rfl⟩
      exact ⟨rfl, hl⟩
    · rintro ⟨rfl, hl⟩
      exact ⟨l, hl, rfl, rfl⟩

/-! ### The rules and the search -/

theorem linkOf?_eq_some_iff {a b : Analysis M} {x : Association M} {c : Option (Analysis M)}
    (ha : ForeignKey.InOrder a.foreignKeys) (hb : ForeignKey.InOrder b.foreignKeys)
    (hc : ∀ j, c = some j → ForeignKey.InOrder j.foreignKeys) {kind : RelationKind}
    {source reference : KeyRef} {through : Option (Through M)} :
    F.linkOf? a.keys x b.keys (c.map Analysis.keys) = some (kind, source, reference, through) ↔
      F.Infers a x b c kind source reference through := by
  constructor
  · intro h
    simp only [linkOf?] at h
    split at h
    · rename_i hseveral
      cases c with
      | none =>
        simp only [Option.map_none] at h
        split at h
        · rename_i k hk
          cases h
          exact .listed hseveral ((linkTo?_eq_some_iff (s := b.keys) hb).mp hk)
        · cases h
      | some j =>
        simp only [Option.map_some] at h
        split at h
        · cases h
        · rename_i k hk
          split at h
          · cases h
          · rename_i l hl
            cases h
            obtain ⟨hkey, hother⟩ := (joinKeys?_eq_some_iff (s := j.keys) (hc j rfl)).mp
              (show F.joinKeys? j.keys a.model b.model x.hint = some (k, l) by
                simp only [joinKeys?]
                rw [show F.linkTo? j.keys a.model x.hint = some k from hk]
                exact congrArg (Option.map _) hl)
            exact .linked hseveral hkey hother
    · rename_i hsingle
      have hsingle : x.isCollection = false := by simpa using hsingle
      split at h
      · rename_i k hk
        cases h
        exact .owning hsingle ((linkTo?_eq_some_iff (s := a.keys) ha).mp hk)
      · rename_i hnone
        split at h
        · rename_i k hk
          cases h
          exact .owned hsingle (linkTo?_eq_none_iff.mp hnone)
            ((linkTo?_eq_some_iff (s := b.keys) hb).mp hk)
        · cases h
  · intro h
    cases h with
    | owning hsingle hkey =>
      have hk : F.linkTo? a.keys b.keys.model x.hint = _ := (linkTo?_eq_some_iff ha).mpr hkey
      simp only [linkOf?, hsingle, Bool.false_eq_true, if_false, hk]
      rfl
    | owned hsingle hnone hkey =>
      have hk : F.linkTo? b.keys a.keys.model x.hint = _ := (linkTo?_eq_some_iff hb).mpr hkey
      have hno : F.linkTo? a.keys b.keys.model x.hint = none := linkTo?_eq_none_iff.mpr hnone
      simp only [linkOf?, hsingle, Bool.false_eq_true, if_false, hk, hno]
      rfl
    | listed hseveral hkey =>
      have hk : F.linkTo? b.keys a.keys.model x.hint = _ := (linkTo?_eq_some_iff hb).mpr hkey
      simp only [linkOf?, hseveral, if_true, Option.map_none, hk]
      rfl
    | @linked j k l hseveral hkey hother =>
      exact linkOf?_of_joinKeys? hseveral
        ((joinKeys?_eq_some_iff (s := j.keys) (hc j rfl)).mpr ⟨hkey, hother⟩)

/-! ### Resolving -/

theorem Infers.kind_of_through {a b : Analysis M} {x : Association M} {c : Option (Analysis M)}
    {kind : RelationKind} {source reference : KeyRef} {through : Option (Through M)}
    (h : F.Infers a x b c kind source reference through) {j : Through M}
    (hj : through = some j) : kind = .manyToMany := by
  cases h with
  | linked => rfl
  | owning => cases hj
  | owned => cases hj
  | listed => cases hj

theorem resolve_ok_iff {owner target : ModelKeys M} {x : Association M}
    {join : Option (ModelKeys M)} {r : Relation M} : F.resolve owner x target join = .ok r ↔
      F.linkOf? owner x target join = some (r.kind, r.source, r.reference, r.through) ∧
        r.source.keyType = r.reference.keyType ∧ r.name = x.name ∧ r.index = x.index ∧
        r.owner = owner.model ∧ r.target = target.model := by
  refine ⟨resolve_cases, ?_⟩
  rintro ⟨hlink, htypes, hname, hindex, howner, htarget⟩
  simp only [resolve, hlink, htypes, if_true, ← hname, ← hindex, ← howner, ← htarget]

theorem resolve_error_iff {owner target : ModelKeys M} {x : Association M}
    {join : Option (ModelKeys M)} {e : Error} : F.resolve owner x target join = .error e ↔
      (F.linkOf? owner x target join = none ∧ e = .unresolvableReference
        (F.model owner.model).name x.name (F.model target.model).name) ∨
      ∃ kind source reference through,
        F.linkOf? owner x target join = some (kind, source, reference, through) ∧
        source.keyType ≠ reference.keyType ∧ e = .invalidAssociation (F.model owner.model).name
          x.name (keyConflict source reference) := by
  simp only [resolve]
  cases hlink : F.linkOf? owner x target join with
  | none => simp [eq_comm]
  | some link =>
    obtain ⟨kind, source, reference, through⟩ := link
    by_cases htypes : source.keyType = reference.keyType
    · simp only [htypes, if_true]
      simp [htypes]
    · simp only [htypes, if_false]
      simp [htypes, eq_comm]

/-! ### Associations of a model -/

section

variable {config : Config} {a b : Analysis M} {x : Association M} {c : Option (Analysis M)}

theorem Meets.join_inOrder (h : F.Meets config a x b c) (j : Analysis M) (hj : c = some j) :
    ForeignKey.InOrder j.foreignKeys := by
  have hjoin := h.join
  rw [hj, Option.map_some] at hjoin
  obtain ⟨n, -, hn⟩ := Option.map_eq_some_iff.mp hjoin
  exact inOrder_of_analyze hn

theorem Meets.linkOf?_iff (h : F.Meets config a x b c) {kind : RelationKind}
    {source reference : KeyRef} {through : Option (Through M)} :
    F.linkOf? a.keys x b.keys (c.map Analysis.keys) = some (kind, source, reference, through) ↔
      F.Infers a x b c kind source reference through :=
  linkOf?_eq_some_iff (inOrder_of_analyze h.owner) (inOrder_of_analyze h.target) h.join_inOrder

theorem Meets.linkOf?_eq_none_iff (h : F.Meets config a x b c) :
    F.linkOf? a.keys x b.keys (c.map Analysis.keys) = none ↔
      ∀ kind source reference through, ¬ F.Infers a x b c kind source reference through := by
  simp only [Option.eq_none_iff_forall_ne_some, ne_eq, Prod.forall, h.linkOf?_iff]

theorem Meets.target_model (h : F.Meets config a x b c) : b.keys.model = x.target :=
  analyze_model h.target

theorem exists_association {defaults : KeyDefaults} {options : TagOptions} {m : M}
    (ha : F.analyze defaults options m = .ok a) {i : Nat} {d : FieldDecl M}
    (hd : (F.model m).fields[i]? = some d) (hclass : d.fieldClass options = .association) :
    ∃ x ∈ a.associations, x.index = i ∧ F.Announces m x d ∧
      x.hint = d.tag? options Tags.relationKey := by
  have hclassified := classified_of_analyze ha
  have hi : i ∈ a.associations.map Association.index := by
    rw [show a.associations.map Association.index = F.placesOf options m .association from
      hclassified.classes .association (by decide)]
    exact mem_placesOf.mpr ⟨d, hd, hclass⟩
  obtain ⟨x, hx, rfl⟩ := List.mem_map.mp hi
  obtain ⟨e, he, hhint⟩ := hclassified.announces x hx
  obtain rfl := Option.some_inj.mp (hd.symm.trans he.declared)
  exact ⟨x, hx, rfl, he, hhint⟩

end

end Family

/-! ### Schemas -/

namespace Workshop

variable {W : Workshop M} {m : M} {s : Schema M} {a : Analysis M}

theorem names_of_has (hs : W.direct m = .ok s) (ha : W.analyze m = .ok a) {c : KeyRef}
    (hc : a.keys.Has c) : ∃ f, s.Names c f := by
  obtain ⟨b, rs, hb, -, rfl⟩ := direct_cases hs
  cases ha.symm.trans hb
  rcases hc with rfl | ⟨k, hk, rfl⟩
  · obtain ⟨hmem, hmapped⟩ := Family.primaryKey_mem ha
    refine ⟨a.primaryKey.field, List.mem_filter.mpr ⟨hmem, by simp [hmapped]⟩, rfl, rfl,
      Family.kind_of_primaryKey ha, ?_, Or.inl rfl⟩
    exact Family.isNullable_primaryKey ha
  · obtain ⟨hmem, hmapped⟩ := Family.foreignKey_mem ha hk
    exact ⟨k.field, List.mem_filter.mpr ⟨hmem, by simp [hmapped]⟩, rfl, rfl,
      Family.kind_of_foreignKey ha hk, rfl, Or.inr ⟨k, hk, rfl⟩⟩

theorem join_of_joinAnalysis {through : Option M} {join : Option (Analysis M)}
    (h : W.joinAnalysis through = .ok join) : through.map W.analyze = join.map Except.ok := by
  cases join with
  | none =>
    cases through with
    | none => rfl
    | some n =>
      simp only [joinAnalysis] at h
      split at h <;> cases h
  | some b =>
    obtain ⟨n, rfl, hn⟩ := joinAnalysis_some h
    exact congrArg some hn

end Workshop

namespace Registry

variable [DecidableEq M]

/-- Every declared association that is not excluded is analysed; resolving one gives a relation if
and only if the rules infer it between columns with keys of one type, and otherwise the error tells
whether the rules infer nothing or columns of two types. The relations of every schema are resolved
so, and they name mapped key columns of the owner, of the target and of the join model. -/
theorem resolve_infers (F : Family M) (config : Config) :
    (∀ m a, F.analyze config.schema config.tags m = .ok a →
      ∀ i d, (F.model m).fields[i]? = some d → d.fieldClass config.tags = .association →
        ∃ x ∈ a.associations, x.index = i ∧ F.Announces m x d ∧
          x.hint = d.tag? config.tags Tags.relationKey) ∧
    (∀ a x b c, F.Meets config a x b c →
      (∀ r, F.resolve a.keys x b.keys (c.map Analysis.keys) = .ok r ↔
        F.Infers a x b c r.kind r.source r.reference r.through ∧
          r.source.keyType = r.reference.keyType ∧ Family.RelatesBy a x r) ∧
      ∀ e, F.resolve a.keys x b.keys (c.map Analysis.keys) = .error e ↔
        ((∀ kind source reference through, ¬ F.Infers a x b c kind source reference through) ∧
          e = .unresolvableReference (F.model a.model).name x.name (F.model x.target).name) ∨
        ∃ kind source reference through, F.Infers a x b c kind source reference through ∧
          source.keyType ≠ reference.keyType ∧
          e = .invalidAssociation (F.model a.model).name x.name
            (Family.keyConflict source reference)) ∧
    ∀ (R : Registry M) m s, Reached F config R → (R.schemaFor F m).result = .ok s →
      ∀ r ∈ s.relations, ∃ a x b c t, a.model = m ∧ F.Meets config a x b c ∧
        Family.RelatesBy a x r ∧ F.Infers a x b c r.kind r.source r.reference r.through ∧
        (R.schemaFor F r.target).result = .ok t ∧
        (∃ f, s.Names r.source f) ∧ (∃ f, t.Names r.reference f) ∧
        ∀ j, r.through = some j →
          ∃ u, (R.schemaFor F j.model).result = .ok u ∧ r.Joins s t u j := by
  refine ⟨fun m a ha i d hd hclass => Family.exists_association ha hd hclass,
    fun a x b c h => ⟨fun r => ?_, fun e => ?_⟩, fun R m s hR hs r hr => ?_⟩
  · rw [Family.resolve_ok_iff, h.linkOf?_iff, h.target_model]
    refine and_congr_right fun _ => and_congr_right fun _ => ?_
    exact ⟨fun ⟨hn, hi, ho, ht⟩ => ⟨hn, hi, ho, ht⟩, fun ⟨hn, hi, ho, ht⟩ => ⟨hn, hi, ho, ht⟩⟩
  · rw [Family.resolve_error_iff, h.linkOf?_eq_none_iff, h.target_model]
    simp only [h.linkOf?_iff]
    exact Iff.rfl
  · obtain ⟨hdirect, hcomplete⟩ := hR.faithful.result_ok hs
    obtain ⟨a, x, b, c, ha, hx, hb, hjoin, hresolve⟩ := Workshop.relation_cases hdirect hr
    obtain ⟨t, ht, htdirect⟩ := hR.faithful.result_of_complete
      (hcomplete.of_leads (Workshop.leads_target hdirect hr))
    have htarget := Workshop.target_of_relation hb hresolve
    have hmodel : a.model = m := Family.analyze_model ha
    have hmeets : F.Meets config a x b c :=
      ⟨hmodel.symm ▸ ha, hx, hb, Workshop.join_of_joinAnalysis hjoin⟩
    obtain ⟨hlink, -, hname, hindex, howner, -⟩ := Family.resolve_cases hresolve
    have hinfers := hmeets.linkOf?_iff.mp hlink
    obtain ⟨hsource, hreference⟩ := Family.has_of_resolve hresolve
    refine ⟨a, x, b, c, t, hmodel, hmeets, ⟨hname, hindex, howner, htarget⟩, hinfers, ht,
      Workshop.names_of_has hdirect ha hsource,
      Workshop.names_of_has (htarget ▸ htdirect) hb hreference, fun j hj => ?_⟩
    have hkind : r.kind = .manyToMany := hinfers.kind_of_through hj
    obtain ⟨j', hj', hleads⟩ := Workshop.leads_join hdirect hr hkind
    cases hj.symm.trans hj'
    obtain ⟨u, hu, hudirect⟩ := hR.faithful.result_of_complete (hcomplete.of_leads hleads)
    exact ⟨u, hu, Workshop.joins_of_direct hdirect hr htdirect hj hudirect⟩

/-! ### Associations of the archive -/

theorem meets_archive {m : Archive} {x : Association Archive}
    (hx : x ∈ (archiveAnalysis m).associations) {n : Archive} (hn : x.through = some n) :
    archive.Meets .standard (archiveAnalysis m) x (archiveAnalysis x.target)
      (some (archiveAnalysis n)) := by
  have hmodel : (archiveAnalysis m).model = m := Family.analyze_model (analyze_archive m)
  refine ⟨?_, hx, analyze_archive x.target, ?_⟩
  · rw [hmodel]
    exact analyze_archive m
  · rw [hn]
    exact congrArg some (analyze_archive n)

/-- The bundles of a sheet are linked by the hinted key, although it is not the first one of sheets.
For the sheets of a label two columns are inferred whose keys are of two types. -/
theorem archive_infers :
    (∃ x ∈ (archiveAnalysis .sheet).associations, x.index = 2 ∧ x.hint = some "sheet_code" ∧
      ∃ r : Relation Archive, archive.Infers (archiveAnalysis .sheet) x (archiveAnalysis x.target)
        (some (archiveAnalysis .filing)) r.kind r.source r.reference r.through ∧
          r.through.map Through.ownerColumn = some "sheet_code") ∧
    (∃ x ∈ (archiveAnalysis .label).associations, ∃ kind source reference through,
      archive.Infers (archiveAnalysis .label) x (archiveAnalysis x.target)
        (some (archiveAnalysis .marking)) kind source reference through ∧
          source.keyType ≠ reference.keyType) ∧
    ∃ s, ((ofConfig 0 .standard).schemaFor archive .sheet).result = .ok s ∧
      ∀ r ∈ s.relations, ∃ f, s.Names r.source f := by
  obtain ⟨hdeclared, hresolved, hbuilt⟩ := resolve_infers archive .standard
  refine ⟨?_, ?_, _, ok_get isSome_sheets, fun r hr => ?_⟩
  · obtain ⟨x, hx, hindex, -, hhint⟩ := hdeclared .sheet _ (analyze_archive .sheet) 2 _ rfl
      (by decide +kernel)
    have hdata : ∀ x ∈ (archiveAnalysis .sheet).associations, x.index = 2 →
        x.through = some .filing ∧ ((archive.resolve (archiveAnalysis .sheet).keys x
          (archiveAnalysis x.target).keys (some (archiveAnalysis .filing).keys)).toOption.map
            fun r => r.through.map Through.ownerColumn) = some (some "sheet_code") := by
      decide +kernel
    obtain ⟨hn, hr⟩ := hdata x hx hindex
    cases hresolve : archive.resolve (archiveAnalysis .sheet).keys x (archiveAnalysis x.target).keys
        (some (archiveAnalysis .filing).keys) with
    | error e =>
      rw [hresolve] at hr
      cases hr
    | ok r =>
      rw [hresolve] at hr
      exact ⟨x, hx, hindex, hhint.trans (by decide +kernel), r,
        (((hresolved _ x _ _ (meets_archive hx hn)).1 r).mp hresolve).1, Option.some_inj.mp hr⟩
  · have hdata : ∃ x ∈ (archiveAnalysis .label).associations, x.through = some .marking ∧
        (archive.resolve (archiveAnalysis .label).keys x (archiveAnalysis x.target).keys
          (some (archiveAnalysis .marking).keys)) = .error (.invalidAssociation "Label" "sheets"
            "string key id cannot match integer key id") := by
      decide +kernel
    obtain ⟨x, hx, hn, hrefused⟩ := hdata
    rcases ((hresolved _ x _ _ (meets_archive hx hn)).2 _).mp hrefused with ⟨-, he⟩ | h
    · cases he
    · obtain ⟨kind, source, reference, through, hinfers, htypes, -⟩ := h
      exact ⟨x, hx, kind, source, reference, through, hinfers, htypes⟩
  · obtain ⟨a, x, b, c, t, -, -, -, -, -, hsource, -⟩ :=
      hbuilt _ .sheet _ (.fresh 0) (ok_get isSome_sheets) r hr
    exact hsource

end Registry

end RecordGraph
