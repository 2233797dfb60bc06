import RecordGraph.Proofs.Schema.Closure
import RecordGraph.Value.Key

/-!
# The types of the keys of a relation

A relation is only made of two columns with one key type, so a direct relation never compares a
number with a text. The two columns of a join are the primary keys of its models. They are compared
with the columns of the join model, not with each other, but their types have to agree all the same.
-/

namespace RecordGraph

variable {M : Type}

/-! ### Keys of a column -/

def Key.type : Key → KeyType
  | int _ => .integer
  | text _ => .string

namespace BaseType

variable {b : BaseType}

theorem exists_int_of_kind (h : KeyType.ofKind? b.kind = some .integer) : ∃ t, b = int t := by
  cases b with
  | int t => exact ⟨t, rfl⟩
  | _ => cases h

theorem text_or_uuid_of_kind (h : KeyType.ofKind? b.kind = some .string) : b = text ∨ b = uuid := by
  cases b with
  | int t => cases t <;> cases h
  | text => exact Or.inl rfl
  | uuid => exact Or.inr rfl
  | _ => cases h

end BaseType

namespace ColumnType

variable {k : Key} {type : KeyType}

theorem ofValue?_null (T : ColumnType) : Key.ofValue? T.null = none := by
  cases h : T.base <;> simp only [null, h] <;> rfl

theorem type_of_base {b : BaseType} {x : b.Carrier} (hb : KeyType.ofKind? b.kind = some type)
    (hk : Key.ofValue? (b.toValue x) = some k) : k.type = type := by
  cases type with
  | integer =>
    obtain ⟨t, rfl⟩ := BaseType.exists_int_of_kind hb
    cases hk
    rfl
  | string =>
    rcases BaseType.text_or_uuid_of_kind hb with rfl | rfl
    · cases hk
      rfl
    · cases hk
      rfl

theorem type_of_toValue {T : ColumnType} {x : T.Carrier} (hT : KeyType.ofKind? T.kind = some type)
    (hk : Key.ofValue? (T.toValue x) = some k) : k.type = type := by
  induction T with
  | plain b => exact type_of_base hT hk
  | option T ih =>
    cases x with
    | none => cases (ofValue?_null T).symm.trans hk
    | some y => exact ih hT hk
  | nullable T ih =>
    simp only [toValue] at hk
    split at hk
    · exact ih hT hk
    · cases (ofValue?_null T).symm.trans hk

end ColumnType

/-- The schema has a mapped column for the key, declared with a type that only stores keys of its
type. -/
def Schema.Stores (F : Family M) (s : Schema M) (c : KeyRef) : Prop :=
  ∃ f ∈ s.mapped, f.name = c.field ∧ f.column = c.column ∧ ∃ d T,
    (F.model s.model).fields[f.index]? = some d ∧ d.type = .column T ∧
      KeyType.ofKind? T.kind = some c.keyType ∧
        ∀ x k, Key.ofValue? (T.toValue x) = some k → k.type = c.keyType

/-- The columns of the relation store keys of one type. -/
structure Family.Paired (F : Family M) (s t : Schema M) (r : Relation M) : Prop where
  source : s.Stores F r.source
  reference : t.Stores F r.reference
  types : r.source.keyType = r.reference.keyType

/-- The relation joins the primary keys of two models by two foreign keys of the join model, of
which one refers to the owner and another one to the target. -/
structure Relation.Joins (s t u : Schema M) (r : Relation M) (j : Through M) : Prop where
  source : r.source = .ofPrimary s.primaryKey
  reference : r.reference = .ofPrimary t.primaryKey
  table : j.table = u.table
  keys : ∃ k ∈ u.foreignKeys, ∃ l ∈ u.foreignKeys,
    (j.ownerColumn = k.field.column ∧ k.refersTo s.table s.modelName = true) ∧
    (j.targetColumn = l.field.column ∧ l.refersTo t.table t.modelName = true) ∧
      l.field.name ≠ k.field.name

/-- The association goes through a join model, and the two keys by which this one links both models
have the types of the primary keys that they refer to. -/
structure Family.WellJoined (F : Family M) (config : Config) (m : M) (x : Association M)
    (a b c : Analysis M) (k l : ForeignKey) : Prop where
  owner : F.analyze config.schema config.tags m = .ok a
  declared : x ∈ a.associations
  target : F.analyze config.schema config.tags x.target = .ok b
  join : ∃ n, x.through = some n ∧ F.analyze config.schema config.tags n = .ok c
  keys : F.joinKeys? c.keys m x.target x.hint = some (k, l)
  ownerType : k.keyType = a.primaryKey.keyType
  targetType : l.keyType = b.primaryKey.keyType

/-! ### Inference -/

namespace Family

variable {F : Family M} {owner target join : ModelKeys M} {a : Association M} {k l : ForeignKey}

theorem linkOf?_of_joinKeys? (ha : a.isCollection = true)
    (hkeys : F.joinKeys? join owner.model target.model a.hint = some (k, l)) :
    F.linkOf? owner a target (some join) =
      some (.manyToMany, .ofPrimary owner.primaryKey, .ofPrimary target.primaryKey,
        some ⟨join.model, (F.model join.model).table, k.field.column, l.field.column⟩) := by
  simp only [joinKeys?] at hkeys
  split at hkeys
  · cases hkeys
  · rename_i k' hk
    obtain ⟨l', hl, heq⟩ := Option.map_eq_some_iff.mp hkeys
    cases heq
    simp only [linkOf?, ha, if_true, hk, hl]

theorem resolve_of_joinKeys? (ha : a.isCollection = true)
    (hkeys : F.joinKeys? join owner.model target.model a.hint = some (k, l))
    (htypes : owner.primaryKey.keyType = target.primaryKey.keyType) :
    F.resolve owner a target (some join) =
      .ok ⟨a.name, a.index, .manyToMany, owner.model, .ofPrimary owner.primaryKey,
        .ofPrimary target.primaryKey, target.model,
        some ⟨join.model, (F.model join.model).table, k.field.column, l.field.column⟩⟩ := by
  have hsame : (KeyRef.ofPrimary owner.primaryKey).keyType =
      (KeyRef.ofPrimary target.primaryKey).keyType := htypes
  simp only [resolve, linkOf?_of_joinKeys? ha hkeys, hsame, if_true]

theorem resolve_of_joinKeys?_ne (ha : a.isCollection = true)
    (hkeys : F.joinKeys? join owner.model target.model a.hint = some (k, l))
    (htypes : owner.primaryKey.keyType ≠ target.primaryKey.keyType) :
    F.resolve owner a target (some join) =
      .error (.invalidAssociation (F.model owner.model).name a.name
        (keyConflict (.ofPrimary owner.primaryKey) (.ofPrimary target.primaryKey))) := by
  have hapart : ¬ (KeyRef.ofPrimary owner.primaryKey).keyType =
      (KeyRef.ofPrimary target.primaryKey).keyType := htypes
  simp only [resolve, linkOf?_of_joinKeys? ha hkeys, hapart, if_false]

end Family

/-! ### Schemas -/

namespace Workshop

variable {W : Workshop M} {m : M} {s t : Schema M} {a : Analysis M} {r : Relation M}

theorem stores_of_has (hs : W.direct m = .ok s) (ha : W.analyze m = .ok a) {c : KeyRef}
    (hc : a.keys.Has c) : s.Stores W.family c := by
  obtain ⟨b, rs, hb, -, rfl⟩ := direct_cases hs
  cases ha.symm.trans hb
  obtain ⟨f, hf, hx, hn, hcolumn, hkind⟩ := Family.mapped_of_has ha hc
  obtain ⟨d, T, hd⟩ := Family.exists_standsFor ha hf
  rw [hd.kind_eq] at hkind
  refine ⟨f, List.mem_filter.mpr ⟨hf, by simp [hx]⟩, hn, hcolumn, d, T, ?_, hd.type_eq, hkind,
    fun x k hk => ColumnType.type_of_toValue hkind hk⟩
  have hmodel : (Schema.ofAnalysis W.family a rs).model = m := Family.analyze_model ha
  rw [hmodel]
  exact hd.declared

theorem paired_of_direct (hs : W.direct m = .ok s) (hr : r ∈ s.relations)
    (ht : W.direct r.target = .ok t) : W.family.Paired s t r := by
  obtain ⟨a, x, b, join, ha, hx, hb, -, hresolve⟩ := relation_cases hs hr
  obtain ⟨-, htypes, -⟩ := Family.resolve_cases hresolve
  obtain ⟨hsource, hreference⟩ := Family.has_of_resolve hresolve
  rw [target_of_relation hb hresolve] at ht
  exact ⟨stores_of_has hs ha hsource, stores_of_has ht hb hreference, htypes⟩

theorem joins_of_direct (hs : W.direct m = .ok s) (hr : r ∈ s.relations)
    (ht : W.direct r.target = .ok t) {j : Through M} (hj : r.through = some j) {u : Schema M}
    (hu : W.direct j.model = .ok u) : r.Joins s t u j := by
  obtain ⟨a, x, b, join, ha, hx, hb, hjoin, hresolve⟩ := relation_cases hs hr
  obtain ⟨-, -, hnone, -⟩ | ⟨-, -, hnone, -⟩ | ⟨-, -, hnone, -⟩ |
    ⟨-, -, hsource, hreference, keys, hkeys, k, l, hjoinKeys, hthrough⟩ :=
      Family.linkOf?_cases (Family.resolve_cases hresolve).1
  · cases hj.symm.trans hnone
  · cases hj.symm.trans hnone
  · cases hj.symm.trans hnone
  · obtain ⟨c, rfl, rfl⟩ := Option.map_eq_some_iff.mp hkeys
    obtain ⟨⟨hk, hkowner⟩, ⟨hl, hltarget⟩, hname⟩ := Family.joinKeys?_cases hjoinKeys
    obtain ⟨n, -, hn⟩ := joinAnalysis_some hjoin
    cases hj.symm.trans hthrough
    rw [target_of_relation hb hresolve] at ht
    have hmodel : c.keys.model = n := Family.analyze_model hn
    obtain ⟨a', rs, ha', -, rfl⟩ := direct_cases hs
    obtain ⟨b', ts, hb', -, rfl⟩ := direct_cases ht
    obtain ⟨c', us, hc', -, rfl⟩ := direct_cases hu
    rw [hmodel] at hc'
    cases ha.symm.trans ha'
    cases hb.symm.trans hb'
    cases hn.symm.trans hc'
    simp only [Family.pointsAt, Bool.and_eq_true] at hkowner hltarget
    exact ⟨hsource, hreference, rfl, k, hk, l, hl, ⟨rfl, hkowner.1⟩, ⟨rfl, hltarget.1⟩, hname⟩

theorem not_complete_of_resolve {x : Association M} {n : M} {b c : Analysis M} {e : Error}
    (ha : W.analyze m = .ok a) (hx : x ∈ a.associations) (hb : W.analyze x.target = .ok b)
    (hn : x.through = some n) (hc : W.analyze n = .ok c)
    (h : W.family.resolve a.keys x b.keys (some c.keys) = .error e) : ¬ W.Complete m :=
  not_complete_of_linkFrom ha hx ((linkFrom_through hb hn hc).trans h)

end Workshop

namespace Registry

variable [DecidableEq M]

/-- The source and the reference of every relation are columns that store keys of one type: for a
direct relation the columns that are compared, for a join the primary keys of both models, to which
two foreign keys of the join model refer. Of an association through a join model whose two foreign
keys have the types of the primary keys that they refer to, no schema is made if these are of two
types, and a relation if they are of one. -/
theorem relation_keys_paired (F : Family M) (config : Config) :
    (∀ (R : Registry M) m s, Reached F config R → (R.schemaFor F m).result = .ok s →
      ∀ r ∈ s.relations, ∃ t, (R.schemaFor F r.target).result = .ok t ∧ F.Paired s t r ∧
        (r.kind = .manyToMany → ∃ j u, r.through = some j ∧
          (R.schemaFor F j.model).result = .ok u ∧ r.Joins s t u j)) ∧
    ∀ m x a b c k l, F.WellJoined config m x a b c k l →
      (a.primaryKey.keyType = b.primaryKey.keyType →
        ∃ r, F.resolve a.keys x b.keys (some c.keys) = .ok r ∧ r.kind = .manyToMany) ∧
      (a.primaryKey.keyType ≠ b.primaryKey.keyType →
        F.resolve a.keys x b.keys (some c.keys) =
          .error (.invalidAssociation (F.model m).name x.name
            (Family.keyConflict (.ofPrimary a.primaryKey) (.ofPrimary b.primaryKey))) ∧
        ∀ (R : Registry M) s, Reached F config R → (R.schemaFor F m).result ≠ .ok s) := by
  constructor
  · intro R m s hR hs r hr
    obtain ⟨hdirect, hcomplete⟩ := hR.faithful.result_ok hs
    obtain ⟨t, ht, htdirect⟩ := hR.faithful.result_of_complete
      (hcomplete.of_leads (Workshop.leads_target hdirect hr))
    refine ⟨t, ht, Workshop.paired_of_direct hdirect hr htdirect, fun hkind => ?_⟩
    obtain ⟨j, hj, hleads⟩ := Workshop.leads_join hdirect hr hkind
    obtain ⟨u, hu, hudirect⟩ := hR.faithful.result_of_complete (hcomplete.of_leads hleads)
    exact ⟨j, u, hj, hu, Workshop.joins_of_direct hdirect hr htdirect hj hudirect⟩
  · intro m x a b c k l h
    obtain ⟨n, hn, hc⟩ := h.join
    have hcollection : x.isCollection = true := by
      obtain ⟨d, hd⟩ := Family.exists_announces h.owner h.declared
      by_contra hsingle
      have hnone := (hd.single (by simpa using hsingle)).1
      cases hn.symm.trans hnone
    have howner : a.keys.model = m := Family.analyze_model h.owner
    have htarget : b.keys.model = x.target := Family.analyze_model h.target
    have hkeys := h.keys
    rw [← howner, ← htarget] at hkeys
    refine ⟨fun hsame => ⟨_, Family.resolve_of_joinKeys? hcollection hkeys hsame, rfl⟩,
      fun hapart => ?_⟩
    have hrefused := Family.resolve_of_joinKeys?_ne hcollection hkeys hapart
    rw [howner] at hrefused
    refine ⟨hrefused, fun R s hR hs => ?_⟩
    exact Workshop.not_complete_of_resolve (W := Workshop.ofConfig F config) h.owner h.declared
      h.target hn hc hrefused (hR.faithful.result_ok hs).2

/-! ### Joins between keys of two types -/

/-- The models of a small archive. -/
inductive Archive where
  | sheet | folder | filing | label | marking
  deriving DecidableEq, Repr

/-- Sheets are filed in folders by their number, and by a code that is no key of a sheet. Labels
have texts as keys and mark sheets, which have numbers. -/
def archive : Family Archive where
  model
    | .sheet => ⟨"Sheet", "archive::Sheet", "sheets", none,
        [⟨"id", "", .column (.plain (.int .i64))⟩,
          ⟨"folders", "ll:\"relation:sheet_id\"", .collection .folder (some .filing)⟩,
          ⟨"bundles", "ll:\"relation:sheet_code\"", .collection .folder (some .filing)⟩]⟩
    | .folder => ⟨"Folder", "archive::Folder", "folders", none,
        [⟨"id", "", .column (.plain (.int .i64))⟩]⟩
    | .filing => ⟨"Filing", "archive::Filing", "filings", none,
        [⟨"id", "", .column (.plain (.int .i64))⟩,
          ⟨"sheet_id", "ll:\"fk:sheets\"", .column (.plain (.int .i64))⟩,
          ⟨"sheet_code", "ll:\"fk:sheets\"", .column (.plain .text)⟩,
          ⟨"folder_id", "ll:\"fk:folders\"", .column (.plain (.int .i64))⟩]⟩
    | .label => ⟨"Label", "archive::Label", "labels", none,
        [⟨"id", "", .column (.plain .text)⟩,
          ⟨"sheets", "", .collection .sheet (some .marking)⟩]⟩
    | .marking => ⟨"Marking", "archive::Marking", "markings", none,
        [⟨"id", "", .column (.plain (.int .i64))⟩,
          ⟨"label_id", "ll:\"fk:labels\"", .column (.plain .text)⟩,
          ⟨"sheet_id", "ll:\"fk:sheets\"", .column (.plain (.int .i64))⟩]⟩
  all := [.sheet, .folder, .filing, .label, .marking]
  mem_all m := by cases m <;> decide

theorem isSome_archiveAnalysis (m : Archive) :
    (archive.analyze Config.standard.schema Config.standard.tags m).toOption.isSome := by
  cases m <;> decide +kernel

def archiveAnalysis (m : Archive) : Analysis Archive := Option.get _ (isSome_archiveAnalysis m)

theorem analyze_archive (m : Archive) :
    archive.analyze Config.standard.schema Config.standard.tags m = .ok (archiveAnalysis m) :=
  ok_get (isSome_archiveAnalysis m)

theorem wellJoined_archive {m n t : Archive} {name : String}
    (h : ∃ x ∈ (archiveAnalysis m).associations, x.name = name ∧ x.target = t ∧
      x.through = some n ∧ ∃ p ∈ archive.joinKeys? (archiveAnalysis n).keys m x.target x.hint,
        p.1.keyType = (archiveAnalysis m).primaryKey.keyType ∧
          p.2.keyType = (archiveAnalysis t).primaryKey.keyType) :
    ∃ x k l, x.name = name ∧ archive.WellJoined .standard m x (archiveAnalysis m)
      (archiveAnalysis t) (archiveAnalysis n) k l := by
  obtain ⟨x, hx, hname, rfl, hn, ⟨k, l⟩, hkeys, hk, hl⟩ := h
  exact ⟨x, k, l, hname, analyze_archive m, hx, analyze_archive x.target,
    ⟨n, hn, analyze_archive n⟩, hkeys, hk, hl⟩

theorem wellJoined_folders : ∃ x k l, x.name = "folders" ∧ archive.WellJoined .standard .sheet x
    (archiveAnalysis .sheet) (archiveAnalysis .folder) (archiveAnalysis .filing) k l :=
  wellJoined_archive (by decide +kernel)

theorem wellJoined_sheets : ∃ x k l, x.name = "sheets" ∧ archive.WellJoined .standard .label x
    (archiveAnalysis .label) (archiveAnalysis .sheet) (archiveAnalysis .marking) k l :=
  wellJoined_archive (by decide +kernel)

theorem isSome_sheets : ((ofConfig 0 .standard : Registry Archive).schemaFor archive
    .sheet).result.toOption.isSome := by
  decide +kernel

theorem isSome_filings : ((ofConfig 0 .standard : Registry Archive).schemaFor archive
    .filing).result.toOption.isSome := by
  decide +kernel

/-- Sheets and folders are joined by their primary keys. Labels and sheets have keys of two types,
so no registry has a schema of labels. -/
theorem archive_keys_paired :
    (∃ s t u, ((ofConfig 0 .standard).schemaFor archive .sheet).result = .ok s ∧
      ∃ r ∈ s.relations, r.name = "folders" ∧ r.kind = .manyToMany ∧ archive.Paired s t r ∧
        ∃ j ∈ r.through, r.Joins s t u j) ∧
    (∃ x r, x.name = "folders" ∧ archive.resolve (archiveAnalysis .sheet).keys x
      (archiveAnalysis .folder).keys (some (archiveAnalysis .filing).keys) = .ok r ∧
        r.kind = .manyToMany) ∧
    ∀ (R : Registry Archive) s, Reached archive .standard R →
      (R.schemaFor archive .label).result ≠ .ok s := by
  obtain ⟨hpaired, hresolved⟩ := relation_keys_paired archive .standard
  refine ⟨?_, ?_, ?_⟩
  · have hs := ok_get isSome_sheets
    have hr : ∃ r ∈ (Option.get _ isSome_sheets).relations, r.name = "folders" ∧
        r.kind = .manyToMany := by
      decide +kernel
    obtain ⟨r, hr, hname, hkind⟩ := hr
    obtain ⟨t, -, htypes, hjoins⟩ := hpaired _ .sheet _ (.fresh 0) hs r hr
    obtain ⟨j, u, hj, -, hu⟩ := hjoins hkind
    exact ⟨_, t, u, hs, r, hr, hname, hkind, htypes, j, hj, hu⟩
  · obtain ⟨x, k, l, hname, hx⟩ := wellJoined_folders
    obtain ⟨r, hr, hkind⟩ := (hresolved _ _ _ _ _ _ _ hx).1 (by decide +kernel)
    exact ⟨x, r, hname, hr, hkind⟩
  · obtain ⟨x, k, l, -, hx⟩ := wellJoined_sheets
    exact ((hresolved _ _ _ _ _ _ _ hx).2 (by decide +kernel)).2

/-- The codes of sheets are texts and their primary keys are numbers, and yet sheets have a schema.
The keys of labels and of sheets are each joined by a key of the same type, and yet labels have no
schema. -/
theorem archive_keys_apart :
    (∃ s u, ((ofConfig 0 .standard).schemaFor archive .sheet).result = .ok s ∧
      ((ofConfig 0 .standard).schemaFor archive .filing).result = .ok u ∧
      ∃ r ∈ s.relations, ∃ j ∈ r.through, j.model = .filing ∧
        ∃ k ∈ u.foreignKeys, k.field.column = j.ownerColumn ∧
          k.keyType ≠ s.primaryKey.keyType) ∧
    (∃ x k l, x.name = "sheets" ∧ archive.WellJoined .standard .label x (archiveAnalysis .label)
      (archiveAnalysis .sheet) (archiveAnalysis .marking) k l) ∧
    ((ofConfig 0 .standard : Registry Archive).schemaFor archive .label).result =
      .error (.invalidAssociation "Label" "sheets"
        "string key id cannot match integer key id") := by
  refine ⟨⟨_, _, ok_get isSome_sheets, ok_get isSome_filings, ?_⟩, wellJoined_sheets, ?_⟩
  · decide +kernel
  · decide +kernel

end Registry

end RecordGraph
