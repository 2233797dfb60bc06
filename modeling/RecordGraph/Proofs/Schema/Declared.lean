import Mathlib.Data.List.Nodup
import RecordGraph.Schema.Analysis

/-!
# Fields and associations of an analysis

Every field of an analysis stands for one declared column, and every association for one declared
reference or collection. The primary key and the foreign keys are mapped fields of the analysis.
-/

namespace RecordGraph

variable {M : Type}

/-- The field stands for a declared column of the model. -/
structure Family.StandsFor (F : Family M) (m : M) (f : Field) (d : FieldDecl M)
    (T : ColumnType) : Prop where
  declared : (F.model m).fields[f.index]? = some d
  name_eq : f.name = d.name
  type_eq : d.type = .column T
  kind_eq : f.kind = T.kind
  /-- An excluded column is no foreign key. -/
  unlinked : f.isExcluded = true → f.foreignKey = none

/-- The association stands for a declared field of its kind. -/
structure Family.Announces (F : Family M) (m : M) (a : Association M) (d : FieldDecl M) : Prop where
  declared : (F.model m).fields[a.index]? = some d
  name_eq : a.name = d.name
  single : a.isCollection = false → a.through = none ∧ ∃ boxed, d.type = .reference a.target boxed
  several : a.isCollection = true → d.type = .collection a.target a.through

namespace Family

variable {F : Family M} {defaults : KeyDefaults} {options : TagOptions} {m : M}

/-! ### Roles -/

theorem associationRole_field? {i : Nat} {d : FieldDecl M} {tags : Tags} {t : M} {c : Bool}
    {join : Option M} {r : FieldRole M}
    (h : F.associationRole options m i d tags t c join = .ok r) : r.field? = none := by
  simp only [associationRole] at h
  split at h
  · cases h
    rfl
  · split at h
    · cases h
    · cases h
      rfl

theorem associationRole_association? {i : Nat} {d : FieldDecl M} {tags : Tags} {t : M} {c : Bool}
    {join : Option M} {r : FieldRole M} {a : Association M}
    (h : F.associationRole options m i d tags t c join = .ok r) (ha : r.association? = some a) :
    a.name = d.name ∧ a.index = i ∧ a.target = t ∧ a.isCollection = c ∧ a.through = join := by
  simp only [associationRole] at h
  split at h
  · cases h
    cases ha
  · split at h
    · cases h
    · cases h
      cases ha
      exact ⟨rfl, rfl, rfl, rfl, rfl⟩

theorem role_field {i : Nat} {d : FieldDecl M} {r : FieldRole M} {f : Field}
    (h : F.role defaults options m i d = .ok r) (hf : r.field? = some f) :
    f.index = i ∧ f.name = d.name ∧ (f.isExcluded = true → f.foreignKey = none) ∧
      (f.isExcluded = true → f.isPrimaryKey = false) ∧
      ∃ T, d.type = .column T ∧ f.kind = T.kind := by
  simp only [role] at h
  split at h
  case h_1 T hT =>
    split at h
    · cases h
      cases hf
      exact ⟨rfl, rfl, fun _ => rfl, fun _ => rfl, T, hT, rfl⟩
    · split at h
      · cases h
      · cases h
        cases hf
        exact ⟨rfl, rfl, fun he => absurd he (by simp [mappedField]),
          fun he => absurd he (by simp [mappedField]), T, hT, rfl⟩
  case h_2 =>
    rw [associationRole_field? h] at hf
    cases hf
  case h_3 =>
    rw [associationRole_field? h] at hf
    cases hf

theorem role_association {i : Nat} {d : FieldDecl M} {r : FieldRole M} {a : Association M}
    (h : F.role defaults options m i d = .ok r) (ha : r.association? = some a) :
    a.name = d.name ∧ a.index = i ∧
      (a.isCollection = false → a.through = none ∧ ∃ boxed, d.type = .reference a.target boxed) ∧
      (a.isCollection = true → d.type = .collection a.target a.through) := by
  simp only [role] at h
  split at h
  case h_1 =>
    split at h
    · cases h
      cases ha
    · split at h
      · cases h
      · cases h
        cases ha
  case h_2 t boxed ht =>
    obtain ⟨hn, hi, hm, hc, hj⟩ := associationRole_association? h ha
    exact ⟨hn, hi, fun _ => ⟨hj, boxed, hm ▸ ht⟩, fun hs => absurd (hc.symm.trans hs) (by simp)⟩
  case h_3 t join ht =>
    obtain ⟨hn, hi, hm, hc, hj⟩ := associationRole_association? h ha
    exact ⟨hn, hi, fun hs => absurd (hc.symm.trans hs) (by simp), fun _ => by rw [ht, hm, hj]⟩

theorem roles_cons {first : Option String} {i : Nat} {d : FieldDecl M} {ds : List (FieldDecl M)}
    {rs : List (FieldRole M)} (h : F.roles defaults options m first i (d :: ds) = .ok rs) :
    ∃ r rest first', F.role defaults options m i d = .ok r ∧
      F.roles defaults options m first' (i + 1) ds = .ok rest ∧ rs = r :: rest := by
  simp only [roles] at h
  cases hr : F.role defaults options m i d with
  | error e =>
    rw [hr] at h
    cases h
  | ok r =>
    simp only [hr] at h
    split at h
    · cases h
    · split at h
      · cases h
      · rename_i rest hrest
        cases h
        exact ⟨r, rest, _, rfl, hrest, rfl⟩

theorem role_of_mem_roles {ds : List (FieldDecl M)} {first : Option String} {i : Nat}
    {rs : List (FieldRole M)} (h : F.roles defaults options m first i ds = .ok rs)
    {r : FieldRole M} (hr : r ∈ rs) :
    ∃ j d, ds[j]? = some d ∧ F.role defaults options m (i + j) d = .ok r := by
  induction ds generalizing first i rs with
  | nil =>
    simp only [roles, Except.ok.injEq] at h
    subst h
    cases hr
  | cons d ds ih =>
    obtain ⟨q, rest, first', hq, hrest, rfl⟩ := roles_cons h
    rcases List.mem_cons.mp hr with rfl | hr
    · exact ⟨0, d, rfl, hq⟩
    · obtain ⟨j, e, he, hj⟩ := ih hrest hr
      refine ⟨j + 1, e, he, ?_⟩
      rw [show i + (j + 1) = i + 1 + j by omega]
      exact hj

theorem pairwise_index_of_roles {ds : List (FieldDecl M)} {first : Option String} {i : Nat}
    {rs : List (FieldRole M)} (h : F.roles defaults options m first i ds = .ok rs) :
    (rs.filterMap FieldRole.field?).Pairwise fun f g => f.index < g.index := by
  induction ds generalizing first i rs with
  | nil =>
    simp only [roles, Except.ok.injEq] at h
    subst h
    exact List.Pairwise.nil
  | cons d ds ih =>
    obtain ⟨q, rest, first', hq, hrest, rfl⟩ := roles_cons h
    have tail := ih hrest
    cases hf : q.field? with
    | none => simpa [List.filterMap_cons, hf] using tail
    | some f =>
      rw [List.filterMap_cons_some hf, List.pairwise_cons]
      refine ⟨fun g hg => ?_, tail⟩
      obtain ⟨r, hr, hg⟩ := List.mem_filterMap.mp hg
      obtain ⟨j, e, -, hj⟩ := role_of_mem_roles hrest hr
      have hfi := (role_field hq hf).1
      have hgi := (role_field hj hg).1
      omega

/-! ### Analyses -/

theorem analyze_cases {a : Analysis M} (h : F.analyze defaults options m = .ok a) :
    ∃ roles place keyField, F.roles defaults options m none 0 (F.model m).fields = .ok roles ∧
      F.keyPlace? defaults m (roles.filterMap FieldRole.field?) = some place ∧
      a.model = m ∧
      a.fields = (roles.filterMap FieldRole.field?).modify place
        (fun f => { f with isPrimaryKey := true }) ∧
      a.fields[place]? = some keyField ∧
      PrimaryKey.ofField keyField options.name = .ok a.primaryKey ∧
      ForeignKey.ofFields a.fields = .ok a.foreignKeys ∧
      a.associations = roles.filterMap FieldRole.association? := by
  simp only [analyze] at h
  cases hroles : F.roles defaults options m none 0 (F.model m).fields with
  | error e =>
    rw [hroles] at h
    cases h
  | ok roles =>
    simp only [hroles] at h
    cases hplace : F.keyPlace? defaults m (roles.filterMap FieldRole.field?) with
    | none =>
      rw [hplace] at h
      cases h
    | some place =>
      simp only [hplace] at h
      split at h
      · cases h
      · rename_i keyField hkey
        split at h
        · cases h
        · rename_i primaryKey hprimary
          split at h
          · cases h
          · rename_i foreignKeys hforeign
            cases h
            exact ⟨roles, place, keyField, rfl, hplace, rfl, rfl, hkey, hprimary, hforeign, rfl⟩

theorem analyze_model {a : Analysis M} (h : F.analyze defaults options m = .ok a) :
    a.model = m := by
  obtain ⟨_, _, _, -, -, hm, -⟩ := analyze_cases h
  exact hm

theorem mem_modify_marked {fs : List Field} {place : Nat} {f : Field}
    (h : f ∈ fs.modify place fun f => { f with isPrimaryKey := true }) :
    ∃ g ∈ fs, f = g ∨ f = { g with isPrimaryKey := true } := by
  obtain ⟨i, hi⟩ := List.mem_iff_getElem?.mp h
  rw [List.getElem?_modify] at hi
  obtain ⟨g, hg, he⟩ := Option.map_eq_some_iff.mp hi
  refine ⟨g, List.mem_of_getElem? hg, ?_⟩
  split at he
  · exact Or.inr he.symm
  · exact Or.inl he.symm

theorem exists_standsFor {a : Analysis M} (h : F.analyze defaults options m = .ok a) {f : Field}
    (hf : f ∈ a.fields) : ∃ d T, F.StandsFor m f d T := by
  obtain ⟨roles, place, -, hroles, -, -, hfields, -⟩ := analyze_cases h
  rw [hfields] at hf
  obtain ⟨g, hg, hfg⟩ := mem_modify_marked hf
  obtain ⟨r, hr, hgr⟩ := List.mem_filterMap.mp hg
  obtain ⟨j, d, hd, hj⟩ := role_of_mem_roles hroles hr
  obtain ⟨hi, hn, hx, -, T, hT, hk⟩ := role_field hj hgr
  have hdecl : (F.model m).fields[g.index]? = some d := by
    rw [hi, Nat.zero_add]
    exact hd
  rcases hfg with rfl | rfl
  · exact ⟨d, T, hdecl, hn, hT, hk, hx⟩
  · exact ⟨d, T, hdecl, hn, hT, hk, hx⟩

theorem index_injective {a : Analysis M} (h : F.analyze defaults options m = .ok a) {f g : Field}
    (hf : f ∈ a.fields) (hg : g ∈ a.fields) (he : f.index = g.index) : f = g := by
  obtain ⟨roles, place, -, hroles, -, -, hfields, -⟩ := analyze_cases h
  have sorted := pairwise_index_of_roles hroles
  have same : a.fields.map Field.index = (roles.filterMap FieldRole.field?).map Field.index := by
    rw [hfields]
    refine List.ext_getElem? fun i => ?_
    rw [List.getElem?_map, List.getElem?_map, List.getElem?_modify]
    cases (roles.filterMap FieldRole.field?)[i]? with
    | none => rfl
    | some x => by_cases hi : place = i <;> simp [hi]
  have nodup : (a.fields.map Field.index).Nodup := by
    rw [same]
    exact (List.pairwise_map.mpr sorted).imp fun hlt => Nat.ne_of_lt hlt
  exact List.inj_on_of_nodup_map nodup hf hg he

theorem exists_announces {a : Analysis M} (h : F.analyze defaults options m = .ok a)
    {x : Association M} (hx : x ∈ a.associations) : ∃ d, F.Announces m x d := by
  obtain ⟨roles, -, -, hroles, -, -, -, -, -, -, hassociations⟩ := analyze_cases h
  rw [hassociations] at hx
  obtain ⟨r, hr, hxr⟩ := List.mem_filterMap.mp hx
  obtain ⟨j, d, hd, hj⟩ := role_of_mem_roles hroles hr
  obtain ⟨hn, hi, hsingle, hseveral⟩ := role_association hj hxr
  refine ⟨d, ?_, hn, hsingle, hseveral⟩
  rw [hi, Nat.zero_add]
  exact hd

/-! ### Keys -/

theorem ofField_cases {f : Field} {tagName : String} {k : PrimaryKey}
    (h : PrimaryKey.ofField f tagName = .ok k) :
    k.field = f ∧ KeyType.ofKind? f.kind = some k.keyType := by
  simp only [PrimaryKey.ofField] at h
  split at h
  · cases h
  · rename_i keyType hkind
    split at h
    · cases h
    · cases h
      exact ⟨rfl, hkind⟩

theorem primaryKey_mem {a : Analysis M} (h : F.analyze defaults options m = .ok a) :
    a.primaryKey.field ∈ a.fields ∧ a.primaryKey.field.isExcluded = false := by
  obtain ⟨roles, place, keyField, hroles, hplace, -, hfields, hkey, hprimary, -⟩ := analyze_cases h
  rw [(ofField_cases hprimary).1]
  refine ⟨List.mem_of_getElem? hkey, ?_⟩
  rw [hfields, List.getElem?_modify] at hkey
  obtain ⟨g, hg, he⟩ := Option.map_eq_some_iff.mp hkey
  have hx : keyField.isExcluded = g.isExcluded := by
    rw [← he]
    split <;> rfl
  rw [hx]
  simp only [keyPlace?] at hplace
  split at hplace
  · rename_i i hi
    cases hplace
    obtain ⟨hlt, hmarked, -⟩ := List.findIdx?_eq_some_iff_getElem.mp hi
    obtain ⟨rfl⟩ := Option.some_inj.mp (hg.symm.trans (List.getElem?_eq_getElem hlt))
    obtain ⟨r, hr, hgr⟩ := List.mem_filterMap.mp (List.getElem_mem hlt)
    obtain ⟨j, d, -, hj⟩ := role_of_mem_roles hroles hr
    obtain ⟨-, -, -, hunmarked, -⟩ := role_field hj hgr
    by_contra hexcluded
    have := hunmarked (by simpa using hexcluded)
    rw [hmarked] at this
    cases this
  · obtain ⟨hlt, hchosen, -⟩ := List.findIdx?_eq_some_iff_getElem.mp hplace
    obtain ⟨rfl⟩ := Option.some_inj.mp (hg.symm.trans (List.getElem?_eq_getElem hlt))
    simp only [Bool.and_eq_true, Bool.not_eq_true'] at hchosen
    exact hchosen.1

theorem kind_of_primaryKey {a : Analysis M} (h : F.analyze defaults options m = .ok a) :
    KeyType.ofKind? a.primaryKey.field.kind = some a.primaryKey.keyType := by
  obtain ⟨_, _, keyField, -, -, -, -, -, hprimary, -⟩ := analyze_cases h
  obtain ⟨hfield, hkind⟩ := ofField_cases hprimary
  rw [hfield, hkind]

theorem ofField?_cases {f : Field} {k : ForeignKey} (h : ForeignKey.ofField? f = .ok (some k)) :
    k.field = f ∧ f.foreignKey = some k.reference ∧ KeyType.ofKind? f.kind = some k.keyType := by
  simp only [ForeignKey.ofField?] at h
  split at h
  · cases h
  · rename_i reference hreference
    split at h
    · cases h
    · rename_i keyType hkind
      cases h
      exact ⟨rfl, hreference, hkind⟩

theorem ofField?_of_mem_ofFields {fs : List Field} {ks : List ForeignKey}
    (h : ForeignKey.ofFields fs = .ok ks) {k : ForeignKey} (hk : k ∈ ks) :
    ∃ f ∈ fs, ForeignKey.ofField? f = .ok (some k) := by
  induction fs generalizing ks with
  | nil =>
    simp only [ForeignKey.ofFields, Except.ok.injEq] at h
    subst h
    cases hk
  | cons f fs ih =>
    simp only [ForeignKey.ofFields] at h
    split at h
    · cases h
    · rename_i here hhere
      split at h
      · cases h
      · rename_i rest hrest
        cases h
        rcases List.mem_append.mp hk with hk | hk
        · refine ⟨f, List.mem_cons_self, ?_⟩
          rw [hhere, Option.mem_toList.mp hk]
        · obtain ⟨g, hg, hgk⟩ := ih hrest hk
          exact ⟨g, List.mem_cons_of_mem f hg, hgk⟩

theorem field_of_mem_ofFields {fs : List Field} {ks : List ForeignKey}
    (h : ForeignKey.ofFields fs = .ok ks) {k : ForeignKey} (hk : k ∈ ks) :
    k.field ∈ fs ∧ k.field.foreignKey = some k.reference := by
  obtain ⟨f, hf, hfk⟩ := ofField?_of_mem_ofFields h hk
  obtain ⟨rfl, hreference, -⟩ := ofField?_cases hfk
  exact ⟨hf, hreference⟩

theorem foreignKey_mem {a : Analysis M} (h : F.analyze defaults options m = .ok a)
    {k : ForeignKey} (hk : k ∈ a.foreignKeys) :
    k.field ∈ a.fields ∧ k.field.isExcluded = false := by
  obtain ⟨_, _, _, -, -, -, -, -, -, hforeign, -⟩ := analyze_cases h
  obtain ⟨hmem, href⟩ := field_of_mem_ofFields hforeign hk
  refine ⟨hmem, ?_⟩
  obtain ⟨d, T, hstands⟩ := exists_standsFor h hmem
  by_contra hexcluded
  have := hstands.unlinked (by simpa using hexcluded)
  rw [href] at this
  cases this

theorem kind_of_foreignKey {a : Analysis M} (h : F.analyze defaults options m = .ok a)
    {k : ForeignKey} (hk : k ∈ a.foreignKeys) :
    KeyType.ofKind? k.field.kind = some k.keyType := by
  obtain ⟨_, _, _, -, -, -, -, -, -, hforeign, -⟩ := analyze_cases h
  obtain ⟨f, -, hfk⟩ := ofField?_of_mem_ofFields hforeign hk
  obtain ⟨rfl, -, hkind⟩ := ofField?_cases hfk
  exact hkind

end Family

end RecordGraph
