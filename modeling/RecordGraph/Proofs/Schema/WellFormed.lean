import RecordGraph.Proofs.Schema.Roles

/-!
# Well-formed models

A model can be analysed if and only if it is well-formed: its tags ask for nothing that a field of
its kind cannot be, and exactly one column can be the primary key. The analysis then puts every
declared field into one class, in the order of declaration, marks the key column and no other one,
and takes the foreign keys from the mapped columns that are tagged as such.
-/

namespace RecordGraph

variable {M : Type}

namespace FieldDecl

variable (d : FieldDecl M)

/-- A column that cannot hold nothing. -/
def Required : Prop := ∃ T, d.type = .column T ∧ T.isNullable = false

/-- A column that can hold keys. -/
def HoldsKeys : Prop :=
  ∃ T, d.type = .column T ∧ (T.kind.isInteger = true ∨ T.kind.isStringLike = true)

end FieldDecl

namespace Family

variable (F : Family M) (defaults : KeyDefaults) (options : TagOptions) (m : M)

/-- The column that is the primary key where no column is tagged as it. -/
def implicitColumn : String := (F.model m).primaryKey.getD defaults.primaryKey

/-- A mapped column that has the name of the implicit one. -/
def IsImplicit (d : FieldDecl M) : Prop :=
  d.fieldClass options = .mapped ∧ d.columnName options = F.implicitColumn defaults m

/-- The declared field in a place is the key column: the one that is tagged as it, or without such
a field the first one that has the implicit column. -/
inductive KeyPlace (i : Nat) (d : FieldDecl M) : Prop where
  | tagged (declared : (F.model m).fields[i]? = some d) (marked : d.Marked options)
  | implicit (declared : (F.model m).fields[i]? = some d)
      (unmarked : ∀ e : FieldDecl M, e ∈ (F.model m).fields → ¬ e.Marked options)
      (column : F.IsImplicit defaults options m d)
      (first : ∀ j e, (F.model m).fields[j]? = some e → F.IsImplicit defaults options m e → i ≤ j)

/-- The declarations of the model can be analysed. -/
structure WellFormed : Prop where
  admissible : ∀ d ∈ (F.model m).fields, d.Admissible options
  /-- At most one mapped column is tagged as the primary key. -/
  single : ∀ (i j : Nat) (d e : FieldDecl M), (F.model m).fields[i]? = some d →
    (F.model m).fields[j]? = some e → d.Marked options → e.Marked options → i = j
  /-- Where none is tagged, some mapped column is the implicit one. -/
  keyed : (∀ d ∈ (F.model m).fields, ¬ d.Marked options) →
    ∃ d ∈ (F.model m).fields, F.IsImplicit defaults options m d
  keyType : ∀ i d, F.KeyPlace defaults options m i d → d.Required ∧ d.HoldsKeys
  foreignKeys : ∀ d ∈ (F.model m).fields, d.fieldClass options = .mapped →
    (d.tag? options Tags.foreignKey).isSome = true → d.HoldsKeys

def placesIn (a : Analysis M) : FieldClass → List Nat
  | .mapped => (a.fields.filter fun f => !f.isExcluded).map Field.index
  | .excluded => (a.fields.filter fun f => f.isExcluded).map Field.index
  | .association => a.associations.map Association.index
  | .dropped => []

/-- The analysis has every declared field of the model once, in its class and in order, and its keys
are the columns that the tags tell. -/
structure Classified (a : Analysis M) : Prop where
  classes : ∀ c, c ≠ .dropped → placesIn a c = F.placesOf options m c
  once : ∀ i, i < (F.model m).fields.length → ∃! c, i ∈ F.placesOf options m c
  ordered : a.fields.Pairwise fun f g => f.index < g.index
  reads : ∀ f ∈ a.fields, ∃ d T, F.Reads options m f d T
  announces : ∀ x ∈ a.associations, ∃ d : FieldDecl M,
    F.Announces m x d ∧ x.hint = d.tag? options Tags.relationKey
  key_mem : a.primaryKey.field ∈ a.fields ∧ a.primaryKey.field.isExcluded = false
  /-- No other field is flagged as the primary key. -/
  flagged : ∀ f ∈ a.fields, f.isPrimaryKey = true ↔ f = a.primaryKey.field
  key_place : ∃ d, F.KeyPlace defaults options m a.primaryKey.field.index d
  key_type : KeyType.ofKind? a.primaryKey.field.kind = some a.primaryKey.keyType
  foreignKeys : a.foreignKeys.map ForeignKey.field = a.fields.filter fun f => f.foreignKey.isSome
  foreignKey : ∀ k ∈ a.foreignKeys, k.field.isExcluded = false ∧
    k.field.foreignKey = some k.reference ∧ KeyType.ofKind? k.field.kind = some k.keyType

variable {F defaults options m}

/-! ### The place of the key -/

theorem keyPlace_unique (h : ∀ (i j : Nat) (d e : FieldDecl M), (F.model m).fields[i]? = some d →
    (F.model m).fields[j]? = some e → d.Marked options → e.Marked options → i = j)
    {i j : Nat} {d e : FieldDecl M} (hd : F.KeyPlace defaults options m i d)
    (he : F.KeyPlace defaults options m j e) : i = j := by
  cases hd with
  | tagged hd hmarked =>
    cases he with
    | tagged he hmarked' => exact h i j d e hd he hmarked hmarked'
    | implicit _ hnone => exact absurd hmarked (hnone d (List.mem_of_getElem? hd))
  | implicit hd hnone hcolumn hfirst =>
    cases he with
    | tagged he hmarked => exact absurd hmarked (hnone e (List.mem_of_getElem? he))
    | implicit he _ hcolumn' hfirst' =>
      exact Nat.le_antisymm (hfirst j e he hcolumn') (hfirst' i d hd hcolumn)

theorem KeyPlace.declared {i : Nat} {d : FieldDecl M} (h : F.KeyPlace defaults options m i d) :
    (F.model m).fields[i]? = some d := by
  cases h with
  | tagged hd => exact hd
  | implicit hd => exact hd

theorem findIdx?_sorted {fs : List Field} (sorted : fs.Pairwise fun f g => f.index < g.index)
    {p : Field → Bool} {n : Nat} (h : fs.findIdx? p = some n) :
    ∃ f, fs[n]? = some f ∧ p f = true ∧ ∀ g ∈ fs, p g = true → f.index ≤ g.index := by
  obtain ⟨hn, hp, hbefore⟩ := List.findIdx?_eq_some_iff_getElem.mp h
  refine ⟨fs[n], List.getElem?_eq_getElem hn, hp, fun g hg hpg => ?_⟩
  obtain ⟨k, hk, rfl⟩ := List.mem_iff_getElem.mp hg
  by_cases hlt : k < n
  · exact absurd hpg (hbefore k hlt)
  · rcases Nat.eq_or_lt_of_le (Nat.le_of_not_lt hlt) with rfl | hgt
    · exact Nat.le_refl _
    · exact Nat.le_of_lt (List.pairwise_iff_getElem.mp sorted n k hn hk hgt)

variable (defaults) in
theorem exists_column_of_mapped {i : Nat} {d : FieldDecl M} (hd : (F.model m).fields[i]? = some d)
    (h : d.fieldClass options = .mapped) : ∃ T, ∃ f ∈ F.columns defaults options m, f.index = i ∧
      (f.isPrimaryKey = true ↔ d.Marked options) ∧ F.Reads options m f d T := by
  obtain ⟨T, hT⟩ := FieldType.exists_column (FieldDecl.fieldClass_eq_mapped.mp h).1
  exact ⟨T, exists_mem_columns defaults options hd hT⟩

theorem Reads.mapped_iff {f : Field} {d : FieldDecl M} {T : ColumnType}
    (h : F.Reads options m f d T) : f.isExcluded = false ↔ d.fieldClass options = .mapped := by
  have hcolumn : d.type.isAssociation = false := by
    rw [h.type_eq]
    rfl
  rw [FieldDecl.fieldClass_eq_mapped, ← Bool.not_eq_true, ← Bool.not_eq_true, h.excluded_iff,
    FieldDecl.fieldClass_eq_excluded]
  simp [hcolumn]

theorem Reads.isImplicit_iff {f : Field} {d : FieldDecl M} {T : ColumnType}
    (h : F.Reads options m f d T) :
    (!f.isExcluded && decide (f.column = F.implicitColumn defaults m)) = true ↔
      F.IsImplicit defaults options m d := by
  rw [Bool.and_eq_true, Bool.not_eq_true', decide_eq_true_eq, h.mapped_iff]
  refine and_congr_right fun hclass => ?_
  rw [h.column_eq hclass]

theorem not_marked_of_findIdx? (h : (F.columns defaults options m).findIdx?
    (fun f => f.isPrimaryKey) = none) {d : FieldDecl M} (hd : d ∈ (F.model m).fields) :
    ¬ d.Marked options := by
  intro hmarked
  obtain ⟨i, hi⟩ := List.mem_iff_getElem?.mp hd
  obtain ⟨T, f, hf, -, hiff, -⟩ := exists_column_of_mapped defaults hi hmarked.1
  cases (hiff.mpr hmarked).symm.trans (List.findIdx?_eq_none_iff.mp h f hf)

theorem keyPlace?_eq_some
    (sorted : (F.columns defaults options m).Pairwise fun f g => f.index < g.index) {n : Nat}
    (h : F.keyPlace? defaults m (F.columns defaults options m) = some n) :
    ∃ f d T, (F.columns defaults options m)[n]? = some f ∧ f.isExcluded = false ∧
      F.Reads options m f d T ∧ F.KeyPlace defaults options m f.index d := by
  simp only [keyPlace?] at h
  split at h
  · rename_i k hk
    cases h
    obtain ⟨f, hf, hmarked, -⟩ := findIdx?_sorted sorted hk
    obtain ⟨d, T, hiff, hreads⟩ := reads_of_mem_columns (List.mem_of_getElem? hf)
    have hd := hiff.mp hmarked
    exact ⟨f, d, T, hf, hreads.mapped_iff.mpr hd.1, hreads, .tagged hreads.declared hd⟩
  · rename_i hnone
    obtain ⟨f, hf, hchosen, hfirst⟩ := findIdx?_sorted sorted h
    obtain ⟨d, T, -, hreads⟩ := reads_of_mem_columns (List.mem_of_getElem? hf)
    have hd := hreads.isImplicit_iff.mp hchosen
    refine ⟨f, d, T, hf, hreads.mapped_iff.mpr hd.1, hreads,
      .implicit hreads.declared (fun e he => not_marked_of_findIdx? hnone he) hd
        fun j e he hcolumn => ?_⟩
    obtain ⟨U, g, hg, rfl, -, hreads'⟩ := exists_column_of_mapped defaults he hcolumn.1
    exact hfirst g hg (hreads'.isImplicit_iff.mpr hcolumn)

theorem exists_keyPlace? (h : (∀ d ∈ (F.model m).fields, ¬ d.Marked options) →
    ∃ d ∈ (F.model m).fields, F.IsImplicit defaults options m d) :
    ∃ n, F.keyPlace? defaults m (F.columns defaults options m) = some n := by
  rw [← Option.isSome_iff_exists]
  simp only [keyPlace?]
  split
  · rfl
  · rename_i hnone
    obtain ⟨d, hd, hcolumn⟩ := h fun d hd => not_marked_of_findIdx? hnone hd
    obtain ⟨j, hj⟩ := List.mem_iff_getElem?.mp hd
    obtain ⟨U, g, hg, -, -, hreads⟩ := exists_column_of_mapped defaults hj hcolumn.1
    rw [Option.isSome_iff_ne_none]
    intro habsent
    cases (hreads.isImplicit_iff.mpr hcolumn).symm.trans
      (List.findIdx?_eq_none_iff.mp habsent g hg)

/-! ### Keys -/

theorem exists_ofKind?_iff {kind : ColumnKind} : (∃ t, KeyType.ofKind? kind = some t) ↔
    kind.isInteger = true ∨ kind.isStringLike = true := by
  rw [← Option.isSome_iff_exists]
  cases kind <;> decide

theorem Reads.holdsKeys_iff {f : Field} {d : FieldDecl M} {T : ColumnType}
    (h : F.Reads options m f d T) :
    d.HoldsKeys ↔ ∃ t, KeyType.ofKind? f.kind = some t := by
  rw [exists_ofKind?_iff, h.kind_eq]
  constructor
  · rintro ⟨U, hU, hkeys⟩
    cases h.type_eq.symm.trans hU
    exact hkeys
  · intro hkeys
    exact ⟨T, h.type_eq, hkeys⟩

theorem Reads.required_iff {f : Field} {d : FieldDecl M} {T : ColumnType}
    (h : F.Reads options m f d T) : d.Required ↔ f.isNullable = false := by
  rw [h.nullable_eq]
  constructor
  · rintro ⟨U, hU, hrequired⟩
    cases h.type_eq.symm.trans hU
    exact hrequired
  · intro hrequired
    exact ⟨T, h.type_eq, hrequired⟩

theorem exists_ofField_iff {f : Field} {tagName : String} :
    (∃ k, PrimaryKey.ofField f tagName = .ok k) ↔
      f.isNullable = false ∧ ∃ t, KeyType.ofKind? f.kind = some t := by
  simp only [PrimaryKey.ofField]
  cases KeyType.ofKind? f.kind with
  | none => simp
  | some t => cases f.isNullable <;> simp

theorem isNullable_primaryKey {a : Analysis M} (h : F.analyze defaults options m = .ok a) :
    a.primaryKey.field.isNullable = false := by
  obtain ⟨_, _, keyField, -, -, -, -, -, hprimary, -⟩ := analyze_cases h
  rw [(ofField_cases hprimary).1]
  exact (exists_ofField_iff.mp ⟨_, hprimary⟩).1

theorem exists_ofField?_iff {f : Field} : (∃ k, ForeignKey.ofField? f = .ok k) ↔
    (f.foreignKey.isSome = true → ∃ t, KeyType.ofKind? f.kind = some t) := by
  simp only [ForeignKey.ofField?]
  cases f.foreignKey with
  | none => simp
  | some reference => cases KeyType.ofKind? f.kind <;> simp

theorem exists_ofFields_iff {fs : List Field} : (∃ ks, ForeignKey.ofFields fs = .ok ks) ↔
    ∀ f ∈ fs, f.foreignKey.isSome = true → ∃ t, KeyType.ofKind? f.kind = some t := by
  induction fs with
  | nil => simp [ForeignKey.ofFields]
  | cons f fs ih =>
    rw [List.forall_mem_cons, ← ih, ← exists_ofField?_iff]
    simp only [ForeignKey.ofFields]
    cases ForeignKey.ofField? f with
    | error e => simp
    | ok k => cases ForeignKey.ofFields fs <;> simp

theorem map_field_of_ofFields {fs : List Field} {ks : List ForeignKey}
    (h : ForeignKey.ofFields fs = .ok ks) :
    ks.map ForeignKey.field = fs.filter fun f => f.foreignKey.isSome := by
  induction fs generalizing ks with
  | nil =>
    simp only [ForeignKey.ofFields, Except.ok.injEq] at h
    subst h
    rfl
  | cons f fs ih =>
    simp only [ForeignKey.ofFields] at h
    split at h
    · cases h
    · rename_i here hhere
      split at h
      · cases h
      · rename_i rest hrest
        cases h
        rw [List.map_append, ih hrest]
        cases here with
        | none =>
          have hplain : f.foreignKey.isSome = false := by
            simp only [ForeignKey.ofField?] at hhere
            split at hhere
            · rename_i hnone
              rw [hnone]
              rfl
            · split at hhere <;> cases hhere
          simp [hplain]
        | some k =>
          obtain ⟨rfl, href, -⟩ := ofField?_cases hhere
          simp [href]

/-! ### The field that is marked -/

theorem map_filter_modify {α : Type} {fs : List Field} {n : Nat} {p : Field → Bool}
    {g : Field → α} (hp : ∀ f : Field, p { f with isPrimaryKey := true } = p f)
    (hg : ∀ f : Field, g { f with isPrimaryKey := true } = g f) :
    ((fs.modify n fun f => { f with isPrimaryKey := true }).filter p).map g =
      (fs.filter p).map g := by
  induction fs generalizing n with
  | nil => cases n <;> rfl
  | cons f fs ih =>
    cases n with
    | zero =>
      rw [List.modify_zero_cons, List.filter_cons, List.filter_cons, hp]
      split
      · rw [List.map_cons, List.map_cons, hg]
      · rfl
    | succ n =>
      rw [List.modify_succ_cons, List.filter_cons, List.filter_cons]
      split
      · rw [List.map_cons, List.map_cons, ih]
      · exact ih

theorem map_modify {α : Type} {fs : List Field} {n : Nat} {g : Field → α}
    (hg : ∀ f : Field, g { f with isPrimaryKey := true } = g f) :
    (fs.modify n fun f => { f with isPrimaryKey := true }).map g = fs.map g := by
  simpa using @map_filter_modify α fs n (fun _ => true) g (fun _ => rfl) hg

theorem exists_ofFields_modify_iff {fs : List Field} {n : Nat} :
    (∃ ks, ForeignKey.ofFields (fs.modify n fun f => { f with isPrimaryKey := true }) = .ok ks) ↔
      ∀ f ∈ fs, f.foreignKey.isSome = true → ∃ t, KeyType.ofKind? f.kind = some t := by
  have through : ∀ l : List Field,
      (∀ f ∈ l, f.foreignKey.isSome = true → ∃ t, KeyType.ofKind? f.kind = some t) ↔
        ∀ q ∈ l.map fun f => (f.foreignKey, f.kind),
          q.1.isSome = true → ∃ t, KeyType.ofKind? q.2 = some t := by
    simp only [List.forall_mem_map, implies_true]
  rw [exists_ofFields_iff, through, map_modify fun _ => rfl, ← through]

theorem Reads.mark {f : Field} {d : FieldDecl M} {T : ColumnType} (h : F.Reads options m f d T) :
    F.Reads options m { f with isPrimaryKey := true } d T :=
  ⟨⟨h.declared, h.name_eq, h.type_eq, h.kind_eq, h.unlinked⟩, h.nullable_eq, h.excluded_iff,
    h.column_eq, h.foreignKey_eq⟩

/-! ### The analysis -/

theorem roles_eq_iff {rs : List (FieldRole M)} :
    F.roles defaults options m none 0 (F.model m).fields = .ok rs ↔
      ((∀ d ∈ (F.model m).fields, d.Admissible options) ∧
        (F.model m).fields.Pairwise fun d e => ¬ (d.Marked options ∧ e.Marked options)) ∧
      rs = F.declaredRoles defaults options m := by
  rw [roles_ok_iff]
  exact ⟨fun ⟨ha, hp, _, hrs⟩ => ⟨⟨ha, hp⟩, hrs⟩, fun ⟨⟨ha, hp⟩, hrs⟩ =>
    ⟨ha, hp, (fun h => nomatch h), hrs⟩⟩

variable (defaults) in
theorem sorted_columns (h : (∀ d ∈ (F.model m).fields, d.Admissible options) ∧
    (F.model m).fields.Pairwise fun d e => ¬ (d.Marked options ∧ e.Marked options)) :
    (F.columns defaults options m).Pairwise fun f g => f.index < g.index :=
  pairwise_index_of_roles (roles_eq_iff.mpr ⟨h, rfl⟩)

/-- All that goes into an analysis; nothing else is asked of the model. -/
theorem analyze_ok_iff {a : Analysis M} : F.analyze defaults options m = .ok a ↔
    ((∀ d ∈ (F.model m).fields, d.Admissible options) ∧
      (F.model m).fields.Pairwise fun d e => ¬ (d.Marked options ∧ e.Marked options)) ∧
    ∃ n key, F.keyPlace? defaults m (F.columns defaults options m) = some n ∧ a.model = m ∧
      a.fields = (F.columns defaults options m).modify n
        (fun f => { f with isPrimaryKey := true }) ∧
      a.fields[n]? = some key ∧ PrimaryKey.ofField key options.name = .ok a.primaryKey ∧
      ForeignKey.ofFields a.fields = .ok a.foreignKeys ∧
      a.associations = (F.declaredRoles defaults options m).filterMap FieldRole.association? := by
  constructor
  · intro h
    obtain ⟨rs, n, key, hroles, hrest⟩ := analyze_cases h
    obtain ⟨htags, rfl⟩ := roles_eq_iff.mp hroles
    exact ⟨htags, n, key, hrest⟩
  · rintro ⟨htags, n, key, hplace, hmodel, hfields, hkey, hprimary, hforeign, hassociations⟩
    have hroles : F.roles defaults options m none 0 (F.model m).fields = _ :=
      roles_eq_iff.mpr ⟨htags, rfl⟩
    obtain ⟨model, fields, primaryKey, foreignKeys, associations⟩ := a
    dsimp only at hmodel hfields hkey hprimary hforeign hassociations
    subst hmodel hfields hassociations
    rw [columns] at hplace hkey hforeign
    simp only [analyze, hroles, hplace, hkey, hprimary, hforeign]
    rfl

theorem pairwise_marked_iff :
    ((F.model m).fields.Pairwise fun d e => ¬ (d.Marked options ∧ e.Marked options)) ↔
      ∀ (i j : Nat) (d e : FieldDecl M), (F.model m).fields[i]? = some d →
        (F.model m).fields[j]? = some e → d.Marked options → e.Marked options → i = j := by
  rw [List.pairwise_iff_getElem]
  constructor
  · intro h i j d e hd he hmarked hmarked'
    obtain ⟨hi, rfl⟩ := List.getElem?_eq_some_iff.mp hd
    obtain ⟨hj, rfl⟩ := List.getElem?_eq_some_iff.mp he
    rcases Nat.lt_trichotomy i j with hlt | heq | hgt
    · exact absurd ⟨hmarked, hmarked'⟩ (h i j hi hj hlt)
    · exact heq
    · exact absurd ⟨hmarked', hmarked⟩ (h j i hj hi hgt)
  · rintro h i j hi hj hlt ⟨hmarked, hmarked'⟩
    exact absurd (h i j _ _ (List.getElem?_eq_getElem hi) (List.getElem?_eq_getElem hj) hmarked
      hmarked') (Nat.ne_of_lt hlt)

theorem wellFormed_of_analyze {a : Analysis M} (h : F.analyze defaults options m = .ok a) :
    F.WellFormed defaults options m := by
  obtain ⟨htags, n, key, hplace, -, hfields, hkey, hprimary, hforeign, -⟩ := analyze_ok_iff.mp h
  have single := pairwise_marked_iff.mp htags.2
  obtain ⟨f, d, T, hf, -, hreads, hd⟩ := keyPlace?_eq_some (sorted_columns defaults htags) hplace
  refine ⟨htags.1, single, fun hnone => ?_, fun i e he => ?_, fun e he hclass hlinked => ?_⟩
  · cases hd with
    | tagged hdecl hmarked => exact absurd hmarked (hnone d (List.mem_of_getElem? hdecl))
    | implicit hdecl _ hcolumn => exact ⟨d, List.mem_of_getElem? hdecl, hcolumn⟩
  · obtain rfl := keyPlace_unique single hd he
    obtain rfl := Option.some_inj.mp (hd.declared.symm.trans he.declared)
    rw [hfields, List.getElem?_modify_eq, hf] at hkey
    obtain rfl := Option.some_inj.mp hkey
    obtain ⟨hrequired, hkeys⟩ := exists_ofField_iff.mp ⟨_, hprimary⟩
    exact ⟨hreads.required_iff.mpr hrequired, hreads.holdsKeys_iff.mpr hkeys⟩
  · obtain ⟨j, hj⟩ := List.mem_iff_getElem?.mp he
    obtain ⟨U, g, hg, -, -, hreads'⟩ := exists_column_of_mapped defaults hj hclass
    rw [hfields] at hforeign
    refine hreads'.holdsKeys_iff.mpr (exists_ofFields_modify_iff.mp ⟨_, hforeign⟩ g hg ?_)
    rw [hreads'.foreignKey_eq hclass]
    exact hlinked

theorem exists_analyze (h : F.WellFormed defaults options m) :
    ∃ a, F.analyze defaults options m = .ok a := by
  have htags := And.intro h.admissible (pairwise_marked_iff.mpr h.single)
  obtain ⟨n, hplace⟩ := exists_keyPlace? h.keyed
  obtain ⟨f, d, T, hf, -, hreads, hd⟩ := keyPlace?_eq_some (sorted_columns defaults htags) hplace
  obtain ⟨hrequired, hkeys⟩ := h.keyType _ d hd
  obtain ⟨k, hk⟩ : ∃ k, PrimaryKey.ofField { f with isPrimaryKey := true } options.name = .ok k :=
    exists_ofField_iff.mpr
      ⟨hreads.mark.required_iff.mp hrequired, hreads.mark.holdsKeys_iff.mp hkeys⟩
  obtain ⟨ks, hks⟩ := (exists_ofFields_modify_iff (n := n)).mpr
    fun g (hg : g ∈ F.columns defaults options m) hlinked => by
      obtain ⟨e, U, -, hreads'⟩ := reads_of_mem_columns hg
      have hmapped : g.isExcluded = false := by
        by_contra hexcluded
        rw [hreads'.unlinked (by simpa using hexcluded)] at hlinked
        cases hlinked
      have hclass := hreads'.mapped_iff.mp hmapped
      rw [hreads'.foreignKey_eq hclass] at hlinked
      exact hreads'.holdsKeys_iff.mp
        (h.foreignKeys e (List.mem_of_getElem? hreads'.declared) hclass hlinked)
  have hkey : ((F.columns defaults options m).modify n
      fun f => { f with isPrimaryKey := true })[n]? = some { f with isPrimaryKey := true } := by
    rw [List.getElem?_modify_eq, hf]
    rfl
  exact ⟨⟨m, _, k, ks, _⟩,
    analyze_ok_iff.mpr ⟨htags, n, _, hplace, rfl, rfl, hkey, hk, hks, rfl⟩⟩

theorem classified_of_analyze {a : Analysis M} (h : F.analyze defaults options m = .ok a) :
    F.Classified defaults options m a := by
  obtain ⟨htags, n, key, hplace, -, hfields, hkey, hprimary, hforeign, hassociations⟩ :=
    analyze_ok_iff.mp h
  have sorted := sorted_columns defaults htags
  obtain ⟨f, d, T, hf, -, hreads, hd⟩ := keyPlace?_eq_some sorted hplace
  have hchosen : a.primaryKey.field = { f with isPrimaryKey := true } := by
    rw [(ofField_cases hprimary).1]
    rw [hfields, List.getElem?_modify_eq, hf] at hkey
    exact (Option.some_inj.mp hkey).symm
  constructor
  case classes =>
    intro c hc
    cases c with
    | mapped =>
      rw [placesIn, hfields]
      exact (map_filter_modify (fun _ => rfl) fun _ => rfl).trans map_index_mapped
    | excluded =>
      rw [placesIn, hfields]
      exact (map_filter_modify (fun _ => rfl) fun _ => rfl).trans map_index_excluded
    | association =>
      rw [placesIn, hassociations]
      exact map_index_associations
    | dropped => exact absurd rfl hc
  case once => exact fun i hi => existsUnique_class hi
  case ordered =>
    rw [← List.pairwise_map (f := Field.index), hfields, map_modify fun _ => rfl]
    exact List.pairwise_map.mpr sorted
  case reads =>
    intro g hg
    rw [hfields] at hg
    obtain ⟨g', hg', heq⟩ := mem_modify_marked hg
    obtain ⟨e, U, -, hreads'⟩ := reads_of_mem_columns hg'
    rcases heq with rfl | rfl
    · exact ⟨e, U, hreads'⟩
    · exact ⟨e, U, hreads'.mark⟩
  case announces =>
    intro x hx
    rw [hassociations] at hx
    exact announces_of_mem hx
  case key_mem => exact primaryKey_mem h
  case flagged =>
    intro g hg
    constructor
    · intro hflag
      obtain ⟨j, hj⟩ := List.mem_iff_getElem?.mp hg
      by_cases hjn : n = j
      · subst hjn
        rw [(ofField_cases hprimary).1]
        exact Option.some_inj.mp (hj.symm.trans hkey)
      · have hplain := hj
        rw [hfields, List.getElem?_modify_ne _ _ hjn] at hplain
        obtain ⟨e, U, hiff, hreads'⟩ := reads_of_mem_columns (List.mem_of_getElem? hplain)
        have hsame := keyPlace_unique (pairwise_marked_iff.mp htags.2)
          (.tagged hreads'.declared (hiff.mp hflag)) hd
        refine index_injective h hg (primaryKey_mem h).1 ?_
        rw [hchosen]
        exact hsame
    · rintro rfl
      rw [hchosen]
  case key_place =>
    rw [hchosen]
    exact ⟨d, hd⟩
  case key_type => exact kind_of_primaryKey h
  case foreignKeys => exact map_field_of_ofFields hforeign
  case foreignKey =>
    intro k hk
    exact ⟨(foreignKey_mem h hk).2, (field_of_mem_ofFields hforeign hk).2, kind_of_foreignKey h hk⟩

/-- Exactly the well-formed models can be analysed, and an analysis puts every declared field into
one class and has the key and the foreign keys that the declarations tell. -/
theorem analyze_classifies (F : Family M) (defaults : KeyDefaults) (options : TagOptions) (m : M) :
    ((∃ a, F.analyze defaults options m = .ok a) ↔ F.WellFormed defaults options m) ∧
      ∀ a, F.analyze defaults options m = .ok a → F.Classified defaults options m a :=
  ⟨⟨fun ⟨_, h⟩ => wellFormed_of_analyze h, exists_analyze⟩, fun _ => classified_of_analyze⟩

/-! ### Crates and their slots -/

/-- The models of a small depot. -/
inductive Depot where
  | crate | slot
  deriving DecidableEq, Repr

/-- Crates have a tagged key although they have a column `id`, and fields of every class. Slots have
a key that can be nothing. -/
def depot : Family Depot where
  model
    | .crate => ⟨"Crate", "depot::Crate", "crates", none,
        [⟨"seal", "ll:\"-,pk\"", .column (.plain .text)⟩,
          ⟨"id", "", .column (.plain .bool)⟩,
          ⟨"slot", "", .reference .slot false⟩,
          ⟨"code", "ll:\"pk\"", .column (.plain .text)⟩,
          ⟨"past", "ll:\"-,pk\"", .collection .slot none⟩,
          ⟨"slot_id", "ll:\"fk:slots\"", .column (.option (.plain (.int .i64)))⟩]⟩
    | .slot => ⟨"Slot", "depot::Slot", "slots", some "row",
        [⟨"row", "", .column (.option (.plain (.int .i64)))⟩,
          ⟨"id", "", .column (.plain (.int .i64))⟩]⟩
  all := [.crate, .slot]
  mem_all m := by cases m <;> decide

theorem keys_of_crate : (depot.analyze .standard .standard .crate).toOption.map
    (fun a => (a.primaryKey.field.name, a.foreignKeys.map fun k => k.field.name)) =
      some ("code", ["slot_id"]) := by
  decide +kernel

/-- Crates are classified; slots are not well-formed, since their key column can be nothing. -/
theorem crate_classified :
    (∃ a, depot.analyze .standard .standard .crate = .ok a ∧
      depot.Classified .standard .standard .crate a ∧ a.primaryKey.field.name = "code" ∧
      a.foreignKeys.map (fun k => k.field.name) = ["slot_id"]) ∧
    [.mapped, .excluded, .association, .dropped].map (depot.placesOf .standard .crate) =
      [[1, 3, 5], [0], [2], [4]] ∧
    ¬ depot.WellFormed .standard .standard .slot := by
  refine ⟨?_, by decide +kernel, fun h => ?_⟩
  · have hkeys := keys_of_crate
    cases ha : depot.analyze .standard .standard .crate with
    | error e =>
      rw [ha] at hkeys
      cases hkeys
    | ok a =>
      rw [ha] at hkeys
      simp only [Except.toOption, Option.map_some, Option.some.injEq, Prod.mk.injEq] at hkeys
      exact ⟨a, rfl, (analyze_classifies depot _ _ _).2 a ha, hkeys⟩
  · obtain ⟨a, ha⟩ := (analyze_classifies depot _ _ _).1.mpr h
    have hrefused : (depot.analyze .standard .standard .slot).toOption.isNone := by
      decide +kernel
    rw [ha] at hrefused
    cases hrefused

end Family

end RecordGraph
