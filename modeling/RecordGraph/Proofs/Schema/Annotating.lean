import RecordGraph.Proofs.Schema.History
import RecordGraph.Proofs.Schema.WellFormed
import RecordGraph.Proofs.Tag.Spelling

/-!
# Annotating a column

A model stays well-formed if the tags of its fields change in such a way that every field keeps its
class, its column and its mark. A default or a foreign key is tagged in this way, and its text comes
out of the analysis and of every schema as it was written. One text is taken for no text: a key that
stands alone has the value `true`, and so the default `true` is none, and a foreign key to `true`
refers to nothing.
-/

namespace RecordGraph

variable {M : Type}

/-! ### Tags that change no role -/

/-- The two declarations have one type, class, column and mark. -/
structure FieldDecl.SameRole (options : TagOptions) (d e : FieldDecl M) : Prop where
  type_eq : e.type = d.type
  class_eq : e.fieldClass options = d.fieldClass options
  column_eq : e.columnName options = d.columnName options
  marked_iff : e.Marked options ↔ d.Marked options

namespace FieldDecl

variable {options : TagOptions} {d e : FieldDecl M}

theorem SameRole.refl (d : FieldDecl M) : d.SameRole options d := ⟨rfl, rfl, rfl, Iff.rfl⟩

theorem SameRole.holdsKeys_iff (h : d.SameRole options e) : e.HoldsKeys ↔ d.HoldsKeys := by
  simp only [HoldsKeys, h.type_eq]

theorem SameRole.required_iff (h : d.SameRole options e) : e.Required ↔ d.Required := by
  simp only [Required, h.type_eq]

theorem sameRole_of_tags (htype : e.type = d.type)
    (h : ∀ key, key ∈ [Tags.excludedKey, Tags.columnKey, Tags.primaryKey] →
      e.tag? options key = d.tag? options key) (hname : e.name = d.name) : d.SameRole options e := by
  have hclass : e.fieldClass options = d.fieldClass options := by
    simp only [fieldClass, htype, h Tags.excludedKey (by decide)]
  refine ⟨htype, hclass, ?_, ?_⟩
  · simp only [columnName, h Tags.columnKey (by decide), hname]
  · simp only [Marked, hclass, h Tags.primaryKey (by decide)]

end FieldDecl

namespace Family

/-- The model declares the same fields in both families, up to tags that change no role. -/
structure SameRoles (F F' : Family M) (options : TagOptions) (m : M) : Prop where
  primaryKey_eq : (F'.model m).primaryKey = (F.model m).primaryKey
  length_eq : (F'.model m).fields.length = (F.model m).fields.length
  role : ∀ (i : Nat) (d e : FieldDecl M), (F.model m).fields[i]? = some d →
    (F'.model m).fields[i]? = some e → d.SameRole options e

variable {F F' : Family M} {defaults : KeyDefaults} {options : TagOptions} {m : M}

namespace SameRoles

theorem before (h : F.SameRoles F' options m) {i : Nat} {e : FieldDecl M}
    (he : (F'.model m).fields[i]? = some e) :
    ∃ d, (F.model m).fields[i]? = some d ∧ d.SameRole options e := by
  obtain ⟨hi, -⟩ := List.getElem?_eq_some_iff.mp he
  have hd := List.getElem?_eq_getElem (h.length_eq ▸ hi)
  exact ⟨_, hd, h.role i _ e hd he⟩

theorem after (h : F.SameRoles F' options m) {i : Nat} {d : FieldDecl M}
    (hd : (F.model m).fields[i]? = some d) :
    ∃ e, (F'.model m).fields[i]? = some e ∧ d.SameRole options e := by
  obtain ⟨hi, -⟩ := List.getElem?_eq_some_iff.mp hd
  have he := List.getElem?_eq_getElem (h.length_eq.symm ▸ hi)
  exact ⟨_, he, h.role i d _ hd he⟩

theorem isImplicit_iff (h : F.SameRoles F' options m) {d e : FieldDecl M}
    (hde : d.SameRole options e) :
    F'.IsImplicit defaults options m e ↔ F.IsImplicit defaults options m d := by
  simp only [IsImplicit, implicitColumn, hde.class_eq, hde.column_eq, h.primaryKey_eq]

theorem keyPlace (h : F.SameRoles F' options m) {i : Nat} {e : FieldDecl M}
    (he : F'.KeyPlace defaults options m i e) :
    ∃ d, F.KeyPlace defaults options m i d ∧ d.SameRole options e := by
  obtain ⟨d, hd, hde⟩ := h.before he.declared
  refine ⟨d, ?_, hde⟩
  cases he with
  | tagged _ hmarked => exact .tagged hd (hde.marked_iff.mp hmarked)
  | implicit _ hnone hcolumn hfirst =>
    refine .implicit hd (fun g hg hmarked => ?_) ((h.isImplicit_iff hde).mp hcolumn)
      fun j g hg himplicit => ?_
    · obtain ⟨j, hj⟩ := List.mem_iff_getElem?.mp hg
      obtain ⟨g', hg', hgg⟩ := h.after hj
      exact hnone g' (List.mem_of_getElem? hg') (hgg.marked_iff.mpr hmarked)
    · obtain ⟨g', hg', hgg⟩ := h.after hg
      exact hfirst j g' hg' ((h.isImplicit_iff hgg).mpr himplicit)

end SameRoles

/-- A model stays well-formed as long as the tags that changed ask for nothing impossible. -/
theorem WellFormed.of_sameRoles (h : F.WellFormed defaults options m)
    (hroles : F.SameRoles F' options m)
    (admissible : ∀ e ∈ (F'.model m).fields, e.Admissible options)
    (foreignKeys : ∀ e ∈ (F'.model m).fields, e.fieldClass options = .mapped →
      (e.tag? options Tags.foreignKey).isSome = true → e.HoldsKeys) :
    F'.WellFormed defaults options m := by
  refine ⟨admissible, fun i j e g he hg hmarked hmarked' => ?_, fun hnone => ?_,
    fun i e he => ?_, foreignKeys⟩
  · obtain ⟨d, hd, hde⟩ := hroles.before he
    obtain ⟨d', hd', hdg⟩ := hroles.before hg
    exact h.single i j d d' hd hd' (hde.marked_iff.mp hmarked) (hdg.marked_iff.mp hmarked')
  · obtain ⟨d, hd, himplicit⟩ := h.keyed fun d hd hmarked => by
      obtain ⟨i, hi⟩ := List.mem_iff_getElem?.mp hd
      obtain ⟨e, he, hde⟩ := hroles.after hi
      exact hnone e (List.mem_of_getElem? he) (hde.marked_iff.mpr hmarked)
    obtain ⟨i, hi⟩ := List.mem_iff_getElem?.mp hd
    obtain ⟨e, he, hde⟩ := hroles.after hi
    exact ⟨e, List.mem_of_getElem? he, (hroles.isImplicit_iff hde).mpr himplicit⟩
  · obtain ⟨d, hd, hde⟩ := hroles.keyPlace he
    rw [hde.required_iff, hde.holdsKeys_iff]
    exact h.keyType i d hd

/-! ### Fields of an analysis -/

theorem exists_mem_modify_marked {fs : List Field} {f : Field} (hf : f ∈ fs) (place : Nat) :
    ∃ g ∈ fs.modify place (fun f => { f with isPrimaryKey := true }),
      g = f ∨ g = { f with isPrimaryKey := true } := by
  obtain ⟨j, hj⟩ := List.mem_iff_getElem?.mp hf
  by_cases hplace : place = j
  · refine ⟨_, List.mem_of_getElem? (i := j) ?_, Or.inr rfl⟩
    rw [hplace, List.getElem?_modify_eq, hj]
    rfl
  · refine ⟨f, List.mem_of_getElem? (i := j) ?_, Or.inl rfl⟩
    rw [List.getElem?_modify_ne _ _ hplace]
    exact hj

theorem exists_mappedField {a : Analysis M} (h : F.analyze defaults options m = .ok a) {i : Nat}
    {d : FieldDecl M} {T : ColumnType} (hd : (F.model m).fields[i]? = some d)
    (hT : d.type = .column T) (hx : (d.tag? options Tags.excludedKey).isSome = false) :
    ∃ f ∈ a.fields, f.index = i ∧ f.name = d.name ∧
      f.foreignKey = d.tag? options Tags.foreignKey ∧
      f.default = (d.tag? options Tags.defaultKey).filter (fun s => s ≠ Tags.trueValue) ∧
      ((d.tag? options Tags.defaultKey).isSome = true → f.hasDefault = true) := by
  obtain ⟨-, n, key, -, -, hfields, -⟩ := analyze_ok_iff.mp h
  have hmem : F.mappedField defaults options m i d T (Tags.ofAnnotation options d.annotation) ∈
      F.columns defaults options m :=
    List.mem_filterMap.mpr ⟨_, mem_declaredRoles.mpr ⟨i, d, hd, rfl⟩,
      congrArg FieldRole.field? (roleOf_of_mapped hT hx)⟩
  have hdefault : (d.tag? options Tags.defaultKey).isSome = true →
      (F.mappedField defaults options m i d T
        (Tags.ofAnnotation options d.annotation)).hasDefault = true := by
    intro hsome
    rw [FieldDecl.tag?] at hsome
    simp only [mappedField, hsome, Bool.true_or]
  rw [hfields]
  obtain ⟨f, hf, rfl | rfl⟩ := exists_mem_modify_marked hmem n
  · exact ⟨_, hf, rfl, rfl, rfl, rfl, hdefault⟩
  · exact ⟨_, hf, rfl, rfl, rfl, rfl, hdefault⟩

theorem exists_foreignKey {a : Analysis M} (h : F.analyze defaults options m = .ok a) {f : Field}
    (hf : f ∈ a.fields) {reference : String} (href : f.foreignKey = some reference) :
    ∃ k ∈ a.foreignKeys, k.field = f ∧ k.reference = reference := by
  have hclassified := classified_of_analyze h
  have hmem : f ∈ a.foreignKeys.map ForeignKey.field := by
    rw [hclassified.foreignKeys, List.mem_filter, href]
    exact ⟨hf, rfl⟩
  obtain ⟨k, hk, rfl⟩ := List.mem_map.mp hmem
  have hk' := (hclassified.foreignKey k hk).2.1
  exact ⟨k, hk, rfl, Option.some_inj.mp (hk'.symm.trans href)⟩

/-! ### Refused fields -/

theorem roles_of_role_error {before after : List (FieldDecl M)} {d : FieldDecl M}
    {first : Option String} {i : Nat} {e : Error} (admissible : ∀ b ∈ before, b.Admissible options)
    (single : before.Pairwise fun b c => ¬ (b.Marked options ∧ c.Marked options))
    (unmarked : first.isSome = true → ∀ b ∈ before, ¬ b.Marked options)
    (h : F.role defaults options m (i + before.length) d = .error e) :
    F.roles defaults options m first i (before ++ d :: after) = .error e := by
  induction before generalizing first i with
  | nil =>
    rw [List.length_nil, Nat.add_zero] at h
    simp only [List.nil_append, roles, h]
  | cons b before ih =>
    obtain ⟨hb, hbefore⟩ := List.forall_mem_cons.mp admissible
    obtain ⟨hnext, hpair⟩ := List.pairwise_cons.mp single
    have hrest : F.roles defaults options m (if b.Marked options then some b.name else first)
        (i + 1) (before ++ d :: after) = .error e := by
      refine ih hbefore hpair (fun hsome c hc hmarked => ?_) ?_
      · by_cases hbm : b.Marked options
        · exact hnext c hc ⟨hbm, hmarked⟩
        · rw [if_neg hbm] at hsome
          exact unmarked hsome c (List.mem_cons_of_mem b hc) hmarked
      · rw [List.length_cons] at h
        rwa [Nat.add_right_comm, Nat.add_assoc]
    rw [List.cons_append, roles_cons_of_role (role_ok_iff.mpr ⟨hb, rfl⟩)]
    simp only [isMarked_roleOf]
    rw [if_neg fun hboth => unmarked hboth.2 b List.mem_cons_self hboth.1, hrest]
    rfl

theorem role_of_true_foreignKey {i : Nat} {d : FieldDecl M} {T : ColumnType}
    (hT : d.type = .column T) (hx : (d.tag? options Tags.excludedKey).isSome = false)
    (href : d.tag? options Tags.foreignKey = some Tags.trueValue) :
    F.role defaults options m i d = .error (.unresolvableReference (F.model m).name d.name "") := by
  rw [FieldDecl.tag?] at hx href
  simp only [role, hT, hx, href, Bool.false_eq_true, if_false, if_true]

end Family

/-! ### Values that are written out -/

namespace FieldDecl

/-- Nothing in the annotation of the field is read. -/
def Untagged (options : TagOptions) (d : FieldDecl M) : Prop :=
  Tags.ofAnnotation options d.annotation = .empty

variable {d : FieldDecl M} {key value : String}

theorem Untagged.tag?_eq_none {options : TagOptions} (h : d.Untagged options) (other : String) :
    d.tag? options other = none := by
  rw [Untagged] at h
  rw [tag?, h]
  rfl

def tagged (d : FieldDecl M) (key value : String) : FieldDecl M :=
  { d with annotation := Tags.spelt key value }

theorem tag?_tagged (d : FieldDecl M) (hkey : Tags.IsKey .standard key)
    (hvalue : Tags.IsContent value.toList) (other : String) :
    (d.tagged key value).tag? .standard other = if key = other then some value else none :=
  Tags.value?_spelt hkey hvalue other

theorem sameRole_tagged (h : d.Untagged .standard) (hkey : Tags.IsKey .standard key)
    (hvalue : Tags.IsContent value.toList)
    (hplain : key ∉ [Tags.excludedKey, Tags.columnKey, Tags.primaryKey]) :
    d.SameRole .standard (d.tagged key value) := by
  refine sameRole_of_tags rfl (fun other hother => ?_) rfl
  have hne : key ≠ other := fun he => hplain (he ▸ hother)
  rw [tag?_tagged d hkey hvalue, if_neg hne, h.tag?_eq_none]

end FieldDecl

/-! ### One more annotation -/

variable [DecidableEq M]

namespace Family

/-- The family with another annotation of one declared field. -/
def annotate (F : Family M) (m : M) (i : Nat) (raw : String) : Family M where
  model n :=
    if n = m then
      { F.model m with
        fields := (F.model m).fields.modify i fun d => { d with annotation := raw } }
    else F.model n
  all := F.all
  mem_all := F.mem_all

/-- The model can be analysed, and every schema of it has the fields and the foreign keys of the
analysis, whatever its registry was asked for before. -/
def Yields (F : Family M) (config : Config) (m : M) (a : Analysis M) : Prop :=
  F.analyze config.schema config.tags m = .ok a ∧
    ∀ R, Registry.Reached F config R → ∀ s, (R.schemaFor F m).result = .ok s →
      s.fields = a.fields ∧ s.foreignKeys = a.foreignKeys

variable {F : Family M} {defaults : KeyDefaults} {options : TagOptions} {config : Config} {m : M}

theorem yields_of_analyze {a : Analysis M} (h : F.analyze config.schema config.tags m = .ok a) :
    F.Yields config m a := by
  refine ⟨h, fun R hR s hs => ?_⟩
  obtain ⟨b, rs, hb, -, rfl⟩ := Workshop.direct_cases (hR.faithful.result_ok hs).1
  cases h.symm.trans hb
  exact ⟨rfl, rfl⟩

variable {i : Nat} {raw : String} {d : FieldDecl M}

theorem model_annotate_self : (F.annotate m i raw).model m =
    { F.model m with
      fields := (F.model m).fields.modify i fun d => { d with annotation := raw } } :=
  if_pos rfl

theorem fields_annotate : ((F.annotate m i raw).model m).fields =
    (F.model m).fields.modify i fun d => { d with annotation := raw } := by
  rw [model_annotate_self]

theorem getElem?_annotate_self (hd : (F.model m).fields[i]? = some d) :
    ((F.annotate m i raw).model m).fields[i]? = some { d with annotation := raw } := by
  rw [fields_annotate, List.getElem?_modify_eq, hd]
  rfl

theorem mem_fields_annotate (hd : (F.model m).fields[i]? = some d) {e : FieldDecl M}
    (he : e ∈ ((F.annotate m i raw).model m).fields) :
    e = { d with annotation := raw } ∨ e ∈ (F.model m).fields := by
  obtain ⟨j, hj⟩ := List.mem_iff_getElem?.mp he
  by_cases hij : i = j
  · subst hij
    exact Or.inl (Option.some_inj.mp (hj.symm.trans (getElem?_annotate_self hd)))
  · rw [fields_annotate, List.getElem?_modify_ne _ _ hij] at hj
    exact Or.inr (List.mem_of_getElem? hj)

theorem sameRoles_annotate (hd : (F.model m).fields[i]? = some d)
    (h : d.SameRole options { d with annotation := raw }) :
    F.SameRoles (F.annotate m i raw) options m := by
  refine ⟨by rw [model_annotate_self], by rw [fields_annotate, List.length_modify],
    fun j e e' he he' => ?_⟩
  by_cases hij : i = j
  · subst hij
    cases hd.symm.trans he
    cases he'.symm.trans (getElem?_annotate_self hd)
    exact h
  · rw [fields_annotate, List.getElem?_modify_ne _ _ hij] at he'
    cases he.symm.trans he'
    exact .refl e

theorem exists_analyze_annotate {a : Analysis M} (ha : F.analyze defaults options m = .ok a)
    (hd : (F.model m).fields[i]? = some d)
    (hrole : d.SameRole options { d with annotation := raw })
    (hadmissible : FieldDecl.Admissible options { d with annotation := raw })
    (hkeys : (FieldDecl.tag? options { d with annotation := raw } Tags.foreignKey).isSome = true →
      d.HoldsKeys) :
    ∃ a', (F.annotate m i raw).analyze defaults options m = .ok a' := by
  have hwell := wellFormed_of_analyze ha
  refine exists_analyze (hwell.of_sameRoles (sameRoles_annotate hd hrole) (fun e he => ?_)
    fun e he hclass hlinked => ?_)
  · rcases mem_fields_annotate hd he with rfl | he
    · exact hadmissible
    · exact hwell.admissible e he
  · rcases mem_fields_annotate hd he with rfl | he
    · exact hrole.holdsKeys_iff.mpr (hkeys hlinked)
    · exact hwell.foreignKeys e he hclass hlinked

theorem analyze_annotate_error {a : Analysis M} (ha : F.analyze defaults options m = .ok a)
    (hd : (F.model m).fields[i]? = some d) {e : Error}
    (h : (F.annotate m i raw).role defaults options m i { d with annotation := raw } = .error e) :
    (F.annotate m i raw).analyze defaults options m = .error e := by
  obtain ⟨⟨admissible, single⟩, -⟩ := analyze_ok_iff.mp ha
  obtain ⟨hi, hdecl⟩ := List.getElem?_eq_some_iff.mp hd
  have hlength : ((F.model m).fields.take i).length = i := List.length_take_of_le (Nat.le_of_lt hi)
  have hroles : (F.annotate m i raw).roles defaults options m none 0
      ((F.annotate m i raw).model m).fields = .error e := by
    rw [fields_annotate, List.modify_eq_take_cons_drop hi, hdecl]
    refine roles_of_role_error (fun b hb => admissible b (List.mem_of_mem_take hb))
      (single.sublist (List.take_sublist i _)) (fun hsome => nomatch hsome) ?_
    rwa [Nat.zero_add, hlength]
  simp only [analyze, hroles]

/-! ### The tagged column -/

variable {T : ColumnType} {key e : String}

/-- A column that was untagged can be tagged with a key and a value, as long as it can be the foreign
key that it is tagged as. Nothing else is told of it. -/
theorem exists_field_annotate {a : Analysis M} (ha : F.analyze defaults .standard m = .ok a)
    (hd : (F.model m).fields[i]? = some d) (hT : d.type = .column T) (h : d.Untagged .standard)
    (hkey : Tags.IsKey .standard key) (he : Tags.IsContent e.toList)
    (hplain : key ∉ [Tags.excludedKey, Tags.columnKey, Tags.primaryKey])
    (hforeign : key = Tags.foreignKey → e ≠ Tags.trueValue ∧ d.HoldsKeys) :
    ∃ a', (F.annotate m i (Tags.spelt key e)).analyze defaults .standard m = .ok a' ∧
      ∃ f ∈ a'.fields, f.index = i ∧ f.name = d.name ∧
        f.foreignKey = (if key = Tags.foreignKey then some e else none) ∧
        f.default = (if key = Tags.defaultKey then some e else none).filter
          (fun s => s ≠ Tags.trueValue) ∧
        (key = Tags.defaultKey → f.hasDefault = true) := by
  have htag := d.tag?_tagged hkey he
  have hrole : d.SameRole .standard (d.tagged key e) :=
    FieldDecl.sameRole_tagged h hkey he hplain
  have hclass : (d.tagged key e).fieldClass .standard = .mapped := by
    rw [hrole.class_eq, FieldDecl.fieldClass_eq_mapped, hT, h.tag?_eq_none]
    exact ⟨rfl, rfl⟩
  have hadmissible : (d.tagged key e).Admissible .standard := by
    rw [admissible_iff_of_mapped hclass, htag]
    split
    · rename_i hkey
      exact fun hsame => (hforeign hkey).1 (Option.some_inj.mp hsame)
    · exact fun hsame => nomatch hsame
  have hkeys : ((d.tagged key e).tag? .standard Tags.foreignKey).isSome = true → d.HoldsKeys := by
    rw [htag]
    split
    · rename_i hkey
      exact fun _ => (hforeign hkey).2
    · exact fun hsome => nomatch hsome
  obtain ⟨a', ha'⟩ := exists_analyze_annotate ha hd hrole hadmissible hkeys
  obtain ⟨f, hf, hindex, hname, href, hdefault, hhas⟩ := exists_mappedField ha'
    (getElem?_annotate_self hd) hT (FieldDecl.fieldClass_eq_mapped.mp hclass).2
  refine ⟨a', ha', f, hf, hindex, hname, href.trans (htag _), hdefault.trans ?_, fun hkey => hhas ?_⟩
  · exact congrArg _ (htag _)
  · refine (congrArg Option.isSome (htag _)).trans ?_
    rw [if_pos hkey]
    rfl

/-- With the standard tags, the text of a default and of a foreign key reaches the schemas as it was
written, `true` excepted: a default that is `true` is a default without a text, and a foreign key to
`true` is refused as one that refers to nothing. -/
theorem tag_values_reach_schema (hoptions : config.tags = .standard) {a : Analysis M}
    (ha : F.analyze config.schema config.tags m = .ok a) (hd : (F.model m).fields[i]? = some d)
    (hT : d.type = .column T) (h : d.Untagged config.tags) (he : Tags.IsContent e.toList) :
    (∃ a', (F.annotate m i (Tags.spelt Tags.defaultKey e)).Yields config m a' ∧
      ∃ f ∈ a'.fields, f.index = i ∧ f.name = d.name ∧ f.hasDefault = true ∧
        f.default = if e = Tags.trueValue then none else some e) ∧
    (d.HoldsKeys → e ≠ Tags.trueValue →
      ∃ a', (F.annotate m i (Tags.spelt Tags.foreignKey e)).Yields config m a' ∧
        ∃ k ∈ a'.foreignKeys, k.reference = e ∧ k.field ∈ a'.fields ∧ k.field.index = i ∧
          k.field.name = d.name ∧ k.field.foreignKey = some e) ∧
    (F.annotate m i (Tags.spelt Tags.foreignKey Tags.trueValue)).analyze config.schema config.tags
      m = .error (.unresolvableReference (F.model m).name d.name "") := by
  rw [hoptions] at ha h
  refine ⟨?_, fun hkeys htrue => ?_, ?_⟩
  · obtain ⟨a', ha', f, hf, hindex, hname, -, hdefault, hhas⟩ := exists_field_annotate ha hd hT h
      Tags.isKey_defaultKey he (by decide) (fun hkey => absurd hkey (by decide))
    refine ⟨a', yields_of_analyze (by rwa [hoptions]), f, hf, hindex, hname, hhas rfl, ?_⟩
    rw [hdefault, if_pos rfl]
    by_cases htrue : e = Tags.trueValue <;> simp [htrue]
  · obtain ⟨a', ha', f, hf, hindex, hname, href, -, -⟩ := exists_field_annotate ha hd hT h
      Tags.isKey_foreignKey he (by decide) (fun _ => ⟨htrue, hkeys⟩)
    rw [if_pos rfl] at href
    obtain ⟨k, hk, rfl, hreference⟩ := exists_foreignKey ha' hf href
    exact ⟨a', yields_of_analyze (by rwa [hoptions]), k, hk, hreference, hf, hindex, hname, href⟩
  · have htag := d.tag?_tagged Tags.isKey_foreignKey Tags.isContent_trueValue
    have hname : (F.model m).name = ((F.annotate m i (Tags.spelt Tags.foreignKey
        Tags.trueValue)).model m).name := by rw [model_annotate_self]
    rw [hoptions, hname]
    exact analyze_annotate_error ha hd (role_of_true_foreignKey hT
      (congrArg Option.isSome (htag Tags.excludedKey)) (htag Tags.foreignKey))

/-! ### Names of authors -/

open Registry (Shelf shelf)

/-- The text of a default may have quotes and colons, and so may that of a foreign key. -/
theorem tag_values_reach_schema_author :
    (∃ a, (shelf.annotate .author 1 "ll:\"default:\\\"a: b\\\"\"").Yields .standard .author a ∧
      ∃ f ∈ a.fields, f.index = 1 ∧ f.default = some "\"a: b\"") ∧
    ∃ a, (shelf.annotate .author 1 "ll:\"fk:\\\"a: b\\\"\"").Yields .standard .author a ∧
      ∃ k ∈ a.foreignKeys, k.field.index = 1 ∧ k.reference = "\"a: b\"" := by
  obtain ⟨a, ha⟩ : ∃ a, shelf.analyze Config.standard.schema Config.standard.tags .author = .ok a :=
    Registry.exists_ok (by decide +kernel)
  have htext : Tags.IsContent "\"a: b\"".toList := by decide +kernel
  have hdefault : Tags.spelt Tags.defaultKey "\"a: b\"" = "ll:\"default:\\\"a: b\\\"\"" := by
    decide +kernel
  have hforeign : Tags.spelt Tags.foreignKey "\"a: b\"" = "ll:\"fk:\\\"a: b\\\"\"" := by
    decide +kernel
  have hauthor := tag_values_reach_schema (i := 1) rfl ha rfl rfl rfl htext
  rw [hdefault, hforeign] at hauthor
  obtain ⟨⟨b, hb, f, hf, hindex, -, -, hf'⟩, hkeys, -⟩ := hauthor
  obtain ⟨c, hc, k, hk, hreference, -, hindex', -⟩ := hkeys ⟨_, rfl, Or.inr rfl⟩ (by decide)
  exact ⟨⟨b, hb, f, hf, hindex, hf'⟩, c, hc, k, hk, hindex', hreference⟩

/-- The text `true` is lost as a default, and a foreign key to it is refused. -/
theorem true_values_lost :
    Tags.IsContent "true".toList ∧
    Tags.spelt Tags.defaultKey "true" = "ll:\"default:true\"" ∧
    ((shelf.annotate .author 1 "ll:\"default:true\"").analyze .standard .standard
      .author).toOption.map (fun a => a.fields.map fun f => (f.name, f.default, f.hasDefault)) =
      some [("id", none, false), ("name", none, true)] ∧
    Tags.spelt Tags.foreignKey "true" = "ll:\"fk:true\"" ∧
    ((shelf.annotate .author 1 "ll:\"fk:true\"").analyze .standard .standard .author) =
      .error (.unresolvableReference "Author" "name" "") := by
  refine ⟨?_, ?_, ?_, ?_, ?_⟩ <;> decide +kernel

end Family

end RecordGraph
