import Mathlib.Data.List.Pairwise
import RecordGraph.Proofs.Schema.Declared

/-!
# Roles of declared fields

Every declared field belongs to one class, which its type and its tags decide. The roles of the
fields of a model can be told if and only if the tags of each field are admissible and no two fields
are tagged as the primary key. A column then knows the declaration that it was made from, and the
fields of a class are in the order of declaration.
-/

namespace RecordGraph

variable {M : Type}

/-! ### Declared fields -/

/-- What becomes of a declared field. -/
inductive FieldClass where
  | mapped
  | excluded
  | association
  /-- An association that is excluded; nothing is known of it. -/
  | dropped
  deriving DecidableEq, Repr

namespace FieldDecl

variable (options : TagOptions) (d : FieldDecl M)

/-- The first value of a key among the tags of the field. -/
def tag? (key : String) : Option String :=
  (Tags.ofAnnotation options d.annotation).value? options.name key

def fieldClass : FieldClass :=
  match d.type.isAssociation, (d.tag? options Tags.excludedKey).isSome with
  | false, false => .mapped
  | false, true => .excluded
  | true, false => .association
  | true, true => .dropped

/-- The column that the field has if it is mapped. -/
def columnName : String := (d.tag? options Tags.columnKey).getD (Text.snakeCase d.name)

/-- A mapped column that is tagged as the primary key. -/
def Marked : Prop :=
  d.fieldClass options = .mapped ∧ (d.tag? options Tags.primaryKey).isSome = true

instance : Decidable (d.Marked options) := inferInstanceAs (Decidable (_ ∧ _))

/-- The tags do not ask for what a field of the class cannot be. -/
structure Admissible : Prop where
  /-- No association is a primary key, unless it is excluded. -/
  unmarked : d.fieldClass options = .association → d.tag? options Tags.primaryKey = none
  /-- A foreign key tells what it refers to. -/
  refers : d.fieldClass options = .mapped → d.tag? options Tags.foreignKey ≠ some Tags.trueValue

end FieldDecl

theorem FieldType.exists_column {type : FieldType M} (h : type.isAssociation = false) :
    ∃ T, type = .column T := by
  cases type with
  | column T => exact ⟨T, rfl⟩
  | reference target boxed => cases h
  | collection target through => cases h

namespace FieldDecl

variable {options : TagOptions} {d : FieldDecl M}

theorem fieldClass_eq_mapped : d.fieldClass options = .mapped ↔
    d.type.isAssociation = false ∧ (d.tag? options Tags.excludedKey).isSome = false := by
  simp only [fieldClass]
  cases d.type.isAssociation <;> cases (d.tag? options Tags.excludedKey).isSome <;> decide

theorem fieldClass_eq_excluded : d.fieldClass options = .excluded ↔
    d.type.isAssociation = false ∧ (d.tag? options Tags.excludedKey).isSome = true := by
  simp only [fieldClass]
  cases d.type.isAssociation <;> cases (d.tag? options Tags.excludedKey).isSome <;> decide

theorem fieldClass_eq_association : d.fieldClass options = .association ↔
    d.type.isAssociation = true ∧ (d.tag? options Tags.excludedKey).isSome = false := by
  simp only [fieldClass]
  cases d.type.isAssociation <;> cases (d.tag? options Tags.excludedKey).isSome <;> decide

end FieldDecl

/-- Whether the role is that of a column that is tagged as the primary key. -/
def FieldRole.isMarked : FieldRole M → Bool
  | mapped f => f.isPrimaryKey
  | _ => false

namespace Family

variable (F : Family M) (defaults : KeyDefaults) (options : TagOptions) (m : M)

/-- The places of the declared fields of a class, in order. -/
def placesOf (c : FieldClass) : List Nat :=
  ((F.model m).fields.zipIdx.filter fun p => p.1.fieldClass options = c).map Prod.snd

/-- The field says of a declared column what its declaration and its tags say. -/
structure Reads (f : Field) (d : FieldDecl M) (T : ColumnType) : Prop
    extends F.StandsFor m f d T where
  nullable_eq : f.isNullable = T.isNullable
  excluded_iff : f.isExcluded = true ↔ d.fieldClass options = .excluded
  column_eq : d.fieldClass options = .mapped → f.column = d.columnName options
  foreignKey_eq : d.fieldClass options = .mapped → f.foreignKey = d.tag? options Tags.foreignKey

/-! ### Roles -/

/-- The role of a declared field whose tags are admissible. -/
def roleOf (i : Nat) (d : FieldDecl M) : FieldRole M :=
  let tags := Tags.ofAnnotation options d.annotation
  match d.type, (d.tag? options Tags.excludedKey).isSome with
  | .column T, false => .mapped (F.mappedField defaults options m i d T tags)
  | .column T, true => .excluded (F.excludedField m i d T tags)
  | .reference target _, false =>
    .association ⟨d.name, i, target, false, none, d.tag? options Tags.relationKey⟩
  | .collection target through, false =>
    .association ⟨d.name, i, target, true, through, d.tag? options Tags.relationKey⟩
  | _, true => .dropped

variable {F defaults options m}

theorem admissible_iff_of_mapped {d : FieldDecl M} (h : d.fieldClass options = .mapped) :
    d.Admissible options ↔ d.tag? options Tags.foreignKey ≠ some Tags.trueValue :=
  ⟨fun hd => hd.refers h, fun hd => ⟨(fun hc => nomatch h.symm.trans hc), fun _ => hd⟩⟩

theorem admissible_iff_of_association {d : FieldDecl M}
    (h : d.fieldClass options = .association) :
    d.Admissible options ↔ d.tag? options Tags.primaryKey = none :=
  ⟨fun hd => hd.unmarked h, fun hd => ⟨fun _ => hd, fun hc => nomatch h.symm.trans hc⟩⟩

/-- An exclusion switches all other tags off. -/
theorem admissible_of_excluded {d : FieldDecl M}
    (h : (d.tag? options Tags.excludedKey).isSome = true) : d.Admissible options where
  unmarked hc := by cases h.symm.trans (FieldDecl.fieldClass_eq_association.mp hc).2
  refers hc := by cases h.symm.trans (FieldDecl.fieldClass_eq_mapped.mp hc).2

theorem associationRole_ok_iff {i : Nat} {d : FieldDecl M} {target : M} {c : Bool}
    {join : Option M} {r : FieldRole M} (hx : (d.tag? options Tags.excludedKey).isSome = false) :
    F.associationRole options m i d (Tags.ofAnnotation options d.annotation) target c join = .ok r ↔
      d.tag? options Tags.primaryKey = none ∧
        r = .association ⟨d.name, i, target, c, join, d.tag? options Tags.relationKey⟩ := by
  rw [FieldDecl.tag?] at hx
  simp only [associationRole, FieldDecl.tag?, hx, Bool.false_eq_true, if_false]
  cases (Tags.ofAnnotation options d.annotation).value? options.name Tags.primaryKey with
  | none => simp [eq_comm]
  | some value => simp

theorem role_ok_iff {i : Nat} {d : FieldDecl M} {r : FieldRole M} :
    F.role defaults options m i d = .ok r ↔
      d.Admissible options ∧ r = F.roleOf defaults options m i d := by
  cases hx : (d.tag? options Tags.excludedKey).isSome with
  | true =>
    have hd := admissible_of_excluded hx
    simp only [hd, true_and, roleOf, hx]
    rw [FieldDecl.tag?] at hx
    simp only [role, associationRole, hx, if_true]
    cases d.type <;> simp [eq_comm]
  | false =>
    cases hT : d.type with
    | column T =>
      rw [admissible_iff_of_mapped (FieldDecl.fieldClass_eq_mapped.mpr ⟨by rw [hT]; rfl, hx⟩)]
      simp only [roleOf, hT, hx]
      rw [FieldDecl.tag?] at hx
      simp only [role, hT, hx, Bool.false_eq_true, if_false, FieldDecl.tag?]
      split
      · rename_i href
        simp [href]
      · rename_i href
        simp [href, eq_comm]
    | reference target boxed =>
      rw [admissible_iff_of_association
        (FieldDecl.fieldClass_eq_association.mpr ⟨by rw [hT]; rfl, hx⟩)]
      simp only [roleOf, role, hT, hx]
      exact associationRole_ok_iff hx
    | collection target through =>
      rw [admissible_iff_of_association
        (FieldDecl.fieldClass_eq_association.mpr ⟨by rw [hT]; rfl, hx⟩)]
      simp only [roleOf, role, hT, hx]
      exact associationRole_ok_iff hx

theorem isMarked_roleOf {i : Nat} {d : FieldDecl M} :
    (F.roleOf defaults options m i d).isMarked = true ↔ d.Marked options := by
  rw [FieldDecl.Marked, FieldDecl.fieldClass, roleOf]
  cases hT : d.type <;> generalize hx : (d.tag? options Tags.excludedKey).isSome = x <;> cases x <;>
    simp [FieldRole.isMarked, mappedField, FieldDecl.tag?, FieldType.isAssociation]

theorem roles_cons_of_role {ds : List (FieldDecl M)} {first : Option String} {i : Nat}
    {d : FieldDecl M} {r : FieldRole M} (h : F.role defaults options m i d = .ok r) :
    F.roles defaults options m first i (d :: ds) =
      if r.isMarked = true ∧ first.isSome = true then
        .error (.duplicatePrimaryKey (F.model m).name (first.getD "") d.name)
      else
        (F.roles defaults options m (if r.isMarked = true then some d.name else first) (i + 1)
          ds).map (r :: ·) := by
  simp only [roles, h]
  cases r with
  | mapped f =>
    cases hf : f.isPrimaryKey <;> cases first <;>
      simp only [FieldRole.isMarked, hf, Option.isSome_some, Option.isSome_none, if_true, if_false,
        Bool.false_eq_true, and_self, and_true, and_false, Option.getD_some] <;>
      split <;> simp_all [Except.map]
  | _ =>
    cases first <;> simp only [FieldRole.isMarked, Bool.false_eq_true, false_and, if_false] <;>
      split <;> simp_all [Except.map]

theorem roles_cons_ok_iff {ds : List (FieldDecl M)} {first : Option String} {i : Nat}
    {d : FieldDecl M} {rs : List (FieldRole M)} :
    F.roles defaults options m first i (d :: ds) = .ok rs ↔
      d.Admissible options ∧ (first.isSome = true → ¬ d.Marked options) ∧
      ∃ rest, F.roles defaults options m (if d.Marked options then some d.name else first) (i + 1)
        ds = .ok rest ∧ rs = F.roleOf defaults options m i d :: rest := by
  constructor
  · intro h
    obtain ⟨r, -, -, hr, -, -⟩ := roles_cons h
    obtain ⟨hd, rfl⟩ := role_ok_iff.mp hr
    rw [roles_cons_of_role hr] at h
    simp only [isMarked_roleOf] at h
    split at h
    · cases h
    · rename_i hfree
      cases hrest : F.roles defaults options m (if d.Marked options then some d.name else first)
          (i + 1) ds with
      | error e =>
        rw [hrest] at h
        cases h
      | ok rest =>
        rw [hrest] at h
        cases h
        exact ⟨hd, fun hs hm => hfree ⟨hm, hs⟩, rest, rfl, rfl⟩
  · rintro ⟨hd, hfree, rest, hrest, rfl⟩
    rw [roles_cons_of_role (role_ok_iff.mpr ⟨hd, rfl⟩)]
    simp only [isMarked_roleOf]
    rw [if_neg fun h => hfree h.2 h.1, hrest]
    rfl

/-- The roles of the declared fields of a model, in order. -/
theorem roles_ok_iff {ds : List (FieldDecl M)} {first : Option String} {i : Nat}
    {rs : List (FieldRole M)} : F.roles defaults options m first i ds = .ok rs ↔
      (∀ d ∈ ds, d.Admissible options) ∧
      (ds.Pairwise fun d e => ¬ (d.Marked options ∧ e.Marked options)) ∧
      (first.isSome = true → ∀ d ∈ ds, ¬ d.Marked options) ∧
      rs = (ds.zipIdx i).map fun p => F.roleOf defaults options m p.2 p.1 := by
  induction ds generalizing first i rs with
  | nil =>
    simp only [roles, Except.ok.injEq, List.zipIdx_nil, List.map_nil, List.not_mem_nil,
      false_imp_iff, implies_true, List.Pairwise.nil, true_and]
    exact eq_comm
  | cons d ds ih =>
    simp only [roles_cons_ok_iff, ih, List.forall_mem_cons, List.pairwise_cons, List.zipIdx_cons,
      List.map_cons]
    by_cases hd : d.Marked options
    · simp only [hd, if_true, Option.isSome_some, true_and, not_true_eq_false, imp_false,
        forall_const]
      constructor
      · rintro ⟨had, hfirst, rest, ⟨hall, hpair, hclear, rfl⟩, rfl⟩
        exact ⟨⟨had, hall⟩, ⟨hclear, hpair⟩, fun h => absurd h hfirst, rfl⟩
      · rintro ⟨⟨had, hall⟩, ⟨hclear, hpair⟩, hfirst, rfl⟩
        exact ⟨had, fun h => (hfirst h).1, _, ⟨hall, hpair, hclear, rfl⟩, rfl⟩
    · simp only [hd, if_false, false_and, not_false_eq_true, implies_true, true_and]
      constructor
      · rintro ⟨had, rest, ⟨hall, hpair, hfirst, rfl⟩, rfl⟩
        exact ⟨⟨had, hall⟩, hpair, hfirst, rfl⟩
      · rintro ⟨⟨had, hall⟩, hpair, hfirst, rfl⟩
        exact ⟨had, _, ⟨hall, hpair, hfirst, rfl⟩, rfl⟩

/-! ### Columns and associations -/

variable (F defaults options m) in
def declaredRoles : List (FieldRole M) :=
  (F.model m).fields.zipIdx.map fun p => F.roleOf defaults options m p.2 p.1

theorem mem_declaredRoles {r : FieldRole M} : r ∈ F.declaredRoles defaults options m ↔
    ∃ i d, (F.model m).fields[i]? = some d ∧ r = F.roleOf defaults options m i d := by
  constructor
  · intro h
    obtain ⟨⟨d, i⟩, hd, rfl⟩ := List.mem_map.mp h
    exact ⟨i, d, List.mem_zipIdx_iff_getElem?.mp hd, rfl⟩
  · rintro ⟨i, d, hd, rfl⟩
    exact List.mem_map.mpr ⟨(d, i), List.mem_zipIdx_iff_getElem?.mpr hd, rfl⟩

theorem roleOf_of_mapped {i : Nat} {d : FieldDecl M} {T : ColumnType} (hT : d.type = .column T)
    (hx : (d.tag? options Tags.excludedKey).isSome = false) :
    F.roleOf defaults options m i d =
      .mapped
        (F.mappedField defaults options m i d T (Tags.ofAnnotation options d.annotation)) := by
  simp only [roleOf, hT, hx]

theorem roleOf_of_excluded {i : Nat} {d : FieldDecl M} {T : ColumnType} (hT : d.type = .column T)
    (hx : (d.tag? options Tags.excludedKey).isSome = true) :
    F.roleOf defaults options m i d =
      .excluded (F.excludedField m i d T (Tags.ofAnnotation options d.annotation)) := by
  simp only [roleOf, hT, hx]

variable (defaults options) in
theorem reads_of_column {i : Nat} {d : FieldDecl M} {T : ColumnType}
    (hd : (F.model m).fields[i]? = some d) (hT : d.type = .column T) :
    ∃ f, (F.roleOf defaults options m i d).field? = some f ∧ f.index = i ∧
      (f.isPrimaryKey = true ↔ d.Marked options) ∧ F.Reads options m f d T := by
  cases hx : (d.tag? options Tags.excludedKey).isSome with
  | false =>
    have hclass : d.fieldClass options = .mapped :=
      FieldDecl.fieldClass_eq_mapped.mpr ⟨by rw [hT]; rfl, hx⟩
    refine ⟨_, congrArg FieldRole.field? (roleOf_of_mapped hT hx), rfl, ?_, ?_⟩
    · simp only [FieldDecl.Marked, hclass, true_and]
      exact Iff.rfl
    · refine ⟨⟨hd, rfl, hT, rfl, fun he => absurd he (by simp [mappedField])⟩, rfl, ?_,
        fun _ => rfl, fun _ => rfl⟩
      simp [hclass, mappedField]
  | true =>
    have hclass : d.fieldClass options = .excluded :=
      FieldDecl.fieldClass_eq_excluded.mpr ⟨by rw [hT]; rfl, hx⟩
    refine ⟨_, congrArg FieldRole.field? (roleOf_of_excluded hT hx), rfl, ?_, ?_⟩
    · simp [FieldDecl.Marked, hclass, excludedField]
    · have hno : d.fieldClass options ≠ .mapped := by
        rw [hclass]
        decide
      refine ⟨⟨hd, rfl, hT, rfl, fun _ => rfl⟩, rfl, ?_, fun hc => absurd hc hno,
        fun hc => absurd hc hno⟩
      simp [hclass, excludedField]

theorem field?_roleOf_eq_none {i : Nat} {d : FieldDecl M} (h : d.type.isAssociation = true) :
    (F.roleOf defaults options m i d).field? = none := by
  simp only [roleOf]
  cases hT : d.type with
  | column T => simp [hT, FieldType.isAssociation] at h
  | reference target boxed => cases (d.tag? options Tags.excludedKey).isSome <;> rfl
  | collection target through => cases (d.tag? options Tags.excludedKey).isSome <;> rfl

variable (F defaults options m) in
/-- The columns of the model, mapped and excluded, before the primary key is picked. -/
def columns : List Field := (F.declaredRoles defaults options m).filterMap FieldRole.field?

theorem reads_of_mem_columns {f : Field} (hf : f ∈ F.columns defaults options m) :
    ∃ d T, (f.isPrimaryKey = true ↔ d.Marked options) ∧ F.Reads options m f d T := by
  obtain ⟨r, hr, hfr⟩ := List.mem_filterMap.mp hf
  obtain ⟨i, d, hd, rfl⟩ := mem_declaredRoles.mp hr
  cases hassociation : d.type.isAssociation with
  | true =>
    rw [field?_roleOf_eq_none hassociation] at hfr
    cases hfr
  | false =>
    obtain ⟨T, hT⟩ := FieldType.exists_column hassociation
    obtain ⟨g, hg, -, hmarked, hreads⟩ := reads_of_column defaults options hd hT
    cases hg.symm.trans hfr
    exact ⟨d, T, hmarked, hreads⟩

variable (defaults options) in
theorem exists_mem_columns {i : Nat} {d : FieldDecl M} {T : ColumnType}
    (hd : (F.model m).fields[i]? = some d) (hT : d.type = .column T) :
    ∃ f ∈ F.columns defaults options m, f.index = i ∧
      (f.isPrimaryKey = true ↔ d.Marked options) ∧ F.Reads options m f d T := by
  obtain ⟨f, hf, hi, hmarked, hreads⟩ := reads_of_column defaults options hd hT
  exact ⟨f, List.mem_filterMap.mpr ⟨_, mem_declaredRoles.mpr ⟨i, d, hd, rfl⟩, hf⟩, hi, hmarked,
    hreads⟩

theorem announces_of_mem {x : Association M}
    (hx : x ∈ (F.declaredRoles defaults options m).filterMap FieldRole.association?) :
    ∃ d, F.Announces m x d ∧ x.hint = d.tag? options Tags.relationKey := by
  obtain ⟨r, hr, hxr⟩ := List.mem_filterMap.mp hx
  obtain ⟨i, d, hd, rfl⟩ := mem_declaredRoles.mp hr
  simp only [roleOf] at hxr
  split at hxr
  · cases hxr
  · cases hxr
  · rename_i target boxed hT _
    cases hxr
    exact ⟨d, ⟨hd, rfl, fun _ => ⟨rfl, boxed, hT⟩, (fun h => nomatch h)⟩, rfl⟩
  · rename_i target through hT _
    cases hxr
    exact ⟨d, ⟨hd, rfl, (fun h => nomatch h), fun _ => hT⟩, rfl⟩
  · cases hxr

/-! ### Places -/

theorem filterMap_declaredRoles {c : FieldClass} {g : FieldRole M → Option Nat}
    (hg : ∀ i d, g (F.roleOf defaults options m i d) =
      if d.fieldClass options = c then some i else none) :
    (F.declaredRoles defaults options m).filterMap g = F.placesOf options m c := by
  have hcomp : (g ∘ fun p : FieldDecl M × Nat => F.roleOf defaults options m p.2 p.1) =
      fun p => if (decide (p.1.fieldClass options = c)) = true then some p.2 else none := by
    funext p
    simp only [Function.comp_apply, hg, decide_eq_true_eq]
  rw [declaredRoles, List.filterMap_map, hcomp, placesOf, ← List.filterMap_filter]
  exact congrFun List.filterMap_eq_map _

theorem index_of_roleOf (i : Nat) (d : FieldDecl M) :
    (((F.roleOf defaults options m i d).field?.filter fun f => !f.isExcluded).map Field.index =
        if d.fieldClass options = .mapped then some i else none) ∧
      (((F.roleOf defaults options m i d).field?.filter fun f => f.isExcluded).map Field.index =
        if d.fieldClass options = .excluded then some i else none) ∧
      (F.roleOf defaults options m i d).association?.map Association.index =
        if d.fieldClass options = .association then some i else none := by
  cases hT : d.type <;> cases hx : (d.tag? options Tags.excludedKey).isSome <;>
    simp only [roleOf, FieldDecl.fieldClass, hT, hx, FieldType.isAssociation] <;>
    exact ⟨rfl, rfl, rfl⟩

theorem map_index_mapped : ((F.columns defaults options m).filter fun f => !f.isExcluded).map
    Field.index = F.placesOf options m .mapped := by
  rw [columns, List.filter_filterMap, List.map_filterMap]
  exact filterMap_declaredRoles fun i d => (index_of_roleOf i d).1

theorem map_index_excluded : ((F.columns defaults options m).filter fun f => f.isExcluded).map
    Field.index = F.placesOf options m .excluded := by
  rw [columns, List.filter_filterMap, List.map_filterMap]
  exact filterMap_declaredRoles fun i d => (index_of_roleOf i d).2.1

theorem map_index_associations :
    ((F.declaredRoles defaults options m).filterMap FieldRole.association?).map Association.index =
      F.placesOf options m .association := by
  rw [List.map_filterMap]
  exact filterMap_declaredRoles fun i d => (index_of_roleOf i d).2.2

theorem mem_placesOf {c : FieldClass} {i : Nat} : i ∈ F.placesOf options m c ↔
    ∃ d, (F.model m).fields[i]? = some d ∧ d.fieldClass options = c := by
  simp only [placesOf, List.mem_map, List.mem_filter, decide_eq_true_eq]
  constructor
  · rintro ⟨⟨d, j⟩, ⟨hd, hc⟩, rfl⟩
    exact ⟨d, List.mem_zipIdx_iff_getElem?.mp hd, hc⟩
  · rintro ⟨d, hd, hc⟩
    exact ⟨(d, i), ⟨List.mem_zipIdx_iff_getElem?.mpr hd, hc⟩, rfl⟩

theorem existsUnique_class {i : Nat} (h : i < (F.model m).fields.length) :
    ∃! c, i ∈ F.placesOf options m c := by
  refine ⟨((F.model m).fields[i]).fieldClass options, ?_, fun c hc => ?_⟩
  · exact mem_placesOf.mpr ⟨_, List.getElem?_eq_getElem h, rfl⟩
  · obtain ⟨d, hd, rfl⟩ := mem_placesOf.mp hc
    cases (List.getElem?_eq_getElem h).symm.trans hd
    rfl

end Family

end RecordGraph
