import RecordGraph.Value.Scan

/-!
# Storing data

What a datum is stored as is read as the datum again, but for what is stored as the null: that is
read as the initial datum of the type. A value is that of some datum just if it is of the kind of
the base type, and the null only if the type can hold nothing.
-/

namespace RecordGraph

namespace ColumnType

theorem null_of_isNull (T : ColumnType) (x : T.Carrier) (h : (T.toValue x).isNull = true) :
    T.toValue x = T.null := by
  induction T with
  | plain b =>
    rw [toValue, BaseType.isNull_toValue] at h
    cases h
  | option T ih =>
    cases x with
    | none => rfl
    | some y => exact ih y h
  | nullable T ih =>
    cases hvalid : x.valid with
    | false => simp only [toValue, hvalid, null, base, Bool.false_eq_true, if_false]
    | true =>
      simp only [toValue, hvalid, if_true] at h ⊢
      exact ih x.value h

/-- The datum that a stored datum comes back as. All that is stored as the null comes back as the
initial one, which is nothing, also where it was nothing in an inner wrapper. -/
def restored (T : ColumnType) (x : T.Carrier) : T.Carrier :=
  if (T.toValue x).isNull = true then T.initial else x

theorem scan_toValue_of_isNull {T : ColumnType} {x : T.Carrier}
    (h : (T.toValue x).isNull = true) : T.scan (T.toValue x) = .ok T.initial := by
  cases T with
  | plain b =>
    rw [toValue, BaseType.isNull_toValue] at h
    cases h
  | option T =>
    simp only [scan, h, if_true]
    rfl
  | nullable T =>
    simp only [scan, h, if_true]
    rfl

theorem scan_toValue_of_not_isNull {T : ColumnType} {x : T.Carrier}
    (h : (T.toValue x).isNull = false) : T.scan (T.toValue x) = .ok x := by
  induction T with
  | plain b => exact b.scan_toValue x
  | option T ih =>
    cases x with
    | none =>
      have hnull : ((option T).toValue none).isNull = true := T.base.isNull_null
      cases h.symm.trans hnull
    | some y =>
      have hvalue : (option T).toValue (some y) = T.toValue y := rfl
      rw [hvalue] at h ⊢
      simp only [scan, h, ih h, Bool.false_eq_true, if_false]
  | nullable T ih =>
    obtain ⟨valid, y⟩ := x
    cases valid with
    | false =>
      have hnull : ((nullable T).toValue ⟨false, y⟩).isNull = true := T.base.isNull_null
      cases h.symm.trans hnull
    | true =>
      have hvalue : (nullable T).toValue ⟨true, y⟩ = T.toValue y := rfl
      rw [hvalue] at h ⊢
      simp only [scan, h, ih h, Bool.false_eq_true, if_false, Nullable.new]

theorem scan_toValue_eq (T : ColumnType) (x : T.Carrier) :
    T.scan (T.toValue x) = .ok (T.restored x) := by
  cases h : (T.toValue x).isNull with
  | true => rw [restored, if_pos h, scan_toValue_of_isNull h]
  | false => rw [restored, if_neg (by simp [h]), scan_toValue_of_not_isNull h]

theorem toValue_restored (T : ColumnType) (x : T.Carrier) :
    T.toValue (T.restored x) = T.toValue x := by
  cases h : (T.toValue x).isNull with
  | true =>
    rw [restored, if_pos h, null_of_isNull T x h]
    cases T with
    | plain b =>
      rw [toValue, BaseType.isNull_toValue] at h
      cases h
    | option T => rfl
    | nullable T => rfl
  | false => rw [restored, if_neg (by simp [h])]

theorem scan_toValue (T : ColumnType) (x : T.Carrier) :
    ∃ y, T.scan (T.toValue x) = .ok y ∧ T.toValue y = T.toValue x :=
  ⟨T.restored x, T.scan_toValue_eq x, T.toValue_restored x⟩

theorem exists_toValue_iff (T : ColumnType) (v : Value) : (∃ x, v = T.toValue x) ↔
    (∃ y, v = T.base.toValue y) ∨ (T.isNullable = true ∧ v = T.null) := by
  induction T with
  | plain b =>
    constructor
    · rintro ⟨x, hx⟩
      exact Or.inl ⟨x, hx⟩
    · rintro (⟨y, hy⟩ | ⟨h, -⟩)
      · exact ⟨y, hy⟩
      · cases h
  | option T ih =>
    constructor
    · rintro ⟨x, rfl⟩
      cases x with
      | none => exact Or.inr ⟨rfl, rfl⟩
      | some z => exact (ih.mp ⟨z, rfl⟩).imp id fun h => ⟨rfl, h.2⟩
    · rintro (h | ⟨-, rfl⟩)
      · obtain ⟨z, hz⟩ := ih.mpr (Or.inl h)
        exact ⟨some z, hz⟩
      · exact ⟨none, rfl⟩
  | nullable T ih =>
    constructor
    · rintro ⟨x, rfl⟩
      cases hvalid : x.valid with
      | false => exact Or.inr ⟨rfl, by simp [toValue, hvalid, null, base]⟩
      | true =>
        have hvalue : (nullable T).toValue x = T.toValue x.value := by
          simp only [toValue, hvalid, if_true]
        exact (ih.mp ⟨x.value, hvalue⟩).imp id fun h => ⟨rfl, h.2⟩
    · rintro (h | ⟨-, rfl⟩)
      · obtain ⟨z, hz⟩ := ih.mpr (Or.inl h)
        exact ⟨Nullable.new z, hz⟩
      · exact ⟨Nullable.null T.initial, rfl⟩

end ColumnType

namespace BaseType

/-- Whether a value is of the kind that the type is stored as. -/
def isOwn : BaseType → Value → Bool
  | int t, .int u _ => t = u
  | f32, .f32 _ => true
  | f64, .f64 _ => true
  | bool, .bool _ => true
  | text, .text _ => true
  | bytes, .bytes _ => true
  | json, .json _ => true
  | uuid, .uuid _ => true
  | datetime, .datetime _ => true
  | datetimeUtc, .datetimeUtc _ => true
  | _, _ => false

theorem isOwn_iff (b : BaseType) (v : Value) :
    b.isOwn v = true ↔ (∃ y, v = b.toValue y) ∨ v = b.null := by
  constructor
  · intro h
    cases b <;> cases v <;> simp only [isOwn, Bool.false_eq_true, decide_eq_true_eq] at h
    case int.int t u n =>
      subst h
      cases n with
      | none => exact Or.inr rfl
      | some n => exact Or.inl ⟨n, rfl⟩
    all_goals
      rename_i content
      cases content with
      | none => exact Or.inr rfl
      | some x => exact Or.inl ⟨x, rfl⟩
  · rintro (⟨y, rfl⟩ | rfl)
    · cases b <;> simp [isOwn, toValue]
    · cases b <;> simp [isOwn, null]

end BaseType

namespace ColumnType

/-- Whether a value is that of a datum of the type. -/
def isOwn (T : ColumnType) (v : Value) : Bool := T.base.isOwn v && (T.isNullable || !v.isNull)

theorem isOwn_iff (T : ColumnType) (v : Value) : T.isOwn v = true ↔ ∃ x, v = T.toValue x := by
  rw [exists_toValue_iff, isOwn, Bool.and_eq_true, BaseType.isOwn_iff]
  constructor
  · rintro ⟨h | rfl, hnull⟩
    · exact Or.inl h
    · rw [BaseType.isNull_null, Bool.not_true, Bool.or_false] at hnull
      exact Or.inr ⟨hnull, rfl⟩
  · rintro (⟨y, rfl⟩ | ⟨hnull, rfl⟩)
    · refine ⟨Or.inl ⟨y, rfl⟩, ?_⟩
      rw [BaseType.isNull_toValue, Bool.not_false, Bool.or_true]
    · exact ⟨Or.inr rfl, by rw [hnull, Bool.true_or]⟩

instance (T : ColumnType) (v : Value) : Decidable (∃ x, v = T.toValue x) :=
  decidable_of_iff (T.isOwn v = true) (T.isOwn_iff v)

end ColumnType

end RecordGraph
