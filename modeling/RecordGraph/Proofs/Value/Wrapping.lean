import RecordGraph.Proofs.Value.Storing
import RecordGraph.Proofs.Value.Zeros

/-!
# The two wrappers

A type that can hold nothing is an option or has a validity flag. Which of the two wraps a type
makes no difference for what is stored, for what is accepted and for what counts as nothing: the
datum of the one is that of the other, in other clothes. A null only tells that there is nothing,
not how deep in the wrappers of the type, and it is read as nothing in the outermost one.
-/

namespace RecordGraph

namespace ColumnType

/-! ### Storing and reading -/

theorem isNull_toValue_eq (T : ColumnType) (x : T.Carrier) :
    (T.toValue x).isNull = (T.datum? x).isNone := by
  cases hdatum : T.datum? x with
  | none =>
    rw [(of_datum?_none hdatum).1, null, BaseType.isNull_null, Option.isNone_none]
  | some z =>
    rw [(of_datum?_some hdatum).1, BaseType.isNull_toValue, Option.isNone_some]

/-- A datum comes back as long as there is one of the base type inside; all other data of the type
come back as the one that is nothing. -/
theorem scan_toValue_eq_ite (T : ColumnType) (x : T.Carrier) :
    T.scan (T.toValue x) = .ok (if (T.datum? x).isSome then x else T.initial) := by
  rw [scan_toValue_eq, restored, isNull_toValue_eq]
  cases T.datum? x <;> rfl

theorem scan_toValue_option (b : BaseType) (o : Option b.Carrier) :
    (option (plain b)).scan ((option (plain b)).toValue o) = .ok o := by
  rw [scan_toValue_eq_ite]
  cases o <;> rfl

theorem scan_toValue_nullable (b : BaseType) (n : Nullable b.Carrier) :
    (nullable (plain b)).scan ((nullable (plain b)).toValue n) =
      .ok (if n.valid then n else Nullable.null b.initial) := by
  obtain ⟨valid, x⟩ := n
  rw [scan_toValue_eq_ite]
  cases valid <;> rfl

/-! ### From one wrapper to the other -/

variable (T : ColumnType)

/-- What a validity flag is read for is what an option is read for, in its other form. -/
theorem scan_nullable (v : Value) :
    (nullable T).scan v = ((option T).scan v).map (Nullable.ofOption T.initial) := by
  simp only [scan]
  cases v.isNull with
  | true => rfl
  | false => cases T.scan v <;> rfl

theorem scan_nullable_toOption (v : Value) :
    ((nullable T).scan v).map Nullable.toOption = (option T).scan v := by
  rw [scan_nullable]
  cases (option T).scan v with
  | error e => rfl
  | ok o =>
    have hback : (Nullable.ofOption T.initial o).toOption = o := Nullable.toOption_ofOption _ o
    exact congrArg Except.ok hback

theorem toValue_ofOption (o : Option T.Carrier) :
    (nullable T).toValue (Nullable.ofOption T.initial o) = (option T).toValue o := by
  cases o <;> rfl

theorem isZero_ofOption (o : Option T.Carrier) :
    (nullable T).isZero (Nullable.ofOption T.initial o) = (option T).isZero o := by
  cases o with
  | none => rfl
  | some x => exact Bool.false_or _

/-- Reading undoes storing, but for a null, which is read as nothing in the outermost wrapper: a
base type and an option of one give every datum back, and a validity flag every one that counts. The
two wrappers accept the same values with the same outcome, and the two forms of a datum are stored
as the same value and count as nothing alike. -/
theorem scan_undoes_toValue :
    (∀ x, T.scan (T.toValue x) = .ok (if (T.datum? x).isSome then x else T.initial)) ∧
    (∀ (b : BaseType) (x : b.Carrier), (plain b).scan ((plain b).toValue x) = .ok x) ∧
    (∀ (b : BaseType) (o : Option b.Carrier),
      (option (plain b)).scan ((option (plain b)).toValue o) = .ok o) ∧
    (∀ (b : BaseType) (n : Nullable b.Carrier),
      (nullable (plain b)).scan ((nullable (plain b)).toValue n) =
        .ok (if n.valid then n else Nullable.null b.initial)) ∧
    (∀ v, ((nullable T).scan v).map Nullable.toOption = (option T).scan v) ∧
    (nullable T).null = (option T).null ∧
    ∀ o : Option T.Carrier,
      (nullable T).toValue (Nullable.ofOption T.initial o) = (option T).toValue o ∧
      (nullable T).isZero (Nullable.ofOption T.initial o) = (option T).isZero o :=
  ⟨T.scan_toValue_eq_ite, BaseType.scan_toValue, scan_toValue_option, scan_toValue_nullable,
    T.scan_nullable_toOption, rfl, fun o => ⟨T.toValue_ofOption o, T.isZero_ofOption o⟩⟩

/-- Nothing inside an option is stored as the same null as nothing at all, and so it does not come
back. -/
theorem some_none_not_restored :
    (option (option (plain (.int .i64)))).toValue (some none) =
      (option (option (plain (.int .i64)))).null ∧
    (option (option (plain (.int .i64)))).toValue none =
      (option (option (plain (.int .i64)))).null ∧
    (option (option (plain (.int .i64)))).scan
      ((option (option (plain (.int .i64)))).toValue (some none)) = .ok none ∧
    (option (option (plain (.int .i64)))).scan
      ((option (option (plain (.int .i64)))).toValue (some none)) ≠ .ok (some none) := by
  refine ⟨rfl, rfl, rfl, fun h => ?_⟩
  cases h

end ColumnType

end RecordGraph
