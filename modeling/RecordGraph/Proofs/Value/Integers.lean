import RecordGraph.Value.Key
import RecordGraph.Value.Scan

/-!
# Integers of all widths

An integer is read by its number alone. What the number was stored in does not matter, and so it may
go through a column of another width on its way: a type that can hold the number reads it as it is,
and all others refuse it. The number is never wrapped to fit.
-/

namespace RecordGraph

theorem Value.integer?_eq_some_iff {v : Value} {n : Int} :
    v.integer? = some n ↔ ∃ (t : IntType) (w : t.Word), v = .int t (some w) ∧ w.val = n := by
  constructor
  · intro h
    cases v with
    | int t o =>
      cases o with
      | none => cases h
      | some w => exact ⟨t, w, rfl, Option.some_inj.mp h⟩
    | _ => cases h
  · rintro ⟨t, w, rfl, rfl⟩
    rfl

theorem Value.isNull_of_integer? {v : Value} {n : Int} (h : v.integer? = some n) :
    v.isNull = false := by
  obtain ⟨t, w, rfl, -⟩ := integer?_eq_some_iff.mp h
  rfl

/-! ### Base types -/

namespace BaseType

variable {b : BaseType} {t : IntType} {v : Value} {n : Int}

theorem integer?_of_scanInt {w : t.Word} (h : scanInt t v = .ok w) :
    v.integer? = some w.val := by
  simp only [scanInt] at h
  split at h
  · rename_i n hn
    split at h
    · rename_i w' hw
      cases h
      simp only [IntType.ofInt?] at hw
      split at hw
      · cases hw
        exact hn
      · cases hw
    · cases h
  · cases h

theorem scanInt_of_inRange (h : v.integer? = some n) (hn : t.least ≤ n ∧ n ≤ t.greatest) :
    scanInt t v = .ok ⟨n, hn⟩ := by
  simp only [scanInt, h, IntType.ofInt?, dif_pos hn]

theorem scanInt_of_not_inRange (h : v.integer? = some n) (hn : ¬ (t.least ≤ n ∧ n ≤ t.greatest)) :
    scanInt t v = .error (.conversion (.overflow n t)) := by
  simp only [scanInt, h, IntType.ofInt?, dif_neg hn]

theorem scanBool_of_integer (h : v.integer? = some n) :
    scanBool v =
      if n = 0 then .ok false
      else if n = 1 then .ok true
      else .error (.conversion (.notBool n)) := by
  obtain ⟨t, w, rfl, -⟩ := Value.integer?_eq_some_iff.mp h
  simp only [scanBool, h]

theorem exists_scanBool_iff (h : v.integer? = some n) :
    (∃ x, scanBool v = .ok x) ↔ n = 0 ∨ n = 1 := by
  rw [scanBool_of_integer h]
  constructor
  · rintro ⟨x, hx⟩
    split at hx
    · exact Or.inl ‹_›
    · split at hx
      · exact Or.inr ‹_›
      · cases hx
  · rintro (rfl | rfl)
    · exact ⟨false, rfl⟩
    · exact ⟨true, rfl⟩

end BaseType

/-! ### Column types -/

namespace ColumnType

variable {T : ColumnType} {t : IntType} {v : Value} {n : Int}

/-- The datum of the base type in all wrappers. -/
def wrap : (T : ColumnType) → T.base.Carrier → T.Carrier
  | plain _, z => z
  | option T, z => some (T.wrap z)
  | nullable T, z => Nullable.new (T.wrap z)

theorem toValue_wrap (T : ColumnType) (z : T.base.Carrier) :
    T.toValue (T.wrap z) = T.base.toValue z := by
  induction T with
  | plain b => rfl
  | option T ih => exact ih z
  | nullable T ih => exact ih z

theorem scan_of_not_isNull (T : ColumnType) (h : v.isNull = false) :
    T.scan v = (T.base.scan v).map T.wrap := by
  induction T with
  | plain b => cases hb : b.scan v <;> simp only [scan, base, hb] <;> rfl
  | option T ih | nullable T ih =>
    simp only [scan, h, Bool.false_eq_true, if_false, ih, base]
    cases T.base.scan v <;> rfl

theorem exists_integer_of_scan (hT : T.base = .int t) (hv : T.isNullable = true → v.isNull = false)
    {x : T.Carrier} (h : T.scan v = .ok x) :
    ∃ w : t.Word, v.integer? = some w.val ∧ T.toValue x = .int t (some w) := by
  have hbase : ∀ (b : BaseType) (z : b.Carrier), b = .int t → b.scan v = .ok z →
      ∃ w : t.Word, v.integer? = some w.val ∧ b.toValue z = .int t (some w) := by
    rintro b z rfl hz
    exact ⟨z, BaseType.integer?_of_scanInt hz, rfl⟩
  cases hnullable : T.isNullable with
  | false =>
    cases T with
    | plain b => exact hbase b x hT h
    | option T => cases hnullable
    | nullable T => cases hnullable
  | true =>
    rw [scan_of_not_isNull T (hv hnullable)] at h
    cases hz : T.base.scan v with
    | error e =>
      rw [hz] at h
      cases h
    | ok z =>
      rw [hz] at h
      cases h
      obtain ⟨w, hw, hstored⟩ := hbase T.base z hT hz
      exact ⟨w, hw, (T.toValue_wrap z).trans hstored⟩

theorem scan_congr_integer (hT : T.base = .int t) {v' : Value} (h : v.integer? = some n)
    (h' : v'.integer? = some n) : T.scan v = T.scan v' := by
  have hbase : ∀ b : BaseType, b = .int t → b.scan v = b.scan v' := by
    rintro b rfl
    simp only [BaseType.scan, BaseType.scanInt, h, h']
  rw [scan_of_not_isNull T (Value.isNull_of_integer? h),
    scan_of_not_isNull T (Value.isNull_of_integer? h'), hbase T.base hT]

theorem scan_of_inRange (hT : T.base = .int t) (h : v.integer? = some n)
    (hn : t.least ≤ n ∧ n ≤ t.greatest) :
    ∃ x, T.scan v = .ok x ∧ T.toValue x = .int t (some ⟨n, hn⟩) := by
  have hbase : ∀ b : BaseType, b = .int t →
      ∃ z, b.scan v = .ok z ∧ b.toValue z = .int t (some ⟨n, hn⟩) := by
    rintro b rfl
    exact ⟨⟨n, hn⟩, BaseType.scanInt_of_inRange h hn, rfl⟩
  obtain ⟨z, hz, hstored⟩ := hbase T.base hT
  refine ⟨T.wrap z, ?_, (T.toValue_wrap z).trans hstored⟩
  rw [scan_of_not_isNull T (Value.isNull_of_integer? h), hz]
  rfl

theorem scan_of_not_inRange (hT : T.base = .int t) (h : v.integer? = some n)
    (hn : ¬ (t.least ≤ n ∧ n ≤ t.greatest)) :
    T.scan v = .error (.conversion (.overflow n t)) := by
  have hbase : ∀ b : BaseType, b = .int t → b.scan v = .error (.conversion (.overflow n t)) := by
    rintro b rfl
    exact BaseType.scanInt_of_not_inRange h hn
  rw [scan_of_not_isNull T (Value.isNull_of_integer? h), hbase T.base hT]
  rfl

theorem exists_scan_bool_iff (hT : T.base = .bool) (h : v.integer? = some n) :
    (∃ x, T.scan v = .ok x) ↔ n = 0 ∨ n = 1 := by
  have hbase : ∀ b : BaseType, b = .bool → ((∃ z, b.scan v = .ok z) ↔ n = 0 ∨ n = 1) := by
    rintro b rfl
    exact BaseType.exists_scanBool_iff h
  rw [← hbase T.base hT, scan_of_not_isNull T (Value.isNull_of_integer? h)]
  cases hz : T.base.scan v with
  | error e => exact iff_of_false (fun ⟨x, hx⟩ => nomatch hx) (fun ⟨z, hz⟩ => nomatch hz)
  | ok z => exact iff_of_true ⟨T.wrap z, rfl⟩ ⟨z, rfl⟩

/-- A value that an integer type reads is an integer with the number of the datum. Storing the datum
loses nothing of it: any other integer type reads the stored value as it reads the first one, the
number itself where it can hold it and an overflow where it cannot, and the two have the same key.
A boolean is read from zero and one only. -/
theorem integers_keep_number {A B : ColumnType} {t u : IntType} (hA : A.base = .int t)
    (hB : B.base = .int u) {v : Value} (hv : A.isNullable = true → v.isNull = false)
    {a : A.Carrier} (ha : A.scan v = .ok a) :
    ∃ (s : IntType) (m : s.Word) (w : t.Word), v = .int s (some m) ∧
      A.toValue a = .int t (some w) ∧ w.val = m.val ∧
      B.scan (A.toValue a) = B.scan v ∧
      (∀ hm : u.least ≤ m.val ∧ m.val ≤ u.greatest,
        ∃ b, B.scan v = .ok b ∧ B.toValue b = .int u (some ⟨m.val, hm⟩)) ∧
      (¬ (u.least ≤ m.val ∧ m.val ≤ u.greatest) →
        ∃ e, B.scan v = .error e ∧ e = .conversion (.overflow m.val u) ∧
          e.actual = toString m.val ++ " overflows " ++ u.name) ∧
      Key.ofValue? (A.toValue a) = Key.ofValue? v ∧
      ∀ C : ColumnType, C.base = .bool → ((∃ c, C.scan v = .ok c) ↔ m.val = 0 ∨ m.val = 1) := by
  obtain ⟨w, hnumber, hstored⟩ := exists_integer_of_scan hA hv ha
  obtain ⟨s, m, rfl, hm⟩ := Value.integer?_eq_some_iff.mp hnumber
  have hread : (Value.int s (some m)).integer? = some m.val := rfl
  refine ⟨s, m, w, rfl, hstored, hm.symm, ?_, fun hrange => scan_of_inRange hB hread hrange,
    fun hrange => ⟨_, scan_of_not_inRange hB hread hrange, rfl, rfl⟩, ?_,
    fun C hC => exists_scan_bool_iff hC hread⟩
  · rw [hstored]
    exact scan_congr_integer hB rfl hnumber
  · rw [hstored]
    exact congrArg (some ∘ Key.int) hm.symm

/-- A number that came from the widest type goes through an option into a validity flag, and is
refused there just as it would have been at once. -/
theorem integers_keep_number_narrow :
    (nullable (plain (.int .u8))).scan (.int .i16 (some ⟨300, by decide⟩)) =
      .error (.conversion (.overflow 300 .u8)) ∧
    (ScanError.conversion (.overflow 300 .u8)).actual = "300 overflows u8" := by
  have hread : (option (plain (.int .i16))).scan (.int .u64 (some ⟨300, by decide⟩)) =
      .ok (some ⟨300, by decide⟩) := rfl
  obtain ⟨s, m, w, hv, hstored, -, hsame, -, hoverflow, -⟩ :=
    integers_keep_number (B := nullable (plain (.int .u8))) rfl rfl (fun _ => rfl) hread
  cases hv
  obtain ⟨e, he, rfl, hactual⟩ := hoverflow (by decide)
  exact ⟨hsame.trans he, by decide⟩

end ColumnType

end RecordGraph
