import RecordGraph.Proofs.Preload.Attaching
import RecordGraph.Proofs.Schema.KeyTypes

/-!
# Zeros

Whether a datum counts as nothing can be asked of the datum in its type, of the value that it is
stored as, and of the key that is made of this value. A type is a base type in wrappers, so what the
three have to do with one another is told by the datum of the base type inside, if there is one.
-/

namespace RecordGraph

variable {M : Type}

/-! ### Texts of identifiers -/

theorem Text.length_hexOfBytes (bytes : List UInt8) :
    (Text.hexOfBytes bytes).length = 2 * bytes.length := by
  induction bytes with
  | nil => rfl
  | cons b bytes ih =>
    have hcons : Text.hexOfBytes (b :: bytes) =
        Text.hexDigit (b.toNat / 16) :: Text.hexDigit (b.toNat % 16) :: Text.hexOfBytes bytes :=
      rfl
    rw [hcons, List.length_cons, List.length_cons, List.length_cons, ih]
    omega

namespace Uuid

theorem read?_groups {a b c d e : List Char} (ha : a.length = 8) (hb : b.length = 4)
    (hc : c.length = 4) (hd : d.length = 4) (he : e.length = 12) :
    read? (String.ofList (a ++ '-' :: b ++ '-' :: c ++ '-' :: d ++ '-' :: e)) =
      ofDigits? (a ++ b ++ c ++ d ++ e) := by
  have hlength : (a ++ '-' :: b ++ '-' :: c ++ '-' :: d ++ '-' :: e).length = 36 := by
    simp only [List.length_append, List.length_cons, ha, hb, hc, hd, he]
  have hgroups : ofHyphenated? (a ++ '-' :: b ++ '-' :: c ++ '-' :: d ++ '-' :: e) =
      ofDigits? (a ++ b ++ c ++ d ++ e) := by
    simp (disch := omega) [ofHyphenated?, List.getElem?_append, List.drop_append,
      List.drop_eq_nil_of_le, List.getElem?_cons_zero, ha, hb, hc, hd]
  rw [read?, String.toList_ofList, hlength, if_neg (by decide), if_pos rfl, hgroups]

/-- The canonical text of an identifier is read as the identifier. -/
theorem read?_text (u : Uuid) : read? u.text = some u := by
  have hlength : (Text.hexOfBytes u.bytes).length = 32 := by
    rw [Text.length_hexOfBytes, u.length_bytes]
  have hdigits : ofDigits? (Text.hexOfBytes u.bytes) = some u := by
    simp only [ofDigits?, Text.bytesOfHex?_hexOfBytes, Option.bind_some, ofBytes?, u.length_bytes,
      dite_true]
  have hjoin : ∀ (s : List Char) (a b : Nat), s.take a ++ (s.drop a).take b = s.take (a + b) :=
    fun s a b => (List.take_add (i := a) (j := b)).symm
  rw [text, read?_groups, hjoin, hjoin, hjoin, List.take_append_drop, hdigits]
  all_goals simp [hlength]

theorem text_injective {u v : Uuid} (h : u.text = v.text) : u = v := by
  have hu := read?_text u
  rw [h, read?_text v] at hu
  exact (Option.some_inj.mp hu).symm

end Uuid

theorem Uuid.text_zero : Uuid.zero.text = "00000000-0000-0000-0000-000000000000" := by
  decide +kernel

/-! ### Keys that count as nothing -/

namespace Key

theorem isZero_text_iff (s : String) :
    (text s).isZero = true ↔ s.isEmpty = true ∨ s = Uuid.zero.text := by
  simp only [isZero, Bool.or_eq_true, decide_eq_true_eq, Uuid.text_zero]

theorem isZero_text_uuid_iff (u : Uuid) : (text u.text).isZero = true ↔ u = Uuid.zero := by
  rw [isZero_text_iff]
  constructor
  · rintro (hempty | hzero)
    · have hread := u.read?_text
      rw [String.isEmpty_iff.mp hempty] at hread
      cases hread
    · exact Uuid.text_injective hzero
  · rintro rfl
    exact Or.inr rfl

/-- The value has no key, or one that refers to nothing. -/
def Absent (v : Value) : Prop := ofValue? v = none ∨ ∃ k, ofValue? v = some k ∧ k.isZero = true

theorem absent_iff {v : Value} {k : Key} (h : ofValue? v = some k) :
    Absent v ↔ k.isZero = true := by
  constructor
  · rintro (hnone | ⟨k', hk, hzero⟩)
    · cases h.symm.trans hnone
    · cases h.symm.trans hk
      exact hzero
  · intro hzero
    exact Or.inr ⟨k, h, hzero⟩

end Key

/-! ### Base types -/

namespace BaseType

/-- The JSON null and the epoch, which are data of their types and no nulls of the column. -/
def IsBlank : (b : BaseType) → b.Carrier → Prop
  | json, j => j = Json.null
  | datetime, i => i = Instant.epoch
  | datetimeUtc, i => i = Instant.epoch
  | _, _ => False

theorem isZero_toValue {b : BaseType} {z : b.Carrier} (h : ¬ b.IsBlank z) :
    (b.toValue z).isZero = b.isZero z := by
  cases b with
  | json =>
    have hj : Json.isNull z = false := by
      cases z with
      | null => exact absurd rfl h
      | _ => rfl
    exact hj.symm
  | datetime =>
    have hi : decide (z = Instant.epoch) = false := decide_eq_false h
    exact hi.symm
  | datetimeUtc =>
    have hi : decide (z = Instant.epoch) = false := decide_eq_false h
    exact hi.symm
  | _ => simp [toValue, isZero, Value.isZero, Value.isNull, Value.integer?]

/-- The two blank data count as nothing, though not as values. -/
theorem isZero_of_toValue {b : BaseType} {z : b.Carrier} (h : (b.toValue z).isZero = true) :
    b.isZero z = true := by
  by_cases hblank : b.IsBlank z
  · cases b with
    | json => cases h
    | datetime => cases h
    | datetimeUtc => cases h
    | _ => exact hblank.elim
  · rw [← isZero_toValue hblank, h]

/-- The key of a stored datum of a type for keys refers to nothing where the datum counts as nothing,
and where it is a text that spells the zero identifier. -/
theorem absent_toValue {b : BaseType} {type : KeyType} (hb : KeyType.ofKind? b.kind = some type)
    (z : b.Carrier) : Key.Absent (b.toValue z) ↔
      b.isZero z = true ∨ b.toValue z = .text (some Uuid.zero.text) := by
  cases type with
  | integer =>
    obtain ⟨t, rfl⟩ := exists_int_of_kind hb
    rw [Key.absent_iff (k := .int z.val) rfl]
    simp only [Key.isZero, isZero, toValue, decide_eq_true_eq, reduceCtorEq, or_false]
  | string =>
    rcases text_or_uuid_of_kind hb with rfl | rfl
    · rw [Key.absent_iff (k := .text z) rfl, Key.isZero_text_iff]
      simp only [isZero, toValue, Value.text.injEq, Option.some.injEq]
    · rw [Key.absent_iff (k := .text z.text) rfl, Key.isZero_text_uuid_iff]
      simp only [isZero, toValue, decide_eq_true_eq, reduceCtorEq, or_false]

theorem not_isBlank_of_kind {b : BaseType} {type : KeyType}
    (hb : KeyType.ofKind? b.kind = some type) (z : b.Carrier) : ¬ b.IsBlank z := by
  cases b with
  | json => cases hb
  | datetime => cases hb
  | datetimeUtc => cases hb
  | _ => exact not_false

end BaseType

/-! ### Column types -/

namespace ColumnType

/-- The datum of the base type inside all wrappers, if there is one. -/
def datum? : (T : ColumnType) → T.Carrier → Option T.base.Carrier
  | plain _, x => some x
  | option T, x => Option.bind x T.datum?
  | nullable T, x => if x.valid then T.datum? x.value else none

variable {T : ColumnType} {x : T.Carrier}

theorem of_datum?_none (h : T.datum? x = none) : T.toValue x = T.null ∧ T.isZero x = true := by
  induction T with
  | plain b => cases h
  | option T ih =>
    cases x with
    | none => exact ⟨rfl, rfl⟩
    | some y => exact ih h
  | nullable T ih =>
    obtain ⟨valid, y⟩ := x
    cases valid with
    | false => exact ⟨rfl, rfl⟩
    | true => exact ih h

theorem of_datum?_some {z : T.base.Carrier} (h : T.datum? x = some z) :
    T.toValue x = T.base.toValue z ∧ T.isZero x = T.base.isZero z := by
  induction T with
  | plain b =>
    cases h
    exact ⟨rfl, rfl⟩
  | option T ih =>
    cases x with
    | none => cases h
    | some y => exact ih h
  | nullable T ih =>
    obtain ⟨valid, y⟩ := x
    cases valid with
    | false => cases h
    | true => exact ih h

theorem isZero_null (T : ColumnType) : T.null.isZero = true := by
  simp only [null, Value.isZero, BaseType.isNull_null, Bool.true_or]

theorem isZero_of_toValue (h : (T.toValue x).isZero = true) : T.isZero x = true := by
  cases hdatum : T.datum? x with
  | none => exact (of_datum?_none hdatum).2
  | some z =>
    obtain ⟨hstored, hzero⟩ := of_datum?_some hdatum
    rw [hstored] at h
    rw [hzero, BaseType.isZero_of_toValue h]

theorem isZero_toValue (h : ∀ z, T.datum? x = some z → ¬ T.base.IsBlank z) :
    (T.toValue x).isZero = T.isZero x := by
  cases hdatum : T.datum? x with
  | none =>
    obtain ⟨hstored, hzero⟩ := of_datum?_none hdatum
    rw [hstored, hzero, isZero_null]
  | some z =>
    obtain ⟨hstored, hzero⟩ := of_datum?_some hdatum
    rw [hstored, hzero, BaseType.isZero_toValue (h z hdatum)]

theorem absent_toValue {type : KeyType} (hT : KeyType.ofKind? T.kind = some type) :
    Key.Absent (T.toValue x) ↔
      T.isZero x = true ∨ T.toValue x = .text (some Uuid.zero.text) := by
  cases hdatum : T.datum? x with
  | none =>
    obtain ⟨hstored, hzero⟩ := of_datum?_none hdatum
    have habsent : Key.Absent (T.toValue x) := by
      rw [hstored]
      exact Or.inl (ofValue?_null T)
    exact iff_of_true habsent (Or.inl hzero)
  | some z =>
    obtain ⟨hstored, hzero⟩ := of_datum?_some hdatum
    rw [hstored, hzero]
    exact BaseType.absent_toValue hT z

end ColumnType

/-! ### Owners -/

namespace Family

variable {F : Family M} {r : Relation M} {owner : Record M} {v : Value}

theorem ownerKey?_eq_none_iff (h : F.getField owner r.source.field = .ok (.column v)) :
    F.ownerKey? r owner = .ok none ↔ Key.Absent v := by
  simp only [ownerKey?, h]
  cases hk : Key.ofValue? v with
  | none => exact iff_of_true rfl (Or.inl hk)
  | some k =>
    rw [Key.absent_iff hk]
    cases hzero : k.isZero <;> simp [hzero]

end Family

/-- A datum counts as nothing in its type just if its value does, also as the content of a field,
the JSON null and the epoch apart, which count as nothing in their types. In a column for keys this
is just where no key is looked for, but for a text that spells the zero identifier, which is looked
for no more than the identifier. -/
theorem zero_checks_agree (T : ColumnType) (x : T.Carrier) :
    ((T.toValue x).isZero = true → T.isZero x = true) ∧
    ((∀ z, T.datum? x = some z → ¬ T.base.IsBlank z) →
      (T.isZero x = true ↔ (T.toValue x).isZero = true)) ∧
    (∀ (F : Family M) (r : Record M) name i d, F.locate r name = .ok (i, d, .column T x) →
      ∃ v, F.getField r name = .ok v ∧ (v.isZero = true ↔ (T.toValue x).isZero = true)) ∧
    ∀ type, KeyType.ofKind? T.kind = some type →
      (T.isZero x = true ↔ (T.toValue x).isZero = true) ∧
      (Key.Absent (T.toValue x) ↔
        T.isZero x = true ∨ T.toValue x = .text (some Uuid.zero.text)) ∧
      ∀ (F : Family M) (r : Relation M) owner,
        F.getField owner r.source.field = .ok (.column (T.toValue x)) →
          (F.ownerKey? r owner = .ok none ↔ Key.Absent (T.toValue x)) := by
  have hagree : (∀ z, T.datum? x = some z → ¬ T.base.IsBlank z) →
      (T.isZero x = true ↔ (T.toValue x).isZero = true) := by
    intro h
    rw [ColumnType.isZero_toValue h]
  refine ⟨ColumnType.isZero_of_toValue, hagree, fun F r name i d hlocate => ?_,
    fun type htype => ⟨?_, ColumnType.absent_toValue htype, fun F r owner hsource => ?_⟩⟩
  · exact ⟨_, Family.getField_of_locate hlocate, Iff.rfl⟩
  · exact hagree fun z _ => BaseType.not_isBlank_of_kind htype z
  · exact Family.ownerKey?_eq_none_iff hsource

/-- The zero identifier is nothing in every respect, and so is the JSON value of an empty option. -/
theorem zero_checks_agree_zero :
    ((ColumnType.plain .uuid).isZero Uuid.zero = true ∧
      Key.Absent ((ColumnType.plain .uuid).toValue Uuid.zero)) ∧
    ((ColumnType.option (.plain .json)).isZero none = true ↔
      ((ColumnType.option (.plain .json)).toValue none).isZero = true) := by
  obtain ⟨-, -, -, hkeys⟩ := zero_checks_agree (M := Registry.Shelf) (.plain .uuid) Uuid.zero
  obtain ⟨-, hagree, -, -⟩ := zero_checks_agree (M := Registry.Shelf) (.option (.plain .json)) none
  have hzero : (ColumnType.plain .uuid).isZero Uuid.zero = true := rfl
  exact ⟨⟨hzero, (hkeys .string rfl).2.1.mpr (Or.inl hzero)⟩, hagree fun z hz => nomatch hz⟩

/-- The JSON null and the epoch are nothing in their types and something as values. The text that
spells the zero identifier is something as a text, and refers to nothing as a key. -/
theorem zero_checks_differ :
    ((ColumnType.plain .json).isZero Json.null = true ∧
      ((ColumnType.plain .json).toValue Json.null).isZero = false) ∧
    ((ColumnType.plain .datetime).isZero Instant.epoch = true ∧
      ((ColumnType.plain .datetime).toValue Instant.epoch).isZero = false) ∧
    (ColumnType.plain .text).isZero "00000000-0000-0000-0000-000000000000" = false ∧
      Key.Absent ((ColumnType.plain .text).toValue "00000000-0000-0000-0000-000000000000") :=
  ⟨⟨rfl, rfl⟩, ⟨rfl, rfl⟩, by decide +kernel, Or.inr ⟨_, rfl, by decide +kernel⟩⟩

end RecordGraph
