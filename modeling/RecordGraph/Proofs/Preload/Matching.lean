import RecordGraph.Proofs.Preload.Loading
import RecordGraph.Proofs.Schema.KeyTypes
import RecordGraph.Proofs.Value.Integers

/-!
# Keys on both sides of a relation

The key of an owner and the key of a fetched record are read by the types of two columns, which need
not be the same, from values that a driver may give in several forms. Integers of all widths meet in
the number, and a text and an identifier in the canonical text. Only a text column that was given an
identifier in another spelling keeps the spelling. A record with a key that both sides read from one
value is a match of the owner, unless the key refers to nothing, and an association gets all matches
or the first one.
-/

namespace RecordGraph

variable {M : Type}

/-- The value is no text that spells an identifier otherwise than in its canonical form. -/
def Value.Canonical (v : Value) : Prop :=
  ∀ s u, v = .text (some s) → Uuid.read? s = some u → s = u.text

/-! ### Reading a key -/

namespace BaseType

variable {b c : BaseType} {v : Value}

/-- A value that is read as a text and as an identifier is an identifier or a text that spells one;
characters and bytes are read as one of both only. -/
theorem text_eq_of_scans {s : String} {u : Uuid} (hs : scanText v = .ok s) (hu : scanUuid v = .ok u)
    (hv : v.Canonical) : s = u.text := by
  cases v with
  | text o =>
    cases o with
    | none => cases hs
    | some s' =>
      cases hs
      refine hv s u rfl ?_
      simp only [scanUuid, converted] at hu
      split at hu
      · rename_i u' hread
        cases hu
        exact hread
      · cases hu
  | uuid o =>
    cases o with
    | none => cases hs
    | some u' =>
      cases hs
      cases hu
      rfl
  | char o => cases o <;> cases hu
  | bytes o => cases o <;> cases hs
  | _ => cases hs

theorem key_of_scans {type : KeyType} (hb : KeyType.ofKind? b.kind = some type)
    (hc : KeyType.ofKind? c.kind = some type) {z : b.Carrier} {w : c.Carrier}
    (hz : b.scan v = .ok z) (hw : c.scan v = .ok w) (hv : b = c ∨ v.Canonical) :
    ∃ k, Key.ofValue? (b.toValue z) = some k ∧ Key.ofValue? (c.toValue w) = some k := by
  cases type with
  | integer =>
    obtain ⟨t, rfl⟩ := exists_int_of_kind hb
    obtain ⟨t', rfl⟩ := exists_int_of_kind hc
    have hsame := (integer?_of_scanInt hz).symm.trans (integer?_of_scanInt hw)
    exact ⟨.int z.val, rfl, congrArg (Option.map Key.int) hsame.symm⟩
  | string =>
    rcases text_or_uuid_of_kind hb with rfl | rfl <;> rcases text_or_uuid_of_kind hc with rfl | rfl
    · cases hz.symm.trans hw
      exact ⟨.text z, rfl, rfl⟩
    · have hspelt := text_eq_of_scans hz hw (hv.resolve_left (by decide))
      exact ⟨.text z, rfl, congrArg (some ∘ Key.text) hspelt.symm⟩
    · have hspelt := text_eq_of_scans hw hz (hv.resolve_left (by decide))
      exact ⟨.text w, congrArg (some ∘ Key.text) hspelt.symm, rfl⟩
    · cases hz.symm.trans hw
      exact ⟨.text z.text, rfl, rfl⟩

end BaseType

/-! ### Reading through wrappers -/

namespace ColumnType

/-- The type reads the value as a datum that is not nothing. -/
def Reads (T : ColumnType) (v : Value) (x : T.Carrier) : Prop :=
  T.scan v = .ok x ∧ (T.toValue x).isNull = false

variable {S T : ColumnType} {v : Value}

theorem Reads.base {x : T.Carrier} (h : T.Reads v x) :
    ∃ z, T.base.scan v = .ok z ∧ T.toValue x = T.base.toValue z := by
  obtain ⟨hscan, hsome⟩ := h
  induction T with
  | plain b => exact ⟨x, hscan, rfl⟩
  | option T ih | nullable T ih =>
    simp only [scan] at hscan
    split at hscan
    · cases hscan
      cases hsome.symm.trans T.base.isNull_null
    · split at hscan
      · rename_i y hy
        cases hscan
        exact ih hy hsome
      · cases hscan

theorem key_of_reads {type : KeyType} (hS : KeyType.ofKind? S.kind = some type)
    (hT : KeyType.ofKind? T.kind = some type) {x : S.Carrier} {y : T.Carrier} (hx : S.Reads v x)
    (hy : T.Reads v y) (hv : S.base = T.base ∨ v.Canonical) :
    ∃ k, Key.ofValue? (S.toValue x) = some k ∧ Key.ofValue? (T.toValue y) = some k := by
  obtain ⟨z, hz, hzstored⟩ := hx.base
  obtain ⟨w, hw, hwstored⟩ := hy.base
  rw [hzstored, hwstored]
  exact BaseType.key_of_scans hS hT hz hw hv

end ColumnType

/-! ### Attaching by one key -/

namespace Family

variable {F : Family M} {r : Relation M} {k : Key}

theorem keyOf_of_column {owner : Record M} {v : Value}
    (h : F.getField owner r.source.field = .ok (.column v)) (hk : Key.ofValue? v = some k) :
    F.keyOf r owner = if k.isZero then none else some k := by
  simp only [keyOf, h, FieldValue.value?, Option.bind_some, presentKey?, hk]
  cases hzero : k.isZero <;> simp [Option.filter, hzero]

variable [DecidableEq M] {target : Schema M}

theorem key_of_hydrate (hr : r.through = none) {row : Row} {f : Fetched M} {v : Value}
    (h : F.hydrate target r row = .ok f)
    (hv : F.getField f.record r.reference.field = .ok (.column v)) : f.key = Key.ofValue? v := by
  simp only [hydrate, hr] at h
  split at h
  · cases h
  · split at h
    · cases h
    · rename_i w hw
      cases h
      cases hv.symm.trans hw
      rfl

theorem key_of_hydrateAll (hr : r.through = none) {rows : List Row} {fetched : List (Fetched M)}
    (h : F.hydrateAll target r rows = .ok fetched) {f : Fetched M} (hf : f ∈ fetched) {v : Value}
    (hv : F.getField f.record r.reference.field = .ok (.column v)) : f.key = Key.ofValue? v := by
  have hrows := hydrateAll_ok_iff.mp h
  clear h
  induction hrows with
  | nil => cases hf
  | cons hrow _ ih =>
    rcases List.mem_cons.mp hf with rfl | hf
    · exact key_of_hydrate hr hrow hv
    · exact ih hf

theorem attach_of_column {owner : Record M} {v : Value} (fetched : List (Fetched M))
    (h : F.getField owner r.source.field = .ok (.column v)) :
    F.attach r fetched owner = F.assign r (contentOf r (F.matched r fetched owner)) owner := by
  simp only [attach, ownerKey?_of_column h, matched]
  cases F.keyOf r owner <;> rfl

/-- The records that carry a key, in the order of their rows. A key that refers to nothing has
none. -/
def carriers (k : Key) (fetched : List (Fetched M)) : List (Record M) :=
  if k.isZero then [] else (fetched.filter fun f => f.key = some k).map Fetched.record

omit [DecidableEq M] in
theorem matched_eq_carriers {owner : Record M} (fetched : List (Fetched M))
    (hkey : F.keyOf r owner = if k.isZero then none else some k) :
    F.matched r fetched owner = carriers k fetched := by
  simp only [matched, hkey, carriers]
  cases k.isZero with
  | true => rfl
  | false => exact matching_eq k fetched

/-- Two columns for keys of one type that read one value read one key, whatever form the value has,
if it is not a text that only one of them takes for an identifier and that spells it in another
form. An owner with this key in its source column is looked up by it, unless the key refers to
nothing. What a direct relation attaches to the owner are the records with the key in their
reference column, in the order of their rows: all of them, or the first one where the association
holds one record. A key that refers to nothing attaches none. -/
theorem attach_read_keys {S T : ColumnType} {type : KeyType} {v : Value} {x : S.Carrier}
    {y : T.Carrier} (hS : KeyType.ofKind? S.kind = some type)
    (hT : KeyType.ofKind? T.kind = some type) (hx : S.Reads v x) (hy : T.Reads v y)
    (hv : S.base = T.base ∨ v.Canonical) :
    ∃ k, Key.ofValue? (S.toValue x) = some k ∧ Key.ofValue? (T.toValue y) = some k ∧
      ∀ (F : Family M) (r : Relation M) (target : Schema M) rows fetched owner, r.through = none →
        F.hydrateAll target r rows = .ok fetched →
        F.getField owner r.source.field = .ok (.column (S.toValue x)) →
        F.ownerKey? r owner = .ok (if k.isZero then none else some (k, S.toValue x)) ∧
        F.attach r fetched owner = F.assign r (contentOf r (carriers k fetched)) owner ∧
        (∀ f ∈ fetched, ∀ w, F.getField f.record r.reference.field = .ok (.column w) →
          f.key = Key.ofValue? w) ∧
        (∀ f ∈ fetched, F.getField f.record r.reference.field = .ok (.column (T.toValue y)) →
          k.isZero = false → f.record ∈ carriers k fetched) ∧
        (F.DistinctNames → F.Grounded r → F.Describes target → target.model = r.target →
          owner.model = r.owner → F.Conforms owner →
          ∃ owner', F.attach r fetched owner = .done owner' () ∧ owner'.model = owner.model ∧
            F.getField owner' r.name = .ok (if r.kind.isToOne then .one (carriers k fetched).head?
              else .many (carriers k fetched)) ∧
            ∀ name, name ≠ r.name → F.getField owner' name = F.getField owner name) := by
  obtain ⟨k, hkx, hky⟩ := ColumnType.key_of_reads hS hT hx hy hv
  refine ⟨k, hkx, hky, fun F r target rows fetched owner hr hrows hsource => ?_⟩
  have hkey := keyOf_of_column hsource hkx
  have hcarriers := matched_eq_carriers fetched hkey
  have hread : ∀ f ∈ fetched, ∀ w, F.getField f.record r.reference.field = .ok (.column w) →
      f.key = Key.ofValue? w := fun f hf w => key_of_hydrateAll hr hrows hf
  refine ⟨?_, ?_, hread, fun f hf href hkept => ?_, fun hF hg ht htarget hm ho => ?_⟩
  · rw [ownerKey?_of_column hsource, hkey]
    cases k.isZero <;> rfl
  · rw [attach_of_column fetched hsource, hcarriers]
  · have hmem : f ∈ fetched.filter fun f => f.key = some k :=
      List.mem_filter.mpr ⟨hf, decide_eq_true ((hread f hf _ href).trans hky)⟩
    simp only [carriers, hkept, Bool.false_eq_true, if_false]
    exact List.mem_map_of_mem hmem
  · have hmodels : ∀ f ∈ fetched, f.record.model = r.target := fun f hf =>
      (conforms_of_hydrateAll ht hrows f hf).1.trans htarget
    refine ⟨F.attached r fetched owner, attach_ok hF hg hmodels hm ho, rfl, ?_,
      fun name hne => getField_attached_ne hg fetched hm hne⟩
    rw [getField_attached hF hg fetched hm ho, hcarriers, contentOf]

end Family

/-! ### Keys of authors -/

namespace Registry

/-- A book of an author, as a row that has the number in a smaller width. -/
def bookRow (n : IntType.u8.Word) : Row :=
  ⟨[("id", .int .i64 (some (keyWord 1))), ("author_id", .int .u8 (some n))]⟩

theorem isSome_bookRow : (shelf.hydrateAll booksStep.target booksStep.relation
    [bookRow ⟨7, by decide⟩, bookRow ⟨0, by decide⟩]).toOption.isSome := by
  decide +kernel

/-- The records of two rows, one of author seven and one of author zero. -/
def twoBooks : List (Family.Fetched Shelf) := Option.get _ isSome_bookRow

theorem follows_booksStep : Family.Follows (Workshop.ofConfig shelf .standard) booksStep :=
  Family.follows_of_schemaFor (Reached.fresh 0) (Reached.fresh 0) (schemaFor_shelf .author)
    books_mem schemaFor_books

/-- A book of author seven is attached to the author, whatever width a driver gives the number in. -/
theorem attach_author_key : ∃ f ∈ twoBooks, ∃ owner records,
    shelf.getField f.record booksStep.relation.reference.field =
      .ok (.column (.int .i64 (some (keyWord 7)))) ∧
    shelf.attach booksStep.relation twoBooks (author (keyWord 7)) = .done owner () ∧
    shelf.getField owner booksStep.relation.name = .ok (.many records) ∧ f.record ∈ records := by
  have hx : (ColumnType.plain (.int .i64)).Reads (.int .u8 (some ⟨7, by decide⟩)) (keyWord 7) :=
    ⟨rfl, rfl⟩
  have hy : (ColumnType.option (.plain (.int .i64))).Reads (.int .u8 (some ⟨7, by decide⟩))
      (some (keyWord 7)) := ⟨rfl, rfl⟩
  obtain ⟨k, hk, -, hattach⟩ := Family.attach_read_keys (M := Shelf) rfl rfl hx hy (Or.inl rfl)
  obtain ⟨-, -, -, hcarried, hdone⟩ := hattach shelf booksStep.relation booksStep.target _
    twoBooks (author (keyWord 7)) (by decide +kernel) (ok_get isSome_bookRow) rfl
  obtain ⟨owner, hattached, -, hread, -⟩ := hdone distinctNames_shelf follows_booksStep.grounded
    follows_booksStep.describes follows_booksStep.target_model (by decide +kernel)
    (conforms_author _)
  have hkept : k.isZero = false := by
    cases hk
    rfl
  have hmany : booksStep.relation.kind.isToOne = false := by decide +kernel
  rw [hmany] at hread
  have hlength : 0 < twoBooks.length := by decide +kernel
  have hbook : twoBooks[0] ∈ twoBooks := List.getElem_mem hlength
  exact ⟨twoBooks[0], hbook, owner, _, rfl, hattached, hread, hcarried _ hbook rfl hkept⟩

/-- Author zero and a book of author zero have one key, and yet the book is not attached. A text
with capital letters is one key as a text and another one as an identifier. -/
theorem keys_not_attached :
    (∃ f ∈ twoBooks,
      (ColumnType.plain (.int .i64)).Reads (.int .u8 (some ⟨0, by decide⟩)) (keyWord 0) ∧
      (ColumnType.option (.plain (.int .i64))).Reads (.int .u8 (some ⟨0, by decide⟩))
        (some (keyWord 0)) ∧
      shelf.getField (author (keyWord 0)) booksStep.relation.source.field =
        .ok (.column (.int .i64 (some (keyWord 0)))) ∧
      shelf.getField f.record booksStep.relation.reference.field =
        .ok (.column (.int .i64 (some (keyWord 0)))) ∧
      shelf.getField (shelf.attach booksStep.relation twoBooks (author (keyWord 0))).state
        booksStep.relation.name = .ok (.many [])) ∧
    ∃ x y, (ColumnType.plain .text).Reads
        (.text (some "ABCDEFAB-0000-0000-0000-000000000000")) x ∧
      (ColumnType.plain .uuid).Reads (.text (some "ABCDEFAB-0000-0000-0000-000000000000")) y ∧
      Key.ofValue? ((ColumnType.plain .text).toValue x) ≠
        Key.ofValue? ((ColumnType.plain .uuid).toValue y) := by
  have hlength : 1 < twoBooks.length := by decide +kernel
  exact ⟨⟨twoBooks[1], List.getElem_mem hlength, ⟨rfl, rfl⟩, ⟨rfl, rfl⟩, rfl, rfl, rfl⟩, _, _,
    ⟨rfl, rfl⟩, ⟨rfl, rfl⟩, by decide +kernel⟩

end Registry

end RecordGraph
