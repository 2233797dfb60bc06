import RecordGraph.Proofs.Record.Conformity
import RecordGraph.Proofs.Text.Segments
import RecordGraph.Proofs.Value.Storing
import RecordGraph.Record.IndexPath

/-!
# Index paths as lenses

The places of a dotted path lead through every record of the model to one slot. Reading gives what is
in the slot, and writing puts there what the field takes for the value, or nothing if it rejects the
value. All other slots stay as they are, but for absent references on the way, which become default
records.
-/

namespace RecordGraph

variable {M : Type}

/-- What a slot holds after its own content was written into it: a datum that is stored as the null
is read back as the initial one. -/
def Slot.restored {R : Type} : Slot M R → Slot M R
  | .column T x => .column T (T.restored x)
  | s => s

theorem Slot.read_restored {R : Type} (s : Slot M R) : s.restored.read = s.read := by
  cases s with
  | column T x => exact congrArg FieldValue.column (T.toValue_restored x)
  | reference target record => rfl
  | collection target records => rfl

namespace Family

variable {F : Family M}

/-! ### Paths of names -/

/-- From a model the names lead, through a single reference at every name but the last, to a field
of a model. Each name is that of the field in its place. -/
inductive Resolves (F : Family M) : M → List String → List Nat → M → FieldDecl M → Prop where
  | last {m : M} {name : String} {i : Nat} {d : FieldDecl M}
      (place : (F.model m).position? name = some i)
      (declared : (F.model m).fields[i]? = some d) : Resolves F m [name] [i] m d
  | through {m target n : M} {name : String} {names : List String} {i j : Nat} {ix : List Nat}
      {e d : FieldDecl M} {boxed : Bool}
      (place : (F.model m).position? name = some i)
      (declared : (F.model m).fields[i]? = some e)
      (single : e.type = .reference target boxed)
      (rest : Resolves F target names (j :: ix) n d) :
      Resolves F m (name :: names) (i :: j :: ix) n d

theorem resolves_of_indicesOf {m : M} {name : String} {names : List String} {ix : List Nat}
    (h : F.indicesOf m (name :: names) = .ok ix) : ∃ n d, F.Resolves m (name :: names) ix n d := by
  induction names generalizing m name ix with
  | nil =>
    simp only [indicesOf] at h
    split at h
    · rename_i i hi
      cases h
      obtain ⟨d, hd⟩ := exists_of_position? hi
      exact ⟨m, d, .last hi hd⟩
    · cases h
  | cons next names ih =>
    simp only [indicesOf] at h
    split at h
    · cases h
    · rename_i i hi
      split at h
      · cases h
      · rename_i e he
        split at h
        · rename_i target boxed htype
          split at h
          · rename_i js hjs
            cases h
            obtain ⟨n, d, hrest⟩ := ih hjs
            cases hrest with
            | last place declared => exact ⟨_, d, .through hi he htype (.last place declared)⟩
            | through place declared single rest =>
              exact ⟨n, d, .through hi he htype (.through place declared single rest)⟩
          · cases h
        · cases h

theorem Resolves.indicesOf_eq {m n : M} {names : List String} {ix : List Nat} {d : FieldDecl M}
    (h : F.Resolves m names ix n d) : F.indicesOf m names = .ok ix := by
  induction h with
  | last place declared => simp only [indicesOf, place]
  | through place declared single rest ih =>
    cases rest <;>
    · simp only [indicesOf, place, declared, single] at ih ⊢
      simp only [ih]

/-- A path is resolved just if all its segments name fields and all but the last of these are single
references. -/
theorem indexPath_eq_ok_iff {m : M} {path : String} {ix : List Nat} :
    F.indexPath m path = .ok ix ↔ ∃ n d, F.Resolves m (Text.segments path) ix n d := by
  constructor
  · intro h
    simp only [indexPath] at h
    cases hsegments : Text.segments path with
    | nil => exact absurd hsegments (Text.segments_ne_nil path)
    | cons name names =>
      rw [hsegments] at h
      exact resolves_of_indicesOf h
  · rintro ⟨n, d, h⟩
    exact h.indicesOf_eq

/-! ### Changes at the end of a path -/

/-- The second record is the first one with another slot in the place of the one at the end of the
path, where absent references on the path are default records. -/
inductive Along (F : Family M) :
    List Nat → Slot M (Record M) → Slot M (Record M) → Record M → Record M → Prop where
  | last {i : Nat} {s t : Slot M (Record M)} {r : Record M} (here : r.slots[i]? = some s) :
      Along F [i] s t r (r.setSlot i t)
  | through {i j : Nat} {ix : List Nat} {s t : Slot M (Record M)} {r c : Record M}
      {e : FieldDecl M} {target : M} {boxed : Bool} {record : Option (Record M)}
      (declared : (F.model r.model).fields[i]? = some e)
      (single : e.type = .reference target boxed)
      (here : r.slots[i]? = some (.reference target record))
      (model_eq : (record.getD (F.blank target)).model = target)
      (rest : Along F (j :: ix) s t (record.getD (F.blank target)) c) :
      Along F (i :: j :: ix) s t r (r.setSlot i (.reference target (some c)))

theorem slot_setSlot_self {r : Record M} {i : Nat} {s t : Slot M (Record M)}
    (h : r.slots[i]? = some s) : (r.setSlot i t).slots[i]? = some t := by
  rw [Record.slots_setSlot]
  exact List.getElem?_set_self (List.getElem?_eq_some_iff.mp h).1

namespace Along

variable {ix : List Nat} {s t u : Slot M (Record M)} {r r₁ r₂ : Record M}

theorem model (h : F.Along ix s t r r₁) : r₁.model = r.model := by
  cases h <;> rfl

theorem unique {s' : Slot M (Record M)} (h₁ : F.Along ix s t r r₁) (h₂ : F.Along ix s' t r r₂) :
    s = s' ∧ r₁ = r₂ := by
  induction h₁ generalizing r₂ with
  | last here =>
    cases h₂ with
    | last here' => exact ⟨Option.some_inj.mp (here.symm.trans here'), rfl⟩
  | through declared single here model_eq rest ih =>
    cases h₂ with
    | through declared' single' here' model_eq' rest' =>
      cases here.symm.trans here'
      obtain ⟨hs, rfl⟩ := ih rest'
      exact ⟨hs, rfl⟩

theorem again (h₁ : F.Along ix s t r r₁) (h₂ : F.Along ix s u r r₂) : F.Along ix t u r₁ r₂ := by
  induction h₁ generalizing r₂ with
  | @last i s t r here =>
    cases h₂ with
    | last here' =>
      have hagain : F.Along [i] t u (r.setSlot i t) _ := .last (slot_setSlot_self here)
      rwa [Record.setSlot_setSlot] at hagain
  | @through i j ix s t r c e target boxed record declared single here model_eq rest ih =>
    cases h₂ with
    | through declared' single' here' model_eq' rest' =>
      cases here.symm.trans here'
      have hagain : F.Along (i :: j :: ix) t u (r.setSlot i (.reference target (some c))) _ :=
        .through declared single (slot_setSlot_self here) (rest.model.trans model_eq) (ih rest')
      rwa [Record.setSlot_setSlot] at hagain

end Along

theorem Suits.reference {target : M} {boxed : Bool} {s : Slot M (Record M)}
    (h : F.Suits (.reference target boxed) s) :
    ∃ record, s = .reference target record ∧ (record.getD (F.blank target)).model = target ∧
      F.Conforms (record.getD (F.blank target)) := by
  cases s with
  | column T x => exact h.fits.elim
  | collection u records => exact h.fits.elim
  | reference u record =>
    have htarget : target = u := h.fits
    subst htarget
    cases record with
    | none => exact ⟨none, rfl, rfl, conforms_blank target⟩
    | some c =>
      obtain ⟨hmodel, hconforms⟩ := h.attached [c] rfl c List.mem_cons_self
      exact ⟨some c, rfl, (Option.some_inj.mp hmodel).symm, hconforms⟩

/-- In a conforming record every resolved path leads to a slot of its field, which can be changed. -/
theorem Resolves.exists_along {m n : M} {names : List String} {ix : List Nat} {d : FieldDecl M}
    (h : F.Resolves m names ix n d) {r : Record M} (hm : r.model = m) (hr : F.Conforms r) :
    ∃ s, F.Suits d.type s ∧ ∀ t, ∃ r', F.Along ix s t r r' := by
  induction h generalizing r with
  | last place declared =>
    subst hm
    obtain ⟨s, hs⟩ := hr.exists_slot declared
    exact ⟨s, hr.suits declared hs, fun t => ⟨_, .last hs⟩⟩
  | through place declared single rest ih =>
    subst hm
    obtain ⟨s, hs⟩ := hr.exists_slot declared
    have hsuits := hr.suits declared hs
    rw [single] at hsuits
    obtain ⟨record, rfl, hmodel, hconforms⟩ := hsuits.reference
    obtain ⟨leaf, hleaf, hchange⟩ := ih hmodel hconforms
    refine ⟨leaf, hleaf, fun t => ?_⟩
    obtain ⟨c, hc⟩ := hchange t
    exact ⟨_, .through declared single hs hmodel hc⟩

/-- An operation that changes the slot at the end of a path changes the whole record along it. -/
theorem Along.atPath {α : Type} {ix : List Nat} {s t : Slot M (Record M)} {r r' : Record M}
    (h : F.Along ix s t r r') {m n : M} {names : List String} {d : FieldDecl M}
    (hpath : F.Resolves m names ix n d) (hm : r.model = m)
    {op : Record M → Nat → FieldDecl M → Slot M (Record M) → Attempt (Record M) α}
    {result : Except Error α}
    (hop : ∀ o i, o.model = n → o.slots[i]? = some s → op o i d s = ⟨o.setSlot i t, result⟩) :
    F.atPath op r ix = ⟨r', result⟩ := by
  induction h generalizing m names with
  | last here =>
    subst hm
    cases hpath with
    | last place declared =>
      simp only [Family.atPath, declared, here]
      exact hop _ _ rfl here
  | through declared single here model_eq rest ih =>
    subst hm
    cases hpath with
    | through place declared' single' rest' =>
      cases declared.symm.trans declared'
      cases single.symm.trans single'
      simp only [Family.atPath, declared, here, ih rest' model_eq hop, Attempt.mapState]

/-! ### What a field takes -/

variable [DecidableEq M]

/-- What a field of a type takes for a value, or why it rejects the value. What the field held before
does not matter. -/
def accept (F : Family M) (type : FieldType M) (v : FieldValue (Record M)) :
    Except Mismatch (Slot M (Record M)) :=
  match F.writeSlot .replace type.blank v with
  | (s, none) => .ok s
  | (_, some e) => .error e

theorem accept_column (T : ColumnType) (v : Value) :
    F.accept (.column T) (.column v) = match T.scan v with
      | .ok x => .ok (.column T x)
      | .error e => .error ⟨e.expected, e.actual⟩ := by
  simp only [accept, FieldType.blank, writeSlot]
  cases T.scan v <;> rfl

theorem writeSlot_replace {type : FieldType M} {s : Slot M (Record M)} (h : type.Fits s)
    (v : FieldValue (Record M)) :
    F.writeSlot .replace s v = match F.accept type v with
      | .ok t => (t, none)
      | .error e => (s, some e) := by
  cases type with
  | column T =>
    cases s with
    | column U x =>
      have hT : T = U := h
      subst hT
      cases v with
      | column value =>
        rw [accept_column]
        simp only [writeSlot]
        cases T.scan value <;> rfl
      | one record => cases record <;> rfl
      | many records => rfl
    | reference target record => exact h.elim
    | collection target records => exact h.elim
  | reference target boxed =>
    cases s with
    | column U x => exact h.elim
    | reference u record =>
      have htarget : target = u := h
      subst htarget
      cases v with
      | column value => rfl
      | one record' =>
        cases record' with
        | none => rfl
        | some c =>
          simp only [accept, FieldType.blank, writeSlot]
          cases F.checkTarget target c <;> rfl
      | many records => rfl
    | collection u records => exact h.elim
  | collection target through =>
    cases s with
    | column U x => exact h.elim
    | reference u record => exact h.elim
    | collection u records =>
      have htarget : target = u := h
      subst htarget
      cases v with
      | column value => rfl
      | one record => cases record <;> rfl
      | many records' =>
        simp only [accept, FieldType.blank, writeSlot]
        cases F.checkTargets target records' <;> rfl

theorem accept_read {type : FieldType M} {s : Slot M (Record M)} (h : F.Suits type s) :
    F.accept type s.read = .ok s.restored := by
  cases type with
  | column T =>
    obtain ⟨x, rfl⟩ := h.column
    simp only [Slot.read, accept_column, T.scan_toValue_eq, Slot.restored]
  | reference target boxed =>
    obtain ⟨record, rfl, -⟩ := h.reference
    cases record with
    | none => rfl
    | some c =>
      obtain ⟨hmodel, -⟩ := h.attached [c] rfl c List.mem_cons_self
      have hc := checkTarget_ok (F := F) (Option.some_inj.mp hmodel).symm
      simp only [accept, FieldType.blank, Slot.read, writeSlot, hc, Slot.restored]
  | collection target through =>
    cases s with
    | column U x => exact h.fits.elim
    | reference u record => exact h.fits.elim
    | collection u records =>
      have htarget : target = u := h.fits
      subst htarget
      have hall : ∀ c ∈ records, c.model = target := fun c hc =>
        (Option.some_inj.mp (h.attached records rfl c hc).1).symm
      simp only [accept, FieldType.blank, Slot.read, writeSlot, checkTargets_ok hall, Slot.restored]

theorem accept_fits {type : FieldType M} {v : FieldValue (Record M)} {t : Slot M (Record M)}
    (h : F.accept type v = .ok t) : type.Fits t := by
  cases type with
  | column T =>
    cases v with
    | column value =>
      rw [accept_column] at h
      split at h
      · cases h
        rfl
      · cases h
    | one record => cases record <;> cases h
    | many records => cases h
  | reference target boxed =>
    cases v with
    | column value => cases h
    | one record =>
      cases record with
      | none =>
        cases h
        rfl
      | some c =>
        simp only [accept, FieldType.blank, writeSlot] at h
        cases hc : F.checkTarget target c with
        | ok r =>
          simp only [hc] at h
          cases h
          rfl
        | error e =>
          simp only [hc] at h
          cases h
    | many records => cases h
  | collection target through =>
    cases v with
    | column value => cases h
    | one record => cases record <;> cases h
    | many records =>
      simp only [accept, FieldType.blank, writeSlot] at h
      cases hcs : F.checkTargets target records with
      | ok rs =>
        simp only [hcs] at h
        cases h
        rfl
      | error e =>
        simp only [hcs] at h
        cases h

/-! ### Reading and writing along a path -/

section

variable {m n : M} {names : List String} {ix : List Nat} {d : FieldDecl M}
  {s t : Slot M (Record M)} {r r' : Record M} {v : FieldValue (Record M)}

omit [DecidableEq M] in
theorem getAt_along (hpath : F.Resolves m names ix n d) (hm : r.model = m)
    (h : F.Along ix s s r r') : F.getAt r ix = .done r' s.read := by
  refine h.atPath hpath hm fun o i _ hs => ?_
  rw [setSlot_eq_self hs]
  rfl

theorem setAt_along (hpath : F.Resolves m names ix n d) (hm : r.model = m) (hs : d.type.Fits s)
    (h : F.Along ix s t r r') (hv : F.accept d.type v = .ok t) :
    F.setAt r ix v = .done r' () := by
  refine h.atPath hpath hm fun o i _ _ => ?_
  simp only [writeAt, writeSlot_replace hs, hv]

theorem setAt_rejected (hpath : F.Resolves m names ix n d) (hm : r.model = m) (hs : d.type.Fits s)
    (h : F.Along ix s s r r') {e : Mismatch} (hv : F.accept d.type v = .error e) :
    F.setAt r ix v =
      .failed r' (.typeMismatch (F.model n).name d.name e.expected e.actual) := by
  refine h.atPath hpath hm fun o i ho _ => ?_
  simp only [writeAt, writeSlot_replace hs, hv, ho]

end

/-- Dotted paths are lenses. A path has places just if its segments lead through single references
to a field. In every record of the model, reading gives what the field holds, and makes nothing but
default records of the absent references on the way. Writing fails only if the field rejects the
value, and then leaves the record as reading does. Else the field holds what it takes for the value,
and all other slots are as after reading; what is written over it leaves nothing of it. What was
read and is written again is taken as it is stored. -/
theorem indexPath_lens (F : Family M) (m : M) (path : String) :
    (∀ ix, F.indexPath m path = .ok ix ↔
      ∃ n d, F.Resolves m (Text.segments path) ix n d) ∧
    ∀ ix n d, F.Resolves m (Text.segments path) ix n d → ∀ r, r.model = m → F.Conforms r →
      ∃ s grown, F.Suits d.type s ∧ F.Along ix s s r grown ∧
        F.getAt r ix = .done grown s.read ∧
        (∀ v e, F.accept d.type v = .error e → F.setAt r ix v =
          .failed grown (.typeMismatch (F.model n).name d.name e.expected e.actual)) ∧
        (∀ v t, F.accept d.type v = .ok t → ∃ r', F.Along ix s t r r' ∧
          F.setAt r ix v = .done r' () ∧ F.getAt r' ix = .done r' t.read ∧
          ∀ w u, F.accept d.type w = .ok u → F.setAt r' ix w = F.setAt r ix w) ∧
        ∃ r', F.setAt grown ix s.read = .done r' () ∧ F.Along ix s s.restored r r' ∧
          F.getAt r' ix = .done r' s.read ∧ (s.restored = s → r' = grown) := by
  refine ⟨fun ix => indexPath_eq_ok_iff, fun ix n d hpath r hm hr => ?_⟩
  obtain ⟨s, hs, hchange⟩ := hpath.exists_along hm hr
  obtain ⟨grown, hgrown⟩ := hchange s
  refine ⟨s, grown, hs, hgrown, getAt_along hpath hm hgrown,
    fun v e hv => setAt_rejected hpath hm hs.fits hgrown hv, fun v t hv => ?_, ?_⟩
  · obtain ⟨r', hr'⟩ := hchange t
    have hm' : r'.model = m := hr'.model.trans hm
    refine ⟨r', hr', setAt_along hpath hm hs.fits hr' hv,
      getAt_along hpath hm' (hr'.again hr'), fun w u hw => ?_⟩
    obtain ⟨r'', hr''⟩ := hchange u
    rw [setAt_along hpath hm hs.fits hr'' hw,
      setAt_along hpath hm' (accept_fits hv) (hr'.again hr'') hw]
  · obtain ⟨r', hr'⟩ := hchange s.restored
    have hm' : r'.model = m := hr'.model.trans hm
    refine ⟨r', setAt_along hpath (hgrown.model.trans hm) hs.fits (hgrown.again hr')
      (accept_read hs), hr', ?_, fun hsame => ?_⟩
    · rw [getAt_along hpath hm' (hr'.again hr'), s.read_restored]
    · rw [hsame] at hr'
      exact (hr'.unique hgrown).2

end Family

/-! ### Parcels in parcels -/

namespace Registry

/-- The weight of a parcel may be unknown, and then it may have been asked for or not. -/
def weightType : ColumnType := .option (.option (.plain (.int .i64)))

def parcels : Family Unit where
  model _ := ⟨"Parcel", "post::Parcel", "parcels", none,
    [⟨"inner", "", .reference () true⟩, ⟨"weight", "", .column weightType⟩]⟩
  all := [()]
  mem_all _ := List.mem_singleton.mpr rfl

theorem resolves_weight : parcels.Resolves () (Text.segments "inner.inner.weight") [0, 0, 1] ()
    ⟨"weight", "", .column weightType⟩ := by
  have hsegments : Text.segments "inner.inner.weight" = ["inner", "inner", "weight"] := by
    decide +kernel
  rw [hsegments]
  exact .through rfl rfl rfl (.through rfl rfl rfl (.last rfl rfl))

/-- A weight can be written two parcels deep into an empty parcel, and is read there. -/
theorem indexPath_lens_weight : ∃ r,
    parcels.setAt (parcels.blank ()) [0, 0, 1] (.column (.int .u8 (some ⟨5, by decide⟩))) =
      .done r () ∧
    parcels.getAt r [0, 0, 1] = .done r (.column (.int .i64 (some ⟨5, by decide⟩))) := by
  obtain ⟨-, lens⟩ := Family.indexPath_lens parcels () "inner.inner.weight"
  obtain ⟨s, grown, -, -, -, -, hset, -⟩ := lens _ _ _ resolves_weight (parcels.blank ()) rfl
    (Family.conforms_blank ())
  obtain ⟨r, -, hdone, hread, -⟩ := hset (.column (.int .u8 (some ⟨5, by decide⟩)))
    (.column weightType (some (some ⟨5, by decide⟩))) rfl
  exact ⟨r, hdone, hread⟩

/-- A parcel whose weight was asked for and is unknown. -/
def asked : Record Unit := (parcels.blank ()).setSlot 1 (.column weightType (some none))

/-- Parcels with two fields of one name, a label and the parcel inside. -/
def labelled : Family Unit where
  model _ := ⟨"Parcel", "post::Parcel", "parcels", none,
    [⟨"inner", "", .column (.plain .text)⟩, ⟨"inner", "", .reference () true⟩,
      ⟨"weight", "", .column weightType⟩]⟩
  all := [()]
  mem_all _ := List.mem_singleton.mpr rfl

/-- A path has no places, although each of its names is that of a field and the first one is that of
a single reference too, because the first field with the name is a column. The weight of a parcel
becomes one that was not asked for, if what is read of it is written again. -/
theorem parcel_paths_apart :
    (Text.segments "inner.weight" = ["inner", "weight"] ∧
      (∃ d ∈ (labelled.model ()).fields, d.name = "inner" ∧ d.type = .reference () true) ∧
      (∃ d ∈ (labelled.model ()).fields, d.name = "weight") ∧
      labelled.indexPath () "inner.weight" =
        .error (.typeMismatch "Parcel" "inner" "single reference" "alloc::string::String")) ∧
    parcels.Conforms asked ∧ parcels.indexPath () "weight" = .ok [1] ∧
    ∃ v r, parcels.getAt asked [1] = .done asked v ∧ parcels.setAt asked [1] v = .done r () ∧
      r.slots[1]? = some (.column weightType none) ∧ r ≠ asked := by
  have hsegments : Text.segments "inner.weight" = ["inner", "weight"] := by decide +kernel
  have hconforms : parcels.Conforms asked :=
    (Family.conforms_blank ()).setSlot (d := ⟨"weight", "", .column weightType⟩) rfl
      (Family.suits_column weightType (some none))
  have hrefused : labelled.indexPath () "inner.weight" =
      .error (.typeMismatch "Parcel" "inner" "single reference" "alloc::string::String") := by
    rw [Family.indexPath, hsegments]
    rfl
  refine ⟨⟨hsegments, ⟨_, List.mem_cons_of_mem _ List.mem_cons_self, rfl, rfl⟩,
    ⟨⟨"weight", "", .column weightType⟩, by simp [labelled], rfl⟩, hrefused⟩, hconforms, rfl,
    .column (.int .i64 none), _, rfl, rfl, rfl, fun h => ?_⟩
  have hslot := congrArg (fun r => r.slots[1]?) h
  cases hslot

end Registry

end RecordGraph
