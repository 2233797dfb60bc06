import RecordGraph.Proofs.Record.Conformity

/-!
# Records that hold the same in some fields

Two records of one model can be alike in some of their fields and differ in the others. What is read
by the name of a shared field is then the same in both, and so are the records below it.
-/

namespace RecordGraph

variable {M : Type}

def FieldDecl.IsColumn (d : FieldDecl M) : Prop := d.type.target? = none

namespace Family

/-- Two records of a model that hold the same in the fields of a kind. -/
structure Alike (F : Family M) (p : FieldDecl M → Prop) (x y : Record M) : Prop where
  model_eq : x.model = y.model
  slot_eq : ∀ (i : Nat) d, (F.model x.model).fields[i]? = some d → p d → x.slots[i]? = y.slots[i]?

variable {F : Family M} {p q : FieldDecl M → Prop} {x y z : Record M} {xs ys zs : List (Record M)}
  {i : Nat} {d : FieldDecl M}

theorem Alike.refl (F : Family M) (p : FieldDecl M → Prop) (x : Record M) : F.Alike p x x :=
  ⟨rfl, fun _ _ _ _ => rfl⟩

theorem Alike.symm (h : F.Alike p x y) : F.Alike p y x :=
  ⟨h.model_eq.symm, fun i d hd hp => (h.slot_eq i d (h.model_eq.symm ▸ hd) hp).symm⟩

theorem Alike.trans (h : F.Alike p x y) (h' : F.Alike p y z) : F.Alike p x z := by
  refine ⟨h.model_eq.trans h'.model_eq, fun i d hd hp => ?_⟩
  have hd' : (F.model y.model).fields[i]? = some d := h.model_eq ▸ hd
  exact (h.slot_eq i d hd hp).trans (h'.slot_eq i d hd' hp)

theorem Alike.mono (h : F.Alike p x y) (hpq : ∀ d, q d → p d) : F.Alike q x y :=
  ⟨h.model_eq, fun i d hd hq => h.slot_eq i d hd (hpq d hq)⟩

theorem forall₂_alike_refl (F : Family M) (p : FieldDecl M → Prop) (xs : List (Record M)) :
    List.Forall₂ (F.Alike p) xs xs :=
  List.forall₂_same.mpr fun x _ => Alike.refl F p x

theorem forall₂_alike_symm (h : List.Forall₂ (F.Alike p) xs ys) :
    List.Forall₂ (F.Alike p) ys xs :=
  h.flip.imp fun _ _ hxy => hxy.symm

theorem forall₂_trans {R : Record M → Record M → Prop}
    (htrans : ∀ {x y z : Record M}, R x y → R y z → R x z) (h : List.Forall₂ R xs ys)
    (h' : List.Forall₂ R ys zs) : List.Forall₂ R xs zs := by
  induction h generalizing zs with
  | nil => exact h'
  | cons hx _ ih =>
    cases h' with
    | cons hy h' => exact .cons (htrans hx hy) (ih h')

theorem forall₂_alike_trans (h : List.Forall₂ (F.Alike p) xs ys)
    (h' : List.Forall₂ (F.Alike p) ys zs) : List.Forall₂ (F.Alike p) xs zs :=
  forall₂_trans Alike.trans h h'

theorem Conforms.length_eq (hx : F.Conforms x) :
    x.slots.length = (F.model x.model).fields.length := by
  cases hx with
  | intro length_eq _ _ _ => exact length_eq

theorem Alike.eq (h : F.Alike p x y) (h' : F.Alike q x y) (hall : ∀ d, p d ∨ q d)
    (hx : F.Conforms x) (hy : F.Conforms y) : x = y := by
  have hlength : x.slots.length = y.slots.length := by
    rw [hx.length_eq, hy.length_eq, h.model_eq]
  have hslots : x.slots = y.slots := by
    refine List.ext_getElem? fun i => ?_
    cases hd : (F.model x.model).fields[i]? with
    | some d =>
      rcases hall d with hp | hq
      · exact h.slot_eq i d hd hp
      · exact h'.slot_eq i d hd hq
    | none =>
      have hle := List.getElem?_eq_none_iff.mp hd
      rw [← hx.length_eq] at hle
      rw [List.getElem?_eq_none hle, List.getElem?_eq_none (hlength ▸ hle)]
  cases x with
  | mk m slots =>
    cases y with
    | mk n others =>
      have hm : m = n := h.model_eq
      have hs : slots = others := hslots
      rw [hm, hs]

theorem eq_of_alike {m : M} (h : List.Forall₂ (F.Alike p) xs ys)
    (h' : List.Forall₂ (F.Alike q) xs ys) (hall : ∀ d, p d ∨ q d) (hxs : F.AllConform m xs)
    (hys : F.AllConform m ys) : xs = ys := by
  induction h with
  | nil => rfl
  | @cons x y xs ys hx _ ih =>
    cases h' with
    | cons hx' h' =>
      have hrest := ih h' (fun z hz => hxs z (List.mem_cons_of_mem x hz))
        fun z hz => hys z (List.mem_cons_of_mem y hz)
      rw [hrest, hx.eq hx' hall (hxs x List.mem_cons_self).2 (hys y List.mem_cons_self).2]

theorem AllConform.forall₂_map {m : M} {R R' : Record M → Record M → Prop}
    {f g : Record M → Record M} (hxs : F.AllConform m xs) (hys : F.AllConform m ys)
    (h : List.Forall₂ R xs ys)
    (hchange : ∀ x y, x.model = m → F.Conforms x → y.model = m → F.Conforms y → R x y →
      R' (f x) (g y)) : List.Forall₂ R' (xs.map f) (ys.map g) := by
  induction h with
  | nil => exact .nil
  | @cons x y xs ys hxy _ ih =>
    obtain ⟨hx, hxc⟩ := hxs x List.mem_cons_self
    obtain ⟨hy, hyc⟩ := hys y List.mem_cons_self
    exact .cons (hchange x y hx hxc hy hyc hxy)
      (ih (fun z hz => hxs z (List.mem_cons_of_mem x hz))
        fun z hz => hys z (List.mem_cons_of_mem y hz))

/-! ### Reading shared fields -/

theorem Alike.locate_eq (hF : F.DistinctNames) (h : F.Alike p x y)
    (hd : (F.model x.model).fields[i]? = some d) (hp : p d) :
    F.locate x d.name = F.locate y d.name := by
  have hposition := position?_of_declared hF hd
  simp only [locate, ← h.model_eq, hposition, h.slot_eq i d hd hp]

theorem Alike.getField_eq (hF : F.DistinctNames) (h : F.Alike p x y)
    (hd : (F.model x.model).fields[i]? = some d) (hp : p d) :
    F.getField x d.name = F.getField y d.name := by
  simp only [getField, h.locate_eq hF hd hp]

theorem Alike.children_eq (hF : F.DistinctNames) (h : F.Alike p x y)
    (hd : (F.model x.model).fields[i]? = some d) (hp : p d) :
    F.children d.name x = F.children d.name y := by
  simp only [children, h.locate_eq hF hd hp, h.model_eq]

theorem follow_eq_of_alike (hF : F.DistinctNames) {m : M} (hd : (F.model m).fields[i]? = some d)
    (hp : p d) (h : List.Forall₂ (F.Alike p) xs ys) (hm : ∀ x ∈ xs, x.model = m) :
    F.follow d.name xs = F.follow d.name ys := by
  induction h with
  | nil => rfl
  | @cons x y xs ys hx _ ih =>
    have hmodel : x.model = m := hm x List.mem_cons_self
    have hrest := ih fun z hz => hm z (List.mem_cons_of_mem x hz)
    simp only [follow, hx.children_eq hF (hmodel.symm ▸ hd) hp, hrest]

/-! ### Changing one slot -/

theorem alike_setSlot_self (F : Family M) (x : Record M) {e : FieldDecl M}
    (he : (F.model x.model).fields[i]? = some e) (hp : ¬ p e) (s : Slot M (Record M)) :
    F.Alike p x (x.setSlot i s) := by
  refine ⟨rfl, fun j d hd hpd => ?_⟩
  have hne : i ≠ j := by
    rintro rfl
    cases he.symm.trans hd
    exact hp hpd
  rw [Record.slots_setSlot, List.getElem?_set_ne hne]

theorem Alike.setSlot (h : F.Alike p x y) (hx : F.Conforms x) (hy : F.Conforms y)
    {e : FieldDecl M} (he : (F.model x.model).fields[i]? = some e) (s : Slot M (Record M))
    (hqp : ∀ j d, (F.model x.model).fields[j]? = some d → q d → p d ∨ j = i) :
    F.Alike q (x.setSlot i s) (y.setSlot i s) := by
  refine ⟨h.model_eq, fun j d hd hq => ?_⟩
  have hlt : i < (F.model x.model).fields.length := (List.getElem?_eq_some_iff.mp he).1
  rw [Record.slots_setSlot, Record.slots_setSlot]
  by_cases hj : i = j
  · subst hj
    have hx' : i < x.slots.length := hx.length_eq ▸ hlt
    have hy' : i < y.slots.length := by
      rw [hy.length_eq, ← h.model_eq]
      exact hlt
    rw [List.getElem?_set_self hx', List.getElem?_set_self hy']
  · rw [List.getElem?_set_ne hj, List.getElem?_set_ne hj]
    rcases hqp j d hd hq with hp | rfl
    · exact h.slot_eq j d hd hp
    · exact absurd rfl hj

end Family

end RecordGraph
