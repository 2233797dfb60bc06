import RecordGraph.Proofs.Record.Likeness

/-!
# Records that differ at or below one path

Two records are equal beside a path if they hold the same in all fields but the first association of
the path, and if the records attached there are, one by one, equal beside the rest of it. What lies
at the end of the path or below it is not compared at all.
-/

namespace RecordGraph

variable {M : Type}

namespace Family

/-- The records are equal apart from what lies at or below the path. -/
def Beside (F : Family M) : List String → Record M → Record M → Prop
  | [], _, _ => True
  | name :: rest, x, y =>
    F.Alike (fun d => d.IsColumn ∨ d.name ≠ name) x y ∧
      (rest ≠ [] → Option.Rel (List.Forall₂ (Beside F rest)) (F.children name x).toOption
        (F.children name y).toOption)

variable {F : Family M} {path rest : List String} {name : String} {x y z : Record M}
  {xs ys zs : List (Record M)} {i : Nat} {d : FieldDecl M}

theorem Beside.columns (h : F.Beside path x y) (hne : path ≠ []) :
    F.Alike FieldDecl.IsColumn x y := by
  cases path with
  | nil => exact absurd rfl hne
  | cons name rest => exact h.1.mono fun d hd => Or.inl hd

theorem Beside.refl (F : Family M) (path : List String) (x : Record M) : F.Beside path x x := by
  induction path generalizing x with
  | nil => trivial
  | cons name rest ih =>
    refine ⟨Alike.refl F _ x, fun _ => ?_⟩
    cases (F.children name x).toOption with
    | none => exact .none
    | some rs => exact .some (List.forall₂_same.mpr fun c _ => ih c)

theorem Beside.symm (h : F.Beside path x y) : F.Beside path y x := by
  induction path generalizing x y with
  | nil => trivial
  | cons name rest ih =>
    obtain ⟨halike, hbelow⟩ := h
    refine ⟨halike.symm, fun hne => ?_⟩
    have hxy := hbelow hne
    generalize (F.children name x).toOption = as at hxy ⊢
    generalize (F.children name y).toOption = bs at hxy ⊢
    cases hxy with
    | none => exact .none
    | some hall => exact .some (hall.flip.imp fun _ _ hab => ih hab)

theorem Beside.trans (h : F.Beside path x y) (h' : F.Beside path y z) : F.Beside path x z := by
  induction path generalizing x y z with
  | nil => trivial
  | cons name rest ih =>
    obtain ⟨halike, hbelow⟩ := h
    obtain ⟨halike', hbelow'⟩ := h'
    refine ⟨halike.trans halike', fun hne => ?_⟩
    have hxy := hbelow hne
    have hyz := hbelow' hne
    generalize (F.children name x).toOption = as at hxy ⊢
    generalize (F.children name y).toOption = bs at hxy hyz
    generalize (F.children name z).toOption = cs at hyz ⊢
    cases hxy with
    | none => exact hyz
    | some hall =>
      cases hyz with
      | some hall' => exact .some (forall₂_trans (fun h h' => ih h h') hall hall')

/-! ### Changing one slot -/

theorem toOption_children {s : Slot M (Record M)} (h : F.locate x name = .ok (i, d, s)) :
    (F.children name x).toOption = s.records? := by
  simp only [children, h]
  cases s.records? <;> rfl

theorem Beside.setSlot_ne (h : F.Beside (name :: rest) x y) (hx : F.Conforms x) (hy : F.Conforms y)
    (hd : (F.model x.model).fields[i]? = some d) (hne : d.name ≠ name)
    (s : Slot M (Record M)) : F.Beside (name :: rest) (x.setSlot i s) (y.setSlot i s) := by
  obtain ⟨halike, hbelow⟩ := h
  have hd' : (F.model y.model).fields[i]? = some d := halike.model_eq ▸ hd
  refine ⟨halike.setSlot hx hy hd s fun j e _ he => Or.inl he, fun hrest => ?_⟩
  simp only [children, locate_setSlot_ne hd hne.symm, locate_setSlot_ne hd' hne.symm]
  exact hbelow hrest

theorem Beside.setSlot (h : F.Alike (fun d => d.IsColumn ∨ d.name ≠ name) x y)
    (hcolumn : ¬ d.IsColumn) {s s' t t' : Slot M (Record M)}
    (hx : F.locate x name = .ok (i, d, s)) (hy : F.locate y name = .ok (i, d, t))
    (hname : d.name = name)
    (hbelow : rest ≠ [] → Option.Rel (List.Forall₂ (F.Beside rest)) s'.records? t'.records?) :
    F.Beside (name :: rest) (x.setSlot i s') (y.setSlot i t') := by
  have hnot : ¬ (d.IsColumn ∨ d.name ≠ name) := by
    rintro (hd | hd)
    · exact hcolumn hd
    · exact hd hname
  have hself : F.Alike (fun d => d.IsColumn ∨ d.name ≠ name) x (x.setSlot i s') :=
    alike_setSlot_self F x (locate_cases hx).2.1 hnot s'
  have hother : F.Alike (fun d => d.IsColumn ∨ d.name ≠ name) y (y.setSlot i t') :=
    alike_setSlot_self F y (locate_cases hy).2.1 hnot t'
  refine ⟨(hself.symm.trans h).trans hother, fun hrest => ?_⟩
  rw [toOption_children (locate_setSlot hx), toOption_children (locate_setSlot hy)]
  exact hbelow hrest

theorem Beside.setSlot_self (hcolumn : ¬ d.IsColumn) {s s' : Slot M (Record M)}
    (hx : F.locate x name = .ok (i, d, s)) (hname : d.name = name)
    (hbelow : rest ≠ [] → Option.Rel (List.Forall₂ (F.Beside rest)) s.records? s'.records?) :
    F.Beside (name :: rest) x (x.setSlot i s') := by
  have hchanged : F.Beside (name :: rest) (x.setSlot i s) (x.setSlot i s') :=
    Beside.setSlot (Alike.refl F _ x) hcolumn hx hx hname hbelow
  rw [setSlot_eq_self (locate_cases hx).2.2] at hchanged
  exact hchanged

/-! ### Walks -/

theorem follow_beside (h : List.Forall₂ (F.Beside (name :: rest)) xs ys) (hrest : rest ≠ [])
    {as bs : List (Record M)} (has : F.follow name xs = .ok as) (hbs : F.follow name ys = .ok bs) :
    List.Forall₂ (F.Beside rest) as bs := by
  induction h generalizing as bs with
  | nil =>
    cases has
    cases hbs
    exact .nil
  | @cons x y xs ys hx _ ih =>
    obtain ⟨here, there, hhere, hthere, rfl⟩ := follow_cons.mp has
    obtain ⟨here', there', hhere', hthere', rfl⟩ := follow_cons.mp hbs
    have hchildren := hx.2 hrest
    rw [hhere, hhere'] at hchildren
    cases hchildren with
    | some hall => exact List.rel_append hall (ih hthere hthere')

end Family

end RecordGraph
