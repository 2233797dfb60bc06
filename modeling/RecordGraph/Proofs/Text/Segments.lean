import RecordGraph.Text.Pieces

/-!
# Segments of paths

Names without dots can be joined to a path and are its segments again.
-/

namespace RecordGraph.Text

section

variable {α : Type} {sep : α → Bool}

theorem not_sep_of_mem_pieces {s p : List α} (hp : p ∈ pieces sep s) : ∀ a ∈ p, sep a = false := by
  induction s generalizing p with
  | nil =>
    have hp : p = [] := List.mem_singleton.mp hp
    rw [hp]
    exact fun a ha => nomatch ha
  | cons c s ih =>
    simp only [pieces] at hp
    split at hp
    · rcases List.mem_cons.mp hp with rfl | hp
      · exact fun a ha => nomatch ha
      · exact ih hp
    · rename_i hc
      split at hp
      · rename_i hnil
        exact absurd hnil (pieces_ne_nil sep s)
      · rename_i q qs hqs
        rw [hqs] at ih
        rcases List.mem_cons.mp hp with rfl | hp
        · intro a ha
          rcases List.mem_cons.mp ha with rfl | ha
          · simpa using hc
          · exact ih List.mem_cons_self a ha
        · exact ih (List.mem_cons_of_mem q hp)

theorem pieces_of_not_sep {p : List α} (h : ∀ a ∈ p, sep a = false) : pieces sep p = [p] := by
  induction p with
  | nil => rfl
  | cons a p ih =>
    have ha : sep a = false := h a List.mem_cons_self
    have hp := ih fun x hx => h x (List.mem_cons_of_mem a hx)
    simp [pieces, ha, hp]

theorem pieces_append_sep (s t : List α) {c : α} (hc : sep c = true) :
    pieces sep (s ++ c :: t) = pieces sep s ++ pieces sep t := by
  induction s with
  | nil => simp [pieces, hc]
  | cons a s ih =>
    simp only [List.cons_append, pieces, ih]
    split
    · rfl
    · cases hs : pieces sep s with
      | nil => exact absurd hs (pieces_ne_nil sep s)
      | cons p ps => rfl

theorem pieces_append {p rest : List α} {c : α} (h : ∀ a ∈ p, sep a = false) (hc : sep c = true) :
    pieces sep (p ++ c :: rest) = p :: pieces sep rest := by
  rw [pieces_append_sep p rest hc, pieces_of_not_sep h, List.singleton_append]

theorem cut_eq_none_iff {s : List α} : cut sep s = none ↔ ∀ a ∈ s, sep a = false := by
  induction s with
  | nil => simp [cut]
  | cons c s ih =>
    by_cases hc : sep c = true
    · simp [cut, hc]
    · simp [cut, hc, ih]

theorem cut_eq_some_iff {s before after : List α} : cut sep s = some (before, after) ↔
    ∃ a, sep a = true ∧ (∀ b ∈ before, sep b = false) ∧ s = before ++ a :: after := by
  induction s generalizing before with
  | nil => simp [cut]
  | cons c s ih =>
    by_cases hc : sep c = true
    · simp only [cut, hc, if_true, Option.some.injEq, Prod.mk.injEq]
      constructor
      · rintro ⟨rfl, rfl⟩
        exact ⟨c, hc, fun b hb => absurd hb List.not_mem_nil, rfl⟩
      · rintro ⟨a, ha, hclear, hs⟩
        cases before with
        | nil =>
          cases hs
          exact ⟨rfl, rfl⟩
        | cons b before =>
          cases hs
          cases hc.symm.trans (hclear c List.mem_cons_self)
    · simp only [cut, hc, if_false, Option.map_eq_some_iff, Prod.exists, Bool.false_eq_true]
      constructor
      · rintro ⟨b, t, hcut, he⟩
        cases he
        obtain ⟨a, ha, hclear, rfl⟩ := ih.mp hcut
        refine ⟨a, ha, fun x hx => ?_, rfl⟩
        rcases List.mem_cons.mp hx with rfl | hx
        · simpa using hc
        · exact hclear x hx
      · rintro ⟨a, ha, hclear, hs⟩
        cases before with
        | nil =>
          cases hs
          exact absurd ha hc
        | cons b before =>
          cases hs
          have hbefore : ∀ x ∈ before, sep x = false :=
            fun x hx => hclear x (List.mem_cons_of_mem c hx)
          exact ⟨before, after, ih.mpr ⟨a, ha, hbefore, rfl⟩, rfl⟩

end

/-- A name without a dot. -/
def Undotted (name : String) : Prop := ∀ c ∈ name.toList, (c == '.') = false

theorem undotted_iff {name : String} : Undotted name ↔ '.' ∉ name.toList := by
  simp only [Undotted, beq_eq_false_iff_ne, ne_eq]
  exact ⟨fun h hdot => h '.' hdot rfl, fun h c hc he => h (he ▸ hc)⟩

instance (name : String) : Decidable (Undotted name) :=
  decidable_of_iff ('.' ∉ name.toList) undotted_iff.symm

theorem toList_append_dot (p q : String) : (p ++ "." ++ q).toList = p.toList ++ '.' :: q.toList := by
  simp

theorem not_undotted_append (p q : String) : ¬ Undotted (p ++ "." ++ q) := by
  rw [undotted_iff, toList_append_dot]
  exact fun h => h (List.mem_append_right _ List.mem_cons_self)

theorem cut_append_dot {p : String} (h : Undotted p) (q : String) :
    cut (· == '.') (p ++ "." ++ q).toList = some (p.toList, q.toList) :=
  cut_eq_some_iff.mpr ⟨'.', rfl, h, toList_append_dot p q⟩

theorem undotted_or_append (name : String) :
    Undotted name ∨ ∃ p q, Undotted p ∧ name = p ++ "." ++ q := by
  cases hcut : cut (· == '.') name.toList with
  | none => exact Or.inl (cut_eq_none_iff.mp hcut)
  | some parts =>
    obtain ⟨c, hc, hclear, hname⟩ := cut_eq_some_iff.mp hcut
    obtain rfl := beq_iff_eq.mp hc
    refine Or.inr ⟨String.ofList parts.1, String.ofList parts.2, ?_, String.toList_injective ?_⟩
    · intro b hb
      rw [String.toList_ofList] at hb
      exact hclear b hb
    · rw [toList_append_dot, String.toList_ofList, String.toList_ofList, hname]

theorem append_dot_inj {p p' q q' : String} (h : Undotted p) (h' : Undotted p')
    (he : p ++ "." ++ q = p' ++ "." ++ q') : p = p' ∧ q = q' := by
  have hcut := cut_append_dot h q
  rw [he, cut_append_dot h' q', Option.some.injEq, Prod.mk.injEq] at hcut
  exact ⟨String.toList_injective hcut.1.symm, String.toList_injective hcut.2.symm⟩

theorem segments_ne_nil (path : String) : segments path ≠ [] := by
  intro h
  exact pieces_ne_nil _ _ (List.map_eq_nil_iff.mp h)

theorem segments_append (p q : String) : segments (p ++ "." ++ q) = segments p ++ segments q := by
  simp only [segments]
  rw [toList_append_dot, pieces_append_sep p.toList q.toList rfl, List.map_append]

theorem segments_of_undotted {name : String} (h : Undotted name) : segments name = [name] := by
  simp only [segments, pieces_of_not_sep h, List.map_cons, List.map_nil, String.ofList_toList]

theorem segments_eq_concat (path : String) :
    segments path = (segments path).dropLast ++ [bareName path] := by
  have hlast := List.dropLast_concat_getLast (segments_ne_nil path)
  have hname : bareName path = (segments path).getLast (segments_ne_nil path) := by
    simp only [bareName, List.getLast?_eq_some_getLast (segments_ne_nil path)]
  rw [hname, hlast]

theorem bareName_of_undotted {name : String} (h : Undotted name) : bareName name = name := by
  simp only [bareName, segments_of_undotted h, List.getLast?_singleton]

theorem bareName_append_dot (p q : String) : bareName (p ++ "." ++ q) = bareName q := by
  have hlast : (segments p ++ segments q).getLast? = (segments q).getLast? := by
    rw [segments_eq_concat q, List.getLast?_append, List.getLast?_concat, Option.some_or]
  simp only [bareName, segments_append, hlast]
  rw [segments_eq_concat q, List.getLast?_concat]

theorem undotted_of_mem_segments {path name : String} (h : name ∈ segments path) :
    Undotted name := by
  obtain ⟨p, hp, rfl⟩ := List.mem_map.mp h
  intro c hc
  rw [String.toList_ofList] at hc
  exact not_sep_of_mem_pieces hp c hc

theorem segments_joinDots {names : List String} (hne : names ≠ [])
    (h : ∀ name ∈ names, Undotted name) : segments (joinDots names) = names := by
  induction names with
  | nil => exact absurd rfl hne
  | cons name names ih =>
    have hname := h name List.mem_cons_self
    cases names with
    | nil => simp only [joinDots, String.intercalate_singleton, segments_of_undotted hname]
    | cons next names =>
      have hrest := ih (List.cons_ne_nil next names) fun x hx => h x (List.mem_cons_of_mem name hx)
      have htext : (joinDots (name :: next :: names)).toList =
          name.toList ++ '.' :: (joinDots (next :: names)).toList := by
        simp [joinDots]
      simp only [segments] at hrest ⊢
      rw [htext, pieces_append hname rfl, List.map_cons, hrest, String.ofList_toList]

theorem toList_joinDots_cons (name next : String) (names : List String) :
    (joinDots (name :: next :: names)).toList =
      name.toList ++ '.' :: (joinDots (next :: names)).toList := by
  simp [joinDots]

theorem toList_joinDots_pieces (s : List Char) :
    (joinDots ((pieces (· == '.') s).map String.ofList)).toList = s := by
  induction s with
  | nil => rfl
  | cons c s ih =>
    cases hp : pieces (· == '.') s with
    | nil => exact absurd hp (pieces_ne_nil _ s)
    | cons p ps =>
      rw [hp, List.map_cons] at ih
      by_cases hc : c = '.'
      · subst hc
        have hpieces : pieces (· == '.') ('.' :: s) = [] :: p :: ps := by simp [pieces, hp]
        rw [hpieces, List.map_cons, List.map_cons, toList_joinDots_cons, ih]
        rfl
      · have hpieces : pieces (· == '.') (c :: s) = (c :: p) :: ps := by simp [pieces, hp, hc]
        rw [hpieces, List.map_cons]
        cases ps with
        | nil =>
          simp only [List.map_nil, joinDots, String.intercalate_singleton,
            String.toList_ofList] at ih ⊢
          rw [ih]
        | cons q ps =>
          rw [List.map_cons, toList_joinDots_cons, String.toList_ofList] at ih ⊢
          rw [List.cons_append, ih]

theorem joinDots_segments (path : String) : joinDots (segments path) = path :=
  String.toList_injective (toList_joinDots_pieces path.toList)

theorem joinDots_injective {names more : List String} (hne : names ≠ []) (hne' : more ≠ [])
    (h : ∀ name ∈ names, Undotted name) (h' : ∀ name ∈ more, Undotted name)
    (he : joinDots names = joinDots more) : names = more := by
  rw [← segments_joinDots hne h, ← segments_joinDots hne' h', he]

theorem isEmpty_joinDots {names : List String} (h : ∀ name ∈ names, Undotted name)
    (hne : ∀ name ∈ names, name ≠ "") : (joinDots names).isEmpty = names.isEmpty := by
  cases names with
  | nil => rfl
  | cons name names =>
    have hfilled : joinDots (name :: names) ≠ "" := by
      intro he
      have hsegments := segments_joinDots (List.cons_ne_nil name names) h
      rw [he] at hsegments
      have hname : "" = name := (List.cons.inj hsegments).1
      exact hne name List.mem_cons_self hname.symm
    simpa using hfilled

end RecordGraph.Text
