import RecordGraph.Store.Phrase

/-!
# Where phrases are found

A text is searched piece by piece: a piece is skipped if the phrase can be read at none of its
places. Words before a blank are never found inside a quoted name, and a phrase that begins with a
column is found only at the first mark of one.
-/

namespace RecordGraph.Store

/-! ### Words -/

/-- At least one letter, digit or underscore of ASCII, and nothing else. -/
def IsWord (s : String) : Prop :=
  s ≠ "" ∧ ∀ c ∈ s.toList, (c.isAlphanum || c == '_') = true

instance : DecidablePred IsWord := fun s =>
  decidable_of_iff ((s != "" && s.toList.all fun c => c.isAlphanum || c == '_') = true) (by
    simp only [IsWord, Bool.and_eq_true, bne_iff_ne, List.all_eq_true])

theorem toNat_lt_of_isWord {c : Char} (h : (c.isAlphanum || c == '_') = true) :
    c.toNat < 128 := by
  have hword : ∀ bound : UInt32, bound.toNat < 128 → c.val ≤ bound → c.toNat < 128 :=
    fun bound hbound hle => Nat.lt_of_le_of_lt (UInt32.le_iff_toNat_le.mp hle) hbound
  rcases Bool.or_eq_true_iff.mp h with h | h
  · rcases Bool.or_eq_true_iff.mp h with h | h
    · rcases Bool.or_eq_true_iff.mp h with h | h
      · exact hword 'Z'.val (by decide) (of_decide_eq_true h).2
      · exact hword 'z'.val (by decide) (of_decide_eq_true (Bool.and_eq_true_iff.mp h).2)
    · exact hword '9'.val (by decide) (of_decide_eq_true (Bool.and_eq_true_iff.mp h).2)
  · rw [eq_of_beq h]
    decide

theorem IsWord.isWordChar {s : String} (h : IsWord s) :
    ∀ c ∈ s.toList, Text.isWordChar c = true := by
  intro c hc
  rw [Text.isWordChar_of_ascii (toNat_lt_of_isWord (h.2 c hc))]
  exact h.2 c hc

theorem isWordChar_quote (d : Dialect) : Text.isWordChar d.quote = false := by
  cases d <;> decide

theorem isMark_quote (d : Dialect) : Phrase.isMark d.quote = true := by
  cases d <;> decide

theorem isMark_eq_false {c : Char} (h : Text.isWordChar c = true) : Phrase.isMark c = false := by
  cases hc : Phrase.isMark c with
  | false => rfl
  | true =>
    obtain ⟨d, -, hd⟩ := List.any_eq_true.mp hc
    have hd : d.quote = c := by simpa using hd
    rw [← hd, isWordChar_quote] at h
    cases h

theorem flatMap_eq_self {f : Char → List Char} {s : List Char} (h : ∀ c ∈ s, f c = [c]) :
    s.flatMap f = s := by
  induction s with
  | nil => rfl
  | cons c s ih =>
    rw [List.flatMap_cons, h c List.mem_cons_self,
      ih fun x hx => h x (List.mem_cons_of_mem c hx), List.singleton_append]

theorem toList_quoted (d : Dialect) {s : String} (h : IsWord s) :
    (d.quoted s).toList = d.quote :: (s.toList ++ [d.quote]) := by
  have hsame : (s.toList.flatMap fun c => if c = d.quote then [c, c] else [c]) = s.toList := by
    refine flatMap_eq_self fun c hc => ?_
    have hne : c ≠ d.quote := by
      rintro rfl
      have hw := h.isWordChar _ hc
      rw [isWordChar_quote] at hw
      cases hw
    rw [if_neg hne]
  rw [Dialect.quoted, String.toList_ofList, List.cons_append, hsame]

theorem toList_column (d : Dialect) (c : ColumnName) :
    (d.column c).toList = (d.quoted c.table).toList ++ '.' :: (d.quoted c.column).toList := by
  simp [Dialect.column]

namespace Phrase

variable {α β : Type} {p : Phrase α}

/-! ### Reading names -/

theorem bind_eq_none {f : α → Phrase β} {s : List Char} (h : p s = none) : (p >>= f) s = none := by
  simp [bind, StateT.bind, h]

theorem bind_eq {f : α → Phrase β} {s rest : List Char} {a : α} (h : p s = some (a, rest)) :
    (p >>= f) s = f a rest := by
  simp [bind, StateT.bind, h]

theorem words_append (w : String) (rest : List Char) :
    words w (w.toList ++ rest) = some ((), rest) := by
  have hprefix : w.toList.isPrefixOf (w.toList ++ rest) = true :=
    List.isPrefixOf_iff_prefix.mpr (List.prefix_append w.toList rest)
  simp [words, hprefix]

theorem name_quoted (d : Dialect) {s : String} (h : IsWord s) (rest : List Char) :
    name ((d.quoted s).toList ++ rest) = some (s, rest) := by
  have hchars := h.isWordChar
  have hmark := isWordChar_quote d
  have hdrop : (s.toList ++ d.quote :: rest).dropWhile Text.isWordChar = d.quote :: rest := by
    rw [List.dropWhile_append_of_pos hchars, List.dropWhile_cons_of_neg (by simp [hmark])]
  have htake : (s.toList ++ d.quote :: rest).takeWhile Text.isWordChar = s.toList := by
    rw [List.takeWhile_append_of_pos hchars, List.takeWhile_cons_of_neg (by simp [hmark]),
      List.append_nil]
  have hne : s.toList.isEmpty = false := by simp [h.1]
  rw [toList_quoted d h, List.cons_append, List.append_assoc, List.singleton_append]
  simp only [name, hdrop, htake, hne, isMark_quote, Bool.not_false, Bool.and_self, if_true,
    String.ofList_toList]

theorem name_eq_none {c : Char} (h : isMark c = false) (rest : List Char) :
    name (c :: rest) = none := by
  simp only [name]
  split
  · rfl
  · simp [h]

theorem name_eq_none_of_not_word {c x : Char} (h : Text.isWordChar x = false) (rest : List Char) :
    name (c :: x :: rest) = none := by
  simp [name, h]

theorem column_column (d : Dialect) {c : ColumnName} (ht : IsWord c.table) (hc : IsWord c.column)
    (rest : List Char) : column ((d.column c).toList ++ rest) = some (c, rest) := by
  rw [toList_column, List.append_assoc, column, bind_eq (name_quoted d ht _)]
  have hdot : ('.' :: (d.quoted c.column).toList ++ rest : List Char) =
      ".".toList ++ ((d.quoted c.column).toList ++ rest) := rfl
  rw [hdot, bind_eq (words_append "." _), bind_eq (name_quoted d hc rest)]
  rfl

/-! ### Skipping -/

/-- The phrase can be read at no place of the first text, which is followed by the second one. -/
def Skips (p : Phrase α) : List Char → List Char → Prop
  | [], _ => True
  | c :: s, t => p (c :: (s ++ t)) = none ∧ Skips p s t

@[simp] theorem skips_nil (t : List Char) : p.Skips [] t := trivial

theorem skips_cons {c : Char} {s t : List Char} :
    p.Skips (c :: s) t ↔ p (c :: (s ++ t)) = none ∧ p.Skips s t := Iff.rfl

-- The texts are long literals, which must not be unfolded on the way to their characters.
attribute [irreducible] Skips

theorem find?_skip {s t : List Char} (h : p.Skips s t) :
    p.find? (s ++ t) = (p.find? t).map fun r => (s ++ r.1, r.2) := by
  induction s with
  | nil => simp
  | cons c s ih =>
    obtain ⟨hc, hs⟩ := skips_cons.mp h
    rw [List.cons_append, find?, hc, ih hs, Option.map_map]
    rfl

theorem find?_here {s rest : List Char} {a : α} (h : p s = some (a, rest)) :
    p.find? s = some ([], a, rest) := by
  cases s with
  | nil => simp [find?, h]
  | cons c s => simp [find?, h]

theorem skips_append {s s' t : List Char} :
    p.Skips (s ++ s') t ↔ p.Skips s (s' ++ t) ∧ p.Skips s' t := by
  induction s with
  | nil => simp
  | cons c s ih => simp only [List.cons_append, skips_cons, ih, List.append_assoc, and_assoc]

theorem skips_of_forall {s t : List Char} (h : ∀ c ∈ s, ∀ rest, p (c :: rest) = none) :
    p.Skips s t := by
  induction s with
  | nil => exact skips_nil t
  | cons c s ih =>
    have hs := ih fun x hx => h x (List.mem_cons_of_mem c hx)
    exact skips_cons.mpr ⟨h c List.mem_cons_self _, hs⟩

/-! ### Phrases that begin with words -/

/-- The phrase is read only where the text begins with the words. -/
def Opens (p : Phrase α) (w : List Char) : Prop := ∀ s, w.isPrefixOf s = false → p s = none

theorem opens_words (w : String) (f : Unit → Phrase β) : (words w >>= f).Opens w.toList := by
  intro s h
  refine bind_eq_none ?_
  simp [words, h]

/-- Whether two texts differ in some place that both have. -/
def differ (w s : List Char) : Bool := (w.zip s).any fun c => c.1 != c.2

theorem isPrefixOf_eq_false {w s : List Char} (h : differ w s = true) (t : List Char) :
    w.isPrefixOf (s ++ t) = false := by
  induction w generalizing s with
  | nil => simp [differ] at h
  | cons a w ih =>
    cases s with
    | nil => simp [differ] at h
    | cons c s =>
      by_cases hac : a = c
      · have htail : differ w s = true := by simpa [differ, hac] using h
        simp [List.isPrefixOf, ih htail]
      · simp [List.isPrefixOf, hac]

/-- Whether the words differ from the text at all of its places, given how the text goes on. -/
def clear (w : List Char) : List Char → List Char → Bool
  | [], _ => true
  | c :: s, next => differ w (c :: (s ++ next)) && clear w s next

theorem skips_of_clear {w : List Char} (hp : p.Opens w) {s next : List Char}
    (h : clear w s next = true) (t : List Char) : p.Skips s (next ++ t) := by
  induction s with
  | nil => exact skips_nil _
  | cons c s ih =>
    simp only [clear, Bool.and_eq_true] at h
    refine skips_cons.mpr ⟨hp _ ?_, ih h.2⟩
    rw [← List.append_assoc, ← List.cons_append]
    exact isPrefixOf_eq_false h.1 t

theorem isPrefixOf_run {d : Dialect} {u : List Char} (hu : ∀ c ∈ u, Text.isWordChar c = true)
    (v : List Char) {s : List Char} (hs : ∀ c ∈ s, Text.isWordChar c = true) (t : List Char) :
    (u ++ ' ' :: v).isPrefixOf (s ++ d.quote :: t) = false := by
  induction s generalizing u with
  | nil =>
    cases u with
    | nil =>
      have hne : (' ' == d.quote) = false := by cases d <;> rfl
      simp [List.isPrefixOf, hne]
    | cons a u =>
      have hne : (a == d.quote) = false := by
        have ha := hu a List.mem_cons_self
        rw [beq_eq_false_iff_ne]
        rintro rfl
        rw [isWordChar_quote] at ha
        cases ha
      simp [List.isPrefixOf, hne]
  | cons c s ih =>
    cases u with
    | nil =>
      have hne : (' ' == c) = false := by
        have hc := hs c List.mem_cons_self
        rw [beq_eq_false_iff_ne]
        rintro rfl
        exact absurd hc (by decide)
      simp [List.isPrefixOf, hne]
    | cons a u =>
      have hrest := ih (fun x hx => hu x (List.mem_cons_of_mem a hx))
        fun x hx => hs x (List.mem_cons_of_mem c hx)
      simp [List.isPrefixOf, hrest]

theorem skips_run {d : Dialect} {u v : List Char} (hu : ∀ c ∈ u, Text.isWordChar c = true)
    (hp : p.Opens (u ++ ' ' :: v)) {s : List Char} (hs : ∀ c ∈ s, Text.isWordChar c = true)
    (t : List Char) : p.Skips s (d.quote :: t) := by
  induction s with
  | nil => exact skips_nil _
  | cons c s ih =>
    have hrest := ih fun x hx => hs x (List.mem_cons_of_mem c hx)
    exact skips_cons.mpr ⟨hp _ (isPrefixOf_run hu v hs t), hrest⟩

theorem skips_quoted {d : Dialect} {u v : List Char} (hu : ∀ c ∈ u, Text.isWordChar c = true)
    (hp : p.Opens (u ++ ' ' :: v)) {s : String} (hs : IsWord s) (t : List Char) :
    p.Skips (d.quoted s).toList t := by
  have hmark : ∀ rest, p (d.quote :: rest) = none := fun rest =>
    hp _ (isPrefixOf_run (s := []) hu v (fun c hc => nomatch hc) rest)
  have hclose : p.Skips [d.quote] t := skips_cons.mpr ⟨hmark t, skips_nil t⟩
  rw [toList_quoted d hs]
  exact skips_cons.mpr ⟨hmark _, skips_append.mpr ⟨skips_run hu hp hs.isWordChar t, hclose⟩⟩

theorem skips_column {d : Dialect} {u v : List Char} (hu : ∀ c ∈ u, Text.isWordChar c = true)
    (hp : p.Opens (u ++ ' ' :: v)) {c : ColumnName} (ht : IsWord c.table) (hc : IsWord c.column)
    (t : List Char) : p.Skips (d.column c).toList t := by
  have hdot : ∀ rest, p ('.' :: rest) = none := by
    refine fun rest => hp _ ?_
    cases u with
    | nil => rfl
    | cons a u =>
      have hne : (a == '.') = false := by
        have ha := hu a List.mem_cons_self
        rw [beq_eq_false_iff_ne]
        rintro rfl
        exact absurd ha (by decide)
      simp [List.isPrefixOf, hne]
  rw [toList_column]
  exact skips_append.mpr ⟨skips_quoted hu hp ht _,
    skips_cons.mpr ⟨hdot _, skips_quoted hu hp hc t⟩⟩

/-! ### Phrases that begin with a column -/

theorem column_eq_none {c : Char} (h : isMark c = false) (rest : List Char) :
    column (c :: rest) = none := bind_eq_none (name_eq_none h rest)

theorem column_eq_none_of_not_word {c x : Char} (h : Text.isWordChar x = false)
    (rest : List Char) : column (c :: x :: rest) = none :=
  bind_eq_none (name_eq_none_of_not_word h rest)

theorem column_quoted (d : Dialect) {s : String} (h : IsWord s) {x : Char} (hx : x ≠ '.')
    (rest : List Char) : column ((d.quoted s).toList ++ x :: rest) = none := by
  rw [column, bind_eq (name_quoted d h _)]
  refine bind_eq_none ?_
  have hne : ('.' == x) = false := by
    rw [beq_eq_false_iff_ne]
    exact fun he => hx he.symm
  simp [words, List.isPrefixOf, hne]

variable {f : ColumnName → Phrase β}

theorem column_skips_text {s : List Char} (h : ∀ c ∈ s, isMark c = false) (t : List Char) :
    (column >>= f).Skips s t :=
  skips_of_forall fun c hc rest => bind_eq_none (column_eq_none (h c hc) rest)

theorem column_skips_quoted {d : Dialect} {s : String} (hs : IsWord s) {x : Char} (hx : x ≠ '.')
    (hword : Text.isWordChar x = false) (t : List Char) :
    (column >>= f).Skips (d.quoted s).toList (x :: t) := by
  have hhere := bind_eq_none (f := f) (column_quoted d hs hx t)
  have hinside := column_skips_text (f := f) (fun c hc => isMark_eq_false (hs.isWordChar c hc))
    (d.quote :: x :: t)
  have hclose : (column >>= f).Skips [d.quote] (x :: t) :=
    skips_cons.mpr ⟨bind_eq_none (column_eq_none_of_not_word hword t), skips_nil _⟩
  rw [toList_quoted d hs] at hhere ⊢
  exact skips_cons.mpr ⟨hhere, skips_append.mpr ⟨hinside, hclose⟩⟩

theorem column_skips_column {d : Dialect} {c : ColumnName} (ht : IsWord c.table)
    (hc : IsWord c.column) {x : Char} (hx : x ≠ '.') (hword : Text.isWordChar x = false)
    {t : List Char} (hf : f c (x :: t) = none) :
    (column >>= f).Skips (d.column c).toList (x :: t) := by
  have hhere : (column >>= f) ((d.column c).toList ++ x :: t) = none :=
    (bind_eq (column_column d ht hc (x :: t))).trans hf
  have hinside := column_skips_text (f := f) (fun a ha => isMark_eq_false (ht.isWordChar a ha))
    (d.quote :: '.' :: ((d.quoted c.column).toList ++ x :: t))
  have hdot : (column >>= f) ('.' :: ((d.quoted c.column).toList ++ x :: t)) = none :=
    bind_eq_none (column_eq_none (by decide) _)
  rw [toList_column, toList_quoted d ht, List.cons_append, List.append_assoc,
    List.singleton_append] at hhere ⊢
  have hclose : (column >>= f) (d.quote :: '.' :: ((d.quoted c.column).toList ++ x :: t)) = none :=
    bind_eq_none (column_eq_none_of_not_word (by decide) _)
  refine skips_cons.mpr ⟨by simpa using hhere, skips_append.mpr ⟨by simpa using hinside, ?_⟩⟩
  exact skips_cons.mpr ⟨hclose, skips_cons.mpr ⟨hdot, column_skips_quoted hc hx hword t⟩⟩

end Phrase

end RecordGraph.Store
