import RecordGraph.Proofs.Store.Rendering
import RecordGraph.Store.Query

/-!
# Reading placeholders back

The placeholders between the brackets of a lookup stand for its values, one after the other, be they
numbered or not.
-/

namespace RecordGraph.Store

variable {d : Dialect}

/-! ### Their text -/

theorem keysText_one (count : Nat) (v : Value) :
    keysText d count [v] = (d.placeholder (count + 1)).toList := by
  simp [keysText, Fragment.separated, Fragment.sql]

theorem keysText_cons (count : Nat) (v w : Value) (rest : List Value) :
    keysText d count (v :: w :: rest) =
      (d.placeholder (count + 1)).toList ++ ',' :: ' ' :: keysText d (count + 1) (w :: rest) := by
  simp [keysText, Fragment.separated, Fragment.sql]

theorem toList_toString (n : Nat) : (toString n).toList = Nat.toDigits 10 n := Nat.toList_repr

theorem isDigit_of_mem_toString {n : Nat} {c : Char} (h : c ∈ (toString n).toList) :
    c.isDigit = true := by
  rw [toList_toString] at h
  exact Nat.isDigit_of_mem_toDigits (by decide) (by decide) h

theorem digitsValue_toString (n : Nat) : Text.digitsValue (toString n).toList = n := by
  rw [toList_toString]
  exact Nat.ofDigitChars_ten_toDigits

theorem toList_toString_ne_nil (n : Nat) : (toString n).toList ≠ [] := by
  rw [toList_toString]
  exact Nat.toDigits_ne_nil

theorem mem_placeholder {n : Nat} {c : Char} (h : c ∈ (d.placeholder n).toList) :
    c.isDigit = true ∨ c = '$' ∨ c = '?' := by
  cases d with
  | postgres =>
    rw [Dialect.placeholder, String.toList_append] at h
    rcases List.mem_append.mp h with h | h
    · exact Or.inr (Or.inl (List.mem_singleton.mp h))
    · exact Or.inl (isDigit_of_mem_toString h)
  | mysql =>
    rw [Dialect.placeholder] at h
    · exact Or.inr (Or.inr (List.mem_singleton.mp h))
    · exact Dialect.noConfusion
  | sqlite =>
    rw [Dialect.placeholder] at h
    · exact Or.inr (Or.inr (List.mem_singleton.mp h))
    · exact Dialect.noConfusion

theorem mem_keysText {count : Nat} {values : List Value} {c : Char}
    (h : c ∈ keysText d count values) :
    c.isDigit = true ∨ c ∈ ['$', '?', ',', ' '] := by
  have hone : ∀ n, c ∈ (d.placeholder n).toList → c.isDigit = true ∨ c ∈ ['$', '?', ',', ' '] := by
    intro n hc
    rcases mem_placeholder hc with hc | rfl | rfl
    · exact Or.inl hc
    · exact Or.inr (by decide)
    · exact Or.inr (by decide)
  induction values generalizing count with
  | nil => cases h
  | cons v values ih =>
    cases values with
    | nil =>
      rw [keysText_one] at h
      exact hone _ h
    | cons w values =>
      rw [keysText_cons] at h
      rcases List.mem_append.mp h with h | h
      · exact hone _ h
      · rcases List.mem_cons.mp h with rfl | h
        · exact Or.inr (by decide)
        · rcases List.mem_cons.mp h with rfl | h
          · exact Or.inr (by decide)
          · exact ih h

/-! ### Their meaning -/

def placeholderOf : Dialect → Nat → Query.Placeholder
  | .postgres, n => .numbered (some n)
  | _, _ => .next

theorem place?_placeholderOf (n : Nat) : (placeholderOf d (n + 1)).place? 0 n = some n := by
  cases d <;> simp [placeholderOf, Query.Placeholder.place?]

theorem isDecimalDigit_of_isDigit {c : Char} (h : c.isDigit = true) :
    Text.isDecimalDigit c = true := by
  have hword : (c.isAlphanum || c == '_') = true := by simp [Char.isAlphanum, h]
  rw [Text.isDecimalDigit_of_ascii (toNat_lt_of_isWord hword)]
  exact h

theorem placeholders_digits {s : List Char} (h : ∀ c ∈ s, c.isDigit = true) (t : List Char) :
    Query.placeholders (s ++ t) = Query.placeholders t := by
  induction s with
  | nil => rfl
  | cons c s ih =>
    have hc := h c List.mem_cons_self
    have hhole : c ≠ '?' := by
      rintro rfl
      exact absurd hc (by decide)
    have hdollar : c ≠ '$' := by
      rintro rfl
      exact absurd hc (by decide)
    rw [List.cons_append, Query.placeholders]
    simp only [hhole, hdollar, if_false, false_and]
    exact ih fun x hx => h x (List.mem_cons_of_mem c hx)

theorem placeholders_placeholder (n : Nat) {t : List Char}
    (ht : t.takeWhile Text.isDecimalDigit = []) :
    Query.placeholders ((d.placeholder n).toList ++ t) =
      placeholderOf d n :: Query.placeholders t := by
  cases d with
  | postgres =>
    have hdigits : ∀ c ∈ (toString n).toList, c.isDigit = true :=
      fun c hc => isDigit_of_mem_toString hc
    have htake :
        ((toString n).toList ++ t).takeWhile Text.isDecimalDigit = (toString n).toList := by
      rw [List.takeWhile_append_of_pos fun c hc => isDecimalDigit_of_isDigit (hdigits c hc), ht,
        List.append_nil]
    have hnumber : Query.number? (toString n).toList = some n := by
      have hall : (toString n).toList.all Char.isDigit = true := List.all_eq_true.mpr hdigits
      simp only [Query.number?, hall, if_true, digitsValue_toString]
    have htext :
        (Dialect.postgres.placeholder n).toList ++ t = '$' :: ((toString n).toList ++ t) := by
      simp [Dialect.placeholder]
    rw [htext, Query.placeholders, htake, hnumber, placeholders_digits hdigits]
    have hne : ('$' : Char) ≠ '?' := by decide
    simp only [hne, if_false, toList_toString_ne_nil, ne_eq, not_false_eq_true, and_self, if_true,
      placeholderOf]
  | mysql =>
    have htext : (Dialect.mysql.placeholder n).toList ++ t = '?' :: t := by
      simp [Dialect.placeholder]
    rw [htext, Query.placeholders, if_pos rfl]
    rfl
  | sqlite =>
    have htext : (Dialect.sqlite.placeholder n).toList ++ t = '?' :: t := by
      simp [Dialect.placeholder]
    rw [htext, Query.placeholders, if_pos rfl]
    rfl

theorem placeholders_keysText (count : Nat) (v : Value) (rest : List Value) :
    Query.placeholders (keysText d count (v :: rest)) =
      placeholderOf d (count + 1) :: Query.placeholders (keysText d (count + 1) rest) := by
  cases rest with
  | nil =>
    have hone := placeholders_placeholder (d := d) (count + 1) (t := []) rfl
    rw [List.append_nil] at hone
    rw [keysText_one, hone]
    rfl
  | cons w rest =>
    have hcomma : ∀ t, Query.placeholders (',' :: ' ' :: t) = Query.placeholders t := by
      intro t
      simp [Query.placeholders]
    have hdigit : ∀ t, (',' :: ' ' :: t).takeWhile Text.isDecimalDigit = [] := by
      intro t
      rw [List.takeWhile_cons_of_neg (by decide)]
    rw [keysText_cons, placeholders_placeholder _ (hdigit _), hcomma]

theorem keys_keysText_from (pre values : List Value) :
    ((Query.placeholders (keysText d pre.length values)).zipIdx pre.length).filterMap (fun p => do
      let i ← p.1.place? 0 p.2
      let v ← (pre ++ values)[i]?
      Key.ofValue? v) = values.filterMap Key.ofValue? := by
  induction values generalizing pre with
  | nil => rfl
  | cons v values ih =>
    have hrest := ih (pre ++ [v])
    rw [List.length_append, List.length_singleton, List.append_assoc,
      List.singleton_append] at hrest
    have hvalue : (pre ++ v :: values)[pre.length]? = some v := by simp
    rw [placeholders_keysText, List.zipIdx_cons, List.filterMap_cons, List.filterMap_cons, hrest]
    simp only [place?_placeholderOf, hvalue, Option.bind_eq_bind, Option.bind_some]

/-- The keys of a list of placeholders are those of the values bound to it. -/
theorem keys_keysText (values : List Value) :
    Query.keys 0 values (keysText d 0 values) = values.filterMap Key.ofValue? :=
  keys_keysText_from [] values

end RecordGraph.Store
