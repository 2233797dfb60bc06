import RecordGraph.Proofs.Store.Reading
import RecordGraph.Proofs.Text.Segments

/-!
# Reading the conditions back

Joins and orders begin with words, the condition that a column is null with the column. None of them
is found in the list of keys, so each is read where the statement has it and nowhere else.
-/

namespace RecordGraph.Store

open Phrase

variable {α : Type} {p : Phrase α} {d : Dialect} {gs : List Glue} {l : Lookup} {keys : List Value}

/-! ### Skipping the condition on the key -/

/-- Whether a character stands among placeholders or behind them. -/
def isSign (c : Char) : Bool := c.isDigit || ['$', '?', ',', ' ', ')', '='].contains c

theorem isSign_keysText {c : Char} (h : c ∈ keysText d 0 keys ++ [')']) : isSign c = true := by
  have hwider : ['$', '?', ',', ' '].all isSign = true := by decide
  rcases List.mem_append.mp h with h | h
  · rcases mem_keysText h with h | h
    · simp only [isSign, h, Bool.true_or]
    · exact List.all_eq_true.mp hwider c h
  · rw [List.mem_singleton.mp h]
    decide

theorem isSign_unmet {c : Char}
    (h : c ∈ (d.placeholder 1).toList ++ (Glue.equals.text ++ (d.placeholder 2).toList)) :
    isSign c = true := by
  have hplaceholder : ∀ n, c ∈ (d.placeholder n).toList → isSign c = true := by
    intro n hc
    rcases mem_placeholder hc with hc | rfl | rfl
    · simp only [isSign, hc, Bool.true_or]
    · decide
    · decide
  rcases List.mem_append.mp h with h | h
  · exact hplaceholder 1 h
  · rcases List.mem_append.mp h with h | h
    · have hequals : Glue.equals.text.all isSign = true := by decide
      exact List.all_eq_true.mp hequals c h
    · exact hplaceholder 2 h

/-- The phrase is not found before the condition on the key or in its signs either. -/
structure Crosses (p : Phrase α) (d : Dialect) (gs : List Glue) : Prop extends Passes p d gs where
  filter : ∀ t, p.Skips Glue.filter.text t
  sign : ∀ c, isSign c = true → ∀ t, p (c :: t) = none

/-- Nor is it found in the column of this condition. -/
structure CrossesKey (p : Phrase α) (d : Dialect) (gs : List Glue) : Prop extends
    Crosses p d gs where
  key : ∀ c, ColumnWords c → ∀ t, p.Skips (d.column c).toList (Glue.among.text ++ t)
  bracket : ∀ t, p.Skips Glue.among.text t

theorem crossesKey_of_opens {x : Char} {u v : List Char} (hx : isSign x = false)
    (hu : (x :: u).all Text.isWordChar = true) (hp : p.Opens (x :: u ++ ' ' :: v))
    (hselect : clear (x :: u ++ ' ' :: v) Glue.select.text Glue.table.text = true)
    (hfilter : clear (x :: u ++ ' ' :: v) Glue.filter.text [] = true)
    (hamong : clear (x :: u ++ ' ' :: v) Glue.among.text [] = true)
    (hgs : ∀ g ∈ gs, clear (x :: u ++ ' ' :: v) g.text [d.quote] = true) : CrossesKey p d gs where
  toPasses := passes_of_opens hu hp hselect hgs
  filter := skips_of_clear hp hfilter
  sign c hc t := by
    have hne : (x == c) = false := by
      rw [beq_eq_false_iff_ne]
      rintro rfl
      rw [hx] at hc
      cases hc
    exact hp _ (by simp [List.isPrefixOf, hne])
  key c hc t := skips_column (List.all_eq_true.mp hu) hp hc.1 hc.2 _
  bracket := skips_of_clear hp hamong

theorem not_isMark_of_isSign {c : Char} (h : isSign c = true) : isMark c = false := by
  cases hmark : isMark c with
  | false => rfl
  | true =>
    obtain ⟨e, -, he⟩ := List.any_eq_true.mp hmark
    have he : e.quote = c := by simpa using he
    rw [← he] at h
    cases e <;> exact absurd h (by decide)

theorem crosses_of_column {f : ColumnName → Phrase α} {w : List Char} (hf : ∀ c, (f c).Opens w)
    (hw : ∀ g ∈ followers, differ w g.text = true)
    (hgs : ∀ g ∈ gs, g.text.any isMark = false) : Crosses (column >>= f) d gs where
  toPasses := passes_of_column hf hw hgs
  filter := column_skips_text (not_isMark_of_any (by decide))
  sign _ hc t := bind_eq_none (column_eq_none (not_isMark_of_isSign hc) t)

theorem crossesKey_of_column {f : ColumnName → Phrase α} {w : List Char}
    (hf : ∀ c, (f c).Opens w) (hw : ∀ g ∈ followers, differ w g.text = true)
    (hamong : differ w Glue.among.text = true)
    (hgs : ∀ g ∈ gs, g.text.any isMark = false) : CrossesKey (column >>= f) d gs where
  toCrosses := crosses_of_column hf hw hgs
  key c hc t := by
    have hnone : f c (Glue.among.text ++ t) = none := hf c _ (isPrefixOf_eq_false hamong t)
    exact column_skips_column hc.1 hc.2 (by decide) (by decide) hnone
  bracket := column_skips_text (not_isMark_of_any (by decide))

theorem Crosses.unmet (hp : Crosses p d gs) (t : List Char) :
    p.Skips ((d.placeholder 1).toList ++ (Glue.equals.text ++ (d.placeholder 2).toList)) t :=
  skips_of_forall fun c hc rest => hp.sign c (isSign_unmet hc) rest

theorem CrossesKey.conditionText (hp : CrossesKey p d gs) (hl : l.Plain) (keys : List Value)
    (t : List Char) : p.Skips (conditionText d l.key keys) t := by
  rw [Store.conditionText]
  split
  · exact hp.unmet t
  · refine skips_append.mpr ⟨?_, skips_append.mpr ⟨hp.bracket _, ?_⟩⟩
    · rw [List.append_assoc]
      exact hp.key _ hl.key _
    · exact skips_of_forall fun c hc rest => hp.sign c (isSign_keysText hc) rest

def beforeText (d : Dialect) (l : Lookup) : List Char :=
  frontText d l ++ (joinText d l.join ++ Glue.filter.text)

theorem text_eq_before (keys : List Value) : frontText d l ++ restText d l keys =
    beforeText d l ++ (conditionText d l.key keys ++ nullText d l.null) := by
  simp only [restText, beforeText, List.append_assoc]

theorem Passes.beforeText (hp : Passes p d gs) (hl : l.Plain)
    (hgs : ∀ g ∈ [Glue.select, .comma, .label, .table, .join, .on, .equals], g ∈ gs)
    {t : List Char} (hfilter : p.Skips Glue.filter.text t) : p.Skips (beforeText d l) t := by
  have hfront : ∀ g ∈ followers, ∀ t, p.Skips (frontText d l) (g.text ++ t) := fun g hg t =>
    hp.front hl (hgs .select (by simp)) (hgs .comma (by simp)) (hgs .label (by simp))
      (hgs .table (by simp)) hg t
  refine skips_append.mpr ⟨?_, skips_append.mpr ⟨?_, hfilter⟩⟩
  · cases hj : l.join with
    | none =>
      rw [joinText, List.nil_append]
      exact hfront .filter (by simp [followers]) _
    | some j =>
      rw [joinText, toList_join, List.append_assoc, List.append_assoc]
      exact hfront .join (by simp [followers]) _
  · cases hj : l.join with
    | none => exact skips_nil _
    | some j =>
      exact hp.join (hgs .join (by simp)) (hgs .on (by simp)) (hgs .equals (by simp))
        (hl.join j hj) (by simp [followers]) _

/-! ### Skipping the column that has to be null -/

theorem Passes.nullText {x : Char} {u v : List Char} (hp : Passes p d gs)
    (hu : (x :: u).all Text.isWordChar = true) (hopens : p.Opens (x :: u ++ ' ' :: v))
    (hnull : clear (x :: u ++ ' ' :: v) Glue.null.text [] = true) (hl : l.Plain)
    (hmore : Glue.more ∈ gs) : p.Skips (nullText d l.null) [] := by
  cases hc : l.null with
  | none => exact skips_nil []
  | some c =>
    have hwords := hl.null c hc
    refine skips_append.mpr ⟨?_, skips_append.mpr ⟨?_, skips_of_clear hopens hnull []⟩⟩
    · rw [toList_column, List.append_assoc, List.append_assoc]
      exact hp.before _ hmore _ hwords.1 _
    · exact skips_column (List.all_eq_true.mp hu) hopens hwords.1 hwords.2 _

theorem column_skips_nullText {f : ColumnName → Phrase α} {w : List Char}
    (hf : ∀ c, (f c).Opens w) (hnull : differ w Glue.null.text = true) (hl : l.Plain) :
    (column >>= f).Skips (nullText d l.null) [] := by
  cases hc : l.null with
  | none => exact skips_nil []
  | some c =>
    have hwords := hl.null c hc
    have hnone : f c Glue.null.text = none := by
      have hother := hf c _ (isPrefixOf_eq_false hnull [])
      rwa [List.append_nil] at hother
    refine skips_append.mpr ⟨column_skips_text (not_isMark_of_any (by decide)) _,
      skips_append.mpr ⟨?_, column_skips_text (not_isMark_of_any (by decide)) _⟩⟩
    rw [List.append_nil]
    exact column_skips_column hwords.1 hwords.2 (by decide) (by decide) hnone

theorem find?_none {s : List Char} (hs : p.Skips s []) (hnil : p [] = none) : p.find? s = none := by
  have hskip := find?_skip hs
  rw [List.append_nil] at hskip
  rw [hskip]
  simp [find?, hnil]

/-! ### The join -/

theorem opens_joinPhrase : Query.joinPhrase.Opens ("INNER".toList ++ ' ' :: "JOIN ".toList) :=
  opens_words "INNER JOIN " _

theorem crossesKey_joinPhrase :
    CrossesKey Query.joinPhrase d [.select, .comma, .label, .table, .more] := by
  refine crossesKey_of_opens (x := 'I') (u := "NNER".toList) (v := "JOIN ".toList) (by decide)
    (by decide) opens_joinPhrase (by decide) (by decide) (by decide) ?_
  cases d <;> decide

theorem joinPhrase_join {j : Join} (h : IsWord j.table ∧ ColumnWords j.left ∧ ColumnWords j.right)
    (t : List Char) :
    ∃ s, (d.join j).toList ++ t = ' ' :: s ∧ Query.joinPhrase s = some (j, t) := by
  obtain ⟨htable, hleft, hright⟩ := h
  refine ⟨"INNER JOIN ".toList ++ ((d.quoted j.table).toList ++ (" ON ".toList ++
    ((d.column j.left).toList ++ (" = ".toList ++ ((d.column j.right).toList ++ t))))), ?_, ?_⟩
  · rewrite [toList_join]
    simp only [List.append_assoc]
    rfl
  · rw [Query.joinPhrase, bind_eq (words_append "INNER JOIN " _), bind_eq (name_quoted d htable _),
      bind_eq (words_append " ON " _), bind_eq (column_column d hleft.1 hleft.2 _),
      bind_eq (words_append " = " _), bind_eq (column_column d hright.1 hright.2 _)]
    rfl

theorem join_eq (hl : l.Plain) (keys : List Value) :
    Query.joinPhrase.first? (frontText d l ++ restText d l keys) = l.join := by
  have hp : CrossesKey Query.joinPhrase d [.select, .comma, .label, .table, .more] :=
    crossesKey_joinPhrase
  have hfront : ∀ g ∈ followers, ∀ t, Query.joinPhrase.Skips (frontText d l) (g.text ++ t) :=
    fun g hg t => hp.front hl (by decide) (by decide) (by decide) (by decide) hg t
  rw [restText]
  cases hj : l.join with
  | none =>
    have hnull := hp.nullText (by decide) opens_joinPhrase (by decide) hl (by decide)
    have hall : Query.joinPhrase.Skips (frontText d l ++
        (Glue.filter.text ++ (conditionText d l.key keys ++ nullText d l.null))) [] := by
      refine skips_append.mpr ⟨?_, skips_append.mpr ⟨hp.filter _,
        skips_append.mpr ⟨hp.conditionText hl keys _, hnull⟩⟩⟩
      rw [List.append_nil]
      exact hfront .filter (by decide) _
    rw [joinText, List.nil_append, first?, find?_none hall rfl]
    rfl
  | some j =>
    obtain ⟨s, htext, hread⟩ := joinPhrase_join (d := d) (hl.join j hj)
      (Glue.filter.text ++ (conditionText d l.key keys ++ nullText d l.null))
    have hskip : Query.joinPhrase.Skips (frontText d l) (' ' :: s) := by
      rw [← htext, toList_join, List.append_assoc]
      exact hfront .join (by decide) _
    have hblank : Query.joinPhrase.Skips [' '] s :=
      skips_cons.mpr ⟨hp.sign ' ' (by decide) s, skips_nil s⟩
    rw [joinText, htext, first?_skip hskip, ← List.singleton_append, first?_skip hblank]
    exact first?_here hread

/-! ### The key -/

theorem crosses_inPhrase :
    Crosses Query.inPhrase d [.select, .comma, .label, .table, .join, .on, .equals, .more] :=
  crosses_of_column (fun c => opens_words " IN (" fun _ => do
    let inside ← (Text.cut (· == ')') : Phrase (List Char))
    return (c, inside)) (by decide) (by decide)

theorem inPhrase_skips_nullText (hl : l.Plain) : Query.inPhrase.Skips (nullText d l.null) [] :=
  column_skips_nullText (fun c => opens_words " IN (" fun _ => do
    let inside ← (Text.cut (· == ')') : Phrase (List Char))
    return (c, inside)) (by decide) hl

theorem ne_bracket_keysText {values : List Value} :
    ∀ c ∈ keysText d 0 values, (c == ')') = false := by
  intro c hc
  rw [beq_eq_false_iff_ne]
  rintro rfl
  rcases mem_keysText hc with h | h
  · exact absurd h (by decide)
  · exact absurd h (by decide)

theorem inPhrase_key (hl : l.Plain) {keys : List Value} (hkeys : keys ≠ []) (t : List Char) :
    Query.inPhrase (conditionText d l.key keys ++ t) = some ((l.key, keysText d 0 keys), t) := by
  have hcut : (Text.cut (· == ')') : Phrase (List Char)) (keysText d 0 keys ++ ')' :: t) =
      some (keysText d 0 keys, t) := Text.cut_eq_some_iff.mpr ⟨')', rfl, ne_bracket_keysText, rfl⟩
  have htext : conditionText d l.key keys ++ t = (d.column l.key).toList ++
      (Glue.among.text ++ (keysText d 0 keys ++ ')' :: t)) := by
    simp only [conditionText, List.isEmpty_iff, hkeys, if_false, List.append_assoc,
      List.singleton_append]
  rw [htext]
  refine (bind_eq (column_column d hl.key.1 hl.key.2 _)).trans ?_
  exact (bind_eq (words_append " IN (" _)).trans (bind_eq hcut)

theorem calm_beforeText (hl : l.Plain) : Calm (beforeText d l) :=
  (calm_front hl).append ((calm_join hl).append (calm_of_mem (by decide)))

theorem filter_eq (hl : l.Plain) {keys : List Value} (hkeys : keys ≠ []) :
    Query.filter? (frontText d l ++ restText d l keys) keys =
      some (l.key, keys.filterMap Key.ofValue?) := by
  have hp : Crosses Query.inPhrase d
      [.select, .comma, .label, .table, .join, .on, .equals, .more] := crosses_inPhrase
  have hskip := hp.beforeText hl (by decide)
    (hp.filter (conditionText d l.key keys ++ nullText d l.null))
  have hcount : (beforeText d l).count '?' = 0 :=
    List.count_eq_zero.mpr fun hmem => (calm_beforeText hl _ hmem).1 rfl
  rw [text_eq_before, Query.filter?, find?_skip hskip, find?_here (inPhrase_key hl hkeys _)]
  simp only [Option.map_some, List.append_nil, hcount, keys_keysText]

theorem filter_eq_none (hl : l.Plain) (values : List Value) :
    Query.filter? (frontText d l ++ restText d l []) values = none := by
  have hp : Crosses Query.inPhrase d
      [.select, .comma, .label, .table, .join, .on, .equals, .more] := crosses_inPhrase
  have hall : Query.inPhrase.Skips
      (beforeText d l ++ (conditionText d l.key [] ++ nullText d l.null)) [] :=
    skips_append.mpr ⟨hp.beforeText hl (by decide) (hp.filter _),
      skips_append.mpr ⟨hp.unmet _, inPhrase_skips_nullText hl⟩⟩
  rw [text_eq_before, Query.filter?, find?_none hall rfl, Option.map_none]

/-! ### The column that has to be null -/

theorem crossesKey_isNullPhrase : CrossesKey Query.isNullPhrase d
    [.select, .comma, .label, .table, .join, .on, .equals, .more] :=
  crossesKey_of_column (fun c => opens_words " IS NULL" fun _ => pure c) (by decide) (by decide)
    (by decide)

theorem nulls_eq (hl : l.Plain) (keys : List Value) :
    Query.isNullPhrase.findAll (frontText d l ++ restText d l keys) = l.null.toList := by
  have hp : CrossesKey Query.isNullPhrase d
      [.select, .comma, .label, .table, .join, .on, .equals, .more] := crossesKey_isNullPhrase
  have hskip : ∀ t, Query.isNullPhrase.Skips (beforeText d l ++ conditionText d l.key keys) t :=
    fun t => skips_append.mpr ⟨hp.beforeText hl (by decide) (hp.filter _),
      hp.conditionText hl keys t⟩
  rw [text_eq_before, ← List.append_assoc]
  cases hc : l.null with
  | none =>
    rw [nullText, List.append_nil, findAll, find?_none (hskip []) rfl]
    rfl
  | some c =>
    have hwords := hl.null c hc
    have hmore : Query.isNullPhrase.Skips Glue.more.text
        ((d.column c).toList ++ Glue.null.text) := by
      rw [toList_column, List.append_assoc]
      exact hp.before _ (by decide) _ hwords.1 _
    have hhere : Query.isNullPhrase ((d.column c).toList ++ Glue.null.text) = some (c, []) := by
      refine (bind_eq (column_column d hwords.1 hwords.2 _)).trans ?_
      have hnull := words_append " IS NULL" []
      rw [List.append_nil] at hnull
      exact bind_eq hnull
    have hnone : Query.isNullPhrase.findAll [] = [] := by
      rw [findAll]
      rfl
    have hfind : Query.isNullPhrase.find?
        ((beforeText d l ++ conditionText d l.key keys) ++ nullText d (some c)) =
          some ((beforeText d l ++ conditionText d l.key keys) ++ Glue.more.text, c, []) := by
      rw [find?_skip (hskip _), nullText, find?_skip hmore, find?_here hhere]
      simp only [Option.map_some, List.append_nil]
    rw [findAll, hfind]
    simp only [hnone, Option.toList_some]
    split <;> rfl

/-! ### Statements -/

theorem opens_orderPhrase : Query.orderPhrase.Opens ("ORDER".toList ++ ' ' :: "BY ".toList) :=
  opens_words "ORDER BY " _

theorem crossesKey_orderPhrase : CrossesKey Query.orderPhrase d
    [.select, .comma, .label, .table, .join, .on, .equals, .more] := by
  refine crossesKey_of_opens (x := 'O') (u := "RDER".toList) (v := "BY ".toList) (by decide)
    (by decide) opens_orderPhrase (by decide) (by decide) (by decide) ?_
  cases d <;> decide

theorem order_eq (hl : l.Plain) (keys : List Value) :
    Query.orderPhrase.first? (frontText d l ++ restText d l keys) = none := by
  have hp : CrossesKey Query.orderPhrase d
      [.select, .comma, .label, .table, .join, .on, .equals, .more] := crossesKey_orderPhrase
  have hnull := hp.nullText (by decide) opens_orderPhrase (by decide) hl (by decide)
  have hall : Query.orderPhrase.Skips
      (beforeText d l ++ (conditionText d l.key keys ++ nullText d l.null)) [] :=
    skips_append.mpr ⟨hp.beforeText hl (by decide) (hp.filter _),
      skips_append.mpr ⟨hp.conditionText hl keys _, hnull⟩⟩
  rw [text_eq_before, first?, find?_none hall rfl]
  rfl

def Lookup.query (l : Lookup) (keys : List Key) : Query where
  table := l.table
  columns := l.columns
  join := l.join
  filter := some (l.key, keys)
  nulls := l.null.toList
  order := none

/-- What the store takes a lookup for that has no keys: one that does not ask for any. -/
def Lookup.openQuery (l : Lookup) : Query := { l.query [] with filter := none }

/-- The store reads from the text of a lookup what the lookup asks for. -/
theorem ofStatement?_render (hl : l.Plain) {keys : List Value} (hkeys : keys ≠ []) :
    Query.ofStatement? (d.render (l.select keys)) =
      some (l.query (keys.filterMap Key.ofValue?)) := by
  simp only [Query.ofStatement?, toList_sql_front, values_render l hkeys, table_eq hl,
    listing?_eq hl, Option.bind_eq_bind, Option.bind_some, join_eq hl, filter_eq hl hkeys,
    nulls_eq hl, order_eq hl, selected_listText hl.columns]
  rfl

theorem ofStatement?_render_nil (hl : l.Plain) :
    Query.ofStatement? (d.render (l.select [])) = some l.openQuery := by
  simp only [Query.ofStatement?, toList_sql_front, table_eq hl, listing?_eq hl,
    Option.bind_eq_bind, Option.bind_some, join_eq hl, filter_eq_none hl, nulls_eq hl,
    order_eq hl, selected_listText hl.columns]
  rfl

end RecordGraph.Store
