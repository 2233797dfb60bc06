import Mathlib.Data.Option.Basic
import RecordGraph.Proofs.Store.Placeholders

/-!
# Reading a lookup back

What the store reads from the text of a lookup is the lookup: its table, its columns, its join, the
keys of its values and the column that has to be null.
-/

namespace RecordGraph.Store

open Phrase

variable {α : Type} {p : Phrase α} {d : Dialect} {gs : List Glue} {l : Lookup}

/-! ### Skipping names and what stands between them -/

/-- What stands after names. -/
def followers : List Glue := [.comma, .label, .table, .join, .on, .equals, .filter]

/-- The phrase is found neither in names before some text nor in the given texts before a name, nor
at the beginning of a statement that selects nothing. -/
structure Passes (p : Phrase α) (d : Dialect) (gs : List Glue) : Prop where
  quoted : ∀ s, IsWord s → ∀ g ∈ followers, ∀ t, p.Skips (d.quoted s).toList (g.text ++ t)
  column : ∀ c, ColumnWords c → ∀ g ∈ followers, ∀ t, p.Skips (d.column c).toList (g.text ++ t)
  before : ∀ g ∈ gs, ∀ s, IsWord s → ∀ t, p.Skips g.text ((d.quoted s).toList ++ t)
  opening : ∀ t, p.Skips Glue.select.text (Glue.table.text ++ t)

theorem passes_of_opens {u v : List Char} (hu : u.all Text.isWordChar = true)
    (hp : p.Opens (u ++ ' ' :: v))
    (hselect : clear (u ++ ' ' :: v) Glue.select.text Glue.table.text = true)
    (hgs : ∀ g ∈ gs, clear (u ++ ' ' :: v) g.text [d.quote] = true) : Passes p d gs := by
  have hu := List.all_eq_true.mp hu
  refine ⟨fun s hs g _ t => ?_, fun c hc g _ t => ?_, fun g hg s hs t => ?_,
    fun t => skips_of_clear hp hselect t⟩
  · exact skips_quoted hu hp hs _
  · exact skips_column hu hp hc.1 hc.2 _
  · rw [toList_quoted d hs, List.cons_append, ← List.singleton_append]
    exact skips_of_clear hp (hgs g hg) _

theorem head_of_follower {g : Glue} (hg : g ∈ followers) :
    ∃ x rest, g.text = x :: rest ∧ x ≠ '.' ∧ Text.isWordChar x = false := by
  have hall : ∀ g ∈ followers,
      (g.text.head?.any fun x => x != '.' && !Text.isWordChar x) = true := by decide
  have hhead := hall g hg
  cases h : g.text with
  | nil =>
    rw [h] at hhead
    cases hhead
  | cons x rest =>
    rw [h] at hhead
    have hx : ¬x = '.' ∧ Text.isWordChar x = false := by simpa using hhead
    exact ⟨x, rest, rfl, hx.1, hx.2⟩

theorem not_isMark_of_any {s : List Char} (h : s.any isMark = false) :
    ∀ c ∈ s, isMark c = false := by
  intro c hc
  simpa using List.any_eq_false.mp h c hc

theorem passes_of_column {f : ColumnName → Phrase α} {w : List Char} (hf : ∀ c, (f c).Opens w)
    (hw : ∀ g ∈ followers, differ w g.text = true)
    (hgs : ∀ g ∈ gs, g.text.any isMark = false) : Passes (column >>= f) d gs := by
  refine ⟨fun s hs g hg t => ?_, fun c hc g hg t => ?_, fun g hg s hs t => ?_,
    fun t => column_skips_text (not_isMark_of_any (by decide)) _⟩
  · obtain ⟨x, rest, htext, hx, hword⟩ := head_of_follower hg
    rw [htext, List.cons_append]
    exact column_skips_quoted hs hx hword _
  · obtain ⟨x, rest, htext, hx, hword⟩ := head_of_follower hg
    have hnone : f c (g.text ++ t) = none := hf c _ (isPrefixOf_eq_false (hw g hg) t)
    rw [htext, List.cons_append] at hnone ⊢
    exact column_skips_column hc.1 hc.2 hx hword hnone
  · exact column_skips_text (not_isMark_of_any (hgs g hg)) _

/-! ### Skipping parts -/

theorem listText_head {columns : List Selected} (hne : columns ≠ [])
    (h : ∀ s ∈ columns, ColumnWords s.source ∧ ∀ label, s.label = some label → IsWord label) :
    ∃ s rest, IsWord s ∧ listText d columns = (d.quoted s).toList ++ rest := by
  cases columns with
  | nil => exact absurd rfl hne
  | cons s columns =>
    refine ⟨s.source.table, ?_⟩
    have hword := (h s List.mem_cons_self).1.1
    cases columns with
    | nil =>
      rw [listText_one, toList_selected, toList_column, List.append_assoc]
      exact ⟨_, hword, rfl⟩
    | cons t columns =>
      rw [listText_cons, toList_selected, toList_column, List.append_assoc, List.append_assoc]
      exact ⟨_, hword, rfl⟩

theorem Passes.selected (hp : Passes p d gs) (has : Glue.label ∈ gs) {s : Selected}
    (hs : ColumnWords s.source ∧ ∀ label, s.label = some label → IsWord label) {g : Glue}
    (hg : g ∈ followers) (t : List Char) : p.Skips (d.selected s).toList (g.text ++ t) := by
  rw [toList_selected]
  cases hlabel : s.label with
  | none =>
    rw [List.append_nil]
    exact hp.column _ hs.1 g hg t
  | some label =>
    have hword := hs.2 label hlabel
    refine skips_append.mpr ⟨?_, skips_append.mpr ⟨?_, hp.quoted _ hword g hg t⟩⟩
    · rw [List.append_assoc]
      exact hp.column _ hs.1 .label (by simp [followers]) _
    · exact hp.before _ has _ hword _

theorem Passes.list (hp : Passes p d gs) (hcomma : Glue.comma ∈ gs) (has : Glue.label ∈ gs)
    {columns : List Selected}
    (h : ∀ s ∈ columns, ColumnWords s.source ∧ ∀ label, s.label = some label → IsWord label)
    {g : Glue} (hg : g ∈ followers) (t : List Char) :
    p.Skips (listText d columns) (g.text ++ t) := by
  induction columns with
  | nil => exact skips_nil _
  | cons s columns ih =>
    have hs := h s List.mem_cons_self
    cases columns with
    | nil =>
      rw [listText_one]
      exact hp.selected has hs hg t
    | cons s' columns =>
      have hrest : ∀ x ∈ s' :: columns,
          ColumnWords x.source ∧ ∀ label, x.label = some label → IsWord label :=
        fun x hx => h x (List.mem_cons_of_mem s hx)
      obtain ⟨w, rest, hw, htext⟩ := listText_head (d := d) (List.cons_ne_nil s' columns) hrest
      rw [listText_cons]
      refine skips_append.mpr ⟨?_, skips_append.mpr ⟨?_, ih hrest⟩⟩
      · rw [List.append_assoc]
        exact hp.selected has hs (by decide) _
      · rw [htext, List.append_assoc]
        exact hp.before _ hcomma w hw _

theorem Passes.select (hp : Passes p d gs) (hselect : Glue.select ∈ gs) {columns : List Selected}
    (h : ∀ s ∈ columns, ColumnWords s.source ∧ ∀ label, s.label = some label → IsWord label)
    (t : List Char) :
    p.Skips Glue.select.text (listText d columns ++ (Glue.table.text ++ t)) := by
  by_cases hnone : columns = []
  · subst hnone
    exact hp.opening t
  · obtain ⟨w, rest, hw, htext⟩ := listText_head (d := d) hnone h
    rw [htext, List.append_assoc]
    exact hp.before _ hselect w hw _

theorem Passes.join (hp : Passes p d gs) (hjoin : Glue.join ∈ gs) (hon : Glue.on ∈ gs)
    (heq : Glue.equals ∈ gs) {j : Join}
    (h : IsWord j.table ∧ ColumnWords j.left ∧ ColumnWords j.right) {g : Glue}
    (hg : g ∈ followers) (t : List Char) :
    p.Skips (d.join j).toList (g.text ++ t) := by
  obtain ⟨htable, hleft, hright⟩ := h
  have hmiddle : ∀ c, ColumnWords c → ∀ g ∈ gs, ∀ t, p.Skips g.text ((d.column c).toList ++ t) := by
    intro c hc g hg t
    rw [toList_column, List.append_assoc]
    exact hp.before g hg _ hc.1 _
  rw [toList_join]
  refine skips_append.mpr ⟨?_, skips_append.mpr ⟨?_, skips_append.mpr ⟨?_, skips_append.mpr
    ⟨?_, skips_append.mpr ⟨?_, ?_⟩⟩⟩⟩⟩
  · rw [List.append_assoc]
    exact hp.before _ hjoin _ htable _
  · rw [List.append_assoc]
    exact hp.quoted _ htable .on (by simp [followers]) _
  · rw [List.append_assoc]
    exact hmiddle _ hleft _ hon _
  · rw [List.append_assoc]
    exact hp.column _ hleft .equals (by simp [followers]) _
  · exact hmiddle _ hright _ heq _
  · exact hp.column _ hright g hg t

def frontText (d : Dialect) (l : Lookup) : List Char :=
  Glue.select.text ++ (listText d l.columns ++ (Glue.table.text ++ (d.quoted l.table).toList))

theorem Passes.front (hp : Passes p d gs) (hl : l.Plain) (hselect : Glue.select ∈ gs)
    (hcomma : Glue.comma ∈ gs) (has : Glue.label ∈ gs) (hfrom : Glue.table ∈ gs) {g : Glue}
    (hg : g ∈ followers) (t : List Char) : p.Skips (frontText d l) (g.text ++ t) := by
  refine skips_append.mpr ⟨?_, skips_append.mpr ⟨?_, skips_append.mpr ⟨?_, ?_⟩⟩⟩
  · rw [List.append_assoc, List.append_assoc]
    exact hp.select hselect hl.columns _
  · rw [List.append_assoc]
    exact hp.list hcomma has hl.columns (by decide) _
  · exact hp.before _ hfrom _ hl.table _
  · exact hp.quoted _ hl.table g hg t

def restText (d : Dialect) (l : Lookup) (keys : List Value) : List Char :=
  joinText d l.join ++ (Glue.filter.text ++ (conditionText d l.key keys ++ nullText d l.null))

theorem toList_sql_front (l : Lookup) (keys : List Value) :
    (d.render (l.select keys)).sql.toList = frontText d l ++ restText d l keys := by
  simp only [toList_sql_render, frontText, restText, List.append_assoc]

/-! ### The table and the columns -/

theorem first?_skip {s t : List Char} (h : p.Skips s t) : p.first? (s ++ t) = p.first? t := by
  rw [Phrase.first?, Phrase.first?, find?_skip h, Option.map_map]
  rfl

theorem first?_here {s rest : List Char} {a : α} (h : p s = some (a, rest)) :
    p.first? s = some a := by
  rw [Phrase.first?, find?_here h]
  rfl

theorem passes_from {f : Unit → Phrase α} :
    Passes (words " FROM " >>= f) d [.select, .comma, .label] := by
  refine passes_of_opens (u := []) (v := "FROM ".toList) rfl (opens_words " FROM " f)
    (by decide) ?_
  cases d <;> decide

theorem table_eq (hl : l.Plain) (rest : List Char) :
    Query.fromPhrase.first? (frontText d l ++ rest) = some l.table := by
  have hp : Passes Query.fromPhrase d [.select, .comma, .label] := passes_from
  have hhere : Query.fromPhrase (Glue.table.text ++ ((d.quoted l.table).toList ++ rest)) =
      some (l.table, rest) :=
    (bind_eq (words_append " FROM " _)).trans (name_quoted d hl.table rest)
  have hselect := hp.select (by decide) hl.columns ((d.quoted l.table).toList ++ rest)
  have hlist := hp.list (g := .table) (by decide) (by decide) hl.columns (by decide)
    ((d.quoted l.table).toList ++ rest)
  rewrite [frontText, List.append_assoc, List.append_assoc, List.append_assoc, first?_skip hselect,
    first?_skip hlist]
  exact first?_here hhere

/-! ### Characters of the text -/

/-- Neither a question mark nor the end of a line. -/
def Calm (s : List Char) : Prop := ∀ c ∈ s, c ≠ '?' ∧ c ≠ '\n'

theorem Calm.append {s t : List Char} (hs : Calm s) (ht : Calm t) : Calm (s ++ t) := by
  intro c hc
  rcases List.mem_append.mp hc with hc | hc
  · exact hs c hc
  · exact ht c hc

theorem calm_quoted {s : String} (h : IsWord s) : Calm (d.quoted s).toList := by
  rw [toList_quoted d h]
  intro c hc
  have hquote : d.quote ≠ '?' ∧ d.quote ≠ '\n' := by cases d <;> decide
  rcases List.mem_cons.mp hc with rfl | hc
  · exact hquote
  · rcases List.mem_append.mp hc with hc | hc
    · have hw := h.isWordChar c hc
      refine ⟨?_, ?_⟩
      · rintro rfl
        exact absurd hw (by decide)
      · rintro rfl
        exact absurd hw (by decide)
    · rw [List.mem_singleton.mp hc]
      exact hquote

theorem calm_column {c : ColumnName} (h : ColumnWords c) : Calm (d.column c).toList := by
  have hdot : Calm ['.'] := by
    intro x hx
    rw [List.mem_singleton.mp hx]
    decide
  rw [toList_column, ← List.singleton_append]
  exact (calm_quoted h.1).append (hdot.append (calm_quoted h.2))

theorem calm_of_mem {s : String} (h : s.toList.all (fun c => c != '?' && c != '\n') = true) :
    Calm s.toList := by
  intro c hc
  simpa using List.all_eq_true.mp h c hc

theorem calm_selected {s : Selected}
    (hs : ColumnWords s.source ∧ ∀ label, s.label = some label → IsWord label) :
    Calm (d.selected s).toList := by
  rw [toList_selected]
  refine (calm_column hs.1).append ?_
  cases hlabel : s.label with
  | none => exact fun c hc => nomatch hc
  | some label => exact (calm_of_mem (by decide)).append (calm_quoted (hs.2 label hlabel))

theorem calm_list {columns : List Selected}
    (h : ∀ s ∈ columns, ColumnWords s.source ∧ ∀ label, s.label = some label → IsWord label) :
    Calm (listText d columns) := by
  induction columns with
  | nil => exact fun c hc => nomatch hc
  | cons s columns ih =>
    have hs := h s List.mem_cons_self
    cases columns with
    | nil =>
      rw [listText_one]
      exact calm_selected hs
    | cons t columns =>
      rw [listText_cons]
      exact (calm_selected hs).append ((calm_of_mem (by decide)).append
        (ih fun x hx => h x (List.mem_cons_of_mem s hx)))

theorem calm_front (hl : l.Plain) : Calm (frontText d l) :=
  (calm_of_mem (by decide)).append ((calm_list hl.columns).append
    ((calm_of_mem (by decide)).append (calm_quoted hl.table)))

theorem calm_join (hl : l.Plain) : Calm (joinText d l.join) := by
  cases hj : l.join with
  | none => exact fun c hc => nomatch hc
  | some j =>
    obtain ⟨htable, hleft, hright⟩ := hl.join j hj
    rw [joinText, toList_join]
    exact (calm_of_mem (by decide)).append ((calm_quoted htable).append
      ((calm_of_mem (by decide)).append ((calm_column hleft).append
        ((calm_of_mem (by decide)).append (calm_column hright)))))

/-! ### The selected columns -/

theorem items_cons {c : Char} (h : c ≠ ',') {rest i : List Char} {is : List (List Char)}
    (hrest : Query.items rest = i :: is) : Query.items (c :: rest) = (c :: i) :: is := by
  rw [Query.items, hrest]
  intro rest' hc
  exact absurd hc h

theorem items_of_no_comma {s : List Char} (h : ∀ c ∈ s, c ≠ ',') : Query.items s = [s] := by
  induction s with
  | nil => rfl
  | cons c s ih =>
    exact items_cons (h c List.mem_cons_self) (ih fun x hx => h x (List.mem_cons_of_mem c hx))

theorem items_comma {s : List Char} (h : ∀ c ∈ s, c ≠ ',') (t : List Char) :
    Query.items (s ++ ',' :: ' ' :: t) = s :: Query.items t := by
  induction s with
  | nil => rw [List.nil_append, Query.items]
  | cons c s ih =>
    exact items_cons (h c List.mem_cons_self) (ih fun x hx => h x (List.mem_cons_of_mem c hx))

theorem no_comma_quoted {s : String} (h : IsWord s) : ∀ c ∈ (d.quoted s).toList, c ≠ ',' := by
  rw [toList_quoted d h]
  intro c hc
  have hquote : d.quote ≠ ',' := by cases d <;> decide
  rcases List.mem_cons.mp hc with rfl | hc
  · exact hquote
  · rcases List.mem_append.mp hc with hc | hc
    · rintro rfl
      exact absurd (h.isWordChar _ hc) (by decide)
    · rw [List.mem_singleton.mp hc]
      exact hquote

theorem no_comma_column {c : ColumnName} (h : ColumnWords c) :
    ∀ x ∈ (d.column c).toList, x ≠ ',' := by
  rw [toList_column]
  intro x hx
  rcases List.mem_append.mp hx with hx | hx
  · exact no_comma_quoted h.1 x hx
  · rcases List.mem_cons.mp hx with rfl | hx
    · decide
    · exact no_comma_quoted h.2 x hx

theorem no_comma_selected {s : Selected}
    (hs : ColumnWords s.source ∧ ∀ label, s.label = some label → IsWord label) :
    ∀ x ∈ (d.selected s).toList, x ≠ ',' := by
  rw [toList_selected]
  intro x hx
  rcases List.mem_append.mp hx with hx | hx
  · exact no_comma_column hs.1 x hx
  · cases hlabel : s.label with
    | none =>
      rw [hlabel] at hx
      cases hx
    | some label =>
      rw [hlabel] at hx
      rcases List.mem_append.mp hx with hx | hx
      · have hall : (Glue.label.text.all fun x => x != ',') = true := by decide
        simpa using List.all_eq_true.mp hall x hx
      · exact no_comma_quoted (hs.2 label hlabel) x hx

theorem whole?_selected {s : Selected}
    (hs : ColumnWords s.source ∧ ∀ label, s.label = some label → IsWord label) :
    Query.selectedPhrase.whole? (d.selected s).toList = some s := by
  have hread : Query.selectedPhrase (d.selected s).toList = some (s, []) := by
    obtain ⟨source, label⟩ := s
    rw [toList_selected, Query.selectedPhrase, bind_eq (column_column d hs.1.1 hs.1.2 _)]
    cases label with
    | none => rfl
    | some label =>
      have hname := name_quoted d (hs.2 label rfl) []
      rw [List.append_nil] at hname
      have hwords := words_append " AS " ((d.quoted label).toList)
      have hlabel : (some <$> name) (d.quoted label).toList = some (some label, []) := by
        simp [Functor.map, StateT.map, hname]
      have hlabelled : (words " AS " *> some <$> name)
          (Glue.label.text ++ (d.quoted label).toList) = some (some label, []) :=
        (bind_eq hwords).trans hlabel
      have hchoice : (words " AS " *> some <$> name <|> pure none)
          (Glue.label.text ++ (d.quoted label).toList) = some (some label, []) :=
        congrArg (fun o => o <|> some (none, _)) hlabelled
      exact bind_eq hchoice
  simp only [whole?, hread]

theorem selected_listText {columns : List Selected}
    (h : ∀ s ∈ columns, ColumnWords s.source ∧ ∀ label, s.label = some label → IsWord label) :
    Query.selected (listText d columns) = columns := by
  induction columns with
  | nil => rfl
  | cons s columns ih =>
    have hs := h s List.mem_cons_self
    cases columns with
    | nil =>
      rw [listText_one, Query.selected, items_of_no_comma (no_comma_selected hs)]
      simp only [List.filterMap_cons, whole?_selected hs, List.filterMap_nil]
    | cons t columns =>
      have hrest := ih fun x hx => h x (List.mem_cons_of_mem s hx)
      have hitems := items_comma (no_comma_selected (d := d) hs) (listText d (t :: columns))
      rw [Query.selected] at hrest
      rw [listText_cons, Query.selected]
      refine (congrArg (List.filterMap _) hitems).trans ?_
      rw [List.filterMap_cons, whole?_selected hs, hrest]

theorem passes_words_from : Passes (words " FROM ") d [.select, .comma, .label] := by
  refine passes_of_opens (u := []) (v := "FROM ".toList) rfl ?_ (by decide) ?_
  · intro s h
    have hword : " FROM ".toList.isPrefixOf s = false := h
    simp only [words, hword, Bool.false_eq_true, if_false]
  · cases d <;> decide

theorem listing?_eq (hl : l.Plain) (rest : List Char) :
    Query.listing? (frontText d l ++ rest) = some (listText d l.columns) := by
  have hselect : words "SELECT " (frontText d l ++ rest) = some ((), listText d l.columns ++
      (Glue.table.text ++ ((d.quoted l.table).toList ++ rest))) := by
    have hwords := words_append "SELECT " (listText d l.columns ++
      (Glue.table.text ++ ((d.quoted l.table).toList ++ rest)))
    rewrite [frontText, List.append_assoc, List.append_assoc, List.append_assoc]
    exact hwords
  have hskip := (passes_words_from (d := d)).list (g := .table) (by decide) (by decide)
    hl.columns (by decide) ((d.quoted l.table).toList ++ rest)
  have hhere : (words " FROM ").find? (Glue.table.text ++ ((d.quoted l.table).toList ++ rest)) =
      some ([], (), (d.quoted l.table).toList ++ rest) := find?_here (words_append " FROM " _)
  have hline : (listText d l.columns).contains '\n' = false := by
    rw [← Bool.not_eq_true, List.contains_iff_mem]
    exact fun hmem => (calm_list hl.columns _ hmem).2 rfl
  simp only [Query.listing?, hselect, Option.bind_eq_bind, Option.bind_some, find?_skip hskip,
    hhere, Option.map_some, List.append_nil, hline, Bool.not_false]
  rfl

end RecordGraph.Store
