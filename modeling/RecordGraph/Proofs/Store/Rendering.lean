import RecordGraph.Proofs.Store.Finding

/-!
# The text of a lookup

A lookup selects columns of one table, perhaps with a join, where one column has one of some keys
and perhaps another one is null. Its text is a chain of words, quoted names and placeholders.
-/

namespace RecordGraph.Store

open Phrase

/-- The statements that select rows for a list of keys. -/
structure Lookup where
  columns : List Selected
  table : String
  join : Option Join
  key : ColumnName
  null : Option ColumnName

def ColumnWords (c : ColumnName) : Prop := IsWord c.table ∧ IsWord c.column

namespace Lookup

def select (l : Lookup) (keys : List Value) : Select :=
  { columns := l.columns
    table := l.table
    join := l.join
    conditions := .isIn l.key keys :: l.null.toList.map .isNull
    order := []
    limit := none }

/-- All names are words. -/
structure Plain (l : Lookup) : Prop where
  columns : ∀ s ∈ l.columns, ColumnWords s.source ∧ ∀ label, s.label = some label → IsWord label
  table : IsWord l.table
  join : ∀ j, l.join = some j → IsWord j.table ∧ ColumnWords j.left ∧ ColumnWords j.right
  key : ColumnWords l.key
  null : ∀ c, l.null = some c → ColumnWords c

end Lookup

/-! ### Parts of the text -/

/-- The words between names. -/
inductive Glue where
  | select | comma | label | table | join | on | equals | filter | among | more | null
  deriving DecidableEq

namespace Glue

def words : Glue → String
  | select => "SELECT "
  | comma => ", "
  | label => " AS "
  | table => " FROM "
  | join => " INNER JOIN "
  | on => " ON "
  | equals => " = "
  | filter => " WHERE "
  | among => " IN ("
  | more => " AND "
  | null => " IS NULL"

def text (g : Glue) : List Char := g.words.toList

end Glue

def listText (d : Dialect) (columns : List Selected) : List Char :=
  (", ".intercalate (columns.map d.selected)).toList

def joinText (d : Dialect) : Option Join → List Char
  | none => []
  | some j => (d.join j).toList

/-- The text of the placeholders of some values, counted from the one after `count`. -/
def keysText (d : Dialect) (count : Nat) (values : List Value) : List Char :=
  (Fragment.sql d count (Fragment.separated ", " (values.map fun v => [.bound v]))).toList

/-- The text of the condition on the key: a list of placeholders, or a comparison of two of them
where there are no keys. -/
def conditionText (d : Dialect) (c : ColumnName) (keys : List Value) : List Char :=
  if keys.isEmpty then
    (d.placeholder 1).toList ++ (Glue.equals.text ++ (d.placeholder 2).toList)
  else (d.column c).toList ++ (Glue.among.text ++ (keysText d 0 keys ++ [')']))

/-- The text of the condition on a column that has to be null, where there is one. -/
def nullText (d : Dialect) : Option ColumnName → List Char
  | none => []
  | some c => Glue.more.text ++ ((d.column c).toList ++ Glue.null.text)

section

variable {d : Dialect}

theorem toList_selected (s : Selected) : (d.selected s).toList = (d.column s.source).toList ++
    match s.label with
    | some label => Glue.label.text ++ (d.quoted label).toList
    | none => [] := by
  cases h : s.label with
  | none => simp only [Dialect.selected, h, List.append_nil]
  | some label =>
    simp only [Dialect.selected, h, String.toList_append, List.append_assoc, Glue.text, Glue.words]

theorem listText_one (s : Selected) : listText d [s] = (d.selected s).toList := by
  simp [listText]

theorem listText_cons (s t : Selected) (rest : List Selected) :
    listText d (s :: t :: rest) =
      (d.selected s).toList ++ (Glue.comma.text ++ listText d (t :: rest)) := by
  simp only [listText, List.map_cons, String.intercalate_cons_cons, String.toList_append,
    List.append_assoc, Glue.text, Glue.words]

theorem toList_join (j : Join) : (d.join j).toList = Glue.join.text ++
    ((d.quoted j.table).toList ++ (Glue.on.text ++ ((d.column j.left).toList ++
      (Glue.equals.text ++ (d.column j.right).toList)))) := by
  have hchain : ∀ a b c e f g : String, (a ++ b ++ c ++ e ++ f ++ g).toList =
      a.toList ++ (b.toList ++ (c.toList ++ (e.toList ++ (f.toList ++ g.toList)))) := by
    intro a b c e f g
    simp only [String.toList_append, List.append_assoc]
  exact hchain _ _ _ _ _ _

/-! ### Fragments -/

theorem sql_append (count : Nat) (fs gs : List Fragment) :
    Fragment.sql d count (fs ++ gs) =
      Fragment.sql d count fs ++ Fragment.sql d (count + (Fragment.values fs).length) gs := by
  induction fs generalizing count with
  | nil => simp [Fragment.sql, Fragment.values]
  | cons f fs ih =>
    cases f with
    | text s => simp [Fragment.sql, Fragment.values, ih, String.append_assoc]
    | bound v =>
      have hcount : count + 1 + (Fragment.values fs).length =
          count + ((Fragment.values fs).length + 1) := by omega
      simp [Fragment.sql, Fragment.values, ih, String.append_assoc, hcount]

theorem values_append (fs gs : List Fragment) :
    Fragment.values (fs ++ gs) = Fragment.values fs ++ Fragment.values gs := by
  induction fs with
  | nil => rfl
  | cons f fs ih => cases f <;> simp [Fragment.values, ih]

theorem values_bound (values : List Value) :
    Fragment.values (Fragment.separated ", " (values.map fun v => [.bound v])) = values := by
  induction values with
  | nil => rfl
  | cons v values ih =>
    cases values with
    | nil => rfl
    | cons w values =>
      simp only [List.map_cons, Fragment.separated, List.singleton_append, Fragment.values] at ih ⊢
      rw [ih]

theorem toList_sql_isIn (c : ColumnName) (keys : List Value) :
    (Fragment.sql d 0 (d.condition (.isIn c keys))).toList = conditionText d c keys := by
  have hclose : ")".toList = [')'] := rfl
  rw [Dialect.condition, conditionText]
  split
  · simp only [Dialect.unmet, Fragment.sql, String.toList_append, String.append_empty, Glue.text,
      Glue.words]
  · simp only [List.cons_append, Fragment.sql, sql_append, String.toList_append,
      String.append_empty, List.append_assoc, hclose, keysText, Glue.text, Glue.words]

theorem toList_sql_render (l : Lookup) (keys : List Value) :
    (d.render (l.select keys)).sql.toList =
      Glue.select.text ++ (listText d l.columns ++ (Glue.table.text ++ ((d.quoted l.table).toList ++
        (joinText d l.join ++ (Glue.filter.text ++
          (conditionText d l.key keys ++ nullText d l.null)))))) := by
  have hconditions : (Fragment.sql d 0 (Fragment.separated " AND "
      ((l.select keys).conditions.map d.condition))).toList =
        conditionText d l.key keys ++ nullText d l.null := by
    rw [← toList_sql_isIn]
    cases hnull : l.null with
    | none =>
      simp only [Lookup.select, hnull, Option.toList_none, List.map_nil, List.map_cons,
        Fragment.separated, nullText, List.append_nil]
    | some c =>
      have hc : d.condition (.isNull c) = [.text (d.column c ++ " IS NULL")] := rfl
      simp only [Lookup.select, hnull, Option.toList_some, List.map_nil, List.map_cons,
        Fragment.separated, hc, sql_append, Fragment.sql, String.toList_append,
        String.append_empty, nullText, Glue.text, Glue.words]
  have hfragments : ∃ joined, joined.toList = joinText d l.join ∧
      d.fragments (l.select keys) = .text ("SELECT " ++
        ", ".intercalate (l.columns.map d.selected) ++ " FROM " ++ d.quoted l.table ++ joined) ::
          .text " WHERE " ::
            Fragment.separated " AND " ((l.select keys).conditions.map d.condition) := by
    cases hj : l.join with
    | none => exact ⟨"", rfl, by simp [Dialect.fragments, Lookup.select, hj]⟩
    | some j => exact ⟨d.join j, rfl, by simp [Dialect.fragments, Lookup.select, hj]⟩
  obtain ⟨joined, hjoin, hfragments⟩ := hfragments
  rw [Dialect.render, hfragments]
  simp only [Fragment.sql, String.toList_append, hjoin, hconditions, listText, List.append_assoc,
    Glue.text, Glue.words]

theorem values_render (l : Lookup) {keys : List Value} (hkeys : keys ≠ []) :
    (d.render (l.select keys)).values = keys := by
  have hnull : ∀ c, Fragment.values (d.condition (.isNull c)) = [] := fun _ => rfl
  have hlist : Fragment.values (d.condition (.isIn l.key keys)) = keys := by
    simp [Dialect.condition, hkeys, Fragment.values, values_append, values_bound]
  cases h : l.null with
  | none =>
    simp [Dialect.render, Dialect.fragments, Lookup.select, h, Fragment.separated,
      Fragment.values, hlist]
  | some c =>
    simp [Dialect.render, Dialect.fragments, Lookup.select, h, Fragment.separated, values_append,
      Fragment.values, hlist, hnull]

end

end RecordGraph.Store
