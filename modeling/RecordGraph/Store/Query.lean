import RecordGraph.Store.Phrase
import RecordGraph.Text.Digits
import RecordGraph.Value.Key

/-!
# Queries

What the store reads from the text of a select statement: the table, the selected columns, one
join, one list of keys, the columns that have to be null and one column to order by. All else in
the text is passed over.
-/

namespace RecordGraph.Store

structure Query where
  table : String
  columns : List Selected
  join : Option Join
  /-- A column with the keys that it may have. -/
  filter : Option (ColumnName × List Key)
  nulls : List ColumnName
  order : Option (String × Direction)
  deriving Repr

namespace Query

/-! ### Phrases of a statement -/

def fromPhrase : Phrase String := do
  Phrase.words " FROM "
  Phrase.name

def selectedPhrase : Phrase Selected := do
  let source ← Phrase.column
  let label ← (Phrase.words " AS " *> some <$> Phrase.name) <|> pure none
  return ⟨source, label⟩

def joinPhrase : Phrase Join := do
  Phrase.words "INNER JOIN "
  let table ← Phrase.name
  Phrase.words " ON "
  let left ← Phrase.column
  Phrase.words " = "
  let right ← Phrase.column
  return ⟨table, left, right⟩

/-- A column and the text of the list that it has to be in. -/
def inPhrase : Phrase (ColumnName × List Char) := do
  let c ← Phrase.column
  Phrase.words " IN ("
  let inside ← Text.cut (· == ')')
  return (c, inside)

def isNullPhrase : Phrase ColumnName := do
  let c ← Phrase.column
  Phrase.words " IS NULL"
  return c

def directionPhrase : Phrase Direction :=
  (Phrase.words "ASC" *> pure .ascending) <|> (Phrase.words "DESC" *> pure .descending)

/-- The column to order by; its table does not matter. -/
def orderPhrase : Phrase (String × Direction) := do
  Phrase.words "ORDER BY "
  let column ← (ColumnName.column <$> Phrase.column) <|> Phrase.name
  Phrase.words " "
  let direction ← directionPhrase
  return (column, direction)

/-! ### The selected columns -/

/-- The items between commas that a blank follows. -/
def items : List Char → List (List Char)
  | [] => [[]]
  | ',' :: ' ' :: rest => [] :: items rest
  | c :: rest =>
    match items rest with
    | [] => [[c]]
    | i :: is => (c :: i) :: is

/-- The text between the words at the beginning and at the end of the selected columns; it is on
one line. -/
def listing? (sql : List Char) : Option (List Char) := do
  let (_, rest) ← Phrase.words "SELECT " sql
  let (list, _) ← (Phrase.words " FROM ").find? rest
  guard (!list.contains '\n')
  return list

/-- The selected columns of a list; other items are left out. -/
def selected (list : List Char) : List Selected := (items list).filterMap selectedPhrase.whole?

/-! ### Placeholders -/

/-- A placeholder: with the number of its value, or for the next value. -/
inductive Placeholder where
  | numbered (n : Option Nat)
  | next
  deriving DecidableEq, Repr

/-- The number of a value, counted from one. -/
def number? (digits : List Char) : Option Nat :=
  if digits.all Char.isDigit then some (Text.digitsValue digits) else none

/-- The placeholders of a text, in order. -/
def placeholders : List Char → List Placeholder
  | [] => []
  | c :: rest =>
    if c = '?' then .next :: placeholders rest
    else if c = '$' ∧ (rest.takeWhile Text.isDecimalDigit) ≠ [] then
      .numbered (number? (rest.takeWhile Text.isDecimalDigit)) :: placeholders rest
    else placeholders rest

/-- The place of the value of a placeholder, which is the one with a number among those of its
list. `before` is the number of values bound before the list. -/
def Placeholder.place? (before place : Nat) : Placeholder → Option Nat
  | numbered (some (n + 1)) => some n
  | numbered _ => none
  | next => some (before + place)

/-- The keys of the values bound in a list. Values without a key are left out. -/
def keys (before : Nat) (values : List Value) (inside : List Char) : List Key :=
  (placeholders inside).zipIdx.filterMap fun p => do
    let i ← p.1.place? before p.2
    let v ← values[i]?
    Key.ofValue? v

/-- The first list of keys. The values bound before it are counted by their question marks. -/
def filter? (sql : List Char) (values : List Value) : Option (ColumnName × List Key) :=
  (inPhrase.find? sql).map fun r =>
    (r.2.1.1, keys (r.1.count '?') values r.2.1.2)

/-! ### Statements -/

/-- The query of a statement that names its columns and its table. -/
def ofStatement? (s : Statement) : Option Query := do
  let sql := s.sql.toList
  let table ← fromPhrase.first? sql
  let list ← listing? sql
  return {
    table
    columns := selected list
    join := joinPhrase.first? sql
    filter := filter? sql s.values
    nulls := isNullPhrase.findAll sql
    order := orderPhrase.first? sql }

end Query

end RecordGraph.Store
