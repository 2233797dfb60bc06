import RecordGraph.Executor
import RecordGraph.Sql.Dialect

/-!
# Select statements

A statement that selects columns of a table, perhaps joined with another one, under conditions that
all have to hold. It is rendered as text with placeholders, which are numbered in the order of the
values bound to them.
-/

namespace RecordGraph

structure ColumnName where
  table : String
  column : String
  deriving DecidableEq, Repr

/-- A selected column, perhaps under another name. -/
structure Selected where
  source : ColumnName
  label : Option String
  deriving DecidableEq, Repr

/-- An inner join: the table that is joined, and two columns that have to be equal. -/
structure Join where
  table : String
  left : ColumnName
  right : ColumnName
  deriving DecidableEq, Repr

inductive Condition where
  | isIn (c : ColumnName) (values : List Value)
  | isNull (c : ColumnName)
  | equals (c : ColumnName) (v : Value)

inductive Direction where
  | ascending | descending
  deriving DecidableEq, Repr

structure Select where
  columns : List Selected
  table : String
  join : Option Join
  conditions : List Condition
  order : List (ColumnName × Direction)
  limit : Option Nat

namespace Select

/-- The statement under one more condition. -/
def andWhere (s : Select) (c : Condition) : Select := { s with conditions := s.conditions ++ [c] }

/-- The statement with rows ordered by one more column. -/
def orderBy (s : Select) (c : ColumnName) (d : Direction) : Select :=
  { s with order := s.order ++ [(c, d)] }

/-- The statement with at most a number of rows. -/
def withLimit (s : Select) (n : Nat) : Select := { s with limit := some n }

end Select

/-! ### Rendering -/

/-- A part of a rendered statement: text, or a bound value with its placeholder. -/
inductive Fragment where
  | text (s : String)
  | bound (v : Value)

namespace Fragment

/-- The text of fragments, with placeholders numbered from the one after `count`. -/
def sql (d : Dialect) (count : Nat) : List Fragment → String
  | [] => ""
  | text s :: rest => s ++ sql d count rest
  | bound _ :: rest => d.placeholder (count + 1) ++ sql d (count + 1) rest

def values : List Fragment → List Value
  | [] => []
  | text _ :: rest => values rest
  | bound v :: rest => v :: values rest

/-- Lists of fragments with a text between any two of them. -/
def separated (separator : String) : List (List Fragment) → List Fragment
  | [] => []
  | [fs] => fs
  | fs :: rest => fs ++ text separator :: separated separator rest

end Fragment

namespace Dialect

def quoted (d : Dialect) (s : String) : String :=
  String.ofList (d.quote :: s.toList.flatMap (fun c => if c = d.quote then [c, c] else [c])
    ++ [d.quote])

def column (d : Dialect) (c : ColumnName) : String := d.quoted c.table ++ "." ++ d.quoted c.column

def selected (d : Dialect) (s : Selected) : String :=
  match s.label with
  | some label => d.column s.source ++ " AS " ++ d.quoted label
  | none => d.column s.source

def join (d : Dialect) (j : Join) : String :=
  " INNER JOIN " ++ d.quoted j.table ++ " ON " ++ d.column j.left ++ " = " ++ d.column j.right

/-- A comparison that never holds, which stands for the choice among no values. -/
def unmet : List Fragment :=
  [.bound (.int .i32 (some ⟨1, by decide⟩)), .text " = ",
    .bound (.int .i32 (some ⟨2, by decide⟩))]

def condition (d : Dialect) : Condition → List Fragment
  | .isIn c values =>
    if values.isEmpty then unmet
    else .text (d.column c ++ " IN (")
      :: Fragment.separated ", " (values.map fun v => [.bound v]) ++ [.text ")"]
  | .isNull c => [.text (d.column c ++ " IS NULL")]
  | .equals c v => [.text (d.column c ++ " = "), .bound v]

def ordered (d : Dialect) (o : ColumnName × Direction) : String :=
  d.column o.1 ++ match o.2 with
    | .ascending => " ASC"
    | .descending => " DESC"

/-- The greatest width is enough for a limit; a greater number cannot be given. -/
def limitValue (n : Nat) : Value := .int .u64 (IntType.ofInt? .u64 n)

def fragments (d : Dialect) (s : Select) : List Fragment :=
  [.text ("SELECT " ++ ", ".intercalate (s.columns.map d.selected) ++ " FROM " ++ d.quoted s.table
    ++ match s.join with
      | some j => d.join j
      | none => "")]
  ++ (if s.conditions.isEmpty then []
      else .text " WHERE " :: Fragment.separated " AND " (s.conditions.map d.condition))
  ++ (if s.order.isEmpty then []
      else [.text (" ORDER BY " ++ ", ".intercalate (s.order.map d.ordered))])
  ++ match s.limit with
    | some n => [.text " LIMIT ", .bound (limitValue n)]
    | none => []

def render (d : Dialect) (s : Select) : Statement :=
  ⟨Fragment.sql d 0 (d.fragments s), Fragment.values (d.fragments s)⟩

end Dialect

end RecordGraph
