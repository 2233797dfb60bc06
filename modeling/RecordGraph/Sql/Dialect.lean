/-!
# Dialects

How the parts of a statement are spelled for a database: the mark around names and the
placeholders of bound values.
-/

namespace RecordGraph

/-- A database whose spelling is known. -/
inductive Dialect where
  | postgres | mysql | sqlite
  deriving DecidableEq, Repr, Inhabited

namespace Dialect

def name : Dialect → String
  | postgres => "Postgres"
  | mysql => "Mysql"
  | sqlite => "Sqlite"

def spelling : Dialect → String
  | postgres => "postgres"
  | mysql => "mysql"
  | sqlite => "sqlite"

def all : List Dialect := [postgres, mysql, sqlite]

def ofSpelling? (s : String) : Option Dialect := all.find? fun d => d.spelling = s

def quote : Dialect → Char
  | mysql => Char.ofNat 96
  | _ => '"'

/-- The placeholder of the bound value with a number, counted from one. -/
def placeholder : Dialect → Nat → String
  | postgres, n => "$" ++ toString n
  | _, _ => "?"

end Dialect

end RecordGraph
