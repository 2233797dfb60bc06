import RecordGraph.Text.Pieces
import RecordGraph.Value.Basic

/-!
# Rows

A row lists columns with their values. A column may be named with the table before a dot, or bare.
-/

namespace RecordGraph

structure Row where
  cells : List (String × Value)
  deriving Inhabited, Repr

namespace Row

def empty : Row := ⟨[]⟩

def columns (r : Row) : List String := r.cells.map Prod.fst

def length (r : Row) : Nat := r.cells.length

def isEmpty (r : Row) : Bool := r.cells.isEmpty

/-- Whether two names can mean one column: they are equal, or equal after their last dot. -/
def sameColumn (a b : String) : Bool := a = b || Text.bareName a = Text.bareName b

/-- The value of the first column that a name can mean. -/
def get? (r : Row) (name : String) : Option Value :=
  (r.cells.find? fun c => sameColumn c.1 name).map Prod.snd

end Row

end RecordGraph
