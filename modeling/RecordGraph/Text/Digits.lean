/-!
# Decimal digits

The number that a run of decimal digits stands for.
-/

namespace RecordGraph.Text

/-- The number written by decimal digits. -/
def digitsValue (s : List Char) : Nat :=
  s.foldl (fun n c => 10 * n + (c.toNat - '0'.toNat)) 0

end RecordGraph.Text
