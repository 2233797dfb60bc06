/-!
# Tables of code points

A Unicode property is a set of code points. It is held as an array of closed ranges, or of runs
with a step where letters of two kinds alternate.
-/

namespace RecordGraph.Text

/-- The code points `first, first + step, …, last`. -/
structure Run where
  first : Nat
  last : Nat
  step : Nat

def Run.has (r : Run) (n : Nat) : Bool :=
  r.first ≤ n && n ≤ r.last && (n - r.first) % r.step == 0

/-- Whether a code point lies in one of the closed ranges. -/
def inRanges (ranges : Array (Nat × Nat)) (n : Nat) : Bool :=
  ranges.any fun r => r.1 ≤ n && n ≤ r.2

/-- Whether a code point lies on one of the runs. -/
def inRuns (runs : Array Run) (n : Nat) : Bool :=
  runs.any fun r => r.has n

end RecordGraph.Text
