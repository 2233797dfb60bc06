import RecordGraph.Pattern.Basic

/-!
# Searching for a pattern

A pattern is followed through a text from all places at once. A set of places is a number: the
place before the character with index `i` is bit `i`, and the end of the text is the last bit.
-/

namespace RecordGraph

/-! ### Conditions on places -/

def inWord (unicode : Bool) (c : Option Char) : Bool :=
  c.any fun c => if unicode then Text.isWordChar c else c.isAlphanum || c == '_'

/-- Whether a condition holds between two characters, of which an end of the text has one. -/
def Place.holds (p : Place) (before after : Option Char) : Bool :=
  match p with
  | textStart => before.isNone
  | textEnd => after.isNone
  | lineStart false => before.isNone || before = some '\n'
  | lineStart true =>
    before.isNone || before = some '\n' || (before = some '\r' && after ≠ some '\n')
  | lineEnd false => after.isNone || after = some '\n'
  | lineEnd true => after.isNone || after = some '\r' || (after = some '\n' && before ≠ some '\r')
  | wordBoundary unicode => inWord unicode before != inWord unicode after
  | noWordBoundary unicode => inWord unicode before == inWord unicode after
  | word unicode first second =>
    first.all (· == inWord unicode before) && second.all (· == inWord unicode after)

/-- The places of a text between whose characters a condition holds. -/
def placesWhere (holds : Option Char → Option Char → Bool) :
    Option Char → List Char → Nat
  | before, [] => (holds before none).toNat
  | before, c :: rest =>
    (holds before (some c)).toNat + 2 * placesWhere holds (some c) rest

/-! ### Following a pattern -/

namespace Pattern

/-- Takes a step a number of times, or until it changes nothing more. -/
def iterate (step : Nat → Nat) : Nat → Nat → Nat
  | 0, places => places
  | n + 1, places =>
    let reached := step places
    if reached = places then places else iterate step n reached

/-- All places reached by at most a number of steps. -/
def spread (step : Nat → Nat) : Nat → Nat → Nat
  | 0, places => places
  | n + 1, places =>
    let reached := places ||| step places
    if reached = places then places else spread step n reached

mutual

/-- The places of a text at which a pattern may end that begins at one of the given places. -/
def follow (text : List Char) : Pattern → Nat → Nat
  | switch, places => places
  | chars _ set, places => (places &&& placesWhere (fun _ c => c.any set.contains) none text) <<< 1
  | place p, places => places &&& placesWhere p.holds none text
  | group _ p, places => follow text p places
  | repeated p least most, places =>
    let more := match most with
      | some n => min (n - least) (text.length + 1)
      | none => text.length + 1
    spread (follow text p) more (iterate (follow text p) least places)
  | sequence ps, places => followAll text ps places
  | choice ps, places => followAny text ps places

def followAll (text : List Char) : List Pattern → Nat → Nat
  | [], places => places
  | p :: ps, places => followAll text ps (follow text p places)

def followAny (text : List Char) : List Pattern → Nat → Nat
  | [], _ => 0
  | p :: ps, places => follow text p places ||| followAny text ps places

end

/-- Whether a pattern stands for some part of a text. -/
def occursIn (p : Pattern) (s : String) : Bool :=
  follow s.toList p ((1 <<< (s.toList.length + 1)) - 1) ≠ 0

end Pattern

end RecordGraph
