import RecordGraph.Pattern.Basic

/-!
# The size of a pattern

A pattern is run by an automaton, and its size is the memory in bytes that the states of the
automaton take. A repetition with bounds holds its body as often as it may have to be passed.
-/

namespace RecordGraph

/-- A state of an automaton without the list of its successors. -/
def stateSize : Nat := 32

/-- A state with several successors. -/
def forkSize (successors : Nat) : Nat := stateSize + 4 * successors

/-- The states that read one character of a set. A character beyond ASCII takes several bytes, and
a set of such characters a table of some states for every range. -/
def Charset.size (s : Charset) : Nat :=
  match s.ranges with
  | [] => stateSize
  | [(a, b)] =>
    if a = b then stateSize * (Char.ofNat a).utf8Size
    else if s.isAscii then 2 * stateSize else 11 * stateSize + 2 * stateSize
  | rs =>
    if s.isAscii then 2 * stateSize + 8 * rs.length else 11 * stateSize + 2 * stateSize * rs.length

namespace Pattern

mutual

def isVoid : Pattern → Bool
  | switch => true
  | chars _ _ => false
  | place _ => true
  | group _ p => p.isVoid
  | repeated p _ most => p.isVoid || most = some 0
  | sequence ps => allVoid ps
  | choice ps => allVoid ps

def allVoid : List Pattern → Bool
  | [] => true
  | p :: ps => p.isVoid && allVoid ps

end

mutual

def mayBeEmpty : Pattern → Bool
  | switch => true
  | chars _ _ => false
  | place _ => true
  | group _ p => p.mayBeEmpty
  | repeated p least _ => p.mayBeEmpty || least = 0
  | sequence ps => allMayBeEmpty ps
  | choice ps => anyMayBeEmpty ps

def allMayBeEmpty : List Pattern → Bool
  | [] => true
  | p :: ps => p.mayBeEmpty && allMayBeEmpty ps

def anyMayBeEmpty : List Pattern → Bool
  | [] => false
  | p :: ps => p.mayBeEmpty || anyMayBeEmpty ps

end

/-- The size of a repetition by the size of its body. -/
def repeatedSize (body : Nat) (mayBeEmpty : Bool) : Nat → Option Nat → Nat
  | 0, some 0 => stateSize
  | 0, none =>
    if mayBeEmpty then body + 2 * forkSize 2 + stateSize else body + forkSize 2
  | least, none => least * body + forkSize 2
  | least, some most =>
    if least = most then least * body
    else least * body + (most - least) * (body + forkSize 2) + stateSize

mutual

def size : Pattern → Nat
  | switch => 0
  | chars _ set => set.size
  | place _ => stateSize
  | group captured p => p.size + if captured then 2 * stateSize else 0
  | repeated p least most =>
    if p.isVoid then repeatedSize p.size true (min least 1) (some (min (most.getD 1) 1))
    else repeatedSize p.size p.mayBeEmpty least most
  | sequence [] => stateSize
  | sequence ps => totalSize ps
  | choice ps => totalSize ps + forkSize ps.length + stateSize

def totalSize : List Pattern → Nat
  | [] => 0
  | p :: ps => p.size + totalSize ps

end

/-- The states that every automaton has besides: the search for the beginning and the match. -/
def frameSize : Nat := 5 * stateSize + forkSize 2

/-- The bytes that an automaton may take. -/
def sizeLimit : Nat := 10 * 1024 * 1024

/-- Whether a pattern stays within the bounds on its depth and its size. -/
def isSmall (p : Pattern) : Bool := p.depth ≤ depthLimit && p.size + frameSize ≤ sizeLimit

end Pattern

end RecordGraph
