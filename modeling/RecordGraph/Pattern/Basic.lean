import RecordGraph.Pattern.Charset

/-!
# Patterns

A pattern is a regular expression, by which statements are selected: a tree over sets of characters
and conditions on places. Two bounds keep patterns small: how deep they are nested, and how much
memory the automaton takes that runs them.
-/

namespace RecordGraph

/-- A condition on a place in a text, which lies between two characters or at an end. -/
inductive Place where
  | textStart
  | textEnd
  /-- The beginning of a line; a carriage return too may end a line. -/
  | lineStart (carriageReturn : Bool)
  | lineEnd (carriageReturn : Bool)
  /-- Whether only one of the two characters belongs to a word. -/
  | wordBoundary (unicode : Bool)
  | noWordBoundary (unicode : Bool)
  /-- Whether the character before and the one after belong to a word; `none` asks for nothing. -/
  | word (unicode : Bool) (before after : Option Bool)
  deriving DecidableEq, Repr

inductive Pattern where
  /-- A change of modes, which stands for nothing. -/
  | switch
  /-- One character of a set, and how deep the set is nested as it is written. -/
  | chars (depth : Nat) (set : Charset)
  | place (p : Place)
  | group (captured : Bool) (body : Pattern)
  | repeated (body : Pattern) (least : Nat) (most : Option Nat)
  | sequence (parts : List Pattern)
  | choice (branches : List Pattern)
  deriving Inhabited, Repr

namespace Pattern

/-- A sequence; one part is the pattern itself. -/
def ofParts : List Pattern → Pattern
  | [p] => p
  | ps => sequence ps

/-! ### Nesting -/

mutual

def depth : Pattern → Nat
  | switch => 0
  | chars depth _ => depth
  | place _ => 0
  | group _ p => p.depth + 1
  | repeated p _ _ => p.depth + 1
  | sequence [] => 0
  | sequence ps => maxDepth ps + 1
  | choice ps => maxDepth ps + 1

def maxDepth : List Pattern → Nat
  | [] => 0
  | p :: ps => max p.depth (maxDepth ps)

end

def depthLimit : Nat := 250

end Pattern

end RecordGraph
