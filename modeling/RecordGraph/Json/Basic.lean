/-!
# JSON values

A document is a tree. A whole number of at most 64 bits is held exactly, any other number by the
bits of the nearest double. The members of an object are held in the order of their names, each
name once.
-/

namespace RecordGraph

inductive Json where
  | null
  | bool (b : Bool)
  | integer (n : Int)
  /-- A number that is no 64-bit integer, by the bits of a double. -/
  | real (bits : Nat)
  | text (s : String)
  | array (items : List Json)
  | object (members : List (String × Json))
  deriving Inhabited, Repr, BEq

namespace Json

/-- Sets a member of an object, in the order of names; a later value replaces an earlier one. -/
def insertMember (name : String) (value : Json) : List (String × Json) → List (String × Json)
  | [] => [(name, value)]
  | (n, v) :: rest =>
    if name < n then (name, value) :: (n, v) :: rest
    else if name = n then (name, value) :: rest
    else (n, v) :: insertMember name value rest

def member? (name : String) : List (String × Json) → Option Json
  | [] => none
  | (n, v) :: rest => if n = name then some v else member? name rest

def isNull : Json → Bool
  | null => true
  | _ => false

end Json

end RecordGraph
