import RecordGraph.Preload.Handler
import RecordGraph.Schema.Registry

/-!
# Plans

The paths of all handlers, with the levels that they imply, make a plan: one step for each distinct
path, ordered by depth and then by the text of the path, so that a step comes after its parent. A
step belongs to the first handler that asks for exactly its path.
-/

namespace RecordGraph

variable {M : Type} [DecidableEq M]

/-- One level of a path. -/
structure Step (M : Type) where
  /-- The names of the relations from the root. -/
  names : List String
  relation : Relation M
  target : Schema M
  handler : Option Handler

namespace Step

def depth (s : Step M) : Nat := s.names.length

def path (s : Step M) : String := Text.joinDots s.names

/-- The path of the owners; it is empty for the roots. -/
def parentPath (s : Step M) : String := Text.joinDots s.names.dropLast

def before (s t : Step M) : Bool :=
  s.depth < t.depth || (s.depth = t.depth && s.path < t.path)

end Step

abbrev Plan (M : Type) := List (Step M)

namespace Plan

/-- Adds a step in its place. If there is one with the same path, that one stays, and takes the
handler of the new one if it has none. -/
def insert (s : Step M) : Plan M → Plan M
  | [] => [s]
  | t :: rest =>
    if t.names = s.names then
      { t with handler := if t.handler.isSome then t.handler else s.handler } :: rest
    else if s.before t then s :: t :: rest
    else t :: insert s rest

/-- Adds the steps of a handler from a level on: `done` holds the names up to there, which lead to
the schema `owner`. Schemas on the way are built as needed. -/
def addNames (F : Family M) (h : Handler) (done : List String) (owner : Schema M) :
    List String → Registry M → Plan M → Attempt (Registry M) (Plan M)
  | [], R, plan => .done R plan
  | name :: rest, R, plan =>
    match owner.relation? name with
    | none => .failed R (.invalidRelationPath h.path name owner.modelName)
    | some r =>
      let a := R.schemaFor F r.target
      match a.result with
      | .error e => .failed a.state e
      | .ok target =>
        let names := done ++ [name]
        let step : Step M := ⟨names, r, target, if rest.isEmpty then some h else none⟩
        addNames F h names target rest a.state (insert step plan)

def addHandlers (F : Family M) (root : Schema M) :
    List Handler → Registry M → Plan M → Attempt (Registry M) (Plan M)
  | [], R, plan => .done R plan
  | h :: rest, R, plan =>
    let a := addNames F h [] root (Text.segments h.path) R plan
    match a.result with
    | .error e => .failed a.state e
    | .ok plan => addHandlers F root rest a.state plan

def ofHandlers (F : Family M) (root : Schema M) (handlers : List Handler) (R : Registry M) :
    Attempt (Registry M) (Plan M) := addHandlers F root handlers R []

end Plan

end RecordGraph
