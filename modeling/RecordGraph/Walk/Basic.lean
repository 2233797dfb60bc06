import RecordGraph.Record.Access
import RecordGraph.Text.Pieces

/-!
# Walking along paths

A path of association names leads from records to the records attached below them, level by level
and in order. Absent references and empty collections contribute nothing. A walk along a path reads
every record that it passes, so it fails at the first one that lacks the next association.
-/

namespace RecordGraph

variable {M : Type} [DecidableEq M]

namespace Family

variable (F : Family M)

/-- The records below one record in an association. -/
def children (name : String) (r : Record M) : Except Error (List (Record M)) :=
  match F.locate r name with
  | .error e => .error e
  | .ok (_, f, s) =>
    match s.records? with
    | some rs => .ok rs
    | none => .error (.typeMismatch (F.model r.model).name name "association" (f.type.typeName F))

/-- The records below a list of records in an association. -/
def follow (name : String) : List (Record M) → Except Error (List (Record M))
  | [] => .ok []
  | r :: rest =>
    match F.children name r with
    | .error e => .error e
    | .ok here =>
      match follow name rest with
      | .error e => .error e
      | .ok there => .ok (here ++ there)

/-- The records that a list of names leads to. -/
def reach : List String → List (Record M) → Except Error (List (Record M))
  | [], rs => .ok rs
  | name :: names, rs =>
    match F.follow name rs with
    | .error e => .error e
    | .ok below => reach names below

/-- The names of a walk; an empty one is an error. -/
def walkNames (path : String) : Except Error (List String) :=
  let names := Text.segments path
  if names.any String.isEmpty then .error (.fieldNotFound "" path) else .ok names

def collect (path : String) (roots : List (Record M)) : Except Error (List (Record M)) :=
  match walkNames path with
  | .error e => .error e
  | .ok names => F.reach names roots

def readAll (name : String) : List (Record M) → Except Error (List (FieldValue (Record M)))
  | [] => .ok []
  | r :: rest =>
    match F.getField r name with
    | .error e => .error e
    | .ok v =>
      match readAll name rest with
      | .error e => .error e
      | .ok vs => .ok (v :: vs)

/-- The contents of the field at the end of a path, of all records that the names before it lead
to. -/
def values (path : String) (roots : List (Record M)) :
    Except Error (List (FieldValue (Record M))) :=
  match walkNames path with
  | .error e => .error e
  | .ok names =>
    match F.reach names.dropLast roots with
    | .error e => .error e
    | .ok owners => F.readAll (names.getLast?.getD "") owners

end Family

end RecordGraph
