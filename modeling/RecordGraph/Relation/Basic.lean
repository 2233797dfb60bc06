import RecordGraph.Schema.Analysis

/-!
# Relations

A relation says how the records of an association are found: the value of the source column of an
owner equals the value of the reference column of a target, directly or through a join table.
-/

namespace RecordGraph

variable {M : Type}

/-- How many records stand on either side. -/
inductive RelationKind where
  | oneToOne | oneToMany | manyToOne | manyToMany
  deriving DecidableEq, Repr

namespace RelationKind

def name : RelationKind → String
  | oneToOne => "one-to-one"
  | oneToMany => "one-to-many"
  | manyToOne => "many-to-one"
  | manyToMany => "many-to-many"

def isToOne : RelationKind → Bool
  | oneToOne | manyToOne => true
  | oneToMany | manyToMany => false

def all : List RelationKind := [oneToOne, oneToMany, manyToOne, manyToMany]

end RelationKind

/-- A column that takes part in a relation. -/
structure KeyRef where
  field : String
  column : String
  keyType : KeyType
  isOptional : Bool
  deriving DecidableEq, Repr

namespace KeyRef

def ofPrimary (k : PrimaryKey) : KeyRef := ⟨k.field.name, k.field.column, k.keyType, false⟩

def ofForeign (k : ForeignKey) : KeyRef := ⟨k.field.name, k.field.column, k.keyType, k.isOptional⟩

end KeyRef

/-- The table that links owners to targets. -/
structure Through (M : Type) where
  model : M
  table : String
  ownerColumn : String
  targetColumn : String
  deriving DecidableEq, Repr

/-- How the records of an association are found. -/
structure Relation (M : Type) where
  name : String
  /-- The place of the association among the declared fields. -/
  index : Nat
  kind : RelationKind
  owner : M
  /-- The column of the owner. -/
  source : KeyRef
  /-- The column of the target, or for a join the primary key of the target. -/
  reference : KeyRef
  target : M
  through : Option (Through M)
  deriving DecidableEq, Repr

/-! ### Inference -/

structure ModelKeys (M : Type) where
  model : M
  primaryKey : PrimaryKey
  foreignKeys : List ForeignKey
  deriving DecidableEq, Repr

def Analysis.keys (a : Analysis M) : ModelKeys M := ⟨a.model, a.primaryKey, a.foreignKeys⟩

namespace Family

variable (F : Family M)

/-- Whether a foreign key refers to a model and is the one that a hint names, if there is a hint. -/
def pointsAt (k : ForeignKey) (m : M) (hint : Option String) : Bool :=
  k.refersTo (F.model m).table (F.model m).name && match hint with
    | some h => k.field.name = h || k.field.column = h
    | none => true

/-- The first foreign key of one model that refers to another. -/
def linkTo? (source : ModelKeys M) (target : M) (hint : Option String) : Option ForeignKey :=
  source.foreignKeys.find? fun k => F.pointsAt k target hint

/-- The kind and the columns of the relation of an association. A reference looks for a key of the
owner on the target and then for one of the target on the owner; a collection for one of the target
on the owner; a collection through a join model for two keys of the join model with different
names. -/
def linkOf? (owner : ModelKeys M) (a : Association M) (target : ModelKeys M)
    (join : Option (ModelKeys M)) : Option (RelationKind × KeyRef × KeyRef × Option (Through M)) :=
  if a.isCollection then
    match join with
    | some join =>
      match F.linkTo? join owner.model a.hint with
      | none => none
      | some ownerKey =>
        match join.foreignKeys.find? fun k =>
            F.pointsAt k target.model none && k.field.name ≠ ownerKey.field.name with
        | none => none
        | some targetKey =>
          some (.manyToMany, .ofPrimary owner.primaryKey, .ofPrimary target.primaryKey,
            some ⟨join.model, (F.model join.model).table, ownerKey.field.column,
              targetKey.field.column⟩)
    | none =>
      match F.linkTo? target owner.model a.hint with
      | some k => some (.oneToMany, .ofPrimary owner.primaryKey, .ofForeign k, none)
      | none => none
  else
    match F.linkTo? owner target.model a.hint with
    | some k => some (.manyToOne, .ofForeign k, .ofPrimary target.primaryKey, none)
    | none =>
      match F.linkTo? target owner.model a.hint with
      | some k => some (.oneToOne, .ofPrimary owner.primaryKey, .ofForeign k, none)
      | none => none

/-- The reason why two columns cannot be compared. -/
def keyConflict (source reference : KeyRef) : String :=
  source.keyType.name ++ " key " ++ source.column ++ " cannot match " ++ reference.keyType.name
    ++ " key " ++ reference.column

def resolve (owner : ModelKeys M) (a : Association M) (target : ModelKeys M)
    (join : Option (ModelKeys M)) : Except Error (Relation M) :=
  match F.linkOf? owner a target join with
  | none =>
    .error (.unresolvableReference (F.model owner.model).name a.name (F.model target.model).name)
  | some (kind, source, reference, through) =>
    if source.keyType = reference.keyType then
      .ok ⟨a.name, a.index, kind, owner.model, source, reference, target.model, through⟩
    else
      .error (.invalidAssociation (F.model owner.model).name a.name (keyConflict source reference))

end Family

end RecordGraph
