import RecordGraph.Relation.Basic
import RecordGraph.Text.Pieces
import RecordGraph.Text.Quoted

/-!
# Schemas

A schema is an analysed model with the relations of its associations. Relations are kept by name;
of two associations with one name the later one has the relation, but both names are listed.
-/

namespace RecordGraph

variable {M : Type}

structure Schema (M : Type) where
  model : M
  modelName : String
  table : String
  primaryKey : PrimaryKey
  fields : List Field
  foreignKeys : List ForeignKey
  /-- One relation for each name. -/
  relations : List (Relation M)
  /-- The names of the associations, in the order of declaration. -/
  relationNames : List String
  deriving DecidableEq, Repr

namespace Schema

/-- Adds a relation, in the place of one with the same name. -/
def insertRelation (r : Relation M) : List (Relation M) → List (Relation M)
  | [] => [r]
  | s :: rest => if s.name = r.name then r :: rest else s :: insertRelation r rest

def ofAnalysis (F : Family M) (a : Analysis M) (relations : List (Relation M)) : Schema M where
  model := a.model
  modelName := (F.model a.model).name
  table := (F.model a.model).table
  primaryKey := a.primaryKey
  fields := a.fields
  foreignKeys := a.foreignKeys
  relations := relations.foldl (fun rs r => insertRelation r rs) []
  relationNames := a.associations.map Association.name

def keys (s : Schema M) : ModelKeys M := ⟨s.model, s.primaryKey, s.foreignKeys⟩

/-! ### Columns -/

/-- The fields with a column in the table. -/
def mapped (s : Schema M) : List Field := s.fields.filter fun f => !f.isExcluded

def columns (s : Schema M) : List String := s.mapped.map Field.column

def columnPaths (s : Schema M) : List String := s.mapped.map Field.path

def field? (s : Schema M) (name : String) : Option Field :=
  s.fields.reverse.find? fun f => f.name = name

/-- The column that a name, bare or after the table and a dot, refers to in this table. -/
def bareColumn? (s : Schema M) (name : String) : Option String :=
  match Text.cut (· == '.') name.toList with
  | some (table, bare) =>
    if String.ofList table = s.table then some (String.ofList bare) else none
  | none => some name

/-- The first mapped field of a column. -/
def fieldByColumn? (s : Schema M) (name : String) : Option Field :=
  match s.bareColumn? name with
  | some column => s.mapped.find? fun f => f.column = column
  | none => none

def hasColumn (s : Schema M) (name : String) : Bool := (s.fieldByColumn? name).isSome

def createdKey? (s : Schema M) : Option Field := s.mapped.find? Field.isCreatedKey

def updatedKey? (s : Schema M) : Option Field := s.mapped.find? Field.isUpdatedKey

/-- The column that marks deleted records. -/
def deletedKey? (s : Schema M) : Option Field := s.mapped.find? Field.isDeletedKey

/-! ### Keys and relations -/

def foreignKey? (s : Schema M) (name : String) : Option ForeignKey :=
  s.foreignKeys.find? fun k => k.field.name = name

def relation? (s : Schema M) (name : String) : Option (Relation M) :=
  s.relations.find? fun r => r.name = name

def relationList (s : Schema M) : List (Relation M) := s.relationNames.filterMap s.relation?

/-! ### Comparison and description -/

/-- Whether two schemas say the same; the order of relations does not count. -/
def same [DecidableEq M] (s t : Schema M) : Bool :=
  s.model = t.model && s.table = t.table && s.primaryKey = t.primaryKey && s.fields = t.fields
    && s.foreignKeys = t.foreignKeys && s.relations.length = t.relations.length
    && s.relations.all fun r => t.relation? r.name = some r

def describe (s : Schema M) : String :=
  Family.group "Schema" [("model", Text.quoted s.modelName), ("table", Text.quoted s.table),
    ("primary_key", Text.quoted s.primaryKey.field.column),
    ("columns", Text.bracketed (s.columns.map Text.quoted)),
    ("relations", Text.bracketed (s.relationNames.map Text.quoted))]

end Schema

end RecordGraph
