import RecordGraph.Config.Basic
import RecordGraph.Error
import RecordGraph.Model.Family
import RecordGraph.Schema.Field
import RecordGraph.Text.Words

/-!
# Analysis of a model

The first step towards a schema looks at one model alone. Every declared field is a mapped column,
an excluded column, an association, or is dropped, and the keys are picked among the mapped columns.
-/

namespace RecordGraph

variable {M : Type}

/-- An association of a model, before it is known how its records are found. -/
structure Association (M : Type) where
  name : String
  index : Nat
  target : M
  isCollection : Bool
  through : Option M
  /-- The name or the column of the foreign key to use. -/
  hint : Option String
  deriving DecidableEq, Repr

inductive FieldRole (M : Type) where
  | mapped (f : Field)
  | excluded (f : Field)
  | association (a : Association M)
  | dropped
  deriving DecidableEq, Repr

namespace FieldRole

/-- The field of a column, mapped or excluded. -/
def field? : FieldRole M → Option Field
  | mapped f => some f
  | excluded f => some f
  | _ => none

def association? : FieldRole M → Option (Association M)
  | association a => some a
  | _ => none

end FieldRole

/-- What is known of a model by itself. -/
structure Analysis (M : Type) where
  model : M
  /-- The columns, mapped and excluded, in the order of declaration. -/
  fields : List Field
  primaryKey : PrimaryKey
  foreignKeys : List ForeignKey
  associations : List (Association M)
  deriving DecidableEq, Repr

/-! ### Roles -/

namespace Family

variable (F : Family M) (defaults : KeyDefaults) (options : TagOptions)

def excludedField (m : M) (index : Nat) (d : FieldDecl M) (T : ColumnType) (tags : Tags) :
    Field where
  model := (F.model m).name
  table := (F.model m).table
  name := d.name
  index := index
  column := Text.snakeCase d.name
  kind := T.kind
  isNullable := T.isNullable
  tags := tags
  isPrimaryKey := false
  foreignKey := none
  isExcluded := true
  default := none
  hasDefault := false
  isCreatedKey := false
  isUpdatedKey := false
  isDeletedKey := false

def mappedField (m : M) (index : Nat) (d : FieldDecl M) (T : ColumnType) (tags : Tags) : Field :=
  let tag := tags.value? options.name
  let column := (tag Tags.columnKey).getD (Text.snakeCase d.name)
  let isCreatedKey : Bool := column = defaults.createdKey
  let isUpdatedKey : Bool := column = defaults.updatedKey
  { model := (F.model m).name
    table := (F.model m).table
    name := d.name
    index := index
    column := column
    kind := T.kind
    isNullable := T.isNullable
    tags := tags
    isPrimaryKey := (tag Tags.primaryKey).isSome
    foreignKey := tag Tags.foreignKey
    isExcluded := false
    default := (tag Tags.defaultKey).filter fun s => s ≠ Tags.trueValue
    hasDefault := (tag Tags.defaultKey).isSome || isCreatedKey || isUpdatedKey
    isCreatedKey := isCreatedKey
    isUpdatedKey := isUpdatedKey
    isDeletedKey := column = defaults.deletedKey }

def associationRole (m : M) (index : Nat) (d : FieldDecl M) (tags : Tags) (target : M)
    (isCollection : Bool) (through : Option M) : Except Error (FieldRole M) :=
  let tag := tags.value? options.name
  if (tag Tags.excludedKey).isSome then .ok .dropped
  else if (tag Tags.primaryKey).isSome then
    .error (.invalidAssociation (F.model m).name d.name "a primary key cannot be an association")
  else
    .ok (.association ⟨d.name, index, target, isCollection, through, tag Tags.relationKey⟩)

def role (m : M) (index : Nat) (d : FieldDecl M) : Except Error (FieldRole M) :=
  let tags := Tags.ofAnnotation options d.annotation
  let tag := tags.value? options.name
  match d.type with
  | .column T =>
    if (tag Tags.excludedKey).isSome then .ok (.excluded (F.excludedField m index d T tags))
    else if tag Tags.foreignKey = some Tags.trueValue then
      .error (.unresolvableReference (F.model m).name d.name "")
    else .ok (.mapped (F.mappedField defaults options m index d T tags))
  | .reference target _ => F.associationRole options m index d tags target false none
  | .collection target through => F.associationRole options m index d tags target true through

/-- The roles of declared fields from a place on. `first` is the field that was marked as the
primary key before; a second one is an error. -/
def roles (m : M) (first : Option String) (index : Nat) :
    List (FieldDecl M) → Except Error (List (FieldRole M))
  | [] => .ok []
  | d :: rest =>
    match F.role defaults options m index d with
    | .error e => .error e
    | .ok r =>
      let marked := match r with
        | .mapped f => f.isPrimaryKey
        | _ => false
      match marked, first with
      | true, some first => .error (.duplicatePrimaryKey (F.model m).name first d.name)
      | _, _ =>
        match roles m (if marked then some d.name else first) (index + 1) rest with
        | .error e => .error e
        | .ok rs => .ok (r :: rs)

/-! ### Keys -/

/-- The place of the primary key among the columns: the marked one, else the first mapped one with
the column of the model or the conventional one. -/
def keyPlace? (m : M) (fields : List Field) : Option Nat :=
  match fields.findIdx? fun f => f.isPrimaryKey with
  | some i => some i
  | none =>
    let column := (F.model m).primaryKey.getD defaults.primaryKey
    fields.findIdx? fun f => !f.isExcluded && f.column = column

end Family

/-- The primary key in a field; a nullable one or one of another kind is an error. -/
def PrimaryKey.ofField (f : Field) (tagName : String) : Except Error PrimaryKey :=
  let refused : Error := .invalidPrimaryKeyType f.model f.name
    (if f.isNullable then "nullable " ++ f.kind.name else f.kind.name)
  match KeyType.ofKind? f.kind with
  | none => .error refused
  | some keyType =>
    if f.isNullable then .error refused
    else
      let tag := (f.tags.value? tagName Tags.primaryKey).getD ""
      .ok ⟨f, keyType, (KeyStrategy.ofTag? tag).getD .database⟩

/-- The foreign key in a field, if it is marked as one. -/
def ForeignKey.ofField? (f : Field) : Except Error (Option ForeignKey) :=
  match f.foreignKey with
  | none => .ok none
  | some reference =>
    match KeyType.ofKind? f.kind with
    | none => .error (.invalidForeignKeyType f.model f.name f.kind.name)
    | some keyType => .ok (some ⟨f, reference, keyType⟩)

def ForeignKey.ofFields : List Field → Except Error (List ForeignKey)
  | [] => .ok []
  | f :: rest =>
    match ForeignKey.ofField? f with
    | .error e => .error e
    | .ok k =>
      match ofFields rest with
      | .error e => .error e
      | .ok ks => .ok (k.toList ++ ks)

/-! ### The analysis -/

def Family.analyze (F : Family M) (defaults : KeyDefaults) (options : TagOptions) (m : M) :
    Except Error (Analysis M) :=
  match F.roles defaults options m none 0 (F.model m).fields with
  | .error e => .error e
  | .ok roles =>
    let declared := roles.filterMap FieldRole.field?
    match F.keyPlace? defaults m declared with
    | none => .error (.missingPrimaryKey (F.model m).name)
    | some place =>
      let fields := declared.modify place fun f => { f with isPrimaryKey := true }
      match fields[place]? with
      | none => .error (.missingPrimaryKey (F.model m).name)
      | some keyField =>
        match PrimaryKey.ofField keyField options.name with
        | .error e => .error e
        | .ok primaryKey =>
          match ForeignKey.ofFields fields with
          | .error e => .error e
          | .ok foreignKeys =>
            .ok ⟨m, fields, primaryKey, foreignKeys, roles.filterMap FieldRole.association?⟩

end RecordGraph
