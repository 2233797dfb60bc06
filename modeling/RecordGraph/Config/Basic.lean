import RecordGraph.Sql.Dialect
import RecordGraph.Tag.Reader

/-!
# Configuration

The conventions that hold where a model does not state its own: the columns with a meaning, the
reading of annotations and the dialect of the statements.
-/

namespace RecordGraph

/-- The columns with a meaning. -/
structure KeyDefaults where
  primaryKey : String
  createdKey : String
  updatedKey : String
  deletedKey : String
  deriving DecidableEq, Repr

def KeyDefaults.standard : KeyDefaults := ⟨"id", "created_at", "updated_at", "deleted_at"⟩

instance : Inhabited KeyDefaults := ⟨KeyDefaults.standard⟩

structure Config where
  schema : KeyDefaults
  tags : TagOptions
  dialect : Dialect
  deriving DecidableEq, Repr

def Config.standard : Config := ⟨.standard, .standard, .postgres⟩

instance : Inhabited Config := ⟨Config.standard⟩

end RecordGraph
