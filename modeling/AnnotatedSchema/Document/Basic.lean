import AnnotatedSchema.Error
import AnnotatedSchema.Json.Value
import AnnotatedSchema.Model

/-!
Schema documents: models, and entries for the pragmas, tables and indexes of a script. Entries name
models, so a document can be well formed and yet ask for a model that it does not have.
-/

namespace AnnotatedSchema

structure PragmaEntry where
  name : Text
  schema : Option Text
  value : Option Json
  argument : Option Json

/-- A table may refer to the models listed, or to every model if none is. -/
structure TableEntry where
  model : Text
  references : List Text
  temporary : Bool
  ifNotExists : Bool
  withoutRowid : Bool
  strict : Bool
  schema : Option Text
  deriving DecidableEq

structure IndexEntry where
  name : Text
  table : Text
  columns : List Text
  unique : Bool
  ifNotExists : Bool
  schema : Option Text
  predicate : Option Text
  deriving DecidableEq

structure Document where
  name : Text
  pragmas : List PragmaEntry
  models : List Model
  tables : List TableEntry
  indexes : List IndexEntry

/-- Why a document cannot be read or turned into SQL. -/
inductive DocumentError where
  /-- The text is no document. -/
  | unreadable
  /-- An entry, or the command line, names a model that the document does not have. -/
  | unknownModel (name : Text)
  /-- A pragma has both a value and an argument. -/
  | valueAndArgument (pragma : Text)
  /-- The value or argument of a pragma is no string, number or boolean. -/
  | notScalar (j : Json)
  /-- A model or a table is at fault. -/
  | schema (e : SchemaError)

def DocumentError.message : DocumentError → Text
  | unreadable => "failed to parse schema document"
  | unknownModel name => "unknown model '" ++ name ++ "'"
  | valueAndArgument pragma => "pragma '" ++ pragma ++ "' has both a value and an argument"
  | notScalar j => "expected a string, number or boolean, found " ++ j.toText
  | schema e => e.message

end AnnotatedSchema
