import AnnotatedSchema.Annotation.Piece
import AnnotatedSchema.Storage

/-! Why a schema cannot be built. -/

namespace AnnotatedSchema

inductive SchemaError where
  /-- Two kinds of constraints that cannot share a column. -/
  | incompatible (column constraint existing : Text)
  /-- `AUTOINCREMENT` on a column that is not stored as an integer. -/
  | autoincrementRequiresIntegerKey (column : Text) (storage : Storage)
  /-- A second constraint of a kind that a column may have once. -/
  | duplicateConstraint (column constraint : Text)
  /-- No candidate model has the name after `REFERENCES`. -/
  | unresolvedReference (column target : Text)
  /-- A referenced column that the target model does not map. -/
  | unknownTargetColumn (target column : Text)
  /-- A column that the model does not map. -/
  | unknownColumn (model column : Text)
  /-- A `REFERENCES` clause without a keyword or a target. -/
  | invalidReference (column reason : Text)
  /-- An action of a `REFERENCES` clause that there is not. -/
  | invalidAction (column clause value : Text)
  /-- A constraint keyword without its argument. -/
  | missingExpression (column constraint expected : Text)
  /-- An annotation that cannot be cut into pieces. -/
  | malformed (column : Text) (fault : ScanFault)
  /-- A table without columns, constraints or query. -/
  | emptyTable (model : Text)
  /-- More or fewer referenced columns than owning columns. -/
  | columnCountMismatch (columns : Text) (expected found : Nat)
  /-- More or fewer results than conditions. -/
  | caseArity (conditions results : Nat)
  /-- An error in the annotation of a field. -/
  | inField (model field : Text) (cause : SchemaError)
  deriving DecidableEq, Repr

namespace SchemaError

/-- The error without the fields it occurred in. -/
def root : SchemaError → SchemaError
  | inField _ _ cause => cause.root
  | e => e

/-- The beginning of the message of an error on a column. -/
def onColumn (column : Text) : Text := "column '" ++ column ++ "': "

def message : SchemaError → Text
  | incompatible column constraint existing =>
    onColumn column ++ constraint ++ " cannot be combined with " ++ existing
  | autoincrementRequiresIntegerKey column storage =>
    onColumn column ++ "AUTOINCREMENT is only allowed on INTEGER PRIMARY KEY columns, found " ++
      storage.keyword
  | duplicateConstraint column constraint =>
    onColumn column ++ "duplicate " ++ constraint ++ " constraint"
  | unresolvedReference column target =>
    onColumn column ++ "no referenced model matches '" ++ target ++ "'"
  | unknownTargetColumn target column =>
    "column '" ++ column ++ "' not found in referenced model '" ++ target ++ "'"
  | unknownColumn model column =>
    "column '" ++ column ++ "' not found in model '" ++ model ++ "'"
  | invalidReference column reason =>
    onColumn column ++ "invalid REFERENCES clause: " ++ reason
  | invalidAction column clause value =>
    onColumn column ++ "invalid " ++ clause ++ " action '" ++ value ++ "'"
  | missingExpression column constraint expected =>
    onColumn column ++ constraint ++ " requires " ++ expected
  | malformed column fault =>
    onColumn column ++ fault.cause.message ++ " at offset " ++ Text.ofNat fault.offset
  | emptyTable model => "model '" ++ model ++ "' has no columns"
  | columnCountMismatch columns expected found =>
    "foreign key on (" ++ columns ++ ") references " ++ Text.ofNat expected ++
      " column(s), found " ++ Text.ofNat found
  | caseArity conditions results =>
    "CASE expression requires as many THEN as WHEN branches (" ++ Text.ofNat conditions ++
      " WHEN, " ++ Text.ofNat results ++ " THEN)"
  | inField model field cause => model ++ "." ++ field ++ ": " ++ cause.message

end SchemaError

end AnnotatedSchema
