import AnnotatedSchema.Error
import AnnotatedSchema.Model

/-!
Foreign keys. A key on one column is written `REFERENCES …`, one on the table
`FOREIGN KEY (…) REFERENCES …`. A key is written only if its target maps the columns it refers to.
-/

namespace AnnotatedSchema

/-- What happens to referring rows when a referenced row changes. -/
inductive RowAction where
  | setNull
  | setDefault
  | cascade
  | restrict
  | noAction
  deriving DecidableEq, Repr

namespace RowAction

def all : List RowAction := [setNull, setDefault, cascade, restrict, noAction]

def keywords : RowAction → Text
  | setNull => "SET NULL"
  | setDefault => "SET DEFAULT"
  | cascade => "CASCADE"
  | restrict => "RESTRICT"
  | noAction => "NO ACTION"

def ofKeywords? (t : Text) : Option RowAction := all.find? fun a => t.sameKeyword a.keywords

end RowAction

/-- Whether a key is checked at the end of each statement or of the transaction, at first. -/
inductive InitialMode where
  | unspecified
  | deferred
  | immediate
  deriving DecidableEq, Repr

namespace InitialMode

def all : List InitialMode := [unspecified, deferred, immediate]

def keywords : InitialMode → Text
  | unspecified => ""
  | deferred => "INITIALLY DEFERRED"
  | immediate => "INITIALLY IMMEDIATE"

def ofKeywords? (t : Text) : Option InitialMode := all.find? fun m => t.sameKeyword m.keywords

end InitialMode

/-- Whether the check of a key can be deferred, and its mode at first. -/
structure Deferral where
  deferrable : Bool
  initially : InitialMode
  deriving DecidableEq, Repr

namespace Deferral

def keyword (d : Deferral) : Text := if d.deferrable then "DEFERRABLE" else "NOT DEFERRABLE"

def toSql (d : Deferral) : Text :=
  match d.initially with
  | .unspecified => d.keyword
  | mode => d.keyword ++ " " ++ mode.keywords

end Deferral

structure ForeignKey where
  columns : List Text
  tableLevel : Bool
  target : Model
  targetColumns : List Text
  onDelete : Option RowAction
  onUpdate : Option RowAction
  matchName : Option Text
  deferral : Option Deferral
  deriving DecidableEq

namespace ForeignKey

def plain (tableLevel : Bool) (columns : List Text) (target : Model) : ForeignKey :=
  ⟨columns, tableLevel, target, [], none, none, none, none⟩

def onColumn (column : Text) (target : Model) : ForeignKey := plain false [column] target

def onTable (columns : List Text) (target : Model) : ForeignKey := plain true columns target

/-- The key that refers to the given columns, of which there are as many as it has of its own, or
none. -/
def references (fk : ForeignKey) (columns : List Text) : Except SchemaError ForeignKey :=
  if columns = [] ∨ columns.length = fk.columns.length then
    .ok { fk with targetColumns := columns }
  else
    .error (.columnCountMismatch (Text.commaSeparated fk.columns) fk.columns.length columns.length)

inductive Setting where
  | onDelete (action : RowAction)
  | onUpdate (action : RowAction)
  | matchName (name : Text)
  | deferral (d : Deferral)
  deriving DecidableEq

/-- The key with one more setting. Of several deferrals the first counts, of every other setting the
last. -/
def set (fk : ForeignKey) : Setting → ForeignKey
  | .onDelete action => { fk with onDelete := some action }
  | .onUpdate action => { fk with onUpdate := some action }
  | .matchName name => { fk with matchName := some name }
  | .deferral d => { fk with deferral := fk.deferral.or (some d) }

inductive Call where
  | references (columns : List Text)
  | set (setting : Setting)
  deriving DecidableEq

def apply (fk : ForeignKey) : Call → Except SchemaError ForeignKey
  | .references columns => fk.references columns
  | .set setting => .ok (fk.set setting)

/-- The error for the first referenced column that the target does not map, if there is one. -/
def missingColumn? (fk : ForeignKey) : Option SchemaError :=
  (fk.targetColumns.find? fun c => !fk.target.mapsColumn c).map
    (SchemaError.unknownTargetColumn fk.target.name)

def clause (keyword : Text) : Option Text → Text
  | none => []
  | some argument => " " ++ keyword ++ argument

/-- The owning columns of a key on a table. -/
def ownerText (fk : ForeignKey) : Text :=
  if fk.tableLevel then "FOREIGN KEY " ++ (identifierList fk.columns).parenthesized ++ " " else []

/-- The target with the columns that are referred to, if there are any. -/
def targetText (fk : ForeignKey) : Text :=
  if fk.targetColumns = [] then fk.target.table
  else fk.target.table ++ " " ++ (identifierList fk.targetColumns).parenthesized

/-- The text of the key, whether or not the referenced columns are there. -/
def text (fk : ForeignKey) : Text :=
  fk.ownerText ++ "REFERENCES " ++ fk.targetText ++
    clause "ON DELETE " (fk.onDelete.map RowAction.keywords) ++
    clause "ON UPDATE " (fk.onUpdate.map RowAction.keywords) ++
    clause "MATCH " fk.matchName ++
    clause "" (fk.deferral.map Deferral.toSql)

/-- The text of the key, if its target maps the columns it refers to. -/
def toSql (fk : ForeignKey) : Except SchemaError Text :=
  match fk.missingColumn? with
  | some e => .error e
  | none => .ok fk.text

end ForeignKey

end AnnotatedSchema
