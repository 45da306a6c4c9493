import AnnotatedSchema.Clause.IndexedColumn
import AnnotatedSchema.Column

/-!
Tables. A table has the columns of its model's mapped fields, or the rows of a query, and
constraints that name columns of the model. A table that names a column nobody maps has no text.
-/

namespace AnnotatedSchema

inductive TableConstraint where
  | primaryKey (columns : List IndexedColumn) (conflict : Option ConflictAction)
  | unique (columns : List IndexedColumn) (conflict : Option ConflictAction)
  | check (sql : Text)
  | foreignKey (fk : ForeignKey)
  deriving DecidableEq

namespace TableConstraint

def toSql : TableConstraint → Text
  | primaryKey columns conflict =>
    "PRIMARY KEY " ++ (IndexedColumn.listToSql columns).parenthesized ++
      ConflictAction.clause conflict
  | unique columns conflict =>
    "UNIQUE " ++ (IndexedColumn.listToSql columns).parenthesized ++ ConflictAction.clause conflict
  | check sql => checkSql sql
  | foreignKey fk => fk.text

/-- The declared names of the columns that the constraint is on. -/
def columns : TableConstraint → List Text
  | primaryKey columns _ => columns.filterMap IndexedColumn.name?
  | unique columns _ => columns.filterMap IndexedColumn.name?
  | check _ => []
  | foreignKey fk => fk.columns

/-- The error for the first column that the model does not map or, in a foreign key, its target does
not map. -/
def fault? (m : Model) (c : TableConstraint) : Option SchemaError :=
  let missing? := (c.columns.find? fun name => !m.mapsColumn name).map (.unknownColumn m.name)
  match c with
  | foreignKey fk => missing?.or fk.missingColumn?
  | _ => missing?

end TableConstraint

structure NamedTableConstraint where
  name : Option Text
  constraint : TableConstraint
  deriving DecidableEq

def NamedTableConstraint.toSql (c : NamedTableConstraint) : Text :=
  namedClause c.name c.constraint.toSql

/-- A table with a query has the columns of the query. -/
structure Table where
  model : Model
  columns : List Column
  schema : Option Text
  temporary : Bool
  ifNotExists : Bool
  withoutRowid : Bool
  strict : Bool
  query : Option Select
  constraints : List NamedTableConstraint

namespace Table

/-- The columns of a model. An error is reported with the field it is in. -/
def modelColumns (m : Model) (candidates : List Model) : Except SchemaError (List Column) :=
  m.mappedFields.mapM fun f => (Column.ofField f candidates).mapError (.inField m.name f.name)

/-- The table of a model, whose fields may refer to the given models and to the model itself. -/
def ofModel (m : Model) (references : List Model) : Except SchemaError Table :=
  (modelColumns m (references ++ [m])).map fun columns =>
    { model := m, columns, schema := none, temporary := false, ifNotExists := false,
      withoutRowid := false, strict := false, query := none, constraints := [] }

def name (t : Table) : Text := t.model.table

def column? (t : Table) (name : Text) : Option Column := t.columns.find? (·.name == name)

inductive Call where
  | temporary
  | ifNotExists
  | schema (name : Text)
  | withoutRowid
  | strict
  | asSelect (query : Select)
  | constraint (name : Option Text) (c : TableConstraint)

def apply (t : Table) : Call → Table
  | .temporary => { t with temporary := true }
  | .ifNotExists => { t with ifNotExists := true }
  | .schema name => { t with schema := some name }
  | .withoutRowid => { t with withoutRowid := true }
  | .strict => { t with strict := true }
  | .asSelect query => { t with query := some query }
  | .constraint name c => { t with constraints := t.constraints ++ [⟨name, c⟩] }

def isEmpty (t : Table) : Bool := t.query.isNone && t.columns.isEmpty && t.constraints.isEmpty

def fault? (t : Table) : Option SchemaError :=
  if t.isEmpty then some (.emptyTable t.model.name)
  else t.constraints.findSome? (·.constraint.fault? t.model)

/-- The definitions of the columns and then of the constraints. -/
def definitions (t : Table) : List Text :=
  t.columns.map Column.toSql ++ t.constraints.map NamedTableConstraint.toSql

def optionText (t : Table) : Text :=
  match t.withoutRowid, t.strict with
  | false, false => []
  | true, false => " WITHOUT ROWID"
  | false, true => " STRICT"
  | true, true => " WITHOUT ROWID, STRICT"

/-- What defines the table: its query, or its definitions, one a line. -/
def body (t : Table) : Text :=
  match t.query with
  | some query => " AS " ++ query.toSql
  | none =>
    " (\n\t" ++ List.intercalate ",\n\t".toList t.definitions ++ "\n)" ++ t.optionText

/-- The statement that creates the table, whether or not its columns are there. -/
def text (t : Table) : Text :=
  "CREATE " ++ (if t.temporary then "TEMP " else "") ++ "TABLE " ++
    (if t.ifNotExists then "IF NOT EXISTS " else "") ++ qualifier t.schema ++ t.name ++ t.body ++
    ";\n"

/-- The statement that creates the table, on a line or several of its own. -/
def toSql (t : Table) : Except SchemaError Text :=
  match t.fault? with
  | some e => .error e
  | none => .ok t.text

end Table

end AnnotatedSchema
