import AnnotatedSchema.Annotation.Reader
import AnnotatedSchema.ForeignKey.Clause

/-!
Columns. A column takes its constraint clauses one by one and refuses those that cannot stand beside
the ones it has. It keeps the texts of the clauses, and a flag for each kind of clause.
-/

namespace AnnotatedSchema

/-- A constraint of a column, with the target of a foreign key resolved. -/
inductive ColumnClause where
  | primaryKey (key : ColumnKey)
  | notNull (conflict : Option ConflictAction)
  | unique (conflict : Option ConflictAction)
  | check (sql : Text)
  | default (value : DefaultValue)
  | collate (collation : Text)
  | references (fk : ForeignKey)
  | generated (g : Generated)
  deriving DecidableEq

inductive ClauseKind where
  | primaryKey
  | notNull
  | unique
  | check
  | default
  | collate
  | foreignKey
  | generated
  deriving DecidableEq, Repr

namespace ClauseKind

def label : ClauseKind → Text
  | primaryKey => "PRIMARY KEY"
  | notNull => "NOT NULL"
  | unique => "UNIQUE"
  | check => "CHECK"
  | default => "DEFAULT"
  | collate => "COLLATE"
  | foreignKey => "FOREIGN KEY"
  | generated => "GENERATED"

/-- The kinds beside which a clause of this kind cannot stand, in the order in which they are looked
for. A kind on its own list may occur once. -/
def excludes : ClauseKind → List ClauseKind
  | primaryKey => [primaryKey, generated, default]
  | notNull => []
  | unique => [generated]
  | check => []
  | default => [generated, primaryKey, default]
  | collate => [collate]
  | foreignKey => [generated]
  | generated => [generated, primaryKey, unique, default, foreignKey]

end ClauseKind

namespace ColumnClause

/-- The clause of an annotated constraint. The target of a reference is looked up among the
candidates. -/
def ofConstraint (column : Text) (candidates : List Model) :
    Constraint → Except SchemaError ColumnClause
  | .primaryKey key => .ok (primaryKey key)
  | .notNull conflict => .ok (notNull conflict)
  | .unique conflict => .ok (unique conflict)
  | .check sql => .ok (check sql)
  | .default value => .ok (default value)
  | .collate collation => .ok (collate collation)
  | .references clause => (ForeignKey.ofClause column clause candidates).map references
  | .generated g => .ok (generated g)

end ColumnClause

/-- The kinds of clauses that a column has, and whether its key numbers the rows. -/
structure Flags where
  primaryKey : Bool
  notNull : Bool
  unique : Bool
  check : Bool
  default : Bool
  collate : Bool
  foreignKey : Bool
  generated : Bool
  autoincrement : Bool
  deriving DecidableEq, Repr

namespace Flags

def clear : Flags := ⟨false, false, false, false, false, false, false, false, false⟩

def has (f : Flags) : ClauseKind → Bool
  | .primaryKey => f.primaryKey
  | .notNull => f.notNull
  | .unique => f.unique
  | .check => f.check
  | .default => f.default
  | .collate => f.collate
  | .foreignKey => f.foreignKey
  | .generated => f.generated

def set (f : Flags) : ClauseKind → Flags
  | .primaryKey => { f with primaryKey := true }
  | .notNull => { f with notNull := true }
  | .unique => { f with unique := true }
  | .check => { f with check := true }
  | .default => { f with default := true }
  | .collate => { f with collate := true }
  | .foreignKey => { f with foreignKey := true }
  | .generated => { f with generated := true }

end Flags

structure Column where
  name : Text
  storage : Storage
  fragments : List Text
  flags : Flags
  deriving DecidableEq

namespace Column

/-- A column without clauses, for a field with the given name. -/
def plain (field : Text) (storage : Storage) : Column := ⟨identifier field, storage, [], .clear⟩

def has (c : Column) (kind : ClauseKind) : Bool := c.flags.has kind

/-- Whether the column has a key that numbers its rows. -/
def isAutoincrement (c : Column) : Bool := c.flags.autoincrement

/-- A change of a column in place. It can fail on the way; what was changed before stays changed. -/
abbrev Change (α : Type) := ExceptT SchemaError (StateM Column) α

/-- What the change returns on a column, and the column after it. -/
def Change.on {α : Type} (change : Change α) (c : Column) : Except SchemaError α × Column :=
  (ExceptT.run change).run c

/-- The error for a clause of one kind on a column that has one of another. -/
def conflict (c : Column) (kind existing : ClauseKind) : SchemaError :=
  if kind = existing then .duplicateConstraint c.name kind.label
  else .incompatible c.name kind.label existing.label

/-- Fails if the column has a clause beside which one of this kind cannot stand. -/
def checkKind (kind : ClauseKind) : Change Unit := do
  let c ← get
  match kind.excludes.find? c.has with
  | some existing => throw (c.conflict kind existing)
  | none => return

def setFlag (kind : ClauseKind) : Change Unit :=
  modify fun c => { c with flags := c.flags.set kind }

def push (name : Option Text) (fragment : Text) : Change Unit :=
  modify fun c => { c with fragments := c.fragments ++ [namedClause name fragment] }

/-- Adds a clause for which only the kinds of the other clauses count. -/
def put (kind : ClauseKind) (name : Option Text) (fragment : Text) : Change Unit := do
  checkKind kind
  setFlag kind
  push name fragment

/-- Adds a primary key. Only integers can be numbered. -/
def putKey (name : Option Text) (key : ColumnKey) : Change Unit := do
  checkKind .primaryKey
  let c ← get
  if key.autoincrement ∧ c.storage ≠ .integer then
    throw (.autoincrementRequiresIntegerKey c.name c.storage)
  setFlag .primaryKey
  modify fun c => { c with flags := { c.flags with autoincrement := key.autoincrement } }
  push name key.toSql

/-- Adds a reference, if its target maps the columns it refers to. -/
def putReference (name : Option Text) (fk : ForeignKey) : Change Unit := do
  checkKind .foreignKey
  let sql ← fk.toSql
  setFlag .foreignKey
  push name sql

def addClause (name : Option Text) : ColumnClause → Change Unit
  | .primaryKey key => putKey name key
  | .notNull conflict => put .notNull name (notNullSql conflict)
  | .unique conflict => put .unique name (uniqueSql conflict)
  | .check sql => put .check name (checkSql sql)
  | .default value => put .default name value.toSql
  | .collate collation => put .collate name (collateSql collation)
  | .references fk => putReference name fk
  | .generated g => put .generated name g.toSql

def add (c : Column) (name : Option Text) (clause : ColumnClause) : Except SchemaError Column :=
  match (addClause name clause).on c with
  | (.error e, _) => .error e
  | (.ok _, c) => .ok c

/-- Adds a constraint of an annotation. A reference is read for the field. -/
def apply (field : Text) (candidates : List Model) (a : AnnotatedConstraint) : Change Unit := do
  let clause ← ColumnClause.ofConstraint field candidates a.constraint
  addClause a.name clause

/-- The column with the constraints of an annotation, as far as they can be read and applied, and
why the next one fails. -/
def annotate (c : Column) (candidates : List Model) (tag : Text) :
    Column × Option SchemaError :=
  match Annotation.constraints c.name tag with
  | .error e => (c, some e)
  | .ok constraints =>
    match Change.on (constraints.forM (apply c.name candidates)) c with
    | (.error e, c) => (c, some e)
    | (.ok _, c) => (c, none)

/-- The column of a mapped field, whose references are to one of the candidates. -/
def ofField (f : Field) (candidates : List Model) : Except SchemaError Column :=
  match (plain f.name (Storage.infer f.type)).annotate candidates f.tag with
  | (_, some e) => .error e
  | (c, none) => .ok c

/-- The column of a field, none if it is not mapped. -/
def ofField? (f : Field) (candidates : List Model) : Except SchemaError (Option Column) :=
  if f.isMapped then (ofField f candidates).map some else .ok none

def toSql (c : Column) : Text :=
  Text.spaceSeparated (c.name :: c.storage.keyword :: c.fragments)

end Column

end AnnotatedSchema
