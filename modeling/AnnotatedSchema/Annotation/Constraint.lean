import AnnotatedSchema.Clause.Default
import AnnotatedSchema.Clause.Key

/-! The constraints that an annotation can give to a column. -/

namespace AnnotatedSchema

/-- A `REFERENCES` clause is kept as text, for its target is only known among other models. -/
inductive Constraint where
  | primaryKey (key : ColumnKey)
  | notNull (conflict : Option ConflictAction)
  | unique (conflict : Option ConflictAction)
  | check (sql : Text)
  | default (value : DefaultValue)
  | collate (collation : Text)
  | references (clause : Text)
  | generated (g : Generated)
  deriving DecidableEq

/-- A constraint and its name, if it has one. -/
structure AnnotatedConstraint where
  name : Option Text
  constraint : Constraint
  deriving DecidableEq

def notNullSql (conflict : Option ConflictAction) : Text :=
  "NOT NULL" ++ ConflictAction.clause conflict

def uniqueSql (conflict : Option ConflictAction) : Text :=
  "UNIQUE" ++ ConflictAction.clause conflict

def checkSql (sql : Text) : Text := "CHECK " ++ sql.parenthesized

def collateSql (collation : Text) : Text := "COLLATE " ++ collation

def Constraint.toSql : Constraint → Text
  | primaryKey key => key.toSql
  | notNull conflict => notNullSql conflict
  | unique conflict => uniqueSql conflict
  | check sql => checkSql sql
  | default value => value.toSql
  | collate collation => collateSql collation
  | references clause => clause
  | generated g => g.toSql

def AnnotatedConstraint.toSql (c : AnnotatedConstraint) : Text :=
  namedClause c.name c.constraint.toSql

end AnnotatedSchema
