import AnnotatedSchema.Clause.Option
import AnnotatedSchema.Error
import AnnotatedSchema.Model
import AnnotatedSchema.Value

/-! Expressions and queries, which contain each other. -/

namespace AnnotatedSchema

/-- A column, optionally of a table and that of a schema. -/
structure ColumnName where
  schema : Option Text
  table : Option Text
  name : Text
  deriving DecidableEq

/-- Operators between two operands. Any text can serve as one. -/
inductive Operator where
  | and
  | or
  | equal
  | notEqual
  | less
  | lessOrEqual
  | greater
  | greaterOrEqual
  | is
  | isNot
  | isDistinctFrom
  | isNotDistinctFrom
  | like
  | notLike
  | glob
  | notGlob
  | regexp
  | notRegexp
  | «match»
  | notMatch
  | other (symbol : Text)
  deriving DecidableEq

/-- What a trigger program does when it raises an error. -/
inductive Raise where
  | ignore
  | rollback (message : Text)
  | abort (message : Text)
  | fail (message : Text)
  deriving DecidableEq

/-- Whether a query keeps equal rows. -/
inductive SelectMode where
  | all
  | distinct
  deriving DecidableEq

inductive JoinKind where
  | inner
  | left
  | leftOuter
  | right
  | rightOuter
  | full
  | fullOuter
  | cross
  | natural
  deriving DecidableEq

/-- Where null values come in an order. -/
inductive NullsOrder where
  | first
  | last
  deriving DecidableEq

mutual

inductive Expression where
  | raw (sql : Text)
  | column (name : ColumnName)
  | value (v : Value)
  | parameter (p : Parameter)
  | call (function : Text) (arguments : List Expression)
  | cast (operand : Expression) (storage : Storage)
  | subquery (query : Select)
  | exists (negated : Bool) (query : Select)
  | raise (action : Raise)
  | case (operand : Option Expression) (branches : List Branch) (otherwise : Option Expression)
  | binary (operator : Operator) (left right : Expression)
  | not (operand : Expression)
  | parenthesized (operand : Expression)
  | isNull (negated : Bool) (operand : Expression)
  | likeEscape (operand pattern escape : Expression)
  | between (negated : Bool) (operand low high : Expression)
  | inList (negated : Bool) (operand : Expression) (items : List Expression)
  | inSelect (negated : Bool) (operand : Expression) (query : Select)
  | collate (operand : Expression) (collation : Text)

/-- One condition of a `CASE` expression and the result it leads to. -/
structure Branch where
  condition : Expression
  result : Expression

inductive Source where
  | table (name : Text)
  | subquery (query : Select)

inductive ResultColumn where
  | expression (e : Expression) (asName : Option Text)
  | wildcard
  | tableWildcard (table : Text)

inductive JoinConstraint where
  | on (condition : Expression)
  | using (columns : List Text)

structure Join where
  kind : JoinKind
  source : Source
  asName : Option Text
  constraint : Option JoinConstraint

structure OrderingTerm where
  expression : Expression
  order : Option SortOrder
  nulls : Option NullsOrder

/-- A named query in front of a statement. Whether it is materialized can be left open. -/
structure CommonTable where
  name : Text
  columns : List Text
  materialized : Option Bool
  query : Select

structure With where
  recursive : Bool
  tables : List CommonTable

/-- The source of a query, under an alias if it has one. -/
structure From where
  source : Source
  asName : Option Text

structure Select where
  commonTables : Option With
  mode : Option SelectMode
  columns : List ResultColumn
  source : Option From
  joins : List Join
  condition : Option Expression
  groups : List Expression
  groupCondition : Option Expression
  ordering : List OrderingTerm
  limit : Option UInt64
  offset : Option UInt64

end

namespace ColumnName

def plain (name : Text) : ColumnName := ⟨none, none, name⟩

/-- A column that the model maps, under the name of the model's table. -/
def ofModel (m : Model) (name : Text) : Except SchemaError ColumnName :=
  if m.mapsColumn name then .ok ⟨none, some m.table, identifier name⟩
  else .error (.unknownColumn m.name name)

end ColumnName

/-- A `CASE` expression over a list of conditions and one of results, which must be as many. -/
def Expression.caseOfLists (operand : Option Expression) (conditions results : List Expression) :
    Except SchemaError Expression :=
  if conditions.length = results.length then
    .ok (.case operand (List.zipWith Branch.mk conditions results) none)
  else .error (.caseArity conditions.length results.length)

end AnnotatedSchema
