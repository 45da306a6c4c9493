import AnnotatedSchema.Query.Basic

/-!
The SQL text of expressions and queries. A query is a list of clauses in fixed order, separated by
blanks; clauses that are absent leave no trace.
-/

namespace AnnotatedSchema

def ColumnName.toSql : ColumnName → Text
  | ⟨some schema, some table, name⟩ => schema ++ "." ++ table ++ "." ++ name
  | ⟨none, some table, name⟩ => table ++ "." ++ name
  | ⟨_, none, name⟩ => name

def Operator.symbol : Operator → Text
  | and => "AND"
  | or => "OR"
  | equal => "="
  | notEqual => "!="
  | less => "<"
  | lessOrEqual => "<="
  | greater => ">"
  | greaterOrEqual => ">="
  | is => "IS"
  | isNot => "IS NOT"
  | isDistinctFrom => "IS DISTINCT FROM"
  | isNotDistinctFrom => "IS NOT DISTINCT FROM"
  | like => "LIKE"
  | notLike => "NOT LIKE"
  | glob => "GLOB"
  | notGlob => "NOT GLOB"
  | regexp => "REGEXP"
  | notRegexp => "NOT REGEXP"
  | «match» => "MATCH"
  | notMatch => "NOT MATCH"
  | other symbol => symbol

def Raise.toSql : Raise → Text
  | ignore => "RAISE(IGNORE)"
  | rollback message => "RAISE(ROLLBACK, " ++ message.quoted ++ ")"
  | abort message => "RAISE(ABORT, " ++ message.quoted ++ ")"
  | fail message => "RAISE(FAIL, " ++ message.quoted ++ ")"

def SelectMode.keyword : SelectMode → Text
  | all => "ALL"
  | distinct => "DISTINCT"

def JoinKind.keyword : JoinKind → Text
  | inner => "INNER JOIN"
  | left => "LEFT JOIN"
  | leftOuter => "LEFT OUTER JOIN"
  | right => "RIGHT JOIN"
  | rightOuter => "RIGHT OUTER JOIN"
  | full => "FULL JOIN"
  | fullOuter => "FULL OUTER JOIN"
  | cross => "CROSS JOIN"
  | natural => "NATURAL JOIN"

/-- The place of null values after a blank, or nothing. -/
def NullsOrder.clause : Option NullsOrder → Text
  | none => []
  | some .first => " NULLS FIRST"
  | some .last => " NULLS LAST"

/-- The name under which a source is known, after a blank, or nothing. -/
def aliasClause : Option Text → Text
  | none => []
  | some name => " AS " ++ name

/-- The word that a negated test has before its keyword. -/
def negation (negated : Bool) : Text := if negated then "NOT " else ""

/-- The materialization hint of a common table, with a blank after it, or nothing. -/
def materializedHint : Option Bool → Text
  | none => []
  | some materialized => negation (!materialized) ++ "MATERIALIZED "

/-- The limit of a query. An offset needs a limit before it; -1 stands for none. -/
def limitClause : Option UInt64 → Option UInt64 → List Text
  | none, none => []
  | some limit, none => ["LIMIT " ++ Text.ofNat limit.toNat]
  | some limit, some offset =>
    ["LIMIT " ++ Text.ofNat limit.toNat ++ " OFFSET " ++ Text.ofNat offset.toNat]
  | none, some offset => ["LIMIT -1 OFFSET " ++ Text.ofNat offset.toNat]

/-- A keyword and a list separated by commas, or nothing if the list is empty. -/
def listClause (keyword : Text) : List Text → List Text
  | [] => []
  | items => [keyword ++ Text.commaSeparated items]

/-- A keyword and its argument, or nothing. -/
def optionalClause (keyword : Text) : Option Text → List Text
  | none => []
  | some argument => [keyword ++ argument]

/-- The clauses for where rows come from. A source without a name is left out, and so are the joins
to it. -/
def sourceClauses (source : Option (Text × Option Text)) (joins : List Text) : List Text :=
  match source with
  | none => []
  | some (name, asName) =>
    if name = [] then [] else ("FROM " ++ name ++ aliasClause asName) :: joins

mutual

def Expression.toSql : Expression → Text
  | .raw sql => sql
  | .column name => name.toSql
  | .value v => v.literal
  | .parameter p => p.toSql
  | .call function arguments =>
    function ++ Text.parenthesized (Text.commaSeparated (Expression.listToSql arguments))
  | .cast operand storage => "CAST(" ++ operand.toSql ++ " AS " ++ storage.keyword ++ ")"
  | .subquery query => Text.parenthesized query.toSql
  | .exists negated query => negation negated ++ "EXISTS " ++ Text.parenthesized query.toSql
  | .raise action => action.toSql
  | .case operand branches otherwise =>
    "CASE" ++ (optionalClause " " (Expression.optionToSql operand)).flatten ++
      Branch.listToSql branches ++
      (optionalClause " ELSE " (Expression.optionToSql otherwise)).flatten ++ " END"
  | .binary operator left right => left.toSql ++ " " ++ operator.symbol ++ " " ++ right.toSql
  | .not operand => "NOT " ++ operand.toSql
  | .parenthesized operand => Text.parenthesized operand.toSql
  | .isNull negated operand => operand.toSql ++ " IS " ++ negation negated ++ "NULL"
  | .likeEscape operand pattern escape =>
    operand.toSql ++ " LIKE " ++ pattern.toSql ++ " ESCAPE " ++ escape.toSql
  | .between negated operand low high =>
    operand.toSql ++ " " ++ negation negated ++ "BETWEEN " ++ low.toSql ++ " AND " ++ high.toSql
  | .inList negated operand items =>
    operand.toSql ++ " " ++ negation negated ++ "IN " ++
      Text.parenthesized (Text.commaSeparated (Expression.listToSql items))
  | .inSelect negated operand query =>
    operand.toSql ++ " " ++ negation negated ++ "IN " ++ Text.parenthesized query.toSql
  | .collate operand collation => operand.toSql ++ " COLLATE " ++ collation

def Expression.listToSql : List Expression → List Text
  | [] => []
  | e :: es => e.toSql :: Expression.listToSql es

def Expression.optionToSql : Option Expression → Option Text
  | none => none
  | some e => some e.toSql

def Branch.listToSql : List Branch → Text
  | [] => []
  | ⟨condition, result⟩ :: branches =>
    " WHEN " ++ condition.toSql ++ " THEN " ++ result.toSql ++ Branch.listToSql branches

def Source.toSql : Source → Text
  | .table name => identifier name
  | .subquery query => Text.parenthesized query.toSql

def ResultColumn.toSql : ResultColumn → Text
  | .expression e asName => e.toSql ++ aliasClause asName
  | .wildcard => "*"
  | .tableWildcard table => identifier table ++ ".*"

def ResultColumn.listToSql : List ResultColumn → List Text
  | [] => []
  | c :: cs => c.toSql :: ResultColumn.listToSql cs

def JoinConstraint.optionToSql : Option JoinConstraint → Text
  | none => []
  | some (.on condition) => " ON " ++ condition.toSql
  | some (.using columns) => " USING " ++ Text.parenthesized (identifierList columns)

def Join.toSql : Join → Text
  | ⟨kind, source, asName, constraint⟩ =>
    kind.keyword ++ " " ++ source.toSql ++ aliasClause asName ++
      JoinConstraint.optionToSql constraint

def Join.listToSql : List Join → List Text
  | [] => []
  | j :: js => j.toSql :: Join.listToSql js

def OrderingTerm.toSql : OrderingTerm → Text
  | ⟨e, order, nulls⟩ => e.toSql ++ SortOrder.clause order ++ NullsOrder.clause nulls

def OrderingTerm.listToSql : List OrderingTerm → List Text
  | [] => []
  | t :: ts => t.toSql :: OrderingTerm.listToSql ts

def CommonTable.toSql : CommonTable → Text
  | ⟨name, columns, materialized, query⟩ =>
    identifier name ++ (if columns = [] then [] else Text.parenthesized (identifierList columns)) ++
      " AS " ++ materializedHint materialized ++ Text.parenthesized query.toSql

def CommonTable.listToSql : List CommonTable → List Text
  | [] => []
  | t :: ts => t.toSql :: CommonTable.listToSql ts

def With.toSql : With → Text
  | ⟨recursive, tables⟩ =>
    "WITH " ++ (if recursive then "RECURSIVE " else "") ++
      Text.commaSeparated (CommonTable.listToSql tables)

def With.optionToSql : Option With → List Text
  | none => []
  | some w => [w.toSql]

def From.optionToSql : Option From → Option (Text × Option Text)
  | none => none
  | some ⟨source, asName⟩ => some (source.toSql, asName)

def Select.toSql : Select → Text
  | ⟨commonTables, mode, columns, source, joins, condition, groups, groupCondition, ordering,
      limit, offset⟩ =>
    Text.spaceSeparated
      (With.optionToSql commonTables ++ ["SELECT".toList] ++ (mode.map SelectMode.keyword).toList ++
        (if columns = [] then ["*".toList]
          else [Text.commaSeparated (ResultColumn.listToSql columns)]) ++
        sourceClauses (From.optionToSql source) (Join.listToSql joins) ++
        optionalClause "WHERE " (Expression.optionToSql condition) ++
        listClause "GROUP BY " (Expression.listToSql groups) ++
        optionalClause "HAVING " (Expression.optionToSql groupCondition) ++
        listClause "ORDER BY " (OrderingTerm.listToSql ordering) ++
        limitClause limit offset)

end

def Expression.isEmpty (e : Expression) : Bool := Text.blank e.toSql

end AnnotatedSchema
