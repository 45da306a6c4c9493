import AnnotatedSchema.Clause.IndexedColumn

/-! Indexes on tables. -/

namespace AnnotatedSchema

/-- The table is given by its declared name; an index with a predicate has only the rows that meet
it. -/
structure Index where
  name : Text
  table : Text
  schema : Option Text
  columns : List IndexedColumn
  unique : Bool
  ifNotExists : Bool
  predicate : Option Text

namespace Index

def plain (name table : Text) : Index := ⟨name, table, none, [], false, false, none⟩

def onModel (name : Text) (m : Model) : Index := plain name m.name

inductive Call where
  | columns (columns : List IndexedColumn)
  | unique
  | ifNotExists
  | schema (name : Text)
  | where (predicate : Text)

def apply (i : Index) : Call → Index
  | .columns columns => { i with columns := i.columns ++ columns }
  | .unique => { i with unique := true }
  | .ifNotExists => { i with ifNotExists := true }
  | .schema name => { i with schema := some name }
  | .where predicate => { i with predicate := some predicate }

def toSql (i : Index) : Text :=
  "CREATE " ++ (if i.unique then "UNIQUE " else "") ++ "INDEX " ++
    (if i.ifNotExists then "IF NOT EXISTS " else "") ++ qualifier i.schema ++ i.name ++ " ON " ++
    identifier i.table ++ " " ++ (IndexedColumn.listToSql i.columns).parenthesized ++
    (optionalClause " WHERE " i.predicate).flatten ++ ";"

end Index

end AnnotatedSchema
