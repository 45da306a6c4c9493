import AnnotatedSchema.Query.Render

/-! The columns of indexes, keys and unique constraints. -/

namespace AnnotatedSchema

/-- What is indexed: a column by its declared name, or the value of an expression. -/
inductive IndexedColumn.Target where
  | column (name : Text)
  | expression (sql : Text)
  deriving DecidableEq

structure IndexedColumn where
  target : IndexedColumn.Target
  collation : Option Text
  order : Option SortOrder
  deriving DecidableEq

namespace IndexedColumn

def ofName (name : Text) : IndexedColumn := ⟨.column name, none, none⟩

def ofExpression (e : Expression) : IndexedColumn := ⟨.expression e.toSql, none, none⟩

/-- Of several collations the last counts. -/
def withCollation (c : IndexedColumn) (collation : Text) : IndexedColumn :=
  { c with collation := some collation }

/-- Of several orders the first counts. -/
def withOrder (c : IndexedColumn) (order : SortOrder) : IndexedColumn :=
  { c with order := c.order.or (some order) }

def name? (c : IndexedColumn) : Option Text :=
  match c.target with
  | .column name => some name
  | .expression _ => none

def toSql (c : IndexedColumn) : Text :=
  let target := match c.target with
    | .column name => identifier name
    | .expression sql => sql
  let collation := match c.collation with
    | none => []
    | some name => " COLLATE " ++ name
  target ++ collation ++ SortOrder.clause c.order

def listToSql (cs : List IndexedColumn) : Text := Text.commaSeparated (cs.map toSql)

end IndexedColumn

end AnnotatedSchema
