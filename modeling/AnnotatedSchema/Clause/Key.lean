import AnnotatedSchema.Clause.Option

/-! The constraint clauses of a column that have options of their own. -/

namespace AnnotatedSchema

structure ColumnKey where
  order : Option SortOrder
  conflict : Option ConflictAction
  autoincrement : Bool
  deriving DecidableEq

namespace ColumnKey

def plain : ColumnKey := ⟨none, none, false⟩

def withOrder (k : ColumnKey) (order : SortOrder) : ColumnKey := { k with order := some order }

def withConflict (k : ColumnKey) (action : ConflictAction) : ColumnKey :=
  { k with conflict := some action }

def withAutoincrement (k : ColumnKey) : ColumnKey := { k with autoincrement := true }

def toSql (k : ColumnKey) : Text :=
  "PRIMARY KEY" ++ SortOrder.clause k.order ++ ConflictAction.clause k.conflict ++
    (if k.autoincrement then " AUTOINCREMENT" else "")

end ColumnKey

/-- The expression of a generated column. The words `GENERATED ALWAYS` can be left out. -/
structure Generated where
  expression : Text
  storage : GeneratedStorage
  always : Bool
  deriving DecidableEq

def Generated.toSql (g : Generated) : Text :=
  (if g.always then "GENERATED ALWAYS " else "") ++ "AS " ++ g.expression.parenthesized ++ " " ++
    g.storage.keyword

end AnnotatedSchema
