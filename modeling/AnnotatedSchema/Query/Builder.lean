import AnnotatedSchema.Query.Basic

/-!
Queries built call by call. Each call concerns one clause: result columns, joins, groups and
ordering terms are added to, and of every other clause the last call counts.
-/

namespace AnnotatedSchema

namespace OrderingTerm

def of (e : Expression) : OrderingTerm := ⟨e, none, none⟩

def withOrder (t : OrderingTerm) (order : SortOrder) : OrderingTerm :=
  { t with order := some order }

def withNulls (t : OrderingTerm) (nulls : NullsOrder) : OrderingTerm :=
  { t with nulls := some nulls }

end OrderingTerm

namespace Join

def of (kind : JoinKind) (source : Source) : Join := ⟨kind, source, none, none⟩

def withAlias (j : Join) (asName : Text) : Join := { j with asName := some asName }

def withConstraint (j : Join) (constraint : JoinConstraint) : Join :=
  { j with constraint := some constraint }

end Join

namespace CommonTable

def of (name : Text) (query : Select) : CommonTable := ⟨name, [], none, query⟩

def withColumns (t : CommonTable) (columns : List Text) : CommonTable :=
  { t with columns := columns }

def withMaterialized (t : CommonTable) (materialized : Bool) : CommonTable :=
  { t with materialized := some materialized }

end CommonTable

namespace Select

def empty : Select :=
  { commonTables := none, mode := none, columns := [], source := none, joins := [],
    condition := none, groups := [], groupCondition := none, ordering := [], limit := none,
    offset := none }

inductive Call where
  | with (commonTables : With)
  | mode (mode : SelectMode)
  | columns (columns : List ResultColumn)
  | from (source : From)
  | join (join : Join)
  | where (condition : Expression)
  | groupBy (e : Expression)
  | having (condition : Expression)
  | orderBy (term : OrderingTerm)
  | limit (n : UInt64)
  | offset (n : UInt64)

def apply (s : Select) : Call → Select
  | .with commonTables => { s with commonTables := some commonTables }
  | .mode mode => { s with mode := some mode }
  | .columns columns => { s with columns := s.columns ++ columns }
  | .from source => { s with source := some source }
  | .join join => { s with joins := s.joins ++ [join] }
  | .where condition => { s with condition := some condition }
  | .groupBy e => { s with groups := s.groups ++ [e] }
  | .having condition => { s with groupCondition := some condition }
  | .orderBy term => { s with ordering := s.ordering ++ [term] }
  | .limit n => { s with limit := some n }
  | .offset n => { s with offset := some n }

def build (calls : List Call) : Select := calls.foldl apply empty

end Select

end AnnotatedSchema
