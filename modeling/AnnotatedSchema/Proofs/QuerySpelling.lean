import AnnotatedSchema.Proofs.IdentifierPasses
import AnnotatedSchema.Query.Render
import Mathlib.Data.List.Forall2

/-!
# The spelling of columns in queries

A column can be given by its declared name or by its identifier. Names are written as identifiers,
so in the `USING` lists of a query it makes no difference which of the two is given, at any depth.
-/

namespace AnnotatedSchema

/-! ## Names -/

/-- The other name is the same, or the identifier of a name in ASCII. -/
def Respells (name other : Text) : Prop :=
  other = name ∨ name.IsAscii ∧ other = identifier name

theorem Respells.identifier_eq {name other : Text} (h : Respells name other) :
    identifier other = identifier name := by
  rcases h with rfl | ⟨hascii, rfl⟩
  · rfl
  · exact identifier_identifier_of_isAscii hascii

theorem map_eq_of_forall₂ {α β : Type} {R : α → α → Prop} {f : α → β} {as bs : List α}
    (h : List.Forall₂ R as bs) (hf : ∀ {a b}, R a b → f b = f a) : bs.map f = as.map f := by
  induction h with
  | nil => rfl
  | cons hab _ ih => rw [List.map_cons, List.map_cons, hf hab, ih]

theorem identifierList_eq {names others : List Text} (h : List.Forall₂ Respells names others) :
    identifierList others = identifierList names := by
  rw [identifierList, identifierList, map_eq_of_forall₂ h Respells.identifier_eq]

/-! ## Trees that differ in the spelling of `USING` columns -/

mutual

/-- The expressions are the same but for the spelling of the columns in `USING` lists. -/
inductive Expression.Respells : Expression → Expression → Prop
  | same (e : Expression) : Expression.Respells e e
  | call {function : Text} {arguments arguments' : List Expression}
      (h : Expression.ListRespells arguments arguments') :
      Expression.Respells (.call function arguments) (.call function arguments')
  | cast {operand operand' : Expression} {storage : Storage}
      (h : Expression.Respells operand operand') :
      Expression.Respells (.cast operand storage) (.cast operand' storage)
  | subquery {query query' : Select} (h : Select.Respells query query') :
      Expression.Respells (.subquery query) (.subquery query')
  | exists {negated : Bool} {query query' : Select} (h : Select.Respells query query') :
      Expression.Respells (.exists negated query) (.exists negated query')
  | case {operand operand' : Option Expression} {branches branches' : List Branch}
      {otherwise otherwise' : Option Expression}
      (hoperand : Expression.OptionRespells operand operand')
      (hbranches : Branch.ListRespells branches branches')
      (hotherwise : Expression.OptionRespells otherwise otherwise') :
      Expression.Respells (.case operand branches otherwise) (.case operand' branches' otherwise')
  | binary {operator : Operator} {left left' right right' : Expression}
      (hleft : Expression.Respells left left') (hright : Expression.Respells right right') :
      Expression.Respells (.binary operator left right) (.binary operator left' right')
  | not {operand operand' : Expression} (h : Expression.Respells operand operand') :
      Expression.Respells (.not operand) (.not operand')
  | parenthesized {operand operand' : Expression} (h : Expression.Respells operand operand') :
      Expression.Respells (.parenthesized operand) (.parenthesized operand')
  | isNull {negated : Bool} {operand operand' : Expression}
      (h : Expression.Respells operand operand') :
      Expression.Respells (.isNull negated operand) (.isNull negated operand')
  | likeEscape {operand operand' pattern pattern' escape escape' : Expression}
      (hoperand : Expression.Respells operand operand')
      (hpattern : Expression.Respells pattern pattern')
      (hescape : Expression.Respells escape escape') :
      Expression.Respells (.likeEscape operand pattern escape)
        (.likeEscape operand' pattern' escape')
  | between {negated : Bool} {operand operand' low low' high high' : Expression}
      (hoperand : Expression.Respells operand operand') (hlow : Expression.Respells low low')
      (hhigh : Expression.Respells high high') :
      Expression.Respells (.between negated operand low high)
        (.between negated operand' low' high')
  | inList {negated : Bool} {operand operand' : Expression} {items items' : List Expression}
      (hoperand : Expression.Respells operand operand')
      (hitems : Expression.ListRespells items items') :
      Expression.Respells (.inList negated operand items) (.inList negated operand' items')
  | inSelect {negated : Bool} {operand operand' : Expression} {query query' : Select}
      (hoperand : Expression.Respells operand operand') (hquery : Select.Respells query query') :
      Expression.Respells (.inSelect negated operand query) (.inSelect negated operand' query')
  | collate {operand operand' : Expression} {collation : Text}
      (h : Expression.Respells operand operand') :
      Expression.Respells (.collate operand collation) (.collate operand' collation)

inductive Expression.ListRespells : List Expression → List Expression → Prop
  | nil : Expression.ListRespells [] []
  | cons {e e' : Expression} {es es' : List Expression} (h : Expression.Respells e e')
      (hs : Expression.ListRespells es es') : Expression.ListRespells (e :: es) (e' :: es')

inductive Expression.OptionRespells : Option Expression → Option Expression → Prop
  | none : Expression.OptionRespells none none
  | some {e e' : Expression} (h : Expression.Respells e e') :
      Expression.OptionRespells (some e) (some e')

inductive Branch.ListRespells : List Branch → List Branch → Prop
  | nil : Branch.ListRespells [] []
  | cons {condition condition' result result' : Expression} {branches branches' : List Branch}
      (hcondition : Expression.Respells condition condition')
      (hresult : Expression.Respells result result') (hs : Branch.ListRespells branches branches') :
      Branch.ListRespells (⟨condition, result⟩ :: branches) (⟨condition', result'⟩ :: branches')

inductive Source.Respells : Source → Source → Prop
  | table (name : Text) : Source.Respells (.table name) (.table name)
  | subquery {query query' : Select} (h : Select.Respells query query') :
      Source.Respells (.subquery query) (.subquery query')

inductive ResultColumn.Respells : ResultColumn → ResultColumn → Prop
  | expression {e e' : Expression} {asName : Option Text} (h : Expression.Respells e e') :
      ResultColumn.Respells (.expression e asName) (.expression e' asName)
  | wildcard : ResultColumn.Respells .wildcard .wildcard
  | tableWildcard (table : Text) :
      ResultColumn.Respells (.tableWildcard table) (.tableWildcard table)

inductive ResultColumn.ListRespells : List ResultColumn → List ResultColumn → Prop
  | nil : ResultColumn.ListRespells [] []
  | cons {c c' : ResultColumn} {cs cs' : List ResultColumn} (h : ResultColumn.Respells c c')
      (hs : ResultColumn.ListRespells cs cs') : ResultColumn.ListRespells (c :: cs) (c' :: cs')

inductive JoinConstraint.OptionRespells : Option JoinConstraint → Option JoinConstraint → Prop
  | none : JoinConstraint.OptionRespells none none
  | on {condition condition' : Expression} (h : Expression.Respells condition condition') :
      JoinConstraint.OptionRespells (some (.on condition)) (some (.on condition'))
  | using {columns columns' : List Text}
      (h : List.Forall₂ AnnotatedSchema.Respells columns columns') :
      JoinConstraint.OptionRespells (some (.using columns)) (some (.using columns'))

inductive Join.ListRespells : List Join → List Join → Prop
  | nil : Join.ListRespells [] []
  | cons {kind : JoinKind} {source source' : Source} {asName : Option Text}
      {constraint constraint' : Option JoinConstraint} {js js' : List Join}
      (hsource : Source.Respells source source')
      (hconstraint : JoinConstraint.OptionRespells constraint constraint')
      (hs : Join.ListRespells js js') :
      Join.ListRespells (⟨kind, source, asName, constraint⟩ :: js)
        (⟨kind, source', asName, constraint'⟩ :: js')

inductive OrderingTerm.ListRespells : List OrderingTerm → List OrderingTerm → Prop
  | nil : OrderingTerm.ListRespells [] []
  | cons {e e' : Expression} {order : Option SortOrder} {nulls : Option NullsOrder}
      {ts ts' : List OrderingTerm} (h : Expression.Respells e e')
      (hs : OrderingTerm.ListRespells ts ts') :
      OrderingTerm.ListRespells (⟨e, order, nulls⟩ :: ts) (⟨e', order, nulls⟩ :: ts')

inductive CommonTable.ListRespells : List CommonTable → List CommonTable → Prop
  | nil : CommonTable.ListRespells [] []
  | cons {name : Text} {columns : List Text} {materialized : Option Bool} {query query' : Select}
      {ts ts' : List CommonTable} (h : Select.Respells query query')
      (hs : CommonTable.ListRespells ts ts') :
      CommonTable.ListRespells (⟨name, columns, materialized, query⟩ :: ts)
        (⟨name, columns, materialized, query'⟩ :: ts')

inductive With.OptionRespells : Option With → Option With → Prop
  | none : With.OptionRespells none none
  | some {recursive : Bool} {tables tables' : List CommonTable}
      (h : CommonTable.ListRespells tables tables') :
      With.OptionRespells (some ⟨recursive, tables⟩) (some ⟨recursive, tables'⟩)

inductive From.OptionRespells : Option From → Option From → Prop
  | none : From.OptionRespells none none
  | some {source source' : Source} {asName : Option Text} (h : Source.Respells source source') :
      From.OptionRespells (some ⟨source, asName⟩) (some ⟨source', asName⟩)

/-- The queries are the same but for the spelling of the columns in `USING` lists. -/
inductive Select.Respells : Select → Select → Prop
  | same (s : Select) : Select.Respells s s
  | mk {commonTables commonTables' : Option With} {mode : Option SelectMode}
      {columns columns' : List ResultColumn} {source source' : Option From}
      {joins joins' : List Join}
      {condition condition' : Option Expression} {groups groups' : List Expression}
      {groupCondition groupCondition' : Option Expression} {ordering ordering' : List OrderingTerm}
      {limit offset : Option UInt64}
      (hcommonTables : With.OptionRespells commonTables commonTables')
      (hcolumns : ResultColumn.ListRespells columns columns')
      (hsource : From.OptionRespells source source') (hjoins : Join.ListRespells joins joins')
      (hcondition : Expression.OptionRespells condition condition')
      (hgroups : Expression.ListRespells groups groups')
      (hgroupCondition : Expression.OptionRespells groupCondition groupCondition')
      (hordering : OrderingTerm.ListRespells ordering ordering') :
      Select.Respells
        ⟨commonTables, mode, columns, source, joins, condition, groups, groupCondition, ordering,
          limit, offset⟩
        ⟨commonTables', mode, columns', source', joins', condition', groups', groupCondition',
          ordering', limit, offset⟩

end

theorem ResultColumn.ListRespells.eq_nil_iff {cs cs' : List ResultColumn}
    (h : ResultColumn.ListRespells cs cs') : cs' = [] ↔ cs = [] := by
  cases h with
  | nil => rfl
  | cons => exact iff_of_false (List.cons_ne_nil _ _) (List.cons_ne_nil _ _)

/-! ## Their texts -/

mutual

theorem Expression.Respells.toSql_eq {e e' : Expression} (h : Expression.Respells e e') :
    e'.toSql = e.toSql := by
  match h with
  | .same e => rfl
  | @Expression.Respells.call function _ _ h =>
    exact congrArg (fun ts => function ++ Text.parenthesized (Text.commaSeparated ts)) h.toSql_eq
  | @Expression.Respells.cast _ _ storage h =>
    exact congrArg ("CAST(".toList ++ · ++ " AS " ++ storage.keyword ++ ")") h.toSql_eq
  | .subquery h => exact congrArg Text.parenthesized h.toSql_eq
  | @Expression.Respells.exists negated _ _ h =>
    exact congrArg (negation negated ++ "EXISTS " ++ Text.parenthesized ·) h.toSql_eq
  | @Expression.Respells.case _ operand' _ branches' _ otherwise' hoperand hbranches hotherwise =>
    change "CASE" ++ (optionalClause " " (Expression.optionToSql operand')).flatten ++
      Branch.listToSql branches' ++
      (optionalClause " ELSE " (Expression.optionToSql otherwise')).flatten ++ " END" = _
    rw [hoperand.toSql_eq, hbranches.toSql_eq, hotherwise.toSql_eq]
    rfl
  | @Expression.Respells.binary operator _ left' _ right' hleft hright =>
    change left'.toSql ++ " " ++ operator.symbol ++ " " ++ right'.toSql = _
    rw [hleft.toSql_eq, hright.toSql_eq]
    rfl
  | .not h => exact congrArg ("NOT ".toList ++ ·) h.toSql_eq
  | .parenthesized h => exact congrArg Text.parenthesized h.toSql_eq
  | @Expression.Respells.isNull negated _ _ h =>
    exact congrArg (· ++ " IS " ++ negation negated ++ "NULL") h.toSql_eq
  | @Expression.Respells.likeEscape _ operand' _ pattern' _ escape' hoperand hpattern hescape =>
    change operand'.toSql ++ " LIKE " ++ pattern'.toSql ++ " ESCAPE " ++ escape'.toSql = _
    rw [hoperand.toSql_eq, hpattern.toSql_eq, hescape.toSql_eq]
    rfl
  | @Expression.Respells.between negated _ operand' _ low' _ high' hoperand hlow hhigh =>
    change operand'.toSql ++ " " ++ negation negated ++ "BETWEEN " ++ low'.toSql ++ " AND " ++
      high'.toSql = _
    rw [hoperand.toSql_eq, hlow.toSql_eq, hhigh.toSql_eq]
    rfl
  | @Expression.Respells.inList negated _ operand' _ items' hoperand hitems =>
    change operand'.toSql ++ " " ++ negation negated ++ "IN " ++
      Text.parenthesized (Text.commaSeparated (Expression.listToSql items')) = _
    rw [hoperand.toSql_eq, hitems.toSql_eq]
    rfl
  | @Expression.Respells.inSelect negated _ operand' _ query' hoperand hquery =>
    change operand'.toSql ++ " " ++ negation negated ++ "IN " ++ Text.parenthesized query'.toSql = _
    rw [hoperand.toSql_eq, hquery.toSql_eq]
    rfl
  | @Expression.Respells.collate _ _ collation h =>
    exact congrArg (· ++ " COLLATE " ++ collation) h.toSql_eq

theorem Expression.ListRespells.toSql_eq {es es' : List Expression}
    (h : Expression.ListRespells es es') :
    Expression.listToSql es' = Expression.listToSql es := by
  match h with
  | .nil => rfl
  | @Expression.ListRespells.cons _ e' _ es' h hs =>
    change e'.toSql :: Expression.listToSql es' = _
    rw [h.toSql_eq, hs.toSql_eq]
    rfl

theorem Expression.OptionRespells.toSql_eq {e e' : Option Expression}
    (h : Expression.OptionRespells e e') :
    Expression.optionToSql e' = Expression.optionToSql e := by
  match h with
  | .none => rfl
  | .some h => exact congrArg some h.toSql_eq

theorem Branch.ListRespells.toSql_eq {branches branches' : List Branch}
    (h : Branch.ListRespells branches branches') :
    Branch.listToSql branches' = Branch.listToSql branches := by
  match h with
  | .nil => rfl
  | @Branch.ListRespells.cons _ condition' _ result' _ branches' hcondition hresult hs =>
    change " WHEN " ++ condition'.toSql ++ " THEN " ++ result'.toSql ++
      Branch.listToSql branches' = _
    rw [hcondition.toSql_eq, hresult.toSql_eq, hs.toSql_eq]
    rfl

theorem Source.Respells.toSql_eq {source source' : Source} (h : Source.Respells source source') :
    source'.toSql = source.toSql := by
  match h with
  | .table name => rfl
  | .subquery h => exact congrArg Text.parenthesized h.toSql_eq

theorem ResultColumn.Respells.toSql_eq {c c' : ResultColumn} (h : ResultColumn.Respells c c') :
    c'.toSql = c.toSql := by
  match h with
  | @ResultColumn.Respells.expression _ _ asName h =>
    exact congrArg (· ++ aliasClause asName) h.toSql_eq
  | .wildcard => rfl
  | .tableWildcard table => rfl

theorem ResultColumn.ListRespells.toSql_eq {cs cs' : List ResultColumn}
    (h : ResultColumn.ListRespells cs cs') :
    ResultColumn.listToSql cs' = ResultColumn.listToSql cs := by
  match h with
  | .nil => rfl
  | @ResultColumn.ListRespells.cons _ c' _ cs' h hs =>
    change c'.toSql :: ResultColumn.listToSql cs' = _
    rw [h.toSql_eq, hs.toSql_eq]
    rfl

theorem JoinConstraint.OptionRespells.toSql_eq {constraint constraint' : Option JoinConstraint}
    (h : JoinConstraint.OptionRespells constraint constraint') :
    JoinConstraint.optionToSql constraint' = JoinConstraint.optionToSql constraint := by
  match h with
  | .none => rfl
  | .on h => exact congrArg (" ON ".toList ++ ·) h.toSql_eq
  | .using h => exact congrArg (" USING ".toList ++ Text.parenthesized ·) (identifierList_eq h)

theorem Join.ListRespells.toSql_eq {js js' : List Join} (h : Join.ListRespells js js') :
    Join.listToSql js' = Join.listToSql js := by
  match h with
  | .nil => rfl
  | @Join.ListRespells.cons kind _ source' asName _ constraint' _ js' hsource hconstraint hs =>
    change (kind.keyword ++ " " ++ source'.toSql ++ aliasClause asName ++
      JoinConstraint.optionToSql constraint') :: Join.listToSql js' = _
    rw [hsource.toSql_eq, hconstraint.toSql_eq, hs.toSql_eq]
    rfl

theorem OrderingTerm.ListRespells.toSql_eq {ts ts' : List OrderingTerm}
    (h : OrderingTerm.ListRespells ts ts') :
    OrderingTerm.listToSql ts' = OrderingTerm.listToSql ts := by
  match h with
  | .nil => rfl
  | @OrderingTerm.ListRespells.cons _ e' order nulls _ ts' h hs =>
    change (e'.toSql ++ SortOrder.clause order ++ NullsOrder.clause nulls) ::
      OrderingTerm.listToSql ts' = _
    rw [h.toSql_eq, hs.toSql_eq]
    rfl

theorem CommonTable.ListRespells.toSql_eq {ts ts' : List CommonTable}
    (h : CommonTable.ListRespells ts ts') :
    CommonTable.listToSql ts' = CommonTable.listToSql ts := by
  match h with
  | .nil => rfl
  | @CommonTable.ListRespells.cons name columns materialized _ query' _ ts' h hs =>
    change (identifier name ++
      (if columns = [] then [] else Text.parenthesized (identifierList columns)) ++ " AS " ++
      materializedHint materialized ++ Text.parenthesized query'.toSql) ::
        CommonTable.listToSql ts' = _
    rw [h.toSql_eq, hs.toSql_eq]
    rfl

theorem With.OptionRespells.toSql_eq {w w' : Option With} (h : With.OptionRespells w w') :
    With.optionToSql w' = With.optionToSql w := by
  match h with
  | .none => rfl
  | @With.OptionRespells.some recursive _ tables' h =>
    change ["WITH " ++ (if recursive then "RECURSIVE " else "") ++
      Text.commaSeparated (CommonTable.listToSql tables')] = _
    rw [h.toSql_eq]
    rfl

theorem From.OptionRespells.toSql_eq {source source' : Option From}
    (h : From.OptionRespells source source') :
    From.optionToSql source' = From.optionToSql source := by
  match h with
  | .none => rfl
  | @From.OptionRespells.some _ _ asName h => exact congrArg (fun t => some (t, asName)) h.toSql_eq

theorem Select.Respells.toSql_eq {s s' : Select} (h : Select.Respells s s') :
    s'.toSql = s.toSql := by
  match h with
  | .same s => rfl
  | @Select.Respells.mk _ commonTables' mode _ columns' _ source' _ joins' _ condition' _ groups' _
      groupCondition' _ ordering' limit offset hcommonTables hcolumns hsource hjoins hcondition
      hgroups hgroupCondition hordering =>
    change Text.spaceSeparated
      (With.optionToSql commonTables' ++ ["SELECT".toList] ++
        (mode.map SelectMode.keyword).toList ++
        (if columns' = [] then ["*".toList]
          else [Text.commaSeparated (ResultColumn.listToSql columns')]) ++
        sourceClauses (From.optionToSql source') (Join.listToSql joins') ++
        optionalClause "WHERE " (Expression.optionToSql condition') ++
        listClause "GROUP BY " (Expression.listToSql groups') ++
        optionalClause "HAVING " (Expression.optionToSql groupCondition') ++
        listClause "ORDER BY " (OrderingTerm.listToSql ordering') ++
        limitClause limit offset) = _
    simp only [hcolumns.eq_nil_iff, hcommonTables.toSql_eq, hcolumns.toSql_eq, hsource.toSql_eq,
      hjoins.toSql_eq, hcondition.toSql_eq, hgroups.toSql_eq, hgroupCondition.toSql_eq,
      hordering.toSql_eq]
    rfl

end

end AnnotatedSchema
