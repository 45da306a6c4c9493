import AnnotatedSchema.Annotation.Constraint
import AnnotatedSchema.Proofs.Balance
import AnnotatedSchema.Query.Builder
import AnnotatedSchema.Query.Render

/-!
# Queries nest

Everything that a query or an expression writes of its own is balanced, literals of any value
included. So if the texts it takes over as they are can stand in brackets, its SQL text can; and a
check on an expression is read back from its clause.
-/

namespace AnnotatedSchema

open Text

/-! ## The texts that are taken over -/

def ColumnName.verbatim (c : ColumnName) : List Text :=
  c.schema.toList ++ c.table.toList ++ [c.name]

def Operator.verbatim : Operator → List Text
  | other symbol => [symbol]
  | _ => []

def Parameter.verbatim : Parameter → List Text
  | colon name => [name]
  | «at» name => [name]
  | dollar name => [name]
  | _ => []

mutual

/-- The texts in an expression that are written as they are: raw SQL and all names. -/
def Expression.verbatim : Expression → List Text
  | .raw sql => [sql]
  | .column name => name.verbatim
  | .value _ => []
  | .parameter p => p.verbatim
  | .call function arguments => function :: Expression.listVerbatim arguments
  | .cast operand _ => operand.verbatim
  | .subquery query => query.verbatim
  | .exists _ query => query.verbatim
  | .raise _ => []
  | .case operand branches otherwise =>
    Expression.optionVerbatim operand ++ Branch.listVerbatim branches ++
      Expression.optionVerbatim otherwise
  | .binary operator left right => operator.verbatim ++ left.verbatim ++ right.verbatim
  | .not operand => operand.verbatim
  | .parenthesized operand => operand.verbatim
  | .isNull _ operand => operand.verbatim
  | .likeEscape operand pattern escape => operand.verbatim ++ pattern.verbatim ++ escape.verbatim
  | .between _ operand low high => operand.verbatim ++ low.verbatim ++ high.verbatim
  | .inList _ operand items => operand.verbatim ++ Expression.listVerbatim items
  | .inSelect _ operand query => operand.verbatim ++ query.verbatim
  | .collate operand collation => operand.verbatim ++ [collation]

def Expression.listVerbatim : List Expression → List Text
  | [] => []
  | e :: es => e.verbatim ++ Expression.listVerbatim es

def Expression.optionVerbatim : Option Expression → List Text
  | none => []
  | some e => e.verbatim

def Branch.listVerbatim : List Branch → List Text
  | [] => []
  | ⟨condition, result⟩ :: branches =>
    condition.verbatim ++ result.verbatim ++ Branch.listVerbatim branches

def Source.verbatim : Source → List Text
  | .table name => [name]
  | .subquery query => query.verbatim

def ResultColumn.verbatim : ResultColumn → List Text
  | .expression e asName => e.verbatim ++ asName.toList
  | .wildcard => []
  | .tableWildcard table => [table]

def ResultColumn.listVerbatim : List ResultColumn → List Text
  | [] => []
  | c :: cs => c.verbatim ++ ResultColumn.listVerbatim cs

def JoinConstraint.optionVerbatim : Option JoinConstraint → List Text
  | none => []
  | some (.on condition) => condition.verbatim
  | some (.using columns) => columns

def Join.verbatim : Join → List Text
  | ⟨_, source, asName, constraint⟩ =>
    source.verbatim ++ asName.toList ++ JoinConstraint.optionVerbatim constraint

def Join.listVerbatim : List Join → List Text
  | [] => []
  | j :: js => j.verbatim ++ Join.listVerbatim js

def OrderingTerm.verbatim : OrderingTerm → List Text
  | ⟨e, _, _⟩ => e.verbatim

def OrderingTerm.listVerbatim : List OrderingTerm → List Text
  | [] => []
  | t :: ts => t.verbatim ++ OrderingTerm.listVerbatim ts

def CommonTable.verbatim : CommonTable → List Text
  | ⟨name, columns, _, query⟩ => name :: columns ++ query.verbatim

def CommonTable.listVerbatim : List CommonTable → List Text
  | [] => []
  | t :: ts => t.verbatim ++ CommonTable.listVerbatim ts

def With.verbatim : With → List Text
  | ⟨_, tables⟩ => CommonTable.listVerbatim tables

def With.optionVerbatim : Option With → List Text
  | none => []
  | some w => w.verbatim

def From.optionVerbatim : Option From → List Text
  | none => []
  | some ⟨source, asName⟩ => source.verbatim ++ asName.toList

def Select.verbatim : Select → List Text
  | ⟨commonTables, _, columns, source, joins, condition, groups, groupCondition, ordering, _, _⟩ =>
    With.optionVerbatim commonTables ++ ResultColumn.listVerbatim columns ++
      From.optionVerbatim source ++ Join.listVerbatim joins ++
      Expression.optionVerbatim condition ++ Expression.listVerbatim groups ++
      Expression.optionVerbatim groupCondition ++ OrderingTerm.listVerbatim ordering

end

/-! ## Literals and names -/

theorem isPlain_ofNat (n : Nat) : ∀ c ∈ Text.ofNat n, isPlain c = true := fun _ hc =>
  isPlain_of (by decide) (Text.isDigit_of_mem_ofNat hc)

theorem balanced_ofNat (n : Nat) : (Text.ofNat n).Balanced := balanced_of_plain (isPlain_ofNat n)

theorem balanced_ofInt (n : Int) : (Text.ofInt n).Balanced := by
  cases n with
  | ofNat n => exact balanced_ofNat n
  | negSucc n =>
    have hminus : Balanced ['-'] := by decide
    exact hminus.append (balanced_ofNat (n + 1))

theorem balanced_positional (d : Binary64.Decimal) : d.positional.Balanced := by
  have hdigits : ∀ c ∈ d.digitText, isPlain c = true := isPlain_ofNat d.digits
  have hzeros (n : Nat) : Balanced (List.replicate n '0') := balanced_of_plain fun c hc => by
    rw [List.eq_of_mem_replicate hc]
    decide
  unfold Binary64.Decimal.positional
  dsimp only
  split
  · exact ((balanced_of_plain hdigits).append (hzeros _)).append (by decide)
  · split
    · have hbefore (n : Nat) : Balanced (d.digitText.take n) :=
        balanced_of_plain fun c hc => hdigits c (List.mem_of_mem_take hc)
      have hafter (n : Nat) : Balanced (d.digitText.drop n) :=
        balanced_of_plain fun c hc => hdigits c (List.mem_of_mem_drop hc)
      exact ((hbefore _).append (by decide)).append (hafter _)
    · have hpoint : Balanced "0." := by decide
      exact (hpoint.append (hzeros _)).append (balanced_of_plain hdigits)

theorem balanced_binary64 (x : Binary64) : x.text.Balanced := by
  have hsign : Balanced (if x.negative = true then "-" else "") := by
    split <;> decide
  rw [Binary64.text]
  cases x.magnitude with
  | nan =>
    show Balanced "NaN"
    decide
  | infinite => exact hsign.append (by decide)
  | finite m e =>
    refine hsign.append ?_
    split
    · decide
    · exact balanced_positional _

theorem isPlain_hexByte (b : UInt8) : ∀ c ∈ hexByte b, isPlain c = true := by
  have hdigit : ∀ n < 16, isPlain (hexDigit n) = true := by decide
  have hb : b.toNat < 256 := b.toNat_lt
  rw [hexByte, List.forall_mem_cons, List.forall_mem_singleton]
  exact ⟨hdigit _ (by omega), hdigit _ (by omega)⟩

theorem balanced_valueLiteral (v : Value) : v.literal.Balanced := by
  cases v with
  | null => decide
  | bool b => cases b <;> decide
  | int n => exact balanced_ofInt n.toInt
  | real x => exact balanced_binary64 x
  | text t => exact balanced_quoted t
  | blob bytes =>
    have hbytes : ∀ c ∈ (bytes.map hexByte).flatten, isPlain c = true := by
      intro c hc
      obtain ⟨t, ht, hct⟩ := List.mem_flatten.mp hc
      obtain ⟨b, -, rfl⟩ := List.mem_map.mp ht
      exact isPlain_hexByte b c hct
    have hopen : Nesting.outside.after? "X'" = some ⟨some ⟨'\'', by decide⟩, 0⟩ := by decide
    rw [Value.literal, Text.Balanced, List.append_assoc, Nesting.after?_append_of_eq hopen,
      Nesting.after?_append_of_eq (Nesting.after?_plain _ hbytes)]
    rfl

theorem ColumnName.balanced_toSql (c : ColumnName) (h : ∀ t ∈ c.verbatim, t.Balanced) :
    c.toSql.Balanced := by
  have hdot : Balanced "." := by decide
  obtain ⟨schema, table, name⟩ := c
  have hname : name.Balanced := h name (by simp [ColumnName.verbatim])
  cases table with
  | none => cases schema <;> exact hname
  | some table =>
    have htable : table.Balanced := h table (by simp [ColumnName.verbatim])
    cases schema with
    | none => exact (htable.append hdot).append hname
    | some schema =>
      have hschema : schema.Balanced := h schema (by simp [ColumnName.verbatim])
      exact (((hschema.append hdot).append htable).append hdot).append hname

theorem Operator.balanced_symbol (operator : Operator) (h : ∀ t ∈ operator.verbatim, t.Balanced) :
    operator.symbol.Balanced := by
  cases operator with
  | other symbol => exact h symbol (List.mem_singleton_self symbol)
  | _ => decide

theorem Parameter.balanced_toSql (p : Parameter) (h : ∀ t ∈ p.verbatim, t.Balanced) :
    p.toSql.Balanced := by
  have hmark : Balanced "?" := by decide
  have hcolon : Balanced ":" := by decide
  have hat : Balanced "@" := by decide
  have hdollar : Balanced "$" := by decide
  cases p with
  | anonymous => exact hmark
  | indexed n => exact hmark.append (balanced_ofNat n.toNat)
  | colon name => exact hcolon.append (h name (List.mem_singleton_self name))
  | «at» name => exact hat.append (h name (List.mem_singleton_self name))
  | dollar name => exact hdollar.append (h name (List.mem_singleton_self name))

theorem Raise.balanced_toSql (action : Raise) : action.toSql.Balanced := by
  cases action with
  | ignore => decide
  | rollback message => exact (balanced_quoted message).enclosed (by decide)
  | abort message => exact (balanced_quoted message).enclosed (by decide)
  | fail message => exact (balanced_quoted message).enclosed (by decide)

theorem balanced_aliasClause (asName : Option Text) (h : ∀ t ∈ asName, t.Balanced) :
    (aliasClause asName).Balanced := by
  cases asName with
  | none => exact balanced_nil
  | some name =>
    have has : Balanced " AS " := by decide
    exact has.append (h name rfl)

theorem balanced_negation (negated : Bool) : (negation negated).Balanced := by
  cases negated <;> decide

theorem balanced_optionalClause {keyword : Text} (hkeyword : keyword.Balanced)
    {argument : Option Text} (h : ∀ t ∈ argument, t.Balanced) :
    ∀ t ∈ optionalClause keyword argument, t.Balanced := by
  cases argument with
  | none => exact List.forall_mem_nil _
  | some argument => exact List.forall_mem_singleton.mpr (hkeyword.append (h argument rfl))

theorem balanced_listClause {keyword : Text} (hkeyword : keyword.Balanced) {items : List Text}
    (h : ∀ t ∈ items, t.Balanced) : ∀ t ∈ listClause keyword items, t.Balanced := by
  cases items with
  | nil => exact List.forall_mem_nil _
  | cons t ts => exact List.forall_mem_singleton.mpr (hkeyword.append (balanced_commaSeparated h))

theorem balanced_sourceClauses {source : Option (Text × Option Text)} {joins : List Text}
    (hsource : ∀ s ∈ source, s.1.Balanced ∧ ∀ t ∈ s.2, t.Balanced)
    (hjoins : ∀ t ∈ joins, t.Balanced) : ∀ t ∈ sourceClauses source joins, t.Balanced := by
  cases source with
  | none => exact List.forall_mem_nil _
  | some source =>
    obtain ⟨name, asName⟩ := source
    obtain ⟨hname, halias⟩ := hsource _ rfl
    have hfrom : Balanced "FROM " := by decide
    rw [sourceClauses]
    split
    · exact List.forall_mem_nil _
    · exact List.forall_mem_cons.mpr
        ⟨(hfrom.append hname).append (balanced_aliasClause asName halias), hjoins⟩

theorem balanced_limitClause (limit offset : Option UInt64) :
    ∀ t ∈ limitClause limit offset, t.Balanced := by
  have hlimit : Balanced "LIMIT " := by decide
  have hnone : Balanced "LIMIT -1 OFFSET " := by decide
  cases limit with
  | none =>
    cases offset with
    | none => exact List.forall_mem_nil _
    | some offset => exact List.forall_mem_singleton.mpr (hnone.append (balanced_ofNat _))
  | some limit =>
    cases offset with
    | none => exact List.forall_mem_singleton.mpr (hlimit.append (balanced_ofNat _))
    | some offset =>
      exact List.forall_mem_singleton.mpr
        (((hlimit.append (balanced_ofNat _)).append (by decide)).append (balanced_ofNat _))

/-! ## Trees -/

mutual

theorem Expression.balanced_toSql (e : Expression) (h : ∀ t ∈ e.verbatim, t.Balanced) :
    e.toSql.Balanced := by
  match e with
  | .raw sql => exact h sql (List.mem_singleton_self sql)
  | .column name => exact name.balanced_toSql h
  | .value v => exact balanced_valueLiteral v
  | .parameter p => exact p.balanced_toSql h
  | .call function arguments =>
    have h := List.forall_mem_cons.mp h
    have harguments := Expression.balanced_listToSql arguments h.2
    show Balanced (function ++ parenthesized (commaSeparated (Expression.listToSql arguments)))
    exact h.1.append (balanced_commaSeparated harguments).parenthesized
  | .cast operand storage =>
    have hoperand := Expression.balanced_toSql operand h
    have hstorage : storage.keyword.Balanced := by cases storage <;> decide
    have has : Balanced " AS " := by decide
    have hcall : Balanced ("CAST(" ++ (operand.toSql ++ " AS " ++ storage.keyword) ++ ")") :=
      ((hoperand.append has).append hstorage).enclosed (by decide)
    show Balanced ("CAST(" ++ operand.toSql ++ " AS " ++ storage.keyword ++ ")")
    simpa only [List.append_assoc] using hcall
  | .subquery query => exact (Select.balanced_toSql query h).parenthesized
  | .exists negated query =>
    have hexists : Balanced "EXISTS " := by decide
    show Balanced (negation negated ++ "EXISTS " ++ query.toSql.parenthesized)
    exact ((balanced_negation negated).append hexists).append
      (Select.balanced_toSql query h).parenthesized
  | .raise action => exact action.balanced_toSql
  | .case operand branches otherwise =>
    obtain ⟨h, hotherwise⟩ := List.forall_mem_append.mp h
    obtain ⟨hoperand, hbranches⟩ := List.forall_mem_append.mp h
    have hcase : Balanced "CASE" := by decide
    have hend : Balanced " END" := by decide
    have hoperand : ∀ t ∈ optionalClause " " (Expression.optionToSql operand), t.Balanced :=
      balanced_optionalClause (by decide) (Expression.balanced_optionToSql operand hoperand)
    have helse : ∀ t ∈ optionalClause " ELSE " (Expression.optionToSql otherwise), t.Balanced :=
      balanced_optionalClause (by decide) (Expression.balanced_optionToSql otherwise hotherwise)
    show Balanced ("CASE" ++ (optionalClause " " (Expression.optionToSql operand)).flatten ++
      Branch.listToSql branches ++
      (optionalClause " ELSE " (Expression.optionToSql otherwise)).flatten ++ " END")
    exact (((hcase.append (balanced_flatten hoperand)).append
      (Branch.balanced_listToSql branches hbranches)).append
        (balanced_flatten helse)).append hend
  | .binary operator left right =>
    obtain ⟨h, hright⟩ := List.forall_mem_append.mp h
    obtain ⟨hoperator, hleft⟩ := List.forall_mem_append.mp h
    have hblank : Balanced " " := by decide
    show Balanced (left.toSql ++ " " ++ operator.symbol ++ " " ++ right.toSql)
    exact ((((Expression.balanced_toSql left hleft).append hblank).append
      (operator.balanced_symbol hoperator)).append hblank).append
        (Expression.balanced_toSql right hright)
  | .not operand =>
    have hnot : Balanced "NOT " := by decide
    exact hnot.append (Expression.balanced_toSql operand h)
  | .parenthesized operand => exact (Expression.balanced_toSql operand h).parenthesized
  | .isNull negated operand =>
    have his : Balanced " IS " := by decide
    have hnull : Balanced "NULL" := by decide
    show Balanced (operand.toSql ++ " IS " ++ negation negated ++ "NULL")
    exact (((Expression.balanced_toSql operand h).append his).append
      (balanced_negation negated)).append hnull
  | .likeEscape operand pattern escape =>
    obtain ⟨h, hescape⟩ := List.forall_mem_append.mp h
    obtain ⟨hoperand, hpattern⟩ := List.forall_mem_append.mp h
    have hlike : Balanced " LIKE " := by decide
    have hword : Balanced " ESCAPE " := by decide
    show Balanced (operand.toSql ++ " LIKE " ++ pattern.toSql ++ " ESCAPE " ++ escape.toSql)
    exact ((((Expression.balanced_toSql operand hoperand).append hlike).append
      (Expression.balanced_toSql pattern hpattern)).append hword).append
        (Expression.balanced_toSql escape hescape)
  | .between negated operand low high =>
    obtain ⟨h, hhigh⟩ := List.forall_mem_append.mp h
    obtain ⟨hoperand, hlow⟩ := List.forall_mem_append.mp h
    have hblank : Balanced " " := by decide
    have hbetween : Balanced "BETWEEN " := by decide
    have hand : Balanced " AND " := by decide
    show Balanced (operand.toSql ++ " " ++ negation negated ++ "BETWEEN " ++ low.toSql ++ " AND " ++
      high.toSql)
    exact ((((((Expression.balanced_toSql operand hoperand).append hblank).append
      (balanced_negation negated)).append hbetween).append
        (Expression.balanced_toSql low hlow)).append hand).append
          (Expression.balanced_toSql high hhigh)
  | .inList negated operand items =>
    have h := List.forall_mem_append.mp h
    have hblank : Balanced " " := by decide
    have hin : Balanced "IN " := by decide
    show Balanced (operand.toSql ++ " " ++ negation negated ++ "IN " ++
      parenthesized (commaSeparated (Expression.listToSql items)))
    exact ((((Expression.balanced_toSql operand h.1).append hblank).append
      (balanced_negation negated)).append hin).append
        (balanced_commaSeparated (Expression.balanced_listToSql items h.2)).parenthesized
  | .inSelect negated operand query =>
    have h := List.forall_mem_append.mp h
    have hblank : Balanced " " := by decide
    have hin : Balanced "IN " := by decide
    show Balanced (operand.toSql ++ " " ++ negation negated ++ "IN " ++ query.toSql.parenthesized)
    exact ((((Expression.balanced_toSql operand h.1).append hblank).append
      (balanced_negation negated)).append hin).append
        (Select.balanced_toSql query h.2).parenthesized
  | .collate operand collation =>
    obtain ⟨hoperand, hcollation⟩ := List.forall_mem_append.mp h
    have hcollate : Balanced " COLLATE " := by decide
    show Balanced (operand.toSql ++ " COLLATE " ++ collation)
    exact ((Expression.balanced_toSql operand hoperand).append hcollate).append
      (List.forall_mem_singleton.mp hcollation)

theorem Expression.balanced_listToSql (es : List Expression)
    (h : ∀ t ∈ Expression.listVerbatim es, t.Balanced) :
    ∀ t ∈ Expression.listToSql es, t.Balanced := by
  match es with
  | [] => exact List.forall_mem_nil _
  | e :: es =>
    have h := List.forall_mem_append.mp h
    exact List.forall_mem_cons.mpr ⟨Expression.balanced_toSql e h.1,
      Expression.balanced_listToSql es h.2⟩

theorem Expression.balanced_optionToSql (e? : Option Expression)
    (h : ∀ t ∈ Expression.optionVerbatim e?, t.Balanced) :
    ∀ t ∈ Expression.optionToSql e?, t.Balanced := by
  match e? with
  | none => exact nofun
  | some e =>
    intro t ht
    obtain rfl := Option.some.inj ht
    exact Expression.balanced_toSql e h

theorem Branch.balanced_listToSql (branches : List Branch)
    (h : ∀ t ∈ Branch.listVerbatim branches, t.Balanced) :
    (Branch.listToSql branches).Balanced := by
  match branches with
  | [] => exact balanced_nil
  | ⟨condition, result⟩ :: branches =>
    obtain ⟨h, hbranches⟩ := List.forall_mem_append.mp h
    obtain ⟨hcondition, hresult⟩ := List.forall_mem_append.mp h
    have hwhen : Balanced " WHEN " := by decide
    have hthen : Balanced " THEN " := by decide
    exact (((hwhen.append (Expression.balanced_toSql condition hcondition)).append hthen).append
      (Expression.balanced_toSql result hresult)).append
        (Branch.balanced_listToSql branches hbranches)

theorem Source.balanced_toSql (source : Source) (h : ∀ t ∈ source.verbatim, t.Balanced) :
    source.toSql.Balanced := by
  match source with
  | .table name => exact (balanced_identifier_iff name).mpr (h name (List.mem_singleton_self name))
  | .subquery query => exact (Select.balanced_toSql query h).parenthesized

theorem ResultColumn.balanced_toSql (c : ResultColumn) (h : ∀ t ∈ c.verbatim, t.Balanced) :
    c.toSql.Balanced := by
  match c with
  | .expression e asName =>
    have h := List.forall_mem_append.mp h
    exact (Expression.balanced_toSql e h.1).append
      (balanced_aliasClause asName fun t ht => h.2 t (Option.mem_toList.mpr ht))
  | .wildcard =>
    show Balanced "*"
    decide
  | .tableWildcard table =>
    have htable := (balanced_identifier_iff table).mpr (h table (List.mem_singleton_self table))
    have hall : Balanced ".*" := by decide
    exact htable.append hall

theorem ResultColumn.balanced_listToSql (cs : List ResultColumn)
    (h : ∀ t ∈ ResultColumn.listVerbatim cs, t.Balanced) :
    ∀ t ∈ ResultColumn.listToSql cs, t.Balanced := by
  match cs with
  | [] => exact List.forall_mem_nil _
  | c :: cs =>
    have h := List.forall_mem_append.mp h
    exact List.forall_mem_cons.mpr ⟨ResultColumn.balanced_toSql c h.1,
      ResultColumn.balanced_listToSql cs h.2⟩

theorem JoinConstraint.balanced_optionToSql (constraint : Option JoinConstraint)
    (h : ∀ t ∈ JoinConstraint.optionVerbatim constraint, t.Balanced) :
    (JoinConstraint.optionToSql constraint).Balanced := by
  match constraint with
  | none => exact balanced_nil
  | some (.on condition) =>
    have hon : Balanced " ON " := by decide
    exact hon.append (Expression.balanced_toSql condition h)
  | some (.using columns) =>
    have husing : Balanced " USING " := by decide
    exact husing.append (balanced_identifierList h).parenthesized

theorem Join.balanced_toSql (j : Join) (h : ∀ t ∈ j.verbatim, t.Balanced) :
    j.toSql.Balanced := by
  match j with
  | ⟨kind, source, asName, constraint⟩ =>
    obtain ⟨h, hconstraint⟩ := List.forall_mem_append.mp h
    obtain ⟨hsource, halias⟩ := List.forall_mem_append.mp h
    have hkind : kind.keyword.Balanced := by cases kind <;> decide
    have hblank : Balanced " " := by decide
    exact (((hkind.append hblank).append (Source.balanced_toSql source hsource)).append
      (balanced_aliasClause asName fun t ht => halias t (Option.mem_toList.mpr ht))).append
        (JoinConstraint.balanced_optionToSql constraint hconstraint)

theorem Join.balanced_listToSql (js : List Join)
    (h : ∀ t ∈ Join.listVerbatim js, t.Balanced) : ∀ t ∈ Join.listToSql js, t.Balanced := by
  match js with
  | [] => exact List.forall_mem_nil _
  | j :: js =>
    have h := List.forall_mem_append.mp h
    exact List.forall_mem_cons.mpr ⟨Join.balanced_toSql j h.1,
      Join.balanced_listToSql js h.2⟩

theorem OrderingTerm.balanced_toSql (term : OrderingTerm)
    (h : ∀ t ∈ term.verbatim, t.Balanced) : term.toSql.Balanced := by
  match term with
  | ⟨e, order, nulls⟩ =>
    have horder := balanced_sortClause order
    have hnulls : (NullsOrder.clause nulls).Balanced := by
      cases nulls with
      | none => exact balanced_nil
      | some nulls => cases nulls <;> decide
    exact ((Expression.balanced_toSql e h).append horder).append hnulls

theorem OrderingTerm.balanced_listToSql (ts : List OrderingTerm)
    (h : ∀ t ∈ OrderingTerm.listVerbatim ts, t.Balanced) :
    ∀ t ∈ OrderingTerm.listToSql ts, t.Balanced := by
  match ts with
  | [] => exact List.forall_mem_nil _
  | t :: ts =>
    have h := List.forall_mem_append.mp h
    exact List.forall_mem_cons.mpr ⟨OrderingTerm.balanced_toSql t h.1,
      OrderingTerm.balanced_listToSql ts h.2⟩

theorem CommonTable.balanced_toSql (table : CommonTable)
    (h : ∀ t ∈ table.verbatim, t.Balanced) : table.toSql.Balanced := by
  match table with
  | ⟨name, columns, materialized, query⟩ =>
    obtain ⟨h, hquery⟩ := List.forall_mem_append.mp h
    obtain ⟨hname, hcolumns⟩ := List.forall_mem_cons.mp h
    have hlist : Balanced (if columns = [] then [] else
        Text.parenthesized (identifierList columns)) := by
      split
      · exact balanced_nil
      · exact (balanced_identifierList hcolumns).parenthesized
    have has : Balanced " AS " := by decide
    have hhint : (materializedHint materialized).Balanced := by
      cases materialized with
      | none => exact balanced_nil
      | some materialized => cases materialized <;> decide
    exact (((((balanced_identifier_iff name).mpr hname).append hlist).append has).append
      hhint).append (Select.balanced_toSql query hquery).parenthesized

theorem CommonTable.balanced_listToSql (ts : List CommonTable)
    (h : ∀ t ∈ CommonTable.listVerbatim ts, t.Balanced) :
    ∀ t ∈ CommonTable.listToSql ts, t.Balanced := by
  match ts with
  | [] => exact List.forall_mem_nil _
  | t :: ts =>
    have h := List.forall_mem_append.mp h
    exact List.forall_mem_cons.mpr ⟨CommonTable.balanced_toSql t h.1,
      CommonTable.balanced_listToSql ts h.2⟩

theorem With.balanced_toSql (w : With) (h : ∀ t ∈ w.verbatim, t.Balanced) :
    w.toSql.Balanced := by
  match w with
  | ⟨recursive, tables⟩ =>
    have hwith : Balanced "WITH " := by decide
    have hrecursive : Balanced (if recursive then "RECURSIVE " else "" : String) := by
      cases recursive <;> decide
    exact (hwith.append hrecursive).append
      (balanced_commaSeparated (CommonTable.balanced_listToSql tables h))

theorem With.balanced_optionToSql (w? : Option With)
    (h : ∀ t ∈ With.optionVerbatim w?, t.Balanced) : ∀ t ∈ With.optionToSql w?, t.Balanced := by
  match w? with
  | none => exact List.forall_mem_nil _
  | some w => exact List.forall_mem_singleton.mpr (With.balanced_toSql w h)

theorem From.balanced_optionToSql (from? : Option From)
    (h : ∀ t ∈ From.optionVerbatim from?, t.Balanced) :
    ∀ s ∈ From.optionToSql from?, s.1.Balanced ∧ ∀ t ∈ s.2, t.Balanced := by
  match from? with
  | none => exact nofun
  | some ⟨source, asName⟩ =>
    have h := List.forall_mem_append.mp h
    intro s hs
    obtain rfl := Option.some.inj hs
    exact ⟨Source.balanced_toSql source h.1, fun t ht => h.2 t (Option.mem_toList.mpr ht)⟩

theorem Select.balanced_toSql (s : Select) (h : ∀ t ∈ s.verbatim, t.Balanced) :
    s.toSql.Balanced := by
  match s with
  | ⟨commonTables, mode, columns, source, joins, condition, groups, groupCondition, ordering,
      limit, offset⟩ =>
    obtain ⟨h, hordering⟩ := List.forall_mem_append.mp h
    obtain ⟨h, hhaving⟩ := List.forall_mem_append.mp h
    obtain ⟨h, hgroups⟩ := List.forall_mem_append.mp h
    obtain ⟨h, hcondition⟩ := List.forall_mem_append.mp h
    obtain ⟨h, hjoins⟩ := List.forall_mem_append.mp h
    obtain ⟨h, hsource⟩ := List.forall_mem_append.mp h
    obtain ⟨hwith, hcolumns⟩ := List.forall_mem_append.mp h
    have hmode : ∀ t ∈ (mode.map SelectMode.keyword).toList, t.Balanced := by
      match mode with
      | none => exact List.forall_mem_nil _
      | some .all => decide
      | some .distinct => decide
    have hlist : ∀ t : Text, t ∈ (if columns = [] then ["*".toList]
        else [commaSeparated (ResultColumn.listToSql columns)]) → t.Balanced := by
      split
      · decide
      · exact List.forall_mem_singleton.mpr
          (balanced_commaSeparated (ResultColumn.balanced_listToSql columns hcolumns))
    refine balanced_spaceSeparated ?_
    simp only [List.forall_mem_append]
    exact ⟨⟨⟨⟨⟨⟨⟨⟨⟨With.balanced_optionToSql commonTables hwith, by decide⟩, hmode⟩, hlist⟩,
      balanced_sourceClauses (From.balanced_optionToSql source hsource)
        (Join.balanced_listToSql joins hjoins)⟩,
      balanced_optionalClause (by decide) (Expression.balanced_optionToSql condition hcondition)⟩,
      balanced_listClause (by decide) (Expression.balanced_listToSql groups hgroups)⟩,
      balanced_optionalClause (by decide)
        (Expression.balanced_optionToSql groupCondition hhaving)⟩,
      balanced_listClause (by decide) (OrderingTerm.balanced_listToSql ordering hordering)⟩,
      balanced_limitClause limit offset⟩

end

/-! ## Brackets around a tree -/

theorem ColumnName.verbatim_ofModel {m : Model} {name : Text} {c : ColumnName}
    (h : ofModel m name = .ok c) : c.verbatim = [identifier m.name, identifier name] := by
  unfold ofModel at h
  split at h
  · obtain rfl := Except.ok.inj h
    rfl
  · cases h

namespace Annotation

open Piece

theorem constraints_checkSql (column : Text) {t : Text} (h : t.Closed)
    (hblank : t.blank = false) : constraints column (checkSql t) = .ok [⟨none, .check t.trim⟩] := by
  have hlone : ∀ p ∈ [ofWord "CHECK", ofBody t], p.Lone := List.forall_mem_cons.mpr
    ⟨lone_ofWord (by decide), List.forall_mem_singleton.mpr (lone_ofBody h)⟩
  have htext : ' ' :: checkSql t = spaced [ofWord "CHECK", ofBody t] := by
    rw [spaced_cons, spaced_singleton]
    rfl
  have hbody : (ofBody t).groupBody? = some t.trim := groupBody?_parenthesized t 0
  obtain ⟨c, u, htrim⟩ := List.exists_cons_of_ne_nil (Text.trim_ne_nil hblank)
  have hgroup : readGroup? [ofBody t] = some (t.trim, []) := by
    rw [readGroup?, hbody, htrim]
  have hread : readClause column .check [ofBody t] = .ok (.check t.trim, []) := by
    rw [readClause, hgroup]
    rfl
  have hkeyword : Keyword.leading? [ofWord "CHECK", ofBody t] = some (.clause .check) := rfl
  have hdrop : [ofBody t].drop (Keyword.width (.clause .check) - 1) = [ofBody t] := rfl
  rw [constraints_spaced column hlone htext, readConstraints_clause hkeyword, hdrop, hread]
  change (readConstraints column none []).map _ = _
  rw [readConstraints_nil]
  rfl

end Annotation

open Annotation

/-- The text of every tree is closed if the texts are that it takes over; so a check on an
expression is read back as one constraint. -/
theorem toSql_closed :
    (∀ e : Expression, (∀ t ∈ e.verbatim, t.Closed) → e.toSql.Closed ∧
      (e.isEmpty = false → ∀ column,
        constraints column (checkSql e.toSql) = .ok [⟨none, .check e.toSql.trim⟩])) ∧
    (∀ s : Select, (∀ t ∈ s.verbatim, t.Closed) → s.toSql.Closed) ∧
    (∀ j : Join, (∀ t ∈ j.verbatim, t.Closed) → j.toSql.Closed) ∧
    (∀ o : OrderingTerm, (∀ t ∈ o.verbatim, t.Closed) → o.toSql.Closed) ∧
    (∀ c : CommonTable, (∀ t ∈ c.verbatim, t.Closed) → c.toSql.Closed) ∧
    (∀ w : With, (∀ t ∈ w.verbatim, t.Closed) → w.toSql.Closed) ∧
    ∀ (m : Model) (name : Text) (c : ColumnName), ColumnName.ofModel m name = .ok c →
      m.name.Closed → name.Closed → ∀ t ∈ c.verbatim, t.Closed := by
  have hbalanced {ts : List Text} (h : ∀ t ∈ ts, t.Closed) : ∀ t ∈ ts, t.Balanced :=
    fun t ht => closed_iff_balanced.mp (h t ht)
  refine ⟨fun e h => ?_, fun s h => ?_, fun j h => ?_, fun o h => ?_, fun c h => ?_, fun w h => ?_,
    fun m name c hc hm hname => ?_⟩
  · have hclosed := closed_iff_balanced.mpr (e.balanced_toSql (hbalanced h))
    exact ⟨hclosed, fun hempty column => constraints_checkSql column hclosed hempty⟩
  · exact closed_iff_balanced.mpr (s.balanced_toSql (hbalanced h))
  · exact closed_iff_balanced.mpr (j.balanced_toSql (hbalanced h))
  · exact closed_iff_balanced.mpr (o.balanced_toSql (hbalanced h))
  · exact closed_iff_balanced.mpr (c.balanced_toSql (hbalanced h))
  · exact closed_iff_balanced.mpr (w.balanced_toSql (hbalanced h))
  · rw [ColumnName.verbatim_ofModel hc, List.forall_mem_cons, List.forall_mem_singleton]
    simp only [closed_iff_balanced] at hm hname ⊢
    exact ⟨(balanced_identifier_iff m.name).mpr hm, (balanced_identifier_iff name).mpr hname⟩

/-- An expression with brackets and quotes in its literals, under a function and in a subquery. -/
def ownerExpression : Expression :=
  .inSelect true (.call "lower" [.column (.plain "owner"), .value (.text "it's :-)")])
    (Select.build [.columns [.expression (.raw "name") (some "n")], .from ⟨.table "UserName", none⟩,
      .where (.binary .notEqual (.column (.plain "name")) (.value (.text "'(")))])

theorem toSql_closed_owner :
    (∀ t ∈ ownerExpression.verbatim, t.Closed) ∧
      constraints "owner" ("CHECK (lower(owner, 'it''s :-)') NOT IN (SELECT name AS n " ++
        "FROM user_name WHERE name != '''('))") =
        .ok [⟨none, .check ownerExpression.toSql.trim⟩] := by
  have hclosed : ∀ t ∈ ownerExpression.verbatim, t.Closed := by decide +kernel
  have htext : ("CHECK (lower(owner, 'it''s :-)') NOT IN (SELECT name AS n ".toList ++
      "FROM user_name WHERE name != '''('))".toList) = checkSql ownerExpression.toSql := by
    decide +kernel
  rw [htext]
  exact ⟨hclosed, (toSql_closed.1 ownerExpression hclosed).2 (by decide +kernel) "owner"⟩

end AnnotatedSchema
