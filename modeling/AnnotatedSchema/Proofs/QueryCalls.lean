import AnnotatedSchema.Query.Builder
import AnnotatedSchema.Query.Render
import Mathlib.Data.List.Induction

/-!
# The order of calls

Every call on a query goes to one clause of it. So the calls for different clauses can be made in
any order: the query has, for each clause, the last of the calls for it or all of them, and is
written clause by clause.
-/

namespace AnnotatedSchema

/-! ## Lists in queries -/

theorem Expression.listToSql_eq (es : List Expression) :
    Expression.listToSql es = es.map Expression.toSql := by
  induction es with
  | nil => rfl
  | cons e es ih => rw [Expression.listToSql, ih, List.map_cons]

theorem ResultColumn.listToSql_eq (cs : List ResultColumn) :
    ResultColumn.listToSql cs = cs.map ResultColumn.toSql := by
  induction cs with
  | nil => rfl
  | cons c cs ih => rw [ResultColumn.listToSql, ih, List.map_cons]

theorem Join.listToSql_eq (js : List Join) : Join.listToSql js = js.map Join.toSql := by
  induction js with
  | nil => rfl
  | cons j js ih => rw [Join.listToSql, ih, List.map_cons]

theorem OrderingTerm.listToSql_eq (ts : List OrderingTerm) :
    OrderingTerm.listToSql ts = ts.map OrderingTerm.toSql := by
  induction ts with
  | nil => rfl
  | cons t ts ih => rw [OrderingTerm.listToSql, ih, List.map_cons]

/-! ## Calls of several kinds -/

-- What is taken from the calls of one kind does not depend on the other calls.
theorem filterMap_eq_of_kind {α β κ : Type} [DecidableEq κ] (kindOf : α → κ) (kind : κ)
    {take? : α → Option β} (htake : ∀ a, kindOf a ≠ kind → take? a = none) {as bs : List α}
    (h : ∀ kind, as.filter (kindOf · = kind) = bs.filter (kindOf · = kind)) :
    as.filterMap take? = bs.filterMap take? := by
  have honly (as : List α) :
      (as.filter (kindOf · = kind)).filterMap take? = as.filterMap take? := by
    rw [List.filterMap_filter]
    refine congrArg (List.filterMap · as) (funext fun a => ?_)
    by_cases hkind : kindOf a = kind
    · exact if_pos (decide_eq_true hkind)
    · rw [htake a hkind]
      exact ite_self _
  rw [← honly as, h kind, honly bs]

namespace Select

/-! ## What each clause has been given -/

/-- The clauses that calls can be for. -/
inductive Part where
  | commonTables
  | mode
  | columns
  | source
  | joins
  | condition
  | groups
  | groupCondition
  | ordering
  | limit
  | offset
  deriving DecidableEq

/-- The clause that the call is for. -/
def Call.part : Call → Part
  | .with _ => .commonTables
  | .mode _ => .mode
  | .columns _ => .columns
  | .from _ => .source
  | .join _ => .joins
  | .where _ => .condition
  | .groupBy _ => .groups
  | .having _ => .groupCondition
  | .orderBy _ => .ordering
  | .limit _ => .limit
  | .offset _ => .offset

/-- All result columns, joins, groups and ordering terms in the calls, and the last of everything
else. -/
def received (calls : List Call) : Select where
  commonTables := (calls.filterMap fun | .with tables => some tables | _ => none).getLast?
  mode := (calls.filterMap fun | .mode mode => some mode | _ => none).getLast?
  columns := (calls.filterMap fun | .columns columns => some columns | _ => none).flatten
  source := (calls.filterMap fun | .from source => some source | _ => none).getLast?
  joins := calls.filterMap fun | .join join => some join | _ => none
  condition := (calls.filterMap fun | .where condition => some condition | _ => none).getLast?
  groups := calls.filterMap fun | .groupBy e => some e | _ => none
  groupCondition := (calls.filterMap fun | .having condition => some condition | _ => none).getLast?
  ordering := calls.filterMap fun | .orderBy term => some term | _ => none
  limit := (calls.filterMap fun | .limit n => some n | _ => none).getLast?
  offset := (calls.filterMap fun | .offset n => some n | _ => none).getLast?

-- One more call replaces what its clause has, or adds to it, and leaves the others.
theorem received_concat (calls : List Call) (c : Call) :
    received (calls ++ [c]) = (received calls).apply c := by
  cases c <;> simp [received, apply, List.filterMap_append, List.getLast?_append]

theorem build_eq_received (calls : List Call) : build calls = received calls := by
  induction calls using List.reverseRecOn with
  | nil => rfl
  | append_singleton calls c ih =>
    rw [received_concat, ← ih, build, List.foldl_append]
    rfl

theorem received_eq_of_part {calls calls' : List Call}
    (h : ∀ part, calls.filter (·.part = part) = calls'.filter (·.part = part)) :
    received calls = received calls' := by
  have hpart {α : Type} {take? : Call → Option α} (part : Part)
      (htake : ∀ c, c.part ≠ part → take? c = none) :
      calls.filterMap take? = calls'.filterMap take? :=
        filterMap_eq_of_kind Call.part part htake h
  simp only [received, mk.injEq]
  refine ⟨congrArg _ (hpart .commonTables ?_), congrArg _ (hpart .mode ?_),
    congrArg _ (hpart .columns ?_), congrArg _ (hpart .source ?_), hpart .joins ?_,
    congrArg _ (hpart .condition ?_), hpart .groups ?_, congrArg _ (hpart .groupCondition ?_),
    hpart .ordering ?_, congrArg _ (hpart .limit ?_), congrArg _ (hpart .offset ?_)⟩
  all_goals
    intro c hc
    cases c <;> first | rfl | exact absurd rfl hc

/-! ## The text of a query -/

/-- The parts of the text, in their order: the common tables, the mode, the result columns or a
star, the source with its alias and the joins to it unless it has no name, the condition, the groups
and their condition, the ordering, and a limit that stands for none if there is only an offset. -/
def texts (s : Select) : List Text :=
  (s.commonTables.map With.toSql).toList ++
  ["SELECT".toList] ++
  (s.mode.map SelectMode.keyword).toList ++
  [if s.columns = [] then "*".toList else Text.commaSeparated (s.columns.map ResultColumn.toSql)] ++
  (match s.source with
    | none => []
    | some ⟨source, asName⟩ =>
      if source.toSql = [] then []
      else ["FROM ".toList ++ source.toSql] ++
        (asName.map fun name => "AS ".toList ++ name).toList ++ s.joins.map Join.toSql) ++
  (s.condition.map fun e => "WHERE ".toList ++ e.toSql).toList ++
  (if s.groups = [] then [] else
    ["GROUP BY ".toList ++ Text.commaSeparated (s.groups.map Expression.toSql)]) ++
  (s.groupCondition.map fun e => "HAVING ".toList ++ e.toSql).toList ++
  (if s.ordering = [] then [] else
    ["ORDER BY ".toList ++ Text.commaSeparated (s.ordering.map OrderingTerm.toSql)]) ++
  (match s.limit, s.offset with
    | none, none => []
    | some n, none => ["LIMIT ".toList ++ Text.ofNat n.toNat]
    | some n, some m =>
      ["LIMIT ".toList ++ Text.ofNat n.toNat, "OFFSET ".toList ++ Text.ofNat m.toNat]
    | none, some m => ["LIMIT -1".toList, "OFFSET ".toList ++ Text.ofNat m.toNat])

-- A text with a blank in it and two texts with a blank between them read the same.
theorem spaceSeparated_eq {as bs : List Text} (has : 0 < as.length) (hbs : 0 < bs.length)
    (h : as.flatMap (' ' :: ·) = bs.flatMap (' ' :: ·)) :
    Text.spaceSeparated as = Text.spaceSeparated bs := by
  obtain ⟨a, as, rfl⟩ := List.exists_cons_of_length_pos has
  obtain ⟨b, bs, rfl⟩ := List.exists_cons_of_length_pos hbs
  rw [← Text.cons_spaceSeparated, ← Text.cons_spaceSeparated] at h
  exact (List.cons.inj h).2

theorem optionalClause_map {α : Type} (keyword : Text) (f : α → Text) (a : Option α) :
    optionalClause keyword (a.map f) = (a.map fun a => keyword ++ f a).toList := by
  cases a <;> rfl

theorem listClause_map {α : Type} (keyword : Text) (f : α → Text) (as : List α) :
    listClause keyword (as.map f) =
      if as = [] then [] else [keyword ++ Text.commaSeparated (as.map f)] := by
  cases as <;> rfl

theorem flatMap_sourceClauses (source : Option From) (joins : List Text) :
    (sourceClauses (From.optionToSql source) joins).flatMap (' ' :: ·) =
      (match source with
        | none => []
        | some ⟨source, asName⟩ =>
          if source.toSql = [] then []
          else ["FROM ".toList ++ source.toSql] ++
            (asName.map fun name => "AS ".toList ++ name).toList ++ joins).flatMap (' ' :: ·) := by
  cases source with
  | none => rfl
  | some from' =>
    obtain ⟨source, asName⟩ := from'
    by_cases hname : source.toSql = []
    · rw [From.optionToSql, sourceClauses, if_pos hname]
      dsimp only
      rw [if_pos hname]
    · rw [From.optionToSql, sourceClauses, if_neg hname]
      dsimp only
      rw [if_neg hname]
      cases asName with
      | none =>
        rw [aliasClause, List.append_nil]
        rfl
      | some name =>
        have has : " AS ".toList = ' ' :: "AS ".toList := rfl
        simp only [aliasClause, has, List.flatMap_cons, Option.map_some, Option.toList_some,
          List.nil_append, List.append_assoc, List.cons_append]

theorem flatMap_limitClause (limit offset : Option UInt64) :
    (limitClause limit offset).flatMap (' ' :: ·) =
      (match limit, offset with
        | none, none => []
        | some n, none => ["LIMIT ".toList ++ Text.ofNat n.toNat]
        | some n, some m =>
          ["LIMIT ".toList ++ Text.ofNat n.toNat, "OFFSET ".toList ++ Text.ofNat m.toNat]
        | none, some m => ["LIMIT -1".toList, "OFFSET ".toList ++ Text.ofNat m.toNat]).flatMap
          (' ' :: ·) := by
  have hoffset : " OFFSET ".toList = ' ' :: "OFFSET ".toList := rfl
  have hlimit : "LIMIT -1 OFFSET ".toList = "LIMIT -1".toList ++ " OFFSET ".toList := rfl
  cases limit <;> cases offset <;>
    simp only [limitClause, hoffset, hlimit, List.flatMap_cons, List.flatMap_nil, List.append_nil,
      List.append_assoc, List.cons_append]

theorem toSql_eq_texts (s : Select) : s.toSql = Text.spaceSeparated s.texts := by
  obtain ⟨commonTables, mode, columns, source, joins, condition, groups, groupCondition, ordering,
    limit, offset⟩ := s
  have htables : With.optionToSql commonTables = (commonTables.map With.toSql).toList := by
    cases commonTables <;> rfl
  have hoption (e : Option Expression) : Expression.optionToSql e = e.map Expression.toSql := by
    cases e <;> rfl
  rw [toSql, texts, htables, hoption, hoption, optionalClause_map, optionalClause_map,
    Expression.listToSql_eq, OrderingTerm.listToSql_eq, ResultColumn.listToSql_eq,
    Join.listToSql_eq, listClause_map, listClause_map]
  refine spaceSeparated_eq ?_ ?_ ?_
  · simp only [List.length_append, List.length_cons]
    omega
  · simp only [List.length_append, List.length_cons]
    omega
  · simp only [List.flatMap_append, flatMap_sourceClauses, flatMap_limitClause]
    by_cases hcolumns : columns = []
    · simp only [if_pos hcolumns]
    · simp only [if_neg hcolumns]

/-- A query is written from what each clause has been given. -/
theorem toSql_build :
    (∀ calls, (build calls).toSql = Text.spaceSeparated (received calls).texts) ∧
    ∀ calls calls' : List Call,
      (∀ part, calls.filter (·.part = part) = calls'.filter (·.part = part)) →
      (build calls).toSql = (build calls').toSql := by
  constructor
  · intro calls
    rw [build_eq_received, toSql_eq_texts]
  · intro calls calls' h
    rw [build_eq_received, build_eq_received, received_eq_of_part h]

-- The joins are made before there is a source and the offset before there is a limit.
theorem toSql_build_authors :
    let author := Call.from ⟨.table "Author".toList, none⟩
    let book := Call.from ⟨.table "Book".toList, some "b".toList⟩
    let join := Call.join ((Join.of .left (.table "Shelf".toList)).withAlias "s".toList)
    let crossJoin := Call.join (Join.of .cross (.table "Room".toList))
    let calls := [author, .limit 10, join, book, .offset 20, crossJoin]
    let calls' := [join, .offset 20, crossJoin, author, book, .limit 10]
    (∀ part, calls.filter (·.part = part) = calls'.filter (·.part = part)) ∧
    (build calls).toSql = (build calls').toSql ∧
    (build calls).toSql =
      "SELECT * FROM book AS b LEFT JOIN shelf AS s CROSS JOIN room LIMIT 10 OFFSET 20".toList := by
  intro author book join crossJoin calls calls'
  have hparts (part : Part) : calls.filter (·.part = part) = calls'.filter (·.part = part) := by
    cases part <;> rfl
  refine ⟨hparts, toSql_build.2 calls calls' hparts, ?_⟩
  rw [toSql_build.1 calls]
  decide +kernel

end Select

end AnnotatedSchema
