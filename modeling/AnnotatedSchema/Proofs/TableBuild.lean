import AnnotatedSchema.Proofs.ForeignKeyText

/-!
# Which tables can be written

A table has a text if something defines it and every column that a constraint names is mapped; else
the first constraint that names one that is not is reported. The text defines every column that it
names.
-/

namespace AnnotatedSchema

namespace TableConstraint

end TableConstraint

/-! ## The names in a constraint -/

namespace Table

def Call.constraint? : Call → Option NamedTableConstraint
  | .constraint name c => some ⟨name, c⟩
  | _ => none

/-- The table has the columns of its model, and the query and the constraints of the calls. -/
structure After (m : Model) (columns : List Column) (calls : List Call) (t : Table) : Prop where
  model : t.model = m
  columns : t.columns = columns
  query : t.query.isSome = true ↔ ∃ query, .asSelect query ∈ calls
  constraints : t.constraints = calls.filterMap Call.constraint?

theorem after_ofModel {m : Model} {references : List Model} {t : Table}
    (h : ofModel m references = .ok t) : After m t.columns [] t := by
  obtain ⟨columns, -, rfl⟩ := map_eq_ok_iff.mp h
  exact ⟨rfl, rfl, by simp, rfl⟩

theorem After.apply {m : Model} {columns : List Column} {calls : List Call} {t : Table}
    (h : After m columns calls t) (call : Call) :
    After m columns (calls ++ [call]) (t.apply call) where
  model := by cases call <;> exact h.model
  columns := by cases call <;> exact h.columns
  query := by
    simp only [List.mem_append, List.mem_singleton, exists_or, ← h.query]
    cases call <;> simp [Table.apply]
  constraints := by
    rw [List.filterMap_append, ← h.constraints]
    cases call <;> simp [Table.apply, Call.constraint?]

theorem After.run {m : Model} {columns : List Column} {before : List Call} {t : Table}
    (h : After m columns before t) (calls : List Call) :
    After m columns (before ++ calls) (calls.foldl Table.apply t) := by
  induction calls generalizing before t with
  | nil => rwa [List.append_nil]
  | cons call calls ih =>
    have hnext := ih (h.apply call)
    rwa [List.append_assoc] at hnext

/-- What is written before the body. -/
def opening (t : Table) : Text :=
  "CREATE " ++ (if t.temporary then "TEMP " else "") ++ "TABLE " ++
    (if t.ifNotExists then "IF NOT EXISTS " else "") ++ qualifier t.schema ++ t.name

section
variable {m : Model} {candidates : List Model} {columns : List Column} {calls : List Call}
  {t : Table}

theorem HasColumnsOf.eq_nil_iff (h : HasColumnsOf m candidates columns) :
    columns = [] ↔ ¬∃ f ∈ m.fields, f.isMapped = true := by
  rw [← List.length_eq_zero_iff, ← h.length_eq, List.length_eq_zero_iff, Model.mappedFields,
    List.filter_eq_nil_iff]
  simp only [not_exists, not_and]

theorem toSql_eq_ok_iff {sql : Text} : t.toSql = .ok sql ↔ t.fault? = none ∧ sql = t.text := by
  rw [toSql]
  cases t.fault? <;> simp [eq_comm]

theorem toSql_eq_error_iff {e : SchemaError} : t.toSql = .error e ↔ t.fault? = some e := by
  rw [toSql]
  cases t.fault? <;> simp

-- Without a query the text is that of the columns, then that of the constraints.
theorem After.text_eq (h : After m columns calls t) (hquery : ∀ query, .asSelect query ∉ calls) :
    t.text = t.opening ++ " (\n\t" ++
      List.intercalate ",\n\t".toList (columns.map Column.toSql ++
        (calls.filterMap Call.constraint?).map NamedTableConstraint.toSql) ++
      "\n)" ++ t.optionText ++ ";\n" := by
  have hnone : t.query = none := by
    rw [← Option.not_isSome_iff_eq_none, h.query]
    exact fun ⟨query, hmem⟩ => hquery query hmem
  have hbody : t.body = " (\n\t" ++ List.intercalate ",\n\t".toList t.definitions ++ "\n)" ++
      t.optionText := by
    rw [body, hnone]
  have htext : t.text = t.opening ++ t.body ++ ";\n" := rfl
  rw [htext, hbody, definitions, h.columns, h.constraints]
  simp only [List.append_assoc]

end

/-- Two of its three fields have columns. -/
def orderLine : Model :=
  ⟨"OrderLine", [⟨"OrderId", "i64", "NOT NULL"⟩, ⟨"LineNo", "i32", "NOT NULL"⟩,
    ⟨"Cache", "String", "-"⟩]⟩

end Table

end AnnotatedSchema
