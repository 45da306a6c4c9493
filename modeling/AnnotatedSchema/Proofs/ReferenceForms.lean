import AnnotatedSchema.Proofs.ForeignKeyCalls
import AnnotatedSchema.Proofs.Spelling
import AnnotatedSchema.Proofs.TableBuild

/-!
# The form of a reference

A key that was made for a table is written with its own columns before the target, one that was made
for a column without them, whatever is called on it later. Neither a table nor a column looks for
what its keys were made.
-/

namespace AnnotatedSchema

theorem Column.extend_of_add {c c' : Column} {name : Option Text} {clause : ColumnClause}
    (h : c.add name clause = .ok c') : c' = c.extend name clause := by
  rw [add_eq_elim] at h
  cases hrefusal : c.refusal? clause with
  | some e =>
    rw [hrefusal] at h
    cases h
  | none =>
    rw [hrefusal] at h
    exact (Except.ok.inj h).symm

namespace ForeignKey

/-- The keys that were made for a table or for a column. Calls that succeed can follow. -/
inductive Made : Bool → ForeignKey → Prop where
  | onTable (columns : List Text) (target : Model) : Made true (onTable columns target)
  | onColumn (column : Text) (target : Model) : Made false (onColumn column target)
  | ofClause {column clause : Text} {candidates : List Model} {fk : ForeignKey}
      (read : ofClause column clause candidates = .ok fk) : Made false fk
  | apply {tableLevel : Bool} {fk fk' : ForeignKey} {call : Call} (made : Made tableLevel fk)
      (applied : fk.apply call = .ok fk') : Made tableLevel fk'

theorem tableLevel_of_apply {fk fk' : ForeignKey} {call : Call} (h : fk.apply call = .ok fk') :
    fk'.tableLevel = fk.tableLevel := by
  obtain ⟨-, rfl⟩ := changed_of_apply h
  rcases call with listed | setting
  · rfl
  · cases setting <;> rfl

theorem tableLevel_of_ofClause {column clause : Text} {candidates : List Model} {fk : ForeignKey}
    (h : ofClause column clause candidates = .ok fk) : fk.tableLevel = false := by
  rw [ofClause] at h
  split at h
  · cases h
  · obtain ⟨_, _, _, _, -, -, -, htail⟩ := target_of_ofPieces h
    exact (targetColumns_of_readTail htail rfl).1.tableLevel

theorem Made.tableLevel {tableLevel : Bool} {fk : ForeignKey} (h : Made tableLevel fk) :
    fk.tableLevel = tableLevel := by
  induction h with
  | onTable | onColumn => rfl
  | ofClause read => exact tableLevel_of_ofClause read
  | apply _ applied ih => exact (tableLevel_of_apply applied).trans ih

/-- In the text of a table without a query, every key on it that was made for a table is written
with its own columns first; and every key that was made for a column and is added to a column is
written without them. -/
theorem form_of_made :
    (∀ (m : Model) (references : List Model) (t₀ : Table), Table.ofModel m references = .ok t₀ →
      ∀ (calls : List Table.Call) (sql : Text), (∀ query, .asSelect query ∉ calls) →
        (calls.foldl Table.apply t₀).toSql = .ok sql →
        let t := calls.foldl Table.apply t₀
        let added := calls.filterMap Table.Call.constraint?
        sql = t.opening ++ " (\n\t" ++
          List.intercalate ",\n\t".toList
            (t₀.columns.map Column.toSql ++ added.map NamedTableConstraint.toSql) ++
          "\n)" ++ t.optionText ++ ";\n" ∧
        ∀ (name : Option Text) (fk : ForeignKey), .constraint name (.foreignKey fk) ∈ calls →
          Made true fk → ⟨name, .foreignKey fk⟩ ∈ added ∧
            ∃ rest, NamedTableConstraint.toSql ⟨name, .foreignKey fk⟩ = namedClause name
              ("FOREIGN KEY " ++ (Text.commaSeparated (fk.columns.map identifier)).parenthesized ++
                " REFERENCES " ++ rest)) ∧
    ∀ (c c' : Column) (name : Option Text) (fk : ForeignKey), Made false fk →
      c.add name (.references fk) = .ok c' →
      ∃ rest, c'.fragments = c.fragments ++ [namedClause name ("REFERENCES " ++ rest)] := by
  refine ⟨fun m references t₀ h calls sql hquery hsql => ?_, fun c c' name fk hmade hadd => ?_⟩
  · have hafter := (Table.after_ofModel h).run calls
    refine ⟨?_, fun name fk hmem hmade => ⟨?_, fk.targetText ++ fk.settingsText, ?_⟩⟩
    · rw [(Table.toSql_eq_ok_iff.mp hsql).2]
      exact hafter.text_eq hquery
    · exact List.mem_filterMap.mpr ⟨_, hmem, rfl⟩
    · exact congrArg (namedClause name) (text_onTable hmade.tableLevel)
  · rw [Column.extend_of_add hadd]
    have htext : fk.text = "REFERENCES ".toList ++ (fk.targetText ++ fk.settingsText) := by
      rw [text_onColumn hmade.tableLevel, List.append_assoc]
    refine ⟨fk.targetText ++ fk.settingsText, ?_⟩
    exact congrArg (fun text => c.fragments ++ [namedClause name text]) htext

/-- The model that the lines of an order refer to. -/
def order : Model := ⟨"Order", [⟨"ID", "i64", "PRIMARY KEY"⟩]⟩

/-- The table of the lines, before any call. -/
def lines : Table where
  model := Table.orderLine
  columns :=
    [(Column.plain "OrderId" .integer).extend none (.notNull none),
      (Column.plain "LineNo" .integer).extend none (.notNull none)]
  schema := none
  temporary := false
  ifNotExists := false
  withoutRowid := false
  strict := false
  query := none
  constraints := []

theorem ofModel_orderLine : Table.ofModel Table.orderLine [] = .ok lines := by
  have hcolumns : Table.modelColumns Table.orderLine ([] ++ [Table.orderLine]) =
      .ok lines.columns := by
    decide +kernel
  rw [Table.ofModel, hcolumns]
  rfl

theorem form_of_made_orderLine :
    let key := onTable ["OrderId"] order
    let call := Table.Call.constraint (some "fk_order") (.foreignKey key)
    (∃ sql, (lines.apply call).toSql = .ok sql ∧
      ∃ rest, NamedTableConstraint.toSql ⟨some "fk_order", .foreignKey key⟩ =
        namedClause (some "fk_order") ("FOREIGN KEY (order_id) REFERENCES ".toList ++ rest)) ∧
    ∃ c, (Column.plain "OrderId" .integer).add none (.references (onColumn "OrderId" order)) =
        .ok c ∧ ∃ rest, c.fragments = ["REFERENCES ".toList ++ rest] := by
  intro key call
  obtain ⟨sql, hsql⟩ := exists_eq_ok (x := (lines.apply call).toSql) (by decide +kernel)
  obtain ⟨c, hc⟩ := exists_eq_ok (x := (Column.plain "OrderId" .integer).add none
    (.references (onColumn "OrderId" order))) (by decide +kernel)
  obtain ⟨htable, hcolumn⟩ := form_of_made
  obtain ⟨-, hkeys⟩ := htable _ _ lines ofModel_orderLine [call] sql (by simp [call]) hsql
  obtain ⟨-, rest, hform⟩ := hkeys (some "fk_order") key List.mem_cons_self (.onTable _ _)
  exact ⟨⟨sql, hsql, rest, hform⟩, c, hc, hcolumn _ c none _ (.onColumn _ _) hc⟩

-- A key made for a column is on a table, a key on a table has no place beside a query, and a key
-- made for a table is added to a column.
theorem form_of_made_mixed :
    (¬∀ (m : Model) (references : List Model) (t₀ : Table) (calls : List Table.Call) (sql : Text)
      (name : Option Text) (fk : ForeignKey), Table.ofModel m references = .ok t₀ →
      (∀ query, .asSelect query ∉ calls) → (calls.foldl Table.apply t₀).toSql = .ok sql →
      .constraint name (.foreignKey fk) ∈ calls → "FOREIGN KEY".toList <:+: sql) ∧
    (¬∀ (m : Model) (references : List Model) (t₀ : Table) (calls : List Table.Call) (sql : Text)
      (name : Option Text) (fk : ForeignKey), Table.ofModel m references = .ok t₀ →
      (calls.foldl Table.apply t₀).toSql = .ok sql →
      .constraint name (.foreignKey fk) ∈ calls → Made true fk → "FOREIGN KEY".toList <:+: sql) ∧
    ¬∀ (c c' : Column) (name : Option Text) (fk : ForeignKey),
      c.add name (.references fk) = .ok c' →
      ∃ rest, c'.fragments = c.fragments ++ [namedClause name ("REFERENCES " ++ rest)] := by
  refine ⟨fun h => ?_, fun h => ?_, fun h => ?_⟩
  · let call := Table.Call.constraint none (.foreignKey (onColumn "OrderId" order))
    let sql : Text := "CREATE TABLE order_line (\n\torder_id INTEGER NOT NULL,\n\t".toList ++
      "line_no INTEGER NOT NULL,\n\tREFERENCES order\n);\n"
    have hsql : (lines.apply call).toSql = .ok sql := by decide +kernel
    have hform := h _ _ lines [call] sql none _ ofModel_orderLine (by simp [call]) hsql
      List.mem_cons_self
    exact absurd hform (by decide +kernel)
  · let call := Table.Call.constraint none (.foreignKey (onTable ["OrderId"] order))
    let query := Table.Call.asSelect (Select.build [.from ⟨.table "Order", none⟩])
    let sql : Text := "CREATE TABLE order_line AS SELECT * FROM order;\n"
    have hsql : ((lines.apply call).apply query).toSql = .ok sql := by decide +kernel
    have hform := h _ _ lines [call, query] sql none _ ofModel_orderLine hsql List.mem_cons_self
      (.onTable _ _)
    exact absurd hform (by decide +kernel)
  · have hadded : ((Column.plain "OrderId" .integer).add none
        (.references (onTable ["OrderId"] order))).map Column.fragments =
          .ok ["FOREIGN KEY (order_id) REFERENCES order"] := by
      decide +kernel
    obtain ⟨c, hc, hfragments⟩ := map_eq_ok_iff.mp hadded
    obtain ⟨rest, hrest⟩ := h _ c none _ hc
    rw [hfragments] at hrest
    cases hrest

end ForeignKey

end AnnotatedSchema
