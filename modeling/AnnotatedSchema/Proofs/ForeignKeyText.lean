import AnnotatedSchema.Proofs.ModelColumns

/-!
# The text of a foreign key

A key is written as its own columns if it is on a table, then its target, then its settings. Only
the columns stand in brackets.
-/

namespace AnnotatedSchema.ForeignKey

/-- What is written after the target. -/
def settingsText (fk : ForeignKey) : Text :=
  clause "ON DELETE " (fk.onDelete.map RowAction.keywords) ++
    clause "ON UPDATE " (fk.onUpdate.map RowAction.keywords) ++
    clause "MATCH " fk.matchName ++
    clause "" (fk.deferral.map Deferral.toSql)

theorem identifierList_singleton (name : Text) : identifierList [name] = identifier name := by
  simp [identifierList, Text.commaSeparated]

theorem text_eq (fk : ForeignKey) :
    fk.text = fk.ownerText ++ "REFERENCES " ++ fk.targetText ++ fk.settingsText := by
  simp only [text, settingsText, List.append_assoc]

theorem text_onColumn {fk : ForeignKey} (h : fk.tableLevel = false) :
    fk.text = "REFERENCES " ++ fk.targetText ++ fk.settingsText := by
  rw [text_eq, ownerText, h]
  rfl

theorem text_onTable {fk : ForeignKey} (h : fk.tableLevel = true) :
    fk.text = "FOREIGN KEY " ++ (identifierList fk.columns).parenthesized ++ " REFERENCES " ++
      (fk.targetText ++ fk.settingsText) := by
  have hhead : " REFERENCES ".toList = " ".toList ++ "REFERENCES ".toList := by decide
  rw [text_eq, ownerText, if_pos h, hhead]
  simp only [List.append_assoc]

theorem missingColumn?_eq_none_iff (fk : ForeignKey) :
    fk.missingColumn? = none ↔ ∀ name ∈ fk.targetColumns, fk.target.Maps name := by
  rw [missingColumn?, Option.map_eq_none_iff, Model.find?_unmapped_eq_none_iff]

-- A key that can be written names no column that its target does not map.
theorem toSql_eq_ok_iff {fk : ForeignKey} {sql : Text} :
    fk.toSql = .ok sql ↔ (∀ name ∈ fk.targetColumns, fk.target.Maps name) ∧ sql = fk.text := by
  rw [← missingColumn?_eq_none_iff, toSql]
  cases fk.missingColumn? <;> simp [eq_comm]

theorem not_mem_clause {c : Char} {keyword : Text} {argument : Option Text} (hblank : c ≠ ' ')
    (hkeyword : c ∉ keyword) (hargument : ∀ t ∈ argument, c ∉ t) : c ∉ clause keyword argument := by
  cases argument with
  | none => exact List.not_mem_nil
  | some t =>
    simp only [clause, List.mem_append, not_or]
    exact ⟨⟨by simpa using hblank, hkeyword⟩, hargument t rfl⟩

theorem bracket_not_mem_settingsText {fk : ForeignKey} (h : ∀ name ∈ fk.matchName, '(' ∉ name) :
    '(' ∉ fk.settingsText := by
  have hrow : ∀ action : RowAction, '(' ∉ action.keywords := by
    intro action
    cases action <;> decide
  have hdeferral : ∀ d : Deferral, '(' ∉ d.toSql := by
    rintro ⟨deferrable, initially⟩
    cases deferrable <;> cases initially <;> decide
  simp only [settingsText, List.mem_append, not_or]
  refine ⟨⟨⟨not_mem_clause (by decide) (by decide) fun t ht => ?_,
    not_mem_clause (by decide) (by decide) fun t ht => ?_⟩,
    not_mem_clause (by decide) (by decide) h⟩,
    not_mem_clause (by decide) (by decide) fun t ht => ?_⟩
  · obtain ⟨action, -, rfl⟩ := Option.map_eq_some_iff.mp ht
    exact hrow action
  · obtain ⟨action, -, rfl⟩ := Option.map_eq_some_iff.mp ht
    exact hrow action
  · obtain ⟨d, -, rfl⟩ := Option.map_eq_some_iff.mp ht
    exact hdeferral d

end AnnotatedSchema.ForeignKey
