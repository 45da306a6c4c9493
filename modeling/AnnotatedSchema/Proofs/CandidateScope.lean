import AnnotatedSchema.Proofs.ReferenceTargets

/-!
# More candidates

A column reads its candidates only through the names after `REFERENCES`. So if each of these names
stands for the same model among other candidates, the column is the same among them, and so is the
table.
-/

namespace AnnotatedSchema

/-- Every name that stands for one of the models stands for the same one in `wider`. -/
def KeepsNames (models wider : List Model) : Prop :=
  ∀ name m, FirstNamed models name m → FirstNamed wider name m

section
variable {models wider : List Model} (hkeeps : KeepsNames models wider)
include hkeeps

namespace ForeignKey

theorem resolve_wider {column target : Text} {m : Model}
    (h : resolve column target models = .ok m) : resolve column target wider = .ok m := by
  unfold resolve at h
  split at h
  · next found hfound =>
    obtain rfl := Except.ok.inj h
    rw [resolve, firstNamed_iff.mp (hkeeps target found (firstNamed_iff.mpr hfound))]
  · cases h

theorem ofPieces_wider {column : Text} {ps : List Piece} {fk : ForeignKey}
    (h : ofPieces column models ps = .ok fk) : ofPieces column wider ps = .ok fk := by
  unfold ofPieces at h ⊢
  split at h
  · cases h
  · split at h
    · cases h
    · next hkeyword =>
      rw [if_neg hkeyword]
      split at h
      · cases h
      · split at h
        · cases h
        · next hword =>
          simp only [if_neg hword]
          obtain ⟨m, hm, htail⟩ := bind_eq_ok_iff.mp h
          exact bind_eq_ok_iff.mpr ⟨m, resolve_wider hkeeps hm, htail⟩

theorem ofClause_wider {column clause : Text} {fk : ForeignKey}
    (h : ofClause column clause models = .ok fk) : ofClause column clause wider = .ok fk := by
  unfold ofClause at h ⊢
  split at h
  · cases h
  · exact ofPieces_wider hkeeps h

end ForeignKey

theorem ColumnClause.ofConstraint_wider {field : Text} {c : Constraint} {clause : ColumnClause}
    (h : ofConstraint field models c = .ok clause) : ofConstraint field wider c = .ok clause := by
  cases c with
  | references text =>
    obtain ⟨fk, hfk, rfl⟩ := map_eq_ok_iff.mp h
    exact map_eq_ok_iff.mpr ⟨fk, ForeignKey.ofClause_wider hkeeps hfk, rfl⟩
  | primaryKey | notNull | unique | check | default | collate | generated => exact h

namespace Column

theorem Takes.of_keepsNames {c after : Column} {field : Text} {cs : List AnnotatedConstraint}
    (h : c.Takes field models cs after) : c.Takes field wider cs after := by
  induction cs generalizing c with
  | nil => exact takes_nil_iff.mpr (takes_nil_iff.mp h)
  | cons a cs ih =>
    obtain ⟨next, hchange, hnext⟩ := takes_cons_iff.mp h
    obtain ⟨clause, hclause, hrefusal, rfl⟩ := extend_of_change_on_ok hchange
    have hclause : (Operation.apply field wider a).clause = .ok clause :=
      ColumnClause.ofConstraint_wider hkeeps hclause
    exact takes_cons_iff.mpr
      ⟨_, (change_on_ok_iff _ c _).mpr ⟨clause, hclause, hrefusal, rfl⟩, ih hnext⟩

theorem ofField_wider {f : Field} {c : Column} (h : ofField f models = .ok c) :
    ofField f wider = .ok c := by
  obtain ⟨cs, hcs, htakes⟩ := ofField_eq_ok_iff.mp h
  exact ofField_eq_ok_iff.mpr ⟨cs, hcs, htakes.of_keepsNames hkeeps⟩

end Column

end

/-- A table does not change with the models that its references do not need. -/
theorem Table.ofModel_wider {m : Model} {references wider : List Model}
    (hkeeps : KeepsNames (references ++ [m]) (wider ++ [m])) {t : Table}
    (h : ofModel m references = .ok t) : ofModel m wider = .ok t := by
  obtain ⟨columns, hcolumns, rfl⟩ := map_eq_ok_iff.mp h
  refine map_eq_ok_iff.mpr ⟨columns, mapM_eq_ok_iff.mpr ?_, rfl⟩
  refine (mapM_eq_ok_iff.mp hcolumns).imp fun f c hc => ?_
  exact mapError_eq_ok_iff.mpr (Column.ofField_wider hkeeps (mapError_eq_ok_iff.mp hc))

end AnnotatedSchema
