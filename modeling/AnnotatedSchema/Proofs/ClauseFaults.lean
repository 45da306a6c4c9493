import AnnotatedSchema.Proofs.ColumnRun

/-!
# What a clause is refused for

A `REFERENCES` clause that is cut into pieces can be read or has one of four faults. A clause that
was read is refused by a column for the kinds of clauses it has, for its storage class, or for a
column that the target of a reference does not map. All but the last name the column itself.
-/

namespace AnnotatedSchema

namespace ForeignKey

/-- What can be wrong with the pieces of a reference from a column to one of the candidates. -/
inductive Fault (column : Text) (candidates : List Model) : SchemaError → Prop
  | clause (reason : Text) : Fault column candidates (.invalidReference column reason)
  | target (name : Text) (h : ∀ m ∈ candidates, m.name ≠ name) :
      Fault column candidates (.unresolvedReference column name)
  | action (action value : Text) : Fault column candidates (.invalidAction column action value)
  | count (found : Nat) (h : 1 < found) :
      Fault column candidates (.columnCountMismatch column 1 found)

section
variable {column : Text} {candidates : List Model} {e : SchemaError}

theorem fault_of_resolve {target : Text} (h : resolve column target candidates = .error e) :
    Fault column candidates e := by
  unfold resolve at h
  split at h
  · cases h
  · next hnone =>
    rw [← Except.error.inj h]
    apply Fault.target
    simpa using hnone

theorem fault_of_readBody {α : Type} {action : Text} {read? : Text → Option α} {ps : List Piece}
    (h : readBody column action read? ps = .error e) : Fault column candidates e := by
  unfold readBody at h
  split at h
  · cases h
  · rw [← Except.error.inj h]
    apply Fault.action

theorem fault_of_readOn {ps : List Piece} (h : readOn column ps = .error e) :
    Fault column candidates e := by
  cases ps with
  | nil =>
    rw [← Except.error.inj h]
    apply Fault.action
  | cons p ps =>
    rw [readOn] at h
    split at h
    · exact fault_of_readBody (map_eq_error_iff.mp h)
    · split at h
      · exact fault_of_readBody (map_eq_error_iff.mp h)
      · rw [← Except.error.inj h]
        apply Fault.action

theorem fault_of_readMatch {ps : List Piece} (h : readMatch column ps = .error e) :
    Fault column candidates e := by
  cases ps with
  | nil =>
    rw [← Except.error.inj h]
    apply Fault.action
  | cons p ps =>
    rw [readMatch] at h
    split at h
    · cases h
    · rw [← Except.error.inj h]
      apply Fault.action

theorem fault_of_readAction? {ps : List Piece} (h : readAction? column ps = some (.error e)) :
    Fault column candidates e := by
  cases ps with
  | nil => cases h
  | cons p ps =>
    rw [readAction?] at h
    split at h
    · exact fault_of_readOn (Option.some.inj h)
    · split at h
      · exact fault_of_readMatch (Option.some.inj h)
      · split at h
        · exact fault_of_readBody (map_eq_error_iff.mp (Option.some.inj h))
        · split at h
          · exact fault_of_readBody (map_eq_error_iff.mp (Option.some.inj h))
          · cases h

theorem fault_of_readActions {fk : ForeignKey} {ps : List Piece}
    (h : readActions column fk ps = .error e) : Fault column candidates e := by
  fun_induction readActions column fk ps with
  | case1 => cases h
  | case2 fk p rest hread ih => exact ih h
  | case3 fk p rest e' hread =>
    obtain rfl := Except.error.inj h
    exact fault_of_readAction? hread
  | case4 fk p rest setting left hread ih => exact ih h

-- The key of a single column can refer to a single one, or to none.
theorem fault_of_references {fk : ForeignKey} {columns : List Text} (hown : fk.columns = [column])
    (h : fk.references columns = .error e) : Fault column candidates e := by
  unfold references at h
  rw [hown] at h
  split at h
  · cases h
  · next hcount =>
    have hname : Text.commaSeparated [column] = column := List.append_nil column
    rw [← Except.error.inj h, hname]
    apply Fault.count columns.length
    rw [not_or, List.length_singleton, ← List.length_eq_zero_iff] at hcount
    omega

theorem fault_of_readTail {fk : ForeignKey} {ps : List Piece} (hown : fk.columns = [column])
    (h : readTail column fk ps = .error e) : Fault column candidates e := by
  cases ps with
  | nil => cases h
  | cons p rest =>
    rw [readTail] at h
    split at h
    · exact fault_of_readActions h
    · rcases bind_eq_error_iff.mp h with h | ⟨fk', -, h⟩
      · exact fault_of_references hown h
      · exact fault_of_readActions h

theorem fault_of_ofPieces {ps : List Piece} (h : ofPieces column candidates ps = .error e) :
    Fault column candidates e := by
  unfold ofPieces at h
  split at h
  · rw [← Except.error.inj h]
    apply Fault.clause
  · split at h
    · rw [← Except.error.inj h]
      apply Fault.clause
    · split at h
      · rw [← Except.error.inj h]
        apply Fault.clause
      · split at h
        · rw [← Except.error.inj h]
          apply Fault.clause
        · rcases bind_eq_error_iff.mp h with h | ⟨model, -, h⟩
          · exact fault_of_resolve h
          · exact fault_of_readTail rfl h

theorem fault_of_ofClause {clause : Text} {ps : List Piece} (hscan : Piece.scan clause = .ok ps)
    (h : ofClause column clause candidates = .error e) : Fault column candidates e := by
  unfold ofClause at h
  rw [hscan] at h
  exact fault_of_ofPieces h

end

end ForeignKey

namespace Column

/-- What a column with this name and storage class can have against a clause. -/
inductive Refusal (column : Text) (storage : Storage) : ColumnClause → SchemaError → Prop
  | duplicate (clause : ColumnClause) (h : clause.kind ∈ clause.kind.excludes) :
      Refusal column storage clause (.duplicateConstraint column clause.kind.label)
  | incompatible (clause : ColumnClause) (existing : ClauseKind)
      (h : existing ∈ clause.kind.excludes) (hne : clause.kind ≠ existing) :
      Refusal column storage clause (.incompatible column clause.kind.label existing.label)
  | autoincrement (key : ColumnKey) (h : storage ≠ .integer) :
      Refusal column storage (.primaryKey key) (.autoincrementRequiresIntegerKey column storage)
  | target (fk : ForeignKey) (name : Text) (h : fk.target.mapsColumn name = false) :
      Refusal column storage (.references fk) (.unknownTargetColumn fk.target.name name)

theorem refusal_of_conflict {c : Column} {clause : ColumnClause} {existing : ClauseKind}
    (h : existing ∈ clause.kind.excludes) :
    Refusal c.name c.storage clause (c.conflict clause.kind existing) := by
  unfold conflict
  by_cases hsame : clause.kind = existing
  · rw [if_pos hsame]
    apply Refusal.duplicate
    rwa [← hsame] at h
  · rw [if_neg hsame]
    exact .incompatible clause existing h hsame

theorem refusal_of_fault? {column : Text} {storage : Storage} {clause : ColumnClause}
    {e : SchemaError} (h : clause.fault? column storage = some e) :
    Refusal column storage clause e := by
  cases clause with
  | primaryKey key =>
    rw [ColumnClause.fault?] at h
    split at h
    · next hauto =>
      rw [← Option.some.inj h]
      exact .autoincrement key hauto.2
    · cases h
  | references fk =>
    obtain ⟨name, hname, rfl⟩ := Option.map_eq_some_iff.mp h
    apply Refusal.target
    simpa using List.find?_some hname
  | notNull | unique | check | default | collate | generated => cases h

theorem refusal_of_refusal? {c : Column} {clause : ColumnClause} {e : SchemaError}
    (h : c.refusal? clause = some e) : Refusal c.name c.storage clause e := by
  rw [refusal?, Option.or_eq_some_iff] at h
  rcases h with h | ⟨-, h⟩
  · obtain ⟨existing, hexisting, rfl⟩ := Option.map_eq_some_iff.mp h
    exact refusal_of_conflict (List.mem_of_find?_eq_some hexisting)
  · exact refusal_of_fault? h

/-- Why a constraint cannot be put on a column: its clause cannot be read, or is refused. -/
def Rejects (column : Text) (storage : Storage) (candidates : List Model) (c : Constraint)
    (e : SchemaError) : Prop :=
  ColumnClause.ofConstraint column candidates c = .error e ∨
    ∃ clause, ColumnClause.ofConstraint column candidates c = .ok clause ∧
      Refusal column storage clause e

-- A column keeps its name and storage class from one constraint to the next, so the error of a list
-- is an error of one of the constraints on this column.
theorem rejects_of_forM_apply {candidates : List Model} {cs : List AnnotatedConstraint}
    {c c' : Column} {field : Text} (hname : c.name = field) {e : SchemaError}
    (h : Change.on (cs.forM (apply field candidates)) c = (.error e, c')) :
    ∃ a ∈ cs, Rejects field c.storage candidates a.constraint e := by
  induction cs generalizing c with
  | nil => cases h
  | cons a cs ih =>
    change Change.on (apply field candidates a >>= fun _ => cs.forM (apply field candidates)) c = _
      at h
    have hchange : (apply field candidates a).on c = _ :=
      change_on (.apply field candidates a) c
    rw [Change.on_bind, hchange] at h
    cases hclause : (Operation.apply field candidates a).clause with
    | error e' =>
      rw [hclause] at h
      obtain rfl := Except.error.inj (Prod.mk.inj h).1
      exact ⟨a, List.mem_cons_self, .inl hclause⟩
    | ok clause =>
      rw [hclause] at h
      dsimp only at h
      cases hrefusal : c.refusal? clause with
      | some e' =>
        rw [hrefusal] at h
        obtain rfl := Except.error.inj (Prod.mk.inj h).1
        exact ⟨a, List.mem_cons_self, .inr ⟨clause, hclause, hname ▸ refusal_of_refusal? hrefusal⟩⟩
      | none =>
        rw [hrefusal] at h
        have hrest : Change.on (cs.forM (apply field candidates)) (c.extend a.name clause) =
            (.error e, c') := h
        obtain ⟨later, hlater, hrejects⟩ := ih (c := c.extend a.name clause) hname hrest
        exact ⟨later, List.mem_cons_of_mem a hlater, hrejects⟩

end Column

end AnnotatedSchema
