import AnnotatedSchema.Proofs.ColumnChange
import AnnotatedSchema.Proofs.Scanning
import Mathlib.Data.List.Pairwise

/-!
# What a column has been through

A column is changed by any number of operations, some of which fail. What it holds in the end are
the clauses of those that succeeded, and no two of these exclude each other.
-/

namespace AnnotatedSchema

def Constraint.kind : Constraint → ClauseKind
  | primaryKey _ => .primaryKey
  | notNull _ => .notNull
  | unique _ => .unique
  | check _ => .check
  | default _ => .default
  | collate _ => .collate
  | references _ => .foreignKey
  | generated _ => .generated

namespace Column

/-- What can be done to a column: a clause is added to it, or a constraint of an annotation. -/
inductive Operation where
  | add (name : Option Text) (clause : ColumnClause)
  | apply (field : Text) (candidates : List Model) (a : AnnotatedConstraint)

namespace Operation

def change : Operation → Change Unit
  | add name clause => addClause name clause
  | apply field candidates a => Column.apply field candidates a

def kind : Operation → ClauseKind
  | add _ clause => clause.kind
  | apply _ _ a => a.constraint.kind

/-- Whether the operation adds a key that numbers the rows. -/
def autoincrement : Operation → Bool
  | add _ (.primaryKey key) => key.autoincrement
  | apply _ _ ⟨_, .primaryKey key⟩ => key.autoincrement
  | _ => false

def name : Operation → Option Text
  | add name _ => name
  | apply _ _ a => a.name

/-- The clause that is added, unless it is a reference that cannot be read. -/
def clause : Operation → Except SchemaError ColumnClause
  | add _ clause => .ok clause
  | apply field candidates a => ColumnClause.ofConstraint field candidates a.constraint

/-- The text of the clause with its name, if there is one. -/
def fragment? (op : Operation) : Option Text :=
  op.clause.toOption.map fun clause => namedClause op.name clause.toSql

/-- Whether the two can both be among the clauses of a column. -/
def Apart (op other : Operation) : Prop := op.kind ∉ other.kind.excludes

end Operation

/-- The column after all operations, and those of them that succeeded. -/
def run (c : Column) : List Operation → Column × List Operation
  | [] => (c, [])
  | op :: ops =>
    match op.change.on c with
    | (.error _, c) => run c ops
    | (.ok _, c) => ((run c ops).1, op :: (run c ops).2)

/-! ## One operation -/

theorem change_on (op : Operation) (c : Column) :
    op.change.on c =
      match op.clause with
      | .error e => (.error e, c)
      | .ok clause =>
        match c.refusal? clause with
        | some e => (.error e, c)
        | none => (.ok (), c.extend op.name clause) := by
  cases op with
  | add name clause => exact addClause_on name clause c
  | apply field candidates a =>
    change Change.on (liftM (ColumnClause.ofConstraint field candidates a.constraint) >>=
      addClause a.name) c = _
    have hclause : (Operation.apply field candidates a).clause =
        ColumnClause.ofConstraint field candidates a.constraint := rfl
    rw [Change.on_bind, Change.on_lift, hclause]
    cases ColumnClause.ofConstraint field candidates a.constraint with
    | error e => rfl
    | ok clause => exact addClause_on a.name clause c

theorem eq_of_change_on_error {op : Operation} {c c' : Column} {e : SchemaError}
    (h : op.change.on c = (.error e, c')) : c' = c := by
  rw [change_on] at h
  split at h
  · exact (Prod.mk.inj h).2.symm
  · split at h
    · exact (Prod.mk.inj h).2.symm
    · cases h

theorem extend_of_change_on_ok {op : Operation} {c c' : Column}
    (h : op.change.on c = (.ok (), c')) :
    ∃ clause, op.clause = .ok clause ∧ c.refusal? clause = none ∧ c' = c.extend op.name clause := by
  rw [change_on] at h
  split at h
  · cases h
  · next clause hclause =>
    split at h
    · cases h
    · next hrefusal => exact ⟨clause, hclause, hrefusal, (Prod.mk.inj h).2.symm⟩

theorem kind_of_ofConstraint {field : Text} {candidates : List Model} {c : Constraint}
    {clause : ColumnClause} (h : ColumnClause.ofConstraint field candidates c = .ok clause) :
    clause.kind = c.kind := by
  cases c with
  | references text =>
    obtain ⟨fk, -, rfl⟩ := map_eq_ok_iff.mp h
    rfl
  | primaryKey | notNull | unique | check | default | collate | generated =>
    rw [← Except.ok.inj h]
    rfl

theorem kind_of_clause {op : Operation} {clause : ColumnClause} (h : op.clause = .ok clause) :
    clause.kind = op.kind := by
  cases op with
  | add name clause' => rw [← Except.ok.inj h]; rfl
  | apply field candidates a => exact kind_of_ofConstraint h

-- Only an added key decides whether the rows are numbered.
theorem autoincrement_of_clause {op : Operation} {clause : ColumnClause}
    (h : op.clause = .ok clause) (before : Bool) :
    clause.autoincrement before = if op.kind = .primaryKey then op.autoincrement else before := by
  cases op with
  | add name clause' =>
    obtain rfl : clause' = clause := Except.ok.inj h
    cases clause' <;> rfl
  | apply field candidates a =>
    obtain ⟨name, c⟩ := a
    cases c with
    | references text =>
      obtain ⟨fk, -, rfl⟩ := map_eq_ok_iff.mp h
      rfl
    | primaryKey | notNull | unique | check | default | collate | generated =>
      rw [← Except.ok.inj h]
      rfl

theorem kind_of_autoincrement {op : Operation} (h : op.autoincrement = true) :
    op.kind = .primaryKey := by
  cases op with
  | add name clause =>
    cases clause with
    | primaryKey key => rfl
    | notNull | unique | check | default | collate | references | generated => cases h
  | apply field candidates a =>
    obtain ⟨name, c⟩ := a
    cases c with
    | primaryKey key => rfl
    | notNull | unique | check | default | collate | references | generated => cases h

/-! ## The flags -/

theorem has_set (f : Flags) (kind other : ClauseKind) :
    (f.set kind).has other = (f.has other || kind == other) := by
  cases kind <;> cases other <;> simp [Flags.set, Flags.has]

theorem has_extend (c : Column) (name : Option Text) (clause : ColumnClause) (kind : ClauseKind) :
    (c.extend name clause).has kind = (c.has kind || clause.kind == kind) := by
  have hset : (c.extend name clause).has kind = (c.flags.set clause.kind).has kind := by
    cases kind <;> rfl
  rw [hset, has_set, has]

-- A column that does not refuse a clause has none that the clause excludes.
theorem has_eq_false_of_refusal? {c : Column} {clause : ColumnClause}
    (h : c.refusal? clause = none) : ∀ kind ∈ clause.kind.excludes, c.has kind = false := by
  rw [refusal?, Option.or_eq_none_iff, Option.map_eq_none_iff, List.find?_eq_none] at h
  exact fun kind hkind => Bool.eq_false_iff.mpr (h.1 kind hkind)

theorem fault?_of_refusal? {c : Column} {clause : ColumnClause}
    (h : c.refusal? clause = none) : clause.fault? c.name c.storage = none := by
  rw [refusal?, Option.or_eq_none_iff] at h
  exact h.2

/-! ## What a run preserves -/

/-- The column holds what the operations have added, and they exclude one another nowhere. -/
structure Records (c : Column) (done : List Operation) : Prop where
  fragments : c.fragments.map some = done.map Operation.fragment?
  has_iff : ∀ kind, c.has kind = true ↔ ∃ op ∈ done, op.kind = kind
  autoincrement_iff : c.isAutoincrement = true ↔ ∃ op ∈ done, op.autoincrement = true
  apart : done.Pairwise Operation.Apart
  integer : c.isAutoincrement = true → c.storage = .integer

theorem records_plain (field : Text) (storage : Storage) : Records (plain field storage) [] := by
  have hhas : ∀ kind, (plain field storage).has kind = false := fun kind => by cases kind <;> rfl
  have hauto : (plain field storage).isAutoincrement = false := rfl
  have hnone (P : Operation → Prop) : ¬∃ op ∈ ([] : List Operation), P op :=
    fun ⟨_, hop, _⟩ => List.not_mem_nil hop
  refine ⟨rfl, fun kind => ?_, ?_, .nil, fun h => ?_⟩
  · rw [hhas kind]
    exact iff_of_false Bool.false_ne_true (hnone _)
  · rw [hauto]
    exact iff_of_false Bool.false_ne_true (hnone _)
  · rw [hauto] at h
    exact absurd h Bool.false_ne_true

section
variable {c : Column} {done : List Operation} {op : Operation} {clause : ColumnClause}

theorem Records.excludes (h : Records c done) (hclause : op.clause = .ok clause)
    (hrefusal : c.refusal? clause = none) : ∀ before ∈ done, before.kind ∉ op.kind.excludes := by
  intro before hbefore hkind
  have hhas : c.has before.kind = true := (h.has_iff before.kind).mpr ⟨before, hbefore, rfl⟩
  rw [← kind_of_clause hclause] at hkind
  rw [has_eq_false_of_refusal? hrefusal before.kind hkind] at hhas
  cases hhas

theorem isAutoincrement_extend (hclause : op.clause = .ok clause) :
    (c.extend op.name clause).isAutoincrement =
      if op.kind = .primaryKey then op.autoincrement else c.isAutoincrement :=
  autoincrement_of_clause hclause c.flags.autoincrement

theorem storage_of_autoincrement (hclause : op.clause = .ok clause)
    (hrefusal : c.refusal? clause = none) (hauto : op.autoincrement = true) :
    c.storage = .integer := by
  have hkey : clause.autoincrement false = true := by
    rw [autoincrement_of_clause hclause, if_pos (kind_of_autoincrement hauto), hauto]
  have hfault := fault?_of_refusal? hrefusal
  cases clause with
  | primaryKey key =>
    have hif : ¬(key.autoincrement = true ∧ c.storage ≠ .integer) := by
      intro hboth
      rw [ColumnClause.fault?, if_pos hboth] at hfault
      cases hfault
    exact Decidable.byContradiction fun hne => hif ⟨hkey, hne⟩
  | notNull | unique | check | default | collate | references | generated =>
    cases hkey

-- A successful operation is recorded.
theorem Records.extend (h : Records c done) (hclause : op.clause = .ok clause)
    (hrefusal : c.refusal? clause = none) :
    Records (c.extend op.name clause) (done ++ [op]) where
  fragments := by
    have hfragment : op.fragment? = some (namedClause op.name clause.toSql) := by
      rw [Operation.fragment?, hclause]
      rfl
    rw [List.map_append, List.map_singleton, hfragment, ← h.fragments]
    exact List.map_append
  has_iff kind := by
    rw [has_extend, Bool.or_eq_true, h.has_iff, beq_iff_eq, kind_of_clause hclause]
    simp only [List.mem_append, List.mem_singleton, or_and_right, exists_or, exists_eq_left]
  autoincrement_iff := by
    rw [isAutoincrement_extend hclause]
    simp only [List.mem_append, List.mem_singleton, or_and_right, exists_or, exists_eq_left]
    by_cases hkey : op.kind = .primaryKey
    -- A second key would have been refused, so the added one alone decides.
    · have hnone : ¬∃ before ∈ done, before.autoincrement = true := by
        rintro ⟨before, hbefore, hauto⟩
        have hexcluded := h.excludes hclause hrefusal before hbefore
        rw [kind_of_autoincrement hauto, hkey] at hexcluded
        exact hexcluded (by decide)
      rw [if_pos hkey]
      exact (or_iff_right hnone).symm
    · have hop : ¬op.autoincrement = true := mt kind_of_autoincrement hkey
      rw [if_neg hkey, h.autoincrement_iff]
      exact (or_iff_left hop).symm
  apart := by
    rw [List.pairwise_append]
    refine ⟨h.apart, List.pairwise_singleton _ _, fun before hbefore later hlater => ?_⟩
    rw [List.mem_singleton.mp hlater]
    exact h.excludes hclause hrefusal before hbefore
  integer hauto := by
    rw [isAutoincrement_extend hclause] at hauto
    split at hauto
    · show c.storage = .integer
      exact storage_of_autoincrement hclause hrefusal hauto
    · exact h.integer hauto

end

-- Every run leaves a column that records the operations that succeeded.
theorem Records.run {c : Column} {done : List Operation} (h : Records c done)
    (ops : List Operation) : Records (c.run ops).1 (done ++ (c.run ops).2) := by
  -- The invariant is about all operations so far, so it is carried from one column to the next.
  induction ops generalizing c done with
  | nil =>
    rw [Column.run, List.append_nil]
    exact h
  | cons op ops ih =>
    rw [Column.run]
    split
    · next e c' hchange =>
      rw [eq_of_change_on_error hchange]
      exact ih h
    · next c' hchange =>
      obtain ⟨clause, hclause, hrefusal, rfl⟩ := extend_of_change_on_ok hchange
      have hrun := ih (h.extend hclause hrefusal)
      rwa [List.append_assoc] at hrun

/-! ## What the kinds exclude -/

theorem mem_excludes_comm (kind other : ClauseKind) :
    kind ∈ other.excludes ↔ other ∈ kind.excludes := by
  cases kind <;> cases other <;> decide

instance : Std.Symm Operation.Apart where
  symm _ _ h := mt (mem_excludes_comm _ _).mp h

theorem Records.not_excludes {c : Column} {done : List Operation} (h : Records c done)
    {op other : Operation} (hop : op ∈ done) (hother : other ∈ done) (hne : op.kind ≠ other.kind) :
    op.kind ∉ other.kind.excludes :=
  h.apart.forall hop hother fun heq => hne (congrArg Operation.kind heq)

-- Of a kind that excludes itself there is one operation at most.
theorem countP_kind_le_one {done : List Operation}
    (h : done.Pairwise Operation.Apart) {kind : ClauseKind}
    (hkind : kind ∈ kind.excludes) : done.countP (·.kind = kind) ≤ 1 := by
  induction h with
  | nil => exact Nat.zero_le 1
  | @cons op later hop hlater ih =>
    by_cases heq : op.kind = kind
    · have hzero : later.countP (·.kind = kind) = 0 := by
        rw [List.countP_eq_zero]
        intro other hother hsame
        have hexcluded := hop other hother
        rw [Operation.Apart, heq, of_decide_eq_true hsame] at hexcluded
        exact hexcluded hkind
      rw [List.countP_cons_of_pos (by simpa using heq), hzero]
    · rwa [List.countP_cons_of_neg (by simpa using heq)]

theorem run_name_storage (c : Column) (ops : List Operation) :
    (c.run ops).1.name = c.name ∧ (c.run ops).1.storage = c.storage := by
  induction ops generalizing c with
  | nil => exact ⟨rfl, rfl⟩
  | cons op ops ih =>
    rw [Column.run]
    split
    · next e c' hchange =>
      rw [eq_of_change_on_error hchange]
      exact ih c
    · next c' hchange =>
      obtain ⟨clause, -, -, rfl⟩ := extend_of_change_on_ok hchange
      exact ih (c.extend op.name clause)

/-- A column holds the clauses that were added with success, in their order, and no two of them that
cannot stand beside each other. An operation that fails leaves it as it was. -/
theorem run_plain (field : Text) (storage : Storage) (ops : List Operation) :
    let c := ((plain field storage).run ops).1
    let done := ((plain field storage).run ops).2
    c.name = identifier field ∧ c.storage = storage ∧
    c.fragments.map some = done.map Operation.fragment? ∧
    (∀ kind, c.has kind = true ↔ ∃ op ∈ done, op.kind = kind) ∧
    (c.isAutoincrement = true ↔ ∃ op ∈ done, op.autoincrement = true) ∧
    (∀ kind ∈ [ClauseKind.primaryKey, .default, .collate, .generated],
      done.countP (·.kind = kind) ≤ 1) ∧
    (∀ op ∈ done, op.kind = .generated → ∀ other ∈ done,
      other.kind ∉ [ClauseKind.primaryKey, .unique, .default, .foreignKey]) ∧
    (∀ op ∈ done, op.kind = .primaryKey → ∀ other ∈ done, other.kind ≠ .default) ∧
    (c.isAutoincrement = true → c.has .primaryKey = true ∧ c.storage = .integer) ∧
    ∀ (op : Operation) (e : SchemaError) (after : Column),
      op.change.on c = (.error e, after) → after = c := by
  intro c done
  have h : Records c done := (records_plain field storage).run ops
  obtain ⟨hname, hstorage⟩ := run_name_storage (plain field storage) ops
  refine ⟨hname, hstorage, h.fragments, h.has_iff, h.autoincrement_iff, fun kind hkind => ?_,
    fun op hop hgenerated other hother hkind => ?_, fun op hop hkey other hother hdefault => ?_,
    fun hauto => ⟨?_, h.integer hauto⟩, fun op e after => eq_of_change_on_error⟩
  · have hself : ∀ kind ∈ [ClauseKind.primaryKey, .default, .collate, .generated],
        kind ∈ kind.excludes := by decide
    exact countP_kind_le_one h.apart (hself kind hkind)
  · have hexcludes : ∀ kind ∈ [ClauseKind.primaryKey, .unique, .default, .foreignKey],
        kind ∈ ClauseKind.generated.excludes ∧ kind ≠ .generated := by decide
    obtain ⟨hmem, hne⟩ := hexcludes other.kind hkind
    exact h.not_excludes hother hop (by rwa [hgenerated]) (by rwa [hgenerated])
  · have hmem : ClauseKind.default ∈ ClauseKind.primaryKey.excludes := by decide
    exact h.not_excludes hother hop (by simp [hkey, hdefault]) (by rwa [hkey, hdefault])
  · obtain ⟨op, hop, hop'⟩ := h.autoincrement_iff.mp hauto
    exact (h.has_iff .primaryKey).mpr ⟨op, hop, kind_of_autoincrement hop'⟩

theorem run_plain_refusedDefault :
    let ops : List Operation :=
      [.add none (.primaryKey ColumnKey.plain), .add none (.default .null)]
    ((plain "Id" .integer).run ops).1.fragments.map some = [some ColumnKey.plain.toSql] := by
  intro ops
  have hdone : ((plain "Id" .integer).run ops).2.map Operation.fragment? =
      [some ColumnKey.plain.toSql] := rfl
  rw [← hdone]
  exact (run_plain "Id" .integer ops).2.2.1

end Column

end AnnotatedSchema
