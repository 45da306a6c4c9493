import AnnotatedSchema.Column

/-!
# What a change does to a column

Every change first looks whether it is refused and only then writes. So a change that fails leaves
the column as it was, and one that succeeds adds one text and sets one flag.
-/

namespace AnnotatedSchema

namespace ColumnClause

def kind : ColumnClause → ClauseKind
  | primaryKey _ => .primaryKey
  | notNull _ => .notNull
  | unique _ => .unique
  | check _ => .check
  | default _ => .default
  | collate _ => .collate
  | references _ => .foreignKey
  | generated _ => .generated

def toSql : ColumnClause → Text
  | primaryKey key => key.toSql
  | notNull conflict => notNullSql conflict
  | unique conflict => uniqueSql conflict
  | check sql => checkSql sql
  | default value => value.toSql
  | collate collation => collateSql collation
  | references fk => fk.text
  | generated g => g.toSql

/-- Why a column refuses the clause even if it has no other. -/
def fault? (column : Text) (storage : Storage) : ColumnClause → Option SchemaError
  | primaryKey key =>
    if key.autoincrement ∧ storage ≠ .integer then
      some (.autoincrementRequiresIntegerKey column storage)
    else none
  | references fk => fk.missingColumn?
  | _ => none

/-- Whether the rows are numbered once the clause is added. -/
def autoincrement (before : Bool) : ColumnClause → Bool
  | primaryKey key => key.autoincrement
  | _ => before

end ColumnClause

namespace Column

/-- Why the column refuses a clause, if it does. -/
def refusal? (c : Column) (clause : ColumnClause) : Option SchemaError :=
  ((clause.kind.excludes.find? c.has).map (c.conflict clause.kind)).or
    (clause.fault? c.name c.storage)

/-- The column with one more clause, whether or not it is refused. -/
def extend (c : Column) (name : Option Text) (clause : ColumnClause) : Column :=
  { c with
    fragments := c.fragments ++ [namedClause name clause.toSql]
    flags :=
      { c.flags.set clause.kind with autoincrement := clause.autoincrement c.flags.autoincrement } }

variable {α β : Type}

theorem Change.on_bind (x : Change α) (f : α → Change β) (c : Column) :
    Change.on (x >>= f) c =
      match x.on c with
      | (.error e, c) => (.error e, c)
      | (.ok a, c) => (f a).on c := by
  change (match (ExceptT.run x) c with | (r, c) => ExceptT.bindCont f r c) = _
  change _ = match (ExceptT.run x) c with
    | (Except.error e, c) => (Except.error e, c)
    | (Except.ok a, c) => (f a).on c
  obtain ⟨r, c'⟩ := (ExceptT.run x) c
  cases r <;> rfl

theorem Change.on_get (c : Column) : Change.on get c = (.ok c, c) := rfl

theorem Change.on_lift (x : Except SchemaError α) (c : Column) :
    Change.on (liftM x) c = (x, c) := rfl

theorem checkKind_on (kind : ClauseKind) (c : Column) :
    (checkKind kind).on c =
      match kind.excludes.find? c.has with
      | some existing => (.error (c.conflict kind existing), c)
      | none => (.ok (), c) := by
  rw [checkKind, Change.on_bind, Change.on_get]
  dsimp only
  cases kind.excludes.find? c.has <;> rfl

theorem put_on (kind : ClauseKind) (name : Option Text) (fragment : Text) (c : Column) :
    (put kind name fragment).on c =
      match kind.excludes.find? c.has with
      | some existing => (.error (c.conflict kind existing), c)
      | none =>
        (.ok (), { c with
          fragments := c.fragments ++ [namedClause name fragment]
          flags := c.flags.set kind }) := by
  rw [put, Change.on_bind, checkKind_on]
  cases kind.excludes.find? c.has <;> rfl

theorem putKey_on (name : Option Text) (key : ColumnKey) (c : Column) :
    (putKey name key).on c =
      match c.refusal? (.primaryKey key) with
      | some e => (.error e, c)
      | none => (.ok (), c.extend name (.primaryKey key)) := by
  rw [putKey, Change.on_bind, checkKind_on]
  unfold refusal? ColumnClause.kind
  cases ClauseKind.primaryKey.excludes.find? c.has with
  | some existing => rfl
  | none =>
    by_cases h : key.autoincrement ∧ c.storage ≠ .integer
    · have hfault : ColumnClause.fault? c.name c.storage (.primaryKey key) =
          some (.autoincrementRequiresIntegerKey c.name c.storage) := if_pos h
      dsimp only
      rw [Change.on_bind, Change.on_get, hfault]
      dsimp only
      rw [if_pos h]
      rfl
    · have hfault : ColumnClause.fault? c.name c.storage (.primaryKey key) = none := if_neg h
      dsimp only
      rw [Change.on_bind, Change.on_get, hfault]
      dsimp only
      rw [if_neg h]
      rfl

theorem putReference_on (name : Option Text) (fk : ForeignKey) (c : Column) :
    (putReference name fk).on c =
      match c.refusal? (.references fk) with
      | some e => (.error e, c)
      | none => (.ok (), c.extend name (.references fk)) := by
  rw [putReference, Change.on_bind, checkKind_on]
  unfold refusal? ColumnClause.kind
  cases ClauseKind.foreignKey.excludes.find? c.has with
  | some existing => rfl
  | none =>
    have hfault : ColumnClause.fault? c.name c.storage (.references fk) = fk.missingColumn? := rfl
    dsimp only
    rw [Change.on_bind, Change.on_lift, hfault, ForeignKey.toSql]
    cases fk.missingColumn? <;> rfl

-- A change is refused before it writes anything.
theorem addClause_on (name : Option Text) (clause : ColumnClause) (c : Column) :
    (addClause name clause).on c =
      match c.refusal? clause with
      | some e => (.error e, c)
      | none => (.ok (), c.extend name clause) := by
  -- All kinds but two differ only in the flag they set and the text they add.
  have hput (kind : ClauseKind) (fragment : Text) (hkind : clause.kind = kind)
      (hfault : clause.fault? c.name c.storage = none)
      (hcolumn : c.extend name clause = { c with
        fragments := c.fragments ++ [namedClause name fragment]
        flags := c.flags.set kind }) :
      (put kind name fragment).on c =
        match c.refusal? clause with
        | some e => (.error e, c)
        | none => (.ok (), c.extend name clause) := by
    rw [put_on, refusal?, hfault, hkind, Option.or_none, hcolumn]
    cases kind.excludes.find? c.has <;> rfl
  cases clause with
  | primaryKey key => exact putKey_on name key c
  | references fk => exact putReference_on name fk c
  | notNull conflict => exact hput _ _ rfl rfl rfl
  | unique conflict => exact hput _ _ rfl rfl rfl
  | check sql => exact hput _ _ rfl rfl rfl
  | default value => exact hput _ _ rfl rfl rfl
  | collate collation => exact hput _ _ rfl rfl rfl
  | generated g => exact hput _ _ rfl rfl rfl

end Column

end AnnotatedSchema
