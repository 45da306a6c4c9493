import AnnotatedSchema.Proofs.ColumnChange
import AnnotatedSchema.Proofs.ModelColumns
import AnnotatedSchema.Proofs.QuerySpelling
import AnnotatedSchema.Query.Builder
import AnnotatedSchema.Script

/-!
# Two spellings of a column

Where a key, an index, a table or a query takes the names of columns, it can be given declared names
and identifiers in any mix. The same names are mapped, the same text is written, and an error is of
the same kind and only repeats the name as it was given.
-/

namespace AnnotatedSchema

/-! ## Mapped names -/

theorem Model.mapsColumn_iff_column (m : Model) (name : Text) :
    m.mapsColumn name = true ↔ ∃ f ∈ m.mappedFields, f.column = identifier name := by
  rw [mapsColumn_iff]
  refine ⟨Maps.exists_column, ?_⟩
  rintro ⟨f, hf, hcolumn⟩
  obtain ⟨hmem, hmapped⟩ := List.mem_filter.mp hf
  exact ⟨f, hmem, hmapped, .inr hcolumn⟩

theorem Respells.mapsColumn_eq {name other : Text} (h : Respells name other) (m : Model) :
    m.mapsColumn other = m.mapsColumn name := by
  rw [Bool.eq_iff_iff, m.mapsColumn_iff_column, m.mapsColumn_iff_column, h.identifier_eq]

theorem Table.HasColumnsOf.mapsColumn_iff {m : Model} {candidates : List Model}
    {columns : List Column} (h : HasColumnsOf m candidates columns) (name : Text) :
    m.mapsColumn name = true ↔ ∃ c ∈ columns, c.name = identifier name := by
  refine ⟨fun hmaps => ?_, ?_⟩
  · exact List.mem_map.mp (h.identifier_mem ((m.mapsColumn_iff name).mp hmaps))
  · rintro ⟨c, hc, hname⟩
    obtain ⟨f, hf, -, hcolumn⟩ := exists_of_forall₂ h.flip hc
    exact (m.mapsColumn_iff_column name).mpr ⟨f, hf, hcolumn.symm.trans hname⟩

/-! ## Errors -/

/-- The errors are of the same kind and tell the same but for the spelling of columns. -/
inductive SchemaError.Respells : SchemaError → SchemaError → Prop
  | same (e : SchemaError) : SchemaError.Respells e e
  | unknownColumn {model name other : Text} (h : AnnotatedSchema.Respells name other) :
      SchemaError.Respells (.unknownColumn model name) (.unknownColumn model other)
  | unknownTargetColumn {target name other : Text} (h : AnnotatedSchema.Respells name other) :
      SchemaError.Respells (.unknownTargetColumn target name) (.unknownTargetColumn target other)
  | columnCountMismatch {names others : List Text} {expected found : Nat}
      (h : List.Forall₂ AnnotatedSchema.Respells names others) :
      SchemaError.Respells (.columnCountMismatch (Text.commaSeparated names) expected found)
        (.columnCountMismatch (Text.commaSeparated others) expected found)

/-- Both give results that are related, or both fail with such errors. -/
inductive Agree {α : Type} (R : α → α → Prop) :
    Except SchemaError α → Except SchemaError α → Prop
  | ok {a b : α} (h : R a b) : Agree R (.ok a) (.ok b)
  | error {e e' : SchemaError} (h : e.Respells e') : Agree R (.error e) (.error e')

section
variable {α β : Type} {R : α → α → Prop} {S : β → β → Prop}

theorem Agree.bind {x y : Except SchemaError α} {f g : α → Except SchemaError β}
    (h : Agree R x y) (hf : ∀ a b, R a b → Agree S (f a) (g b)) :
    Agree S (x >>= f) (y >>= g) := by
  cases h with
  | ok h => exact hf _ _ h
  | error h => exact .error h

theorem Agree.foldlM {step step' : α → β → Except SchemaError α} {bs cs : List β}
    (hbs : List.Forall₂ S bs cs)
    (hstep : ∀ a a' b c, R a a' → S b c → Agree R (step a b) (step' a' c)) {a a' : α}
    (ha : R a a') : Agree R (bs.foldlM step a) (cs.foldlM step' a') := by
  induction hbs generalizing a a' with
  | nil => exact .ok ha
  | cons hb _ ih =>
    rw [List.foldlM_cons, List.foldlM_cons]
    exact (hstep _ _ _ _ ha hb).bind fun _ _ => ih

theorem Agree.mapM {f g : β → Except SchemaError α} {bs cs : List β}
    (hbs : List.Forall₂ S bs cs) (hf : ∀ b c, S b c → Agree Eq (f b) (g c)) :
    Agree Eq (bs.mapM f) (cs.mapM g) := by
  induction hbs with
  | nil => exact .ok rfl
  | cons hb _ ih =>
    rw [List.mapM_cons, List.mapM_cons]
    refine (hf _ _ hb).bind fun a _ hab => ih.bind fun as _ has => ?_
    rw [hab, has]
    exact .ok rfl

theorem Agree.map {x y : Except SchemaError α} (h : Agree Eq x y) (f : α → β) :
    Agree Eq (x.map f) (y.map f) := by
  cases h with
  | ok h => exact .ok (congrArg f h)
  | error h => exact .error h

-- What has a fault is an error, and what has none is a result.
theorem Agree.of_fault {fault fault' : Option SchemaError}
    (h : Option.Rel SchemaError.Respells fault fault') {a b : α} (hab : R a b) :
    Agree R (fault.elim (.ok a) .error) (fault'.elim (.ok b) .error) := by
  cases h with
  | none => exact .ok hab
  | some h => exact .error h

end

section
variable {α β : Type} {R : α → α → Prop} {S : β → β → Prop}

theorem rel_self (fault : Option SchemaError) : Option.Rel SchemaError.Respells fault fault := by
  cases fault with
  | none => exact .none
  | some e => exact .some (.same e)

theorem rel_or {x y x' y' : Option α} (h : Option.Rel R x y) (h' : Option.Rel R x' y') :
    Option.Rel R (x.or x') (y.or y') := by
  cases h with
  | none => simpa using h'
  | some h => exact .some h

theorem rel_isNone {x y : Option α} (h : Option.Rel R x y) : y.isNone = x.isNone := by
  cases h <;> rfl

theorem rel_eq {x y : Option α} (h : Option.Rel R x y) (hR : ∀ {a b}, R a b → a = b) : y = x := by
  cases h with
  | none => rfl
  | some h => rw [hR h]

theorem rel_map {x y : Option α} (h : Option.Rel R x y) {f : α → β}
    (hf : ∀ a b, R a b → S (f a) (f b)) : Option.Rel S (x.map f) (y.map f) := by
  cases h with
  | none => exact .none
  | some h => exact .some (hf _ _ h)

theorem rel_findSome? {f g : α → Option β} {as bs : List α} (h : List.Forall₂ R as bs)
    (hf : ∀ a b, R a b → Option.Rel S (f a) (g b)) :
    Option.Rel S (as.findSome? f) (bs.findSome? g) := by
  induction h with
  | nil => exact .none
  | @cons a b as bs hab _ ih =>
    rw [List.findSome?_cons, List.findSome?_cons]
    exact match f a, g b, hf a b hab with
      | _, _, .none => ih
      | _, _, .some h => .some h

end

-- The first name that is not mapped stands at the same place.
theorem rel_find?_unmapped {names others : List Text} (h : List.Forall₂ Respells names others)
    (m : Model) :
    Option.Rel Respells (names.find? fun name => !m.mapsColumn name)
      (others.find? fun name => !m.mapsColumn name) := by
  induction h with
  | nil => exact .none
  | @cons name other names others hname _ ih =>
    rw [List.find?_cons, List.find?_cons, hname.mapsColumn_eq]
    cases m.mapsColumn name with
    | true => exact ih
    | false => exact .some hname

/-! ## Foreign keys -/

/-- The keys are the same but for the spelling of columns. -/
structure ForeignKey.Respells (fk other : ForeignKey) : Prop where
  columns : List.Forall₂ AnnotatedSchema.Respells fk.columns other.columns
  targetColumns : List.Forall₂ AnnotatedSchema.Respells fk.targetColumns other.targetColumns
  rest : other = { fk with columns := other.columns, targetColumns := other.targetColumns }

inductive ForeignKey.Call.Respells : ForeignKey.Call → ForeignKey.Call → Prop
  | references {columns others : List Text}
      (h : List.Forall₂ AnnotatedSchema.Respells columns others) :
      ForeignKey.Call.Respells (.references columns) (.references others)
  | set (setting : ForeignKey.Setting) : ForeignKey.Call.Respells (.set setting) (.set setting)

namespace ForeignKey

theorem respells_plain {columns others : List Text}
    (h : List.Forall₂ AnnotatedSchema.Respells columns others) (tableLevel : Bool)
    (target : Model) :
    (plain tableLevel columns target).Respells (plain tableLevel others target) :=
  ⟨h, .nil, rfl⟩

theorem Respells.apply {fk other : ForeignKey} (h : fk.Respells other) {call call' : Call}
    (hcall : call.Respells call') :
    Agree ForeignKey.Respells (fk.apply call) (other.apply call') := by
  obtain ⟨hcolumns, htargets, hrest⟩ := h
  cases hcall with
  | @references columns others hnames =>
    have hcount : (others = [] ∨ others.length = other.columns.length) ↔
        (columns = [] ∨ columns.length = fk.columns.length) := by
      rw [← List.length_eq_zero_iff, ← List.length_eq_zero_iff, hnames.length_eq,
        hcolumns.length_eq]
    rw [ForeignKey.apply, ForeignKey.apply, ForeignKey.references, ForeignKey.references]
    by_cases hfits : columns = [] ∨ columns.length = fk.columns.length
    · rw [if_pos hfits, if_pos (hcount.mpr hfits)]
      exact .ok ⟨hcolumns, hnames, by rw [hrest]⟩
    · rw [if_neg hfits, if_neg (mt hcount.mp hfits), hcolumns.length_eq, hnames.length_eq]
      exact .error (.columnCountMismatch hcolumns)
  | set setting =>
    refine .ok ?_
    rw [hrest]
    cases setting <;> exact ⟨hcolumns, htargets, rfl⟩

theorem Respells.missingColumn? {fk other : ForeignKey} (h : fk.Respells other) :
    Option.Rel SchemaError.Respells fk.missingColumn? other.missingColumn? := by
  rw [h.rest]
  exact rel_map (rel_find?_unmapped h.targetColumns fk.target) fun _ _ => .unknownTargetColumn

theorem Respells.text_eq {fk other : ForeignKey} (h : fk.Respells other) :
    other.text = fk.text := by
  have hnil : other.targetColumns = [] ↔ fk.targetColumns = [] := by
    rw [← List.length_eq_zero_iff, ← List.length_eq_zero_iff, h.targetColumns.length_eq]
  have howner : other.ownerText = fk.ownerText := by
    rw [h.rest, ownerText, ownerText, identifierList_eq h.columns]
  have htarget : other.targetText = fk.targetText := by
    rw [targetText, targetText]
    simp only [hnil, identifierList_eq h.targetColumns]
    rw [h.rest]
  rw [text, text, howner, htarget, h.rest]

theorem toSql_eq_elim (fk : ForeignKey) :
    fk.toSql = fk.missingColumn?.elim (.ok fk.text) .error := by
  rw [ForeignKey.toSql]
  cases fk.missingColumn? <;> rfl

theorem Respells.toSql {fk other : ForeignKey} (h : fk.Respells other) :
    Agree Eq fk.toSql other.toSql := by
  rw [toSql_eq_elim, toSql_eq_elim]
  exact .of_fault h.missingColumn? h.text_eq.symm

end ForeignKey

/-! ## Columns -/

/-- The texts are those of expressions that are the same but for the spelling of `USING` columns. -/
def SqlRespells (sql other : Text) : Prop :=
  ∃ e e' : Expression, e.Respells e' ∧ sql = e.toSql ∧ other = e'.toSql

theorem SqlRespells.eq {sql other : Text} (h : SqlRespells sql other) : sql = other := by
  obtain ⟨e, e', he, rfl, rfl⟩ := h
  exact he.toSql_eq.symm

inductive ColumnClause.Respells : ColumnClause → ColumnClause → Prop
  | same (clause : ColumnClause) : ColumnClause.Respells clause clause
  | check {sql other : Text} (h : SqlRespells sql other) :
      ColumnClause.Respells (.check sql) (.check other)
  | default {sql other : Text} (h : SqlRespells sql other) :
      ColumnClause.Respells (.default (.expression sql)) (.default (.expression other))
  | generated {sql other : Text} {storage : GeneratedStorage} {always : Bool}
      (h : SqlRespells sql other) :
      ColumnClause.Respells (.generated ⟨sql, storage, always⟩)
        (.generated ⟨other, storage, always⟩)
  | references {fk other : ForeignKey} (h : fk.Respells other) :
      ColumnClause.Respells (.references fk) (.references other)

namespace Column

theorem add_eq_elim (c : Column) (name : Option Text) (clause : ColumnClause) :
    c.add name clause = (c.refusal? clause).elim (.ok (c.extend name clause)) .error := by
  rw [add, addClause_on]
  cases c.refusal? clause <;> rfl

theorem add_respells {clause other : ColumnClause} (h : clause.Respells other) (c : Column)
    (name : Option Text) : Agree Eq (c.add name clause) (c.add name other) := by
  have hself : ∀ x : Except SchemaError Column, Agree Eq x x
    | .ok _ => .ok rfl
    | .error e => .error (.same e)
  cases h with
  | same => exact hself _
  | check h | default h | generated h =>
    rw [h.eq]
    exact hself _
  | @references fk other h =>
    have hextend : c.extend name (.references fk) = c.extend name (.references other) := by
      have htext : ColumnClause.toSql (.references fk) = ColumnClause.toSql (.references other) :=
        h.text_eq.symm
      rw [extend, extend, htext]
      rfl
    rw [add_eq_elim, add_eq_elim]
    exact .of_fault (rel_or (rel_self _) h.missingColumn?) hextend

end Column

/-! ## Indexes -/

inductive IndexedColumn.Respells : IndexedColumn → IndexedColumn → Prop
  | column {name other : Text} {collation : Option Text} {order : Option SortOrder}
      (h : AnnotatedSchema.Respells name other) :
      IndexedColumn.Respells ⟨.column name, collation, order⟩ ⟨.column other, collation, order⟩
  | expression {sql other : Text} {collation : Option Text} {order : Option SortOrder}
      (h : SqlRespells sql other) :
      IndexedColumn.Respells ⟨.expression sql, collation, order⟩
        ⟨.expression other, collation, order⟩

namespace IndexedColumn

theorem Respells.toSql_eq {c other : IndexedColumn} (h : c.Respells other) :
    other.toSql = c.toSql := by
  cases h with
  | column h =>
    simp only [toSql, h.identifier_eq]
  | expression h =>
    obtain rfl := h.eq
    rfl

theorem listToSql_eq {cs others : List IndexedColumn}
    (h : List.Forall₂ IndexedColumn.Respells cs others) : listToSql others = listToSql cs := by
  rw [listToSql, listToSql, map_eq_of_forall₂ h Respells.toSql_eq]

theorem names_respell {cs others : List IndexedColumn}
    (h : List.Forall₂ IndexedColumn.Respells cs others) :
    List.Forall₂ AnnotatedSchema.Respells (cs.filterMap name?) (others.filterMap name?) := by
  refine List.rel_filterMap (fun c other hc => ?_) h
  cases hc with
  | column h => exact .some h
  | expression => exact .none

end IndexedColumn

/-- The indexes are the same but for the spelling of columns. -/
structure Index.Respells (i other : Index) : Prop where
  columns : List.Forall₂ IndexedColumn.Respells i.columns other.columns
  predicate : Option.Rel SqlRespells i.predicate other.predicate
  rest : other = { i with columns := other.columns, predicate := other.predicate }

inductive Index.Call.Respells : Index.Call → Index.Call → Prop
  | columns {columns others : List IndexedColumn}
      (h : List.Forall₂ IndexedColumn.Respells columns others) :
      Index.Call.Respells (.columns columns) (.columns others)
  | unique : Index.Call.Respells .unique .unique
  | ifNotExists : Index.Call.Respells .ifNotExists .ifNotExists
  | schema (name : Text) : Index.Call.Respells (.schema name) (.schema name)
  | where {sql other : Text} (h : SqlRespells sql other) :
      Index.Call.Respells (.where sql) (.where other)

theorem Index.Respells.apply {i other : Index} (h : i.Respells other) {call call' : Index.Call}
    (hcall : call.Respells call') : (i.apply call).Respells (other.apply call') := by
  obtain ⟨hcolumns, hpredicate, hrest⟩ := h
  rw [hrest]
  cases hcall with
  | columns h => exact ⟨List.rel_append hcolumns h, hpredicate, rfl⟩
  | unique | ifNotExists | schema => exact ⟨hcolumns, hpredicate, rfl⟩
  | «where» h => exact ⟨hcolumns, .some h, rfl⟩

theorem Index.Respells.toSql_eq {i other : Index} (h : i.Respells other) :
    other.toSql = i.toSql := by
  obtain ⟨hcolumns, hpredicate, hrest⟩ := h
  have hpredicate : other.predicate = i.predicate := rel_eq hpredicate fun h => h.eq
  have hlist := IndexedColumn.listToSql_eq hcolumns
  rw [hpredicate] at hrest
  unfold Index.toSql
  rw [hlist, hrest]

/-! ## Tables -/

inductive TableConstraint.Respells : TableConstraint → TableConstraint → Prop
  | primaryKey {columns others : List IndexedColumn} {conflict : Option ConflictAction}
      (h : List.Forall₂ IndexedColumn.Respells columns others) :
      TableConstraint.Respells (.primaryKey columns conflict) (.primaryKey others conflict)
  | unique {columns others : List IndexedColumn} {conflict : Option ConflictAction}
      (h : List.Forall₂ IndexedColumn.Respells columns others) :
      TableConstraint.Respells (.unique columns conflict) (.unique others conflict)
  | check {sql other : Text} (h : SqlRespells sql other) :
      TableConstraint.Respells (.check sql) (.check other)
  | foreignKey {fk other : ForeignKey} (h : fk.Respells other) :
      TableConstraint.Respells (.foreignKey fk) (.foreignKey other)

namespace TableConstraint

theorem Respells.toSql_eq {c other : TableConstraint} (h : c.Respells other) :
    other.toSql = c.toSql := by
  cases h with
  | @primaryKey _ _ conflict h =>
    exact congrArg (fun t => "PRIMARY KEY ".toList ++ Text.parenthesized t ++
      ConflictAction.clause conflict) (IndexedColumn.listToSql_eq h)
  | @unique _ _ conflict h =>
    exact congrArg (fun t => "UNIQUE ".toList ++ Text.parenthesized t ++
      ConflictAction.clause conflict) (IndexedColumn.listToSql_eq h)
  | check h =>
    obtain rfl := h.eq
    rfl
  | foreignKey h => exact h.text_eq

theorem Respells.columns {c other : TableConstraint} (h : c.Respells other) :
    List.Forall₂ AnnotatedSchema.Respells c.columns other.columns := by
  cases h with
  | primaryKey h => exact IndexedColumn.names_respell h
  | unique h => exact IndexedColumn.names_respell h
  | check => exact .nil
  | foreignKey h => exact h.columns

theorem Respells.fault? {c other : TableConstraint} (h : c.Respells other) (m : Model) :
    Option.Rel SchemaError.Respells (c.fault? m) (other.fault? m) := by
  have hmissing : Option.Rel SchemaError.Respells
      ((c.columns.find? fun name => !m.mapsColumn name).map (.unknownColumn m.name))
      ((other.columns.find? fun name => !m.mapsColumn name).map (.unknownColumn m.name)) :=
    rel_map (rel_find?_unmapped h.columns m) fun _ _ => .unknownColumn
  cases h with
  | primaryKey | unique | check => exact hmissing
  | foreignKey h => exact rel_or hmissing h.missingColumn?

end TableConstraint

/-- The constraints have one name and are the same but for the spelling of columns. -/
structure NamedTableConstraint.Respells (c other : NamedTableConstraint) : Prop where
  name : other.name = c.name
  constraint : c.constraint.Respells other.constraint

theorem NamedTableConstraint.Respells.toSql_eq {c other : NamedTableConstraint}
    (h : c.Respells other) : other.toSql = c.toSql := by
  rw [toSql, toSql, h.name, h.constraint.toSql_eq]

/-- The tables are the same but for the spelling of columns in constraints and in the query. -/
structure Table.Respells (t other : Table) : Prop where
  query : Option.Rel Select.Respells t.query other.query
  constraints : List.Forall₂ NamedTableConstraint.Respells t.constraints other.constraints
  rest : other = { t with query := other.query, constraints := other.constraints }

inductive Table.Call.Respells : Table.Call → Table.Call → Prop
  | temporary : Table.Call.Respells .temporary .temporary
  | ifNotExists : Table.Call.Respells .ifNotExists .ifNotExists
  | schema (name : Text) : Table.Call.Respells (.schema name) (.schema name)
  | withoutRowid : Table.Call.Respells .withoutRowid .withoutRowid
  | strict : Table.Call.Respells .strict .strict
  | asSelect {query query' : Select} (h : query.Respells query') :
      Table.Call.Respells (.asSelect query) (.asSelect query')
  | constraint {name : Option Text} {c c' : TableConstraint} (h : c.Respells c') :
      Table.Call.Respells (.constraint name c) (.constraint name c')

namespace Table

theorem Respells.apply {t other : Table} (h : t.Respells other) {call call' : Call}
    (hcall : call.Respells call') : (t.apply call).Respells (other.apply call') := by
  obtain ⟨hquery, hconstraints, hrest⟩ := h
  rw [hrest]
  cases hcall with
  | temporary | ifNotExists | schema | withoutRowid | strict => exact ⟨hquery, hconstraints, rfl⟩
  | asSelect h => exact ⟨.some h, hconstraints, rfl⟩
  | constraint h =>
    exact ⟨hquery, List.rel_append hconstraints (.cons ⟨rfl, h⟩ .nil), rfl⟩

-- A new table has neither constraints nor a query.
theorem respells_ofModel {m : Model} {references : List Model} {t : Table}
    (h : ofModel m references = .ok t) : t.Respells t := by
  obtain ⟨columns, -, rfl⟩ := map_eq_ok_iff.mp h
  exact ⟨.none, .nil, rfl⟩

theorem Respells.model_eq {t other : Table} (h : t.Respells other) : other.model = t.model := by
  rw [h.rest]

theorem Respells.isEmpty_eq {t other : Table} (h : t.Respells other) :
    other.isEmpty = t.isEmpty := by
  have hquery : other.query.isNone = t.query.isNone := rel_isNone h.query
  have hconstraints : other.constraints.isEmpty = t.constraints.isEmpty := by
    rw [Bool.eq_iff_iff, List.isEmpty_iff_length_eq_zero, List.isEmpty_iff_length_eq_zero,
      h.constraints.length_eq]
  rw [isEmpty, isEmpty, hquery, hconstraints, h.rest]

theorem Respells.fault? {t other : Table} (h : t.Respells other) :
    Option.Rel SchemaError.Respells t.fault? other.fault? := by
  rw [Table.fault?, Table.fault?, h.isEmpty_eq, h.model_eq]
  split
  · exact rel_self _
  · exact rel_findSome? h.constraints fun _ _ hc => hc.constraint.fault? t.model

theorem body_eq_elim (t : Table) :
    t.body = (t.query.map Select.toSql).elim
      (" (\n\t" ++ List.intercalate ",\n\t".toList t.definitions ++ "\n)" ++ t.optionText)
      (" AS ".toList ++ ·) := by
  rw [body]
  cases t.query <;> rfl

theorem Respells.text_eq {t other : Table} (h : t.Respells other) : other.text = t.text := by
  have hdefinitions : other.definitions = t.definitions := by
    rw [definitions, definitions,
      map_eq_of_forall₂ h.constraints NamedTableConstraint.Respells.toSql_eq, h.rest]
  have hquery : other.query.map Select.toSql = t.query.map Select.toSql :=
    rel_eq (rel_map h.query fun _ _ hq => hq.toSql_eq.symm) id
  have hoption : other.optionText = t.optionText := by rw [h.rest]; rfl
  have hbody : other.body = t.body := by
    rw [body_eq_elim, body_eq_elim, hquery, hdefinitions, hoption]
  unfold text
  rw [hbody, h.rest]
  rfl

theorem toSql_eq_elim (t : Table) : t.toSql = t.fault?.elim (.ok t.text) .error := by
  rw [toSql]
  cases t.fault? <;> rfl

theorem Respells.toSql {t other : Table} (h : t.Respells other) :
    Agree Eq t.toSql other.toSql := by
  rw [toSql_eq_elim, toSql_eq_elim]
  exact .of_fault h.fault? h.text_eq.symm

end Table

/-! ## Scripts -/

/-- The scripts are the same but for the spelling of columns. -/
structure Script.Respells (s other : Script) : Prop where
  tables : List.Forall₂ Table.Respells s.tables other.tables
  indexes : List.Forall₂ Index.Respells s.indexes other.indexes
  rest : other = { s with tables := other.tables, indexes := other.indexes }

theorem Script.Respells.toSql {s other : Script} (h : s.Respells other) :
    Agree Eq s.toSql other.toSql := by
  have hindexes : (other.indexes.flatMap fun i => line i.toSql) =
      s.indexes.flatMap fun i => line i.toSql := by
    rw [List.flatMap_def, List.flatMap_def,
      map_eq_of_forall₂ h.indexes fun hi => congrArg line hi.toSql_eq]
  have hlayout : other.layout = s.layout := by
    funext tables
    rw [layout, layout, hindexes, h.rest]
  rw [Script.toSql, Script.toSql, hlayout]
  exact (Agree.mapM h.tables fun _ _ ht => ht.toSql).map _

/-! ## All of them -/

/-- A column can be given by its declared name or by its identifier. A model maps both or none, and
maps them just if its table has a column with the identifier. Keys, column clauses, queries,
indexes, tables and scripts that are given other spellings of their columns have the same texts, or
the same errors but for the spelling. -/
theorem spellings_agree :
    (∀ (m : Model) (references : List Model) (t : Table) (name : Text), name.IsAscii →
      Table.ofModel m references = .ok t →
      (m.mapsColumn name = true ↔ m.mapsColumn (identifier name) = true) ∧
        (m.mapsColumn name = true ↔ ∃ c ∈ t.columns, c.name = identifier name)) ∧
    (∀ (tableLevel : Bool) (target : Model) (columns others : List Text)
      (calls calls' : List ForeignKey.Call), List.Forall₂ Respells columns others →
      List.Forall₂ ForeignKey.Call.Respells calls calls' →
      Agree ForeignKey.Respells
        (calls.foldlM ForeignKey.apply (.plain tableLevel columns target))
        (calls'.foldlM ForeignKey.apply (.plain tableLevel others target))) ∧
    (∀ fk other : ForeignKey, fk.Respells other → Agree Eq fk.toSql other.toSql) ∧
    (∀ (c : Column) (name : Option Text) (clause other : ColumnClause), clause.Respells other →
      Agree Eq (c.add name clause) (c.add name other)) ∧
    (∀ s other : Select, s.Respells other → s.toSql = other.toSql) ∧
    (∀ (i other : Index) (calls calls' : List Index.Call), i.Respells other →
      List.Forall₂ Index.Call.Respells calls calls' →
      (calls.foldl Index.apply i).toSql = (calls'.foldl Index.apply other).toSql) ∧
    (∀ (m : Model) (references : List Model) (t : Table) (calls calls' : List Table.Call),
      Table.ofModel m references = .ok t → List.Forall₂ Table.Call.Respells calls calls' →
      Agree Eq (calls.foldl Table.apply t).toSql (calls'.foldl Table.apply t).toSql) ∧
    ∀ s other : Script, s.Respells other → Agree Eq s.toSql other.toSql := by
  refine ⟨fun m references t name hascii h => ⟨?_, ?_⟩, fun tableLevel target columns others calls
    calls' hcolumns hcalls => ?_, fun fk other h => h.toSql, fun c name clause other h => ?_,
    fun s other h => h.toSql_eq.symm, fun i other calls calls' h hcalls => ?_,
    fun m references t calls calls' h hcalls => ?_, fun s other h => h.toSql⟩
  · have hrespells : Respells name (identifier name) := .inr ⟨hascii, rfl⟩
    rw [hrespells.mapsColumn_eq]
  · exact (Table.hasColumnsOf_of_ofModel h).mapsColumn_iff name
  · exact .foldlM hcalls (fun _ _ _ _ hfk hcall => hfk.apply hcall)
      (ForeignKey.respells_plain hcolumns tableLevel target)
  · exact Column.add_respells h c name
  · have hbuilt : (calls.foldl Index.apply i).Respells (calls'.foldl Index.apply other) :=
      List.rel_foldl (fun _ _ hi _ _ hcall => hi.apply hcall) h hcalls
    exact hbuilt.toSql_eq.symm
  · have hbuilt : (calls.foldl Table.apply t).Respells (calls'.foldl Table.apply t) :=
      List.rel_foldl (fun _ _ ht _ _ hcall => ht.apply hcall) (Table.respells_ofModel h) hcalls
    exact hbuilt.toSql

/-- A model with two columns. -/
def lineItem : Model :=
  ⟨"LineItem", [⟨"OrderID", "i64", "NOT NULL"⟩, ⟨"LineNo", "i32", "NOT NULL"⟩]⟩

/-- A key on both columns and a reference from one to the other. -/
def lineItemCalls (order line target : Text) : List Table.Call :=
  [.constraint none (.primaryKey [.ofName order, .ofName line] none),
    .constraint none (.foreignKey { ForeignKey.onTable [line] lineItem with
      targetColumns := [target] })]

/-- All rows of two tables that agree in a column. -/
def joinedBy (column : Text) : Select :=
  .build [.from ⟨.table "LineItem", none⟩,
    .join ((Join.of .inner (.table "Order")).withConstraint (.using [column]))]

theorem spellings_agree_lineItem :
    ∃ t, Table.ofModel lineItem [] = .ok t ∧
      (lineItem.mapsColumn "OrderID" = true ↔ ∃ c ∈ t.columns, c.name = identifier "OrderID") ∧
      Agree Eq ((lineItemCalls "OrderID" "LineNo" "OrderID").foldl Table.apply t).toSql
        ((lineItemCalls "order_id" "LineNo" "order_id").foldl Table.apply t).toSql ∧
      (joinedBy "OrderID").toSql = (joinedBy "order_id").toSql := by
  have hsame : Respells "LineNo" "LineNo" := .inl rfl
  have hother : Respells "OrderID" "order_id" := .inr (by decide +kernel)
  have hsome : (Table.ofModel lineItem []).toOption.isSome = true := by decide +kernel
  obtain ⟨hmaps, -, -, -, hselect, -, htable, -⟩ := spellings_agree
  cases h : Table.ofModel lineItem [] with
  | error e => rw [h] at hsome; cases hsome
  | ok t =>
    refine ⟨t, rfl, (hmaps lineItem [] t _ (by decide) h).2, htable lineItem [] t _ _ h ?_,
      hselect _ _ ?_⟩
    · exact .cons (.constraint (.primaryKey (.cons (.column hother) (.cons (.column hsame) .nil))))
        (.cons (.constraint (.foreignKey ⟨.cons hsame .nil, .cons hother .nil, rfl⟩)) .nil)
    · exact .mk .none .nil (.some (.table _))
        (.cons (.table _) (.using (.cons hother .nil)) .nil) .none .nil .none .nil

end AnnotatedSchema
