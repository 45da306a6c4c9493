import AnnotatedSchema.Proofs.ColumnOrder
import AnnotatedSchema.Table
import Mathlib.Data.List.Forall2

/-!
# The columns of a model

A table has a column for each mapped field of its model, named with the identifier of the field. A
name stands for a column if a mapped field has the name or its identifier; so a name that does is
written as the name of one of the columns.
-/

namespace AnnotatedSchema

/-- A field with a column has the name, or the same identifier. -/
def Model.Maps (m : Model) (name : Text) : Prop :=
  ∃ f ∈ m.fields, f.isMapped = true ∧ (f.name = name ∨ f.column = identifier name)

theorem Model.mapsColumn_iff (m : Model) (name : Text) :
    m.mapsColumn name = true ↔ m.Maps name := by
  simp only [mapsColumn, mappedFields, Field.matchesName, List.any_eq_true, List.mem_filter,
    Bool.or_eq_true, beq_iff_eq, and_assoc, Maps]

theorem Model.mapsColumn_eq_false_iff (m : Model) (name : Text) :
    m.mapsColumn name = false ↔ ¬m.Maps name := by
  rw [← mapsColumn_iff, Bool.not_eq_true]

theorem Model.find?_unmapped_eq_none_iff (m : Model) (names : List Text) :
    (names.find? fun name => !m.mapsColumn name) = none ↔ ∀ name ∈ names, m.Maps name := by
  simp only [List.find?_eq_none, Bool.not_eq_true', Bool.not_eq_false, mapsColumn_iff]

-- A name that is mapped is written as the column of a mapped field.
theorem Model.Maps.exists_column {m : Model} {name : Text} (h : m.Maps name) :
    ∃ f ∈ m.mappedFields, f.column = identifier name := by
  obtain ⟨f, hf, hmapped, hname⟩ := h
  refine ⟨f, List.mem_filter.mpr ⟨hf, hmapped⟩, ?_⟩
  rcases hname with rfl | hcolumn
  · rfl
  · exact hcolumn

namespace Column

theorem Takes.name_eq {c after : Column} {field : Text} {candidates : List Model}
    {cs : List AnnotatedConstraint} (h : c.Takes field candidates cs after) :
    after.name = c.name := by
  induction cs generalizing c with
  | nil => rw [takes_nil_iff.mp h]
  | cons a cs ih =>
    obtain ⟨next, hchange, hnext⟩ := takes_cons_iff.mp h
    obtain ⟨clause, -, -, rfl⟩ := extend_of_change_on_ok hchange
    rw [ih hnext]
    rfl

theorem ofField_eq_ok_iff {f : Field} {candidates : List Model} {c : Column} :
    ofField f candidates = .ok c ↔
      ∃ cs, Annotation.constraints f.column f.tag = .ok cs ∧
        (plain f.name (Storage.infer f.type)).Takes f.column candidates cs c := by
  have hname : (plain f.name (Storage.infer f.type)).name = f.column := rfl
  rw [ofField, annotate, hname]
  cases Annotation.constraints f.column f.tag with
  | error e => simp
  | ok cs =>
    simp only [Except.ok.injEq, exists_eq_left', Takes]
    obtain ⟨result, after⟩ :=
      Change.on (cs.forM (apply f.column candidates)) (plain f.name (Storage.infer f.type))
    cases result <;> simp

theorem name_of_ofField {f : Field} {candidates : List Model} {c : Column}
    (h : ofField f candidates = .ok c) : c.name = f.column := by
  obtain ⟨cs, -, htakes⟩ := ofField_eq_ok_iff.mp h
  exact htakes.name_eq

end Column

theorem forall₂_of_mapM {ε α β : Type} {f : α → Except ε β} {as : List α} {bs : List β}
    (h : as.mapM f = .ok bs) : List.Forall₂ (fun a b => f a = .ok b) as bs := by
  induction as generalizing bs with
  | nil =>
    obtain rfl := Except.ok.inj h
    exact .nil
  | cons a as ih =>
    rw [List.mapM_cons] at h
    cases hb : f a with
    | error e => rw [hb] at h; cases h
    | ok b =>
      rw [hb] at h
      cases hbs : as.mapM f with
      | error e => rw [hbs] at h; cases h
      | ok bs' =>
        rw [hbs] at h
        obtain rfl := Except.ok.inj h
        exact .cons hb (ih hbs)

theorem mapM_eq_ok_iff {ε α β : Type} {f : α → Except ε β} {as : List α} {bs : List β} :
    as.mapM f = .ok bs ↔ List.Forall₂ (fun a b => f a = .ok b) as bs := by
  refine ⟨forall₂_of_mapM, fun h => ?_⟩
  induction h with
  | nil => rfl
  | @cons a b as bs hb _ ih =>
    rw [List.mapM_cons, hb, ih]
    rfl

-- The error of a list is that of the first element that has one.
theorem mapM_eq_error_iff {ε α β : Type} {f : α → Except ε β} {as : List α} {e : ε} :
    as.mapM f = .error e ↔
      ∃ before a after, as = before ++ a :: after ∧ (∀ x ∈ before, ∃ b, f x = .ok b) ∧
        f a = .error e := by
  induction as with
  | nil =>
    refine iff_of_false nofun ?_
    rintro ⟨before, a, after, h, -⟩
    simp at h
  | cons a as ih =>
    rw [List.mapM_cons, bind_eq_error_iff]
    constructor
    · rintro (ha | ⟨b, hb, hrest⟩)
      · exact ⟨[], a, as, rfl, List.forall_mem_nil _, ha⟩
      · rcases bind_eq_error_iff.mp hrest with has | ⟨bs, -, hpure⟩
        · obtain ⟨before, x, after, rfl, hbefore, hx⟩ := ih.mp has
          exact ⟨a :: before, x, after, rfl, List.forall_mem_cons.mpr ⟨⟨b, hb⟩, hbefore⟩, hx⟩
        · cases hpure
    · rintro ⟨before, x, after, has, hbefore, hx⟩
      cases before with
      | nil =>
        obtain ⟨rfl, rfl⟩ := List.cons.inj has
        exact .inl hx
      | cons y before =>
        obtain ⟨rfl, rfl⟩ := List.cons.inj has
        obtain ⟨⟨b, hb⟩, hbefore⟩ := List.forall_mem_cons.mp hbefore
        exact .inr ⟨b, hb, bind_eq_error_iff.mpr
          (.inl (ih.mpr ⟨before, x, after, rfl, hbefore, hx⟩))⟩

theorem exists_of_forall₂ {α β : Type} {R : α → β → Prop} {as : List α} {bs : List β}
    (h : List.Forall₂ R as bs) {a : α} (ha : a ∈ as) : ∃ b ∈ bs, R a b := by
  induction h with
  | nil => cases ha
  | @cons a' b as bs hab _ ih =>
    rcases List.mem_cons.mp ha with rfl | ha
    · exact ⟨b, List.mem_cons_self, hab⟩
    · obtain ⟨b', hb', hR⟩ := ih ha
      exact ⟨b', List.mem_cons_of_mem _ hb', hR⟩

namespace Table

/-- The columns of the mapped fields of a model, in their order. -/
def HasColumnsOf (m : Model) (candidates : List Model) (columns : List Column) : Prop :=
  List.Forall₂ (fun f c => Column.ofField f candidates = .ok c ∧ c.name = f.column)
    m.mappedFields columns

theorem hasColumnsOf_of_ofModel {m : Model} {references : List Model} {t : Table}
    (h : ofModel m references = .ok t) :
    HasColumnsOf m (references ++ [m]) t.columns := by
  obtain ⟨columns, hcolumns, rfl⟩ := map_eq_ok_iff.mp h
  refine (forall₂_of_mapM hcolumns).imp fun f c hc => ?_
  have hfield := mapError_eq_ok_iff.mp hc
  exact ⟨hfield, Column.name_of_ofField hfield⟩

-- What stands for a column is written as the name of one.
theorem HasColumnsOf.identifier_mem {m : Model} {candidates : List Model} {columns : List Column}
    (h : HasColumnsOf m candidates columns) {name : Text} (hname : m.Maps name) :
    identifier name ∈ columns.map Column.name := by
  obtain ⟨f, hf, hcolumn⟩ := hname.exists_column
  obtain ⟨c, hc, -, hcname⟩ := exists_of_forall₂ h hf
  exact List.mem_map.mpr ⟨c, hc, hcname.trans hcolumn⟩

end Table

end AnnotatedSchema
