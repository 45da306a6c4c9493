import AnnotatedSchema.Proofs.ReferenceTargets

/-!
# Whose error it is

The table of a model is built field by field, and its error is that of the first field that has one.
Every error of a field is about its own annotation and names its column, or a column that the target
of a reference does not map.
-/

namespace AnnotatedSchema

open Piece Annotation

/-- What can be wrong with a field whose references are to the candidates. -/
inductive Field.Fault (f : Field) (candidates : List Model) : SchemaError → Prop
  | malformed (fault : ScanFault) (h : Piece.scan f.tag = .error fault) :
      f.Fault candidates (.malformed f.column fault)
  | missing (ps : List Piece) (head : ClauseHead) (after : List Piece)
      (hscan : Piece.scan f.tag = .ok ps) (hmem : ⟨.clause head, after⟩ ∈ occurrences ps)
      (h : ¬head.HasArgument after) :
      f.Fault candidates
        (.missingExpression f.column (Keyword.clause head).text (head.expected after))
  | incompatible (kind existing : ClauseKind) (h : existing ∈ kind.excludes)
      (hne : kind ≠ existing) :
      f.Fault candidates (.incompatible f.column kind.label existing.label)
  | duplicate (kind : ClauseKind) (h : kind ∈ kind.excludes) :
      f.Fault candidates (.duplicateConstraint f.column kind.label)
  | autoincrement (h : Storage.infer f.type ≠ .integer) :
      f.Fault candidates (.autoincrementRequiresIntegerKey f.column (Storage.infer f.type))
  | unresolved (target : Text) (h : ∀ m ∈ candidates, m.name ≠ target) :
      f.Fault candidates (.unresolvedReference f.column target)
  | reference (reason : Text) : f.Fault candidates (.invalidReference f.column reason)
  | action (action value : Text) : f.Fault candidates (.invalidAction f.column action value)
  | count (found : Nat) (h : 1 < found) :
      f.Fault candidates (.columnCountMismatch f.column 1 found)
  | unmapped (target : Model) (htarget : target ∈ candidates) (name : Text)
      (h : ¬target.Maps name) : f.Fault candidates (.unknownTargetColumn target.name name)

namespace Field

variable {f : Field} {candidates : List Model} {e : SchemaError}

/-! ## The errors of an annotation -/

theorem fault_of_reference (h : ForeignKey.Fault f.column candidates e) :
    f.Fault candidates e := by
  cases h with
  | clause reason => exact .reference reason
  | target name hname => exact .unresolved name hname
  | action action value => exact .action action value
  | count found hfound => exact .count found hfound

end Field

-- A reference that was read has one of the candidates as its target.
theorem ForeignKey.target_mem_of_ofClause {column clause : Text} {candidates : List Model}
    {fk : ForeignKey} (h : ofClause column clause candidates = .ok fk) :
    fk.target ∈ candidates := by
  unfold ofClause at h
  split at h
  · cases h
  · obtain ⟨_, word, rest, model, -, -, hfirst, htail⟩ := target_of_ofPieces h
    obtain ⟨hsame, -⟩ := targetColumns_of_readTail htail rfl
    rw [hsame.target]
    exact hfirst.mem

namespace Field

variable {f : Field} {candidates : List Model} {e : SchemaError}

theorem fault_of_refusal {c : Constraint} {clause : ColumnClause}
    (hclause : ColumnClause.ofConstraint f.column candidates c = .ok clause)
    (h : Column.Refusal f.column (Storage.infer f.type) clause e) : f.Fault candidates e := by
  cases h with
  | duplicate _ hkind => exact .duplicate _ hkind
  | incompatible _ existing hkind hne => exact .incompatible _ existing hkind hne
  | autoincrement key hstorage => exact .autoincrement hstorage
  | target fk name hname =>
    apply Fault.unmapped
    · cases c with
      | references text =>
        obtain ⟨fk', hfk, heq⟩ := map_eq_ok_iff.mp hclause
        rw [← ColumnClause.references.inj heq]
        exact ForeignKey.target_mem_of_ofClause hfk
      | primaryKey | notNull | unique | check | default | collate | generated => cases hclause
    · rwa [← Model.mapsColumn_eq_false_iff]

theorem fault_of_ofField (h : Column.ofField f candidates = .error e) : f.Fault candidates e := by
  unfold Column.ofField at h
  split at h
  · next c fault hannotate =>
    rw [Except.error.inj h] at hannotate
    obtain hread | hfault | ⟨constraint, clause, hclause, hrefusal⟩ :=
      Column.fault_of_annotate hannotate
    · obtain ⟨fault', hscan, rfl⟩ | ⟨ps, head, after, hscan, hmem, hnot, rfl⟩ :=
        fault_of_constraints hread
      · exact .malformed fault' hscan
      · exact .missing ps head after hscan hmem hnot
    · exact fault_of_reference hfault
    · exact fault_of_refusal hclause hrefusal
  · cases h

theorem fault_of_ofField? (h : Column.ofField? f candidates = .error e) :
    f.Fault candidates e := by
  unfold Column.ofField? at h
  split at h
  · exact fault_of_ofField (map_eq_error_iff.mp h)
  · cases h

end Field

/-! ## Field by field -/

theorem mapM_filter {ε α β : Type} (p : α → Bool) (f : α → Except ε β) (as : List α) :
    (as.filter p).mapM f =
      (as.mapM fun a => if p a then (f a).map some else .ok none).map (·.filterMap id) := by
  induction as with
  | nil => rfl
  | cons a as ih =>
    rw [List.mapM_cons]
    by_cases ha : p a = true
    · rw [List.filter_cons_of_pos ha, List.mapM_cons, ih, if_pos ha]
      cases f a with
      | error e => rfl
      | ok b => cases as.mapM fun a => if p a then (f a).map some else .ok none <;> rfl
    · rw [List.filter_cons_of_neg ha, ih, if_neg ha]
      cases as.mapM fun a => if p a then (f a).map some else .ok none <;> rfl

namespace Table

-- All fields are looked at, and those that are not mapped give no column.
theorem modelColumns_eq (m : Model) (candidates : List Model) :
    modelColumns m candidates =
      (m.fields.mapM fun f =>
        (Column.ofField? f candidates).mapError (SchemaError.inField m.name f.name)).map
          (·.filterMap id) := by
  have hfield (f : Field) :
      (Column.ofField? f candidates).mapError (SchemaError.inField m.name f.name) =
        if f.isMapped then
          ((Column.ofField f candidates).mapError (SchemaError.inField m.name f.name)).map some
        else .ok none := by
    unfold Column.ofField?
    by_cases hmapped : f.isMapped = true
    · rw [if_pos hmapped, if_pos hmapped]
      cases Column.ofField f candidates <;> rfl
    · rw [if_neg hmapped, if_neg hmapped]
      rfl
  unfold modelColumns Model.mappedFields
  rw [mapM_filter]
  simp only [hfield]

theorem ofModel_eq_error_iff {m : Model} {references : List Model} {e : SchemaError} :
    ofModel m references = .error e ↔
      ∃ before f after cause, m.fields = before ++ f :: after ∧
        (∀ g ∈ before, ∃ c, Column.ofField? g (references ++ [m]) = .ok c) ∧
        Column.ofField? f (references ++ [m]) = .error cause ∧
        e = .inField m.name f.name cause := by
  unfold ofModel
  rw [map_eq_error_iff, modelColumns_eq, map_eq_error_iff, mapM_eq_error_iff]
  simp only [mapError_eq_ok_iff, mapError_eq_error_iff, exists_and_left]

-- Some field has an error if and only if there is a first one that has.
theorem exists_ofModel_eq_error_iff {m : Model} {references : List Model} :
    (∃ e, ofModel m references = .error e) ↔
      ∃ f ∈ m.fields, ∃ cause, Column.ofField? f (references ++ [m]) = .error cause := by
  constructor
  · rintro ⟨e, h⟩
    obtain ⟨before, f, after, cause, hfields, -, hcause, -⟩ := ofModel_eq_error_iff.mp h
    exact ⟨f, by simp [hfields], cause, hcause⟩
  · rintro ⟨f, hf, cause, hcause⟩
    cases htable : ofModel m references with
    | error e => exact ⟨e, rfl⟩
    | ok t =>
      obtain ⟨columns, hcolumns, -⟩ := map_eq_ok_iff.mp htable
      rw [modelColumns_eq] at hcolumns
      obtain ⟨results, hresults, -⟩ := map_eq_ok_iff.mp hcolumns
      obtain ⟨c, -, hc⟩ := exists_of_forall₂ (mapM_eq_ok_iff.mp hresults) hf
      rw [hcause] at hc
      cases hc

theorem columns_of_ofModel {m : Model} {references : List Model} {t : Table}
    (h : ofModel m references = .ok t) :
    List.Forall₂ (fun f c => Column.ofField? f (references ++ [m]) = .ok (some c) ∧
      c.name = f.column) m.mappedFields t.columns := by
  have hmapped : ∀ f ∈ m.mappedFields, f.isMapped = true := by
    intro f hf
    exact (List.mem_filter.mp hf).2
  have hcolumns := (List.forall₂_and_left _ _).mpr ⟨hmapped, hasColumnsOf_of_ofModel h⟩
  apply hcolumns.imp
  rintro f c ⟨hf, hc, hname⟩
  apply And.intro _ hname
  unfold Column.ofField?
  rw [if_pos hf, hc]
  rfl

/-- A table is made unless a field has an error, and then the error is that of the first such field
with the names of the model and the field. Every error of a field is one of its own annotation. -/
theorem ofModel_first_error (m : Model) (references : List Model) :
    (∀ e, ofModel m references = .error e ↔
      ∃ before f after cause, m.fields = before ++ f :: after ∧
        (∀ g ∈ before, ∃ c, Column.ofField? g (references ++ [m]) = .ok c) ∧
        Column.ofField? f (references ++ [m]) = .error cause ∧
        e = .inField m.name f.name cause) ∧
    ((∃ e, ofModel m references = .error e) ↔
      ∃ f ∈ m.fields, ∃ cause, Column.ofField? f (references ++ [m]) = .error cause) ∧
    (∀ (f : Field) (candidates : List Model) (cause : SchemaError),
      Column.ofField? f candidates = .error cause → f.Fault candidates cause) ∧
    ∀ t, ofModel m references = .ok t →
      List.Forall₂ (fun f c => Column.ofField? f (references ++ [m]) = .ok (some c) ∧
        c.name = f.column) m.mappedFields t.columns :=
  ⟨fun _ => ofModel_eq_error_iff, exists_ofModel_eq_error_iff,
    fun _ _ _ => Field.fault_of_ofField?, fun _ => columns_of_ofModel⟩

/-- A model whose second and last fields have an error each. -/
def member : Model :=
  ⟨"Member", [⟨"Note", "String", "-"⟩, ⟨"ClubID", "i64", "REFERENCES Club"⟩,
    ⟨"JoinedAt", "String", "NOT NULL"⟩, ⟨"Age", "i64", "CHECK (Age > 0"⟩]⟩

-- With the club at hand only the last field has an error.
theorem ofModel_first_error_member :
    ofModel member [] =
      .error (.inField "Member" "ClubID" (.unresolvedReference "club_id" "Club")) ∧
    ofModel member [⟨"Club", []⟩] =
      .error (.inField "Member" "Age" (.malformed "age" ⟨.unbalancedParentheses, 6⟩)) ∧
    (∃ f ∈ member.fields, ∃ cause, Column.ofField? f [] = .error cause ∧ f.Fault [] cause) ∧
    ∃ t, ofModel author [] = .ok t ∧
      List.Forall₂ (fun f c => Column.ofField? f ([] ++ [author]) = .ok (some c) ∧
        c.name = f.column) author.mappedFields t.columns := by
  refine ⟨?_, ?_, ?_, ?_⟩
  · apply ((ofModel_first_error member []).1 _).mpr
    refine ⟨member.fields.take 1, _, _, _, rfl, ?_, by decide +kernel, rfl⟩
    have hbefore : ∀ g ∈ member.fields.take 1,
        (Column.ofField? g ([] ++ [member])).toOption.isSome = true := by decide +kernel
    intro g hg
    exact exists_eq_ok (hbefore g hg)
  · apply ((ofModel_first_error member _).1 _).mpr
    refine ⟨member.fields.take 3, _, _, _, rfl, ?_, by decide +kernel, rfl⟩
    have hbefore : ∀ g ∈ member.fields.take 3,
        (Column.ofField? g ([⟨"Club", []⟩] ++ [member])).toOption.isSome = true := by
      decide +kernel
    intro g hg
    exact exists_eq_ok (hbefore g hg)
  · have hcause : Column.ofField? ⟨"Age", "i64", "CHECK (Age > 0"⟩ [] =
        .error (.malformed "age" ⟨.unbalancedParentheses, 6⟩) := by decide +kernel
    exact ⟨_, by decide +kernel, _, hcause, (ofModel_first_error member []).2.2.1 _ _ _ hcause⟩
  · obtain ⟨t, ht⟩ := exists_eq_ok (x := ofModel author []) (by decide +kernel)
    exact ⟨t, ht, (ofModel_first_error author []).2.2.2 t ht⟩

end Table

end AnnotatedSchema
