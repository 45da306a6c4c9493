import AnnotatedSchema.Proofs.Acceptance
import AnnotatedSchema.Proofs.Capture
import AnnotatedSchema.Proofs.ClauseFaults
import Mathlib.Data.List.Forall2

/-!
# Reading a captured clause again

A `REFERENCES` clause is kept as a text and cut into pieces a second time when its target is known.
The pieces are the same as before; so the second reading has no fault to report, and every fault is
one of the annotation itself.
-/

namespace AnnotatedSchema

open Piece Annotation

/-! ## Where a clause was captured -/

/-- The keywords that start a clause. -/
def clauseOccurrences (ps : List Piece) : List Occurrence :=
  (occurrences ps).filter (·.keyword ≠ .constraint)

/-- A `REFERENCES` keyword with the pieces of its clause and those after it. -/
structure Captures (o : Occurrence) (body rest : List Piece) : Prop where
  keyword : o.keyword = .clause .references
  after : o.after = body ++ rest
  goesOn : ∀ i < body.length, ¬EndsReference (body.take i) (o.after.drop i)
  ends : rest = [] ∨ EndsReference body rest

/-- A reference is the text of the pieces after its keyword, and is cut into just these again. -/
def Recaptured (ps : List Piece) (o : Occurrence) (c : AnnotatedConstraint) : Prop :=
  ∀ clause, c.constraint = .references clause →
    (∃ u p, ps = u ++ p :: o.after ∧ p.isWord "REFERENCES" = true) ∧
    ∃ body rest, Captures o body rest ∧ ∃ qs, Piece.scan clause = .ok qs ∧
      qs.map (fun q => (q.kind, q.text)) =
        (Kind.word, ("REFERENCES" : Text)) :: body.map fun q => (q.kind, q.text)

theorem split_of_mem_occurrencesAfter {last : Option Keyword} {before ps : List Piece}
    {o : Occurrence} (h : o ∈ occurrencesAfter last before ps) :
    ∃ u p rest, ps = u ++ p :: rest ∧ Keyword.leading? (p :: rest) = some o.keyword ∧
      o.after = rest.drop (o.keyword.width - 1) := by
  induction ps generalizing last before with
  | nil => cases h
  | cons p ps ih =>
    have hlater : (∃ last' before', o ∈ occurrencesAfter last' before' ps) →
        ∃ u q rest, p :: ps = u ++ q :: rest ∧ Keyword.leading? (q :: rest) = some o.keyword ∧
          o.after = rest.drop (o.keyword.width - 1) := by
      rintro ⟨last', before', hmem⟩
      obtain ⟨u, q, rest, rfl, hkeyword, hafter⟩ := ih hmem
      exact ⟨p :: u, q, rest, rfl, hkeyword, hafter⟩
    rw [occurrencesAfter] at h
    split at h
    · next k hk =>
      split at h
      · exact hlater ⟨_, _, h⟩
      · rcases List.mem_cons.mp h with rfl | h
        · exact ⟨[], p, ps, rfl, hk, rfl⟩
        · exact hlater ⟨_, _, h⟩
    · exact hlater ⟨_, _, h⟩

namespace Annotation

-- Each constraint is read from the pieces after its keyword.
theorem forall₂_of_readEach {column : Text} {name : Option Text} {os : List Occurrence}
    {cs : List AnnotatedConstraint} (h : readEach column name os = .ok cs) :
    List.Forall₂ (fun o c => o ∈ os ∧ ∃ head left, o.keyword = .clause head ∧
      readClause column head o.after = .ok (c.constraint, left))
      (os.filter (·.keyword ≠ .constraint)) cs := by
  induction os generalizing name cs with
  | nil =>
    obtain rfl := Except.ok.inj h
    exact .nil
  | cons o os ih =>
    obtain ⟨keyword, after⟩ := o
    cases keyword with
    | constraint => exact (ih h).imp fun o c hoc => ⟨List.mem_cons_of_mem _ hoc.1, hoc.2⟩
    | clause head =>
      rw [readEach] at h
      cases hread : readClause column head after with
      | error e => rw [hread] at h; cases h
      | ok read =>
        rw [hread] at h
        obtain ⟨tail, htail, rfl⟩ := map_eq_ok_iff.mp h
        exact .cons ⟨List.mem_cons_self, head, read.2, rfl, hread⟩
          ((ih htail).imp fun o c hoc => ⟨List.mem_cons_of_mem _ hoc.1, hoc.2⟩)

theorem captures_of_readClause {column clause : Text} {head : ClauseHead} {after left : List Piece}
    (h : readClause column head after = .ok (.references clause, left)) :
    ∃ body, Captures ⟨.clause head, after⟩ body left ∧ clause = referenceText body := by
  obtain rfl : ClauseHead.references = head := head_of_readClause h
  obtain ⟨hclause, rfl⟩ := Prod.mk.inj (Except.ok.inj h)
  have hbody : ∀ i < (readReference false after).1.length,
      ¬EndsReference ((readReference false after).1.take i) (after.drop i) := fun i hi => by
    have hnot := not_endsReference_readReference [] after i hi
    rwa [List.nil_append] at hnot
  exact ⟨(readReference false after).1,
    { keyword := rfl
      after := (readReference_append_eq false after).symm
      goesOn := hbody
      ends := endsReference_readReference [] after },
    (Constraint.references.inj hclause).symm⟩

-- The text of a clause is cut into the pieces that it was put together from.
theorem scan_referenceText {body : List Piece} (h : ∀ p ∈ body, p.Lone) :
    ∃ qs, Piece.scan (referenceText body) = .ok qs ∧
      qs.map (fun q => (q.kind, q.text)) =
        (Kind.word, ("REFERENCES" : Text)) :: body.map fun q => (q.kind, q.text) := by
  have hkeyword : Lone ⟨.word, "REFERENCES", 0⟩ := by decide +kernel
  have htext : ' ' :: referenceText body = spaced (⟨.word, "REFERENCES", 0⟩ :: body) := rfl
  obtain ⟨qs, hscan, hmove⟩ := scan_spaced (List.forall_mem_cons.mpr ⟨hkeyword, h⟩) htext
  refine ⟨qs, hscan, ?_⟩
  have hparts := congrArg (List.map fun q : Piece => (q.kind, q.text)) hmove
  rw [List.map_map, List.map_map] at hparts
  exact hparts

theorem recaptured_of_constraints {column tag : Text} {cs : List AnnotatedConstraint}
    (h : constraints column tag = .ok cs) :
    ∃ ps, Piece.scan tag = .ok ps ∧ List.Forall₂ (Recaptured ps) (clauseOccurrences ps) cs := by
  cases hscan : Piece.scan tag with
  | error fault => rw [constraints, hscan] at h; cases h
  | ok ps =>
    rw [constraints, hscan] at h
    have hread : readEach column none (occurrences ps) = .ok cs :=
      (readConstraints_eq_readEach column none ps).symm.trans h
    refine ⟨ps, rfl, (forall₂_of_readEach hread).imp ?_⟩
    rintro ⟨keyword, after⟩ c ⟨hmem, head, left, rfl, hclause⟩ clause hconstraint
    rw [hconstraint] at hclause
    obtain ⟨body, hbody, rfl⟩ := captures_of_readClause hclause
    obtain rfl : head = .references := (Keyword.clause.inj hbody.keyword)
    obtain ⟨u, p, rest, hps, hkeyword, hafter⟩ := split_of_mem_occurrencesAfter hmem
    obtain rfl : after = rest := hafter
    -- The pieces of the clause are pieces of the annotation, so each of them can stand alone.
    have hlone : ∀ q ∈ body, q.Lone := fun q hq => by
      have hq : q ∈ ps := by
        rw [hps, show after = body ++ left from hbody.after]
        simp [hq]
      exact lone_of_mem (t := tag) (by rwa [scan_eq_ok_iff.mp hscan])
    obtain ⟨qs, hqs, hparts⟩ := scan_referenceText hlone
    have hp : p.isWord "REFERENCES" = true :=
      Keyword.isWord_of_leading? (k := .clause .references) hkeyword (by decide)
    exact ⟨⟨u, p, hps, hp⟩, body, left, hbody, qs, hqs, hparts⟩

end Annotation

/-! ## Faults -/

namespace Column

/-- Whether every reference among the constraints can be cut into pieces. -/
def Rescans (cs : List AnnotatedConstraint) : Prop :=
  ∀ c ∈ cs, ∀ clause, c.constraint = .references clause → ∃ ps, Piece.scan clause = .ok ps

-- A reference is the one constraint that can fail to be read.
theorem fault_of_ofConstraint {column : Text} {candidates : List Model} {c : Constraint}
    (hscan : ∀ clause, c = .references clause → ∃ ps, Piece.scan clause = .ok ps) {e : SchemaError}
    (h : ColumnClause.ofConstraint column candidates c = .error e) :
    ForeignKey.Fault column candidates e := by
  cases c with
  | references clause =>
    obtain ⟨ps, hps⟩ := hscan clause rfl
    exact ForeignKey.fault_of_ofClause hps (map_eq_error_iff.mp h)
  | primaryKey | notNull | unique | check | default | collate | generated => cases h

-- What can be cut into pieces is read or has another fault.
theorem fault_or_refusal_of_forM_apply {candidates : List Model} {cs : List AnnotatedConstraint}
    (hscan : Rescans cs) {c c' : Column} {e : SchemaError}
    (h : Change.on (cs.forM (apply c.name candidates)) c = (.error e, c')) :
    ForeignKey.Fault c.name candidates e ∨
      ∃ constraint clause, ColumnClause.ofConstraint c.name candidates constraint = .ok clause ∧
        Refusal c.name c.storage clause e := by
  obtain ⟨a, ha, hread | ⟨clause, hclause, hrefusal⟩⟩ := rejects_of_forM_apply rfl h
  · exact .inl (fault_of_ofConstraint (hscan a ha) hread)
  · exact .inr ⟨a.constraint, clause, hclause, hrefusal⟩

end Column

namespace Annotation

-- Every captured reference can be cut into pieces again.
theorem rescans_of_constraints {column tag : Text} {cs : List AnnotatedConstraint}
    (h : constraints column tag = .ok cs) : Column.Rescans cs := by
  obtain ⟨ps, -, hall⟩ := recaptured_of_constraints h
  have hscans : List.Forall₂ (fun c _ => (∀ clause, c.constraint = .references clause →
      ∃ ps, Piece.scan clause = .ok ps) ∧ True) cs (clauseOccurrences ps) := by
    refine .flip (hall.imp fun o c hc => ⟨fun clause hclause => ?_, trivial⟩)
    obtain ⟨-, body, rest, -, qs, hqs, -⟩ := hc clause hclause
    exact ⟨qs, hqs⟩
  exact ((List.forall₂_and_left cs (clauseOccurrences ps)).mp hscans).1

-- An annotation cannot be read if it cannot be cut into pieces or a keyword lacks its argument.
theorem fault_of_constraints {column tag : Text} {e : SchemaError}
    (h : constraints column tag = .error e) :
    (∃ fault, Piece.scan tag = .error fault ∧ e = .malformed column fault) ∨
      ∃ ps head after, Piece.scan tag = .ok ps ∧ ⟨.clause head, after⟩ ∈ occurrences ps ∧
        ¬head.HasArgument after ∧ e = head.missing column after := by
  unfold constraints at h
  cases hscan : Piece.scan tag with
  | error fault =>
    rw [hscan] at h
    exact .inl ⟨fault, rfl, (Except.error.inj h).symm⟩
  | ok ps =>
    rw [hscan] at h
    have hread := (readConstraints_eq_readEach column none ps).symm.trans h
    obtain ⟨cs, hcs, -⟩ | ⟨u, head, after, v, hos, -, hnot, hmissing⟩ :=
      readEach_cases column none (occurrences ps)
    · rw [hcs] at hread
      cases hread
    · rw [hmissing] at hread
      have hmem : ⟨.clause head, after⟩ ∈ occurrences ps := by simp [hos]
      exact .inr ⟨ps, head, after, rfl, hmem, hnot, (Except.error.inj hread).symm⟩

end Annotation

namespace Column

-- An annotation fails where it is read, or at a constraint that the column cannot take.
theorem fault_of_annotate {c c' : Column} {candidates : List Model} {tag : Text} {e : SchemaError}
    (h : c.annotate candidates tag = (c', some e)) :
    constraints c.name tag = .error e ∨ ForeignKey.Fault c.name candidates e ∨
      ∃ constraint clause, ColumnClause.ofConstraint c.name candidates constraint = .ok clause ∧
        Refusal c.name c.storage clause e := by
  unfold annotate at h
  split at h
  · next e' hread =>
    rw [Option.some.inj (Prod.mk.inj h).2] at hread
    exact .inl hread
  · next cs hread =>
    split at h
    -- The constraints were read, so each reference among them can be cut into pieces again.
    · next e' c'' happly =>
      rw [Option.some.inj (Prod.mk.inj h).2] at happly
      exact .inr (fault_or_refusal_of_forM_apply (rescans_of_constraints hread) happly)
    · cases h

-- Neither the pieces of a reference nor a column has a fault of this kind.
theorem scan_of_annotate_malformed {c c' : Column} {candidates : List Model} {tag column : Text}
    {fault : ScanFault} (h : c.annotate candidates tag = (c', some (.malformed column fault))) :
    Piece.scan tag = .error fault := by
  obtain hread | hfault | ⟨_, clause, -, hrefusal⟩ := fault_of_annotate h
  · obtain ⟨fault', hscan, heq⟩ | ⟨_, _, _, -, -, -, heq⟩ := fault_of_constraints hread
    · obtain ⟨-, rfl⟩ := SchemaError.malformed.inj heq
      exact hscan
    · cases heq
  · cases hfault
  · cases hrefusal

/-- A captured reference is cut into the pieces it was captured from, so that every fault a column
reports is one of its annotation. -/
theorem references_scanned_again :
    (∀ (column tag : Text) (cs : List AnnotatedConstraint), constraints column tag = .ok cs →
      ∃ ps, Piece.scan tag = .ok ps ∧ List.Forall₂ (Recaptured ps) (clauseOccurrences ps) cs) ∧
    ∀ (f : Field) (candidates : List Model) (column : Text) (fault : ScanFault),
      ofField? f candidates = .error (.malformed column fault) →
        Piece.scan f.tag = .error fault := by
  refine ⟨fun column tag cs => recaptured_of_constraints, fun f candidates column fault h => ?_⟩
  unfold ofField? at h
  split at h
  · have hfield : ofField f candidates = .error (.malformed column fault) := map_eq_error_iff.mp h
    unfold ofField at hfield
    split at hfield
    · next c e hannotate =>
      rw [Except.error.inj hfield] at hannotate
      exact scan_of_annotate_malformed hannotate
    · cases hfield
  · cases h

-- A group that is glued to a word is captured apart from it; a group that is not closed is a fault
-- of the annotation.
theorem references_scanned_again_glued :
    (∃ ps, Piece.scan "REFERENCES User(id) ON DELETE SET DEFAULT NOT NULL" = .ok ps ∧
      List.Forall₂ (Recaptured ps) (clauseOccurrences ps)
        [⟨none, .references "REFERENCES User (id) ON DELETE SET DEFAULT"⟩,
          ⟨none, .notNull none⟩]) ∧
    Piece.scan "CHECK (a" = .error ⟨.unbalancedParentheses, 6⟩ := by
  have hread : constraints "user_id" "REFERENCES User(id) ON DELETE SET DEFAULT NOT NULL" =
      .ok [⟨none, .references "REFERENCES User (id) ON DELETE SET DEFAULT"⟩,
        ⟨none, .notNull none⟩] := by decide +kernel
  have hfield : ofField? ⟨"A", "i64", "CHECK (a"⟩ [] =
      .error (.malformed "a" ⟨.unbalancedParentheses, 6⟩) := by decide +kernel
  exact ⟨references_scanned_again.1 _ _ _ hread, references_scanned_again.2 _ _ _ _ hfield⟩

end Column

end AnnotatedSchema
