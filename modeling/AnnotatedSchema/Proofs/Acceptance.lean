import AnnotatedSchema.Proofs.Occurrences
import AnnotatedSchema.Proofs.Scanning

/-!
# Which annotations are accepted

An annotation is accepted if every keyword in it has the argument it must have. The constraints then
are those of the keywords, one for each and in their order; else the first keyword without its
argument is reported.
-/

namespace AnnotatedSchema

open Piece Annotation

/-- The head of the clause that the constraint is read from. -/
def Constraint.head : Constraint → ClauseHead
  | primaryKey _ => .primaryKey
  | notNull _ => .notNull
  | unique _ => .unique
  | check _ => .check
  | default _ => .default
  | collate _ => .collate
  | references _ => .references
  | generated g => if g.always then .generated else .as

/-- Whether the pieces start with a group that has more than blanks in it. -/
def StartsWithGroup (ps : List Piece) : Prop :=
  ∃ p rest, ps = p :: rest ∧ ∃ body ≠ [], p.groupBody? = some body

namespace ClauseHead

/-- Whether the pieces start with the argument that the clause must have. -/
def HasArgument (after : List Piece) : ClauseHead → Prop
  | check => StartsWithGroup after
  | as => StartsWithGroup after
  | generated => ∃ always as rest, after = always :: as :: rest ∧ always.isWord "ALWAYS" = true ∧
      as.isWord "AS" = true ∧ StartsWithGroup rest
  | default => ∃ p rest, after = p :: rest ∧ Keyword.leads (p :: rest) = false ∧
      p.groupBody? ≠ some []
  | collate => ∃ p rest, after = p :: rest ∧ Keyword.leads (p :: rest) = false ∧ p.kind = .word
  | _ => True

/-- What the clause is said to lack if it has not the argument. -/
def expected (after : List Piece) : ClauseHead → Text
  | default => "a value or parenthesized expression"
  | collate => "a collation name"
  | generated =>
    if (afterAlwaysAs? after).isSome then "a parenthesized expression"
    else "ALWAYS AS (expression)"
  | _ => "a parenthesized expression"

def missing (column : Text) (after : List Piece) (head : ClauseHead) : SchemaError :=
  .missingExpression column (Keyword.clause head).text (head.expected after)

end ClauseHead

def Occurrence.Complete (o : Occurrence) : Prop :=
  match o.keyword with
  | .constraint => True
  | .clause head => head.HasArgument o.after

/-- The name that is given after `CONSTRAINT`. -/
def nameIn? : List Piece → Option Text
  | [] => none
  | p :: rest => if p.kind = .word ∧ Keyword.leads (p :: rest) = false then some p.text else none

/-- The heads of the clauses, each with the last name that was given since the clause before. -/
def namedHeads (name : Option Text) : List Occurrence → List (Option Text × ClauseHead)
  | [] => []
  | ⟨.constraint, after⟩ :: os => namedHeads ((nameIn? after).or name) os
  | ⟨.clause head, _⟩ :: os => (name, head) :: namedHeads none os

namespace Annotation

/-! ## One clause -/

theorem readGroup?_of_startsWithGroup {ps : List Piece} (h : StartsWithGroup ps) :
    ∃ body rest, readGroup? ps = some (body, rest) := by
  obtain ⟨p, rest, rfl, body, hne, hbody⟩ := h
  obtain ⟨c, body, rfl⟩ := List.exists_cons_of_ne_nil hne
  exact ⟨c :: body, rest, by rw [readGroup?, hbody]⟩

theorem readGroup?_eq_none {ps : List Piece} (h : ¬StartsWithGroup ps) : readGroup? ps = none := by
  cases ps with
  | nil => rfl
  | cons p rest =>
    rw [readGroup?]
    split
    · next c body hbody => exact absurd ⟨p, rest, rfl, _, List.cons_ne_nil c body, hbody⟩ h
    · rfl

theorem readGenerated?_of_startsWithGroup {ps : List Piece} (h : StartsWithGroup ps)
    (always : Bool) : ∃ g left, readGenerated? always ps = some (g, left) ∧ g.always = always := by
  obtain ⟨body, rest, hread⟩ := readGroup?_of_startsWithGroup h
  exact ⟨_, _, by rw [readGenerated?, hread]; rfl, rfl⟩

theorem readClause_of_hasArgument (column : Text) {head : ClauseHead} {after : List Piece}
    (h : head.HasArgument after) :
    ∃ c left, readClause column head after = .ok (c, left) ∧ c.head = head := by
  cases head with
  | primaryKey => exact ⟨_, _, rfl, rfl⟩
  | notNull => exact ⟨_, _, rfl, rfl⟩
  | unique => exact ⟨_, _, rfl, rfl⟩
  | references => exact ⟨_, _, rfl, rfl⟩
  | check =>
    obtain ⟨body, rest, hread⟩ := readGroup?_of_startsWithGroup h
    exact ⟨.check body, rest, by rw [readClause, hread]; rfl, rfl⟩
  | default =>
    obtain ⟨p, rest, rfl, hleads, hgroup⟩ := h
    have hread : readDefault? (p :: rest) = some (DefaultValue.ofText p.text, rest) := by
      rw [readDefault?, if_neg (not_or.mpr ⟨hgroup, by simp [hleads]⟩)]
    exact ⟨.default (DefaultValue.ofText p.text), rest, by rw [readClause, hread]; rfl, rfl⟩
  | collate =>
    obtain ⟨p, rest, rfl, hleads, hkind⟩ := h
    have hread : readWord? (p :: rest) = some (p.text, rest) := by
      rw [readWord?, if_pos ⟨hkind, by rw [hleads]; rfl⟩]
    exact ⟨.collate p.text, rest, by rw [readClause, hread]; rfl, rfl⟩
  | generated =>
    obtain ⟨always, as, rest, rfl, halways, has, hgroup⟩ := h
    obtain ⟨g, left, hread, hg⟩ := readGenerated?_of_startsWithGroup hgroup true
    have hafter : afterAlwaysAs? (always :: as :: rest) = some rest := by
      rw [afterAlwaysAs?, halways, has]
      rfl
    refine ⟨.generated g, left, ?_, if_pos hg⟩
    simp only [readClause, hafter, hread]
    rfl
  | as =>
    obtain ⟨g, left, hread, hg⟩ := readGenerated?_of_startsWithGroup h false
    refine ⟨.generated g, left, by rw [readClause, hread]; rfl, if_neg ?_⟩
    simp [hg]

-- A clause without its argument is an error that says what it lacks.
theorem readClause_of_not_hasArgument (column : Text) {head : ClauseHead} {after : List Piece}
    (h : ¬head.HasArgument after) :
    readClause column head after = .error (head.missing column after) := by
  cases head with
  | primaryKey => exact absurd trivial h
  | notNull => exact absurd trivial h
  | unique => exact absurd trivial h
  | references => exact absurd trivial h
  | check =>
    rw [readClause, readGroup?_eq_none h]
    rfl
  | default =>
    have hread : readDefault? after = none := by
      cases after with
      | nil => rfl
      | cons p rest =>
        refine if_pos (Decidable.byContradiction fun hp => h ⟨p, rest, rfl, ?_, ?_⟩)
        · simpa using (not_or.mp hp).2
        · exact (not_or.mp hp).1
    rw [readClause, hread]
    rfl
  | collate =>
    have hread : readWord? after = none := by
      cases after with
      | nil => rfl
      | cons p rest => exact if_neg fun hp => h ⟨p, rest, rfl, by simpa using hp.2, hp.1⟩
    rw [readClause, hread]
    rfl
  | generated =>
    -- Which part is missing decides what the error says.
    cases hafter : afterAlwaysAs? after with
    | none =>
      unfold readClause ClauseHead.missing ClauseHead.expected
      rw [hafter]
      rfl
    | some rest =>
      obtain ⟨always, as, rfl, halways, has⟩ := eq_of_afterAlwaysAs? hafter
      have hgroup : ¬StartsWithGroup rest := fun hgroup =>
        h ⟨always, as, rest, rfl, halways, has, hgroup⟩
      have hread : readGenerated? true rest = none := by
        rw [readGenerated?, readGroup?_eq_none hgroup, Option.map_none]
      unfold readClause ClauseHead.missing ClauseHead.expected
      rw [hafter]
      dsimp only
      rw [hread]
      rfl
  | as =>
    have hread : readGenerated? false after = none := by
      rw [readGenerated?, readGroup?_eq_none h, Option.map_none]
    rw [readClause, hread]
    rfl

theorem head_of_readClause {column : Text} {head : ClauseHead} {after left : List Piece}
    {c : Constraint} (h : readClause column head after = .ok (c, left)) : c.head = head := by
  by_cases hargument : head.HasArgument after
  · obtain ⟨c', left', hread, hhead⟩ := readClause_of_hasArgument column hargument
    rw [hread] at h
    rwa [← (Prod.mk.inj (Except.ok.inj h)).1]
  · rw [readClause_of_not_hasArgument column hargument] at h
    cases h

/-! ## All clauses -/

/-- Reads every clause from the pieces after its keyword, whatever the clauses before it have
left. -/
def readEach (column : Text) (name : Option Text) :
    List Occurrence → Except SchemaError (List AnnotatedConstraint)
  | [] => .ok []
  | ⟨.constraint, after⟩ :: os => readEach column (readName name after).1 os
  | ⟨.clause head, after⟩ :: os =>
    match readClause column head after with
    | .error e => .error e
    | .ok (c, _) => (readEach column none os).map (⟨name, c⟩ :: ·)

-- The reader, which goes on where a clause has ended, reads every keyword that starts a clause.
theorem readConstraints_eq_readEach (column : Text) (name : Option Text) (ps : List Piece) :
    readConstraints column name ps = readEach column name (occurrences ps) := by
  fun_induction readConstraints column name ps with
  | case1 => rfl
  | case2 name p rest h ih =>
    have hleads : Keyword.leads (p :: rest) = false := by rw [Keyword.leads, h]; rfl
    rw [ih, occurrences_skip hleads]
  | case3 name p rest h ih =>
    rw [ih, occurrences_keyword h, occurrences_readName,
      (over_keyword h [] (by decide) (by decide)).occurrencesAfter]
    rfl
  | case4 name p rest head h e hread =>
    rw [occurrences_keyword h, readEach, hread]
  | case5 name p rest head h c left hread ih =>
    rw [occurrences_keyword h, readEach, hread, occurrences_readClause h hread, ih]

theorem readName_eq (name : Option Text) (after : List Piece) :
    (readName name after).1 = (nameIn? after).or name := by
  cases after with
  | nil => rfl
  | cons p rest =>
    by_cases h : p.kind = .word ∧ Keyword.leads (p :: rest) = false
    · have hread : readWord? (p :: rest) = some (p.text, rest) :=
        if_pos ⟨h.1, by rw [h.2]; rfl⟩
      rw [readName, hread, nameIn?, if_pos h]
      rfl
    · have hread : readWord? (p :: rest) = none :=
        if_neg fun hp => h ⟨hp.1, by simpa using hp.2⟩
      rw [readName, hread, nameIn?, if_neg h]
      rfl

-- Either every keyword has its argument and gives a constraint, or the first that has not is
-- reported.
theorem readEach_cases (column : Text) (name : Option Text) (os : List Occurrence) :
    (∃ cs, readEach column name os = .ok cs ∧ (∀ o ∈ os, o.Complete) ∧
      cs.map (fun c => (c.name, c.constraint.head)) = namedHeads name os) ∨
    (∃ u head after v, os = u ++ ⟨.clause head, after⟩ :: v ∧ (∀ o ∈ u, o.Complete) ∧
      ¬head.HasArgument after ∧ readEach column name os = .error (head.missing column after)) := by
  -- The name is any, as a `CONSTRAINT` hands its own on to the keywords after it.
  induction os generalizing name with
  | nil => exact .inl ⟨[], rfl, by simp, rfl⟩
  | cons o os ih =>
    obtain ⟨keyword, after⟩ := o
    cases keyword with
    | constraint =>
      have hcomplete : Occurrence.Complete ⟨.constraint, after⟩ := trivial
      obtain ⟨cs, hread, hall, hheads⟩ | ⟨u, head, argument, v, hos, hu, hnot, hread⟩ :=
        ih (readName name after).1
      · refine .inl ⟨cs, hread, List.forall_mem_cons.mpr ⟨hcomplete, hall⟩, ?_⟩
        rw [hheads, readName_eq, namedHeads]
      · refine .inr ⟨_ :: u, head, argument, v, congrArg _ hos,
          List.forall_mem_cons.mpr ⟨hcomplete, hu⟩, hnot, hread⟩
    | clause head =>
      by_cases hargument : head.HasArgument after
      · obtain ⟨c, left, hclause, hhead⟩ := readClause_of_hasArgument column hargument
        have hcomplete : Occurrence.Complete ⟨.clause head, after⟩ := hargument
        obtain ⟨cs, hread, hall, hheads⟩ | ⟨u, head', argument, v, hos, hu, hnot, hread⟩ := ih none
        · refine .inl ⟨⟨name, c⟩ :: cs, ?_, List.forall_mem_cons.mpr ⟨hcomplete, hall⟩, ?_⟩
          · rw [readEach, hclause, hread]
            rfl
          · rw [List.map_cons, hheads, hhead, namedHeads]
        · refine .inr ⟨_ :: u, head', argument, v, congrArg _ hos,
            List.forall_mem_cons.mpr ⟨hcomplete, hu⟩, hnot, ?_⟩
          rw [readEach, hclause, hread]
          rfl
      · refine .inr ⟨[], head, after, os, rfl, by simp, hargument, ?_⟩
        rw [readEach, readClause_of_not_hasArgument column hargument]

/-- An annotation is accepted just if each of its keywords has its argument, and each gives one
constraint. -/
theorem constraints_accept {tag : Text} {ps : List Piece} (h : Piece.scan tag = .ok ps)
    (column : Text) :
    ((∃ cs, constraints column tag = .ok cs) ↔ ∀ o ∈ occurrences ps, o.Complete) ∧
    (∀ cs, constraints column tag = .ok cs →
      cs.map (fun c => (c.name, c.constraint.head)) = namedHeads none (occurrences ps)) ∧
    ∀ e, constraints column tag = .error e →
      ∃ u head after v, occurrences ps = u ++ ⟨.clause head, after⟩ :: v ∧
        (∀ o ∈ u, o.Complete) ∧ ¬head.HasArgument after ∧ e = head.missing column after := by
  have hread : constraints column tag = readEach column none (occurrences ps) := by
    rw [constraints, h]
    exact readConstraints_eq_readEach column none ps
  rw [hread]
  obtain ⟨cs, hcs, hall, hheads⟩ | ⟨u, head, after, v, hos, hu, hnot, hmissing⟩ :=
    readEach_cases column none (occurrences ps)
  · rw [hcs]
    refine ⟨⟨fun _ => hall, fun _ => ⟨cs, rfl⟩⟩, fun cs' heq => ?_, by simp⟩
    rw [← Except.ok.inj heq, hheads]
  · rw [hmissing]
    refine ⟨⟨by simp, fun hall => ?_⟩, by simp, fun e heq => ?_⟩
    · have hmem : ⟨.clause head, after⟩ ∈ occurrences ps := by rw [hos]; simp
      exact absurd (hall _ hmem) hnot
    · exact ⟨u, head, after, v, hos, hu, hnot, (Except.error.inj heq).symm⟩

/-- The pieces of `REFERENCES t ON DELETE SET DEFAULT CONSTRAINT a DEFAULT 1`. -/
def setDefaultPieces : List Piece :=
  [⟨.word, "REFERENCES", 0⟩, ⟨.word, "t", 11⟩, ⟨.word, "ON", 13⟩, ⟨.word, "DELETE", 16⟩,
    ⟨.word, "SET", 23⟩, ⟨.word, "DEFAULT", 27⟩, ⟨.word, "CONSTRAINT", 35⟩, ⟨.word, "a", 46⟩,
    ⟨.word, "DEFAULT", 48⟩, ⟨.word, "1", 56⟩]

theorem constraints_accept_setDefault :
    Piece.scan "REFERENCES t ON DELETE SET DEFAULT CONSTRAINT a DEFAULT 1" = .ok setDefaultPieces ∧
    ∀ cs, constraints "c" "REFERENCES t ON DELETE SET DEFAULT CONSTRAINT a DEFAULT 1" = .ok cs →
      cs.map (fun c => (c.name, c.constraint.head)) =
        ([(none, .references), (some "a", .default)] : List (Option Text × ClauseHead)) := by
  have hscan : Piece.scan "REFERENCES t ON DELETE SET DEFAULT CONSTRAINT a DEFAULT 1" =
      .ok setDefaultPieces := by decide +kernel
  have hheads : namedHeads none (occurrences setDefaultPieces) =
      ([(none, .references), (some "a", .default)] : List (Option Text × ClauseHead)) := by
    decide +kernel
  refine ⟨hscan, fun cs hcs => ?_⟩
  rw [← hheads]
  exact (constraints_accept hscan "c").2.1 cs hcs

end Annotation

end AnnotatedSchema
