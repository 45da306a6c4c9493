import AnnotatedSchema.Annotation.Reader
import AnnotatedSchema.Proofs.Keywords

/-!
# The body of a reference

A `REFERENCES` clause takes all pieces up to the next keyword. The one keyword that does not end it
is a `DEFAULT` right after `SET`, which is an action.
-/

namespace AnnotatedSchema

/-- Whether the last piece is the word `SET`. -/
def endsInSet (ps : List Piece) : Bool := ps.getLast?.any (·.isWord "SET")

theorem endsInSet_concat (ps : List Piece) (p : Piece) :
    endsInSet (ps ++ [p]) = p.isWord "SET" := by
  rw [endsInSet, List.getLast?_concat, Option.any_some]

/-- Whether a reference that has the pieces `body` so far ends before `rest`. -/
def EndsReference (body rest : List Piece) : Prop :=
  Keyword.leads rest = true ∧ ¬(endsInSet body = true ∧ headIs "DEFAULT" rest = true)

instance (body rest : List Piece) : Decidable (EndsReference body rest) :=
  inferInstanceAs (Decidable (_ ∧ _))

theorem endsReference_append {body ps rest : List Piece} (hne : ps ≠ [])
    (hrest : Keyword.Follows rest) : EndsReference body (ps ++ rest) ↔ EndsReference body ps := by
  obtain ⟨p, ps, rfl⟩ := List.exists_cons_of_ne_nil hne
  rw [EndsReference, EndsReference, Keyword.leads_append hrest hne]
  rfl

theorem endsReference_of_follows {body rest : List Piece} (hrest : Keyword.Follows rest)
    (hne : rest ≠ []) (hset : endsInSet body = false) : EndsReference body rest :=
  ⟨hrest.resolve_left hne, fun h => Bool.false_ne_true (hset.symm.trans h.1)⟩

namespace Annotation

theorem endsReference_cons_iff (body : List Piece) (p : Piece) (rest : List Piece) :
    EndsReference body (p :: rest) ↔
      (Keyword.leads (p :: rest) && !(endsInSet body && p.isWord "DEFAULT")) = true := by
  rw [EndsReference, Bool.and_eq_true, Bool.not_eq_true', ← Bool.not_eq_true, Bool.and_eq_true]
  rfl

theorem readReference_ends {body rest : List Piece} (h : EndsReference body rest) :
    readReference (endsInSet body) rest = ([], rest) := by
  cases rest with
  | nil => rfl
  | cons p rest => rw [readReference, if_pos ((endsReference_cons_iff body p rest).mp h)]

-- A piece that does not end the reference is one of it.
theorem readReference_cons {body : List Piece} {p : Piece} {rest : List Piece}
    (h : ¬EndsReference body (p :: rest)) :
    readReference (endsInSet body) (p :: rest) =
      (p :: (readReference (endsInSet (body ++ [p])) rest).1,
        (readReference (endsInSet (body ++ [p])) rest).2) := by
  rw [readReference, if_neg (mt (endsReference_cons_iff body p rest).mpr h), endsInSet_concat]

theorem readReference_append_eq (afterSet : Bool) (ps : List Piece) :
    (readReference afterSet ps).1 ++ (readReference afterSet ps).2 = ps := by
  fun_induction readReference afterSet ps with
  | case1 => rfl
  | case2 => rfl
  | case3 afterSet p rest h ih => rw [List.cons_append, ih]

-- What is left after a reference starts where it ends.
theorem endsReference_readReference (body ps : List Piece) :
    (readReference (endsInSet body) ps).2 = [] ∨
      EndsReference (body ++ (readReference (endsInSet body) ps).1)
        (readReference (endsInSet body) ps).2 := by
  induction ps generalizing body with
  | nil => exact .inl rfl
  | cons p ps ih =>
    by_cases h : EndsReference body (p :: ps)
    · rw [readReference_ends h, List.append_nil]
      exact .inr h
    · rw [readReference_cons h]
      simpa using ih (body ++ [p])

-- A reference has not ended before any of the pieces that are read.
theorem not_endsReference_readReference (body ps : List Piece) (i : Nat)
    (hi : i < (readReference (endsInSet body) ps).1.length) :
    ¬EndsReference (body ++ (readReference (endsInSet body) ps).1.take i) (ps.drop i) := by
  -- At each step the piece that is read moves over to `body`.
  induction ps generalizing body i with
  | nil => exact absurd hi (Nat.not_lt_zero i)
  | cons p ps ih =>
    by_cases h : EndsReference body (p :: ps)
    · rw [readReference_ends h] at hi
      exact absurd hi (Nat.not_lt_zero i)
    · rw [readReference_cons h] at hi ⊢
      cases i with
      | zero => simpa using h
      | succ i =>
        have hnext := ih (body ++ [p]) i (by simpa using hi)
        simpa using hnext

-- Pieces before none of which the reference ends are read, up to where it does.
theorem readReference_append (before : List Piece) {body rest : List Piece}
    (hbody : ∀ i < body.length, ¬EndsReference (before ++ body.take i) (body.drop i ++ rest))
    (hrest : rest = [] ∨ EndsReference (before ++ body) rest) :
    readReference (endsInSet before) (body ++ rest) = (body, rest) := by
  induction body generalizing before with
  | nil =>
    rw [List.append_nil] at hrest
    rcases hrest with rfl | hrest
    · rfl
    · exact readReference_ends hrest
  | cons p body ih =>
    have hp : ¬EndsReference before (p :: (body ++ rest)) := by
      simpa using hbody 0 (Nat.succ_pos _)
    have hread : readReference (endsInSet (before ++ [p])) (body ++ rest) = (body, rest) := by
      refine ih (before ++ [p]) (fun i hi => ?_) (by simpa using hrest)
      simpa using hbody (i + 1) (Nat.succ_lt_succ hi)
    rw [List.cons_append, readReference_cons hp, hread]

end Annotation

end AnnotatedSchema
