import AnnotatedSchema.Annotation.Reader
import AnnotatedSchema.Proofs.Scanning

/-!
# Where a piece stands does not matter

The readers of an annotation look at the kind and the text of a piece. Its offset is only for
messages, so two lists of pieces that differ in offsets alone are read alike.
-/

namespace AnnotatedSchema

namespace Piece

variable (offset : Nat) (p : Piece)

@[simp] theorem moveTo_kind : (p.moveTo offset).kind = p.kind := rfl

@[simp] theorem moveTo_text : (p.moveTo offset).text = p.text := rfl

@[simp] theorem moveTo_isWord (word : Text) : (p.moveTo offset).isWord word = p.isWord word := rfl

@[simp] theorem moveTo_groupBody? : (p.moveTo offset).groupBody? = p.groupBody? := rfl

end Piece

open Piece

theorem Keyword.leading?_moveTo (offset : Nat) (ps : List Piece) :
    leading? (ps.map (moveTo offset)) = leading? ps := by
  match ps with
  | [] => rfl
  | [p] => rfl
  | p :: q :: ps => rfl

@[simp] theorem Keyword.leads_moveTo (offset : Nat) (ps : List Piece) :
    leads (ps.map (moveTo offset)) = leads ps := by
  rw [leads, leading?_moveTo, leads]

@[simp] theorem Keyword.leads_cons_moveTo (offset : Nat) (p : Piece) (ps : List Piece) :
    leads (p.moveTo offset :: ps.map (moveTo offset)) = leads (p :: ps) :=
  leads_moveTo offset (p :: ps)

namespace Annotation

variable (offset : Nat) (ps : List Piece)

theorem skipConflict_moveTo :
    skipConflict (ps.map (moveTo offset)) = (skipConflict ps).map (moveTo offset) := by
  cases ps with
  | nil => rfl
  | cons p ps =>
    by_cases h : p.isWord "CONFLICT" <;>
      simp only [List.map_cons, skipConflict, moveTo_isWord, h, Bool.false_eq_true, if_true,
        if_false]

theorem readAction_moveTo :
    readAction (ps.map (moveTo offset)) =
      ((readAction ps).1, (readAction ps).2.map (moveTo offset)) := by
  cases ps with
  | nil => rfl
  | cons p ps =>
    simp only [List.map_cons, readAction, moveTo_kind, moveTo_text, Keyword.leads_cons_moveTo]
    split <;> rfl

theorem readConflictAction_moveTo :
    readConflictAction (ps.map (moveTo offset)) =
      ((readConflictAction ps).1, (readConflictAction ps).2.map (moveTo offset)) := by
  rw [readConflictAction, skipConflict_moveTo, readAction_moveTo, readConflictAction]

theorem readConflictClause_moveTo :
    readConflictClause (ps.map (moveTo offset)) =
      ((readConflictClause ps).1, (readConflictClause ps).2.map (moveTo offset)) := by
  match ps with
  | [] => rfl
  | [p] => rfl
  | p :: q :: ps =>
    by_cases h : p.isWord "ON" && q.isWord "CONFLICT"
    · have hread := readConflictAction_moveTo offset (q :: ps)
      simp only [List.map_cons] at hread
      simp only [List.map_cons, readConflictClause, moveTo_isWord, h, if_true, hread]
    · simp only [List.map_cons, readConflictClause, moveTo_isWord, h, Bool.false_eq_true, if_false]

theorem readKeyOptions_moveTo (key : ColumnKey) :
    readKeyOptions key (ps.map (moveTo offset)) =
      ((readKeyOptions key ps).1, (readKeyOptions key ps).2.map (moveTo offset)) := by
  fun_induction readKeyOptions key ps with
  | case1 => simp [readKeyOptions]
  | case2 key p rest h => rw [List.map_cons, readKeyOptions]; simp_all
  | case3 key p rest h hk ih => rw [List.map_cons, readKeyOptions]; simp_all
  | case4 key p rest h hk order ho ih => rw [List.map_cons, readKeyOptions]; simp_all
  | case5 key p rest h hk ho ha ih => rw [List.map_cons, readKeyOptions]; simp_all
  | case6 key p rest h hk ho ha hon ih =>
    rw [List.map_cons, readKeyOptions]
    simp_all [readConflictAction_moveTo]
  | case7 key p rest h hk ho ha hon ih => rw [List.map_cons, readKeyOptions]; simp_all

theorem readGroup?_moveTo :
    readGroup? (ps.map (moveTo offset)) =
      (readGroup? ps).map fun (body, rest) => (body, rest.map (moveTo offset)) := by
  cases ps with
  | nil => rfl
  | cons p ps =>
    simp only [List.map_cons, readGroup?, moveTo_groupBody?]
    split <;> rfl

theorem readDefault?_moveTo :
    readDefault? (ps.map (moveTo offset)) =
      (readDefault? ps).map fun (value, rest) => (value, rest.map (moveTo offset)) := by
  cases ps with
  | nil => rfl
  | cons p ps =>
    simp only [List.map_cons, readDefault?, moveTo_groupBody?, moveTo_text,
      Keyword.leads_cons_moveTo]
    split <;> rfl

theorem readWord?_moveTo :
    readWord? (ps.map (moveTo offset)) =
      (readWord? ps).map fun (word, rest) => (word, rest.map (moveTo offset)) := by
  cases ps with
  | nil => rfl
  | cons p ps =>
    simp only [List.map_cons, readWord?, moveTo_kind, moveTo_text, Keyword.leads_cons_moveTo]
    split <;> rfl

theorem readReference_moveTo (afterSet : Bool) :
    readReference afterSet (ps.map (moveTo offset)) =
      ((readReference afterSet ps).1.map (moveTo offset),
        (readReference afterSet ps).2.map (moveTo offset)) := by
  induction ps generalizing afterSet with
  | nil => rfl
  | cons p ps ih =>
    have ih := ih (p.isWord "SET")
    by_cases h : Keyword.leads (p :: ps) && !(afterSet && p.isWord "DEFAULT") <;>
      simp only [List.map_cons, List.map_nil, readReference, moveTo_isWord,
        Keyword.leads_cons_moveTo, h, ih, Bool.false_eq_true, if_true, if_false]

theorem referenceText_eq : referenceText ps = "REFERENCES" ++ spaced ps := rfl

theorem referenceText_moveTo : referenceText (ps.map (moveTo offset)) = referenceText ps := by
  rw [referenceText_eq, referenceText_eq, spaced_moveTo]

theorem readGeneratedStorage_moveTo :
    readGeneratedStorage (ps.map (moveTo offset)) =
      ((readGeneratedStorage ps).1, (readGeneratedStorage ps).2.map (moveTo offset)) := by
  cases ps with
  | nil => rfl
  | cons p ps =>
    simp only [List.map_cons, readGeneratedStorage, moveTo_kind, moveTo_text]
    split <;> rfl

theorem readGenerated?_moveTo (always : Bool) :
    readGenerated? always (ps.map (moveTo offset)) =
      (readGenerated? always ps).map fun (g, rest) => (g, rest.map (moveTo offset)) := by
  rw [readGenerated?, readGroup?_moveTo, readGenerated?]
  cases readGroup? ps with
  | none => rfl
  | some read => simp only [Option.map_some, readGeneratedStorage_moveTo]

theorem afterAlwaysAs?_moveTo :
    afterAlwaysAs? (ps.map (moveTo offset)) =
      (afterAlwaysAs? ps).map (List.map (moveTo offset)) := by
  match ps with
  | [] => rfl
  | [p] => rfl
  | p :: q :: ps =>
    by_cases h : p.isWord "ALWAYS" && q.isWord "AS" <;>
      simp only [List.map_cons, afterAlwaysAs?, moveTo_isWord, h, Bool.false_eq_true, if_true,
        if_false, Option.map_some, Option.map_none]

theorem required_map {α β γ : Type} (column constraint expected : Text) (wrap : α → Constraint)
    (read : Option (α × β)) (f : β → γ) :
    required column constraint expected wrap (read.map fun (a, rest) => (a, f rest)) =
      (required column constraint expected wrap read).map fun (c, rest) => (c, f rest) := by
  cases read <;> rfl

theorem readClause_moveTo (column : Text) (head : ClauseHead) :
    readClause column head (ps.map (moveTo offset)) =
      (readClause column head ps).map fun (c, rest) => (c, rest.map (moveTo offset)) := by
  cases head with
  | primaryKey => simp only [readClause, readKeyOptions_moveTo]; rfl
  | notNull => simp only [readClause, readConflictClause_moveTo]; rfl
  | unique => simp only [readClause, readConflictClause_moveTo]; rfl
  | check => simp only [readClause, readGroup?_moveTo, required_map]
  | default => simp only [readClause, readDefault?_moveTo, required_map]
  | collate => simp only [readClause, readWord?_moveTo, required_map]
  | references => simp only [readClause, readReference_moveTo, referenceText_moveTo]; rfl
  | generated =>
    simp only [readClause, afterAlwaysAs?_moveTo]
    cases afterAlwaysAs? ps with
    | none => rfl
    | some rest => simp only [Option.map_some, readGenerated?_moveTo, required_map]
  | as => simp only [readClause, readGenerated?_moveTo, required_map]

theorem readName_moveTo (name : Option Text) :
    readName name (ps.map (moveTo offset)) =
      ((readName name ps).1, (readName name ps).2.map (moveTo offset)) := by
  rw [readName, readWord?_moveTo, readName]
  cases readWord? ps <;> rfl

/-! ## One step of the reader -/

theorem readConstraints_nil (column : Text) (name : Option Text) :
    readConstraints column name [] = .ok [] := by
  rw [readConstraints]

theorem readConstraints_skip {p : Piece} {rest : List Piece}
    (h : Keyword.leading? (p :: rest) = none) (column : Text) (name : Option Text) :
    readConstraints column name (p :: rest) = readConstraints column name rest := by
  rw [readConstraints, h]

theorem readConstraints_name {p : Piece} {rest : List Piece}
    (h : Keyword.leading? (p :: rest) = some .constraint) (column : Text) (name : Option Text) :
    readConstraints column name (p :: rest) =
      readConstraints column (readName name rest).1 (readName name rest).2 := by
  rw [readConstraints, h]

theorem readConstraints_clause {p : Piece} {rest : List Piece} {head : ClauseHead}
    (h : Keyword.leading? (p :: rest) = some (.clause head)) (column : Text)
    (name : Option Text) :
    readConstraints column name (p :: rest) =
      match readClause column head (rest.drop (Keyword.width (.clause head) - 1)) with
      | .error e => .error e
      | .ok (constraint, left) =>
        (readConstraints column none left).map (⟨name, constraint⟩ :: ·) := by
  rw [readConstraints, h]
  simp only []
  split
  · next hread => rw [hread]
  · next hread => rw [hread]

-- Pieces are read alike wherever they stand.
theorem readConstraints_moveTo (column : Text) (name : Option Text) :
    readConstraints column name (ps.map (moveTo offset)) = readConstraints column name ps := by
  fun_induction readConstraints column name ps with
  | case1 => rw [List.map_nil, readConstraints_nil]
  | case2 name p rest h ih =>
    rw [← Keyword.leading?_moveTo offset] at h
    rw [List.map_cons, readConstraints_skip h, ih]
  | case3 name p rest h ih =>
    rw [← Keyword.leading?_moveTo offset] at h
    rw [List.map_cons, readConstraints_name h, readName_moveTo, ih]
  | case4 name p rest head h e hread =>
    rw [← Keyword.leading?_moveTo offset] at h
    rw [List.map_cons, readConstraints_clause h, ← List.map_drop, readClause_moveTo, hread]
    rfl
  | case5 name p rest head h constraint left hread ih =>
    rw [← Keyword.leading?_moveTo offset] at h
    rw [List.map_cons, readConstraints_clause h, ← List.map_drop, readClause_moveTo, hread]
    exact congrArg (Except.map _) ih

-- An annotation of pieces that can stand alone is read as these pieces.
theorem constraints_spaced (column : Text) {ps : List Piece} (h : ∀ p ∈ ps, p.Lone) {t : Text}
    (ht : ' ' :: t = spaced ps) : constraints column t = readConstraints column none ps := by
  obtain ⟨qs, hscan, hmove⟩ := scan_spaced h ht
  rw [constraints, hscan]
  calc readConstraints column none qs
      = readConstraints column none (qs.map (moveTo 0)) := (readConstraints_moveTo ..).symm
    _ = readConstraints column none ps := by rw [hmove, readConstraints_moveTo]

end Annotation

end AnnotatedSchema
