import AnnotatedSchema.Proofs.Acceptance
import AnnotatedSchema.Proofs.Capture
import AnnotatedSchema.Proofs.Placement

/-!
# One annotation after another

Every reader looks ahead, but none of them over a keyword. So a clause is read in the same way
whether the pieces end with it or another clause comes next, and two annotations that are written
one after the other give the constraints of both. Only a constraint name that still waits for its
constraint, or a `SET` before `DEFAULT`, would reach from the one into the other.
-/

namespace AnnotatedSchema

open Piece Annotation

/-- The pieces of a text, up to the first fault if there is one. -/
def Text.pieces (t : Text) : List Piece := (Piece.scanFrom 0 t).1

/-- The name that still waits for a constraint after all the keywords. -/
def pendingName (name : Option Text) : List Occurrence → Option Text
  | [] => name
  | ⟨.constraint, after⟩ :: os => pendingName ((nameIn? after).or name) os
  | ⟨.clause _, _⟩ :: os => pendingName none os

/-- The error in a text that starts so many bytes later. -/
def SchemaError.shift (n : Nat) : SchemaError → SchemaError
  | malformed column fault => malformed column (fault.shift n)
  | e => e

/-- Whether a clause that starts with `rest`, if any, is read apart from the pieces before it. -/
structure Apart (ps rest : List Piece) : Prop where
  follows : Keyword.Follows rest
  set : ¬(endsInSet ps = true ∧ headIs "DEFAULT" rest = true)

theorem endsInSet_of_suffix {left ps : List Piece} (h : left <:+ ps)
    (hset : endsInSet left = true) : endsInSet ps = true := by
  obtain ⟨used, rfl⟩ := h
  cases hlast : left.getLast? with
  | none => rw [endsInSet, hlast] at hset; cases hset
  | some p =>
    rw [endsInSet, hlast] at hset
    rw [endsInSet, List.getLast?_append, hlast]
    exact hset

theorem Apart.of_suffix {left ps rest : List Piece} (h : Apart ps rest) (hleft : left <:+ ps) :
    Apart left rest where
  follows := h.follows
  set := fun hset => h.set ⟨endsInSet_of_suffix hleft hset.1, hset.2⟩

-- A keyword of two words has both of them before it is found.
theorem Keyword.width_le {p : Piece} {rest : List Piece} {k : Keyword}
    (h : leading? (p :: rest) = some k) : k.width - 1 ≤ rest.length := by
  have hsecond : ∀ w : Text, rest.head?.any (·.isWord w) = true → 1 ≤ rest.length := by
    intro w hw
    cases rest with
    | nil => cases hw
    | cons q rest => exact Nat.succ_pos _
  by_cases hone : k ∈ oneWord
  · have hwidth : ∀ k ∈ oneWord, k.width - 1 = 0 := by decide
    rw [hwidth k hone]
    exact Nat.zero_le _
  · simp only [leading?] at h
    split at h
    · next found hfound =>
      obtain rfl := Option.some.inj h
      exact absurd (List.mem_of_find?_eq_some hfound) hone
    · split at h
      · next hkey =>
        obtain rfl := Option.some.inj h
        exact hsecond "KEY" (Bool.and_eq_true _ _ ▸ hkey).2
      · split at h
        · next hnull =>
          obtain rfl := Option.some.inj h
          exact hsecond "NULL" (Bool.and_eq_true _ _ ▸ hnull).2
        · cases h

namespace Annotation

/-! ## What a reader leaves is the end of what it was given -/

theorem suffix_skipConflict (ps : List Piece) : skipConflict ps <:+ ps := by
  cases ps with
  | nil => exact List.suffix_refl _
  | cons p rest =>
    rw [skipConflict]
    split
    · exact List.suffix_cons p rest
    · exact List.suffix_refl _

theorem suffix_readAction (ps : List Piece) : (readAction ps).2 <:+ ps := by
  cases ps with
  | nil => exact List.suffix_refl _
  | cons p rest =>
    rw [readAction]
    split
    · exact List.suffix_cons p rest
    · exact List.suffix_refl _

theorem suffix_readConflictAction (ps : List Piece) : (readConflictAction ps).2 <:+ ps :=
  (suffix_readAction _).trans (suffix_skipConflict ps)

theorem suffix_readConflictClause (ps : List Piece) : (readConflictClause ps).2 <:+ ps := by
  unfold readConflictClause
  split
  · next on conflict rest =>
    split
    · exact (suffix_readConflictAction _).trans (List.suffix_cons on _)
    · exact List.suffix_refl _
  · exact List.suffix_refl _

theorem suffix_readKeyOptions (key : ColumnKey) (ps : List Piece) :
    (readKeyOptions key ps).2 <:+ ps := by
  fun_induction readKeyOptions key ps with
  | case1 => exact List.suffix_refl _
  | case2 => exact List.suffix_refl _
  | case3 key p rest h hkind ih => exact ih.trans (List.suffix_cons p rest)
  | case4 key p rest h hkind order horder ih => exact ih.trans (List.suffix_cons p rest)
  | case5 key p rest h hkind horder hauto ih => exact ih.trans (List.suffix_cons p rest)
  | case6 key p rest h hkind horder hauto hon ih =>
    exact (ih.trans (suffix_readConflictAction rest)).trans (List.suffix_cons p rest)
  | case7 key p rest h hkind horder hauto hon ih => exact ih.trans (List.suffix_cons p rest)

theorem suffix_readGroup? {ps left : List Piece} {body : Text}
    (h : readGroup? ps = some (body, left)) : left <:+ ps := by
  cases ps with
  | nil => cases h
  | cons p rest =>
    rw [readGroup?] at h
    split at h
    · obtain ⟨-, rfl⟩ := Prod.mk.inj (Option.some.inj h)
      exact List.suffix_cons p rest
    · cases h

theorem suffix_readDefault? {ps left : List Piece} {value : DefaultValue}
    (h : readDefault? ps = some (value, left)) : left <:+ ps := by
  cases ps with
  | nil => cases h
  | cons p rest =>
    rw [readDefault?] at h
    split at h
    · cases h
    · obtain ⟨-, rfl⟩ := Prod.mk.inj (Option.some.inj h)
      exact List.suffix_cons p rest

theorem suffix_readWord? {ps left : List Piece} {word : Text}
    (h : readWord? ps = some (word, left)) : left <:+ ps := by
  cases ps with
  | nil => cases h
  | cons p rest =>
    rw [readWord?] at h
    split at h
    · obtain ⟨-, rfl⟩ := Prod.mk.inj (Option.some.inj h)
      exact List.suffix_cons p rest
    · cases h

theorem suffix_readReference (afterSet : Bool) (ps : List Piece) :
    (readReference afterSet ps).2 <:+ ps :=
  ⟨(readReference afterSet ps).1, readReference_append_eq afterSet ps⟩

theorem suffix_readGeneratedStorage (ps : List Piece) : (readGeneratedStorage ps).2 <:+ ps := by
  cases ps with
  | nil => exact List.suffix_refl _
  | cons p rest =>
    rw [readGeneratedStorage]
    split
    · exact List.suffix_cons p rest
    · exact List.suffix_refl _

theorem suffix_readGenerated? {always : Bool} {ps left : List Piece} {g : Generated}
    (h : readGenerated? always ps = some (g, left)) : left <:+ ps := by
  obtain ⟨⟨body, rest⟩, hgroup, heq⟩ := Option.map_eq_some_iff.mp h
  obtain ⟨-, rfl⟩ := Prod.mk.inj heq
  exact (suffix_readGeneratedStorage rest).trans (suffix_readGroup? hgroup)

theorem suffix_readClause {column : Text} {head : ClauseHead} {ps left : List Piece}
    {c : Constraint} (h : readClause column head ps = .ok (c, left)) : left <:+ ps := by
  cases head with
  | primaryKey =>
    obtain ⟨-, rfl⟩ := Prod.mk.inj (Except.ok.inj h)
    exact suffix_readKeyOptions _ ps
  | notNull | unique =>
    obtain ⟨-, rfl⟩ := Prod.mk.inj (Except.ok.inj h)
    exact suffix_readConflictClause ps
  | check =>
    obtain ⟨body, hbody, -⟩ := read_of_required h
    exact suffix_readGroup? hbody
  | default =>
    obtain ⟨value, hvalue, -⟩ := read_of_required h
    exact suffix_readDefault? hvalue
  | collate =>
    obtain ⟨word, hword, -⟩ := read_of_required h
    exact suffix_readWord? hword
  | references =>
    obtain ⟨-, rfl⟩ := Prod.mk.inj (Except.ok.inj h)
    exact suffix_readReference false ps
  | generated =>
    simp only [readClause] at h
    split at h
    · cases h
    · next after hafter =>
      obtain ⟨always, as, rfl, -, -⟩ := eq_of_afterAlwaysAs? hafter
      obtain ⟨g, hg, -⟩ := read_of_required h
      exact (suffix_readGenerated? hg).trans ⟨[always, as], rfl⟩
  | as =>
    obtain ⟨g, hg, -⟩ := read_of_required h
    exact suffix_readGenerated? hg

theorem suffix_readName (name : Option Text) (ps : List Piece) : (readName name ps).2 <:+ ps := by
  rw [readName]
  split
  · next h => exact suffix_readWord? h
  · exact List.suffix_refl ps

/-! ## A reader leaves the next clause alone -/

section Append

variable {ps left rest : List Piece}

theorem skipConflict_append (h : Keyword.Follows rest) (ps : List Piece) :
    skipConflict (ps ++ rest) = skipConflict ps ++ rest := by
  cases ps with
  | nil =>
    cases rest with
    | nil => rfl
    | cons q rest =>
      have hq : q.isWord "CONFLICT" = false := h.not_isWord (by decide)
      change skipConflict (q :: rest) = q :: rest
      rw [skipConflict, hq, if_neg Bool.false_ne_true]
  | cons p ps =>
    rw [List.cons_append, skipConflict, skipConflict]
    split <;> rfl

theorem readAction_append (h : Keyword.Follows rest) (ps : List Piece) :
    readAction (ps ++ rest) = ((readAction ps).1, (readAction ps).2 ++ rest) := by
  cases ps with
  | nil =>
    cases rest with
    | nil => rfl
    | cons q rest =>
      have hq : Keyword.leads (q :: rest) = true := h.resolve_left (List.cons_ne_nil q rest)
      change readAction (q :: rest) = (none, q :: rest)
      rw [readAction, hq, if_neg (by simp)]
  | cons p ps =>
    have hleads : Keyword.leads (p :: (ps ++ rest)) = Keyword.leads (p :: ps) :=
      Keyword.leads_append h (List.cons_ne_nil p ps)
    rw [List.cons_append, readAction, readAction, hleads]
    split <;> rfl

theorem readConflictAction_append (h : Keyword.Follows rest) (ps : List Piece) :
    readConflictAction (ps ++ rest) =
      ((readConflictAction ps).1, (readConflictAction ps).2 ++ rest) := by
  rw [readConflictAction, skipConflict_append h, readAction_append h, readConflictAction]

theorem readConflictClause_append (h : Keyword.Follows rest) (ps : List Piece) :
    readConflictClause (ps ++ rest) =
      ((readConflictClause ps).1, (readConflictClause ps).2 ++ rest) := by
  rcases ps with _ | ⟨p, _ | ⟨q, ps⟩⟩
  · rcases rest with _ | ⟨q, _ | ⟨r, rest⟩⟩
    · rfl
    · rfl
    · have hq : q.isWord "ON" = false := h.not_isWord (by decide)
      change readConflictClause (q :: r :: rest) = (none, q :: r :: rest)
      rw [readConflictClause, hq, Bool.false_and, if_neg Bool.false_ne_true]
  · cases rest with
    | nil => rfl
    | cons q rest =>
      have hq : q.isWord "CONFLICT" = false := h.not_isWord (by decide)
      change readConflictClause (p :: q :: rest) = (none, p :: q :: rest)
      rw [readConflictClause, hq, Bool.and_false, if_neg Bool.false_ne_true]
  · change readConflictClause (p :: q :: (ps ++ rest)) = _
    have haction := readConflictAction_append h (q :: ps)
    rw [readConflictClause, readConflictClause]
    split
    · exact haction
    · rfl

theorem readKeyOptions_append (h : Keyword.Follows rest) (key : ColumnKey) (ps : List Piece) :
    readKeyOptions key (ps ++ rest) =
      ((readKeyOptions key ps).1, (readKeyOptions key ps).2 ++ rest) := by
  have hleads (p : Piece) (ps : List Piece) :
      Keyword.leads (p :: (ps ++ rest)) = Keyword.leads (p :: ps) :=
    Keyword.leads_append h (List.cons_ne_nil p ps)
  fun_induction readKeyOptions key ps with
  | case1 key =>
    cases rest with
    | nil => rw [List.append_nil, readKeyOptions]
    | cons q rest =>
      have hq : Keyword.leads (q :: rest) = true := h.resolve_left (List.cons_ne_nil q rest)
      rw [List.nil_append, readKeyOptions, if_pos hq]
  | case2 key p ps hp => rw [List.cons_append, readKeyOptions, hleads, if_pos hp]
  | case3 key p ps hp hkind ih =>
    rw [List.cons_append, readKeyOptions, hleads, if_neg hp, if_pos hkind, ih]
  | case4 key p ps hp hkind order horder ih =>
    rw [List.cons_append, readKeyOptions, hleads, if_neg hp, if_neg hkind, horder]
    exact ih
  | case5 key p ps hp hkind horder hauto ih =>
    rw [List.cons_append, readKeyOptions, hleads, if_neg hp, if_neg hkind, horder]
    simp only [hauto, if_true, ih]
  | case6 key p ps hp hkind horder hauto hon ih =>
    rw [List.cons_append, readKeyOptions, hleads, if_neg hp, if_neg hkind, horder]
    simp only [hauto, hon, if_true, if_false, readConflictAction_append h, ih, Bool.false_eq_true]
  | case7 key p ps hp hkind horder hauto hon ih =>
    rw [List.cons_append, readKeyOptions, hleads, if_neg hp, if_neg hkind, horder]
    simp only [hauto, hon, if_false, ih, Bool.false_eq_true]

theorem readGroup?_append {body : Text} (hread : readGroup? ps = some (body, left))
    (rest : List Piece) : readGroup? (ps ++ rest) = some (body, left ++ rest) := by
  cases ps with
  | nil => cases hread
  | cons p ps =>
    rw [readGroup?] at hread
    split at hread
    · next c body hbody =>
      obtain ⟨rfl, rfl⟩ := Prod.mk.inj (Option.some.inj hread)
      rw [List.cons_append, readGroup?, hbody]
    · cases hread

theorem readDefault?_append (h : Keyword.Follows rest) {value : DefaultValue}
    (hread : readDefault? ps = some (value, left)) :
    readDefault? (ps ++ rest) = some (value, left ++ rest) := by
  cases ps with
  | nil => cases hread
  | cons p ps =>
    have hleads : Keyword.leads (p :: (ps ++ rest)) = Keyword.leads (p :: ps) :=
      Keyword.leads_append h (List.cons_ne_nil p ps)
    rw [readDefault?] at hread
    split at hread
    · cases hread
    · next hp =>
      obtain ⟨rfl, rfl⟩ := Prod.mk.inj (Option.some.inj hread)
      rw [List.cons_append, readDefault?, hleads, if_neg hp]

theorem readWord?_append (h : Keyword.Follows rest) (ps : List Piece) :
    readWord? (ps ++ rest) = (readWord? ps).map fun (word, left) => (word, left ++ rest) := by
  cases ps with
  | nil =>
    cases rest with
    | nil => rfl
    | cons q rest =>
      have hq : Keyword.leads (q :: rest) = true := h.resolve_left (List.cons_ne_nil q rest)
      change readWord? (q :: rest) = none
      rw [readWord?, hq, if_neg (by simp)]
  | cons p ps =>
    have hleads : Keyword.leads (p :: (ps ++ rest)) = Keyword.leads (p :: ps) :=
      Keyword.leads_append h (List.cons_ne_nil p ps)
    rw [List.cons_append, readWord?, readWord?, hleads]
    split <;> rfl

-- A reference ends before the next keyword, or the keyword is a default which is its action.
theorem readReference_leads (before : List Piece) {p : Piece} (h : Keyword.leads (p :: rest) = true)
    (ps : List Piece) :
    readReference (endsInSet before) (ps ++ p :: rest) =
      ((readReference (endsInSet before) ps).1,
        (readReference (endsInSet before) ps).2 ++ p :: rest) ∨
    (endsInSet (before ++ ps) = true ∧ p.isWord "DEFAULT" = true ∧
      ∃ more, (readReference (endsInSet before) (ps ++ p :: rest)).1 = ps ++ p :: more) := by
  induction ps generalizing before with
  | nil =>
    rw [List.append_nil]
    by_cases hends : EndsReference before (p :: rest)
    · exact .inl (readReference_ends hends)
    · obtain ⟨hset, hdefault⟩ := Decidable.not_not.mp (not_and.mp hends h)
      refine .inr ⟨hset, hdefault, (readReference (endsInSet (before ++ [p])) rest).1, ?_⟩
      rw [List.nil_append, readReference_cons hends]
      rfl
  | cons q ps ih =>
    have happend : EndsReference before (q :: (ps ++ p :: rest)) ↔ EndsReference before (q :: ps) :=
      endsReference_append (List.cons_ne_nil q ps) (.inr h)
    by_cases hends : EndsReference before (q :: ps)
    · refine .inl ?_
      rw [List.cons_append, readReference_ends (happend.mpr hends), readReference_ends hends]
      rfl
    · rw [List.cons_append, readReference_cons (mt happend.mp hends), readReference_cons hends]
      rcases ih (before ++ [q]) with hread | ⟨hset, hdefault, more, hread⟩
      · exact .inl (by rw [hread])
      · rw [List.append_assoc] at hset
        exact .inr ⟨hset, hdefault, more, by rw [hread]; rfl⟩

theorem readReference_apart (h : Apart ps rest) :
    readReference false (ps ++ rest) =
      ((readReference false ps).1, (readReference false ps).2 ++ rest) := by
  cases rest with
  | nil => rw [List.append_nil, List.append_nil]
  | cons p rest =>
    have hleads : Keyword.leads (p :: rest) = true :=
      h.follows.resolve_left (List.cons_ne_nil p rest)
    rcases readReference_leads [] hleads ps with hread | ⟨hset, hdefault, -⟩
    · exact hread
    · exact absurd ⟨hset, hdefault⟩ h.set

theorem readGeneratedStorage_append (h : Keyword.Follows rest) (ps : List Piece) :
    readGeneratedStorage (ps ++ rest) =
      ((readGeneratedStorage ps).1, (readGeneratedStorage ps).2 ++ rest) := by
  cases ps with
  | nil =>
    cases rest with
    | nil => rfl
    | cons q rest =>
      change readGeneratedStorage (q :: rest) = (.virtual, q :: rest)
      rw [readGeneratedStorage]
      split
      · next storage hkind hstorage =>
        -- A keyword is none of the words for where a column is stored.
        have hword : q.isWord storage.keyword = true := by
          have hsame := List.find?_some hstorage
          rw [Piece.isWord, hkind]
          exact hsame
        have hq : q.isWord storage.keyword = false :=
          h.not_isWord (by cases storage <;> decide)
        exact absurd (hword.symm.trans hq) (by decide)
      · rfl
  | cons p ps =>
    rw [List.cons_append, readGeneratedStorage, readGeneratedStorage]
    split <;> rfl

theorem readGenerated?_append (h : Keyword.Follows rest) {always : Bool} {g : Generated}
    (hread : readGenerated? always ps = some (g, left)) :
    readGenerated? always (ps ++ rest) = some (g, left ++ rest) := by
  obtain ⟨⟨body, after⟩, hgroup, heq⟩ := Option.map_eq_some_iff.mp hread
  obtain ⟨rfl, rfl⟩ := Prod.mk.inj heq
  rw [readGenerated?, readGroup?_append hgroup, Option.map_some]
  simp only [readGeneratedStorage_append h]

theorem readClause_append {column : Text} {head : ClauseHead} {c : Constraint}
    (hread : readClause column head ps = .ok (c, left)) (h : Keyword.Follows rest)
    (hset : head = .references → Apart ps rest) :
    readClause column head (ps ++ rest) = .ok (c, left ++ rest) := by
  cases head with
  | primaryKey =>
    obtain ⟨rfl, rfl⟩ := Prod.mk.inj (Except.ok.inj hread)
    simp only [readClause, readKeyOptions_append h]
  | notNull | unique =>
    obtain ⟨rfl, rfl⟩ := Prod.mk.inj (Except.ok.inj hread)
    simp only [readClause, readConflictClause_append h]
  | check =>
    obtain ⟨body, hbody, rfl⟩ := read_of_required hread
    rw [readClause, readGroup?_append hbody]
    rfl
  | default =>
    obtain ⟨value, hvalue, rfl⟩ := read_of_required hread
    rw [readClause, readDefault?_append h hvalue]
    rfl
  | collate =>
    obtain ⟨word, hword, rfl⟩ := read_of_required hread
    rw [readClause, readWord?_append h, hword]
    rfl
  | references =>
    obtain ⟨rfl, rfl⟩ := Prod.mk.inj (Except.ok.inj hread)
    rw [readClause, readReference_apart (hset rfl)]
  | generated =>
    simp only [readClause] at hread
    split at hread
    · cases hread
    · next after hafter =>
      obtain ⟨always, as, rfl, halways, has⟩ := eq_of_afterAlwaysAs? hafter
      obtain ⟨g, hg, rfl⟩ := read_of_required hread
      have happend : afterAlwaysAs? (always :: as :: after ++ rest) = some (after ++ rest) := by
        change afterAlwaysAs? (always :: as :: (after ++ rest)) = _
        rw [afterAlwaysAs?, halways, has]
        rfl
      simp only [readClause, happend, readGenerated?_append h hg]
      rfl
  | as =>
    obtain ⟨g, hg, rfl⟩ := read_of_required hread
    rw [readClause, readGenerated?_append h hg]
    rfl

theorem readName_append (h : Keyword.Follows rest) (name : Option Text) (ps : List Piece) :
    readName name (ps ++ rest) = ((readName name ps).1, (readName name ps).2 ++ rest) := by
  rw [readName, readWord?_append h, readName]
  cases readWord? ps <;> rfl

end Append

/-! ## All constraints -/

-- What comes after the pieces of accepted constraints is read with the name that they leave.
theorem readConstraints_append {column : Text} {name : Option Text} {ps rest : List Piece}
    {cs : List AnnotatedConstraint} (hread : readConstraints column name ps = .ok cs)
    (h : Apart ps rest) :
    readConstraints column name (ps ++ rest) =
      (readConstraints column (pendingName name (occurrences ps)) rest).map (cs ++ ·) := by
  have hleading (p : Piece) (ps : List Piece) :
      Keyword.leading? (p :: (ps ++ rest)) = Keyword.leading? (p :: ps) :=
    Keyword.leading?_append h.follows (List.cons_ne_nil p ps)
  fun_induction readConstraints column name ps generalizing cs with
  | case1 name =>
    obtain rfl := Except.ok.inj hread
    change readConstraints column name rest = (readConstraints column name rest).map ([] ++ ·)
    cases readConstraints column name rest <;> rfl
  | case2 name p ps hk ih =>
    have hleads : Keyword.leads (p :: ps) = false := by rw [Keyword.leads, hk]; rfl
    rw [List.cons_append, readConstraints_skip ((hleading p ps).trans hk), occurrences_skip hleads,
      ih hread (h.of_suffix (List.suffix_cons p ps))]
  | case3 name p ps hk ih =>
    have hsuffix : (readName name ps).2 <:+ p :: ps :=
      (suffix_readName name ps).trans (List.suffix_cons p ps)
    rw [List.cons_append, readConstraints_name ((hleading p ps).trans hk),
      readName_append h.follows, ih hread (h.of_suffix hsuffix), occurrences_readName,
      occurrences_keyword hk, pendingName, readName_eq,
      (over_keyword hk [] (by decide) (by decide)).occurrencesAfter]
    rfl
  | case4 name p ps head hk e hclause => cases hread
  | case5 name p ps head hk c left hclause ih =>
    obtain ⟨tail, htail, rfl⟩ := map_eq_ok_iff.mp hread
    have hsuffix : ps.drop (Keyword.width (.clause head) - 1) <:+ p :: ps :=
      (List.drop_suffix _ ps).trans (List.suffix_cons p ps)
    have hdrop : (ps ++ rest).drop (Keyword.width (.clause head) - 1) =
        ps.drop (Keyword.width (.clause head) - 1) ++ rest :=
      List.drop_append_of_le_length (Keyword.width_le hk)
    have hleft := h.of_suffix ((suffix_readClause hclause).trans hsuffix)
    rw [List.cons_append, readConstraints_clause ((hleading p ps).trans hk), hdrop,
      readClause_append hclause h.follows fun _ => h.of_suffix hsuffix, occurrences_keyword hk,
      pendingName,
      occurrences_readClause hk hclause]
    change (readConstraints column none (left ++ rest)).map _ = _
    rw [ih htail hleft]
    cases readConstraints column (pendingName none (occurrences left)) rest <;> rfl

theorem readConstraints_shift (n : Nat) (column : Text) (name : Option Text) (ps : List Piece) :
    readConstraints column name (ps.map (Piece.shift n)) = readConstraints column name ps := by
  have hmove : moveTo 0 ∘ Piece.shift n = moveTo 0 := rfl
  rw [← readConstraints_moveTo 0, List.map_map, hmove, readConstraints_moveTo]

theorem shift_of_readConstraints {column : Text} {name : Option Text} {ps : List Piece}
    {e : SchemaError} (h : readConstraints column name ps = .error e) (n : Nat) :
    e.shift n = e := by
  rw [readConstraints_eq_readEach] at h
  obtain ⟨cs, hcs, -⟩ | ⟨u, head, after, v, -, -, -, hmissing⟩ :=
    readEach_cases column name (occurrences ps)
  · rw [hcs] at h
    cases h
  · rw [hmissing] at h
    rw [← Except.error.inj h]
    rfl

-- Only the words of the pieces decide whether they start a clause of their own.
theorem Apart.shift {ps rest : List Piece} (h : Apart ps rest) (n : Nat) :
    Apart ps (rest.map (Piece.shift n)) := by
  have hmove : moveTo 0 ∘ Piece.shift n = moveTo 0 := rfl
  have hleads : Keyword.leads (rest.map (Piece.shift n)) = Keyword.leads rest := by
    rw [← Keyword.leads_moveTo 0, List.map_map, hmove, Keyword.leads_moveTo]
  have hhead : headIs "DEFAULT" (rest.map (Piece.shift n)) = headIs "DEFAULT" rest := by
    cases rest <;> rfl
  refine ⟨?_, by rw [hhead]; exact h.set⟩
  rw [Keyword.Follows, hleads, List.map_eq_nil_iff]
  exact h.follows

-- A fault is reported before anything is read.
theorem constraints_eq (column t : Text) :
    constraints column t = match (Piece.scanFrom 0 t).2 with
      | some fault => .error (.malformed column fault)
      | none => readConstraints column none t.pieces := by
  rw [constraints, Piece.scan, Text.pieces]
  obtain ⟨ps, fault⟩ := Piece.scanFrom 0 t
  cases fault <;> rfl

-- A text after another and a blank has its own pieces and its own fault, found so much later.
theorem scanFrom_blank_append {a : Text} (ha : (Piece.scanFrom 0 a).2 = none) (b : Text) :
    Piece.scanFrom 0 (a ++ " " ++ b) =
      (a.pieces ++ b.pieces.map (Piece.shift (a.utf8Size + 1)),
        (Piece.scanFrom 0 b).2.map (ScanFault.shift (a.utf8Size + 1))) := by
  have hfrom : Piece.scanFrom 0 a = (a.pieces, none) := Prod.ext rfl ha
  have hsize : Text.utf8Size (a ++ " ") = a.utf8Size + 1 := Text.utf8Size_append a " "
  have hblank : ∀ c ∈ (" " : Text), isBlank c = true := List.forall_mem_singleton.mpr (by decide)
  rw [scanFrom_append_blanks hfrom (by decide) hblank, hsize]
  rfl

/-- The constraints of an accepted annotation with another after it are those of both, in order; an
error in the other is reported where it then stands. -/
theorem constraints_append {column a b : Text} {cs : List AnnotatedConstraint}
    (ha : constraints column a = .ok cs) (hname : pendingName none (occurrences a.pieces) = none)
    (hb : Keyword.leads b.pieces = true)
    (hset : ¬(endsInSet a.pieces = true ∧ headIs "DEFAULT" b.pieces = true)) :
    constraints column (a ++ " " ++ b) =
      ((constraints column b).mapError (SchemaError.shift (a.utf8Size + 1))).map (cs ++ ·) := by
  rw [constraints_eq] at ha
  cases hfault : (Piece.scanFrom 0 a).2 with
  | some fault => rw [hfault] at ha; cases ha
  | none =>
    rw [hfault] at ha
    have hapart : Apart a.pieces (b.pieces.map (Piece.shift (a.utf8Size + 1))) :=
      Apart.shift ⟨.inr hb, hset⟩ _
    rw [constraints_eq, constraints_eq, Text.pieces, scanFrom_blank_append hfault]
    cases (Piece.scanFrom 0 b).2 with
    | some fault => rfl
    | none =>
      change readConstraints column none
        (a.pieces ++ b.pieces.map (Piece.shift (a.utf8Size + 1))) = _
      rw [readConstraints_append ha hapart, hname, readConstraints_shift]
      cases hread : readConstraints column none b.pieces with
      | ok cs' => rfl
      | error e =>
        have hshift := shift_of_readConstraints hread (a.utf8Size + 1)
        change Except.error e = Except.error (e.shift (a.utf8Size + 1))
        rw [hshift]

-- The options of the key stop at `NOT NULL`; the quote is reported at its place in the whole text.
theorem constraints_append_key :
    constraints "id" "CONSTRAINT pk PRIMARY KEY ON NOT NULL CHECK (id > 0)" =
      .ok [⟨some "pk", .primaryKey .plain⟩, ⟨none, .notNull none⟩, ⟨none, .check "id > 0"⟩] ∧
    constraints "id" "CONSTRAINT pk PRIMARY KEY ON NOT NULL DEFAULT 'a" =
      .error (.malformed "id" ⟨.unterminatedQuote, 46⟩) := by
  have ha : constraints "id" "CONSTRAINT pk PRIMARY KEY ON" =
      .ok [⟨some "pk", .primaryKey .plain⟩] := by decide +kernel
  have hname : pendingName none (occurrences (Text.pieces "CONSTRAINT pk PRIMARY KEY ON")) =
      none := by decide +kernel
  constructor
  · have hb : constraints "id" "NOT NULL CHECK (id > 0)" =
        .ok [⟨none, .notNull none⟩, ⟨none, .check "id > 0"⟩] := by decide +kernel
    have happend := constraints_append ha hname (b := "NOT NULL CHECK (id > 0)")
      (by decide +kernel) (by decide +kernel)
    rw [hb] at happend
    exact happend
  · have hb : constraints "id" "NOT NULL DEFAULT 'a" =
        .error (.malformed "id" ⟨.unterminatedQuote, 17⟩) := by decide +kernel
    have happend := constraints_append ha hname (b := "NOT NULL DEFAULT 'a")
      (by decide +kernel) (by decide +kernel)
    rw [hb] at happend
    exact happend

end Annotation

end AnnotatedSchema
