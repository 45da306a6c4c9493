import AnnotatedSchema.Proofs.Balance

/-!
# The grammar of groups and literals

A group is a run of items in round brackets, and an item is a group, a literal or one character that
is no mark. The scanner reads groups with a number, the brackets that are open, in place of a tree;
it still accepts just the groups of the grammar. Where there is none, the text either goes on inside
an open group to its end, or comes to a quote there that is never closed.
-/

namespace AnnotatedSchema

open Piece

/-! ## The grammar -/

/-- What stands between the quotes `q` of a literal: other characters, and `q` in pairs. -/
inductive IsLiteralBody (q : Char) : Text → Prop
  | nil : IsLiteralBody q []
  | char {c : Char} {t : Text} (hc : c ≠ q) (ht : IsLiteralBody q t) : IsLiteralBody q (c :: t)
  | pair {t : Text} (ht : IsLiteralBody q t) : IsLiteralBody q (q :: q :: t)

def IsLiteral (q : Char) (t : Text) : Prop :=
  ∃ body, IsLiteralBody q body ∧ t = q :: (body ++ [q])

/-- A run of items that the character `next`, if any, comes after. No quote of its own sort comes
right after a literal. -/
inductive AreItems : Text → Option Char → Prop
  | nil (next : Option Char) : AreItems [] next
  | char {c : Char} {t : Text} {next : Option Char} (hc : isPlain c = true)
      (ht : AreItems t next) : AreItems (c :: t) next
  | literal {q : Char} {l t : Text} {next : Option Char} (hq : isQuote q = true)
      (hl : IsLiteral q l) (hnext : t.head?.or next ≠ some q) (ht : AreItems t next) :
      AreItems (l ++ t) next
  | group {u t : Text} {next : Option Char} (hu : AreItems u (some ')')) (ht : AreItems t next) :
      AreItems ('(' :: (u ++ ')' :: t)) next

/-- Items in round brackets. -/
def IsGroup (t : Text) : Prop := ∃ u, AreItems u (some ')') ∧ t = '(' :: (u ++ [')'])

/-- A text after the first bracket of a group that leaves it open: items, and maybe one more bracket
after them with such a text. -/
inductive LeavesOpen : Text → Option Char → Prop
  | items {u : Text} {next : Option Char} (hu : AreItems u next) : LeavesOpen u next
  | inner {u v : Text} {next : Option Char} (hu : AreItems u (some '('))
      (hv : LeavesOpen v next) : LeavesOpen (u ++ '(' :: v) next

/-- Whether no literal in quotes `q` ends in the text after its first quote. -/
def NeverClosed (q : Char) (t : Text) : Prop :=
  ∀ l rest, q :: t = l ++ rest → IsLiteral q l → rest.head? = some q

/-- Reads a group with the number of its brackets that are open, the first one included. There is no
result if a bracket is closed while that number is zero. -/
def countGroup (start offset opened : Nat) (t : Text) : Option (Except ScanFault (Text × Text)) :=
  match t with
  | [] => some (.error ⟨.unbalancedParentheses, start⟩)
  | c :: t =>
    if isQuote c then
      match _h : closeQuote? c t with
      | none => some (.error ⟨.unterminatedQuote, offset⟩)
      | some (literal, rest) =>
        (countGroup start (offset + c.utf8Size + literal.utf8Size) opened rest).map
          (Except.map fun (body, rest) => (c :: literal ++ body, rest))
    else if c = ')' ∧ opened = 0 then none
    else if c = ')' ∧ opened = 1 then some (.ok ([c], t))
    else
      (countGroup start (offset + c.utf8Size) (depthAfter c opened) t).map
        (Except.map fun (body, rest) => (c :: body, rest))
termination_by t.length
decreasing_by
  · have := length_of_closeQuote? _h
    simp; omega
  · simp

/-! ## Literals -/

theorem IsLiteralBody.eq_doubled {q : Char} {body : Text} (h : IsLiteralBody q body) :
    ∃ t, body = Text.doubled q t := by
  induction h with
  | nil => exact ⟨[], rfl⟩
  | @char c t hc ht ih =>
    obtain ⟨u, rfl⟩ := ih
    exact ⟨c :: u, by rw [Text.doubled, if_neg hc]⟩
  | pair ht ih =>
    obtain ⟨u, rfl⟩ := ih
    exact ⟨q :: u, by rw [Text.doubled, if_pos rfl]⟩

theorem isLiteralBody_of_closeQuote? {q : Char} {t body rest : Text}
    (h : closeQuote? q t = some (body, rest)) :
    ∃ inner, IsLiteralBody q inner ∧ body = inner ++ [q] := by
  fun_induction closeQuote? q t generalizing body rest with
  | case1 => cases h
  | case2 =>
    obtain ⟨rfl, -⟩ := Prod.mk.inj (Option.some.inj h)
    exact ⟨[], .nil, rfl⟩
  | case3 t ih =>
    obtain ⟨literal, hliteral, rfl⟩ := (map_fst_eq_some_iff (f := (q :: q :: ·))).mp h
    obtain ⟨inner, hinner, rfl⟩ := ih hliteral
    exact ⟨q :: q :: inner, .pair hinner, rfl⟩
  | case4 =>
    obtain ⟨rfl, -⟩ := Prod.mk.inj (Option.some.inj h)
    exact ⟨[], .nil, rfl⟩
  | case5 c t hc ih =>
    obtain ⟨literal, hliteral, rfl⟩ := map_fst_eq_some_iff.mp h
    obtain ⟨inner, hinner, rfl⟩ := ih hliteral
    exact ⟨c :: inner, .char hc hinner, rfl⟩

theorem IsLiteralBody.closeQuote? {q : Char} {body rest : Text} (h : IsLiteralBody q body)
    (hrest : rest.head? ≠ some q) :
    Piece.closeQuote? q (body ++ q :: rest) = some (body ++ [q], rest) := by
  obtain ⟨t, rfl⟩ := h.eq_doubled
  have hread := closeQuote?_exchange (closeQuote?_doubled_closed q t) hrest
  rwa [List.append_assoc, List.singleton_append] at hread

theorem isLiteral_of_closeQuote? {q : Char} {t body rest : Text}
    (h : closeQuote? q t = some (body, rest)) : IsLiteral q (q :: body) := by
  obtain ⟨inner, hinner, rfl⟩ := isLiteralBody_of_closeQuote? h
  exact ⟨inner, hinner, rfl⟩

theorem closeQuote?_of_isLiteral {q : Char} {t l rest : Text} (hl : IsLiteral q l)
    (ht : q :: t = l ++ rest) (hrest : rest.head? ≠ some q) :
    closeQuote? q t = some (l.tail, rest) := by
  obtain ⟨body, hbody, rfl⟩ := hl
  have ht : t = body ++ q :: rest := by simpa using ht
  rw [ht, hbody.closeQuote? hrest]
  rfl

/-- No literal is read just if there is none. -/
theorem closeQuote?_eq_none_iff {q : Char} {t : Text} :
    closeQuote? q t = none ↔ NeverClosed q t := by
  constructor
  · intro hnone l rest ht hl
    by_contra hrest
    rw [closeQuote?_of_isLiteral hl ht hrest] at hnone
    cases hnone
  · intro hnever
    cases h : closeQuote? q t with
    | none => rfl
    | some read =>
      have htext : q :: t = (q :: read.1) ++ read.2 := congrArg (q :: ·) (closeQuote?_eq_append h)
      have hhead := hnever (q :: read.1) read.2 htext (isLiteral_of_closeQuote? h)
      exact absurd hhead (head?_of_closeQuote? h)

/-! ## Runs of items -/

theorem isPlain_of_ne {c : Char} (hquote : isQuote c = false) (hopen : c ≠ '(')
    (hclose : c ≠ ')') : isPlain c = true := by
  simp only [isQuote, Bool.or_eq_false_iff, beq_eq_false_iff_ne] at hquote
  simp [isPlain, marks, hquote, hopen, hclose]

theorem ne_of_isPlain {c d : Char} (h : isPlain c = true) (hd : d ∈ marks) : c ≠ d := by
  rintro rfl
  simp [isPlain, hd] at h

theorem isQuote_of_isPlain {c : Char} (h : isPlain c = true) : isQuote c = false := by
  simp [isQuote, ne_of_isPlain h (d := '\'') (by decide), ne_of_isPlain h (d := '"') (by decide),
    ne_of_isPlain h (d := '\x60') (by decide)]

theorem depthAfter_of_isPlain {c : Char} (h : isPlain c = true) (depth : Nat) :
    depthAfter c depth = depth := by
  rw [depthAfter, if_neg (ne_of_isPlain h (by decide)), if_neg (ne_of_isPlain h (by decide))]

theorem areItems_char {c : Char} (hc : isPlain c = true) (next : Option Char) :
    AreItems [c] next :=
  .char hc (.nil next)

theorem areItems_literal {q : Char} {t body rest : Text} (hq : isQuote q = true)
    (h : closeQuote? q t = some (body, rest)) : AreItems (q :: body) rest.head? := by
  rw [← List.append_nil (q :: body)]
  exact .literal hq (isLiteral_of_closeQuote? h) (head?_of_closeQuote? h) (.nil _)

theorem AreItems.append {w u : Text} {next : Option Char} (hw : AreItems w (u.head?.or next))
    (hu : AreItems u next) : AreItems (w ++ u) next := by
  generalize hctx : u.head?.or next = ctx at hw
  induction hw with
  | nil => exact hu
  | char hc _ ih => exact .char hc (ih hctx)
  | literal hq hl hnext _ ih =>
    rw [List.append_assoc]
    refine .literal hq hl ?_ (ih hctx)
    rwa [List.head?_append, Option.or_assoc, hctx]
  | @group u' t ctx hu' _ _ ih =>
    have htext : '(' :: (u' ++ ')' :: t) ++ u = '(' :: (u' ++ ')' :: (t ++ u)) := by simp
    rw [htext]
    exact .group hu' (ih hctx)

/-! ## Texts that end a group, or stay inside it -/

/-- The rest of a group with that many groups around it: items and brackets up to the bracket that
closes the outermost of them. -/
inductive Closes : Nat → Text → Prop
  | last {u : Text} (hu : AreItems u (some ')')) : Closes 0 (u ++ [')'])
  | inner {depth : Nat} {u t : Text} (hu : AreItems u (some ')')) (ht : Closes depth t) :
      Closes (depth + 1) (u ++ ')' :: t)

/-- A text inside a group with that many groups around it, that does not close the outermost of
them. -/
inductive Stays : Nat → Text → Option Char → Prop
  | here {depth : Nat} {u : Text} {next : Option Char} (hu : LeavesOpen u next) :
      Stays depth u next
  | closed {depth : Nat} {u t : Text} {next : Option Char} (hu : AreItems u (some ')'))
      (ht : Stays depth t next) : Stays (depth + 1) (u ++ ')' :: t) next

theorem Closes.prepend {depth : Nat} {w t : Text} (hw : AreItems w t.head?)
    (ht : Closes depth t) : Closes depth (w ++ t) := by
  cases ht with
  | @last u hu =>
    rw [← List.append_assoc]
    rw [List.head?_append] at hw
    exact .last (hw.append hu)
  | @inner depth u t hu ht =>
    rw [← List.append_assoc]
    rw [List.head?_append] at hw
    exact .inner (hw.append hu) ht

theorem LeavesOpen.prepend {w t : Text} {next : Option Char} (hw : AreItems w (t.head?.or next))
    (ht : LeavesOpen t next) : LeavesOpen (w ++ t) next := by
  cases ht with
  | items hu => exact .items (hw.append hu)
  | inner hu hv =>
    rw [← List.append_assoc]
    rw [List.head?_append, Option.or_assoc] at hw
    exact .inner (hw.append hu) hv

theorem Stays.prepend {depth : Nat} {w t : Text} {next : Option Char}
    (hw : AreItems w (t.head?.or next)) (ht : Stays depth t next) : Stays depth (w ++ t) next := by
  cases ht with
  | here ht => exact .here (ht.prepend hw)
  | @closed depth u t next hu ht =>
    rw [← List.append_assoc]
    rw [List.head?_append, Option.or_assoc] at hw
    exact .closed (hw.append hu) ht

-- A character outside literals opens a bracket, or closes one, or is plain.
theorem depthAfter_cases {c : Char} {depth : Nat} (hc : isQuote c = false)
    (hd : ¬(c = ')' ∧ depth = 0)) :
    (c = '(' ∧ depthAfter c depth = depth + 1) ∨ (c = ')' ∧ depth = depthAfter c depth + 1) ∨
      (isPlain c = true ∧ depthAfter c depth = depth) := by
  unfold depthAfter
  by_cases hopen : c = '('
  · exact .inl ⟨hopen, if_pos hopen⟩
  · rw [if_neg hopen]
    by_cases hclose : c = ')'
    · have hne : depth ≠ 0 := fun hzero => hd ⟨hclose, hzero⟩
      rw [if_pos hclose]
      exact .inr (.inl ⟨hclose, by omega⟩)
    · rw [if_neg hclose]
      exact .inr (.inr ⟨isPlain_of_ne hc hopen hclose, rfl⟩)

theorem Closes.cons {depth : Nat} {c : Char} {t : Text} (hc : isQuote c = false)
    (hd : ¬(c = ')' ∧ depth = 0)) (ht : Closes (depthAfter c depth) t) :
    Closes depth (c :: t) := by
  rcases depthAfter_cases hc hd with ⟨rfl, hdepth⟩ | ⟨rfl, hdepth⟩ | ⟨hplain, hdepth⟩
  · -- The first bracket that is closed belongs to the new one.
    rw [hdepth] at ht
    cases ht with
    | @inner depth u t hu ht =>
      have hgroup : AreItems ('(' :: (u ++ [')'])) t.head? := .group hu (.nil _)
      simpa using ht.prepend hgroup
  · rw [hdepth]
    exact .inner (.nil _) ht
  · rw [hdepth] at ht
    exact ht.prepend (areItems_char hplain _)

theorem Stays.cons {depth : Nat} {c : Char} {t : Text} {next : Option Char}
    (hc : isQuote c = false) (hd : ¬(c = ')' ∧ depth = 0))
    (ht : Stays (depthAfter c depth) t next) : Stays depth (c :: t) next := by
  rcases depthAfter_cases hc hd with ⟨rfl, hdepth⟩ | ⟨rfl, hdepth⟩ | ⟨hplain, hdepth⟩
  · rw [hdepth] at ht
    cases ht with
    | here ht => exact .here (.inner (.nil _) ht)
    | @closed depth u t next hu ht =>
      have hgroup : AreItems ('(' :: (u ++ [')'])) (t.head?.or next) := .group hu (.nil _)
      simpa using ht.prepend hgroup
  · rw [hdepth]
    exact .closed (.nil _) ht
  · rw [hdepth] at ht
    exact ht.prepend (areItems_char hplain _)

theorem Stays.leavesOpen {t : Text} {next : Option Char} (h : Stays 0 t next) :
    LeavesOpen t next := by
  cases h with
  | here ht => exact ht

/-! ## What the scanner reads is of the grammar -/

theorem closes_of_closeGroup {start offset depth : Nat} {t body rest : Text}
    (h : closeGroup start offset depth t = .ok (body, rest)) : Closes depth body := by
  fun_induction closeGroup start offset depth t generalizing body rest with
  | case1 => cases h
  | case2 => cases h
  | case3 offset depth c t hc literal tail hq ih =>
    obtain ⟨inner, hinner, rfl⟩ := map_fst_eq_ok_iff.mp h
    have hliteral : AreItems (c :: literal) tail.head? := areItems_literal hc hq
    have hne : inner ≠ [] := closeGroup_ne_nil hinner
    have hhead : tail.head? = inner.head? := by
      rw [closeGroup_eq_append hinner]
      cases inner with
      | nil => exact absurd rfl hne
      | cons d inner => rfl
    exact (ih hinner).prepend (hhead ▸ hliteral)
  | case4 offset depth c t hc hd =>
    obtain ⟨rfl, -⟩ := Prod.mk.inj (Except.ok.inj h)
    rw [hd.1, hd.2]
    exact .last (.nil _)
  | case5 offset depth c t hc hd ih =>
    obtain ⟨inner, hinner, rfl⟩ := map_fst_eq_ok_iff.mp h
    exact (ih hinner).cons (by simpa using hc) hd

-- A fault leaves the text inside the group, up to its end or to the quote of the fault.
theorem stays_of_closeGroup {start offset depth : Nat} {t : Text} {fault : ScanFault}
    (h : closeGroup start offset depth t = .error fault) :
    (Stays depth t none ∧ fault = ⟨.unbalancedParentheses, start⟩) ∨
      ∃ before q after, t = before ++ q :: after ∧ Stays depth before (some q) ∧
        isQuote q = true ∧ closeQuote? q after = none ∧
        fault = ⟨.unterminatedQuote, offset + before.utf8Size⟩ := by
  fun_induction closeGroup start offset depth t with
  | case1 => exact .inl ⟨.here (.items (.nil _)), (Except.error.inj h).symm⟩
  | case2 offset depth c t hc hq =>
    exact .inr ⟨[], c, t, rfl, .here (.items (.nil _)), hc, hq, (Except.error.inj h).symm⟩
  | case3 offset depth c t hc literal tail hq ih =>
    have hliteral : AreItems (c :: literal) tail.head? := areItems_literal hc hq
    rcases ih (map_eq_error_iff.mp h) with ⟨hstays, hfault⟩ | ⟨before, q, after, rfl, hstays, hrest⟩
    · refine .inl ⟨?_, hfault⟩
      rw [closeQuote?_eq_append hq]
      exact hstays.prepend (by rwa [Option.or_none])
    · refine .inr ⟨c :: literal ++ before, q, after, ?_, ?_, hrest.1, hrest.2.1, ?_⟩
      · rw [closeQuote?_eq_append hq]
        simp
      · rw [List.head?_append] at hliteral
        exact hstays.prepend hliteral
      · rw [hrest.2.2]
        simp only [Text.utf8Size_append, Text.utf8Size_cons, ScanFault.mk.injEq, true_and]
        omega
  | case4 => cases h
  | case5 offset depth c t hc hd ih =>
    have hc : isQuote c = false := by simpa using hc
    rcases ih (map_eq_error_iff.mp h) with ⟨hstays, hfault⟩ | ⟨before, q, after, rfl, hstays, hrest⟩
    · exact .inl ⟨hstays.cons hc hd, hfault⟩
    · refine .inr ⟨c :: before, q, after, rfl, hstays.cons hc hd, hrest.1, hrest.2.1, ?_⟩
      rw [hrest.2.2, Text.utf8Size_cons, Nat.add_assoc]

/-! ## What is of the grammar is read -/

/-- What was read, after a text that was read before. -/
def readAfter (u : Text) (read : Except ScanFault (Text × Text)) : Except ScanFault (Text × Text) :=
  read.map fun (body, rest) => (u ++ body, rest)

@[simp] theorem readAfter_ok (u body rest : Text) :
    readAfter u (.ok (body, rest)) = .ok (u ++ body, rest) := rfl

@[simp] theorem readAfter_error (u : Text) (fault : ScanFault) :
    readAfter u (.error fault) = .error fault := rfl

@[simp] theorem readAfter_nil (read : Except ScanFault (Text × Text)) :
    readAfter [] read = read := by
  cases read <;> rfl

@[simp] theorem readAfter_readAfter (u v : Text) (read : Except ScanFault (Text × Text)) :
    readAfter u (readAfter v read) = readAfter (u ++ v) read := by
  cases read <;> simp [readAfter, Except.map]

theorem closeGroup_nil (start offset depth : Nat) :
    closeGroup start offset depth [] = .error ⟨.unbalancedParentheses, start⟩ := by
  rw [closeGroup]

theorem closeGroup_cons {c : Char} (hc : isQuote c = false) {depth : Nat}
    (hd : ¬(c = ')' ∧ depth = 0)) (start offset : Nat) (t : Text) :
    closeGroup start offset depth (c :: t) =
      readAfter [c] (closeGroup start (offset + c.utf8Size) (depthAfter c depth) t) :=
  closeGroup_step hc hd start offset t

theorem closeGroup_literal {q : Char} (hq : isQuote q = true) {l rest : Text}
    (hl : IsLiteral q l) (hrest : rest.head? ≠ some q) (start offset depth : Nat) :
    closeGroup start offset depth (l ++ rest) =
      readAfter l (closeGroup start (offset + l.utf8Size) depth rest) := by
  have hhead : l = q :: l.tail := by
    obtain ⟨body, -, rfl⟩ := hl
    rfl
  have hread : closeQuote? q (l.tail ++ rest) = some (l.tail, rest) :=
    closeQuote?_of_isLiteral hl (by rw [← List.cons_append, ← hhead]) hrest
  have hsize : offset + l.utf8Size = offset + q.utf8Size + Text.utf8Size l.tail := by
    rw [hhead, List.tail_cons, Text.utf8Size_cons, Nat.add_assoc]
  rw [hsize]
  conv_lhs => rw [hhead, List.cons_append]
  rw [closeGroup_quote hq hread]
  conv_rhs => rw [hhead]
  rfl

/-- Items are read over, whatever comes after them. -/
theorem closeGroup_items {u rest : Text} (h : AreItems u rest.head?) (start offset depth : Nat) :
    closeGroup start offset depth (u ++ rest) =
      readAfter u (closeGroup start (offset + u.utf8Size) depth rest) := by
  generalize hnext : rest.head? = next at h
  induction h generalizing rest offset depth with
  | nil => simp
  | @char c t next hc _ ih =>
    have hclose : c ≠ ')' := ne_of_isPlain hc (by decide)
    rw [List.cons_append, closeGroup_cons (isQuote_of_isPlain hc) (fun hd => hclose hd.1),
      depthAfter_of_isPlain hc, ih _ _ hnext, readAfter_readAfter, Text.utf8Size_cons,
      Nat.add_assoc]
    rfl
  | @literal q l t next hq hl hquote _ ih =>
    have hrest : (t ++ rest).head? ≠ some q := by rwa [List.head?_append, hnext]
    rw [List.append_assoc, closeGroup_literal hq hl hrest, ih _ _ hnext, readAfter_readAfter,
      Text.utf8Size_append, Nat.add_assoc]
  | @group u t next _ _ ihu iht =>
    have htext : '(' :: (u ++ ')' :: t) ++ rest = '(' :: (u ++ ')' :: (t ++ rest)) := by simp
    have hinner : depthAfter '(' depth = depth + 1 := rfl
    have houter : depthAfter ')' (depth + 1) = depth := rfl
    rw [htext, closeGroup_cons (by decide) (by simp), hinner, ihu _ _ rfl,
      closeGroup_cons (by decide) (by simp), houter, iht _ _ hnext]
    simp only [readAfter_readAfter, Text.utf8Size_append, Text.utf8Size_cons,
      List.cons_append, List.nil_append, Nat.add_assoc]

/-- A group is read in full, whatever comes after it. -/
theorem first_of_isGroup (offset : Nat) {t g rest : Text} (h : IsGroup g)
    (ht : '(' :: t = g ++ rest) : first offset '(' t = .ok (⟨.group, g, offset⟩, rest) := by
  obtain ⟨u, hu, rfl⟩ := h
  have ht : t = u ++ ')' :: rest := by simpa using ht
  apply first_group
  rw [ht, closeGroup_items hu, closeGroup_close, readAfter_ok]

theorem isGroup_of_first {offset : Nat} {t rest : Text} {p : Piece}
    (h : first offset '(' t = .ok (p, rest)) :
    ∃ g, IsGroup g ∧ '(' :: t = g ++ rest ∧ p = ⟨.group, g, offset⟩ := by
  rcases first_cases h with ⟨body, -, hbody, rfl⟩ | ⟨body, hquote, -⟩ | ⟨hne, -⟩
  · refine ⟨'(' :: body, ?_, ?_, rfl⟩
    · cases closes_of_closeGroup hbody with
      | last hu => exact ⟨_, hu, rfl⟩
    · rw [closeGroup_eq_append hbody]
      rfl
  · exact absurd hquote (by decide)
  · exact absurd rfl hne

-- Where a text leaves some groups open, nothing is read but what comes after it.
theorem closeGroup_leavesOpen {v : Text} (rest : Text) (h : LeavesOpen v rest.head?)
    (start offset depth : Nat) :
    ∃ depth', closeGroup start offset depth (v ++ rest) =
      readAfter v (closeGroup start (offset + v.utf8Size) depth' rest) := by
  generalize hnext : rest.head? = next at h
  induction h generalizing offset depth with
  | items hu => exact ⟨depth, closeGroup_items (hnext ▸ hu) start offset depth⟩
  | @inner u v next hu _ ih =>
    obtain ⟨depth', hread⟩ := ih (offset + u.utf8Size + '('.utf8Size) (depth + 1) hnext
    have hinner : depthAfter '(' depth = depth + 1 := rfl
    refine ⟨depth', ?_⟩
    rw [List.append_assoc, List.cons_append, closeGroup_items hu,
      closeGroup_cons (by decide) (by simp), hinner, hread]
    simp only [readAfter_readAfter, Text.utf8Size_append, Text.utf8Size_cons,
      List.cons_append, List.nil_append, Nat.add_assoc]

theorem first_error {offset : Nat} {t : Text} {fault : ScanFault} :
    first offset '(' t = .error fault ↔
      closeGroup offset (offset + '('.utf8Size) 0 t = .error fault := by
  rw [first, if_pos rfl]
  exact map_eq_error_iff

/-! ## The number of open brackets -/

/-- Between the brackets of a group its own bracket is open, so no bracket is closed at zero. -/
theorem countGroup_succ (start offset depth : Nat) (t : Text) :
    countGroup start offset (depth + 1) t = some (closeGroup start offset depth t) := by
  fun_induction closeGroup start offset depth t with
  | case1 => rw [countGroup]
  | case2 offset depth c t hc hq =>
    rw [countGroup.eq_def]
    simp only [hc, if_true]
    split
    · rfl
    · simp_all
  | case3 offset depth c t hc literal rest hq ih =>
    rw [countGroup.eq_def]
    simp only [hc, if_true]
    split
    · simp_all
    · next literal' rest' hq' =>
      obtain ⟨rfl, rfl⟩ := Prod.mk.inj (Option.some.inj (hq.symm.trans hq'))
      rw [ih]
      rfl
  | case4 offset depth c t hc hd =>
    rw [countGroup, if_neg hc, if_neg (by omega), if_pos ⟨hd.1, by omega⟩]
  | case5 offset depth c t hc hd ih =>
    have hone : ¬(c = ')' ∧ depth + 1 = 1) := fun h => hd ⟨h.1, by omega⟩
    have hdepth : depthAfter c (depth + 1) = depthAfter c depth + 1 := by
      rcases depthAfter_cases (by simpa using hc) hd with ⟨rfl, h⟩ | ⟨rfl, h⟩ | ⟨hplain, h⟩
      · rfl
      · exact h
      · rw [h, depthAfter_of_isPlain hplain]
    rw [countGroup, if_neg hc, if_neg (by omega), if_neg hone, hdepth, ih]
    rfl

theorem countGroup_open (start offset : Nat) (t : Text) :
    countGroup start offset 0 ('(' :: t) =
      some (readAfter ['('] (closeGroup start (offset + '('.utf8Size) 0 t)) := by
  have hopened : depthAfter '(' 0 = 0 + 1 := rfl
  rw [countGroup, if_neg (by decide), if_neg (by decide), if_neg (by decide), hopened,
    countGroup_succ]
  rfl

/-! ## Groups are read as the grammar says -/

/-- At an open bracket a piece is read just if the text starts with a group; it is that group, and
there is only one. Otherwise the group stays open up to the end of the text, or up to a quote that
is never closed, and that is the fault. No bracket is closed while the number of open ones is
zero. -/
theorem first_iff_isGroup (offset : Nat) (t : Text) :
    (∀ p rest, first offset '(' t = .ok (p, rest) ↔
      ∃ g, IsGroup g ∧ '(' :: t = g ++ rest ∧ p = ⟨.group, g, offset⟩) ∧
    (∀ g g' rest rest', IsGroup g → IsGroup g' → '(' :: t = g ++ rest → '(' :: t = g' ++ rest' →
      g = g') ∧
    (∀ fault, first offset '(' t = .error fault ↔
      (LeavesOpen t none ∧ fault = ⟨.unbalancedParentheses, offset⟩) ∨
      ∃ before q after, t = before ++ q :: after ∧ LeavesOpen before (some q) ∧
        isQuote q = true ∧ NeverClosed q after ∧
        fault = ⟨.unterminatedQuote, offset + Text.utf8Size ('(' :: before)⟩) ∧
    countGroup offset offset 0 ('(' :: t) =
      some ((first offset '(' t).map fun (p, rest) => (p.text, rest)) := by
  refine ⟨fun p rest => ⟨isGroup_of_first, ?_⟩, ?_, fun fault => ⟨fun h => ?_, ?_⟩, ?_⟩
  · rintro ⟨g, hg, ht, rfl⟩
    exact first_of_isGroup offset hg ht
  · intro g g' rest rest' hg hg' ht ht'
    have hread := (first_of_isGroup offset hg ht).symm.trans (first_of_isGroup offset hg' ht')
    exact congrArg Piece.text (Prod.mk.inj (Except.ok.inj hread)).1
  · rcases stays_of_closeGroup (first_error.mp h) with ⟨hstays, rfl⟩ |
      ⟨before, q, after, rfl, hstays, hq, hnone, rfl⟩
    · exact .inl ⟨hstays.leavesOpen, rfl⟩
    · refine .inr ⟨before, q, after, rfl, hstays.leavesOpen, hq,
        closeQuote?_eq_none_iff.mp hnone, ?_⟩
      rw [Text.utf8Size_cons, Nat.add_assoc]
  · rw [first_error]
    rintro (⟨hopen, rfl⟩ | ⟨before, q, after, rfl, hopen, hq, hnever, rfl⟩)
    · obtain ⟨depth, hread⟩ :=
        closeGroup_leavesOpen [] hopen offset (offset + '('.utf8Size) 0
      rw [List.append_nil] at hread
      rw [hread, closeGroup_nil, readAfter_error]
    · obtain ⟨depth, hread⟩ :=
        closeGroup_leavesOpen (q :: after) hopen offset (offset + '('.utf8Size) 0
      rw [hread, closeGroup_quote_error hq (closeQuote?_eq_none_iff.mpr hnever), readAfter_error,
        Text.utf8Size_cons, Nat.add_assoc]
  · rw [countGroup_open, first, if_pos rfl]
    cases closeGroup offset (offset + '('.utf8Size) 0 t <;> rfl

theorem first_iff_isGroup_nested :
    IsGroup "(f(a, ')''('))" ∧
    (∀ g rest, IsGroup g → '(' :: "f(a, ')''(')) > 0".toList = g ++ rest →
      g = "(f(a, ')''('))".toList) ∧
    (∃ before q after, "f(a, ')''())".toList = before ++ q :: after ∧
      LeavesOpen before (some q) ∧ NeverClosed q after ∧
      12 = 6 + Text.utf8Size ('(' :: before)) ∧
    LeavesOpen "f(a, ')''(') > 0" none := by
  have hread : first 6 '(' "f(a, ')''(')) > 0" =
      .ok (⟨.group, "(f(a, ')''('))", 6⟩, " > 0") := by decide +kernel
  have hquote : first 6 '(' "f(a, ')''())" = .error ⟨.unterminatedQuote, 12⟩ := by decide +kernel
  have hopen : first 6 '(' "f(a, ')''(') > 0" = .error ⟨.unbalancedParentheses, 6⟩ := by
    decide +kernel
  obtain ⟨hgroup, hunique, -, -⟩ := first_iff_isGroup 6 "f(a, ')''(')) > 0"
  obtain ⟨g, hg, ht, hp⟩ := (hgroup _ _).mp hread
  obtain rfl := congrArg Piece.text hp
  refine ⟨hg, fun g' rest hg' ht' => hunique g' _ rest _ hg' hg ht' ht, ?_, ?_⟩
  · rcases ((first_iff_isGroup 6 _).2.2.1 _).mp hquote with ⟨-, hfault⟩ |
      ⟨before, q, after, ht, hbefore, -, hnever, hfault⟩
    · cases hfault
    · exact ⟨before, q, after, ht, hbefore, hnever, congrArg ScanFault.offset hfault⟩
  · rcases ((first_iff_isGroup 6 _).2.2.1 _).mp hopen with ⟨hleaves, -⟩ |
      ⟨_, _, _, -, -, -, -, hfault⟩
    · exact hleaves
    · cases hfault

end AnnotatedSchema
