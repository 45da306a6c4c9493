import AnnotatedSchema.Annotation.Piece
import Mathlib.Data.List.TakeWhile

/-!
# Scanning is local

A piece ends where its own text says so: what follows can be exchanged for anything that does not
go on with it. So a text can be cut at a blank and both parts scanned on their own, and every piece
is scanned as itself when its text stands alone.
-/

namespace AnnotatedSchema

theorem exists_eq_ok {ε α : Type} {x : Except ε α} (h : x.toOption.isSome = true) :
    ∃ a, x = .ok a := by
  cases x with
  | error e => cases h
  | ok a => exact ⟨a, rfl⟩

theorem map_eq_ok_iff {ε α β : Type} {f : α → β} {x : Except ε α} {b : β} :
    x.map f = .ok b ↔ ∃ a, x = .ok a ∧ f a = b := by
  cases x <;> simp [Except.map]

theorem map_eq_error_iff {ε α β : Type} {f : α → β} {x : Except ε α} {e : ε} :
    x.map f = .error e ↔ x = .error e := by
  cases x <;> simp [Except.map]

theorem bind_eq_error_iff {ε α β : Type} {f : α → Except ε β} {x : Except ε α} {e : ε} :
    x >>= f = .error e ↔ x = .error e ∨ ∃ a, x = .ok a ∧ f a = .error e := by
  cases x with
  | error e' =>
    refine ⟨fun h => .inl (congrArg Except.error (Except.error.inj h)), ?_⟩
    rintro (h | ⟨a, h, -⟩)
    · exact congrArg Except.error (Except.error.inj h)
    · cases h
  | ok a =>
    refine ⟨fun h => .inr ⟨a, rfl, h⟩, ?_⟩
    rintro (h | ⟨b, hb, h⟩)
    · cases h
    · rwa [← Except.ok.inj hb] at h

theorem bind_eq_ok_iff {ε α β : Type} {f : α → Except ε β} {x : Except ε α} {b : β} :
    x >>= f = .ok b ↔ ∃ a, x = .ok a ∧ f a = .ok b := by
  cases x with
  | error e => exact iff_of_false nofun nofun
  | ok a => simp only [Except.ok.injEq, exists_eq_left']; rfl

-- Every step of the scanner puts something before what was read and leaves the rest as it is.
theorem map_fst_eq_some_iff {α β γ : Type} {f : α → β} {x : Option (α × γ)} {b : β} {c : γ} :
    x.map (fun (a, c) => (f a, c)) = some (b, c) ↔ ∃ a, x = some (a, c) ∧ f a = b := by
  constructor
  · intro h
    obtain ⟨⟨a, d⟩, hx, he⟩ := Option.map_eq_some_iff.mp h
    obtain ⟨rfl, rfl⟩ := Prod.mk.inj he
    exact ⟨a, hx, rfl⟩
  · rintro ⟨a, rfl, rfl⟩
    rfl

theorem map_fst_eq_ok_iff {ε α β γ : Type} {f : α → β} {x : Except ε (α × γ)} {b : β} {c : γ} :
    x.map (fun (a, c) => (f a, c)) = .ok (b, c) ↔ ∃ a, x = .ok (a, c) ∧ f a = b := by
  constructor
  · intro h
    obtain ⟨⟨a, d⟩, hx, he⟩ := map_eq_ok_iff.mp h
    obtain ⟨rfl, rfl⟩ := Prod.mk.inj he
    exact ⟨a, hx, rfl⟩
  · rintro ⟨a, rfl, rfl⟩
    rfl

theorem mapError_eq_ok_iff {ε ε' α : Type} {f : ε → ε'} {x : Except ε α} {a : α} :
    x.mapError f = .ok a ↔ x = .ok a := by
  cases x <;> simp [Except.mapError]

theorem mapError_eq_error_iff {ε ε' α : Type} {f : ε → ε'} {x : Except ε α} {e : ε'} :
    x.mapError f = .error e ↔ ∃ cause, x = .error cause ∧ e = f cause := by
  cases x <;> simp [Except.mapError, eq_comm]

namespace Piece

/-! ## The end of a literal and of a group -/

theorem closeQuote?_ne {q c : Char} (h : c ≠ q) (t : Text) :
    closeQuote? q (c :: t) = (closeQuote? q t).map fun (body, rest) => (c :: body, rest) := by
  rw [closeQuote?.eq_def]
  simp [h]

theorem closeQuote?_doubled (q : Char) (t : Text) :
    closeQuote? q (q :: q :: t) =
      (closeQuote? q t).map fun (body, rest) => (q :: q :: body, rest) := by
  rw [closeQuote?.eq_def]
  simp

theorem closeQuote?_closed {q : Char} {t : Text} (h : t.head? ≠ some q) :
    closeQuote? q (q :: t) = some ([q], t) := by
  rw [closeQuote?.eq_def]
  cases t with
  | nil => simp
  | cons d t => simp_all

-- After the closing quote stands no further quote of its sort.
theorem head?_of_closeQuote? {q : Char} {t body rest : Text}
    (h : closeQuote? q t = some (body, rest)) : rest.head? ≠ some q := by
  fun_induction closeQuote? q t generalizing body rest with
  | case1 => simp at h
  | case2 => simp_all
  | case3 t ih =>
    obtain ⟨literal, hq, -⟩ := (map_fst_eq_some_iff (f := (q :: q :: ·))).mp h
    exact ih hq
  | case4 d t hd =>
    simp only [Option.some.injEq, Prod.mk.injEq] at h
    simpa [← h.2] using hd
  | case5 c t hc ih =>
    obtain ⟨literal, hq, -⟩ := map_fst_eq_some_iff.mp h
    exact ih hq

theorem closeQuote?_exchange {q : Char} {t body rest u : Text}
    (h : closeQuote? q t = some (body, rest)) (hu : u.head? ≠ some q) :
    closeQuote? q (body ++ u) = some (body, u) := by
  fun_induction closeQuote? q t generalizing body rest with
  | case1 => simp at h
  | case2 =>
    simp only [Option.some.injEq, Prod.mk.injEq] at h
    rw [← h.1, List.singleton_append, closeQuote?_closed hu]
  | case3 t ih =>
    obtain ⟨literal, hq, rfl⟩ := (map_fst_eq_some_iff (f := (q :: q :: ·))).mp h
    rw [List.cons_append, List.cons_append, closeQuote?_doubled, ih hq, Option.map_some]
  | case4 d t hd =>
    simp only [Option.some.injEq, Prod.mk.injEq] at h
    rw [← h.1, List.singleton_append, closeQuote?_closed hu]
  | case5 c t hc ih =>
    obtain ⟨literal, hq, rfl⟩ := map_fst_eq_some_iff.mp h
    rw [List.cons_append, closeQuote?_ne hc, ih hq, Option.map_some]

theorem closeGroup_quote {c : Char} (hc : isQuote c = true) {t literal rest : Text}
    (hq : closeQuote? c t = some (literal, rest)) (start offset depth : Nat) :
    closeGroup start offset depth (c :: t) =
      (closeGroup start (offset + c.utf8Size + literal.utf8Size) depth rest).map
        fun (body, rest) => (c :: literal ++ body, rest) := by
  rw [closeGroup.eq_def]
  simp only [hc, if_true]
  split
  · simp_all
  · simp_all

theorem closeGroup_quote_error {c : Char} (hc : isQuote c = true) {t : Text}
    (hq : closeQuote? c t = none) (start offset depth : Nat) :
    closeGroup start offset depth (c :: t) = .error ⟨.unterminatedQuote, offset⟩ := by
  rw [closeGroup.eq_def]
  simp only [hc, if_true]
  split
  · rfl
  · simp_all

theorem closeGroup_close (start offset : Nat) (t : Text) :
    closeGroup start offset 0 (')' :: t) = .ok ([')'], t) := by
  rw [closeGroup.eq_def]
  simp [isQuote]

theorem closeGroup_step {c : Char} (hc : isQuote c = false) {depth : Nat}
    (hd : ¬(c = ')' ∧ depth = 0)) (start offset : Nat) (t : Text) :
    closeGroup start offset depth (c :: t) =
      (closeGroup start (offset + c.utf8Size) (depthAfter c depth) t).map
        fun (body, rest) => (c :: body, rest) := by
  rw [closeGroup.eq_def]
  simp [hc, hd]

theorem closeGroup_ne_nil {start offset depth : Nat} {t body rest : Text}
    (h : closeGroup start offset depth t = .ok (body, rest)) : body ≠ [] := by
  fun_induction closeGroup start offset depth t with
  | case1 => simp at h
  | case2 => simp at h
  | case3 | case5 =>
    obtain ⟨inner, -, rfl⟩ := map_fst_eq_ok_iff.mp h
    simp
  | case4 =>
    simp only [Except.ok.injEq, Prod.mk.injEq] at h
    simp [← h.1]

theorem closeGroup_exchange {start offset depth : Nat} {t body rest : Text}
    (h : closeGroup start offset depth t = .ok (body, rest)) (u : Text) :
    closeGroup start offset depth (body ++ u) = .ok (body, u) := by
  fun_induction closeGroup start offset depth t generalizing body rest with
  | case1 => simp at h
  | case2 => simp at h
  | case3 offset depth c t hc literal tail hq ih =>
    obtain ⟨inner, hg, rfl⟩ := map_fst_eq_ok_iff.mp h
    -- The group goes on behind the literal, so the literal is closed by the same quote as before.
    have hinner : (inner ++ u).head? ≠ some c := by
      have htail := head?_of_closeQuote? hq
      obtain ⟨d, inner', rfl⟩ := List.exists_cons_of_ne_nil (closeGroup_ne_nil hg)
      simpa [closeGroup_eq_append hg] using htail
    rw [List.cons_append, List.cons_append, List.append_assoc,
      closeGroup_quote hc (closeQuote?_exchange hq hinner), ih hg]
    rfl
  | case4 offset depth c t hc hd =>
    simp only [Except.ok.injEq, Prod.mk.injEq] at h
    rw [← h.1, hd.1, hd.2, List.singleton_append, closeGroup_close]
  | case5 offset depth c t hc hd ih =>
    obtain ⟨inner, hg, rfl⟩ := map_fst_eq_ok_iff.mp h
    rw [List.cons_append, closeGroup_step (by simpa using hc) hd, ih hg]
    rfl

/-! ## The first piece -/

/-- Whether the piece cannot go on with the text. -/
def EndsBefore (p : Piece) (u : Text) : Prop :=
  match p.kind with
  | .word => ∀ c ∈ u.head?, inWord c = false
  | .quoted => u.head? ≠ p.text.head?
  | .group => True

theorem EndsBefore.congr {p : Piece} {u v : Text} (h : p.EndsBefore u) (huv : v.head? = u.head?) :
    p.EndsBefore v := by
  unfold EndsBefore at *
  rwa [huv]

theorem isBlank_of_isQuote {c : Char} (h : isQuote c = true) : isBlank c = false := by
  simp only [isQuote, Bool.or_eq_true, beq_iff_eq] at h
  rcases h with (rfl | rfl) | rfl <;> decide

theorem first_group {offset : Nat} {t body rest : Text}
    (h : closeGroup offset (offset + '('.utf8Size) 0 t = .ok (body, rest)) :
    first offset '(' t = .ok (⟨.group, '(' :: body, offset⟩, rest) := by
  simp [first, h, Except.map]

theorem first_quoted {offset : Nat} {c : Char} {t body rest : Text} (hc : isQuote c = true)
    (h : closeQuote? c t = some (body, rest)) :
    first offset c t = .ok (⟨.quoted, c :: body, offset⟩, rest) := by
  have hp : c ≠ '(' := by rintro rfl; simp [isQuote] at hc
  simp [first, hp, hc, h]

theorem first_word {c : Char} (hp : c ≠ '(') (hc : isQuote c = false) (offset : Nat) (t : Text) :
    first offset c t = .ok (⟨.word, c :: t.takeWhile inWord, offset⟩, t.dropWhile inWord) := by
  simp [first, hp, hc]

-- How the first piece of a text was read.
theorem first_cases {offset : Nat} {c : Char} {t rest : Text} {p : Piece}
    (h : first offset c t = .ok (p, rest)) :
    (∃ body, c = '(' ∧ closeGroup offset (offset + c.utf8Size) 0 t = .ok (body, rest) ∧
      p = ⟨.group, c :: body, offset⟩) ∨
    (∃ body, isQuote c = true ∧ closeQuote? c t = some (body, rest) ∧
      p = ⟨.quoted, c :: body, offset⟩) ∨
    (c ≠ '(' ∧ isQuote c = false ∧ p = ⟨.word, c :: t.takeWhile inWord, offset⟩ ∧
      rest = t.dropWhile inWord) := by
  unfold first at h
  by_cases hp : c = '('
  · rw [if_pos hp] at h
    obtain ⟨body, hg, rfl⟩ :=
      (map_fst_eq_ok_iff (f := fun body => Piece.mk .group (c :: body) offset)).mp h
    exact .inl ⟨body, hp, hg, rfl⟩
  · rw [if_neg hp] at h
    by_cases hc : isQuote c = true
    · rw [if_pos hc] at h
      cases hq : closeQuote? c t with
      | none => rw [hq] at h; cases h
      | some read =>
        rw [hq] at h
        obtain ⟨rfl, rfl⟩ := Prod.mk.inj (Except.ok.inj h)
        exact .inr (.inl ⟨read.1, hc, rfl, rfl⟩)
    · rw [if_neg hc] at h
      obtain ⟨rfl, rfl⟩ := Prod.mk.inj (Except.ok.inj h)
      exact .inr (.inr ⟨hp, by simpa using hc, rfl, rfl⟩)

theorem start_of_first {offset : Nat} {c : Char} {t rest : Text} {p : Piece}
    (h : first offset c t = .ok (p, rest)) : p.start = offset := by
  rcases first_cases h with ⟨_, _, _, rfl⟩ | ⟨_, _, _, rfl⟩ | ⟨_, _, rfl, _⟩ <;> rfl

theorem tail_text_of_first {offset : Nat} {c : Char} {t rest : Text} {p : Piece}
    (h : first offset c t = .ok (p, rest)) : p.text.tail ++ rest = t := by
  rcases first_cases h with ⟨body, _, hg, rfl⟩ | ⟨body, _, hq, rfl⟩ | ⟨_, _, rfl, rfl⟩
  · exact (closeGroup_eq_append hg).symm
  · exact (closeQuote?_eq_append hq).symm
  · exact List.takeWhile_append_dropWhile

theorem text_of_first {offset : Nat} {c : Char} {t rest : Text} {p : Piece}
    (h : first offset c t = .ok (p, rest)) : p.text = c :: p.text.tail := by
  rcases first_cases h with ⟨_, _, _, rfl⟩ | ⟨_, _, _, rfl⟩ | ⟨_, _, rfl, _⟩ <;> rfl

-- A piece is as long as it can be.
theorem endsBefore_of_first {offset : Nat} {c : Char} {t rest : Text} {p : Piece}
    (h : first offset c t = .ok (p, rest)) : p.EndsBefore rest := by
  rcases first_cases h with ⟨body, _, hg, rfl⟩ | ⟨body, _, hq, rfl⟩ | ⟨_, _, rfl, rfl⟩
  · trivial
  · exact head?_of_closeQuote? hq
  · intro d hd
    have := List.head?_dropWhile_not inWord t
    rw [Option.mem_def.mp hd] at this
    exact this

theorem word_append {w u : Text} (hw : ∀ c ∈ w, inWord c = true)
    (hu : ∀ c ∈ u.head?, inWord c = false) :
    (w ++ u).takeWhile inWord = w ∧ (w ++ u).dropWhile inWord = u := by
  rw [List.takeWhile_append_of_pos hw, List.dropWhile_append_of_pos hw]
  cases u with
  | nil => simp
  | cons d u => simp [hu d (by simp)]

-- What follows the first piece can be exchanged.
theorem first_exchange {offset : Nat} {c : Char} {t rest u : Text} {p : Piece}
    (h : first offset c t = .ok (p, rest)) (hu : p.EndsBefore u) :
    first offset c (p.text.tail ++ u) = .ok (p, u) := by
  rcases first_cases h with ⟨body, rfl, hg, rfl⟩ | ⟨body, hc, hq, rfl⟩ | ⟨hp, hc, rfl, rfl⟩
  · exact first_group (closeGroup_exchange hg u)
  · exact first_quoted hc (closeQuote?_exchange hq hu)
  · obtain ⟨htake, hdrop⟩ := word_append (fun d hd => List.mem_takeWhile_imp hd) hu
    rw [first_word hp hc, List.tail_cons, htake, hdrop]

theorem endsBefore_nil {offset : Nat} {c : Char} {t rest : Text} {p : Piece}
    (h : first offset c t = .ok (p, rest)) : p.EndsBefore [] := by
  rcases first_cases h with ⟨_, _, _, rfl⟩ | ⟨_, _, _, rfl⟩ | ⟨_, _, rfl, _⟩ <;>
    simp [EndsBefore]

-- A blank ends every piece, and does so after what the piece was followed by.
theorem endsBefore_append {offset : Nat} {c : Char} {t rest u : Text} {p : Piece}
    (h : first offset c t = .ok (p, rest)) (hu : ∀ d ∈ u.head?, isBlank d = true) :
    p.EndsBefore (rest ++ u) := by
  cases rest with
  | nil =>
    rcases first_cases h with ⟨_, _, _, rfl⟩ | ⟨_, hc, _, rfl⟩ | ⟨_, _, rfl, _⟩
    · trivial
    · intro hd
      have := hu c hd
      simp [isBlank_of_isQuote hc] at this
    · intro d hd
      simp [inWord, hu d hd]
  | cons d rest => exact (endsBefore_of_first h).congr rfl

/-! ## The pieces of a text -/

theorem scanFrom_nil (offset : Nat) : scanFrom offset [] = ([], none) := by
  rw [scanFrom]

theorem scanFrom_blank {c : Char} (hc : isBlank c = true) (offset : Nat) (t : Text) :
    scanFrom offset (c :: t) = scanFrom (offset + c.utf8Size) t := by
  rw [scanFrom]
  simp [hc]

theorem scanFrom_error {offset : Nat} {c : Char} {t : Text} {fault : ScanFault}
    (hc : isBlank c = false) (h : first offset c t = .error fault) :
    scanFrom offset (c :: t) = ([], some fault) := by
  rw [scanFrom]
  simp only [hc, Bool.false_eq_true, if_false]
  split <;> simp_all

theorem scanFrom_piece {offset : Nat} {c : Char} {t rest : Text} {p : Piece}
    (hc : isBlank c = false) (h : first offset c t = .ok (p, rest)) :
    scanFrom offset (c :: t) = (p :: (scanFrom p.stop rest).1, (scanFrom p.stop rest).2) := by
  rw [scanFrom]
  simp only [hc, Bool.false_eq_true, if_false]
  split <;> simp_all

theorem scan_eq_ok_iff {t : Text} {ps : List Piece} :
    scan t = .ok ps ↔ scanFrom 0 t = (ps, none) := by
  unfold scan
  split <;> simp_all

theorem scan_eq_error_iff {t : Text} {fault : ScanFault} :
    scan t = .error fault ↔ (scanFrom 0 t).2 = some fault := by
  unfold scan
  split <;> simp_all

theorem scanFrom_blanks {w : Text} (hw : ∀ c ∈ w, isBlank c = true) (offset : Nat) (t : Text) :
    scanFrom offset (w ++ t) = scanFrom (offset + w.utf8Size) t := by
  induction w generalizing offset with
  | nil => rfl
  | cons c w ih =>
    obtain ⟨hc, hw⟩ := List.forall_mem_cons.mp hw
    rw [List.cons_append, scanFrom_blank hc, ih hw, Text.utf8Size_cons, Nat.add_assoc]

-- A text with blanks after it is scanned on its own, and so is what comes after.
theorem scanFrom_append {offset : Nat} {a u : Text} {ps : List Piece}
    (h : scanFrom offset a = (ps, none)) (hu : ∀ d ∈ u.head?, isBlank d = true) :
    scanFrom offset (a ++ u) =
      (ps ++ (scanFrom (offset + a.utf8Size) u).1, (scanFrom (offset + a.utf8Size) u).2) := by
  fun_induction scanFrom offset a generalizing ps with
  | case1 offset => simp_all
  | case2 offset c t hc ih =>
    rw [List.cons_append, scanFrom_blank hc, ih h, Text.utf8Size_cons, Nat.add_assoc]
  | case3 => simp at h
  | case4 offset c t hc p rest hf pieces fault hs ih =>
    simp only [Prod.mk.injEq] at h
    obtain ⟨rfl, rfl⟩ := h
    -- The text after the first piece has changed, but goes on with it no more than before.
    have hfirst : first offset c (t ++ u) = .ok (p, rest ++ u) := by
      have := first_exchange hf (endsBefore_append hf hu)
      rwa [← List.append_assoc, tail_text_of_first hf] at this
    have hstop : p.stop + rest.utf8Size = offset + Text.utf8Size (c :: t) := by
      rw [stop, start_of_first hf, text_of_first hf, ← tail_text_of_first hf]
      simp only [Text.utf8Size_cons, Text.utf8Size_append]
      omega
    rw [List.cons_append, scanFrom_piece (by simpa using hc) hfirst, ih hs, ← hstop]
    rfl

/-! ## Where a text starts -/

/-- The piece, found so many bytes later. -/
def shift (n : Nat) (p : Piece) : Piece := { p with start := p.start + n }

theorem stop_shift (n : Nat) (p : Piece) : (p.shift n).stop = p.stop + n :=
  Nat.add_right_comm p.start n p.text.utf8Size

end Piece

/-- The fault, found so many bytes later. -/
def ScanFault.shift (n : Nat) (fault : ScanFault) : ScanFault :=
  { fault with offset := fault.offset + n }

namespace Piece

theorem closeGroup_shift (n start offset depth : Nat) (t : Text) :
    closeGroup (start + n) (offset + n) depth t =
      (closeGroup start offset depth t).mapError (ScanFault.shift n) := by
  fun_induction closeGroup start offset depth t with
  | case1 => rw [closeGroup]; rfl
  | case2 offset depth c t hc hq => rw [closeGroup_quote_error hc hq]; rfl
  | case3 offset depth c t hc literal tail hq ih =>
    rw [closeGroup_quote hc hq, show offset + n + c.utf8Size + literal.utf8Size =
      offset + c.utf8Size + literal.utf8Size + n by omega, ih]
    cases closeGroup start (offset + c.utf8Size + literal.utf8Size) depth tail <;> rfl
  | case4 offset depth c t hc hd => rw [hd.1, hd.2, closeGroup_close]; rfl
  | case5 offset depth c t hc hd ih =>
    rw [closeGroup_step (by simpa using hc) hd, Nat.add_right_comm, ih]
    cases closeGroup start (offset + c.utf8Size) (depthAfter c depth) t <;> rfl

theorem first_shift (n offset : Nat) (c : Char) (t : Text) :
    first (offset + n) c t =
      ((first offset c t).mapError (ScanFault.shift n)).map fun (p, rest) => (p.shift n, rest) := by
  unfold first
  split
  · rw [Nat.add_right_comm, closeGroup_shift]
    cases closeGroup offset (offset + c.utf8Size) 0 t <;> rfl
  · split
    · cases closeQuote? c t <;> rfl
    · rfl

-- A text that starts later has the same pieces, all of them so much later.
theorem scanFrom_shift (n offset : Nat) (t : Text) :
    scanFrom (offset + n) t =
      ((scanFrom offset t).1.map (shift n), (scanFrom offset t).2.map (ScanFault.shift n)) := by
  fun_induction scanFrom offset t with
  | case1 offset => rw [scanFrom_nil]; rfl
  | case2 offset c t hc ih => rw [scanFrom_blank hc, Nat.add_right_comm, ih]
  | case3 offset c t hc fault hf =>
    have hf : first (offset + n) c t = .error (fault.shift n) := by rw [first_shift, hf]; rfl
    rw [scanFrom_error (by simpa using hc) hf]
    rfl
  | case4 offset c t hc p rest hf pieces fault hs ih =>
    have hf : first (offset + n) c t = .ok (p.shift n, rest) := by rw [first_shift, hf]; rfl
    rw [scanFrom_piece (by simpa using hc) hf, stop_shift, ih, hs]
    rfl

/-! ## Texts with blanks between them -/

theorem scanFrom_append_blanks {a w : Text} {ps : List Piece} (ha : scanFrom 0 a = (ps, none))
    (hne : w ≠ []) (hw : ∀ c ∈ w, isBlank c = true) (b : Text) :
    scanFrom 0 (a ++ w ++ b) =
      (ps ++ (scanFrom 0 b).1.map (shift (Text.utf8Size (a ++ w))),
        (scanFrom 0 b).2.map (ScanFault.shift (Text.utf8Size (a ++ w)))) := by
  have hhead : ∀ d ∈ (w ++ b).head?, isBlank d = true := by
    obtain ⟨d, w, rfl⟩ := List.exists_cons_of_ne_nil hne
    rintro _ ⟨⟩
    exact hw d List.mem_cons_self
  have hshift := scanFrom_shift (Text.utf8Size (a ++ w)) 0 b
  rw [List.append_assoc, scanFrom_append ha hhead, scanFrom_blanks hw, Nat.add_assoc,
    ← Text.utf8Size_append, hshift]

/-- Blanks keep texts apart. Behind a text that can be scanned and blanks, a text has the pieces it
has alone, or the fault it has alone, all of them so many bytes later. -/
theorem scan_append_blanks {a w : Text} {ps : List Piece} (ha : scan a = .ok ps) (hne : w ≠ [])
    (hw : ∀ c ∈ w, isBlank c = true) (b : Text) :
    let n := Text.utf8Size (a ++ w)
    ((∃ rs, scan (a ++ w ++ b) = .ok rs) ↔ ∃ qs, scan b = .ok qs) ∧
      (∀ qs, scan b = .ok qs → scan (a ++ w ++ b) = .ok (ps ++ qs.map (shift n))) ∧
      ∀ fault, scan b = .error fault →
        scan (a ++ w ++ b) = .error ⟨fault.cause, fault.offset + n⟩ := by
  intro n
  have hscan := scanFrom_append_blanks (scan_eq_ok_iff.mp ha) hne hw b
  have hok (qs : List Piece) (hb : scan b = .ok qs) :
      scan (a ++ w ++ b) = .ok (ps ++ qs.map (shift n)) := by
    rw [scan_eq_ok_iff, hscan, scan_eq_ok_iff.mp hb]
    rfl
  have herror (fault : ScanFault) (hb : scan b = .error fault) :
      scan (a ++ w ++ b) = .error ⟨fault.cause, fault.offset + n⟩ := by
    rw [scan_eq_error_iff, hscan, scan_eq_error_iff.mp hb]
    rfl
  refine ⟨⟨?_, fun ⟨qs, hb⟩ => ⟨_, hok qs hb⟩⟩, hok, herror⟩
  rintro ⟨rs, hrs⟩
  cases hb : scan b with
  | ok qs => exact ⟨qs, rfl⟩
  | error fault =>
    rw [herror fault hb] at hrs
    cases hrs

-- Without the blanks the two quotes between the texts would be a doubled one.
theorem scan_append_blanks_quotes :
    scan ("é 'it''s'" ++ "\u00A0\t" ++ "'s' (b)") =
        .ok [⟨.word, "é", 0⟩, ⟨.quoted, "'it''s'", 3⟩, ⟨.quoted, "'s'", 13⟩, ⟨.group, "(b)", 17⟩] ∧
      scan ("é 'it''s'" ++ "\u00A0\t" ++ "'s' (b") = .error ⟨.unbalancedParentheses, 17⟩ := by
  have ha : scan "é 'it''s'" = .ok [⟨.word, "é", 0⟩, ⟨.quoted, "'it''s'", 3⟩] := by decide +kernel
  have hok : scan "'s' (b)" = .ok [⟨.quoted, "'s'", 0⟩, ⟨.group, "(b)", 4⟩] := by decide +kernel
  have herror : scan "'s' (b" = .error ⟨.unbalancedParentheses, 4⟩ := by decide +kernel
  have hblank : ∀ c ∈ ("\u00A0\t" : Text), isBlank c = true :=
    List.forall_mem_cons.mpr ⟨by decide, List.forall_mem_singleton.mpr (by decide)⟩
  exact ⟨(scan_append_blanks ha (by decide) hblank _).2.1 _ hok,
    (scan_append_blanks ha (by decide) hblank _).2.2 _ herror⟩

/-! ## A piece on its own -/

/-- The piece, found at the given offset. -/
def moveTo (offset : Nat) (p : Piece) : Piece := { p with start := offset }

/-- Whether the text of the piece, taken alone, is scanned as this piece. -/
def Lone (p : Piece) : Prop := scan p.text = .ok [p.moveTo 0]

instance (p : Piece) : Decidable p.Lone := inferInstanceAs (Decidable (_ = _))

theorem Lone.scanFrom {p : Piece} (h : p.Lone) (offset : Nat) :
    scanFrom offset p.text = ([p.moveTo offset], none) := by
  have := scanFrom_shift offset 0 p.text
  rw [scan_eq_ok_iff.mp h, Nat.zero_add] at this
  simpa [moveTo, shift] using this

-- The first piece of a text stays what it is when the rest is taken away.
theorem lone_of_first {offset : Nat} {c : Char} {t rest : Text} {p : Piece}
    (hc : isBlank c = false) (h : first offset c t = .ok (p, rest)) : p.Lone := by
  have hfirst : first (0 + offset) c p.text.tail = .ok (p, []) := by
    rw [Nat.zero_add]
    simpa using first_exchange h (endsBefore_nil h)
  -- Standing alone the text starts at byte 0, so the piece is found where it is moved to.
  rw [first_shift] at hfirst
  obtain ⟨q, hq, rfl⟩ := map_fst_eq_ok_iff.mp hfirst
  have hq : first 0 c q.text.tail = .ok (q, []) := mapError_eq_ok_iff.mp hq
  have hmove : (q.shift offset).moveTo 0 = q := by rw [← start_of_first hq]; rfl
  rw [Lone, hmove, scan_eq_ok_iff]
  change Piece.scanFrom 0 q.text = _
  rw [text_of_first hq, scanFrom_piece hc hq, scanFrom_nil]

-- Every piece of a text is the first of what is left where it starts.
theorem first_of_mem {offset : Nat} {t : Text} {p : Piece} (h : p ∈ (scanFrom offset t).1) :
    ∃ offset c t rest, isBlank c = false ∧ first offset c t = .ok (p, rest) := by
  fun_induction scanFrom offset t with
  | case1 => simp at h
  | case2 offset c t hc ih => exact ih h
  | case3 => simp at h
  | case4 offset c t hc q rest hf pieces fault hs ih =>
    rcases List.mem_cons.mp h with rfl | h
    · exact ⟨offset, c, t, rest, by simpa using hc, hf⟩
    · exact ih (by rw [hs]; exact h)

theorem lone_of_mem {offset : Nat} {t : Text} {p : Piece} (h : p ∈ (scanFrom offset t).1) :
    p.Lone := by
  obtain ⟨offset, c, t, rest, hc, hfirst⟩ := first_of_mem h
  exact lone_of_first hc hfirst

/-- The texts of the pieces, with a blank before each. -/
def spaced (ps : List Piece) : Text := ps.flatMap fun p => ' ' :: p.text

theorem spaced_append (ps qs : List Piece) : spaced (ps ++ qs) = spaced ps ++ spaced qs :=
  List.flatMap_append

theorem spaced_cons (p : Piece) (ps : List Piece) :
    spaced (p :: ps) = ' ' :: (p.text ++ spaced ps) :=
  rfl

theorem spaced_singleton (p : Piece) : spaced [p] = ' ' :: p.text := by
  rw [spaced_cons, spaced, List.flatMap_nil, List.append_nil]

theorem spaced_moveTo (offset : Nat) (ps : List Piece) :
    spaced (ps.map (moveTo offset)) = spaced ps := by
  rw [spaced, List.flatMap_map, spaced]
  rfl

theorem isBlank_head_spaced (ps : List Piece) : ∀ c ∈ (spaced ps).head?, isBlank c = true := by
  cases ps with
  | nil => simp [spaced]
  | cons p ps =>
    intro c hc
    obtain rfl : ' ' = c := by simpa [spaced_cons] using hc
    decide

-- Pieces that are written with blanks between them are read again, if each is a piece alone.
theorem scanFrom_spaced {ps : List Piece} (h : ∀ p ∈ ps, p.Lone) (offset : Nat) :
    ∃ qs, scanFrom offset (spaced ps) = (qs, none) ∧ qs.map (moveTo 0) = ps.map (moveTo 0) := by
  -- The offset is any, since each piece moves those after it.
  induction ps generalizing offset with
  | nil => exact ⟨[], scanFrom_nil offset, rfl⟩
  | cons p ps ih =>
    have hp : p.Lone := h p (by simp)
    obtain ⟨qs, hqs, hmove⟩ := ih (fun q hq => h q (by simp [hq]))
      (offset + ' '.utf8Size + p.text.utf8Size)
    refine ⟨p.moveTo (offset + ' '.utf8Size) :: qs, ?_, ?_⟩
    · rw [spaced_cons, scanFrom_blank (by decide),
        scanFrom_append (hp.scanFrom _) (isBlank_head_spaced ps), hqs]
      rfl
    · rw [List.map_cons, List.map_cons, hmove]
      rfl

-- The blank before the first piece can be left out.
theorem scan_spaced {ps : List Piece} (h : ∀ p ∈ ps, p.Lone) {t : Text}
    (ht : ' ' :: t = spaced ps) :
    ∃ qs, scan t = .ok qs ∧ qs.map (moveTo 0) = ps.map (moveTo 0) := by
  obtain ⟨qs, hqs, hmove⟩ := scanFrom_spaced h 0
  rw [← ht, scanFrom_blank (by decide), scanFrom_shift, Prod.mk.injEq] at hqs
  obtain ⟨hpieces, hfault⟩ := hqs
  refine ⟨(Piece.scanFrom 0 t).1, ?_, ?_⟩
  · rw [scan_eq_ok_iff]
    exact Prod.ext rfl (Option.map_eq_none_iff.mp hfault)
  · have hshift : moveTo 0 ∘ shift (' ' : Char).utf8Size = moveTo 0 := rfl
    rw [← hmove, ← hpieces, List.map_map, hshift]

end Piece

end AnnotatedSchema
