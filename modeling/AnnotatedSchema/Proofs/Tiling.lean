import AnnotatedSchema.Proofs.Grammar

/-!
# Pieces tile the text

The scanner asks for piece after piece of a text. Each piece takes it on by a character at least, so
the scan of every text ends. The pieces are slices of the text, one behind the other, and all that
lies between them is blank. A fault names the byte of the quote or bracket that stays open.
-/

namespace AnnotatedSchema

namespace Text

/-! ## Slices of a text -/

/-- The text from the given byte on, if a character starts there or the text ends there. -/
def fromByte? (offset : Nat) : Text → Option Text
  | [] => if offset = 0 then some [] else none
  | c :: t =>
    if offset = 0 then some (c :: t)
    else if c.utf8Size ≤ offset then fromByte? (offset - c.utf8Size) t
    else none

/-- The first bytes of the text, so many of them, if they are whole characters. -/
def firstBytes? (n : Nat) : Text → Option Text
  | [] => if n = 0 then some [] else none
  | c :: t =>
    if n = 0 then some []
    else if c.utf8Size ≤ n then (firstBytes? (n - c.utf8Size) t).map (c :: ·)
    else none

/-- The text between two bytes, if both are boundaries of characters. -/
def slice? (start stop : Nat) (t : Text) : Option Text :=
  if start ≤ stop then (t.fromByte? start).bind (firstBytes? (stop - start)) else none

theorem fromByte?_append (u t : Text) (offset : Nat) :
    fromByte? (u.utf8Size + offset) (u ++ t) = fromByte? offset t := by
  induction u with
  | nil => simp
  | cons c u ih =>
    have hpos := c.utf8Size_pos
    have hrest : utf8Size (c :: u) + offset - c.utf8Size = utf8Size u + offset := by
      rw [utf8Size_cons]
      omega
    rw [List.cons_append, fromByte?, if_neg (by rw [utf8Size_cons]; omega),
      if_pos (by rw [utf8Size_cons]; omega), hrest, ih]

theorem fromByte?_zero (t : Text) : fromByte? 0 t = some t := by
  cases t <;> rfl

theorem firstBytes?_append (u t : Text) : firstBytes? u.utf8Size (u ++ t) = some u := by
  induction u with
  | nil => cases t <;> rfl
  | cons c u ih =>
    have hpos := c.utf8Size_pos
    have hrest : utf8Size (c :: u) - c.utf8Size = utf8Size u := by
      rw [utf8Size_cons]
      omega
    rw [List.cons_append, firstBytes?, if_neg (by rw [utf8Size_cons]; omega),
      if_pos (by rw [utf8Size_cons]; omega), hrest, ih, Option.map_some]

theorem slice?_append (u t : Text) (start stop : Nat) :
    slice? (u.utf8Size + start) (u.utf8Size + stop) (u ++ t) = slice? start stop t := by
  unfold slice?
  rw [fromByte?_append, Nat.add_sub_add_left]
  by_cases h : start ≤ stop
  · rw [if_pos h, if_pos (by omega)]
  · rw [if_neg h, if_neg (by omega)]

theorem slice?_prefix (u t : Text) : slice? 0 u.utf8Size (u ++ t) = some u := by
  rw [slice?, if_pos (Nat.zero_le _), fromByte?_zero, Option.bind_some, Nat.sub_zero,
    firstBytes?_append]

theorem utf8Size_pos {t : Text} (h : t ≠ []) : 0 < t.utf8Size := by
  cases t with
  | nil => exact absurd rfl h
  | cons c t =>
    have hpos := c.utf8Size_pos
    rw [utf8Size_cons]
    omega

end Text

/-- The characters that open what a fault leaves open. -/
def ScanFault.Cause.openers : ScanFault.Cause → List Char
  | unterminatedQuote => ['\'', '"', '\x60']
  | unbalancedParentheses => ['(']

theorem ScanFault.Cause.mem_openers {c : Char} (h : isQuote c = true) :
    c ∈ unterminatedQuote.openers := by
  simpa [openers, isQuote, or_assoc] using h

/-- The fault is at a character of the text, which starts at byte `offset`, and the character opens
what the fault leaves open. -/
def ScanFault.PointsInto (fault : ScanFault) (offset : Nat) (t : Text) : Prop :=
  ∃ before c after, t = before ++ c :: after ∧
    fault.offset = offset + Text.utf8Size before ∧ c ∈ fault.cause.openers

theorem ScanFault.PointsInto.prepend {fault : ScanFault} {offset : Nat} {u t : Text}
    (h : fault.PointsInto (offset + u.utf8Size) t) : fault.PointsInto offset (u ++ t) := by
  obtain ⟨before, c, after, rfl, hoffset, hc⟩ := h
  refine ⟨u ++ before, c, after, (List.append_assoc ..).symm, ?_, hc⟩
  rw [hoffset, Text.utf8Size_append, Nat.add_assoc]

namespace Piece

/-! ## Pieces one after the other -/

/-- The next piece of a text that starts at byte `offset`, and what comes after it. In a blank text
there is none. -/
def next? (offset : Nat) : Text → Except ScanFault (Option (Piece × Text))
  | [] => .ok none
  | c :: t => if isBlank c then next? (offset + c.utf8Size) t else (first offset c t).map some

/-- The next piece is asked for until there is none, or up to a fault. -/
inductive Run : Nat → Text → Except ScanFault (List Piece) → Prop
  | done {offset : Nat} {t : Text} (h : next? offset t = .ok none) : Run offset t (.ok [])
  | fault {offset : Nat} {t : Text} {fault : ScanFault} (h : next? offset t = .error fault) :
      Run offset t (.error fault)
  | piece {offset : Nat} {t : Text} {p : Piece} {rest : Text}
      {result : Except ScanFault (List Piece)} (h : next? offset t = .ok (some (p, rest)))
      (hrest : Run p.stop rest result) : Run offset t (result.map (p :: ·))

/-- The byte is one of the piece. -/
structure Covers (p : Piece) (byte : Nat) : Prop where
  start_le : p.start ≤ byte
  lt_stop : byte < p.stop

/-- How the pieces lie in a text that starts at byte `offset`. -/
structure Tiles (offset : Nat) (t : Text) (ps : List Piece) : Prop where
  inside : ∀ p ∈ ps, offset ≤ p.start
  nonempty : ∀ p ∈ ps, p.start < p.stop
  ordered : ps.Pairwise fun p q => p.stop ≤ q.start
  sliced : ∀ p ∈ ps, t.slice? (p.start - offset) (p.stop - offset) = some p.text
  between : ∀ before c after, t = before ++ c :: after →
    (∀ p ∈ ps, ¬p.Covers (offset + Text.utf8Size before)) → isBlank c = true

/-- How the text of a piece of each kind looks. -/
def WellFormed (p : Piece) : Prop :=
  match p.kind with
  | .word => ∀ c ∈ p.text, isBlank c = false ∧ c ≠ '('
  | .quoted => ∃ q body, isQuote q = true ∧ p.text = q :: (body ++ [q])
  | .group => ∃ body, p.text = '(' :: (body ++ [')'])

/-! ## The next piece -/

theorem next?_blank {c : Char} (hc : isBlank c = true) (offset : Nat) (t : Text) :
    next? offset (c :: t) = next? (offset + c.utf8Size) t := by
  rw [next?, if_pos hc]

theorem next?_first {c : Char} (hc : isBlank c = false) (offset : Nat) (t : Text) :
    next? offset (c :: t) = (first offset c t).map some := by
  rw [next?, if_neg (by simp [hc])]

theorem wellFormed_of_first {offset : Nat} {c : Char} {t rest : Text} {p : Piece}
    (hc : isBlank c = false) (h : first offset c t = .ok (p, rest)) : p.WellFormed := by
  rcases first_cases h with ⟨body, rfl, hbody, rfl⟩ | ⟨body, hquote, hbody, rfl⟩ | ⟨hp, -, rfl, -⟩
  · cases closes_of_closeGroup hbody with
    | @last u hu => exact ⟨u, rfl⟩
  · obtain ⟨inner, -, rfl⟩ := isLiteralBody_of_closeQuote? hbody
    exact ⟨c, inner, hquote, rfl⟩
  · refine List.forall_mem_cons.mpr ⟨⟨hc, hp⟩, fun d hd => ?_⟩
    have hword : inWord d = true := List.mem_takeWhile_imp hd
    simpa [inWord] using hword

-- What a piece leaves out before it is blank, and it takes at least one character.
theorem next?_eq_ok_some {offset : Nat} {t rest : Text} {p : Piece}
    (h : next? offset t = .ok (some (p, rest))) :
    ∃ gap, t = gap ++ (p.text ++ rest) ∧ (∀ c ∈ gap, isBlank c = true) ∧
      p.start = offset + gap.utf8Size ∧ p.text ≠ [] ∧ p.WellFormed := by
  fun_induction next? offset t with
  | case1 => cases h
  | case2 offset c t hc ih =>
    obtain ⟨gap, rfl, hgap, hstart, hpiece⟩ := ih h
    refine ⟨c :: gap, rfl, List.forall_mem_cons.mpr ⟨hc, hgap⟩, ?_, hpiece⟩
    rw [hstart, Text.utf8Size_cons, Nat.add_assoc]
  | case3 offset c t hc =>
    have hc : isBlank c = false := by simpa using hc
    obtain ⟨read, hfirst, hread⟩ := map_eq_ok_iff.mp h
    obtain rfl := Option.some.inj hread
    have htext := text_of_first hfirst
    refine ⟨[], ?_, List.forall_mem_nil _, start_of_first hfirst, ?_, wellFormed_of_first hc hfirst⟩
    · rw [List.nil_append, htext, List.cons_append, tail_text_of_first hfirst]
    · rw [htext]
      exact List.cons_ne_nil _ _

theorem isBlank_of_next?_eq_none {offset : Nat} {t : Text} (h : next? offset t = .ok none) :
    ∀ c ∈ t, isBlank c = true := by
  fun_induction next? offset t with
  | case1 => exact List.forall_mem_nil _
  | case2 offset c t hc ih => exact List.forall_mem_cons.mpr ⟨hc, ih h⟩
  | case3 offset c t hc =>
    obtain ⟨read, -, hread⟩ := map_eq_ok_iff.mp h
    cases hread

theorem first_eq_error {offset : Nat} {c : Char} {t : Text} {fault : ScanFault}
    (h : first offset c t = .error fault) : fault.PointsInto offset (c :: t) := by
  by_cases hp : c = '('
  · obtain rfl := hp
    rcases stays_of_closeGroup (first_error.mp h) with ⟨-, rfl⟩ |
      ⟨before, q, after, rfl, -, hq, -, rfl⟩
    · exact ⟨[], '(', t, rfl, rfl, List.mem_singleton_self _⟩
    · refine ⟨'(' :: before, q, after, rfl, ?_, ScanFault.Cause.mem_openers hq⟩
      rw [Text.utf8Size_cons, Nat.add_assoc]
  · by_cases hc : isQuote c = true
    · rw [first, if_neg hp, if_pos hc] at h
      split at h
      · obtain rfl := Except.error.inj h
        exact ⟨[], c, t, rfl, rfl, ScanFault.Cause.mem_openers hc⟩
      · cases h
    · rw [first_word hp (by simpa using hc)] at h
      cases h

theorem next?_eq_error {offset : Nat} {t : Text} {fault : ScanFault}
    (h : next? offset t = .error fault) : fault.PointsInto offset t := by
  fun_induction next? offset t with
  | case1 => cases h
  | case2 offset c t hc ih => exact .prepend (u := [c]) (ih h)
  | case3 offset c t hc => exact first_eq_error (map_eq_error_iff.mp h)

/-! ## The whole scan -/

theorem tiles_nil {offset : Nat} {t : Text} (h : ∀ c ∈ t, isBlank c = true) :
    Tiles offset t [] where
  inside := List.forall_mem_nil _
  nonempty := List.forall_mem_nil _
  ordered := .nil
  sliced := List.forall_mem_nil _
  between before c after ht _ := h c (by simp [ht])

theorem Tiles.cons {offset : Nat} {gap rest : Text} {p : Piece} {ps : List Piece}
    (h : Tiles p.stop rest ps) (hgap : ∀ c ∈ gap, isBlank c = true)
    (hstart : p.start = offset + gap.utf8Size) (hp : p.text ≠ []) :
    Tiles offset (gap ++ (p.text ++ rest)) (p :: ps) := by
  have hpos := Text.utf8Size_pos hp
  have hstop : p.stop = p.start + p.text.utf8Size := rfl
  refine ⟨?_, ?_, ?_, ?_, ?_⟩
  · refine List.forall_mem_cons.mpr ⟨by omega, fun q hq => ?_⟩
    have := h.inside q hq
    omega
  · exact List.forall_mem_cons.mpr ⟨by omega, h.nonempty⟩
  · exact List.pairwise_cons.mpr ⟨h.inside, h.ordered⟩
  · refine List.forall_mem_cons.mpr ⟨?_, fun q hq => ?_⟩
    · rw [show p.start - offset = gap.utf8Size + 0 by omega,
        show p.stop - offset = gap.utf8Size + p.text.utf8Size by omega, Text.slice?_append,
        Text.slice?_prefix]
    · have hinside := h.inside q hq
      have hnonempty := h.nonempty q hq
      rw [← List.append_assoc,
        show q.start - offset = (gap ++ p.text).utf8Size + (q.start - p.stop) by
          rw [Text.utf8Size_append]; omega,
        show q.stop - offset = (gap ++ p.text).utf8Size + (q.stop - p.stop) by
          rw [Text.utf8Size_append]; omega, Text.slice?_append]
      exact h.sliced q hq
  · intro before c after ht hout
    obtain ⟨hfirst, hrest⟩ := List.forall_mem_cons.mp hout
    rcases Text.append_eq_append_cons ht with ⟨w, rfl⟩ | ⟨w, rfl, hw⟩
    · exact hgap c (by simp)
    · rw [Text.utf8Size_append] at hfirst hrest
      rcases Text.append_eq_append_cons hw with ⟨v, hv⟩ | ⟨v, rfl, hv⟩
      · -- The character is one of the piece itself.
        have hsize := congrArg Text.utf8Size hv
        have hc := c.utf8Size_pos
        rw [Text.utf8Size_append, Text.utf8Size_cons] at hsize
        exact absurd ⟨by omega, by omega⟩ hfirst
      · apply h.between v c after hv
        intro q hq hin
        rw [Text.utf8Size_append] at hrest
        have := hin.start_le
        have := hin.lt_stop
        exact hrest q hq ⟨by omega, by omega⟩

theorem Run.tiles {offset : Nat} {t : Text} {result : Except ScanFault (List Piece)}
    (h : Run offset t result) {ps : List Piece} (hps : result = .ok ps) :
    Tiles offset t ps ∧ ∀ p ∈ ps, p.WellFormed := by
  induction h generalizing ps with
  | done hnext =>
    obtain rfl := Except.ok.inj hps
    exact ⟨tiles_nil (isBlank_of_next?_eq_none hnext), List.forall_mem_nil _⟩
  | fault => cases hps
  | piece hnext _ ih =>
    obtain ⟨ps, rfl, rfl⟩ := map_eq_ok_iff.mp hps
    obtain ⟨gap, rfl, hgap, hstart, hp, hform⟩ := next?_eq_ok_some hnext
    obtain ⟨htiles, hforms⟩ := ih rfl
    exact ⟨htiles.cons hgap hstart hp, List.forall_mem_cons.mpr ⟨hform, hforms⟩⟩

theorem Run.eq_error {offset : Nat} {t : Text} {result : Except ScanFault (List Piece)}
    (h : Run offset t result) {fault : ScanFault} (hfault : result = .error fault) :
    fault.PointsInto offset t := by
  induction h with
  | done => cases hfault
  | fault hnext =>
    obtain rfl := Except.error.inj hfault
    exact next?_eq_error hnext
  | piece hnext _ ih =>
    have hrest := ih (map_eq_error_iff.mp hfault)
    obtain ⟨gap, rfl, -, hstart, -⟩ := next?_eq_ok_some hnext
    rw [stop, hstart] at hrest
    exact hrest.prepend.prepend

theorem Run.blank {offset : Nat} {c : Char} {t : Text} {result : Except ScanFault (List Piece)}
    (hc : isBlank c = true) (h : Run (offset + c.utf8Size) t result) :
    Run offset (c :: t) result := by
  cases h with
  | done h => exact .done (by rwa [next?_blank hc])
  | fault h => exact .fault (by rwa [next?_blank hc])
  | piece h hrest => exact .piece (by rwa [next?_blank hc]) hrest

/-- The scan of a text is what comes of asking for its pieces. -/
theorem run_scanFrom (offset : Nat) (t : Text) :
    Run offset t ((scanFrom offset t).2.elim (.ok (scanFrom offset t).1) .error) := by
  fun_induction scanFrom offset t with
  | case1 offset => exact .done rfl
  | case2 offset c t hc ih => exact ih.blank hc
  | case3 offset c t hc fault hf =>
    exact .fault (by rw [next?_first (by simpa using hc), hf]; rfl)
  | case4 offset c t hc p rest hf pieces fault hs ih =>
    rw [hs] at ih
    have hnext : next? offset (c :: t) = .ok (some (p, rest)) := by
      rw [next?_first (by simpa using hc), hf]
      rfl
    have hrun := Run.piece hnext ih
    cases fault <;> exact hrun

theorem run_scan (t : Text) : Run 0 t (scan t) := by
  have hrun := run_scanFrom 0 t
  unfold scan
  split <;> simp_all

/-- The pieces of a text that can be scanned tile it, and each looks as its kind says. A fault
points to a quote or bracket of the text. The scan of every text ends, for each piece takes it
further. -/
theorem scan_tiles (t : Text) :
    (∀ ps, scan t = .ok ps → Tiles 0 t ps ∧ ∀ p ∈ ps, p.WellFormed) ∧
    (∀ fault, scan t = .error fault →
      ∃ c rest, t.fromByte? fault.offset = some (c :: rest) ∧ c ∈ fault.cause.openers) ∧
    Run 0 t (scan t) ∧
    ∀ offset u p rest, next? offset u = .ok (some (p, rest)) →
      offset < p.stop ∧ rest.length < u.length := by
  refine ⟨fun ps h => (run_scan t).tiles h, fun fault h => ?_, run_scan t, ?_⟩
  · obtain ⟨before, d, after, rfl, hoffset, hd⟩ := (run_scan t).eq_error h
    refine ⟨d, after, ?_, hd⟩
    rw [hoffset, Nat.zero_add, ← Nat.add_zero before.utf8Size, Text.fromByte?_append,
      Text.fromByte?_zero]
  · intro offset u p rest h
    obtain ⟨gap, rfl, -, hstart, hp, -⟩ := next?_eq_ok_some h
    have hsize := Text.utf8Size_pos hp
    have hlength := List.length_pos_iff.mpr hp
    refine ⟨?_, ?_⟩
    · rw [stop, hstart]
      omega
    · simp only [List.length_append]
      omega

theorem scan_tiles_mixed :
    Tiles 0 "é 'it''s' (a)b)" [⟨.word, "é", 0⟩, ⟨.quoted, "'it''s'", 3⟩, ⟨.group, "(a)", 11⟩,
      ⟨.word, "b)", 14⟩] ∧
    ∃ c rest, Text.fromByte? 4 "é ('a)" = some (c :: rest) ∧
      c ∈ ScanFault.Cause.unterminatedQuote.openers := by
  have hread : scan "é 'it''s' (a)b)" = .ok [⟨.word, "é", 0⟩, ⟨.quoted, "'it''s'", 3⟩,
      ⟨.group, "(a)", 11⟩, ⟨.word, "b)", 14⟩] := by decide +kernel
  have hfault : scan "é ('a)" = .error ⟨.unterminatedQuote, 4⟩ := by decide +kernel
  exact ⟨((scan_tiles _).1 _ hread).1, (scan_tiles _).2.1 _ hfault⟩

end Piece

end AnnotatedSchema
