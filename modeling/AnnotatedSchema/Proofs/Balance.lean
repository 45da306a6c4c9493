import AnnotatedSchema.Identifier
import AnnotatedSchema.Proofs.RoundTrip

/-!
# Balanced texts

Whether a text can stand in round brackets as one group is told from left to right by the quote that
is open and the number of open brackets. The scanner looks ahead for a doubled quote, but without
that the answer is the same: such a quote closes a literal and opens the next. So closed texts may
be written side by side even where two literals run into one.
-/

namespace AnnotatedSchema

open Piece

/-- A character that opens and closes literals. -/
abbrev Quote := { c : Char // isQuote c = true }

/-- How far a text is inside a literal and inside brackets. -/
structure Nesting where
  quote : Option Quote
  depth : Nat
  deriving DecidableEq

/-- The quotes and brackets. -/
def marks : List Char := ['\'', '"', '\x60', '(', ')']

def isPlain (c : Char) : Bool := !marks.contains c

-- Characters of a sort that has none of the marks are plain.
theorem isPlain_of {p : Char → Bool} (hp : (marks.all fun c => !p c) = true) {c : Char}
    (h : p c = true) : isPlain c = true := by
  cases hc : isPlain c with
  | true => rfl
  | false =>
    have hmark : c ∈ marks := by simpa [isPlain] using hc
    have hnot := List.all_eq_true.mp hp c hmark
    rw [h] at hnot
    cases hnot

namespace Nesting

def outside : Nesting := ⟨none, 0⟩

/-- The nesting after one more character. A bracket that closes nothing has none. -/
def next? (s : Nesting) (c : Char) : Option Nesting :=
  match s.quote with
  | some q => some (if c = q.val then { s with quote := none } else s)
  | none =>
    if h : isQuote c = true then some { s with quote := some ⟨c, h⟩ }
    else if c = ')' ∧ s.depth = 0 then none
    else some { s with depth := depthAfter c s.depth }

def after? (s : Nesting) : Text → Option Nesting
  | [] => some s
  | c :: t => (s.next? c).bind fun s' => s'.after? t

theorem after?_append (s : Nesting) (t u : Text) :
    s.after? (t ++ u) = (s.after? t).bind fun s' => s'.after? u := by
  induction t generalizing s with
  | nil => rfl
  | cons c t ih =>
    change (s.next? c).bind (fun s' => s'.after? (t ++ u)) =
      ((s.next? c).bind fun s' => s'.after? t).bind fun s' => s'.after? u
    cases s.next? c with
    | none => rfl
    | some s' => exact ih s'

theorem after?_append_of_eq {s s' : Nesting} {t : Text} (h : s.after? t = some s') (u : Text) :
    s.after? (t ++ u) = s'.after? u := by
  rw [after?_append, h, Option.bind_some]

/-! ## One character -/

theorem next?_close (q : Quote) (depth : Nat) :
    next? ⟨some q, depth⟩ q.val = some ⟨none, depth⟩ :=
  congrArg some (if_pos rfl)

theorem next?_inside {q : Quote} {c : Char} (h : c ≠ q.val) (depth : Nat) :
    next? ⟨some q, depth⟩ c = some ⟨some q, depth⟩ :=
  congrArg some (if_neg h)

theorem next?_open (q : Quote) (depth : Nat) :
    next? ⟨none, depth⟩ q.val = some ⟨some q, depth⟩ :=
  dif_pos q.property

theorem next?_outside {c : Char} (h : isQuote c = false) {depth : Nat}
    (hd : ¬(c = ')' ∧ depth = 0)) :
    next? ⟨none, depth⟩ c = some ⟨none, depthAfter c depth⟩ := by
  unfold next?
  dsimp only
  rw [dif_neg (by simp [h]), if_neg hd]

theorem next?_plain (s : Nesting) {c : Char} (h : isPlain c = true) : s.next? c = some s := by
  have hmark : c ∉ marks := by simpa [isPlain] using h
  have hquote : isQuote c = false := by
    cases hc : isQuote c with
    | false => rfl
    | true =>
      simp only [isQuote, Bool.or_eq_true, beq_iff_eq] at hc
      rcases hc with (rfl | rfl) | rfl <;> exact absurd (by decide) hmark
  have hopen : c ≠ '(' := by rintro rfl; exact absurd (by decide) hmark
  have hclose : c ≠ ')' := by rintro rfl; exact absurd (by decide) hmark
  obtain ⟨quote, depth⟩ := s
  cases quote with
  | some q =>
    refine next?_inside (fun heq => ?_) depth
    rw [heq, q.property] at hquote
    cases hquote
  | none =>
    rw [next?_outside hquote fun hd => hclose hd.1, depthAfter, if_neg hopen, if_neg hclose]

theorem after?_plain (s : Nesting) {t : Text} (h : ∀ c ∈ t, isPlain c = true) :
    s.after? t = some s := by
  induction t with
  | nil => rfl
  | cons c t ih =>
    obtain ⟨hc, ht⟩ := List.forall_mem_cons.mp h
    rw [after?, next?_plain s hc]
    exact ih ht

/-! ## More brackets around -/

def deeper (n : Nat) (s : Nesting) : Nesting := { s with depth := s.depth + n }

theorem next?_deeper {s s' : Nesting} {c : Char} (h : s.next? c = some s') (n : Nat) :
    (s.deeper n).next? c = some (s'.deeper n) := by
  obtain ⟨quote, depth⟩ := s
  cases quote with
  | some q =>
    obtain rfl := Option.some.inj h
    by_cases hc : c = q.val
    · rw [hc, if_pos rfl]
      exact next?_close q (depth + n)
    · rw [if_neg hc]
      exact next?_inside hc (depth + n)
  | none =>
    by_cases hc : isQuote c = true
    · rw [next?_open ⟨c, hc⟩] at h
      obtain rfl := Option.some.inj h
      exact next?_open ⟨c, hc⟩ (depth + n)
    · have hc : isQuote c = false := by simpa using hc
      by_cases hd : c = ')' ∧ depth = 0
      · have hnone : next? ⟨none, depth⟩ c = none := by
          unfold next?
          dsimp only
          rw [dif_neg (by simp [hc]), if_pos hd]
        rw [hnone] at h
        cases h
      · rw [next?_outside hc hd] at h
        obtain rfl := Option.some.inj h
        have hdepth : depthAfter c (depth + n) = depthAfter c depth + n := by
          unfold depthAfter
          split
          · omega
          · split
            · have : depth ≠ 0 := fun hzero => hd ⟨by assumption, hzero⟩
              omega
            · rfl
        have hd' : ¬(c = ')' ∧ depth + n = 0) := fun h => hd ⟨h.1, by omega⟩
        exact (next?_outside hc hd').trans (by rw [hdepth]; rfl)

-- What is around a text does not matter to it.
theorem after?_deeper {s s' : Nesting} {t : Text} (h : s.after? t = some s') (n : Nat) :
    (s.deeper n).after? t = some (s'.deeper n) := by
  induction t generalizing s with
  | nil =>
    obtain rfl := Option.some.inj h
    rfl
  | cons c t ih =>
    obtain ⟨s₁, hnext, hafter⟩ := Option.bind_eq_some_iff.mp h
    change ((s.deeper n).next? c).bind _ = _
    rw [next?_deeper hnext]
    exact ih hafter

end Nesting

namespace Text

open Nesting

/-- Whether the text leaves no literal and no bracket open, and closes none it has not opened. -/
def Balanced (t : Text) : Prop := outside.after? t = some outside

instance (t : Text) : Decidable t.Balanced := inferInstanceAs (Decidable (_ = _))

end Text

namespace Nesting

/-! ## Literals and groups of the scanner -/

theorem after?_closeQuote (q : Quote) {t body rest : Text}
    (h : closeQuote? q.val t = some (body, rest)) (depth : Nat) :
    after? ⟨some q, depth⟩ body = some ⟨none, depth⟩ := by
  fun_induction closeQuote? q.val t generalizing body rest with
  | case1 => cases h
  | case2 =>
    obtain ⟨rfl, rfl⟩ := Prod.mk.inj (Option.some.inj h)
    rw [after?, next?_close]
    rfl
  | case3 t ih =>
    obtain ⟨literal, hliteral, rfl⟩ :=
      (map_fst_eq_some_iff (f := (q.val :: q.val :: ·))).mp h
    -- The doubled quote closes the literal and opens it again.
    rw [after?, next?_close, Option.bind_some, after?, next?_open, Option.bind_some]
    exact ih hliteral
  | case4 d t hd =>
    obtain ⟨rfl, rfl⟩ := Prod.mk.inj (Option.some.inj h)
    rw [after?, next?_close]
    rfl
  | case5 c t hc ih =>
    obtain ⟨literal, hliteral, rfl⟩ := map_fst_eq_some_iff.mp h
    rw [after?, next?_inside hc, Option.bind_some]
    exact ih hliteral

theorem after?_unterminated (q : Quote) {t : Text} (h : closeQuote? q.val t = none)
    (depth : Nat) : after? ⟨some q, depth⟩ t = some ⟨some q, depth⟩ := by
  fun_induction closeQuote? q.val t with
  | case1 => rfl
  | case2 => cases h
  | case3 t ih =>
    rw [after?, next?_close, Option.bind_some, after?, next?_open, Option.bind_some]
    exact ih (Option.map_eq_none_iff.mp h)
  | case4 d t hd => cases h
  | case5 c t hc ih =>
    rw [after?, next?_inside hc, Option.bind_some]
    exact ih (Option.map_eq_none_iff.mp h)

-- What the scanner takes for the rest of a group leaves nothing open, and then comes its bracket.
theorem after?_closeGroup {start offset depth : Nat} {t body rest : Text}
    (h : closeGroup start offset depth t = .ok (body, rest)) :
    ∃ inner, body = inner ++ [')'] ∧ after? ⟨none, depth⟩ inner = some outside := by
  fun_induction closeGroup start offset depth t generalizing body rest with
  | case1 => cases h
  | case2 => cases h
  | case3 offset depth c t hc literal tail hq ih =>
    obtain ⟨body', hbody, rfl⟩ := map_fst_eq_ok_iff.mp h
    obtain ⟨inner, rfl, hinner⟩ := ih hbody
    refine ⟨c :: literal ++ inner, by simp, ?_⟩
    rw [List.cons_append, after?, next?_open ⟨c, hc⟩, Option.bind_some,
      after?_append_of_eq (after?_closeQuote ⟨c, hc⟩ hq depth), hinner]
  | case4 offset depth c t hc hd =>
    obtain ⟨rfl, rfl⟩ := Prod.mk.inj (Except.ok.inj h)
    exact ⟨[], by rw [hd.1]; rfl, by rw [hd.2]; rfl⟩
  | case5 offset depth c t hc hd ih =>
    obtain ⟨body', hbody, rfl⟩ := map_fst_eq_ok_iff.mp h
    obtain ⟨inner, rfl, hinner⟩ := ih hbody
    refine ⟨c :: inner, rfl, ?_⟩
    rw [after?, next?_outside (by simpa using hc) hd]
    exact hinner

-- A bracket that closes nothing ends every text that goes on with it.
theorem after?_outside_close (u : Text) : outside.after? (')' :: u) = none := rfl

-- A literal that was opened inside a balanced text ends inside it.
theorem split_of_closeQuote (q : Quote) {t literal rest inner u : Text}
    (hliteral : closeQuote? q.val t = some (literal, rest)) (ht : t = inner ++ ')' :: u)
    {depth : Nat}
    (h : after? ⟨some q, depth⟩ inner = some outside) :
    ∃ v, inner = literal ++ v ∧ rest = v ++ ')' :: u := by
  have hclosed := after?_closeQuote q hliteral depth
  rw [closeQuote?_eq_append hliteral] at ht
  rcases List.append_eq_append_iff.mp ht with ⟨v, rfl, hv⟩ | ⟨v, rfl, hv⟩
  · exact ⟨v, rfl, hv⟩
  · cases v with
    | nil => exact ⟨[], by simp, by simpa using hv.symm⟩
    | cons d v =>
      obtain ⟨rfl, -⟩ := List.cons.inj hv
      rw [after?_append_of_eq h, after?_outside_close] at hclosed
      cases hclosed

theorem closeGroup_of_after? {start offset depth : Nat} {t inner u : Text}
    (ht : t = inner ++ ')' :: u) (h : after? ⟨none, depth⟩ inner = some outside) :
    closeGroup start offset depth t = .ok (inner ++ [')'], u) := by
  fun_induction closeGroup start offset depth t generalizing inner with
  | case1 => simp at ht
  | case2 offset depth c t hc hq =>
    cases inner with
    | nil =>
      obtain rfl := (List.cons.inj ht).1
      exact absurd hc (by decide)
    | cons d inner =>
      obtain ⟨rfl, htail⟩ := List.cons.inj ht
      rw [after?, next?_open ⟨c, hc⟩, Option.bind_some] at h
      have hopen := after?_unterminated ⟨c, hc⟩ hq depth
      rw [htail] at hopen
      change after? _ (inner ++ ')' :: u) = _ at hopen
      rw [after?_append_of_eq h, after?_outside_close] at hopen
      cases hopen
  | case3 offset depth c t hc literal rest hq ih =>
    cases inner with
    | nil =>
      obtain rfl := (List.cons.inj ht).1
      exact absurd hc (by decide)
    | cons d inner =>
      obtain ⟨rfl, htail⟩ := List.cons.inj ht
      rw [after?, next?_open ⟨c, hc⟩, Option.bind_some] at h
      obtain ⟨v, rfl, hv⟩ := split_of_closeQuote ⟨c, hc⟩ hq htail h
      rw [after?_append_of_eq (after?_closeQuote ⟨c, hc⟩ hq depth)] at h
      rw [ih hv h]
      simp [Except.map]
  | case4 offset depth c t hc hd =>
    obtain ⟨rfl, rfl⟩ := hd
    cases inner with
    | nil =>
      obtain ⟨-, rfl⟩ := List.cons.inj ht
      rfl
    | cons d inner =>
      obtain ⟨rfl, -⟩ := List.cons.inj ht
      cases h
  | case5 offset depth c t hc hd ih =>
    have hc : isQuote c = false := by simpa using hc
    cases inner with
    | nil =>
      obtain ⟨rfl, -⟩ := List.cons.inj ht
      have hdepth : depth = 0 := congrArg Nesting.depth (Option.some.inj h)
      exact absurd ⟨rfl, hdepth⟩ hd
    | cons d inner =>
      obtain ⟨rfl, htail⟩ := List.cons.inj ht
      rw [after?, next?_outside hc hd] at h
      rw [ih htail h]
      rfl

end Nesting

namespace Text

open Nesting

/-- A closed text is a balanced one. -/
theorem closed_iff_balanced {t : Text} : t.Closed ↔ t.Balanced := by
  constructor
  · intro h
    have hscan : Piece.scanFrom 0 ('(' :: (t ++ [')'])) = _ := scan_eq_ok_iff.mp h
    cases hfirst : first 0 '(' (t ++ [')']) with
    | error fault =>
      rw [scanFrom_error (by decide) hfirst] at hscan
      cases hscan
    | ok read =>
      obtain ⟨p, rest⟩ := read
      rw [scanFrom_piece (by decide) hfirst] at hscan
      obtain rfl := (List.cons.inj (Prod.mk.inj hscan).1).1
      obtain ⟨body, -, hbody, hp⟩ | ⟨body, hquote, -⟩ | ⟨hne, -⟩ := first_cases hfirst
      · obtain ⟨inner, rfl, hinner⟩ := after?_closeGroup hbody
        have htext : t ++ [')'] = inner ++ [')'] := (List.cons.inj (congrArg Piece.text hp)).2
        rwa [Balanced, List.append_cancel_right htext]
      · exact absurd hquote (by decide)
      · exact absurd rfl hne
  · intro h
    have hgroup : closeGroup 0 (0 + '('.utf8Size) 0 (t ++ [')']) = .ok (t ++ [')'], []) :=
      closeGroup_of_after? rfl h
    change Piece.scan ('(' :: (t ++ [')'])) = _
    rw [scan_eq_ok_iff, scanFrom_piece (by decide) (first_group hgroup), scanFrom_nil]
    rfl

/-! ## Texts made of balanced texts -/

theorem balanced_nil : Balanced [] := rfl

theorem Balanced.append {t u : Text} (ht : t.Balanced) (hu : u.Balanced) :
    (t ++ u).Balanced := by
  rw [Balanced, after?_append_of_eq ht]
  exact hu

-- A bracket that is open before a balanced text is closed after it.
theorem Balanced.enclosed {t before : Text} (h : t.Balanced)
    (hbefore : outside.after? before = some ⟨none, 1⟩) : Balanced (before ++ t ++ [')']) := by
  have hinner : after? ⟨none, 1⟩ t = some ⟨none, 1⟩ := after?_deeper h 1
  rw [Balanced, List.append_assoc, after?_append_of_eq hbefore, after?_append_of_eq hinner]
  rfl

theorem Balanced.parenthesized {t : Text} (h : t.Balanced) : t.parenthesized.Balanced := by
  have hopen : outside.after? ['('] = some ⟨none, 1⟩ := rfl
  exact h.enclosed hopen

theorem balanced_flatten {ts : List Text} (h : ∀ t ∈ ts, t.Balanced) : Balanced ts.flatten := by
  induction ts with
  | nil => exact balanced_nil
  | cons t ts ih =>
    obtain ⟨ht, hts⟩ := List.forall_mem_cons.mp h
    exact ht.append (ih hts)

theorem balanced_intercalate {separator : Text} (hs : separator.Balanced) {ts : List Text}
    (h : ∀ t ∈ ts, t.Balanced) : Balanced (separator.intercalate ts) := by
  match ts with
  | [] => exact balanced_nil
  | [t] => simpa using h
  | t :: u :: ts =>
    obtain ⟨ht, hts⟩ := List.forall_mem_cons.mp h
    rw [List.intercalate_cons_cons]
    exact (ht.append hs).append (balanced_intercalate hs hts)

theorem balanced_commaSeparated {ts : List Text} (h : ∀ t ∈ ts, t.Balanced) :
    (commaSeparated ts).Balanced :=
  balanced_intercalate (by decide) h

theorem balanced_spaceSeparated {ts : List Text} (h : ∀ t ∈ ts, t.Balanced) :
    (spaceSeparated ts).Balanced :=
  balanced_intercalate (by decide) h

theorem balanced_of_plain {t : Text} (h : ∀ c ∈ t, isPlain c = true) : t.Balanced :=
  after?_plain outside h

theorem balanced_literal (q : Quote) {t body rest : Text}
    (h : closeQuote? q.val t = some (body, rest)) : Balanced (q.val :: body) := by
  rw [Balanced, after?, outside, next?_open]
  exact after?_closeQuote q h 0

theorem balanced_quoted (t : Text) : t.quoted.Balanced :=
  balanced_literal ⟨'\'', by decide⟩ (closeQuote?_doubled_closed '\'' t)

theorem balanced_sortClause (order : Option SortOrder) : (SortOrder.clause order).Balanced := by
  cases order with
  | none => exact balanced_nil
  | some order => cases order <;> decide

/-! ## Blanks and letter case -/

theorem after?_blanks (s : Nesting) {t : Text} (h : ∀ c ∈ t, isBlank c = true) :
    s.after? t = some s :=
  after?_plain s fun c hc => isPlain_of (by decide) (h c hc)

theorem split_trim (t : Text) :
    ∃ before after, t = before ++ (t.trim ++ after) ∧ (∀ c ∈ before, isBlank c = true) ∧
      ∀ c ∈ after, isBlank c = true := by
  refine ⟨t.takeWhile isBlank, ((t.dropWhile isBlank).reverse.takeWhile isBlank).reverse, ?_,
    fun c hc => List.mem_takeWhile_imp hc,
    fun c hc => List.mem_takeWhile_imp (List.mem_reverse.mp hc)⟩
  rw [trim, ← List.reverse_append, List.takeWhile_append_dropWhile, List.reverse_reverse,
    List.takeWhile_append_dropWhile]

theorem trim_ne_nil {t : Text} (h : t.blank = false) : t.trim ≠ [] := by
  intro htrim
  obtain ⟨before, after, ht, hbefore, hafter⟩ := split_trim t
  have hall : ∀ c ∈ t, isBlank c = true := by
    rw [ht, htrim, List.nil_append, List.forall_mem_append]
    exact ⟨hbefore, hafter⟩
  rw [blank, List.all_eq_true.mpr hall] at h
  cases h

theorem trim_cons {c : Char} (hc : isBlank c = false) (t : Text) :
    ∃ u, trim (c :: t) = c :: u := by
  have hne : trim (c :: t) ≠ [] := trim_ne_nil (by rw [blank, List.all_cons, hc, Bool.false_and])
  obtain ⟨d, u, htrim⟩ := List.exists_cons_of_ne_nil hne
  obtain ⟨before, after, ht, hbefore, -⟩ := split_trim (c :: t)
  rw [htrim] at ht
  cases before with
  | nil =>
    obtain ⟨rfl, -⟩ := List.cons.inj ht
    exact ⟨u, htrim⟩
  | cons b before =>
    obtain ⟨rfl, -⟩ := List.cons.inj ht
    rw [hbefore c List.mem_cons_self] at hc
    cases hc

-- Blanks are plain, so those at the ends can go.
theorem after?_trim (s : Nesting) (t : Text) : s.after? t.trim = s.after? t := by
  obtain ⟨before, after, ht, hbefore, hafter⟩ := split_trim t
  conv_rhs => rw [ht, after?_append_of_eq (after?_blanks s hbefore), after?_append]
  cases s.after? t.trim with
  | none => rfl
  | some s' => rw [Option.bind_some, after?_blanks s' hafter]

theorem balanced_trim_iff (t : Text) : t.trim.Balanced ↔ t.Balanced := by
  rw [Balanced, after?_trim, Balanced]

-- No capital has a quote or bracket for its small letter.
theorem contains_capitalRuns {run : LetterCase.Run} (hrun : run ∈ LetterCase.capitalRuns) {c : Char}
    (hc : c ∈ marks) : run.contains ((c.toNat : Int) - run.shift).toNat = false := by
  have hall : (LetterCase.capitalRuns.all fun run => marks.all fun c =>
      !run.contains ((c.toNat : Int) - run.shift).toNat) = true := by decide +kernel
  simpa using List.all_eq_true.mp (List.all_eq_true.mp hall run hrun) c hc

theorem toNat_ne_zero_of_mem_marks {c : Char} (h : c ∈ marks) : c.toNat ≠ 0 := by
  have hall : (marks.all fun c => c.toNat != 0) = true := by decide
  exact bne_iff_ne.mp (List.all_eq_true.mp hall c h)

theorem toNat_ofNat_of_mem_marks {k : Nat} (h : Char.ofNat k ∈ marks) :
    (Char.ofNat k).toNat = k := by
  have hne := toNat_ne_zero_of_mem_marks h
  by_cases hvalid : k.isValidChar
  · have heq : Char.ofNat k = Char.ofNatAux k hvalid := dif_pos hvalid
    rw [heq]
    rfl
  · exact absurd (congrArg Char.toNat (dif_neg hvalid)) hne

theorem isPlain_smallForm {c : Char} (h : isCapital c = true) :
    ∀ d ∈ smallForm c, isPlain d = true := by
  unfold smallForm
  split
  · exact List.all_eq_true.mp (by decide)
  · next hne =>
    split
    · next run hrun =>
      intro d hd
      cases hplain : isPlain d with
      | true => rfl
      | false =>
        have hmark : d ∈ marks := by simpa [isPlain] using hplain
        obtain rfl := List.mem_singleton.mp hd
        have hcontains : run.contains c.toNat = true := by simpa using List.find?_some hrun
        have hnever := contains_capitalRuns (List.mem_of_find?_eq_some hrun) hmark
        have hne := toNat_ne_zero_of_mem_marks hmark
        have hcode := toNat_ofNat_of_mem_marks hmark
        have heq : ((Char.ofNat (c.toNat + run.shift).toNat).toNat - run.shift : Int).toNat =
            c.toNat := by omega
        rw [heq, hcontains] at hnever
        cases hnever
    · next hrun =>
      have hc : isCapital c = false := by simp [isCapital, hne, hrun]
      rw [hc] at h
      cases h

theorem after?_identifierAfter (s : Nesting) (before : Option Char) (t : Text) :
    s.after? (identifierAfter before t) = s.after? t := by
  induction t generalizing s before with
  | nil => rfl
  | cons c t ih =>
    rw [identifierAfter]
    split
    · next hc =>
      have hplain : isPlain c = true := isPlain_of (by decide) hc
      have hprefix : s.after? (if startsWord before t.head? then ['_'] else []) = some s := by
        split
        · exact after?_plain s (List.forall_mem_singleton.mpr (by decide))
        · rfl
      rw [List.append_assoc, after?_append_of_eq hprefix,
        after?_append_of_eq (after?_plain s (isPlain_smallForm hc)), ih, after?,
        next?_plain s hplain]
      rfl
    · rw [after?, after?]
      cases s.next? c with
      | none => rfl
      | some s' => exact ih s' (some c)

-- An identifier has the quotes and brackets of its name.
theorem balanced_identifier_iff (name : Text) : Balanced (identifier name) ↔ name.Balanced := by
  rw [Balanced, identifier, after?_identifierAfter, Balanced]

theorem balanced_identifierList {names : List Text} (h : ∀ name ∈ names, name.Balanced) :
    Balanced (identifierList names) := by
  refine balanced_commaSeparated fun t ht => ?_
  obtain ⟨name, hname, rfl⟩ := List.mem_map.mp ht
  exact (balanced_identifier_iff name).mpr (h name hname)

end Text

end AnnotatedSchema
