import AnnotatedSchema.Annotation.Piece
import AnnotatedSchema.Clause.Default
import Mathlib.Data.List.Basic
import Mathlib.Data.List.TakeWhile
import Mathlib.Tactic.IntervalCases

/-!
# Reading default values

A default value is one piece of an annotation. A keyword, a quoted text, a number and a text in
round brackets differ in their first character, so each is read as what it was written for.
-/

namespace AnnotatedSchema

open Piece

/-! ## Texts without blanks at their ends -/

theorem Text.trim_eq_self {t : Text} (hfirst : ∀ c ∈ t.head?, isBlank c = false)
    (hlast : ∀ c ∈ t.getLast?, isBlank c = false) : t.trim = t := by
  have hdrop : ∀ u : Text, (∀ c ∈ u.head?, isBlank c = false) → u.dropWhile isBlank = u := by
    intro u hu
    cases u with
    | nil => rfl
    | cons c u => exact List.dropWhile_cons_of_neg (by simp [hu c (by simp)])
  rw [trim, hdrop t hfirst, hdrop t.reverse (by simpa using hlast), List.reverse_reverse]

theorem Text.trim_enclosed {a b : Char} (t : Text) (ha : isBlank a = false)
    (hb : isBlank b = false) : Text.trim (a :: t ++ [b]) = a :: t ++ [b] := by
  refine trim_eq_self (fun c hc => ?_) fun c hc => ?_
  · obtain rfl : a = c := by simpa using hc
    exact ha
  · rw [List.getLast?_concat] at hc
    obtain rfl : b = c := by simpa using hc
    exact hb

theorem isBlank_of_inWord {c : Char} (h : inWord c = true) : isBlank c = false := by
  simp only [inWord, Bool.and_eq_true, Bool.not_eq_true'] at h
  exact h.1

/-! ## The characters of a number -/

namespace DefaultValue

theorem mem_digits_of_isDigit {c : Char} (h : c.isDigit = true) : c ∈ "0123456789".toList := by
  simp only [Char.isDigit, Bool.and_eq_true, decide_eq_true_eq] at h
  have hlow : 48 ≤ c.toNat := h.1
  have hhigh : c.toNat ≤ 57 := h.2
  rw [← Char.ofNat_toNat c]
  interval_cases c.toNat <;> decide

-- From `0` to `f` no character is a blank or a bracket.
theorem inWord_of_toNat {c : Char} (hlow : 48 ≤ c.toNat) (hhigh : c.toNat ≤ 102) :
    inWord c = true := by
  rw [← Char.ofNat_toNat c]
  interval_cases c.toNat <;> decide

theorem inWord_of_isHexDigit {c : Char} (h : isHexDigit c = true) : inWord c = true := by
  simp only [isHexDigit, Char.isDigit, Bool.or_eq_true, Bool.and_eq_true, decide_eq_true_eq] at h
  rcases h with (⟨hlow, hhigh⟩ | ⟨hlow, hhigh⟩) | ⟨hlow, hhigh⟩
  · have hlow : 48 ≤ c.toNat := hlow
    have hhigh : c.toNat ≤ 57 := hhigh
    exact inWord_of_toNat hlow (by omega)
  · have hlow : 97 ≤ c.toNat := hlow
    have hhigh : c.toNat ≤ 102 := hhigh
    exact inWord_of_toNat (by omega) hhigh
  · have hlow : 65 ≤ c.toNat := hlow
    have hhigh : c.toNat ≤ 70 := hhigh
    exact inWord_of_toNat (by omega) (by omega)

theorem inWord_of_isDigit {c : Char} (h : c.isDigit = true) : inWord c = true :=
  inWord_of_isHexDigit (by rw [isHexDigit, h]; rfl)

theorem inWord_of_withoutSign {t : Text} (h : ∀ c ∈ withoutSign t, inWord c = true) :
    ∀ c ∈ t, inWord c = true := by
  unfold withoutSign at h
  split at h
  · exact List.forall_mem_cons.mpr ⟨by decide, h⟩
  · exact List.forall_mem_cons.mpr ⟨by decide, h⟩
  · exact h

theorem inWord_of_isExponent {t : Text} (h : isExponent t = true) : ∀ c ∈ t, inWord c = true := by
  cases t with
  | nil => simp
  | cons c t =>
    simp only [isExponent, isDigits, Bool.and_eq_true, Bool.or_eq_true, beq_iff_eq,
      List.all_eq_true] at h
    obtain ⟨hc, -, hdigits⟩ := h
    have hc : inWord c = true := by rcases hc with rfl | rfl <;> decide
    have ht := inWord_of_withoutSign fun d hd => inWord_of_isDigit (hdigits d hd)
    exact List.forall_mem_cons.mpr ⟨hc, ht⟩

theorem inWord_of_digits (t : Text) (h : ∀ c ∈ t.dropWhile Char.isDigit, inWord c = true) :
    ∀ c ∈ t, inWord c = true := by
  rw [← List.takeWhile_append_dropWhile (p := Char.isDigit) (l := t)]
  exact List.forall_mem_append.mpr
    ⟨fun c hc => inWord_of_isDigit (List.mem_takeWhile_imp hc), h⟩

theorem inWord_of_isDecimal {t : Text} (h : isDecimal t = true) : ∀ c ∈ t, inWord c = true := by
  refine inWord_of_digits t ?_
  unfold isDecimal at h
  split at h
  · next rest hdrop =>
    simp only [Bool.and_eq_true] at h
    rw [hdrop]
    exact List.forall_mem_cons.mpr ⟨by decide, inWord_of_digits rest (inWord_of_isExponent h.2)⟩
  · simp only [Bool.and_eq_true] at h
    exact inWord_of_isExponent h.2

theorem inWord_of_isUnsigned {t : Text} (h : isUnsigned t = true) : ∀ c ∈ t, inWord c = true := by
  have hhex : ∀ x : Char, inWord x = true → ∀ u : Text, (u != [] && u.all isHexDigit) = true →
      ∀ c ∈ '0' :: x :: u, inWord c = true := by
    intro x hx u hu
    simp only [Bool.and_eq_true, List.all_eq_true] at hu
    exact List.forall_mem_cons.mpr ⟨by decide, List.forall_mem_cons.mpr
      ⟨hx, fun c hc => inWord_of_isHexDigit (hu.2 c hc)⟩⟩
  unfold isUnsigned at h
  split at h
  · exact hhex 'x' (by decide) _ h
  · exact hhex 'X' (by decide) _ h
  · exact inWord_of_isDecimal h

theorem inWord_of_isNumber {t : Text} (h : isNumber t = true) : ∀ c ∈ t, inWord c = true :=
  inWord_of_withoutSign (inWord_of_isUnsigned h)

/-- The characters that a number can start with. -/
def numberHeads : Text := "+-.0123456789"

theorem isQuote_numberHeads {c : Char} (h : c ∈ numberHeads) : isQuote c = false := by
  have hheads : ∀ c ∈ numberHeads, (!isQuote c) = true := List.all_eq_true.mp (by decide)
  exact Bool.not_eq_true' _ ▸ hheads c h

theorem head_of_isDecimal {t : Text} (h : isDecimal t = true) :
    ∃ c ∈ numberHeads, ∃ u, t = c :: u := by
  cases t with
  | nil => exact absurd h (by decide)
  | cons c t =>
    by_cases hc : c.isDigit = true
    · exact ⟨c, List.mem_append_right "+-.".toList (mem_digits_of_isDigit hc), t, rfl⟩
    · have htake : (c :: t).takeWhile Char.isDigit = [] := List.takeWhile_cons_of_neg hc
      have hdrop : (c :: t).dropWhile Char.isDigit = c :: t := List.dropWhile_cons_of_neg hc
      unfold isDecimal at h
      rw [htake, hdrop] at h
      split at h
      · next hdot => exact ⟨c, by rw [(List.cons.inj hdot).1]; decide, t, rfl⟩
      · simp at h

theorem head_of_isUnsigned {t : Text} (h : isUnsigned t = true) :
    ∃ c ∈ numberHeads, ∃ u, t = c :: u := by
  unfold isUnsigned at h
  split at h
  · exact ⟨'0', by decide, _, rfl⟩
  · exact ⟨'0', by decide, _, rfl⟩
  · exact head_of_isDecimal h

theorem head_of_isNumber {t : Text} (h : isNumber t = true) :
    ∃ c ∈ numberHeads, ∃ u, t = c :: u := by
  unfold isNumber withoutSign at h
  split at h
  · exact ⟨'+', by decide, _, rfl⟩
  · exact ⟨'-', by decide, _, rfl⟩
  · exact head_of_isUnsigned h

/-! ## What a piece is read as -/

-- No default keyword starts with the character, whatever its case.
theorem ofKeyword?_eq_none {c : Char} {t : Text}
    (h : keywords.all (fun k => k.1.upperAscii.head? != some c.toUpper) = true) :
    ofKeyword? (c :: t) = none := by
  rw [ofKeyword?, Option.map_eq_none_iff, List.find?_eq_none]
  intro k hk hsame
  simp only [Text.sameKeyword, beq_iff_eq] at hsame
  exact bne_iff_ne.mp (List.all_eq_true.mp h k hk) (by rw [← hsame]; rfl)

theorem unquoted?_eq_none {c : Char} {t : Text} (h : isQuote c = false) :
    Text.unquoted? (c :: t) = none := by
  have hsingle : c ≠ '\'' := by rintro rfl; exact absurd h (by decide)
  have hdouble : c ≠ '"' := by rintro rfl; exact absurd h (by decide)
  simp [Text.unquoted?, Text.unquoteWith?, hsingle, hdouble]

-- A number is told apart from a keyword and a quoted text by its first character.
theorem plain_of_isNumber {t : Text} (h : isNumber t = true) :
    ofKeyword? t = none ∧ t.unquoted? = none := by
  have hkeyword : ∀ c ∈ numberHeads,
      (keywords.all fun k => k.1.upperAscii.head? != some c.toUpper) = true :=
    List.all_eq_true.mp (by decide)
  obtain ⟨c, hc, u, rfl⟩ := head_of_isNumber h
  exact ⟨ofKeyword?_eq_none (hkeyword c hc), unquoted?_eq_none (isQuote_numberHeads hc)⟩

theorem ofText_number {t : Text} (h : isNumber t = true) : ofText t = number t := by
  have hword := inWord_of_isNumber h
  have htrim : t.trim = t :=
    Text.trim_eq_self (fun d hd => isBlank_of_inWord (hword d (List.mem_of_mem_head? hd)))
      fun d hd => isBlank_of_inWord (hword d (List.mem_of_mem_getLast? hd))
  obtain ⟨hkeyword, hquote⟩ := plain_of_isNumber h
  rw [ofText, htrim, hkeyword, hquote]
  exact if_pos h

theorem ofText_quoted (t : Text) : ofText t.quoted = text t := by
  have htrim : t.quoted.trim = t.quoted := Text.trim_enclosed _ (by decide) (by decide)
  have hkeyword : ofKeyword? t.quoted = none := ofKeyword?_eq_none (by decide)
  rw [ofText, htrim, hkeyword, Text.unquoted?_quoted]

theorem withoutParentheses_parenthesized (t : Text) :
    withoutParentheses t.parenthesized = t.trim := by
  have hclose : List.isSuffixOf? [')'] (t ++ [')']) = some t :=
    List.isSuffixOf?_eq_some_iff_append_eq.mpr rfl
  change ((List.isSuffixOf? [')'] (t ++ [')'])).map Text.trim).getD _ = t.trim
  rw [hclose, Option.map_some, Option.getD_some]

theorem ofText_parenthesized {t : Text} (h : t.trim = t) :
    ofText t.parenthesized = expression t := by
  have htrim : t.parenthesized.trim = t.parenthesized :=
    Text.trim_enclosed t (by decide) (by decide)
  have hkeyword : ofKeyword? t.parenthesized = none := ofKeyword?_eq_none (by decide)
  have hquote : t.parenthesized.unquoted? = none := unquoted?_eq_none (by decide)
  have hnumber : isNumber t.parenthesized = false := rfl
  rw [ofText, htrim, hkeyword, hquote, hnumber, withoutParentheses_parenthesized, h]
  rfl

end DefaultValue
end AnnotatedSchema
