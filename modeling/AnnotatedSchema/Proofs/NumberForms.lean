import AnnotatedSchema.Proofs.Defaults

/-!
# The forms of a number

A default is read as a number just if it has the form of one: digits with an optional sign, point
and exponent, or digits to the base 16. What is no number, keyword or quoted text is an expression.
-/

namespace AnnotatedSchema

/-! ## The grammar -/

namespace Numeral

def decimalDigits : Text := "0123456789"

def hexDigits : Text := "0123456789abcdefABCDEF"

/-- One or more of the digits. -/
def Digits (digits t : Text) : Prop := t ≠ [] ∧ ∀ c ∈ t, c ∈ digits

instance (digits t : Text) : Decidable (Digits digits t) :=
  have : Decidable (∀ c ∈ t, c ∈ digits) := List.decidableBAll _ t
  inferInstanceAs (Decidable (_ ∧ _))

/-- A sign, or nothing. -/
inductive Sign : Text → Prop
  | none : Sign []
  | plus : Sign ['+']
  | minus : Sign ['-']

/-- An exponent, or nothing. -/
inductive Exponent : Text → Prop
  | none : Exponent []
  | some {e : Char} {sign digits : Text} (he : e = 'e' ∨ e = 'E') (hsign : Sign sign)
      (hdigits : Digits decimalDigits digits) : Exponent (e :: (sign ++ digits))

/-- A number without its sign. -/
inductive Unsigned : Text → Prop
  | hexadecimal {x : Char} {digits : Text} (hx : x = 'x' ∨ x = 'X')
      (hdigits : Digits hexDigits digits) : Unsigned ('0' :: x :: digits)
  | whole {whole exponent : Text} (hwhole : Digits decimalDigits whole)
      (hexponent : Exponent exponent) : Unsigned (whole ++ exponent)
  | point {whole fraction exponent : Text} (hwhole : Digits decimalDigits whole)
      (hfraction : fraction = [] ∨ Digits decimalDigits fraction)
      (hexponent : Exponent exponent) : Unsigned (whole ++ '.' :: (fraction ++ exponent))
  | fraction {fraction exponent : Text} (hfraction : Digits decimalDigits fraction)
      (hexponent : Exponent exponent) : Unsigned ('.' :: (fraction ++ exponent))

end Numeral

open Numeral

/-- A number with an optional sign. -/
def IsNumeral (t : Text) : Prop := ∃ sign number, Sign sign ∧ Unsigned number ∧ t = sign ++ number

namespace DefaultValue

/-! ## Digits and signs -/

theorem isDigit_iff {c : Char} : c.isDigit = true ↔ c ∈ decimalDigits := by
  constructor
  · exact mem_digits_of_isDigit
  · have hdigits : decimalDigits.all Char.isDigit = true := by decide +kernel
    exact List.all_eq_true.mp hdigits c

theorem isHexDigit_iff {c : Char} : isHexDigit c = true ↔ c ∈ hexDigits := by
  constructor
  · intro h
    simp only [isHexDigit, Bool.or_eq_true, Bool.and_eq_true, decide_eq_true_eq] at h
    rcases h with (hdigit | ⟨hlow, hhigh⟩) | ⟨hlow, hhigh⟩
    · exact List.mem_append_left "abcdefABCDEF".toList (mem_digits_of_isDigit hdigit)
    · have hlow : 97 ≤ c.toNat := hlow
      have hhigh : c.toNat ≤ 102 := hhigh
      rw [← Char.ofNat_toNat c]
      interval_cases c.toNat <;> decide
    · have hlow : 65 ≤ c.toNat := hlow
      have hhigh : c.toNat ≤ 70 := hhigh
      rw [← Char.ofNat_toNat c]
      interval_cases c.toNat <;> decide
  · have hdigits : hexDigits.all isHexDigit = true := by decide +kernel
    exact List.all_eq_true.mp hdigits c

theorem isDigits_iff {t : Text} : isDigits t = true ↔ Digits decimalDigits t := by
  unfold isDigits Digits
  rw [Bool.and_eq_true, bne_iff_ne, List.all_eq_true]
  simp only [isDigit_iff]

theorem isHexDigits_iff {t : Text} :
    (t != [] && t.all isHexDigit) = true ↔ Digits hexDigits t := by
  unfold Digits
  rw [Bool.and_eq_true, bne_iff_ne, List.all_eq_true]
  simp only [isHexDigit_iff]

theorem exists_sign (t : Text) : ∃ sign, Sign sign ∧ t = sign ++ withoutSign t := by
  unfold withoutSign
  split
  · exact ⟨_, .plus, rfl⟩
  · exact ⟨_, .minus, rfl⟩
  · exact ⟨_, .none, rfl⟩

theorem withoutSign_append {sign t : Text} (hsign : Sign sign) (ht : withoutSign t = t) :
    withoutSign (sign ++ t) = t := by
  cases hsign with
  | none => exact ht
  | plus => rfl
  | minus => rfl

-- What starts with a digit or a point has no sign before it.
theorem withoutSign_eq_self {c : Char} (hc : c ∈ '.' :: decimalDigits) (t : Text) :
    withoutSign (c :: t) = c :: t := by
  unfold withoutSign
  split
  · next heq =>
    rw [(List.cons.inj heq).1] at hc
    exact absurd hc (by decide)
  · next heq =>
    rw [(List.cons.inj heq).1] at hc
    exact absurd hc (by decide)
  · rfl

theorem withoutSign_digits {t : Text} (ht : Digits decimalDigits t) (rest : Text) :
    withoutSign (t ++ rest) = t ++ rest := by
  cases t with
  | nil => exact absurd rfl ht.1
  | cons c t => exact withoutSign_eq_self (List.mem_cons_of_mem _ (ht.2 c List.mem_cons_self)) _

theorem isExponent_iff {t : Text} : isExponent t = true ↔ Exponent t := by
  constructor
  · intro h
    cases t with
    | nil => exact .none
    | cons c t =>
      simp only [isExponent, Bool.and_eq_true, Bool.or_eq_true, beq_iff_eq, isDigits_iff] at h
      obtain ⟨sign, hsign, ht⟩ := exists_sign t
      rw [ht]
      exact .some h.1 hsign h.2
  · intro h
    cases h with
    | none => rfl
    | some he hsign hdigits =>
      have hself := withoutSign_digits hdigits []
      rw [List.append_nil] at hself
      simp only [isExponent, Bool.and_eq_true, Bool.or_eq_true, beq_iff_eq, isDigits_iff]
      rw [withoutSign_append hsign hself]
      exact ⟨he, hdigits⟩

/-! ## Decimals -/

theorem takeWhile_digits {w rest : Text} (hw : ∀ c ∈ w, c ∈ decimalDigits)
    (hrest : ∀ c ∈ rest.head?, c ∉ decimalDigits) :
    (w ++ rest).takeWhile Char.isDigit = w ∧ (w ++ rest).dropWhile Char.isDigit = rest := by
  have hdigits : ∀ c ∈ w, c.isDigit = true := fun c hc => isDigit_iff.mpr (hw c hc)
  rw [List.takeWhile_append_of_pos hdigits, List.dropWhile_append_of_pos hdigits]
  cases rest with
  | nil => simp
  | cons c rest =>
    have hc : ¬c.isDigit = true := fun h => hrest c rfl (isDigit_iff.mp h)
    rw [List.takeWhile_cons_of_neg hc, List.dropWhile_cons_of_neg hc, List.append_nil]
    exact ⟨rfl, rfl⟩

theorem digits_takeWhile (t : Text) : ∀ c ∈ t.takeWhile Char.isDigit, c ∈ decimalDigits :=
  fun _ hc => isDigit_iff.mp (List.mem_takeWhile_imp hc)

theorem head_of_exponent {t : Text} (h : Exponent t) : ∀ c ∈ t.head?, c ∉ decimalDigits := by
  intro c hc
  cases h with
  | none => cases hc
  | some he =>
    rw [← Option.some.inj hc]
    rcases he with rfl | rfl <;> decide

theorem unsigned_of_isDecimal {t : Text} (h : isDecimal t = true) : Unsigned t := by
  have ht : t.takeWhile Char.isDigit ++ t.dropWhile Char.isDigit = t :=
    List.takeWhile_append_dropWhile
  have hwhole := digits_takeWhile t
  unfold isDecimal at h
  split at h
  · next rest hdrop =>
    simp only [Bool.and_eq_true, Bool.or_eq_true, bne_iff_ne, isExponent_iff] at h
    have hrest : rest.takeWhile Char.isDigit ++ rest.dropWhile Char.isDigit = rest :=
      List.takeWhile_append_dropWhile
    have hfraction := digits_takeWhile rest
    rw [← ht, hdrop, ← hrest]
    by_cases hnone : t.takeWhile Char.isDigit = []
    · rw [hnone]
      exact .fraction ⟨h.1.resolve_left (fun hsome => hsome hnone), hfraction⟩ h.2
    · by_cases hempty : rest.takeWhile Char.isDigit = []
      · exact .point ⟨hnone, hwhole⟩ (.inl hempty) h.2
      · exact .point ⟨hnone, hwhole⟩ (.inr ⟨hempty, hfraction⟩) h.2
  · simp only [Bool.and_eq_true, bne_iff_ne, isExponent_iff] at h
    rw [← ht]
    exact .whole ⟨h.1, hwhole⟩ h.2

theorem isDecimal_whole {whole exponent : Text} (hwhole : Digits decimalDigits whole)
    (hexponent : Exponent exponent) : isDecimal (whole ++ exponent) = true := by
  obtain ⟨htake, hdrop⟩ := takeWhile_digits hwhole.2 (head_of_exponent hexponent)
  unfold isDecimal
  rw [htake, hdrop]
  split
  · cases hexponent with
    | some he => rcases he with he | he <;> cases he
  · rw [Bool.and_eq_true, bne_iff_ne, isExponent_iff]
    exact ⟨hwhole.1, hexponent⟩

theorem isDecimal_point {whole fraction exponent : Text} (hwhole : ∀ c ∈ whole, c ∈ decimalDigits)
    (hfraction : ∀ c ∈ fraction, c ∈ decimalDigits) (hne : whole ≠ [] ∨ fraction ≠ [])
    (hexponent : Exponent exponent) :
    isDecimal (whole ++ '.' :: (fraction ++ exponent)) = true := by
  have hpoint : ∀ c ∈ ('.' :: (fraction ++ exponent)).head?, c ∉ decimalDigits := by
    intro c hc
    rw [← Option.some.inj hc]
    decide
  obtain ⟨htake, hdrop⟩ := takeWhile_digits hwhole hpoint
  obtain ⟨htake', hdrop'⟩ := takeWhile_digits hfraction (head_of_exponent hexponent)
  unfold isDecimal
  rw [htake, hdrop]
  show ((whole != [] || (fraction ++ exponent).takeWhile Char.isDigit != []) &&
    isExponent ((fraction ++ exponent).dropWhile Char.isDigit)) = true
  rw [htake', hdrop']
  simp only [Bool.and_eq_true, Bool.or_eq_true, bne_iff_ne, isExponent_iff]
  exact ⟨hne, hexponent⟩

/-! ## Numbers -/

-- A decimal has no `x` after its first digit.
theorem isUnsigned_of_isDecimal {t : Text} (h : isDecimal t = true) : isUnsigned t = true := by
  unfold isUnsigned
  split
  · simp [isDecimal, isExponent] at h
  · simp [isDecimal, isExponent] at h
  · exact h

theorem isUnsigned_iff {t : Text} : isUnsigned t = true ↔ Unsigned t := by
  constructor
  · intro h
    unfold isUnsigned at h
    split at h
    · exact .hexadecimal (.inl rfl) (isHexDigits_iff.mp h)
    · exact .hexadecimal (.inr rfl) (isHexDigits_iff.mp h)
    · exact unsigned_of_isDecimal h
  · intro h
    cases h with
    | hexadecimal hx hdigits =>
      rcases hx with rfl | rfl
      · exact isHexDigits_iff.mpr hdigits
      · exact isHexDigits_iff.mpr hdigits
    | whole hwhole hexponent => exact isUnsigned_of_isDecimal (isDecimal_whole hwhole hexponent)
    | point hwhole hfraction hexponent =>
      apply isUnsigned_of_isDecimal
      apply isDecimal_point hwhole.2 ?_ (.inl hwhole.1) hexponent
      rcases hfraction with rfl | hfraction
      · exact List.forall_mem_nil _
      · exact hfraction.2
    | fraction hfraction hexponent =>
      apply isUnsigned_of_isDecimal
      exact isDecimal_point (List.forall_mem_nil _) hfraction.2 (.inr hfraction.1) hexponent

theorem withoutSign_of_unsigned {t : Text} (h : Unsigned t) : withoutSign t = t := by
  cases h with
  | hexadecimal => rfl
  | whole hwhole => exact withoutSign_digits hwhole _
  | point hwhole => exact withoutSign_digits hwhole _
  | fraction => rfl

theorem isNumber_iff {t : Text} : isNumber t = true ↔ IsNumeral t := by
  constructor
  · intro h
    obtain ⟨sign, hsign, ht⟩ := exists_sign t
    exact ⟨sign, withoutSign t, hsign, isUnsigned_iff.mp h, ht⟩
  · rintro ⟨sign, number, hsign, hnumber, rfl⟩
    unfold isNumber
    rw [withoutSign_append hsign (withoutSign_of_unsigned hnumber)]
    exact isUnsigned_iff.mpr hnumber

example : (["-1.", "+.5e-3", "0X1f", ".", "0x", "1e+", "+-1", "inf"] : List Text).map isNumber =
    [true, true, true, false, false, false, false, false] := by decide

/-! ## Defaults -/

/-- The case of letters apart, the text is one of the default keywords. -/
def IsKeyword (t : Text) : Prop := ∃ k ∈ keywords, t.upperAscii = k.1

/-- The text starts and ends with the same quote. -/
def IsQuoted (t : Text) : Prop := ∃ q body, (q = '\'' ∨ q = '"') ∧ t = q :: body ++ [q]

/-- What an expression is made of: the text in round brackets without blanks at its ends, or the
whole text if it is in none. -/
inductive HasBody : Text → Text → Prop
  | enclosed (body : Text) : HasBody body.parenthesized body.trim
  | bare {t : Text} (h : ∀ body, t ≠ Text.parenthesized body) : HasBody t t

theorem ofKeyword?_eq_none_iff {t : Text} : ofKeyword? t = none ↔ ¬IsKeyword t := by
  have hupper : ∀ k ∈ keywords, k.1.upperAscii = k.1 := by decide +kernel
  unfold ofKeyword? IsKeyword
  rw [Option.map_eq_none_iff, List.find?_eq_none, not_exists]
  apply forall_congr'
  intro k
  rw [not_and]
  apply forall_congr'
  intro hk
  rw [Text.sameKeyword, beq_iff_eq, hupper k hk]

theorem unquoteWith?_eq_none_iff {q : Char} {t : Text} :
    Text.unquoteWith? q t = none ↔ ¬∃ body, t = q :: body ++ [q] := by
  cases t with
  | nil => simp [Text.unquoteWith?]
  | cons c t =>
    rw [Text.unquoteWith?, ite_eq_right_iff]
    constructor
    · rintro h ⟨body, hbody⟩
      obtain ⟨rfl, rfl⟩ := List.cons.inj hbody
      cases h ⟨rfl, List.getLast?_concat⟩
    · rintro h ⟨rfl, hlast⟩
      obtain ⟨body, rfl⟩ := List.getLast?_eq_some_iff.mp hlast
      exact absurd ⟨body, rfl⟩ h

theorem unquoted?_eq_none_iff {t : Text} : t.unquoted? = none ↔ ¬IsQuoted t := by
  unfold Text.unquoted? IsQuoted
  rw [Option.or_eq_none_iff, unquoteWith?_eq_none_iff, unquoteWith?_eq_none_iff]
  constructor
  · rintro ⟨hsingle, hdouble⟩ ⟨q, body, rfl | rfl, ht⟩
    · exact hsingle ⟨body, ht⟩
    · exact hdouble ⟨body, ht⟩
  · intro h
    constructor
    · rintro ⟨body, ht⟩
      exact h ⟨_, body, .inl rfl, ht⟩
    · rintro ⟨body, ht⟩
      exact h ⟨_, body, .inr rfl, ht⟩

theorem hasBody_withoutParentheses (t : Text) : HasBody t (withoutParentheses t) := by
  by_cases h : ∃ body, t = Text.parenthesized body
  · obtain ⟨body, rfl⟩ := h
    rw [withoutParentheses_parenthesized]
    exact .enclosed body
  · have hself : withoutParentheses t = t := by
      unfold withoutParentheses
      split
      · next rest =>
        cases hclose : List.isSuffixOf? [')'] rest with
        | none => rfl
        | some body =>
          rw [Text.eq_append_of_isSuffixOf? hclose] at h
          exact absurd ⟨body, rfl⟩ h
      · rfl
    rw [hself]
    exact .bare (not_exists.mp h)

theorem HasBody.eq {t sql : Text} (h : HasBody t sql) : sql = withoutParentheses t := by
  have hunique := hasBody_withoutParentheses t
  cases h with
  | enclosed body => rw [withoutParentheses_parenthesized]
  | bare h =>
    generalize withoutParentheses t = sql at hunique
    cases hunique with
    | enclosed body => exact absurd rfl (h body)
    | bare => rfl

theorem plain_of_isNumeral {t : Text} (h : IsNumeral t) : ¬IsKeyword t ∧ ¬IsQuoted t := by
  obtain ⟨hkeyword, hquoted⟩ := plain_of_isNumber (isNumber_iff.mpr h)
  exact ⟨ofKeyword?_eq_none_iff.mp hkeyword, unquoted?_eq_none_iff.mp hquoted⟩

theorem ofText_plain {piece : Text} (hkeyword : ¬IsKeyword piece.trim)
    (hquoted : ¬IsQuoted piece.trim) :
    ofText piece = if isNumber piece.trim then number piece.trim
      else expression (withoutParentheses piece.trim) := by
  unfold ofText
  dsimp only
  rw [ofKeyword?_eq_none_iff.mpr hkeyword, unquoted?_eq_none_iff.mpr hquoted]

-- A keyword and a quoted text stand for other defaults.
theorem ofText_special {piece : Text} (h : IsKeyword piece.trim ∨ IsQuoted piece.trim) :
    (∀ t, ofText piece ≠ number t) ∧ ∀ sql, ofText piece ≠ expression sql := by
  have hvalues : ∀ k ∈ keywords, (∀ t, k.2 ≠ number t) ∧ ∀ sql, k.2 ≠ expression sql := by
    unfold keywords
    simp
  unfold ofText
  dsimp only
  cases hkeyword : ofKeyword? piece.trim with
  | some value =>
    obtain ⟨k, hk, rfl⟩ := Option.map_eq_some_iff.mp hkeyword
    exact hvalues k (List.mem_of_find?_eq_some hk)
  | none =>
    have hquoted : IsQuoted piece.trim := h.resolve_left (ofKeyword?_eq_none_iff.mp hkeyword)
    cases hbody : piece.trim.unquoted? with
    | some body => simp
    | none => exact absurd hquoted (unquoted?_eq_none_iff.mp hbody)

/-- A default is a number just if it has the form of one, and then it is kept as it stands. What is
neither a number nor a keyword nor a quoted text is an expression, and is written in round
brackets. -/
theorem ofText_eq_number_iff (piece : Text) :
    (∀ t, ofText piece = number t ↔ IsNumeral piece.trim ∧ t = piece.trim) ∧
    ∀ sql, (ofText piece = expression sql ∧
        (ofText piece).toSql = "DEFAULT ".toList ++ sql.parenthesized) ↔
      ¬IsKeyword piece.trim ∧ ¬IsQuoted piece.trim ∧ ¬IsNumeral piece.trim ∧
        HasBody piece.trim sql := by
  by_cases hspecial : IsKeyword piece.trim ∨ IsQuoted piece.trim
  · obtain ⟨hnumber, hexpression⟩ := ofText_special hspecial
    have hnot : ¬IsNumeral piece.trim := by
      intro h
      exact hspecial.elim (plain_of_isNumeral h).1 (plain_of_isNumeral h).2
    constructor
    · intro t
      exact iff_of_false (hnumber t) fun h => hnot h.1
    · intro sql
      apply iff_of_false
      · exact fun h => hexpression sql h.1
      · exact fun h => hspecial.elim h.1 h.2.1
  · rw [not_or] at hspecial
    rw [ofText_plain hspecial.1 hspecial.2]
    by_cases hnumeral : IsNumeral piece.trim
    · rw [if_pos (isNumber_iff.mpr hnumeral)]
      constructor
      · intro t
        rw [number.injEq, eq_comm]
        exact (and_iff_right hnumeral).symm
      · intro sql
        apply iff_of_false
        · exact fun h => absurd h.1 nofun
        · exact fun h => h.2.2.1 hnumeral
    · rw [if_neg (fun h => hnumeral (isNumber_iff.mp h))]
      constructor
      · intro t
        apply iff_of_false nofun
        exact fun h => hnumeral h.1
      · intro sql
        constructor
        · rintro ⟨hsql, -⟩
          rw [← expression.inj hsql]
          exact ⟨hspecial.1, hspecial.2, hnumeral, hasBody_withoutParentheses piece.trim⟩
        · rintro ⟨-, -, -, hbody⟩
          rw [hbody.eq]
          exact ⟨rfl, rfl⟩

end DefaultValue

end AnnotatedSchema
