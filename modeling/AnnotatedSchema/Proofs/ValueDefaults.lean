import AnnotatedSchema.Proofs.DefaultPlacement
import AnnotatedSchema.Proofs.NumberForms
import AnnotatedSchema.Proofs.QueryNesting

/-!
# Defaults from program values

A default from a program is written by the type of its value, and a default in an annotation is told
apart by its text alone. The two agree on every value but the infinities and the value that is no
number: these are written as numbers, and what is read is an expression.
-/

namespace AnnotatedSchema

open Piece

/-! ## Decimals -/

namespace DefaultValue

open Numeral

theorem digits_ofNat (n : Nat) : Digits decimalDigits (Text.ofNat n) :=
  ⟨Nat.toDigits_ne_nil, fun _ hc => isDigit_iff.mp (Text.isDigit_of_mem_ofNat hc)⟩

-- Zeros may stand before digits and after them.
theorem digits_zeros {t : Text} (h : Digits decimalDigits t) (n : Nat) :
    Digits decimalDigits (t ++ List.replicate n '0') ∧
      Digits decimalDigits (List.replicate n '0' ++ t) := by
  have hzeros : ∀ c ∈ List.replicate n '0', c ∈ decimalDigits := by
    intro c hc
    rw [List.eq_of_mem_replicate hc]
    decide
  exact ⟨⟨by simp [h.1], List.forall_mem_append.mpr ⟨h.2, hzeros⟩⟩,
    ⟨by simp [h.1], List.forall_mem_append.mpr ⟨hzeros, h.2⟩⟩⟩

theorem isNumber_of_unsigned {t : Text} (h : Unsigned t) :
    isNumber t = true ∧ isNumber ('-' :: t) = true :=
  ⟨isNumber_iff.mpr ⟨[], t, .none, h, rfl⟩, isNumber_iff.mpr ⟨['-'], t, .minus, h, rfl⟩⟩

theorem unsigned_ofNat (n : Nat) : Unsigned (Text.ofNat n) := by
  have h := Unsigned.whole (digits_ofNat n) .none
  rwa [List.append_nil] at h

theorem isNumber_ofInt (n : Int) : isNumber (Text.ofInt n) = true := by
  cases n with
  | ofNat n => exact (isNumber_of_unsigned (unsigned_ofNat n)).1
  | negSucc n => exact (isNumber_of_unsigned (unsigned_ofNat (n + 1))).2

end DefaultValue

open DefaultValue Numeral

namespace Binary64

/-- A decimal has digits on both sides of its point. -/
theorem Decimal.positional_eq (d : Decimal) :
    ∃ w f, Digits decimalDigits w ∧ Digits decimalDigits f ∧ d.positional = w ++ '.' :: f := by
  have hdigits : Digits decimalDigits d.digitText := digits_ofNat d.digits
  have hne := hdigits.1
  have hall := hdigits.2
  unfold positional
  dsimp only
  by_cases hexponent : 0 ≤ d.exponent
  · rw [if_pos hexponent]
    exact ⟨_, "0", (digits_zeros hdigits _).1, by decide, rfl⟩
  · rw [if_neg hexponent]
    have hplaces : 0 < (-d.exponent).toNat := by omega
    generalize (-d.exponent).toNat = places at hplaces ⊢
    by_cases hshort : places < d.digitText.length
    · rw [if_pos hshort]
      have hbefore : d.digitText.take (d.digitText.length - places) ≠ [] := by
        rw [Ne, List.take_eq_nil_iff, not_or]
        exact ⟨by omega, hne⟩
      have hafter : d.digitText.drop (d.digitText.length - places) ≠ [] := by
        rw [Ne, List.drop_eq_nil_iff]
        omega
      exact ⟨_, _, ⟨hbefore, fun c hc => hall c (List.mem_of_mem_take hc)⟩,
        ⟨hafter, fun c hc => hall c (List.mem_of_mem_drop hc)⟩, by simp⟩
    · rw [if_neg hshort]
      exact ⟨"0", _, by decide, (digits_zeros hdigits (places - d.digitText.length)).2, by simp⟩

theorem isNumber_text {x : Binary64} (h : x.isFinite = true) : isNumber x.text = true := by
  have hfield : x.exponentField ≠ 2047 := by simpa [isFinite] using h
  obtain ⟨m, e, hmagnitude⟩ : ∃ m e, x.magnitude = .finite m e := by
    unfold magnitude
    rw [if_neg hfield]
    split <;> exact ⟨_, _, rfl⟩
  have hdecimal (w f : Text) (hw : Digits decimalDigits w) (hf : Digits decimalDigits f) :
      Unsigned (w ++ '.' :: f) := by
    have h := Unsigned.point hw (.inr hf) .none
    rwa [List.append_nil] at h
  have hunsigned :
      Unsigned (if m = 0 then "0.0".toList else (shortest .up m e).positional) := by
    by_cases hm : m = 0
    · rw [if_pos hm]
      exact hdecimal "0" "0" (by decide) (by decide)
    · obtain ⟨w, f, hw, hf, htext⟩ := (shortest .up m e).positional_eq
      rw [if_neg hm, htext]
      exact hdecimal w f hw hf
  obtain ⟨hplus, hminus⟩ := isNumber_of_unsigned hunsigned
  unfold text
  rw [hmagnitude]
  cases x.negative with
  | false => exact hplus
  | true => exact hminus

/-- The texts of the numbers that are not finite. -/
def specialTexts : List Text := ["NaN", "inf", "-inf"]

theorem text_mem_specialTexts {x : Binary64} (h : x.isFinite = false) : x.text ∈ specialTexts := by
  have hfield : x.exponentField = 2047 := by simpa [isFinite] using h
  have hmagnitude : x.magnitude = if x.fraction = 0 then .infinite else .nan := by
    unfold magnitude
    rw [if_pos hfield]
  unfold text
  rw [hmagnitude]
  by_cases hfraction : x.fraction = 0
  · rw [if_pos hfraction]
    cases x.negative <;> decide
  · rw [if_neg hfraction]
    show "NaN".toList ∈ specialTexts
    decide

end Binary64

/-! ## Values -/

/-- Whether the value is neither an infinity nor the value that is no number. -/
def Value.isFinite : Value → Bool
  | real x => x.isFinite
  | _ => true

theorem Value.isExpression_blob (bytes : List UInt8) : (blob bytes).literal.IsExpression where
  closed := Text.closed_iff_balanced.mpr (balanced_valueLiteral (.blob bytes))
  ne_nil := by simp [literal]
  trimmed := Text.trim_enclosed (a := 'X') (b := '\'') _ (by decide) (by decide)

theorem DefaultValue.writable_ofValue {v : Value} (h : v.isFinite = true) :
    (Constraint.default (ofValue v)).Writable := by
  cases v with
  | null => trivial
  | bool b => trivial
  | int n => exact isNumber_ofInt n.toInt
  | real x => exact Binary64.isNumber_text h
  | text t => trivial
  | blob bytes => exact Value.isExpression_blob bytes

namespace Annotation

-- A word after `DEFAULT` is read for what it looks like, if no clause starts with it.
theorem constraints_default_word (column : Text) {w : Text} (hword : w.IsWord)
    (hleads : Keyword.leads [ofWord w] = false) :
    constraints column ("DEFAULT ".toList ++ w) =
      .ok [⟨none, .default (ofText w)⟩] := by
  have hlone : ∀ p ∈ [ofWord "DEFAULT", ofWord w], p.Lone := List.forall_mem_cons.mpr
    ⟨lone_ofWord (by decide), List.forall_mem_singleton.mpr (lone_ofWord hword)⟩
  have htext : ' ' :: ("DEFAULT ".toList ++ w) = spaced [ofWord "DEFAULT", ofWord w] := by
    rw [spaced_cons, spaced_singleton]
    rfl
  rw [constraints_spaced column hlone htext,
    readConstraints_default column none hleads (by simp [ofWord, groupBody?])]
  rfl

theorem constraints_specialTexts (column : Text) :
    ∀ t ∈ Binary64.specialTexts, isNumber t = false ∧
      constraints column ("DEFAULT ".toList ++ t) = .ok [⟨none, .default (.expression t)⟩] := by
  have hread : ∀ t ∈ Binary64.specialTexts, t.IsWord ∧ Keyword.leads [ofWord t] = false ∧
      isNumber t = false ∧ ofText t = .expression t := by decide +kernel
  intro t ht
  obtain ⟨hword, hleads, hnumber, hvalue⟩ := hread t ht
  exact ⟨hnumber, hvalue ▸ constraints_default_word column hword hleads⟩

/-- The default of a value is read back as itself if the value is finite, and otherwise as an
expression. What a program gives for a number is one in an annotation just if it is finite. -/
theorem constraints_ofValue (v : Value) :
    (∀ column, constraints column (ofValue v).toSql =
      .ok [⟨none, .default (if v.isFinite then ofValue v else .expression v.literal)⟩]) ∧
    ∀ t, ofValue v = .number t → isNumber t = v.isFinite := by
  by_cases h : v.isFinite = true
  · have hwritable : AnnotatedConstraint.Writable ⟨none, .default (ofValue v)⟩ :=
      ⟨by simp, writable_ofValue h⟩
    rw [h]
    refine ⟨fun column => constraints_toSql column hwritable, fun t ht => ?_⟩
    have hnumber := writable_ofValue h
    rwa [ht] at hnumber
  · have h : v.isFinite = false := by simpa using h
    rw [h]
    cases v with
    | real x =>
      have hspecial := Binary64.text_mem_specialTexts h
      refine ⟨fun column => (constraints_specialTexts column x.text hspecial).2, fun t ht => ?_⟩
      obtain rfl := DefaultValue.number.inj ht
      exact (constraints_specialTexts [] x.text hspecial).1
    | _ => cases h

theorem constraints_ofValue_blob :
    constraints "c" "DEFAULT (X'00FF')" = .ok [⟨none, .default (.expression "X'00FF'")⟩] ∧
    isNumber "-0.0" = true := by
  have hblob : (ofValue (.blob [0, 255])).toSql = "DEFAULT (X'00FF')".toList := by decide +kernel
  have hzero : ofValue (.real (.ofSign true 0)) = .number "-0.0" := by decide +kernel
  have hfinite : Value.isFinite (.real (.ofSign true 0)) = true := by decide +kernel
  exact ⟨hblob ▸ (constraints_ofValue (.blob [0, 255])).1 "c",
    ((constraints_ofValue _).2 _ hzero).trans hfinite⟩

-- An infinity is written as a number, but is none where it is read.
theorem infinity_read_as_expression :
    ¬∀ (v : Value) (column : Text),
      constraints column (ofValue v).toSql = .ok [⟨none, .default (ofValue v)⟩] := by
  intro h
  have hback := h (.real (.ofSign false Binary64.infinityBits)) "c"
  have hread : constraints "c" (ofValue (.real (.ofSign false Binary64.infinityBits))).toSql =
      .ok [⟨none, .default (.expression "inf")⟩] := by decide +kernel
  have hsame := Except.ok.inj (hback.symm.trans hread)
  exact absurd hsame (by decide +kernel)

end Annotation

end AnnotatedSchema
