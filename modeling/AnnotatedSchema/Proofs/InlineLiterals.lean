import AnnotatedSchema.Value

/-!
# Literals can be read back

The first character of a literal tells the kind of its value, and the rest the value itself. So the
values that are no double precision numbers have a literal each, and no two of them the same.
-/

namespace AnnotatedSchema

namespace Text

/-! ## Digits -/

/-- The integer that decimal digits stand for, after a minus sign if it is negative. -/
def integer : Text → Int
  | '-' :: t => -Nat.ofDigitChars 10 t 0
  | t => Nat.ofDigitChars 10 t 0

/-- The digits to the base 16, in capitals. -/
def capitalHexDigits : Text := "0123456789ABCDEF"

/-- The bytes that the text has as pairs of digits to the base 16, in capitals. -/
def hexBytes? : Text → Option (List UInt8)
  | [] => some []
  | [_] => none
  | c :: d :: t => do
    let high ← capitalHexDigits.idxOf? c
    let low ← capitalHexDigits.idxOf? d
    let bytes ← hexBytes? t
    return UInt8.ofNat (16 * high + low) :: bytes

theorem ofDigitChars_ofNat (n : Nat) : Nat.ofDigitChars 10 (ofNat n) 0 = n :=
  Nat.ofDigitChars_toDigits (by decide) (by decide)

theorem mem_ofInt {n : Int} {c : Char} (h : c ∈ ofInt n) : c = '-' ∨ c.isDigit = true := by
  cases n with
  | ofNat n => exact .inr (isDigit_of_mem_ofNat h)
  | negSucc n => exact (List.mem_cons.mp h).imp_right isDigit_of_mem_ofNat

theorem integer_ofInt (n : Int) : (ofInt n).integer = n := by
  cases n with
  | ofNat n =>
    have hminus : '-' ∉ ofNat n := fun h => absurd (isDigit_of_mem_ofNat h) (by decide)
    have hread : (ofNat n).integer = Nat.ofDigitChars 10 (ofNat n) 0 := by
      unfold integer
      split
      · next t heq => exact absurd (heq ▸ List.mem_cons_self) hminus
      · rfl
    exact hread.trans (congrArg Int.ofNat (ofDigitChars_ofNat n))
  | negSucc n =>
    have hread : (ofInt (.negSucc n)).integer = -(Nat.ofDigitChars 10 (ofNat (n + 1)) 0 : Int) :=
      rfl
    rw [hread, ofDigitChars_ofNat]
    rfl

theorem idxOf?_hexDigit : ∀ n < 16, capitalHexDigits.idxOf? (hexDigit n) = some n := by decide

theorem hexBytes?_hexByte (b : UInt8) (t : Text) :
    hexBytes? (hexByte b ++ t) = (hexBytes? t).map (b :: ·) := by
  have hb : b.toNat < 256 := b.toNat_lt
  have hhigh := idxOf?_hexDigit (b.toNat / 16) (by omega)
  have hlow := idxOf?_hexDigit (b.toNat % 16) (by omega)
  have hbyte : UInt8.ofNat (16 * (b.toNat / 16) + b.toNat % 16) = b := by
    rw [Nat.div_add_mod, UInt8.ofNat_toNat]
  have hcons : hexByte b ++ t = hexDigit (b.toNat / 16) :: hexDigit (b.toNat % 16) :: t := rfl
  rw [hcons, hexBytes?, hhigh, hlow]
  dsimp only [Option.bind_eq_bind, Option.bind_some]
  rw [hbyte]
  cases hexBytes? t <;> rfl

theorem hexBytes?_flatten (bytes : List UInt8) :
    hexBytes? (bytes.map hexByte).flatten = some bytes := by
  induction bytes with
  | nil => rfl
  | cons b bytes ih => rw [List.map_cons, List.flatten_cons, hexBytes?_hexByte, ih, Option.map_some]

/-- What is read as bytes has two digits for each of them. -/
theorem digits_of_hexBytes? {t : Text} {bytes : List UInt8} (h : hexBytes? t = some bytes) :
    t.length = 2 * bytes.length ∧ ∀ c ∈ t, c ∈ capitalHexDigits := by
  fun_induction hexBytes? t generalizing bytes with
  | case1 =>
    obtain rfl := Option.some.inj h
    exact ⟨rfl, List.forall_mem_nil _⟩
  | case2 => cases h
  | case3 c d t ih =>
    simp only [Option.bind_eq_bind, Option.bind_eq_some_iff] at h
    obtain ⟨high, hhigh, low, hlow, rest, hrest, hbytes⟩ := h
    obtain rfl := Option.some.inj hbytes
    obtain ⟨hlength, hdigits⟩ := ih hrest
    have hmem {c : Char} {i : Nat} (hi : capitalHexDigits.idxOf? c = some i) :
        c ∈ capitalHexDigits := by
      obtain ⟨hlt, rfl, -⟩ := List.idxOf?_eq_some_iff.mp hi
      exact List.getElem_mem hlt
    refine ⟨?_, List.forall_mem_cons.mpr
      ⟨hmem hhigh, List.forall_mem_cons.mpr ⟨hmem hlow, hdigits⟩⟩⟩
    rw [List.length_cons, List.length_cons, List.length_cons, hlength]
    omega

end Text

namespace Value

/-! ## Reading a literal -/

/-- The value, other than a double precision number, that has the literal. -/
def ofLiteral? : Text → Option Value
  | '\'' :: t => (Text.unquoteWith? '\'' ('\'' :: t)).map text
  | 'X' :: '\'' :: t => (Text.hexBytes? t.dropLast).map blob
  | t =>
    if t = "NULL" then some null
    else if t = "TRUE" then some (bool true)
    else if t = "FALSE" then some (bool false)
    else some (int (Int64.ofInt t.integer))

theorem ofLiteral?_ofInt (n : Int64) : ofLiteral? (Text.ofInt n.toInt) = some (int n) := by
  have hnot {c : Char} (hc : ¬(c = '-' ∨ c.isDigit = true)) : c ∉ Text.ofInt n.toInt :=
    mt Text.mem_ofInt hc
  have hkeyword {c : Char} {keyword : Text} (hc : ¬(c = '-' ∨ c.isDigit = true))
      (hmem : c ∈ keyword) : Text.ofInt n.toInt ≠ keyword := fun heq => hnot hc (heq ▸ hmem)
  unfold ofLiteral?
  split
  · next t heq => exact absurd (heq ▸ List.mem_cons_self) (hnot (c := '\'') (by decide))
  · next t heq => exact absurd (heq ▸ List.mem_cons_self) (hnot (c := 'X') (by decide))
  · rw [if_neg (hkeyword (c := 'N') (by decide) (by decide)),
      if_neg (hkeyword (c := 'T') (by decide) (by decide)),
      if_neg (hkeyword (c := 'F') (by decide) (by decide)), Text.integer_ofInt, Int64.ofInt_toInt]

theorem ofLiteral?_literal {v : Value} (h : ∀ x, v ≠ real x) : ofLiteral? v.literal = some v := by
  cases v with
  | null => rfl
  | bool b => cases b <;> rfl
  | int n => exact ofLiteral?_ofInt n
  | real x => exact absurd rfl (h x)
  | text t => exact congrArg (Option.map text) (Text.unquoteWith?_doubled '\'' t)
  | blob bytes =>
    have hread : Text.hexBytes? ((bytes.map hexByte).flatten ++ ['\'']).dropLast = some bytes := by
      rw [List.dropLast_concat, Text.hexBytes?_flatten]
    exact congrArg (Option.map blob) hread

/-- Two values that are no double precision numbers have the same literal only if they are the same.
The literal of bytes has two digits to the base 16 for each byte, and they can be read as the
bytes. -/
theorem literal_unambiguous :
    (∀ v w : Value, (∀ x, v ≠ real x) → (∀ x, w ≠ real x) → v.literal = w.literal → v = w) ∧
    ∀ bytes, ∃ digits : Text,
      (blob bytes).literal = "X'".toList ++ digits ++ "'".toList ∧
      digits.length = 2 * bytes.length ∧ (∀ c ∈ digits, c ∈ Text.capitalHexDigits) ∧
      Text.hexBytes? digits = some bytes := by
  constructor
  · intro v w hv hw h
    have hread := ofLiteral?_literal hv
    rw [h, ofLiteral?_literal hw] at hread
    exact (Option.some.inj hread).symm
  · intro bytes
    have hread := Text.hexBytes?_flatten bytes
    obtain ⟨hlength, hdigits⟩ := Text.digits_of_hexBytes? hread
    exact ⟨_, rfl, hlength, hdigits, hread⟩

-- The literals of a number, of a text that looks like bytes, and of these bytes.
theorem literal_unambiguous_bytes :
    (int (-1)).literal = (int (Int64.ofInt 0xFFFFFFFFFFFFFFFF)).literal ∧
      int (-1) = int (Int64.ofInt 0xFFFFFFFFFFFFFFFF) ∧
      (text "X'00CA'").literal ≠ (blob [0, 202]).literal ∧
      ∃ digits : Text, (blob [0, 202]).literal = "X'".toList ++ digits ++ "'".toList ∧
        digits.length = 4 ∧ Text.hexBytes? digits = some [0, 202] := by
  obtain ⟨hinjective, hbytes⟩ := literal_unambiguous
  have hsame : (int (-1)).literal = (int (Int64.ofInt 0xFFFFFFFFFFFFFFFF)).literal := by
    decide +kernel
  have hint (n : Int64) (x : Binary64) : int n ≠ real x := nofun
  obtain ⟨digits, hliteral, hlength, -, hread⟩ := hbytes [0, 202]
  refine ⟨hsame, hinjective _ _ (hint _) (hint _) hsame, fun h => ?_,
    digits, hliteral, hlength, hread⟩
  cases hinjective (text "X'00CA'") (blob [0, 202]) nofun nofun h

end Value

end AnnotatedSchema
