/-! Text as a list of characters, so that every reader and printer is a recursion on data. -/

namespace AnnotatedSchema

abbrev Text := List Char

/-- A string literal stands for its characters. -/
instance : Coe String Text := ⟨String.toList⟩

namespace Text

/-- The number of bytes of the text in UTF-8. Offsets into a text count these bytes. -/
def utf8Size : Text → Nat
  | [] => 0
  | c :: t => c.utf8Size + utf8Size t

/-- Capital letters for the 26 small letters of ASCII; every other character is kept. -/
def upperAscii (t : Text) : Text := t.map Char.toUpper

/-- Keywords are compared without regard to the case of ASCII letters. -/
def sameKeyword (t u : Text) : Bool := upperAscii t == upperAscii u

/-- The texts in order, with a comma and a blank between neighbours. -/
def commaSeparated (ts : List Text) : Text := List.intercalate ", ".toList ts

def spaceSeparated (ts : List Text) : Text := List.intercalate [' '] ts

def parenthesized (t : Text) : Text := '(' :: t ++ [')']

def ofNat (n : Nat) : Text := Nat.toDigits 10 n

/-- The decimal digits of an integer, after a minus sign if it is negative. -/
def ofInt : Int → Text
  | .ofNat n => ofNat n
  | .negSucc n => '-' :: ofNat (n + 1)

/-- A digit to the base 16, in small letters. -/
def smallHexDigit (n : Nat) : Char := Nat.digitChar n

/-- A number below 256 as two digits to the base 16, in small letters. -/
def smallHexByte (n : Nat) : Text := [smallHexDigit (n / 16), smallHexDigit (n % 16)]

@[simp] theorem utf8Size_nil : utf8Size [] = 0 := rfl

@[simp] theorem utf8Size_cons (c : Char) (t : Text) :
    utf8Size (c :: t) = c.utf8Size + utf8Size t := rfl

@[simp] theorem utf8Size_append (t u : Text) : utf8Size (t ++ u) = utf8Size t + utf8Size u := by
  induction t with
  | nil => simp
  | cons c t ih => simp [ih, Nat.add_assoc]

theorem isDigit_of_mem_ofNat {n : Nat} {c : Char} (h : c ∈ ofNat n) : c.isDigit = true :=
  Nat.isDigit_of_mem_toDigits (by decide) (by decide) h

-- Among keywords that differ, the one that is found is the one that is the same.
theorem find?_sameKeyword_iff {α : Type} {all : List α} {keywords : α → Text} {a : α}
    (ha : a ∈ all)
    (hinj : ∀ b ∈ all, (keywords a).upperAscii = (keywords b).upperAscii → a = b) {t : Text} :
    (all.find? fun b => t.sameKeyword (keywords b)) = some a ↔
      t.sameKeyword (keywords a) = true := by
  constructor
  · intro h
    simpa using List.find?_some h
  · intro h
    have hsome : (all.find? fun b => t.sameKeyword (keywords b)).isSome = true :=
      List.find?_isSome.mpr ⟨a, ha, h⟩
    obtain ⟨b, hb⟩ := Option.isSome_iff_exists.mp hsome
    have hsame : t.sameKeyword (keywords b) = true := by simpa using List.find?_some hb
    rw [sameKeyword, beq_iff_eq] at h hsame
    rw [hb, hinj b (List.mem_of_find?_eq_some hb) (h.symm.trans hsame)]

theorem cons_spaceSeparated (t : Text) (ts : List Text) :
    ' ' :: spaceSeparated (t :: ts) = (t :: ts).flatMap (' ' :: ·) := by
  induction ts generalizing t with
  | nil => simp [spaceSeparated, List.intercalate]
  | cons u ts ih =>
    rw [List.flatMap_cons, ← ih u]
    simp [spaceSeparated, List.intercalate]

theorem eq_append_of_isPrefixOf? {p t u : Text} (h : List.isPrefixOf? p t = some u) :
    t = p ++ u := by
  induction p generalizing t with
  | nil => exact Option.some.inj h
  | cons c p ih =>
    cases t with
    | nil => exact absurd h nofun
    | cons d t =>
      change (if c == d then List.isPrefixOf? p t else none) = some u at h
      split at h
      · simp_all [ih h]
      · simp at h

theorem eq_append_of_isSuffixOf? {p t u : Text} (h : List.isSuffixOf? p t = some u) :
    t = u ++ p := by
  obtain ⟨v, hv, rfl⟩ := Option.map_eq_some_iff.mp h
  simpa using congrArg List.reverse (eq_append_of_isPrefixOf? hv)

-- An element of two lists side by side is in the one or in the other.
theorem append_eq_append_cons {α : Type} {u v before after : List α} {c : α}
    (h : u ++ v = before ++ c :: after) :
    (∃ w, u = before ++ c :: w) ∨ ∃ w, before = u ++ w ∧ v = w ++ c :: after := by
  rcases List.append_eq_append_iff.mp h with ⟨w, hbefore, hv⟩ | ⟨w, hu, hw⟩
  · exact .inr ⟨w, hbefore, hv⟩
  · cases w with
    | nil => exact .inr ⟨[], by simpa using hu.symm, by simpa using hw.symm⟩
    | cons d w =>
      obtain ⟨rfl, -⟩ := List.cons.inj hw
      exact .inl ⟨w, hu⟩

end Text

end AnnotatedSchema
