import AnnotatedSchema.Text.Basic

/-!
Quoted text. A quote inside a quoted text is written twice; reading takes each pair of quotes, from
left to right, for one.
-/

namespace AnnotatedSchema

/-- The characters that open and close a quoted text. -/
def isQuote (c : Char) : Bool := c == '\'' || c == '"' || c == '\x60'

namespace Text

/-- The text with each quote `q` written twice. -/
def doubled (q : Char) : Text → Text
  | [] => []
  | c :: t => if c = q then q :: q :: doubled q t else c :: doubled q t

/-- The text with each pair of quotes `q`, taken from left to right, written once. -/
def undoubled (q : Char) : Text → Text
  | [] => []
  | [c] => [c]
  | c :: d :: t => if c = q ∧ d = q then q :: undoubled q t else c :: undoubled q (d :: t)

/-- The text as a literal in single quotes. -/
def quoted (t : Text) : Text := '\'' :: doubled '\'' t ++ ['\'']

/-- The body of a text that starts and ends with the quote `q`, each pair of quotes read as one. -/
def unquoteWith? (q : Char) : Text → Option Text
  | [] => none
  | c :: t =>
    if c = q ∧ t.getLast? = some q then some (undoubled q t.dropLast) else none

/-- Reads a text in single quotes, or else one in double quotes. -/
def unquoted? (t : Text) : Option Text :=
  (unquoteWith? '\'' t).or (unquoteWith? '"' t)

theorem undoubled_doubled (q : Char) (t : Text) : undoubled q (doubled q t) = t := by
  induction t with
  | nil => rfl
  | cons c t ih =>
    by_cases h : c = q
    · simp [doubled, undoubled, h, ih]
    · rw [doubled, if_neg h]
      cases hd : doubled q t with
      | nil => rw [hd] at ih; simp [undoubled] at ih ⊢; exact ih
      | cons d u => rw [hd] at ih; rw [undoubled, if_neg (by simp [h]), ih]

theorem unquoteWith?_doubled (q : Char) (t : Text) :
    unquoteWith? q (q :: (doubled q t ++ [q])) = some t := by
  rw [unquoteWith?, if_pos ⟨rfl, List.getLast?_concat⟩, List.dropLast_concat, undoubled_doubled]

theorem unquoted?_quoted (t : Text) : unquoted? (quoted t) = some t := by
  have hsingle : unquoteWith? '\'' (quoted t) = some t := unquoteWith?_doubled '\'' t
  rw [unquoted?, hsingle, Option.some_or]

end Text

end AnnotatedSchema
