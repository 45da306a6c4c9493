import AnnotatedSchema.Proofs.RoundTrip
import AnnotatedSchema.Proofs.Tiling

/-!
# Quoted texts

Writing a literal doubles each quote, scanning looks one character ahead of a quote, and unquoting
takes the quotes in pairs from the left. The three agree on where a literal ends and on the text in
it, however many quotes stand side by side.
-/

namespace AnnotatedSchema

open Piece

theorem DefaultValue.ofText_doubled {q : Char} (hq : q = '\'' ∨ q = '"') (t : Text) :
    ofText (q :: (Text.doubled q t ++ [q])) = text t := by
  rcases hq with rfl | rfl
  · exact ofText_quoted t
  · have htrim : Text.trim ('"' :: (Text.doubled '"' t ++ ['"'])) =
        '"' :: (Text.doubled '"' t ++ ['"']) := Text.trim_enclosed _ (by decide) (by decide)
    have hunquoted : Text.unquoted? ('"' :: (Text.doubled '"' t ++ ['"'])) = some t :=
      Text.unquoteWith?_doubled '"' t
    rw [ofText, htrim, ofKeyword?_eq_none (by decide), hunquoted]

namespace Piece

-- What comes after the literal does not start with its quote, so the literal ends there.
theorem next?_quoted (offset : Nat) (s : Text) {r : Text} (hr : r.head? ≠ some '\'') :
    next? offset (s.quoted ++ r) = .ok (some (⟨.quoted, s.quoted, offset⟩, r)) := by
  have hclose := closeQuote?_exchange (closeQuote?_doubled_closed '\'' s) hr
  show next? offset ('\'' :: (Text.doubled '\'' s ++ ['\''] ++ r)) = _
  rw [next?_first (by decide), first_quoted (by decide) hclose]
  rfl

-- Every literal is some text with its quotes doubled.
theorem exists_doubled_of_mem {t : Text} {p : Piece} (hp : p ∈ (scanFrom 0 t).1)
    (hkind : p.kind = .quoted) :
    ∃ q s, isQuote q = true ∧ p.text = q :: (Text.doubled q s ++ [q]) := by
  obtain ⟨offset, c, u, rest, -, hfirst⟩ := first_of_mem hp
  rcases first_cases hfirst with ⟨body, -, -, rfl⟩ | ⟨body, hquote, hbody, rfl⟩ | ⟨-, -, rfl, -⟩
  · cases hkind
  · obtain ⟨inner, hinner, rfl⟩ := isLiteralBody_of_closeQuote? hbody
    obtain ⟨s, rfl⟩ := hinner.eq_doubled
    exact ⟨c, s, hquote, rfl⟩
  · cases hkind

/-- A text in quotes is scanned as the whole literal and no more, and read as that text. A literal
in single or double quotes is read as the text whose quotes, doubled, are those of the literal, and
the default of that text is read back from where it is written. -/
theorem next?_ofText_quoted :
    (∀ offset (s r : Text), r.head? ≠ some '\'' →
      next? offset (s.quoted ++ r) = .ok (some (⟨.quoted, s.quoted, offset⟩, r))) ∧
    (∀ s : Text, DefaultValue.ofText s.quoted = .text s) ∧
    ∀ (tag : Text) ps p q, scan tag = .ok ps → p ∈ ps → p.kind = .quoted →
      p.text.head? = some q → q = '\'' ∨ q = '"' →
      ∃ s : Text, p.text = q :: (Text.doubled q s ++ [q]) ∧ DefaultValue.ofText p.text = .text s ∧
        ∀ column, Annotation.constraints column (DefaultValue.text s).toSql =
          .ok [⟨none, .default (.text s)⟩] := by
  refine ⟨fun offset s r hr => next?_quoted offset s hr, DefaultValue.ofText_quoted, ?_⟩
  intro tag ps p q hscan hp hkind hhead hq
  have hmem : p ∈ (scanFrom 0 tag).1 := by
    rw [scan_eq_ok_iff.mp hscan]
    exact hp
  obtain ⟨c, s, -, htext⟩ := exists_doubled_of_mem hmem hkind
  obtain rfl : c = q := by
    rw [htext] at hhead
    exact Option.some.inj hhead
  refine ⟨s, htext, ?_, fun column => ?_⟩
  · rw [htext]
    exact DefaultValue.ofText_doubled hq s
  · have hwritable : AnnotatedConstraint.Writable ⟨none, .default (.text s)⟩ :=
      ⟨by simp, trivial⟩
    exact Annotation.constraints_toSql column hwritable

theorem next?_ofText_quoted_runs :
    next? 8 (Text.quoted "a''b'" ++ "CHECK(x)".toList) =
      .ok (some (⟨.quoted, "'a''''b'''", 8⟩, "CHECK(x)")) ∧
    ∃ s, "\"it's \"\"\"".toList = '"' :: (Text.doubled '"' s ++ ['"']) ∧
      DefaultValue.ofText "\"it's \"\"\"" = .text s ∧
      Annotation.constraints "c" (DefaultValue.text s).toSql =
        .ok [⟨none, .default (.text s)⟩] := by
  have hread : scan "DEFAULT \"it's \"\"\"" =
      .ok [⟨.word, "DEFAULT", 0⟩, ⟨.quoted, "\"it's \"\"\"", 8⟩] := by decide +kernel
  obtain ⟨hscan, -, hpieces⟩ := next?_ofText_quoted
  obtain ⟨s, htext, hvalue, hback⟩ := hpieces _ _ ⟨.quoted, "\"it's \"\"\"", 8⟩ '"' hread
    (by simp) rfl rfl (.inr rfl)
  exact ⟨hscan 8 "a''b'" "CHECK(x)" (by decide), s, htext, hvalue, hback "c"⟩

end Piece

end AnnotatedSchema
