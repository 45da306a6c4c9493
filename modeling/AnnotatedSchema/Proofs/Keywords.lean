import AnnotatedSchema.Annotation.Keyword

/-!
# Which pieces start a keyword

A piece is at most one word, up to the case of its letters; so a word that no keyword starts with is
never taken for one, and what follows a piece matters only for `PRIMARY KEY` and `NOT NULL`.
-/

namespace AnnotatedSchema

/-- Whether the first of the pieces is the given word. -/
def headIs (word : Text) (ps : List Piece) : Bool := ps.head?.any (·.isWord word)

namespace Piece

theorem upperAscii_of_isWord {p : Piece} {word : Text} (h : p.isWord word = true) :
    p.text.upperAscii = word.upperAscii := by
  simp only [isWord, Text.sameKeyword, Bool.and_eq_true, beq_iff_eq] at h
  exact h.2

theorem kind_of_isWord {p : Piece} {word : Text} (h : p.isWord word = true) : p.kind = .word := by
  simp only [isWord, Bool.and_eq_true, beq_iff_eq] at h
  exact h.1

theorem kind_of_groupBody? {p : Piece} {body : Text} (h : p.groupBody? = some body) :
    p.kind = .group := by
  unfold groupBody? at h
  split at h
  · assumption
  · cases h

theorem isWord_eq_false {p : Piece} {v w : Text} (h : p.isWord v = true)
    (hne : v.upperAscii ≠ w.upperAscii) : p.isWord w = false := by
  cases hw : p.isWord w with
  | false => rfl
  | true => exact absurd ((upperAscii_of_isWord h).symm.trans (upperAscii_of_isWord hw)) hne

end Piece

namespace Keyword

/-- The words that keywords start with. -/
def firstWords : List Text := oneWord.map text ++ [("PRIMARY" : Text), ("NOT" : Text)]

theorem isWord_of_leads {p : Piece} {rest : List Piece} (h : leads (p :: rest) = true) :
    ∃ word ∈ firstWords, p.isWord word = true := by
  simp only [leads, leading?] at h
  split at h
  · next k hk =>
    exact ⟨k.text, List.mem_append_left _ (List.mem_map_of_mem (List.mem_of_find?_eq_some hk)),
      by simpa using List.find?_some hk⟩
  · split at h
    · next hp =>
      exact ⟨"PRIMARY", List.mem_append_right _ (by simp), (Bool.and_eq_true _ _ ▸ hp).1⟩
    · split at h
      · next hn =>
        exact ⟨"NOT", List.mem_append_right _ (by simp), (Bool.and_eq_true _ _ ▸ hn).1⟩
      · simp at h

theorem not_isWord_of_leads {p : Piece} {rest : List Piece} {w : Text}
    (h : leads (p :: rest) = true) (hw : ∀ v ∈ firstWords, v.upperAscii ≠ w.upperAscii) :
    p.isWord w = false := by
  obtain ⟨v, hv, hp⟩ := isWord_of_leads h
  exact Piece.isWord_eq_false hp (hw v hv)

-- A piece is at most one of the keywords of one word.
theorem leading?_of_isWord {p : Piece} {k : Keyword} (hk : k ∈ oneWord)
    (h : p.isWord k.text = true) (rest : List Piece) : leading? (p :: rest) = some k := by
  have hsome : (oneWord.find? fun k => p.isWord k.text).isSome = true :=
    List.find?_isSome.mpr ⟨k, hk, h⟩
  obtain ⟨found, hfound⟩ := Option.isSome_iff_exists.mp hsome
  have hword : p.isWord found.text = true := by simpa using List.find?_some hfound
  have hsame : found.text.upperAscii = k.text.upperAscii :=
    (Piece.upperAscii_of_isWord hword).symm.trans (Piece.upperAscii_of_isWord h)
  have hinj : ∀ k ∈ oneWord, ∀ l ∈ oneWord, l.text.upperAscii = k.text.upperAscii → l = k := by
    decide
  simp only [leading?, hfound, hinj k hk found (List.mem_of_find?_eq_some hfound) hsame]

theorem isWord_of_leading? {p : Piece} {rest : List Piece} {k : Keyword}
    (h : leading? (p :: rest) = some k) (hk : k ∈ oneWord) : p.isWord k.text = true := by
  simp only [leading?] at h
  split at h
  · next found hfound =>
    obtain rfl : found = k := Option.some.inj h
    simpa using List.find?_some hfound
  · split at h
    · obtain rfl := Option.some.inj h
      exact absurd hk (by decide)
    · split at h
      · obtain rfl := Option.some.inj h
        exact absurd hk (by decide)
      · cases h

theorem isWord_of_not_leads {p : Piece} {rest : List Piece} (h : leads (p :: rest) = false)
    {k : Keyword} (hk : k ∈ oneWord) : p.isWord k.text = false := by
  cases hp : p.isWord k.text with
  | false => rfl
  | true => rw [leads, leading?_of_isWord hk hp] at h; cases h

-- A word that no keyword starts with leads to none, whatever follows.
theorem leads_eq_false_of_isWord {p : Piece} {w : Text} (h : p.isWord w = true)
    (hw : ∀ v ∈ firstWords, v.upperAscii ≠ w.upperAscii) (rest : List Piece) :
    leads (p :: rest) = false := by
  cases hl : leads (p :: rest) with
  | false => rfl
  | true =>
    rw [not_isWord_of_leads hl hw] at h
    cases h

theorem leads_of_kind {p : Piece} (h : p.kind ≠ .word) (rest : List Piece) :
    leads (p :: rest) = false := by
  cases hl : leads (p :: rest) with
  | false => rfl
  | true =>
    obtain ⟨w, _, hp⟩ := isWord_of_leads hl
    exact absurd (Piece.kind_of_isWord hp) h

/-- Whether the pieces are at their end or start a keyword. -/
def Follows (rest : List Piece) : Prop := rest = [] ∨ leads rest = true

theorem Follows.not_isWord {w : Text} {p : Piece} {rest : List Piece} (h : Follows (p :: rest))
    (hw : ∀ v ∈ firstWords, v.upperAscii ≠ w.upperAscii) : p.isWord w = false :=
  not_isWord_of_leads (h.resolve_left (List.cons_ne_nil p rest)) hw

-- A clause that comes next does not change which keyword the pieces start with.
theorem leading?_append {rest : List Piece} (h : Follows rest) {ps : List Piece} (hne : ps ≠ []) :
    leading? (ps ++ rest) = leading? ps := by
  obtain ⟨p, ps, rfl⟩ := List.exists_cons_of_ne_nil hne
  cases ps with
  | cons q ps => rfl
  | nil =>
    cases rest with
    | nil => rfl
    | cons q rest =>
      -- The second piece is looked at only for `KEY` and `NULL`, which no keyword starts with.
      have hkey : q.isWord "KEY" = false := h.not_isWord (by decide)
      have hnull : q.isWord "NULL" = false := h.not_isWord (by decide)
      simp only [leading?, List.cons_append, List.nil_append, List.head?_cons, List.head?_nil,
        Option.any_some, Option.any_none, hkey, hnull, Bool.and_false, Bool.false_eq_true, if_false]

theorem leads_append {rest : List Piece} (h : Follows rest) {ps : List Piece} (hne : ps ≠ []) :
    leads (ps ++ rest) = leads ps := by
  rw [leads, leading?_append h hne, leads]

end Keyword

end AnnotatedSchema
