import AnnotatedSchema.Proofs.IdentifierPasses

/-!
# The words of an identifier

An identifier has the characters of its name in order, each capital in its small form, and an
underscore more before each capital that starts a word. An underscore that is put in is neither
first nor last and has no other beside it, so it is never put behind one that is there already.
-/

namespace AnnotatedSchema

/-! ## Letters and separators -/

/-- A character of an identifier: a letter stands for a character of the name, a separator is put
in before a word. -/
inductive Mark where
  | letter (c : Char)
  | separator

namespace Mark

def char : Mark → Char
  | letter c => c
  | separator => '_'

def letter? : Mark → Option Char
  | letter c => some c
  | separator => none

/-- What is left of the marks without the separators. -/
def letters (marks : List Mark) : Text := marks.filterMap letter?

@[simp] theorem letters_append (marks others : List Mark) :
    letters (marks ++ others) = letters marks ++ letters others :=
  List.filterMap_append

@[simp] theorem letters_map_letter (t : Text) : letters (t.map letter) = t := by
  rw [letters, List.filterMap_map]
  exact List.filterMap_some

@[simp] theorem map_char_letter (t : Text) : (t.map letter).map char = t := by
  rw [List.map_map]
  exact List.map_id t

theorem separator_not_mem_letter (t : Text) : separator ∉ t.map letter := by
  simp

end Mark

open Mark

/-- What stands in an identifier for a character of the name. -/
def spelling (c : Char) : Text := if isCapital c then smallForm c else [c]

theorem spelling_ne_nil (c : Char) : spelling c ≠ [] := by
  unfold spelling
  split
  · exact smallForm_ne_nil c
  · exact List.cons_ne_nil c []

theorem exists_getLast?_spelling (c : Char) : ∃ d, (spelling c).getLast? = some d :=
  ⟨_, List.getLast?_eq_some_getLast (spelling_ne_nil c)⟩

/-- The marks of the rest of a name, where `before` is the character that comes before it. -/
def marksAfter (before : Option Char) : Text → List Mark
  | [] => []
  | c :: rest =>
    (if isCapital c && startsWord before rest.head? then [.separator] else []) ++
      (spelling c).map .letter ++ marksAfter (some c) rest

theorem map_char_marksAfter (before : Option Char) (t : Text) :
    (marksAfter before t).map Mark.char = identifierAfter before t := by
  induction t generalizing before with
  | nil => rfl
  | cons c rest ih =>
    rw [marksAfter, List.map_append, List.map_append, map_char_letter, ih, spelling]
    cases hc : isCapital c with
    | false => rw [identifierAfter_other hc]; rfl
    | true =>
      rw [identifierAfter_capital hc]
      cases startsWord before rest.head? <;> rfl

theorem letters_marksAfter (before : Option Char) (t : Text) :
    letters (marksAfter before t) = t.flatMap spelling := by
  induction t generalizing before with
  | nil => rfl
  | cons c rest ih =>
    rw [marksAfter, letters_append, letters_append, letters_map_letter, ih, List.flatMap_cons]
    split <;> rfl

/-! ## Underscores of the name -/

-- The small form of a capital has no underscore.
theorem underscore_not_mem_smallForm {c : Char} (h : isCapital c = true) : '_' ∉ smallForm c := by
  intro hmem
  cases hasSmallForm_of_isCapital h with
  | unpaired hunpaired =>
    rw [smallForm_of_isUnpaired hunpaired, List.mem_singleton] at hmem
    rw [← hmem, isCapital_underscore] at h
    cases h
  | dotted hdot =>
    rw [hdot] at hmem
    revert hmem
    decide +kernel
  | paired _ hform hsmall =>
    rw [hform, List.mem_singleton] at hmem
    rw [← hmem, isSmall_underscore] at hsmall
    cases hsmall

theorem underscore_not_mem_spelling_of_isCapital {c : Char} (h : isCapital c = true) :
    '_' ∉ spelling c := by
  rw [spelling, if_pos h]
  exact underscore_not_mem_smallForm h

-- No word starts right behind an underscore.
theorem underscore_not_mem_spelling_of_startsWord {p : Char} {next : Option Char}
    (h : startsWord (some p) next = true) : '_' ∉ spelling p := by
  unfold spelling
  split
  · exact underscore_not_mem_smallForm ‹_›
  · intro hmem
    rw [← List.mem_singleton.mp hmem, startsWord_underscore] at h
    cases h

/-- Writes the identifier of the rest of a name behind what is written already. No underscore is put
in behind another. -/
def writeIdentifier (written : Text) (before : Option Char) : Text → Text
  | [] => written
  | c :: rest =>
    if isCapital c then
      let starts := startsWord before rest.head? && written.getLast? != some '_'
      writeIdentifier (written ++ (if starts then ['_'] else []) ++ smallForm c) (some c) rest
    else writeIdentifier (written ++ [c]) (some c) rest

-- What is written last stands for the character before, so it is no underscore where a word starts.
theorem startsWord_and_getLast?_ne {written : Text} {before : Option Char}
    (h : ∀ p, before = some p → written.getLast? = (spelling p).getLast?) (next : Option Char) :
    (startsWord before next && written.getLast? != some '_') = startsWord before next := by
  cases hstart : startsWord before next with
  | false => rfl
  | true =>
    cases before with
    | none => cases hstart
    | some p =>
      rw [Bool.true_and, bne_iff_ne, h p rfl]
      intro hlast
      exact underscore_not_mem_spelling_of_startsWord hstart (List.mem_of_getLast? hlast)

theorem writeIdentifier_eq_append {written : Text} {before : Option Char}
    (h : ∀ p, before = some p → written.getLast? = (spelling p).getLast?) (t : Text) :
    writeIdentifier written before t = written ++ identifierAfter before t := by
  induction t generalizing written before with
  | nil => rw [writeIdentifier, identifierAfter, List.append_nil]
  | cons c rest ih =>
    rw [writeIdentifier, startsWord_and_getLast?_ne h]
    cases hc : isCapital c with
    | false =>
      have hlast : ∀ p, some c = some p → (written ++ [c]).getLast? = (spelling p).getLast? := by
        rintro p ⟨⟩
        rw [spelling, hc, List.getLast?_concat]
        rfl
      rw [if_neg Bool.false_ne_true, ih hlast, identifierAfter_other hc, List.append_assoc,
        List.singleton_append]
    | true =>
      have hlast (gap : Text) : ∀ p, some c = some p →
          (written ++ gap ++ smallForm c).getLast? = (spelling p).getLast? := by
        rintro p ⟨⟩
        rw [spelling, hc, if_pos rfl, List.getLast?_append_of_ne_nil _ (smallForm_ne_nil c)]
      rw [if_pos rfl, ih (hlast _), identifierAfter_capital hc]
      simp only [List.append_assoc]

theorem writeIdentifier_eq_identifier (name : Text) :
    writeIdentifier [] none name = identifier name :=
  writeIdentifier_eq_append (by simp) name

/-! ## Where the separators stand -/

/-- The marks are those for the text, and the last of them is a letter. -/
structure MarkedBy (t : Text) (marks : List Mark) : Prop where
  letters_eq : letters marks = t.flatMap spelling
  getLast?_eq : marks.getLast? = t.getLast?.bind fun c => (spelling c).getLast?.map letter

theorem markedBy_nil : MarkedBy [] [] := ⟨rfl, rfl⟩

theorem MarkedBy.cons {t : Text} {gap marks : List Mark} (h : MarkedBy t marks)
    (hgap : letters gap = []) (c : Char) :
    MarkedBy (c :: t) (gap ++ ((spelling c).map letter ++ marks)) where
  letters_eq := by
    rw [letters_append, letters_append, hgap, letters_map_letter, h.letters_eq, List.flatMap_cons,
      List.nil_append]
  getLast?_eq := by
    obtain ⟨d, hd⟩ := exists_getLast?_spelling c
    rw [List.getLast?_append, List.getLast?_append, h.getLast?_eq, List.getLast?_map,
      List.getLast?_cons]
    cases hlast : t.getLast? with
    | none => simp [hd]
    | some p =>
      obtain ⟨e, he⟩ := exists_getLast?_spelling p
      simp [he]

theorem getLast?_cons_or (c : Char) (u : Text) (before : Option Char) :
    (c :: u).getLast?.or before = u.getLast?.or (some c) := by
  rw [List.getLast?_cons]
  cases u.getLast? <;> rfl

theorem marksAfter_append (before : Option Char) (u v : Text) :
    ∃ left, MarkedBy u left ∧
      marksAfter before (u ++ v) = left ++ marksAfter (u.getLast?.or before) v := by
  induction u generalizing before with
  | nil => exact ⟨[], markedBy_nil, rfl⟩
  | cons c u ih =>
    obtain ⟨left, hleft, hmarks⟩ := ih (some c)
    let gap : List Mark :=
      if isCapital c && startsWord before (u ++ v).head? then [.separator] else []
    have hgap : letters gap = [] := by
      dsimp only [gap]
      split <;> rfl
    refine ⟨gap ++ ((spelling c).map letter ++ left), hleft.cons hgap c, ?_⟩
    rw [List.cons_append, marksAfter, hmarks, getLast?_cons_or]
    simp only [gap, List.append_assoc]

/-- The capital `c` starts a word behind the characters `u`, with `v` after it, and the separator
before it stands between the marks `left` and `right`. -/
structure WordAt (before : Option Char) (u : Text) (c : Char) (v : Text)
    (left right : List Mark) : Prop where
  capital : isCapital c = true
  starts : startsWord (u.getLast?.or before) v.head? = true
  left_marks : MarkedBy u left
  right_eq : right = (spelling c).map letter ++ marksAfter (some c) v

theorem WordAt.cons {d c : Char} {u v : Text} {left right : List Mark}
    (h : WordAt (some d) u c v left right) (before : Option Char) {gap : List Mark}
    (hgap : letters gap = []) :
    WordAt before (d :: u) c v (gap ++ ((spelling d).map letter ++ left)) right where
  capital := h.capital
  starts := by
    rw [getLast?_cons_or]
    exact h.starts
  left_marks := h.left_marks.cons hgap d
  right_eq := h.right_eq

theorem WordAt.letters_right {before : Option Char} {u v : Text} {c : Char}
    {left right : List Mark} (h : WordAt before u c v left right) :
    letters right = (c :: v).flatMap spelling := by
  rw [h.right_eq, letters_append, letters_map_letter, letters_marksAfter, List.flatMap_cons]

-- Every separator has been put in before a capital that starts a word.
theorem split_of_separator {before : Option Char} {t : Text} {left right : List Mark}
    (h : marksAfter before t = left ++ .separator :: right) :
    ∃ u c v, t = u ++ c :: v ∧ WordAt before u c v left right := by
  induction t generalizing before left with
  | nil => exact absurd h.symm (by simp [marksAfter])
  | cons d rest ih =>
    -- Behind the letters for `d` the separator is one of the rest of the text.
    have hrest (gap behind : List Mark) (hgap : letters gap = [])
        (h : (spelling d).map letter ++ marksAfter (some d) rest = behind ++ .separator :: right) :
        ∃ u c v, d :: rest = u ++ c :: v ∧ WordAt before u c v (gap ++ behind) right := by
      rcases Text.append_eq_append_cons h with ⟨w, hw⟩ | ⟨left', rfl, hmarks⟩
      · have hmem : .separator ∈ (spelling d).map letter := by simp [hw]
        exact absurd hmem (separator_not_mem_letter _)
      · obtain ⟨u, c, v, rfl, hword⟩ := ih hmarks
        exact ⟨d :: u, c, v, rfl, hword.cons before hgap⟩
    rw [marksAfter, List.append_assoc] at h
    by_cases hstarts : (isCapital d && startsWord before rest.head?) = true
    · rw [if_pos hstarts] at h
      cases left with
      | nil =>
        obtain ⟨-, hright⟩ := List.cons.inj h
        rw [Bool.and_eq_true] at hstarts
        exact ⟨[], d, rest, rfl, hstarts.1, hstarts.2, markedBy_nil, hright.symm⟩
      | cons mark left =>
        obtain ⟨rfl, hmarks⟩ := List.cons.inj h
        exact hrest [.separator] left rfl hmarks
    · rw [if_neg hstarts] at h
      exact hrest [] left rfl h

theorem separator_of_split {before : Option Char} {u v : Text} {c : Char}
    (hc : isCapital c = true) (hstarts : startsWord (u.getLast?.or before) v.head? = true) :
    ∃ left right, marksAfter before (u ++ c :: v) = left ++ .separator :: right ∧
      WordAt before u c v left right := by
  obtain ⟨left, hleft, hmarks⟩ := marksAfter_append before u (c :: v)
  refine ⟨left, _, ?_, hc, hstarts, hleft, rfl⟩
  rw [hmarks, marksAfter, hc, hstarts]
  rfl

-- The characters of a name up to some place are known from what stands for them.
theorem eq_of_flatMap_spelling {u v u' v' : Text} (h : u ++ v = u' ++ v')
    (hspelling : u.flatMap spelling = u'.flatMap spelling) : u = u' := by
  have hnil {w : Text} (hw : w.flatMap spelling = []) : w = [] := by
    rw [List.flatMap_eq_nil_iff] at hw
    exact List.eq_nil_iff_forall_not_mem.mpr fun c hc => spelling_ne_nil c (hw c hc)
  rcases List.append_eq_append_iff.mp h with ⟨w, rfl, -⟩ | ⟨w, rfl, -⟩
  · rw [List.flatMap_append, List.self_eq_append_right] at hspelling
    rw [hnil hspelling, List.append_nil]
  · rw [List.flatMap_append, List.append_right_eq_self] at hspelling
    rw [hnil hspelling, List.append_nil]

theorem startsWord_eq_true_iff {before next : Option Char} :
    startsWord before next = true ↔ ∃ p, before = some p ∧ (isSmall p = true ∨ p.isDigit = true ∨
      isCapital p = true ∧ ∃ n, next = some n ∧ isSmall n = true) := by
  cases before with
  | none => simp [startsWord]
  | some p => simp [startsWord, Option.any_eq_true, or_assoc]

/-! ## The identifier of a name -/

/-- The marks are those of the name, and separators are put in where a word starts. -/
structure MarksWords (name : Text) (marks : List Mark) : Prop where
  /-- But for the separators, each character of the name is kept or, if capital, made small. -/
  letters_eq : letters marks = name.flatMap spelling
  /-- A separator stands right before a capital that is not the first character of the name. -/
  before_capital : ∀ left right, marks = left ++ .separator :: right →
    ∃ before c after, name = before ++ c :: after ∧ before ≠ [] ∧ isCapital c = true ∧
      letters left = before.flatMap spelling ∧ letters right = (c :: after).flatMap spelling
  /-- A separator stands between two letters, and none of them is an underscore. -/
  apart : ∀ left right, marks = left ++ .separator :: right →
    ∃ x y, left.getLast? = some (.letter x) ∧ right.head? = some (.letter y) ∧ x ≠ '_' ∧ y ≠ '_'
  /-- A capital has a separator before it just if it comes after a small letter or a digit, or
  between a capital and a small letter. -/
  starts_iff : ∀ before c after, name = before ++ c :: after → isCapital c = true →
    ((∃ left right, marks = left ++ .separator :: right ∧
        letters left = before.flatMap spelling ∧ letters right = (c :: after).flatMap spelling) ↔
      ∃ p, before.getLast? = some p ∧ (isSmall p = true ∨ p.isDigit = true ∨
        isCapital p = true ∧ ∃ n, after.head? = some n ∧ isSmall n = true))

theorem WordAt.apart {u v : Text} {c : Char} {left right : List Mark}
    (h : WordAt none u c v left right) :
    ∃ x y, left.getLast? = some (.letter x) ∧ right.head? = some (.letter y) ∧
      x ≠ '_' ∧ y ≠ '_' := by
  have hstarts := h.starts
  have hleft := h.left_marks.getLast?_eq
  obtain ⟨y, spelled, hy⟩ := List.exists_cons_of_ne_nil (spelling_ne_nil c)
  cases hlast : u.getLast? with
  | none => rw [hlast] at hstarts; cases hstarts
  | some p =>
    obtain ⟨x, hx⟩ := exists_getLast?_spelling p
    rw [hlast, Option.or_none] at hstarts
    rw [hlast, Option.bind_some, hx] at hleft
    refine ⟨x, y, hleft, by rw [h.right_eq, hy]; rfl, ?_, ?_⟩
    · rintro rfl
      exact underscore_not_mem_spelling_of_startsWord hstarts (List.mem_of_getLast? hx)
    · rintro rfl
      exact underscore_not_mem_spelling_of_isCapital h.capital (hy ▸ List.mem_cons_self)

theorem marksWords_marksAfter (name : Text) : MarksWords name (marksAfter none name) where
  letters_eq := letters_marksAfter none name
  before_capital left right h := by
    obtain ⟨u, c, v, rfl, hword⟩ := split_of_separator h
    refine ⟨u, c, v, rfl, ?_, hword.capital, hword.left_marks.letters_eq, hword.letters_right⟩
    rintro rfl
    cases hword.starts
  apart left right h := by
    obtain ⟨u, c, v, rfl, hword⟩ := split_of_separator h
    exact hword.apart
  starts_iff before c after hname hc := by
    rw [← startsWord_eq_true_iff, ← Option.or_none (o := before.getLast?)]
    constructor
    · rintro ⟨left, right, h, hleft, -⟩
      obtain ⟨u, d, v, hsplit, hword⟩ := split_of_separator h
      have hsplits := hname.symm.trans hsplit
      obtain rfl := eq_of_flatMap_spelling hsplits (hleft.symm.trans hword.left_marks.letters_eq)
      obtain ⟨rfl, rfl⟩ := List.cons.inj (List.append_cancel_left hsplits)
      exact hword.starts
    · intro hstarts
      obtain ⟨left, right, hmarks, hword⟩ := separator_of_split hc hstarts
      exact ⟨left, right, hname ▸ hmarks, hword.left_marks.letters_eq, hword.letters_right⟩

/-- The identifier of a name has the characters of the name in order, capitals made small, and an
underscore more right before each capital that starts a word. Those underscores stand alone, so it
makes no difference not to put one in behind another. -/
theorem identifier_words (name : Text) :
    (∃ marks, MarksWords name marks ∧ identifier name = marks.map Mark.char) ∧
      identifier name = writeIdentifier [] none name :=
  ⟨⟨marksAfter none name, marksWords_marksAfter name, (map_char_marksAfter none name).symm⟩,
    (writeIdentifier_eq_identifier name).symm⟩

example : identifier "_HTTPServer_ID2KeyÀŒuvre" = "_http_server_id2_key_à_œuvre" := by
  decide +kernel

end AnnotatedSchema
