import AnnotatedSchema.Identifier
import AnnotatedSchema.Proofs.LetterCase

/-!
# Identifiers of identifiers

The identifier of an identifier is that identifier, but for names with a capital letter that has no
small form: the letters around it can become small in the first pass, and so start a word before it
in the second. A third pass never changes anything.
-/

namespace AnnotatedSchema

/-! ## Texts that are their own identifiers -/

/-- Whether some capital of the text starts a word, where `before` comes before the text. -/
def startsWords (before : Option Char) : Text → Bool
  | [] => false
  | c :: rest => isCapital c && startsWord before rest.head? || startsWords (some c) rest

theorem smallForm_ne_nil (c : Char) : smallForm c ≠ [] := by
  unfold smallForm
  split
  · simp
  · split <;> simp

theorem isCapital_underscore : isCapital '_' = false := by decide +kernel

theorem isSmall_underscore : isSmall '_' = false := by decide +kernel

theorem startsWord_underscore (next : Option Char) : startsWord (some '_') next = false := by
  rw [startsWord, isSmall_underscore, isCapital_underscore]
  rfl

theorem identifierAfter_capital {c : Char} (h : isCapital c = true) (before : Option Char)
    (rest : Text) :
    identifierAfter before (c :: rest) =
      (if startsWord before rest.head? then ['_'] else []) ++ smallForm c ++
        identifierAfter (some c) rest := by
  rw [identifierAfter, if_pos h]

theorem identifierAfter_other {c : Char} (h : isCapital c = false) (before : Option Char)
    (rest : Text) :
    identifierAfter before (c :: rest) = c :: identifierAfter (some c) rest := by
  rw [identifierAfter, if_neg (ne_true_of_eq_false h)]

-- A capital that starts a word has an underscore put before it, which is no capital.
theorem identifierAfter_eq_self_iff {t : Text}
    (h : ∀ c ∈ t, isCapital c = true → isUnpaired c = true) (before : Option Char) :
    identifierAfter before t = t ↔ startsWords before t = false := by
  induction t generalizing before with
  | nil => exact iff_of_true rfl rfl
  | cons c rest ih =>
    obtain ⟨hc, hrest⟩ := List.forall_mem_cons.mp h
    have ih := ih hrest (some c)
    cases hcapital : isCapital c with
    | false =>
      rw [identifierAfter_other hcapital, startsWords, hcapital, Bool.false_and, Bool.false_or,
        ← ih, List.cons.injEq]
      exact and_iff_right rfl
    | true =>
      rw [identifierAfter_capital hcapital, smallForm_of_isUnpaired (hc hcapital), startsWords,
        hcapital, Bool.true_and]
      cases startsWord before rest.head? with
      | true =>
        refine iff_of_false (fun heq => ?_) (by simp)
        have hhead : '_' = c := (List.cons.inj heq).1
        rw [← hhead, isCapital_underscore] at hcapital
        cases hcapital
      | false =>
        rw [Bool.false_or, ← ih]
        exact ⟨fun heq => (List.cons.inj heq).2, congrArg (c :: ·)⟩

-- The capitals of an identifier are those that have no small form.
theorem isUnpaired_of_mem_identifierAfter {before : Option Char} {t : Text} {d : Char}
    (hd : d ∈ identifierAfter before t) (hcapital : isCapital d = true) : isUnpaired d = true := by
  induction t generalizing before with
  | nil => cases hd
  | cons c rest ih =>
    cases hc : isCapital c with
    | false =>
      rw [identifierAfter_other hc, List.mem_cons] at hd
      rcases hd with rfl | hd
      · rw [hc] at hcapital
        cases hcapital
      · exact ih hd
    | true =>
      rw [identifierAfter_capital hc, List.mem_append, List.mem_append] at hd
      rcases hd with (hd | hd) | hd
      · split at hd
        · rw [List.mem_singleton.mp hd, isCapital_underscore] at hcapital
          cases hcapital
        · cases hd
      · cases hpaired : isUnpaired c with
        | true =>
          rw [smallForm_of_isUnpaired hpaired, List.mem_singleton] at hd
          rwa [hd]
        | false =>
          rw [isCapital_of_mem_smallForm hc hpaired d hd] at hcapital
          cases hcapital
      · exact ih hd

/-! ## Where a second pass starts a word -/

/-- Whether the capital `c` without a small form, between `p` and `rest`, starts no word but does
so once its neighbours are small: either `p` becomes small, or it stays a capital too and the first
character of `rest` becomes small. -/
def Turns (p c : Char) (rest : Text) : Prop :=
  isCapital p = true ∧ isUnpaired c = true ∧ startsWord (some p) rest.head? = false ∧
    (isUnpaired p = false ∧ p ≠ 'İ' ∨
      isUnpaired p = true ∧ ∃ n after, rest = n :: after ∧ isCapital n = true ∧
        isUnpaired n = false ∧ startsWord (some c) after.head? = false)

/-- Whether a second pass starts a word somewhere in the identifier of the name. -/
def Unsettled (name : Text) : Prop := ∃ p c rest, p :: c :: rest <:+ name ∧ Turns p c rest

/-- The character that comes last in the identifier for `c`. -/
def lastForm? (c : Char) : Option Char :=
  if isCapital c then (smallForm c).getLast? else some c

theorem isSmall_head?_identifierAfter {c : Char} {rest : Text}
    (h : rest.head?.any isSmall = false) :
    (identifierAfter (some c) rest).head?.any isSmall = true ↔
      ∃ n after, rest = n :: after ∧ isCapital n = true ∧ isUnpaired n = false ∧
        startsWord (some c) after.head? = false := by
  cases rest with
  | nil =>
    refine iff_of_false (by simp [identifierAfter]) ?_
    rintro ⟨n, after, hrest, -⟩
    cases hrest
  | cons n after =>
    have hsmall : isSmall n = false := h
    have hiff : (∃ n' after', n :: after = n' :: after' ∧ isCapital n' = true ∧
        isUnpaired n' = false ∧ startsWord (some c) after'.head? = false) ↔
        isCapital n = true ∧ isUnpaired n = false ∧ startsWord (some c) after.head? = false := by
      simp
    rw [hiff]
    cases hn : isCapital n with
    | false =>
      rw [identifierAfter_other hn]
      exact iff_of_false (by simpa using hsmall) (by simp)
    | true =>
      rw [identifierAfter_capital hn]
      cases startsWord (some c) after.head? with
      | true =>
        exact iff_of_false (by simpa using isSmall_underscore) (by simp)
      | false =>
        cases hasSmallForm_of_isCapital hn with
        | unpaired hunpaired =>
          rw [smallForm_of_isUnpaired hunpaired]
          exact iff_of_false (by simpa using hsmall) (by simp [hunpaired])
        | dotted hdot =>
          have hform : smallForm n = ['i', '\u0307'] := by rw [hdot]; decide +kernel
          have hi : isSmall 'i' = true := by decide +kernel
          have hpaired : isUnpaired n = false := by rw [hdot]; decide +kernel
          rw [hform]
          exact iff_of_true (by simpa using hi) (by simp [hpaired])
        | paired hpaired hform hd =>
          rw [hform]
          exact iff_of_true (by simpa using hd) (by simp [hpaired])

-- What was no word start becomes one in the second pass exactly where the neighbours turn.
theorem startsWord_lastForm_iff {p c : Char} {rest : Text} (hc : isUnpaired c = true)
    (h : startsWord (some p) rest.head? = false) :
    startsWord (lastForm? p) (identifierAfter (some c) rest).head? = true ↔ Turns p c rest := by
  have hparts := h
  simp only [startsWord, Bool.or_eq_false_iff] at hparts
  obtain ⟨⟨hsmall, hdigit⟩, hnext⟩ := hparts
  cases hp : isCapital p with
  | false =>
    have hlast : lastForm? p = some p := if_neg (ne_true_of_eq_false hp)
    refine iff_of_false ?_ (fun hturns => ?_)
    · simp [hlast, startsWord, hsmall, hdigit, hp]
    · rw [hturns.1] at hp
      cases hp
  | true =>
    have hlast : lastForm? p = (smallForm p).getLast? := if_pos hp
    rw [hp, Bool.true_and] at hnext
    cases hasSmallForm_of_isCapital hp with
    | unpaired hunpaired =>
      have hself : lastForm? p = some p := by rw [hlast, smallForm_of_isUnpaired hunpaired]; rfl
      have hhead := isSmall_head?_identifierAfter (c := c) hnext
      rw [hself, startsWord, hsmall, hdigit, hp, Bool.false_or, Bool.false_or, Bool.true_and, hhead]
      simp [Turns, hp, hc, h, hunpaired]
    | dotted hdot =>
      have hself : lastForm? p = some '\u0307' := by rw [hdot]; decide +kernel
      have hmark : isSmall '\u0307' = false ∧ isCapital '\u0307' = false := by decide +kernel
      have hpaired : isUnpaired p = false := by rw [hdot]; decide +kernel
      refine iff_of_false ?_ ?_
      · simp [hself, startsWord, hmark, Char.isDigit]
      · rintro ⟨-, -, -, ⟨-, hne⟩ | ⟨hunpaired, -⟩⟩
        · exact hne hdot
        · rw [hpaired] at hunpaired
          cases hunpaired
    | paired hpaired hform hd =>
      have hdot : p ≠ 'İ' := by
        rintro rfl
        have htwo : (smallForm 'İ').length = 2 := by decide +kernel
        rw [hform] at htwo
        cases htwo
      rw [hlast, hform]
      exact iff_of_true (by simp [startsWord, hd])
        ⟨hp, hc, h, .inl ⟨hpaired, hdot⟩⟩

theorem startsWords_append {xs : Text} (h : ∀ c ∈ xs, isCapital c = false) (before : Option Char)
    (ys : Text) : startsWords before (xs ++ ys) = startsWords (xs.getLast?.or before) ys := by
  induction xs generalizing before with
  | nil => rfl
  | cons x xs ih =>
    obtain ⟨hx, hxs⟩ := List.forall_mem_cons.mp h
    rw [List.cons_append, startsWords, hx, Bool.false_and, Bool.false_or, ih hxs,
      List.getLast?_cons]
    cases xs.getLast? <;> rfl

-- What stands for a capital with a small form has no capital.
theorem startsWords_paired {c : Char} (hcapital : isCapital c = true)
    (hpaired : isUnpaired c = false) (marked : Bool) (before : Option Char) (ys : Text) :
    startsWords before ((if marked then ['_'] else []) ++ smallForm c ++ ys) =
      startsWords (lastForm? c) ys := by
  have hnone : ∀ d ∈ (if marked then ['_'] else []) ++ smallForm c, isCapital d = false := by
    intro d hd
    rcases List.mem_append.mp hd with hd | hd
    · split at hd
      · rw [List.mem_singleton.mp hd, isCapital_underscore]
      · cases hd
    · exact isCapital_of_mem_smallForm hcapital hpaired d hd
  have hlast : lastForm? c = (smallForm c).getLast? := if_pos hcapital
  obtain ⟨d, hd⟩ : ∃ d, (smallForm c).getLast? = some d :=
    ⟨_, List.getLast?_eq_some_getLast (smallForm_ne_nil c)⟩
  rw [startsWords_append hnone, List.getLast?_append_of_ne_nil _ (smallForm_ne_nil c), hlast, hd,
    Option.some_or]

-- After an underscore nothing starts a word.
theorem startsWords_underscore {c : Char} {ys : Text} (before : Option Char) :
    startsWords before ('_' :: c :: ys) = startsWords (some c) ys := by
  rw [startsWords, isCapital_underscore, Bool.false_and, Bool.false_or, startsWords,
    startsWord_underscore, Bool.and_false, Bool.false_or]

theorem not_turns_of_paired {c : Char} (h : isUnpaired c = false) (before : Option Char)
    (rest : Text) : ¬∃ p ∈ before, Turns p c rest := by
  rintro ⟨p, -, -, hunpaired, -⟩
  rw [h] at hunpaired
  cases hunpaired

theorem unsettled_cons_iff {before : Option Char} {c : Char} {rest : Text} :
    Unsettled (before.toList ++ c :: rest) ↔
      (∃ p ∈ before, Turns p c rest) ∨ Unsettled (c :: rest) := by
  cases before with
  | none => simp
  | some p =>
    have hsuffix (q d : Char) (after : Text) : q :: d :: after <:+ p :: c :: rest ↔
        q = p ∧ d = c ∧ after = rest ∨ q :: d :: after <:+ c :: rest := by
      rw [List.suffix_cons_iff, List.cons.injEq, List.cons.injEq]
    simp only [Unsettled, Option.toList_some, List.singleton_append, hsuffix, or_and_right,
      exists_or, Option.mem_some_iff]
    simp

/-- A second pass starts a word in an identifier exactly where the name's neighbours turn. -/
theorem startsWords_identifierAfter_iff (before : Option Char) (t : Text) :
    startsWords (before.bind lastForm?) (identifierAfter before t) = true ↔
      Unsettled (before.toList ++ t) := by
  induction t generalizing before with
  | nil =>
    refine iff_of_false (by simp [identifierAfter, startsWords]) ?_
    rintro ⟨p, c, rest, hsuffix, -⟩
    have hlength := hsuffix.length_le
    cases before <;> simp at hlength
  | cons c rest ih =>
    have ih := ih (some c)
    rw [Option.bind_some, Option.toList_some, List.singleton_append] at ih
    rw [unsettled_cons_iff]
    cases hcapital : isCapital c with
    | false =>
      have hlast : lastForm? c = some c := if_neg (ne_true_of_eq_false hcapital)
      have hpaired : isUnpaired c = false := by rw [isUnpaired, hcapital, Bool.false_and]
      rw [hlast] at ih
      rw [identifierAfter_other hcapital, startsWords, hcapital, Bool.false_and, Bool.false_or, ih,
        or_iff_right (not_turns_of_paired hpaired before rest)]
    | true =>
      rw [identifierAfter_capital hcapital]
      cases hunpaired : isUnpaired c with
      | false =>
        rw [startsWords_paired hcapital hunpaired, ih,
          or_iff_right (not_turns_of_paired hunpaired before rest)]
      | true =>
        have hself : smallForm c = [c] := smallForm_of_isUnpaired hunpaired
        have hlast : lastForm? c = some c := by
          rw [lastForm?, if_pos hcapital, hself]
          rfl
        rw [hlast] at ih
        rw [hself]
        cases hstarts : startsWord before rest.head? with
        | true =>
          have hnot : ¬∃ p ∈ before, Turns p c rest := by
            rintro ⟨p, hp, -, -, hnot, -⟩
            rw [Option.mem_def.mp hp, hnot] at hstarts
            cases hstarts
          rw [if_pos rfl, List.singleton_append, List.cons_append, List.singleton_append,
            startsWords_underscore]
          exact ih.trans (or_iff_right hnot).symm
        | false =>
          have hhere : startsWord (before.bind lastForm?) (identifierAfter (some c) rest).head? =
              true ↔ ∃ p ∈ before, Turns p c rest := by
            cases before with
            | none => simp [startsWord]
            | some p => simpa using startsWord_lastForm_iff hunpaired hstarts
          rw [if_neg Bool.false_ne_true, List.nil_append, List.singleton_append, startsWords,
            hcapital, Bool.true_and, Bool.or_eq_true, hhere]
          exact or_congr_right ih

/-! ## Passes over a name -/

theorem identifier_identifier_eq_iff (name : Text) :
    identifier (identifier name) = identifier name ↔ ¬Unsettled name := by
  have hpass := startsWords_identifierAfter_iff none name
  rw [Option.bind_none, Option.toList_none, List.nil_append] at hpass
  rw [identifier, identifier, identifierAfter_eq_self_iff
    (fun c hc => isUnpaired_of_mem_identifierAfter hc), ← hpass, Bool.not_eq_true]

-- In an identifier no capital has a small form, so no neighbour is left to turn.
theorem not_unsettled_identifier (name : Text) : ¬Unsettled (identifier name) := by
  rintro ⟨p, c, rest, hsuffix, hp, -, -, hturn⟩
  have hcapitals {d : Char} (hd : d ∈ p :: c :: rest) (hcapital : isCapital d = true) :
      isUnpaired d = true :=
    isUnpaired_of_mem_identifierAfter (hsuffix.subset hd) hcapital
  rcases hturn with ⟨hpaired, -⟩ | ⟨-, n, after, rfl, hn, hpaired, -⟩
  · rw [hcapitals List.mem_cons_self hp] at hpaired
    cases hpaired
  · rw [hcapitals (by simp) hn] at hpaired
    cases hpaired

/-- The identifier of an identifier is that identifier, unless the name has a capital without a
small form that starts no word but does so once its neighbours are small. After two passes nothing
changes any more. -/
theorem identifier_passes (name : Text) :
    (identifier (identifier name) = identifier name ↔ ¬Unsettled name) ∧
      identifier (identifier (identifier name)) = identifier (identifier name) :=
  ⟨identifier_identifier_eq_iff name,
    (identifier_identifier_eq_iff (identifier name)).mpr (not_unsettled_identifier name)⟩

/-- The double-struck capital C is a capital letter and has no small form. -/
theorem identifier_not_idempotent :
    ¬∀ name : Text, identifier (identifier name) = identifier name := by
  intro h
  have hpass := h ['A', 'ℂ']
  revert hpass
  decide +kernel

/-- Whether all characters of the text are in ASCII. -/
def Text.IsAscii (t : Text) : Prop := ∀ c ∈ t, c.toNat < 128

instance (t : Text) : Decidable t.IsAscii :=
  decidable_of_iff (t.all (·.toNat < 128) = true) (by simp [Text.IsAscii])

-- Every ASCII capital has a small form.
theorem identifier_identifier_of_isAscii {name : Text} (h : name.IsAscii) :
    identifier (identifier name) = identifier name := by
  refine (identifier_identifier_eq_iff name).mpr ?_
  rintro ⟨p, c, rest, hsuffix, -, hunpaired, -⟩
  rw [isUnpaired_of_ascii (h c (hsuffix.subset (by simp)))] at hunpaired
  cases hunpaired

end AnnotatedSchema
