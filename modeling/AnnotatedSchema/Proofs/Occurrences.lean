import AnnotatedSchema.Annotation.Reader
import AnnotatedSchema.Proofs.Keywords

/-!
# Where clauses start

A keyword starts a clause or a constraint name wherever it stands, but for two places: the `AS` of
`GENERATED ALWAYS AS`, and a `DEFAULT` right after `SET` in a `REFERENCES` clause. The reader steps
over whole clauses; here the pieces are gone through one by one, and both find the same places.
-/

namespace AnnotatedSchema

/-- A keyword that starts a clause or a constraint name, with the pieces after it. -/
structure Occurrence where
  keyword : Keyword
  after : List Piece

/-- Whether the pieces before, from the nearest on, end in `GENERATED ALWAYS`. -/
def afterGeneratedAlways (before : List Piece) : Bool :=
  headIs "ALWAYS" before && headIs "GENERATED" before.tail

/-- Whether the keyword is part of the clause before it. The pieces before it are given from the
nearest on; `last` is the keyword that the clause before started with. -/
def Keyword.isPart (last : Option Keyword) (before : List Piece) : Keyword → Bool
  | clause .as => afterGeneratedAlways before
  | clause .default => last == some (clause .references) && headIs "SET" before
  | _ => false

/-- The keywords in the pieces that are no part of the clause before them. -/
def occurrencesAfter (last : Option Keyword) (before : List Piece) : List Piece → List Occurrence
  | [] => []
  | p :: rest =>
    match Keyword.leading? (p :: rest) with
    | some k =>
      if k.isPart last before then occurrencesAfter last (p :: before) rest
      else ⟨k, rest.drop (k.width - 1)⟩ :: occurrencesAfter (some k) (p :: before) rest
    | none => occurrencesAfter last (p :: before) rest

def occurrences (ps : List Piece) : List Occurrence := occurrencesAfter none [] ps

theorem occurrencesAfter_skip {p : Piece} {rest : List Piece}
    (h : Keyword.leads (p :: rest) = false) (last : Option Keyword) (before : List Piece) :
    occurrencesAfter last before (p :: rest) = occurrencesAfter last (p :: before) rest := by
  have hnone : Keyword.leading? (p :: rest) = none := by simpa [Keyword.leads] using h
  rw [occurrencesAfter, hnone]

theorem occurrencesAfter_part {p : Piece} {rest : List Piece} {k : Keyword}
    (h : Keyword.leading? (p :: rest) = some k) {last : Option Keyword} {before : List Piece}
    (hpart : k.isPart last before = true) :
    occurrencesAfter last before (p :: rest) = occurrencesAfter last (p :: before) rest := by
  rw [occurrencesAfter, h]
  exact if_pos hpart

theorem occurrencesAfter_keyword {p : Piece} {rest : List Piece} {k : Keyword}
    (h : Keyword.leading? (p :: rest) = some k) {last : Option Keyword} {before : List Piece}
    (hpart : k.isPart last before = false) :
    occurrencesAfter last before (p :: rest) =
      ⟨k, rest.drop (k.width - 1)⟩ :: occurrencesAfter (some k) (p :: before) rest := by
  rw [occurrencesAfter, h]
  exact if_neg (by simp [hpart])

/-! ## What was before -/

/-- Whether the same keywords are parts after the one as after the other. -/
structure Alike (last last' : Option Keyword) (before before' : List Piece) : Prop where
  always : afterGeneratedAlways before = afterGeneratedAlways before'
  generated : headIs "GENERATED" before = headIs "GENERATED" before'
  reference : last = some (.clause .references) ↔ last' = some (.clause .references)
  set : last = some (.clause .references) → headIs "SET" before = headIs "SET" before'

theorem Alike.isPart {last last' : Option Keyword} {before before' : List Piece}
    (h : Alike last last' before before') (k : Keyword) :
    k.isPart last before = k.isPart last' before' := by
  cases k with
  | constraint => rfl
  | clause head =>
    cases head with
    | as => exact h.always
    | default =>
      by_cases hlast : last = some (.clause .references)
      · simp only [Keyword.isPart, hlast, h.reference.mp hlast, h.set hlast]
      · have hlast' := mt h.reference.mpr hlast
        simp only [Keyword.isPart, beq_eq_false_iff_ne.mpr hlast, beq_eq_false_iff_ne.mpr hlast',
          Bool.false_and]
    | primaryKey | notNull | unique | check | collate | references | generated => rfl

-- One more piece, whatever the keyword of its clause is.
theorem Alike.cons {last last' : Option Keyword} {before before' : List Piece}
    (h : Alike last last' before before') {next next' : Option Keyword}
    (hnext : next = some (.clause .references) ↔ next' = some (.clause .references)) (p : Piece) :
    Alike next next' (p :: before) (p :: before') where
  always := congrArg (headIs "ALWAYS" [p] && ·) h.generated
  generated := rfl
  reference := hnext
  set _ := rfl

theorem occurrencesAfter_congr {last last' : Option Keyword} {before before' : List Piece}
    (h : Alike last last' before before') (ps : List Piece) :
    occurrencesAfter last before ps = occurrencesAfter last' before' ps := by
  -- The induction is over any two pasts, which every piece goes on changing alike.
  induction ps generalizing last last' before before' with
  | nil => rfl
  | cons p ps ih =>
    cases hk : Keyword.leading? (p :: ps) with
    | none =>
      have hleads : Keyword.leads (p :: ps) = false := by rw [Keyword.leads, hk]; rfl
      rw [occurrencesAfter_skip hleads, occurrencesAfter_skip hleads, ih (h.cons h.reference p)]
    | some k =>
      cases hpart : k.isPart last before with
      | true =>
        have hpart' := (h.isPart k).symm.trans hpart
        rw [occurrencesAfter_part hk hpart, occurrencesAfter_part hk hpart',
          ih (h.cons h.reference p)]
      | false =>
        have hpart' := (h.isPart k).symm.trans hpart
        rw [occurrencesAfter_keyword hk hpart, occurrencesAfter_keyword hk hpart',
          ih (h.cons Iff.rfl p)]

/-- Whether no keyword after the pieces can be part of their clause. -/
structure Over (last : Option Keyword) (before : List Piece) : Prop where
  always : afterGeneratedAlways before = false
  generated : headIs "GENERATED" before = false
  reference : last ≠ some (.clause .references)

theorem Over.occurrencesAfter {last : Option Keyword} {before : List Piece} (h : Over last before)
    (ps : List Piece) : AnnotatedSchema.occurrencesAfter last before ps = occurrences ps := by
  have hnone : none ≠ some (Keyword.clause .references) := by simp
  rw [occurrences]
  exact occurrencesAfter_congr
    { always := h.always
      generated := h.generated
      reference := iff_of_false h.reference hnone
      set := fun hlast => absurd hlast h.reference } ps

-- A piece that starts no keyword leaves a clause over, if it was over before.
theorem Over.cons {last : Option Keyword} {before : List Piece} (h : Over last before) {p : Piece}
    {rest : List Piece} (hp : Keyword.leads (p :: rest) = false) : Over last (p :: before) where
  always := by
    change (p.isWord "ALWAYS" && headIs "GENERATED" before) = false
    rw [h.generated, Bool.and_false]
  generated := Keyword.isWord_of_not_leads (k := .clause .generated) hp (by decide)
  reference := h.reference

theorem over_nil : Over none [] := ⟨rfl, rfl, by simp⟩

theorem occurrences_skip {p : Piece} {rest : List Piece} (h : Keyword.leads (p :: rest) = false) :
    occurrences (p :: rest) = occurrences rest := by
  rw [occurrences, occurrencesAfter_skip h, (over_nil.cons h).occurrencesAfter]

theorem occurrences_keyword {p : Piece} {rest : List Piece} {k : Keyword}
    (h : Keyword.leading? (p :: rest) = some k) :
    occurrences (p :: rest) =
      ⟨k, rest.drop (k.width - 1)⟩ :: occurrencesAfter (some k) [p] rest := by
  refine occurrencesAfter_keyword h ?_
  cases k with
  | constraint => rfl
  | clause head => cases head <;> rfl

-- After a keyword that has no parts, its clause is over.
theorem over_keyword {p : Piece} {rest : List Piece} {k : Keyword}
    (h : Keyword.leading? (p :: rest) = some k) (before : List Piece)
    (hreference : k ≠ .clause .references) (hgenerated : k ≠ .clause .generated) :
    Over (some k) (p :: before) where
  always := by
    have hleads : Keyword.leads (p :: rest) = true := by rw [Keyword.leads, h]; rfl
    have halways : p.isWord "ALWAYS" = false := Keyword.not_isWord_of_leads hleads (by decide)
    change (p.isWord "ALWAYS" && headIs "GENERATED" before) = false
    rw [halways, Bool.false_and]
  generated := by
    change p.isWord "GENERATED" = false
    cases hp : p.isWord "GENERATED" with
    | false => rfl
    | true =>
      have hkeyword := Keyword.leading?_of_isWord (k := .clause .generated) (by decide) hp rest
      exact absurd (Option.some.inj (h.symm.trans hkeyword)) hgenerated
  reference := fun heq => hreference (Option.some.inj heq)

-- The second word of a keyword starts none itself.
theorem occurrences_drop_width {p : Piece} {rest : List Piece} {k : Keyword}
    (h : Keyword.leading? (p :: rest) = some k) :
    occurrences (rest.drop (k.width - 1)) = occurrences rest := by
  have hsecond : ∀ w : Text, (∀ v ∈ Keyword.firstWords, v.upperAscii ≠ w.upperAscii) →
      rest.head?.any (·.isWord w) = true → occurrences (rest.drop 1) = occurrences rest := by
    intro w hw hnext
    cases rest with
    | nil => rfl
    | cons q rest => exact (occurrences_skip (Keyword.leads_eq_false_of_isWord hnext hw rest)).symm
  simp only [Keyword.leading?] at h
  split at h
  · next found hfound =>
    obtain rfl : found = k := Option.some.inj h
    have hwidth : ∀ k ∈ Keyword.oneWord, k.width = 1 := by decide
    rw [hwidth found (List.mem_of_find?_eq_some hfound)]
    rfl
  · split at h
    · next hkey =>
      obtain rfl := Option.some.inj h
      exact hsecond "KEY" (by decide) (Bool.and_eq_true _ _ ▸ hkey).2
    · split at h
      · next hnull =>
        obtain rfl := Option.some.inj h
        exact hsecond "NULL" (by decide) (Bool.and_eq_true _ _ ▸ hnull).2
      · cases h

/-! ## The readers step over no keyword -/

namespace Annotation

theorem occurrences_skipConflict (ps : List Piece) :
    occurrences (skipConflict ps) = occurrences ps := by
  cases ps with
  | nil => rfl
  | cons p rest =>
    by_cases h : p.isWord "CONFLICT" = true
    · rw [skipConflict, if_pos h,
        occurrences_skip (Keyword.leads_eq_false_of_isWord h (by decide) rest)]
    · rw [skipConflict, if_neg h]

theorem occurrences_readAction (ps : List Piece) :
    occurrences (readAction ps).2 = occurrences ps := by
  cases ps with
  | nil => rfl
  | cons p rest =>
    by_cases h : p.kind = .word ∧ !Keyword.leads (p :: rest)
    · rw [readAction, if_pos h, occurrences_skip (by simpa using h.2)]
    · rw [readAction, if_neg h]

theorem occurrences_readConflictAction (ps : List Piece) :
    occurrences (readConflictAction ps).2 = occurrences ps := by
  rw [readConflictAction, occurrences_readAction, occurrences_skipConflict]

theorem occurrences_readConflictClause (ps : List Piece) :
    occurrences (readConflictClause ps).2 = occurrences ps := by
  cases ps with
  | nil => rfl
  | cons on rest =>
    cases rest with
    | nil => rfl
    | cons conflict rest =>
      by_cases h : (on.isWord "ON" && conflict.isWord "CONFLICT") = true
      · have hon : on.isWord "ON" = true := (Bool.and_eq_true _ _ ▸ h).1
        rw [readConflictClause, if_pos h, occurrences_readConflictAction,
          occurrences_skip (Keyword.leads_eq_false_of_isWord hon (by decide) _)]
      · rw [readConflictClause, if_neg h]

theorem occurrences_readKeyOptions (key : ColumnKey) (ps : List Piece) :
    occurrences (readKeyOptions key ps).2 = occurrences ps := by
  fun_induction readKeyOptions key ps with
  | case1 => rfl
  | case2 => rfl
  | case3 key p rest h hkind ih => rw [ih, occurrences_skip (by simpa using h)]
  | case4 key p rest h hkind order horder ih => rw [ih, occurrences_skip (by simpa using h)]
  | case5 key p rest h hkind horder hauto ih => rw [ih, occurrences_skip (by simpa using h)]
  | case6 key p rest h hkind horder hauto hon ih =>
    rw [ih, occurrences_readConflictAction, occurrences_skip (by simpa using h)]
  | case7 key p rest h hkind horder hauto hon ih => rw [ih, occurrences_skip (by simpa using h)]

theorem occurrences_readGroup? {ps left : List Piece} {body : Text}
    (h : readGroup? ps = some (body, left)) : occurrences left = occurrences ps := by
  cases ps with
  | nil => cases h
  | cons p rest =>
    rw [readGroup?] at h
    split at h
    · next hbody =>
      obtain ⟨-, rfl⟩ := Prod.mk.inj (Option.some.inj h)
      have hkind : p.kind ≠ .word := by simp [Piece.kind_of_groupBody? hbody]
      rw [occurrences_skip (Keyword.leads_of_kind hkind rest)]
    · cases h

theorem occurrences_readDefault? {ps left : List Piece} {value : DefaultValue}
    (h : readDefault? ps = some (value, left)) : occurrences left = occurrences ps := by
  cases ps with
  | nil => cases h
  | cons p rest =>
    rw [readDefault?] at h
    split at h
    · cases h
    · next hp =>
      obtain ⟨-, rfl⟩ := Prod.mk.inj (Option.some.inj h)
      rw [occurrences_skip (by simpa using (not_or.mp hp).2)]

theorem occurrences_readWord? {ps left : List Piece} {word : Text}
    (h : readWord? ps = some (word, left)) : occurrences left = occurrences ps := by
  cases ps with
  | nil => cases h
  | cons p rest =>
    rw [readWord?] at h
    split at h
    · next hp =>
      obtain ⟨-, rfl⟩ := Prod.mk.inj (Option.some.inj h)
      rw [occurrences_skip (by simpa using hp.2)]
    · cases h

theorem occurrences_readGeneratedStorage (ps : List Piece) :
    occurrences (readGeneratedStorage ps).2 = occurrences ps := by
  cases ps with
  | nil => rfl
  | cons p rest =>
    rw [readGeneratedStorage]
    split
    · next storage hkind hstorage =>
      have hword : p.isWord storage.keyword = true := by
        have hsame := List.find?_some hstorage
        rw [Piece.isWord, hkind]
        exact hsame
      have hfirst : ∀ v ∈ Keyword.firstWords, v.upperAscii ≠ storage.keyword.upperAscii := by
        cases storage <;> decide
      rw [occurrences_skip (Keyword.leads_eq_false_of_isWord hword hfirst rest)]
    · rfl

theorem occurrences_readGenerated? {always : Bool} {ps left : List Piece} {g : Generated}
    (h : readGenerated? always ps = some (g, left)) : occurrences left = occurrences ps := by
  obtain ⟨⟨body, rest⟩, hgroup, heq⟩ := Option.map_eq_some_iff.mp h
  obtain ⟨-, rfl⟩ := Prod.mk.inj heq
  rw [occurrences_readGeneratedStorage, occurrences_readGroup? hgroup]

-- A `REFERENCES` clause ends where the next keyword starts that is no part of it.
theorem occurrences_readReference {before : List Piece}
    (halways : afterGeneratedAlways before = false)
    (hgenerated : headIs "GENERATED" before = false) (ps : List Piece) :
    occurrencesAfter (some (.clause .references)) before ps =
      occurrences (readReference (headIs "SET" before) ps).2 := by
  -- Of all that was before, the reader knows only whether it ended in `SET`.
  induction ps generalizing before with
  | nil => rfl
  | cons p ps ih =>
    have hnext : afterGeneratedAlways (p :: before) = false := by
      change (p.isWord "ALWAYS" && headIs "GENERATED" before) = false
      rw [hgenerated, Bool.and_false]
    cases hk : Keyword.leading? (p :: ps) with
    | none =>
      have hleads : Keyword.leads (p :: ps) = false := by rw [Keyword.leads, hk]; rfl
      have hp : p.isWord "GENERATED" = false :=
        Keyword.isWord_of_not_leads (k := .clause .generated) hleads (by decide)
      rw [occurrencesAfter_skip hleads, ih hnext hp, readReference, hleads, Bool.false_and,
        if_neg Bool.false_ne_true]
      rfl
    | some k =>
      have hleads : Keyword.leads (p :: ps) = true := by rw [Keyword.leads, hk]; rfl
      cases hset : headIs "SET" before && p.isWord "DEFAULT" with
      | true =>
        obtain ⟨hbefore, hdefault⟩ := Bool.and_eq_true _ _ ▸ hset
        have hkeyword := Keyword.leading?_of_isWord (k := .clause .default) (by decide) hdefault ps
        have hpart : (Keyword.clause .default).isPart (some (.clause .references)) before = true :=
          hbefore
        have hp : p.isWord "GENERATED" = false := Piece.isWord_eq_false hdefault (by decide)
        -- Both sides go on after a `DEFAULT` that is an action.
        rw [occurrencesAfter_part hkeyword hpart, ih hnext hp, readReference, hleads, hset,
          if_neg (by simp)]
        rfl
      | false =>
        have hpart : k.isPart (some (.clause .references)) before = false := by
          cases k with
          | constraint => rfl
          | clause head =>
            cases head with
            | as => exact halways
            | default =>
              have hp : p.isWord "DEFAULT" = true := Keyword.isWord_of_leading? hk (by decide)
              rwa [hp, Bool.and_true] at hset
            | primaryKey | notNull | unique | check | collate | references | generated => rfl
        -- At any other keyword the reference is over, and what was before it counts no more.
        have halike : Alike (some k) (some k) (p :: before) [p] :=
          { always := hnext.trans (Bool.and_false _).symm
            generated := rfl
            reference := Iff.rfl
            set := fun _ => rfl }
        have hend : readReference (headIs "SET" before) (p :: ps) = ([], p :: ps) := by
          rw [readReference, hleads, hset]
          exact if_pos rfl
        rw [occurrencesAfter_keyword hk hpart, hend, occurrencesAfter_congr halike,
          occurrences_keyword hk]

theorem eq_of_afterAlwaysAs? {ps rest : List Piece} (h : afterAlwaysAs? ps = some rest) :
    ∃ always as, ps = always :: as :: rest ∧ always.isWord "ALWAYS" = true ∧
      as.isWord "AS" = true := by
  unfold afterAlwaysAs? at h
  split at h
  · next always as left =>
    by_cases hwords : (always.isWord "ALWAYS" && as.isWord "AS") = true
    · rw [if_pos hwords] at h
      obtain rfl := Option.some.inj h
      exact ⟨always, as, rfl, Bool.and_eq_true _ _ ▸ hwords⟩
    · rw [if_neg hwords] at h
      cases h
  · cases h

-- The `AS` of `GENERATED ALWAYS AS` starts no clause.
theorem occurrences_afterAlwaysAs? {p : Piece} (hp : p.isWord "GENERATED" = true)
    {ps after : List Piece} (h : afterAlwaysAs? ps = some after) :
    occurrencesAfter (some (.clause .generated)) [p] ps = occurrences after := by
  obtain ⟨always, as, rfl, halways, has⟩ := eq_of_afterAlwaysAs? h
  have hleads : Keyword.leads (always :: as :: after) = false :=
    Keyword.leads_eq_false_of_isWord halways (by decide) _
  have hkeyword := Keyword.leading?_of_isWord (k := .clause .as) (by decide) has after
  have hpart : (Keyword.clause .as).isPart (some (.clause .generated)) [always, p] = true := by
    change (always.isWord "ALWAYS" && p.isWord "GENERATED") = true
    rw [halways, hp]
    rfl
  have hover : Over (some (.clause .generated)) [as, always, p] :=
    { always := by
        change (as.isWord "ALWAYS" && always.isWord "GENERATED") = false
        rw [Piece.isWord_eq_false has (by decide), Bool.false_and]
      generated := Piece.isWord_eq_false has (by decide)
      reference := by simp }
  rw [occurrencesAfter_skip hleads, occurrencesAfter_part hkeyword hpart, hover.occurrencesAfter]

theorem occurrences_readName (name : Option Text) (ps : List Piece) :
    occurrences (readName name ps).2 = occurrences ps := by
  rw [readName]
  split
  · next h => exact occurrences_readWord? h
  · rfl

-- A clause other than `REFERENCES` and `GENERATED` has no keyword for a part.
theorem occurrencesAfter_clause {p : Piece} {rest : List Piece} {head : ClauseHead}
    (h : Keyword.leading? (p :: rest) = some (.clause head)) (hreference : head ≠ .references)
    (hgenerated : head ≠ .generated) :
    occurrencesAfter (some (.clause head)) [p] rest =
      occurrences (rest.drop (Keyword.width (.clause head) - 1)) := by
  have hover : Over (some (.clause head)) [p] :=
    over_keyword h [] (by simpa using hreference) (by simpa using hgenerated)
  rw [hover.occurrencesAfter, occurrences_drop_width h]

-- What a clause is read from has no keyword but its own and its parts.
theorem occurrences_readClause {column : Text} {p : Piece} {rest left : List Piece}
    {head : ClauseHead} {c : Constraint}
    (hkeyword : Keyword.leading? (p :: rest) = some (.clause head))
    (hread : readClause column head (rest.drop (Keyword.width (.clause head) - 1)) =
      .ok (c, left)) :
    occurrencesAfter (some (.clause head)) [p] rest = occurrences left := by
  cases head with
  | primaryKey =>
    obtain ⟨-, rfl⟩ := Prod.mk.inj (Except.ok.inj hread)
    rw [occurrencesAfter_clause hkeyword (by decide) (by decide), occurrences_readKeyOptions]
  | notNull =>
    obtain ⟨-, rfl⟩ := Prod.mk.inj (Except.ok.inj hread)
    rw [occurrencesAfter_clause hkeyword (by decide) (by decide), occurrences_readConflictClause]
  | unique =>
    obtain ⟨-, rfl⟩ := Prod.mk.inj (Except.ok.inj hread)
    rw [occurrencesAfter_clause hkeyword (by decide) (by decide), occurrences_readConflictClause]
  | check =>
    obtain ⟨body, hbody, -⟩ := read_of_required hread
    rw [occurrencesAfter_clause hkeyword (by decide) (by decide), occurrences_readGroup? hbody]
  | default =>
    obtain ⟨value, hvalue, -⟩ := read_of_required hread
    rw [occurrencesAfter_clause hkeyword (by decide) (by decide), occurrences_readDefault? hvalue]
  | collate =>
    obtain ⟨word, hword, -⟩ := read_of_required hread
    rw [occurrencesAfter_clause hkeyword (by decide) (by decide), occurrences_readWord? hword]
  | references =>
    obtain ⟨-, rfl⟩ := Prod.mk.inj (Except.ok.inj hread)
    have hp : p.isWord "REFERENCES" = true := Keyword.isWord_of_leading? hkeyword (by decide)
    have hset : headIs "SET" [p] = false := Piece.isWord_eq_false hp (by decide)
    have hgenerated : headIs "GENERATED" [p] = false := Piece.isWord_eq_false hp (by decide)
    have halways : afterGeneratedAlways [p] = false := Bool.and_false _
    rw [occurrences_readReference halways hgenerated, hset]
    rfl
  | generated =>
    simp only [readClause] at hread
    split at hread
    · cases hread
    · next after hafter =>
      have hafter : afterAlwaysAs? rest = some after := hafter
      obtain ⟨g, hg, -⟩ := read_of_required hread
      have hp : p.isWord "GENERATED" = true := Keyword.isWord_of_leading? hkeyword (by decide)
      rw [occurrences_readGenerated? hg, occurrences_afterAlwaysAs? hp hafter]
  | as =>
    obtain ⟨g, hg, -⟩ := read_of_required hread
    rw [occurrencesAfter_clause hkeyword (by decide) (by decide), occurrences_readGenerated? hg]

end Annotation

end AnnotatedSchema
