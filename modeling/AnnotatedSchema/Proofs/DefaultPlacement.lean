import AnnotatedSchema.Proofs.Composition
import AnnotatedSchema.Proofs.RoundTrip

/-!
# Which defaults are constraints

A `DEFAULT` starts a constraint of its own, or is kept in a reference as the action of `ON DELETE
SET DEFAULT`. Only the piece right before it decides, wherever in the reference that piece stands:
the `SET` of an action is not told from a target or a match that has this name.
-/

namespace AnnotatedSchema

open Piece Annotation

/-- Whether the last pieces are the words `ON DELETE SET` or `ON UPDATE SET`. -/
def endsInAction (ps : List Piece) : Bool :=
  match ps.reverse with
  | set :: event :: on :: _ =>
    set.isWord "SET" && (event.isWord "DELETE" || event.isWord "UPDATE") && on.isWord "ON"
  | _ => false

/-- Whether every `SET` right before a `DEFAULT` is that of an action. -/
def SetsAreActions (ps : List Piece) : Prop :=
  ∀ i < ps.length, headIs "DEFAULT" (ps.drop i) = true → endsInSet (ps.take i) = true →
    endsInAction (ps.take i) = true

instance (ps : List Piece) : Decidable (SetsAreActions ps) :=
  inferInstanceAs (Decidable (∀ i < ps.length, _))

/-- The constraint is in the list after all those that the pieces `before` give and before all those
that the pieces `rest` give. -/
def GivenBetween (column : Text) (cs : List AnnotatedConstraint) (before rest : List Piece)
    (constraint : Constraint) : Prop :=
  ∃ as name bs, readConstraints column none before = .ok as ∧
    readConstraints column none rest = .ok bs ∧ cs = as ++ ⟨name, constraint⟩ :: bs

/-- The `DEFAULT` between `u` and `v` is a constraint of its own, with the next piece for its
value. -/
def GivesDefault (column : Text) (cs : List AnnotatedConstraint) (u v : List Piece) : Prop :=
  ∃ value rest, v = value :: rest ∧
    GivenBetween column cs u rest (.default (DefaultValue.ofText value.text))

/-- The piece `p` between `u` and `v` is kept in the clause of a `REFERENCES` before it. -/
def KeptInReference (column : Text) (cs : List AnnotatedConstraint) (u : List Piece) (p : Piece)
    (v : List Piece) : Prop :=
  ∃ before reference body more rest, u = before ++ reference :: body ∧
    reference.isWord "REFERENCES" = true ∧ v = more ++ rest ∧
    GivenBetween column cs before rest (.references (referenceText (body ++ p :: more)))

/-! ## Where an annotation can be cut -/

theorem startsWithGroup_of_append {ps rest : List Piece} (h : Keyword.Follows rest)
    (hgroup : StartsWithGroup (ps ++ rest)) : StartsWithGroup ps := by
  obtain ⟨p, after, heq, body, hne, hbody⟩ := hgroup
  cases ps with
  | nil =>
    obtain rfl : rest = p :: after := heq
    have hkind : p.kind ≠ .word := by rw [kind_of_groupBody? hbody]; decide
    have hleads := h.resolve_left (List.cons_ne_nil p after)
    rw [Keyword.leads_of_kind hkind] at hleads
    cases hleads
  | cons q ps =>
    obtain rfl := (List.cons.inj heq).1
    exact ⟨q, ps, rfl, body, hne, hbody⟩

-- A keyword is no argument of the clause before it, but for an `AS`.
theorem ClauseHead.hasArgument_of_append {head : ClauseHead} {ps rest : List Piece}
    (h : Keyword.Follows rest) (has : headIs "AS" rest = false)
    (hargument : head.HasArgument (ps ++ rest)) : head.HasArgument ps := by
  -- No keyword is a value or a word to a reader.
  have hfirst {p : Piece} {after : List Piece} (heq : ps ++ rest = p :: after)
      (hleads : Keyword.leads (p :: after) = false) :
      ∃ tail, ps = p :: tail ∧ Keyword.leads (p :: tail) = false := by
    cases ps with
    | nil =>
      obtain rfl : rest = p :: after := heq
      rw [h.resolve_left (List.cons_ne_nil p after)] at hleads
      cases hleads
    | cons q ps =>
      obtain ⟨rfl, rfl⟩ := List.cons.inj heq
      exact ⟨ps, rfl, (Keyword.leads_append h (List.cons_ne_nil q ps)).symm.trans hleads⟩
  cases head with
  | primaryKey | notNull | unique | references => trivial
  | check | as => exact startsWithGroup_of_append h hargument
  | default =>
    obtain ⟨p, after, heq, hleads, hgroup⟩ := hargument
    obtain ⟨tail, rfl, hleads⟩ := hfirst heq hleads
    exact ⟨p, tail, rfl, hleads, hgroup⟩
  | collate =>
    obtain ⟨p, after, heq, hleads, hkind⟩ := hargument
    obtain ⟨tail, rfl, hleads⟩ := hfirst heq hleads
    exact ⟨p, tail, rfl, hleads, hkind⟩
  | generated =>
    obtain ⟨always, as, after, heq, halways, has', hgroup⟩ := hargument
    have hnot : Keyword.leads (always :: as :: after) = false :=
      Keyword.leads_eq_false_of_isWord halways (by decide) _
    obtain ⟨tail, rfl, -⟩ := hfirst heq hnot
    cases tail with
    | nil =>
      obtain rfl : rest = as :: after := (List.cons.inj heq).2
      exact absurd (has.symm.trans has') Bool.false_ne_true
    | cons q tail =>
      obtain ⟨rfl, rfl⟩ := List.cons.inj (List.cons.inj heq).2
      exact ⟨always, q, tail, rfl, halways, has', startsWithGroup_of_append h hgroup⟩

namespace Annotation

-- What is read before a keyword is read without it too, unless the keyword is kept in a reference.
theorem readClause_leads {column : Text} {head : ClauseHead} {ps left rest : List Piece} {p : Piece}
    {c : Constraint} (h : Keyword.leads (p :: rest) = true) (has : p.isWord "AS" = false)
    (hread : readClause column head (ps ++ p :: rest) = .ok (c, left)) :
    (∃ before, readClause column head ps = .ok (c, before) ∧ left = before ++ p :: rest) ∨
    (head = .references ∧ endsInSet ps = true ∧ p.isWord "DEFAULT" = true ∧
      ∃ more, rest = more ++ left ∧ c = .references (referenceText (ps ++ p :: more))) := by
  by_cases hhead : head = .references
  · subst hhead
    obtain ⟨rfl, rfl⟩ := Prod.mk.inj (Except.ok.inj hread)
    rcases readReference_leads [] h ps with hbefore | ⟨hset, hdefault, more, hbody⟩
    · change readReference false (ps ++ p :: rest) = _ at hbefore
      rw [hbefore]
      exact .inl ⟨_, rfl, rfl⟩
    · change (readReference false (ps ++ p :: rest)).1 = _ at hbody
      have hall := readReference_append_eq false (ps ++ p :: rest)
      rw [hbody, List.append_assoc, List.cons_append, List.append_cancel_left_eq] at hall
      refine .inr ⟨rfl, hset, hdefault, more, ?_, by rw [hbody]⟩
      exact (List.cons.inj hall).2.symm
  · have hargument : head.HasArgument (ps ++ p :: rest) := by
      by_contra hnot
      rw [readClause_of_not_hasArgument column hnot] at hread
      cases hread
    obtain ⟨c', before, hbefore, -⟩ := readClause_of_hasArgument column
      (ClauseHead.hasArgument_of_append (.inr h) has hargument)
    have happend := readClause_append hbefore (.inr h) fun heq => absurd heq hhead
    obtain ⟨rfl, rfl⟩ := Prod.mk.inj (Except.ok.inj (happend.symm.trans hread))
    exact .inl ⟨before, hbefore, rfl⟩

theorem readConstraints_clause_ok {column : Text} {name : Option Text} {p : Piece}
    {rest : List Piece} {head : ClauseHead} {cs : List AnnotatedConstraint}
    (h : Keyword.leading? (p :: rest) = some (.clause head))
    (hread : readConstraints column name (p :: rest) = .ok cs) :
    ∃ c left tail,
      readClause column head (rest.drop (Keyword.width (.clause head) - 1)) = .ok (c, left) ∧
      readConstraints column none left = .ok tail ∧ cs = ⟨name, c⟩ :: tail := by
  rw [readConstraints_clause h] at hread
  split at hread
  · cases hread
  · next c left hclause =>
    obtain ⟨tail, htail, rfl⟩ := map_eq_ok_iff.mp hread
    exact ⟨c, left, tail, hclause, htail, rfl⟩

/-- The piece `p` after the pieces `u` is a `DEFAULT`, and read as part of a reference that starts
among them. -/
structure InReference (column : Text) (u : List Piece) (p : Piece) (v : List Piece) : Prop where
  word : p.isWord "DEFAULT" = true
  set : endsInSet u = true
  clause : ∃ before reference body more rest, u = before ++ reference :: body ∧
    reference.isWord "REFERENCES" = true ∧ v = more ++ rest ∧
    readClause column .references (body ++ p :: v) =
      .ok (.references (referenceText (body ++ p :: more)), rest)

theorem InReference.of_suffix {column : Text} {left u v : List Piece} {p : Piece}
    (h : InReference column left p v) (hsuffix : left <:+ u) : InReference column u p v where
  word := h.word
  set := endsInSet_of_suffix hsuffix h.set
  clause := by
    obtain ⟨used, rfl⟩ := hsuffix
    obtain ⟨before, reference, body, more, rest, rfl, hclause⟩ := h.clause
    exact ⟨used ++ before, reference, body, more, rest, (List.append_assoc ..).symm, hclause⟩

-- The clause that starts right before `u` is read without the keyword after it, or is a reference
-- which that keyword is part of.
theorem readClause_cut {column : Text} {q p : Piece} {u v left : List Piece} {head : ClauseHead}
    {c : Constraint} (h : Keyword.leads (p :: v) = true) (has : p.isWord "AS" = false)
    (hk : Keyword.leading? (q :: u) = some (.clause head))
    (hread : readClause column head ((u ++ p :: v).drop (Keyword.width (.clause head) - 1)) =
      .ok (c, left)) :
    (∃ before, readClause column head (u.drop (Keyword.width (.clause head) - 1)) =
      .ok (c, before) ∧ left = before ++ p :: v) ∨ InReference column (q :: u) p v := by
  rw [List.drop_append_of_le_length (Keyword.width_le hk)] at hread
  rcases readClause_leads h has hread with hbefore | ⟨rfl, hset, hdefault, more, rfl, rfl⟩
  · exact .inl hbefore
  · have hword : q.isWord "REFERENCES" = true := Keyword.isWord_of_leading? hk (by decide)
    exact .inr
      { word := hdefault
        set := endsInSet_of_suffix (List.suffix_cons q u) hset
        clause := ⟨[], q, u, more, left, rfl, hword, rfl, hread⟩ }

-- An annotation can be cut before a keyword that is not read as part of a reference.
theorem readConstraints_cut {column : Text} {name : Option Text} {u v : List Piece} {p : Piece}
    {cs : List AnnotatedConstraint} (h : Keyword.leads (p :: v) = true)
    (has : p.isWord "AS" = false) (hread : readConstraints column name (u ++ p :: v) = .ok cs) :
    (∃ as name' bs, readConstraints column name u = .ok as ∧
      readConstraints column name' (p :: v) = .ok bs ∧ cs = as ++ bs) ∨
    InReference column u p v := by
  have hleading (q : Piece) (u : List Piece) :
      Keyword.leading? (q :: (u ++ p :: v)) = Keyword.leading? (q :: u) :=
    Keyword.leading?_append (.inr h) (List.cons_ne_nil q u)
  fun_induction readConstraints column name u generalizing cs with
  | case1 name => exact .inl ⟨[], name, cs, rfl, hread, rfl⟩
  | case2 name q u hk ih =>
    rw [List.cons_append, readConstraints_skip ((hleading q u).trans hk)] at hread
    exact (ih hread).imp_right (InReference.of_suffix · (List.suffix_cons q u))
  | case3 name q u hk ih =>
    rw [List.cons_append, readConstraints_name ((hleading q u).trans hk),
      readName_append (.inr h)] at hread
    have hsuffix : (readName name u).2 <:+ q :: u :=
      (suffix_readName name u).trans (List.suffix_cons q u)
    exact (ih hread).imp_right (InReference.of_suffix · hsuffix)
  | case4 name q u head hk e hclause =>
    obtain ⟨c, left, tail, hfull, -, -⟩ :=
      readConstraints_clause_ok ((hleading q u).trans hk) hread
    rcases readClause_cut h has hk hfull with ⟨before, hbefore, -⟩ | hkept
    · cases hclause.symm.trans hbefore
    · exact .inr hkept
  | case5 name q u head hk c left hclause ih =>
    obtain ⟨c', left', tail, hfull, htail, rfl⟩ :=
      readConstraints_clause_ok ((hleading q u).trans hk) hread
    rcases readClause_cut h has hk hfull with ⟨before, hbefore, rfl⟩ | hkept
    · obtain ⟨rfl, rfl⟩ := Prod.mk.inj (Except.ok.inj (hclause.symm.trans hbefore))
      have hsuffix : left <:+ q :: u := (suffix_readClause hclause).trans
        ((List.drop_suffix _ u).trans (List.suffix_cons q u))
      refine (ih htail).imp ?_ (InReference.of_suffix · hsuffix)
      rintro ⟨as, name', bs, has, hbs, rfl⟩
      exact ⟨_, name', bs, congrArg (Except.map _) has, hbs, rfl⟩
    · exact .inr hkept

/-! ## Each default -/

theorem split_of_readDefault? {ps left : List Piece} {value : DefaultValue}
    (h : readDefault? ps = some (value, left)) :
    ∃ p, ps = p :: left ∧ value = DefaultValue.ofText p.text := by
  cases ps with
  | nil => cases h
  | cons p rest =>
    rw [readDefault?] at h
    split at h
    · cases h
    · obtain ⟨rfl, rfl⟩ := Prod.mk.inj (Option.some.inj h)
      exact ⟨p, rfl, rfl⟩

theorem keptInReference_of_inReference {column : Text} {u v : List Piece} {p : Piece}
    {cs : List AnnotatedConstraint} (h : InReference column u p v)
    (hread : readConstraints column none (u ++ p :: v) = .ok cs) :
    KeptInReference column cs u p v := by
  obtain ⟨before, reference, body, more, rest, rfl, hword, rfl, hclause⟩ := h.clause
  have hk (ps : List Piece) : Keyword.leading? (reference :: ps) = some (.clause .references) :=
    Keyword.leading?_of_isWord (by decide) hword ps
  rw [List.append_assoc, List.cons_append] at hread
  -- The reference itself is no `DEFAULT`, so that the annotation can be cut before it.
  obtain ⟨as, name, bs, has, hbs, rfl⟩ | hin := readConstraints_cut
    (by rw [Keyword.leads, hk]; rfl) (isWord_eq_false hword (by decide)) hread
  · obtain ⟨c, left, tail, hfull, htail, rfl⟩ := readConstraints_clause_ok (hk _) hbs
    obtain ⟨rfl, rfl⟩ := Prod.mk.inj (Except.ok.inj (hclause.symm.trans hfull))
    exact ⟨before, reference, body, more, rest, rfl, hword, rfl, as, name, tail, has, htail, rfl⟩
  · have hdefault : reference.isWord "DEFAULT" = false := isWord_eq_false hword (by decide)
    exact absurd (hdefault.symm.trans hin.word) Bool.false_ne_true

theorem default_cases {column : Text} {u v : List Piece} {p : Piece}
    {cs : List AnnotatedConstraint} (hp : p.isWord "DEFAULT" = true)
    (hread : readConstraints column none (u ++ p :: v) = .ok cs) :
    GivesDefault column cs u v ∨ KeptInReference column cs u p v ∧ endsInSet u = true := by
  have hk : Keyword.leading? (p :: v) = some (.clause .default) :=
    Keyword.leading?_of_isWord (by decide) hp v
  obtain ⟨as, name, bs, has, hbs, rfl⟩ | hin := readConstraints_cut
    (by rw [Keyword.leads, hk]; rfl) (isWord_eq_false hp (by decide)) hread
  · obtain ⟨c, left, tail, hclause, htail, rfl⟩ := readConstraints_clause_ok hk hbs
    obtain ⟨value, hvalue, rfl⟩ := read_of_required hclause
    obtain ⟨q, hq, rfl⟩ := split_of_readDefault? hvalue
    exact .inl ⟨q, left, hq, as, name, tail, has, htail, rfl⟩
  · exact .inr ⟨keptInReference_of_inReference hin hread, hin.set⟩

-- A target that is no keyword and not called `SET` leaves the default after it alone.
theorem isReferenceBody_ofName {target : Text} (h : target.IsName)
    (hset : target.sameKeyword "SET" = false) : IsReferenceBody [ofWord target] where
  lone := List.forall_mem_singleton.mpr (lone_ofWord h.1)
  goesOn i hi := by
    obtain rfl : i = 0 := Nat.lt_one_iff.mp hi
    have hleads : Keyword.leads [ofWord target] = false := Keyword.leads_ofName h (.inl rfl)
    exact fun hends => Bool.false_ne_true (hleads.symm.trans hends.1)
  last := hset

theorem readConstraints_default (column : Text) (name : Option Text) {value : Piece}
    (hleads : Keyword.leads [value] = false) (hgroup : value.groupBody? ≠ some []) :
    readConstraints column name [ofWord "DEFAULT", value] =
      .ok [⟨name, .default (DefaultValue.ofText value.text)⟩] := by
  have hread : readClause column .default [value] =
      .ok (.default (DefaultValue.ofText value.text), []) := by
    rw [readClause, readDefault?, if_neg (by simp [hgroup, hleads])]
    rfl
  have hk : Keyword.leading? [ofWord "DEFAULT", value] = some (.clause .default) := rfl
  have hdrop : [value].drop (Keyword.width (.clause .default) - 1) = [value] := rfl
  rw [readConstraints_clause hk, hdrop, hread]
  change (readConstraints column none []).map _ = _
  rw [readConstraints_nil]
  rfl

theorem constraints_reference_default (column : Text) {target : Text} {value : Piece}
    (htarget : target.IsName) (hset : target.sameKeyword "SET" = false) (hvalue : value.Lone)
    (hleads : Keyword.leads [value] = false) (hgroup : value.groupBody? ≠ some []) :
    constraints column ("REFERENCES " ++ target ++ " DEFAULT " ++ value.text) =
      .ok [⟨none, .references ("REFERENCES " ++ target)⟩,
        ⟨none, .default (DefaultValue.ofText value.text)⟩] := by
  have hreference := spells_references (isReferenceBody_ofName htarget hset)
  have hlone : ∀ p ∈ ofWord "REFERENCES" :: ([ofWord target] ++ [ofWord "DEFAULT", value]),
      p.Lone := List.forall_mem_append.mpr ⟨hreference.lone, List.forall_mem_cons.mpr
        ⟨lone_ofWord (by decide), List.forall_mem_singleton.mpr hvalue⟩⟩
  -- The pieces of a text are written with the blanks before them, its words with those after.
  have hblanks : "REFERENCES ".toList = "REFERENCES".toList ++ [' '] ∧
      " DEFAULT ".toList = ' ' :: "DEFAULT".toList ++ [' '] := ⟨rfl, rfl⟩
  have hclause : referenceText [ofWord target] = "REFERENCES " ++ target := by
    rw [referenceText_eq, spaced_singleton]
    simp only [hblanks, ofWord, List.append_assoc, List.cons_append, List.nil_append]
  have htext : ' ' :: ("REFERENCES " ++ target ++ " DEFAULT " ++ value.text) =
      spaced (ofWord "REFERENCES" :: ([ofWord target] ++ [ofWord "DEFAULT", value])) := by
    rw [← List.cons_append (a := ofWord "REFERENCES"), spaced_append, hreference.text, spaced_cons,
      spaced_singleton, ← hclause]
    simp only [hblanks, Constraint.toSql, ofWord, List.append_assoc, List.cons_append,
      List.nil_append]
  rw [constraints_spaced column hlone htext, hreference.reads column none (.inr rfl),
    readConstraints_default column none hleads hgroup, hclause]
  rfl

/-- A `DEFAULT` is kept in a reference only right after `SET`, and any other is a constraint of its
own. So it is kept only in an action, if no other `SET` stands right before a `DEFAULT`. -/
theorem constraints_default (column : Text) :
    (∀ (tag : Text) (cs : List AnnotatedConstraint), constraints column tag = .ok cs →
      ∃ ps, Piece.scan tag = .ok ps ∧
        (∀ u p v, ps = u ++ p :: v → p.isWord "DEFAULT" = true →
          GivesDefault column cs u v ∨ KeptInReference column cs u p v ∧ endsInSet u = true) ∧
        (SetsAreActions ps → ∀ u p v, ps = u ++ p :: v → p.isWord "DEFAULT" = true →
          GivesDefault column cs u v ∨
            KeptInReference column cs u p v ∧ endsInAction u = true)) ∧
    ∀ (target : Text) (value : Piece), target.IsName → target.sameKeyword "SET" = false →
      value.Lone → Keyword.leads [value] = false → value.groupBody? ≠ some [] →
      constraints column ("REFERENCES " ++ target ++ " DEFAULT " ++ value.text) =
        .ok [⟨none, .references ("REFERENCES " ++ target)⟩,
          ⟨none, .default (DefaultValue.ofText value.text)⟩] := by
  constructor
  · intro tag cs h
    rw [constraints_eq] at h
    cases hfault : (Piece.scanFrom 0 tag).2 with
    | some fault => rw [hfault] at h; cases h
    | none =>
      rw [hfault] at h
      have hcases (u : List Piece) (p : Piece) (v : List Piece) (hps : tag.pieces = u ++ p :: v)
          (hp : p.isWord "DEFAULT" = true) :
          GivesDefault column cs u v ∨ KeptInReference column cs u p v ∧ endsInSet u = true :=
        default_cases hp (hps ▸ h)
      refine ⟨tag.pieces, scan_eq_ok_iff.mpr (Prod.ext rfl hfault), hcases, ?_⟩
      intro hactions u p v hps hp
      refine (hcases u p v hps hp).imp_right fun ⟨hkept, hset⟩ => ⟨hkept, ?_⟩
      have haction := hactions u.length (by simp [hps])
      rw [hps, List.drop_left, List.take_left] at haction
      exact haction hp hset
  · intro target value htarget hset hvalue hleads hgroup
    exact constraints_reference_default column htarget hset hvalue hleads hgroup

theorem constraints_default_setDefault :
    (∃ u p v cs,
      Piece.scan "REFERENCES t ON DELETE SET DEFAULT CONSTRAINT a DEFAULT 1" = .ok (u ++ p :: v) ∧
      constraints "c" "REFERENCES t ON DELETE SET DEFAULT CONSTRAINT a DEFAULT 1" = .ok cs ∧
      p.isWord "DEFAULT" = true ∧ SetsAreActions (u ++ p :: v) ∧
      (GivesDefault "c" cs u v ∨ KeptInReference "c" cs u p v ∧ endsInAction u = true)) ∧
    constraints "c" "REFERENCES Category DEFAULT 1" =
      .ok [⟨none, .references "REFERENCES Category"⟩, ⟨none, .default (.number "1")⟩] := by
  have hscan : Piece.scan "REFERENCES t ON DELETE SET DEFAULT CONSTRAINT a DEFAULT 1" =
      .ok setDefaultPieces := by decide +kernel
  have hread : constraints "c" "REFERENCES t ON DELETE SET DEFAULT CONSTRAINT a DEFAULT 1" =
      .ok [⟨none, .references "REFERENCES t ON DELETE SET DEFAULT"⟩,
        ⟨some "a", .default (.number "1")⟩] := by decide +kernel
  obtain ⟨ps, hps, -, hactions⟩ := (constraints_default "c").1 _ _ hread
  obtain rfl := Except.ok.inj (hscan.symm.trans hps)
  have hsets : SetsAreActions setDefaultPieces := by decide +kernel
  constructor
  · exact ⟨setDefaultPieces.take 5, ⟨.word, "DEFAULT", 27⟩, setDefaultPieces.drop 6, _, hscan,
      hread, by decide, hsets, hactions hsets _ _ _ rfl (by decide)⟩
  · exact (constraints_default "c").2 "Category" (ofWord "1") (by decide) (by decide)
      (by decide +kernel) (by decide) (by decide)

-- A target called `SET` takes the default after it.
theorem default_lost_after_set :
    ¬∀ (column target : Text) (value : Piece), target.IsName → value.Lone →
      Keyword.leads [value] = false → value.groupBody? ≠ some [] →
      constraints column ("REFERENCES " ++ target ++ " DEFAULT " ++ value.text) =
        .ok [⟨none, .references ("REFERENCES " ++ target)⟩,
          ⟨none, .default (DefaultValue.ofText value.text)⟩] := by
  intro h
  have hboth := h "c" "SET" (ofWord "1") (by decide) (by decide +kernel) (by decide) (by decide)
  have hone : constraints "c" "REFERENCES SET DEFAULT 1" =
      .ok [⟨none, .references "REFERENCES SET DEFAULT 1"⟩] := by decide +kernel
  have hsame := Except.ok.inj (hboth.symm.trans hone)
  exact absurd (congrArg List.length hsame) (by decide)

end Annotation

end AnnotatedSchema
