import AnnotatedSchema.Proofs.Capture
import AnnotatedSchema.Proofs.Defaults
import AnnotatedSchema.Proofs.Keywords
import AnnotatedSchema.Proofs.Placement

/-!
# Reading what was written

Constraints that are written one after the other, with blanks between them, are read back as they
were. Every clause is spelled by pieces, and its reader stops where the next clause starts; so the
clauses of a list do not run into each other.
-/

namespace AnnotatedSchema

/-! ## Texts that can stand in a clause -/

/-- A word: no blank and no opening bracket in it, and no quote at its start. -/
def Text.IsWord (t : Text) : Prop :=
  t ≠ [] ∧ (∀ c ∈ t, isBlank c = false ∧ c ≠ '(') ∧ ∀ c ∈ t.head?, isQuote c = false

theorem Text.isWord_iff (t : Text) : t.IsWord ↔
    (t != [] && t.all Piece.inWord && t.head?.all fun c => !isQuote c) = true := by
  cases t <;> simp [IsWord, Piece.inWord, and_assoc]

instance (t : Text) : Decidable t.IsWord := decidable_of_iff' _ t.isWord_iff

/-- A word that is no keyword by itself. -/
def Text.IsName (t : Text) : Prop :=
  t.IsWord ∧ ∀ k ∈ Keyword.oneWord, t.sameKeyword k.text = false

instance (t : Text) : Decidable t.IsName := inferInstanceAs (Decidable (_ ∧ _))

/-- A text that is one group when it stands in round brackets. -/
def Text.Closed (t : Text) : Prop :=
  Piece.scan t.parenthesized = .ok [⟨.group, t.parenthesized, 0⟩]

instance (t : Text) : Decidable t.Closed := inferInstanceAs (Decidable (_ = _))

/-- An expression that can stand in round brackets, without blanks at its ends. -/
structure Text.IsExpression (t : Text) : Prop where
  closed : t.Closed
  ne_nil : t ≠ []
  trimmed : t.trim = t

/-- The pieces that can stand after `REFERENCES`: none ends the clause, and no clause that comes
next is taken for an action. -/
structure IsReferenceBody (body : List Piece) : Prop where
  lone : ∀ p ∈ body, p.Lone
  goesOn : ∀ i < body.length, ¬EndsReference (body.take i) (body.drop i)
  last : endsInSet body = false

/-- Whether the constraint can be written so that it is read again. -/
def Constraint.Writable : Constraint → Prop
  | primaryKey _ => True
  | notNull _ => True
  | unique _ => True
  | check sql => sql.IsExpression
  | default (.number t) => DefaultValue.isNumber t = true
  | default (.expression sql) => sql.IsExpression
  | default _ => True
  | collate collation => collation.IsName
  | references clause => ∃ body, IsReferenceBody body ∧ clause = Annotation.referenceText body
  | generated g => g.expression.IsExpression

def AnnotatedConstraint.Writable (a : AnnotatedConstraint) : Prop :=
  (∀ name ∈ a.name, name.IsName) ∧ a.constraint.Writable

namespace Piece

def ofWord (t : Text) : Piece := ⟨.word, t, 0⟩

/-- The group that has the text between its brackets. -/
def ofBody (t : Text) : Piece := ⟨.group, t.parenthesized, 0⟩

def ofLiteral (t : Text) : Piece := ⟨.quoted, t.quoted, 0⟩

theorem lone_ofBody {t : Text} (h : t.Closed) : (ofBody t).Lone := h

theorem lone_ofWord {t : Text} (h : t.IsWord) : (ofWord t).Lone := by
  obtain ⟨hne, hword, hquote⟩ := h
  cases t with
  | nil => exact absurd rfl hne
  | cons c t =>
    have hin : ∀ d ∈ t, inWord d = true := fun d hd => by
      obtain ⟨hb, hp⟩ := hword d (by simp [hd])
      simp [inWord, hb, hp]
    obtain ⟨htake, hdrop⟩ := word_append (u := []) hin (by simp)
    have hfirst := first_word (hword c (by simp)).2 (hquote c (by simp)) 0 t
    rw [List.append_nil] at htake hdrop
    rw [htake, hdrop] at hfirst
    rw [Lone, scan_eq_ok_iff]
    change Piece.scanFrom 0 (c :: t) = _
    rw [scanFrom_piece (hword c (by simp)).1 hfirst, scanFrom_nil]
    rfl

theorem closeQuote?_doubled_closed (q : Char) (t : Text) :
    closeQuote? q (Text.doubled q t ++ [q]) = some (Text.doubled q t ++ [q], []) := by
  induction t with
  | nil => exact closeQuote?_closed (by simp)
  | cons c t ih =>
    by_cases hc : c = q
    · rw [Text.doubled, if_pos hc]
      simp only [List.cons_append, closeQuote?_doubled, ih, Option.map_some]
    · rw [Text.doubled, if_neg hc]
      simp only [List.cons_append, closeQuote?_ne hc, ih, Option.map_some]

theorem lone_ofLiteral (t : Text) : (ofLiteral t).Lone := by
  have hfirst : first 0 '\'' (Text.doubled '\'' t ++ ['\'']) = .ok (ofLiteral t, []) :=
    first_quoted (by decide) (closeQuote?_doubled_closed '\'' t)
  rw [Lone, scan_eq_ok_iff]
  change Piece.scanFrom 0 ('\'' :: (Text.doubled '\'' t ++ ['\''])) = _
  rw [scanFrom_piece (by decide) hfirst, scanFrom_nil]
  rfl

end Piece

open Piece

namespace Keyword

theorem leads_ofWord {w : Text} (h : ∀ v ∈ firstWords, v.upperAscii ≠ w.upperAscii)
    (rest : List Piece) : leads (ofWord w :: rest) = false :=
  leads_eq_false_of_isWord (by simp [isWord, ofWord, Text.sameKeyword]) h rest

-- A name is read as one before a clause, even where it is the first word of `NOT NULL`.
theorem leads_ofName {t : Text} (h : t.IsName) {rest : List Piece} (hrest : Follows rest) :
    leads (ofWord t :: rest) = false := by
  have hone : oneWord.find? (fun k => (ofWord t).isWord k.text) = none := by
    rw [List.find?_eq_none]
    intro k hk
    simp [isWord, ofWord, h.2 k hk]
  have hleads : leads [ofWord t] = false := by
    simp only [leads, leading?, hone, List.head?_nil, Option.any_none, Bool.and_false,
      Bool.false_eq_true, if_false, Option.isSome_none]
  rwa [← leads_append hrest (List.cons_ne_nil _ _)] at hleads

end Keyword

namespace Annotation

open Keyword

/-! ## The options of a clause -/

def conflictPieces : Option ConflictAction → List Piece
  | none => []
  | some action => [ofWord "ON", ofWord "CONFLICT", ofWord action.keyword]

def orderPieces : Option SortOrder → List Piece
  | none => []
  | some order => [ofWord order.keyword]

def autoincrementPieces (autoincrement : Bool) : List Piece :=
  if autoincrement then [ofWord "AUTOINCREMENT"] else []

theorem spaced_conflictPieces (conflict : Option ConflictAction) :
    spaced (conflictPieces conflict) = ConflictAction.clause conflict := by
  cases conflict with
  | none => rfl
  | some action => cases action <;> rfl

theorem spaced_orderPieces (order : Option SortOrder) :
    spaced (orderPieces order) = SortOrder.clause order := by
  cases order with
  | none => rfl
  | some order => cases order <;> rfl

theorem spaced_autoincrementPieces (autoincrement : Bool) :
    spaced (autoincrementPieces autoincrement) =
      (if autoincrement then " AUTOINCREMENT" else "").toList := by
  cases autoincrement <;> rfl

theorem lone_conflictPieces (conflict : Option ConflictAction) :
    ∀ p ∈ conflictPieces conflict, p.Lone := by
  cases conflict with
  | none => exact List.forall_mem_nil _
  | some action =>
    have hword : action.keyword.IsWord := by cases action <;> decide
    simp only [conflictPieces, List.forall_mem_cons, List.not_mem_nil, false_imp_iff, implies_true,
      and_true]
    exact ⟨lone_ofWord (by decide), lone_ofWord (by decide), lone_ofWord hword⟩

theorem lone_orderPieces (order : Option SortOrder) : ∀ p ∈ orderPieces order, p.Lone := by
  cases order with
  | none => exact List.forall_mem_nil _
  | some order =>
    have hword : order.keyword.IsWord := by cases order <;> decide
    simpa [orderPieces] using lone_ofWord hword

theorem lone_autoincrementPieces (autoincrement : Bool) :
    ∀ p ∈ autoincrementPieces autoincrement, p.Lone := by
  cases autoincrement with
  | false => exact List.forall_mem_nil _
  | true =>
    have hlone : (ofWord "AUTOINCREMENT").Lone := lone_ofWord (by decide)
    simpa [autoincrementPieces] using hlone

theorem readConflictAction_ofWord (action : ConflictAction) (rest : List Piece) :
    readConflictAction (ofWord "CONFLICT" :: ofWord action.keyword :: rest) =
      (some action, rest) := by
  have hskip : skipConflict (ofWord "CONFLICT" :: ofWord action.keyword :: rest) =
      ofWord action.keyword :: rest := rfl
  have hleads : leads (ofWord action.keyword :: rest) = false := by
    cases action <;> exact leads_ofWord (by decide) rest
  have haction : ConflictAction.ofKeyword? action.keyword = some action := by
    cases action <;> decide
  rw [readConflictAction, hskip, readAction, if_pos ⟨rfl, by rw [hleads]; rfl⟩]
  exact congrArg (·, rest) haction

theorem readConflictClause_follows {rest : List Piece} (h : Follows rest) :
    readConflictClause rest = (none, rest) := by
  cases rest with
  | nil => rfl
  | cons on rest =>
    cases rest with
    | nil => rfl
    | cons conflict rest =>
      have hon : on.isWord "ON" = false := h.not_isWord (by decide)
      rw [readConflictClause, hon, Bool.false_and, if_neg Bool.false_ne_true]

theorem readConflictClause_pieces (conflict : Option ConflictAction) {rest : List Piece}
    (h : Follows rest) :
    readConflictClause (conflictPieces conflict ++ rest) = (conflict, rest) := by
  cases conflict with
  | none => exact readConflictClause_follows h
  | some action =>
    change readConflictAction (ofWord "CONFLICT" :: ofWord action.keyword :: rest) = _
    exact readConflictAction_ofWord action rest

theorem readKeyOptions_follows (key : ColumnKey) {rest : List Piece} (h : Follows rest) :
    readKeyOptions key rest = (key, rest) := by
  cases rest with
  | nil => rw [readKeyOptions]
  | cons p rest => rw [readKeyOptions, if_pos (h.resolve_left (List.cons_ne_nil _ _))]

-- A word that leads to no keyword is taken for an option, if it is one.
theorem readKeyOptions_ofWord {w : Text} {rest : List Piece}
    (h : leads (ofWord w :: rest) = false) (key : ColumnKey) :
    readKeyOptions key (ofWord w :: rest) =
      match SortOrder.ofKeyword? w with
      | some order => readKeyOptions { key with order := key.order.or (some order) } rest
      | none =>
        if (ofWord w).isWord "AUTOINCREMENT" then
          readKeyOptions { key with autoincrement := true } rest
        else if (ofWord w).isWord "ON" then
          readKeyOptions { key with conflict := (readConflictAction rest).1.or key.conflict }
            (readConflictAction rest).2
        else readKeyOptions key rest := by
  have hkind : ¬(ofWord w).kind ≠ .word := not_not.mpr rfl
  rw [readKeyOptions, if_neg (by simp [h]), if_neg hkind]
  rfl

theorem readKeyOptions_order (order : Option SortOrder) (rest : List Piece) :
    readKeyOptions .plain (orderPieces order ++ rest) =
      readKeyOptions ⟨order, none, false⟩ rest := by
  cases order with
  | none => rfl
  | some order =>
    have hleads : leads (ofWord order.keyword :: rest) = false := by
      cases order <;> exact leads_ofWord (by decide) rest
    have horder : SortOrder.ofKeyword? order.keyword = some order := by cases order <;> decide
    change readKeyOptions .plain (ofWord order.keyword :: rest) = _
    rw [readKeyOptions_ofWord hleads, horder]
    rfl

theorem readKeyOptions_conflict (order : Option SortOrder) (conflict : Option ConflictAction)
    (rest : List Piece) :
    readKeyOptions ⟨order, none, false⟩ (conflictPieces conflict ++ rest) =
      readKeyOptions ⟨order, conflict, false⟩ rest := by
  cases conflict with
  | none => rfl
  | some action =>
    have horder : SortOrder.ofKeyword? "ON" = none := by decide
    have hauto : (ofWord "ON").isWord "AUTOINCREMENT" = false := by decide
    have hon : (ofWord "ON").isWord "ON" = true := by decide
    change readKeyOptions _ (ofWord "ON" :: ofWord "CONFLICT" :: ofWord action.keyword :: rest) = _
    rw [readKeyOptions_ofWord (leads_ofWord (by decide) _), horder, hauto, hon,
      readConflictAction_ofWord]
    rfl

theorem readKeyOptions_autoincrement (order : Option SortOrder) (conflict : Option ConflictAction)
    (autoincrement : Bool) (rest : List Piece) :
    readKeyOptions ⟨order, conflict, false⟩ (autoincrementPieces autoincrement ++ rest) =
      readKeyOptions ⟨order, conflict, autoincrement⟩ rest := by
  cases autoincrement with
  | false => rfl
  | true =>
    have horder : SortOrder.ofKeyword? "AUTOINCREMENT" = none := by decide
    have hauto : (ofWord "AUTOINCREMENT").isWord "AUTOINCREMENT" = true := by decide
    change readKeyOptions _ (ofWord "AUTOINCREMENT" :: rest) = _
    rw [readKeyOptions_ofWord (leads_ofWord (by decide) _), horder, hauto]
    rfl

/-! ## The arguments of a clause -/

theorem groupBody?_parenthesized (t : Text) (start : Nat) :
    groupBody? ⟨.group, t.parenthesized, start⟩ = some t.trim := by
  have hclose : List.isSuffixOf? [')'] (t ++ [')']) = some t :=
    List.isSuffixOf?_eq_some_iff_append_eq.mpr rfl
  change (List.isSuffixOf? [')'] (t ++ [')'])).map Text.trim = some t.trim
  rw [hclose, Option.map_some]

theorem groupBody?_ofBody {t : Text} (h : t.IsExpression) : (ofBody t).groupBody? = some t := by
  rw [ofBody, groupBody?_parenthesized, h.trimmed]

theorem readGroup?_ofBody {t : Text} (h : t.IsExpression) (rest : List Piece) :
    readGroup? (ofBody t :: rest) = some (t, rest) := by
  have hbody := groupBody?_ofBody h
  obtain ⟨c, u, rfl⟩ := List.exists_cons_of_ne_nil h.ne_nil
  rw [readGroup?, hbody]

theorem readWord?_ofName {t : Text} (h : t.IsName) {rest : List Piece} (hrest : Follows rest) :
    readWord? (ofWord t :: rest) = some (t, rest) := by
  rw [readWord?, if_pos ⟨rfl, by rw [leads_ofName h hrest]; rfl⟩]
  rfl

theorem readReference_body {body rest : List Piece} (h : IsReferenceBody body)
    (hrest : Follows rest) : readReference false (body ++ rest) = (body, rest) := by
  refine readReference_append [] (fun i hi => ?_) ?_
  · have hne : body.drop i ≠ [] := by simpa using hi
    rw [endsReference_append hne hrest]
    exact h.goesOn i hi
  · by_cases hne : rest = []
    · exact .inl hne
    · exact .inr (endsReference_of_follows hrest hne h.last)

theorem readGeneratedStorage_ofWord (storage : GeneratedStorage) (rest : List Piece) :
    readGeneratedStorage (ofWord storage.keyword :: rest) = (storage, rest) := by
  have hstorage : GeneratedStorage.ofKeyword? storage.keyword = some storage := by
    cases storage <;> decide
  rw [readGeneratedStorage]
  simp only [ofWord, hstorage]

theorem readGenerated?_pieces {t : Text} (h : t.IsExpression) (storage : GeneratedStorage)
    (always : Bool) (rest : List Piece) :
    readGenerated? always (ofBody t :: ofWord storage.keyword :: rest) =
      some (⟨t, storage, always⟩, rest) := by
  rw [readGenerated?, readGroup?_ofBody h, Option.map_some]
  simp only [readGeneratedStorage_ofWord]

/-! ## Whole clauses -/

/-- The pieces that a clause is written with, from the keyword it starts with, and what is read from
them before more clauses. -/
structure Spells (p : Piece) (ps : List Piece) (head : ClauseHead) (c : Constraint) : Prop where
  text : spaced (p :: ps) = ' ' :: c.toSql
  lone : ∀ q ∈ p :: ps, q.Lone
  leading : ∀ rest, leading? (p :: (ps ++ rest)) = some (.clause head)
  read : ∀ column rest, Follows rest →
    readClause column head ((ps ++ rest).drop (width (.clause head) - 1)) = .ok (c, rest)

theorem Spells.reads {p : Piece} {ps : List Piece} {head : ClauseHead} {c : Constraint}
    (h : Spells p ps head c) (column : Text) (name : Option Text) {rest : List Piece}
    (hrest : Follows rest) :
    readConstraints column name (p :: (ps ++ rest)) =
      (readConstraints column none rest).map (⟨name, c⟩ :: ·) := by
  rw [readConstraints_clause (h.leading rest), h.read column rest hrest]

theorem spells_primaryKey (key : ColumnKey) :
    Spells (ofWord "PRIMARY")
      (ofWord "KEY" :: (orderPieces key.order ++ (conflictPieces key.conflict ++
        autoincrementPieces key.autoincrement)))
      .primaryKey (.primaryKey key) where
  text := by
    have hhead : "PRIMARY KEY".toList = "PRIMARY".toList ++ ' ' :: "KEY".toList := by decide
    rw [spaced_cons, spaced_cons, spaced_append, spaced_append, spaced_orderPieces,
      spaced_conflictPieces, spaced_autoincrementPieces]
    unfold Constraint.toSql ColumnKey.toSql
    simp only [ofWord, hhead, List.append_assoc, List.cons_append]
  lone := by
    simp only [List.forall_mem_cons, List.forall_mem_append]
    exact ⟨lone_ofWord (by decide), lone_ofWord (by decide), lone_orderPieces _,
      lone_conflictPieces _, lone_autoincrementPieces _⟩
  leading _ := rfl
  read column rest hrest := by
    have hread : readKeyOptions .plain (orderPieces key.order ++ (conflictPieces key.conflict ++
        autoincrementPieces key.autoincrement) ++ rest) = (key, rest) := by
      rw [List.append_assoc, List.append_assoc, readKeyOptions_order, readKeyOptions_conflict,
        readKeyOptions_autoincrement, readKeyOptions_follows _ hrest]
    change Except.ok (Constraint.primaryKey (readKeyOptions .plain (_ ++ rest)).1,
      (readKeyOptions .plain (_ ++ rest)).2) = _
    rw [hread]

theorem spells_notNull (conflict : Option ConflictAction) :
    Spells (ofWord "NOT") (ofWord "NULL" :: conflictPieces conflict) .notNull
      (.notNull conflict) where
  text := by
    rw [spaced_cons, spaced_cons, spaced_conflictPieces]
    rfl
  lone := by
    simp only [List.forall_mem_cons]
    exact ⟨lone_ofWord (by decide), lone_ofWord (by decide), lone_conflictPieces _⟩
  leading _ := rfl
  read column rest hrest := by
    change Except.ok (Constraint.notNull (readConflictClause (conflictPieces conflict ++ rest)).1,
      (readConflictClause (conflictPieces conflict ++ rest)).2) = _
    rw [readConflictClause_pieces conflict hrest]

theorem spells_unique (conflict : Option ConflictAction) :
    Spells (ofWord "UNIQUE") (conflictPieces conflict) .unique (.unique conflict) where
  text := by
    rw [spaced_cons, spaced_conflictPieces]
    rfl
  lone := List.forall_mem_cons.mpr ⟨lone_ofWord (by decide), lone_conflictPieces _⟩
  leading _ := rfl
  read column rest hrest := by
    change Except.ok (Constraint.unique (readConflictClause (conflictPieces conflict ++ rest)).1,
      (readConflictClause (conflictPieces conflict ++ rest)).2) = _
    rw [readConflictClause_pieces conflict hrest]

theorem spells_check {sql : Text} (h : sql.IsExpression) :
    Spells (ofWord "CHECK") [ofBody sql] .check (.check sql) where
  text := by
    rw [spaced_cons, spaced_singleton]
    rfl
  lone := List.forall_mem_cons.mpr
    ⟨lone_ofWord (by decide), List.forall_mem_singleton.mpr (lone_ofBody h.closed)⟩
  leading _ := rfl
  read column rest _ := by
    change required column "CHECK" "a parenthesized expression" .check
      (readGroup? (ofBody sql :: rest)) = _
    rw [readGroup?_ofBody h]
    rfl

-- A default is one piece that is no empty group and starts no keyword.
theorem spells_default {p : Piece} {value : DefaultValue} (htext : p.text = value.valueSql)
    (hlone : p.Lone) (hgroup : p.groupBody? ≠ some []) (hleads : ∀ rest, leads (p :: rest) = false)
    (hvalue : DefaultValue.ofText p.text = value) :
    Spells (ofWord "DEFAULT") [p] .default (.default value) where
  text := by
    rw [spaced_cons, spaced_singleton, htext]
    rfl
  lone := List.forall_mem_cons.mpr
    ⟨lone_ofWord (by decide), List.forall_mem_singleton.mpr hlone⟩
  leading _ := rfl
  read column rest _ := by
    have hread : readDefault? (p :: rest) = some (value, rest) := by
      rw [readDefault?, if_neg (not_or.mpr ⟨hgroup, by simp [hleads rest]⟩), hvalue]
    change required column "DEFAULT" "a value or parenthesized expression" .default
      (readDefault? (p :: rest)) = _
    rw [hread]
    rfl

theorem spells_default_word {w : Text} {value : DefaultValue} (htext : w = value.valueSql)
    (hword : w.IsWord) (hfirst : ∀ v ∈ firstWords, v.upperAscii ≠ w.upperAscii)
    (hvalue : DefaultValue.ofText w = value) :
    Spells (ofWord "DEFAULT") [ofWord w] .default (.default value) :=
  spells_default htext (lone_ofWord hword) (by simp [ofWord, groupBody?]) (leads_ofWord hfirst)
    hvalue

theorem spells_default_number {t : Text} (h : DefaultValue.isNumber t = true) :
    Spells (ofWord "DEFAULT") [ofWord t] .default (.default (.number t)) := by
  have hin := DefaultValue.inWord_of_isNumber h
  obtain ⟨c, hc, u, ht⟩ := DefaultValue.head_of_isNumber h
  -- A number starts with a sign, a dot or a digit, as no keyword does.
  have hhead : ∀ c ∈ DefaultValue.numberHeads,
      (firstWords.all fun v => v.upperAscii.head? != some c.toUpper) = true :=
    List.all_eq_true.mp (by decide)
  have hword : t.IsWord := by
    refine ⟨by simp [ht], fun d hd => ?_, fun d hd => ?_⟩
    · simpa [inWord] using hin d hd
    · obtain rfl : c = d := by simpa [ht] using hd
      exact DefaultValue.isQuote_numberHeads hc
  refine spells_default_word rfl hword (fun v hv heq => ?_) (DefaultValue.ofText_number h)
  refine bne_iff_ne.mp (List.all_eq_true.mp (hhead c hc) v hv) ?_
  rw [heq, ht]
  rfl

theorem exists_spells_default {value : DefaultValue} (h : (Constraint.default value).Writable) :
    ∃ p, Spells (ofWord "DEFAULT") [p] .default (.default value) := by
  cases value with
  | null => exact ⟨_, spells_default_word rfl (by decide) (by decide) rfl⟩
  | bool b =>
    cases b with
    | false => exact ⟨_, spells_default_word rfl (by decide) (by decide) rfl⟩
    | true => exact ⟨_, spells_default_word rfl (by decide) (by decide) rfl⟩
  | currentTime => exact ⟨_, spells_default_word rfl (by decide) (by decide) rfl⟩
  | currentDate => exact ⟨_, spells_default_word rfl (by decide) (by decide) rfl⟩
  | currentTimestamp => exact ⟨_, spells_default_word rfl (by decide) (by decide) rfl⟩
  | text t =>
    exact ⟨ofLiteral t, spells_default rfl (lone_ofLiteral t) (by simp [ofLiteral, groupBody?])
      (leads_of_kind (by simp [ofLiteral]))
      (DefaultValue.ofText_quoted t)⟩
  | number t => exact ⟨ofWord t, spells_default_number h⟩
  | expression sql =>
    have hsql : sql.IsExpression := h
    have hgroup : (ofBody sql).groupBody? ≠ some [] := by
      rw [groupBody?_ofBody hsql]
      exact fun heq => hsql.ne_nil (Option.some.inj heq)
    exact ⟨ofBody sql, spells_default rfl (lone_ofBody hsql.closed) hgroup
      (leads_of_kind (by simp [ofBody]))
      (DefaultValue.ofText_parenthesized hsql.trimmed)⟩

theorem spells_collate {collation : Text} (h : collation.IsName) :
    Spells (ofWord "COLLATE") [ofWord collation] .collate (.collate collation) where
  text := by
    rw [spaced_cons, spaced_singleton]
    rfl
  lone := List.forall_mem_cons.mpr
    ⟨lone_ofWord (by decide), List.forall_mem_singleton.mpr (lone_ofWord h.1)⟩
  leading _ := rfl
  read column rest hrest := by
    change required column "COLLATE" "a collation name" .collate
      (readWord? (ofWord collation :: rest)) = _
    rw [readWord?_ofName h hrest]
    rfl

theorem spells_references {body : List Piece} (h : IsReferenceBody body) :
    Spells (ofWord "REFERENCES") body .references (.references (referenceText body)) where
  text := rfl
  lone := List.forall_mem_cons.mpr ⟨lone_ofWord (by decide), h.lone⟩
  leading _ := rfl
  read column rest hrest := by
    change Except.ok (Constraint.references (referenceText (readReference false (body ++ rest)).1),
      (readReference false (body ++ rest)).2) = _
    rw [readReference_body h hrest]

theorem lone_generated {t : Text} (h : t.IsExpression) (storage : GeneratedStorage) :
    ∀ p ∈ [ofWord "AS", ofBody t, ofWord storage.keyword], p.Lone := by
  have hword : storage.keyword.IsWord := by cases storage <;> decide
  exact List.forall_mem_cons.mpr ⟨lone_ofWord (by decide), List.forall_mem_cons.mpr
    ⟨lone_ofBody h.closed, List.forall_mem_singleton.mpr (lone_ofWord hword)⟩⟩

theorem spaced_generated (t : Text) (storage : GeneratedStorage) :
    spaced [ofWord "AS", ofBody t, ofWord storage.keyword] =
      ' ' :: Generated.toSql ⟨t, storage, false⟩ := by
  rw [spaced_cons, spaced_cons, spaced_singleton]
  change _ = ' ' :: ("".toList ++ "AS ".toList ++ t.parenthesized ++ " ".toList ++ storage.keyword)
  simp only [List.append_assoc]
  rfl

theorem spells_as {t : Text} (h : t.IsExpression) (storage : GeneratedStorage) :
    Spells (ofWord "AS") [ofBody t, ofWord storage.keyword] .as
      (.generated ⟨t, storage, false⟩) where
  text := spaced_generated t storage
  lone := lone_generated h storage
  leading _ := rfl
  read column rest _ := by
    change required column "AS" "a parenthesized expression" .generated
      (readGenerated? false (ofBody t :: ofWord storage.keyword :: rest)) = _
    rw [readGenerated?_pieces h]
    rfl

theorem spells_generated {t : Text} (h : t.IsExpression) (storage : GeneratedStorage) :
    Spells (ofWord "GENERATED")
      [ofWord "ALWAYS", ofWord "AS", ofBody t, ofWord storage.keyword] .generated
      (.generated ⟨t, storage, true⟩) where
  text := by
    rw [spaced_cons, spaced_cons, spaced_cons, spaced_cons, spaced_singleton]
    change _ = ' ' ::
      ("GENERATED ALWAYS ".toList ++ "AS ".toList ++ t.parenthesized ++ " ".toList ++
        storage.keyword)
    simp only [List.append_assoc]
    rfl
  lone := List.forall_mem_cons.mpr ⟨lone_ofWord (by decide), List.forall_mem_cons.mpr
    ⟨lone_ofWord (by decide), lone_generated h storage⟩⟩
  leading _ := rfl
  read column rest _ := by
    change required column "GENERATED" "a parenthesized expression" .generated
      (readGenerated? true (ofBody t :: ofWord storage.keyword :: rest)) = _
    rw [readGenerated?_pieces h]
    rfl

-- Every clause that can be written is spelled by some pieces.
theorem exists_spells {c : Constraint} (h : c.Writable) : ∃ p ps head, Spells p ps head c := by
  cases c with
  | primaryKey key => exact ⟨_, _, _, spells_primaryKey key⟩
  | notNull conflict => exact ⟨_, _, _, spells_notNull conflict⟩
  | unique conflict => exact ⟨_, _, _, spells_unique conflict⟩
  | check sql => exact ⟨_, _, _, spells_check h⟩
  | default value =>
    obtain ⟨p, hp⟩ := exists_spells_default h
    exact ⟨_, _, _, hp⟩
  | collate collation => exact ⟨_, _, _, spells_collate h⟩
  | references clause =>
    obtain ⟨body, hbody, rfl⟩ := h
    exact ⟨_, _, _, spells_references hbody⟩
  | generated g =>
    obtain ⟨t, storage, always⟩ := g
    cases always with
    | true => exact ⟨_, _, _, spells_generated h storage⟩
    | false => exact ⟨_, _, _, spells_as h storage⟩

/-! ## Lists of constraints -/

/-- The pieces of a list of constraints: they are its text, and are read as the list. -/
structure SpellsAll (ps : List Piece) (column : Text) (cs : List AnnotatedConstraint) : Prop where
  text : spaced ps = cs.flatMap fun c => ' ' :: c.toSql
  lone : ∀ p ∈ ps, p.Lone
  follows : Follows ps
  read : readConstraints column none ps = .ok cs

theorem spellsAll_nil (column : Text) : SpellsAll [] column [] where
  text := rfl
  lone := List.forall_mem_nil _
  follows := .inl rfl
  read := readConstraints_nil column none

theorem SpellsAll.cons_clause {rest : List Piece} {column : Text} {cs : List AnnotatedConstraint}
    (h : SpellsAll rest column cs) {p : Piece} {ps : List Piece} {head : ClauseHead}
    {c : Constraint} (hc : Spells p ps head c) :
    SpellsAll (p :: (ps ++ rest)) column (⟨none, c⟩ :: cs) where
  text := by
    rw [← List.cons_append, spaced_append, hc.text, h.text]
    rfl
  lone := by
    rw [← List.cons_append]
    exact List.forall_mem_append.mpr ⟨hc.lone, h.lone⟩
  follows := .inr (by rw [leads, hc.leading]; rfl)
  read := by
    rw [hc.reads column none h.follows, h.read]
    rfl

theorem SpellsAll.cons_named {rest : List Piece} {column : Text} {cs : List AnnotatedConstraint}
    (h : SpellsAll rest column cs) {p : Piece} {ps : List Piece} {head : ClauseHead}
    {c : Constraint} (hc : Spells p ps head c) {name : Text} (hname : name.IsName) :
    SpellsAll (ofWord "CONSTRAINT" :: ofWord name :: p :: (ps ++ rest)) column
      (⟨some name, c⟩ :: cs) where
  text := by
    have hsql : AnnotatedConstraint.toSql ⟨some name, c⟩ =
        "CONSTRAINT ".toList ++ name ++ " ".toList ++ c.toSql := rfl
    rw [spaced_cons, spaced_cons, (h.cons_clause hc).text, List.flatMap_cons, List.flatMap_cons,
      hsql]
    simp only [List.append_assoc, List.cons_append]
    rfl
  lone := List.forall_mem_cons.mpr ⟨lone_ofWord (by decide), List.forall_mem_cons.mpr
    ⟨lone_ofWord hname.1, (h.cons_clause hc).lone⟩⟩
  follows := .inr rfl
  read := by
    have hkeyword : leading? (ofWord "CONSTRAINT" :: ofWord name :: p :: (ps ++ rest)) =
        some .constraint := rfl
    have hread : readName none (ofWord name :: p :: (ps ++ rest)) =
        (some name, p :: (ps ++ rest)) := by
      rw [readName, readWord?_ofName hname (h.cons_clause hc).follows]
    rw [readConstraints_name hkeyword, hread, hc.reads column (some name) h.follows,
      h.read]
    rfl

theorem exists_spellsAll (column : Text) {cs : List AnnotatedConstraint}
    (h : ∀ c ∈ cs, c.Writable) : ∃ ps, SpellsAll ps column cs := by
  induction cs with
  | nil => exact ⟨[], spellsAll_nil column⟩
  | cons c cs ih =>
    obtain ⟨hc, hcs⟩ := List.forall_mem_cons.mp h
    obtain ⟨rest, hrest⟩ := ih hcs
    obtain ⟨p, ps, head, hspells⟩ := exists_spells hc.2
    obtain ⟨name, constraint⟩ := c
    cases name with
    | none => exact ⟨_, hrest.cons_clause hspells⟩
    | some name => exact ⟨_, hrest.cons_named hspells (hc.1 name rfl)⟩

-- One constraint is its text from end to end, with no blank before it.
theorem constraints_toSql (column : Text) {c : AnnotatedConstraint} (h : c.Writable) :
    constraints column c.toSql = .ok [c] := by
  obtain ⟨ps, hps⟩ := exists_spellsAll column (List.forall_mem_singleton.mpr h)
  have htext : ' ' :: c.toSql = spaced ps := by
    rw [hps.text, List.flatMap_cons, List.flatMap_nil, List.append_nil]
  rw [constraints_spaced column hps.lone htext, hps.read]

/-- Constraints are read back from the text that they are written as. -/
theorem constraints_spaceSeparated (column : Text) {cs : List AnnotatedConstraint}
    (h : ∀ c ∈ cs, c.Writable) :
    constraints column (Text.spaceSeparated (cs.map AnnotatedConstraint.toSql)) = .ok cs := by
  obtain ⟨ps, hps⟩ := exists_spellsAll column h
  cases cs with
  | nil =>
    have hscan : Piece.scan [] = .ok [] := scan_eq_ok_iff.mpr (scanFrom_nil 0)
    change constraints column [] = _
    rw [constraints, hscan]
    exact readConstraints_nil column none
  | cons c cs =>
    have htext : ' ' :: Text.spaceSeparated ((c :: cs).map AnnotatedConstraint.toSql) =
        spaced ps := by
      rw [hps.text, List.map_cons, Text.cons_spaceSeparated, ← List.map_cons, List.flatMap_map]
    -- The pieces of the text are those of the clauses, but for where they stand.
    obtain ⟨qs, hscan, hmove⟩ := scan_spaced hps.lone htext
    rw [constraints, hscan]
    calc readConstraints column none qs
        = readConstraints column none (qs.map (moveTo 0)) := (readConstraints_moveTo ..).symm
      _ = readConstraints column none ps := by rw [hmove, readConstraints_moveTo]
      _ = .ok (c :: cs) := hps.read

/-- Clauses that go on where the clause before could: names and values that look like options. -/
def ownerConstraints : List AnnotatedConstraint :=
  [⟨some "NOT", .notNull (some .fail)⟩, ⟨none, .check "owner <> ')'"⟩,
    ⟨none, .references "REFERENCES User (id) ON DELETE SET DEFAULT"⟩,
    ⟨none, .default (.text "it's")⟩]

theorem constraints_ownerConstraints :
    (∀ c ∈ ownerConstraints, c.Writable) ∧
      constraints "owner" ("CONSTRAINT NOT NOT NULL ON CONFLICT FAIL CHECK (owner <> ')') " ++
        "REFERENCES User (id) ON DELETE SET DEFAULT DEFAULT 'it''s'") = .ok ownerConstraints := by
  have hbody : IsReferenceBody [ofWord "User", ofBody "id", ofWord "ON", ofWord "DELETE",
      ofWord "SET", ofWord "DEFAULT"] :=
    ⟨by decide +kernel, by decide +kernel, by decide +kernel⟩
  have hcheck : Text.IsExpression "owner <> ')'" :=
    ⟨by decide +kernel, by decide +kernel, by decide +kernel⟩
  have hwritable : ∀ c ∈ ownerConstraints, c.Writable := by
    intro c hc
    simp only [ownerConstraints, List.mem_cons, List.not_mem_nil, or_false] at hc
    rcases hc with rfl | rfl | rfl | rfl
    · exact ⟨by decide +kernel, trivial⟩
    · exact ⟨by simp, hcheck⟩
    · exact ⟨by simp, _, hbody, rfl⟩
    · exact ⟨by simp, trivial⟩
  have htext : ("CONSTRAINT NOT NOT NULL ON CONFLICT FAIL CHECK (owner <> ')') ".toList ++
      "REFERENCES User (id) ON DELETE SET DEFAULT DEFAULT 'it''s'".toList) =
      Text.spaceSeparated (ownerConstraints.map AnnotatedConstraint.toSql) := by decide +kernel
  rw [htext]
  exact ⟨hwritable, constraints_spaceSeparated "owner" hwritable⟩

end Annotation

end AnnotatedSchema
