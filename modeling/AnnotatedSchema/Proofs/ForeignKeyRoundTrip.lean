import AnnotatedSchema.Proofs.ReferenceReading

/-!
# Reading a foreign key that was written

A key on one column is read back from its text. Each setting is spelled by pieces that start an
action, and none of the pieces inside does; so a setting is read up to where the next one was
written.
-/

namespace AnnotatedSchema

open Piece
open Annotation (referenceText)

namespace ForeignKey

/-! ## Settings that are spelled out -/

/-- The words that actions start with. -/
def actionWords : List Text := ["ON", "MATCH", "NOT", "DEFERRABLE"]

/-- Whether the piece can stand inside an action: it is none of the words that actions start
with. -/
def Inside (p : Piece) : Prop := ∀ w ∈ actionWords, p.isWord w = false

instance (p : Piece) : Decidable (Inside p) := inferInstanceAs (Decidable (∀ _ ∈ _, _))

/-- Whether the pieces are at their end or start an action. -/
def Ends (rest : List Piece) : Prop := rest = [] ∨ startsAction rest = true

/-- The words of the pieces, in capital letters and with single blanks. -/
def bodyText (body : List Piece) : Text :=
  Text.spaceSeparated (body.map fun p => p.text.upperAscii)

/-- The pieces that a setting can be spelled by, its keywords in any case of their letters. -/
inductive Spelled : Setting → List Piece → Prop
  | onDelete {on delete : Piece} {body : List Piece} {action : RowAction}
      (hon : on.isWord "ON" = true) (hdelete : delete.isWord "DELETE" = true)
      (hbody : ∀ p ∈ body, Inside p)
      (haction : RowAction.ofKeywords? (bodyText body) = some action) :
      Spelled (.onDelete action) (on :: delete :: body)
  | onUpdate {on update : Piece} {body : List Piece} {action : RowAction}
      (hon : on.isWord "ON" = true) (hupdate : update.isWord "UPDATE" = true)
      (hbody : ∀ p ∈ body, Inside p)
      (haction : RowAction.ofKeywords? (bodyText body) = some action) :
      Spelled (.onUpdate action) (on :: update :: body)
  | matchName {keyword name : Piece} (hkeyword : keyword.isWord "MATCH" = true)
      (hkind : name.kind = .word) (hname : Inside name) :
      Spelled (.matchName name.text) [keyword, name]
  | deferrable {keyword : Piece} {body : List Piece} {mode : InitialMode}
      (hkeyword : keyword.isWord "DEFERRABLE" = true) (hbody : ∀ p ∈ body, Inside p)
      (hmode : InitialMode.ofKeywords? (bodyText body) = some mode) :
      Spelled (.deferral ⟨true, mode⟩) (keyword :: body)
  | notDeferrable {not keyword : Piece} {body : List Piece} {mode : InitialMode}
      (hnot : not.isWord "NOT" = true) (hkeyword : keyword.isWord "DEFERRABLE" = true)
      (hbody : ∀ p ∈ body, Inside p)
      (hmode : InitialMode.ofKeywords? (bodyText body) = some mode) :
      Spelled (.deferral ⟨false, mode⟩) (not :: keyword :: body)

theorem Inside.startsAction {p : Piece} (h : Inside p) (rest : List Piece) :
    startsAction (p :: rest) = false := by
  simp only [Inside, actionWords, List.forall_mem_cons] at h
  obtain ⟨hon, hmatch, hnot, hdeferrable, -⟩ := h
  have hnegated : startsNotDeferrable (p :: rest) = false := by
    cases rest with
    | nil => rfl
    | cons q rest => rw [startsNotDeferrable, hnot, Bool.false_and]
  rw [ForeignKey.startsAction, hon, hmatch, hdeferrable, hnegated]
  rfl

theorem kind_of_startsAction {p : Piece} {rest : List Piece}
    (h : startsAction (p :: rest) = true) : p.kind = .word := by
  by_contra hkind
  have hinside : Inside p := fun w _ => by
    rw [isWord, beq_eq_false_iff_ne.mpr hkind, Bool.false_and]
  rw [hinside.startsAction] at h
  cases h

theorem splitAction_append {body rest : List Piece} (hbody : ∀ p ∈ body, Inside p)
    (hrest : Ends rest) : splitAction (body ++ rest) = (body, rest) := by
  induction body with
  | nil =>
    cases rest with
    | nil => rfl
    | cons p rest =>
      rw [List.nil_append, splitAction, if_pos (hrest.resolve_left (List.cons_ne_nil p rest))]
  | cons p body ih =>
    obtain ⟨hp, hbody⟩ := List.forall_mem_cons.mp hbody
    have hnot : ¬startsAction (p :: (body ++ rest)) = true := by
      rw [hp.startsAction]
      exact Bool.false_ne_true
    rw [List.cons_append, splitAction, if_neg hnot, ih hbody]

theorem readBody_append {α : Type} {column action : Text} {read? : Text → Option α} {a : α}
    {body rest : List Piece} (hbody : ∀ p ∈ body, Inside p) (hrest : Ends rest)
    (hread : read? (bodyText body) = some a) :
    readBody column action read? (body ++ rest) = .ok (a, rest) := by
  have hsplit := splitAction_append hbody hrest
  have hread' : read? (actionBody (body ++ rest)) = some a := by
    rw [actionBody, hsplit]
    exact hread
  rw [readBody, hread', hsplit]

-- A setting that is spelled out is read, and nothing of what comes next.
theorem Spelled.read {s : Setting} {ps rest : List Piece} (h : Spelled s ps) (hrest : Ends rest)
    (column : Text) : readAction? column (ps ++ rest) = some (.ok (s, rest)) := by
  cases h with
  | onDelete hon hdelete hbody haction =>
    simp only [List.cons_append, readAction?, hon, readOn, hdelete, if_true,
      readBody_append hbody hrest haction]
    rfl
  | @onUpdate on update body action hon hupdate hbody haction =>
    have hdelete : update.isWord "DELETE" = false := isWord_eq_false hupdate (by decide)
    simp only [List.cons_append, readAction?, hon, readOn, hdelete, hupdate, if_true,
      Bool.false_eq_true, if_false, readBody_append hbody hrest haction]
    rfl
  | @matchName keyword name hkeyword hkind hname =>
    have hon : keyword.isWord "ON" = false := isWord_eq_false hkeyword (by decide)
    have hgoes : name.kind = .word ∧ (!startsAction (name :: rest)) = true := by
      rw [hname.startsAction]
      exact ⟨hkind, rfl⟩
    simp only [List.cons_append, List.nil_append, readAction?, hon, hkeyword, Bool.false_eq_true,
      if_false, if_true]
    rw [readMatch, if_pos hgoes]
  | @deferrable keyword body mode hkeyword hbody hmode =>
    have hon : keyword.isWord "ON" = false := isWord_eq_false hkeyword (by decide)
    have hmatch : keyword.isWord "MATCH" = false := isWord_eq_false hkeyword (by decide)
    simp only [List.cons_append, readAction?, hon, hmatch, hkeyword, Bool.false_eq_true, if_false,
      if_true, readDeferral, readBody_append hbody hrest hmode]
    rfl
  | @notDeferrable not keyword body mode hnot hkeyword hbody hmode =>
    have hon : not.isWord "ON" = false := isWord_eq_false hnot (by decide)
    have hmatch : not.isWord "MATCH" = false := isWord_eq_false hnot (by decide)
    have hdeferrable : not.isWord "DEFERRABLE" = false := isWord_eq_false hnot (by decide)
    simp only [List.cons_append, readAction?, hon, hmatch, hdeferrable, startsNotDeferrable, hnot,
      hkeyword, Bool.false_eq_true, if_false, Bool.and_self, if_true, List.drop_succ_cons,
      List.drop_zero, readDeferral, readBody_append hbody hrest hmode]
    rfl

theorem Spelled.startsAction {s : Setting} {ps : List Piece} (h : Spelled s ps)
    (rest : List Piece) : startsAction (ps ++ rest) = true := by
  cases h with
  | onDelete hon => simp only [List.cons_append, ForeignKey.startsAction, hon, Bool.true_or]
  | onUpdate hon => simp only [List.cons_append, ForeignKey.startsAction, hon, Bool.true_or]
  | matchName hkeyword =>
    simp only [List.cons_append, ForeignKey.startsAction, hkeyword, Bool.true_or, Bool.or_true]
  | deferrable hkeyword =>
    simp only [List.cons_append, ForeignKey.startsAction, hkeyword, Bool.true_or, Bool.or_true]
  | notDeferrable hnot hkeyword =>
    simp only [List.cons_append, ForeignKey.startsAction, startsNotDeferrable, hnot, hkeyword,
      Bool.and_self, Bool.or_true]

theorem Spelled.ne_nil {s : Setting} {ps : List Piece} (h : Spelled s ps) : ps ≠ [] := by
  cases h <;> exact List.cons_ne_nil _ _

theorem ends_flatten {ss : List Setting} {pss : List (List Piece)}
    (h : List.Forall₂ Spelled ss pss) : Ends pss.flatten := by
  cases h with
  | nil => exact .inl rfl
  | cons hs _ => exact .inr (hs.startsAction _)

-- Settings that are spelled out one after the other are all made.
theorem readActions_flatten {ss : List Setting} {pss : List (List Piece)}
    (h : List.Forall₂ Spelled ss pss) (column : Text) (fk : ForeignKey) :
    readActions column fk pss.flatten = .ok (ss.foldl set fk) := by
  induction h generalizing fk with
  | nil => exact readActions_nil column fk
  | @cons s ps ss pss hs hss ih =>
    have hread := hs.read (ends_flatten hss) column
    obtain ⟨p, ps, rfl⟩ := List.exists_cons_of_ne_nil hs.ne_nil
    rw [List.flatten_cons, List.cons_append] at *
    rw [readActions_cons, hread]
    exact ih (fk.set s)

theorem readTail_flatten {ss : List Setting} {pss : List (List Piece)}
    (h : List.Forall₂ Spelled ss pss) (column : Text) (fk : ForeignKey) :
    readTail column fk pss.flatten = .ok (ss.foldl set fk) := by
  have hread := readActions_flatten h column fk
  cases hps : pss.flatten with
  | nil =>
    rw [hps, readActions_nil] at hread
    exact hread
  | cons p rest =>
    have hstarts := (ends_flatten h).resolve_left (by rw [hps]; exact List.cons_ne_nil p rest)
    rw [hps] at hstarts
    have hgroup := groupBody?_of_word (kind_of_startsAction hstarts)
    rw [hps] at hread
    rw [readTail, hgroup]
    exact hread

/-! ## How settings are written -/

/-- The words that a row action is written in. -/
def rowActionPieces : RowAction → List Piece
  | .setNull => [ofWord "SET", ofWord "NULL"]
  | .setDefault => [ofWord "SET", ofWord "DEFAULT"]
  | .cascade => [ofWord "CASCADE"]
  | .restrict => [ofWord "RESTRICT"]
  | .noAction => [ofWord "NO", ofWord "ACTION"]

/-- The words that an initial mode is written in. -/
def initialModePieces : InitialMode → List Piece
  | .unspecified => []
  | .deferred => [ofWord "INITIALLY", ofWord "DEFERRED"]
  | .immediate => [ofWord "INITIALLY", ofWord "IMMEDIATE"]

/-- The pieces that a setting is written in. -/
def settingPieces : Setting → List Piece
  | .onDelete action => ofWord "ON" :: ofWord "DELETE" :: rowActionPieces action
  | .onUpdate action => ofWord "ON" :: ofWord "UPDATE" :: rowActionPieces action
  | .matchName name => [ofWord "MATCH", ofWord name]
  | .deferral ⟨true, mode⟩ => ofWord "DEFERRABLE" :: initialModePieces mode
  | .deferral ⟨false, mode⟩ => ofWord "NOT" :: ofWord "DEFERRABLE" :: initialModePieces mode

/-- The settings of a key in the order they are written in. -/
def settings (fk : ForeignKey) : List Setting :=
  (fk.onDelete.map Setting.onDelete).toList ++ (fk.onUpdate.map Setting.onUpdate).toList ++
    (fk.matchName.map Setting.matchName).toList ++ (fk.deferral.map Setting.deferral).toList

/-- Whether a word can stand after `MATCH`. -/
def IsMatchName (name : Text) : Prop :=
  (ofWord name).Lone ∧ ∀ w ∈ actionWords, name.sameKeyword w = false

/-- Whether the setting can be written so that it is read again. -/
def Setting.Writable : Setting → Prop
  | .matchName name => IsMatchName name
  | _ => True

theorem spelled_settingPieces {s : Setting} (h : s.Writable) : Spelled s (settingPieces s) := by
  have hrow (action : RowAction) : (∀ p ∈ rowActionPieces action, Inside p) ∧
      RowAction.ofKeywords? (bodyText (rowActionPieces action)) = some action := by
    cases action <;> decide
  have hmode (mode : InitialMode) : (∀ p ∈ initialModePieces mode, Inside p) ∧
      InitialMode.ofKeywords? (bodyText (initialModePieces mode)) = some mode := by
    cases mode <;> decide
  cases s with
  | onDelete action => exact .onDelete (by decide) (by decide) (hrow action).1 (hrow action).2
  | onUpdate action => exact .onUpdate (by decide) (by decide) (hrow action).1 (hrow action).2
  | matchName name =>
    have hinside : Inside (ofWord name) := h.2
    exact Spelled.matchName (by decide) rfl hinside
  | deferral d =>
    obtain ⟨deferrable, mode⟩ := d
    cases deferrable with
    | true => exact .deferrable (by decide) (hmode mode).1 (hmode mode).2
    | false => exact .notDeferrable (by decide) (by decide) (hmode mode).1 (hmode mode).2

theorem lone_settingPieces {s : Setting} (h : s.Writable) : ∀ p ∈ settingPieces s, p.Lone := by
  cases s with
  | onDelete action => cases action <;> decide +kernel
  | onUpdate action => cases action <;> decide +kernel
  | matchName name =>
    exact List.forall_mem_cons.mpr ⟨lone_ofWord (by decide), List.forall_mem_singleton.mpr h.1⟩
  | deferral d =>
    obtain ⟨deferrable, mode⟩ := d
    cases deferrable <;> cases mode <;> decide +kernel

theorem settingsText_eq (fk : ForeignKey) :
    fk.settingsText = spaced (fk.settings.map settingPieces).flatten := by
  have honDelete : clause "ON DELETE " (fk.onDelete.map RowAction.keywords) =
      spaced ((fk.onDelete.map Setting.onDelete).toList.map settingPieces).flatten := by
    cases fk.onDelete with
    | none => rfl
    | some action => cases action <;> rfl
  have honUpdate : clause "ON UPDATE " (fk.onUpdate.map RowAction.keywords) =
      spaced ((fk.onUpdate.map Setting.onUpdate).toList.map settingPieces).flatten := by
    cases fk.onUpdate with
    | none => rfl
    | some action => cases action <;> rfl
  have hmatch : clause "MATCH " fk.matchName =
      spaced ((fk.matchName.map Setting.matchName).toList.map settingPieces).flatten := by
    cases fk.matchName with
    | none => rfl
    | some name => exact (congrArg (" MATCH ".toList ++ ·) (List.append_nil name)).symm
  have hdeferral : clause "" (fk.deferral.map Deferral.toSql) =
      spaced ((fk.deferral.map Setting.deferral).toList.map settingPieces).flatten := by
    cases fk.deferral with
    | none => rfl
    | some d =>
      obtain ⟨deferrable, mode⟩ := d
      cases deferrable <;> cases mode <;> rfl
  rw [settingsText, honDelete, honUpdate, hmatch, hdeferral]
  simp only [settings, List.map_append, List.flatten_append, spaced_append]

-- A key is made of its target and the settings that are written.
theorem foldl_set_settings (fk : ForeignKey) :
    fk.settings.foldl set
      ⟨fk.columns, fk.tableLevel, fk.target, fk.targetColumns, none, none, none, none⟩ = fk := by
  obtain ⟨columns, tableLevel, target, targetColumns, onDelete, onUpdate, matchName, deferral⟩ := fk
  cases onDelete <;> cases onUpdate <;> cases matchName <;> cases deferral <;> rfl

/-! ## Keys that can be read again -/

/-- Whether the text can stand in the list of columns of a target, and is the identifier of
itself. -/
structure IsColumnName (t : Text) : Prop where
  ne_nil : t ≠ []
  identifier_eq : identifier t = t
  plain : ∀ c ∈ t, isBlank c = false ∧ isQuote c = false ∧ c ∉ [',', '(', ')']

/-- Whether a call makes nothing that cannot be read again. -/
def Call.Writable : Call → Prop
  | .references columns => ∃ name, IsColumnName name ∧ columns = [name]
  | .set s => s.Writable

/-- A key on one column that can be read from its text. -/
structure Writable (column : Text) (target : Model) (fk : ForeignKey) : Prop where
  columns : fk.columns = [column]
  tableLevel : fk.tableLevel = false
  target : fk.target = target
  targetColumns : fk.targetColumns = [] ∨ ∃ name, IsColumnName name ∧ fk.targetColumns = [name]
  matchName : ∀ name ∈ fk.matchName, IsMatchName name

theorem writable_onColumn (column : Text) (target : Model) :
    Writable column target (onColumn column target) :=
  ⟨rfl, rfl, rfl, .inl rfl, fun _ h => nomatch h⟩

theorem Writable.apply {column : Text} {target : Model} {fk : ForeignKey}
    (h : Writable column target fk) {call : Call} (hcall : call.Writable) :
    ∃ fk', fk.apply call = .ok fk' ∧ Writable column target fk' := by
  cases call with
  | references columns =>
    obtain ⟨name, hname, rfl⟩ := hcall
    have hcount : [name] = [] ∨ [name].length = fk.columns.length := by
      rw [h.columns]
      exact .inr rfl
    exact ⟨{ fk with targetColumns := [name] }, if_pos hcount,
      { h with targetColumns := .inr ⟨name, hname, rfl⟩ }⟩
  | set s =>
    refine ⟨fk.set s, rfl, ?_⟩
    cases s with
    | onDelete | onUpdate | deferral => exact { h with }
    | matchName name =>
      refine { h with matchName := fun name' hname => ?_ }
      obtain rfl : name = name' := Option.some.inj hname
      exact hcall

theorem Writable.foldlM {column : Text} {target : Model} {fk : ForeignKey}
    (h : Writable column target fk) {calls : List Call} (hcalls : ∀ call ∈ calls, call.Writable) :
    ∃ fk', calls.foldlM ForeignKey.apply fk = .ok fk' ∧ Writable column target fk' := by
  induction calls generalizing fk with
  | nil => exact ⟨fk, rfl, h⟩
  | cons call calls ih =>
    obtain ⟨hcall, hcalls⟩ := List.forall_mem_cons.mp hcalls
    obtain ⟨next, hnext, hwritable⟩ := h.apply hcall
    obtain ⟨fk', hfk', hwritable'⟩ := ih hwritable hcalls
    refine ⟨fk', ?_, hwritable'⟩
    rw [List.foldlM_cons, hnext]
    exact hfk'

theorem Writable.settings {column : Text} {target : Model} {fk : ForeignKey}
    (h : Writable column target fk) : ∀ s ∈ fk.settings, s.Writable := by
  intro s hs
  simp only [ForeignKey.settings, List.mem_append, Option.mem_toList,
    Option.map_eq_some_iff] at hs
  rcases hs with ((⟨action, -, rfl⟩ | ⟨action, -, rfl⟩) | ⟨name, hname, rfl⟩) | ⟨d, -, rfl⟩
  · trivial
  · trivial
  · exact h.matchName name hname
  · trivial

/-! ## Columns in brackets -/

theorem closeGroup_plain {t : Text} (h : ∀ c ∈ t, isQuote c = false ∧ c ∉ [',', '(', ')'])
    (start offset : Nat) :
    closeGroup start offset 0 (t ++ [')']) = .ok (t ++ [')'], []) := by
  induction t generalizing offset with
  | nil => exact closeGroup_close start offset []
  | cons c t ih =>
    obtain ⟨⟨hquote, hc⟩, ht⟩ := List.forall_mem_cons.mp h
    simp only [List.mem_cons, List.not_mem_nil, or_false, not_or] at hc
    obtain ⟨-, hopen, hclose⟩ := hc
    have hdepth : depthAfter c 0 = 0 := by rw [depthAfter, if_neg hopen, if_neg hclose]
    rw [List.cons_append, closeGroup_step hquote fun hc => hclose hc.1, hdepth, ih ht]
    rfl

theorem IsColumnName.isExpression {t : Text} (h : IsColumnName t) : t.IsExpression where
  closed := by
    have hclose := closeGroup_plain (fun c hc => (h.plain c hc).2) 0 (0 + '('.utf8Size)
    rw [Text.Closed, scan_eq_ok_iff]
    change scanFrom 0 ('(' :: (t ++ [')'])) = _
    rw [scanFrom_piece (by decide) (first_group hclose), scanFrom_nil]
    rfl
  ne_nil := h.ne_nil
  trimmed := Text.trim_eq_self (fun c hc => (h.plain c (List.mem_of_mem_head? hc)).1)
    fun c hc => (h.plain c (List.mem_of_mem_getLast? hc)).1

theorem IsColumnName.listedColumns {t : Text} (h : IsColumnName t) : listedColumns t = [t] := by
  have hcomma : ',' ∉ t := fun hmem => (h.plain ',' hmem).2.2 List.mem_cons_self
  rw [ForeignKey.listedColumns, List.splitOn_eq_singleton hcomma, List.map_singleton,
    h.isExpression.trimmed]
  simp [h.ne_nil]

/-! ## The whole key -/

/-- The pieces that a key is written in, after `REFERENCES`. -/
def referencePieces (fk : ForeignKey) : List Piece :=
  ofWord fk.target.name :: (fk.targetColumns.map ofBody ++ (fk.settings.map settingPieces).flatten)

section
variable {column : Text} {target : Model} {fk : ForeignKey}

theorem Writable.text_eq (h : Writable column target fk)
    (htarget : identifier target.name = target.name) :
    fk.text = referenceText fk.referencePieces := by
  have hcolumns : fk.targetText = fk.target.name ++ spaced (fk.targetColumns.map ofBody) := by
    have htable : fk.target.table = fk.target.name := by
      rw [h.target]
      exact htarget
    rcases h.targetColumns with hnone | ⟨name, hname, hone⟩
    · rw [targetText, hnone, htable]
      exact (List.append_nil _).symm
    · rw [targetText, hone, htable, if_neg (List.cons_ne_nil name []), identifierList_singleton,
        hname.identifier_eq, List.map_singleton, spaced_singleton, List.append_assoc]
      rfl
  calc fk.text
      = "REFERENCES ".toList ++ fk.targetText ++ fk.settingsText := text_onColumn h.tableLevel
    _ = "REFERENCES ".toList ++ (fk.target.name ++ spaced (fk.targetColumns.map ofBody)) ++
          spaced (fk.settings.map settingPieces).flatten := by rw [hcolumns, settingsText_eq]
    _ = "REFERENCES ".toList ++ (fk.target.name ++ (spaced (fk.targetColumns.map ofBody) ++
          spaced (fk.settings.map settingPieces).flatten)) := by
        rw [List.append_assoc, List.append_assoc]
    _ = referenceText fk.referencePieces := by
        rw [← spaced_append]
        rfl

theorem Writable.lone (h : Writable column target fk) (hword : (ofWord target.name).Lone) :
    ∀ p ∈ fk.referencePieces, p.Lone := by
  rw [referencePieces, h.target]
  refine List.forall_mem_cons.mpr ⟨hword, List.forall_mem_append.mpr ⟨?_, fun p hp => ?_⟩⟩
  · rcases h.targetColumns with hnone | ⟨name, hname, hone⟩
    · rw [hnone]
      exact List.forall_mem_nil _
    · rw [hone]
      exact List.forall_mem_singleton.mpr (lone_ofBody hname.isExpression.closed)
  · obtain ⟨ps, hps, hp⟩ := List.mem_flatten.mp hp
    obtain ⟨s, hs, rfl⟩ := List.mem_map.mp hps
    exact lone_settingPieces (h.settings s hs) p hp

theorem Writable.spelled (h : Writable column target fk) :
    List.Forall₂ Spelled fk.settings (fk.settings.map settingPieces) :=
  List.forall₂_map_right_iff.mpr
    (List.forall₂_same.mpr fun s hs => spelled_settingPieces (h.settings s hs))

theorem Writable.readTail (h : Writable column target fk) :
    readTail column (onColumn column target)
      (fk.targetColumns.map ofBody ++ (fk.settings.map settingPieces).flatten) = .ok fk := by
  have hfk := foldl_set_settings fk
  rw [h.columns, h.tableLevel, h.target] at hfk
  rcases h.targetColumns with hnone | ⟨name, hname, hone⟩
  · rw [hnone] at hfk ⊢
    rw [List.map_nil, List.nil_append, readTail_flatten h.spelled]
    exact congrArg Except.ok hfk
  · rw [hone] at hfk ⊢
    have hreferences : (onColumn column target).references (listedColumns name) =
        .ok { onColumn column target with targetColumns := [name] } := by
      rw [hname.listedColumns]
      rfl
    have hgroup := Annotation.groupBody?_ofBody hname.isExpression
    rw [List.map_singleton, List.singleton_append, ForeignKey.readTail, hgroup]
    change (onColumn column target).references (listedColumns name) >>= _ = _
    rw [hreferences]
    exact (readActions_flatten h.spelled column _).trans (congrArg Except.ok hfk)

end

/-- A key on one column that can be written is read again from its text. -/
theorem ofClause_toSql (column : Text) {target : Model} {candidates : List Model}
    {calls : List Call} (htarget : identifier target.name = target.name)
    (hword : (ofWord target.name).Lone) (hcalls : ∀ call ∈ calls, call.Writable)
    (hfirst : FirstNamed candidates target.name target) :
    ∃ fk, calls.foldlM apply (onColumn column target) = .ok fk ∧
      ∀ sql, fk.toSql = .ok sql → ofClause column sql candidates = .ok fk := by
  obtain ⟨fk, hfk, h⟩ := (writable_onColumn column target).foldlM hcalls
  refine ⟨fk, hfk, fun sql hsql => ?_⟩
  obtain ⟨-, rfl⟩ := toSql_eq_ok_iff.mp hsql
  have hresolve : resolve column target.name candidates = .ok target := by
    rw [resolve, firstNamed_iff.mp hfirst]
  rw [h.text_eq htarget, ofClause_referenceText (h.lone hword), referencePieces, h.target]
  change resolve column target.name candidates >>= _ = _
  rw [hresolve]
  exact h.readTail

/-- A target whose name is its own identifier. -/
def category : Model := ⟨"category", [⟨"ID", "i64", "PRIMARY KEY"⟩]⟩

/-- Settings of every kind. The second deferral does not count. -/
def categoryCalls : List Call :=
  [.set (.deferral ⟨false, .deferred⟩), .references ["id"], .set (.matchName "FULL"),
    .set (.onDelete .setNull), .set (.deferral ⟨true, .unspecified⟩)]

theorem ofClause_toSql_category :
    ∃ fk, categoryCalls.foldlM apply (onColumn "category_id" category) = .ok fk ∧
      fk.toSql = .ok ("REFERENCES category (id) ON DELETE SET NULL MATCH FULL ".toList ++
        "NOT DEFERRABLE INITIALLY DEFERRED") ∧
      ofClause "category_id" ("REFERENCES category (id) ON DELETE SET NULL MATCH FULL ".toList ++
        "NOT DEFERRABLE INITIALLY DEFERRED") [⟨"Category", []⟩, category] = .ok fk := by
  have hname : IsColumnName "id" := by
    refine ⟨by decide, by decide, fun c hc => ?_⟩
    have hletters : c = 'i' ∨ c = 'd' := by simpa using hc
    rcases hletters with rfl | rfl <;> decide
  have hmatch : IsMatchName "FULL" := ⟨by decide +kernel, by decide⟩
  have hcalls : ∀ call ∈ categoryCalls, call.Writable := by
    intro call hcall
    simp only [categoryCalls, List.mem_cons, List.not_mem_nil, or_false] at hcall
    rcases hcall with rfl | rfl | rfl | rfl | rfl
    · trivial
    · exact ⟨"id", hname, rfl⟩
    · exact hmatch
    · trivial
    · trivial
  have hfirst : FirstNamed [⟨"Category", []⟩, category] category.name category :=
    ⟨[⟨"Category", []⟩], [], rfl, rfl, by decide⟩
  have hword : (ofWord category.name).Lone := by decide +kernel
  obtain ⟨fk, hfk, hall⟩ := ofClause_toSql "category_id" (by decide) hword hcalls hfirst
  have hsql : fk.toSql = .ok ("REFERENCES category (id) ON DELETE SET NULL MATCH FULL ".toList ++
      "NOT DEFERRABLE INITIALLY DEFERRED") := by
    obtain rfl := Except.ok.inj hfk
    decide +kernel
  exact ⟨fk, hfk, hsql, hall _ hsql⟩

end ForeignKey

end AnnotatedSchema
