import AnnotatedSchema.Proofs.ActionClauses
import AnnotatedSchema.Proofs.IdentifierPasses
import AnnotatedSchema.Proofs.QueryCalls

/-!
# A foreign key after calls

A call either sets one part of a key or fails and changes nothing. A key so lists as many columns of
its target as it has of its own, or none, and is what the last call for each part has set, where of
the deferrals the first counts.
-/

namespace AnnotatedSchema

/-! ## Words in a text -/

namespace Text

/-- How often the word stands in the text, between blanks. -/
def wordCount (word t : Text) : Nat := (t.splitOn ' ').count word

theorem wordCount_append (word t u : Text) :
    wordCount word (t ++ ' ' :: u) = wordCount word t + wordCount word u := by
  rw [wordCount, List.splitOn_append_cons_self, List.count_append]
  rfl

theorem wordCount_spaceSeparated (word : Text) {ts : List Text} (h : ts ≠ []) :
    wordCount word (spaceSeparated ts) = (ts.map (wordCount word)).sum := by
  match ts, h with
  | [t], _ => simp [spaceSeparated]
  | t :: u :: ts, _ =>
    have hcons : spaceSeparated (t :: u :: ts) = t ++ ' ' :: spaceSeparated (u :: ts) := by
      simp [spaceSeparated, List.intercalate]
    rw [hcons, wordCount_append, wordCount_spaceSeparated word (List.cons_ne_nil u ts),
      List.map_cons (a := t), List.sum_cons]

theorem wordCount_eq_zero {word t : Text} {c : Char} (hword : c ∈ word) (hblank : c ≠ ' ')
    (ht : c ∉ t) : wordCount word t = 0 := by
  rw [wordCount, List.count_eq_zero]
  intro hmem
  have hc : c ∈ ' ' :: spaceSeparated (t.splitOn ' ') :=
    mem_spaceSeparated_iff.mpr (.inr ⟨word, hmem, hword⟩)
  rw [spaceSeparated, List.intercalate_splitOn] at hc
  exact ht ((List.mem_cons.mp hc).resolve_left hblank)

theorem not_mem_intercalate {separator : Text} {c : Char} (hs : c ∉ separator) {ts : List Text}
    (h : ∀ t ∈ ts, c ∉ t) : c ∉ separator.intercalate ts := by
  match ts, h with
  | [], _ => exact List.not_mem_nil
  | [t], h => simpa using h
  | t :: u :: ts, h =>
    obtain ⟨ht, hts⟩ := List.forall_mem_cons.mp h
    rw [List.intercalate_cons_cons]
    simp only [List.mem_append, not_or]
    exact ⟨⟨ht, hs⟩, not_mem_intercalate hs hts⟩

end Text

-- A capital with a small form is in no identifier.
theorem not_mem_identifier {c : Char} (hcapital : isCapital c = true) (hascii : c.toNat < 128)
    (name : Text) : c ∉ identifier name := by
  intro hmem
  have hunpaired := isUnpaired_of_mem_identifierAfter hmem hcapital
  rw [isUnpaired_of_ascii hascii] at hunpaired
  cases hunpaired

namespace ForeignKey

/-! ## Calls -/

/-- Whether the call succeeds on a key with the columns: a list of columns has as many as them, or
none. -/
def Call.Fits (columns : List Text) : Call → Prop
  | .references listed => listed = [] ∨ listed.length = columns.length
  | .set _ => True

instance (columns : List Text) : (call : Call) → Decidable (call.Fits columns)
  | .references listed => inferInstanceAs (Decidable (listed = [] ∨ _))
  | .set _ => inferInstanceAs (Decidable True)

/-- The columns of the target that the call lists. -/
def Call.columns? : Call → Option (List Text)
  | .references listed => some listed
  | .set _ => none

def Call.setting? : Call → Option Setting
  | .references _ => none
  | .set setting => some setting

/-- The key after all calls, and those of them that succeeded. -/
def run (fk : ForeignKey) : List Call → ForeignKey × List Call
  | [] => (fk, [])
  | call :: calls =>
    match fk.apply call with
    | .error _ => run fk calls
    | .ok fk => ((run fk calls).1, call :: (run fk calls).2)

/-- The columns of the target are as many as the own columns, if there are any. -/
def Matched (fk : ForeignKey) : Prop :=
  fk.targetColumns = [] ∨ fk.targetColumns.length = fk.columns.length

/-- The key with what the call sets. -/
def changed (fk : ForeignKey) : Call → ForeignKey
  | .references listed => { fk with targetColumns := listed }
  | .set setting => fk.set setting

theorem columns_changed (fk : ForeignKey) (call : Call) :
    (fk.changed call).columns = fk.columns := by
  rcases call with listed | setting
  · rfl
  · cases setting <;> rfl

theorem apply_of_fits {fk : ForeignKey} {call : Call} (h : call.Fits fk.columns) :
    fk.apply call = .ok (fk.changed call) := by
  cases call with
  | references listed => exact if_pos h
  | set setting => rfl

theorem exists_error_of_not_fits {fk : ForeignKey} {call : Call} (h : ¬call.Fits fk.columns) :
    ∃ e, fk.apply call = .error e := by
  cases call with
  | references listed => exact ⟨_, if_neg h⟩
  | set setting => exact absurd trivial h

theorem changed_of_apply {fk fk' : ForeignKey} {call : Call} (h : fk.apply call = .ok fk') :
    call.Fits fk.columns ∧ fk' = fk.changed call := by
  by_cases hfits : call.Fits fk.columns
  · rw [apply_of_fits hfits] at h
    exact ⟨hfits, (Except.ok.inj h).symm⟩
  · obtain ⟨e, he⟩ := exists_error_of_not_fits hfits
    rw [he] at h
    cases h

theorem run_eq (fk : ForeignKey) (calls : List Call) :
    fk.run calls =
      ((calls.filter (·.Fits fk.columns)).foldl changed fk, calls.filter (·.Fits fk.columns)) := by
  induction calls generalizing fk with
  | nil => rfl
  | cons call calls ih =>
    rw [run]
    by_cases hfits : call.Fits fk.columns
    · rw [apply_of_fits hfits, List.filter_cons_of_pos (by simpa using hfits), List.foldl_cons]
      dsimp only
      rw [ih, columns_changed]
    · obtain ⟨e, he⟩ := exists_error_of_not_fits hfits
      rw [he, List.filter_cons_of_neg (by simpa using hfits)]
      exact ih fk

theorem Matched.apply {fk fk' : ForeignKey} {call : Call} (h : fk.Matched)
    (happly : fk.apply call = .ok fk') : fk'.Matched := by
  obtain ⟨hfits, rfl⟩ := changed_of_apply happly
  rcases call with listed | setting
  · exact hfits
  · cases setting <;> exact h

theorem Matched.run {fk : ForeignKey} (h : fk.Matched) (calls : List Call) :
    (fk.run calls).1.Matched := by
  induction calls generalizing fk with
  | nil => exact h
  | cons call calls ih =>
    rw [ForeignKey.run]
    split
    · exact ih h
    · next fk' happly => exact ih (h.apply happly)

-- The columns of the target are kept apart from the settings.
theorem foldl_changed (fk : ForeignKey) (calls : List Call) :
    calls.foldl changed fk =
      (calls.filterMap Call.setting?).foldl set { fk with
        targetColumns := (calls.filterMap Call.columns?).getLast?.getD fk.targetColumns } := by
  induction calls generalizing fk with
  | nil => rfl
  | cons call calls ih =>
    rw [List.foldl_cons, ih, getLast?_filterMap_cons]
    rcases call with listed | setting
    · cases (calls.filterMap Call.columns?).getLast? <;> rfl
    · simp only [Call.columns?, Option.or_none, List.filterMap_cons, Call.setting?,
        List.foldl_cons]
      cases setting <;> rfl

/-! ## The text -/

/-- The own columns of a key on a table. -/
def ownerTexts (fk : ForeignKey) : List Text :=
  if fk.tableLevel then ["FOREIGN KEY ".toList ++ (identifierList fk.columns).parenthesized]
  else []

/-- The target and the columns that are listed, if there are any. -/
def targetTexts (fk : ForeignKey) : List Text :=
  ("REFERENCES ".toList ++ fk.target.table) ::
    if fk.targetColumns = [] then [] else [(identifierList fk.targetColumns).parenthesized]

def settingTexts (fk : ForeignKey) : List Text :=
  (fk.onDelete.map fun action => "ON DELETE ".toList ++ action.keywords).toList ++
  (fk.onUpdate.map fun action => "ON UPDATE ".toList ++ action.keywords).toList ++
  (fk.matchName.map fun name => "MATCH ".toList ++ name).toList ++
  (fk.deferral.map Deferral.toSql).toList

/-- The parts of the text, in their order. -/
def texts (fk : ForeignKey) : List Text := fk.ownerTexts ++ fk.targetTexts ++ fk.settingTexts

theorem texts_ne_nil (fk : ForeignKey) : fk.texts ≠ [] :=
  List.append_ne_nil_of_left_ne_nil
    (List.append_ne_nil_of_right_ne_nil _ (List.cons_ne_nil _ _)) _

theorem flatMap_ownerTexts (fk : ForeignKey) :
    fk.ownerTexts.flatMap (' ' :: ·) ++ [' '] = ' ' :: fk.ownerText := by
  rw [ownerTexts, ownerText]
  split
  · simp
  · rfl

theorem flatMap_targetTexts (fk : ForeignKey) :
    fk.targetTexts.flatMap (' ' :: ·) = ' ' :: "REFERENCES ".toList ++ fk.targetText := by
  rw [targetTexts, targetText]
  split <;> simp

theorem clause_map {α : Type} (keyword : Text) (f : α → Text) (a : Option α) :
    clause keyword (a.map f) = (a.map fun a => keyword ++ f a).toList.flatMap (' ' :: ·) := by
  cases a <;> simp [clause]

theorem flatMap_settingTexts (fk : ForeignKey) :
    fk.settingTexts.flatMap (' ' :: ·) = fk.settingsText := by
  have hmatch : clause "MATCH " fk.matchName =
      (fk.matchName.map fun name => "MATCH ".toList ++ name).toList.flatMap (' ' :: ·) := by
    simpa using clause_map "MATCH " id fk.matchName
  simp only [settingsText, settingTexts, clause_map, hmatch, List.flatMap_append]
  rfl

theorem text_eq_texts (fk : ForeignKey) : fk.text = Text.spaceSeparated fk.texts := by
  have hblank : ' ' :: fk.text = ' ' :: Text.spaceSeparated fk.texts := by
    obtain ⟨t, ts, hcons⟩ := List.exists_cons_of_ne_nil fk.texts_ne_nil
    rw [hcons, Text.cons_spaceSeparated, ← hcons, texts, List.flatMap_append, List.flatMap_append,
      flatMap_targetTexts, flatMap_settingTexts, text_eq]
    simp only [← List.cons_append, ← flatMap_ownerTexts, List.append_assoc]
    rfl
  exact (List.cons.inj hblank).2

/-! ## Deferrals in the text -/

/-- The word that every deferral has. -/
def deferralWord : Text := "DEFERRABLE"

theorem wordCount_deferral (d : Deferral) : Text.wordCount deferralWord d.toSql = 1 := by
  obtain ⟨deferrable, initially⟩ := d
  cases deferrable <;> cases initially <;> decide

-- The word has a capital that is in no other keyword and in no identifier.
theorem wordCount_deferralWord_eq_zero {t : Text} (h : 'B' ∉ t) :
    Text.wordCount deferralWord t = 0 :=
  Text.wordCount_eq_zero (by decide) (by decide) h

theorem wordCount_action (keyword : Text) (h : 'B' ∉ keyword) (action : RowAction) :
    Text.wordCount deferralWord (keyword ++ action.keywords) = 0 := by
  have hkeywords : 'B' ∉ action.keywords := by cases action <;> decide
  exact wordCount_deferralWord_eq_zero (List.not_mem_append h hkeywords)

theorem wordCount_match (name : Text) :
    Text.wordCount deferralWord ("MATCH ".toList ++ name) = Text.wordCount deferralWord name := by
  have happend : "MATCH ".toList ++ name = "MATCH".toList ++ ' ' :: name := rfl
  rw [happend, Text.wordCount_append, wordCount_deferralWord_eq_zero (by decide), Nat.zero_add]

theorem capital_not_mem_identifier (name : Text) : 'B' ∉ identifier name :=
  not_mem_identifier (by decide +kernel) (by decide) name

theorem wordCount_parenthesized (names : List Text) :
    Text.wordCount deferralWord (identifierList names).parenthesized = 0 := by
  have hlist : 'B' ∉ identifierList names :=
    Text.not_mem_intercalate (by decide)
      (List.forall_mem_map.mpr fun name _ => capital_not_mem_identifier name)
  exact wordCount_deferralWord_eq_zero (by simpa [Text.parenthesized] using hlist)

theorem sum_wordCount_option {α : Type} (word : Text) (f : α → Text) (a : Option α) :
    ((a.map f).toList.map (Text.wordCount word)).sum =
      (a.map fun a => Text.wordCount word (f a)).getD 0 := by
  cases a <;> simp

theorem wordCount_ownerTexts (fk : ForeignKey) :
    (fk.ownerTexts.map (Text.wordCount deferralWord)).sum = 0 := by
  have hkey : Text.wordCount deferralWord
      ("FOREIGN KEY ".toList ++ (identifierList fk.columns).parenthesized) = 0 := by
    have happend : "FOREIGN KEY ".toList ++ (identifierList fk.columns).parenthesized =
        "FOREIGN KEY".toList ++ ' ' :: (identifierList fk.columns).parenthesized := rfl
    rw [happend, Text.wordCount_append, wordCount_deferralWord_eq_zero (by decide),
      wordCount_parenthesized]
  rw [ownerTexts]
  split
  · rw [List.map_singleton, hkey]
    rfl
  · rfl

theorem wordCount_targetTexts (fk : ForeignKey) :
    (fk.targetTexts.map (Text.wordCount deferralWord)).sum = 0 := by
  have htable : Text.wordCount deferralWord ("REFERENCES ".toList ++ fk.target.table) = 0 :=
    wordCount_deferralWord_eq_zero
      (List.not_mem_append (by decide) (capital_not_mem_identifier _))
  rw [targetTexts, List.map_cons, List.sum_cons, htable]
  split <;> simp [wordCount_parenthesized]

theorem wordCount_settingTexts (fk : ForeignKey) :
    (fk.settingTexts.map (Text.wordCount deferralWord)).sum =
      (fk.matchName.map (Text.wordCount deferralWord)).getD 0 +
        if fk.deferral.isSome then 1 else 0 := by
  simp only [settingTexts, List.map_append, List.sum_append, sum_wordCount_option,
    wordCount_action "ON DELETE " (by decide), wordCount_action "ON UPDATE " (by decide),
    wordCount_match, wordCount_deferral]
  cases fk.onDelete <;> cases fk.onUpdate <;> cases fk.deferral <;> simp

-- The word is in the text once for a deferral, and as often as in the name of a match.
theorem wordCount_text (fk : ForeignKey) :
    Text.wordCount deferralWord fk.text =
      (fk.matchName.map (Text.wordCount deferralWord)).getD 0 +
        if fk.deferral.isSome then 1 else 0 := by
  rw [text_eq_texts, Text.wordCount_spaceSeparated _ fk.texts_ne_nil, texts, List.map_append,
    List.map_append, List.sum_append, List.sum_append, wordCount_ownerTexts,
    wordCount_targetTexts, wordCount_settingTexts, Nat.zero_add]

/-! ## A key and its calls -/

/-- The parts of a key that calls can be for. -/
inductive Slot where
  | targetColumns
  | onDelete
  | onUpdate
  | matchName
  | deferral
  deriving DecidableEq

/-- The part that the call is for. -/
def Call.slot : Call → Slot
  | .references _ => .targetColumns
  | .set (.onDelete _) => .onDelete
  | .set (.onUpdate _) => .onUpdate
  | .set (.matchName _) => .matchName
  | .set (.deferral _) => .deferral

/-- The key with the columns that are listed last and the settings, of which the first deferral
counts and the last of every other kind. -/
def received (tableLevel : Bool) (columns : List Text) (target : Model) (done : List Call) :
    ForeignKey where
  columns
  tableLevel
  target
  targetColumns := (done.filterMap Call.columns?).getLast?.getD []
  onDelete := (done.filterMap (·.setting?.bind Setting.onDelete?)).getLast?
  onUpdate := (done.filterMap (·.setting?.bind Setting.onUpdate?)).getLast?
  matchName := (done.filterMap (·.setting?.bind Setting.matchName?)).getLast?
  deferral := (done.filterMap (·.setting?.bind Setting.deferral?)).head?

theorem foldl_changed_plain (tableLevel : Bool) (columns : List Text) (target : Model)
    (done : List Call) :
    done.foldl changed (plain tableLevel columns target) =
      received tableLevel columns target done := by
  rw [foldl_changed, foldl_set, ← List.head?_filterMap]
  simp only [List.filterMap_filterMap, plain, received, Option.or_none, Option.none_or]

theorem received_eq_of_slot {done done' : List Call}
    (h : ∀ slot, done.filter (·.slot = slot) = done'.filter (·.slot = slot)) (tableLevel : Bool)
    (columns : List Text) (target : Model) :
    received tableLevel columns target done = received tableLevel columns target done' := by
  have hslot {α : Type} {take? : Call → Option α} (slot : Slot)
      (htake : ∀ call, call.slot ≠ slot → take? call = none) :
      done.filterMap take? = done'.filterMap take? :=
        filterMap_eq_of_kind Call.slot slot htake h
  simp only [received, mk.injEq, true_and]
  refine ⟨congrArg (Option.getD · []) (congrArg _ (hslot .targetColumns ?_)),
    congrArg _ (hslot .onDelete ?_), congrArg _ (hslot .onUpdate ?_),
    congrArg _ (hslot .matchName ?_), congrArg _ (hslot .deferral ?_)⟩
  all_goals
    intro call hcall
    rcases call with listed | (action | action | name | d) <;> first | rfl | exact absurd rfl hcall

/-- A key is written from the columns that the last successful call for them has listed and from
its settings, of which the first deferral counts and the last of every other kind. The calls for
different parts can be made in any order. -/
theorem toSql_run (tableLevel : Bool) (columns : List Text) (target : Model) (calls : List Call) :
    let fk := ((plain tableLevel columns target).run calls).1
    let done := ((plain tableLevel columns target).run calls).2
    done = calls.filter (·.Fits columns) ∧
    (fk.targetColumns = [] ∨ fk.targetColumns.length = columns.length) ∧
    fk = received tableLevel columns target done ∧
    (∀ sql, fk.toSql = .ok sql ↔
      (∀ name ∈ fk.targetColumns, target.Maps name) ∧ sql = Text.spaceSeparated fk.texts) ∧
    (∀ calls' : List Call,
      (∀ slot, calls'.filter (·.slot = slot) = calls.filter (·.slot = slot)) →
      ((plain tableLevel columns target).run calls').1 = fk) ∧
    ∀ sql, fk.toSql = .ok sql →
      Text.wordCount "DEFERRABLE" sql =
        (fk.matchName.map (Text.wordCount "DEFERRABLE")).getD 0 +
          if fk.deferral.isSome then 1 else 0 := by
  have hplain (calls : List Call) : (plain tableLevel columns target).run calls =
      (received tableLevel columns target (calls.filter (·.Fits columns)),
        calls.filter (·.Fits columns)) := by
    rw [run_eq, ← foldl_changed_plain]
    rfl
  intro fk done
  have hdone : done = calls.filter (·.Fits columns) := congrArg Prod.snd (hplain calls)
  have hfk : fk = received tableLevel columns target done := by
    rw [hdone]
    exact congrArg Prod.fst (hplain calls)
  have htarget : fk.target = target := congrArg ForeignKey.target hfk
  have hcolumns : fk.columns = columns := congrArg ForeignKey.columns hfk
  have hmatched : fk.Matched := Matched.run (.inl rfl) calls
  refine ⟨hdone, ?_, hfk, fun sql => ?_, fun calls' h => ?_, fun sql hsql => ?_⟩
  · rwa [Matched, hcolumns] at hmatched
  · rw [toSql_eq_ok_iff, text_eq_texts, htarget]
  · -- Whether a call fits is decided by the call alone, so the calls that fit agree too.
    have hfits (slot : Slot) : (calls'.filter (·.Fits columns)).filter (·.slot = slot) =
        (calls.filter (·.Fits columns)).filter (·.slot = slot) := by
      rw [List.filter_comm, h slot, List.filter_comm]
    rw [hplain calls', hfk, hdone]
    exact received_eq_of_slot hfits tableLevel columns target
  · rw [(toSql_eq_ok_iff.mp hsql).2]
    exact wordCount_text fk

/-- A model with two columns that a key can be to. -/
def shelf : Model := ⟨"Shelf", [⟨"RoomID", "i64", "NOT NULL"⟩, ⟨"No", "i32", "NOT NULL"⟩]⟩

-- The first list is too short, and the second deferral comes too late.
theorem toSql_run_shelf :
    let key := onTable ["RoomID", "ShelfNo"] shelf
    let calls : List Call :=
      [.set (.matchName "FULL"), .references ["RoomID"], .set (.deferral ⟨false, .unspecified⟩),
        .set (.onDelete .cascade), .references ["RoomID", "No"], .set (.onDelete .restrict),
        .set (.deferral ⟨true, .deferred⟩)]
    let calls' : List Call :=
      [.set (.deferral ⟨false, .unspecified⟩), .set (.deferral ⟨true, .deferred⟩),
        .references ["RoomID"], .references ["RoomID", "No"], .set (.onDelete .cascade),
        .set (.onDelete .restrict), .set (.matchName "FULL")]
    let sql : Text := "FOREIGN KEY (room_id, shelf_no) REFERENCES shelf (room_id, no) ".toList ++
      "ON DELETE RESTRICT MATCH FULL NOT DEFERRABLE"
    (key.run calls').1 = (key.run calls).1 ∧ (key.run calls).1.toSql = .ok sql ∧
      Text.wordCount "DEFERRABLE" sql = 1 := by
  intro key calls calls' sql
  obtain ⟨-, -, -, htext, hslots, hcount⟩ := toSql_run true ["RoomID", "ShelfNo"] shelf calls
  have hmapped : ∀ name ∈ [("RoomID".toList : Text), "No".toList], shelf.Maps name :=
    (Model.find?_unmapped_eq_none_iff shelf _).mp (by decide +kernel)
  have hsql : (key.run calls).1.toSql = .ok sql := (htext sql).mpr ⟨hmapped, by decide +kernel⟩
  refine ⟨hslots calls' fun slot => ?_, hsql, hcount sql hsql⟩
  cases slot <;> rfl

end ForeignKey

end AnnotatedSchema
