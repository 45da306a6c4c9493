import AnnotatedSchema.Proofs.ForeignKeyText
import AnnotatedSchema.Proofs.RoundTrip

/-!
# What is read from a reference

A `REFERENCES` clause that was captured is read from just the pieces it was captured from. Of these
the first is the target and the next can list its columns; what comes after changes the settings
only.
-/

namespace AnnotatedSchema

open Piece
open Annotation (referenceText)

/-! ## The model that a name stands for -/

/-- The first of the models that has the name. -/
def FirstNamed (models : List Model) (name : Text) (m : Model) : Prop :=
  ∃ before later, models = before ++ m :: later ∧ m.name = name ∧
    ∀ other ∈ before, other.name ≠ name

theorem firstNamed_iff {models : List Model} {name : Text} {m : Model} :
    FirstNamed models name m ↔ models.find? (·.name == name) = some m := by
  rw [List.find?_eq_some_iff_append]
  simp only [beq_iff_eq, Bool.not_eq_true', beq_eq_false_iff_ne, FirstNamed]
  constructor
  · rintro ⟨before, later, hmodels, hname, hbefore⟩
    exact ⟨hname, before, later, hmodels, hbefore⟩
  · rintro ⟨hname, before, later, hmodels, hbefore⟩
    exact ⟨before, later, hmodels, hname, hbefore⟩

theorem FirstNamed.unique {models : List Model} {name : Text} {m m' : Model}
    (h : FirstNamed models name m) (h' : FirstNamed models name m') : m = m' :=
  Option.some.inj ((firstNamed_iff.mp h).symm.trans (firstNamed_iff.mp h'))

theorem FirstNamed.mem {models : List Model} {name : Text} {m : Model}
    (h : FirstNamed models name m) : m ∈ models := by
  obtain ⟨before, later, rfl, -, -⟩ := h
  simp

namespace ForeignKey

/-! ## Where the pieces stand does not matter -/

section
variable (offset : Nat) (ps : List Piece)

theorem startsAction_moveTo : startsAction (ps.map (moveTo offset)) = startsAction ps := by
  match ps with
  | [] => rfl
  | [p] => rfl
  | p :: q :: ps => rfl

theorem splitAction_moveTo :
    splitAction (ps.map (moveTo offset)) =
      ((splitAction ps).1.map (moveTo offset), (splitAction ps).2.map (moveTo offset)) := by
  induction ps with
  | nil => rfl
  | cons p ps ih =>
    have hstarts := startsAction_moveTo offset (p :: ps)
    rw [List.map_cons] at hstarts ⊢
    rw [splitAction, splitAction, hstarts, ih]
    split <;> rfl

theorem actionBody_moveTo : actionBody (ps.map (moveTo offset)) = actionBody ps := by
  rw [actionBody, splitAction_moveTo, List.map_map, actionBody]
  rfl

theorem readBody_moveTo {α : Type} (column action : Text) (read? : Text → Option α) :
    readBody column action read? (ps.map (moveTo offset)) =
      (readBody column action read? ps).map fun (a, rest) => (a, rest.map (moveTo offset)) := by
  rw [readBody, actionBody_moveTo, splitAction_moveTo, readBody]
  cases read? (actionBody ps) <;> rfl

theorem map_map_fst {ε α β γ : Type} (x : Except ε (α × γ)) (f : α → β) (g : γ → γ) :
    (x.map fun (a, rest) => (a, g rest)).map (fun (a, rest) => (f a, rest)) =
      (x.map fun (a, rest) => (f a, rest)).map fun (b, rest) => (b, g rest) := by
  cases x <;> rfl

theorem readOn_moveTo (column : Text) :
    readOn column (ps.map (moveTo offset)) =
      (readOn column ps).map fun (s, rest) => (s, rest.map (moveTo offset)) := by
  cases ps with
  | nil => rfl
  | cons p ps =>
    simp only [List.map_cons, readOn, moveTo_isWord, moveTo_text, readBody_moveTo]
    split
    · exact map_map_fst _ _ _
    · split
      · exact map_map_fst _ _ _
      · rfl

theorem readMatch_moveTo (column : Text) :
    readMatch column (ps.map (moveTo offset)) =
      (readMatch column ps).map fun (s, rest) => (s, rest.map (moveTo offset)) := by
  cases ps with
  | nil => rfl
  | cons p ps =>
    have hstarts := startsAction_moveTo offset (p :: ps)
    rw [List.map_cons] at hstarts ⊢
    rw [readMatch, readMatch, hstarts, moveTo_kind, moveTo_text]
    split <;> rfl

theorem readDeferral_moveTo (column : Text) (deferrable : Bool) :
    readDeferral column deferrable (ps.map (moveTo offset)) =
      (readDeferral column deferrable ps).map fun (s, rest) => (s, rest.map (moveTo offset)) := by
  rw [readDeferral, readBody_moveTo, readDeferral]
  exact map_map_fst _ (fun mode => Setting.deferral ⟨deferrable, mode⟩) _

theorem readAction?_moveTo (column : Text) :
    readAction? column (ps.map (moveTo offset)) =
      (readAction? column ps).map
        (Except.map fun (s, rest) => (s, rest.map (moveTo offset))) := by
  match ps with
  | [] => rfl
  | p :: ps =>
    have hnot : startsNotDeferrable (p.moveTo offset :: ps.map (moveTo offset)) =
        startsNotDeferrable (p :: ps) := by
      cases ps <;> rfl
    simp only [List.map_cons, readAction?, moveTo_isWord, hnot, readOn_moveTo, readMatch_moveTo,
      readDeferral_moveTo, ← List.map_drop]
    split
    · rfl
    · split
      · rfl
      · split
        · rfl
        · split <;> rfl

end

/-! ## One step of the reader -/

theorem readActions_nil (column : Text) (fk : ForeignKey) : readActions column fk [] = .ok fk := by
  rw [readActions]

theorem readActions_cons (column : Text) (fk : ForeignKey) (p : Piece) (rest : List Piece) :
    readActions column fk (p :: rest) =
      match readAction? column (p :: rest) with
      | none => readActions column fk rest
      | some (.error e) => .error e
      | some (.ok (s, left)) => readActions column (fk.set s) left := by
  rw [readActions]
  split <;> next h => rw [h]

theorem readActions_cons_moveTo (offset : Nat) (column : Text) (fk : ForeignKey) (p : Piece)
    (rest : List Piece) :
    readActions column fk ((p :: rest).map (moveTo offset)) =
      match readAction? column (p :: rest) with
      | none => readActions column fk (rest.map (moveTo offset))
      | some (.error e) => .error e
      | some (.ok (s, left)) => readActions column (fk.set s) (left.map (moveTo offset)) := by
  have hmove := readAction?_moveTo offset (p :: rest) column
  rw [List.map_cons] at hmove ⊢
  rw [readActions_cons, hmove]
  cases readAction? column (p :: rest) with
  | none => rfl
  | some read => cases read <;> rfl

theorem readActions_moveTo (offset : Nat) (column : Text) (fk : ForeignKey) (ps : List Piece) :
    readActions column fk (ps.map (moveTo offset)) = readActions column fk ps := by
  fun_induction readActions column fk ps with
  | case1 => rw [List.map_nil, readActions_nil]
  | case2 fk p rest h ih =>
    rw [readActions_cons_moveTo, h]
    exact ih
  | case3 fk p rest e h => rw [readActions_cons_moveTo, h]
  | case4 fk p rest s left h ih =>
    rw [readActions_cons_moveTo, h]
    exact ih

theorem readTail_moveTo (offset : Nat) (column : Text) (fk : ForeignKey) (ps : List Piece) :
    readTail column fk (ps.map (moveTo offset)) = readTail column fk ps := by
  cases ps with
  | nil => rfl
  | cons p ps =>
    have hactions := readActions_moveTo offset column fk (p :: ps)
    rw [List.map_cons] at hactions ⊢
    simp only [readTail, moveTo_groupBody?, hactions, readActions_moveTo]

theorem ofPieces_moveTo (offset : Nat) (column : Text) (candidates : List Model)
    (ps : List Piece) :
    ofPieces column candidates (ps.map (moveTo offset)) = ofPieces column candidates ps := by
  match ps with
  | [] => rfl
  | [p] => rfl
  | p :: q :: ps =>
    simp only [List.map_cons, ofPieces, moveTo_isWord, moveTo_kind, moveTo_text, readTail_moveTo]

-- A captured clause is read as if it had never been made a text.
theorem ofClause_referenceText {body : List Piece} (h : ∀ p ∈ body, p.Lone) (column : Text)
    (candidates : List Model) :
    ofClause column (referenceText body) candidates =
      ofPieces column candidates (ofWord "REFERENCES" :: body) := by
  have hkeyword : (ofWord "REFERENCES").Lone := lone_ofWord (by decide)
  have htext : ' ' :: referenceText body = spaced (ofWord "REFERENCES" :: body) := rfl
  obtain ⟨qs, hscan, hmove⟩ := scan_spaced (List.forall_mem_cons.mpr ⟨hkeyword, h⟩) htext
  rw [ofClause, hscan]
  calc ofPieces column candidates qs
      = ofPieces column candidates (qs.map (moveTo 0)) := (ofPieces_moveTo ..).symm
    _ = ofPieces column candidates (ofWord "REFERENCES" :: body) := by rw [hmove, ofPieces_moveTo]

/-! ## What a setting was read from -/

/-- The setting was read from pieces that the ones left come after; a name it gives is the text of a
word among them. -/
structure ReadFrom (ps : List Piece) (s : Setting) (left : List Piece) : Prop where
  suffix : left <:+ ps
  word : ∀ name, s = .matchName name → ∃ p ∈ ps, p.kind = .word ∧ p.text = name

theorem ReadFrom.cons {ps left : List Piece} {s : Setting} (h : ReadFrom ps s left) (p : Piece) :
    ReadFrom (p :: ps) s left where
  suffix := h.suffix.trans (List.suffix_cons p ps)
  word name hname := by
    obtain ⟨q, hq, hword⟩ := h.word name hname
    exact ⟨q, List.mem_cons_of_mem p hq, hword⟩

theorem suffix_splitAction (ps : List Piece) : (splitAction ps).2 <:+ ps := by
  fun_induction splitAction ps with
  | case1 => exact List.suffix_rfl
  | case2 p rest h => exact List.suffix_rfl
  | case3 p rest h ih => exact ih.trans (List.suffix_cons p rest)

-- The settings that are read from a body give no name.
theorem readFrom_of_readBody {α : Type} {column action : Text} {read? : Text → Option α}
    (wrap : α → Setting) (hwrap : ∀ a name, wrap a ≠ .matchName name) {ps left : List Piece}
    {s : Setting}
    (h : (readBody column action read? ps).map (fun (a, rest) => (wrap a, rest)) = .ok (s, left)) :
    ReadFrom ps s left := by
  obtain ⟨a, hread, rfl⟩ := map_fst_eq_ok_iff.mp h
  refine ⟨?_, fun name hname => absurd hname (hwrap a name)⟩
  unfold readBody at hread
  split at hread
  · rw [← (Prod.mk.inj (Except.ok.inj hread)).2]
    exact suffix_splitAction ps
  · cases hread

theorem readFrom_of_readOn {column : Text} {ps left : List Piece} {s : Setting}
    (h : readOn column ps = .ok (s, left)) : ReadFrom ps s left := by
  cases ps with
  | nil => cases h
  | cons p ps =>
    rw [readOn] at h
    split at h
    · exact (readFrom_of_readBody .onDelete (by simp) h).cons p
    · split at h
      · exact (readFrom_of_readBody .onUpdate (by simp) h).cons p
      · cases h

theorem readFrom_of_readMatch {column : Text} {ps left : List Piece} {s : Setting}
    (h : readMatch column ps = .ok (s, left)) : ReadFrom ps s left := by
  cases ps with
  | nil => cases h
  | cons p ps =>
    rw [readMatch] at h
    split at h
    · next hword =>
      obtain ⟨rfl, rfl⟩ := Prod.mk.inj (Except.ok.inj h)
      refine ⟨List.suffix_cons p ps, fun name hname => ?_⟩
      exact ⟨p, List.mem_cons_self, hword.1, Setting.matchName.inj hname⟩
    · cases h

theorem readFrom_of_readDeferral {column : Text} {deferrable : Bool} {ps left : List Piece}
    {s : Setting} (h : readDeferral column deferrable ps = .ok (s, left)) : ReadFrom ps s left :=
  readFrom_of_readBody (fun mode => .deferral ⟨deferrable, mode⟩) (by simp) h

theorem readFrom_of_readAction? {column : Text} {p : Piece} {ps left : List Piece} {s : Setting}
    (h : readAction? column (p :: ps) = some (.ok (s, left))) : ReadFrom (p :: ps) s left := by
  rw [readAction?] at h
  split at h
  · exact (readFrom_of_readOn (Option.some.inj h)).cons p
  · split at h
    · exact (readFrom_of_readMatch (Option.some.inj h)).cons p
    · split at h
      · exact (readFrom_of_readDeferral (Option.some.inj h)).cons p
      · split at h
        · obtain ⟨hsuffix, hword⟩ := readFrom_of_readDeferral (Option.some.inj h)
          refine ReadFrom.cons ⟨hsuffix.trans (List.drop_suffix 1 ps), fun name hname => ?_⟩ p
          obtain ⟨q, hq, hkind⟩ := hword name hname
          exact ⟨q, List.mem_of_mem_drop hq, hkind⟩
        · cases h

/-- The keys differ in their settings only, and a name among these is an old one or was read. -/
structure SameTarget (ps : List Piece) (fk fk' : ForeignKey) : Prop where
  columns : fk'.columns = fk.columns
  tableLevel : fk'.tableLevel = fk.tableLevel
  target : fk'.target = fk.target
  targetColumns : fk'.targetColumns = fk.targetColumns
  matchName : ∀ name ∈ fk'.matchName,
    name ∈ fk.matchName ∨ ∃ p ∈ ps, p.kind = .word ∧ p.text = name

theorem sameTarget_rfl (ps : List Piece) (fk : ForeignKey) : SameTarget ps fk fk :=
  ⟨rfl, rfl, rfl, rfl, fun _ h => .inl h⟩

theorem sameTarget_set {ps left : List Piece} {s : Setting} (h : ReadFrom ps s left)
    (fk : ForeignKey) : SameTarget ps fk (fk.set s) := by
  cases s with
  | matchName name =>
    refine ⟨rfl, rfl, rfl, rfl, fun name' hname => .inr ?_⟩
    obtain rfl : name = name' := Option.some.inj hname
    exact h.word name rfl
  | onDelete | onUpdate | deferral => exact ⟨rfl, rfl, rfl, rfl, fun _ hname => .inl hname⟩

theorem SameTarget.trans {ps left : List Piece} {fk fk' fk'' : ForeignKey}
    (h : SameTarget ps fk fk') (h' : SameTarget left fk' fk'') (hleft : left ⊆ ps) :
    SameTarget ps fk fk'' where
  columns := h'.columns.trans h.columns
  tableLevel := h'.tableLevel.trans h.tableLevel
  target := h'.target.trans h.target
  targetColumns := h'.targetColumns.trans h.targetColumns
  matchName name hname := by
    rcases h'.matchName name hname with hold | ⟨p, hp, hword⟩
    · exact h.matchName name hold
    · exact .inr ⟨p, hleft hp, hword⟩

-- Whatever follows the target changes the settings only.
theorem sameTarget_of_readActions {column : Text} {fk fk' : ForeignKey} {ps : List Piece}
    (h : readActions column fk ps = .ok fk') : SameTarget ps fk fk' := by
  fun_induction readActions column fk ps with
  | case1 fk =>
    obtain rfl := Except.ok.inj h
    exact sameTarget_rfl [] fk
  | case2 fk p rest hread ih =>
    exact (sameTarget_rfl _ fk).trans (ih h) (List.subset_cons_self p rest)
  | case3 => cases h
  | case4 fk p rest s left hread ih =>
    have hfrom := readFrom_of_readAction? hread
    exact (sameTarget_set hfrom fk).trans (ih h) hfrom.suffix.subset

/-! ## The target -/

/-- The columns that are listed in the first of the pieces, if it is a group. -/
def listedAfter : List Piece → List Text
  | [] => []
  | p :: _ => p.groupBody?.elim [] listedColumns

theorem groupBody?_of_word {p : Piece} (h : p.kind = .word) : p.groupBody? = none := by
  cases hbody : p.groupBody? with
  | none => rfl
  | some body => cases h.symm.trans (kind_of_groupBody? hbody)

theorem listedAfter_of_word {p : Piece} (h : p.kind = .word) (rest : List Piece) :
    listedAfter (p :: rest) = [] := by
  change p.groupBody?.elim [] listedColumns = []
  rw [groupBody?_of_word h]
  rfl

theorem targetColumns_of_readTail {column : Text} {fk fk' : ForeignKey} {ps : List Piece}
    (h : readTail column fk ps = .ok fk') (hnone : fk.targetColumns = []) :
    SameTarget ps { fk with targetColumns := listedAfter ps } fk' ∧
      (listedAfter ps = [] ∨ (listedAfter ps).length = fk.columns.length) := by
  cases ps with
  | nil =>
    obtain rfl := Except.ok.inj h
    exact ⟨⟨rfl, rfl, rfl, hnone, fun _ hname => .inl hname⟩, .inl rfl⟩
  | cons p rest =>
    rw [readTail] at h
    rw [listedAfter]
    cases hbody : p.groupBody? with
    | none =>
      simp only [hbody] at h
      have hsame := sameTarget_of_readActions h
      exact ⟨⟨hsame.columns, hsame.tableLevel, hsame.target, hsame.targetColumns.trans hnone,
        hsame.matchName⟩, .inl rfl⟩
    | some body =>
      simp only [hbody] at h
      by_cases hcount : listedColumns body = [] ∨ (listedColumns body).length = fk.columns.length
      · have hreferences : fk.references (listedColumns body) =
            .ok { fk with targetColumns := listedColumns body } := if_pos hcount
        rw [hreferences] at h
        exact ⟨(sameTarget_rfl _ _).trans (sameTarget_of_readActions h)
          (List.subset_cons_self p rest), hcount⟩
      · have hreferences : fk.references (listedColumns body) =
            .error (.columnCountMismatch (Text.commaSeparated fk.columns) fk.columns.length
              (listedColumns body).length) := if_neg hcount
        rw [hreferences] at h
        cases h

-- A reference that can be read has a target among the candidates, right after its keyword.
theorem target_of_ofPieces {column : Text} {candidates : List Model} {ps : List Piece}
    {fk : ForeignKey} (h : ofPieces column candidates ps = .ok fk) :
    ∃ keyword word rest model, ps = keyword :: word :: rest ∧ word.kind = .word ∧
      FirstNamed candidates word.text model ∧
      readTail column (onColumn column model) rest = .ok fk := by
  match ps with
  | [] => cases h
  | [p] =>
    rw [ofPieces] at h
    split at h <;> cases h
  | p :: word :: rest =>
    simp only [ofPieces] at h
    split at h
    · cases h
    · split at h
      · cases h
      · next hword =>
        cases hfind : candidates.find? (·.name == word.text) with
        | none =>
          rw [resolve, hfind] at h
          cases h
        | some model =>
          rw [resolve, hfind] at h
          exact ⟨p, word, rest, model, rfl, not_not.mp hword, firstNamed_iff.mpr hfind, h⟩

end ForeignKey

end AnnotatedSchema
