import AnnotatedSchema.Proofs.ForeignKeyRoundTrip
import AnnotatedSchema.Proofs.KeyOptions
import AnnotatedSchema.Proofs.Tiling

/-!
# The clauses after a target

What follows the target of a reference is read clause by clause. A clause goes up to where the next
one starts, and its body has to spell what it sets: of the deferrals the first counts, of every
other setting the last, and the first clause with any other body is reported.
-/

namespace AnnotatedSchema

open Piece

/-! ## Words in capital letters -/

theorem toUpper_of_isUpper {c : Char} (h : c.isUpper = true) : c.toUpper = c := by
  have hcapital : 'A'.val ≤ c.val ∧ c.val ≤ 'Z'.val := of_decide_eq_true h
  refine dif_neg fun hsmall => ?_
  have hle : 97 ≤ c.val.toNat := UInt32.le_iff_toNat_le.mp hsmall.1
  have hge : c.val.toNat ≤ 90 := UInt32.le_iff_toNat_le.mp hcapital.2
  omega

theorem toUpper_eq_or_isUpper (c : Char) : c.toUpper = c ∨ c.toUpper.isUpper = true := by
  by_cases h : 'a'.val ≤ c.val ∧ c.val ≤ 'z'.val
  · refine .inr ?_
    have hletters : ∀ n < 26, (Char.ofNat (97 + n)).toUpper.isUpper = true := by decide
    have hle : 97 ≤ c.toNat := UInt32.le_iff_toNat_le.mp h.1
    have hge : c.toNat ≤ 122 := UInt32.le_iff_toNat_le.mp h.2
    have hc := hletters (c.toNat - 97) (by omega)
    rwa [Nat.add_sub_cancel' hle, Char.ofNat_toNat] at hc
  · exact .inl (dif_neg h)

theorem toUpper_toUpper (c : Char) : c.toUpper.toUpper = c.toUpper := by
  rcases toUpper_eq_or_isUpper c with h | h
  · exact congrArg Char.toUpper h
  · exact toUpper_of_isUpper h

namespace Text

theorem upperAscii_upperAscii (t : Text) : t.upperAscii.upperAscii = t.upperAscii := by
  simp only [upperAscii, List.map_map]
  exact List.map_congr_left fun c _ => toUpper_toUpper c

theorem upperAscii_spaceSeparated (ts : List Text) :
    (spaceSeparated ts).upperAscii = spaceSeparated (ts.map upperAscii) := by
  cases ts with
  | nil => rfl
  | cons t ts =>
    have hcons : upperAscii (' ' :: spaceSeparated (t :: ts)) =
        ' ' :: spaceSeparated ((t :: ts).map upperAscii) := by
      rw [cons_spaceSeparated, List.map_cons, cons_spaceSeparated, ← List.map_cons,
        List.flatMap_map, upperAscii, List.map_flatMap]
      rfl
    exact (List.cons.inj hcons).2

theorem mem_spaceSeparated_iff {ts : List Text} {c : Char} :
    c ∈ ' ' :: spaceSeparated ts ↔ c = ' ' ∨ ∃ t ∈ ts, c ∈ t := by
  cases ts with
  | nil => simp [spaceSeparated]
  | cons t ts =>
    rw [cons_spaceSeparated, List.mem_flatMap]
    constructor
    · rintro ⟨u, hu, hc⟩
      exact (List.mem_cons.mp hc).imp_right fun hc => ⟨u, hu, hc⟩
    · rintro (rfl | ⟨u, hu, hc⟩)
      · exact ⟨t, List.mem_cons_self, List.mem_cons_self⟩
      · exact ⟨u, hu, List.mem_cons_of_mem ' ' hc⟩

/-- Whether the text can stand between blanks. -/
def Solid (t : Text) : Prop := t ≠ [] ∧ ' ' ∉ t

-- Texts without blanks can be told apart again.
theorem spaceSeparated_injective {ts us : List Text} (hts : ∀ t ∈ ts, t.Solid)
    (hus : ∀ u ∈ us, u.Solid) (h : spaceSeparated ts = spaceSeparated us) : ts = us := by
  have hsplit {vs : List Text} (hvs : ∀ v ∈ vs, v.Solid) (hne : vs ≠ []) :
      (spaceSeparated vs).splitOn ' ' = vs :=
    List.splitOn_intercalate ' ' (fun v hv => (hvs v hv).2) hne
  have hempty {vs : List Text} (hvs : ∀ v ∈ vs, v.Solid) (hnil : spaceSeparated vs = []) :
      vs = [] := by
    by_contra hne
    have hparts := hsplit hvs hne
    rw [hnil, List.splitOn_nil] at hparts
    exact (hvs [] (by rw [← hparts]; exact List.mem_singleton_self _)).1 rfl
  by_cases hnil : ts = []
  · rw [hnil] at h ⊢
    exact (hempty hus h.symm).symm
  · have hne : us ≠ [] := by
      rintro rfl
      exact hnil (hempty hts h)
    rw [← hsplit hts hnil, h, hsplit hus hne]

/-- Whether the text is a word of capital letters. -/
def IsCapitals (t : Text) : Prop := t ≠ [] ∧ ∀ c ∈ t, c.isUpper = true

instance (t : Text) : Decidable t.IsCapitals :=
  decidable_of_iff (t ≠ [] ∧ t.all Char.isUpper = true) (by rw [IsCapitals, List.all_eq_true])

theorem IsCapitals.upperAscii_eq {t : Text} (h : t.IsCapitals) : t.upperAscii = t :=
  (List.map_congr_left fun c hc => toUpper_of_isUpper (h.2 c hc)).trans (List.map_id t)

theorem IsCapitals.solid {t : Text} (h : t.IsCapitals) : t.Solid :=
  ⟨h.1, fun hblank => absurd (h.2 ' ' hblank) (by decide)⟩

end Text

/-! ## Pieces that spell words -/

namespace Piece

/-- The pieces are the given words, one by one and in any case of their letters. -/
def Spells (words : List Text) (ps : List Piece) : Prop :=
  List.Forall₂ (fun w p => p.isWord w = true) words ps

instance (words : List Text) (ps : List Piece) : Decidable (Spells words ps) :=
  inferInstanceAs (Decidable (List.Forall₂ _ words ps))

theorem Spells.map_upperAscii {words : List Text} {ps : List Piece} (h : Spells words ps) :
    (ps.map fun p => p.text.upperAscii) = words.map Text.upperAscii := by
  induction h with
  | nil => rfl
  | cons hp _ ih => rw [List.map_cons, List.map_cons, upperAscii_of_isWord hp, ih]

/-- Whether the piece can come from a text. -/
def Scanned (p : Piece) : Prop := p.text ≠ [] ∧ p.WellFormed

theorem scanned_of_scan {t : Text} {ps : List Piece} (h : scan t = .ok ps) :
    ∀ p ∈ ps, p.Scanned := by
  obtain ⟨htiles, hform⟩ := (run_scan t).tiles h
  refine fun p hp => ⟨fun hnil => ?_, hform p hp⟩
  have hnonempty := htiles.nonempty p hp
  rw [stop, hnil] at hnonempty
  exact Nat.lt_irrefl _ hnonempty

-- A literal or a group has its quote or bracket in its text, and a word has no blank.
theorem Scanned.kind_eq_word {p : Piece} (h : p.Scanned)
    (hcapitals : ∀ c ∈ p.text.upperAscii, c = ' ' ∨ c.isUpper = true) : p.kind = .word := by
  have hmark {c : Char} {t : Text} (htext : p.text = c :: t) :
      c.toUpper = ' ' ∨ c.toUpper.isUpper = true :=
    hcapitals c.toUpper (by rw [htext]; exact List.mem_cons_self)
  obtain ⟨-, hform⟩ := h
  unfold WellFormed at hform
  cases hkind : p.kind with
  | word => rfl
  | quoted =>
    rw [hkind] at hform
    obtain ⟨q, body, hq, htext⟩ := hform
    have hcapital := hmark htext
    simp only [isQuote, Bool.or_eq_true, beq_iff_eq] at hq
    rcases hq with (rfl | rfl) | rfl <;> exact absurd hcapital (by decide)
  | group =>
    rw [hkind] at hform
    obtain ⟨body, htext⟩ := hform
    exact absurd (hmark htext) (by decide)

theorem Scanned.solid {p : Piece} (h : p.Scanned) (hkind : p.kind = .word) :
    p.text.upperAscii.Solid := by
  obtain ⟨hne, hform⟩ := h
  rw [WellFormed, hkind] at hform
  refine ⟨fun hnil => hne (List.map_eq_nil_iff.mp hnil), fun hblank => ?_⟩
  obtain ⟨c, hc, hupper⟩ := List.mem_map.mp hblank
  have hself : c = ' ' := by
    rcases toUpper_eq_or_isUpper c with h | h
    · rw [← h, hupper]
    · rw [hupper] at h
      cases h
  have hplain := (hform c hc).1
  rw [hself] at hplain
  cases hplain

end Piece

namespace ForeignKey

/-- The text of a body is one of several capital words just if its pieces spell them. -/
theorem sameKeyword_bodyText_iff {words : List Text} {body : List Piece}
    (hwords : ∀ w ∈ words, w.IsCapitals) (hbody : ∀ p ∈ body, p.Scanned) :
    (bodyText body).sameKeyword (Text.spaceSeparated words) = true ↔ Spells words body := by
  have hupper : words.map Text.upperAscii = words :=
    (List.map_congr_left fun w hw => (hwords w hw).upperAscii_eq).trans (List.map_id words)
  have htwice : (body.map fun p => p.text.upperAscii).map Text.upperAscii =
      body.map fun p => p.text.upperAscii := by
    rw [List.map_map]
    exact List.map_congr_left fun p _ => Text.upperAscii_upperAscii p.text
  rw [Text.sameKeyword, beq_iff_eq, bodyText, Text.upperAscii_spaceSeparated,
    Text.upperAscii_spaceSeparated, htwice, hupper]
  constructor
  · intro h
    have hcapitals : ∀ p ∈ body, ∀ c ∈ p.text.upperAscii, c = ' ' ∨ c.isUpper = true := by
      intro p hp c hc
      have hmem : c ∈ ' ' :: Text.spaceSeparated words := by
        rw [← h]
        exact Text.mem_spaceSeparated_iff.mpr (.inr ⟨_, List.mem_map_of_mem hp, hc⟩)
      obtain hblank | ⟨w, hw, hc⟩ := Text.mem_spaceSeparated_iff.mp hmem
      · exact .inl hblank
      · exact .inr ((hwords w hw).2 c hc)
    have hkind (p : Piece) (hp : p ∈ body) : p.kind = .word :=
      (hbody p hp).kind_eq_word (hcapitals p hp)
    have hsolid : ∀ t ∈ body.map fun p => p.text.upperAscii, t.Solid := by
      intro t ht
      obtain ⟨p, hp, rfl⟩ := List.mem_map.mp ht
      exact (hbody p hp).solid (hkind p hp)
    have heq := Text.spaceSeparated_injective hsolid (fun w hw => (hwords w hw).solid) h
    rw [Spells, ← heq, List.forall₂_map_left_iff, List.forall₂_same]
    intro p hp
    rw [isWord_of_word (hkind p hp), Text.sameKeyword, Text.upperAscii_upperAscii,
      beq_self_eq_true]
  · intro h
    rw [h.map_upperAscii, hupper]

end ForeignKey

namespace RowAction

/-- The words of the action. -/
def words : RowAction → List Text
  | setNull => ["SET", "NULL"]
  | setDefault => ["SET", "DEFAULT"]
  | cascade => ["CASCADE"]
  | restrict => ["RESTRICT"]
  | noAction => ["NO", "ACTION"]

end RowAction

namespace InitialMode

/-- The words of the mode. -/
def words : InitialMode → List Text
  | unspecified => []
  | deferred => ["INITIALLY", "DEFERRED"]
  | immediate => ["INITIALLY", "IMMEDIATE"]

end InitialMode

namespace ForeignKey

theorem rowAction_iff {body : List Piece} (hbody : ∀ p ∈ body, p.Scanned) {action : RowAction} :
    RowAction.ofKeywords? (bodyText body) = some action ↔ Spells action.words body := by
  have hkeywords : action.keywords = Text.spaceSeparated action.words := by cases action <;> rfl
  have hwords : ∀ w ∈ action.words, w.IsCapitals := by cases action <;> decide
  rw [← sameKeyword_bodyText_iff hwords hbody, ← hkeywords]
  exact Text.find?_sameKeyword_iff (by cases action <;> decide) (by cases action <;> decide)

theorem initialMode_iff {body : List Piece} (hbody : ∀ p ∈ body, p.Scanned) {mode : InitialMode} :
    InitialMode.ofKeywords? (bodyText body) = some mode ↔ Spells mode.words body := by
  have hkeywords : mode.keywords = Text.spaceSeparated mode.words := by cases mode <;> rfl
  have hwords : ∀ w ∈ mode.words, w.IsCapitals := by cases mode <;> decide
  rw [← sameKeyword_bodyText_iff hwords hbody, ← hkeywords]
  exact Text.find?_sameKeyword_iff (by cases mode <;> decide) (by cases mode <;> decide)

/-! ## Clauses -/

/-- Whether no clause starts in the body, when the other pieces come after it. -/
def NoneStarts (body rest : List Piece) : Prop :=
  ∀ ps ∈ body.tails, ps ≠ [] → startsAction (ps ++ rest) = false

instance (body rest : List Piece) : Decidable (NoneStarts body rest) :=
  inferInstanceAs (Decidable (∀ _ ∈ _, _))

/-- A clause after the target: its kind and the pieces that come after the words of its kind. -/
inductive ActionClause where
  | onDelete (body : List Piece)
  | onUpdate (body : List Piece)
  | matchName (name : Piece)
  | deferral (deferrable : Bool) (body : List Piece)

namespace ActionClause

/-- The words that the clause starts with. -/
def head : ActionClause → List Text
  | onDelete _ => ["ON", "DELETE"]
  | onUpdate _ => ["ON", "UPDATE"]
  | matchName _ => ["MATCH"]
  | deferral true _ => ["DEFERRABLE"]
  | deferral false _ => ["NOT", "DEFERRABLE"]

def body : ActionClause → List Piece
  | onDelete body | onUpdate body | deferral _ body => body
  | matchName name => [name]

/-- Whether the clause is well-formed and makes the setting. -/
inductive Sets : ActionClause → Setting → Prop
  | onDelete {body : List Piece} {action : RowAction} (h : Spells action.words body) :
      Sets (.onDelete body) (.onDelete action)
  | onUpdate {body : List Piece} {action : RowAction} (h : Spells action.words body) :
      Sets (.onUpdate body) (.onUpdate action)
  | matchName (name : Piece) : Sets (.matchName name) (.matchName name.text)
  | deferral {deferrable : Bool} {body : List Piece} {mode : InitialMode}
      (h : Spells mode.words body) : Sets (.deferral deferrable body) (.deferral ⟨deferrable, mode⟩)

/-- Whether the clause goes on up to the pieces that come after it: no other starts in its body. The
name is none of the words that clauses start with. -/
def EndsAt (rest : List Piece) : ActionClause → Prop
  | matchName name => name.kind = .word ∧ Inside name
  | onDelete body | onUpdate body | deferral _ body => NoneStarts body rest

instance (rest : List Piece) (c : ActionClause) : Decidable (c.EndsAt rest) :=
  match c with
  | matchName _ => inferInstanceAs (Decidable (_ ∧ _))
  | onDelete _ | onUpdate _ | deferral _ _ => inferInstanceAs (Decidable (NoneStarts _ _))

/-- What is read from the clause. -/
def read (column : Text) : ActionClause → Except SchemaError Setting
  | onDelete body => whole "ON DELETE" Setting.onDelete RowAction.ofKeywords? body
  | onUpdate body => whole "ON UPDATE" Setting.onUpdate RowAction.ofKeywords? body
  | matchName name => .ok (.matchName name.text)
  | deferral deferrable body =>
    whole (Deferral.keyword ⟨deferrable, .unspecified⟩) (fun mode => .deferral ⟨deferrable, mode⟩)
      InitialMode.ofKeywords? body
where
  whole {α : Type} (label : Text) (wrap : α → Setting) (read? : Text → Option α)
      (body : List Piece) : Except SchemaError Setting :=
    match read? (bodyText body) with
    | some a => .ok (wrap a)
    | none => .error (.invalidAction column label (bodyText body))

section
variable {α : Type} {column label : Text} (wrap : α → Setting) {read? : Text → Option α}
  {body : List Piece}

theorem read.whole_eq_ok {a : α} (h : read? (bodyText body) = some a) :
    read.whole column label wrap read? body = .ok (wrap a) := by
  rw [read.whole, h]

theorem read.whole_eq_error (h : ∀ a, read? (bodyText body) ≠ some a) :
    read.whole column label wrap read? body =
      .error (.invalidAction column label (bodyText body)) := by
  rw [read.whole, Option.eq_none_iff_forall_ne_some.mpr h]

end

end ActionClause

/-- The pieces are those of the clauses, one after the other. -/
inductive Clauses : List ActionClause → List Piece → Prop
  | nil : Clauses [] []
  | cons {c : ActionClause} {cs : List ActionClause} {head rest : List Piece}
      (hhead : Spells c.head head) (hbody : c.EndsAt rest) (hrest : Clauses cs rest) :
      Clauses (c :: cs) (head ++ (c.body ++ rest))

theorem splitAction_body {body rest : List Piece} (hbody : NoneStarts body rest)
    (hrest : Ends rest) : splitAction (body ++ rest) = (body, rest) := by
  induction body with
  | nil => exact splitAction_append (List.forall_mem_nil _) hrest
  | cons p body ih =>
    obtain ⟨hp, hbody⟩ := List.forall_mem_cons.mp hbody
    have hnot : ¬startsAction (p :: (body ++ rest)) = true :=
      ne_true_of_eq_false (hp (List.cons_ne_nil p body))
    rw [List.cons_append, splitAction, if_neg hnot, ih hbody]

section
variable {column : Text} {rest : List Piece}

theorem readBody_body {α : Type} {label : Text} (wrap : α → Setting) (read? : Text → Option α)
    {body : List Piece} (hbody : NoneStarts body rest) (hrest : Ends rest) :
    (readBody column label read? (body ++ rest)).map (fun (a, left) => (wrap a, left)) =
      (ActionClause.read.whole column label wrap read? body).map (·, rest) := by
  rw [readBody, actionBody, splitAction_body hbody hrest, ActionClause.read.whole, bodyText]
  cases read? (Text.spaceSeparated (body.map fun p => p.text.upperAscii)) <;> rfl

theorem readDeferral_body {deferrable : Bool} {body : List Piece}
    (hbody : (ActionClause.deferral deferrable body).EndsAt rest) (hrest : Ends rest) :
    readDeferral column deferrable (body ++ rest) =
      ((ActionClause.deferral deferrable body).read column).map (·, rest) :=
  readBody_body (fun mode => .deferral ⟨deferrable, mode⟩) InitialMode.ofKeywords? hbody hrest

-- A clause is read up to where the next one starts.
theorem ActionClause.readAction?_eq (column : Text) {c : ActionClause} {head : List Piece}
    (hhead : Spells c.head head) (hbody : c.EndsAt rest) (hrest : Ends rest) :
    readAction? column (head ++ (c.body ++ rest)) = some ((c.read column).map (·, rest)) := by
  cases c with
  | onDelete body =>
    obtain _ | @⟨_, on, _, _, hon, _ | @⟨_, delete, _, _, hdelete, _ | _⟩⟩ := hhead
    change readAction? column (on :: delete :: (body ++ rest)) = _
    rw [readAction?, if_pos hon, readOn, if_pos hdelete, readBody_body _ _ hbody hrest]
    rfl
  | onUpdate body =>
    obtain _ | @⟨_, on, _, _, hon, _ | @⟨_, update, _, _, hupdate, _ | _⟩⟩ := hhead
    have hdelete : update.isWord "DELETE" = false := isWord_eq_false hupdate (by decide)
    change readAction? column (on :: update :: (body ++ rest)) = _
    rw [readAction?, if_pos hon, readOn, if_neg (ne_true_of_eq_false hdelete), if_pos hupdate,
      readBody_body _ _ hbody hrest]
    rfl
  | matchName name =>
    obtain _ | @⟨_, keyword, _, _, hkeyword, _ | _⟩ := hhead
    exact (Spelled.matchName hkeyword hbody.1 hbody.2).read hrest column
  | deferral deferrable body =>
    cases deferrable with
    | true =>
      obtain _ | @⟨_, keyword, _, _, hkeyword, _ | _⟩ := hhead
      have hon : keyword.isWord "ON" = false := isWord_eq_false hkeyword (by decide)
      have hmatch : keyword.isWord "MATCH" = false := isWord_eq_false hkeyword (by decide)
      change readAction? column (keyword :: (body ++ rest)) = _
      rw [readAction?, if_neg (ne_true_of_eq_false hon), if_neg (ne_true_of_eq_false hmatch),
        if_pos hkeyword]
      exact congrArg some (readDeferral_body hbody hrest)
    | false =>
      obtain _ | @⟨_, not, _, _, hnot, _ | @⟨_, keyword, _, _, hkeyword, _ | _⟩⟩ := hhead
      have hon : not.isWord "ON" = false := isWord_eq_false hnot (by decide)
      have hmatch : not.isWord "MATCH" = false := isWord_eq_false hnot (by decide)
      have hdeferrable : not.isWord "DEFERRABLE" = false := isWord_eq_false hnot (by decide)
      have hstarts : startsNotDeferrable (not :: keyword :: (body ++ rest)) = true := by
        rw [startsNotDeferrable, hnot, hkeyword, Bool.and_self]
      change readAction? column (not :: keyword :: (body ++ rest)) = _
      rw [readAction?, if_neg (ne_true_of_eq_false hon), if_neg (ne_true_of_eq_false hmatch),
        if_neg (ne_true_of_eq_false hdeferrable), if_pos hstarts]
      exact congrArg some (readDeferral_body hbody hrest)

end

theorem ActionClause.startsAction_head {c : ActionClause} {head : List Piece}
    (h : Spells c.head head) (rest : List Piece) : startsAction (head ++ rest) = true := by
  cases c with
  | onDelete | onUpdate =>
    obtain _ | @⟨_, on, _, _, hon, -⟩ := h
    rw [List.cons_append, startsAction, hon]
    rfl
  | matchName =>
    obtain _ | @⟨_, keyword, _, _, hkeyword, -⟩ := h
    rw [List.cons_append, startsAction, hkeyword, Bool.or_true]
    rfl
  | deferral deferrable =>
    cases deferrable with
    | true =>
      obtain _ | @⟨_, keyword, _, _, hkeyword, -⟩ := h
      rw [List.cons_append, startsAction, hkeyword, Bool.or_true]
      rfl
    | false =>
      obtain _ | @⟨_, not, _, _, hnot, _ | @⟨_, keyword, _, _, hkeyword, -⟩⟩ := h
      rw [List.cons_append, List.cons_append, startsAction, startsNotDeferrable, hnot, hkeyword,
        Bool.and_self, Bool.or_true]

theorem Clauses.ends {cs : List ActionClause} {ps : List Piece} (h : Clauses cs ps) : Ends ps := by
  cases h with
  | nil => exact .inl rfl
  | cons hhead => exact .inr (ActionClause.startsAction_head hhead _)

-- The clauses are read one after the other, up to the first that cannot be read.
theorem Clauses.readActions {cs : List ActionClause} {ps : List Piece} (h : Clauses cs ps)
    (column : Text) (fk : ForeignKey) :
    readActions column fk ps = cs.foldlM (fun fk c => (c.read column).map fk.set) fk := by
  induction h generalizing fk with
  | nil => exact readActions_nil column fk
  | @cons c cs head rest hhead hbody hrest ih =>
    have hread := ActionClause.readAction?_eq column hhead hbody hrest.ends
    have hne : head ≠ [] := by
      rintro rfl
      cases c with
      | deferral deferrable => cases deferrable <;> cases hhead
      | _ => cases hhead
    obtain ⟨p, head, rfl⟩ := List.exists_cons_of_ne_nil hne
    rw [List.cons_append] at hread ⊢
    rw [readActions_cons, hread, List.foldlM_cons]
    cases c.read column with
    | error e => rfl
    | ok s => exact ih (fk.set s)

/-! ## What the clauses set -/

namespace Setting

def onDelete? : Setting → Option RowAction
  | .onDelete action => some action
  | _ => none

def onUpdate? : Setting → Option RowAction
  | .onUpdate action => some action
  | _ => none

def matchName? : Setting → Option Text
  | .matchName name => some name
  | _ => none

def deferral? : Setting → Option Deferral
  | .deferral d => some d
  | _ => none

end Setting

/-- The settings of a key after more were made: the first deferral counts and the last of every
other setting. -/
theorem foldl_set (ss : List Setting) (fk : ForeignKey) :
    ss.foldl set fk =
      { fk with
        onDelete := (ss.filterMap Setting.onDelete?).getLast?.or fk.onDelete
        onUpdate := (ss.filterMap Setting.onUpdate?).getLast?.or fk.onUpdate
        matchName := (ss.filterMap Setting.matchName?).getLast?.or fk.matchName
        deferral := fk.deferral.or (ss.findSome? Setting.deferral?) } := by
  induction ss generalizing fk with
  | nil => simp
  | cons s ss ih =>
    rw [List.foldl_cons, ih]
    simp only [getLast?_filterMap_cons, List.findSome?_cons, Option.or_assoc]
    cases s <;> simp [set, Setting.onDelete?, Setting.onUpdate?, Setting.matchName?,
      Setting.deferral?]

theorem ActionClause.Sets.read {c : ActionClause} {s : Setting} (h : c.Sets s)
    (hbody : ∀ p ∈ c.body, p.Scanned) (column : Text) : c.read column = .ok s := by
  cases h with
  | onDelete h => exact read.whole_eq_ok _ ((rowAction_iff hbody).mpr h)
  | onUpdate h => exact read.whole_eq_ok _ ((rowAction_iff hbody).mpr h)
  | matchName => rfl
  | deferral h =>
    exact read.whole_eq_ok (fun mode => .deferral ⟨_, mode⟩) ((initialMode_iff hbody).mpr h)

-- A clause that sets nothing is reported with the words it starts with and its body.
theorem ActionClause.read_eq_error {c : ActionClause} (h : ∀ s, ¬c.Sets s)
    (hbody : ∀ p ∈ c.body, p.Scanned) (column : Text) :
    c.read column =
      .error (.invalidAction column (Text.spaceSeparated c.head) (bodyText c.body)) := by
  cases c with
  | onDelete body =>
    exact read.whole_eq_error _ fun action haction =>
      h _ (.onDelete ((rowAction_iff hbody).mp haction))
  | onUpdate body =>
    exact read.whole_eq_error _ fun action haction =>
      h _ (.onUpdate ((rowAction_iff hbody).mp haction))
  | matchName name => exact absurd (.matchName name) (h _)
  | deferral deferrable body =>
    have hlabel : Deferral.keyword ⟨deferrable, .unspecified⟩ =
        Text.spaceSeparated (ActionClause.deferral deferrable body).head := by
      cases deferrable <;> rfl
    rw [← hlabel]
    exact read.whole_eq_error (fun mode => .deferral ⟨deferrable, mode⟩) fun mode hmode =>
      h _ (.deferral ((initialMode_iff hbody).mp hmode))

theorem Clauses.mem_of_mem_body {cs : List ActionClause} {ps : List Piece} (h : Clauses cs ps)
    {c : ActionClause} (hc : c ∈ cs) {p : Piece} (hp : p ∈ c.body) : p ∈ ps := by
  induction h with
  | nil => cases hc
  | cons _ _ _ ih =>
    rcases List.mem_cons.mp hc with rfl | hc
    · exact List.mem_append_right _ (List.mem_append_left _ hp)
    · exact List.mem_append_right _ (List.mem_append_right _ (ih hc))

section
variable {column : Text} {cs : List ActionClause} {ps : List Piece}

theorem Clauses.readActions_sets (h : Clauses cs ps) (hscanned : ∀ p ∈ ps, p.Scanned)
    {ss : List Setting} (hsets : List.Forall₂ ActionClause.Sets cs ss) (fk : ForeignKey) :
    ForeignKey.readActions column fk ps = .ok (ss.foldl set fk) := by
  have hbody : ∀ c ∈ cs, ∀ p ∈ c.body, p.Scanned := fun c hc p hp =>
    hscanned p (h.mem_of_mem_body hc hp)
  rw [h.readActions]
  clear h
  induction hsets generalizing fk with
  | nil => rfl
  | @cons c s cs ss hc _ ih =>
    obtain ⟨hcbody, hbody⟩ := List.forall_mem_cons.mp hbody
    rw [List.foldlM_cons, hc.read hcbody]
    exact ih (fk.set s) hbody

theorem Clauses.readActions_error {before after : List ActionClause} {c : ActionClause}
    (h : Clauses (before ++ c :: after) ps) (hscanned : ∀ p ∈ ps, p.Scanned)
    (hbefore : ∀ b ∈ before, ∃ s, b.Sets s) (hc : ∀ s, ¬c.Sets s) (fk : ForeignKey) :
    ForeignKey.readActions column fk ps =
      .error (.invalidAction column (Text.spaceSeparated c.head) (bodyText c.body)) := by
  have hbody : ∀ b ∈ before ++ c :: after, ∀ p ∈ b.body, p.Scanned := fun b hb p hp =>
    hscanned p (h.mem_of_mem_body hb hp)
  rw [h.readActions]
  clear h
  induction before generalizing fk with
  | nil =>
    obtain ⟨hcbody, -⟩ := List.forall_mem_cons.mp hbody
    rw [List.nil_append, List.foldlM_cons, ActionClause.read_eq_error hc hcbody]
    rfl
  | cons b before ih =>
    obtain ⟨⟨s, hs⟩, hbefore⟩ := List.forall_mem_cons.mp hbefore
    obtain ⟨hb, hbody⟩ := List.forall_mem_cons.mp hbody
    rw [List.cons_append, List.foldlM_cons, hs.read hb]
    exact ih hbefore (fk.set s) hbody

end

/-! ## The whole reference -/

/-- The pieces right after a target list the columns of it, or there are none. -/
inductive ListsColumns : List Piece → List Text → Prop
  | none : ListsColumns [] []
  | group {p : Piece} {body : Text} (h : p.groupBody? = some body) :
      ListsColumns [p] (listedColumns body)

theorem readTail_clauses {listed ps : List Piece} {columns : List Text}
    {cs : List ActionClause} (hlisted : ListsColumns listed columns) (hone : columns.length ≤ 1)
    (hps : Clauses cs ps) (column : Text) (model : Model) :
    readTail column (onColumn column model) (listed ++ ps) =
      readActions column { onColumn column model with targetColumns := columns } ps := by
  cases hlisted with
  | none =>
    rw [List.nil_append]
    cases ps with
    | nil => exact (readActions_nil column _).symm
    | cons p ps =>
      have hstarts := hps.ends.resolve_left (List.cons_ne_nil p ps)
      rw [readTail, groupBody?_of_word (kind_of_startsAction hstarts)]
      rfl
  | @group p body h =>
    have hcount : listedColumns body = [] ∨ (listedColumns body).length = 1 := by
      rw [← List.length_eq_zero_iff]
      omega
    have hreferences : (onColumn column model).references (listedColumns body) =
        .ok { onColumn column model with targetColumns := listedColumns body } := if_pos hcount
    rw [List.singleton_append, readTail, h]
    change (onColumn column model).references (listedColumns body) >>= _ = _
    rw [hreferences]
    rfl

/-- The clauses after a target are read in any order. If each sets what it can set, the reference is
read with the last action of each kind, the last name and the first deferral; else the first clause
that sets nothing is reported with its body. -/
theorem ofClause_clauses {column clause : Text} {candidates : List Model} {model : Model}
    {keyword target : Piece} {listed ps : List Piece} {columns : List Text}
    {cs : List ActionClause}
    (hscan : Piece.scan clause = .ok (keyword :: target :: (listed ++ ps)))
    (hkeyword : keyword.isWord "REFERENCES" = true) (htarget : target.kind = .word)
    (hfirst : FirstNamed candidates target.text model) (hlisted : ListsColumns listed columns)
    (hone : columns.length ≤ 1) (hps : Clauses cs ps) :
    (∀ ss, List.Forall₂ ActionClause.Sets cs ss →
      ofClause column clause candidates = .ok
        { onColumn column model with
          targetColumns := columns
          onDelete := (ss.filterMap Setting.onDelete?).getLast?
          onUpdate := (ss.filterMap Setting.onUpdate?).getLast?
          matchName := (ss.filterMap Setting.matchName?).getLast?
          deferral := ss.findSome? Setting.deferral? }) ∧
    ∀ before c after, cs = before ++ c :: after → (∀ b ∈ before, ∃ s, b.Sets s) →
      (∀ s, ¬c.Sets s) →
      ofClause column clause candidates =
        .error (.invalidAction column (Text.spaceSeparated c.head) (bodyText c.body)) := by
  have hscanned : ∀ p ∈ ps, p.Scanned := fun p hp =>
    scanned_of_scan hscan p (by simp [hp])
  have hread : ofClause column clause candidates =
      readActions column { onColumn column model with targetColumns := columns } ps := by
    have hnot : ¬(!keyword.isWord "REFERENCES") = true := by
      rw [hkeyword]
      exact Bool.false_ne_true
    rw [ofClause, hscan]
    change ofPieces column candidates (keyword :: target :: (listed ++ ps)) = _
    rw [ofPieces, if_neg hnot]
    rw [if_neg (not_not.mpr htarget), resolve, firstNamed_iff.mp hfirst]
    exact readTail_clauses hlisted hone hps column model
  constructor
  · intro ss hsets
    rw [hread, hps.readActions_sets hscanned hsets, foldl_set]
    simp [onColumn, plain]
  · rintro before c after rfl hbefore hc
    rw [hread, hps.readActions_error hscanned hbefore hc]

/-- The model that the two references below are to. -/
def writer : Model := ⟨"Author", [⟨"ID", "i64", "PRIMARY KEY"⟩]⟩

/-- A reference with two actions of one kind and two deferrals. -/
def repeatedText : Text :=
  "references Author(ID)\tMATCH full ON delete  set null\nnot deferrable ".toList ++
    "On Delete Cascade DEFERRABLE initially Immediate"

/-- The pieces after its target. -/
def repeatedPieces : List Piece :=
  [⟨.word, "MATCH", 22⟩, ⟨.word, "full", 28⟩, ⟨.word, "ON", 33⟩, ⟨.word, "delete", 36⟩,
    ⟨.word, "set", 44⟩, ⟨.word, "null", 48⟩, ⟨.word, "not", 53⟩, ⟨.word, "deferrable", 57⟩,
    ⟨.word, "On", 68⟩, ⟨.word, "Delete", 71⟩, ⟨.word, "Cascade", 78⟩, ⟨.word, "DEFERRABLE", 86⟩,
    ⟨.word, "initially", 97⟩, ⟨.word, "Immediate", 107⟩]

def repeatedClauses : List ActionClause :=
  [.matchName ⟨.word, "full", 28⟩, .onDelete [⟨.word, "set", 44⟩, ⟨.word, "null", 48⟩],
    .deferral false [], .onDelete [⟨.word, "Cascade", 78⟩],
    .deferral true [⟨.word, "initially", 97⟩, ⟨.word, "Immediate", 107⟩]]

/-- A reference with an action that is none; the lone `NOT` starts no clause. -/
def unknownText : Text :=
  "REFERENCES Author ON UPDATE CASCADE on delete set Not null DEFERRABLE LATER"

/-- The pieces after its target. -/
def unknownPieces : List Piece :=
  [⟨.word, "ON", 18⟩, ⟨.word, "UPDATE", 21⟩, ⟨.word, "CASCADE", 28⟩, ⟨.word, "on", 36⟩,
    ⟨.word, "delete", 39⟩, ⟨.word, "set", 46⟩, ⟨.word, "Not", 50⟩, ⟨.word, "null", 54⟩,
    ⟨.word, "DEFERRABLE", 59⟩, ⟨.word, "LATER", 70⟩]

def unknownClause : ActionClause :=
  .onDelete [⟨.word, "set", 46⟩, ⟨.word, "Not", 50⟩, ⟨.word, "null", 54⟩]

theorem ofClause_clauses_repeated :
    ofClause "author_id" repeatedText [⟨"author", []⟩, writer] = .ok
      { onColumn "author_id" writer with
        targetColumns := ["ID"]
        onDelete := some .cascade
        matchName := some "full"
        deferral := some ⟨false, .unspecified⟩ } ∧
    ofClause "author_id" unknownText [writer] =
      .error (.invalidAction "author_id" "ON DELETE" "SET NOT NULL") := by
  constructor
  · have hscan : Piece.scan repeatedText = .ok (⟨.word, "references", 0⟩ ::
        ⟨.word, "Author", 11⟩ :: ([⟨.group, "(ID)", 17⟩] ++ repeatedPieces)) := by decide +kernel
    have hfirst : FirstNamed [⟨"author", []⟩, writer] "Author" writer :=
      ⟨[⟨"author", []⟩], [], rfl, rfl, by decide⟩
    have hlisted : ListsColumns [⟨.group, "(ID)", 17⟩] ["ID"] :=
      @ListsColumns.group _ "ID" (by decide)
    have hclauses : Clauses repeatedClauses repeatedPieces :=
      @Clauses.cons _ _ [⟨.word, "MATCH", 22⟩] _ (by decide) (by decide)
        (@Clauses.cons _ _ [⟨.word, "ON", 33⟩, ⟨.word, "delete", 36⟩] _ (by decide) (by decide)
          (@Clauses.cons _ _ [⟨.word, "not", 53⟩, ⟨.word, "deferrable", 57⟩] _ (by decide)
            (by decide)
            (@Clauses.cons _ _ [⟨.word, "On", 68⟩, ⟨.word, "Delete", 71⟩] _ (by decide) (by decide)
              (@Clauses.cons _ _ [⟨.word, "DEFERRABLE", 86⟩] _ (by decide) (by decide) .nil))))
    have hsets : List.Forall₂ ActionClause.Sets repeatedClauses
        [.matchName "full", .onDelete .setNull, .deferral ⟨false, .unspecified⟩,
          .onDelete .cascade, .deferral ⟨true, .immediate⟩] :=
      .cons (.matchName _) (.cons (.onDelete (by decide)) (.cons (.deferral (by decide))
        (.cons (.onDelete (by decide)) (.cons (.deferral (by decide)) .nil))))
    exact (ofClause_clauses hscan (by decide) rfl hfirst hlisted (by decide) hclauses).1 _ hsets
  · have hscan : Piece.scan unknownText = .ok (⟨.word, "REFERENCES", 0⟩ ::
        ⟨.word, "Author", 11⟩ :: ([] ++ unknownPieces)) := by decide +kernel
    have hfirst : FirstNamed [writer] "Author" writer := ⟨[], [], rfl, rfl, nofun⟩
    have hclauses : Clauses [.onUpdate [⟨.word, "CASCADE", 28⟩], unknownClause,
        .deferral true [⟨.word, "LATER", 70⟩]] unknownPieces :=
      @Clauses.cons _ _ [⟨.word, "ON", 18⟩, ⟨.word, "UPDATE", 21⟩] _ (by decide) (by decide)
        (@Clauses.cons _ _ [⟨.word, "on", 36⟩, ⟨.word, "delete", 39⟩] _ (by decide) (by decide)
          (@Clauses.cons _ _ [⟨.word, "DEFERRABLE", 59⟩] _ (by decide) (by decide) .nil))
    have hnone (s : Setting) : ¬unknownClause.Sets s := by
      intro hsets
      cases hsets with
      | @onDelete _ action h =>
        revert h
        cases action <;> decide
    exact (ofClause_clauses hscan (by decide) rfl hfirst .none (by decide) hclauses).2
      [.onUpdate [⟨.word, "CASCADE", 28⟩]] unknownClause _ rfl
      (List.forall_mem_singleton.mpr ⟨.onUpdate .cascade, .onUpdate (by decide)⟩) hnone

end ForeignKey

end AnnotatedSchema
