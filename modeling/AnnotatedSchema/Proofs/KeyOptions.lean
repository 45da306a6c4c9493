import AnnotatedSchema.Proofs.Composition
import AnnotatedSchema.Proofs.RoundTrip

/-!
# The options of a primary key

The options of a key can be listed in any order, repeated and mixed with pieces that are none. Of
the sort orders the first counts, of the conflict actions the last that there is, and the reader
goes on right where the options end.
-/

namespace AnnotatedSchema

open Piece

/-! ## Items of a key -/

/-- What can be listed after `PRIMARY KEY`. The action of a conflict item is any word. -/
inductive KeyItem where
  | order (o : SortOrder)
  | autoincrement
  | conflict (action : Text)
  | other

namespace KeyItem

def order? : KeyItem → Option SortOrder
  | order o => some o
  | _ => none

/-- The conflict action that the item names, if there is one of that name. -/
def action? : KeyItem → Option ConflictAction
  | conflict action => ConflictAction.ofKeyword? action
  | _ => none

def isAutoincrement : KeyItem → Bool
  | autoincrement => true
  | _ => false

/-- The words that items with a meaning start with. -/
def words : List Text := ["ASC", "DESC", "AUTOINCREMENT", "ON"]

/-- The pieces list the items, where `rest` comes after them. None of them starts a keyword. -/
inductive Listed (rest : List Piece) : List KeyItem → List Piece → Prop
  | nil : Listed rest [] []
  | order {o : SortOrder} {p : Piece} {items : List KeyItem} {ps : List Piece}
      (hp : p.isWord o.keyword = true) (hps : Listed rest items ps) :
      Listed rest (.order o :: items) (p :: ps)
  | autoincrement {p : Piece} {items : List KeyItem} {ps : List Piece}
      (hp : p.isWord "AUTOINCREMENT" = true) (hps : Listed rest items ps) :
      Listed rest (.autoincrement :: items) (p :: ps)
  | on {on action : Piece} {items : List KeyItem} {ps : List Piece} (hon : on.isWord "ON" = true)
      (hkind : action.kind = .word) (hshort : action.isWord "CONFLICT" = false)
      (hleads : Keyword.leads (action :: (ps ++ rest)) = false) (hps : Listed rest items ps) :
      Listed rest (.conflict action.text :: items) (on :: action :: ps)
  | onConflict {on conflict action : Piece} {items : List KeyItem} {ps : List Piece}
      (hon : on.isWord "ON" = true) (hconflict : conflict.isWord "CONFLICT" = true)
      (hkind : action.kind = .word) (hleads : Keyword.leads (action :: (ps ++ rest)) = false)
      (hps : Listed rest items ps) :
      Listed rest (.conflict action.text :: items) (on :: conflict :: action :: ps)
  | other {p : Piece} {items : List KeyItem} {ps : List Piece}
      (hwords : ∀ w ∈ words, p.isWord w = false)
      (hleads : Keyword.leads (p :: (ps ++ rest)) = false) (hps : Listed rest items ps) :
      Listed rest (.other :: items) (p :: ps)

end KeyItem

theorem getLast?_filterMap_cons {α β : Type} (f : α → Option β) (a : α) (as : List α) :
    ((a :: as).filterMap f).getLast? = (as.filterMap f).getLast?.or (f a) := by
  rw [List.filterMap_cons]
  cases f a with
  | none => exact Option.or_none.symm
  | some b =>
    rw [List.getLast?_cons]
    cases (as.filterMap f).getLast? <;> rfl

/-- A key with the option that the item gives, if it gives one. -/
def KeyItem.key (item : KeyItem) : ColumnKey :=
  ⟨item.order?, item.action?, item.isAutoincrement⟩

@[simp] theorem KeyItem.key_order (o : SortOrder) : (order o).key = ⟨some o, none, false⟩ := rfl

@[simp] theorem KeyItem.key_autoincrement : autoincrement.key = ⟨none, none, true⟩ := rfl

@[simp] theorem KeyItem.key_conflict (action : Text) :
    (conflict action).key = ⟨none, ConflictAction.ofKeyword? action, false⟩ := rfl

namespace ColumnKey

/-- The key with the options that the items give: the first order, the last action that there is. -/
def ofItems (items : List KeyItem) : ColumnKey :=
  ⟨items.findSome? KeyItem.order?, (items.filterMap KeyItem.action?).getLast?,
    items.any KeyItem.isAutoincrement⟩

/-- The key with the options of another listed after its own. -/
def followedBy (key other : ColumnKey) : ColumnKey :=
  ⟨key.order.or other.order, other.conflict.or key.conflict,
    key.autoincrement || other.autoincrement⟩

theorem plain_followedBy (key : ColumnKey) : plain.followedBy key = key := by
  rw [followedBy, plain, Option.none_or, Option.or_none, Bool.false_or]

theorem followedBy_plain (key : ColumnKey) : key.followedBy plain = key := by
  rw [followedBy, plain, Option.none_or, Option.or_none, Bool.or_false]

theorem followedBy_assoc (a b c : ColumnKey) :
    (a.followedBy b).followedBy c = a.followedBy (b.followedBy c) := by
  simp only [followedBy, Option.or_assoc, Bool.or_assoc]

theorem ofItems_cons (item : KeyItem) (items : List KeyItem) :
    ofItems (item :: items) = item.key.followedBy (ofItems items) := by
  have horder : (item :: items).findSome? KeyItem.order? =
      item.order?.or (items.findSome? KeyItem.order?) := by
    rw [List.findSome?_cons]
    cases item.order? <;> rfl
  rw [ofItems, horder, getLast?_filterMap_cons, List.any_cons]
  rfl

end ColumnKey

/-! ## One item -/

theorem Piece.isWord_of_word {p : Piece} (h : p.kind = .word) (w : Text) :
    p.isWord w = p.text.sameKeyword w := by
  rw [isWord, beq_iff_eq.mpr h, Bool.true_and]

namespace Annotation

theorem ofKeyword?_order {p : Piece} {o : SortOrder} (h : p.isWord o.keyword = true) :
    SortOrder.ofKeyword? p.text = some o := by
  have hword := isWord_of_word (kind_of_isWord h)
  rw [hword] at h
  cases o with
  | asc => exact List.find?_cons_of_pos h
  | desc =>
    have hasc : p.text.sameKeyword SortOrder.asc.keyword = false := by
      rw [← hword] at h ⊢
      exact isWord_eq_false h (by decide)
    rw [SortOrder.ofKeyword?, SortOrder.all, List.find?_cons_of_neg (by simp [hasc])]
    exact List.find?_cons_of_pos h

theorem ofKeyword?_order_eq_none {p : Piece} (hkind : p.kind = .word)
    (hasc : p.isWord "ASC" = false) (hdesc : p.isWord "DESC" = false) :
    SortOrder.ofKeyword? p.text = none := by
  rw [isWord_of_word hkind] at hasc hdesc
  refine List.find?_eq_none.mpr fun o _ => ?_
  cases o with
  | asc => exact ne_true_of_eq_false hasc
  | desc => exact ne_true_of_eq_false hdesc

theorem readAction_word {action : Piece} {rest : List Piece} (hkind : action.kind = .word)
    (hleads : Keyword.leads (action :: rest) = false) :
    readAction (action :: rest) = (ConflictAction.ofKeyword? action.text, rest) :=
  if_pos ⟨hkind, by rw [hleads]; rfl⟩

section
variable {p : Piece} {rest : List Piece}

theorem readKeyOptions_sortOrder {o : SortOrder} (h : p.isWord o.keyword = true)
    (key : ColumnKey) :
    readKeyOptions key (p :: rest) =
      readKeyOptions (key.followedBy (KeyItem.order o).key) rest := by
  have hleads : Keyword.leads (p :: rest) = false := by
    cases o <;> exact Keyword.leads_eq_false_of_isWord h (by decide) rest
  have hkey : { key with order := key.order.or (some o) } =
      key.followedBy (KeyItem.order o).key := by simp [ColumnKey.followedBy]
  rw [readKeyOptions, hleads, if_neg Bool.false_ne_true, if_neg (not_not.mpr (kind_of_isWord h)),
    ofKeyword?_order h]
  exact congrArg (readKeyOptions · rest) hkey

theorem readKeyOptions_auto (h : p.isWord "AUTOINCREMENT" = true) (key : ColumnKey) :
    readKeyOptions key (p :: rest) =
      readKeyOptions (key.followedBy KeyItem.autoincrement.key) rest := by
  have hleads : Keyword.leads (p :: rest) = false :=
    Keyword.leads_eq_false_of_isWord h (by decide) rest
  have horder := ofKeyword?_order_eq_none (kind_of_isWord h) (isWord_eq_false h (by decide))
    (isWord_eq_false h (by decide))
  have hkey : { key with autoincrement := true } = key.followedBy KeyItem.autoincrement.key := by
    simp [ColumnKey.followedBy]
  rw [readKeyOptions, hleads, if_neg Bool.false_ne_true, if_neg (not_not.mpr (kind_of_isWord h)),
    horder]
  simp only [h, if_true]
  exact congrArg (readKeyOptions · rest) hkey

theorem readKeyOptions_on (h : p.isWord "ON" = true) {action : Text} {left : List Piece}
    (haction : readConflictAction rest = (ConflictAction.ofKeyword? action, left))
    (key : ColumnKey) :
    readKeyOptions key (p :: rest) =
      readKeyOptions (key.followedBy (KeyItem.conflict action).key) left := by
  have hleads : Keyword.leads (p :: rest) = false :=
    Keyword.leads_eq_false_of_isWord h (by decide) rest
  have horder := ofKeyword?_order_eq_none (kind_of_isWord h) (isWord_eq_false h (by decide))
    (isWord_eq_false h (by decide))
  have hauto : p.isWord "AUTOINCREMENT" = false := isWord_eq_false h (by decide)
  have hkey : { key with conflict := (ConflictAction.ofKeyword? action).or key.conflict } =
      key.followedBy (KeyItem.conflict action).key := by simp [ColumnKey.followedBy]
  rw [readKeyOptions, hleads, if_neg Bool.false_ne_true, if_neg (not_not.mpr (kind_of_isWord h)),
    horder]
  simp only [hauto, h, haction, Bool.false_eq_true, if_false, if_true]
  exact congrArg (readKeyOptions · left) hkey

theorem readKeyOptions_other (hwords : ∀ w ∈ KeyItem.words, p.isWord w = false)
    (hleads : Keyword.leads (p :: rest) = false) (key : ColumnKey) :
    readKeyOptions key (p :: rest) = readKeyOptions (key.followedBy KeyItem.other.key) rest := by
  have hkey : key.followedBy KeyItem.other.key = key := key.followedBy_plain
  simp only [KeyItem.words, List.forall_mem_cons] at hwords
  obtain ⟨hasc, hdesc, hauto, hon, -⟩ := hwords
  rw [readKeyOptions, hleads, if_neg Bool.false_ne_true, hkey]
  split
  · rfl
  · next hkind =>
    rw [ofKeyword?_order_eq_none (not_not.mp hkind) hasc hdesc]
    simp only [hauto, hon, Bool.false_eq_true, if_false]

end

/-! ## All items -/

-- The key is any, as each item hands its own on to the items after it.
theorem readKeyOptions_listed {items : List KeyItem} {ps rest : List Piece}
    (h : KeyItem.Listed rest items ps) (hrest : Keyword.Follows rest) (key : ColumnKey) :
    readKeyOptions key (ps ++ rest) = (key.followedBy (.ofItems items), rest) := by
  induction h generalizing key with
  | nil =>
    rw [List.nil_append, readKeyOptions_follows key hrest]
    exact congrArg (·, rest) key.followedBy_plain.symm
  | order hp _ ih =>
    rw [List.cons_append, readKeyOptions_sortOrder hp, ih, ColumnKey.ofItems_cons,
      ColumnKey.followedBy_assoc]
  | autoincrement hp _ ih =>
    rw [List.cons_append, readKeyOptions_auto hp, ih, ColumnKey.ofItems_cons,
      ColumnKey.followedBy_assoc]
  | @on on action items ps hon hkind hshort hleads _ ih =>
    have haction : readConflictAction (action :: (ps ++ rest)) =
        (ConflictAction.ofKeyword? action.text, ps ++ rest) := by
      rw [readConflictAction, skipConflict, hshort, if_neg Bool.false_ne_true,
        readAction_word hkind hleads]
    rw [List.cons_append, List.cons_append, readKeyOptions_on hon haction, ih,
      ColumnKey.ofItems_cons, ColumnKey.followedBy_assoc]
  | @onConflict on conflict action items ps hon hconflict hkind hleads _ ih =>
    have haction : readConflictAction (conflict :: action :: (ps ++ rest)) =
        (ConflictAction.ofKeyword? action.text, ps ++ rest) := by
      rw [readConflictAction, skipConflict, if_pos hconflict, readAction_word hkind hleads]
    rw [List.cons_append, List.cons_append, List.cons_append, readKeyOptions_on hon haction, ih,
      ColumnKey.ofItems_cons, ColumnKey.followedBy_assoc]
  | other hwords hleads _ ih =>
    rw [List.cons_append, readKeyOptions_other hwords hleads, ih, ColumnKey.ofItems_cons,
      ColumnKey.followedBy_assoc]

theorem leading?_primaryKey {primary key : Piece} (hprimary : primary.isWord "PRIMARY" = true)
    (hkey : key.isWord "KEY" = true) (rest : List Piece) :
    Keyword.leading? (primary :: key :: rest) = some (.clause .primaryKey) := by
  have hone : Keyword.oneWord.find? (fun k => primary.isWord k.text) = none := by
    have hother : ∀ k ∈ Keyword.oneWord, Text.upperAscii "PRIMARY" ≠ k.text.upperAscii := by
      decide
    refine List.find?_eq_none.mpr fun k hk => ?_
    rw [isWord_eq_false hprimary (hother k hk)]
    exact Bool.false_ne_true
  simp only [Keyword.leading?, hone, List.head?_cons, Option.any_some, hprimary, hkey,
    Bool.and_self, if_true]

theorem readConstraints_primaryKey {primary key : Piece} {items : List KeyItem}
    {ps rest : List Piece} (hprimary : primary.isWord "PRIMARY" = true)
    (hkey : key.isWord "KEY" = true) (hitems : KeyItem.Listed rest items ps)
    (hrest : Keyword.Follows rest) (column : Text) (name : Option Text) :
    readConstraints column name (primary :: key :: (ps ++ rest)) =
      (readConstraints column none rest).map (⟨name, .primaryKey (.ofItems items)⟩ :: ·) := by
  rw [readConstraints_clause (leading?_primaryKey hprimary hkey _)]
  change (readConstraints column none (readKeyOptions .plain (ps ++ rest)).2).map
    (⟨name, .primaryKey (readKeyOptions .plain (ps ++ rest)).1⟩ :: ·) = _
  rw [readKeyOptions_listed hitems hrest, ColumnKey.plain_followedBy]

/-- After `PRIMARY KEY` the options are read in any order, up to the end or the next keyword, and
there the reader goes on. So it is in every state of the reader, and at every place of an
annotation up to which the constraints can be read. -/
theorem constraints_keyItems {primary key : Piece} {items : List KeyItem} {ps rest : List Piece}
    (hprimary : primary.isWord "PRIMARY" = true) (hkey : key.isWord "KEY" = true)
    (hitems : KeyItem.Listed rest items ps) (hrest : Keyword.Follows rest) (column : Text) :
    (∀ name, readConstraints column name (primary :: key :: (ps ++ rest)) =
      (readConstraints column none rest).map (⟨name, .primaryKey (.ofItems items)⟩ :: ·)) ∧
    ∀ (tag : Text) (before : List Piece) (cs : List AnnotatedConstraint),
      Piece.scan tag = .ok (before ++ primary :: key :: (ps ++ rest)) →
      readConstraints column none before = .ok cs →
      constraints column tag = (readConstraints column none rest).map
        (cs ++ ⟨pendingName none (occurrences before), .primaryKey (.ofItems items)⟩ :: ·) := by
  refine ⟨readConstraints_primaryKey hprimary hkey hitems hrest column,
    fun tag before cs hscan hbefore => ?_⟩
  have hapart : Apart before (primary :: key :: (ps ++ rest)) := by
    have hdefault : primary.isWord "DEFAULT" = false := isWord_eq_false hprimary (by decide)
    have hleads : Keyword.leads (primary :: key :: (ps ++ rest)) = true := by
      rw [Keyword.leads, leading?_primaryKey hprimary hkey]
      rfl
    refine ⟨.inr hleads, ?_⟩
    rintro ⟨-, hhead⟩
    rw [headIs, List.head?_cons, Option.any_some, hdefault] at hhead
    cases hhead
  rw [constraints, hscan]
  change readConstraints column none (before ++ primary :: key :: (ps ++ rest)) = _
  rw [readConstraints_append hbefore hapart,
    readConstraints_primaryKey hprimary hkey hitems hrest]
  cases readConstraints column none rest <;> rfl

/-- A key with an unknown action, two orders, a piece that is no option and a lone `NOT`. -/
def mixedTag : Text :=
  "CONSTRAINT pk PRIMARY KEY ON explode DESC (1) on conflict Ignore asc NOT autoincrement NOT NULL"

def mixedItems : List KeyItem :=
  [.conflict "explode", .order .desc, .other, .conflict "Ignore", .order .asc, .other,
    .autoincrement]

/-- The pieces of the items. -/
def mixedPieces : List Piece :=
  [⟨.word, "ON", 26⟩, ⟨.word, "explode", 29⟩, ⟨.word, "DESC", 37⟩, ⟨.group, "(1)", 42⟩,
    ⟨.word, "on", 46⟩, ⟨.word, "conflict", 49⟩, ⟨.word, "Ignore", 58⟩, ⟨.word, "asc", 65⟩,
    ⟨.word, "NOT", 69⟩, ⟨.word, "autoincrement", 73⟩]

theorem constraints_keyItems_mixed :
    KeyItem.Listed [⟨.word, "NOT", 87⟩, ⟨.word, "NULL", 91⟩] mixedItems mixedPieces ∧
      constraints "id" mixedTag =
        .ok [⟨some "pk", .primaryKey ⟨some .desc, some .ignore, true⟩⟩, ⟨none, .notNull none⟩] := by
  have hlisted : KeyItem.Listed [⟨.word, "NOT", 87⟩, ⟨.word, "NULL", 91⟩] mixedItems mixedPieces :=
    @KeyItem.Listed.on _ _ ⟨.word, "explode", 29⟩ _ _ (by decide) rfl (by decide) (by decide)
      (.order (by decide) (.other (by decide) (by decide)
        (@KeyItem.Listed.onConflict _ _ _ ⟨.word, "Ignore", 58⟩ _ _ (by decide) (by decide) rfl
          (by decide)
          (.order (by decide) (.other (by decide) (by decide) (.autoincrement (by decide) .nil))))))
  have hscan : Piece.scan mixedTag = .ok ([⟨.word, "CONSTRAINT", 0⟩, ⟨.word, "pk", 11⟩] ++
      ⟨.word, "PRIMARY", 14⟩ :: ⟨.word, "KEY", 22⟩ ::
        (mixedPieces ++ [⟨.word, "NOT", 87⟩, ⟨.word, "NULL", 91⟩])) := by decide +kernel
  have hbefore : readConstraints "id" none [⟨.word, "CONSTRAINT", 0⟩, ⟨.word, "pk", 11⟩] =
      .ok [] := by decide +kernel
  have hrest : readConstraints "id" none [⟨.word, "NOT", 87⟩, ⟨.word, "NULL", 91⟩] =
      .ok [⟨none, .notNull none⟩] := by decide +kernel
  have hread := (constraints_keyItems (by decide) (by decide) hlisted (.inr (by decide)) "id").2
    mixedTag _ _ hscan hbefore
  rw [hrest] at hread
  exact ⟨hlisted, hread⟩

end Annotation

end AnnotatedSchema
