import AnnotatedSchema.Proofs.Defaults
import AnnotatedSchema.Storage

/-!
# Wrapped types

A type in wrappers and behind references is stored like the type itself, and so is a type with other
blanks. Only a storage class keyword loses its meaning inside a wrapper: there it is the name of a
type that is not known.
-/

namespace AnnotatedSchema

/-! ## Blanks -/

/-- The second text is the first with blanks put in anywhere. -/
inductive BlanksAdded : Text → Text → Prop
  | nil : BlanksAdded [] []
  | keep (c : Char) {t u : Text} (h : BlanksAdded t u) : BlanksAdded (c :: t) (c :: u)
  | blank {b : Char} (hb : isBlank b = true) {t u : Text} (h : BlanksAdded t u) :
      BlanksAdded t (b :: u)

namespace BlanksAdded

theorem refl (t : Text) : BlanksAdded t t := by
  induction t with
  | nil => exact .nil
  | cons c t ih => exact .keep c ih

theorem append {t u t' u' : Text} (h : BlanksAdded t u) (h' : BlanksAdded t' u') :
    BlanksAdded (t ++ t') (u ++ u') := by
  induction h with
  | nil => exact h'
  | keep c _ ih => exact .keep c ih
  | blank hb _ ih => exact .blank hb ih

theorem withoutBlanks_eq {t u : Text} (h : BlanksAdded t u) :
    u.withoutBlanks = t.withoutBlanks := by
  unfold Text.withoutBlanks
  induction h with
  | nil => rfl
  | keep c _ ih => rw [List.filter_cons, List.filter_cons, ih]
  | blank hb _ ih =>
    rw [List.filter_cons_of_neg (by rw [hb]; decide)]
    exact ih

end BlanksAdded

theorem Text.trim_withoutBlanks (t : Text) : t.withoutBlanks.trim = t.withoutBlanks := by
  have hblank : ∀ c ∈ t.withoutBlanks, isBlank c = false := by
    intro c hc
    have hkept := (List.mem_filter.mp hc).2
    simpa using hkept
  apply trim_eq_self
  · intro c hc
    exact hblank c (List.mem_of_mem_head? hc)
  · intro c hc
    exact hblank c (List.mem_of_mem_getLast? hc)

namespace Storage

/-! ## Wrappers -/

/-- What can stand around a type. -/
inductive Wrapper where
  | option
  | box
  | stdOption
  | stdBox
  | reference
  deriving DecidableEq

namespace Wrapper

def opening : Wrapper → Text
  | option => "Option<"
  | box => "Box<"
  | stdOption => "std::option::Option<"
  | stdBox => "std::boxed::Box<"
  | reference => "&"

def closing : Wrapper → Text
  | reference => []
  | _ => ['>']

def around (w : Wrapper) (t : Text) : Text := w.opening ++ t ++ w.closing

end Wrapper

/-- The type inside all of the wrappers, the first of which is the outermost. -/
def wrapped (ws : List Wrapper) (t : Text) : Text := ws.foldr Wrapper.around t

theorem ofType_of_unwrapped? {t inner : Text} (h : unwrapped? (referent t) = some inner) :
    ofType t = ofType inner := by
  rw [ofType]
  split
  · next found hfound =>
    rw [h] at hfound
    rw [Option.some.inj hfound]
  · next hnone =>
    rw [h] at hnone
    cases hnone

theorem ofType_of_plain {t : Text} (h : unwrapped? (referent t) = none) :
    ofType t = ofPlainType (referent t) := by
  rw [ofType]
  split
  · next found hfound =>
    rw [h] at hfound
    cases hfound
  · rfl

-- No wrapper opens with another one, so only the outermost can be taken off.
theorem unwrapped?_of_mem {w : Text} (hw : w ∈ wrappers) (t : Text) :
    unwrapped? (w ++ t ++ ['>']) = some t := by
  have hapart : wrappers.Pairwise fun v w => ¬v <+: w ∧ ¬w <+: v := by decide +kernel
  obtain ⟨before, after, hwrappers⟩ := List.append_of_mem hw
  rw [hwrappers, List.pairwise_append] at hapart
  have hbefore : before.findSome? (fun v =>
      (List.isPrefixOf? v (w ++ t ++ ['>'])).bind (List.isSuffixOf? ['>'] ·)) = none := by
    rw [List.findSome?_eq_none_iff]
    intro v hv
    have hnone : List.isPrefixOf? v (w ++ t ++ ['>']) = none := by
      rw [Option.eq_none_iff_forall_ne_some]
      intro rest hrest
      have hv' : v <+: w ++ t ++ ['>'] := ⟨rest, List.isPrefixOf?_eq_some_iff_append_eq.mp hrest⟩
      have hw' : w <+: w ++ t ++ ['>'] := ⟨t ++ ['>'], (List.append_assoc w t ['>']).symm⟩
      rcases List.prefix_or_prefix_of_prefix hv' hw' with h | h
      · exact (hapart.2.2 v hv w List.mem_cons_self).1 h
      · exact (hapart.2.2 v hv w List.mem_cons_self).2 h
    rw [hnone, Option.bind_none]
  have hopen : List.isPrefixOf? w (w ++ t ++ ['>']) = some (t ++ ['>']) :=
    List.isPrefixOf?_eq_some_iff_append_eq.mpr (List.append_assoc w t ['>']).symm
  have hclose : List.isSuffixOf? ['>'] (t ++ ['>']) = some t :=
    List.isSuffixOf?_eq_some_iff_append_eq.mpr rfl
  unfold unwrapped?
  rw [hwrappers, List.findSome?_append, hbefore, Option.none_or, List.findSome?_cons, hopen,
    Option.bind_some, hclose]

theorem referent_eq_self {t : Text} (h : ∀ c ∈ t.head?, c ≠ '&' ∧ c ≠ '\'') : referent t = t := by
  cases t with
  | nil => rfl
  | cons c t =>
    have hc := h c rfl
    have hdrop : (c :: t).dropWhile (· == '&') = c :: t :=
      List.dropWhile_cons_of_neg (by simpa using hc.1)
    rw [referent, hdrop]
    unfold dropLifetimes
    split
    · next heq => exact absurd (List.cons.inj heq).1 hc.2
    · rfl

theorem ofType_reference (t : Text) : ofType (Wrapper.reference.around t) = ofType t := by
  have hreferent : referent (Wrapper.reference.around t) = referent t := by
    show dropLifetimes (List.dropWhile (· == '&') (t ++ [])) = referent t
    rw [List.append_nil, referent]
  cases h : unwrapped? (referent t) with
  | some inner => rw [ofType_of_unwrapped? (hreferent ▸ h), ofType_of_unwrapped? h]
  | none => rw [ofType_of_plain (hreferent ▸ h), ofType_of_plain h, hreferent]

theorem ofType_around (w : Wrapper) (t : Text) : ofType (w.around t) = ofType t := by
  by_cases hw : w = .reference
  · rw [hw, ofType_reference]
  · have hwrapper : w.opening ∈ wrappers ∧ w.closing = ['>'] ∧
        w.opening.head?.any (fun c => c != '&' && c != '\'') = true := by
      cases w with
      | reference => exact absurd rfl hw
      | option | box | stdOption | stdBox => decide +kernel
    obtain ⟨hmem, hclosing, hfirst⟩ := hwrapper
    obtain ⟨c, hc, hhead⟩ := (Option.any_eq_true _ _).mp hfirst
    rw [Bool.and_eq_true, bne_iff_ne, bne_iff_ne] at hhead
    unfold Wrapper.around
    rw [hclosing]
    apply ofType_of_unwrapped?
    have hreferent : referent (w.opening ++ t ++ ['>']) = w.opening ++ t ++ ['>'] := by
      apply referent_eq_self
      intro d hd
      rw [List.append_assoc, List.head?_append, hc, Option.some_or] at hd
      rwa [← Option.some.inj hd]
    rw [hreferent, unwrapped?_of_mem hmem]

theorem ofType_wrapped (ws : List Wrapper) (t : Text) : ofType (wrapped ws t) = ofType t := by
  induction ws with
  | nil => rfl
  | cons w ws ih =>
    show ofType (w.around (wrapped ws t)) = ofType t
    rw [ofType_around, ih]

theorem withoutBlanks_around (w : Wrapper) (t : Text) :
    (w.around t).withoutBlanks = w.around t.withoutBlanks := by
  have hopening : w.opening.withoutBlanks = w.opening := by cases w <;> decide +kernel
  have hclosing : w.closing.withoutBlanks = w.closing := by cases w <;> decide +kernel
  unfold Text.withoutBlanks at *
  unfold Wrapper.around
  rw [List.filter_append, List.filter_append, hopening, hclosing]

theorem withoutBlanks_wrapped (ws : List Wrapper) (t : Text) :
    (wrapped ws t).withoutBlanks = wrapped ws t.withoutBlanks := by
  induction ws with
  | nil => rfl
  | cons w ws ih =>
    show (w.around (wrapped ws t)).withoutBlanks = w.around (wrapped ws t.withoutBlanks)
    rw [withoutBlanks_around, ih]

/-! ## Keywords -/

/-- Blanks and the case of letters apart, the text is the keyword of the storage class. -/
def Spells (t : Text) (s : Storage) : Prop := t.withoutBlanks.upperAscii = s.keyword

instance (t : Text) (s : Storage) : Decidable (Spells t s) := inferInstanceAs (Decidable (_ = _))

theorem ofKeyword?_eq_some_iff {t : Text} {s : Storage} :
    ofKeyword? t.withoutBlanks = some s ↔ Spells t s := by
  have hall : s ∈ all := by cases s <;> decide
  have hinj : ∀ s' ∈ all, s.keyword.upperAscii = s'.keyword.upperAscii → s = s' := by
    cases s <;> decide +kernel
  have hupper : s.keyword.upperAscii = s.keyword := by cases s <;> decide +kernel
  unfold ofKeyword?
  rw [Text.trim_withoutBlanks, Text.find?_sameKeyword_iff hall hinj, Text.sameKeyword, beq_iff_eq,
    hupper]
  rfl

theorem Spells.toUpper_mem {t : Text} {s : Storage} (h : Spells t s) {c : Char}
    (hc : c ∈ t.withoutBlanks) : c.toUpper ∈ s.keyword := by
  rw [← h]
  exact List.mem_map_of_mem hc

theorem not_spells_wrapped {ws : List Wrapper} (hws : ws ≠ []) (t : Text) (s : Storage) :
    ¬Spells (wrapped ws t) s := by
  intro h
  cases ws with
  | nil => exact hws rfl
  | cons w ws =>
    have hopening : w.opening.any (fun c => !s.keyword.contains c.toUpper) = true := by
      cases w <;> cases s <;> decide +kernel
    obtain ⟨c, hc, hnot⟩ := List.any_eq_true.mp hopening
    have hother : c.toUpper ∉ s.keyword := by simpa using hnot
    apply hother
    apply h.toUpper_mem
    rw [withoutBlanks_wrapped]
    exact List.mem_append_left _ (List.mem_append_left _ hc)

theorem Spells.not_mem_mark {t : Text} {s : Storage} (h : Spells t s) :
    ∀ c ∈ ['&', '\'', '>', '['], c ∉ t.withoutBlanks := by
  have hupper : ['&', '\'', '>', '['].all (fun c => !s.keyword.contains c.toUpper) = true := by
    cases s <;> decide +kernel
  intro c hc hmem
  have hother : c.toUpper ∉ s.keyword := by simpa using List.all_eq_true.mp hupper c hc
  exact hother (h.toUpper_mem hmem)

theorem Spells.ne_name {t : Text} {s : Storage} (h : Spells t s) :
    ∀ name ∈ integerTypes ++ realTypes ++ blobTypes, name ≠ t.withoutBlanks := by
  have hupper : ∀ name ∈ integerTypes ++ realTypes ++ blobTypes, name.upperAscii ≠ s.keyword := by
    cases s <;> decide +kernel
  rintro name hname rfl
  exact hupper _ hname h

theorem Spells.referent_eq {t : Text} {s : Storage} (h : Spells t s) :
    referent t.withoutBlanks = t.withoutBlanks := by
  apply referent_eq_self
  intro c hc
  have hmem := List.mem_of_mem_head? hc
  constructor
  · rintro rfl
    exact h.not_mem_mark '&' (by decide) hmem
  · rintro rfl
    exact h.not_mem_mark '\'' (by decide) hmem

theorem Spells.unwrapped?_eq_none {t : Text} {s : Storage} (h : Spells t s) :
    unwrapped? t.withoutBlanks = none := by
  rw [Option.eq_none_iff_forall_ne_some]
  intro inner hinner
  obtain ⟨w, -, hw⟩ := List.exists_of_findSome?_eq_some hinner
  obtain ⟨rest, hrest, hclose⟩ := Option.bind_eq_some_iff.mp hw
  apply h.not_mem_mark '>' (by decide)
  rw [Text.eq_append_of_isPrefixOf? hrest, Text.eq_append_of_isSuffixOf? hclose]
  simp

-- No type has the name of a storage class, whatever the case of its letters.
theorem ofType_of_spells {t : Text} {s : Storage} (h : Spells t s) :
    ofType t.withoutBlanks = .text := by
  have hinteger : t.withoutBlanks ∉ integerTypes := fun hmem => h.ne_name _ (by simp [hmem]) rfl
  have hreal : t.withoutBlanks ∉ realTypes := fun hmem => h.ne_name _ (by simp [hmem]) rfl
  have hblob : ¬(t.withoutBlanks ∈ blobTypes ∨ "[u8;".toList <+: t.withoutBlanks) := by
    rintro (hmem | hbytes)
    · exact h.ne_name _ (by simp [hmem]) rfl
    · exact h.not_mem_mark '[' (by decide) (hbytes.subset (by decide))
  have hplain : unwrapped? (referent t.withoutBlanks) = none := by
    rw [h.referent_eq, h.unwrapped?_eq_none]
  rw [ofType_of_plain hplain, h.referent_eq]
  unfold ofPlainType
  rw [if_neg hinteger, if_neg hreal, if_neg hblob]

/-! ## Storage classes of wrapped types -/

theorem infer_eq_of_blanksAdded {t u : Text} (h : BlanksAdded t u) : infer u = infer t := by
  unfold infer
  rw [h.withoutBlanks_eq]

theorem infer_of_spells {t : Text} {s : Storage} (h : Spells t s) : infer t = s := by
  unfold infer
  rw [ofKeyword?_eq_some_iff.mpr h, Option.getD_some]

theorem infer_eq_ofType {t : Text} (h : ∀ s, ¬Spells t s) : infer t = ofType t.withoutBlanks := by
  have hnone : ofKeyword? t.withoutBlanks = none := by
    rw [Option.eq_none_iff_forall_ne_some]
    intro s hs
    exact h s (ofKeyword?_eq_some_iff.mp hs)
  unfold infer
  rw [hnone, Option.getD_none]

theorem infer_wrapped_eq_ofType {ws : List Wrapper} (hws : ws ≠ []) (t : Text) :
    infer (wrapped ws t) = ofType t.withoutBlanks := by
  rw [infer_eq_ofType (not_spells_wrapped hws t), withoutBlanks_wrapped, ofType_wrapped]

/-- Wrappers and blanks do not change how a type is stored. A storage class keyword is read as one
without wrappers only; inside them it names a type that is not known. -/
theorem infer_wrapped {ws : List Wrapper} {t u : Text} (h : BlanksAdded (wrapped ws t) u) :
    ((ws = [] ∨ ∀ s, Spells t s → s = .text) → infer u = infer t) ∧
    (ws ≠ [] → ∀ s, Spells t s → infer u = .text) := by
  rw [infer_eq_of_blanksAdded h]
  constructor
  · intro hkeyword
    by_cases hws : ws = []
    · rw [hws]
      rfl
    · rw [infer_wrapped_eq_ofType hws]
      by_cases hspells : ∃ s, Spells t s
      · obtain ⟨s, hs⟩ := hspells
        have htext : s = .text := hkeyword.resolve_left hws s hs
        rw [ofType_of_spells hs, infer_of_spells hs, htext]
      · rw [infer_eq_ofType (not_exists.mp hspells)]
  · intro hws s hs
    rw [infer_wrapped_eq_ofType hws, ofType_of_spells hs]

-- Bytes in three wrappers, with blanks between and inside them, and a keyword in one.
theorem infer_wrapped_bytes :
    BlanksAdded (wrapped [.option, .reference, .stdBox] "Vec<u8>")
      "Option < &std::boxed::Box<Vec< u8>> >" ∧
    infer "Option < &std::boxed::Box<Vec< u8>> >" = .blob ∧
    BlanksAdded (wrapped [.box] "blob") "Box<blob>" ∧ infer "Box<blob>" = .text := by
  have hspaced : BlanksAdded (wrapped [.option, .reference, .stdBox] "Vec<u8>")
      "Option < &std::boxed::Box<Vec< u8>> >" :=
    (BlanksAdded.refl "Option".toList).append (.blank (by decide)
      ((BlanksAdded.refl "<".toList).append (.blank (by decide)
        ((BlanksAdded.refl "&std::boxed::Box<Vec<".toList).append (.blank (by decide)
          ((BlanksAdded.refl "u8>>".toList).append (.blank (by decide) (.refl ">".toList))))))))
  have hplain : BlanksAdded (wrapped [.box] "blob") "Box<blob>" := .refl "Box<blob>".toList
  have hbytes : ∀ s, ¬Spells "Vec<u8>" s := by
    intro s
    cases s <;> decide +kernel
  have hstored : infer "Vec<u8>" = .blob := by
    rw [infer_eq_ofType hbytes]
    decide +kernel
  have hkeyword : Spells "blob" .blob := by decide +kernel
  exact ⟨hspaced,
    ((infer_wrapped hspaced).1 (.inr fun s hs => absurd hs (hbytes s))).trans hstored,
    hplain, (infer_wrapped hplain).2 (by decide) .blob hkeyword⟩

-- The keyword of a storage class is none inside a wrapper.
theorem infer_wrapped_keyword :
    ¬∀ (ws : List Wrapper) (t u : Text), BlanksAdded (wrapped ws t) u → infer u = infer t := by
  intro h
  have hsame := h [.option] "INTEGER" "Option<INTEGER>" (.refl "Option<INTEGER>".toList)
  have hspells : Spells "INTEGER" .integer := by decide +kernel
  have hinside : infer (wrapped [.option] "INTEGER") = .text := by
    rw [infer_wrapped_eq_ofType (by decide), ofType_of_spells hspells]
  rw [infer_of_spells hspells] at hsame
  cases hinside.symm.trans hsame

end Storage

end AnnotatedSchema
