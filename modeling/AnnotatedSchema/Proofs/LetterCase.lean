import AnnotatedSchema.Text.LetterCase
import Mathlib.Data.List.Range

/-!
# Capital and small letters

No letter is capital and small, and the small form of a capital letter is a small letter. It is so
for all but the capital I with a dot, which becomes two characters, and the capitals that have no
small form and stand for themselves.
-/

namespace AnnotatedSchema

namespace LetterCase

/-! ## The code points of a run -/

namespace Run

def points (r : Run) : List Nat := List.range' r.first ((r.last - r.first) / r.step + 1) r.step

theorem bounds_of_contains {r : Run} {n : Nat} (h : r.contains n = true) :
    r.first ≤ n ∧ n ≤ r.last ∧ r.step ∣ n - r.first := by
  simp only [contains, Bool.and_eq_true, decide_eq_true_eq, beq_iff_eq] at h
  exact ⟨h.1.1, h.1.2, Nat.dvd_of_mod_eq_zero h.2⟩

theorem mem_points {r : Run} {n : Nat} (h : r.contains n = true) : n ∈ r.points := by
  obtain ⟨hfirst, hlast, k, hk⟩ := bounds_of_contains h
  rw [points, List.mem_range']
  rcases Nat.eq_zero_or_pos r.step with hstep | hstep
  · exact ⟨0, Nat.succ_pos _, by rw [hstep] at hk ⊢; omega⟩
  · have hcount : k ≤ (r.last - r.first) / r.step := by
      rw [Nat.le_div_iff_mul_le hstep, Nat.mul_comm, ← hk]
      omega
    exact ⟨k, Nat.lt_succ_of_le hcount, by omega⟩

/-- Whether no code point is in both runs. Only runs that overlap are looked at point by point. -/
def isApart (r s : Run) : Bool :=
  Nat.ble r.last.succ s.first || Nat.ble s.last.succ r.first ||
    r.points.all fun n => !s.contains n

theorem not_contains_of_isApart {r s : Run} (h : r.isApart s = true) {n : Nat}
    (hr : r.contains n = true) : s.contains n = false := by
  cases hs : s.contains n with
  | false => rfl
  | true =>
    obtain ⟨hrfirst, hrlast, -⟩ := bounds_of_contains hr
    obtain ⟨hsfirst, hslast, -⟩ := bounds_of_contains hs
    simp only [isApart, Bool.or_eq_true, Nat.ble_eq] at h
    obtain (h | h) | h := h
    · omega
    · omega
    · have hnot := List.all_eq_true.mp h n (mem_points hr)
      rw [hs] at hnot
      cases hnot

/-- Whether the shift of the run can lead into the other. -/
def meets (r s : Run) : Bool :=
  Nat.ble s.first (r.last + r.shift).toNat && Nat.ble (r.first + r.shift).toNat s.last

/-- Whether the shift of the run leads into one of the others from everywhere. -/
def leadsInto (r : Run) (runs : List Run) : Bool :=
  r.points.all fun n => (runs.filter r.meets).any (·.contains (n + r.shift).toNat)

theorem any_contains_of_leadsInto {r : Run} {runs : List Run} (h : r.leadsInto runs = true)
    {n : Nat} (hn : r.contains n = true) : runs.any (·.contains (n + r.shift).toNat) = true := by
  obtain ⟨s, hs, hcontains⟩ := List.any_eq_true.mp (List.all_eq_true.mp h n (mem_points hn))
  exact List.any_eq_true.mpr ⟨s, List.mem_of_mem_filter hs, hcontains⟩

end Run

/-! ## The tables -/

theorem isApart_runs : (capitalRuns.all fun r => smallRuns.all r.isApart) = true := by
  decide +kernel

theorem leadsInto_smallRuns :
    (capitalRuns.all fun r => r.shift == 0 || r.leadsInto smallRuns) = true := by
  decide +kernel

-- The code points of small letters are those of characters.
theorem toNat_ofNat_of_smallRuns {n : Nat} (h : smallRuns.any (·.contains n) = true) :
    (Char.ofNat n).toNat = n := by
  have hvalid : (smallRuns.all fun r =>
      decide (r.last < 0xD800) || decide (0xDFFF < r.first) && decide (r.last < 0x110000)) =
      true := by decide +kernel
  obtain ⟨r, hr, hcontains⟩ := List.any_eq_true.mp h
  obtain ⟨hfirst, hlast, -⟩ := Run.bounds_of_contains hcontains
  have hbounds := List.all_eq_true.mp hvalid r hr
  simp only [Bool.or_eq_true, Bool.and_eq_true, decide_eq_true_eq] at hbounds
  have hchar : n.isValidChar := by
    unfold Nat.isValidChar
    omega
  rw [Char.ofNat, dif_pos hchar]
  rfl

-- The capital letters without a small form are beyond ASCII.
theorem le_first_of_shift_eq_zero {r : Run} (hr : r ∈ capitalRuns) (h : r.shift = 0) :
    128 ≤ r.first := by
  have hall : (capitalRuns.all fun r => r.shift != 0 || decide (128 ≤ r.first)) = true := by
    decide +kernel
  have hor := List.all_eq_true.mp hall r hr
  rw [Bool.or_eq_true, decide_eq_true_eq, bne_iff_ne] at hor
  exact hor.resolve_left (not_not.mpr h)

theorem contains_of_capitalRun? {c : Char} {r : Run} (h : capitalRun? c = some r) :
    r ∈ capitalRuns ∧ r.contains c.toNat = true :=
  ⟨List.mem_of_find?_eq_some h, by simpa using List.find?_some h⟩

end LetterCase

open LetterCase

/-! ## Letters -/

theorem capitalRun?_of_isCapital {c : Char} (h : isCapital c = true) (hdot : c ≠ 'İ') :
    ∃ r, capitalRun? c = some r := by
  rw [isCapital, beq_eq_false_iff_ne.mpr hdot, Bool.false_or] at h
  exact Option.isSome_iff_exists.mp h

theorem isSmall_of_isCapital {c : Char} (h : isCapital c = true) : isSmall c = false := by
  by_cases hdot : c = 'İ'
  · rw [hdot]
    decide +kernel
  · obtain ⟨r, hr⟩ := capitalRun?_of_isCapital h hdot
    obtain ⟨hmem, hcontains⟩ := contains_of_capitalRun? hr
    refine List.any_eq_false.mpr fun s hs => ?_
    rw [Run.not_contains_of_isApart
      (List.all_eq_true.mp (List.all_eq_true.mp isApart_runs r hmem) s hs) hcontains]
    exact Bool.false_ne_true

theorem isCapital_of_isSmall {c : Char} (h : isSmall c = true) : isCapital c = false := by
  cases hc : isCapital c with
  | false => rfl
  | true => rw [isSmall_of_isCapital hc] at h; cases h

/-- Whether the character is a capital letter without a small form. -/
def isUnpaired (c : Char) : Bool := isCapital c && smallForm c == [c]

theorem isCapital_of_isUnpaired {c : Char} (h : isUnpaired c = true) : isCapital c = true :=
  (Bool.and_eq_true _ _ ▸ h).1

theorem smallForm_of_isUnpaired {c : Char} (h : isUnpaired c = true) : smallForm c = [c] :=
  beq_iff_eq.mp (Bool.and_eq_true _ _ ▸ h).2

/-- What the small form of a capital letter can be. -/
inductive HasSmallForm (c : Char) : Prop
  | unpaired (h : isUnpaired c = true) (hcode : 128 ≤ c.toNat)
  | dotted (h : c = 'İ')
  | paired {d : Char} (h : isUnpaired c = false) (hform : smallForm c = [d])
      (hsmall : isSmall d = true)

theorem hasSmallForm_of_isCapital {c : Char} (h : isCapital c = true) : HasSmallForm c := by
  by_cases hdot : c = 'İ'
  · exact .dotted hdot
  obtain ⟨r, hr⟩ := capitalRun?_of_isCapital h hdot
  obtain ⟨hmem, hcontains⟩ := contains_of_capitalRun? hr
  have hform : smallForm c = [Char.ofNat (c.toNat + r.shift).toNat] := by
    rw [smallForm, if_neg hdot, hr]
  have hleads := List.all_eq_true.mp leadsInto_smallRuns r hmem
  rw [Bool.or_eq_true, beq_iff_eq] at hleads
  rcases hleads with hshift | hleads
  · have hself : smallForm c = [c] := by
      rw [hform, hshift, Int.add_zero, Int.toNat_natCast, Char.ofNat_toNat]
    have hfirst := le_first_of_shift_eq_zero hmem hshift
    exact .unpaired (by rw [isUnpaired, h, hself, beq_self_eq_true]; rfl)
      (Nat.le_trans hfirst (Run.bounds_of_contains hcontains).1)
  · have hany := Run.any_contains_of_leadsInto hleads hcontains
    have hsmall : isSmall (Char.ofNat (c.toNat + r.shift).toNat) = true := by
      rw [isSmall, toNat_ofNat_of_smallRuns hany]
      exact hany
    refine .paired ?_ hform hsmall
    -- A letter that is its own small form would be capital and small.
    rw [isUnpaired, h, hform, Bool.true_and, beq_eq_false_iff_ne]
    intro hself
    rw [(List.cons.inj hself).1, isSmall_of_isCapital h] at hsmall
    cases hsmall

theorem isUnpaired_of_ascii {c : Char} (h : c.toNat < 128) : isUnpaired c = false := by
  cases hc : isUnpaired c with
  | false => rfl
  | true =>
    cases hasSmallForm_of_isCapital (isCapital_of_isUnpaired hc) with
    | unpaired _ hcode => omega
    | dotted hdot =>
      rw [hdot] at h
      exact absurd h (by decide)
    | paired hpaired => rw [hc] at hpaired; cases hpaired

-- The characters of a small form are no capitals, unless it is the capital itself.
theorem isCapital_of_mem_smallForm {c : Char} (h : isCapital c = true)
    (hpaired : isUnpaired c = false) : ∀ d ∈ smallForm c, isCapital d = false := by
  cases hasSmallForm_of_isCapital h with
  | unpaired hunpaired => rw [hunpaired] at hpaired; cases hpaired
  | dotted hdot =>
    have hdotted : ((smallForm 'İ').all fun d => !isCapital d) = true := by decide +kernel
    intro d hd
    rw [hdot] at hd
    simpa using List.all_eq_true.mp hdotted d hd
  | paired _ hform hsmall =>
    rw [hform]
    exact List.forall_mem_singleton.mpr (isCapital_of_isSmall hsmall)

end AnnotatedSchema
