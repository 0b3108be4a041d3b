import Mathlib.Data.String.Basic

/-!
# Library — the case of ASCII letters

`Char.toLower` and `Char.toUpper` move ASCII letters and nothing else.  Whatever is asked of them comes
down to code points.
-/

namespace Library

variable {c d : Char}

theorem isUpper_iff : c.isUpper = true ↔ 65 ≤ c.toNat ∧ c.toNat ≤ 90 := by
  change decide (c.val ≥ 'A'.val ∧ c.val ≤ 'Z'.val) = true ↔ _
  simp [UInt32.le_iff_toNat_le]

theorem isLower_iff : c.isLower = true ↔ 97 ≤ c.toNat ∧ c.toNat ≤ 122 := by
  change (decide (c.val ≥ 'a'.val) && decide (c.val ≤ 'z'.val)) = true ↔ _
  simp [UInt32.le_iff_toNat_le]

theorem isDigit_iff : c.isDigit = true ↔ 48 ≤ c.toNat ∧ c.toNat ≤ 57 := by
  simp [Char.isDigit, UInt32.le_iff_toNat_le]

theorem isAlpha_iff : c.isAlpha = true ↔
    65 ≤ c.toNat ∧ c.toNat ≤ 90 ∨ 97 ≤ c.toNat ∧ c.toNat ≤ 122 := by
  change (c.isUpper || c.isLower) = true ↔ _
  rw [Bool.or_eq_true, isUpper_iff, isLower_iff]

theorem toNat_toLower (c : Char) :
    c.toLower.toNat = if 65 ≤ c.toNat ∧ c.toNat ≤ 90 then c.toNat + 32 else c.toNat := by
  unfold Char.toLower
  by_cases h : 65 ≤ c.toNat ∧ c.toNat ≤ 90
  · have hadd : ('a'.val - 'A'.val).toNat = 32 := by decide
    rw [if_pos h, dif_pos (by simpa [UInt32.le_iff_toNat_le] using h)]
    simp only [Char.toNat, UInt32.toNat_add] at h ⊢
    omega
  · rw [if_neg h, dif_neg (by simpa [UInt32.le_iff_toNat_le] using h)]

theorem toNat_toUpper (c : Char) :
    c.toUpper.toNat = if 97 ≤ c.toNat ∧ c.toNat ≤ 122 then c.toNat - 32 else c.toNat := by
  unfold Char.toUpper
  by_cases h : 97 ≤ c.toNat ∧ c.toNat ≤ 122
  · have hadd : ('A'.val - 'a'.val).toNat = 2 ^ 32 - 32 := by decide
    rw [if_pos h, dif_pos (by simpa [UInt32.le_iff_toNat_le] using h)]
    simp only [Char.toNat, UInt32.toNat_add] at h ⊢
    omega
  · rw [if_neg h, dif_neg (by simpa [UInt32.le_iff_toNat_le] using h)]

@[simp] theorem toLower_toLower (c : Char) : c.toLower.toLower = c.toLower := by
  refine Char.toNat_inj.mp ?_
  grind [toNat_toLower]

@[simp] theorem toLower_toUpper (c : Char) : c.toUpper.toLower = c.toLower := by
  refine Char.toNat_inj.mp ?_
  grind [toNat_toLower, toNat_toUpper]

@[simp] theorem toUpper_toLower (c : Char) : c.toLower.toUpper = c.toUpper := by
  refine Char.toNat_inj.mp ?_
  grind [toNat_toLower, toNat_toUpper]

@[simp] theorem toUpper_toUpper (c : Char) : c.toUpper.toUpper = c.toUpper := by
  refine Char.toNat_inj.mp ?_
  grind [toNat_toUpper]

@[simp] theorem isAlpha_toLower (c : Char) : c.toLower.isAlpha = c.isAlpha := by
  rw [Bool.eq_iff_iff, isAlpha_iff, isAlpha_iff]
  grind [toNat_toLower]

/-- Letters aside, `toLower` changes nothing. -/
theorem toLower_of_not_isAlpha (h : c.isAlpha = false) : c.toLower = c := by
  refine Char.toNat_inj.mp ?_
  rw [toNat_toLower, if_neg]
  intro hupper
  rw [isAlpha_iff.mpr (.inl hupper)] at h
  cases h

/-- Letters aside, `toUpper` changes nothing. -/
theorem toUpper_of_not_isAlpha (h : c.isAlpha = false) : c.toUpper = c := by
  refine Char.toNat_inj.mp ?_
  rw [toNat_toUpper, if_neg]
  intro hlower
  rw [isAlpha_iff.mpr (.inr hlower)] at h
  cases h

/-- **A class without letters does not see the case of a character.** -/
theorem comp_toLower {p : Char → Bool} (hp : ∀ c, c.isAlpha = true → p c = false) :
    (fun c : Char => p c.toLower) = p := by
  funext c
  by_cases h : c.isAlpha = true
  · rw [hp c h, hp c.toLower (by rw [isAlpha_toLower]; exact h)]
  · rw [toLower_of_not_isAlpha (by simpa using h)]

/-- Characters that are no letters are told apart in lower case. -/
theorem eq_of_toLower_eq (hd : d.isAlpha = false) (h : c.toLower = d) : c = d := by
  have hc : c.isAlpha = false := by rw [← isAlpha_toLower, h, hd]
  rwa [toLower_of_not_isAlpha hc] at h

theorem not_isDigit_of_isAlpha (h : c.isAlpha = true) : c.isDigit = false := by
  rw [Bool.eq_false_iff]
  intro hdigit
  have hrange := isAlpha_iff.mp h
  have hdigits := isDigit_iff.mp hdigit
  omega

end Library
