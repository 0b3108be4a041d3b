import Mathlib.Tactic.FieldSimp
import Mathlib.Tactic.Positivity
import NycPropertyResolver.Domain.Numbers

/-!
# Domain — safe integers

The integers of the language up to `Number.MAX_SAFE_INTEGER` are doubles, so that a count that crosses
an interface as a decimal text is read back as the count (`toNumber_toDigits`).
-/

namespace NycPropertyResolver

/-! ### Doubles -/

theorem roundHalfEven_intCast (n : Int) : roundHalfEven (n : Rat) = n := by
  have hfloor : Rat.floor (n : Rat) = n := by simp
  simp [roundHalfEven]

theorem log2Floor_le {n : Nat} (h : n ≤ maxSafeInteger) : log2Floor (n : Rat) ≤ 52 := by
  have hlog : Nat.log2 n ≤ 52 := by
    rcases Nat.eq_zero_or_pos n with rfl | hpos
    · simp
    · have hlt : n < 2 ^ 53 := Nat.lt_of_le_of_lt h (by decide)
      exact Nat.lt_succ_iff.mp ((Nat.log2_lt hpos.ne').mpr hlt)
  have hone : Nat.log2 1 = 0 := by decide
  simp only [log2Floor, Rat.num_natCast, Int.natAbs_natCast, Rat.den_natCast, hone]
  split <;> omega

/-- Up to exponent 52 the unit in the last place divides one. -/
theorem exists_unit {e : Int} (h : e ≤ 52) :
    ∃ k : Nat, pow2 (max e (-1022) - 52) = 1 / (2 ^ k : Nat) := by
  rcases eq_or_lt_of_le h with rfl | hlt
  · exact ⟨0, by simp [pow2]⟩
  · refine ⟨(-(max e (-1022) - 52)).toNat, ?_⟩
    rw [pow2, if_neg (by omega)]

/-- **Safe integers are doubles.** -/
theorem roundToDouble_natCast {n : Nat} (h : n ≤ maxSafeInteger) :
    roundToDouble (n : Rat) = .finite n := by
  rcases Nat.eq_zero_or_pos n with rfl | hpos
  · simp [roundToDouble]
  obtain ⟨k, hunit⟩ := exists_unit (log2Floor_le h)
  have hne : (n : Rat) ≠ 0 := by exact_mod_cast hpos.ne'
  have hneg : ¬ (n : Rat) < 0 := not_lt.mpr (Nat.cast_nonneg n)
  have hpow : ((2 ^ k : Nat) : Rat) ≠ 0 := by positivity
  -- in units the integer is one still, and rounding leaves it
  have hscaled : (n : Rat) / (1 / ((2 ^ k : Nat) : Rat)) = ((n * 2 ^ k : Nat) : Int) := by
    rw [div_div_eq_mul_div, div_one]
    push_cast
    ring
  have hrounded : ((roundHalfEven ((n : Rat) / (1 / ((2 ^ k : Nat) : Rat))) : Int) : Rat) *
      (1 / ((2 ^ k : Nat) : Rat)) = n := by
    rw [hscaled, roundHalfEven_intCast]
    push_cast at hpow ⊢
    field_simp
  have hsmall : ¬ pow2 1024 ≤ (n : Rat) := by
    have hlt : n < 2 ^ (1024 : Int).toNat := calc
      n < 2 ^ 53 := Nat.lt_of_le_of_lt h (by decide)
      _ ≤ 2 ^ (1024 : Int).toNat := Nat.pow_le_pow_right (by decide) (by decide)
    rw [pow2, if_pos (by decide), not_le]
    exact Nat.cast_lt.mpr hlt
  simp only [roundToDouble, if_neg hne, if_neg hneg, hunit, hrounded, if_neg hsmall]

/-! ### Decimal texts -/

theorem digitsValue_toDigits (n : Nat) : digitsValue (Nat.toDigits 10 n) = n := by
  have hfold : digitsValue (Nat.toDigits 10 n) = Nat.ofDigitChars 10 (Nat.toDigits 10 n) 0 := by
    rw [Nat.ofDigitChars_eq_foldl]
    rfl
  rw [hfold, Nat.ofDigitChars_ten_toDigits]

theorem toDigits_all_isDigit (n : Nat) : (Nat.toDigits 10 n).all Char.isDigit = true :=
  List.all_eq_true.mpr fun _ hc => Nat.isDigit_of_mem_toDigits (by decide) (by decide) hc

theorem splitSign_of_digits {cs : List Char} (h : cs.all Char.isDigit = true) :
    splitSign cs = (false, cs) := by
  unfold splitSign
  split
  · simp at h
  · simp at h
  · rfl

theorem decimalLiteral_of_digits {cs : List Char} (hcs : cs ≠ []) (h : cs.all Char.isDigit = true) :
    decimalLiteral cs = some (digitsValue cs : Rat) := by
  have hall : ∀ c ∈ cs, c.isDigit = true := List.all_eq_true.mp h
  have hspan : cs.span Char.isDigit = (cs, []) := by
    rw [List.span_eq_takeWhile_dropWhile, List.takeWhile_eq_self_iff.mpr hall,
      List.dropWhile_eq_nil_iff.mpr hall]
  have hempty : cs.isEmpty = false := by simp [hcs]
  unfold decimalLiteral
  rw [hspan]
  simp [hempty, exponentPart, pow10]

/-- **The decimal text of a safe integer is read back as the integer.** -/
theorem toNumber_toDigits {n : Nat} (h : n ≤ maxSafeInteger) :
    toNumber (String.ofList (Nat.toDigits 10 n)) = .finite n := by
  have hdigits := toDigits_all_isDigit n
  have hne : Nat.toDigits 10 n ≠ [] := Nat.toDigits_ne_nil
  have hliteral := decimalLiteral_of_digits hne hdigits
  rw [digitsValue_toDigits] at hliteral
  unfold toNumber
  rw [String.toList_ofList, trimChars_of_digits hdigits]
  generalize Nat.toDigits 10 n = cs at *
  dsimp only
  split
  · exact absurd rfl hne
  -- a prefix has a letter
  · simp at hdigits
  · simp at hdigits
  · simp at hdigits
  · simp at hdigits
  · simp at hdigits
  · simp at hdigits
  · have hword : cs ≠ "Infinity".toList := by
      rintro rfl
      exact absurd hdigits (by decide)
    rw [splitSign_of_digits hdigits]
    dsimp only
    rw [if_neg hword, hliteral]
    exact roundToDouble_natCast h

end NycPropertyResolver
