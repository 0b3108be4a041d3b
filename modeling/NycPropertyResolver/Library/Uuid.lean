import Mathlib.Data.List.SplitLengths
import NycPropertyResolver.Library.Json

/-!
# Library — UUIDs

A UUID is a number below 2^128; its text is its 32 hexadecimal digits in five groups.  It is written in
lower case and read in either; reading inverts writing (`parseUuid_uuidText`).
-/

namespace Library

/-! ### Digits -/

/-- The last `width` hexadecimal digits of a number. -/
def hexText : Nat → Nat → List Char
  | 0, _ => []
  | width + 1, n => hexText width (n / 16) ++ [jsonHexDigit (n % 16)]

/-- The number of hexadecimal digits. -/
def parseHex (digits : List Char) : Option Nat :=
  digits.foldlM (fun n c => (hexValue c).map fun d => 16 * n + d) 0

theorem length_hexText (width n : Nat) : (hexText width n).length = width := by
  induction width generalizing n with
  | zero => rfl
  | succ width ih => rw [hexText, List.length_append, ih, List.length_singleton]

theorem parseHex_hexText (width n : Nat) : parseHex (hexText width n) = some (n % 16 ^ width) := by
  induction width generalizing n with
  | zero => rw [Nat.pow_zero, Nat.mod_one]; rfl
  | succ width ih =>
      have hrest := ih (n / 16)
      have hdigit := hexValue_hexDigit (n := n % 16) (Nat.mod_lt n (by decide))
      have hmod : 16 * (n / 16 % 16 ^ width) + n % 16 = n % 16 ^ (width + 1) := by
        rw [Nat.pow_succ', Nat.mod_mul, Nat.add_comm]
      rw [parseHex] at hrest ⊢
      rw [hexText, List.foldlM_append, hrest, ← hmod]
      simp [hdigit]

/-- No digit is a hyphen. -/
theorem not_mem_hexText (width n : Nat) : '-' ∉ hexText width n := by
  induction width generalizing n with
  | zero => exact List.not_mem_nil
  | succ width ih =>
      have hdigit : ∀ d < 16, '-' ≠ jsonHexDigit d := by decide
      rw [hexText, List.mem_append, List.mem_singleton, not_or]
      exact ⟨ih (n / 16), hdigit _ (Nat.mod_lt n (by decide))⟩

/-! ### Texts -/

/-- The lengths of the groups. -/
def uuidGroups : List Nat := [8, 4, 4, 4, 12]

/-- The text of a UUID: its digits, in groups. -/
def uuidText (n : Nat) : String :=
  String.ofList (['-'].intercalate (uuidGroups.splitLengths (hexText 32 n)))

/-- Five groups of hexadecimal digits of either case. -/
def parseUuid (text : String) : Option Nat :=
  let groups := text.toList.splitOn '-'
  if groups.map List.length = uuidGroups then parseHex groups.flatten else none

/-- **Reading inverts writing.** -/
theorem parseUuid_uuidText {n : Nat} (h : n < 2 ^ 128) : parseUuid (uuidText n) = some n := by
  have hsum : uuidGroups.sum = (hexText 32 n).length := (length_hexText 32 n).symm
  have hflatten := List.flatten_splitLengths (hexText 32 n) uuidGroups hsum.ge
  have hsplit : (uuidText n).toList.splitOn '-' = uuidGroups.splitLengths (hexText 32 n) := by
    rw [uuidText, String.toList_ofList]
    refine List.splitOn_intercalate _ (fun group hgroup hmem => not_mem_hexText 32 n ?_) (by simp [uuidGroups])
    rw [← hflatten]
    exact List.mem_flatten.mpr ⟨group, hgroup, hmem⟩
  have hvalue : n % 16 ^ 32 = n := Nat.mod_eq_of_lt (lt_of_lt_of_eq h (by decide))
  simp only [parseUuid, hsplit, List.map_splitLengths_length _ _ hsum.le, if_true, hflatten,
    parseHex_hexText, hvalue]

/-- The case of a text is no part of it. -/
example : parseUuid "00000000-0000-4000-8000-00000000ABCD" =
    parseUuid "00000000-0000-4000-8000-00000000abcd" := by decide +kernel

end Library
