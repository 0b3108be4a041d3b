import Mathlib.Data.List.DropRight
import Mathlib.Data.List.TakeWhile
import Mathlib.Data.String.Basic
import Mathlib.Order.Basic
import NycPropertyResolver.Library.SortedSet

/-!
# Domain — identifiers

`property-identifiers.schema.ts`: BINs (7 digits) and BBLs (10 digits).  A canonical identifier is a
`DigitString`, which carries its own length and digits, so that no later function re-checks either.
`filterValidBins` is the one function that turns the candidate texts of a lookup into the BIN set of
a property.
-/

namespace NycPropertyResolver

open Library

/-! ### JavaScript white space -/

/-- The characters `String.prototype.trim` removes and `\s` matches: the language's white space and
line terminators. -/
def isWhitespace (c : Char) : Bool :=
  (9 ≤ c.toNat && c.toNat ≤ 13) || c.toNat == 32 || c.toNat == 0xA0 || c.toNat == 0x1680 ||
    (0x2000 ≤ c.toNat && c.toNat ≤ 0x200A) || c.toNat == 0x2028 || c.toNat == 0x2029 ||
    c.toNat == 0x202F || c.toNat == 0x205F || c.toNat == 0x3000 || c.toNat == 0xFEFF

/-- `trim()`, on characters. -/
def trimChars (cs : List Char) : List Char :=
  (cs.dropWhile isWhitespace).rdropWhile isWhitespace

/-- `trim()`. -/
def trim (s : String) : String := String.ofList (trimChars s.toList)

/-- `value.trim().length === 0`. -/
def isBlank (s : String) : Bool := (trimChars s.toList).isEmpty

/-- `replace(/\s+/g, '')`, on characters. -/
def removeWhitespace (cs : List Char) : List Char := cs.filter fun c => !isWhitespace c

/-- A text is blank exactly when it holds nothing but white space. -/
theorem isBlank_iff {s : String} : isBlank s = true ↔ ∀ c ∈ s.toList, isWhitespace c = true := by
  rw [isBlank, List.isEmpty_iff, trimChars, List.rdropWhile_eq_nil_iff]
  constructor
  · intro h
    have hd : s.toList.dropWhile isWhitespace = [] := by
      cases e : s.toList.dropWhile isWhitespace with
      | nil => rfl
      | cons c cs =>
          have hc : isWhitespace c = true := h c (by simp [e])
          have hn := List.head_dropWhile_not isWhitespace (l := s.toList) (by simp [e])
          simp [e, hc] at hn
    exact List.dropWhile_eq_nil_iff.mp hd
  · intro h c hc
    exact h c (List.dropWhile_subset _ hc)

/-- A text that holds a character other than white space is not blank. -/
theorem not_isBlank_of_mem {s : String} {c : Char} (hc : c ∈ s.toList)
    (h : isWhitespace c = false) : isBlank s = false := by
  rw [Bool.eq_false_iff]
  intro hb
  simp [isBlank_iff.mp hb c hc] at h

/-! ### Digit strings -/

/-- A text of exactly `n` decimal digits. -/
structure DigitString (n : Nat) where
  text : String
  length_eq : text.toList.length = n
  digits : text.toList.all Char.isDigit = true

namespace DigitString

variable {n : Nat}

@[ext] theorem ext {a b : DigitString n} (h : a.text = b.text) : a = b := by
  cases a; cases b; cases h; rfl

instance : DecidableEq (DigitString n) := fun a b =>
  if h : a.text = b.text then isTrue (ext h) else isFalse fun e => h (e ▸ rfl)

/-- Canonical identifiers are ordered as their texts are. -/
instance : LinearOrder (DigitString n) := LinearOrder.lift' text fun _ _ h => ext h

/-- `.trim()`, `.replace(/\s+/g, '')` and the test against `/^\d{n}$/`. -/
def parse (n : Nat) (input : String) : Option (DigitString n) :=
  let cs := removeWhitespace (trimChars input.toList)
  if h : cs.length = n ∧ cs.all Char.isDigit = true then
    some ⟨String.ofList cs, by rw [String.toList_ofList]; exact h.1,
      by rw [String.toList_ofList]; exact h.2⟩
  else
    none

end DigitString

/-- A 7-digit NYC building identifier. -/
abbrev CanonicalBin := DigitString 7

instance : LawfulBEq CanonicalBin := inferInstance

/-- A 10-digit NYC parcel identifier. -/
abbrev CanonicalBbl := DigitString 10

/-- `canonicalizeBin`; `none` where the schema refuses the text. -/
def canonicalizeBin (input : String) : Option CanonicalBin := DigitString.parse 7 input

/-- `canonicalizeBbl`; `none` where the schema refuses the text. -/
def canonicalizeBbl (input : String) : Option CanonicalBbl := DigitString.parse 10 input

/-- `endsWith('000000')`: no building behind the number. -/
def isPlaceholderBin (bin : CanonicalBin) : Bool :=
  bin.text.toList.drop 1 = ['0', '0', '0', '0', '0', '0']

/-- The distinct canonical candidates that are no placeholders, sorted. -/
def filterValidBins (candidateBins : List String) : SortedSet CanonicalBin :=
  SortedSet.ofList ((candidateBins.filterMap canonicalizeBin).filter fun bin => !isPlaceholderBin bin)

theorem mem_filterValidBins {candidateBins : List String} {bin : CanonicalBin} :
    bin ∈ filterValidBins candidateBins ↔
      (∃ c ∈ candidateBins, canonicalizeBin c = some bin) ∧ isPlaceholderBin bin = false := by
  simp [filterValidBins, List.mem_filter, List.mem_filterMap]

/-- The order, the duplicates, the placeholders and the unreadable candidates are irrelevant. -/
theorem filterValidBins_congr {candidateBins candidateBins' : List String}
    (h : ∀ bin, isPlaceholderBin bin = false → ((∃ c ∈ candidateBins, canonicalizeBin c = some bin) ↔
      ∃ c ∈ candidateBins', canonicalizeBin c = some bin)) :
    filterValidBins candidateBins = filterValidBins candidateBins' := by
  refine SortedSet.ext_mem fun bin => ?_
  rw [mem_filterValidBins, mem_filterValidBins]
  constructor
  · rintro ⟨hc, hbin⟩
    exact ⟨(h bin hbin).mp hc, hbin⟩
  · rintro ⟨hc, hbin⟩
    exact ⟨(h bin hbin).mpr hc, hbin⟩

@[simp] theorem filterValidBins_nil : filterValidBins [] = SortedSet.empty :=
  SortedSet.ext_mem fun _ => by simp [mem_filterValidBins]

/-- The number a run of digits denotes: `Number.parseInt(text, 10)`. -/
def digitsValue (cs : List Char) : Nat := cs.foldl (fun n c => 10 * n + (c.toNat - 48)) 0

/-- `parseBblComponents`. -/
structure BblComponents where
  bbl : CanonicalBbl
  borough : Nat
  block : Nat
  lot : Nat

/-- `parseBblComponents`: the borough, the block and the lot of a BBL. -/
def parseBblComponents (bbl : CanonicalBbl) : BblComponents :=
  let cs := bbl.text.toList
  { bbl := bbl
    borough := digitsValue (cs.take 1)
    block := digitsValue ((cs.drop 1).take 5)
    lot := digitsValue ((cs.drop 6).take 4) }

/-! ### Canonical texts -/

theorem isWhitespace_of_isDigit {c : Char} (h : c.isDigit = true) : isWhitespace c = false := by
  have hc : 48 ≤ c.toNat ∧ c.toNat ≤ 57 := by
    simp only [Char.isDigit, Bool.and_eq_true, decide_eq_true_eq] at h
    exact ⟨h.1, h.2⟩
  simp only [isWhitespace, Bool.or_eq_false_iff, Bool.and_eq_false_iff, decide_eq_false_iff_not,
    beq_eq_false_iff_ne]
  omega

theorem dropWhile_isWhitespace_of_digits {cs : List Char} (h : cs.all Char.isDigit = true) :
    cs.dropWhile isWhitespace = cs := by
  cases cs with
  | nil => rfl
  | cons c cs =>
      rw [List.all_cons, Bool.and_eq_true] at h
      rw [List.dropWhile_cons_of_neg (by simp [isWhitespace_of_isDigit h.1])]

theorem trimChars_of_digits {cs : List Char} (h : cs.all Char.isDigit = true) :
    trimChars cs = cs := by
  have hr : cs.reverse.all Char.isDigit = true := by rwa [List.all_reverse]
  rw [trimChars, dropWhile_isWhitespace_of_digits h, List.rdropWhile,
    dropWhile_isWhitespace_of_digits hr, List.reverse_reverse]

theorem trim_text {n : Nat} (d : DigitString n) : trim d.text = d.text := by
  rw [trim, trimChars_of_digits d.digits, String.ofList_toList]

theorem removeWhitespace_of_digits {cs : List Char} (h : cs.all Char.isDigit = true) :
    removeWhitespace cs = cs := by
  rw [removeWhitespace, List.filter_eq_self]
  intro c hc
  rw [isWhitespace_of_isDigit (List.all_eq_true.mp h c hc), Bool.not_false]

theorem isEmpty_text {n : Nat} (hn : 0 < n) (d : DigitString n) : d.text.isEmpty = false := by
  rw [Bool.eq_false_iff]
  intro he
  have hlen := d.length_eq
  rw [String.isEmpty_iff.mp he] at hlen
  exact absurd hlen hn.ne

/-- **A canonical identifier is read back as itself.** -/
theorem DigitString.parse_text {n : Nat} (d : DigitString n) : DigitString.parse n d.text = some d := by
  have hcs : removeWhitespace (trimChars d.text.toList) = d.text.toList := by
    rw [trimChars_of_digits d.digits, removeWhitespace_of_digits d.digits]
  simp only [parse, hcs]
  rw [dif_pos ⟨d.length_eq, d.digits⟩]
  exact congrArg some (DigitString.ext (String.ofList_toList))

end NycPropertyResolver
