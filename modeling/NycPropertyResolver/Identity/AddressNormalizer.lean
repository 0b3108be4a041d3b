import NycPropertyResolver.Identity.Registration
import NycPropertyResolver.Library.Regex

/-!
# Identity — address normalization

`address-normalizer.ts`: an address input becomes a base address, a unit designation and the text under
which its resolution is stored.  Texts are lists of characters, and the patterns of the source are
expressions over them.  The tables of `toUpperCase` and `toLowerCase` are the language's
(`CaseMapping`); of a pattern that ignores case, a letter of `[A-Za-z]` matches its two cases alone.
-/

namespace NycPropertyResolver

open Library

/-! ### Upper case and lower case -/

/-- An ASCII character, an en dash or an em dash. -/
def isAddressChar (c : Char) : Bool := c.toNat < 128 || c == '–' || c == '—'

/-- A text of such characters. -/
def AddressText (text : List Char) : Prop := ∀ c ∈ text, isAddressChar c = true

instance (text : List Char) : Decidable (AddressText text) :=
  decidable_of_iff (text.all isAddressChar = true) List.all_eq_true

/-- `toUpperCase` and `toLowerCase`; on address text they are those of ASCII. -/
structure CaseMapping where
  toUpperCase : List Char → List Char
  toLowerCase : List Char → List Char
  toUpperCase_address : ∀ {text}, AddressText text → toUpperCase text = text.map Char.toUpper
  toLowerCase_address : ∀ {text}, AddressText text → toLowerCase text = text.map Char.toLower

/-- The case mapping of ASCII. -/
def CaseMapping.ascii : CaseMapping where
  toUpperCase text := text.map Char.toUpper
  toLowerCase text := text.map Char.toLower
  toUpperCase_address _ := rfl
  toLowerCase_address _ := rfl

/-! ### Patterns -/

/-- `[A-Za-z0-9-]`. -/
def isUnitValueChar (c : Char) : Bool := c.isAlphanum || c == '-'

/-- A letter in either case. -/
def ignoringCase (letter : Char) : Char → Bool := fun c => c.toLower == letter

/-- The names of the groups. -/
inductive UnitGroup where
  | keyword
  | keywordValue
  | hashValue
  deriving DecidableEq

/-- A pattern over characters, with the groups of a unit designator. -/
abbrev AddressPattern := Regex Char UnitGroup

/-- `\s`. -/
def whitespaceClass : AddressPattern := .char isWhitespace

/-- `/\s+/g`. -/
def whitespacePattern : AddressPattern := whitespaceClass.plus

/-- A text in either case. -/
def textIgnoringCase (text : List Char) : AddressPattern := .word (text.map ignoringCase)

/-- `apt|apartment|unit|suite|ste|floor|fl`. -/
def unitKeywordPattern : AddressPattern :=
  .oneOf (textIgnoringCase "apt".toList)
    [textIgnoringCase "apartment".toList, textIgnoringCase "unit".toList,
      textIgnoringCase "suite".toList, textIgnoringCase "ste".toList,
      textIgnoringCase "floor".toList, textIgnoringCase "fl".toList]

/-- `[A-Za-z0-9][A-Za-z0-9-]*`. -/
def unitValuePattern : AddressPattern :=
  .seq (.char Char.isAlphanum) (.star (.char isUnitValueChar))

/-- `(?<keyword>…)\.?\s+(?<keywordValue>…)`. -/
def keywordUnitPattern : AddressPattern :=
  .seq (.group .keyword unitKeywordPattern)
    (.seq (.optional (.char (· == '.')))
      (.seq whitespaceClass.plus (.group .keywordValue unitValuePattern)))

/-- `#\s*(?<hashValue>…)`. -/
def hashUnitPattern : AddressPattern :=
  .seq (.char (· == '#')) (.seq (.star whitespaceClass) (.group .hashValue unitValuePattern))

/-- `UNIT_DESIGNATOR_PATTERN`. -/
def unitDesignatorPattern : AddressPattern :=
  .seq whitespaceClass.plus
    (.seq (.alt keywordUnitPattern hashUnitPattern) (.seq (.star whitespaceClass) .atEnd))

/-- `UNIT_ONLY_PATTERN`. -/
def unitOnlyPattern : AddressPattern := .seq .atStart (.seq keywordUnitPattern .atEnd)

/-- `\d+`. -/
def digitsPattern {γ : Type} : Regex Char γ := .plus (.char Char.isDigit)

/-- `ORDINAL_PATTERN`. -/
def ordinalPattern : AddressPattern :=
  .seq .atStart (.seq digitsPattern (.seq
    (.oneOf (textIgnoringCase "st".toList)
      [textIgnoringCase "nd".toList, textIgnoringCase "rd".toList, textIgnoringCase "th".toList])
    .atEnd))

/-- `QUEENS_HOUSE_NUMBER_PATTERN`. -/
def queensHouseNumberPattern : AddressPattern :=
  .seq .atStart (.seq digitsPattern (.seq (.char (· == '-')) (.seq digitsPattern .atEnd)))

/-- `HAS_ALPHANUMERIC_PATTERN`. -/
def hasAlphanumericPattern : AddressPattern := .char Char.isAlphanum

/-- `/^\d+$/`. -/
def allDigitsPattern : AddressPattern := .seq .atStart (.seq digitsPattern .atEnd)

/-- `/^(\d+)([A-Za-z]+)$/`. -/
def digitsLettersPattern : Regex Char Nat :=
  .seq .atStart (.seq (.group 1 digitsPattern)
    (.seq (.group 2 (.plus (.char Char.isAlpha))) .atEnd))

/-! ### Tokens -/

/-- `collapseWhitespace`: one blank for every run of them, none at the ends. -/
def collapseWhitespace (value : List Char) : List Char :=
  Regex.replaceAll whitespacePattern (fun _ => [' ']) (trimChars value)

/-- `\u2013|\u2014`. -/
def isDash (c : Char) : Bool := c == '–' || c == '—'

/-- `normalizeHyphenatedHouseNumber`: every dash as a hyphen. -/
def normalizeHyphenatedHouseNumber (value : List Char) : List Char :=
  value.map fun c => if isDash c then '-' else c

section Normalize

variable (mapping : CaseMapping)

/-- The letters after the digits in upper case, where the text is of that form. -/
def upperSuffix? (text : List Char) : Option (List Char) :=
  (Regex.exec digitsLettersPattern text).map fun m =>
    (m.stop.captured 1).getD [] ++ mapping.toUpperCase ((m.stop.captured 2).getD [])

/-- `charAt(0).toUpperCase() + slice(1).toLowerCase()`.  Of a first character outside the basic plane,
`charAt` is a half, which has no case. -/
def capitalize : List Char → List Char
  | [] => []
  | c :: rest =>
    (if c.toNat < 0x10000 then mapping.toUpperCase [c] else [c]) ++ mapping.toLowerCase rest

/-- `normalizeAddressToken`: numbers as they are, ordinals in lower case, the letters after a number in
upper case, and other words capitalized. -/
def normalizeAddressToken (token : List Char) : List Char :=
  let normalizedToken := normalizeHyphenatedHouseNumber token
  if Regex.test queensHouseNumberPattern normalizedToken then
    normalizedToken
  else if Regex.test allDigitsPattern normalizedToken then
    normalizedToken
  else if Regex.test ordinalPattern normalizedToken then
    mapping.toLowerCase normalizedToken
  else
    match upperSuffix? mapping normalizedToken with
    | some houseNumberWithSuffix => houseNumberWithSuffix
    | none => capitalize mapping normalizedToken

/-- `normalizeAddressTokens`: token by token. -/
def normalizeAddressTokens (value : List Char) : List Char :=
  [' '].intercalate (((collapseWhitespace value).splitOn ' ').map (normalizeAddressToken mapping))

/-- `normalizeUnitValue`: the value of a unit, in upper case. -/
def normalizeUnitValue (value : List Char) : List Char :=
  let trimmed := trimChars value
  match upperSuffix? mapping trimmed with
  | some alphaSuffix => alphaSuffix
  | none =>
    if mapping.toUpperCase trimmed = trimmed ∧ mapping.toLowerCase trimmed ≠ trimmed then trimmed
    else mapping.toUpperCase trimmed

/-! ### Units -/

/-- The keywords of a unit designator, in their canonical form. -/
inductive UnitKeyword where
  | apt
  | unit
  | ste
  | fl
  | hash
  deriving DecidableEq

/-- How a keyword is written. -/
def UnitKeyword.text : UnitKeyword → List Char
  | .apt => "Apt".toList
  | .unit => "Unit".toList
  | .ste => "Ste".toList
  | .fl => "Fl".toList
  | .hash => "#".toList

/-- `UnitMatch`: a keyword and its value. -/
structure UnitMatch where
  keyword : UnitKeyword
  value : List Char
  deriving DecidableEq

/-- `canonicalUnitKeyword`: the keyword a word stands for. -/
def canonicalUnitKeyword (keyword : List Char) : UnitKeyword :=
  let lower := mapping.toLowerCase keyword
  if lower = "apt".toList ∨ lower = "apartment".toList then .apt
  else if lower = "unit".toList then .unit
  else if lower = "suite".toList ∨ lower = "ste".toList then .ste
  else if lower = "floor".toList ∨ lower = "fl".toList then .fl
  else .apt

/-- A group that has captured a text other than the empty one. -/
def capturedText? (m : Regex.Match Char UnitGroup) (group : UnitGroup) : Option (List Char) :=
  (m.stop.captured group).filter (!·.isEmpty)

/-- The unit after a base address. -/
def extractTrailingUnit (value : List Char) : List Char × Option UnitMatch :=
  match Regex.exec unitDesignatorPattern value with
  | none => (value, none)
  | some m =>
    match ((m.stop.captured .keywordValue).or (m.stop.captured .hashValue)).filter (!·.isEmpty) with
    | none => (value, none)
    | some rawValue =>
      let keyword := ((capturedText? m .keyword).map (canonicalUnitKeyword mapping)).getD .hash
      (trimChars m.before, some ⟨keyword, normalizeUnitValue mapping rawValue⟩)

/-- `extractUnitDesignator`: what remains of the address, and the unit taken off it. -/
def extractUnitDesignator (value : List Char) : List Char × Option UnitMatch :=
  match (Regex.exec unitOnlyPattern value).bind fun m =>
      (capturedText? m .keyword).bind fun keyword =>
        (capturedText? m .keywordValue).map fun keywordValue =>
          (⟨canonicalUnitKeyword mapping keyword, normalizeUnitValue mapping keywordValue⟩ :
            UnitMatch) with
  | some unit => ([], some unit)
  | none => extractTrailingUnit mapping value

/-- `formatUnitSegment`: the keyword, a blank and the value. -/
def formatUnitSegment (unit : UnitMatch) : List Char := unit.keyword.text ++ ' ' :: unit.value

/-! ### Addresses -/

/-- The error of an address that is refused. -/
def invalidAddressInput (message : String) : IdentityError :=
  .app "INVALID_ADDRESS_INPUT" message 400

/-- `assertValidAddressInput`: an address has a letter or a digit. -/
def assertValidAddressInput (input : List Char) : Except IdentityError Unit :=
  let collapsed := collapseWhitespace input
  if collapsed.isEmpty then
    .error (invalidAddressInput "Address input must not be empty")
  else if !Regex.test hasAlphanumericPattern collapsed then
    .error (invalidAddressInput "Address input must contain at least one alphanumeric character")
  else
    .ok ()

/-- `assertValidBaseAddress`: so has what remains without the unit. -/
def assertValidBaseAddress (baseAddress : List Char) : Except IdentityError Unit :=
  if baseAddress.isEmpty || !Regex.test hasAlphanumericPattern baseAddress then
    .error (invalidAddressInput "Address input must include a base street address")
  else
    .ok ()

/-- `normalizeAddress`. -/
def normalizeAddress (input : String) : Except IdentityError AddressNormalizationResult := do
  assertValidAddressInput input.toList
  let collapsed := collapseWhitespace input.toList
  let (baseAddress, unit) := extractUnitDesignator mapping collapsed
  let normalizedBaseAddress := normalizeAddressTokens mapping baseAddress
  assertValidBaseAddress normalizedBaseAddress
  let normalizedInput := match unit with
    | some unit => normalizedBaseAddress ++ ' ' :: formatUnitSegment unit
    | none => normalizedBaseAddress
  .ok { normalizedBaseAddress := String.ofList normalizedBaseAddress
        normalizedUnitDesignation := unit.map fun unit => String.ofList unit.value
        normalizedInput := String.ofList normalizedInput }

end Normalize

end NycPropertyResolver
