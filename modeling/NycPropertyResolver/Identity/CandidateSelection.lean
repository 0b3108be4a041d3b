import NycPropertyResolver.Domain.Numbers
import NycPropertyResolver.Identity.AddressNormalizer
import NycPropertyResolver.Library.StableSort

/-!
# Identity — the selection of a GeoSearch candidate

`selectGeoSearchCandidate` of `property-resolver.service.ts`: the candidates with a BBL are narrowed to
the requested borough, the requested street address and the address layer, sorted by confidence, label
and source id, and the first is taken, provided that all of them carry one BBL.

The comparator subtracts confidences, an absent one being minus infinity.  The difference of two absent
ones is not a number: it is returned, as it is not 0, and the sort takes it for a tie.  So label and
source id do not order candidates without confidence, and of these the first of the response is taken.
Selection is independent of the order of the response exactly when no such tie, nor one between an
absent and an empty source id, is for the first place (`selectGeoSearchCandidate_sameOutcome_iff`).
-/

namespace NycPropertyResolver

open Library

/-! ### The comparator -/

namespace JsNumber

/-- `left - right`.  The difference of two finite numbers is exact: rounded to a double it has the same
sign, which is all that a comparator gives away. -/
def sub : JsNumber → JsNumber → JsNumber
  | .finite left, .finite right => .finite (left - right)
  | .finite _, .infinity negative => .infinity (!negative)
  | .infinity negative, .finite _ => .infinity negative
  | .infinity negative, .infinity negative' => if negative = negative' then .nan else .infinity negative
  | _, _ => .nan

/-- `value > 0`. -/
def isPositive : JsNumber → Bool
  | .nan => false
  | .infinity negative => !negative
  | .finite value => decide (0 < value)

end JsNumber

/-- `localeCompare`, a total order that agrees with the equality of strings. -/
structure LocaleCompare where
  localeCompare : String → String → Int
  eq_iff : ∀ left right, localeCompare left right = 0 ↔ left = right
  neg_iff : ∀ left right, localeCompare left right < 0 ↔ 0 < localeCompare right left
  trans : ∀ {left middle right}, localeCompare left middle ≤ 0 → localeCompare middle right ≤ 0 →
    localeCompare left right ≤ 0

section Compare

variable (locale : LocaleCompare)

/-- `compareNullableStrings`: an absent text is compared as the empty one. -/
def compareNullableStrings (left right : Option String) : JsNumber :=
  let leftValue := left.getD ""
  let rightValue := right.getD ""
  .finite (locale.localeCompare leftValue rightValue)

/-- `compareNullableNumbers`: the greater first, with absent ones as `-Infinity`, whose difference
is NaN. -/
def compareNullableNumbers (left right : Option Rat) : JsNumber :=
  let leftValue := (left.map JsNumber.finite).getD (.infinity true)
  let rightValue := (right.map JsNumber.finite).getD (.infinity true)
  rightValue.sub leftValue

/-- The comparator of `sortGeoSearchCandidates`. -/
def compareGeoSearchCandidates (left right : GeoSearchCandidate) : JsNumber :=
  let confidenceCompare := compareNullableNumbers left.confidence right.confidence
  if confidenceCompare ≠ .finite 0 then
    confidenceCompare
  else
    let labelCompare := compareNullableStrings locale (some left.label) (some right.label)
    if labelCompare ≠ .finite 0 then labelCompare
    else compareNullableStrings locale left.sourceId right.sourceId

/-- `left` may stay in front of `right`: the comparator is not positive, or not a number, which `sort`
reads as 0. -/
def NotAfter (left right : GeoSearchCandidate) : Prop :=
  (compareGeoSearchCandidates locale left right).isPositive = false

instance : DecidableRel (NotAfter locale) := fun _ _ => inferInstanceAs (Decidable (_ = false))

/-- `sort` is stable. -/
def sortGeoSearchCandidates (candidates : List GeoSearchCandidate) : List GeoSearchCandidate :=
  candidates.insertionSort (NotAfter locale)

end Compare

/-! ### Evidence -/

/-- `STREET_TOKEN_ALIASES`. -/
def streetTokenAliases : List (List Char × List Char) :=
  [("AVE".toList, "AVENUE".toList), ("BLVD".toList, "BOULEVARD".toList), ("CT".toList, "COURT".toList),
    ("DR".toList, "DRIVE".toList), ("E".toList, "EAST".toList), ("HWY".toList, "HIGHWAY".toList),
    ("LN".toList, "LANE".toList), ("N".toList, "NORTH".toList), ("PKWY".toList, "PARKWAY".toList),
    ("PL".toList, "PLACE".toList), ("RD".toList, "ROAD".toList), ("S".toList, "SOUTH".toList),
    ("ST".toList, "STREET".toList), ("TPKE".toList, "TURNPIKE".toList), ("W".toList, "WEST".toList)]

/-- `\w`. -/
def isWordChar (c : Char) : Bool := c.isAlphanum || c == '_'

/-- `/\b(\d+)(?:ST|ND|RD|TH)\b/g`. -/
def streetOrdinalPattern : Regex Char Nat :=
  let suffix (text : String) : Regex Char Nat := .word (text.toList.map fun letter c => c == letter)
  .seq (.boundary isWordChar) (.seq (.group 1 digitsPattern)
    (.seq (.oneOf (suffix "ST") [suffix "ND", suffix "RD", suffix "TH"]) (.boundary isWordChar)))

/-- `/[^A-Z0-9-]+/g`. -/
def streetSeparatorPattern : Regex Char Nat :=
  .plus (.char fun c => !(c.isUpper || c.isDigit || c == '-'))

/-- `/[^A-Z]+/g`. -/
def localitySeparatorPattern : Regex Char Nat := .plus (.char fun c => !c.isUpper)

section Narrow

variable (mapping : CaseMapping)

/-- `normalizeStreetAddressEvidence`: a street address as it is compared, its words abbreviated
alike. -/
def normalizeStreetAddressEvidence (value : List Char) : List Char :=
  let upper := mapping.toUpperCase value
  let cardinal := Regex.replaceAll streetOrdinalPattern (fun m => (m.captured 1).getD []) upper
  let spaced := Regex.replaceAll streetSeparatorPattern (fun _ => [' ']) cardinal
  let tokens := Regex.splitAll whitespacePattern (trimChars spaced)
  [' '].intercalate (tokens.map fun token => (streetTokenAliases.lookup token).getD token)

/-- The boroughs a request may name. -/
def boroughs : List String := ["STATEN ISLAND", "MANHATTAN", "BROOKLYN", "QUEENS", "BRONX"]

/-- The borough that the request names after a comma, if any. -/
def requestedBorough (normalizedBaseAddress : String) : Option String :=
  (normalizedBaseAddress.toList.splitOn ',').tail.findSome? fun localitySegment =>
    let normalizedSegment := trimChars (Regex.replaceAll localitySeparatorPattern (fun _ => [' '])
      (mapping.toUpperCase localitySegment))
    boroughs.find? fun candidate => candidate.toList == normalizedSegment

/-- The street address of a candidate: its name, or its label up to the first comma. -/
def candidateStreetAddress (candidate : GeoSearchCandidate) : List Char :=
  (candidate.name.map String.toList).getD ((candidate.label.toList.splitOn ',').headD [])

/-- `candidate.borough?.trim().toUpperCase() === borough`. -/
def isInBorough (borough : String) (candidate : GeoSearchCandidate) : Bool :=
  (candidate.borough.map fun text => mapping.toUpperCase (trimChars text.toList)) == some borough.toList

/-- The street address of the candidate is the requested one. -/
def hasStreetAddress (normalizedBaseAddress : String) (candidate : GeoSearchCandidate) : Bool :=
  normalizeStreetAddressEvidence mapping (candidateStreetAddress candidate) ==
    normalizeStreetAddressEvidence mapping ((normalizedBaseAddress.toList.splitOn ',').headD [])

/-- The candidate is an address, not a place or a street. -/
def isAddressLayer (candidate : GeoSearchCandidate) : Bool := candidate.layer == "address"

/-- The candidates that match, if there are any. -/
def preferring (p : GeoSearchCandidate → Bool) (supported : List GeoSearchCandidate) :
    List GeoSearchCandidate :=
  if (supported.filter p).isEmpty then supported else supported.filter p

/-- The error of a request whose borough no candidate is in. -/
def geoSearchBoroughMissing : IdentityError :=
  .app "RESOLVER_GEOSEARCH_AMBIGUOUS"
    "GeoSearch returned no parcel candidate matching the requested borough" 422

/-- The candidates in the requested borough; among them those at the street address, then addresses,
if there are any. -/
def narrowToSupportedCandidates (candidates : List GeoSearchCandidate)
    (normalizedBaseAddress : String) : Except IdentityError (List GeoSearchCandidate) := do
  let supported ← match requestedBorough mapping normalizedBaseAddress with
    | none => .ok candidates
    | some borough =>
      let boroughMatches := candidates.filter (isInBorough mapping borough)
      if boroughMatches.isEmpty then .error geoSearchBoroughMissing else .ok boroughMatches
  .ok (preferring isAddressLayer
    (preferring (hasStreetAddress mapping normalizedBaseAddress) supported))

/-! ### Selection -/

/-- The error of candidates without a BBL. -/
def geoSearchNoIdentifiers : IdentityError :=
  .app "RESOLVER_GEOSEARCH_NO_IDENTIFIERS" "GeoSearch returned no candidates with a usable BBL" 422

/-- The error of candidates that disagree on the BBL. -/
def geoSearchConflict : IdentityError :=
  .app "RESOLVER_GEOSEARCH_AMBIGUOUS"
    "GeoSearch returned multiple conflicting parcel candidates for the base address" 422

variable (locale : LocaleCompare)

/-- `assertValidBbl(candidate.bbl!)`. -/
def candidateBbl (candidate : GeoSearchCandidate) : Except IdentityError CanonicalBbl :=
  assertValidBbl (candidate.bbl.getD "")

/-- `selectGeoSearchCandidate`, from the candidate pool on. -/
def selectFromPool (candidatePool : List GeoSearchCandidate) :
    Except IdentityError SelectedGeoSearchCandidate := do
  let sorted := sortGeoSearchCandidates locale candidatePool
  let bbls ← sorted.mapM candidateBbl
  if bbls.dedup.length > 1 then
    .error geoSearchConflict
  else
    match sorted with
    | [] => .error .typeError
    | selected :: _ => (candidateBbl selected).map fun canonicalBbl => ⟨selected, canonicalBbl⟩

/-- `selectGeoSearchCandidate`: the candidate a request is resolved to. -/
def selectGeoSearchCandidate (candidates : List GeoSearchCandidate) (normalizedBaseAddress : String) :
    Except IdentityError SelectedGeoSearchCandidate := do
  let withBbl := candidates.filter fun candidate => candidate.bbl.isSome
  if withBbl.isEmpty then
    .error geoSearchNoIdentifiers
  else
    let candidatePool ← narrowToSupportedCandidates mapping withBbl normalizedBaseAddress
    selectFromPool locale candidatePool

/-- Addresses as the resolver reads them. -/
def addressRules : AddressRules where
  normalizeAddress := normalizeAddress mapping
  selectGeoSearchCandidate := selectGeoSearchCandidate mapping locale

end Narrow

end NycPropertyResolver
