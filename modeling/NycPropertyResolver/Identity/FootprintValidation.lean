import NycPropertyResolver.Identity.PropertyIdentity

/-!
# Identity — footprint validation

`footprint-validation.ts`: which Building Footprints candidates belong to a parcel, and the BINs of
those that do.  What the BIN set of a parcel depends on is one test on each candidate
(`validateFootprintCandidate`).
-/

namespace NycPropertyResolver

open Library

/-- Whether footprints are checked for a parcel of its own or for a condominium. -/
inductive FootprintValidationMode where
  | nonCondo
  | condo
  deriving DecidableEq, Repr

/-- Why a footprint is rejected. -/
inductive FootprintValidationFailureReason where
  | mapplutoBblMismatch
  | baseBblMismatch
  deriving DecidableEq, Repr

/-- A candidate of a lookup.  `mapplutoBbl` is absent, null or a BBL. -/
structure BuildingFootprintCandidate where
  bin : CanonicalBin
  baseBbl : CanonicalBbl
  mapplutoBbl : Option (Option CanonicalBbl)
  deriving DecidableEq

/-- A footprint that is accepted, and its BIN. -/
structure ValidatedFootprintCandidate where
  candidate : BuildingFootprintCandidate
  bin : CanonicalBin

/-- A footprint that is rejected, and why. -/
structure RejectedFootprintCandidate where
  candidate : BuildingFootprintCandidate
  reason : FootprintValidationFailureReason

/-- The footprints accepted and rejected, each in the order they came. -/
structure FootprintValidationResult where
  accepted : List ValidatedFootprintCandidate
  rejected : List RejectedFootprintCandidate

/-- `validateFootprintCandidate`: evidence of the parcel decides, and without it the base parcel. -/
def validateFootprintCandidate (candidate : BuildingFootprintCandidate) (canonicalBbl : CanonicalBbl)
    (mode : FootprintValidationMode) :
    Except FootprintValidationFailureReason ValidatedFootprintCandidate :=
  match candidate.mapplutoBbl with
  | some none =>
    if mode = .condo then
      .error .mapplutoBblMismatch
    else if candidate.baseBbl ≠ canonicalBbl then
      .error .baseBblMismatch
    else
      .ok ⟨candidate, candidate.bin⟩
  | some (some mapplutoBbl) =>
    if mapplutoBbl ≠ canonicalBbl then .error .mapplutoBblMismatch else .ok ⟨candidate, candidate.bin⟩
  | none =>
    if candidate.baseBbl ≠ canonicalBbl then
      .error .baseBblMismatch
    else
      .ok ⟨candidate, candidate.bin⟩

/-- `validateFootprintCandidates`: every candidate on its own. -/
def validateFootprintCandidates (candidates : List BuildingFootprintCandidate)
    (canonicalBbl : CanonicalBbl) (mode : FootprintValidationMode) : FootprintValidationResult :=
  match candidates with
  | [] => ⟨[], []⟩
  | candidate :: candidates =>
    let rest := validateFootprintCandidates candidates canonicalBbl mode
    match validateFootprintCandidate candidate canonicalBbl mode with
    | .error reason => { rest with rejected := ⟨candidate, reason⟩ :: rest.rejected }
    | .ok validated => { rest with accepted := validated :: rest.accepted }

/-- `collectValidatedBins`: the BINs of the accepted footprints. -/
def collectValidatedBins (validationResult : FootprintValidationResult) : SortedSet CanonicalBin :=
  filterValidBins (validationResult.accepted.map (·.bin.text))

/-- Passes where there is no GeoSearch BIN, none to compare it with, or one that is malformed. -/
def assertGeoSearchBinCorroboratesFootprints (geosearchBin : Option String)
    (validatedBins : SortedSet CanonicalBin) : Except IdentityError Unit :=
  match geosearchBin with
  | none => .ok ()
  | some bin =>
    if validatedBins.size = 0 then
      .ok ()
    else
      match canonicalizeBin bin with
      | none => .ok ()
      | some canonicalGeoSearchBin =>
        if canonicalGeoSearchBin ∈ validatedBins then
          .ok ()
        else
          .error (.app "RESOLVER_GEOSEARCH_BIN_CONFLICT"
            "GeoSearch BIN contradicts the validated Building Footprints mapping for the canonical parcel"
            422)

/-- `assertFootprintIdentifierAgreement`: rejected footprints are an error if none is accepted. -/
def assertFootprintIdentifierAgreement (validationResult : FootprintValidationResult)
    (requireAcceptedCandidate : Bool) : Except IdentityError Unit :=
  if validationResult.accepted.length > 0 then
    .ok ()
  else if validationResult.rejected.any fun entry => entry.reason = .mapplutoBblMismatch then
    .error (.app "RESOLVER_FOOTPRINT_MAPPLUTO_BBL_MISMATCH"
      "Building Footprints MAPPLUTO_BBL does not match the canonical parcel BBL" 422)
  else if validationResult.rejected.any fun entry => entry.reason = .baseBblMismatch then
    .error (.app "RESOLVER_FOOTPRINT_BASE_BBL_MISMATCH"
      "Building Footprints BASE_BBL does not match the canonical parcel BBL" 422)
  else if requireAcceptedCandidate then
    .error (.app "RESOLVER_FOOTPRINT_NOT_FOUND"
      "Building Footprints returned no candidates for the canonical parcel" 422)
  else
    .ok ()

/-! ### The BIN set of a parcel -/

/-- The candidate belongs to the parcel. -/
def isAccepted (canonicalBbl : CanonicalBbl) (mode : FootprintValidationMode)
    (candidate : BuildingFootprintCandidate) : Bool :=
  (validateFootprintCandidate candidate canonicalBbl mode).isOk

/-- The valid BINs of the accepted candidates. -/
def acceptedBins (candidates : List BuildingFootprintCandidate) (canonicalBbl : CanonicalBbl)
    (mode : FootprintValidationMode) : SortedSet CanonicalBin :=
  SortedSet.ofList (((candidates.filter (isAccepted canonicalBbl mode)).map (·.bin)).filter
    fun bin => !isPlaceholderBin bin)

theorem filterValidBins_text (bins : List CanonicalBin) :
    filterValidBins (bins.map (·.text)) =
      SortedSet.ofList (bins.filter fun bin => !isPlaceholderBin bin) := by
  have h : ((bins.map (·.text)).filterMap canonicalizeBin) = bins := by
    rw [List.filterMap_map]
    have e : (canonicalizeBin ∘ fun bin : CanonicalBin => bin.text) = some := by
      funext bin
      exact bin.parse_text
    rw [e, List.filterMap_some]
  rw [filterValidBins, h]

/-- A validated candidate keeps its BIN. -/
theorem bin_of_validate {candidate : BuildingFootprintCandidate} {canonicalBbl : CanonicalBbl}
    {mode : FootprintValidationMode} {validated : ValidatedFootprintCandidate}
    (h : validateFootprintCandidate candidate canonicalBbl mode = .ok validated) :
    validated.bin = candidate.bin := by
  rw [validateFootprintCandidate] at h
  split at h
  · split at h
    · cases h
    · split at h
      · cases h
      · cases h
        rfl
  · split at h
    · cases h
    · cases h
      rfl
  · split at h
    · cases h
    · cases h
      rfl

/-- The accepted candidates are those that pass the test, in their order. -/
theorem accepted_bins (candidates : List BuildingFootprintCandidate) (canonicalBbl : CanonicalBbl)
    (mode : FootprintValidationMode) :
    (validateFootprintCandidates candidates canonicalBbl mode).accepted.map (·.bin) =
      (candidates.filter (isAccepted canonicalBbl mode)).map (·.bin) := by
  induction candidates with
  | nil => rfl
  | cons candidate candidates ih =>
      have hacc : isAccepted canonicalBbl mode candidate =
          (validateFootprintCandidate candidate canonicalBbl mode).isOk := rfl
      rw [List.filter_cons, hacc]
      cases h : validateFootprintCandidate candidate canonicalBbl mode with
      | error reason => simpa [validateFootprintCandidates, h, Except.isOk, Except.toBool] using ih
      | ok validated =>
          simp [validateFootprintCandidates, h, Except.isOk, Except.toBool, ih, bin_of_validate h]

/-- **The collected BINs are the valid BINs of the accepted candidates.** -/
theorem collectValidatedBins_eq (candidates : List BuildingFootprintCandidate)
    (canonicalBbl : CanonicalBbl) (mode : FootprintValidationMode) :
    collectValidatedBins (validateFootprintCandidates candidates canonicalBbl mode) =
      acceptedBins candidates canonicalBbl mode := by
  rw [collectValidatedBins, acceptedBins, ← accepted_bins, ← filterValidBins_text, List.map_map]
  rfl

/-- No BIN of a parcel is a placeholder. -/
theorem not_isPlaceholderBin_of_mem {candidates : List BuildingFootprintCandidate}
    {canonicalBbl : CanonicalBbl} {mode : FootprintValidationMode} {bin : CanonicalBin}
    (h : bin ∈ acceptedBins candidates canonicalBbl mode) : isPlaceholderBin bin = false := by
  rw [acceptedBins, SortedSet.mem_ofList, List.mem_filter] at h
  simpa using h.2

/-- The BINs of a parcel pass the filter of its property unchanged. -/
theorem filterValidBins_acceptedBins (candidates : List BuildingFootprintCandidate)
    (canonicalBbl : CanonicalBbl) (mode : FootprintValidationMode) :
    filterValidBins ((acceptedBins candidates canonicalBbl mode).toList.map (·.text)) =
      acceptedBins candidates canonicalBbl mode := by
  rw [filterValidBins_text]
  refine SortedSet.ext_mem fun bin => ?_
  rw [SortedSet.mem_ofList, List.mem_filter, SortedSet.mem_def]
  constructor
  · exact And.left
  · exact fun h => ⟨h, by simp [not_isPlaceholderBin_of_mem (SortedSet.mem_def.mpr h)]⟩

end NycPropertyResolver
