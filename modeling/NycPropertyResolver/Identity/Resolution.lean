import NycPropertyResolver.Identity.FootprintValidation

/-!
# Identity — resolution

What the resolver makes of the answers of its sources: `require-pluto-parcel.ts`,
`condo-resolution.service.ts` and the parcel resolution of `property-resolver.service.ts`.  The
sources are a record of functions, one for each lookup; a lookup that fails throws.
-/

namespace NycPropertyResolver

open Library

/-! ### Answers of the sources -/

/-- `PlutoIncompleteReason`: what a PLUTO row lacks. -/
inductive PlutoIncompleteReason where
  | missingAddress
  | missingBbl
  | missingBorocode
  | missingBlock
  | missingLot
  | identifierMismatch
  deriving DecidableEq, Repr

/-- How a reason is written. -/
def PlutoIncompleteReason.text : PlutoIncompleteReason → String
  | .missingAddress => "missing_address"
  | .missingBbl => "missing_bbl"
  | .missingBorocode => "missing_borocode"
  | .missingBlock => "missing_block"
  | .missingLot => "missing_lot"
  | .identifierMismatch => "identifier_mismatch"

/-- `PlutoParcelRecord`: a parcel whose row is whole. -/
structure PlutoParcelRecord where
  bbl : CanonicalBbl
  borough : Nat
  block : Nat
  lot : Nat
  address : String
  bldgclass : Option String
  deriving DecidableEq

/-- `PlutoLookupResult`. -/
inductive PlutoLookupResult where
  | notFound
  | incomplete (reasons : List PlutoIncompleteReason)
  | found (parcel : PlutoParcelRecord)
  | multiple (parcels : List PlutoParcelRecord)

/-- `BuildingFootprintsLookupResult`. -/
inductive BuildingFootprintsLookupResult where
  | notFound
  | found (candidates : List BuildingFootprintCandidate)

/-- `CondoUnitRecord`: a unit, and the base parcel of its condominium. -/
structure CondoUnitRecord where
  unitBbl : CanonicalBbl
  condoBaseBbl : CanonicalBbl
  unitDesignation : Option String

/-- `CondominiumBillingRecord`: a billing parcel, and the base parcel it bills. -/
structure CondominiumBillingRecord where
  condoBaseBbl : CanonicalBbl
  condoBillingBbl : CanonicalBbl

/-- A `matchCount` with its matches. -/
inductive LookupMatches (α : Type) where
  | zero
  | one (record : α)
  | multiple (records : List α)

/-- `GeoSearchCandidate`. -/
structure GeoSearchCandidate where
  label : String
  name : Option String
  layer : String
  confidence : Option Rat
  bbl : Option String
  bin : Option String
  borough : Option String
  sourceId : Option String
  deriving DecidableEq

/-- `GeoSearchSearchResult`: the candidates, and the address they were asked for with. -/
structure GeoSearchSearchResult where
  queriedAddress : String
  candidates : List GeoSearchCandidate

/-- The clients of the resolver. -/
structure PropertyResolverClients where
  searchByAddress : String → Except IdentityError GeoSearchSearchResult
  plutoLookupByBbl : CanonicalBbl → Except IdentityError PlutoLookupResult
  footprintsLookupByParcelBbl : CanonicalBbl → Except IdentityError BuildingFootprintsLookupResult
  footprintsLookupByBaseBbl : CanonicalBbl → Except IdentityError BuildingFootprintsLookupResult
  lookupByUnitBbl : CanonicalBbl → Except IdentityError (LookupMatches CondoUnitRecord)
  lookupByCondoBaseAndUnitDesignation : CanonicalBbl → String →
    Except IdentityError (LookupMatches CondoUnitRecord)
  lookupByCondoBillingBbl : CanonicalBbl →
    Except IdentityError (LookupMatches CondominiumBillingRecord)
  lookupByCondoBaseBbl : CanonicalBbl →
    Except IdentityError (LookupMatches CondominiumBillingRecord)

/-! ### Parcels -/

/-- `formatIncompleteReasons`. -/
def formatIncompleteReasons (reasons : List PlutoIncompleteReason) : String :=
  String.intercalate ", " (reasons.map (·.text))

/-- The parcel of a lookup, or the error for one that is not found, incomplete or ambiguous. -/
def requirePlutoParcel (canonicalBbl : CanonicalBbl) (lookup : Option PlutoLookupResult) :
    Except IdentityError PlutoParcelRecord :=
  match lookup with
  | none | some .notFound =>
    .error (.app "RESOLVER_PLUTO_NOT_FOUND" s!"PLUTO did not contain parcel {canonicalBbl.text}" 422)
  | some (.incomplete reasons) =>
    .error (.app "RESOLVER_PLUTO_INCOMPLETE"
      s!"PLUTO contained parcel {canonicalBbl.text} but required resolver attributes are missing or inconsistent: {formatIncompleteReasons reasons}"
      422)
  | some (.multiple _) =>
    .error (.app "RESOLVER_PLUTO_MULTIPLE"
      s!"PLUTO returned multiple parcels for BBL {canonicalBbl.text}" 422)
  | some (.found parcel) => .ok parcel

/-- The validated BINs of a footprint lookup, and their agreement with the GeoSearch candidate where
there are any. -/
def resolveFootprintBins (lookup : BuildingFootprintsLookupResult) (validationBbl : CanonicalBbl)
    (mode : FootprintValidationMode) (geosearchBin : Option String) :
    Except IdentityError (SortedSet CanonicalBin) :=
  match lookup with
  | .notFound => do
    assertGeoSearchBinCorroboratesFootprints geosearchBin .empty
    .ok .empty
  | .found candidates => do
    let validation := validateFootprintCandidates candidates validationBbl mode
    assertFootprintIdentifierAgreement validation false
    let candidateBins := collectValidatedBins validation
    assertGeoSearchBinCorroboratesFootprints geosearchBin candidateBins
    .ok candidateBins

/-- What a parcel that is no condominium's resolves to. -/
structure NonCondoResolutionPayload where
  canonicalBbl : CanonicalBbl
  parcel : PlutoParcelRecord
  candidateBins : SortedSet CanonicalBin
  normalizedAddress : String
  geosearchCandidate : Option GeoSearchCandidate

/-- The options of `resolveNonCondoParcel`. -/
structure NonCondoOptions where
  geosearchBin : Option String
  normalizedAddress : Option String
  geosearchCandidate : Option GeoSearchCandidate

/-- `resolveNonCondoParcel`: the parcel of PLUTO and the BINs of its footprints. -/
def resolveNonCondoParcel (clients : PropertyResolverClients) (canonicalBbl : CanonicalBbl)
    (options : NonCondoOptions) : Except IdentityError NonCondoResolutionPayload := do
  let plutoLookup ← clients.plutoLookupByBbl canonicalBbl
  let parcel ← requirePlutoParcel canonicalBbl (some plutoLookup)
  let footprintLookup ← clients.footprintsLookupByParcelBbl canonicalBbl
  let candidateBins ← resolveFootprintBins footprintLookup canonicalBbl .nonCondo options.geosearchBin
  .ok { canonicalBbl := canonicalBbl
        parcel := parcel
        candidateBins := candidateBins
        normalizedAddress := options.normalizedAddress.getD parcel.address
        geosearchCandidate := options.geosearchCandidate }

/-! ### Condominiums -/

/-- What a condominium unit resolves to. -/
structure CondoResolutionResult where
  unitBbl : CanonicalBbl
  condoBaseBbl : CanonicalBbl
  condoBillingBbl : CanonicalBbl
  parcel : PlutoParcelRecord
  candidateBins : SortedSet CanonicalBin
  footprintValidationBbl : CanonicalBbl

/-- Lots 1001 to 7500 are condominium units. -/
def isCondoUnitLot (lot : Nat) : Bool := 1001 ≤ lot && lot < 7501

/-- Lots from 7501 on are billing lots. -/
def isCondoBillingLot (lot : Nat) : Bool := 7501 ≤ lot

/-- The single match of a lookup, or the error for none or for several. -/
def requireSingleMatch {α : Type} (lookup : LookupMatches α) (zero multiple : String × String) :
    Except IdentityError α :=
  match lookup with
  | .zero => .error (.app zero.1 zero.2 422)
  | .multiple _ => .error (.app multiple.1 multiple.2 422)
  | .one record => .ok record

/-- The base parcel an address's parcel belongs to: a billing lot's, or itself. -/
def resolveCondoBaseContextFromParcelBbl (clients : PropertyResolverClients)
    (parcelBbl : CanonicalBbl) : Except IdentityError CanonicalBbl :=
  if !isCondoBillingLot (parseBblComponents parcelBbl).lot then
    .ok parcelBbl
  else do
    let lookup ← clients.lookupByCondoBillingBbl parcelBbl
    let billing ← requireSingleMatch lookup
      ("RESOLVER_CONDO_BASE_NOT_FOUND",
        s!"No condo base BBL was found for condo billing BBL {parcelBbl.text}")
      ("RESOLVER_CONDO_BASE_AMBIGUOUS",
        s!"Multiple condo base BBLs were found for condo billing BBL {parcelBbl.text}")
    .ok billing.condoBaseBbl

/-- The condo billing BBL of a base, from its lookup. -/
def requireCondoBillingBbl (condoBaseBbl : CanonicalBbl)
    (lookup : LookupMatches CondominiumBillingRecord) : Except IdentityError CanonicalBbl := do
  let billing ← requireSingleMatch lookup
    ("RESOLVER_CONDO_BILLING_NOT_FOUND",
      s!"No condo billing BBL was found for condo base {condoBaseBbl.text}")
    ("RESOLVER_CONDO_BILLING_AMBIGUOUS",
      s!"Multiple condo billing BBLs were found for condo base {condoBaseBbl.text}")
  .ok billing.condoBillingBbl

/-- The billing parcel of a base parcel. -/
def resolveCondoBillingBbl (clients : PropertyResolverClients) (condoBaseBbl : CanonicalBbl) :
    Except IdentityError CanonicalBbl := do
  let lookup ← clients.lookupByCondoBaseBbl condoBaseBbl
  requireCondoBillingBbl condoBaseBbl lookup

/-- The BINs of a base parcel's footprints, validated against the billing parcel. -/
def resolveFootprintBinsForCondoBase (clients : PropertyResolverClients)
    (condoBaseBbl footprintValidationBbl : CanonicalBbl) (geosearchBin : Option String) :
    Except IdentityError (SortedSet CanonicalBin) := do
  let lookup ← clients.footprintsLookupByBaseBbl condoBaseBbl
  resolveFootprintBins lookup footprintValidationBbl .condo geosearchBin

/-- The condo unit of a BBL, from its lookup. -/
def requireCondoUnit (unitBbl : CanonicalBbl) (lookup : LookupMatches CondoUnitRecord) :
    Except IdentityError CondoUnitRecord :=
  requireSingleMatch lookup
    ("RESOLVER_CONDO_UNIT_NOT_FOUND",
      s!"No condominium unit mapping was found for unit BBL {unitBbl.text}")
    ("RESOLVER_CONDO_UNIT_AMBIGUOUS",
      s!"Multiple condominium unit mappings were found for unit BBL {unitBbl.text}")

/-- `resolveCondoUnitBbl`: a unit by its own BBL. -/
def resolveCondoUnitBbl (clients : PropertyResolverClients) (unitBbl : CanonicalBbl)
    (geosearchBin : Option String) : Except IdentityError CondoResolutionResult := do
  let unitLookup ← clients.lookupByUnitBbl unitBbl
  let unit ← requireCondoUnit unitBbl unitLookup
  let condoBaseBbl := unit.condoBaseBbl
  let condoBillingBbl ← resolveCondoBillingBbl clients condoBaseBbl
  let plutoLookup ← clients.plutoLookupByBbl condoBillingBbl
  let parcel ← requirePlutoParcel condoBillingBbl (some plutoLookup)
  let candidateBins ←
    resolveFootprintBinsForCondoBase clients condoBaseBbl condoBillingBbl geosearchBin
  .ok { unitBbl := unitBbl
        condoBaseBbl := condoBaseBbl
        condoBillingBbl := condoBillingBbl
        parcel := parcel
        candidateBins := candidateBins
        footprintValidationBbl := condoBillingBbl }

/-- A unit by its base parcel and its designation. -/
def resolveCondoUnitByAddressContext (clients : PropertyResolverClients) (condoBaseBbl : CanonicalBbl)
    (unitDesignation : String) (geosearchBin : Option String) :
    Except IdentityError CondoResolutionResult := do
  let unitLookup ← clients.lookupByCondoBaseAndUnitDesignation condoBaseBbl unitDesignation
  let unit ← requireSingleMatch unitLookup
    ("RESOLVER_CONDO_UNIT_NOT_FOUND",
      s!"No condominium unit matched condo base {condoBaseBbl.text} and unit {unitDesignation}")
    ("RESOLVER_CONDO_UNIT_AMBIGUOUS",
      s!"Multiple condominium units matched condo base {condoBaseBbl.text} and unit {unitDesignation}")
  resolveCondoUnitBbl clients unit.unitBbl geosearchBin

/-! ### The effective BIN set -/

/-- The BIN set a footprint lookup gives a parcel: the valid BINs of the accepted candidates, and
none where there are no candidates. -/
def effectiveBins (lookup : Option BuildingFootprintsLookupResult) (validationBbl : CanonicalBbl)
    (mode : FootprintValidationMode) : SortedSet CanonicalBin :=
  match lookup with
  | some (.found candidates) => acceptedBins candidates validationBbl mode
  | _ => .empty

/-- What the sources answer about parcels, one lookup at a time; `none` where there is no answer. -/
structure ParcelAnswers where
  parcelFootprints : CanonicalBbl → Option BuildingFootprintsLookupResult
  baseFootprints : CanonicalBbl → Option BuildingFootprintsLookupResult
  unit : CanonicalBbl → Option (LookupMatches CondoUnitRecord)
  billing : CanonicalBbl → Option (LookupMatches CondominiumBillingRecord)

/-- What the clients answer about one BBL; a failed lookup answers nothing. -/
def PropertyResolverClients.answers (clients : PropertyResolverClients) : ParcelAnswers where
  parcelFootprints bbl := (clients.footprintsLookupByParcelBbl bbl).toOption
  baseFootprints bbl := (clients.footprintsLookupByBaseBbl bbl).toOption
  unit bbl := (clients.lookupByUnitBbl bbl).toOption
  billing bbl := (clients.lookupByCondoBaseBbl bbl).toOption

/-- **The validated effective BIN set of a resolution**: of a parcel, by the footprints at its BBL;
of a condo unit, by the footprints at its base, validated against the billing BBL of the base. -/
def ParcelAnswers.effectiveBins (answers : ParcelAnswers) (mode : FootprintValidationMode)
    (bbl : CanonicalBbl) : SortedSet CanonicalBin :=
  match mode with
  | .nonCondo => NycPropertyResolver.effectiveBins (answers.parcelFootprints bbl) bbl .nonCondo
  | .condo =>
    match answers.unit bbl with
    | some (.one unit) =>
      match answers.billing unit.condoBaseBbl with
      | some (.one billing) => NycPropertyResolver.effectiveBins
          (answers.baseFootprints unit.condoBaseBbl) billing.condoBillingBbl .condo
      | _ => .empty
    | _ => .empty

theorem ParcelAnswers.effectiveBins_condo {answers : ParcelAnswers} {bbl : CanonicalBbl}
    {unit : CondoUnitRecord} {billing : CondominiumBillingRecord}
    (hu : answers.unit bbl = some (.one unit))
    (hb : answers.billing unit.condoBaseBbl = some (.one billing)) :
    answers.effectiveBins .condo bbl = NycPropertyResolver.effectiveBins
      (answers.baseFootprints unit.condoBaseBbl) billing.condoBillingBbl .condo := by
  simp only [effectiveBins, hu, hb]

theorem requireSingleMatch_eq_ok {α : Type} {lookup : LookupMatches α} {zero multiple : String × String}
    {record : α} (h : requireSingleMatch lookup zero multiple = .ok record) :
    lookup = .one record := by
  cases lookup with
  | zero => cases h
  | one r => cases h; rfl
  | multiple rs => cases h

theorem resolveFootprintBins_eq_ok {lookup : BuildingFootprintsLookupResult} {bbl : CanonicalBbl}
    {mode : FootprintValidationMode} {geosearchBin : Option String} {bins : SortedSet CanonicalBin}
    (h : resolveFootprintBins lookup bbl mode geosearchBin = .ok bins) :
    bins = effectiveBins (some lookup) bbl mode := by
  cases lookup with
  | notFound =>
      obtain ⟨_, -, h⟩ := except_bind_ok.mp h
      cases h
      rfl
  | found candidates =>
      obtain ⟨_, -, h⟩ := except_bind_ok.mp h
      obtain ⟨_, -, h⟩ := except_bind_ok.mp h
      cases h
      exact collectValidatedBins_eq candidates bbl mode

/-- The BIN set of a parcel passes the filter of its property unchanged. -/
theorem filterValidBins_effectiveBins (lookup : Option BuildingFootprintsLookupResult)
    (bbl : CanonicalBbl) (mode : FootprintValidationMode) :
    filterValidBins ((effectiveBins lookup bbl mode).toList.map (·.text)) =
      effectiveBins lookup bbl mode := by
  rcases lookup with _ | _ | candidates
  · rfl
  · rfl
  · exact filterValidBins_acceptedBins candidates bbl mode

/-- The BIN set of a resolution passes the filter of its property unchanged. -/
theorem ParcelAnswers.filterValidBins_effectiveBins (answers : ParcelAnswers)
    (mode : FootprintValidationMode) (bbl : CanonicalBbl) :
    filterValidBins ((answers.effectiveBins mode bbl).toList.map (·.text)) =
      answers.effectiveBins mode bbl := by
  cases mode with
  | nonCondo => exact NycPropertyResolver.filterValidBins_effectiveBins _ bbl .nonCondo
  | condo =>
      rw [effectiveBins]
      split
      · split
        · exact NycPropertyResolver.filterValidBins_effectiveBins _ _ .condo
        · rfl
      · rfl

/-- **What a resolved parcel holds.** -/
theorem resolveNonCondoParcel_eq_ok {clients : PropertyResolverClients} {bbl : CanonicalBbl}
    {options : NonCondoOptions} {payload : NonCondoResolutionPayload}
    (h : resolveNonCondoParcel clients bbl options = .ok payload) :
    payload.canonicalBbl = bbl ∧
      payload.candidateBins = clients.answers.effectiveBins .nonCondo bbl := by
  obtain ⟨_, -, h⟩ := except_bind_ok.mp h
  obtain ⟨_, -, h⟩ := except_bind_ok.mp h
  obtain ⟨lookup, hl, h⟩ := except_bind_ok.mp h
  obtain ⟨bins, hb, h⟩ := except_bind_ok.mp h
  cases h
  have hp : clients.answers.parcelFootprints bbl = some lookup := by
    simp only [PropertyResolverClients.answers, hl]
    rfl
  refine ⟨rfl, ?_⟩
  rw [ParcelAnswers.effectiveBins, hp]
  exact resolveFootprintBins_eq_ok hb

/-- **What a resolved condo unit holds.** -/
theorem resolveCondoUnitBbl_eq_ok {clients : PropertyResolverClients} {bbl : CanonicalBbl}
    {geosearchBin : Option String} {payload : CondoResolutionResult}
    (h : resolveCondoUnitBbl clients bbl geosearchBin = .ok payload) :
    payload.unitBbl = bbl ∧
      payload.candidateBins = clients.answers.effectiveBins .condo bbl := by
  obtain ⟨unitLookup, hul, h⟩ := except_bind_ok.mp h
  obtain ⟨unit, hu, h⟩ := except_bind_ok.mp h
  obtain ⟨billingBbl, hb, h⟩ := except_bind_ok.mp h
  obtain ⟨_, -, h⟩ := except_bind_ok.mp h
  obtain ⟨_, -, h⟩ := except_bind_ok.mp h
  obtain ⟨bins, hbins, h⟩ := except_bind_ok.mp h
  cases h
  obtain ⟨billingLookup, hbl, hb⟩ := except_bind_ok.mp hb
  obtain ⟨billing, hone, he⟩ := except_bind_ok.mp hb
  cases he
  obtain ⟨lookup, hl, hbins⟩ := except_bind_ok.mp hbins
  have hunit : clients.answers.unit bbl = some (.one unit) := by
    rw [← requireSingleMatch_eq_ok hu]
    simp only [PropertyResolverClients.answers, hul]
    rfl
  have hbilling : clients.answers.billing unit.condoBaseBbl = some (.one billing) := by
    rw [← requireSingleMatch_eq_ok hone]
    simp only [PropertyResolverClients.answers, hbl]
    rfl
  have hbase : clients.answers.baseFootprints unit.condoBaseBbl = some lookup := by
    simp only [PropertyResolverClients.answers, hl]
    rfl
  refine ⟨rfl, ?_⟩
  rw [ParcelAnswers.effectiveBins_condo hunit hbilling, hbase]
  exact resolveFootprintBins_eq_ok hbins

/-- The BBL of a condo unit, by the sources. -/
def condoUnitBblByAddressContext (clients : PropertyResolverClients) (condoBaseBbl : CanonicalBbl)
    (unitDesignation : String) : Option CanonicalBbl :=
  match clients.lookupByCondoBaseAndUnitDesignation condoBaseBbl unitDesignation with
  | .ok (.one unit) => some unit.unitBbl
  | _ => none

theorem resolveCondoUnitByAddressContext_eq_ok {clients : PropertyResolverClients}
    {base : CanonicalBbl} {unit : String} {geosearchBin : Option String}
    {payload : CondoResolutionResult}
    (h : resolveCondoUnitByAddressContext clients base unit geosearchBin = .ok payload) :
    condoUnitBblByAddressContext clients base unit = some payload.unitBbl ∧
      payload.candidateBins = clients.answers.effectiveBins .condo payload.unitBbl := by
  obtain ⟨lookup, hl, h⟩ := except_bind_ok.mp h
  obtain ⟨record, hr, h⟩ := except_bind_ok.mp h
  obtain ⟨hu, hb⟩ := resolveCondoUnitBbl_eq_ok h
  rw [hu]
  refine ⟨?_, hb⟩
  rw [condoUnitBblByAddressContext, hl, requireSingleMatch_eq_ok hr]

end NycPropertyResolver
