import NycPropertyResolver.Identity.Resolution

/-!
# Identity — registration

`property-resolver.service.ts` and `bulk-property-registration.service.ts`: an input that is not
stored yet is resolved by the sources, and what they give is persisted, the property first, then its
BIN set, then the input.  The four call sites that persist share one sequence of statements
(`Db.registerProperty`).
-/

namespace NycPropertyResolver

open Library

variable {Row : Type}

/-! ### Persistence -/

/-- `PropertyWithRelations`: a property's row, its BINs and its coverage. -/
structure PropertyWithRelations where
  id : PropertyId
  property : Property
  bins : SortedSet CanonicalBin
  datasetCoverage : Option PropertyDatasetCoverage

/-- `ResolvePropertyResult`: the property, and whether the input was stored already. -/
structure ResolvePropertyResult where
  property : PropertyWithRelations
  cached : Bool

/-- What one resolution persists: the property, its BINs and the input that led to it. -/
structure PropertyRegistration where
  inputType : PropertyResolutionInputType
  normalizedInput : String
  bbl : CanonicalBbl
  candidateBins : SortedSet CanonicalBin
  normalizedAddress : String
  condoBaseBbl : Option CanonicalBbl
  condoBillingBbl : Option CanonicalBbl
  borough : Nat
  block : Nat
  lot : Nat
  resolverConfidence : Option Rat
  resolverMetadata : ResolverMetadata

/-- The BINs as the identity service takes them. -/
def PropertyRegistration.candidateTexts (r : PropertyRegistration) : List String :=
  r.candidateBins.toList.map (·.text)

/-- What a registration creates its property from. -/
def PropertyRegistration.createInput (r : PropertyRegistration) : CreatePropertyInput where
  bbl := r.bbl.text
  candidateBins := r.candidateTexts
  normalizedAddress := some r.normalizedAddress
  condoBaseBbl := r.condoBaseBbl.map (·.text)
  condoBillingBbl := r.condoBillingBbl.map (·.text)
  borough := some r.borough
  block := some r.block
  lot := some r.lot
  resolvedAt := none

namespace Db

/-- `loadPropertyWithRelations`: the property with its relations, if it is stored. -/
def loadPropertyWithRelations (db : Db Row) (propertyId : PropertyId) :
    Option PropertyWithRelations :=
  (db.properties.find propertyId).map fun property =>
    ⟨propertyId, property, db.propertyBins propertyId, db.coverage propertyId⟩

/-- The property an input is stored for. -/
def findPropertyIdByResolutionInput (db : Db Row) (inputType : PropertyResolutionInputType)
    (normalizedInput : String) : Option PropertyId :=
  (db.resolutionInputs.find (inputType, normalizedInput)).map (·.propertyId)

/-- `upsert` with an empty update: an input that is stored stays as it is. -/
def persistResolutionInput (db : Db Row) (now : Time) (r : PropertyRegistration)
    (propertyId : PropertyId) : Db Row :=
  match db.resolutionInputs.find (r.inputType, r.normalizedInput) with
  | some _ => db
  | none => { db with
      resolutionInputs := db.resolutionInputs.set (r.inputType, r.normalizedInput)
        ⟨propertyId, now, r.resolverConfidence, r.resolverMetadata⟩ }

/-- `findOrCreateProperty`, alone on the database. -/
def findOrCreateProperty (db : Db Row) (freshId : PropertyId) (now : Time)
    (input : CreatePropertyInput) : Except IdentityError (Db Row × PropertyId) := do
  let bbl ← assertValidBbl input.bbl
  match db.findPropertyByBbl bbl with
  | some p => .ok (db, p)
  | none => (db.createProperty freshId input now).map fun db' => (db', freshId)

/-- `payload.candidateBins.length > 0 ? applyEffectiveBinSet(…) : property`. -/
def applyCandidateBins (db : Db Row) (r : PropertyRegistration) (propertyId : PropertyId) :
    Except IdentityError (Db Row) :=
  if r.candidateBins.size > 0 then
    (db.applyEffectiveBinSet propertyId r.candidateTexts).map Prod.fst
  else
    .ok db

/-- The statements of the four call sites.  What was committed before one throws stays. -/
def registerProperty (db : Db Row) (freshId : PropertyId) (now : Time) (r : PropertyRegistration) :
    Db Row × Except IdentityError PropertyWithRelations :=
  match db.findOrCreateProperty freshId now r.createInput with
  | .error e => (db, .error e)
  | .ok (db₁, propertyId) =>
    match db₁.applyCandidateBins r propertyId with
    | .error e => (db₁, .error e)
    | .ok db₂ =>
      match db₂.loadPropertyWithRelations propertyId with
      | none => (db₂, .error .typeError)
      | some refreshed => (db₂.persistResolutionInput now r propertyId, .ok refreshed)

end Db

/-! ### Single resolution -/

/-- What is stored of a candidate. -/
def geoSearchEvidence (candidate : GeoSearchCandidate) : GeoSearchEvidence where
  label := candidate.label
  layer := candidate.layer
  bbl := candidate.bbl
  bin := candidate.bin
  confidence := candidate.confidence
  sourceId := candidate.sourceId

/-- What `persistNonCondoResolution` persists. -/
def nonCondoRegistration (payload : NonCondoResolutionPayload)
    (inputType : PropertyResolutionInputType) (normalizedInput : String) :
    PropertyRegistration where
  inputType := inputType
  normalizedInput := normalizedInput
  bbl := payload.canonicalBbl
  candidateBins := payload.candidateBins
  normalizedAddress := payload.normalizedAddress
  condoBaseBbl := none
  condoBillingBbl := none
  borough := payload.parcel.borough
  block := payload.parcel.block
  lot := payload.parcel.lot
  resolverConfidence := payload.geosearchCandidate.bind (·.confidence)
  resolverMetadata := .nonCondo payload.canonicalBbl (payload.geosearchCandidate.map geoSearchEvidence)
    payload.candidateBins.size

/-- What `persistCondoResolution` persists. -/
def condoRegistration (payload : CondoResolutionResult) (inputType : PropertyResolutionInputType)
    (normalizedInput : String) (geosearchCandidate : Option GeoSearchCandidate) :
    PropertyRegistration where
  inputType := inputType
  normalizedInput := normalizedInput
  bbl := payload.unitBbl
  candidateBins := payload.candidateBins
  normalizedAddress := payload.parcel.address
  condoBaseBbl := some payload.condoBaseBbl
  condoBillingBbl := some payload.condoBillingBbl
  borough := (parseBblComponents payload.unitBbl).borough
  block := (parseBblComponents payload.unitBbl).block
  lot := (parseBblComponents payload.unitBbl).lot
  resolverConfidence := geosearchCandidate.bind (·.confidence)
  resolverMetadata := .condoUnit payload.unitBbl payload.condoBaseBbl payload.condoBillingBbl
    payload.footprintValidationBbl (geosearchCandidate.map geoSearchEvidence)
    payload.candidateBins.size

/-- `AddressNormalizationResult`: the base address, the unit, and both as one text. -/
structure AddressNormalizationResult where
  normalizedBaseAddress : String
  normalizedUnitDesignation : Option String
  normalizedInput : String

/-- The candidate selected, and its BBL. -/
structure SelectedGeoSearchCandidate where
  candidate : GeoSearchCandidate
  canonicalBbl : CanonicalBbl

/-- How addresses are read: `normalizeAddress` and `selectGeoSearchCandidate`. -/
structure AddressRules where
  normalizeAddress : String → Except IdentityError AddressNormalizationResult
  selectGeoSearchCandidate : List GeoSearchCandidate → String →
    Except IdentityError SelectedGeoSearchCandidate

/-- What an input resolves to when it is not stored. -/
def resolveUncachedBbl (clients : PropertyResolverClients) (canonicalBbl : CanonicalBbl) :
    Except IdentityError PropertyRegistration :=
  if isCondoUnitLot (parseBblComponents canonicalBbl).lot then do
    let payload ← resolveCondoUnitBbl clients canonicalBbl none
    .ok (condoRegistration payload .bbl canonicalBbl.text none)
  else do
    let payload ← resolveNonCondoParcel clients canonicalBbl ⟨none, none, none⟩
    .ok (nonCondoRegistration payload .bbl canonicalBbl.text)

/-- An address without a unit, through its parcel. -/
def resolveStandardAddress (rules : AddressRules) (clients : PropertyResolverClients)
    (normalized : AddressNormalizationResult) : Except IdentityError PropertyRegistration := do
  let geoSearchResult ← clients.searchByAddress normalized.normalizedBaseAddress
  let selected ← rules.selectGeoSearchCandidate geoSearchResult.candidates
    geoSearchResult.queriedAddress
  let payload ← resolveNonCondoParcel clients selected.canonicalBbl
    ⟨selected.candidate.bin, some normalized.normalizedInput, some selected.candidate⟩
  .ok (nonCondoRegistration payload .address normalized.normalizedInput)

/-- An address with a unit, through the condominium its parcel belongs to. -/
def resolveUnitAwareAddress (rules : AddressRules) (clients : PropertyResolverClients)
    (normalized : AddressNormalizationResult) (unitDesignation : String) :
    Except IdentityError PropertyRegistration := do
  let geoSearchResult ← clients.searchByAddress normalized.normalizedBaseAddress
  let selected ← rules.selectGeoSearchCandidate geoSearchResult.candidates
    geoSearchResult.queriedAddress
  let condoBaseBbl ← resolveCondoBaseContextFromParcelBbl clients selected.canonicalBbl
  let payload ← resolveCondoUnitByAddressContext clients condoBaseBbl unitDesignation
    selected.candidate.bin
  .ok (condoRegistration payload .address normalized.normalizedInput (some selected.candidate))

/-- `resolveUncachedAddress`: by whether the address has a unit. -/
def resolveUncachedAddress (rules : AddressRules) (clients : PropertyResolverClients)
    (normalized : AddressNormalizationResult) : Except IdentityError PropertyRegistration :=
  match normalized.normalizedUnitDesignation with
  | some unitDesignation => resolveUnitAwareAddress rules clients normalized unitDesignation
  | none => resolveStandardAddress rules clients normalized

namespace Db

section Resolve

variable (ids : CanonicalBbl → PropertyId) (now : Time)

/-- The stored property of an input, or what its resolution registers. -/
def resolveInput (db : Db Row) (inputType : PropertyResolutionInputType) (normalizedInput : String)
    (resolution : Except IdentityError PropertyRegistration) :
    Db Row × Except IdentityError ResolvePropertyResult :=
  match db.findPropertyIdByResolutionInput inputType normalizedInput with
  | some propertyId =>
    match db.loadPropertyWithRelations propertyId with
    | none => (db, .error (.app "RESOLVER_CACHED_PROPERTY_MISSING"
        "Stored resolution input referenced a missing property row" 500))
    | some property => (db, .ok ⟨property, true⟩)
  | none =>
    match resolution with
    | .error e => (db, .error e)
    | .ok r =>
      match db.registerProperty (ids r.bbl) now r with
      | (db', .error e) => (db', .error e)
      | (db', .ok property) => (db', .ok ⟨property, false⟩)

/-- `resolveAddress`. -/
def resolveAddress (db : Db Row) (rules : AddressRules) (clients : PropertyResolverClients)
    (address : String) : Db Row × Except IdentityError ResolvePropertyResult :=
  match rules.normalizeAddress address with
  | .error e => (db, .error e)
  | .ok normalized => db.resolveInput ids now .address normalized.normalizedInput
      (resolveUncachedAddress rules clients normalized)

/-- `resolveBbl`. -/
def resolveBbl (db : Db Row) (clients : PropertyResolverClients) (bbl : String) :
    Db Row × Except IdentityError ResolvePropertyResult :=
  match assertValidBbl bbl with
  | .error e => (db, .error e)
  | .ok canonicalBbl => db.resolveInput ids now .bbl canonicalBbl.text
      (resolveUncachedBbl clients canonicalBbl)

end Resolve

end Db

end NycPropertyResolver
