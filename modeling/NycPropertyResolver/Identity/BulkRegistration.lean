import NycPropertyResolver.Identity.Registration

/-!
# Identity — bulk registration

`bulk-property-registration.service.ts`: the BBLs of a request that are not stored yet are looked up
together, resolved one by one, and persisted one after another.  An `AppError` is recorded for its
BBL and ends nothing; any other error ends the request, and what was persisted before it stays.
-/

namespace NycPropertyResolver

open Library

variable {Row : Type}

/-! ### Inputs -/

/-- `error` of a result. -/
structure BulkInputError where
  code : String
  message : String
  deriving DecidableEq

/-- `ParsedBulkInput`: an input, and its BBL or why it is none. -/
structure ParsedBulkInput where
  inputBbl : String
  parsed : Except BulkInputError CanonicalBbl

/-- `parseBulkInputs`: every input on its own. -/
def parseBulkInputs (bbls : List String) : List ParsedBulkInput :=
  bbls.map fun inputBbl =>
    ⟨inputBbl, match canonicalizeBbl inputBbl with
      | none => .error ⟨"INVALID_BBL", "BBL must be a 10-digit NYC parcel identifier"⟩
      | some bbl => .ok bbl⟩

/-- The BBLs of the inputs, each once. -/
def uniqueCanonicalBbls (parsedInputs : List ParsedBulkInput) : SortedSet CanonicalBbl :=
  SortedSet.ofList (parsedInputs.filterMap fun input => input.parsed.toOption)

/-- The BBL is resolved as a condo unit. -/
def isCondoUnitBbl (bbl : CanonicalBbl) : Bool := isCondoUnitLot (parseBblComponents bbl).lot

/-! ### Lookups -/

/-- The clients of the service; a lookup gives a result for some of the BBLs it is asked for. -/
structure BulkPropertyRegistrationClients where
  plutoLookupByBbls : List CanonicalBbl → Except IdentityError (Table CanonicalBbl PlutoLookupResult)
  footprintsLookupByParcelBbls : List CanonicalBbl →
    Except IdentityError (Table CanonicalBbl BuildingFootprintsLookupResult)
  footprintsLookupByBaseBbls : List CanonicalBbl →
    Except IdentityError (Table CanonicalBbl BuildingFootprintsLookupResult)
  lookupByUnitBbls : List CanonicalBbl →
    Except IdentityError (Table CanonicalBbl (LookupMatches CondoUnitRecord))
  lookupByCondoBaseBbls : List CanonicalBbl →
    Except IdentityError (Table CanonicalBbl (LookupMatches CondominiumBillingRecord))

/-- The results of the lookups of one request. -/
structure BulkLookups where
  parcelFootprintResults : Table CanonicalBbl BuildingFootprintsLookupResult
  condoUnitResults : Table CanonicalBbl (LookupMatches CondoUnitRecord)
  condoBillingResults : Table CanonicalBbl (LookupMatches CondominiumBillingRecord)
  plutoResults : Table CanonicalBbl PlutoLookupResult
  condoBaseFootprintResults : Table CanonicalBbl BuildingFootprintsLookupResult

/-- The record of a single match, through `f`. -/
def LookupMatches.one? {α β : Type} (f : α → β) : LookupMatches α → Option β
  | .one record => some (f record)
  | _ => none

/-- The lookups of all BBLs, in the service's order; the first that fails ends the request. -/
def bulkLookups (clients : BulkPropertyRegistrationClients) (uncachedBbls : List CanonicalBbl) :
    Except IdentityError BulkLookups := do
  let condoUnitBbls := uncachedBbls.filter isCondoUnitBbl
  let nonCondoBbls := uncachedBbls.filter fun bbl => !isCondoUnitBbl bbl
  let parcelFootprintResults ← clients.footprintsLookupByParcelBbls nonCondoBbls
  let condoUnitResults ← clients.lookupByUnitBbls condoUnitBbls
  let condoBaseBbls := (condoUnitBbls.filterMap fun unitBbl =>
    (condoUnitResults.find unitBbl).bind (LookupMatches.one? (·.condoBaseBbl))).eraseDups
  let condoBillingResults ← clients.lookupByCondoBaseBbls condoBaseBbls
  let condoBillingBbls := (condoBillingResults.rows.filterMap fun row =>
    row.2.one? (·.condoBillingBbl)).eraseDups
  let plutoResults ← clients.plutoLookupByBbls (nonCondoBbls ++ condoBillingBbls)
  let condoBaseFootprintResults ← clients.footprintsLookupByBaseBbls condoBaseBbls
  .ok { parcelFootprintResults := parcelFootprintResults
        condoUnitResults := condoUnitResults
        condoBillingResults := condoBillingResults
        plutoResults := plutoResults
        condoBaseFootprintResults := condoBaseFootprintResults }

/-! ### Payloads -/

/-- The BINs of footprint candidates; no candidate, no BIN. -/
def resolveCandidateBins (mode : FootprintValidationMode) (validationBbl : CanonicalBbl)
    (footprintCandidates : List BuildingFootprintCandidate) :
    Except IdentityError (SortedSet CanonicalBin) :=
  if footprintCandidates.length = 0 then
    .ok .empty
  else do
    let validation := validateFootprintCandidates footprintCandidates validationBbl mode
    assertFootprintIdentifierAgreement validation false
    .ok (collectValidatedBins validation)

/-- The BINs of a parcel that is no condominium's. -/
def resolveNonCondoBins : CanonicalBbl → List BuildingFootprintCandidate →
    Except IdentityError (SortedSet CanonicalBin) :=
  resolveCandidateBins .nonCondo

/-- The BINs of a condominium's base parcel. -/
def resolveCondoBins : CanonicalBbl → List BuildingFootprintCandidate →
    Except IdentityError (SortedSet CanonicalBin) :=
  resolveCandidateBins .condo

/-- `footprintLookup?.status === 'found' ? resolve(footprintLookup.candidates) : []`. -/
def foundBins (lookup : Option BuildingFootprintsLookupResult)
    (resolve : List BuildingFootprintCandidate → Except IdentityError (SortedSet CanonicalBin)) :
    Except IdentityError (SortedSet CanonicalBin) :=
  match lookup with
  | some (.found candidates) => resolve candidates
  | _ => .ok .empty

/-- What a parcel that is no condominium's resolves to. -/
structure ResolvedNonCondoPayload where
  canonicalBbl : CanonicalBbl
  parcel : PlutoParcelRecord
  candidateBins : SortedSet CanonicalBin
  normalizedAddress : String

/-- What a condominium unit resolves to. -/
structure ResolvedCondoPayload where
  unitBbl : CanonicalBbl
  condoBaseBbl : CanonicalBbl
  condoBillingBbl : CanonicalBbl
  parcel : PlutoParcelRecord
  candidateBins : SortedSet CanonicalBin

/-- A parcel that is no condominium's, from the answers of the lookups. -/
def resolveBulkNonCondo (lookups : BulkLookups) (canonicalBbl : CanonicalBbl) :
    Except IdentityError ResolvedNonCondoPayload := do
  let parcel ← requirePlutoParcel canonicalBbl (lookups.plutoResults.find canonicalBbl)
  let candidateBins ←
    foundBins (lookups.parcelFootprintResults.find canonicalBbl) (resolveNonCondoBins canonicalBbl)
  .ok { canonicalBbl := canonicalBbl
        parcel := parcel
        candidateBins := candidateBins
        normalizedAddress := parcel.address }

/-- `lookup!`, where the lookup is neither zero nor multiple. -/
def requirePresent {α : Type} (lookup : Option α) : Except IdentityError α :=
  match lookup with
  | some a => .ok a
  | none => .error .typeError

/-- A condominium unit, from the answers of the lookups. -/
def resolveBulkCondoUnit (lookups : BulkLookups) (unitBbl : CanonicalBbl) :
    Except IdentityError ResolvedCondoPayload := do
  let unitLookup ← requirePresent (lookups.condoUnitResults.find unitBbl)
  let unit ← requireCondoUnit unitBbl unitLookup
  let condoBaseBbl := unit.condoBaseBbl
  let billingLookup ← requirePresent (lookups.condoBillingResults.find condoBaseBbl)
  let condoBillingBbl ← requireCondoBillingBbl condoBaseBbl billingLookup
  let parcel ← requirePlutoParcel condoBillingBbl (lookups.plutoResults.find condoBillingBbl)
  let candidateBins ←
    foundBins (lookups.condoBaseFootprintResults.find condoBaseBbl) (resolveCondoBins condoBillingBbl)
  .ok { unitBbl := unitBbl
        condoBaseBbl := condoBaseBbl
        condoBillingBbl := condoBillingBbl
        parcel := parcel
        candidateBins := candidateBins }

/-- What `persistNonCondoProperty` persists. -/
def bulkNonCondoRegistration (payload : ResolvedNonCondoPayload) : PropertyRegistration where
  inputType := .bbl
  normalizedInput := payload.canonicalBbl.text
  bbl := payload.canonicalBbl
  candidateBins := payload.candidateBins
  normalizedAddress := payload.normalizedAddress
  condoBaseBbl := none
  condoBillingBbl := none
  borough := payload.parcel.borough
  block := payload.parcel.block
  lot := payload.parcel.lot
  resolverConfidence := none
  resolverMetadata := .bulkNonCondo payload.canonicalBbl payload.candidateBins.size

/-- What `persistCondoProperty` persists. -/
def bulkCondoRegistration (payload : ResolvedCondoPayload) : PropertyRegistration where
  inputType := .bbl
  normalizedInput := payload.unitBbl.text
  bbl := payload.unitBbl
  candidateBins := payload.candidateBins
  normalizedAddress := payload.parcel.address
  condoBaseBbl := some payload.condoBaseBbl
  condoBillingBbl := some payload.condoBillingBbl
  borough := (parseBblComponents payload.unitBbl).borough
  block := (parseBblComponents payload.unitBbl).block
  lot := (parseBblComponents payload.unitBbl).lot
  resolverConfidence := none
  resolverMetadata := .bulkCondoUnit payload.unitBbl payload.condoBaseBbl payload.condoBillingBbl
    payload.candidateBins.size

/-- The registration of a BBL, by its flow. -/
def resolveBulkBbl (lookups : BulkLookups) (bbl : CanonicalBbl) :
    Except IdentityError PropertyRegistration :=
  if isCondoUnitBbl bbl then
    (resolveBulkCondoUnit lookups bbl).map bulkCondoRegistration
  else
    (resolveBulkNonCondo lookups bbl).map bulkNonCondoRegistration

/-! ### The loops -/

/-- The loop over the BBLs of one flow: the registrations of those that resolve, and the failures of
those that do not. -/
def resolvePayloads (lookups : BulkLookups) :
    List CanonicalBbl → Table CanonicalBbl BulkInputError →
      Except IdentityError (List PropertyRegistration × Table CanonicalBbl BulkInputError)
  | [], resolutionFailures => .ok ([], resolutionFailures)
  | bbl :: bbls, resolutionFailures =>
    match resolveBulkBbl lookups bbl with
    | .ok registration =>
      (resolvePayloads lookups bbls resolutionFailures).map fun rest =>
        (registration :: rest.1, rest.2)
    | .error (.app code message _) =>
      resolvePayloads lookups bbls (resolutionFailures.set bbl ⟨code, message⟩)
    | .error e => .error e

/-- What the uncached BBLs of a request resolve to: the parcels first, then the condo units. -/
def bulkResolutions (clients : BulkPropertyRegistrationClients) (uncachedBbls : List CanonicalBbl) :
    Except IdentityError (List PropertyRegistration × Table CanonicalBbl BulkInputError) :=
  if uncachedBbls.length > 0 then do
    let lookups ← bulkLookups clients uncachedBbls
    let nonCondo ← resolvePayloads lookups (uncachedBbls.filter fun bbl => !isCondoUnitBbl bbl) .empty
    let condo ← resolvePayloads lookups (uncachedBbls.filter isCondoUnitBbl) nonCondo.2
    .ok (nonCondo.1 ++ condo.1, condo.2)
  else
    .ok ([], .empty)

/-- The properties and the failures of a request so far. -/
structure BulkProgress where
  resolvedByBbl : Table CanonicalBbl PropertyWithRelations
  resolutionFailures : Table CanonicalBbl BulkInputError

namespace Db

/-- `findCachedBblRegistrations`: the properties of the BBLs that are stored as inputs. -/
def findCachedBblRegistrations (db : Db Row) :
    List CanonicalBbl → Except IdentityError (Table CanonicalBbl PropertyWithRelations)
  | [] => .ok .empty
  | bbl :: bbls => do
    let results ← db.findCachedBblRegistrations bbls
    match db.findPropertyIdByResolutionInput .bbl bbl.text with
    | none => .ok results
    | some propertyId =>
      match db.loadPropertyWithRelations propertyId with
      | none => .error .inconsistentResult
      | some property => .ok (results.set bbl property)

section Persist

variable (ids : CanonicalBbl → PropertyId) (now : Time)

/-- The persistence loops. -/
def persistRegistrations (db : Db Row) (progress : BulkProgress) :
    List PropertyRegistration → Db Row × Except IdentityError BulkProgress
  | [] => (db, .ok progress)
  | r :: rs =>
    match db.registerProperty (ids r.bbl) now r with
    | (db', .ok property) => db'.persistRegistrations
        { progress with resolvedByBbl := progress.resolvedByBbl.set r.bbl property } rs
    | (db', .error (.app code message _)) => db'.persistRegistrations
        { progress with
          resolutionFailures := progress.resolutionFailures.set r.bbl ⟨code, message⟩ } rs
    | (db', .error e) => (db', .error e)

end Persist

end Db

/-! ### Results -/

/-- `BulkPropertyResultStatus`: how one input ended. -/
inductive BulkPropertyResultStatus where
  | succeeded
  | failed
  | cached
  deriving DecidableEq, Repr

/-- The coverage of a bulk result's property. -/
structure BulkPropertyCoveragePayload where
  dataset : Dataset
  status : CoverageStatus
  statusReason : Option CoverageStatusReason

/-- The property of a bulk result. -/
structure BulkPropertyPayload where
  id : PropertyId
  bbl : CanonicalBbl
  borough : Nat
  block : Nat
  lot : Nat
  normalizedAddress : Option String
  condoBaseBbl : Option CanonicalBbl
  condoBillingBbl : Option CanonicalBbl
  identifierVersion : Nat
  bins : SortedSet CanonicalBin
  coverage : List BulkPropertyCoveragePayload

/-- `toBulkPropertyPayload`. -/
def toBulkPropertyPayload (p : PropertyWithRelations) : BulkPropertyPayload where
  id := p.id
  bbl := p.property.bbl
  borough := p.property.borough
  block := p.property.block
  lot := p.property.lot
  normalizedAddress := p.property.normalizedAddress
  condoBaseBbl := p.property.condoBaseBbl
  condoBillingBbl := p.property.condoBillingBbl
  identifierVersion := p.property.identifierVersion
  bins := p.bins
  coverage := p.datasetCoverage.toList.map fun row =>
    ⟨.dobEcbViolations, row.status, row.statusReason⟩

/-- `BulkPropertyInputResult`: what an input came to, with a property or an error. -/
structure BulkPropertyInputResult where
  inputBbl : String
  canonicalBbl : Option CanonicalBbl
  status : BulkPropertyResultStatus
  property : Option BulkPropertyPayload
  error : Option BulkInputError

/-- `toInputFailure`: the result of a BBL that failed. -/
def toInputFailure (inputBbl : String) (canonicalBbl : CanonicalBbl) (error : BulkInputError) :
    BulkPropertyInputResult :=
  ⟨inputBbl, some canonicalBbl, .failed, none, some error⟩

/-- `toInputSuccess`: the result of a BBL that has a property. -/
def toInputSuccess (inputBbl : String) (canonicalBbl : CanonicalBbl) (property : PropertyWithRelations)
    (status : BulkPropertyResultStatus) : BulkPropertyInputResult :=
  ⟨inputBbl, some canonicalBbl, status, some (toBulkPropertyPayload property), none⟩

/-- The result of one input. -/
def inputResult (cachedByBbl : Table CanonicalBbl PropertyWithRelations) (progress : BulkProgress)
    (input : ParsedBulkInput) : BulkPropertyInputResult :=
  match input.parsed with
  | .error validationError => ⟨input.inputBbl, none, .failed, none, some validationError⟩
  | .ok canonicalBbl =>
    match progress.resolutionFailures.find canonicalBbl with
    | some resolutionFailure => toInputFailure input.inputBbl canonicalBbl resolutionFailure
    | none =>
      match progress.resolvedByBbl.find canonicalBbl with
      | none => toInputFailure input.inputBbl canonicalBbl
          ⟨"BULK_REGISTRATION_UNRESOLVED",
            s!"Bulk registration did not produce a property for BBL {canonicalBbl.text}"⟩
      | some property =>
        if (cachedByBbl.find canonicalBbl).isSome then
          toInputSuccess input.inputBbl canonicalBbl property .cached
        else
          toInputSuccess input.inputBbl canonicalBbl property .succeeded

/-- How many inputs were submitted, distinct, registered, refused and found stored. -/
structure BulkRegistrationSummary where
  submitted : Nat
  unique : Nat
  succeeded : Nat
  failed : Nat
  cached : Nat

/-- `BulkPropertyRegistrationResponse`: the summary, and the results in the order of the inputs. -/
structure BulkPropertyRegistrationResponse where
  summary : BulkRegistrationSummary
  results : List BulkPropertyInputResult

/-- How many results have a status. -/
def countStatus (status : BulkPropertyResultStatus) (results : List BulkPropertyInputResult) : Nat :=
  results.countP fun result => result.status = status

namespace Db

section Register

variable (ids : CanonicalBbl → PropertyId) (now : Time)

/-- The BBLs of a request that are looked up. -/
def uncachedBbls (bbls : List String) (cachedByBbl : Table CanonicalBbl PropertyWithRelations) :
    List CanonicalBbl :=
  (uniqueCanonicalBbls (parseBulkInputs bbls)).toList.filter fun bbl => (cachedByBbl.find bbl).isNone

/-- `registerBbls`. -/
def registerBbls (db : Db Row) (clients : BulkPropertyRegistrationClients) (bbls : List String) :
    Db Row × Except IdentityError BulkPropertyRegistrationResponse :=
  let parsedInputs := parseBulkInputs bbls
  let uniqueBbls := uniqueCanonicalBbls parsedInputs
  match db.findCachedBblRegistrations uniqueBbls.toList with
  | .error e => (db, .error e)
  | .ok cachedByBbl =>
    match bulkResolutions clients (uncachedBbls bbls cachedByBbl) with
    | .error e => (db, .error e)
    | .ok (registrations, resolutionFailures) =>
      match db.persistRegistrations ids now ⟨cachedByBbl, resolutionFailures⟩ registrations with
      | (db', .error e) => (db', .error e)
      | (db', .ok progress) =>
        let results := parsedInputs.map (inputResult cachedByBbl progress)
        (db', .ok
          { summary :=
              { submitted := bbls.length
                unique := uniqueBbls.size
                succeeded := countStatus .succeeded results
                failed := countStatus .failed results
                cached := countStatus .cached results }
            results := results })

end Register

end Db

/-! ### What a bulk resolution registers -/

/-- What the lookups of a request answer about one BBL. -/
def BulkLookups.answers (lookups : BulkLookups) : ParcelAnswers where
  parcelFootprints := lookups.parcelFootprintResults.find
  baseFootprints := lookups.condoBaseFootprintResults.find
  unit := lookups.condoUnitResults.find
  billing := lookups.condoBillingResults.find

/-- How a BBL that is given as such is resolved. -/
def bblMode (bbl : CanonicalBbl) : FootprintValidationMode :=
  if isCondoUnitBbl bbl then .condo else .nonCondo

theorem requirePresent_eq_ok {α : Type} {lookup : Option α} {a : α}
    (h : requirePresent lookup = .ok a) : lookup = some a := by
  cases lookup with
  | none => cases h
  | some b => cases h; rfl

theorem resolveCandidateBins_eq_ok {mode : FootprintValidationMode} {bbl : CanonicalBbl}
    {candidates : List BuildingFootprintCandidate} {bins : SortedSet CanonicalBin}
    (h : resolveCandidateBins mode bbl candidates = .ok bins) :
    bins = acceptedBins candidates bbl mode := by
  rw [resolveCandidateBins] at h
  split at h
  · rename_i hl
    cases h
    rw [List.length_eq_zero_iff] at hl
    rw [hl]
    rfl
  · obtain ⟨_, -, h⟩ := except_bind_ok.mp h
    cases h
    exact collectValidatedBins_eq candidates bbl mode

/-- The BINs of a lookup in a bulk flow. -/
theorem foundBins_eq_ok {lookup : Option BuildingFootprintsLookupResult} {bbl : CanonicalBbl}
    {mode : FootprintValidationMode} {bins : SortedSet CanonicalBin}
    (h : foundBins lookup (resolveCandidateBins mode bbl) = .ok bins) :
    bins = effectiveBins lookup bbl mode := by
  rcases lookup with _ | _ | candidates
  · cases h
    rfl
  · cases h
    rfl
  · exact resolveCandidateBins_eq_ok h

/-- **A bulk registration holds the effective BIN set of its BBL.** -/
theorem resolveBulkBbl_eq_ok {lookups : BulkLookups} {bbl : CanonicalBbl} {r : PropertyRegistration}
    (h : resolveBulkBbl lookups bbl = .ok r) :
    r.inputType = .bbl ∧ r.normalizedInput = bbl.text ∧ r.bbl = bbl ∧
      r.candidateBins = lookups.answers.effectiveBins (bblMode bbl) bbl := by
  rw [resolveBulkBbl] at h
  split at h
  · rename_i hc
    rw [bblMode, if_pos hc]
    cases hp : resolveBulkCondoUnit lookups bbl with
    | error e => rw [hp] at h; cases h
    | ok payload =>
        rw [hp] at h
        cases h
        obtain ⟨unitLookup, hul, hp⟩ := except_bind_ok.mp hp
        obtain ⟨unit, hu, hp⟩ := except_bind_ok.mp hp
        obtain ⟨billingLookup, hbl, hp⟩ := except_bind_ok.mp hp
        obtain ⟨billingBbl, hb, hp⟩ := except_bind_ok.mp hp
        obtain ⟨_, -, hp⟩ := except_bind_ok.mp hp
        obtain ⟨bins, hbins, hp⟩ := except_bind_ok.mp hp
        cases hp
        obtain ⟨billing, hone, he⟩ := except_bind_ok.mp hb
        cases he
        have hunit : lookups.answers.unit bbl = some (.one unit) := by
          rw [← requireSingleMatch_eq_ok hu]
          exact requirePresent_eq_ok hul
        have hbilling : lookups.answers.billing unit.condoBaseBbl = some (.one billing) := by
          rw [← requireSingleMatch_eq_ok hone]
          exact requirePresent_eq_ok hbl
        refine ⟨rfl, rfl, rfl, ?_⟩
        rw [ParcelAnswers.effectiveBins_condo hunit hbilling]
        exact foundBins_eq_ok hbins
  · rename_i hc
    rw [bblMode, if_neg hc]
    cases hp : resolveBulkNonCondo lookups bbl with
    | error e => rw [hp] at h; cases h
    | ok payload =>
        rw [hp] at h
        cases h
        obtain ⟨_, -, hp⟩ := except_bind_ok.mp hp
        obtain ⟨bins, hbins, hp⟩ := except_bind_ok.mp hp
        cases hp
        exact ⟨rfl, rfl, rfl, foundBins_eq_ok hbins⟩

end NycPropertyResolver
