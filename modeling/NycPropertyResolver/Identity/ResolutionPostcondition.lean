import NycPropertyResolver.Identity.BulkEffects

/-!
# Identity — the postcondition of a resolution

`Resolves` relates the database before and after a call that resolves an input without a cache hit:
`resolveBbl`, `resolveAddress` or `registerBbls`.  The effective BIN set of the resolution is read off
the answers of the sources alone.
-/

namespace NycPropertyResolver

open Library

variable {Row : Type}

/-! ### Resolutions -/

/-- The BBL an address leads to, by the sources. -/
def addressBbl (rules : AddressRules) (clients : PropertyResolverClients)
    (normalized : AddressNormalizationResult) : Option CanonicalBbl := do
  let geoSearchResult ← (clients.searchByAddress normalized.normalizedBaseAddress).toOption
  let selected ← (rules.selectGeoSearchCandidate geoSearchResult.candidates
    geoSearchResult.queriedAddress).toOption
  match normalized.normalizedUnitDesignation with
  | none => some selected.canonicalBbl
  | some unitDesignation => do
    let condoBaseBbl ← (resolveCondoBaseContextFromParcelBbl clients selected.canonicalBbl).toOption
    condoUnitBblByAddressContext clients condoBaseBbl unitDesignation

/-- An address with a unit is resolved as a condo unit. -/
def addressMode (normalized : AddressNormalizationResult) : FootprintValidationMode :=
  if normalized.normalizedUnitDesignation.isSome then .condo else .nonCondo

/-- A call resolves an input without a cache hit: the input, the BBL it leads to, the effective BIN
set the sources give that BBL, and the property that is returned. -/
inductive Resolves (ids : CanonicalBbl → PropertyId) (now : Time) (db db' : Db Row) :
    PropertyResolutionInputType × String → CanonicalBbl → SortedSet CanonicalBin → PropertyId → Prop
    where
  | resolveBbl {clients : PropertyResolverClients} {text : String} {bbl : CanonicalBbl}
      {property : PropertyWithRelations} (hbbl : assertValidBbl text = .ok bbl)
      (h : db.resolveBbl ids now clients text = (db', .ok ⟨property, false⟩)) :
      Resolves ids now db db' (.bbl, bbl.text) bbl
        (clients.answers.effectiveBins (bblMode bbl) bbl) property.id
  | resolveAddress {rules : AddressRules} {clients : PropertyResolverClients} {address : String}
      {normalized : AddressNormalizationResult} {bbl : CanonicalBbl}
      {property : PropertyWithRelations} (hnormal : rules.normalizeAddress address = .ok normalized)
      (hbbl : addressBbl rules clients normalized = some bbl)
      (h : db.resolveAddress ids now rules clients address = (db', .ok ⟨property, false⟩)) :
      Resolves ids now db db' (.address, normalized.normalizedInput) bbl
        (clients.answers.effectiveBins (addressMode normalized) bbl) property.id
  | registerBbls {clients : BulkPropertyRegistrationClients} {bbls : List String}
      {cached : Table CanonicalBbl PropertyWithRelations} {lookups : BulkLookups}
      {response : BulkPropertyRegistrationResponse} {result : BulkPropertyInputResult}
      {bbl : CanonicalBbl} {property : BulkPropertyPayload}
      (hcached : db.findCachedBblRegistrations
        (uniqueCanonicalBbls (parseBulkInputs bbls)).toList = .ok cached)
      (hlookups : bulkLookups clients (Db.uncachedBbls bbls cached) = .ok lookups)
      (h : db.registerBbls ids now clients bbls = (db', .ok response))
      (hresult : result ∈ response.results) (hstatus : result.status = .succeeded)
      (hbbl : result.canonicalBbl = some bbl) (hproperty : result.property = some property) :
      Resolves ids now db db' (.bbl, bbl.text) bbl
        (lookups.answers.effectiveBins (bblMode bbl) bbl) property.id

section Resolutions

variable {ids : CanonicalBbl → PropertyId} {now : Time} {db db' : Db Row}
  {clients : PropertyResolverClients} {bbl : CanonicalBbl} {r : PropertyRegistration}

theorem PropertyRegistration.Valid.of_effectiveBins {answers : ParcelAnswers}
    {mode : FootprintValidationMode} (h : r.candidateBins = answers.effectiveBins mode bbl) :
    r.Valid := by
  rw [Valid, candidateTexts, h]
  exact answers.filterValidBins_effectiveBins mode bbl

theorem resolveUncachedBbl_eq_ok (h : resolveUncachedBbl clients bbl = .ok r) :
    (r.inputType, r.normalizedInput) = (.bbl, bbl.text) ∧ r.bbl = bbl ∧
      r.candidateBins = clients.answers.effectiveBins (bblMode bbl) bbl := by
  rw [resolveUncachedBbl] at h
  split at h
  · rename_i hc
    obtain ⟨payload, hp, h⟩ := except_bind_ok.mp h
    cases h
    obtain ⟨hu, hb⟩ := resolveCondoUnitBbl_eq_ok hp
    exact ⟨rfl, hu, by rw [bblMode, isCondoUnitBbl, if_pos hc]; exact hb⟩
  · rename_i hc
    obtain ⟨payload, hp, h⟩ := except_bind_ok.mp h
    cases h
    obtain ⟨hu, hb⟩ := resolveNonCondoParcel_eq_ok hp
    exact ⟨rfl, hu, by rw [bblMode, isCondoUnitBbl, if_neg hc]; exact hb⟩

theorem resolveUncachedAddress_eq_ok {rules : AddressRules} {normalized : AddressNormalizationResult}
    (h : resolveUncachedAddress rules clients normalized = .ok r) :
    (r.inputType, r.normalizedInput) = (.address, normalized.normalizedInput) ∧
      addressBbl rules clients normalized = some r.bbl ∧
      r.candidateBins = clients.answers.effectiveBins (addressMode normalized) r.bbl := by
  rw [resolveUncachedAddress] at h
  rw [addressBbl, addressMode]
  cases hu : normalized.normalizedUnitDesignation with
  | none =>
      simp only [hu] at h
      obtain ⟨geo, hgeo, h⟩ := except_bind_ok.mp h
      obtain ⟨selected, hsel, h⟩ := except_bind_ok.mp h
      obtain ⟨payload, hp, h⟩ := except_bind_ok.mp h
      cases h
      obtain ⟨hb, hbins⟩ := resolveNonCondoParcel_eq_ok hp
      refine ⟨rfl, ?_, ?_⟩
      · rw [hgeo]
        simp only [Except.toOption, Option.bind_eq_bind, Option.bind_some, hsel]
        exact congrArg some hb.symm
      · simp only [nonCondoRegistration, hb]
        exact hbins
  | some unitDesignation =>
      simp only [hu] at h
      obtain ⟨geo, hgeo, h⟩ := except_bind_ok.mp h
      obtain ⟨selected, hsel, h⟩ := except_bind_ok.mp h
      obtain ⟨base, hbase, h⟩ := except_bind_ok.mp h
      obtain ⟨payload, hp, h⟩ := except_bind_ok.mp h
      cases h
      obtain ⟨hb, hbins⟩ := resolveCondoUnitByAddressContext_eq_ok hp
      refine ⟨rfl, ?_, hbins⟩
      rw [hgeo]
      simp only [Except.toOption, Option.bind_eq_bind, Option.bind_some, hsel, hbase]
      exact hb

/-- A resolution that is no cache hit is one registration. -/
theorem resolveInput_uncached {inputType : PropertyResolutionInputType} {normalizedInput : String}
    {resolution : Except IdentityError PropertyRegistration} {property : PropertyWithRelations}
    (h : db.resolveInput ids now inputType normalizedInput resolution =
      (db', .ok ⟨property, false⟩)) :
    db.findPropertyIdByResolutionInput inputType normalizedInput = none ∧
      ∃ r, resolution = .ok r ∧ db.registerProperty (ids r.bbl) now r = (db', .ok property) := by
  cases hf : db.findPropertyIdByResolutionInput inputType normalizedInput with
  | some p =>
      simp only [Db.resolveInput, hf] at h
      split at h <;> cases h
  | none =>
      cases hr : resolution with
      | error e =>
          simp only [Db.resolveInput, hf, hr] at h
          cases h
      | ok r =>
          simp only [Db.resolveInput, hf, hr] at h
          split at h
          · cases h
          · rename_i hreg
            cases h
            exact ⟨rfl, r, rfl, hreg⟩

/-- A result that succeeded is of a BBL that is not cached, with the property that was persisted. -/
theorem inputResult_succeeded {cached : Table CanonicalBbl PropertyWithRelations}
    {progress : BulkProgress} {input : ParsedBulkInput}
    (hstatus : (inputResult cached progress input).status = .succeeded)
    (hbbl : (inputResult cached progress input).canonicalBbl = some bbl) :
    input.parsed = .ok bbl ∧ cached.find bbl = none ∧
      ∃ property, progress.resolvedByBbl.find bbl = some property ∧
        (inputResult cached progress input).property = some (toBulkPropertyPayload property) := by
  cases hp : input.parsed with
  | error e =>
      simp only [inputResult, hp] at hstatus
      cases hstatus
  | ok b =>
      cases hf : progress.resolutionFailures.find b with
      | some e =>
          simp only [inputResult, hp, hf, toInputFailure] at hstatus
          cases hstatus
      | none =>
          cases hr : progress.resolvedByBbl.find b with
          | none =>
              simp only [inputResult, hp, hf, hr, toInputFailure] at hstatus
              cases hstatus
          | some property =>
              cases hc : cached.find b with
              | some q =>
                  simp only [inputResult, hp, hf, hr, hc, Option.isSome_some, if_true,
                    toInputSuccess] at hstatus
                  cases hstatus
              | none =>
                  simp only [inputResult, hp, hf, hr, hc, toInputSuccess, Option.isSome_none,
                    Bool.false_eq_true, if_false, Option.some.injEq] at hbbl ⊢
                  subst hbbl
                  exact ⟨rfl, hc, property, hr, rfl⟩

/-- **The postcondition of a resolution holds exactly when no BINs are kept**: when the sources give
the BBL a BIN, or no property stands there, or it has no BIN. -/
theorem resolution_postcondition_iff {key : PropertyResolutionInputType × String}
    {bins : SortedSet CanonicalBin} {p : PropertyId} (h : Resolves ids now db db' key bbl bins p) :
    Resolved db db' key bbl bins p ↔ ¬ KeepsBins db bbl bins := by
  cases h with
  | resolveBbl hbbl h =>
      rw [Db.resolveBbl, hbbl] at h
      obtain ⟨hmiss, r, hr, hreg⟩ := resolveInput_uncached h
      obtain ⟨hkey, hb, hbins⟩ := resolveUncachedBbl_eq_ok hr
      rw [← hkey, ← hbins, ← hb]
      obtain ⟨ht, hi⟩ := Prod.mk.inj hkey
      rw [← ht, ← hi] at hmiss
      exact registerProperty_resolved_iff (.of_effectiveBins hbins) hmiss hreg
  | resolveAddress hnormal hbbl h =>
      rw [Db.resolveAddress, hnormal] at h
      obtain ⟨hmiss, r, hr, hreg⟩ := resolveInput_uncached h
      obtain ⟨hkey, hb, hbins⟩ := resolveUncachedAddress_eq_ok hr
      rw [hbbl] at hb
      cases hb
      rw [← hkey, ← hbins]
      obtain ⟨ht, hi⟩ := Prod.mk.inj hkey
      rw [← ht, ← hi] at hmiss
      exact registerProperty_resolved_iff (.of_effectiveBins hbins) hmiss hreg
  | registerBbls hcached hlookups h hresult hstatus hbbl hproperty =>
      simp only [Db.registerBbls, hcached] at h
      split at h
      · cases h
      rename_i registrations failures hres
      split at h
      · cases h
      rename_i db₃ progress hpersist
      cases h
      obtain ⟨input, hinput, rfl⟩ := List.mem_map.mp hresult
      obtain ⟨hparsed, hmiss, property, hfind, hp⟩ := inputResult_succeeded hstatus hbbl
      rw [hp] at hproperty
      cases hproperty
      have hmem : bbl ∈ (uniqueCanonicalBbls (parseBulkInputs _)).toList :=
        SortedSet.mem_ofList.mpr (List.mem_filterMap.mpr ⟨input, hinput, by rw [hparsed]; rfl⟩)
      have hstored := findCachedBblRegistrations_none hcached hmem hmiss
      obtain ⟨hnodup, hall⟩ := bulkResolutions_eq_ok
        ((SortedSet.nodup _).filter _) hlookups hres
      have hkeys : ∀ r ∈ registrations, (r.inputType, r.normalizedInput) = (.bbl, r.bbl.text) := by
        intro r hr
        obtain ⟨ht, hi, -⟩ := resolveBulkBbl_eq_ok (hall r hr)
        rw [ht, hi]
      obtain ⟨r, hr, rfl, db₁, db₂, hs₁, hreg, hs₂⟩ :=
        persistRegistrations_resolved hnodup hkeys hpersist hmiss hfind
      obtain ⟨ht, hi, -, hbins⟩ := resolveBulkBbl_eq_ok (hall r hr)
      have hstored₁ : db₁.findPropertyIdByResolutionInput r.inputType r.normalizedInput = none := by
        rw [ht, hi, Db.findPropertyIdByResolutionInput, hs₁.input]
        exact hstored
      have hone := registerProperty_resolved_iff (.of_effectiveBins hbins) hstored₁ hreg
      rw [ht, hi, hbins] at hone
      constructor
      · intro hpost hk
        exact hone.mp (hpost.of_sameAt hs₁.symm hs₂.symm) (hk.of_sameAt hs₁)
      · intro hk
        exact (hone.mpr fun hk' => hk (hk'.of_sameAt hs₁.symm)).of_sameAt hs₁ hs₂

end Resolutions

/-! ### A property with one BIN -/

/-- The BBL of the parcel. -/
def mainStreetBbl : CanonicalBbl := ⟨"1000010001", by decide, by decide⟩

/-- A lookup that finds one footprint, with a BIN. -/
def footprintOf (bin : CanonicalBin) : BuildingFootprintsLookupResult :=
  .found [⟨bin, mainStreetBbl, none⟩]

/-- Sources that know one parcel, with the given footprints. -/
def mainStreetClients (footprints : BuildingFootprintsLookupResult) : PropertyResolverClients where
  searchByAddress address := .ok ⟨address, [⟨address, none, "address", some 1, some "1000010001",
    none, none, none⟩]⟩
  plutoLookupByBbl bbl := .ok (.found ⟨bbl, 1, 1, 1, "1 MAIN STREET", none⟩)
  footprintsLookupByParcelBbl _ := .ok footprints
  footprintsLookupByBaseBbl _ := .ok .notFound
  lookupByUnitBbl _ := .ok .zero
  lookupByCondoBaseAndUnitDesignation _ _ := .ok .zero
  lookupByCondoBillingBbl _ := .ok .zero
  lookupByCondoBaseBbl _ := .ok .zero

/-- Addresses without a unit, taken as they are, by the first candidate. -/
def plainAddresses : AddressRules where
  normalizeAddress address := .ok ⟨address, none, address⟩
  selectGeoSearchCandidate candidates _ :=
    match candidates with
    | candidate :: _ => .ok ⟨candidate, mainStreetBbl⟩
    | [] => .error (.app "RESOLVER_GEOSEARCH_NO_MATCH" "no candidate" 422)

/-- The property, registered by its address with the BIN 1000001. -/
def mainStreetDb : Db Unit :=
  ((Db.empty : Db Unit).resolveAddress (fun _ => 0) 0 plainAddresses
    (mainStreetClients (footprintOf ⟨"1000001", by decide, by decide⟩)) "1 MAIN STREET").1

/-- The property an uncached resolution returns. -/
def uncachedId? (result : Except IdentityError ResolvePropertyResult) : Option PropertyId :=
  match result with
  | .ok ⟨property, false⟩ => some property.id
  | _ => none

theorem uncachedId?_eq_some {result : Except IdentityError ResolvePropertyResult} {p : PropertyId}
    (h : uncachedId? result = some p) :
    ∃ property : PropertyWithRelations, result = .ok ⟨property, false⟩ ∧ property.id = p := by
  rcases result with _ | ⟨property, _ | _⟩
  · cases h
  · exact ⟨property, rfl, Option.some.inj h⟩
  · cases h

/-- A resolution of a BBL that returns an uncached property. -/
theorem resolves_of_uncachedId? {db : Db Row} {ids : CanonicalBbl → PropertyId} {now : Time}
    {clients : PropertyResolverClients} {bbl : CanonicalBbl} {p : PropertyId}
    (h : uncachedId? (db.resolveBbl ids now clients bbl.text).2 = some p) :
    Resolves ids now db (db.resolveBbl ids now clients bbl.text).1 (.bbl, bbl.text) bbl
      (clients.answers.effectiveBins (bblMode bbl) bbl) p := by
  obtain ⟨property, hr, rfl⟩ := uncachedId?_eq_some h
  exact .resolveBbl (Db.assertValidBbl_text bbl) (Prod.ext rfl hr)

/-- With another BIN in the footprints, the property is given that BIN. -/
theorem resolution_postcondition_iff_otherBin :
    Resolved mainStreetDb
      (mainStreetDb.resolveBbl (fun _ => 0) 1
        (mainStreetClients (footprintOf ⟨"1000002", by decide, by decide⟩)) mainStreetBbl.text).1
      (.bbl, mainStreetBbl.text) mainStreetBbl
      ((mainStreetClients (footprintOf ⟨"1000002", by decide, by decide⟩)).answers.effectiveBins
        (bblMode mainStreetBbl) mainStreetBbl) 0 :=
  (resolution_postcondition_iff (resolves_of_uncachedId? (by decide +kernel))).mpr
    fun hk => absurd hk.1 (by decide +kernel)

/-- Without a footprint, the resolution succeeds, and the property keeps its BIN. -/
theorem kept_bins_break_postcondition :
    Resolves (fun _ => 0) 1 mainStreetDb
      (mainStreetDb.resolveBbl (fun _ => 0) 1 (mainStreetClients .notFound) mainStreetBbl.text).1
      (.bbl, mainStreetBbl.text) mainStreetBbl .empty 0 ∧
    ¬ Resolved mainStreetDb
      (mainStreetDb.resolveBbl (fun _ => 0) 1 (mainStreetClients .notFound) mainStreetBbl.text).1
      (.bbl, mainStreetBbl.text) mainStreetBbl .empty 0 := by
  refine ⟨resolves_of_uncachedId? (by decide +kernel), fun h => ?_⟩
  exact absurd h.bins_eq (by decide +kernel)

end NycPropertyResolver
