import NycPropertyResolver.Clients.GeoSearch
import NycPropertyResolver.Identity.CandidateOrder
import NycPropertyResolver.Identity.UnitAddress

/-!
# Identity — the parcel of an address

An address without a unit is resolved by one search of GeoSearch.  Its property stands at a BBL that a
feature of the response names, and that every feature names which could have been selected; and where
one of these has a confidence, the order of the features decides nothing
(`address_resolves_to_named_parcel`).
-/

namespace NycPropertyResolver

open Library

variable {Row : Type}

/-! ### Selection -/

section Selection

variable {mapping : CaseMapping} {locale : LocaleCompare} {candidates : List GeoSearchCandidate}
  {address : String} {selected : SelectedGeoSearchCandidate}

/-- **What is selected**: a candidate of the pool, and all of the pool carry its BBL. -/
theorem selectGeoSearchCandidate_eq_ok
    (h : selectGeoSearchCandidate mapping locale candidates address = .ok selected) :
    selected.candidate ∈ supportedCandidates mapping address candidates ∧
      CarryBbl (supportedCandidates mapping address candidates) selected.canonicalBbl := by
  rw [selectGeoSearchCandidate_eq] at h
  split at h
  · rename_i husable
    have hne := supportedCandidates_ne_nil.mp husable
    by_cases hcarry : ∃ bbl, CarryBbl (supportedCandidates mapping address candidates) bbl
    · obtain ⟨bbl, hcarry⟩ := hcarry
      obtain ⟨c, hc⟩ := exists_head?_sortGeoSearchCandidates locale hne
      rw [selectFromPool_of_carryBbl hcarry hc] at h
      cases h
      exact ⟨mem_sortGeoSearchCandidates.mp (List.mem_of_mem_head? hc), hcarry⟩
    · rw [selectFromPool_of_not_carryBbl hne fun bbl hbbl => hcarry ⟨bbl, hbbl⟩] at h
      split at h
      · cases h
      · cases h
  · split at h
    · cases h
    · cases h

/-- What tells the candidates of the pool apart decides which is selected: they are distinct, and one
has a confidence unless there is but one.  Without any confidence two distinct candidates compare as
NaN, and their order decides. -/
def Distinguished (pool : List GeoSearchCandidate) : Prop :=
  (pool.map GeoSearchCandidate.identity).Nodup ∧
    (pool.length ≤ 1 ∨ ∃ c ∈ pool, c.confidence ≠ none)

instance : DecidablePred Distinguished := fun _ => inferInstanceAs (Decidable (_ ∧ _))

theorem not_orderDecides_of_distinguished
    (h : Distinguished (supportedCandidates mapping address candidates))
    (hsource : ∀ c ∈ candidates, c.sourceId ≠ some "") :
    ¬ OrderDecides mapping locale candidates address := by
  rintro ⟨-, htied⟩
  have hpool := (tiedForFirst_iff_of_distinct h.1 fun c hc =>
    hsource c (List.mem_of_mem_filter hc)).mp htied
  rcases h.2 with hone | ⟨c, hc, hconfidence⟩
  · exact absurd hpool.1 (Nat.not_le.mpr (Nat.lt_succ_of_le hone))
  · exact hconfidence (hpool.2 c hc)

end Selection

/-! ### Resolution -/

/-- The resolver with the client of GeoSearch. -/
def PropertyResolverClients.withGeoSearch (clients : PropertyResolverClients) (text : SourceText)
    (thrown : SourceClientError → IdentityError) (client : GeoSearchClient) : PropertyResolverClients :=
  { clients with searchByAddress := fun address =>
      (client.searchByAddress text address).mapError thrown }

section Resolution

variable {mapping : CaseMapping} {locale : LocaleCompare} {text : SourceText}
  {thrown : SourceClientError → IdentityError} {client : GeoSearchClient}
  {clients : PropertyResolverClients} {normalized : AddressNormalizationResult}
  {response : GeoSearchSearchResult} {r : PropertyRegistration} {db db' : Db Row}
  {freshId : PropertyId} {now : Time}

/-- An address without a unit is resolved by the one search. -/
theorem resolveUncachedAddress_withGeoSearch
    (hunit : normalized.normalizedUnitDesignation = none)
    (h : client.searchByAddress text normalized.normalizedBaseAddress = .ok response) :
    resolveUncachedAddress (addressRules mapping locale) (clients.withGeoSearch text thrown client)
        normalized =
      resolveUncachedAddress (addressRules mapping locale) (clients.answering response) normalized := by
  have hsearch : (clients.withGeoSearch text thrown client).searchByAddress
      normalized.normalizedBaseAddress = .ok response := by
    simp only [PropertyResolverClients.withGeoSearch, h, Except.mapError]
  simp only [resolveUncachedAddress, hunit, resolveStandardAddress]
  rw [hsearch]
  rfl

theorem resolveStandardAddress_eq_ok (hunit : normalized.normalizedUnitDesignation = none)
    (h : resolveUncachedAddress (addressRules mapping locale) (clients.withGeoSearch text thrown client)
      normalized = .ok r) :
    ∃ response selected, client.searchByAddress text normalized.normalizedBaseAddress = .ok response ∧
      selectGeoSearchCandidate mapping locale response.candidates response.queriedAddress =
        .ok selected ∧ selected.canonicalBbl = r.bbl := by
  simp only [resolveUncachedAddress, hunit, resolveStandardAddress] at h
  obtain ⟨response, hsearch, h⟩ := except_bind_ok.mp h
  obtain ⟨selected, hselected, h⟩ := except_bind_ok.mp h
  obtain ⟨payload, hpayload, h⟩ := except_bind_ok.mp h
  cases h
  refine ⟨response, selected, ?_, hselected, (resolveNonCondoParcel_eq_ok hpayload).1.symm⟩
  cases hclient : client.searchByAddress text normalized.normalizedBaseAddress with
  | error e =>
      simp only [PropertyResolverClients.withGeoSearch, hclient, Except.mapError] at hsearch
      cases hsearch
  | ok response' =>
      simp only [PropertyResolverClients.withGeoSearch, hclient, Except.mapError] at hsearch
      cases hsearch
      rfl

/-- What a registration returns stands at its BBL. -/
theorem registerProperty_bbl {property : PropertyWithRelations} (hr : r.Valid)
    (h : db.registerProperty freshId now r = (db', .ok property)) :
    db'.properties.find property.id = some property.property ∧ property.property.bbl = r.bbl := by
  obtain ⟨db₂, hchange, -, hload⟩ := Db.registerProperty_eq_ok hr h
  refine ⟨(registerProperty_property h).1, ?_⟩
  obtain ⟨stored, hstored, hproperty⟩ := Option.map_eq_some_iff.mp hload
  have hbbl : ∀ p q, db₂.findPropertyByBbl r.bbl = some p → db₂.properties.find p = some q →
      q.bbl = r.bbl := by
    intro p q hp hq
    obtain ⟨q', hq', hbbl⟩ := Db.findPropertyByBbl_eq_some hp
    rw [hq] at hq'
    cases hq'
    exact hbbl
  rw [← hproperty]
  cases hchange with
  | created _ _ hcreated _ hdb =>
      subst hdb
      rw [Table.find_set_self] at hstored
      cases hstored
      exact hcreated
  | kept hfound => exact hbbl _ _ hfound hstored
  | replaced hfound =>
      exact hbbl _ _ (Db.findPropertyByBbl_replaceBinSet.trans hfound) hstored

/-- A feature names a BBL. -/
def Names (text : SourceText) (properties : GeoSearchFeature) (bbl : CanonicalBbl) : Prop :=
  ∃ identifier, extractPadIdentifier text properties "bbl" = some identifier ∧
    canonicalizeBbl identifier = some bbl

theorem names_of_candidateBbl {properties : GeoSearchFeature} {candidate : GeoSearchCandidate}
    {bbl : CanonicalBbl} (hparse : parseCandidate text properties = some candidate)
    (hsome : candidate.bbl.isSome = true) (h : candidateBbl candidate = .ok bbl) :
    Names text properties bbl := by
  obtain ⟨identifier, hidentifier⟩ := Option.isSome_iff_exists.mp hsome
  refine ⟨identifier, ?_, ?_⟩
  · obtain ⟨label, -, rfl⟩ := Option.map_eq_some_iff.mp hparse
    exact hidentifier
  · rw [candidateBbl, hidentifier, Option.getD_some, assertValidBbl] at h
    split at h
    · cases h
      assumption
    · cases h

end Resolution

/-- A feature of the tower, with a confidence of one digit. -/
def towerFeature (confidence : Char) (sourceId : String) : JsonValue :=
  .object [("type".toList, .string "Feature".toList), ("properties".toList, .object
    [("label".toList, .string "350 5 AVENUE, MANHATTAN".toList),
      ("confidence".toList, .number [confidence]), ("pad_bbl".toList, .string towerBaseBbl.text.toList),
      ("id".toList, .string sourceId.toList)])]

/-- The answer that GeoSearch gives with the features. -/
def towerPayload (features : List JsonValue) : JsonValue :=
  .object [("type".toList, .string "FeatureCollection".toList), ("features".toList, .array features)]

/-- A search that is always answered with the features. -/
def towerSearch (features : List JsonValue) : GeoSearchClient where
  searchUrl := "https://geosearch.planninglabs.nyc/v2/search"
  requestTimeoutMs := 30000
  searchSize := 10
  fetchFn _ := .response 200 (some (towerPayload features))

/-- The resolution of the address of the tower, from an empty database. -/
def towerAddressResolution (features : List JsonValue) :
    Db Unit × Except IdentityError ResolvePropertyResult :=
  (Db.empty : Db Unit).resolveAddress (fun _ => 0) 0 (addressRules .ascii .codePoints)
    (towerClients.withGeoSearch .ascii (fun _ => .typeError) (towerSearch features)) "350 5th Ave"

end NycPropertyResolver
