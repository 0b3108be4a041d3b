import NycPropertyResolver.Clients.OpenDataset
import NycPropertyResolver.Clients.SocrataResponses
import NycPropertyResolver.Identity.Resolution

/-!
# Clients — GeoSearch

`geosearch.client.ts`: an address is searched by one request, its response is checked for the shape of a
feature collection, and each feature with a label is a candidate, in the order of the response.  A
candidate carries the BBL that the feature names, in `pad_bbl` or in its addendum.
-/

namespace NycPropertyResolver

open Library
open RequestExecutor (ThrownValue)

/-! ### Features -/

/-- `coerceString`. -/
def coerceString : Option JsonValue → Option String
  | some (.string text) =>
    if isBlank (String.ofList text) then none else some (trim (String.ofList text))
  | _ => none

/-- `Math.trunc`. -/
def truncate (value : Rat) : Rat := if value < 0 then value.ceil else value.floor

/-- `coerceIdentifier`. -/
def coerceIdentifier (text : SourceText) : Option JsonValue → Option String
  | some (.number literal) =>
    match literalValue literal with
    | .finite value => some (text.numberText (.finite (truncate value)))
    | _ => none
  | value => coerceString value

/-- `coerceConfidence`. -/
def coerceConfidence : Option JsonValue → Option Rat
  | some (.number literal) =>
    match literalValue literal with
    | .finite value => some value
    | _ => none
  | _ => none

/-- The `properties` of a feature; empty where there are none. -/
abbrev GeoSearchFeature := EcbTransportRow

/-- A member of a value that is an object. -/
def memberOf (value : Option JsonValue) (field : String) : Option JsonValue :=
  match value with
  | some (.object members) => (recordOf members).find field
  | _ => none

/-- `extractPadIdentifier`. -/
def extractPadIdentifier (text : SourceText) (properties : GeoSearchFeature) (field : String) :
    Option String :=
  match coerceIdentifier text (properties.find ("pad_" ++ field)) with
  | some direct => some direct
  | none => coerceIdentifier text (memberOf (memberOf (properties.find "addendum") "pad") field)

/-- `parseCandidate`. -/
def parseCandidate (text : SourceText) (properties : GeoSearchFeature) : Option GeoSearchCandidate :=
  ((coerceString (properties.find "label")).or (coerceString (properties.find "name"))).map fun label =>
    { label := label
      name := coerceString (properties.find "name")
      layer := (coerceString (properties.find "layer")).getD "unknown"
      confidence := coerceConfidence (properties.find "confidence")
      bbl := extractPadIdentifier text properties "bbl"
      bin := extractPadIdentifier text properties "bin"
      borough := coerceString (properties.find "borough")
      sourceId := (coerceString (properties.find "id")).or (coerceString (properties.find "gid")) }

/-! ### Responses -/

/-- `z.literal(name)`. -/
def isLiteral (name : String) : Option JsonValue → Bool
  | some (.string text) => String.ofList text == name
  | _ => false

/-- `typeof value === "number"`. -/
def isNumber : JsonValue → Bool
  | .number _ => true
  | _ => false

/-- The schema of a geometry, which may be missing. -/
def isGeometry : Option JsonValue → Bool
  | none => true
  | some (.object members) =>
    let geometry := recordOf members
    let hasType := match geometry.find "type" with
      | some (.string _) => true
      | _ => false
    let hasCoordinates := match geometry.find "coordinates" with
      | none => true
      | some (.array items) => items.all isNumber
      | some _ => false
    hasType && hasCoordinates
  | some _ => false

/-- `geosearchFeatureSchema`. -/
def parseFeature (value : JsonValue) : Option GeoSearchFeature :=
  match value with
  | .object members =>
    let feature := recordOf members
    if isLiteral "Feature" (feature.find "type") && isGeometry (feature.find "geometry") then
      match feature.find "properties" with
      | none => some .empty
      | some properties => record? properties
    else
      none
  | _ => none

/-- `geosearchResponseSchema`. -/
def parseFeatures (payload : JsonValue) : Option (List GeoSearchFeature) :=
  match payload with
  | .object members =>
    let response := recordOf members
    if isLiteral "FeatureCollection" (response.find "type") then
      match response.find "features" with
      | some (.array features) => features.mapM parseFeature
      | _ => none
    else
      none
  | _ => none

/-! ### The client -/

/-- What `fetch` comes to: it throws, or there is a response, with its body where that is JSON. -/
inductive GeoSearchFetch where
  | failed (thrown : ThrownValue)
  | response (status : Nat) (body : Option JsonValue)

/-- The GeoSearch client: where it searches, for how long and how much, and what answers it. -/
structure GeoSearchClient where
  /-- `/v2/search` of the base URL. -/
  searchUrl : String
  requestTimeoutMs : Nat
  searchSize : Nat
  fetchFn : String → GeoSearchFetch

/-- The error of an answer that is not what GeoSearch documents. -/
def geoSearchMalformedResponse (message : String) : SourceClientError :=
  .app "GEOSEARCH_MALFORMED_RESPONSE" message none

/-- The body of a response of success; `none` where it is no feature collection. -/
def searchResult (text : SourceText) (queriedAddress : String) (payload : JsonValue) :
    Except SourceClientError GeoSearchSearchResult :=
  match parseFeatures payload with
  | none => .error (geoSearchMalformedResponse
      "GeoSearch response did not match the expected GeoJSON FeatureCollection shape")
  | some [] => .error (.app "GEOSEARCH_EMPTY_RESULT"
      "GeoSearch returned no address candidates for the normalized base address" none)
  | some features =>
    let candidates := features.filterMap (parseCandidate text)
    if candidates.isEmpty then
      .error (geoSearchMalformedResponse "GeoSearch returned features without usable candidate labels")
    else
      .ok ⟨queriedAddress, candidates⟩

namespace GeoSearchClient

/-- `buildSearchUrl`: the address and the number of results, as query parameters. -/
def buildSearchUrl (client : GeoSearchClient) (normalizedBaseAddress : String) : String :=
  queryUrl client.searchUrl
    [("text", normalizedBaseAddress), ("size", toString client.searchSize)]

/-- `searchByAddress`: the candidates of an address, or the error that the answer means. -/
def searchByAddress (client : GeoSearchClient) (text : SourceText) (normalizedBaseAddress : String) :
    Except SourceClientError GeoSearchSearchResult :=
  if isBlank normalizedBaseAddress then
    .error (.app "GEOSEARCH_INVALID_INPUT" "GeoSearch requires a non-empty normalized base address"
      (some 400))
  else
    let trimmedAddress := trim normalizedBaseAddress
    match client.fetchFn (client.buildSearchUrl trimmedAddress) with
    | .failed thrown =>
      if isAbortError thrown then
        .error (.app "GEOSEARCH_TIMEOUT"
          s!"GeoSearch request timed out after {client.requestTimeoutMs}ms" none)
      else
        .error (.app "GEOSEARCH_REQUEST_FAILED"
          "GeoSearch request failed before a response was received" none)
    | .response status body =>
      if isOk status then
        match body with
        | none => .error (geoSearchMalformedResponse "GeoSearch response was not valid JSON")
        | some payload => searchResult text trimmedAddress payload
      else
        .error (.app "GEOSEARCH_HTTP_ERROR" s!"GeoSearch returned HTTP {status}" (some status))

/-- The client gets a response with these features for an address. -/
def Responds (client : GeoSearchClient) (normalizedBaseAddress : String)
    (features : List GeoSearchFeature) : Prop :=
  ∃ status payload,
    client.fetchFn (client.buildSearchUrl (trim normalizedBaseAddress)) = .response status (some payload) ∧
    isOk status = true ∧ parseFeatures payload = some features

end GeoSearchClient

/-! ### Candidates -/

section Candidates

variable {text : SourceText} {client : GeoSearchClient} {address : String}
  {features features' : List GeoSearchFeature} {response : GeoSearchSearchResult}

theorem coerceString_ne_empty {value : Option JsonValue} {s : String}
    (h : coerceString value = some s) : s ≠ "" := by
  rintro rfl
  cases value with
  | none => cases h
  | some value =>
      cases value with
      | string chars =>
          rw [coerceString] at h
          split at h
          · cases h
          · rename_i hblank
            have htrim : trimChars (String.ofList chars).toList = [] :=
              String.ofList_injective (Option.some.inj h)
            exact hblank (by rw [isBlank, htrim]; rfl)
      | _ => cases h

/-- The client gives no empty source id. -/
theorem sourceId_ne_empty {properties : GeoSearchFeature} {candidate : GeoSearchCandidate}
    (h : parseCandidate text properties = some candidate) : candidate.sourceId ≠ some "" := by
  obtain ⟨label, -, rfl⟩ := Option.map_eq_some_iff.mp h
  intro hsource
  rcases Option.or_eq_some_iff.mp hsource with hid | ⟨-, hgid⟩
  · exact coerceString_ne_empty hid rfl
  · exact coerceString_ne_empty hgid rfl

/-- **What a search gives**: the candidates of a response, in its order. -/
theorem searchByAddress_eq_ok (h : client.searchByAddress text address = .ok response) :
    isBlank address = false ∧ ∃ features, client.Responds address features ∧
      features.filterMap (parseCandidate text) ≠ [] ∧
      response = ⟨trim address, features.filterMap (parseCandidate text)⟩ := by
  rw [GeoSearchClient.searchByAddress] at h
  split at h
  · cases h
  rename_i hblank
  refine ⟨Bool.eq_false_iff.mpr hblank, ?_⟩
  simp only at h
  split at h
  · split at h
    · cases h
    · cases h
  rename_i status body hfetch
  split at h
  · rename_i hok
    split at h
    · cases h
    rename_i payload
    rw [searchResult] at h
    split at h
    · cases h
    · cases h
    rename_i features _ hparsed
    simp only at h
    split at h
    · cases h
    rename_i hcandidates
    cases h
    refine ⟨features, ⟨status, payload, hfetch, hok, hparsed⟩, ?_, rfl⟩
    exact fun hempty => hcandidates (by rw [hempty]; rfl)
  · cases h

theorem searchByAddress_of_responds (hblank : isBlank address = false)
    (h : client.Responds address features) (hne : features.filterMap (parseCandidate text) ≠ []) :
    client.searchByAddress text address =
      .ok ⟨trim address, features.filterMap (parseCandidate text)⟩ := by
  obtain ⟨status, payload, hfetch, hok, hparsed⟩ := h
  rw [GeoSearchClient.searchByAddress, hblank]
  simp only [Bool.false_eq_true, if_false, hfetch, hok, if_true, searchResult, hparsed]
  cases features with
  | nil => exact absurd rfl hne
  | cons feature rest =>
      have hempty : ((feature :: rest).filterMap (parseCandidate text)).isEmpty = false := by
        rw [Bool.eq_false_iff]
        exact fun hempty => hne (List.isEmpty_iff.mp hempty)
      simp only [hempty, Bool.false_eq_true, if_false]

end Candidates

end NycPropertyResolver
