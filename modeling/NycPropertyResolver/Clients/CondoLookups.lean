import NycPropertyResolver.Clients.OpenDataset
import NycPropertyResolver.Identity.Resolution
import NycPropertyResolver.Library.Grouping

/-!
# Clients — condominium lookups

`condo-units.client.ts` and `condominiums.client.ts`: the unit records of a unit BBL and the billing
records of a condo base BBL.  The two clients are one algorithm over two datasets (`CondoSource`): a
single lookup reads one page of the rows of its key; a bulk lookup reads the rows of a chunk of keys
page by page, parses them all, and gathers them by key.
-/

namespace NycPropertyResolver

open Library

namespace Condo

/-! ### Constants -/

/-- `DEFAULT_CONDO_LOOKUP_LIMIT`: the rows of a single lookup. -/
def defaultCondoLookupLimit : Nat := 25

/-- `SOCRATA_MAX_PAGE_LIMIT`. -/
def socrataMaxPageLimit : Nat := 50000

/-- `BULK_LOOKUP_CHUNK_SIZE` of both clients: the BBLs of one bulk query. -/
def bulkLookupChunkSize : Nat := 500

/-- `BULK_MAX_LOOKUP_PAGES` of both clients: the pages of one chunk. -/
def bulkMaxLookupPages : Nat := 20

/-- `CONDO_UNITS_BULK_LOOKUP_RESULT_LIMIT_PER_KEY`. -/
def condoUnitsBulkLookupResultLimitPerKey : Nat := 2

/-- `CONDOMINIUMS_BULK_LOOKUP_RESULT_LIMIT_PER_KEY`. -/
def condominiumsBulkLookupResultLimitPerKey : Nat := defaultCondoLookupLimit

/-! ### Rows -/

/-- The error of a row that cannot be read. -/
def malformedRow (codes message : String) : SourceClientError :=
  .app (codes ++ "_MALFORMED_RESPONSE") message (some 502)

/-- `padStart(10, '0')`. -/
def padStart (cs : List Char) : List Char := List.replicate (10 - cs.length) '0' ++ cs

/-- A BBL column: a finite number is padded, a text is read as it is. -/
def sourceBbl? : SourceValue → Option CanonicalBbl
  | .number _ (some truncated) => canonicalizeBbl (String.ofList (padStart truncated.toList))
  | .string value => canonicalizeBbl value
  | _ => none

/-- `normalizeSourceBbl`: the BBL of a column, which every row must have. -/
def normalizeSourceBbl (codes name fieldName : String) (value : SourceValue) :
    Except SourceClientError CanonicalBbl :=
  match sourceBbl? value with
  | some bbl => .ok bbl
  | none => .error (malformedRow codes (name ++ " response row is missing a valid " ++ fieldName))

/-- `normalizeUnitDesignation`: a designation may be absent, but it is a text or a number. -/
def normalizeUnitDesignation (value : SourceValue) : Except SourceClientError (Option String) :=
  match value with
  | .null | .undefined => .ok none
  | .string value => .ok (if (trim value).isEmpty then none else some (trim value))
  | .number shown (some _) => .ok (some shown)
  | _ =>
    .error (malformedRow "CONDO_UNITS"
      "Condominium Units response row has an invalid unit_designation")

/-- `parseCondoUnitRow`: a row of the units, read column by column. -/
def parseCondoUnitRow (row : SourceRecord) : Except SourceClientError CondoUnitRecord := do
  let unitBbl ← normalizeSourceBbl "CONDO_UNITS" "Condominium Units" "unit_bbl" (row "unit_bbl")
  let condoBaseBbl ←
    normalizeSourceBbl "CONDO_UNITS" "Condominium Units" "condo_base_bbl" (row "condo_base_bbl")
  let unitDesignation ← normalizeUnitDesignation (row "unit_designation")
  .ok ⟨unitBbl, condoBaseBbl, unitDesignation⟩

/-- `parseCondominiumRow`: a row of the condominiums, read column by column. -/
def parseCondominiumRow (row : SourceRecord) : Except SourceClientError CondominiumBillingRecord := do
  let condoBaseBbl ←
    normalizeSourceBbl "CONDOMINIUMS" "Condominiums" "condo_base_bbl" (row "condo_base_bbl")
  let condoBillingBbl ←
    normalizeSourceBbl "CONDOMINIUMS" "Condominiums" "condo_billing_bbl" (row "condo_billing_bbl")
  .ok ⟨condoBaseBbl, condoBillingBbl⟩

/-- By unit BBL, then by base BBL. -/
def sortCondoUnitRecords (records : List CondoUnitRecord) : List CondoUnitRecord :=
  records.insertionSort fun left right =>
    left.unitBbl < right.unitBbl ∨
      left.unitBbl = right.unitBbl ∧ left.condoBaseBbl ≤ right.condoBaseBbl

/-- By billing BBL, then by base BBL. -/
def sortCondominiumRecords (records : List CondominiumBillingRecord) :
    List CondominiumBillingRecord :=
  records.insertionSort fun left right =>
    left.condoBillingBbl < right.condoBillingBbl ∨
      left.condoBillingBbl = right.condoBillingBbl ∧ left.condoBaseBbl ≤ right.condoBaseBbl

/-! ### The two datasets -/

/-- What a client knows of its dataset: the prefix of its error codes and its name in messages, the
column its keys are in, the column its queries are ordered by, its rows, and the pages of a bulk
lookup.  `arrange` is what it does with the rows of a chunk before it gathers them. -/
structure CondoSource (α : Type) where
  codes : String
  name : String
  keyColumn : String
  orderColumn : String
  parseRow : SourceRecord → Except SourceClientError α
  key : α → CanonicalBbl
  sort : List α → List α
  arrange : List α → List α
  resultLimitPerKey : Nat

/-- The Condominium Units client: units by their own BBL, in the order they arrive. -/
def condoUnits : CondoSource CondoUnitRecord where
  codes := "CONDO_UNITS"
  name := "Condominium Units"
  keyColumn := "unit_bbl"
  orderColumn := "unit_bbl"
  parseRow := parseCondoUnitRow
  key := (·.unitBbl)
  sort := sortCondoUnitRecords
  arrange := id
  resultLimitPerKey := condoUnitsBulkLookupResultLimitPerKey

/-- The Condominiums client: billing lots by their base BBL, sorted before they are grouped. -/
def condominiums : CondoSource CondominiumBillingRecord where
  codes := "CONDOMINIUMS"
  name := "Condominiums"
  keyColumn := "condo_base_bbl"
  orderColumn := "condo_billing_bbl"
  parseRow := parseCondominiumRow
  key := (·.condoBaseBbl)
  sort := sortCondominiumRecords
  arrange := sortCondominiumRecords
  resultLimitPerKey := condominiumsBulkLookupResultLimitPerKey

/-! ### The clients -/

/-- What answers a client's queries, the time it has, and its limit of rows. -/
structure CondoClient where
  fetchImpl : SourceQuery → FetchOutcome
  timeoutMs : Nat
  lookupLimit : Nat

/-- `classifyLookupResult`: none, one or several rows. -/
def classifyLookupResult {α : Type} : List α → LookupMatches α
  | [] => .zero
  | [record] => .one record
  | records => .multiple records

/-- The page limit of a chunk: the rows its keys may have, at most what Socrata serves. -/
def bulkQueryPageLimit (keyCount resultLimitPerKey : Nat) : Nat :=
  min socrataMaxPageLimit (max (keyCount * resultLimitPerKey) keyCount)

section Lookups

variable {α : Type} (source : CondoSource α) (client : CondoClient)

/-- `fetchRows`; only an `AbortError` is told from the other rejections. -/
def fetchRows (query : SourceQuery) : Except SourceClientError (List SourceRecord) :=
  match client.fetchImpl query with
  | .aborted =>
    .error (.app (source.codes ++ "_REQUEST_TIMEOUT")
      s!"{source.name} request timed out after {client.timeoutMs}ms" (some 504))
  | .timedOut | .failed => .error .transport
  | .response status payload =>
    if isOk status then
      match payload with
      | .notJson =>
        .error (malformedRow source.codes (source.name ++ " response was not valid JSON"))
      | .notArray =>
        .error (malformedRow source.codes (source.name ++ " response must be a JSON array"))
      | .array rows => .ok rows
    else
      .error (.app (source.codes ++ "_HTTP_ERROR")
        s!"{source.name} request failed with HTTP {status}" (some 502))

/-- The matches of a condition, in one page. -/
def queryRows (filter : SourceFilter) : Except SourceClientError (LookupMatches α) := do
  let rows ← fetchRows source client ⟨filter, some source.orderColumn, client.lookupLimit, 0⟩
  let records ← rows.mapM source.parseRow
  .ok (classifyLookupResult (source.sort records))

/-- The lookup of one key. -/
def lookupByKey (input : String) : Except SourceClientError (LookupMatches α) := do
  let bbl ← requireCanonicalBbl input
  queryRows source client (.equals source.keyColumn bbl.text)

/-- The page of a chunk's query that starts at `offset`. -/
def bulkQuery (chunk : List CanonicalBbl) (pageLimit offset : Nat) : SourceQuery where
  filter := .isIn source.keyColumn (chunk.map (·.text))
  order := some source.orderColumn
  limit := pageLimit
  offset := offset

/-- The rows of a chunk, page by page. -/
def fetchRowsBulk (chunk : List CanonicalBbl) : Except SourceClientError (List SourceRecord) :=
  let pageLimit := bulkQueryPageLimit chunk.length source.resultLimitPerKey
  pageLoop
    (fun pageIndex => fetchRows source client (bulkQuery source chunk pageLimit (pageIndex * pageLimit)))
    pageLimit
    (.app (source.codes ++ "_LOOKUP_PAGE_LIMIT")
      s!"{source.name} bulk lookup exceeded the maximum of {bulkMaxLookupPages} pages" (some 502))
    (· ++ ·) bulkMaxLookupPages 0 []

/-- The parsed rows of a chunk. -/
def fetchMatches (chunk : List CanonicalBbl) : Except SourceClientError (List α) := do
  let rows ← fetchRowsBulk source client chunk
  rows.mapM source.parseRow

/-- The matches of a chunk, gathered under their keys. -/
def gatherMatches (grouped : Table CanonicalBbl (List α)) (records : List α) :
    Table CanonicalBbl (List α) :=
  (source.arrange records).foldl (Table.pushKnownRow fun record => some (source.key record, record))
    grouped

/-- The result of every BBL asked for, its rows sorted and classified. -/
def lookupResults (bbls : List CanonicalBbl) (grouped : Table CanonicalBbl (List α)) :
    Table CanonicalBbl (LookupMatches α) :=
  Table.ofKeys bbls fun bbl => classifyLookupResult (source.sort ((grouped.find bbl).getD []))

/-- The lookup of many keys. -/
def lookupByKeys (inputs : List String) :
    Except SourceClientError (Table CanonicalBbl (LookupMatches α)) := do
  let keys ← canonicalBbls inputs
  let grouped ← (chunks keys.toList bulkLookupChunkSize).foldlM (fun grouped chunk => do
    let records ← fetchMatches source client chunk
    Except.ok (gatherMatches source grouped records)) (Table.ofKeys keys.toList fun _ => [])
  .ok (lookupResults source keys.toList grouped)

end Lookups

/-! ### The lookups of the clients -/

/-- `lookupByUnitBbl` of the Condominium Units client. -/
def lookupByUnitBbl : CondoClient → String → Except SourceClientError (LookupMatches CondoUnitRecord) :=
  lookupByKey condoUnits

/-- `lookupByUnitBbls` of the Condominium Units client. -/
def lookupByUnitBbls : CondoClient → List String →
    Except SourceClientError (Table CanonicalBbl (LookupMatches CondoUnitRecord)) :=
  lookupByKeys condoUnits

/-- `lookupByCondoBaseAndUnitDesignation`: both inputs are checked before anything is asked. -/
def lookupByCondoBaseAndUnitDesignation (client : CondoClient)
    (condoBaseBblInput unitDesignationInput : String) :
    Except SourceClientError (LookupMatches CondoUnitRecord) := do
  let condoBaseBbl ← requireCanonicalBbl condoBaseBblInput
  let unitDesignation := trim unitDesignationInput
  if unitDesignation.isEmpty then
    .error (.app "CONDO_UNITS_INVALID_UNIT_DESIGNATION"
      "Unit designation is required for condo unit lookup by context" (some 400))
  else
    queryRows condoUnits client
      (.both (.equals "condo_base_bbl" condoBaseBbl.text) (.equals "unit_designation" unitDesignation))

/-- `lookupByCondoBaseBbl` of the Condominiums client. -/
def lookupByCondoBaseBbl : CondoClient → String →
    Except SourceClientError (LookupMatches CondominiumBillingRecord) :=
  lookupByKey condominiums

/-- `lookupByCondoBillingBbl` of the Condominiums client. -/
def lookupByCondoBillingBbl (client : CondoClient) (condoBillingBblInput : String) :
    Except SourceClientError (LookupMatches CondominiumBillingRecord) := do
  let condoBillingBbl ← requireCanonicalBbl condoBillingBblInput
  queryRows condominiums client (.equals "condo_billing_bbl" condoBillingBbl.text)

/-- `lookupByCondoBaseBbls` of the Condominiums client. -/
def lookupByCondoBaseBbls : CondoClient → List String →
    Except SourceClientError (Table CanonicalBbl (LookupMatches CondominiumBillingRecord)) :=
  lookupByKeys condominiums

end Condo

end NycPropertyResolver
