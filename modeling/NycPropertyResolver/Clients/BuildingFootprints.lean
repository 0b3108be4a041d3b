import NycPropertyResolver.Clients.OpenDataset
import NycPropertyResolver.Identity.Resolution
import NycPropertyResolver.Library.Grouping

/-!
# Clients — Building Footprints

`building-footprints.client.ts`: the footprint candidates of a BBL, looked up by itself (`lookup`) or
with others (`lookupMany`).  A row without a readable BIN and base BBL is no candidate.  A single
lookup tells a BBL none of whose rows can be read from one without rows; a bulk lookup gathers the
candidates of a chunk by the BBLs they carry, and a BBL that gathers none is not found
(`lookupMany_agrees_iff`).
-/

namespace NycPropertyResolver

open Library

namespace BuildingFootprints

/-! ### Constants -/

/-- `BUILDING_FOOTPRINTS_LOOKUP_RESULT_LIMIT`: the rows of one page of `lookup`. -/
def lookupResultLimit : Nat := 50

/-- `BUILDING_FOOTPRINTS_MAX_LOOKUP_PAGES`. -/
def maxLookupPages : Nat := 20

/-- `BUILDING_FOOTPRINTS_BULK_LOOKUP_CHUNK_SIZE`: the BBLs of one query of `lookupMany`. -/
def bulkLookupChunkSize : Nat := 500

/-- `BUILDING_FOOTPRINTS_BULK_BINS_PER_BBL_ESTIMATE`: the rows a BBL of a chunk is expected to
have. -/
def bulkBinsPerBblEstimate : Nat := 50

/-- `BUILDING_FOOTPRINTS_BULK_MAX_LOOKUP_PAGES`: the pages of one chunk. -/
def bulkMaxLookupPages : Nat := 20

/-- `SOCRATA_MAX_PAGE_LIMIT`. -/
def socrataMaxPageLimit : Nat := 50000

/-- Whether a BBL is looked for as the parcel's, in either column, or as the base one only. -/
inductive BuildingFootprintLookupMode where
  | parcel
  | base
  deriving DecidableEq, Repr

/-! ### Rows -/

/-- A digit string of the given length in the integer part of a value. -/
def parseSourceDigits (n : Nat) (value : SourceValue) : Option (DigitString n) := do
  let raw ← value.trimmed?
  if raw.isEmpty then none
  else if (integerPart raw).length = n ∧ (integerPart raw).all Char.isDigit = true then
    DigitString.parse n (String.ofList (integerPart raw))
  else none

/-- `parseSourceBbl`: the ten digits of a BBL. -/
def parseSourceBbl : SourceValue → Option CanonicalBbl := parseSourceDigits 10

/-- `parseSourceBin`: the seven digits of a BIN. -/
def parseSourceBin : SourceValue → Option CanonicalBin := parseSourceDigits 7

/-- Absent, unreadable or a BBL. -/
def parseMapplutoBblEvidence (record : SourceRecord) : Option (Option CanonicalBbl) :=
  if record "mappluto_bbl" = .undefined then none else some (parseSourceBbl (record "mappluto_bbl"))

/-- `parseBuildingFootprintCandidate`: a row without a BIN or a base BBL is no candidate. -/
def parseBuildingFootprintCandidate (record : SourceRecord) : Option BuildingFootprintCandidate := do
  let bin ← parseSourceBin (record "bin")
  let baseBbl ← parseSourceBbl (record "base_bbl")
  some ⟨bin, baseBbl, parseMapplutoBblEvidence record⟩

/-! ### Queries -/

/-- `buildWhereClause`: the filter of a single lookup. -/
def buildWhereClause (bbl : CanonicalBbl) : BuildingFootprintLookupMode → SourceFilter
  | .base => .equals "base_bbl" bbl.text
  | .parcel => .either (.equals "base_bbl" bbl.text) (.equals "mappluto_bbl" bbl.text)

/-- The page limit of a chunk: the rows expected of its BBLs, at most what Socrata serves. -/
def bulkFootprintPageLimit (bblCount : Nat) : Nat :=
  min socrataMaxPageLimit (max (bblCount * bulkBinsPerBblEstimate) bblCount)

/-- `buildBulkWhereClause`: the filter of a chunk of BBLs. -/
def buildBulkWhereClause (bbls : List CanonicalBbl) : BuildingFootprintLookupMode → SourceFilter
  | .base => .isIn "base_bbl" (bbls.map (·.text))
  | .parcel =>
    .either (.isIn "base_bbl" (bbls.map (·.text))) (.isIn "mappluto_bbl" (bbls.map (·.text)))

/-- `buildLookupUrl`: the page of a single lookup that starts at `offset`. -/
def buildLookupUrl (bbl : CanonicalBbl) (lookupMode : BuildingFootprintLookupMode) (offset : Nat) :
    SourceQuery where
  filter := buildWhereClause bbl lookupMode
  order := some "bin"
  limit := lookupResultLimit
  offset := offset

/-- `buildBulkLookupUrl`: the page of a chunk's query that starts at `offset`. -/
def buildBulkLookupUrl (bbls : List CanonicalBbl) (lookupMode : BuildingFootprintLookupMode)
    (pageLimit offset : Nat) : SourceQuery where
  filter := buildBulkWhereClause bbls lookupMode
  order := some "bin"
  limit := pageLimit
  offset := offset

/-! ### The client -/

/-- `BuildingFootprintsClient`: what answers a query, and the time it has for it. -/
structure BuildingFootprintsClient where
  fetchImpl : SourceQuery → FetchOutcome
  requestTimeoutMs : Nat

/-- Rows came, and none is a candidate. -/
def noParseableRecords : SourceClientError :=
  .app "BUILDING_FOOTPRINTS_MALFORMED_RESPONSE"
    "Building Footprints response did not contain any parseable footprint records" none

/-- The error of a lookup that is still reading after its last page. -/
def lookupPageLimit (lookup : String) (pages : Nat) : SourceClientError :=
  .app "BUILDING_FOOTPRINTS_LOOKUP_PAGE_LIMIT"
    s!"Building Footprints {lookup} exceeded the maximum of {pages} pages" none

namespace BuildingFootprintsClient

variable (client : BuildingFootprintsClient)

/-- `fetchLookupPage`: the rows of one page, or the error its answer means. -/
def fetchLookupPage (query : SourceQuery) : Except SourceClientError (List SourceRecord) :=
  responseRecords "BUILDING_FOOTPRINTS" "Building Footprints" client.requestTimeoutMs
    (client.fetchImpl query)

/-- `fetchAllLookupRecords`: the rows of all pages of a single lookup, in order. -/
def fetchAllLookupRecords (canonicalBbl : CanonicalBbl) (lookupMode : BuildingFootprintLookupMode) :
    Except SourceClientError (List SourceRecord) :=
  pageLoop
    (fun pageIndex => client.fetchLookupPage
      (buildLookupUrl canonicalBbl lookupMode (pageIndex * lookupResultLimit)))
    lookupResultLimit (lookupPageLimit "lookup" maxLookupPages) (· ++ ·) maxLookupPages 0 []

/-- `lookup`: the footprints of one BBL; rows of which none is a candidate are an error. -/
def lookup (bbl : String) (lookupMode : BuildingFootprintLookupMode) :
    Except SourceClientError BuildingFootprintsLookupResult :=
  match canonicalizeBbl bbl with
  | none =>
    .error (.app "BUILDING_FOOTPRINTS_INVALID_BBL"
      "Building Footprints lookup requires a canonical 10-digit BBL" (some 400))
  | some canonicalBbl => do
    let records ← client.fetchAllLookupRecords canonicalBbl lookupMode
    if records.length = 0 then
      .ok .notFound
    else
      let candidates := records.filterMap parseBuildingFootprintCandidate
      if candidates.length = 0 then .error noParseableRecords else .ok (.found candidates)

end BuildingFootprintsClient

/-! ### Bulk lookups -/

/-- The BBLs a candidate is gathered under. -/
def candidateKeys (lookupMode : BuildingFootprintLookupMode)
    (candidate : BuildingFootprintCandidate) : List CanonicalBbl :=
  match lookupMode, candidate.mapplutoBbl with
  | .parcel, some (some mapplutoBbl) => [candidate.baseBbl, mapplutoBbl]
  | _, _ => [candidate.baseBbl]

/-- Gather a row under its BBLs, as far as they are asked for. -/
def gatherRow (lookupMode : BuildingFootprintLookupMode)
    (grouped : Table CanonicalBbl (List BuildingFootprintCandidate)) (record : SourceRecord) :
    Table CanonicalBbl (List BuildingFootprintCandidate) :=
  match parseBuildingFootprintCandidate record with
  | none => grouped
  | some candidate =>
    (candidateKeys lookupMode candidate).foldl (fun grouped bbl => grouped.pushKnown bbl candidate)
      grouped

/-- A BBL without candidates is not found. -/
def lookupResults (bbls : List CanonicalBbl)
    (groupedCandidates : Table CanonicalBbl (List BuildingFootprintCandidate)) :
    Table CanonicalBbl BuildingFootprintsLookupResult :=
  Table.ofKeys bbls fun bbl =>
    let candidates := (groupedCandidates.find bbl).getD []
    if candidates.length = 0 then .notFound else .found candidates

namespace BuildingFootprintsClient

variable (client : BuildingFootprintsClient)

/-- `fetchBulkLookupCandidates`: the candidates of a chunk, each under the BBL it is filed at. -/
def fetchBulkLookupCandidates (bbls : List CanonicalBbl) (lookupMode : BuildingFootprintLookupMode) :
    Except SourceClientError (Table CanonicalBbl (List BuildingFootprintCandidate)) :=
  let pageLimit := bulkFootprintPageLimit bbls.length
  pageLoop
    (fun pageIndex => client.fetchLookupPage
      (buildBulkLookupUrl bbls lookupMode pageLimit (pageIndex * pageLimit)))
    pageLimit (lookupPageLimit "bulk lookup" bulkMaxLookupPages)
    (fun grouped page => page.foldl (gatherRow lookupMode) grouped) bulkMaxLookupPages 0
    (Table.ofKeys bbls fun _ => [])

/-- `lookupMany`: the results of all BBLs, chunk after chunk. -/
def lookupMany (bbls : List String) (lookupMode : BuildingFootprintLookupMode) :
    Except SourceClientError (Table CanonicalBbl BuildingFootprintsLookupResult) := do
  let keys ← canonicalBbls bbls
  let groupedCandidates ← (chunks keys.toList bulkLookupChunkSize).foldlM (fun grouped chunk => do
    let chunkCandidates ← client.fetchBulkLookupCandidates chunk lookupMode
    Except.ok (grouped.appendGroups chunkCandidates)) (Table.ofKeys keys.toList fun _ => [])
  .ok (lookupResults keys.toList groupedCandidates)

end BuildingFootprintsClient

/-! ### What is gathered -/

theorem find_foldl_pushKnown (candidate : BuildingFootprintCandidate) (bbl : CanonicalBbl)
    (keys : List CanonicalBbl) (t : Table CanonicalBbl (List BuildingFootprintCandidate)) :
    (keys.foldl (fun grouped key => grouped.pushKnown key candidate) t).find bbl =
      (t.find bbl).map (· ++ keys.filterMap fun key => if key = bbl then some candidate else none) :=
  Table.find_foldl_pushKnownRow (fun key => some (key, candidate)) bbl keys t

/-- What one row adds to the group of a BBL. -/
def gatheredFrom (lookupMode : BuildingFootprintLookupMode) (bbl : CanonicalBbl)
    (record : SourceRecord) : List BuildingFootprintCandidate :=
  match parseBuildingFootprintCandidate record with
  | none => []
  | some candidate =>
    (candidateKeys lookupMode candidate).filterMap fun key =>
      if key = bbl then some candidate else none

theorem find_foldl_gatherRow (lookupMode : BuildingFootprintLookupMode) (bbl : CanonicalBbl) :
    ∀ (records : List SourceRecord) (t : Table CanonicalBbl (List BuildingFootprintCandidate)),
      (records.foldl (gatherRow lookupMode) t).find bbl =
        (t.find bbl).map (· ++ records.flatMap (gatheredFrom lookupMode bbl)) := by
  intro records
  induction records with
  | nil => intro t; simp
  | cons record records ih =>
      intro t
      rw [List.foldl_cons, ih, List.flatMap_cons]
      have hrow : (gatherRow lookupMode t record).find bbl =
          (t.find bbl).map (· ++ gatheredFrom lookupMode bbl record) := by
        rw [gatherRow, gatheredFrom]
        cases parseBuildingFootprintCandidate record with
        | none => simp
        | some candidate => exact find_foldl_pushKnown candidate bbl _ t
      rw [hrow, Option.map_map]
      congr 1
      funext candidates
      exact List.append_assoc _ _ _

theorem mem_gatheredFrom {lookupMode : BuildingFootprintLookupMode} {bbl : CanonicalBbl}
    {record : SourceRecord} {candidate : BuildingFootprintCandidate} :
    candidate ∈ gatheredFrom lookupMode bbl record ↔
      parseBuildingFootprintCandidate record = some candidate ∧
        bbl ∈ candidateKeys lookupMode candidate := by
  rw [gatheredFrom]
  cases hparse : parseBuildingFootprintCandidate record with
  | none => simp
  | some candidate' =>
      simp only [List.mem_filterMap, Option.ite_none_right_eq_some, Option.some.injEq]
      constructor
      · rintro ⟨key, hkey, rfl, rfl⟩
        exact ⟨rfl, hkey⟩
      · rintro ⟨rfl, hkey⟩
        exact ⟨bbl, hkey, rfl, rfl⟩

/-! ### Rows of a dataset -/

section Agreement

variable {κ : Type} {dataset : OpenDataset κ} {client : BuildingFootprintsClient}
  {lookupMode : BuildingFootprintLookupMode}

/-- The filter compares a column with a BBL as the client reads it. -/
def ReadsBbls (dataset : OpenDataset κ) : Prop :=
  ∀ value (bbl : CanonicalBbl), dataset.reads value bbl.text = true → parseSourceBbl value = some bbl

/-- The rows of a BBL. -/
def rowsOf (dataset : OpenDataset κ) (lookupMode : BuildingFootprintLookupMode)
    (bbl : CanonicalBbl) : List SourceRecord :=
  dataset.select (buildWhereClause bbl lookupMode)

/-- The rows of any of the BBLs. -/
def rowsOfAny (dataset : OpenDataset κ) (lookupMode : BuildingFootprintLookupMode)
    (bbls : List CanonicalBbl) : List SourceRecord :=
  dataset.select (buildBulkWhereClause bbls lookupMode)

/-- A candidate of a row of the BBL. -/
def OwnCandidate (dataset : OpenDataset κ) (lookupMode : BuildingFootprintLookupMode)
    (bbl : CanonicalBbl) (candidate : BuildingFootprintCandidate) : Prop :=
  ∃ record ∈ rowsOf dataset lookupMode bbl, parseBuildingFootprintCandidate record = some candidate

/-- A candidate of a row of the chunk that is read as one of the BBL. -/
def Gathered (dataset : OpenDataset κ) (lookupMode : BuildingFootprintLookupMode)
    (chunk : List CanonicalBbl) (bbl : CanonicalBbl) (candidate : BuildingFootprintCandidate) : Prop :=
  ∃ record ∈ rowsOfAny dataset lookupMode chunk,
    parseBuildingFootprintCandidate record = some candidate ∧ bbl ∈ candidateKeys lookupMode candidate

/-- The rows of a BBL are among those of its chunk. -/
theorem mem_rowsOfAny {chunk : List CanonicalBbl} {bbl : CanonicalBbl} (hbbl : bbl ∈ chunk)
    {record : SourceRecord} (h : record ∈ rowsOf dataset lookupMode bbl) :
    record ∈ rowsOfAny dataset lookupMode chunk := by
  rw [rowsOf, OpenDataset.select, List.mem_filter] at h
  rw [rowsOfAny, OpenDataset.select, List.mem_filter]
  refine ⟨h.1, ?_⟩
  have hany : ∀ column, dataset.reads (record column) bbl.text = true →
      (chunk.map (·.text)).any (fun value => dataset.reads (record column) value) = true := by
    intro column hread
    exact List.any_eq_true.mpr ⟨bbl.text, List.mem_map_of_mem hbbl, hread⟩
  cases lookupMode with
  | base => exact hany _ h.2
  | parcel =>
      rcases Bool.or_eq_true_iff.mp h.2 with hbase | hmappluto
      · exact Bool.or_eq_true_iff.mpr (.inl (hany _ hbase))
      · exact Bool.or_eq_true_iff.mpr (.inr (hany _ hmappluto))

theorem baseBbl_of_parse {record : SourceRecord} {candidate : BuildingFootprintCandidate}
    (h : parseBuildingFootprintCandidate record = some candidate) :
    parseSourceBbl (record "base_bbl") = some candidate.baseBbl ∧
      parseMapplutoBblEvidence record = candidate.mapplutoBbl := by
  rw [parseBuildingFootprintCandidate, Option.bind_eq_bind, Option.bind_eq_some_iff] at h
  obtain ⟨bin, -, h⟩ := h
  rw [Option.bind_eq_bind, Option.bind_eq_some_iff] at h
  obtain ⟨baseBbl, hbase, h⟩ := h
  cases h
  exact ⟨hbase, rfl⟩

theorem baseBbl_mem_candidateKeys (lookupMode : BuildingFootprintLookupMode)
    (candidate : BuildingFootprintCandidate) :
    candidate.baseBbl ∈ candidateKeys lookupMode candidate := by
  unfold candidateKeys
  split <;> exact List.mem_cons_self

theorem mapplutoBbl_mem_candidateKeys {candidate : BuildingFootprintCandidate} {bbl : CanonicalBbl}
    (h : candidate.mapplutoBbl = some (some bbl)) : bbl ∈ candidateKeys .parcel candidate := by
  simp [candidateKeys, h]

/-- A candidate of a BBL is gathered under it. -/
theorem gathered_of_own (hreads : ReadsBbls dataset) {chunk : List CanonicalBbl} {bbl : CanonicalBbl}
    (hbbl : bbl ∈ chunk) {candidate : BuildingFootprintCandidate}
    (h : OwnCandidate dataset lookupMode bbl candidate) :
    Gathered dataset lookupMode chunk bbl candidate := by
  obtain ⟨record, hrecord, hparse⟩ := h
  refine ⟨record, mem_rowsOfAny hbbl hrecord, hparse, ?_⟩
  obtain ⟨hbase, hmappluto⟩ := baseBbl_of_parse hparse
  have hread := (List.mem_filter.mp hrecord).2
  have hof : dataset.reads (record "base_bbl") bbl.text = true →
      bbl ∈ candidateKeys lookupMode candidate := by
    intro hr
    rw [hreads _ _ hr] at hbase
    rw [Option.some.inj hbase]
    exact baseBbl_mem_candidateKeys lookupMode candidate
  cases lookupMode with
  | base => exact hof hread
  | parcel =>
      rcases Bool.or_eq_true_iff.mp hread with hr | hr
      · exact hof hr
      · have hparsed : parseSourceBbl (record "mappluto_bbl") = some bbl := hreads _ _ hr
        have hdefined : record "mappluto_bbl" ≠ .undefined := by
          intro hundefined
          rw [hundefined] at hparsed
          cases hparsed
        rw [parseMapplutoBblEvidence, if_neg hdefined, hparsed] at hmappluto
        exact mapplutoBbl_mem_candidateKeys hmappluto.symm

/-! ### What the lookups return -/

/-- A page of an ordering, as the client receives it. -/
theorem fetchLookupPage_eq {query : SourceQuery} {page : List SourceRecord}
    (h : client.fetchImpl query = .response 200 (.array page)) :
    client.fetchLookupPage query = .ok page := by
  rw [BuildingFootprintsClient.fetchLookupPage, h, responseRecords_array]

variable [LinearOrder κ] (client lookupMode)

/-- A single lookup reads the rows of its BBL, if they end before the page limit. -/
theorem fetchAllLookupRecords_eq (hanswers : dataset.AnswersInOneOrder client.fetchImpl)
    (bbl : CanonicalBbl) :
    ∃ ordered : List SourceRecord, ordered.Perm (rowsOf dataset lookupMode bbl) ∧
      client.fetchAllLookupRecords bbl lookupMode =
        if ordered.length < maxLookupPages * lookupResultLimit then .ok ordered
        else .error (lookupPageLimit "lookup" maxLookupPages) := by
  obtain ⟨ordered, hperm, -, hfetch⟩ := hanswers (buildWhereClause bbl lookupMode) (some "bin")
  refine ⟨ordered, hperm, ?_⟩
  have hpages : ∀ pageIndex, client.fetchLookupPage
      (buildLookupUrl bbl lookupMode (pageIndex * lookupResultLimit)) =
        .ok (chunk ordered lookupResultLimit pageIndex) := by
    intro pageIndex
    exact fetchLookupPage_eq (hfetch lookupResultLimit _)
  rw [BuildingFootprintsClient.fetchAllLookupRecords]
  exact pageLoop_append_of_ordering ordered (by decide) hpages

/-- What a single lookup makes of the rows of its BBL. -/
theorem lookup_eq (hanswers : dataset.AnswersInOneOrder client.fetchImpl) {input : String}
    {bbl : CanonicalBbl} (hinput : canonicalizeBbl input = some bbl) :
    ∃ ordered : List SourceRecord, ordered.Perm (rowsOf dataset lookupMode bbl) ∧
      client.lookup input lookupMode =
        if ordered.length < maxLookupPages * lookupResultLimit then
          if ordered.length = 0 then .ok .notFound
          else if (ordered.filterMap parseBuildingFootprintCandidate).length = 0 then
            .error noParseableRecords
          else .ok (.found (ordered.filterMap parseBuildingFootprintCandidate))
        else .error (lookupPageLimit "lookup" maxLookupPages) := by
  obtain ⟨ordered, hperm, hrecords⟩ :=
    fetchAllLookupRecords_eq client lookupMode hanswers bbl
  refine ⟨ordered, hperm, ?_⟩
  rw [BuildingFootprintsClient.lookup, hinput]
  show (client.fetchAllLookupRecords bbl lookupMode >>= _) = _
  rw [hrecords]
  by_cases hfits : ordered.length < maxLookupPages * lookupResultLimit
  · rw [if_pos hfits, if_pos hfits]
    rfl
  · rw [if_neg hfits, if_neg hfits]
    rfl

theorem bulkFootprintPageLimit_pos {n : Nat} (h : 0 < n) : 0 < bulkFootprintPageLimit n :=
  lt_min (by decide) (lt_max_of_lt_right h)

/-- The rows of a chunk end before the page limit. -/
def ChunkFits (dataset : OpenDataset κ) (lookupMode : BuildingFootprintLookupMode)
    (chunk : List CanonicalBbl) : Prop :=
  (rowsOfAny dataset lookupMode chunk).length <
    bulkMaxLookupPages * bulkFootprintPageLimit chunk.length

/-- A chunk that fits is gathered by BBL. -/
theorem fetchBulkLookupCandidates_eq (hanswers : dataset.AnswersInOneOrder client.fetchImpl)
    {chunk : List CanonicalBbl} (hne : chunk ≠ []) :
    (¬ ChunkFits dataset lookupMode chunk →
      ∃ e, client.fetchBulkLookupCandidates chunk lookupMode = .error e) ∧
    (ChunkFits dataset lookupMode chunk →
      ∃ grouped, client.fetchBulkLookupCandidates chunk lookupMode = .ok grouped ∧
        (∀ bbl, bbl ∉ chunk → grouped.find bbl = none) ∧
        ∀ bbl ∈ chunk, ∀ candidate, candidate ∈ (grouped.find bbl).getD [] ↔
          Gathered dataset lookupMode chunk bbl candidate) := by
  obtain ⟨ordered, hperm, -, hfetch⟩ := hanswers (buildBulkWhereClause chunk lookupMode) (some "bin")
  have hlimit : 0 < bulkFootprintPageLimit chunk.length :=
    bulkFootprintPageLimit_pos (List.length_pos_of_ne_nil hne)
  have hpages : ∀ pageIndex, client.fetchLookupPage
      (buildBulkLookupUrl chunk lookupMode (bulkFootprintPageLimit chunk.length)
        (pageIndex * bulkFootprintPageLimit chunk.length)) =
        .ok (Library.chunk ordered (bulkFootprintPageLimit chunk.length) pageIndex) := by
    intro pageIndex
    exact fetchLookupPage_eq (hfetch (bulkFootprintPageLimit chunk.length) _)
  have hloop : client.fetchBulkLookupCandidates chunk lookupMode =
      if ordered.length < bulkMaxLookupPages * bulkFootprintPageLimit chunk.length then
        .ok (ordered.foldl (gatherRow lookupMode) (Table.ofKeys chunk fun _ => []))
      else .error (lookupPageLimit "bulk lookup" bulkMaxLookupPages) :=
    pageLoop_of_ordering ordered hlimit hpages (gatherRow lookupMode) (fun _ _ => rfl) _
  have hlen : ordered.length = (rowsOfAny dataset lookupMode chunk).length := hperm.length_eq
  rw [hlen] at hloop
  constructor
  · intro hfull
    exact ⟨_, hloop.trans (if_neg hfull)⟩
  · intro hfits
    refine ⟨_, hloop.trans (if_pos hfits), ?_, ?_⟩
    · intro bbl hbbl
      rw [find_foldl_gatherRow, Table.find_ofKeys, if_neg hbbl]
      rfl
    · intro bbl hbbl candidate
      rw [find_foldl_gatherRow, Table.find_ofKeys, if_pos hbbl]
      show candidate ∈ [] ++ ordered.flatMap (gatheredFrom lookupMode bbl) ↔ _
      rw [List.nil_append, List.mem_flatMap]
      simp only [mem_gatheredFrom, Gathered, hperm.mem_iff, rowsOfAny]

/-- The rows of every chunk end before the page limit. -/
def BulkFits (dataset : OpenDataset κ) (lookupMode : BuildingFootprintLookupMode)
    (keys : SortedSet CanonicalBbl) : Prop :=
  ∀ chunk ∈ chunks keys.toList bulkLookupChunkSize, ChunkFits dataset lookupMode chunk

theorem flatten_bulkChunks (keys : SortedSet CanonicalBbl) :
    (chunks keys.toList bulkLookupChunkSize).flatten = keys.toList :=
  flatten_chunks keys.toList (by decide)

/-- A bulk lookup that does not fit fails. -/
theorem lookupMany_error (hanswers : dataset.AnswersInOneOrder client.fetchImpl)
    {inputs : List String} {keys : SortedSet CanonicalBbl} (hkeys : canonicalBbls inputs = .ok keys)
    (hfits : ¬ BulkFits dataset lookupMode keys) :
    ∃ e, client.lookupMany inputs lookupMode = .error e := by
  simp only [BulkFits, not_forall] at hfits
  obtain ⟨chunk, hchunk, hfull⟩ := hfits
  obtain ⟨e, he⟩ := (fetchBulkLookupCandidates_eq client lookupMode hanswers
    (ne_nil_of_mem_chunks (by decide) hchunk)).1 hfull
  obtain ⟨e', he'⟩ := Table.foldlM_error
    (fun chunk => client.fetchBulkLookupCandidates chunk lookupMode) Table.appendGroups hchunk he
    (Table.ofKeys keys.toList fun _ => [])
  refine ⟨e', ?_⟩
  rw [BuildingFootprintsClient.lookupMany, hkeys]
  show (List.foldlM _ _ _ >>= fun grouped => Except.ok (lookupResults keys.toList grouped)) = _
  rw [he']
  exact rfl

/-- A bulk lookup that fits gives each BBL what its chunk gathers under it. -/
theorem lookupMany_eq (hanswers : dataset.AnswersInOneOrder client.fetchImpl)
    {inputs : List String} {keys : SortedSet CanonicalBbl} (hkeys : canonicalBbls inputs = .ok keys)
    (hfits : BulkFits dataset lookupMode keys) :
    ∃ results, client.lookupMany inputs lookupMode = .ok results ∧
      ∀ chunk ∈ chunks keys.toList bulkLookupChunkSize, ∀ bbl ∈ chunk,
        ∃ candidates : List BuildingFootprintCandidate,
          (∀ candidate, candidate ∈ candidates ↔
            Gathered dataset lookupMode chunk bbl candidate) ∧
          results.find bbl =
            some (if candidates.length = 0 then .notFound else .found candidates) := by
  have hfetch : ∀ chunk ∈ chunks keys.toList bulkLookupChunkSize, ∃ grouped,
      client.fetchBulkLookupCandidates chunk lookupMode = .ok grouped ∧
        (∀ bbl, bbl ∉ chunk → grouped.find bbl = none) ∧
        ∀ bbl ∈ chunk, ∀ candidate, candidate ∈ (grouped.find bbl).getD [] ↔
          Gathered dataset lookupMode chunk bbl candidate := by
    intro chunk hchunk
    exact (fetchBulkLookupCandidates_eq client lookupMode hanswers
      (ne_nil_of_mem_chunks (by decide) hchunk)).2 (hfits chunk hchunk)
  obtain ⟨grouped, hgrouped, hof, -⟩ := Table.foldlM_gather
    (fun chunk => client.fetchBulkLookupCandidates chunk lookupMode) Table.appendGroups
    (fun g bbl => (g.find bbl).getD []) (fun _ _ _ => rfl) (Table.ofKeys keys.toList fun _ => [])
    (by rw [flatten_bulkChunks]; exact keys.nodup) fun chunk hchunk => by
      obtain ⟨g, hg, hout, -⟩ := hfetch chunk hchunk
      exact ⟨g, hg, fun bbl hbbl => by rw [hout bbl hbbl]; rfl⟩
  refine ⟨lookupResults keys.toList grouped, ?_, fun chunk hchunk bbl hbbl => ?_⟩
  · rw [BuildingFootprintsClient.lookupMany, hkeys]
    show (List.foldlM _ _ _ >>= fun grouped => Except.ok (lookupResults keys.toList grouped)) = _
    rw [hgrouped]
    exact rfl
  · obtain ⟨g, hg, -, hmem⟩ := hfetch chunk hchunk
    have hkey : bbl ∈ keys.toList := by
      rw [← flatten_bulkChunks keys]
      exact List.mem_flatten.mpr ⟨chunk, hchunk, hbbl⟩
    have hfind := hof chunk hchunk g hg bbl hbbl
    rw [Table.find_ofKeys, if_pos hkey] at hfind
    refine ⟨(g.find bbl).getD [], hmem bbl hbbl, ?_⟩
    rw [lookupResults, Table.find_ofKeys, if_pos hkey, hfind]
    rfl

variable {client lookupMode}

/-- A bulk lookup that answers fits. -/
theorem bulkFits_of_ok (hanswers : dataset.AnswersInOneOrder client.fetchImpl)
    {inputs : List String} {keys : SortedSet CanonicalBbl} (hkeys : canonicalBbls inputs = .ok keys)
    {results : Table CanonicalBbl BuildingFootprintsLookupResult}
    (h : client.lookupMany inputs lookupMode = .ok results) : BulkFits dataset lookupMode keys := by
  by_contra hfull
  obtain ⟨e, he⟩ := lookupMany_error client lookupMode hanswers hkeys hfull
  rw [he] at h
  cases h

/-- What a bulk lookup that answers gives a BBL. -/
theorem find_of_ok (hanswers : dataset.AnswersInOneOrder client.fetchImpl)
    {inputs : List String} {keys : SortedSet CanonicalBbl} (hkeys : canonicalBbls inputs = .ok keys)
    (hfits : BulkFits dataset lookupMode keys)
    {results : Table CanonicalBbl BuildingFootprintsLookupResult}
    (h : client.lookupMany inputs lookupMode = .ok results) {chunk : List CanonicalBbl}
    (hchunk : chunk ∈ chunks keys.toList bulkLookupChunkSize) {bbl : CanonicalBbl}
    (hbbl : bbl ∈ chunk) :
    ∃ candidates : List BuildingFootprintCandidate,
      (∀ candidate, candidate ∈ candidates ↔ Gathered dataset lookupMode chunk bbl candidate) ∧
        results.find bbl = some (if candidates.length = 0 then .notFound else .found candidates) := by
  obtain ⟨results', h', hresults⟩ := lookupMany_eq client lookupMode hanswers hkeys hfits
  rw [h'] at h
  cases h
  exact hresults chunk hchunk bbl hbbl

/-! ### Agreement -/

/-- The single lookup of a BBL answers: its rows end before the page limit, and there are none or one
can be read. -/
def SingleAnswers (dataset : OpenDataset κ) (lookupMode : BuildingFootprintLookupMode)
    (bbl : CanonicalBbl) : Prop :=
  (rowsOf dataset lookupMode bbl).length < maxLookupPages * lookupResultLimit ∧
    (rowsOf dataset lookupMode bbl = [] ∨ ∃ candidate, OwnCandidate dataset lookupMode bbl candidate)

/-- The single lookup of a BBL fails for want of a row it can read. -/
def NoneReadable (dataset : OpenDataset κ) (lookupMode : BuildingFootprintLookupMode)
    (bbl : CanonicalBbl) : Prop :=
  (rowsOf dataset lookupMode bbl).length < maxLookupPages * lookupResultLimit ∧
    rowsOf dataset lookupMode bbl ≠ [] ∧
    ∀ candidate, ¬ OwnCandidate dataset lookupMode bbl candidate

/-- A row of another BBL of the chunk is read as one of the BBL, with a candidate of its own. -/
def Misread (dataset : OpenDataset κ) (lookupMode : BuildingFootprintLookupMode)
    (chunk : List CanonicalBbl) (bbl : CanonicalBbl) (candidate : BuildingFootprintCandidate) : Prop :=
  Gathered dataset lookupMode chunk bbl candidate ∧ ¬ OwnCandidate dataset lookupMode bbl candidate

/-- The bulk lookup answers a BBL as its single lookup does, and does not take one without a readable
row for one without rows. -/
def AgreesOn (client : BuildingFootprintsClient) (lookupMode : BuildingFootprintLookupMode)
    (inputs : List String) (input : String) (bbl : CanonicalBbl) : Prop :=
  match client.lookup input lookupMode with
  | .ok .notFound => ∃ results, client.lookupMany inputs lookupMode = .ok results ∧
      results.find bbl = some .notFound
  | .ok (.found candidates) => ∃ results candidates',
      client.lookupMany inputs lookupMode = .ok results ∧
      results.find bbl = some (.found candidates') ∧
      ∀ candidate, candidate ∈ candidates' ↔ candidate ∈ candidates
  | .error e => e = noParseableRecords →
      ∀ results, client.lookupMany inputs lookupMode = .ok results →
        results.find bbl ≠ some .notFound

/-- What a BBL of a chunk needs for the two lookups to agree on it. -/
def Agreeable (dataset : OpenDataset κ) (lookupMode : BuildingFootprintLookupMode)
    (keys : SortedSet CanonicalBbl) (chunk : List CanonicalBbl) (bbl : CanonicalBbl) : Prop :=
  (SingleAnswers dataset lookupMode bbl → BulkFits dataset lookupMode keys ∧
    ∀ candidate, ¬ Misread dataset lookupMode chunk bbl candidate) ∧
  (NoneReadable dataset lookupMode bbl → BulkFits dataset lookupMode keys →
    ∃ candidate, Misread dataset lookupMode chunk bbl candidate)

omit [LinearOrder κ] in
/-- The candidates of an ordering of the rows of a BBL are its own. -/
theorem mem_filterMap_iff_own {ordered : List SourceRecord} {bbl : CanonicalBbl}
    (hperm : ordered.Perm (rowsOf dataset lookupMode bbl)) (candidate : BuildingFootprintCandidate) :
    candidate ∈ ordered.filterMap parseBuildingFootprintCandidate ↔
      OwnCandidate dataset lookupMode bbl candidate := by
  rw [List.mem_filterMap, OwnCandidate]
  simp only [hperm.mem_iff]

section OneBbl

variable {inputs : List String} {keys : SortedSet CanonicalBbl} {input : String} {bbl : CanonicalBbl}
  {chunk : List CanonicalBbl} (hanswers : dataset.AnswersInOneOrder client.fetchImpl)
  (hkeys : canonicalBbls inputs = .ok keys)
  (hchunk : chunk ∈ chunks keys.toList bulkLookupChunkSize) (hbbl : bbl ∈ chunk)
  (hlast : (rowsOf dataset lookupMode bbl).length < maxLookupPages * lookupResultLimit)

include hanswers hkeys hchunk hbbl hlast

/-- Without rows, nothing may be gathered. -/
theorem agreesOn_iff_of_no_rows (hrows : rowsOf dataset lookupMode bbl = [])
    (hsingle : client.lookup input lookupMode = .ok .notFound) :
    AgreesOn client lookupMode inputs input bbl ↔ Agreeable dataset lookupMode keys chunk bbl := by
  have hno : ∀ candidate, ¬ OwnCandidate dataset lookupMode bbl candidate := by
    rintro candidate ⟨record, hrecord, -⟩
    rw [hrows] at hrecord
    cases hrecord
  rw [AgreesOn, hsingle]
  constructor
  · rintro ⟨results, hmany, hfound⟩
    have hfits : BulkFits dataset lookupMode keys := bulkFits_of_ok hanswers hkeys hmany
    obtain ⟨candidates, hmem, hfind⟩ := find_of_ok hanswers hkeys hfits hmany hchunk hbbl
    have hlen : candidates.length = 0 := by
      by_contra hne
      rw [hfind, if_neg hne] at hfound
      cases hfound
    refine ⟨fun _ => ⟨hfits, fun candidate hmis => ?_⟩, fun hnr => absurd hrows hnr.2.1⟩
    exact (List.length_pos_of_mem ((hmem candidate).mpr hmis.1)).ne' hlen
  · rintro ⟨hneeds, -⟩
    obtain ⟨hfits, hclean⟩ := hneeds ⟨hlast, .inl hrows⟩
    obtain ⟨results, hmany, hresults⟩ := lookupMany_eq client lookupMode hanswers hkeys hfits
    obtain ⟨candidates, hmem, hfind⟩ := hresults chunk hchunk bbl hbbl
    refine ⟨results, hmany, ?_⟩
    rw [hfind, if_pos]
    rw [List.length_eq_zero_iff, List.eq_nil_iff_forall_not_mem]
    intro candidate hin
    exact hclean candidate ⟨(hmem candidate).mp hin, hno candidate⟩

/-- With rows none of which can be read, something has to be gathered. -/
theorem agreesOn_iff_of_none_readable (hrows : rowsOf dataset lookupMode bbl ≠ [])
    (hno : ∀ candidate, ¬ OwnCandidate dataset lookupMode bbl candidate)
    (hsingle : client.lookup input lookupMode = .error noParseableRecords) :
    AgreesOn client lookupMode inputs input bbl ↔ Agreeable dataset lookupMode keys chunk bbl := by
  rw [AgreesOn, hsingle]
  constructor
  · intro hagrees
    refine ⟨fun hsa => ?_, fun _ hfits => ?_⟩
    · rcases hsa.2 with hrows' | ⟨candidate, hcandidate⟩
      · exact absurd hrows' hrows
      · exact absurd hcandidate (hno candidate)
    · obtain ⟨results, hmany, hresults⟩ := lookupMany_eq client lookupMode hanswers hkeys hfits
      obtain ⟨candidates, hmem, hfind⟩ := hresults chunk hchunk bbl hbbl
      have hne : candidates.length ≠ 0 := by
        intro hlen
        rw [if_pos hlen] at hfind
        exact hagrees rfl results hmany hfind
      obtain ⟨candidate, hin⟩ := List.exists_mem_of_length_pos (Nat.pos_of_ne_zero hne)
      exact ⟨candidate, (hmem candidate).mp hin, hno candidate⟩
  · rintro ⟨-, hneeds⟩ - results hmany hfound
    have hfits : BulkFits dataset lookupMode keys := bulkFits_of_ok hanswers hkeys hmany
    obtain ⟨candidate, hmis⟩ := hneeds ⟨hlast, hrows, hno⟩ hfits
    obtain ⟨candidates, hmem, hfind⟩ := find_of_ok hanswers hkeys hfits hmany hchunk hbbl
    have hin := (hmem candidate).mpr hmis.1
    rw [hfind, if_neg (List.length_pos_of_mem hin).ne'] at hfound
    cases hfound

/-- With candidates, those gathered have to be these. -/
theorem agreesOn_iff_of_candidates (hreads : ReadsBbls dataset)
    {own : List BuildingFootprintCandidate} (hne : own.length ≠ 0)
    (hown : ∀ candidate, candidate ∈ own ↔ OwnCandidate dataset lookupMode bbl candidate)
    (hsingle : client.lookup input lookupMode = .ok (.found own)) :
    AgreesOn client lookupMode inputs input bbl ↔ Agreeable dataset lookupMode keys chunk bbl := by
  obtain ⟨first, hfirst⟩ := List.exists_mem_of_length_pos (Nat.pos_of_ne_zero hne)
  have hfirst' := (hown first).mp hfirst
  have hgathered := gathered_of_own hreads hbbl hfirst'
  rw [AgreesOn, hsingle]
  constructor
  · rintro ⟨results, candidates', hmany, hfound, hsame⟩
    have hfits : BulkFits dataset lookupMode keys := bulkFits_of_ok hanswers hkeys hmany
    obtain ⟨candidates, hmem, hfind⟩ := find_of_ok hanswers hkeys hfits hmany hchunk hbbl
    have hin : candidates.length ≠ 0 := (List.length_pos_of_mem ((hmem first).mpr hgathered)).ne'
    rw [hfind, if_neg hin] at hfound
    cases hfound
    refine ⟨fun _ => ⟨hfits, fun candidate hmis => hmis.2 ?_⟩,
      fun hnr => absurd hfirst' (hnr.2.2 first)⟩
    exact (hown candidate).mp ((hsame candidate).mp ((hmem candidate).mpr hmis.1))
  · rintro ⟨hneeds, -⟩
    obtain ⟨hfits, hclean⟩ := hneeds ⟨hlast, .inr ⟨first, hfirst'⟩⟩
    obtain ⟨results, hmany, hresults⟩ := lookupMany_eq client lookupMode hanswers hkeys hfits
    obtain ⟨candidates, hmem, hfind⟩ := hresults chunk hchunk bbl hbbl
    have hin : candidates.length ≠ 0 := (List.length_pos_of_mem ((hmem first).mpr hgathered)).ne'
    refine ⟨results, candidates, hmany, hfind.trans (by rw [if_neg hin]), fun candidate => ?_⟩
    rw [hmem, hown]
    constructor
    · intro hg
      by_contra hnot
      exact hclean candidate ⟨hg, hnot⟩
    · exact gathered_of_own hreads hbbl

end OneBbl

/-- A BBL on which the lookups agree has what it needs, and conversely. -/
theorem agreesOn_iff (hreads : ReadsBbls dataset)
    (hanswers : dataset.AnswersInOneOrder client.fetchImpl) {inputs : List String}
    {keys : SortedSet CanonicalBbl} (hkeys : canonicalBbls inputs = .ok keys) (input : String)
    {bbl : CanonicalBbl} (hinput : canonicalizeBbl input = some bbl) {chunk : List CanonicalBbl}
    (hchunk : chunk ∈ chunks keys.toList bulkLookupChunkSize) (hbbl : bbl ∈ chunk) :
    AgreesOn client lookupMode inputs input bbl ↔ Agreeable dataset lookupMode keys chunk bbl := by
  obtain ⟨ordered, hperm, hsingle⟩ := lookup_eq client lookupMode hanswers hinput
  have hown := mem_filterMap_iff_own hperm
  rw [hperm.length_eq] at hsingle
  by_cases hlast : (rowsOf dataset lookupMode bbl).length < maxLookupPages * lookupResultLimit
  · rw [if_pos hlast] at hsingle
    by_cases hempty : (rowsOf dataset lookupMode bbl).length = 0
    · rw [if_pos hempty] at hsingle
      exact agreesOn_iff_of_no_rows hanswers hkeys hchunk hbbl hlast
        (List.length_eq_zero_iff.mp hempty) hsingle
    · rw [if_neg hempty] at hsingle
      by_cases hread : (ordered.filterMap parseBuildingFootprintCandidate).length = 0
      · rw [if_pos hread] at hsingle
        refine agreesOn_iff_of_none_readable hanswers hkeys hchunk hbbl hlast
          (fun hrows => hempty (List.length_eq_zero_iff.mpr hrows)) (fun candidate hc => ?_) hsingle
        exact (List.length_pos_of_mem ((hown candidate).mpr hc)).ne' hread
      · rw [if_neg hread] at hsingle
        exact agreesOn_iff_of_candidates hanswers hkeys hchunk hbbl hlast hreads hread hown hsingle
  · -- the single lookup refuses so many rows
    rw [if_neg hlast] at hsingle
    rw [AgreesOn, hsingle]
    constructor
    · intro _
      exact ⟨fun hsa => absurd hsa.1 hlast, fun hnr => absurd hnr.1 hlast⟩
    · intro _ he
      simp [lookupPageLimit, noParseableRecords] at he

end Agreement

/-- **When the bulk lookup agrees with the single lookup**: exactly when no BBL of the list has rows
none of which can be read, no row of one BBL is read as one of another, and the rows of every chunk
end before the page limit, as far as the single lookups answer. -/
theorem lookupMany_agrees_iff {κ : Type} [LinearOrder κ] (dataset : OpenDataset κ)
    (hreads : ReadsBbls dataset) (client : BuildingFootprintsClient)
    (hanswers : dataset.AnswersInOneOrder client.fetchImpl)
    (lookupMode : BuildingFootprintLookupMode) (inputs : List String)
    (keys : SortedSet CanonicalBbl) (hkeys : canonicalBbls inputs = .ok keys) :
    (∀ input ∈ inputs, ∀ bbl, canonicalizeBbl input = some bbl →
      AgreesOn client lookupMode inputs input bbl) ↔
      ∀ chunk ∈ chunks keys.toList bulkLookupChunkSize, ∀ bbl ∈ chunk,
        Agreeable dataset lookupMode keys chunk bbl := by
  constructor
  · intro hagrees chunk hchunk bbl hbbl
    have hkey : bbl ∈ keys := by
      rw [SortedSet.mem_def, ← flatten_bulkChunks keys]
      exact List.mem_flatten.mpr ⟨chunk, hchunk, hbbl⟩
    obtain ⟨input, hmem, hinput⟩ := (canonicalBbls_eq_ok hkeys bbl).mp hkey
    exact (agreesOn_iff hreads hanswers hkeys input hinput hchunk hbbl).mp
      (hagrees input hmem bbl hinput)
  · intro hneeds input hmem bbl hinput
    have hkey : bbl ∈ keys := (canonicalBbls_eq_ok hkeys bbl).mpr ⟨input, hmem, hinput⟩
    rw [SortedSet.mem_def, ← flatten_bulkChunks keys, List.mem_flatten] at hkey
    obtain ⟨chunk, hchunk, hbbl⟩ := hkey
    exact (agreesOn_iff hreads hanswers hkeys input hinput hchunk hbbl).mpr
      (hneeds chunk hchunk bbl hbbl)

/-! ### A row that cannot be read -/

/-- A canonical text is read as its BBL. -/
theorem parseSourceBbl_text (bbl : CanonicalBbl) : parseSourceBbl (.string bbl.text) = some bbl := by
  have hdigits : bbl.text.toList.length = 10 ∧ bbl.text.toList.all Char.isDigit = true :=
    ⟨bbl.length_eq, bbl.digits⟩
  simp only [parseSourceBbl, parseSourceDigits, SourceValue.trimmed?, SourceValue.string?,
    Option.map_some, trim_text, Option.bind_eq_bind, Option.bind_some,
    isEmpty_text (by decide) bbl, integerPart_text, if_pos hdigits, String.ofList_toList]
  exact DigitString.parse_text bbl

/-- A dataset whose columns are texts, compared as such. -/
def textDataset (records : List SourceRecord) : OpenDataset Nat where
  records := records
  reads value text := value = .string text
  rank _ := 0

theorem readsBbls_textDataset (records : List SourceRecord) : ReadsBbls (textDataset records) := by
  intro value bbl hreads
  rw [of_decide_eq_true hreads]
  exact parseSourceBbl_text bbl

/-- A row of the BBL 1008350041 whose BIN is no BIN. -/
def unreadableRow : SourceRecord
  | "bin" => .string "not-a-bin"
  | "base_bbl" => .string "1008350041"
  | _ => .undefined

/-- A client of a dataset whose only row is no candidate. -/
def unreadableClient : BuildingFootprintsClient := ⟨(textDataset [unreadableRow]).fetch, 30000⟩

/-- The base BBL of that row. -/
def unreadableBbls : SortedSet CanonicalBbl := SortedSet.ofList [⟨"1008350041", rfl, rfl⟩]

theorem lookupMany_agrees_iff_unreadable :
    (∀ input ∈ ["1008350041"], ∀ bbl, canonicalizeBbl input = some bbl →
      AgreesOn unreadableClient .parcel ["1008350041"] input bbl) ↔
      ∀ chunk ∈ chunks unreadableBbls.toList bulkLookupChunkSize, ∀ bbl ∈ chunk,
        Agreeable (textDataset [unreadableRow]) .parcel unreadableBbls chunk bbl :=
  lookupMany_agrees_iff _ (readsBbls_textDataset _) unreadableClient
    (OpenDataset.fetch_answersInOneOrder _) .parcel _ unreadableBbls rfl

/-- The single lookup fails, and the bulk lookup does not find the BBL. -/
theorem unreadable_not_found :
    ¬ ∀ input ∈ ["1008350041"], ∀ bbl, canonicalizeBbl input = some bbl →
      AgreesOn unreadableClient .parcel ["1008350041"] input bbl := by
  intro hagrees
  have hchunks : chunks unreadableBbls.toList bulkLookupChunkSize = [unreadableBbls.toList] := by
    decide +kernel
  have hparse : ∀ record ∈ (textDataset [unreadableRow]).records,
      parseBuildingFootprintCandidate record = none := by
    intro record hrecord
    rw [List.mem_singleton.mp hrecord]
    rfl
  have hkeys : canonicalBbls ["1008350041"] = .ok unreadableBbls := rfl
  have hneeds := (agreesOn_iff (readsBbls_textDataset [unreadableRow])
    (OpenDataset.fetch_answersInOneOrder _) hkeys "1008350041" rfl
    (hchunks ▸ List.mem_singleton_self _) (by decide)).mp (hagrees "1008350041" (by decide) _ rfl)
  have hrows : rowsOf (textDataset [unreadableRow]) .parcel ⟨"1008350041", rfl, rfl⟩ =
      [unreadableRow] := rfl
  have hfits : BulkFits (textDataset [unreadableRow]) .parcel unreadableBbls := by
    intro chunk hchunk
    rw [hchunks, List.mem_singleton] at hchunk
    rw [hchunk]
    show _ < _
    decide
  have hnone : NoneReadable (textDataset [unreadableRow]) .parcel ⟨"1008350041", rfl, rfl⟩ := by
    refine ⟨by rw [hrows]; decide, by rw [hrows]; exact List.cons_ne_nil _ _, ?_⟩
    rintro candidate ⟨record, hrecord, hcandidate⟩
    rw [hparse record (List.mem_filter.mp hrecord).1] at hcandidate
    cases hcandidate
  obtain ⟨candidate, ⟨record, hrecord, hcandidate, -⟩, -⟩ := hneeds.2 hnone hfits
  rw [hparse record (List.mem_filter.mp hrecord).1] at hcandidate
  cases hcandidate

end BuildingFootprints

end NycPropertyResolver
