import NycPropertyResolver.Clients.OpenDataset
import NycPropertyResolver.Identity.Resolution
import NycPropertyResolver.Library.Grouping

/-!
# Clients — PLUTO

`pluto.client.ts`: the parcel of a BBL, looked up by itself (`lookupByBbl`) or with others
(`lookupByBbls`).  A single lookup reads at most two records.  A bulk lookup reads at most two records
for each BBL of a chunk, but in one page for the whole chunk, in BBL order: the records of one BBL may
take the place of those of another, and then the two lookups differ (`bulk_agrees_iff`).
-/

namespace NycPropertyResolver

open Library

namespace Pluto

/-! ### Constants -/

/-- `PLUTO_LOOKUP_RESULT_LIMIT`: two rows tell an ambiguous BBL from a found one. -/
def plutoLookupResultLimit : Nat := 2

/-- `PLUTO_BULK_LOOKUP_CHUNK_SIZE`. -/
def plutoBulkLookupChunkSize : Nat := 500

/-! ### Records -/

/-- `PlutoRecordAssessment`: a whole parcel, or what its row lacks. -/
inductive PlutoRecordAssessment where
  | complete (parcel : PlutoParcelRecord)
  | incomplete (reasons : List PlutoIncompleteReason) (rawBbl : Option CanonicalBbl)

/-- `/^\d+$/`. -/
def isDigits (cs : List Char) : Bool := !cs.isEmpty && cs.all Char.isDigit

/-- `Number.isFinite`, of the double nearest to an integer: infinite from 2^1024 - 2^970 on. -/
def isFiniteInteger (n : Nat) : Bool := n < (2 ^ 128) ^ 8 - (2 ^ 97) ^ 10

/-- `parseSourceInteger`: the digits before a decimal point, as a finite number. -/
def parseSourceInteger (value : SourceValue) : Option Nat := do
  let raw := trim (← value.string?)
  if raw.isEmpty then none
  else if isDigits (integerPart raw) then
    let parsed := digitsValue (integerPart raw)
    if isFiniteInteger parsed then some parsed else none
  else none

/-- `padStart(10, '0')`. -/
def padStart (cs : List Char) : List Char := List.replicate (10 - cs.length) '0' ++ cs

/-- `parseSourceBbl`: the digits before a decimal point, padded to ten. -/
def parseSourceBbl (value : SourceValue) : Option CanonicalBbl := do
  let raw ← value.trimmed?
  if raw.isEmpty then none
  else if isDigits (integerPart raw) then
    canonicalizeBbl (String.ofList (padStart (integerPart raw)))
  else none

/-- The trimmed text, unless it is empty. -/
def nonEmpty (raw : String) : Option String := if (trim raw).isEmpty then none else some (trim raw)

/-- `parseSourceAddress`: a text that is not blank. -/
def parseSourceAddress : SourceValue → Option String
  | .string value => nonEmpty value
  | _ => none

/-- `parseSourceBldgclass`: a text that is not blank. -/
def parseSourceBldgclass (value : SourceValue) : Option String := value.string?.bind nonEmpty

/-- `[...new Set([...left, ...right])]`. -/
def mergeIncompleteReasons (left right : List PlutoIncompleteReason) : List PlutoIncompleteReason :=
  (left ++ right).eraseDups

/-- A reason, where there is nothing to read. -/
def missing {α : Type} (value : Option α) (reason : PlutoIncompleteReason) :
    List PlutoIncompleteReason :=
  if value.isNone then [reason] else []

/-- The components of a BBL are those the record states. -/
def mismatch (bbl : Option CanonicalBbl) (borough block lot : Option Nat) :
    List PlutoIncompleteReason :=
  match bbl, borough, block, lot with
  | some bbl, some borough, some block, some lot =>
    let components := parseBblComponents bbl
    if components.borough ≠ borough ∨ components.block ≠ block ∨ components.lot ≠ lot then
      [.identifierMismatch]
    else []
  | _, _, _, _ => []

/-- `assessPlutoRecord`: the parcel of a row, or every reason why it is incomplete. -/
def assessPlutoRecord (record : SourceRecord) : PlutoRecordAssessment :=
  let bbl := parseSourceBbl (record "bbl")
  let borough := parseSourceInteger (record "borocode")
  let block := parseSourceInteger (record "block")
  let lot := parseSourceInteger (record "lot")
  let address := parseSourceAddress (record "address")
  let reasons := missing bbl .missingBbl ++ missing borough .missingBorocode ++
    missing block .missingBlock ++ missing lot .missingLot ++ missing address .missingAddress ++
    mismatch bbl borough block lot
  match reasons, bbl, borough, block, lot, address with
  | [], some bbl, some borough, some block, some lot, some address =>
    .complete
      { bbl := bbl
        borough := borough
        block := block
        lot := lot
        address := address
        bldgclass := parseSourceBldgclass (record "bldgclass") }
  | _, _, _, _, _, _ => .incomplete reasons bbl

/-! ### Classification -/

/-- `classifyPlutoParcels`: none, one or several parcels. -/
def classifyPlutoParcels : List PlutoParcelRecord → PlutoLookupResult
  | [] => .notFound
  | [parcel] => .found parcel
  | parcels => .multiple parcels

/-- Parcels decide; reasons count where there are none. -/
def classifyBulkPlutoLookup (parcels : List PlutoParcelRecord)
    (incompleteReasons : List PlutoIncompleteReason) : PlutoLookupResult :=
  if 0 < parcels.length then classifyPlutoParcels parcels
  else if 0 < incompleteReasons.length then .incomplete incompleteReasons
  else .notFound

/-- `classifyRawPlutoRecords`: the result of a single lookup's rows. -/
def classifyRawPlutoRecords (records : List SourceRecord) : PlutoLookupResult :=
  let (parcels, incompleteReasons) :=
    records.foldl (fun (acc : List PlutoParcelRecord × List PlutoIncompleteReason) record =>
      match assessPlutoRecord record with
      | .complete parcel => (acc.1 ++ [parcel], acc.2)
      | .incomplete reasons _ => (acc.1, mergeIncompleteReasons acc.2 reasons)) ([], [])
  classifyBulkPlutoLookup parcels incompleteReasons

/-! ### The client -/

/-- What answers the client's queries, and the time it has for one. -/
structure PlutoClient where
  fetchImpl : SourceQuery → FetchOutcome
  requestTimeoutMs : Nat

/-- `buildLookupUrl`: the query of a single lookup. -/
def buildLookupUrl (bbl : CanonicalBbl) : SourceQuery where
  filter := .equals "bbl" bbl.text
  order := none
  limit := plutoLookupResultLimit
  offset := 0

/-- `buildBulkLookupUrl`: the query of a chunk of BBLs, ordered by BBL. -/
def buildBulkLookupUrl (bbls : List CanonicalBbl) : SourceQuery where
  filter := .isIn "bbl" (bbls.map (·.text))
  order := some "bbl"
  limit := max (bbls.length * plutoLookupResultLimit) bbls.length
  offset := 0

/-- The rows of a query, or the error its answer means. -/
def PlutoClient.fetchRecords (client : PlutoClient) (query : SourceQuery) :
    Except SourceClientError (List SourceRecord) :=
  responseRecords "PLUTO" "PLUTO" client.requestTimeoutMs (client.fetchImpl query)

/-- `lookupByBbl`: the parcel of one BBL. -/
def PlutoClient.lookupByBbl (client : PlutoClient) (bbl : String) :
    Except SourceClientError PlutoLookupResult :=
  match canonicalizeBbl bbl with
  | none =>
    .error (.app "PLUTO_INVALID_BBL" "PLUTO lookup requires a canonical 10-digit BBL" (some 400))
  | some canonicalBbl => do
    let records ← client.fetchRecords (buildLookupUrl canonicalBbl)
    .ok (classifyRawPlutoRecords records)

/-- The parcel a record gives, under its BBL. -/
def parcelUnderBbl (record : SourceRecord) : Option (CanonicalBbl × PlutoParcelRecord) :=
  match assessPlutoRecord record with
  | .complete parcel => some (parcel.bbl, parcel)
  | .incomplete _ _ => none

/-- The results of a chunk, from the records of its page. -/
def chunkResults (bbls : List CanonicalBbl) (records : List SourceRecord) :
    Table CanonicalBbl PlutoLookupResult :=
  let parcelsByBbl := records.foldl (Table.pushRow parcelUnderBbl) .empty
  let incompleteByBbl :=
    records.foldl (fun (t : Table CanonicalBbl (List PlutoIncompleteReason)) record =>
      match assessPlutoRecord record with
      | .incomplete reasons (some rawBbl) =>
        t.set rawBbl (mergeIncompleteReasons ((t.find rawBbl).getD []) reasons)
      | _ => t) .empty
  Table.ofKeys bbls fun bbl =>
    classifyBulkPlutoLookup ((parcelsByBbl.find bbl).getD []) ((incompleteByBbl.find bbl).getD [])

/-- `lookupByBblChunk`: the results of one chunk, from one page. -/
def PlutoClient.lookupByBblChunk (client : PlutoClient) (bbls : List CanonicalBbl) :
    Except SourceClientError (Table CanonicalBbl PlutoLookupResult) := do
  let records ← client.fetchRecords (buildBulkLookupUrl bbls)
  .ok (chunkResults bbls records)

/-- `lookupByBbls`: the results of all chunks; a BBL no chunk returned is not found. -/
def PlutoClient.lookupByBbls (client : PlutoClient) (bbls : List String) :
    Except SourceClientError (Table CanonicalBbl PlutoLookupResult) := do
  let keys ← canonicalBbls bbls
  let results ← (chunks keys.toList plutoBulkLookupChunkSize).foldlM (fun results chunk => do
    let chunkResults ← client.lookupByBblChunk chunk
    Except.ok (results.setAll chunkResults)) Table.empty
  .ok (keys.toList.foldl (fun results bbl =>
    if (results.find bbl).isSome then results else results.set bbl .notFound) results)

/-! ### Records of a dataset -/

section Agreement

variable {κ : Type} {dataset : OpenDataset κ} {client : PlutoClient}

/-- A PLUTO dataset: every record is complete, the filter compares a column with a BBL as the client
reads it, and the order of the column is that of the BBLs. -/
structure IsPlutoDataset [LE κ] (dataset : OpenDataset κ) : Prop where
  complete : ∀ record ∈ dataset.records, ∃ parcel, assessPlutoRecord record = .complete parcel
  reads_bbl : ∀ value (bbl : CanonicalBbl), dataset.reads value bbl.text = true →
    parseSourceBbl value = some bbl
  order_bbl : ∀ value value' (bbl bbl' : CanonicalBbl), parseSourceBbl value = some bbl →
    parseSourceBbl value' = some bbl' → dataset.rank value ≤ dataset.rank value' → bbl ≤ bbl'

/-- The records of a BBL. -/
def recordsOf (dataset : OpenDataset κ) (bbl : CanonicalBbl) : List SourceRecord :=
  dataset.select (.equals "bbl" bbl.text)

/-- The records of any of the BBLs. -/
def recordsOfAny (dataset : OpenDataset κ) (bbls : List CanonicalBbl) : List SourceRecord :=
  dataset.select (.isIn "bbl" (bbls.map (·.text)))

/-- The text of the BBL a record is read as. -/
def bblText (record : SourceRecord) : String :=
  match parseSourceBbl (record "bbl") with
  | some bbl => bbl.text
  | none => ""

/-- The parcel of a complete record. -/
def parcelOf (record : SourceRecord) : Option PlutoParcelRecord := (parcelUnderBbl record).map (·.2)

theorem bbl_of_complete {record : SourceRecord} {parcel : PlutoParcelRecord}
    (h : assessPlutoRecord record = .complete parcel) :
    parseSourceBbl (record "bbl") = some parcel.bbl := by
  simp only [assessPlutoRecord] at h
  split at h
  · cases h
    assumption
  · cases h

theorem mem_recordsOf {bbl : CanonicalBbl} {record : SourceRecord} :
    record ∈ recordsOf dataset bbl ↔
      record ∈ dataset.records ∧ dataset.reads (record "bbl") bbl.text = true :=
  List.mem_filter

theorem mem_recordsOfAny {bbls : List CanonicalBbl} {record : SourceRecord} :
    record ∈ recordsOfAny dataset bbls ↔
      record ∈ dataset.records ∧ ∃ bbl ∈ bbls, dataset.reads (record "bbl") bbl.text = true := by
  rw [recordsOfAny, OpenDataset.select, List.mem_filter]
  simp [SourceFilter.matches]

variable [LinearOrder κ] (hdata : IsPlutoDataset dataset)

include hdata

theorem bblText_of_reads {record : SourceRecord} {bbl : CanonicalBbl}
    (h : dataset.reads (record "bbl") bbl.text = true) : bblText record = bbl.text := by
  rw [bblText, hdata.reads_bbl _ _ h]

/-- Among the records of some BBLs, those of one are told by their BBL. -/
theorem reads_iff_bblText {bbls : List CanonicalBbl} {record : SourceRecord} {bbl : CanonicalBbl}
    (h : ∃ bbl ∈ bbls, dataset.reads (record "bbl") bbl.text = true) :
    dataset.reads (record "bbl") bbl.text = true ↔ bblText record = bbl.text := by
  refine ⟨bblText_of_reads hdata, fun he => ?_⟩
  obtain ⟨bbl', -, hr⟩ := h
  rw [bblText_of_reads hdata hr] at he
  rwa [← DigitString.ext he]

theorem filter_recordsOfAny {bbls : List CanonicalBbl} {bbl : CanonicalBbl} (hb : bbl ∈ bbls) :
    (recordsOfAny dataset bbls).filter (fun record => bblText record = bbl.text) =
      recordsOf dataset bbl := by
  rw [recordsOfAny, recordsOf, OpenDataset.select, OpenDataset.select, List.filter_filter]
  refine List.filter_congr fun record _ => ?_
  rw [Bool.eq_iff_iff]
  simp only [SourceFilter.matches, List.any_map, Bool.and_eq_true, decide_eq_true_eq,
    List.any_eq_true, Function.comp_apply]
  constructor
  · rintro ⟨he, hany⟩
    exact (reads_iff_bblText hdata hany).mpr he
  · intro h
    exact ⟨bblText_of_reads hdata h, bbl, hb, h⟩

/-- The records before those of a BBL. -/
theorem countP_recordsOfAny_lt {bbls : List CanonicalBbl} {bbl : CanonicalBbl} :
    (recordsOfAny dataset bbls).countP (fun record => bblText record < bbl.text) =
      (recordsOfAny dataset (bbls.filter (· < bbl))).length := by
  rw [List.countP_eq_length_filter, recordsOfAny, recordsOfAny, OpenDataset.select,
    OpenDataset.select, List.filter_filter]
  congr 1
  refine List.filter_congr fun record _ => ?_
  rw [Bool.eq_iff_iff]
  simp only [SourceFilter.matches, List.any_map, Bool.and_eq_true, decide_eq_true_eq,
    List.any_eq_true, Function.comp_apply, List.mem_filter]
  constructor
  · rintro ⟨hlt, bbl', hb', hr⟩
    rw [bblText_of_reads hdata hr] at hlt
    exact ⟨bbl', ⟨hb', hlt⟩, hr⟩
  · rintro ⟨bbl', ⟨hb', hlt⟩, hr⟩
    rw [bblText_of_reads hdata hr]
    exact ⟨hlt, bbl', hb', hr⟩

omit hdata

/-! ### Classification of complete records -/

/-- The status of a lookup, and its parcel when there is one. -/
def SameLookup : PlutoLookupResult → PlutoLookupResult → Prop
  | .notFound, .notFound => True
  | .incomplete _, .incomplete _ => True
  | .found parcel, .found parcel' => parcel = parcel'
  | .multiple _, .multiple _ => True
  | _, _ => False

/-- The status is the number of parcels, up to two. -/
theorem sameLookup_classify_iff {ps qs : List PlutoParcelRecord} :
    SameLookup (classifyPlutoParcels ps) (classifyPlutoParcels qs) ↔
      min ps.length 2 = min qs.length 2 ∧ ∀ p q, ps = [p] → qs = [q] → p = q := by
  match ps, qs with
  | [], [] => simp [classifyPlutoParcels, SameLookup]
  | [], [_] => simp [classifyPlutoParcels, SameLookup]
  | [], _ :: _ :: _ => simp [classifyPlutoParcels, SameLookup]
  | [_], [] => simp [classifyPlutoParcels, SameLookup]
  | [_], [_] => simp [classifyPlutoParcels, SameLookup]
  | [_], _ :: _ :: _ => simp [classifyPlutoParcels, SameLookup]
  | _ :: _ :: _, [] => simp [classifyPlutoParcels, SameLookup]
  | _ :: _ :: _, [_] => simp [classifyPlutoParcels, SameLookup]
  | _ :: _ :: _, _ :: _ :: _ => simp [classifyPlutoParcels, SameLookup]

theorem parcelOf_of_complete {record : SourceRecord} {parcel : PlutoParcelRecord}
    (h : assessPlutoRecord record = .complete parcel) : parcelOf record = some parcel := by
  rw [parcelOf, parcelUnderBbl, h]; rfl

/-- Every complete record gives a parcel. -/
theorem length_filterMap_parcelOf {records : List SourceRecord}
    (h : ∀ record ∈ records, ∃ parcel, assessPlutoRecord record = .complete parcel) :
    (records.filterMap parcelOf).length = records.length := by
  induction records with
  | nil => rfl
  | cons record records ih =>
      obtain ⟨parcel, hp⟩ := h record List.mem_cons_self
      rw [List.filterMap_cons, parcelOf_of_complete hp, List.length_cons, List.length_cons,
        ih fun r hr => h r (List.mem_cons_of_mem _ hr)]

/-- Without reasons to report, the parcels decide. -/
theorem classifyBulkPlutoLookup_nil (parcels : List PlutoParcelRecord) :
    classifyBulkPlutoLookup parcels [] = classifyPlutoParcels parcels := by
  cases parcels with
  | nil => rfl
  | cons p ps => rw [classifyBulkPlutoLookup, if_pos (by simp)]

theorem classifyRawPlutoRecords_of_complete {records : List SourceRecord}
    (h : ∀ record ∈ records, ∃ parcel, assessPlutoRecord record = .complete parcel) :
    classifyRawPlutoRecords records = classifyPlutoParcels (records.filterMap parcelOf) := by
  have hfold : ∀ (records : List SourceRecord) (acc : List PlutoParcelRecord),
      (∀ record ∈ records, ∃ parcel, assessPlutoRecord record = .complete parcel) →
        records.foldl (fun (acc : List PlutoParcelRecord × List PlutoIncompleteReason) record =>
          match assessPlutoRecord record with
          | .complete parcel => (acc.1 ++ [parcel], acc.2)
          | .incomplete reasons _ => (acc.1, mergeIncompleteReasons acc.2 reasons)) (acc, []) =
          (acc ++ records.filterMap parcelOf, []) := by
    intro records
    induction records with
    | nil => intro acc _; simp
    | cons record records ih =>
        intro acc h
        obtain ⟨parcel, hp⟩ := h record List.mem_cons_self
        rw [List.foldl_cons, hp, List.filterMap_cons, parcelOf_of_complete hp,
          ih _ fun r hr => h r (List.mem_cons_of_mem _ hr), List.append_assoc]
        rfl
  rw [classifyRawPlutoRecords, hfold records [] h, List.nil_append]
  exact classifyBulkPlutoLookup_nil _

/-! ### What the lookups return -/

/-- The records of a page, as the client receives them. -/
theorem fetchRecords_of_answers {q : SourceQuery} {page : List SourceRecord}
    (h : client.fetchImpl q = .response 200 (.array page)) : client.fetchRecords q = .ok page := by
  rw [PlutoClient.fetchRecords, h, responseRecords_array]

/-- A single lookup counts at most two records of its BBL. -/
theorem lookupByBbl_eq (client : PlutoClient) (hdata : IsPlutoDataset dataset) (hanswers : dataset.Answers client.fetchImpl)
    {input : String} {bbl : CanonicalBbl} (hinput : canonicalizeBbl input = some bbl) :
    ∃ ordered : List SourceRecord, ordered.Perm (recordsOf dataset bbl) ∧
      client.lookupByBbl input =
        .ok (classifyPlutoParcels ((ordered.take plutoLookupResultLimit).filterMap parcelOf)) := by
  obtain ⟨page, hfetch, ordered, hperm, -, rfl⟩ := hanswers (buildLookupUrl bbl)
  refine ⟨ordered, hperm, ?_⟩
  have hcomplete : ∀ record ∈ (ordered.drop 0).take plutoLookupResultLimit,
      ∃ parcel, assessPlutoRecord record = .complete parcel := by
    intro record hrecord
    have hmem := hperm.mem_iff.mp (List.mem_of_mem_take hrecord)
    exact hdata.complete record (List.mem_filter.mp hmem).1
  rw [PlutoClient.lookupByBbl, hinput]
  show (client.fetchRecords (buildLookupUrl bbl) >>= fun records =>
    Except.ok (classifyRawPlutoRecords records)) = _
  rw [fetchRecords_of_answers hfetch]
  exact congrArg Except.ok (classifyRawPlutoRecords_of_complete hcomplete)

/-- The parcels gathered under a BBL are those of the records read as it. -/
theorem parcels_under_bbl {records : List SourceRecord} (bbl : CanonicalBbl)
    (h : ∀ record ∈ records, ∃ parcel, assessPlutoRecord record = .complete parcel) :
    (records.filterMap fun record =>
      (parcelUnderBbl record).bind fun p => if p.1 = bbl then some p.2 else none) =
      (records.filter fun record => bblText record = bbl.text).filterMap parcelOf := by
  rw [List.filterMap_filter]
  refine List.filterMap_congr fun record hrecord => ?_
  obtain ⟨parcel, hp⟩ := h record hrecord
  have htext : bblText record = parcel.bbl.text := by rw [bblText, bbl_of_complete hp]
  rw [parcelOf_of_complete hp, parcelUnderBbl, hp, htext]
  by_cases he : parcel.bbl = bbl
  · simp [he]
  · have hne : parcel.bbl.text ≠ bbl.text := fun ht => he (DigitString.ext ht)
    simp [he, hne]

/-- Complete records leave no reasons. -/
theorem no_reasons_of_complete {records : List SourceRecord}
    (h : ∀ record ∈ records, ∃ parcel, assessPlutoRecord record = .complete parcel)
    (t : Table CanonicalBbl (List PlutoIncompleteReason)) :
    records.foldl (fun (t : Table CanonicalBbl (List PlutoIncompleteReason)) record =>
      match assessPlutoRecord record with
      | .incomplete reasons (some rawBbl) =>
        t.set rawBbl (mergeIncompleteReasons ((t.find rawBbl).getD []) reasons)
      | _ => t) t = t := by
  induction records with
  | nil => rfl
  | cons record records ih =>
      obtain ⟨parcel, hp⟩ := h record List.mem_cons_self
      rw [List.foldl_cons, hp]
      exact ih fun r hr => h r (List.mem_cons_of_mem _ hr)

/-- The result of a BBL in a page of complete records. -/
theorem find_chunkResults {records : List SourceRecord} (bbls : List CanonicalBbl) (bbl : CanonicalBbl)
    (h : ∀ record ∈ records, ∃ parcel, assessPlutoRecord record = .complete parcel) :
    (chunkResults bbls records).find bbl = if bbl ∈ bbls then
      some (classifyPlutoParcels
        ((records.filter fun record => bblText record = bbl.text).filterMap parcelOf)) else none := by
  rw [chunkResults, Table.find_ofKeys]
  refine if_congr Iff.rfl (congrArg some ?_) rfl
  have hgroup := Table.getD_find_foldl_pushRow parcelUnderBbl bbl records Table.empty
  rw [parcels_under_bbl bbl h, Table.find_empty, Option.getD_none, List.nil_append] at hgroup
  refine (congrArg₂ classifyBulkPlutoLookup hgroup ?_).trans (classifyBulkPlutoLookup_nil _)
  rw [no_reasons_of_complete h]
  rfl

/-- A bulk lookup counts the records of a BBL in the page of its chunk. -/
theorem lookupByBblChunk_eq (client : PlutoClient) (hdata : IsPlutoDataset dataset)
    (hanswers : dataset.Answers client.fetchImpl) (bbls : List CanonicalBbl) :
    ∃ (ordered : List SourceRecord) (results : Table CanonicalBbl PlutoLookupResult),
      ordered.Perm (recordsOfAny dataset bbls) ∧
      ordered.Pairwise (fun r r' => bblText r ≤ bblText r') ∧
      client.lookupByBblChunk bbls = .ok results ∧
      ∀ bbl, results.find bbl = if bbl ∈ bbls then
        some (classifyPlutoParcels
          (((ordered.take (buildBulkLookupUrl bbls).limit).filter fun r =>
            bblText r = bbl.text).filterMap parcelOf)) else none := by
  obtain ⟨page, hfetch, ordered, hperm, hle, rfl⟩ := hanswers (buildBulkLookupUrl bbls)
  have hmem : ∀ record ∈ ordered, record ∈ dataset.records ∧
      ∃ bbl ∈ bbls, dataset.reads (record "bbl") bbl.text = true := by
    intro record hrecord
    exact mem_recordsOfAny.mp (hperm.mem_iff.mp hrecord)
  have hsorted : ordered.Pairwise fun r r' => bblText r ≤ bblText r' := by
    refine hle.imp_of_mem fun {r r'} hr hr' hrank => ?_
    obtain ⟨-, bbl, -, hread⟩ := hmem r hr
    obtain ⟨-, bbl', -, hread'⟩ := hmem r' hr'
    rw [bblText_of_reads hdata hread, bblText_of_reads hdata hread']
    exact hdata.order_bbl _ _ _ _ (hdata.reads_bbl _ _ hread) (hdata.reads_bbl _ _ hread')
      (hrank "bbl" rfl)
  have hcomplete : ∀ record ∈ ordered.take (buildBulkLookupUrl bbls).limit,
      ∃ parcel, assessPlutoRecord record = .complete parcel := by
    intro record hrecord
    exact hdata.complete record (hmem record (List.mem_of_mem_take hrecord)).1
  refine ⟨ordered, _, hperm, hsorted, ?_, fun bbl => find_chunkResults bbls bbl hcomplete⟩
  rw [PlutoClient.lookupByBblChunk, fetchRecords_of_answers hfetch]
  rfl

/-! ### Agreement -/

/-- The records of the BBLs before `bbl`, and up to two of its own, fit the page of the chunk. -/
def FitsPage (dataset : OpenDataset κ) (chunk : List CanonicalBbl) (bbl : CanonicalBbl) : Prop :=
  (recordsOf dataset bbl).length = 0 ∨
    (recordsOfAny dataset (chunk.filter (· < bbl))).length +
      min (recordsOf dataset bbl).length plutoLookupResultLimit ≤
        chunk.length * plutoLookupResultLimit

/-- The bulk lookup gives an input the result its single lookup gives. -/
def AgreesOn (client : PlutoClient) (inputs : List String) (input : String) : Prop :=
  ∃ bbl single results bulk, canonicalizeBbl input = some bbl ∧
    client.lookupByBbl input = .ok single ∧ client.lookupByBbls inputs = .ok results ∧
    results.find bbl = some bulk ∧ SameLookup single bulk

/-- Results that are there are kept. -/
theorem foldl_missing_eq {results : Table CanonicalBbl PlutoLookupResult} {keys : List CanonicalBbl}
    (h : ∀ bbl ∈ keys, (results.find bbl).isSome = true) :
    keys.foldl (fun results bbl =>
      if (results.find bbl).isSome then results else results.set bbl .notFound) results = results := by
  induction keys with
  | nil => rfl
  | cons bbl keys ih =>
      rw [List.foldl_cons, if_pos (h bbl List.mem_cons_self)]
      exact ih fun bbl' hbbl' => h bbl' (List.mem_cons_of_mem _ hbbl')

/-- A bulk lookup gives each BBL the result of its chunk. -/
theorem lookupByBbls_eq (client : PlutoClient) (hdata : IsPlutoDataset dataset)
    (hanswers : dataset.Answers client.fetchImpl) {inputs : List String}
    {keys : SortedSet CanonicalBbl} (hkeys : canonicalBbls inputs = .ok keys) :
    ∃ results, client.lookupByBbls inputs = .ok results ∧
      ∀ chunk ∈ chunks keys.toList plutoBulkLookupChunkSize, ∃ ordered : List SourceRecord,
        ordered.Perm (recordsOfAny dataset chunk) ∧
        ordered.Pairwise (fun r r' => bblText r ≤ bblText r') ∧
        ∀ bbl ∈ chunk, results.find bbl = some (classifyPlutoParcels
          (((ordered.take (buildBulkLookupUrl chunk).limit).filter fun r =>
            bblText r = bbl.text).filterMap parcelOf)) := by
  choose ordered chunkOf hperm hsorted hlookup hfind using
    lookupByBblChunk_eq client hdata hanswers
  have hflat : (chunks keys.toList plutoBulkLookupChunkSize).flatten = keys.toList :=
    flatten_chunks keys.toList (by decide)
  obtain ⟨results, hresults, hof, -⟩ := Table.foldlM_setAll client.lookupByBblChunk Table.empty
    (by rw [hflat]; exact keys.nodup) fun chunk _ => ⟨_, hlookup chunk, hfind chunk⟩
  refine ⟨results, ?_, fun chunk hchunk =>
    ⟨ordered chunk, hperm chunk, hsorted chunk, fun bbl hbbl => hof chunk hchunk bbl hbbl⟩⟩
  have hall : ∀ bbl ∈ keys.toList, (results.find bbl).isSome = true := by
    intro bbl hbbl
    rw [← hflat, List.mem_flatten] at hbbl
    obtain ⟨chunk, hchunk, hbbl⟩ := hbbl
    rw [hof chunk hchunk bbl hbbl]
    rfl
  rw [PlutoClient.lookupByBbls, hkeys]
  show (List.foldlM _ Table.empty _ >>= fun results => Except.ok _) = _
  rw [hresults]
  exact congrArg Except.ok (foldl_missing_eq hall)

/-- The records of a BBL in the page of its chunk. -/
theorem length_page_filter (hdata : IsPlutoDataset dataset) {chunk : List CanonicalBbl}
    {ordered : List SourceRecord} (hperm : ordered.Perm (recordsOfAny dataset chunk))
    (hsorted : ordered.Pairwise fun r r' => bblText r ≤ bblText r') {bbl : CanonicalBbl}
    (hbbl : bbl ∈ chunk) (limit : Nat) :
    ((ordered.take limit).filter fun r => bblText r = bbl.text).length =
      min (limit - (recordsOfAny dataset (chunk.filter (· < bbl))).length)
        (recordsOf dataset bbl).length := by
  rw [← List.countP_eq_length_filter, countP_take_of_sorted hsorted, hperm.countP_eq,
    hperm.countP_eq, countP_recordsOfAny_lt hdata, List.countP_eq_length_filter,
    filter_recordsOfAny hdata hbbl]

/-- A BBL of one record has the parcel of that record, in either lookup. -/
theorem parcel_eq_of_single (hdata : IsPlutoDataset dataset) {chunk : List CanonicalBbl}
    {ordered ordered' : List SourceRecord} {bbl : CanonicalBbl} (hbbl : bbl ∈ chunk)
    (hperm : ordered.Perm (recordsOf dataset bbl))
    (hperm' : ordered'.Perm (recordsOfAny dataset chunk)) {n n' : Nat}
    (hone : (recordsOf dataset bbl).length = 1) {p q : PlutoParcelRecord}
    (hp : p ∈ (ordered.take n).filterMap parcelOf)
    (hq : q ∈ ((ordered'.take n').filter fun r => bblText r = bbl.text).filterMap parcelOf) :
    p = q := by
  obtain ⟨record, hrecord⟩ := List.length_eq_one_iff.mp hone
  obtain ⟨r, hr, hrp⟩ := List.mem_filterMap.mp hp
  obtain ⟨r', hr', hrq⟩ := List.mem_filterMap.mp hq
  have hmem : r ∈ recordsOf dataset bbl := hperm.mem_iff.mp (List.mem_of_mem_take hr)
  have hmem' : r' ∈ recordsOf dataset bbl := by
    rw [← filter_recordsOfAny hdata hbbl]
    rw [List.mem_filter] at hr' ⊢
    exact ⟨hperm'.mem_iff.mp (List.mem_of_mem_take hr'.1), hr'.2⟩
  rw [hrecord, List.mem_singleton] at hmem hmem'
  rw [hmem] at hrp
  rw [hmem', hrp] at hrq
  exact Option.some.inj hrq

/-- The two lookups of one BBL agree exactly when its records fit. -/
theorem sameLookup_iff_fitsPage (hdata : IsPlutoDataset dataset) {chunk : List CanonicalBbl}
    {ordered ordered' : List SourceRecord} {bbl : CanonicalBbl} (hbbl : bbl ∈ chunk)
    (hperm : ordered.Perm (recordsOf dataset bbl))
    (hperm' : ordered'.Perm (recordsOfAny dataset chunk))
    (hsorted : ordered'.Pairwise fun r r' => bblText r ≤ bblText r') :
    SameLookup (classifyPlutoParcels ((ordered.take plutoLookupResultLimit).filterMap parcelOf))
        (classifyPlutoParcels (((ordered'.take (buildBulkLookupUrl chunk).limit).filter fun r =>
          bblText r = bbl.text).filterMap parcelOf)) ↔
      FitsPage dataset chunk bbl := by
  have hcomplete : ∀ record ∈ ordered.take plutoLookupResultLimit,
      ∃ parcel, assessPlutoRecord record = .complete parcel := by
    intro record hrecord
    exact hdata.complete record (mem_recordsOf.mp (hperm.mem_iff.mp (List.mem_of_mem_take hrecord))).1
  have hcomplete' : ∀ record ∈ (ordered'.take (buildBulkLookupUrl chunk).limit).filter
      (fun r => bblText r = bbl.text), ∃ parcel, assessPlutoRecord record = .complete parcel := by
    intro record hrecord
    have hmem := List.mem_of_mem_take (List.mem_filter.mp hrecord).1
    exact hdata.complete record (mem_recordsOfAny.mp (hperm'.mem_iff.mp hmem)).1
  have hlimit : (buildBulkLookupUrl chunk).limit = chunk.length * plutoLookupResultLimit :=
    max_eq_left (Nat.le_mul_of_pos_right _ (by decide))
  rw [sameLookup_classify_iff, length_filterMap_parcelOf hcomplete,
    length_filterMap_parcelOf hcomplete', length_page_filter hdata hperm' hsorted hbbl, hlimit,
    List.length_take, hperm.length_eq, FitsPage]
  constructor
  · rintro ⟨hcount, -⟩
    simp only [plutoLookupResultLimit] at *
    omega
  · intro hfits
    simp only [plutoLookupResultLimit] at *
    refine ⟨by omega, fun p q hp hq => ?_⟩
    have hone : (recordsOf dataset bbl).length = 1 := by
      have hlen := congrArg List.length hp
      rw [length_filterMap_parcelOf hcomplete, List.length_take, hperm.length_eq,
        List.length_singleton] at hlen
      have hlen' := congrArg List.length hq
      rw [← hlimit, length_filterMap_parcelOf hcomplete',
        length_page_filter hdata hperm' hsorted hbbl, hlimit, List.length_singleton] at hlen'
      omega
    exact parcel_eq_of_single hdata hbbl hperm hperm' hone (hp ▸ List.mem_singleton_self p)
      (hq ▸ List.mem_singleton_self q)

/-- The chunk of an input decides about it. -/
theorem agreesOn_iff (hdata : IsPlutoDataset dataset) (hanswers : dataset.Answers client.fetchImpl)
    {inputs : List String} {keys : SortedSet CanonicalBbl} (hkeys : canonicalBbls inputs = .ok keys)
    (input : String) {bbl : CanonicalBbl} (hinput : canonicalizeBbl input = some bbl)
    {chunk : List CanonicalBbl} (hchunk : chunk ∈ chunks keys.toList plutoBulkLookupChunkSize)
    (hbbl : bbl ∈ chunk) : AgreesOn client inputs input ↔ FitsPage dataset chunk bbl := by
  obtain ⟨ordered, hperm, hsingle⟩ := lookupByBbl_eq client hdata hanswers hinput
  obtain ⟨results, hbulk, hresults⟩ := lookupByBbls_eq client hdata hanswers hkeys
  obtain ⟨ordered', hperm', hsorted, hfind⟩ := hresults chunk hchunk
  rw [← sameLookup_iff_fitsPage hdata hbbl hperm hperm' hsorted]
  constructor
  · rintro ⟨bbl', single, results', bulk, hinput', hsingle', hbulk', hfind', hsame⟩
    rw [hinput] at hinput'
    rw [hsingle] at hsingle'
    rw [hbulk] at hbulk'
    cases hinput'
    cases hsingle'
    cases hbulk'
    rw [hfind bbl hbbl] at hfind'
    cases hfind'
    exact hsame
  · intro hsame
    exact ⟨bbl, _, results, _, hinput, hsingle, hbulk, hfind bbl hbbl, hsame⟩

end Agreement

/-- **When the bulk lookup agrees with the single lookup**: exactly when, in every chunk, the records
of the BBLs before each BBL leave room in the page for up to two of its own. -/
theorem bulk_agrees_iff {κ : Type} [LinearOrder κ] (dataset : OpenDataset κ)
    (hdata : IsPlutoDataset dataset) (client : PlutoClient)
    (hanswers : dataset.Answers client.fetchImpl) (inputs : List String)
    (keys : SortedSet CanonicalBbl) (hkeys : canonicalBbls inputs = .ok keys) :
    (∀ input ∈ inputs, AgreesOn client inputs input) ↔
      ∀ chunk ∈ chunks keys.toList plutoBulkLookupChunkSize, ∀ bbl ∈ chunk,
        FitsPage dataset chunk bbl := by
  have hflat : (chunks keys.toList plutoBulkLookupChunkSize).flatten = keys.toList :=
    flatten_chunks keys.toList (by decide)
  constructor
  · intro hagrees chunk hchunk bbl hbbl
    have hkey : bbl ∈ keys := by
      rw [SortedSet.mem_def, ← hflat]
      exact List.mem_flatten.mpr ⟨chunk, hchunk, hbbl⟩
    obtain ⟨input, hmem, hinput⟩ := (canonicalBbls_eq_ok hkeys bbl).mp hkey
    exact (agreesOn_iff hdata hanswers hkeys input hinput hchunk hbbl).mp (hagrees input hmem)
  · intro hfits input hmem
    obtain ⟨bbl, hinput⟩ := canonicalizeBbl_of_canonicalBbls hkeys hmem
    have hkey : bbl ∈ keys := (canonicalBbls_eq_ok hkeys bbl).mpr ⟨input, hmem, hinput⟩
    rw [SortedSet.mem_def, ← hflat, List.mem_flatten] at hkey
    obtain ⟨chunk, hchunk, hbbl⟩ := hkey
    exact (agreesOn_iff hdata hanswers hkeys input hinput hchunk hbbl).mpr (hfits chunk hchunk bbl hbbl)

/-! ### A parcel crowded out -/

/-- A canonical text is read as its BBL. -/
theorem parseSourceBbl_text (bbl : CanonicalBbl) : parseSourceBbl (.string bbl.text) = some bbl := by
  have hdigits : isDigits bbl.text.toList = true := by
    rw [isDigits, bbl.digits, Bool.and_true, Bool.not_eq_true', List.isEmpty_eq_false_iff]
    intro hnil
    have hlen := bbl.length_eq
    rw [hnil] at hlen
    cases hlen
  have hpad : padStart bbl.text.toList = bbl.text.toList := by
    rw [padStart, bbl.length_eq]
    rfl
  simp only [parseSourceBbl, SourceValue.trimmed?, SourceValue.string?, Option.map_some, trim_text,
    Option.bind_eq_bind, Option.bind_some, isEmpty_text (by decide) bbl, integerPart_text, hdigits,
    hpad, String.ofList_toList]
  exact DigitString.parse_text bbl

/-- A dataset whose BBLs are texts, compared and ordered as such. -/
def textDataset (records : List SourceRecord) : OpenDataset String where
  records := records
  reads value text := value = .string text
  rank value := match parseSourceBbl value with
    | some bbl => bbl.text
    | none => ""

theorem isPlutoDataset_textDataset {records : List SourceRecord}
    (h : ∀ record ∈ records, ∃ parcel, assessPlutoRecord record = .complete parcel) :
    IsPlutoDataset (textDataset records) where
  complete := h
  reads_bbl value bbl hreads := by
    rw [of_decide_eq_true hreads]
    exact parseSourceBbl_text bbl
  order_bbl value value' bbl bbl' hvalue hvalue' hle := by
    simp only [textDataset, hvalue, hvalue'] at hle
    exact hle

/-- A record of lot `lot` in block 1 of Manhattan. -/
def sampleRecord (bbl lot : String) : SourceRecord
  | "bbl" => .string bbl
  | "borocode" => .string "1"
  | "block" => .string "1"
  | "lot" => .string lot
  | "address" => .string "1 MAIN STREET"
  | _ => .undefined

/-- Four records of lot 1, one of lot 2. -/
def crowdedDataset : OpenDataset String :=
  textDataset (List.replicate 4 (sampleRecord "1000010001" "1") ++ [sampleRecord "1000010002" "2"])

/-- The client of a dataset with more rows than a chunk's page takes. -/
def crowdedClient : PlutoClient := ⟨crowdedDataset.fetch, 30000⟩

theorem isPlutoDataset_crowdedDataset : IsPlutoDataset crowdedDataset := by
  refine isPlutoDataset_textDataset fun record hrecord => ?_
  rcases List.mem_append.mp hrecord with hfirst | hsecond
  · rw [List.eq_of_mem_replicate hfirst]
    exact ⟨_, rfl⟩
  · rw [List.mem_singleton.mp hsecond]
    exact ⟨_, rfl⟩

/-- Lots 1 and 2 of that block. -/
def crowdedBbls : SortedSet CanonicalBbl :=
  SortedSet.ofList [⟨"1000010001", rfl, rfl⟩, ⟨"1000010002", rfl, rfl⟩]

theorem canonicalBbls_crowded : canonicalBbls ["1000010001", "1000010002"] = .ok crowdedBbls := rfl

theorem bulk_agrees_iff_crowded :
    (∀ input ∈ ["1000010001", "1000010002"],
      AgreesOn crowdedClient ["1000010001", "1000010002"] input) ↔
      ∀ chunk ∈ chunks crowdedBbls.toList plutoBulkLookupChunkSize, ∀ bbl ∈ chunk,
        FitsPage crowdedDataset chunk bbl :=
  bulk_agrees_iff crowdedDataset isPlutoDataset_crowdedDataset crowdedClient
    crowdedDataset.fetch_answers _ crowdedBbls canonicalBbls_crowded

/-- The one record of lot 2 is not in the page of the two BBLs. -/
theorem crowded_out :
    ¬ ∀ input ∈ ["1000010001", "1000010002"],
      AgreesOn crowdedClient ["1000010001", "1000010002"] input := by
  intro hagrees
  have hchunk : crowdedBbls.toList ∈ chunks crowdedBbls.toList plutoBulkLookupChunkSize := by
    decide +kernel
  have hfits := (agreesOn_iff isPlutoDataset_crowdedDataset crowdedDataset.fetch_answers
    canonicalBbls_crowded "1000010002" rfl hchunk (by decide)).mp
      (hagrees "1000010002" (by decide))
  rcases hfits with hnone | hfits
  · exact absurd hnone (by decide)
  · exact absurd hfits (by decide)

end Pluto

end NycPropertyResolver
