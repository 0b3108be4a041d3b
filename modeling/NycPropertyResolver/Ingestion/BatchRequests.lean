import Mathlib.Data.List.FinRange
import NycPropertyResolver.Clients.Socrata
import NycPropertyResolver.Library.Steps

/-!
# Ingestion — the requests of a batch

The batches of a run are cut by `ECB_BATCH_SIZE` (`buildBatchDefinitions`), and their pages are
requested by a client that the batch processor constructs itself (`createBoundedSocrataClient`), with no
bound on the BINs of a query but the client's default.  A batch is accepted by the client exactly when
it is within that default, whatever `ECB_BATCH_SIZE` says (`batches_accepted_iff`).
-/

namespace NycPropertyResolver

open Library

variable {Row : Type}

/-! ### The batch processor -/

/-- `batch_definition`, as it is read back. -/
structure PersistedBatchDefinition where
  bins : List String
  pageSize : Option Nat
  deriving DecidableEq

/-- What is stored for a definition. -/
def IngestionBatchDefinition.persisted (definition : IngestionBatchDefinition) :
    PersistedBatchDefinition :=
  ⟨definition.bins.map (·.text), some definition.pageSize⟩

/-- `parseBatchDefinition`, with `batchDefinitionSchema`; `none` where it throws
`BATCH_INVALID_DEFINITION`. -/
def parseBatchDefinition (value : PersistedBatchDefinition) : Option PersistedBatchDefinition :=
  let bins := value.bins.map trim
  if bins ≠ [] ∧ (∀ bin ∈ bins, bin ≠ "") ∧
      (value.pageSize.all fun pageSize => 0 < pageSize ∧ pageSize ≤ 50000) then
    some ⟨bins, value.pageSize⟩
  else
    none

/-- The client of the batch processor: it takes the default bounds. -/
def createBoundedSocrataClient : Except SocrataClientError SocrataClient :=
  SocrataClient.create ⟨none, none, none⟩

/-- The loop of `runLogicalAttempt`: the pages fetched and the offset of a request it reaches.  It asks
for another page after one that is full, up to the page limit; no page holds more rows than its
`$limit`. -/
inductive PageReached (config : ExecutorConfig) (client : SocrataClient) (bins : List String)
    (pageSize : Nat) : Nat → Nat → Prop where
  | first : PageReached config client bins pageSize 0 0
  | next {pagesFetched offset rows : Nat}
      (h : PageReached config client bins pageSize pagesFetched offset)
      (hrequest : ∃ url, client.buildEcbDataPageUrl bins offset pageSize = .ok url)
      (hfull : pageSize ≤ rows) (hlimit : rows ≤ pageSize)
      (hpages : pagesFetched + 1 < config.socrataMaxPagesPerBatch) :
      PageReached config client bins pageSize (pagesFetched + 1) (offset + rows)

/-- The definition parses, and the client builds every request the loop reaches. -/
def RequestsAccepted (config : ExecutorConfig) (client : SocrataClient)
    (definition : PersistedBatchDefinition) : Prop :=
  ∃ parsed, parseBatchDefinition definition = some parsed ∧
    ∀ pagesFetched offset,
      PageReached config client parsed.bins (parsed.pageSize.getD config.socrataPageSize) pagesFetched
        offset →
      ∃ url, client.buildEcbDataPageUrl parsed.bins offset
        (parsed.pageSize.getD config.socrataPageSize) = .ok url

/-- **Every batch of a watchlist is accepted** by the client of the batch processor. -/
def BatchesAccepted (config : AppConfig) (watchlist : SortedSet CanonicalBin) : Prop :=
  ∃ client, createBoundedSocrataClient = .ok client ∧
    ∀ definition ∈ buildBatchDefinitions watchlist.toList config.ecbBatchSize config.socrataPageSize,
      RequestsAccepted config.executorConfig client definition.persisted

/-! ### Definitions of canonical BINs -/

section Definitions

theorem map_trim_text (bins : List CanonicalBin) :
    (bins.map (·.text)).map trim = bins.map (·.text) := by
  rw [List.map_map]
  exact List.map_congr_left fun bin _ => trim_text bin

theorem text_ne_empty (bin : CanonicalBin) : bin.text ≠ "" := by
  intro h
  have hl := bin.length_eq
  rw [h] at hl
  cases hl

/-- A definition of canonical BINs parses exactly when it is valid, and then as itself. -/
theorem parseBatchDefinition_persisted (definition : IngestionBatchDefinition) :
    parseBatchDefinition definition.persisted =
      if isValidDefinition definition then some definition.persisted else none := by
  have hbins : ∀ bin ∈ definition.bins.map (·.text), bin ≠ "" := by
    intro bin hbin
    obtain ⟨b, -, rfl⟩ := List.mem_map.mp hbin
    exact text_ne_empty b
  rw [parseBatchDefinition, isValidDefinition]
  simp only [IngestionBatchDefinition.persisted, map_trim_text, Option.all_some]
  refine if_congr ?_ rfl rfl
  rw [and_iff_right hbins, Bool.and_assoc]
  cases definition.bins with
  | nil => simp
  | cons bin bins => simp

end Definitions

/-! ### What the client accepts -/

/-- The client of the batch processor. -/
def boundedSocrataClient : SocrataClient := ⟨socrataEcbDataUrl, 1000, 32768⟩

theorem createBoundedSocrataClient_eq : createBoundedSocrataClient = .ok boundedSocrataClient := rfl

section Accepts

variable {bins : List CanonicalBin} {offset pageSize : Nat}

theorem utf16Length_of_digits {s : String} (h : ∀ c ∈ s.toList, c.isDigit = true) :
    utf16Length s = s.toList.length := by
  rw [utf16Length]
  have hone : s.toList.map (fun c => if c.toNat < 0x10000 then 1 else 2) =
      s.toList.map fun _ => 1 := by
    refine List.map_congr_left fun c hc => if_pos ?_
    have hd := h c hc
    simp only [Char.isDigit, Bool.and_eq_true, decide_eq_true_eq] at hd
    exact lt_of_le_of_lt (show c.toNat ≤ 57 from hd.2) (by decide)
  rw [hone]
  simp

theorem normalizeBins_eq_ok {maxBinsPerQuery : Nat} (hne : bins ≠ [])
    (hlen : bins.length ≤ maxBinsPerQuery) :
    normalizeBins (bins.map (·.text)) maxBinsPerQuery =
      .ok (SortedSet.ofList (bins.map (·.text))).toList := by
  have hzero : (bins.map (·.text)).length ≠ 0 := by simpa using hne
  have hmax : ¬ maxBinsPerQuery < (bins.map (·.text)).length := by simpa using hlen
  have hvalid : ((SortedSet.ofList (bins.map (·.text))).toList.any fun bin =>
      isBlank bin || socrataMaxBinValueLength < utf16Length bin) = false := by
    rw [List.any_eq_false]
    intro bin hbin
    obtain ⟨b, -, rfl⟩ := List.mem_map.mp (SortedSet.mem_ofList.mp (SortedSet.mem_def.mpr hbin))
    have hb := isBinText b
    obtain ⟨c, hc⟩ := List.exists_mem_of_length_pos (l := b.text.toList) (by rw [hb.1]; decide)
    rw [not_isBlank_of_mem hc (isWhitespace_of_isDigit (hb.2 c hc)), utf16Length_of_digits hb.2, hb.1]
    decide
  simp only [normalizeBins, hzero, if_false, hmax, hvalid, Bool.false_eq_true]

theorem validatePageValue_offset :
    (validatePageValue offset "offset" true = .ok () ↔ offset ≤ maxSafeInteger) := by
  rw [validatePageValue]
  split
  · rename_i h
    simp [h.1]
  · rename_i h
    simp_all

theorem validatePageValue_pageSize (hpos : 0 < pageSize) (hle : pageSize ≤ 50000) :
    validatePageValue pageSize "page size" false = .ok () := by
  have hsafe : pageSize ≤ maxSafeInteger := le_trans hle (by decide)
  rw [validatePageValue, if_pos ⟨hsafe, Or.inr hpos⟩, if_neg]
  exact fun h => absurd h.2 (Nat.not_lt.mpr hle)

/-- **What the client of the batch processor accepts**, of batches with a valid page size. -/
theorem buildEcbDataPageUrl_ok_iff (hne : bins ≠ []) (hpos : 0 < pageSize) (hle : pageSize ≤ 50000) :
    (∃ url, boundedSocrataClient.buildEcbDataPageUrl (bins.map (·.text)) offset pageSize = .ok url) ↔
      bins.length ≤ 1000 ∧ offset ≤ maxSafeInteger := by
  constructor
  · rintro ⟨url, h⟩
    obtain ⟨_, ho, h⟩ := except_bind_ok.mp h
    obtain ⟨_, -, h⟩ := except_bind_ok.mp h
    obtain ⟨texts, hb, -⟩ := except_bind_ok.mp h
    refine ⟨?_, validatePageValue_offset.mp ho⟩
    rw [normalizeBins] at hb
    split at hb
    · cases hb
    · split at hb
      · cases hb
      · rename_i hlen
        simpa [boundedSocrataClient] using hlen
  · rintro ⟨hlen, hoffset⟩
    have htexts : ∀ text ∈ (SortedSet.ofList (bins.map (·.text))).toList, IsBinText text := by
      intro text htext
      obtain ⟨b, -, rfl⟩ := List.mem_map.mp (SortedSet.mem_ofList.mp (SortedSet.mem_def.mpr htext))
      exact isBinText b
    have hcount : (SortedSet.ofList (bins.map (·.text))).toList.length ≤ 1000 := by
      rw [SortedSet.ofList, List.length_insertionSort]
      exact le_trans (List.dedup_sublist _).length_le (by simpa using hlen)
    have hurl := length_dataPageUrl_le htexts hoffset (show pageSize ≤ socrataMaxPageSize from hle)
    refine ⟨String.ofList (dataPageUrl socrataEcbDataUrl
      (SortedSet.ofList (bins.map (·.text))).toList offset pageSize), ?_⟩
    refine except_bind_ok.mpr ⟨(), validatePageValue_offset.mpr hoffset, ?_⟩
    refine except_bind_ok.mpr ⟨(), validatePageValue_pageSize hpos hle, ?_⟩
    refine except_bind_ok.mpr ⟨_, normalizeBins_eq_ok hne hlen, ?_⟩
    refine if_neg ?_
    simp only [boundedSocrataClient]
    omega

end Accepts

/-! ### What a batch reaches -/

section Reached

variable {config : ExecutorConfig} {client : SocrataClient} {bins : List String} {pageSize : Nat}

theorem PageReached.bounds {pagesFetched offset : Nat}
    (h : PageReached config client bins pageSize pagesFetched offset) :
    offset = pagesFetched * pageSize ∧ pagesFetched < config.socrataMaxPagesPerBatch := by
  induction h with
  | first => exact ⟨(Nat.zero_mul _).symm, config.socrataMaxPagesPerBatch_pos⟩
  | next _ _ hfull hlimit hpages ih =>
      refine ⟨?_, hpages⟩
      rw [ih.1, Nat.succ_mul, Nat.le_antisymm hlimit hfull]

/-- A batch whose pages are all full and all requested reaches its page limit. -/
theorem pageReached_of_accepted
    (h : ∀ pagesFetched offset, PageReached config client bins pageSize pagesFetched offset →
      ∃ url, client.buildEcbDataPageUrl bins offset pageSize = .ok url) :
    ∀ {pagesFetched : Nat}, pagesFetched < config.socrataMaxPagesPerBatch →
      PageReached config client bins pageSize pagesFetched (pagesFetched * pageSize)
  | 0, _ => by
      rw [Nat.zero_mul]
      exact .first
  | pagesFetched + 1, hpages => by
      have hprev := pageReached_of_accepted h (Nat.lt_of_succ_lt hpages)
      rw [Nat.succ_mul]
      exact .next hprev (h _ _ hprev) le_rfl le_rfl hpages

end Reached

/-! ### The requests of the executor -/

section Executor

variable {config : ExecutorConfig} {client : SocrataClient} {service : EcbRowService Row}
  {definition : IngestionBatchDefinition}

/-- A step of an attempt at a batch: the client builds the request of a page, and Socrata answers with
at most its `$limit`. -/
def AttemptAnswer (client : SocrataClient) (s : Db Row × ExecutorState Row) (a : Answer Row) : Prop :=
  match s.2 with
  | .fetchingPage attempt =>
      (∃ url, client.buildEcbDataPageUrl (attempt.definition.bins.map (·.text)) attempt.offset
        attempt.definition.pageSize = .ok url) ∧
      ∀ page, a.page = .ok page → page.length ≤ attempt.definition.pageSize
  | .processingRows _ _ _ => True
  | .stagingRow _ _ _ _ _ => True
  | _ => False

/-- The request of the current page was reached and built, and answered within its limit. -/
def PageAnswered (config : ExecutorConfig) (client : SocrataClient)
    (definition : IngestionBatchDefinition) (attempt : BatchAttempt) (page : List Row) : Prop :=
  attempt.definition = definition ∧ page.length ≤ definition.pageSize ∧
    (∃ url, client.buildEcbDataPageUrl (definition.bins.map (·.text)) attempt.offset
      definition.pageSize = .ok url) ∧
    ∃ pagesFetched, attempt.pagesFetched = pagesFetched + 1 ∧
      PageReached config client (definition.bins.map (·.text)) definition.pageSize pagesFetched
        attempt.offset

/-- What holds at every point of an attempt at a batch. -/
def AttemptReached (config : ExecutorConfig) (client : SocrataClient)
    (definition : IngestionBatchDefinition) : ExecutorState Row → Prop
  | .fetchingPage attempt => attempt.definition = definition ∧
      PageReached config client (definition.bins.map (·.text)) definition.pageSize
        attempt.pagesFetched attempt.offset
  | .processingRows attempt page _ => PageAnswered config client definition attempt page
  | .stagingRow attempt page _ _ _ => PageAnswered config client definition attempt page
  | _ => True

theorem fetchPage_reached {a : Answer Row} {db : Db Row} {attempt : BatchAttempt}
    (h : AttemptReached config client definition (.fetchingPage attempt : ExecutorState Row))
    (ha : AttemptAnswer client (db, .fetchingPage attempt) a) :
    AttemptReached config client definition (fetchPage a db attempt).2 := by
  obtain ⟨rfl, hreached⟩ := h
  obtain ⟨hrequest, hlimit⟩ := ha
  unfold fetchPage
  split
  · split
    · rename_i hpage
      exact ⟨rfl, hlimit _ hpage, hrequest, attempt.pagesFetched, rfl, hreached⟩
    · exact trivial
    · split <;> exact trivial
  · exact trivial

theorem processRows_reached {a : Answer Row} {db : Db Row} {attempt : BatchAttempt}
    {page remaining : List Row} (h : PageAnswered config client definition attempt page) :
    AttemptReached config client definition
      (processRows config service a db attempt page remaining).2 := by
  cases remaining with
  | cons row rest =>
      simp only [processRows]
      split
      · split
        · exact trivial
        · exact trivial
        · exact h
      · exact trivial
  | nil =>
      obtain ⟨rfl, hlimit, hrequest, pagesFetched, hfetched, hreached⟩ := h
      simp only [processRows]
      split
      · exact trivial
      · split
        · exact trivial
        · split
          · exact trivial
          · rename_i hfull hpages
            rw [not_lt] at hfull
            rw [not_le, hfetched] at hpages
            have hnext := PageReached.next hreached hrequest hfull hlimit hpages
            rw [← hfetched] at hnext
            exact ⟨rfl, hnext⟩

theorem stageRow_reached {a : Answer Row} {db : Db Row} {attempt : BatchAttempt} {page : List Row}
    {row : Row} {sourceId : SourceId} {remaining : List Row}
    (h : PageAnswered config client definition attempt page) :
    AttemptReached config client definition
      (stageRow service a db attempt page row sourceId remaining).2 := by
  unfold stageRow
  split
  · exact trivial
  · exact trivial
  · exact h

/-- The next step of an execution, with its answer as the event. -/
def executorNext (config : ExecutorConfig) (service : EcbRowService Row)
    (s : Db Row × ExecutorState Row) (a : Answer Row) : Option (Db Row × ExecutorState Row) :=
  executorStep config service a s.1 s.2

theorem executorNext_reached {s t : Db Row × ExecutorState Row} {a : Answer Row}
    (h : AttemptReached config client definition s.2) (ha : AttemptAnswer client s a)
    (hs : executorNext config service s a = some t) :
    AttemptReached config client definition t.2 := by
  obtain ⟨db, state⟩ := s
  cases state with
  | fetchingPage attempt =>
      cases hs
      exact fetchPage_reached h ha
  | processingRows attempt page remaining =>
      cases hs
      exact processRows_reached h
  | stagingRow attempt page row sourceId remaining =>
      cases hs
      exact stageRow_reached h
  | _ => exact ha.elim

/-- **The executor reaches no other request.**  From the start of an attempt on, the pages requested
are those of `PageReached`. -/
theorem pageReached_of_steps {db db' : Db Row} {runId : RunId} {batchNumber : Nat}
    {attempt : BatchAttempt}
    (h : Steps (executorNext config service) (AttemptAnswer client)
      (db, .fetchingPage ⟨runId, batchNumber, definition, 0, 0, 0⟩) (db', .fetchingPage attempt)) :
    attempt.definition = definition ∧
      PageReached config client (definition.bins.map (·.text)) definition.pageSize
        attempt.pagesFetched attempt.offset := by
  have hstart : AttemptReached config client definition
      (.fetchingPage ⟨runId, batchNumber, definition, 0, 0, 0⟩ : ExecutorState Row) := ⟨rfl, .first⟩
  exact Steps.invariant (I := fun s => AttemptReached config client definition s.2)
    executorNext_reached h hstart

end Executor

section Definition

variable {config : ExecutorConfig} {definition : IngestionBatchDefinition}

/-- **When a definition is accepted**: within the default bound, and with its last page below the
largest safe integer. -/
theorem requestsAccepted_iff (hne : definition.bins ≠ []) (hpos : 0 < definition.pageSize)
    (hle : definition.pageSize ≤ 50000) :
    RequestsAccepted config boundedSocrataClient definition.persisted ↔
      definition.bins.length ≤ 1000 ∧
        (config.socrataMaxPagesPerBatch - 1) * definition.pageSize ≤ maxSafeInteger := by
  have hvalid : isValidDefinition definition = true := by
    simp [isValidDefinition, hne, hpos, hle]
  have hparse := parseBatchDefinition_persisted definition
  rw [if_pos hvalid] at hparse
  constructor
  · rintro ⟨parsed, hparsed, haccepted⟩
    cases Option.some.inj (hparse.symm.trans hparsed)
    have hlast : config.socrataMaxPagesPerBatch - 1 < config.socrataMaxPagesPerBatch :=
      Nat.sub_lt config.socrataMaxPagesPerBatch_pos Nat.one_pos
    exact (buildEcbDataPageUrl_ok_iff hne hpos hle).mp
      (haccepted _ _ (pageReached_of_accepted haccepted hlast))
  · rintro ⟨hlen, hsafe⟩
    refine ⟨_, hparse, fun pagesFetched offset hreached => ?_⟩
    obtain ⟨rfl, hpages⟩ := hreached.bounds
    refine (buildEcbDataPageUrl_ok_iff hne hpos hle).mpr ⟨hlen, le_trans ?_ hsafe⟩
    exact Nat.mul_le_mul_right _ (Nat.le_sub_one_of_lt hpages)

end Definition

/-! ### The batches of a watchlist -/

section Batches

variable {bins : List CanonicalBin} {batchSize pageSize : Nat}

theorem mem_buildBatchDefinitions {definition : IngestionBatchDefinition} (h : 0 < batchSize)
    (hd : definition ∈ buildBatchDefinitions bins batchSize pageSize) :
    definition.bins ≠ [] ∧ definition.bins.length ≤ min batchSize bins.length ∧
      definition.pageSize = pageSize := by
  obtain ⟨slice, hslice, rfl⟩ := List.mem_map.mp hd
  refine ⟨ne_nil_of_mem_chunks h hslice, ?_, rfl⟩
  obtain ⟨i, -, rfl⟩ := List.mem_map.mp hslice
  refine le_min (length_chunk_le bins batchSize i) ?_
  rw [chunk, List.length_take, List.length_drop]
  omega

/-- The first batch is as large as a batch of the watchlist gets. -/
theorem exists_largest_definition (h : 0 < batchSize) (hne : bins ≠ []) :
    ∃ definition ∈ buildBatchDefinitions bins batchSize pageSize,
      definition.bins.length = min batchSize bins.length := by
  have hfirst : 0 < chunkCount bins.length batchSize := by
    rw [lt_chunkCount_iff h, Nat.zero_mul]
    exact List.length_pos_iff.mpr hne
  refine ⟨⟨chunk bins batchSize 0, pageSize⟩, ?_, length_chunk_zero bins batchSize⟩
  exact List.mem_map_of_mem (List.mem_map_of_mem (List.mem_range.mpr hfirst))

end Batches

/-- **When every batch of a watchlist is accepted.**  No batch may have more BINs than the client takes
by default, which `ECB_BATCH_SIZE` does not change, and the offset of the last page a batch may reach
must be a safe integer. -/
theorem batches_accepted_iff (config : AppConfig) (watchlist : SortedSet CanonicalBin) :
    BatchesAccepted config watchlist ↔
      ((config.ecbBatchSize : Nat) ≤ 1000 ∨ watchlist.size ≤ 1000) ∧
        (watchlist.size = 0 ∨
          (config.socrataMaxPagesPerBatch - 1) * (config.socrataPageSize : Nat) ≤ maxSafeInteger) := by
  have hbatch := config.ecbBatchSize.2
  have hpage := config.socrataPageSize.2
  have hdefinition : ∀ definition ∈ buildBatchDefinitions watchlist.toList config.ecbBatchSize
      config.socrataPageSize,
      (RequestsAccepted config.executorConfig boundedSocrataClient definition.persisted ↔
        definition.bins.length ≤ 1000 ∧
          (config.socrataMaxPagesPerBatch - 1) * (config.socrataPageSize : Nat) ≤ maxSafeInteger) := by
    intro definition hd
    obtain ⟨hne, -, hsize⟩ := mem_buildBatchDefinitions hbatch hd
    rw [← hsize] at hpage ⊢
    exact requestsAccepted_iff hne hpage.1 hpage.2
  constructor
  · rintro ⟨client, hclient, haccepted⟩
    cases Except.ok.inj (createBoundedSocrataClient_eq.symm.trans hclient)
    by_cases hempty : watchlist.toList = []
    · have hzero : watchlist.size = 0 := by rw [SortedSet.size, hempty, List.length_nil]
      exact ⟨Or.inr (by omega), Or.inl hzero⟩
    · obtain ⟨definition, hd, hlen⟩ : ∃ definition ∈ buildBatchDefinitions watchlist.toList
          config.ecbBatchSize config.socrataPageSize,
          definition.bins.length = min (config.ecbBatchSize : Nat) watchlist.size :=
        exists_largest_definition hbatch hempty
      obtain ⟨hle, hsafe⟩ := (hdefinition definition hd).mp (haccepted definition hd)
      rw [hlen] at hle
      exact ⟨min_le_iff.mp hle, Or.inr hsafe⟩
  · rintro ⟨hsize, hsafe⟩
    refine ⟨boundedSocrataClient, createBoundedSocrataClient_eq, fun definition hd => ?_⟩
    obtain ⟨hne, hlen, -⟩ := mem_buildBatchDefinitions hbatch hd
    refine (hdefinition definition hd).mpr ⟨le_trans hlen (min_le_iff.mpr hsize), ?_⟩
    rcases hsafe with hzero | hsafe
    · exact absurd (List.length_pos_iff.mpr hne) (by
        rw [SortedSet.size] at hzero
        omega)
    · exact hsafe

/-! ### A batch above the default bound -/

/-- The BIN of a number of at most six digits. -/
def numberedBin (n : Nat) (h : n < 1000000) : CanonicalBin where
  text := String.ofList (Nat.toDigits 10 (1000000 + n))
  length_eq := by
    rw [String.toList_ofList]
    apply Nat.le_antisymm
    · exact (Nat.length_toDigits_le_iff (by decide) (by decide)).mpr (by omega)
    · by_contra hlt
      have hle : (Nat.toDigits 10 (1000000 + n)).length ≤ 6 := by omega
      have := (Nat.length_toDigits_le_iff (by decide) (by decide)).mp hle
      omega
  digits := by
    rw [String.toList_ofList, List.all_eq_true]
    exact fun c hc => Nat.isDigit_of_mem_toDigits (by decide) (by decide) hc

theorem numberedBin_inj {m n : Nat} {hm : m < 1000000} {hn : n < 1000000}
    (h : numberedBin m hm = numberedBin n hn) : m = n := by
  have htext := congrArg (fun bin : CanonicalBin => bin.text.toList) h
  simp only [numberedBin, String.toList_ofList] at htext
  have hvalue := congrArg (fun digits => Nat.ofDigitChars 10 digits 0) htext
  simp only [Nat.ofDigitChars_ten_toDigits] at hvalue
  omega

/-- A watchlist of 1001 BINs. -/
def largeWatchlist : SortedSet CanonicalBin :=
  SortedSet.ofList (List.ofFn fun i : Fin 1001 => numberedBin i.val (by omega))

theorem size_largeWatchlist : largeWatchlist.size = 1001 := by
  rw [largeWatchlist, SortedSet.size_ofList_of_nodup, List.length_ofFn]
  exact List.nodup_ofFn.mpr fun i j h => Fin.ext (numberedBin_inj h)

/-- An environment that sets `ECB_BATCH_SIZE` to 1001. -/
def largeBatchEnv (name : String) : Option String :=
  if name = "DATABASE_URL" then some "postgresql://localhost/ecb"
  else if name = "ECB_BATCH_SIZE" then some "1001"
  else none

/-- `loadConfig` admits a batch size that the client refuses. -/
theorem large_batch_refused :
    ∃ config, loadConfig largeBatchEnv = .ok config ∧ (config.ecbBatchSize : Nat) = 1001 ∧
      ¬ BatchesAccepted config largeWatchlist := by
  have hload : (loadConfig largeBatchEnv).toOption.map (fun config => (config.ecbBatchSize : Nat)) =
      some 1001 := by decide +kernel
  cases hconfig : loadConfig largeBatchEnv with
  | error e =>
      rw [hconfig] at hload
      cases hload
  | ok config =>
      rw [hconfig] at hload
      have hsize : (config.ecbBatchSize : Nat) = 1001 := Option.some.inj hload
      refine ⟨config, rfl, hsize, fun ⟨client, hclient, haccepted⟩ => ?_⟩
      cases Except.ok.inj (createBoundedSocrataClient_eq.symm.trans hclient)
      have hne : largeWatchlist.toList ≠ [] := List.ne_nil_of_length_pos (by
        rw [show largeWatchlist.toList.length = 1001 from size_largeWatchlist]
        decide)
      obtain ⟨definition, hd, hlen⟩ : ∃ definition ∈ buildBatchDefinitions largeWatchlist.toList
          config.ecbBatchSize config.socrataPageSize,
          definition.bins.length = min (config.ecbBatchSize : Nat) largeWatchlist.size :=
        exists_largest_definition config.ecbBatchSize.2 hne
      obtain ⟨hbins, -, hpage⟩ := mem_buildBatchDefinitions config.ecbBatchSize.2 hd
      have hbounds := config.socrataPageSize.2
      rw [← hpage] at hbounds
      have hle := ((requestsAccepted_iff hbins hbounds.1 hbounds.2).mp (haccepted definition hd)).1
      rw [hlen, hsize, size_largeWatchlist] at hle
      exact absurd hle (by decide)

end NycPropertyResolver
