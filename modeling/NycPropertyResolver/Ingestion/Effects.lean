import NycPropertyResolver.Ingestion.Executor

/-!
# Ingestion — what a step can do

The rules of the executor.  `Effect` has one rule for each way a step of the machine can go, with the
guards it has passed and the statement it has executed; `executorStep_effect` reads a step as one of
them.  Every invariant of the executor is a case analysis on `Effect`.
-/

namespace NycPropertyResolver

open Library

variable {Row : Type}

/-- The logical attempt a state is in the middle of. -/
def ExecutorState.attempt? : ExecutorState Row → Option BatchAttempt
  | .fetchingPage attempt | .processingRows attempt _ _ | .stagingRow attempt _ _ _ _ => some attempt
  | .completingBatch attempt | .pageLimitReached attempt | .attemptFailed attempt _ => some attempt
  | _ => none

/-- **The rules of the executor.** -/
inductive Effect (config : ExecutorConfig) (service : EcbRowService Row) (a : Answer Row)
    (db : Db Row) : ExecutorState Row → Db Row → ExecutorState Row → Prop where
  /-- Nothing is written, and the execution ends. -/
  | stop {pc : ExecutorState Row} {outcome : ExecutionOutcome} :
      Effect config service a db pc db (.stopped outcome)
  | noActiveRun {triggerType : IngestionTriggerType} (h : db.findActive = none) :
      Effect config service a db (.started triggerType) db (.creatingRun triggerType)
  | foundQueued {triggerType : IngestionTriggerType} {runId : RunId} {run : IngestionRun}
      (h : db.findActive = some (runId, run)) (hs : run.status = .queued) :
      Effect config service a db (.started triggerType) db (.initializing runId)
  | foundRunning {triggerType : IngestionTriggerType} {runId : RunId} {run : IngestionRun}
      (h : db.findActive = some (runId, run)) (hs : run.status = .running) :
      Effect config service a db (.started triggerType) db (.recoveringFailure runId run)
  | runCreated {triggerType : IngestionTriggerType} {db' : Db Row}
      (h : db.createQueued a.freshId triggerType = .ok db') :
      Effect config service a db (.creatingRun triggerType) db' (.initializing a.freshId)
  | alreadyRunning {runId : RunId} {run : IngestionRun} (h : db.runs.find runId = some run)
      (hs : run.status = .running) (hi : run.initializationComplete = true)
      (hw : run.sourceWatermarkAtStart ≠ none) :
      Effect config service a db (.initializing runId) db (.selectingBatch runId)
  | alreadyInitialized {runId : RunId} {run : IngestionRun} (h : db.runs.find runId = some run)
      (hs : run.status = .queued) (hi : run.initializationComplete = true)
      (hw : run.sourceWatermarkAtStart = none) :
      Effect config service a db (.initializing runId) db (.acquiringStartWatermark runId run)
  | uninitialized {runId : RunId} {run : IngestionRun} (h : db.runs.find runId = some run)
      (hs : run.status = .queued) (hi : run.initializationComplete = false)
      (hw : run.sourceWatermarkAtStart = none) :
      Effect config service a db (.initializing runId) db (.loadingSnapshot runId)
  | binsLoaded {runId : RunId} :
      Effect config service a db (.loadingSnapshot runId) db
        (.snapshotBinsLoaded runId db.selectPropertyBins)
  | versionsLoaded {runId : RunId} {relationships : List (CanonicalBin × PropertyId)}
      {rows : List IngestionRunPropertyBin} (h : db.includeProperties relationships = some rows) :
      Effect config service a db (.snapshotBinsLoaded runId relationships) db
        (.snapshotLoaded runId rows)
  | snapshotStored {runId : RunId} {rows : List IngestionRunPropertyBin} {db' : Db Row}
      {run : IngestionRun}
      (h : db.initializeRunSnapshotAndBatches runId rows config.ecbBatchSize
        config.socrataPageSize = .ok (db', run)) :
      Effect config service a db (.snapshotLoaded runId rows) db'
        (.acquiringStartWatermark runId run)
  | startWatermarkFetched {runId : RunId} {run : IngestionRun} {rowsUpdatedAt : Nat}
      (hi : run.initializationComplete = true)
      (hc : db.assertExpectedInitializationCounts runId run = .ok ())
      (hm : a.metadata = .ok rowsUpdatedAt) :
      Effect config service a db (.acquiringStartWatermark runId run) db
        (.startWatermarkFetched runId rowsUpdatedAt)
  | startWatermarkFailed {runId : RunId} {run : IngestionRun} {message : String}
      (hm : a.metadata = .terminalError message) :
      Effect config service a db (.acquiringStartWatermark runId run) db
        (.publishingTerminalFailure (startWatermarkFailure runId a.now))
  | runStarted {runId : RunId} {rowsUpdatedAt : Nat} {db' : Db Row}
      (h : db.setStartWatermarkAndRunning runId (rowsUpdatedAtToDate rowsUpdatedAt) a.now =
        .ok db') :
      Effect config service a db (.startWatermarkFetched runId rowsUpdatedAt) db'
        (.selectingBatch runId)
  | failureRecovered {runId : RunId} {run : IngestionRun} {b : IngestionBatch}
      (h : (db.batches runId).find? (isExhausted config) = some b) :
      Effect config service a db (.recoveringFailure runId run) db
        (.publishingTerminalFailure (batchFailureRequest runId b.lastError a.now))
  | recoveredReady {runId : RunId} {run : IngestionRun}
      (hn : (db.batches runId).find? (isExhausted config) = none)
      (h : isPersistedRunReadyForPublication db runId run = true) :
      Effect config service a db (.recoveringFailure runId run) db (.readyForPublication runId)
  | recoveredOpen {runId : RunId} {run : IngestionRun}
      (hn : (db.batches runId).find? (isExhausted config) = none)
      (h : isPersistedRunReadyForPublication db runId run = false) :
      Effect config service a db (.recoveringFailure runId run) db (.guardingResume runId run)
  | resumeAccepted {runId : RunId} {run run' : IngestionRun} {startWatermark : Time}
      {rowsUpdatedAt : Nat} (hw : run.sourceWatermarkAtStart = some startWatermark)
      (hm : a.metadata = .ok rowsUpdatedAt)
      (he : rowsUpdatedAtToDate rowsUpdatedAt = startWatermark)
      (hr : db.runs.find runId = some run') :
      Effect config service a db (.guardingResume runId run) db (.selectingBatch runId)
  | resumeRejected {runId : RunId} {run : IngestionRun} {startWatermark : Time}
      {rowsUpdatedAt : Nat} (hw : run.sourceWatermarkAtStart = some startWatermark)
      (hm : a.metadata = .ok rowsUpdatedAt)
      (he : rowsUpdatedAtToDate rowsUpdatedAt ≠ startWatermark) :
      Effect config service a db (.guardingResume runId run) db
        (.publishingTerminalFailure (sourceChangedRequest runId a.now))
  | batchesDone {runId : RunId}
      (h : ((db.batches runId).find? fun b => b.status ≠ .completed) = none) :
      Effect config service a db (.selectingBatch runId) db (.finalizing runId)
  | batchExhausted {runId : RunId} {b : IngestionBatch}
      (h : ((db.batches runId).find? fun b => b.status ≠ .completed) = some b)
      (he : isExhausted config b = true) :
      Effect config service a db (.selectingBatch runId) db
        (.publishingTerminalFailure (batchFailureRequest runId b.lastError a.now))
  | batchSelected {runId : RunId} {b : IngestionBatch}
      (h : ((db.batches runId).find? fun b => b.status ≠ .completed) = some b)
      (he : isExhausted config b = false) :
      Effect config service a db (.selectingBatch runId) db (.executingBatch runId b.batchNumber)
  | batchAlreadyCompleted {runId : RunId} {batchNumber : Nat} {b : IngestionBatch}
      (h : db.findBatch runId batchNumber = some b) (hs : b.status = .completed) :
      Effect config service a db (.executingBatch runId batchNumber) db (.selectingBatch runId)
  | budgetExhausted {runId : RunId} {batchNumber : Nat} {b : IngestionBatch} {db' : Db Row}
      {lastError : String} (h : db.findBatch runId batchNumber = some b)
      (hs : b.status ≠ .completed) (hm : config.maxBatchAttemptsPerRun ≤ b.attemptCount)
      (hf : db.markFailed runId batchNumber lastError = .ok db') :
      Effect config service a db (.executingBatch runId batchNumber) db'
        (.terminalOutcome runId (some lastError))
  | attemptCounted {runId : RunId} {batchNumber : Nat} {b : IngestionBatch}
      (h : db.findBatch runId batchNumber = some b) (hs : b.status ≠ .completed)
      (hm : b.attemptCount < config.maxBatchAttemptsPerRun) :
      Effect config service a db (.executingBatch runId batchNumber)
        (db.incrementAttemptCount runId batchNumber) (.attemptCounted runId batchNumber)
  | attemptStarted {runId : RunId} {batchNumber : Nat} {b : IngestionBatch}
      (h : db.findBatch runId batchNumber = some b)
      (hv : isValidDefinition b.batchDefinition = true) :
      Effect config service a db (.attemptCounted runId batchNumber)
        (db.startBatch runId batchNumber)
        (.fetchingPage ⟨runId, batchNumber, b.batchDefinition, 0, 0, 0⟩)
  | attemptInvalid {runId : RunId} {batchNumber : Nat} {outcome : ExecutionOutcome} :
      Effect config service a db (.attemptCounted runId batchNumber)
        (db.startBatch runId batchNumber) (.stopped outcome)
  | pageFetched {attempt : BatchAttempt} {page : List Row} (h : a.page = .ok page) :
      Effect config service a db (.fetchingPage attempt) db
        (.processingRows { attempt with pagesFetched := attempt.pagesFetched + 1 } page page)
  | pageFailed {attempt : BatchAttempt} {message : String} {db' : Db Row}
      (h : a.page = .error message)
      (hf : db.markFailed attempt.runId attempt.batchNumber
        ("BATCH_PAGE_FETCH_FAILED: " ++ message) = .ok db') :
      Effect config service a db (.fetchingPage attempt) db' (.selectingBatch attempt.runId)
  | attemptThrew {pc : ExecutorState Row} {attempt : BatchAttempt} {message : String}
      (h : pc.attempt? = some attempt) :
      Effect config service a db pc db (.attemptFailed attempt message)
  | rawPersisted {attempt : BatchAttempt} {page rest : List Row} {row : Row}
      {identity : EcbSourceIdentity} (h : service.extractEcbSourceIdentity row = .ok identity) :
      Effect config service a db (.processingRows attempt page (row :: rest))
        (db.persistRaw attempt.runId identity row a.now)
        (.stagingRow attempt page row identity.sourceId rest)
  | rowStaged {attempt : BatchAttempt} {page rest : List Row} {row : Row} {sourceId : SourceId}
      {normalized : NormalizedEcbViolation} (h : service.normalizeEcbViolation row = some normalized) :
      Effect config service a db (.stagingRow attempt page row sourceId rest)
        (db.upsertStaging attempt.runId normalized) (.processingRows attempt page rest)
  | lastPage {attempt : BatchAttempt} {page : List Row}
      (h : page.length < attempt.definition.pageSize) :
      Effect config service a db (.processingRows attempt page [])
        (db.updateProgress attempt.runId attempt.batchNumber attempt.pagesFetched
          (attempt.rowsFetched + page.length))
        (.completingBatch { attempt with rowsFetched := attempt.rowsFetched + page.length })
  | pageLimit {attempt : BatchAttempt} {page : List Row}
      (h : ¬ page.length < attempt.definition.pageSize)
      (hm : config.socrataMaxPagesPerBatch ≤ attempt.pagesFetched) :
      Effect config service a db (.processingRows attempt page [])
        (db.updateProgress attempt.runId attempt.batchNumber attempt.pagesFetched
          (attempt.rowsFetched + page.length))
        (.pageLimitReached { attempt with rowsFetched := attempt.rowsFetched + page.length })
  | nextPage {attempt : BatchAttempt} {page : List Row}
      (h : ¬ page.length < attempt.definition.pageSize)
      (hm : attempt.pagesFetched < config.socrataMaxPagesPerBatch) :
      Effect config service a db (.processingRows attempt page [])
        (db.updateProgress attempt.runId attempt.batchNumber attempt.pagesFetched
          (attempt.rowsFetched + page.length))
        (.fetchingPage { attempt with
          rowsFetched := attempt.rowsFetched + page.length
          offset := attempt.offset + page.length })
  | batchCompleted {attempt : BatchAttempt} :
      Effect config service a db (.completingBatch attempt)
        (db.markCompleted attempt.runId attempt.batchNumber attempt.pagesFetched attempt.rowsFetched
          a.now)
        (.selectingBatch attempt.runId)
  | pageLimitFailed {attempt : BatchAttempt} {db' : Db Row}
      (h : db.markFailed attempt.runId attempt.batchNumber "FAILED_PAGE_LIMIT" = .ok db') :
      Effect config service a db (.pageLimitReached attempt) db'
        (.terminalOutcome attempt.runId (some "FAILED_PAGE_LIMIT"))
  | attemptClosed {attempt : BatchAttempt} {message : String} {db' : Db Row}
      (h : db.markFailed attempt.runId attempt.batchNumber
        ("BATCH_ROW_PROCESSING_FAILED: " ++ message) = .ok db') :
      Effect config service a db (.attemptFailed attempt message) db'
        (.selectingBatch attempt.runId)
  | outcomeHandedOver {runId : RunId} {lastError : Option String} :
      Effect config service a db (.terminalOutcome runId lastError) db
        (.publishingTerminalFailure (batchFailureRequest runId lastError a.now))
  | terminalPublished {request : IngestionTerminalPublicationRequest} {db' : Db Row}
      {outcome : ExecutionOutcome}
      (h : db.publishTerminalFailure a.publication request = (db', .ok ())) :
      Effect config service a db (.publishingTerminalFailure request) db' (.stopped outcome)
  | endWatermarkFetched {runId : RunId} {run : IngestionRun} {startWatermark : Time}
      {rowsUpdatedAt : Nat} (hr : db.runs.find runId = some run)
      (hw : run.sourceWatermarkAtStart = some startWatermark)
      (hm : a.metadata = .ok rowsUpdatedAt) :
      Effect config service a db (.finalizing runId) db
        (.endWatermarkFetched runId startWatermark (rowsUpdatedAtToDate rowsUpdatedAt))
  | endAccepted {runId : RunId} {startWatermark endWatermark : Time}
      (he : endWatermark = startWatermark) :
      Effect config service a db (.endWatermarkFetched runId startWatermark endWatermark)
        (db.updateSourceWatermarkAtEnd runId endWatermark) (.readyForPublication runId)
  | endRejected {runId : RunId} {startWatermark endWatermark : Time} {pc' : ExecutorState Row}
      (he : endWatermark ≠ startWatermark)
      (hp : pc' = .publishingTerminalFailure (sourceChangedRequest runId a.now) ∨
        ∃ outcome, pc' = .stopped outcome) :
      Effect config service a db (.endWatermarkFetched runId startWatermark endWatermark)
        (db.updateSourceWatermarkAtEnd runId endWatermark) pc'
  | acceptedPublished {runId : RunId} {db' : Db Row} {outcome : AcceptedPublicationOutcome}
      (h : db.publish a.publication runId = (db', .ok outcome)) :
      Effect config service a db (.readyForPublication runId) db' (.stopped .completed)

section Inversion

variable {config : ExecutorConfig} {service : EcbRowService Row} {a : Answer Row} {db db' : Db Row}
  {pc pc' : ExecutorState Row}

theorem stoppedBy_eq (Row : Type) (e : ServiceError) :
    ∃ outcome, (stoppedBy e : ExecutorState Row) = .stopped outcome := by
  cases e with
  | authorityLost _ => exact ⟨_, rfl⟩
  | error _ => exact ⟨_, rfl⟩

theorem Effect.stoppedBy {e : ServiceError} :
    Effect config service a db pc db (NycPropertyResolver.stoppedBy e) := by
  obtain ⟨outcome, h⟩ := stoppedBy_eq Row e
  rw [h]
  exact .stop

theorem executeWithAuthority_effect {triggerType : IngestionTriggerType}
    (h : executeWithAuthority a db triggerType = (db', pc')) :
    Effect config service a db (.started triggerType) db' pc' := by
  unfold executeWithAuthority at h
  split at h
  · split at h
    · cases h; exact .noActiveRun ‹_›
    · split at h
      · cases h; exact .foundQueued ‹_› ‹_›
      · cases h; exact .foundRunning ‹_› ‹_›
      · cases h; exact .stop
  · cases h; exact .stop

theorem createQueuedRun_effect {triggerType : IngestionTriggerType}
    (h : createQueuedRun a db triggerType = (db', pc')) :
    Effect config service a db (.creatingRun triggerType) db' pc' := by
  unfold createQueuedRun at h
  split at h
  · split at h
    · cases h; exact .runCreated ‹_›
    · cases h; exact .stoppedBy
  · cases h; exact .stop

theorem initializeAndStartRun_effect {runId : RunId}
    (h : initializeAndStartRun a db runId = (db', pc')) :
    Effect config service a db (.initializing runId) db' pc' := by
  unfold initializeAndStartRun at h
  split at h
  · split at h
    · cases h; exact .stop
    · split at h
      · split at h
        · rename_i hw
          cases h; exact .alreadyRunning ‹_› ‹_› hw.1 hw.2
        · cases h; exact .stop
      · split at h
        · cases h; exact .stop
        · rename_i hw
          rw [not_not] at hw
          split at h
          · cases h; exact .alreadyInitialized ‹_› ‹_› ‹_› hw
          · rename_i hi
            rw [Bool.not_eq_true] at hi
            split at h
            · cases h; exact .uninitialized ‹_› ‹_› hi hw
            · cases h; exact .stop
      · cases h; exact .stop
  · cases h; exact .stop

theorem loadSnapshotVersions_effect {runId : RunId}
    {relationships : List (CanonicalBin × PropertyId)}
    (h : loadSnapshotVersions db runId relationships = (db', pc')) :
    Effect config service a db (.snapshotBinsLoaded runId relationships) db' pc' := by
  unfold loadSnapshotVersions at h
  split at h
  · cases h; exact .versionsLoaded ‹_›
  · cases h; exact .stop

theorem storeSnapshot_effect {runId : RunId} {rows : List IngestionRunPropertyBin}
    (h : storeSnapshot config a db runId rows = (db', pc')) :
    Effect config service a db (.snapshotLoaded runId rows) db' pc' := by
  unfold storeSnapshot at h
  split at h
  · cases h; exact .stop
  · split at h
    · cases h; exact .snapshotStored ‹_›
    · cases h; exact .stoppedBy

theorem acquireStartWatermark_effect {runId : RunId} {run : IngestionRun}
    (h : acquireStartWatermark a db runId run = (db', pc')) :
    Effect config service a db (.acquiringStartWatermark runId run) db' pc' := by
  unfold acquireStartWatermark at h
  split at h
  · split at h
    · split at h
      · cases h; exact .stoppedBy
      · split at h
        · cases h; exact .startWatermarkFetched ‹_› ‹_› ‹_›
        · cases h; exact .stop
        · split at h
          · cases h; exact .startWatermarkFailed ‹_›
          · cases h; exact .stop
    · cases h; exact .stop
  · cases h; exact .stop

theorem persistStartWatermark_effect {runId : RunId} {rowsUpdatedAt : Nat}
    (h : persistStartWatermark a db runId rowsUpdatedAt = (db', pc')) :
    Effect config service a db (.startWatermarkFetched runId rowsUpdatedAt) db' pc' := by
  unfold persistStartWatermark at h
  split at h
  · split at h
    · cases h; exact .stop
    · split at h
      · cases h; exact .runStarted ‹_›
      · cases h; exact .stoppedBy
  · cases h; exact .stop

theorem recoverPersistedFailure_effect {runId : RunId} {run : IngestionRun}
    (h : recoverPersistedFailure config a db runId run = (db', pc')) :
    Effect config service a db (.recoveringFailure runId run) db' pc' := by
  unfold recoverPersistedFailure at h
  split at h
  · split at h
    · split at h
      · cases h; exact .failureRecovered ‹_›
      · cases h; exact .stop
    · split at h
      · cases h; exact .recoveredReady ‹_› ‹_›
      · rename_i hr
        cases h; exact .recoveredOpen ‹_› (Bool.not_eq_true _ ▸ hr)
  · cases h; exact .stop

theorem rejectResume_effect {runId : RunId} {run : IngestionRun}
    (h : rejectResumeOnWatermarkMismatch a db runId run = (db', pc')) :
    Effect config service a db (.guardingResume runId run) db' pc' := by
  unfold rejectResumeOnWatermarkMismatch at h
  split at h
  · split at h
    · cases h; exact .stop
    · cases h; exact .stop
    · cases h; exact .stop
    · split at h
      · split at h
        · split at h
          · cases h; exact .stop
          · cases h; exact .resumeAccepted ‹_› ‹_› ‹_› ‹_›
        · split at h
          · cases h; exact .resumeRejected ‹_› ‹_› ‹_›
          · cases h; exact .stop
      · cases h; exact .stop
  · cases h; exact .stop

theorem selectBatch_effect {runId : RunId} (h : selectBatch config a db runId = (db', pc')) :
    Effect config service a db (.selectingBatch runId) db' pc' := by
  unfold selectBatch at h
  split at h
  · split at h
    · cases h; exact .batchesDone ‹_›
    · split at h
      · split at h
        · cases h; exact .batchExhausted ‹_› ‹_›
        · cases h; exact .stop
      · rename_i he
        cases h; exact .batchSelected ‹_› (Bool.not_eq_true _ ▸ he)
  · cases h; exact .stop

theorem executeBatchAttempt_effect {runId : RunId} {batchNumber : Nat}
    (h : executeBatchAttempt config a db runId batchNumber = (db', pc')) :
    Effect config service a db (.executingBatch runId batchNumber) db' pc' := by
  unfold executeBatchAttempt at h
  split at h
  · split at h
    · cases h; exact .stop
    · split at h
      · cases h; exact .batchAlreadyCompleted ‹_› ‹_›
      · split at h
        · cases h; exact .stop
        · split at h
          · simp only at h
            split at h
            · cases h; exact .budgetExhausted ‹_› ‹_› ‹_› ‹_›
            · cases h; exact .stoppedBy
          · cases h; exact .attemptCounted ‹_› ‹_› (Nat.lt_of_not_le ‹_›)
  · cases h; exact .stop

theorem startAttempt_effect {runId : RunId} {batchNumber : Nat}
    (h : startAttempt a db runId batchNumber = (db', pc')) :
    Effect config service a db (.attemptCounted runId batchNumber) db' pc' := by
  unfold startAttempt at h
  split at h
  · cases h; exact .stop
  · cases h; exact .stop
  · split at h
    · cases h; exact .attemptStarted ‹_› ‹_›
    · cases h; exact .attemptInvalid

theorem fetchPage_effect {attempt : BatchAttempt} (h : fetchPage a db attempt = (db', pc')) :
    Effect config service a db (.fetchingPage attempt) db' pc' := by
  unfold fetchPage at h
  split at h
  · split at h
    · cases h; exact .pageFetched ‹_›
    · cases h; exact .attemptThrew rfl
    · split at h
      · cases h; exact .pageFailed ‹_› ‹_›
      · cases h; exact .attemptThrew rfl
  · cases h; exact .stop

theorem processRows_effect {attempt : BatchAttempt} {page remaining : List Row}
    (h : processRows config service a db attempt page remaining = (db', pc')) :
    Effect config service a db (.processingRows attempt page remaining) db' pc' := by
  unfold processRows at h
  split at h
  · split at h
    · split at h
      · cases h; exact .attemptThrew rfl
      · cases h; exact .attemptThrew rfl
      · cases h; exact .rawPersisted ‹_›
    · cases h; exact .stop
  · split at h
    · cases h; exact .attemptThrew rfl
    · simp only at h
      split at h
      · cases h; exact .lastPage ‹_›
      · split at h
        · cases h; exact .pageLimit ‹_› ‹_›
        · cases h; exact .nextPage ‹_› (Nat.lt_of_not_le ‹_›)

theorem stageRow_effect {attempt : BatchAttempt} {page remaining : List Row} {row : Row}
    {sourceId : SourceId}
    (h : stageRow service a db attempt page row sourceId remaining = (db', pc')) :
    Effect config service a db (.stagingRow attempt page row sourceId remaining) db' pc' := by
  unfold stageRow at h
  split at h
  · cases h; exact .attemptThrew rfl
  · cases h; exact .attemptThrew rfl
  · cases h; exact .rowStaged ‹_›

theorem completeBatch_effect {attempt : BatchAttempt} (h : completeBatch a db attempt = (db', pc')) :
    Effect config service a db (.completingBatch attempt) db' pc' := by
  unfold completeBatch at h
  split at h
  · split at h
    · cases h; exact .attemptThrew rfl
    · cases h; exact .batchCompleted
  · cases h; exact .stop

theorem failPageLimit_effect {attempt : BatchAttempt} (h : failPageLimit a db attempt = (db', pc')) :
    Effect config service a db (.pageLimitReached attempt) db' pc' := by
  unfold failPageLimit at h
  split at h
  · cases h; exact .attemptThrew rfl
  · split at h
    · cases h; exact .pageLimitFailed ‹_›
    · cases h; exact .attemptThrew rfl

theorem failAttempt_effect {attempt : BatchAttempt} {message : String}
    (h : failAttempt a db attempt message = (db', pc')) :
    Effect config service a db (.attemptFailed attempt message) db' pc' := by
  unfold failAttempt at h
  split at h
  · split at h
    · cases h; exact .stop
    · split at h
      · cases h; exact .attemptClosed ‹_›
      · cases h; exact .stoppedBy
  · cases h; exact .stop

theorem publishTerminalOutcome_effect {runId : RunId} {lastError : Option String}
    (h : publishTerminalOutcome a db runId lastError = (db', pc')) :
    Effect config service a db (.terminalOutcome runId lastError) db' pc' := by
  unfold publishTerminalOutcome at h
  split at h
  · cases h; exact .outcomeHandedOver
  · cases h; exact .stop

theorem publishTerminal_effect {request : IngestionTerminalPublicationRequest}
    (h : publishTerminal a db request = (db', pc')) :
    Effect config service a db (.publishingTerminalFailure request) db' pc' := by
  unfold publishTerminal at h
  split at h
  · split at h
    · cases h; exact .terminalPublished ‹_›
    · cases h; exact .terminalPublished ‹_›
  · rename_i hp
    cases h
    rw [Db.publishTerminalFailure_error hp]
    exact .stoppedBy

theorem finalizePublicationHandoff_effect {runId : RunId}
    (h : finalizePublicationHandoff a db runId = (db', pc')) :
    Effect config service a db (.finalizing runId) db' pc' := by
  unfold finalizePublicationHandoff at h
  split at h
  · split at h
    · cases h; exact .stop
    · cases h; exact .stop
    · cases h; exact .stop
    · cases h; exact .stop
    · split at h
      · rename_i hr hm _
        obtain ⟨run, hr, hw⟩ := Option.map_eq_some_iff.mp hr
        cases h; exact .endWatermarkFetched hr hw hm
      · cases h; exact .stop
  · cases h; exact .stop

theorem persistEndWatermark_effect {runId : RunId} {startWatermark endWatermark : Time}
    (h : persistEndWatermark a db runId startWatermark endWatermark = (db', pc')) :
    Effect config service a db (.endWatermarkFetched runId startWatermark endWatermark) db' pc' := by
  unfold persistEndWatermark at h
  split at h
  · cases h; exact .stop
  · simp only at h
    split at h
    · cases h; exact .endAccepted ‹_›
    · split at h
      · cases h; exact .endRejected ‹_› (Or.inl rfl)
      · cases h; exact .endRejected ‹_› (Or.inr ⟨_, rfl⟩)

theorem publishAccepted_effect {runId : RunId} (h : publishAccepted a db runId = (db', pc')) :
    Effect config service a db (.readyForPublication runId) db' pc' := by
  unfold publishAccepted at h
  split at h
  · split at h
    · cases h; exact .acceptedPublished ‹_›
    · rename_i hp
      cases h
      rw [Db.publish_error hp]
      exact .stoppedBy
  · cases h; exact .stop

/-- **A step of the executor follows one of its rules.** -/
theorem executorStep_effect (h : executorStep config service a db pc = some (db', pc')) :
    Effect config service a db pc db' pc' := by
  cases pc with
  | stopped _ => cases h
  | started _ => exact executeWithAuthority_effect (Option.some.inj h)
  | creatingRun _ => exact createQueuedRun_effect (Option.some.inj h)
  | initializing _ => exact initializeAndStartRun_effect (Option.some.inj h)
  | loadingSnapshot _ => cases h; exact .binsLoaded
  | snapshotBinsLoaded _ _ => exact loadSnapshotVersions_effect (Option.some.inj h)
  | snapshotLoaded _ _ => exact storeSnapshot_effect (Option.some.inj h)
  | acquiringStartWatermark _ _ => exact acquireStartWatermark_effect (Option.some.inj h)
  | startWatermarkFetched _ _ => exact persistStartWatermark_effect (Option.some.inj h)
  | recoveringFailure _ _ => exact recoverPersistedFailure_effect (Option.some.inj h)
  | guardingResume _ _ => exact rejectResume_effect (Option.some.inj h)
  | selectingBatch _ => exact selectBatch_effect (Option.some.inj h)
  | executingBatch _ _ => exact executeBatchAttempt_effect (Option.some.inj h)
  | attemptCounted _ _ => exact startAttempt_effect (Option.some.inj h)
  | fetchingPage _ => exact fetchPage_effect (Option.some.inj h)
  | processingRows _ _ _ => exact processRows_effect (Option.some.inj h)
  | stagingRow _ _ _ _ _ => exact stageRow_effect (Option.some.inj h)
  | completingBatch _ => exact completeBatch_effect (Option.some.inj h)
  | pageLimitReached _ => exact failPageLimit_effect (Option.some.inj h)
  | attemptFailed _ _ => exact failAttempt_effect (Option.some.inj h)
  | terminalOutcome _ _ => exact publishTerminalOutcome_effect (Option.some.inj h)
  | publishingTerminalFailure _ => exact publishTerminal_effect (Option.some.inj h)
  | finalizing _ => exact finalizePublicationHandoff_effect (Option.some.inj h)
  | endWatermarkFetched _ _ _ => exact persistEndWatermark_effect (Option.some.inj h)
  | readyForPublication _ => exact publishAccepted_effect (Option.some.inj h)

end Inversion

end NycPropertyResolver
