import NycPropertyResolver.Ingestion.RawStaging
import NycPropertyResolver.Ingestion.TerminalPublication

/-!
# Ingestion — the executor

`ingestion.service.ts`, `ingestion-runner.service.ts` and `batch-processor.service.ts`, as a machine
that takes one statement or one request at a time.  A state of the machine is the point the program
has reached, with the values it holds in memory there; a step is what it does up to its next
statement or request.  What the step meets outside the process is its `Answer`: the clock, the
results of its authority checks, the response of Socrata, a statement the database fails.  An
execution that throws, loses its lock session or is killed stops, and leaves the database as its last
statement left it.
-/

namespace NycPropertyResolver

open Library

variable {Row : Type}

/-! ### Configuration -/

/-- The limits of `AppConfig` the executor runs under, each as `loadConfig` admits it. -/
structure ExecutorConfig where
  ecbBatchSize : Nat
  socrataPageSize : Nat
  socrataMaxPagesPerBatch : Nat
  maxBatchAttemptsPerRun : Nat
  ecbBatchSize_pos : 0 < ecbBatchSize
  socrataPageSize_pos : 0 < socrataPageSize
  socrataPageSize_le : socrataPageSize ≤ 50000
  socrataMaxPagesPerBatch_pos : 0 < socrataMaxPagesPerBatch
  maxBatchAttemptsPerRun_pos : 0 < maxBatchAttemptsPerRun

/-! ### States -/

/-- How an execution ended. -/
inductive ExecutionOutcome where
  | notStarted
  | completed
  | terminalFailurePublished
  | sourceChangedPublished
  | executionAuthorityLost
  | threw (message : String)
  | crashed
  deriving DecidableEq, Repr

/-- The logical attempt at a batch, with its counters. -/
structure BatchAttempt where
  runId : RunId
  batchNumber : Nat
  definition : IngestionBatchDefinition
  pagesFetched : Nat
  rowsFetched : Nat
  offset : Nat

/-- The point an execution has reached. -/
inductive ExecutorState (Row : Type) where
  | stopped (outcome : ExecutionOutcome)
  | started (triggerType : IngestionTriggerType)
  | creatingRun (triggerType : IngestionTriggerType)
  | initializing (runId : RunId)
  | loadingSnapshot (runId : RunId)
  | snapshotBinsLoaded (runId : RunId) (relationships : List (CanonicalBin × PropertyId))
  | snapshotLoaded (runId : RunId) (snapshotRows : List IngestionRunPropertyBin)
  | acquiringStartWatermark (runId : RunId) (run : IngestionRun)
  | startWatermarkFetched (runId : RunId) (rowsUpdatedAt : Nat)
  | recoveringFailure (runId : RunId) (run : IngestionRun)
  | guardingResume (runId : RunId) (run : IngestionRun)
  | selectingBatch (runId : RunId)
  | executingBatch (runId : RunId) (batchNumber : Nat)
  | attemptCounted (runId : RunId) (batchNumber : Nat)
  | fetchingPage (attempt : BatchAttempt)
  | processingRows (attempt : BatchAttempt) (page remaining : List Row)
  | stagingRow (attempt : BatchAttempt) (page : List Row) (row : Row) (sourceId : SourceId)
      (remaining : List Row)
  | completingBatch (attempt : BatchAttempt)
  | pageLimitReached (attempt : BatchAttempt)
  | attemptFailed (attempt : BatchAttempt) (message : String)
  | terminalOutcome (runId : RunId) (lastError : Option String)
  | publishingTerminalFailure (request : IngestionTerminalPublicationRequest)
  | finalizing (runId : RunId)
  | endWatermarkFetched (runId : RunId) (startWatermark endWatermark : Time)
  | readyForPublication (runId : RunId)

/-! ### Answers -/

/-- The result of a metadata request: `rowsUpdatedAt`, a `SocrataClientError` that is not retryable,
or any other error. -/
inductive MetadataAnswer where
  | ok (rowsUpdatedAt : Nat)
  | terminalError (message : String)
  | error (message : String)
  deriving DecidableEq, Repr

/-- What a step meets outside the process.  `authorized i` is what its `i`th authority check
observes; `freshId` is the id generated for a new run. -/
structure Answer (Row : Type) where
  now : Time
  authorized : Nat → Bool
  freshId : RunId
  metadata : MetadataAnswer
  page : Except String (List Row)
  statementError : Option String
  publication : PublicationAnswer

/-! ### Requests for a terminal publication -/

/-- `publishTerminalFailure` of the start watermark. -/
def startWatermarkFailure (runId : RunId) (now : Time) : IngestionTerminalPublicationRequest where
  runId := runId
  status := .failed
  failureStage := "initialization"
  lastError := "START_WATERMARK_FETCH_FAILED"
  finishedAt := now

/-- `publishSourceChanged`. -/
def sourceChangedRequest (runId : RunId) (now : Time) : IngestionTerminalPublicationRequest where
  runId := runId
  status := .sourceChanged
  failureStage := "watermark_guard"
  lastError := "SOURCE_CHANGED"
  finishedAt := now

/-- `publishTerminalBatchFailure`. -/
def batchFailureRequest (runId : RunId) (lastError : Option String) (now : Time) :
    IngestionTerminalPublicationRequest where
  runId := runId
  status := .failed
  failureStage := "batch_processing"
  lastError := lastError.getD "BATCH_TERMINAL_FAILURE"
  finishedAt := now

/-! ### Conditions -/

/-- `status === FAILED && attemptCount >= maxBatchAttemptsPerRun`. -/
def isExhausted (config : ExecutorConfig) (b : IngestionBatch) : Bool :=
  b.status = .failed && config.maxBatchAttemptsPerRun ≤ b.attemptCount

/-- `batchDefinitionSchema`, on a definition of canonical BINs. -/
def isValidDefinition (definition : IngestionBatchDefinition) : Bool :=
  !definition.bins.isEmpty && 0 < definition.pageSize && definition.pageSize ≤ 50000

/-- `isPersistedRunReadyForPublication`. -/
def isPersistedRunReadyForPublication (db : Db Row) (runId : RunId) (run : IngestionRun) : Bool :=
  run.initializationComplete && run.sourceWatermarkAtStart.isSome &&
    run.sourceWatermarkAtStart = run.sourceWatermarkAtEnd &&
    run.expectedBatchCount = some (db.batches runId).length &&
    (db.batches runId).all fun b =>
      b.status = .completed && b.completedAt.isSome && b.lastError.isNone

/-- The end of an execution that caught a service's error. -/
def stoppedBy (e : ServiceError) : ExecutorState Row :=
  match e with
  | .authorityLost _ => .stopped .executionAuthorityLost
  | .error message => .stopped (.threw message)

/-! ### Starting a run -/

section Steps

variable (config : ExecutorConfig) (service : EcbRowService Row) (a : Answer Row) (db : Db Row)

/-- `executeWithAuthority`: the active run, if there is one. -/
def executeWithAuthority (triggerType : IngestionTriggerType) : Db Row × ExecutorState Row :=
  if a.authorized 0 then
    match db.findActive with
    | none => (db, .creatingRun triggerType)
    | some (runId, run) =>
      match run.status with
      | .queued => (db, .initializing runId)
      | .running => (db, .recoveringFailure runId run)
      | _ =>
        (db, .stopped (.threw s!"unexpected active ingestion run status {run.status.text}"))
  else
    (db, .stopped .executionAuthorityLost)

/-- `createQueuedRun`. -/
def createQueuedRun (triggerType : IngestionTriggerType) : Db Row × ExecutorState Row :=
  if a.authorized 0 then
    match db.createQueued a.freshId triggerType with
    | .ok db' => (db', .initializing a.freshId)
    | .error e => (db, stoppedBy e)
  else
    (db, .stopped .executionAuthorityLost)

/-- `initializeAndStartRun`, up to its first read of the watchlist. -/
def initializeAndStartRun (runId : RunId) : Db Row × ExecutorState Row :=
  if a.authorized 0 then
    match db.runs.find runId with
    | none => (db, .stopped (.threw s!"run {runId} does not exist"))
    | some run =>
      match run.status with
      | .running =>
        if run.initializationComplete = true ∧ run.sourceWatermarkAtStart ≠ none then
          (db, .selectingBatch runId)
        else
          (db, .stopped (.threw
            s!"run {runId} is RUNNING without a valid initialized start watermark"))
      | .queued =>
        if run.sourceWatermarkAtStart ≠ none then
          (db, .stopped (.threw
            s!"run {runId} already has a persisted start watermark while QUEUED"))
        else if run.initializationComplete then
          (db, .acquiringStartWatermark runId run)
        else if a.authorized 1 then
          (db, .loadingSnapshot runId)
        else
          (db, .stopped .executionAuthorityLost)
      | _ =>
        (db, .stopped (.threw
          s!"run {runId} is not eligible for initialization (status={run.status.text})"))
  else
    (db, .stopped .executionAuthorityLost)

/-- `loadLivePropertyBinSnapshotRows`, its second statement. -/
def loadSnapshotVersions (runId : RunId) (relationships : List (CanonicalBin × PropertyId)) :
    Db Row × ExecutorState Row :=
  match db.includeProperties relationships with
  | some rows => (db, .snapshotLoaded runId rows)
  | none => (db, .stopped (.threw "Inconsistent query result: Field property is required"))

/-- `initializeRunSnapshotAndBatches`, its transaction. -/
def storeSnapshot (runId : RunId) (snapshotRows : List IngestionRunPropertyBin) :
    Db Row × ExecutorState Row :=
  match a.statementError with
  | some message => (db, .stopped (.threw message))
  | none =>
    match db.initializeRunSnapshotAndBatches runId snapshotRows config.ecbBatchSize
      config.socrataPageSize with
    | .ok (db', run) => (db', .acquiringStartWatermark runId run)
    | .error e => (db, stoppedBy e)

/-- `acquireStartWatermarkAndStart`, up to the answer of the metadata request. -/
def acquireStartWatermark (runId : RunId) (run : IngestionRun) : Db Row × ExecutorState Row :=
  if a.authorized 0 then
    if run.initializationComplete then
      match db.assertExpectedInitializationCounts runId run with
      | .error e => (db, stoppedBy e)
      | .ok () =>
        match a.metadata with
        | .ok rowsUpdatedAt => (db, .startWatermarkFetched runId rowsUpdatedAt)
        | .error message => (db, .stopped (.threw message))
        | .terminalError _ =>
          if a.authorized 1 then
            (db, .publishingTerminalFailure (startWatermarkFailure runId a.now))
          else
            (db, .stopped .executionAuthorityLost)
    else
      (db, .stopped (.threw s!"run {runId} is not initialized"))
  else
    (db, .stopped .executionAuthorityLost)

/-- `acquireStartWatermarkAndStart`, its conditional update. -/
def persistStartWatermark (runId : RunId) (rowsUpdatedAt : Nat) : Db Row × ExecutorState Row :=
  if a.authorized 0 then
    match a.statementError with
    | some message => (db, .stopped (.threw message))
    | none =>
      match db.setStartWatermarkAndRunning runId (rowsUpdatedAtToDate rowsUpdatedAt) a.now with
      | .ok db' => (db', .selectingBatch runId)
      | .error e => (db, stoppedBy e)
  else
    (db, .stopped .executionAuthorityLost)

/-! ### Resuming a run -/

/-- `publishPersistedTerminalBatchFailure`, then `isPersistedRunReadyForPublication`. -/
def recoverPersistedFailure (runId : RunId) (run : IngestionRun) : Db Row × ExecutorState Row :=
  if a.authorized 0 then
    match (db.batches runId).find? (isExhausted config) with
    | some b =>
      if a.authorized 1 then
        (db, .publishingTerminalFailure (batchFailureRequest runId b.lastError a.now))
      else
        (db, .stopped .executionAuthorityLost)
    | none =>
      if isPersistedRunReadyForPublication db runId run then
        (db, .readyForPublication runId)
      else
        (db, .guardingResume runId run)
  else
    (db, .stopped .executionAuthorityLost)

/-- `rejectResumeOnWatermarkMismatch`. -/
def rejectResumeOnWatermarkMismatch (runId : RunId) (run : IngestionRun) :
    Db Row × ExecutorState Row :=
  if a.authorized 0 then
    match run.sourceWatermarkAtStart, a.metadata with
    | none, _ =>
      (db, .stopped (.threw s!"run {runId} is RUNNING without a persisted start watermark"))
    | some _, .error message => (db, .stopped (.threw message))
    | some _, .terminalError message => (db, .stopped (.threw message))
    | some startWatermark, .ok rowsUpdatedAt =>
      if a.authorized 1 then
        if rowsUpdatedAtToDate rowsUpdatedAt = startWatermark then
          match db.runs.find runId with
          | none => (db, .stopped (.threw s!"ingestion run {runId} disappeared during resume"))
          | some _ => (db, .selectingBatch runId)
        else if a.authorized 2 then
          (db, .publishingTerminalFailure (sourceChangedRequest runId a.now))
        else
          (db, .stopped .executionAuthorityLost)
      else
        (db, .stopped .executionAuthorityLost)
  else
    (db, .stopped .executionAuthorityLost)

/-! ### Processing the batches -/

/-- One turn of the loop of `processPersistedBatches`, up to the attempt. -/
def selectBatch (runId : RunId) : Db Row × ExecutorState Row :=
  if a.authorized 0 then
    match (db.batches runId).find? fun b => b.status ≠ .completed with
    | none => (db, .finalizing runId)
    | some b =>
      if isExhausted config b then
        if a.authorized 1 then
          (db, .publishingTerminalFailure (batchFailureRequest runId b.lastError a.now))
        else
          (db, .stopped .executionAuthorityLost)
      else
        (db, .executingBatch runId b.batchNumber)
  else
    (db, .stopped .executionAuthorityLost)

/-- `executeBatchAttempt`, up to the attempt counter. -/
def executeBatchAttempt (runId : RunId) (batchNumber : Nat) : Db Row × ExecutorState Row :=
  if a.authorized 0 then
    match db.findBatch runId batchNumber with
    | none => (db, .stopped (.threw s!"Ingestion batch {batchNumber} was not found"))
    | some b =>
      if b.status = .completed then
        (db, .selectingBatch runId)
      else
        match a.statementError with
        | some message => (db, .stopped (.threw message))
        | none =>
          if config.maxBatchAttemptsPerRun ≤ b.attemptCount then
            let lastError :=
              s!"Batch attempt budget exhausted after {b.attemptCount} logical attempts"
            match db.markFailed runId batchNumber lastError with
            | .ok db' => (db', .terminalOutcome runId (some lastError))
            | .error e => (db, stoppedBy e)
          else
            (db.incrementAttemptCount runId batchNumber, .attemptCounted runId batchNumber)
  else
    (db, .stopped .executionAuthorityLost)

/-- `executeBatchAttempt`, its second update, and the parse of the definition. -/
def startAttempt (runId : RunId) (batchNumber : Nat) : Db Row × ExecutorState Row :=
  match a.statementError, db.findBatch runId batchNumber with
  | some message, _ => (db, .stopped (.threw message))
  | none, none => (db, .stopped (.threw "Record to update not found."))
  | none, some b =>
    if isValidDefinition b.batchDefinition then
      (db.startBatch runId batchNumber,
        .fetchingPage ⟨runId, batchNumber, b.batchDefinition, 0, 0, 0⟩)
    else
      (db.startBatch runId batchNumber, .stopped (.threw "BATCH_INVALID_DEFINITION"))

/-- `runLogicalAttempt`, one page request. -/
def fetchPage (attempt : BatchAttempt) : Db Row × ExecutorState Row :=
  if a.authorized 0 && a.authorized 1 then
    match a.page, a.statementError with
    | .ok page, _ =>
      (db, .processingRows { attempt with pagesFetched := attempt.pagesFetched + 1 } page page)
    -- the error of this statement is caught by the enclosing `try`
    | .error _, some message => (db, .attemptFailed attempt message)
    | .error message, none =>
      match db.markFailed attempt.runId attempt.batchNumber
        ("BATCH_PAGE_FETCH_FAILED: " ++ message) with
      | .ok db' => (db', .selectingBatch attempt.runId)
      | .error _ => (db, .attemptFailed attempt
        "Ingestion batch repository: a failed batch must have a non-empty error")
  else
    (db, .stopped .executionAuthorityLost)

/-- `processPageRows`, one raw row, and the progress update after the last. -/
def processRows (attempt : BatchAttempt) (page remaining : List Row) :
    Db Row × ExecutorState Row :=
  match remaining with
  | row :: rest =>
    if a.authorized 0 then
      match service.extractEcbSourceIdentity row, a.statementError with
      | .error message, _ => (db, .attemptFailed attempt message)
      | .ok identity, some _ =>
        (db, .attemptFailed attempt
          ("Could not persist raw ECB source version for " ++ identity.sourceId))
      | .ok identity, none =>
        (db.persistRaw attempt.runId identity row a.now,
          .stagingRow attempt page row identity.sourceId rest)
    else
      (db, .stopped .executionAuthorityLost)
  | [] =>
    match a.statementError with
    | some message => (db, .attemptFailed attempt message)
    | none =>
      let attempt' := { attempt with rowsFetched := attempt.rowsFetched + page.length }
      let db' := db.updateProgress attempt.runId attempt.batchNumber attempt'.pagesFetched
        attempt'.rowsFetched
      if page.length < attempt.definition.pageSize then
        (db', .completingBatch attempt')
      else if config.socrataMaxPagesPerBatch ≤ attempt.pagesFetched then
        (db', .pageLimitReached attempt')
      else
        (db', .fetchingPage { attempt' with offset := attempt.offset + page.length })

/-- `processRow`, from the persisted raw row to the staging row. -/
def stageRow (attempt : BatchAttempt) (page : List Row) (row : Row) (sourceId : SourceId)
    (remaining : List Row) : Db Row × ExecutorState Row :=
  match service.normalizeEcbViolation row, a.statementError with
  | none, _ =>
    (db, .attemptFailed attempt
      ("ECB row " ++ sourceId ++ " failed strict validation or normalization"))
  | some normalized, some _ =>
    (db, .attemptFailed attempt
      ("Could not persist ECB staging candidate for " ++ normalized.sourceId))
  | some normalized, none =>
    (db.upsertStaging attempt.runId normalized, .processingRows attempt page remaining)

/-- `markCompletedIfAuthorized`. -/
def completeBatch (attempt : BatchAttempt) : Db Row × ExecutorState Row :=
  if a.authorized 0 && a.authorized 1 then
    match a.statementError with
    | some message => (db, .attemptFailed attempt message)
    | none =>
      (db.markCompleted attempt.runId attempt.batchNumber attempt.pagesFetched attempt.rowsFetched
        a.now, .selectingBatch attempt.runId)
  else
    (db, .stopped .executionAuthorityLost)

/-- `runLogicalAttempt`, at the page limit. -/
def failPageLimit (attempt : BatchAttempt) : Db Row × ExecutorState Row :=
  match a.statementError with
  | some message => (db, .attemptFailed attempt message)
  | none =>
    match db.markFailed attempt.runId attempt.batchNumber "FAILED_PAGE_LIMIT" with
    | .ok db' => (db', .terminalOutcome attempt.runId (some "FAILED_PAGE_LIMIT"))
    | .error _ => (db, .attemptFailed attempt
        "Ingestion batch repository: a failed batch must have a non-empty error")

/-- `runLogicalAttempt`, its `catch` clause. -/
def failAttempt (attempt : BatchAttempt) (message : String) : Db Row × ExecutorState Row :=
  if a.authorized 0 then
    match a.statementError with
    | some message => (db, .stopped (.threw message))
    | none =>
      match db.markFailed attempt.runId attempt.batchNumber
        ("BATCH_ROW_PROCESSING_FAILED: " ++ message) with
      | .ok db' => (db', .selectingBatch attempt.runId)
      | .error e => (db, stoppedBy e)
  else
    (db, .stopped .executionAuthorityLost)

/-- `publishTerminalBatchFailure`, after a terminal outcome. -/
def publishTerminalOutcome (runId : RunId) (lastError : Option String) :
    Db Row × ExecutorState Row :=
  if a.authorized 0 then
    (db, .publishingTerminalFailure (batchFailureRequest runId lastError a.now))
  else
    (db, .stopped .executionAuthorityLost)

/-! ### Ending a run -/

/-- The terminal publication, and the end of the execution. -/
def publishTerminal (request : IngestionTerminalPublicationRequest) : Db Row × ExecutorState Row :=
  match db.publishTerminalFailure a.publication request with
  | (db', .ok ()) =>
    if request.status = .sourceChanged then
      (db', .stopped .sourceChangedPublished)
    else
      (db', .stopped .terminalFailurePublished)
  | (db', .error e) => (db', stoppedBy e)

/-- `finalizePublicationHandoff`, up to the answer of the metadata request. -/
def finalizePublicationHandoff (runId : RunId) : Db Row × ExecutorState Row :=
  if a.authorized 0 then
    match (db.runs.find runId).map (·.sourceWatermarkAtStart), a.metadata with
    | none, _ =>
      (db, .stopped (.threw s!"ingestion run {runId} disappeared before publication handoff"))
    | some none, _ =>
      (db, .stopped (.threw s!"ingestion run {runId} is missing source_watermark_at_start"))
    | some (some _), .error message => (db, .stopped (.threw message))
    | some (some _), .terminalError message => (db, .stopped (.threw message))
    | some (some startWatermark), .ok rowsUpdatedAt =>
      if a.authorized 1 then
        (db, .endWatermarkFetched runId startWatermark (rowsUpdatedAtToDate rowsUpdatedAt))
      else
        (db, .stopped .executionAuthorityLost)
  else
    (db, .stopped .executionAuthorityLost)

/-- `finalizePublicationHandoff`, from the update of the end watermark. -/
def persistEndWatermark (runId : RunId) (startWatermark endWatermark : Time) :
    Db Row × ExecutorState Row :=
  match a.statementError with
  | some message => (db, .stopped (.threw message))
  | none =>
    let db' := db.updateSourceWatermarkAtEnd runId endWatermark
    if endWatermark = startWatermark then
      (db', .readyForPublication runId)
    else if a.authorized 0 then
      (db', .publishingTerminalFailure (sourceChangedRequest runId a.now))
    else
      (db', .stopped .executionAuthorityLost)

/-- The runner's hand-off to the accepted publication, and the end of the execution. -/
def publishAccepted (runId : RunId) : Db Row × ExecutorState Row :=
  if a.authorized 0 then
    match db.publish a.publication runId with
    | (db', .ok _) => (db', .stopped .completed)
    | (db', .error e) => (db', stoppedBy e)
  else
    (db, .stopped .executionAuthorityLost)

/-- One step of an execution. -/
def executorStep : ExecutorState Row → Option (Db Row × ExecutorState Row)
  | .stopped _ => none
  | .started triggerType => some (executeWithAuthority a db triggerType)
  | .creatingRun triggerType => some (createQueuedRun a db triggerType)
  | .initializing runId => some (initializeAndStartRun a db runId)
  | .loadingSnapshot runId => some (db, .snapshotBinsLoaded runId db.selectPropertyBins)
  | .snapshotBinsLoaded runId relationships => some (loadSnapshotVersions db runId relationships)
  | .snapshotLoaded runId snapshotRows => some (storeSnapshot config a db runId snapshotRows)
  | .acquiringStartWatermark runId run => some (acquireStartWatermark a db runId run)
  | .startWatermarkFetched runId rowsUpdatedAt => some (persistStartWatermark a db runId rowsUpdatedAt)
  | .recoveringFailure runId run => some (recoverPersistedFailure config a db runId run)
  | .guardingResume runId run => some (rejectResumeOnWatermarkMismatch a db runId run)
  | .selectingBatch runId => some (selectBatch config a db runId)
  | .executingBatch runId batchNumber => some (executeBatchAttempt config a db runId batchNumber)
  | .attemptCounted runId batchNumber => some (startAttempt a db runId batchNumber)
  | .fetchingPage attempt => some (fetchPage a db attempt)
  | .processingRows attempt page remaining =>
      some (processRows config service a db attempt page remaining)
  | .stagingRow attempt page row sourceId remaining =>
      some (stageRow service a db attempt page row sourceId remaining)
  | .completingBatch attempt => some (completeBatch a db attempt)
  | .pageLimitReached attempt => some (failPageLimit a db attempt)
  | .attemptFailed attempt message => some (failAttempt a db attempt message)
  | .terminalOutcome runId lastError => some (publishTerminalOutcome a db runId lastError)
  | .publishingTerminalFailure request => some (publishTerminal a db request)
  | .finalizing runId => some (finalizePublicationHandoff a db runId)
  | .endWatermarkFetched runId startWatermark endWatermark =>
      some (persistEndWatermark a db runId startWatermark endWatermark)
  | .readyForPublication runId => some (publishAccepted a db runId)

end Steps

end NycPropertyResolver
