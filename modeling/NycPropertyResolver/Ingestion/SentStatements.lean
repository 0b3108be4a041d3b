import NycPropertyResolver.Ingestion.System
import NycPropertyResolver.Ingestion.TableGuards

/-!
# Ingestion — the statements the program sends

For each event of the system, what it writes to the guarded tables, statement by statement in the order
of the source (`Event.statements`).  The repositories come first, then the transactions, then one list
for each point of the executor.  An `update` or `updateMany` of one row stands as the row it leaves;
`createMany` and `deleteMany` stand as one statement for each row.  A statement the database fails for a
reason outside its tables writes nothing, and neither does a transaction that throws.
-/

namespace NycPropertyResolver

open Library

variable {Row : Type}

/-! ### Repositories -/

namespace Db

variable (db : Db Row) (runId : RunId) (batchNumber : Nat)

/-- An update of the row of a run, where there is one. -/
def updateRunStatements (f : IngestionRun → IngestionRun) : List GuardedStatement :=
  ((db.runs.find runId).map fun run => .updateRun runId (f run)).toList

/-- An update of the row of a batch, where there is one. -/
def updateBatchStatements (f : IngestionBatch → IngestionBatch) : List GuardedStatement :=
  ((db.findBatch runId batchNumber).map fun b => .updateBatch runId batchNumber runId (f b)).toList

/-- `deleteMany({ where: { runId } })` on `ingestion_run_property_bins`. -/
def deleteSnapshotStatements : List GuardedStatement :=
  (db.snapshot runId).map (.deleteSnapshotRow runId)

/-- `deleteMany({ where: { runId } })` on `ingestion_batches`. -/
def deleteBatchesStatements : List GuardedStatement :=
  (db.batches runId).map fun b => .deleteBatch runId b.batchNumber

/-- `createPropertyBinSnapshot`. -/
def createSnapshotStatements (rows : List IngestionRunPropertyBin) : List GuardedStatement :=
  rows.map (.insertSnapshotRow runId)

/-- `createMany`. -/
def createBatchesStatements (definitions : List IngestionBatchDefinition) : List GuardedStatement :=
  (pendingBatches definitions).map (.insertBatch runId)

/-- `markFailed`: a blank error throws before the statement. -/
def markFailedStatements (lastError : String) : List GuardedStatement :=
  if isBlank lastError then []
  else db.updateBatchStatements runId batchNumber fun b =>
    { b with status := .failed, lastError := some lastError }

/-! ### Transactions -/

/-- The transaction of `initializeRunSnapshotAndBatches`. -/
def initializationStatements (snapshotRows : List IngestionRunPropertyBin)
    (ecbBatchSize socrataPageSize : Nat) : List GuardedStatement :=
  let sortedDistinctBins := (distinctBins snapshotRows).toList
  let definitions := buildBatchDefinitions sortedDistinctBins ecbBatchSize socrataPageSize
  db.deleteSnapshotStatements runId ++ db.deleteBatchesStatements runId ++
    createSnapshotStatements runId snapshotRows ++ createBatchesStatements runId definitions ++
    db.updateRunStatements runId fun run => { run with
      expectedPropertyBinCount := some snapshotRows.length
      expectedBinCount := some sortedDistinctBins.length
      expectedBatchCount := some definitions.length
      initializationComplete := true }

/-- `setStartWatermarkAndRunning`: a run its condition excludes is not written. -/
def startStatements (sourceWatermarkAtStart startedAt : Time) : List GuardedStatement :=
  match db.setStartWatermarkAndRunning runId sourceWatermarkAtStart startedAt with
  | .ok _ => db.updateRunStatements runId fun run => { run with
      sourceWatermarkAtStart := some sourceWatermarkAtStart
      status := .running
      startedAt := some startedAt }
  | .error _ => []

/-- The transaction of `publishTerminalFailure`; the coverage is no guarded table. -/
def terminalStatements (answer : PublicationAnswer) (request : IngestionTerminalPublicationRequest) :
    List GuardedStatement :=
  match (db.publishTerminalFailure answer request).2 with
  | .ok () => db.updateRunStatements request.runId (terminalRun request)
  | .error _ => []

/-- The transaction of `publish`, whose promotion and coverage are no guarded tables. -/
def publicationStatements (answer : PublicationAnswer) : List GuardedStatement :=
  match (db.publish answer runId).2 with
  | .ok .completed => db.updateRunStatements runId (acceptedRun answer.now)
  | .ok .alreadyCompleted | .error _ => []

end Db

/-! ### The executor -/

section Executor

variable (config : ExecutorConfig) (a : Answer Row) (db : Db Row)

/-- `createQueuedRun`. -/
def createQueuedRunStatements (triggerType : IngestionTriggerType) : List GuardedStatement :=
  if a.authorized 0 then [.insertRun a.freshId (Db.queuedRun triggerType)] else []

/-- `initializeRunSnapshotAndBatches`, its transaction. -/
def storeSnapshotStatements (runId : RunId) (snapshotRows : List IngestionRunPropertyBin) :
    List GuardedStatement :=
  match a.statementError, db.initializeRunSnapshotAndBatches runId snapshotRows config.ecbBatchSize
    config.socrataPageSize with
  | none, .ok _ =>
    db.initializationStatements runId snapshotRows config.ecbBatchSize config.socrataPageSize
  | _, _ => []

/-- `acquireStartWatermarkAndStart`, its conditional update. -/
def persistStartWatermarkStatements (runId : RunId) (rowsUpdatedAt : Nat) : List GuardedStatement :=
  if a.authorized 0 ∧ a.statementError = none then
    db.startStatements runId (rowsUpdatedAtToDate rowsUpdatedAt) a.now
  else []

/-- `executeBatchAttempt`, up to the attempt counter. -/
def executeBatchAttemptStatements (runId : RunId) (batchNumber : Nat) : List GuardedStatement :=
  match db.findBatch runId batchNumber with
  | none => []
  | some b =>
    if a.authorized 0 ∧ b.status ≠ .completed ∧ a.statementError = none then
      if config.maxBatchAttemptsPerRun ≤ b.attemptCount then
        db.markFailedStatements runId batchNumber
          s!"Batch attempt budget exhausted after {b.attemptCount} logical attempts"
      else
        db.updateBatchStatements runId batchNumber fun b => { b with attemptCount := b.attemptCount + 1 }
    else []

/-- `executeBatchAttempt`, its second update. -/
def startAttemptStatements (runId : RunId) (batchNumber : Nat) : List GuardedStatement :=
  if a.statementError = none then
    db.updateBatchStatements runId batchNumber fun b => { b with status := .running, lastError := none }
  else []

/-- `runLogicalAttempt`, after a page request that failed. -/
def fetchPageStatements (attempt : BatchAttempt) : List GuardedStatement :=
  match a.page, a.statementError with
  | .error message, none =>
    if a.authorized 0 && a.authorized 1 then
      db.markFailedStatements attempt.runId attempt.batchNumber ("BATCH_PAGE_FETCH_FAILED: " ++ message)
    else []
  | _, _ => []

/-- `processPageRows`, the progress update after the last row. -/
def processRowsStatements (attempt : BatchAttempt) (page remaining : List Row) :
    List GuardedStatement :=
  match remaining, a.statementError with
  | [], none =>
    db.updateBatchStatements attempt.runId attempt.batchNumber fun b => { b with
      pagesFetched := attempt.pagesFetched
      rowsFetched := attempt.rowsFetched + page.length }
  | _, _ => []

/-- `markCompletedIfAuthorized`. -/
def completeBatchStatements (attempt : BatchAttempt) : List GuardedStatement :=
  if (a.authorized 0 && a.authorized 1) ∧ a.statementError = none then
    db.updateBatchStatements attempt.runId attempt.batchNumber fun b => { b with
      pagesFetched := attempt.pagesFetched
      rowsFetched := attempt.rowsFetched
      status := .completed
      completedAt := some a.now
      lastError := none }
  else []

/-- `runLogicalAttempt`, at the page limit. -/
def failPageLimitStatements (attempt : BatchAttempt) : List GuardedStatement :=
  if a.statementError = none then
    db.markFailedStatements attempt.runId attempt.batchNumber "FAILED_PAGE_LIMIT"
  else []

/-- `runLogicalAttempt`, its `catch` clause. -/
def failAttemptStatements (attempt : BatchAttempt) (message : String) : List GuardedStatement :=
  if a.authorized 0 ∧ a.statementError = none then
    db.markFailedStatements attempt.runId attempt.batchNumber
      ("BATCH_ROW_PROCESSING_FAILED: " ++ message)
  else []

/-- `finalizePublicationHandoff`, the update of the end watermark. -/
def persistEndWatermarkStatements (runId : RunId) (endWatermark : Time) : List GuardedStatement :=
  if a.statementError = none then
    db.updateRunStatements runId fun run => { run with sourceWatermarkAtEnd := some endWatermark }
  else []

/-- The statements of one step. -/
def executorStatements : ExecutorState Row → List GuardedStatement
  | .creatingRun triggerType => createQueuedRunStatements a triggerType
  | .snapshotLoaded runId snapshotRows => storeSnapshotStatements config a db runId snapshotRows
  | .startWatermarkFetched runId rowsUpdatedAt =>
    persistStartWatermarkStatements a db runId rowsUpdatedAt
  | .executingBatch runId batchNumber => executeBatchAttemptStatements config a db runId batchNumber
  | .attemptCounted runId batchNumber => startAttemptStatements a db runId batchNumber
  | .fetchingPage attempt => fetchPageStatements a db attempt
  | .processingRows attempt page remaining => processRowsStatements a db attempt page remaining
  | .completingBatch attempt => completeBatchStatements a db attempt
  | .pageLimitReached attempt => failPageLimitStatements a db attempt
  | .attemptFailed attempt message => failAttemptStatements a db attempt message
  | .publishingTerminalFailure request => db.terminalStatements a.publication request
  | .endWatermarkFetched runId _ endWatermark => persistEndWatermarkStatements a db runId endWatermark
  | .readyForPublication runId =>
    if a.authorized 0 then db.publicationStatements runId a.publication else []
  | _ => []

end Executor

/-! ### The system -/

/-- **The statements of one event.** -/
def Event.statements (config : ExecutorConfig) (s : SystemState Row) : Event Row → List GuardedStatement
  | .executor answer => executorStatements config answer s.db s.executor
  | .createProperty propertyId _ _ => [.insertProperty propertyId]
  | .acquireLock _ | .crash | .applyEffectiveBinSet _ _ => []

/-- The id generated for a new run is not in use. -/
def Event.GeneratesFreshId (s : SystemState Row) : Event Row → Prop
  | .executor answer => ∀ triggerType, s.executor = .creatingRun triggerType →
      s.db.runs.find answer.freshId = none
  | _ => True

end NycPropertyResolver
