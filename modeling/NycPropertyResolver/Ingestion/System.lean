import NycPropertyResolver.Identity.PropertyIdentity
import NycPropertyResolver.Ingestion.Effects
import NycPropertyResolver.Library.Steps

/-!
# Ingestion — the system

The database with one execution at a time: the holder of the advisory lock takes its steps, dies at
any point, and is followed by another, while properties are created and their BIN sets change in
transactions of their own.  A run of the system is a run of the library's transition systems, and
`Write` is what one event does to the database, with what the executor knew when it wrote.
-/

namespace NycPropertyResolver

open Library

variable {Row : Type}

/-! ### Events -/

/-- The tables, and the execution. -/
structure SystemState (Row : Type) where
  db : Db Row
  executor : ExecutorState Row

/-- The empty database, before the first execution. -/
def SystemState.initial : SystemState Row := ⟨.empty, .stopped .notStarted⟩

/-- A step of the execution, or of another process. -/
inductive Event (Row : Type) where
  /-- An `execute` call is granted the advisory lock. -/
  | acquireLock (triggerType : IngestionTriggerType)
  /-- The lock holder takes a step. -/
  | executor (answer : Answer Row)
  /-- The lock holder dies, and with it its lock session. -/
  | crash
  | createProperty (propertyId : PropertyId) (input : CreatePropertyInput) (now : Time)
  | applyEffectiveBinSet (propertyId : PropertyId) (candidateBins : List String)

/-- A transaction on a property, which is no step of the executor. -/
def Event.OnProperty : Event Row → Prop
  | .createProperty _ _ _ | .applyEffectiveBinSet _ _ => True
  | _ => False

/-- One event; `none` when it is not possible, or throws. -/
def next (config : ExecutorConfig) (service : EcbRowService Row) (s : SystemState Row) :
    Event Row → Option (SystemState Row)
  | .acquireLock triggerType =>
    match s.executor with
    | .stopped _ => some ⟨s.db, .started triggerType⟩
    | _ => none
  | .executor answer =>
    (executorStep config service answer s.db s.executor).map fun r => ⟨r.1, r.2⟩
  | .crash =>
    match s.executor with
    | .stopped _ => none
    | _ => some ⟨s.db, .stopped .crashed⟩
  | .createProperty propertyId input now =>
    match s.db.createProperty propertyId input now with
    | .ok db' => some ⟨db', s.executor⟩
    | .error _ => none
  | .applyEffectiveBinSet propertyId candidateBins =>
    match s.db.applyEffectiveBinSet propertyId candidateBins with
    | .ok (db', _) => some ⟨db', s.executor⟩
    | .error _ => none

/-- A state some run reaches from the empty database. -/
abbrev Reachable (config : ExecutorConfig) (service : EcbRowService Row) (s : SystemState Row) :
    Prop :=
  Steps (next config service) (fun _ _ => True) .initial s

variable {config : ExecutorConfig} {service : EcbRowService Row} {s s' : SystemState Row}

/-- **What one event does.** -/
inductive Turn (config : ExecutorConfig) (service : EcbRowService Row) (s : SystemState Row) :
    Event Row → SystemState Row → Prop where
  | acquired {triggerType : IngestionTriggerType} {outcome : ExecutionOutcome}
      (h : s.executor = .stopped outcome) :
      Turn config service s (.acquireLock triggerType) ⟨s.db, .started triggerType⟩
  | stepped {answer : Answer Row} {db' : Db Row} {pc' : ExecutorState Row}
      (h : Effect config service answer s.db s.executor db' pc') :
      Turn config service s (.executor answer) ⟨db', pc'⟩
  | crashed : Turn config service s .crash ⟨s.db, .stopped .crashed⟩
  | created {propertyId : PropertyId} {input : CreatePropertyInput} {now : Time} {db' : Db Row}
      (h : s.db.createProperty propertyId input now = .ok db') :
      Turn config service s (.createProperty propertyId input now) ⟨db', s.executor⟩
  | applied {propertyId : PropertyId} {candidateBins : List String} {db' : Db Row}
      {r : ApplyEffectiveBinSetResult}
      (h : s.db.applyEffectiveBinSet propertyId candidateBins = .ok (db', r)) :
      Turn config service s (.applyEffectiveBinSet propertyId candidateBins) ⟨db', s.executor⟩

theorem next_turn {ev : Event Row} (h : next config service s ev = some s') :
    Turn config service s ev s' := by
  cases ev with
  | acquireLock triggerType =>
      simp only [next] at h
      split at h
      · cases h; exact .acquired ‹_›
      · cases h
  | executor answer =>
      obtain ⟨⟨db', pc'⟩, hs, rfl⟩ := Option.map_eq_some_iff.mp h
      exact .stepped (executorStep_effect hs)
  | crash =>
      simp only [next] at h
      split at h
      · cases h
      · cases h; exact .crashed
  | createProperty propertyId input now =>
      simp only [next] at h
      split at h
      · cases h; exact .created ‹_›
      · cases h
  | applyEffectiveBinSet propertyId candidateBins =>
      simp only [next] at h
      split at h
      · cases h; exact .applied ‹_›
      · cases h

/-! ### What the executor knows -/

/-- The run a state works on as RUNNING. -/
def ExecutorState.runningRun? : ExecutorState Row → Option RunId
  | .recoveringFailure runId _ | .guardingResume runId _ | .selectingBatch runId => some runId
  | .executingBatch runId _ | .attemptCounted runId _ | .terminalOutcome runId _ => some runId
  | .fetchingPage attempt | .processingRows attempt _ _ | .stagingRow attempt _ _ _ _ =>
    some attempt.runId
  | .completingBatch attempt | .pageLimitReached attempt | .attemptFailed attempt _ =>
    some attempt.runId
  | .finalizing runId | .endWatermarkFetched runId _ _ | .readyForPublication runId => some runId
  | _ => none

theorem runningRun?_of_attempt? {pc : ExecutorState Row} {attempt : BatchAttempt}
    (h : pc.attempt? = some attempt) : pc.runningRun? = some attempt.runId := by
  cases pc <;> cases h <;> rfl

/-- The batch a state works on: its run and its number. -/
def ExecutorState.batch? : ExecutorState Row → Option (RunId × Nat)
  | .executingBatch runId batchNumber | .attemptCounted runId batchNumber =>
    some (runId, batchNumber)
  | pc => pc.attempt?.map fun attempt => (attempt.runId, attempt.batchNumber)

theorem runningRun?_of_batch? {pc : ExecutorState Row} {runId : RunId} {n : Nat}
    (h : pc.batch? = some (runId, n)) : pc.runningRun? = some runId := by
  cases pc <;> cases h <;> rfl

/-- A run that was moved to RUNNING and has not ended. -/
structure IsRunning (db : Db Row) (runId : RunId) : Prop where
  found : ∃ run, db.runs.find runId = some run ∧ run.status = .running ∧
    run.initializationComplete = true ∧ run.sourceWatermarkAtStart ≠ none

/-- The values an execution holds in memory are those of the database. -/
def Remembers (db : Db Row) : ExecutorState Row → Prop
  | .recoveringFailure runId run | .guardingResume runId run => db.runs.find runId = some run
  | .acquiringStartWatermark runId run => db.runs.find runId = some run
  | .endWatermarkFetched runId startWatermark _ =>
    (db.runs.find runId).bind (·.sourceWatermarkAtStart) = some startWatermark
  | _ => True

/-- What an execution takes for granted of the database. -/
structure Knows (db : Db Row) (pc : ExecutorState Row) : Prop where
  running : ∀ runId, pc.runningRun? = some runId → IsRunning db runId
  remembers : Remembers db pc

/-! ### What reaches the database -/

/-- A batch update that leaves the identity of the batch alone. -/
def KeepsDefinition (f : IngestionBatch → IngestionBatch) : Prop :=
  ∀ b, (f b).batchNumber = b.batchNumber ∧ (f b).batchDefinition = b.batchDefinition

/-- **What a step of the executor writes**, with what it knows of the run it writes for. -/
inductive Write (config : ExecutorConfig) (a : Answer Row) (db : Db Row) (pc : ExecutorState Row) :
    Db Row → Prop where
  | nothing : Write config a db pc db
  | runCreated {runId : RunId} {triggerType : IngestionTriggerType} {db' : Db Row}
      (h : db.createQueued runId triggerType = .ok db') : Write config a db pc db'
  | snapshotStored {runId : RunId} {rows : List IngestionRunPropertyBin} {db' : Db Row}
      {run : IngestionRun} (hpc : pc = .snapshotLoaded runId rows)
      (h : db.initializeRunSnapshotAndBatches runId rows config.ecbBatchSize
        config.socrataPageSize = .ok (db', run)) : Write config a db pc db'
  | runStarted {runId : RunId} {rowsUpdatedAt : Nat} {db' : Db Row}
      (hpc : pc = .startWatermarkFetched runId rowsUpdatedAt)
      (h : db.setStartWatermarkAndRunning runId (rowsUpdatedAtToDate rowsUpdatedAt) a.now =
        .ok db') :
      Write config a db pc db'
  | batchUpdated {runId : RunId} {n : Nat} {f : IngestionBatch → IngestionBatch}
      (hpc : pc.batch? = some (runId, n)) (hf : KeepsDefinition f) :
      Write config a db pc (db.modifyBatch runId n f)
  | rawPersisted {raw : Table (SourceId × Time) (EcbViolationRaw Row)} :
      Write config a db pc { db with raw := raw }
  | rowStaged {runId : RunId} {n : Nat} {normalized : NormalizedEcbViolation}
      (hpc : pc.batch? = some (runId, n)) : Write config a db pc (db.upsertStaging runId normalized)
  | endPersisted {runId : RunId} {startWatermark endWatermark : Time}
      (hpc : pc = .endWatermarkFetched runId startWatermark endWatermark) :
      Write config a db pc (db.updateSourceWatermarkAtEnd runId endWatermark)
  | terminalPublished {request : IngestionTerminalPublicationRequest} {db' : Db Row}
      (hpc : pc = .publishingTerminalFailure request)
      (h : db.publishTerminalFailure a.publication request = (db', .ok ())) : Write config a db pc db'
  | acceptedPublished {runId : RunId} {db' : Db Row} {outcome : AcceptedPublicationOutcome}
      (hpc : pc = .readyForPublication runId)
      (h : db.publish a.publication runId = (db', .ok outcome)) : Write config a db pc db'

/-- Each rule writes one of these. -/
theorem Effect.write {a : Answer Row} {db db' : Db Row} {pc pc' : ExecutorState Row}
    (h : Effect config service a db pc db' pc') : Write config a db pc db' := by
  cases h with
  | runCreated h => exact .runCreated h
  | snapshotStored h => exact .snapshotStored rfl h
  | runStarted h => exact .runStarted rfl h
  | budgetExhausted _ _ _ h =>
      rw [(Db.markFailed_eq_ok h).2]
      exact .batchUpdated rfl fun _ => ⟨rfl, rfl⟩
  | attemptCounted => exact .batchUpdated rfl fun _ => ⟨rfl, rfl⟩
  | attemptStarted => exact .batchUpdated rfl fun _ => ⟨rfl, rfl⟩
  | attemptInvalid => exact .batchUpdated rfl fun _ => ⟨rfl, rfl⟩
  | pageFailed _ h =>
      rw [(Db.markFailed_eq_ok h).2]
      exact .batchUpdated rfl fun _ => ⟨rfl, rfl⟩
  | rawPersisted =>
      obtain ⟨raw, hraw⟩ := Db.persistRaw_eq db
      rw [hraw]
      exact .rawPersisted
  | rowStaged => exact .rowStaged rfl
  | lastPage => exact .batchUpdated rfl fun _ => ⟨rfl, rfl⟩
  | pageLimit => exact .batchUpdated rfl fun _ => ⟨rfl, rfl⟩
  | nextPage => exact .batchUpdated rfl fun _ => ⟨rfl, rfl⟩
  | batchCompleted => exact .batchUpdated rfl fun _ => ⟨rfl, rfl⟩
  | pageLimitFailed h =>
      rw [(Db.markFailed_eq_ok h).2]
      exact .batchUpdated rfl fun _ => ⟨rfl, rfl⟩
  | attemptClosed h =>
      rw [(Db.markFailed_eq_ok h).2]
      exact .batchUpdated rfl fun _ => ⟨rfl, rfl⟩
  | terminalPublished h => exact .terminalPublished rfl h
  | endAccepted => exact .endPersisted rfl
  | endRejected => exact .endPersisted rfl
  | acceptedPublished h => exact .acceptedPublished rfl h
  | _ => exact .nothing

/-! ### A small system -/

/-- Batches of two BINs, pages of two rows, two pages a batch, two attempts. -/
def smallConfig : ExecutorConfig where
  ecbBatchSize := 2
  socrataPageSize := 2
  socrataMaxPagesPerBatch := 2
  maxBatchAttemptsPerRun := 2
  ecbBatchSize_pos := by decide
  socrataPageSize_pos := by decide
  socrataPageSize_le := by decide
  socrataMaxPagesPerBatch_pos := by decide
  maxBatchAttemptsPerRun_pos := by decide

/-- Source rows that are normalized already. -/
def plainService : EcbRowService NormalizedEcbViolation where
  extractEcbSourceIdentity row := .ok ⟨row.sourceId, row.socrataRowId, row.sourceRowUpdatedAt⟩
  normalizeEcbViolation row := some row

/-- An answer without a failure: the lock is held, the watermark is the given one and the page holds
the given rows. -/
def quietAnswer (runId : RunId) (rowsUpdatedAt : Nat) (page : List Row) : Answer Row where
  now := 0
  authorized := fun _ => true
  freshId := runId
  metadata := .ok rowsUpdatedAt
  page := .ok page
  statementError := none
  publication := ⟨0, 0, fun _ => true, fun _ => none⟩

/-- A violation on BIN 1000001. -/
def sampleViolation : NormalizedEcbViolation where
  sourceId := "1"
  socrataRowId := "row-1"
  bin := ⟨"1000001", rfl, rfl⟩
  violationNumber := none
  issueDate := none
  ecbViolationStatus := none
  balanceDue := none
  sourceRowUpdatedAt := 0

/-- The creation of a property with one BIN. -/
def createSample (p : PropertyId) (bbl bin : String) : Event Row :=
  .createProperty p ⟨bbl, [bin], none, none, none, none, none, none, none⟩ 0

end NycPropertyResolver
