import NycPropertyResolver.Ingestion.AcceptedPublication

/-!
# Ingestion — terminal publication

`terminal-publication.service.ts`: one transaction that moves an active run to FAILED or
SOURCE_CHANGED and, for an initialized run, publishes the failed attempt in the coverage of the
snapshot properties whose version is still the snapshot's.  The success side of a coverage row is
not written.
-/

namespace NycPropertyResolver

open Library

variable {Row : Type}

/-- `IngestionTerminalPublicationRequest`: how a run ended, and why. -/
structure IngestionTerminalPublicationRequest where
  runId : RunId
  status : IngestionRunStatus
  failureStage : String
  lastError : String
  finishedAt : Time
  deriving DecidableEq, Repr

/-- `validateRequest`. -/
def IngestionTerminalPublicationRequest.validate (request : IngestionTerminalPublicationRequest) :
    Except ServiceError Unit := do
  ensure (request.status = .failed ∨ request.status = .sourceChanged)
    "Terminal failure publication: unsupported terminal status"
  ensure (isBlank request.failureStage = false)
    "Terminal failure publication: failureStage must be non-empty"
  ensure (isBlank request.lastError = false)
    "Terminal failure publication: lastError must be non-empty"
  ensure (request.status = .sourceChanged → request.lastError = "SOURCE_CHANGED")
    "Terminal failure publication: SOURCE_CHANGED publication requires lastError=SOURCE_CHANGED"

namespace Db

/-- `lockAndValidateRun`. -/
def lockAndValidateTerminalRun (db : Db Row) (request : IngestionTerminalPublicationRequest) :
    Except ServiceError IngestionRun := do
  let run ← require (db.runs.find request.runId)
    s!"Terminal failure publication: run {request.runId} does not exist"
  ensure (run.dataset = .dobEcbViolations)
    s!"Terminal failure publication: run {request.runId} is not an ECB ingestion run"
  ensure (run.status = .queued ∨ run.status = .running)
    s!"Terminal failure publication: run {request.runId} is not active (status={run.status.text})"
  ensure (request.status = .sourceChanged →
      run.status = .running ∧ run.initializationComplete = true ∧ run.sourceWatermarkAtStart ≠ none)
    s!"Terminal failure publication: run {request.runId} is not eligible for SOURCE_CHANGED publication"
  .ok run

/-- The row of a run that has been terminated. -/
def terminalRun (request : IngestionTerminalPublicationRequest) (run : IngestionRun) : IngestionRun :=
  { run with
    status := request.status
    finishedAt := some request.finishedAt
    failureStage := some request.failureStage
    lastError := some request.lastError }

/-- `updateMany({ where: { id, status: run.status }, … })`, on the locked run. -/
def terminateRun (db : Db Row) (request : IngestionTerminalPublicationRequest) : Db Row :=
  { db with runs := db.runs.modify request.runId (terminalRun request) }

/-- No property of the snapshot is listed with two versions. -/
def ConsistentVersions (db : Db Row) (runId : RunId) : Prop :=
  ∀ p ∈ db.snapshotPropertyIds runId, (db.snapshotVersions runId p).dedup.length = 1

instance (db : Db Row) (runId : RunId) : Decidable (db.ConsistentVersions runId) :=
  inferInstanceAs (Decidable (∀ p ∈ db.snapshotPropertyIds runId, _))

/-- `eligible_snapshot`: the version in the snapshot row of the property with the least BIN. -/
def eligibleVersion (db : Db Row) (runId : RunId) (p : PropertyId) : Option Nat :=
  ((((db.snapshot runId).filter fun row => row.propertyId = p).insertionSort
    fun row row' => row.bin ≤ row'.bin).head?).map (·.propertyIdentifierVersion)

/-- A batch of `failed_bins`: FAILED, with an error that is not only spaces. -/
def isFailedBatch (b : IngestionBatch) : Bool :=
  b.status = .failed && b.lastError.any fun e => e.toList.any fun c => c ≠ ' '

/-- The batches of `failed_bins`, `ORDER BY "batch_number"`. -/
def failedBatches (db : Db Row) (runId : RunId) : List IngestionBatch :=
  ((db.batches runId).filter isFailedBatch).insertionSort fun b b' => b.batchNumber ≤ b'.batchNumber

/-- `failed_property`: the error of the first failed batch with a BIN of the property. -/
def failedPropertyError (db : Db Row) (runId : RunId) (p : PropertyId) : Option String :=
  ((db.failedBatches runId).find? fun b =>
    (db.snapshot runId).any fun row => row.propertyId = p && row.bin ∈ b.batchDefinition.bins).bind
      (·.lastError)

/-- The `last_error` a property's coverage receives. -/
def failureReason (db : Db Row) (request : IngestionTerminalPublicationRequest) (p : PropertyId) :
    String :=
  if request.status = .sourceChanged then "SOURCE_CHANGED"
  else (db.failedPropertyError request.runId p).getD "RUN_NOT_PROMOTED"

/-- The coverage inserted for a failed attempt. -/
def failedCoverage (request : IngestionTerminalPublicationRequest) (lastError : String) :
    PropertyDatasetCoverage where
  status := .failed
  statusReason := none
  lastAttemptRunId := some request.runId
  lastSuccessRunId := none
  lastAttemptAt := some request.finishedAt
  lastSuccessAt := none
  sourceWatermarkAt := none
  lastError := some lastError

/-- `publishFailedCoverage`. -/
def publishFailedCoverage (db : Db Row) (request : IngestionTerminalPublicationRequest) : Db Row :=
  { db with
    coverage := fun p =>
      match db.eligibleVersion request.runId p with
      | none => db.coverage p
      | some version =>
        if (db.properties.find p).map Property.identifierVersion = some version then
          match db.coverage p with
          | none => some (failedCoverage request (db.failureReason request p))
          | some c => some { c with
              status := .failed
              statusReason := none
              lastAttemptRunId := some request.runId
              lastAttemptAt := some request.finishedAt
              lastError := some (db.failureReason request p) }
        else
          db.coverage p }

/-- The transaction of `publishTerminalFailure`. -/
def terminalTransaction (db : Db Row) (answer : PublicationAnswer)
    (request : IngestionTerminalPublicationRequest) : Except ServiceError (Db Row × Unit) := do
  runStatement (answer.statementError 0)
  let run ← db.lockAndValidateTerminalRun request
  assertAuthorized (answer.authorized 1) "terminalize the ingestion run"
  runStatement (answer.statementError 1)
  if run.initializationComplete then do
    assertAuthorized (answer.authorized 2) "publish failed property coverage"
    runStatement (answer.statementError 2)
    ensure (db.ConsistentVersions request.runId)
      s!"Terminal failure publication: run {request.runId} has inconsistent identifier versions in its snapshot"
    assertAuthorized (answer.authorized 3) "commit terminal ingestion publication"
    runStatement (answer.statementError 3)
    .ok ((db.terminateRun request).publishFailedCoverage request, ())
  else do
    assertAuthorized (answer.authorized 3) "commit terminal ingestion publication"
    runStatement (answer.statementError 3)
    .ok (db.terminateRun request, ())

/-- `TerminalPublicationService.publishTerminalFailure`. -/
def publishTerminalFailure (db : Db Row) (answer : PublicationAnswer)
    (request : IngestionTerminalPublicationRequest) : Db Row × Except ServiceError Unit :=
  match request.validate with
  | .error e => (db, .error e)
  | .ok () =>
    match assertAuthorized (answer.authorized 0) "publish a terminal ingestion failure" with
    | .error e => (db, .error e)
    | .ok () => transaction db (db.terminalTransaction answer request)

/-! ### What publication establishes -/

variable {db db' : Db Row} {answer : PublicationAnswer}
  {request : IngestionTerminalPublicationRequest} {run : IngestionRun}

theorem lockAndValidateTerminalRun_eq_ok (h : db.lockAndValidateTerminalRun request = .ok run) :
    db.runs.find request.runId = some run ∧ run.isActive = true ∧
      (request.status = .sourceChanged → run.status = .running ∧
        run.initializationComplete = true ∧ run.sourceWatermarkAtStart ≠ none) := by
  simp only [lockAndValidateTerminalRun, require_bind_ok, ensure_bind_ok, Except.ok.injEq] at h
  obtain ⟨run', hr, -, ha, hs, rfl⟩ := h
  exact ⟨hr, isActive_iff.mpr ha, hs⟩

/-- **What a terminal publication does.**  It moves an active run to the requested status and, when
the run is initialized, publishes the failed attempt. -/
theorem terminalTransaction_eq_ok (h : db.terminalTransaction answer request = .ok (db', ())) :
    ∃ run, db.runs.find request.runId = some run ∧ run.isActive = true ∧
      (request.status = .sourceChanged → run.status = .running ∧
        run.initializationComplete = true ∧ run.sourceWatermarkAtStart ≠ none) ∧
      (run.initializationComplete = true ∧
          db' = (db.terminateRun request).publishFailedCoverage request ∨
        run.initializationComplete = false ∧ db' = db.terminateRun request) := by
  obtain ⟨-, h⟩ := runStatement_bind_ok.mp h
  obtain ⟨run, hv, h⟩ := except_bind_ok.mp h
  obtain ⟨hr, ha, hs⟩ := lockAndValidateTerminalRun_eq_ok hv
  obtain ⟨-, h⟩ := assertAuthorized_bind_ok.mp h
  obtain ⟨-, h⟩ := runStatement_bind_ok.mp h
  refine ⟨run, hr, ha, hs, ?_⟩
  split at h
  · simp only [assertAuthorized_bind_ok, runStatement_bind_ok, ensure_bind_ok, Except.ok.injEq,
      Prod.mk.injEq, and_true] at h
    exact Or.inl ⟨‹_›, h.2.2.2.2.2.symm⟩
  · simp only [assertAuthorized_bind_ok, runStatement_bind_ok, Except.ok.injEq, Prod.mk.injEq,
      and_true] at h
    exact Or.inr ⟨by simpa using ‹¬run.initializationComplete = true›, h.2.2.symm⟩

/-- Beside the run's own row, only coverage is written. -/
theorem terminalTransaction_frame (h : db.terminalTransaction answer request = .ok (db', ())) :
    ∃ run coverage, db.runs.find request.runId = some run ∧ run.isActive = true ∧
      (request.status = .sourceChanged → run.status = .running ∧
        run.initializationComplete = true ∧ run.sourceWatermarkAtStart ≠ none) ∧
      db' = { db with
        coverage := coverage
        runs := db.runs.modify request.runId (terminalRun request) } := by
  obtain ⟨run, hr, ha, hs, ⟨-, rfl⟩ | ⟨-, rfl⟩⟩ := terminalTransaction_eq_ok h
  · exact ⟨run, _, hr, ha, hs, rfl⟩
  · exact ⟨run, db.coverage, hr, ha, hs, rfl⟩

theorem validate_eq_ok (h : request.validate = .ok ()) :
    (request.status = .failed ∨ request.status = .sourceChanged) ∧
      isBlank request.lastError = false ∧
      (request.status = .sourceChanged → request.lastError = "SOURCE_CHANGED") := by
  simp only [IngestionTerminalPublicationRequest.validate, ensure_bind_ok] at h
  obtain ⟨hs, -, hl, h⟩ := h
  refine ⟨hs, hl, ?_⟩
  by_contra hc
  rw [ensure, if_neg hc] at h
  cases h

/-- A publication that throws, or observes a lost lock session, leaves the database as it was. -/
theorem publishTerminalFailure_error {e : ServiceError}
    (h : db.publishTerminalFailure answer request = (db', .error e)) : db' = db := by
  rw [publishTerminalFailure] at h
  split at h
  · cases h; rfl
  · split at h
    · cases h; rfl
    · exact transaction_error h

theorem publishTerminalFailure_ok
    (h : db.publishTerminalFailure answer request = (db', .ok ())) :
    request.validate = .ok () ∧ db.terminalTransaction answer request = .ok (db', ()) := by
  rw [publishTerminalFailure] at h
  split at h
  · cases h
  · split at h
    · cases h
    · exact ⟨‹_›, transaction_ok h⟩

/-- The success side of every coverage row is left as it was. -/
theorem coverage_publishFailedCoverage {p : PropertyId} {c' : PropertyDatasetCoverage}
    (h : (db.publishFailedCoverage request).coverage p = some c') :
    db.coverage p = some c' ∨ ∃ e, (db.coverage p = none ∧ c' = failedCoverage request e) ∨
      ∃ c, db.coverage p = some c ∧ c' = { c with
        status := .failed
        statusReason := none
        lastAttemptRunId := some request.runId
        lastAttemptAt := some request.finishedAt
        lastError := some e } := by
  simp only [publishFailedCoverage] at h
  split at h
  · exact Or.inl h
  · split at h
    · split at h
      · exact Or.inr ⟨_, Or.inl ⟨‹_›, (Option.some.inj h).symm⟩⟩
      · exact Or.inr ⟨_, Or.inr ⟨_, ‹_›, (Option.some.inj h).symm⟩⟩
    · exact Or.inl h

end Db

end NycPropertyResolver
