import Mathlib.Data.List.Sort
import Mathlib.Logic.Function.Basic
import NycPropertyResolver.Domain.Schema

/-!
# Ingestion — repositories

`ingestion-run.repository.ts` and `ingestion-batch.repository.ts`: the single statements on
`ingestion_runs` and `ingestion_batches`, with their `WHERE` conditions and the constraints of the
migrations they can meet.
-/

namespace NycPropertyResolver

open Library

variable {Row : Type}

/-! ### Runs -/

/-- `status IN ('QUEUED', 'RUNNING')`. -/
def IngestionRun.isActive (run : IngestionRun) : Bool :=
  run.status = .queued || run.status = .running

namespace Db

/-- `findActive`: the first active run by id. -/
def findActive (db : Db Row) : Option (RunId × IngestionRun) :=
  ((db.runs.rows.filter fun r => r.2.isActive).insertionSort fun r r' => r.1 ≤ r'.1).head?

/-- The row `createQueued` inserts. -/
def queuedRun (triggerType : IngestionTriggerType) : IngestionRun where
  dataset := .dobEcbViolations
  status := .queued
  triggerType := triggerType
  initializationComplete := false
  expectedPropertyBinCount := none
  expectedBinCount := none
  expectedBatchCount := none
  failureStage := none
  lastError := none
  startedAt := none
  finishedAt := none
  sourceWatermarkAtStart := none
  sourceWatermarkAtEnd := none

/-- `createQueued`, with the primary key and the partial unique index
`ingestion_runs_one_active_per_dataset_idx`. -/
def createQueued (db : Db Row) (runId : RunId) (triggerType : IngestionTriggerType) :
    Except ServiceError (Db Row) := do
  ensure ((db.runs.rows.all fun r => !r.2.isActive) = true)
    "Unique constraint failed on the fields: (dataset)"
  let runs ← require (db.runs.insert runId (queuedRun triggerType))
    "Unique constraint failed on the fields: (id)"
  .ok { db with runs := runs }

/-- `markInitialized`: the conditional update, and the run it leaves. -/
def markInitialized (db : Db Row) (runId : RunId)
    (expectedPropertyBinCount expectedBinCount expectedBatchCount : Nat) :
    Except ServiceError (Db Row × IngestionRun) := do
  let run ← require (db.runs.find runId)
    s!"Ingestion run repository: run {runId} was already initialized or does not exist"
  ensure (run.initializationComplete = false)
    s!"Ingestion run repository: run {runId} was already initialized or does not exist"
  let run' := { run with
    expectedPropertyBinCount := some expectedPropertyBinCount
    expectedBinCount := some expectedBinCount
    expectedBatchCount := some expectedBatchCount
    initializationComplete := true }
  .ok ({ db with runs := db.runs.modify runId fun _ => run' }, run')

/-- `setStartWatermarkAndRunning`: the start watermark is persisted together with the transition
from QUEUED to RUNNING. -/
def setStartWatermarkAndRunning (db : Db Row) (runId : RunId)
    (sourceWatermarkAtStart startedAt : Time) : Except ServiceError (Db Row) := do
  let run ← require (db.runs.find runId)
    s!"Ingestion run repository: run {runId} cannot transition to RUNNING; it may be uninitialized, already started, or missing"
  ensure (run.status = .queued ∧ run.initializationComplete = true ∧
      run.sourceWatermarkAtStart = none)
    s!"Ingestion run repository: run {runId} cannot transition to RUNNING; it may be uninitialized, already started, or missing"
  .ok { db with runs := db.runs.modify runId fun run => { run with
    sourceWatermarkAtStart := some sourceWatermarkAtStart
    status := .running
    startedAt := some startedAt } }

/-- `update(runId, { sourceWatermarkAtEnd })`. -/
def updateSourceWatermarkAtEnd (db : Db Row) (runId : RunId) (sourceWatermarkAtEnd : Time) : Db Row :=
  { db with runs := db.runs.modify runId fun run => { run with
    sourceWatermarkAtEnd := some sourceWatermarkAtEnd } }

/-! ### Batches -/

/-- Update of the batch with the given number. -/
def modifyBatch (db : Db Row) (runId : RunId) (batchNumber : Nat)
    (f : IngestionBatch → IngestionBatch) : Db Row :=
  { db with
    batches := Function.update db.batches runId
      ((db.batches runId).map fun b => if b.batchNumber = batchNumber then f b else b) }

/-- `findById`, by the batch's run and number. -/
def findBatch (db : Db Row) (runId : RunId) (batchNumber : Nat) : Option IngestionBatch :=
  (db.batches runId).find? fun b => b.batchNumber = batchNumber

/-- `incrementAttemptCount`. -/
def incrementAttemptCount (db : Db Row) (runId : RunId) (batchNumber : Nat) : Db Row :=
  db.modifyBatch runId batchNumber fun b => { b with attemptCount := b.attemptCount + 1 }

/-- `updateProgress(id, { status: RUNNING, lastError: null })`. -/
def startBatch (db : Db Row) (runId : RunId) (batchNumber : Nat) : Db Row :=
  db.modifyBatch runId batchNumber fun b => { b with status := .running, lastError := none }

/-- `updateProgress(id, { pagesFetched, rowsFetched })`. -/
def updateProgress (db : Db Row) (runId : RunId) (batchNumber pagesFetched rowsFetched : Nat) :
    Db Row :=
  db.modifyBatch runId batchNumber fun b =>
    { b with pagesFetched := pagesFetched, rowsFetched := rowsFetched }

/-- `markCompleted`. -/
def markCompleted (db : Db Row) (runId : RunId) (batchNumber pagesFetched rowsFetched : Nat)
    (now : Time) : Db Row :=
  db.modifyBatch runId batchNumber fun b =>
    { b with
      pagesFetched := pagesFetched
      rowsFetched := rowsFetched
      status := .completed
      completedAt := some now
      lastError := none }

/-- `markFailed`. -/
def markFailed (db : Db Row) (runId : RunId) (batchNumber : Nat) (lastError : String) :
    Except ServiceError (Db Row) := do
  ensure (isBlank lastError = false)
    "Ingestion batch repository: a failed batch must have a non-empty error"
  .ok (db.modifyBatch runId batchNumber fun b =>
    { b with status := .failed, lastError := some lastError })

/-! ### Lemmas -/

variable {db db' : Db Row} {runId : RunId} {run run' : IngestionRun}

theorem isActive_iff : run.isActive = true ↔ run.status = .queued ∨ run.status = .running := by
  simp [IngestionRun.isActive]

/-- The run found active is a row of the table, and active. -/
theorem findActive_eq_some (h : db.findActive = some (runId, run)) :
    db.runs.find runId = some run ∧ run.isActive = true := by
  have hm := List.mem_of_mem_head? (Option.mem_def.mpr h)
  rw [(List.perm_insertionSort _ _).mem_iff, List.mem_filter, Table.mem_rows] at hm
  exact hm

/-- No active run is found only when there is none. -/
theorem findActive_eq_none (h : db.findActive = none) (hr : db.runs.find runId = some run) :
    run.isActive = false := by
  rw [findActive, List.head?_eq_none_iff] at h
  have hl := List.length_insertionSort (fun r r' : RunId × IngestionRun => r.1 ≤ r'.1)
    (db.runs.rows.filter fun r => r.2.isActive)
  rw [h, List.length_nil, eq_comm, List.length_eq_zero_iff, List.filter_eq_nil_iff] at hl
  simpa using hl _ (Table.mem_rows.mpr hr)

theorem createQueued_eq_ok {triggerType : IngestionTriggerType}
    (h : db.createQueued runId triggerType = .ok db') :
    (∀ id r, db.runs.find id = some r → r.isActive = false) ∧ db.runs.find runId = none ∧
      db' = { db with runs := db.runs.set runId (queuedRun triggerType) } := by
  rw [createQueued, ensure_bind_ok] at h
  obtain ⟨ha, h⟩ := h
  obtain ⟨runs, hr, h⟩ := require_bind_ok.mp h
  obtain ⟨hn, rfl⟩ := Table.insert_eq_some.mp hr
  cases h
  refine ⟨fun id r hid => ?_, hn, rfl⟩
  simpa using List.all_eq_true.mp ha _ (Table.mem_rows.mpr hid)

theorem markInitialized_eq_ok {n₁ n₂ n₃ : Nat}
    (h : db.markInitialized runId n₁ n₂ n₃ = .ok (db', run')) :
    ∃ run, db.runs.find runId = some run ∧ run.initializationComplete = false ∧
      run' = { run with
        expectedPropertyBinCount := some n₁
        expectedBinCount := some n₂
        expectedBatchCount := some n₃
        initializationComplete := true } ∧
      db' = { db with runs := db.runs.modify runId fun _ => run' } := by
  obtain ⟨run, hr, h⟩ := require_bind_ok.mp h
  obtain ⟨hi, h⟩ := ensure_bind_ok.mp h
  cases h
  exact ⟨run, hr, hi, rfl, rfl⟩

theorem setStartWatermarkAndRunning_eq_ok {w t : Time}
    (h : db.setStartWatermarkAndRunning runId w t = .ok db') :
    ∃ run, db.runs.find runId = some run ∧ run.status = .queued ∧
      run.initializationComplete = true ∧ run.sourceWatermarkAtStart = none ∧
      db' = { db with runs := db.runs.modify runId fun run => { run with
        sourceWatermarkAtStart := some w
        status := .running
        startedAt := some t } } := by
  obtain ⟨run, hr, h⟩ := require_bind_ok.mp h
  obtain ⟨⟨hs, hi, hw⟩, h⟩ := ensure_bind_ok.mp h
  cases h
  exact ⟨run, hr, hs, hi, hw, rfl⟩

theorem markFailed_eq_ok {n : Nat} {lastError : String}
    (h : db.markFailed runId n lastError = .ok db') :
    isBlank lastError = false ∧ db' = db.modifyBatch runId n fun b =>
      { b with status := .failed, lastError := some lastError } := by
  obtain ⟨hb, h⟩ := ensure_bind_ok.mp h
  cases h
  exact ⟨hb, rfl⟩

/-- An update of a batch, read back. -/
theorem findBatch_modifyBatch {n : Nat} {f : IngestionBatch → IngestionBatch}
    (hf : ∀ b, (f b).batchNumber = b.batchNumber) (r : RunId) (m : Nat) :
    (db.modifyBatch runId n f).findBatch r m =
      (db.findBatch r m).map fun b => if r = runId ∧ b.batchNumber = n then f b else b := by
  rw [findBatch, findBatch]
  by_cases hr : r = runId
  · subst hr
    have hnumber : ((fun b : IngestionBatch => decide (b.batchNumber = m)) ∘
        fun b => if b.batchNumber = n then f b else b) = fun b => decide (b.batchNumber = m) := by
      funext b
      rw [Function.comp_apply]
      split
      · rw [hf b]
      · rfl
    simp only [modifyBatch, Function.update_self, List.find?_map, hnumber, true_and]
  · simp only [modifyBatch, Function.update_of_ne hr, hr, false_and, if_false, Option.map_id']

theorem mem_modifyBatch {n : Nat} {f : IngestionBatch → IngestionBatch} {b : IngestionBatch} :
    b ∈ (db.modifyBatch runId n f).batches runId ↔
      ∃ b₀ ∈ db.batches runId, b = if b₀.batchNumber = n then f b₀ else b₀ := by
  simp [modifyBatch, eq_comm]

end Db

end NycPropertyResolver
