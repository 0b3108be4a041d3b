import NycPropertyResolver.Ingestion.NoHybrid

/-!
# Ingestion — writes of a status

The steps that mark a batch COMPLETED or move a run on: four of them, each of which has an authority
check after its last wait, and writes only if that check passes (`executorStep_statusWrites`).
-/

namespace NycPropertyResolver

open Library

variable {Row : Type} {config : ExecutorConfig} {service : EcbRowService Row} {a : Answer Row}
  {db db' : Db Row} {pc pc' : ExecutorState Row}

/-- When a batch was marked COMPLETED; `none` if it is not. -/
def Db.completion (db : Db Row) (runId : RunId) (batchNumber : Nat) : Option (Option Time) :=
  (db.findBatch runId batchNumber).bind fun b =>
    if b.status = .completed then some b.completedAt else none

/-- A batch was marked COMPLETED, or a run moved to RUNNING, COMPLETED, FAILED or SOURCE_CHANGED. -/
inductive StatusWrites (db db' : Db Row) : Prop where
  | batch {runId : RunId} {batchNumber : Nat} {completedAt : Option Time}
      (hafter : db'.completion runId batchNumber = some completedAt)
      (hbefore : db.completion runId batchNumber ≠ some completedAt) : StatusWrites db db'
  | run {runId : RunId} {run : IngestionRun} (hafter : db'.runs.find runId = some run)
      (hstatus : run.status ≠ .queued)
      (hbefore : (db.runs.find runId).map (·.status) ≠ some run.status) : StatusWrites db db'

/-- The position of the last authority check of a step that writes a status. -/
def ExecutorState.lastCheck : ExecutorState Row → Nat
  | .startWatermarkFetched _ _ => 0
  | .completingBatch _ => 1
  | .publishingTerminalFailure _ => 3
  | .readyForPublication _ => 4
  | _ => 0

/-- What the last authority check of such a step observes; the others make none. -/
def lastCheckPasses (a : Answer Row) : ExecutorState Row → Bool
  | .startWatermarkFetched _ _ => a.authorized 0
  | .completingBatch _ => a.authorized 1
  | .publishingTerminalFailure _ => a.publication.authorized 3
  | .readyForPublication _ => a.authorized 0 && a.publication.authorized 3
  | _ => false

theorem not_statusWrites_self (db : Db Row) : ¬ StatusWrites db db := by
  intro h
  cases h with
  | batch hafter hbefore => exact hbefore hafter
  | run hafter _ hbefore => exact hbefore (by rw [hafter, Option.map_some])

theorem statusWrites_ne (h : StatusWrites db db') : db' ≠ db := by
  rintro rfl
  exact not_statusWrites_self _ h

/-- Neither the runs nor the batches are written. -/
theorem not_statusWrites_of_eq (hruns : db'.runs = db.runs) (hbatches : db'.batches = db.batches) :
    ¬ StatusWrites db db' := by
  intro h
  cases h with
  | batch hafter hbefore =>
      rw [Db.completion, Db.findBatch, hbatches] at hafter
      exact hbefore hafter
  | run hafter _ hbefore =>
      rw [hruns] at hafter
      exact hbefore (by rw [hafter, Option.map_some])

/-- A batch after an update of one: it is completed only if it was, and then since when it was. -/
theorem not_statusWrites_modifyBatch {runId : RunId} {n : Nat} {f : IngestionBatch → IngestionBatch}
    (hnumber : ∀ b, (f b).batchNumber = b.batchNumber)
    (hf : ∀ b, (f b).status = .completed → b.status = .completed ∧ (f b).completedAt = b.completedAt) :
    ¬ StatusWrites db (db.modifyBatch runId n f) := by
  intro h
  cases h with
  | run hafter _ hbefore =>
      refine hbefore ?_
      show (db.runs.find _).map _ = _
      rw [show db.runs.find _ = _ from hafter, Option.map_some]
  | @batch r m completedAt hafter hbefore =>
      refine hbefore ?_
      rw [Db.completion, Db.findBatch_modifyBatch hnumber, Option.bind_map] at hafter
      obtain ⟨b, hb, hcompleted⟩ := Option.bind_eq_some_iff.mp hafter
      rw [Db.completion, hb, Option.bind_some]
      rw [Function.comp_apply] at hcompleted
      split at hcompleted
      · split at hcompleted
        · rename_i hstatus
          obtain ⟨hbefore, hsince⟩ := hf b hstatus
          rw [if_pos hbefore, ← hsince, hcompleted]
        · cases hcompleted
      · exact hcompleted

/-- A run after an update of one that leaves its status. -/
theorem not_statusWrites_modifyRun {runId : RunId} {f : IngestionRun → IngestionRun}
    (hf : ∀ run, db.runs.find runId = some run → (f run).status = run.status)
    (hruns : db'.runs = db.runs.modify runId f)
    (hbatches : ∀ r n completedAt, db'.completion r n = some completedAt →
      db.completion r n = some completedAt) : ¬ StatusWrites db db' := by
  intro h
  cases h with
  | batch hafter hbefore => exact hbefore (hbatches _ _ _ hafter)
  | @run r run' hafter _ hbefore =>
      refine hbefore ?_
      rw [hruns, Table.find_modify] at hafter
      split at hafter
      · rename_i hr
        obtain ⟨run, hrun, rfl⟩ := Option.map_eq_some_iff.mp hafter
        rw [hrun, Option.map_some, hf run (hr ▸ hrun)]
      · rw [hafter, Option.map_some]

theorem not_statusWrites_createQueued {runId : RunId} {triggerType : IngestionTriggerType}
    (h : db.createQueued runId triggerType = .ok db') : ¬ StatusWrites db db' := by
  obtain ⟨-, -, rfl⟩ := Db.createQueued_eq_ok h
  intro h
  cases h with
  | batch hafter hbefore => exact hbefore hafter
  | @run r run hafter hstatus hbefore =>
      change (db.runs.set runId (Db.queuedRun triggerType)).find r = some run at hafter
      rw [Table.find_set] at hafter
      split at hafter
      · cases hafter
        exact hstatus rfl
      · exact hbefore (by rw [hafter, Option.map_some])

theorem not_statusWrites_snapshot {runId : RunId} {rows : List IngestionRunPropertyBin}
    {batchSize pageSize : Nat} {run' : IngestionRun}
    (h : db.initializeRunSnapshotAndBatches runId rows batchSize pageSize = .ok (db', run')) :
    ¬ StatusWrites db db' := by
  obtain ⟨run, hrun, -, rfl, rfl⟩ := Db.initializeRunSnapshotAndBatches_eq_ok h
  refine not_statusWrites_modifyRun ?_ rfl ?_
  · intro run₀ hrun₀
    rw [hrun] at hrun₀
    cases hrun₀
    rfl
  · intro r n completedAt hafter
    obtain ⟨b, hb, hcompleted⟩ := Option.bind_eq_some_iff.mp hafter
    rw [Db.completion]
    by_cases hr : r = runId
    · -- the new batches are pending
      subst hr
      have hmem := List.mem_of_find?_eq_some hb
      change b ∈ Function.update db.batches r _ r at hmem
      rw [Function.update_self] at hmem
      obtain ⟨_, _, rfl, -⟩ := Db.mem_pendingBatches hmem
      cases hcompleted
    · change (Function.update db.batches runId _ r).find? _ = some b at hb
      rw [Function.update_of_ne hr] at hb
      rw [Db.findBatch, hb]
      exact hcompleted

theorem not_statusWrites_endWatermark {runId : RunId} {watermark : Time} :
    ¬ StatusWrites db (db.updateSourceWatermarkAtEnd runId watermark) :=
  not_statusWrites_modifyRun (f := fun run => { run with sourceWatermarkAtEnd := some watermark })
    (fun _ _ => rfl) rfl fun _ _ _ => id

theorem not_statusWrites_markFailed {runId : RunId} {n : Nat} {lastError : String}
    (h : db.markFailed runId n lastError = .ok db') : ¬ StatusWrites db db' := by
  rw [(Db.markFailed_eq_ok h).2]
  exact not_statusWrites_modifyBatch (fun _ => rfl) fun _ h => by cases h

theorem not_statusWrites_updateProgress {runId : RunId} {n pagesFetched rowsFetched : Nat} :
    ¬ StatusWrites db (db.updateProgress runId n pagesFetched rowsFetched) :=
  not_statusWrites_modifyBatch (fun _ => rfl) fun _ h => ⟨h, rfl⟩

/-- **The steps that write a status** are four. -/
theorem Effect.statusWrites (h : Effect config service a db pc db' pc') (hw : StatusWrites db db') :
    (∃ runId rowsUpdatedAt, pc = .startWatermarkFetched runId rowsUpdatedAt) ∨
      (∃ attempt, pc = .completingBatch attempt) ∨
      (∃ request, pc = .publishingTerminalFailure request) ∨
      ∃ runId, pc = .readyForPublication runId := by
  cases h with
  | runCreated h => exact absurd hw (not_statusWrites_createQueued h)
  | snapshotStored h => exact absurd hw (not_statusWrites_snapshot h)
  | runStarted => exact .inl ⟨_, _, rfl⟩
  | budgetExhausted _ _ _ h => exact absurd hw (not_statusWrites_markFailed h)
  | attemptCounted =>
      exact absurd hw (not_statusWrites_modifyBatch (fun _ => rfl) fun _ h => ⟨h, rfl⟩)
  | attemptStarted =>
      exact absurd hw (not_statusWrites_modifyBatch (fun _ => rfl) fun _ h => by cases h)
  | attemptInvalid =>
      exact absurd hw (not_statusWrites_modifyBatch (fun _ => rfl) fun _ h => by cases h)
  | pageFailed _ h => exact absurd hw (not_statusWrites_markFailed h)
  | rawPersisted =>
      obtain ⟨raw, hraw⟩ := Db.persistRaw_eq db
      refine absurd hw (not_statusWrites_of_eq ?_ ?_)
      · rw [hraw]
      · rw [hraw]
  | rowStaged => exact absurd hw (not_statusWrites_of_eq rfl rfl)
  | lastPage => exact absurd hw not_statusWrites_updateProgress
  | pageLimit => exact absurd hw not_statusWrites_updateProgress
  | nextPage => exact absurd hw not_statusWrites_updateProgress
  | batchCompleted => exact .inr (.inl ⟨_, rfl⟩)
  | pageLimitFailed h => exact absurd hw (not_statusWrites_markFailed h)
  | attemptClosed h => exact absurd hw (not_statusWrites_markFailed h)
  | terminalPublished => exact .inr (.inr (.inl ⟨_, rfl⟩))
  | endAccepted => exact absurd hw not_statusWrites_endWatermark
  | endRejected => exact absurd hw not_statusWrites_endWatermark
  | acceptedPublished => exact .inr (.inr (.inr ⟨_, rfl⟩))
  | _ => exact absurd hw (not_statusWrites_self db)

/-- **A step that writes a status has passed its last authority check.** -/
theorem executorStep_statusWrites (h : executorStep config service a db pc = some (db', pc'))
    (hw : StatusWrites db db') : lastCheckPasses a pc = true := by
  rcases (executorStep_effect h).statusWrites hw with
    ⟨runId, rowsUpdatedAt, rfl⟩ | ⟨attempt, rfl⟩ | ⟨request, rfl⟩ | ⟨runId, rfl⟩
  · simp only [executorStep, persistStartWatermark, Option.some.injEq] at h
    split at h
    · rename_i hauthorized
      exact hauthorized
    · cases h
      exact absurd hw (not_statusWrites_self db)
  · simp only [executorStep, completeBatch, Option.some.injEq] at h
    split at h
    · rename_i hauthorized
      rw [Bool.and_eq_true] at hauthorized
      exact hauthorized.2
    · cases h
      exact absurd hw (not_statusWrites_self db)
  · have hdb : (db.publishTerminalFailure a.publication request).1 = db' := by
      simp only [executorStep, publishTerminal, Option.some.injEq] at h
      split at h
      · rename_i hp
        rw [hp]
        split at h
        · cases h; rfl
        · cases h; rfl
      · rename_i hp
        rw [hp]
        cases h; rfl
    obtain ⟨run, -, -, -, -, -, -, hlast⟩ := publishTerminalFailure_changes (hdb ▸ statusWrites_ne hw)
    exact hlast
  · simp only [executorStep, publishAccepted, Option.some.injEq] at h
    split at h
    · rename_i hauthorized
      have hdb : (db.publish a.publication runId).1 = db' := by
        split at h
        · rename_i hp
          rw [hp]
          cases h; rfl
        · rename_i hp
          rw [hp]
          cases h; rfl
      obtain ⟨-, -, hchecks, -⟩ := publish_changes (hdb ▸ statusWrites_ne hw)
      rw [lastCheckPasses, hauthorized, hchecks 3 (by simp), Bool.true_and]
    · cases h
      exact absurd hw (not_statusWrites_self db)

end NycPropertyResolver
