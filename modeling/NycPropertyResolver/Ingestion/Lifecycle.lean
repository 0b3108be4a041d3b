import Mathlib.Logic.Relation
import NycPropertyResolver.Ingestion.System

/-!
# Ingestion — the life of a run

What holds of every run in every reachable state (`LifecycleInvariant`), and how a run may change
from one state to a later one (`RunsEvolve`).  The status moves along `CanBecome`, the start
watermark is written once, and an initialized run keeps its snapshot, its batch definitions and its
counts.  The conditional updates, the checks of the publications and the one lock holder carry the
invariant: the executor writes batches only for a run that is RUNNING (`Knows`).
-/

namespace NycPropertyResolver

open Library

variable {Row : Type} {config : ExecutorConfig} {service : EcbRowService Row}

/-! ### Statements -/

/-- The edges a status moves along. -/
inductive CanBecome : IngestionRunStatus → IngestionRunStatus → Prop where
  | start : CanBecome .queued .running
  | failQueued : CanBecome .queued .failed
  | complete : CanBecome .running .completed
  | fail : CanBecome .running .failed
  | reject : CanBecome .running .sourceChanged

/-- What holds of a run with the given snapshot and batches. -/
structure RunInvariant (snapshot : List IngestionRunPropertyBin) (batches : List IngestionBatch)
    (run : IngestionRun) : Prop where
  started : run.status = .running ∨ run.status = .completed ∨ run.status = .sourceChanged →
    run.initializationComplete = true ∧ run.sourceWatermarkAtStart ≠ none
  partition : run.initializationComplete = true →
    (batches.map (·.batchDefinition.bins)).flatten = (Db.distinctBins snapshot).toList
  counts : run.initializationComplete = true →
    run.expectedPropertyBinCount = some snapshot.length ∧
      run.expectedBinCount = some (Db.distinctBins snapshot).size ∧
      run.expectedBatchCount = some batches.length
  completed : run.status = .completed →
    run.sourceWatermarkAtEnd = run.sourceWatermarkAtStart ∧ run.sourceWatermarkAtStart ≠ none ∧
      ∀ b ∈ batches, b.status = .completed ∧ b.completedAt ≠ none ∧ b.lastError = none

/-- **The lifecycle invariant**: at most one run is active, and each run satisfies its own. -/
structure LifecycleInvariant (db : Db Row) : Prop where
  oneActive : ∀ r r' run run', db.runs.find r = some run → db.runs.find r' = some run' →
    run.isActive = true → run'.isActive = true → r = r'
  runs : ∀ r run, db.runs.find r = some run → RunInvariant (db.snapshot r) (db.batches r) run

/-- How a run may change, with the status moving along `move`. -/
structure RunEvolves (move : IngestionRunStatus → IngestionRunStatus → Prop) (db db' : Db Row)
    (r : RunId) (run run' : IngestionRun) : Prop where
  status : move run.status run'.status
  watermark : run.sourceWatermarkAtStart ≠ none →
    run'.sourceWatermarkAtStart = run.sourceWatermarkAtStart
  initialized : run.initializationComplete = true → run'.initializationComplete = true ∧
    run'.expectedPropertyBinCount = run.expectedPropertyBinCount ∧
    run'.expectedBinCount = run.expectedBinCount ∧
    run'.expectedBatchCount = run.expectedBatchCount ∧
    db'.snapshot r = db.snapshot r ∧
    (db'.batches r).map (·.batchDefinition) = (db.batches r).map (·.batchDefinition)

/-- No run is lost, and each changes as it may. -/
def RunsEvolve (move : IngestionRunStatus → IngestionRunStatus → Prop) (db db' : Db Row) : Prop :=
  ∀ r run, db.runs.find r = some run →
    ∃ run', db'.runs.find r = some run' ∧ RunEvolves move db db' r run run'

/-- The status stays, or moves along one edge. -/
abbrev OneMove (status status' : IngestionRunStatus) : Prop :=
  status' = status ∨ CanBecome status status'

/-! ### Evolution -/

theorem RunEvolves.refl {move : IngestionRunStatus → IngestionRunStatus → Prop}
    (hm : ∀ status, move status status) {db db' : Db Row} {r : RunId} {run : IngestionRun}
    (hs : db'.snapshot r = db.snapshot r)
    (hb : (db'.batches r).map (·.batchDefinition) = (db.batches r).map (·.batchDefinition)) :
    RunEvolves move db db' r run run :=
  ⟨hm _, fun _ => rfl, fun hi => ⟨hi, rfl, rfl, rfl, hs, hb⟩⟩

theorem RunsEvolve.trans {db db₁ db₂ : Db Row}
    (h₁ : RunsEvolve (Relation.ReflTransGen CanBecome) db db₁)
    (h₂ : RunsEvolve (Relation.ReflTransGen CanBecome) db₁ db₂) :
    RunsEvolve (Relation.ReflTransGen CanBecome) db db₂ := by
  intro r run hr
  obtain ⟨run₁, hr₁, e₁⟩ := h₁ r run hr
  obtain ⟨run₂, hr₂, e₂⟩ := h₂ r run₁ hr₁
  refine ⟨run₂, hr₂, e₁.status.trans e₂.status, fun hw => ?_, fun hi => ?_⟩
  · have hw₁ := e₁.watermark hw
    rw [e₂.watermark (hw₁ ▸ hw), hw₁]
  · obtain ⟨hi₁, a₁, b₁, c₁, s₁, d₁⟩ := e₁.initialized hi
    obtain ⟨hi₂, a₂, b₂, c₂, s₂, d₂⟩ := e₂.initialized hi₁
    exact ⟨hi₂, a₂.trans a₁, b₂.trans b₁, c₂.trans c₁, s₂.trans s₁, d₂.trans d₁⟩

theorem RunsEvolve.ofOne {db db' : Db Row} (h : RunsEvolve OneMove db db') :
    RunsEvolve (Relation.ReflTransGen CanBecome) db db' := by
  intro r run hr
  obtain ⟨run', hr', e⟩ := h r run hr
  refine ⟨run', hr', ?_, e.watermark, e.initialized⟩
  rcases e.status with hs | hs
  · rw [hs]
  · exact .single hs

theorem not_canBecome_queued {status : IngestionRunStatus} : ¬ CanBecome status .queued := nofun

/-- Each edge leaves an active status. -/
theorem CanBecome.active {status status' : IngestionRunStatus} (h : CanBecome status status') :
    status = .queued ∨ status = .running := by
  cases h <;> simp

/-- No edge leaves a terminal status. -/
theorem terminal_of_moves {status status' : IngestionRunStatus}
    (h : Relation.ReflTransGen CanBecome status status')
    (ht : status ≠ .queued ∧ status ≠ .running) : status' = status := by
  rcases Relation.ReflTransGen.cases_head h with e | ⟨_, hs, -⟩
  · exact e.symm
  · exact absurd hs.active (not_or.mpr ht)

/-! ### Batches -/

/-- A batch update changes no definition. -/
theorem definitions_modifyBatch {db : Db Row} {runId r : RunId} {n : Nat}
    {f : IngestionBatch → IngestionBatch} (hf : KeepsDefinition f) :
    ((db.modifyBatch runId n f).batches r).map (·.batchDefinition) =
      (db.batches r).map (·.batchDefinition) := by
  by_cases e : r = runId
  · subst e
    simp only [Db.modifyBatch, Function.update_self, List.map_map]
    refine List.map_congr_left fun b _ => ?_
    simp only [Function.comp_apply]
    split
    · exact (hf b).2
    · rfl
  · simp only [Db.modifyBatch, Function.update_of_ne e]

theorem RunInvariant.definitions {snapshot : List IngestionRunPropertyBin}
    {batches batches' : List IngestionBatch} {run : IngestionRun}
    (h : RunInvariant snapshot batches run) (hs : run.status ≠ .completed)
    (hb : batches'.map (·.batchDefinition) = batches.map (·.batchDefinition)) :
    RunInvariant snapshot batches' run where
  started := h.started
  partition hi := by
    have e := congrArg (fun ds => (ds.map IngestionBatchDefinition.bins).flatten) hb
    simp only [List.map_map] at e
    exact e.trans (h.partition hi)
  counts hi := by
    have e := congrArg List.length hb
    simp only [List.length_map] at e
    rw [e]
    exact h.counts hi
  completed hc := absurd hc hs

/-! ### One write -/

/-- What a write has to establish. -/
structure Kept (db db' : Db Row) : Prop where
  invariant : LifecycleInvariant db'
  evolve : RunsEvolve OneMove db db'

/-- A write that leaves the runs and their snapshots alone, the definitions of every batch, and the
batches of every run that is COMPLETED. -/
theorem Kept.frame {db db' : Db Row} (h : LifecycleInvariant db) (hr : db'.runs = db.runs)
    (hs : db'.snapshot = db.snapshot)
    (hd : ∀ r, (db'.batches r).map (·.batchDefinition) = (db.batches r).map (·.batchDefinition))
    (hb : ∀ r run, db.runs.find r = some run → run.status = .completed →
      db'.batches r = db.batches r) : Kept db db' where
  invariant := by
    refine ⟨by rw [hr]; exact h.oneActive, fun r run hfind => ?_⟩
    rw [hr] at hfind
    rw [hs]
    by_cases hc : run.status = .completed
    · rw [hb r run hfind hc]; exact h.runs r run hfind
    · exact (h.runs r run hfind).definitions hc (hd r)
  evolve r run hfind :=
    ⟨run, by rw [hr, hfind], .refl (fun _ => Or.inl rfl) (by rw [hs]) (hd r)⟩

/-- A write to one run: its new row satisfies the invariant, is active only if the old one was, and
has changed as it may. -/
theorem Kept.modify {db db' : Db Row} (h : LifecycleInvariant db) {runId : RunId}
    {f : IngestionRun → IngestionRun} {run : IngestionRun} (hfind : db.runs.find runId = some run)
    (hr : db'.runs = db.runs.modify runId f)
    (hs : ∀ r, r ≠ runId → db'.snapshot r = db.snapshot r)
    (hb : ∀ r, r ≠ runId → db'.batches r = db.batches r)
    (ha : (f run).isActive = true → run.isActive = true)
    (hf : RunInvariant (db'.snapshot runId) (db'.batches runId) (f run))
    (he : RunEvolves OneMove db db' runId run (f run)) : Kept db db' where
  invariant := by
    have active : ∀ {r run'}, db'.runs.find r = some run' → run'.isActive = true →
        ∃ run₀, db.runs.find r = some run₀ ∧ run₀.isActive = true := fun {r run'} hr' ha' => by
      rw [hr, Table.find_modify] at hr'
      split at hr'
      · rename_i e
        subst e
        rw [hfind] at hr'
        cases hr'
        exact ⟨run, hfind, ha ha'⟩
      · exact ⟨run', hr', ha'⟩
    refine ⟨fun r r' run₁ run₂ h₁ h₂ a₁ a₂ => ?_, fun r run' hr' => ?_⟩
    · obtain ⟨_, h₁, a₁⟩ := active h₁ a₁
      obtain ⟨_, h₂, a₂⟩ := active h₂ a₂
      exact h.oneActive r r' _ _ h₁ h₂ a₁ a₂
    · rw [hr, Table.find_modify] at hr'
      split at hr'
      · rename_i e
        subst e
        rw [hfind] at hr'
        cases hr'
        exact hf
      · rename_i e
        rw [hs r e, hb r e]
        exact h.runs r run' hr'
  evolve := by
    intro r run₀ hr₀
    rw [hr, Table.find_modify]
    by_cases e : r = runId
    · subst e
      rw [hfind] at hr₀
      cases hr₀
      exact ⟨f run, by rw [if_pos rfl, hfind]; rfl, he⟩
    · exact ⟨run₀, by rw [if_neg e, hr₀], .refl (fun _ => Or.inl rfl) (hs r e) (by rw [hb r e])⟩

/-! ### The writes -/

section Writes

variable {db db' : Db Row} {runId : RunId}

theorem kept_createQueued {triggerType : IngestionTriggerType} (hI : LifecycleInvariant db)
    (h : db.createQueued runId triggerType = .ok db') : Kept db db' := by
  obtain ⟨ha, hn, rfl⟩ := Db.createQueued_eq_ok h
  refine ⟨⟨fun r r' run run' h₁ h₂ a₁ a₂ => ?_, fun r run hr => ?_⟩, fun r run hr => ?_⟩
  · simp only [Table.find_set] at h₁ h₂
    split at h₁ <;> split at h₂
    · simp [*]
    · rw [ha r' run' h₂] at a₂; cases a₂
    · rw [ha r run h₁] at a₁; cases a₁
    · rw [ha r run h₁] at a₁; cases a₁
  · simp only [Table.find_set] at hr
    split at hr
    · cases hr
      exact ⟨by simp [Db.queuedRun], by simp [Db.queuedRun], by simp [Db.queuedRun],
        by simp [Db.queuedRun]⟩
    · exact hI.runs r run hr
  · have e : r ≠ runId := by
      rintro rfl
      rw [hn] at hr
      cases hr
    exact ⟨run, by simp only [Table.find_set, if_neg e, hr], .refl (fun _ => Or.inl rfl) rfl rfl⟩

/-- The snapshot and the batches are stored with the counts that describe them. -/
theorem kept_snapshotStored {rows : List IngestionRunPropertyBin} {run' : IngestionRun}
    (hI : LifecycleInvariant db)
    (h : db.initializeRunSnapshotAndBatches runId rows config.ecbBatchSize
      config.socrataPageSize = .ok (db', run')) : Kept db db' := by
  obtain ⟨run, hr, hi, hrun, rfl⟩ := Db.initializeRunSnapshotAndBatches_eq_ok h
  -- an uninitialized run was never started
  have hs : ¬ (run.status = .running ∨ run.status = .completed ∨ run.status = .sourceChanged) :=
    fun hs => by simpa [hi] using ((hI.runs runId run hr).started hs).1
  subst hrun
  refine Kept.modify hI hr rfl (fun r e => ?_) (fun r e => ?_) id ?_ ?_
  · simp only [Function.update_of_ne e]
  · simp only [Function.update_of_ne e]
  · simp only [Function.update_self]
    refine ⟨fun hs' => absurd hs' hs, fun _ => ?_, fun _ => ?_,
      fun hc => absurd (Or.inr (Or.inl hc)) hs⟩
    · have e := Db.flatten_buildBatchDefinitions (Db.distinctBins rows).toList
        config.socrataPageSize config.ecbBatchSize_pos
      rw [← Db.pendingBatches_map_definition (buildBatchDefinitions _ _ _), List.map_map] at e
      exact e
    · exact ⟨rfl, rfl, by rw [Db.length_pendingBatches]⟩
  · exact ⟨Or.inl rfl, fun _ => rfl, fun h => by simp [hi] at h⟩

theorem kept_start {watermark now : Time} (hI : LifecycleInvariant db)
    (h : db.setStartWatermarkAndRunning runId watermark now = .ok db') : Kept db db' := by
  obtain ⟨run, hr, hs, hi, hw, rfl⟩ := Db.setStartWatermarkAndRunning_eq_ok h
  have h₀ := hI.runs _ run hr
  exact Kept.modify hI hr rfl (fun _ _ => rfl) (fun _ _ => rfl)
    (fun _ => Db.isActive_iff.mpr (Or.inl hs))
    ⟨fun _ => ⟨hi, by simp⟩, h₀.partition, h₀.counts, fun hc => by simp at hc⟩
    ⟨Or.inr (hs ▸ .start), fun h => absurd hw h, fun _ => ⟨hi, rfl, rfl, rfl, rfl, rfl⟩⟩

/-- A batch is written only for a run that is RUNNING. -/
theorem kept_modifyBatch {n : Nat} {f : IngestionBatch → IngestionBatch}
    (hI : LifecycleInvariant db) (hr : IsRunning db runId) (hf : KeepsDefinition f) :
    Kept db (db.modifyBatch runId n f) := by
  obtain ⟨run, hr, hs, -⟩ := hr
  refine Kept.frame hI rfl rfl (fun r => definitions_modifyBatch hf) fun r run' hr' hc => ?_
  have e : r ≠ runId := by
    rintro rfl
    rw [hr] at hr'
    cases hr'
    rw [hs] at hc
    cases hc
  simp only [Db.modifyBatch, Function.update_of_ne e]

theorem kept_updateEnd {watermark : Time} (hI : LifecycleInvariant db) (hr : IsRunning db runId) :
    Kept db (db.updateSourceWatermarkAtEnd runId watermark) := by
  obtain ⟨run, hr, hs, hi, hw⟩ := hr
  have h₀ := hI.runs _ run hr
  exact Kept.modify hI hr rfl (fun _ _ => rfl) (fun _ _ => rfl) id
    ⟨h₀.started, h₀.partition, h₀.counts, fun hc => by simp [hs] at hc⟩
    ⟨Or.inl rfl, fun _ => rfl, fun h => ⟨h, rfl, rfl, rfl, rfl, rfl⟩⟩

/-- SOURCE_CHANGED is published only for a RUNNING run, FAILED for any active one. -/
theorem kept_publishTerminalFailure {request : IngestionTerminalPublicationRequest}
    {answer : PublicationAnswer} (hI : LifecycleInvariant db)
    (h : db.publishTerminalFailure answer request = (db', .ok ())) : Kept db db' := by
  obtain ⟨hv, h⟩ := Db.publishTerminalFailure_ok h
  obtain ⟨hst, -, -⟩ := Db.validate_eq_ok hv
  obtain ⟨run, coverage, hr, ha, hsc, rfl⟩ := Db.terminalTransaction_frame h
  have h₀ := hI.runs _ run hr
  have hmove : CanBecome run.status request.status := by
    rcases hst with hst | hst
    · rcases Db.isActive_iff.mp ha with hs | hs
      · rw [hst, hs]; exact .failQueued
      · rw [hst, hs]; exact .fail
    · rw [hst, (hsc hst).1]; exact .reject
  refine Kept.modify hI hr rfl (fun _ _ => rfl) (fun _ _ => rfl) (fun _ => ha)
    ⟨fun hs => ?_, h₀.partition, h₀.counts, fun hc => ?_⟩
    ⟨Or.inr hmove, fun _ => rfl, fun h => ⟨h, rfl, rfl, rfl, rfl, rfl⟩⟩
  · refine (hsc ?_).2
    rcases hst with hst | hst
    · simp [Db.terminalRun, hst] at hs
    · exact hst
  · rcases hst with hst | hst <;> simp [Db.terminalRun, hst] at hc

/-- COMPLETED is published only for a run whose watermarks agree and whose batches are all done. -/
theorem kept_publish {answer : PublicationAnswer} {outcome : AcceptedPublicationOutcome}
    (hI : LifecycleInvariant db) (h : db.publish answer runId = (db', .ok outcome)) :
    Kept db db' := by
  rcases Db.acceptedTransaction_frame (Db.publish_ok h) with rfl | ⟨run, live, coverage, hp, hb, rfl⟩
  · exact Kept.frame hI rfl rfl (fun _ => rfl) fun _ _ _ _ => rfl
  have h₀ := hI.runs _ run hp.found
  refine Kept.modify hI hp.found rfl (fun _ _ => rfl) (fun _ _ => rfl)
    (fun _ => Db.isActive_iff.mpr (Or.inr hp.running))
    ⟨fun _ => ⟨hp.initialized, hp.watermark⟩, h₀.partition, h₀.counts,
      fun _ => ⟨hp.guard.symm, hp.watermark, fun b hm => ⟨hp.batches b hm, hb b hm⟩⟩⟩
    ⟨Or.inr ?_, fun _ => rfl, fun h => ⟨h, rfl, rfl, rfl, rfl, rfl⟩⟩
  rw [hp.running]
  exact .complete

/-- **One write keeps the invariant, and every run changes as it may.** -/
theorem kept_write {a : Answer Row} {pc : ExecutorState Row} (hI : LifecycleInvariant db)
    (hK : Knows db pc) (h : Write config a db pc db') : Kept db db' := by
  cases h with
  | nothing => exact Kept.frame hI rfl rfl (fun _ => rfl) fun _ _ _ _ => rfl
  | runCreated h => exact kept_createQueued hI h
  | snapshotStored _ h => exact kept_snapshotStored hI h
  | runStarted _ h => exact kept_start hI h
  | batchUpdated hpc hf =>
      exact kept_modifyBatch hI (hK.running _ (runningRun?_of_batch? hpc)) hf
  | rawPersisted => exact Kept.frame hI rfl rfl (fun _ => rfl) fun _ _ _ _ => rfl
  | rowStaged => exact Kept.frame hI rfl rfl (fun _ => rfl) fun _ _ _ _ => rfl
  | endPersisted hpc => exact kept_updateEnd hI (hK.running _ (by rw [hpc]; rfl))
  | terminalPublished _ h => exact kept_publishTerminalFailure hI h
  | acceptedPublished _ h => exact kept_publish hI h

end Writes

/-! ### What the executor knows -/

section Knowledge

variable {a : Answer Row} {db db' : Db Row} {pc pc' : ExecutorState Row} {runId : RunId}

theorem IsRunning.of_runs (h : IsRunning db runId) (hr : db'.runs = db.runs) :
    IsRunning db' runId :=
  ⟨by rw [hr]; exact h.found⟩

theorem IsRunning.of_modify {f : IngestionRun → IngestionRun} {run : IngestionRun}
    (hfind : db.runs.find runId = some run) (hr : db'.runs = db.runs.modify runId f)
    (hf : (f run).status = .running ∧ (f run).initializationComplete = true ∧
      (f run).sourceWatermarkAtStart ≠ none) : IsRunning db' runId :=
  ⟨f run, by rw [hr, Table.find_modify_self, hfind]; rfl, hf⟩

theorem LifecycleInvariant.isRunning (h : LifecycleInvariant db) {run : IngestionRun}
    (hr : db.runs.find runId = some run) (hs : run.status = .running) : IsRunning db runId :=
  ⟨run, hr, hs, (h.runs runId run hr).started (Or.inl hs)⟩

/-- A state that works on no RUNNING run. -/
theorem Knows.idle (h : pc.runningRun? = none) (hr : Remembers db pc) : Knows db pc :=
  ⟨fun _ e => (by rw [h] at e; cases e), hr⟩

/-- A state that works on a RUNNING run. -/
theorem Knows.of_isRunning (h : IsRunning db runId) (hp : pc.runningRun? = some runId)
    (hr : Remembers db pc) : Knows db pc :=
  ⟨fun _ e => (by rw [hp] at e; cases e; exact h), hr⟩

/-- What an execution knows does not depend on the properties. -/
theorem Knows.of_runs (h : Knows db pc) (hr : db'.runs = db.runs) : Knows db' pc := by
  refine ⟨fun runId e => (h.running runId e).of_runs hr, ?_⟩
  have hm := h.remembers
  cases pc <;> simp only [Remembers, hr] at hm ⊢ <;> exact hm

/-- **A step leaves the executor with what it takes for granted.** -/
theorem knows_effect (hI : LifecycleInvariant db) (hK : Knows db pc)
    (h : Effect config service a db pc db' pc') : Knows db' pc' := by
  cases h with
  | stop => exact .idle rfl trivial
  | noActiveRun => exact .idle rfl trivial
  | foundQueued => exact .idle rfl trivial
  | foundRunning h hs =>
      have hr := (Db.findActive_eq_some h).1
      exact .of_isRunning (hI.isRunning hr hs) rfl hr
  | runCreated => exact .idle rfl trivial
  | alreadyRunning h hs => exact .of_isRunning (hI.isRunning h hs) rfl trivial
  | alreadyInitialized h => exact .idle rfl h
  | uninitialized => exact .idle rfl trivial
  | binsLoaded => exact .idle rfl trivial
  | versionsLoaded => exact .idle rfl trivial
  | snapshotStored h =>
      obtain ⟨run, hr, -, -, rfl⟩ := Db.initializeRunSnapshotAndBatches_eq_ok h
      exact .idle rfl (by simp [Remembers, hr])
  | startWatermarkFetched => exact .idle rfl trivial
  | startWatermarkFailed => exact .idle rfl trivial
  | runStarted h =>
      obtain ⟨run, hr, -, hi, -, rfl⟩ := Db.setStartWatermarkAndRunning_eq_ok h
      exact .of_isRunning (.of_modify hr rfl ⟨rfl, hi, by simp⟩) rfl trivial
  | failureRecovered => exact .idle rfl trivial
  | recoveredReady => exact .of_isRunning (hK.running _ rfl) rfl trivial
  | recoveredOpen => exact .of_isRunning (hK.running _ rfl) rfl hK.remembers
  | resumeAccepted => exact .of_isRunning (hK.running _ rfl) rfl trivial
  | resumeRejected => exact .idle rfl trivial
  | batchesDone => exact .of_isRunning (hK.running _ rfl) rfl trivial
  | batchExhausted => exact .idle rfl trivial
  | batchSelected => exact .of_isRunning (hK.running _ rfl) rfl trivial
  | batchAlreadyCompleted => exact .of_isRunning (hK.running _ rfl) rfl trivial
  | budgetExhausted _ _ _ h =>
      rw [(Db.markFailed_eq_ok h).2]
      exact .of_isRunning ((hK.running _ rfl).of_runs rfl) rfl trivial
  | attemptCounted => exact .of_isRunning ((hK.running _ rfl).of_runs rfl) rfl trivial
  | attemptStarted => exact .of_isRunning ((hK.running _ rfl).of_runs rfl) rfl trivial
  | attemptInvalid => exact .idle rfl trivial
  | pageFetched => exact .of_isRunning ((hK.running _ rfl).of_runs rfl) rfl trivial
  | pageFailed _ h =>
      rw [(Db.markFailed_eq_ok h).2]
      exact .of_isRunning ((hK.running _ rfl).of_runs rfl) rfl trivial
  | attemptThrew h =>
      exact .of_isRunning (hK.running _ (runningRun?_of_attempt? h)) rfl trivial
  | rawPersisted =>
      obtain ⟨raw, hraw⟩ := Db.persistRaw_eq db
      rw [hraw]
      exact .of_isRunning ((hK.running _ rfl).of_runs rfl) rfl trivial
  | rowStaged => exact .of_isRunning ((hK.running _ rfl).of_runs rfl) rfl trivial
  | lastPage => exact .of_isRunning ((hK.running _ rfl).of_runs rfl) rfl trivial
  | pageLimit => exact .of_isRunning ((hK.running _ rfl).of_runs rfl) rfl trivial
  | nextPage => exact .of_isRunning ((hK.running _ rfl).of_runs rfl) rfl trivial
  | batchCompleted => exact .of_isRunning ((hK.running _ rfl).of_runs rfl) rfl trivial
  | pageLimitFailed h =>
      rw [(Db.markFailed_eq_ok h).2]
      exact .of_isRunning ((hK.running _ rfl).of_runs rfl) rfl trivial
  | attemptClosed h =>
      rw [(Db.markFailed_eq_ok h).2]
      exact .of_isRunning ((hK.running _ rfl).of_runs rfl) rfl trivial
  | outcomeHandedOver => exact .idle rfl trivial
  | terminalPublished => exact .idle rfl trivial
  | endWatermarkFetched hr hw =>
      exact .of_isRunning (hK.running _ rfl) rfl (by simp [Remembers, hr, hw])
  | endAccepted =>
      obtain ⟨run, hr, hs, hi, hw⟩ := hK.running _ rfl
      exact .of_isRunning (.of_modify hr rfl ⟨hs, hi, hw⟩) rfl trivial
  | endRejected _ hp =>
      rcases hp with rfl | ⟨outcome, rfl⟩
      · exact .idle rfl trivial
      · exact .idle rfl trivial
  | acceptedPublished => exact .idle rfl trivial

end Knowledge

/-! ### Runs of the system -/

/-- The invariant of a state of the system. -/
structure SystemInvariant (s : SystemState Row) : Prop where
  lifecycle : LifecycleInvariant s.db
  knows : Knows s.db s.executor

variable {s s' : SystemState Row}

theorem systemInvariant_initial : SystemInvariant (SystemState.initial : SystemState Row) where
  lifecycle := ⟨fun _ _ _ _ h => (nomatch h), fun _ _ h => (nomatch h)⟩
  knows := .idle rfl trivial

/-- Only properties, their BINs and their coverage differ. -/
def IdentityFrame (db db' : Db Row) : Prop :=
  ∃ properties propertyBins coverage, db' = { db with
    properties := properties
    propertyBins := propertyBins
    coverage := coverage }

theorem IdentityFrame.runs {db db' : Db Row} (h : IdentityFrame db db') : db'.runs = db.runs := by
  obtain ⟨_, _, _, rfl⟩ := h
  rfl

theorem IdentityFrame.kept {db db' : Db Row} (h : IdentityFrame db db') (hI : LifecycleInvariant db) :
    Kept db db' := by
  obtain ⟨_, _, _, rfl⟩ := h
  exact Kept.frame hI rfl rfl (fun _ => rfl) fun _ _ _ _ => rfl

theorem createProperty_frame {db db' : Db Row} {p : PropertyId} {input : CreatePropertyInput}
    {now : Time} (h : db.createProperty p input now = .ok db') : IdentityFrame db db' := by
  obtain ⟨_, _, -, -, -, -, -, rfl⟩ := Db.createProperty_eq_ok h
  exact ⟨_, _, _, rfl⟩

theorem applyEffectiveBinSet_frame {db db' : Db Row} {p : PropertyId} {candidateBins : List String}
    {r : ApplyEffectiveBinSetResult} (h : db.applyEffectiveBinSet p candidateBins = .ok (db', r)) :
    IdentityFrame db db' := by
  obtain ⟨-, ⟨-, rfl, -⟩ | ⟨-, -, rfl⟩⟩ := Db.applyEffectiveBinSet_eq_ok h
  · exact ⟨db'.properties, db'.propertyBins, db'.coverage, rfl⟩
  · exact ⟨_, _, _, rfl⟩

/-- **One event keeps the invariant, and every run changes as it may.** -/
theorem systemInvariant_next {ev : Event Row} (hI : SystemInvariant s)
    (h : next config service s ev = some s') :
    SystemInvariant s' ∧ RunsEvolve OneMove s.db s'.db := by
  have ht := next_turn h
  clear h
  have hsame : Kept s.db s.db := Kept.frame hI.lifecycle rfl rfl (fun _ => rfl) fun _ _ _ _ => rfl
  cases ht with
  | acquired => exact ⟨⟨hI.lifecycle, .idle rfl trivial⟩, hsame.evolve⟩
  | stepped h =>
      have hk := kept_write hI.lifecycle hI.knows h.write
      exact ⟨⟨hk.invariant, knows_effect hI.lifecycle hI.knows h⟩, hk.evolve⟩
  | crashed => exact ⟨⟨hI.lifecycle, .idle rfl trivial⟩, hsame.evolve⟩
  | created h =>
      have hf := createProperty_frame h
      exact ⟨⟨(hf.kept hI.lifecycle).invariant, hI.knows.of_runs hf.runs⟩,
        (hf.kept hI.lifecycle).evolve⟩
  | applied h =>
      have hf := applyEffectiveBinSet_frame h
      exact ⟨⟨(hf.kept hI.lifecycle).invariant, hI.knows.of_runs hf.runs⟩,
        (hf.kept hI.lifecycle).evolve⟩

theorem systemInvariant_of_steps {ok : SystemState Row → Event Row → Prop}
    (h : Steps (next config service) ok s s') (hI : SystemInvariant s) : SystemInvariant s' :=
  h.invariant (fun hI _ hs => (systemInvariant_next hI hs).1) hI

/-- **Run lifecycle.**  In every reachable state the lifecycle invariant holds; one event moves a
status along at most one edge; and over any further run no run is lost, the start watermark, once
set, and the snapshot, the batch definitions and the counts of an initialized run stay as they are,
and a terminal status stays. -/
theorem run_lifecycle (h : Reachable config service s) :
    LifecycleInvariant s.db ∧
      (∀ ev s', next config service s ev = some s' → RunsEvolve OneMove s.db s'.db) ∧
      ∀ s', Steps (next config service) (fun _ _ => True) s s' →
        RunsEvolve (Relation.ReflTransGen CanBecome) s.db s'.db ∧
        ∀ r run run', s.db.runs.find r = some run → run.isActive = false →
          s'.db.runs.find r = some run' → run'.status = run.status := by
  have hI := systemInvariant_of_steps h systemInvariant_initial
  refine ⟨hI.lifecycle, fun ev s' hs => (systemInvariant_next hI hs).2, fun s' hs => ?_⟩
  have he : RunsEvolve (Relation.ReflTransGen CanBecome) s.db s'.db :=
    Steps.history (I := SystemInvariant)
      (R := fun s s' => RunsEvolve (Relation.ReflTransGen CanBecome) s.db s'.db)
      (fun s r run hr => ⟨run, hr, .refl (fun _ => .refl) rfl rfl⟩) (fun h₁ h₂ => h₁.trans h₂)
      (fun hI _ hs => (systemInvariant_next hI hs).1)
      (fun hI _ hs => (systemInvariant_next hI hs).2.ofOne) hs hI
  refine ⟨he, fun r run run' hr ha hr' => ?_⟩
  obtain ⟨run₁, hr₁, e⟩ := he r run hr
  rw [hr'] at hr₁
  cases hr₁
  refine terminal_of_moves e.status ?_
  rwa [Bool.eq_false_iff, Ne, Db.isActive_iff, not_or] at ha

/-- A property is created, and one execution completes a run over it. -/
def completedRun : List (Event NormalizedEcbViolation) :=
  createSample 0 "1000010001" "1000001" :: .acquireLock .manual ::
    List.replicate 18 (.executor (quietAnswer 0 7 []))

theorem run_lifecycle_completedRun : ∃ s run, Reachable smallConfig plainService s ∧
    s.db.runs.find 0 = some run ∧ run.status = .completed ∧ LifecycleInvariant s.db := by
  have hs : (Library.run (next smallConfig plainService) .initial completedRun).isSome = true := by
    decide +kernel
  obtain ⟨s, hs⟩ := Option.isSome_iff_exists.mp hs
  have hc : ((Library.run (next smallConfig plainService) .initial completedRun).bind fun s =>
      (s.db.runs.find 0).map (·.status)) = some .completed := by decide +kernel
  rw [hs, Option.bind_some] at hc
  obtain ⟨run, hr, hc⟩ := Option.map_eq_some_iff.mp hc
  have h : Reachable smallConfig plainService s := run_steps (runOk_trivial _ _) hs
  exact ⟨s, run, h, hr, hc, (run_lifecycle h).1⟩

end NycPropertyResolver
