import NycPropertyResolver.Ingestion.BoundedAttempts
import NycPropertyResolver.Ingestion.GuardedSystem
import NycPropertyResolver.Ingestion.TerminalDecision

/-!
# Ingestion — what an execution finds prepared

Every step of an execution relies on what the steps before it have left: the status of its run, the
definitions of the batches, a request that is valid.  `Prepared` says it for each point of the
executor, `RunRecords` for the rows of runs and batches, and both hold in every reachable state, over
any number of executions that crashed before.
-/

namespace NycPropertyResolver

open Library

variable {Row : Type} {config : ExecutorConfig} {service : EcbRowService Row}

/-! ### Statements -/

/-- A run that was created and has not started. -/
def IsQueued (db : Db Row) (r : RunId) (initialized : Bool) : Prop :=
  ∃ run, db.runs.find r = some run ∧ run.status = .queued ∧
    run.initializationComplete = initialized

/-- Every batch of a run is COMPLETED. -/
def AllCompleted (db : Db Row) (r : RunId) : Prop := ∀ b ∈ db.batches r, b.status = .completed

/-- A terminal publication that can be made: the request is valid and its run active and
initialized. -/
structure Terminable (db : Db Row) (request : IngestionTerminalPublicationRequest) : Prop where
  valid : request.validate = .ok ()
  run : ∃ run, db.runs.find request.runId = some run ∧ run.isActive = true ∧
    run.initializationComplete = true ∧
    (request.status = .sourceChanged → run.status = .running ∧ run.sourceWatermarkAtStart ≠ none)

/-- **What each point of the executor relies on.** -/
def Prepared (db : Db Row) : ExecutorState Row → Prop
  | .creatingRun _ => ∀ r run, db.runs.find r = some run → run.isActive = false
  | .initializing r => ∃ initialized, IsQueued db r initialized
  | .loadingSnapshot r | .snapshotLoaded r _ => IsQueued db r false
  | .snapshotBinsLoaded r relationships => IsQueued db r false ∧
      ∀ relationship ∈ relationships, db.properties.find relationship.2 ≠ none
  | .acquiringStartWatermark r _ | .startWatermarkFetched r _ => IsQueued db r true
  | .terminalOutcome _ lastError => isBlank (lastError.getD "BATCH_TERMINAL_FAILURE") = false
  | .publishingTerminalFailure request => Terminable db request
  | .finalizing r | .endWatermarkFetched r _ _ => AllCompleted db r
  | .readyForPublication r => AllCompleted db r ∧ ∃ run, db.runs.find r = some run ∧
      run.sourceWatermarkAtStart = run.sourceWatermarkAtEnd
  | _ => True

/-- A batch whose definition was cut under the limits, with the record of its completion. -/
structure BatchRecorded (config : ExecutorConfig) (b : IngestionBatch) : Prop where
  bins : b.batchDefinition.bins ≠ [] ∧ b.batchDefinition.bins.length ≤ config.ecbBatchSize
  pageSize : b.batchDefinition.pageSize = config.socrataPageSize
  completion : b.status = .completed → b.completedAt ≠ none ∧ b.lastError = none

/-- **What the rows of runs and batches record.** -/
structure RunRecords (config : ExecutorConfig) (db : Db Row) : Prop where
  batches : ∀ r, ∀ b ∈ db.batches r, BatchRecorded config b
  started : ∀ r run, db.runs.find r = some run → run.status = .running → run.startedAt ≠ none
  ended : ∀ r run, db.runs.find r = some run → run.isActive = false →
    run.initializationComplete = true

/-! ### Rows -/

section Records

variable {a : Answer Row} {db db' : Db Row} {pc pc' : ExecutorState Row}

theorem RunRecords.modifyBatch (h : RunRecords config db) {r : RunId} {n : Nat}
    {f : IngestionBatch → IngestionBatch}
    (hf : ∀ b, BatchRecorded config b → BatchRecorded config (f b)) :
    RunRecords config (db.modifyBatch r n f) where
  batches r' b hb := by
    by_cases e : r' = r
    · subst e
      obtain ⟨b₀, hb₀, rfl⟩ := Db.mem_modifyBatch.mp hb
      split
      · exact hf b₀ (h.batches r' b₀ hb₀)
      · exact h.batches r' b₀ hb₀
    · simp only [Db.modifyBatch, Function.update_of_ne e] at hb
      exact h.batches r' b hb
  started := h.started
  ended := h.ended

/-- The definition is accepted by `batchDefinitionSchema`. -/
theorem BatchRecorded.definition {b : IngestionBatch} (h : BatchRecorded config b) :
    isValidDefinition b.batchDefinition = true := by
  simp [isValidDefinition, h.bins.1, h.pageSize, config.socrataPageSize_pos,
    config.socrataPageSize_le]

/-- A batch whose status is another one has no completion to record. -/
theorem BatchRecorded.open {b b' : IngestionBatch} (h : BatchRecorded config b)
    (hd : b'.batchDefinition = b.batchDefinition) (hs : b'.status ≠ .completed) :
    BatchRecorded config b' :=
  ⟨hd ▸ h.bins, hd ▸ h.pageSize, fun hc => absurd hc hs⟩

theorem RunRecords.markFailed (h : RunRecords config db) {r : RunId} {n : Nat} {lastError : String}
    (hf : db.markFailed r n lastError = .ok db') : RunRecords config db' := by
  obtain ⟨-, rfl⟩ := Db.markFailed_eq_ok hf
  exact h.modifyBatch fun b hb => hb.open rfl nofun

/-- The definitions cut from a snapshot are within the limits. -/
theorem batchRecorded_pendingBatch {bins : List CanonicalBin} {n : Nat}
    {definition : IngestionBatchDefinition}
    (h : definition ∈ buildBatchDefinitions bins config.ecbBatchSize config.socrataPageSize) :
    BatchRecorded config (pendingBatch n definition) := by
  obtain ⟨slice, hslice, rfl⟩ := List.mem_map.mp h
  refine ⟨⟨ne_nil_of_mem_chunks config.ecbBatchSize_pos hslice, ?_⟩, rfl, nofun⟩
  obtain ⟨i, -, rfl⟩ := List.mem_map.mp hslice
  exact length_chunk_le bins config.ecbBatchSize i

/-- The row of a run that a write leaves RUNNING was RUNNING, or has just been started. -/
theorem RowChange.startedAt {r : RunId} {run run' : IngestionRun}
    (h : RowChange a db pc r db' run run') (hs : run'.status = .running) :
    run'.startedAt ≠ none ∨ run.status = .running ∧ run'.startedAt = run.startedAt := by
  cases h with
  | same => exact .inr ⟨hs, rfl⟩
  | initialized => exact .inr ⟨hs, rfl⟩
  | started => exact .inl (by simp)
  | ended => exact .inr ⟨hs, rfl⟩
  | failed _ _ hne => exact absurd hs hne
  | accepted => cases hs

/-- A run that a write ends is initialized. -/
theorem RunRecords.initialized (h : RunRecords config db) (hI : LifecycleInvariant db)
    (hp : Prepared db pc) {r : RunId} {run run' : IngestionRun} (hr : db.runs.find r = some run)
    (hchange : RowChange a db pc r db' run run') (hs : run'.isActive = false) :
    run'.initializationComplete = true := by
  cases hchange with
  | same => exact h.ended r run hr hs
  | initialized => rfl
  | started _ _ hi => exact hi
  | ended => exact h.ended r run hr hs
  | failed hpc =>
      obtain ⟨rfl, rfl⟩ := hpc
      obtain ⟨run₀, hr₀, -, hi, -⟩ := hp.run
      cases hr.symm.trans hr₀
      exact hi
  | accepted _ _ hpub => exact ((hI.runs r run hr).started (.inl hpub.running)).1

/-- **A step keeps the records.** -/
theorem RunRecords.effect (h : RunRecords config db) (hI : LifecycleInvariant db)
    (hp : Prepared db pc) (he : Effect config service a db pc db' pc') : RunRecords config db' := by
  have started : ∀ {r n}, RunRecords config (db.startBatch r n) := fun {_ _} =>
    h.modifyBatch fun _ hb => hb.open rfl nofun
  have progressed : ∀ {r n pages rows}, RunRecords config (db.updateProgress r n pages rows) :=
    fun {_ _ _ _} => h.modifyBatch fun _ hb => ⟨hb.bins, hb.pageSize, hb.completion⟩
  have hbatches : ∀ r, ∀ b ∈ db'.batches r, BatchRecorded config b := by
    have of_same : db'.batches = db.batches → ∀ r, ∀ b ∈ db'.batches r, BatchRecorded config b :=
      fun hb r => hb ▸ h.batches r
    cases he with
    | runCreated hc =>
        obtain ⟨-, -, rfl⟩ := Db.createQueued_eq_ok hc
        exact of_same rfl
    | @snapshotStored r₀ rows _ _ hs =>
        obtain ⟨_, -, -, -, rfl⟩ := Db.initializeRunSnapshotAndBatches_eq_ok hs
        intro r b hb
        by_cases e : r = r₀
        · subst e
          simp only [Function.update_self] at hb
          obtain ⟨n, definition, rfl, hmem⟩ := Db.mem_pendingBatches hb
          exact batchRecorded_pendingBatch hmem
        · simp only [Function.update_of_ne e] at hb
          exact h.batches r b hb
    | runStarted hs =>
        obtain ⟨_, -, -, -, -, rfl⟩ := Db.setStartWatermarkAndRunning_eq_ok hs
        exact of_same rfl
    | budgetExhausted _ _ _ hf => exact (h.markFailed hf).batches
    | @attemptCounted r n =>
        have counted : RunRecords config (db.incrementAttemptCount r n) :=
          h.modifyBatch fun _ hb => ⟨hb.bins, hb.pageSize, hb.completion⟩
        exact counted.batches
    | attemptStarted => exact started.batches
    | attemptInvalid => exact started.batches
    | pageFailed _ hf => exact (h.markFailed hf).batches
    | rawPersisted =>
        obtain ⟨raw, hraw⟩ := Db.persistRaw_eq db
        rw [hraw]
        exact h.batches
    | lastPage => exact progressed.batches
    | pageLimit => exact progressed.batches
    | nextPage => exact progressed.batches
    | @batchCompleted attempt =>
        have completed : RunRecords config (db.markCompleted attempt.runId attempt.batchNumber
            attempt.pagesFetched attempt.rowsFetched a.now) :=
          h.modifyBatch fun _ hb => ⟨hb.bins, hb.pageSize, fun _ => ⟨nofun, rfl⟩⟩
        exact completed.batches
    | pageLimitFailed hf => exact (h.markFailed hf).batches
    | attemptClosed hf => exact (h.markFailed hf).batches
    | terminalPublished hp => exact of_same (batches_publishTerminalFailure hp)
    | acceptedPublished hp => exact of_same (batches_publish hp)
    | _ => exact h.batches
  refine ⟨hbatches, fun r run' hr' hs => ?_, fun r run' hr' hs => ?_⟩
  · rcases row_before he.write hr' with ⟨-, triggerType, rfl⟩ | ⟨run, hr, hchange⟩
    · cases hs
    · rcases hchange.startedAt hs with hstarted | ⟨hrunning, e⟩
      · exact hstarted
      · exact e ▸ h.started r run hr hrunning
  · rcases row_before he.write hr' with ⟨-, triggerType, rfl⟩ | ⟨run, hr, hchange⟩
    · cases hs
    · exact h.initialized hI hp hr hchange hs

end Records

/-! ### Points of the executor -/

section Points

variable {a : Answer Row} {db db' : Db Row} {pc pc' : ExecutorState Row} {r : RunId}

/-- The failure of a batch can be published for a RUNNING run. -/
theorem Terminable.batchFailure {lastError : Option String} {now : Time} (hr : IsRunning db r)
    (he : isBlank (lastError.getD "BATCH_TERMINAL_FAILURE") = false) :
    Terminable db (batchFailureRequest r lastError now) := by
  obtain ⟨run, hfind, hs, hi, -⟩ := hr
  exact ⟨validate_batchFailureRequest he, run, hfind, Db.isActive_iff.mpr (.inr hs), hi, nofun⟩

/-- And so can a change of the source. -/
theorem Terminable.sourceChanged {now : Time} (hr : IsRunning db r) :
    Terminable db (sourceChangedRequest r now) := by
  obtain ⟨run, hfind, hs, hi, hw⟩ := hr
  exact ⟨validate_sourceChangedRequest, run, hfind, Db.isActive_iff.mpr (.inr hs), hi,
    fun _ => ⟨hs, hw⟩⟩

/-- The error of an exhausted batch is not blank. -/
theorem error_of_exhausted {bs : List IngestionBatch} {b : IngestionBatch} (h : BatchRecords bs)
    (hb : b ∈ bs) (hx : isExhausted config b = true) :
    isBlank (b.lastError.getD "BATCH_TERMINAL_FAILURE") = false := by
  obtain ⟨e, he, hblank⟩ := h.errors b hb (isExhausted_iff.mp hx).1
  rw [he]
  exact hblank

theorem allCompleted_of_none (h : firstOpen (db.batches r) = none) : AllCompleted db r := by
  intro b hb
  simpa using List.find?_eq_none.mp h b hb

/-- **A step leaves the executor prepared.** -/
theorem prepared_effect (hI : AttemptInvariant config ⟨db, pc⟩) (hp : Prepared db pc)
    (h : Effect config service a db pc db' pc') : Prepared db' pc' := by
  have running := hI.batch.system.knows.running
  have remembers := hI.batch.system.knows.remembers
  cases h with
  | noActiveRun h => exact fun r run hr => Db.findActive_eq_none h hr
  | foundQueued h hs => exact ⟨_, _, (Db.findActive_eq_some h).1, hs, rfl⟩
  | runCreated h =>
      obtain ⟨-, -, rfl⟩ := Db.createQueued_eq_ok h
      exact ⟨false, _, Table.find_set_self, rfl, rfl⟩
  | alreadyInitialized h hs hi => exact ⟨_, h, hs, hi⟩
  | uninitialized h hs hi => exact ⟨_, h, hs, hi⟩
  | binsLoaded =>
      exact ⟨hp, fun relationship hmem => (Db.mem_selectPropertyBins.mp hmem).1⟩
  | versionsLoaded => exact hp.1
  | snapshotStored h =>
      obtain ⟨run, hr, -, rfl, rfl⟩ := Db.initializeRunSnapshotAndBatches_eq_ok h
      obtain ⟨run₀, hr₀, hs, -⟩ := hp
      cases hr.symm.trans hr₀
      exact ⟨_, Table.find_modify_self.trans (congrArg _ hr), hs, rfl⟩
  | startWatermarkFetched => exact hp
  | startWatermarkFailed =>
      obtain ⟨run, hr, hs, hi⟩ := hp
      have hstage : isBlank "initialization" = false := by decide
      have herror : isBlank "START_WATERMARK_FETCH_FAILED" = false := by decide
      refine ⟨?_, run, hr, Db.isActive_iff.mpr (.inl hs), hi, nofun⟩
      simp [IngestionTerminalPublicationRequest.validate, startWatermarkFailure, ensure, hstage,
        herror, bind, Except.bind]
  | @failureRecovered r _ b hb =>
      exact .batchFailure (running r rfl) (error_of_exhausted (hI.records r)
        (List.mem_of_find?_eq_some hb) (List.find?_some hb))
  | @recoveredReady r run _ hready =>
      simp only [isPersistedRunReadyForPublication, Bool.and_eq_true, decide_eq_true_eq,
        List.all_eq_true] at hready
      exact ⟨fun b hb => (hready.2 b hb).1.1, run, remembers, hready.1.1.2⟩
  | resumeRejected => exact .sourceChanged (running _ rfl)
  | batchesDone h => exact allCompleted_of_none h
  | @batchExhausted r b hb hx =>
      exact .batchFailure (running r rfl)
        (error_of_exhausted (hI.records r) (List.mem_of_find?_eq_some hb) hx)
  | budgetExhausted _ _ _ hf => exact (Db.markFailed_eq_ok hf).1
  | pageLimitFailed hf => exact (Db.markFailed_eq_ok hf).1
  | outcomeHandedOver => exact .batchFailure (running _ rfl) hp
  | endWatermarkFetched => exact hp
  | @endAccepted r startWatermark endWatermark he =>
      obtain ⟨run, hr, -, -, -⟩ := running r rfl
      refine ⟨hp, _, Table.find_modify_self.trans (congrArg _ hr), ?_⟩
      have hstart : (db.runs.find r).bind (·.sourceWatermarkAtStart) = some startWatermark :=
        remembers
      rw [show db.runs.find r = some run from hr, Option.bind_some] at hstart
      rw [hstart, he]
  | @endRejected r startWatermark endWatermark _ _ hpc =>
      rcases hpc with rfl | ⟨outcome, rfl⟩
      · obtain ⟨run, hr, hs, hi, hw⟩ := running r rfl
        exact .sourceChanged (.of_modify hr rfl ⟨hs, hi, hw⟩)
      · trivial
  | _ => trivial

/-- A transaction on a property leaves the executor prepared. -/
theorem Prepared.of_property (h : Prepared db pc) (hr : db'.runs = db.runs)
    (hb : db'.batches = db.batches)
    (hp : ∀ p, db.properties.find p ≠ none → db'.properties.find p ≠ none) : Prepared db' pc := by
  have queued : ∀ {r initialized}, IsQueued db r initialized → IsQueued db' r initialized := by
    intro r initialized h
    rwa [IsQueued, hr]
  have completed : ∀ {r}, AllCompleted db r → AllCompleted db' r := by
    intro r h
    rwa [AllCompleted, hb]
  cases pc with
  | creatingRun => exact fun r run hfind => h r run (hr ▸ hfind)
  | initializing r =>
      obtain ⟨initialized, h⟩ := h
      exact ⟨initialized, queued h⟩
  | loadingSnapshot r => exact queued h
  | snapshotLoaded r rows => exact queued h
  | snapshotBinsLoaded r relationships =>
      exact ⟨queued h.1, fun relationship hmem => hp _ (h.2 relationship hmem)⟩
  | acquiringStartWatermark r run => exact queued h
  | startWatermarkFetched r k => exact queued h
  | terminalOutcome r lastError => exact h
  | publishingTerminalFailure request => exact ⟨h.valid, by rw [hr]; exact h.run⟩
  | finalizing r => exact completed h
  | endWatermarkFetched r w w' => exact completed h
  | readyForPublication r => exact ⟨completed h.1, by rw [hr]; exact h.2⟩
  | _ => trivial

end Points

/-! ### Reachable states -/

/-- **What a reachable state has.** -/
structure ProgressInvariant (config : ExecutorConfig) (s : SystemState Row) : Prop where
  attempt : AttemptInvariant config s
  guard : GuardInvariant s
  records : RunRecords config s.db
  prepared : Prepared s.db s.executor

section Reachable

variable {s s' : SystemState Row}

theorem progressInvariant_initial :
    ProgressInvariant config (SystemState.initial : SystemState Row) where
  attempt := attemptInvariant_initial
  guard := guardInvariant_initial
  records := ⟨fun _ _ hb => (nomatch hb), fun _ _ h => (nomatch h), fun _ _ h => (nomatch h)⟩
  prepared := trivial

/-- **One event keeps the invariant.** -/
theorem progressInvariant_next {ev : Event Row} (hr : Reachable config service s)
    (hI : ProgressInvariant config s) (h : next config service s ev = some s') :
    ProgressInvariant config s' := by
  have hattempt := attemptInvariant_next hr hI.attempt h
  have hguard := guardInvariant_next hI.guard h
  have hframe : ∀ {db' : Db Row}, IdentityFrame s.db db' →
      (∀ p, s.db.properties.find p ≠ none → db'.properties.find p ≠ none) →
        RunRecords config db' ∧ Prepared db' s.executor := by
    rintro db' ⟨_, _, _, rfl⟩ hp
    exact ⟨⟨hI.records.batches, hI.records.started, hI.records.ended⟩, hI.prepared.of_property rfl rfl hp⟩
  cases next_turn h with
  | acquired => exact ⟨hattempt, hguard, hI.records, trivial⟩
  | stepped he =>
      have hlife := hI.attempt.batch.system.lifecycle
      exact ⟨hattempt, hguard, hI.records.effect hlife hI.prepared he,
        prepared_effect hI.attempt hI.prepared he⟩
  | crashed => exact ⟨hattempt, hguard, hI.records, trivial⟩
  | created hc =>
      obtain ⟨hrecords, hprepared⟩ := hframe (createProperty_frame hc) fun p hp => by
        obtain ⟨property, _, -, -, -, -, -, rfl⟩ := Db.createProperty_eq_ok hc
        simp only [Table.find_set]
        split
        · simp
        · exact hp
      exact ⟨hattempt, hguard, hrecords, hprepared⟩
  | applied ha =>
      obtain ⟨hrecords, hprepared⟩ := hframe (applyEffectiveBinSet_frame ha) fun p hp => by
        obtain ⟨-, ⟨-, rfl, -⟩ | ⟨-, -, rfl⟩⟩ := Db.applyEffectiveBinSet_eq_ok ha
        · exact hp
        · simp only [Db.replaceBinSet, Table.find_modify]
          split
          · simpa using hp
          · exact hp
      exact ⟨hattempt, hguard, hrecords, hprepared⟩

theorem progressInvariant_of_reachable (h : Reachable config service s) :
    ProgressInvariant config s := by
  induction h with
  | refl => exact progressInvariant_initial
  | tail hr _ hs ih => exact progressInvariant_next hr ih hs

end Reachable

end NycPropertyResolver
