import Mathlib.Algebra.BigOperators.Group.List.Lemmas
import Mathlib.Algebra.Order.BigOperators.Group.List
import NycPropertyResolver.Ingestion.CoverageRows
import NycPropertyResolver.Ingestion.RunAtWork

/-!
# Ingestion — an execution comes to its end

An execution whose lock is held, whose statements all succeed and whose metadata requests are answered
ends by publishing: the run it found active or created becomes COMPLETED, FAILED or SOURCE_CHANGED, whatever the data pages hold
and whatever state a crashed predecessor has left.  Each step is shown not to throw from what it finds
prepared, and a rank over the phases of an execution, with the rank of the batch loop inside, falls at
each step.
-/

namespace NycPropertyResolver

open Library

variable {Row : Type} {config : ExecutorConfig} {service : EcbRowService Row}

/-! ### The checks of a publication -/

section Checks

variable {db : Db Row} {r : RunId} {run : IngestionRun}

/-- Every snapshot row is counted once, with its property. -/
theorem sum_snapshotBinCount
    (hp : ∀ row ∈ db.snapshot r, db.properties.find row.propertyId ≠ none) :
    ((db.snapshotProperties r).map (·.snapshotBinCount)).sum = (db.snapshot r).length := by
  let ids := (db.snapshot r).map (·.propertyId)
  have hcount : ∀ p, (db.snapshotVersions r p).length = ids.count p := by
    intro p
    rw [Db.snapshotVersions, List.length_map, ← List.countP_eq_length_filter, List.count,
      List.countP_map]
    rfl
  have hgroups : ∀ ps : List PropertyId, (∀ p ∈ ps, p ∈ ids) →
      (ps.filterMap fun p => (db.properties.find p).map (db.snapshotProperty r p)).map
        (·.snapshotBinCount) = ps.map fun p => ids.count p := by
    intro ps
    induction ps with
    | nil => intro _; rfl
    | cons p ps ih =>
        intro hmem
        obtain ⟨row, hrow, rfl⟩ := List.mem_map.mp (hmem p List.mem_cons_self)
        obtain ⟨property, hproperty⟩ := Option.ne_none_iff_exists'.mp (hp row hrow)
        rw [List.filterMap_cons, hproperty, Option.map_some]
        simp only [List.map_cons]
        rw [ih fun q hq => hmem q (List.mem_cons_of_mem _ hq), ← hcount]
        rfl
  have hids : ∀ p ∈ db.snapshotPropertyIds r, p ∈ ids := by
    intro p hmem
    obtain ⟨row, hrow, rfl⟩ := Db.mem_snapshotPropertyIds.mp hmem
    exact List.mem_map_of_mem hrow
  rw [Db.snapshotProperties, hgroups _ hids]
  have hperm : (db.snapshotPropertyIds r).Perm ids.dedup := List.perm_insertionSort _ _
  rw [(hperm.map _).sum_eq, List.sum_map_count_dedup_eq_length, List.length_map]

/-- The batches of a partition cover the snapshot. -/
theorem coversSnapshot_of_partition
    (h : ((db.batches r).map (·.batchDefinition.bins)).flatten =
      (Db.distinctBins (db.snapshot r)).toList) : db.CoversSnapshot r := by
  have hbins : db.processedBins r = (Db.distinctBins (db.snapshot r)).toList := by
    rw [Db.processedBins, List.flatMap_def, h]
  rw [Db.CoversSnapshot, hbins, SortedSet.ofList_toList]
  exact ⟨rfl, rfl⟩

/-- A run that is ready passes the checks of the publication. -/
theorem lockAndValidateAcceptedRun_of_ready (hI : RunInvariant (db.snapshot r) (db.batches r) run)
    (hrecords : RunRecords config db) (hr : db.runs.find r = some run) (hs : run.status = .running)
    (hw : run.sourceWatermarkAtStart = run.sourceWatermarkAtEnd) (hc : AllCompleted db r) :
    db.lockAndValidateAcceptedRun r = .ok run := by
  obtain ⟨hi, hstart⟩ := hI.started (.inl hs)
  obtain ⟨hproperties, hbins, hbatches⟩ := hI.counts hi
  have hne : run.status ≠ .completed := by simp [hs]
  have hd : run.dataset = .dobEcbViolations := by cases run.dataset; rfl
  refine require_bind_ok.mpr ⟨run, hr, ensure_bind_ok.mpr ⟨hd, ?_⟩⟩
  rw [if_neg hne]
  simp only [ensure_bind_ok, and_true]
  refine ⟨hs, hi, hrecords.started r run hr hs, ⟨hstart, hw ▸ hstart⟩, hw,
    ⟨by simp [hproperties], by simp [hbins], by simp [hbatches]⟩, hproperties, hbins, hbatches, ?_,
    coversSnapshot_of_partition (hI.partition hi)⟩
  refine List.all_eq_true.mpr fun b hb => ?_
  obtain ⟨hat, herror⟩ := (hrecords.batches r b hb).completion (hc b hb)
  simp [hc b hb, Option.isSome_iff_ne_none.mpr hat, herror]

/-- And the checks of its coverage. -/
theorem loadAndValidateAcceptedRun_of_ready
    (hI : RunInvariant (db.snapshot r) (db.batches r) run) (hrecords : RunRecords config db)
    (hr : db.runs.find r = some run) (hs : run.status = .running)
    (hw : run.sourceWatermarkAtStart = run.sourceWatermarkAtEnd) (hc : AllCompleted db r)
    (hp : ∀ row ∈ db.snapshot r, db.properties.find row.propertyId ≠ none)
    (hv : db.ConsistentVersions r) :
    db.loadAndValidateAcceptedRun r = .ok (run, db.snapshotProperties r) := by
  obtain ⟨hi, hstart⟩ := hI.started (.inl hs)
  obtain ⟨hproperties, hbins, hbatches⟩ := hI.counts hi
  have hd : run.dataset = .dobEcbViolations := by cases run.dataset; rfl
  have hne : run.status ≠ .completed := by simp [hs]
  have hversions : ((db.snapshotProperties r).all fun property =>
      property.snapshotVersionCount = 1) = true := by
    refine List.all_eq_true.mpr fun property hmem => ?_
    obtain ⟨p, hpmem, hproperty⟩ := List.mem_filterMap.mp hmem
    obtain ⟨_, -, rfl⟩ := Option.map_eq_some_iff.mp hproperty
    exact decide_eq_true (hv p hpmem)
  refine require_bind_ok.mpr ⟨run, hr, ensure_bind_ok.mpr ⟨hd, ensure_bind_ok.mpr ⟨hne, ?_⟩⟩⟩
  simp only [ensure_bind_ok, and_true]
  refine ⟨hs, hi, hrecords.started r run hr hs, ⟨hstart, hw ▸ hstart⟩, hw,
    ⟨by simp [hproperties], by simp [hbins], by simp [hbatches]⟩, hversions, ?_, hbins, hbatches,
    ?_, coversSnapshot_of_partition (hI.partition hi)⟩
  · rw [sum_snapshotBinCount hp, hproperties]
  · exact List.all_eq_true.mpr fun b hb => decide_eq_true (hc b hb)

end Checks

/-! ### Statements -/

/-- A step that meets no failure, whose metadata request, if it makes one, is answered, and whose
generated id is not in use.  The data page may be anything. -/
structure Answer.Steady (a : Answer Row) (db : Db Row) : Prop where
  quiet : a.Quiet
  metadata : ∃ rowsUpdatedAt, a.metadata = .ok rowsUpdatedAt
  fresh : db.runs.find a.freshId = none

/-- The status an execution that ended so has published. -/
def ExecutionOutcome.published? : ExecutionOutcome → Option IngestionRunStatus
  | .completed => some .completed
  | .terminalFailurePublished => some .failed
  | .sourceChangedPublished => some .sourceChanged
  | _ => none

/-- A run is ended under the status the outcome names, and no run is active. -/
structure Ended (db : Db Row) (r : RunId) (outcome : ExecutionOutcome) : Prop where
  run : ∃ run, db.runs.find r = some run ∧ outcome.published? = some run.status
  idle : ∀ r run, db.runs.find r = some run → run.isActive = false

/-- **An execution that came to its end**: the run it has worked on, which was active when the
execution was in its first state or did not exist then, is ended as the outcome says. -/
def Concluded (db₀ db : Db Row) (outcome : ExecutionOutcome) : Prop :=
  ∃ r, WorksOn db₀ db r ∧ Ended db r outcome

/-- A step from the given point goes on, or it is one of the two publications and the run of the
execution is ended. -/
def Proceeds (pc : ExecutorState Row) (x : Db Row × ExecutorState Row) : Prop :=
  ∀ outcome, x.2 = .stopped outcome → ∃ r, pc.run? = some r ∧ Ended x.1 r outcome ∧
    ((∃ request, pc = .publishingTerminalFailure request) ∨
      pc = .readyForPublication r ∧ outcome = .completed)

/-! ### Steps without failures -/

section Steps

variable {a : Answer Row} {db db' : Db Row} {r : RunId} {run : IngestionRun}
  {outcome : ExecutionOutcome}

/-- The publication of the active run leaves none active. -/
theorem Ended.of_modify {f : IngestionRun → IngestionRun} (hI : LifecycleInvariant db)
    (hr : db.runs.find r = some run) (ha : run.isActive = true)
    (hdb : db'.runs = db.runs.modify r f) (hf : (f run).isActive = false)
    (ho : outcome.published? = some (f run).status) : Ended db' r outcome := by
  have hfind : db'.runs.find r = some (f run) := by
    rw [hdb, Table.find_modify_self, hr, Option.map_some]
  refine ⟨⟨f run, hfind, ho⟩, fun r' run' hr' => ?_⟩
  by_cases e : r' = r
  · rw [e, hfind] at hr'
    cases hr'
    exact hf
  · rw [hdb, Table.find_modify_ne e] at hr'
    cases hactive : run'.isActive with
    | false => rfl
    | true => exact absurd (hI.oneActive r' r run' run hr' hr hactive ha) e

/-- A terminal publication that can be made succeeds. -/
theorem publishTerminalFailure_of_terminable {request : IngestionTerminalPublicationRequest}
    (hq : a.Quiet) (h : Terminable db request) (hc : db.ConsistentVersions request.runId) :
    ∃ db', db.publishTerminalFailure a.publication request = (db', .ok ()) := by
  obtain ⟨run, hr, ha, hi, hs⟩ := h.run
  have hlock : db.lockAndValidateTerminalRun request = .ok run := by
    have hd : run.dataset = .dobEcbViolations := by cases run.dataset; rfl
    refine require_bind_ok.mpr ⟨run, hr, ensure_bind_ok.mpr ⟨hd, ?_⟩⟩
    exact ensure_bind_ok.mpr ⟨Db.isActive_iff.mp ha, ensure_bind_ok.mpr
      ⟨fun hst => ⟨(hs hst).1, hi, (hs hst).2⟩, rfl⟩⟩
  have ht : db.terminalTransaction a.publication request =
      .ok ((db.terminateRun request).publishFailedCoverage request, ()) := by
    simp [Db.terminalTransaction, runStatement, hq.publicationError, hlock, assertAuthorized,
      hq.publicationAuthorized, hi, ensure, hc, bind, Except.bind]
  refine ⟨(db.terminateRun request).publishFailedCoverage request, ?_⟩
  simp only [Db.publishTerminalFailure, h.valid, assertAuthorized, hq.publicationAuthorized,
    if_true, ht, transaction]

/-- The message of a failure begins with its name, so it is not blank. -/
theorem not_isBlank_append {s t : String} (h : isBlank s = false) : isBlank (s ++ t) = false := by
  rw [Bool.eq_false_iff] at h ⊢
  intro hblank
  refine h (isBlank_iff.mpr fun c hc => isBlank_iff.mp hblank c ?_)
  rw [String.toList_append]
  exact List.mem_append_left _ hc

theorem markFailed_ok {n : Nat} {lastError : String} (h : isBlank lastError = false) :
    db.markFailed r n lastError = .ok (db.modifyBatch r n fun b =>
      { b with status := .failed, lastError := some lastError }) :=
  ensure_bind_ok.mpr ⟨h, rfl⟩

theorem executeWithAuthority_proceeds {triggerType : IngestionTriggerType} (ha : a.Steady db) :
    Proceeds (.started triggerType) (executeWithAuthority a db triggerType) := by
  simp only [executeWithAuthority, ha.quiet.authorized, if_true]
  split
  · rintro _ ⟨⟩
  · rename_i runId run hactive
    have hstatus := Db.isActive_iff.mp (Db.findActive_eq_some hactive).2
    split
    · rintro _ ⟨⟩
    · rintro _ ⟨⟩
    · rename_i hq hr
      exact (hstatus.elim hq hr).elim

theorem createQueuedRun_proceeds {triggerType : IngestionTriggerType} (ha : a.Steady db)
    (hp : Prepared db (.creatingRun triggerType)) :
    Proceeds (.creatingRun triggerType) (createQueuedRun a db triggerType) := by
  have hcreated : ∃ db', db.createQueued a.freshId triggerType = .ok db' := by
    refine ⟨_, ensure_bind_ok.mpr ⟨?_, require_bind_ok.mpr ⟨_, Table.insert_eq_some.mpr
      ⟨ha.fresh, rfl⟩, rfl⟩⟩⟩
    refine List.all_eq_true.mpr fun row hrow => ?_
    simp [hp row.1 row.2 (Table.mem_rows.mp hrow)]
  obtain ⟨db', h⟩ := hcreated
  simp only [createQueuedRun, ha.quiet.authorized, if_true, h]
  rintro _ ⟨⟩

/-- A QUEUED run has no start watermark. -/
theorem TablesHold.queued_unstarted (h : TablesHold db.guarded) (hr : db.runs.find r = some run)
    (hs : run.status = .queued) : run.sourceWatermarkAtStart = none := by
  by_contra hw
  exact (h.checks r run hr).2.1 ⟨hs, hw⟩

theorem initializeAndStartRun_proceeds (ha : a.Steady db) (hT : TablesHold db.guarded)
    (hp : Prepared db (.initializing r)) :
    Proceeds (.initializing r) (initializeAndStartRun a db r) := by
  obtain ⟨initialized, run, hr, hs, hi⟩ := hp
  simp only [initializeAndStartRun, ha.quiet.authorized, if_true, hr, hs,
    hT.queued_unstarted hr hs, ne_eq, not_true_eq_false, if_false]
  split
  · rintro _ ⟨⟩
  · rintro _ ⟨⟩

theorem loadSnapshotVersions_proceeds {relationships : List (CanonicalBin × PropertyId)}
    (hp : Prepared db (.snapshotBinsLoaded r relationships)) :
    Proceeds (.snapshotBinsLoaded r relationships) (loadSnapshotVersions db r relationships) := by
  have hrows : ∃ rows, db.includeProperties relationships = some rows := by
    have hfound := hp.2
    clear hp
    induction relationships with
    | nil => exact ⟨[], rfl⟩
    | cons relationship rest ih =>
        obtain ⟨property, hproperty⟩ :=
          Option.ne_none_iff_exists'.mp (hfound relationship List.mem_cons_self)
        obtain ⟨rows, hrows⟩ := ih fun other hother => hfound other (List.mem_cons_of_mem _ hother)
        exact ⟨_, by rw [Db.includeProperties, Db.includeProperty, hproperty, hrows]; rfl⟩
  obtain ⟨rows, hrows⟩ := hrows
  simp only [loadSnapshotVersions, hrows]
  rintro _ ⟨⟩

theorem storeSnapshot_proceeds {rows : List IngestionRunPropertyBin} (ha : a.Steady db)
    (hp : Prepared db (.snapshotLoaded r rows)) :
    Proceeds (.snapshotLoaded r rows) (storeSnapshot config a db r rows) := by
  obtain ⟨run, hr, -, hi⟩ := hp
  have hstored : ∃ x, db.initializeRunSnapshotAndBatches r rows config.ecbBatchSize
      config.socrataPageSize = .ok x :=
    ⟨_, require_bind_ok.mpr ⟨run, hr, ensure_bind_ok.mpr ⟨hi, rfl⟩⟩⟩
  obtain ⟨x, hx⟩ := hstored
  simp only [storeSnapshot, ha.quiet.statementError, hx]
  rintro _ ⟨⟩

theorem acquireStartWatermark_proceeds (ha : a.Steady db) (hI : LifecycleInvariant db)
    (hr : db.runs.find r = some run) (hp : Prepared db (.acquiringStartWatermark r run)) :
    Proceeds (.acquiringStartWatermark r run) (acquireStartWatermark a db r run) := by
  obtain ⟨run', hr', -, hi⟩ := hp
  cases hr.symm.trans hr'
  obtain ⟨hproperties, hbins, hbatches⟩ := (hI.runs r run hr).counts hi
  have hcounts : db.assertExpectedInitializationCounts r run = .ok () := by
    refine ensure_bind_ok.mpr ⟨hproperties, ensure_bind_ok.mpr ⟨hbins, ?_⟩⟩
    exact if_pos hbatches
  obtain ⟨k, hk⟩ := ha.metadata
  simp only [acquireStartWatermark, ha.quiet.authorized, if_true, hi, hcounts, hk]
  rintro _ ⟨⟩

theorem persistStartWatermark_proceeds {rowsUpdatedAt : Nat} (ha : a.Steady db)
    (hT : TablesHold db.guarded) (hp : Prepared db (.startWatermarkFetched r rowsUpdatedAt)) :
    Proceeds (.startWatermarkFetched r rowsUpdatedAt)
      (persistStartWatermark a db r rowsUpdatedAt) := by
  obtain ⟨run, hr, hs, hi⟩ := hp
  have hstarted : ∃ db', db.setStartWatermarkAndRunning r (rowsUpdatedAtToDate rowsUpdatedAt)
      a.now = .ok db' :=
    ⟨_, require_bind_ok.mpr ⟨run, hr, ensure_bind_ok.mpr
      ⟨⟨hs, hi, hT.queued_unstarted hr hs⟩, rfl⟩⟩⟩
  obtain ⟨db', h⟩ := hstarted
  simp only [persistStartWatermark, ha.quiet.authorized, if_true, ha.quiet.statementError, h]
  rintro _ ⟨⟩

theorem recoverPersistedFailure_proceeds (ha : a.Steady db) :
    Proceeds (.recoveringFailure r run) (recoverPersistedFailure config a db r run) := by
  simp only [recoverPersistedFailure, ha.quiet.authorized, if_true]
  split
  · rintro _ ⟨⟩
  · split
    · rintro _ ⟨⟩
    · rintro _ ⟨⟩

theorem rejectResumeOnWatermarkMismatch_proceeds (ha : a.Steady db) (hr : db.runs.find r = some run)
    (hw : run.sourceWatermarkAtStart ≠ none) :
    Proceeds (.guardingResume r run) (rejectResumeOnWatermarkMismatch a db r run) := by
  obtain ⟨k, hk⟩ := ha.metadata
  obtain ⟨w, hw⟩ := Option.ne_none_iff_exists'.mp hw
  simp only [rejectResumeOnWatermarkMismatch, ha.quiet.authorized, if_true, hw, hk, hr]
  split
  · rintro _ ⟨⟩
  · rintro _ ⟨⟩

theorem selectBatch_proceeds (ha : a.Steady db) :
    Proceeds (.selectingBatch r) (selectBatch config a db r) := by
  simp only [selectBatch, ha.quiet.authorized, if_true]
  split
  · rintro _ ⟨⟩
  · split
    · rintro _ ⟨⟩
    · rintro _ ⟨⟩

theorem executeBatchAttempt_proceeds {n : Nat} {b : IngestionBatch} (ha : a.Steady db)
    (hb : db.findBatch r n = some b) :
    Proceeds (.executingBatch r n) (executeBatchAttempt config a db r n) := by
  have herror : isBlank
      (s!"Batch attempt budget exhausted after {b.attemptCount} logical attempts") = false := by
    refine not_isBlank_append (not_isBlank_append ?_)
    decide
  simp only [executeBatchAttempt, ha.quiet.authorized, if_true, hb, ha.quiet.statementError]
  split
  · rintro _ ⟨⟩
  · split
    · rw [markFailed_ok herror]
      rintro _ ⟨⟩
    · rintro _ ⟨⟩

theorem startAttempt_proceeds {n : Nat} {b : IngestionBatch} (ha : a.Steady db)
    (hb : db.findBatch r n = some b) (hv : isValidDefinition b.batchDefinition = true) :
    Proceeds (.attemptCounted r n) (startAttempt a db r n) := by
  simp only [startAttempt, ha.quiet.statementError, hb, hv, if_true]
  rintro _ ⟨⟩

theorem fetchPage_proceeds {attempt : BatchAttempt} (ha : a.Steady db) :
    Proceeds (.fetchingPage attempt) (fetchPage a db attempt) := by
  simp only [fetchPage, ha.quiet.authorized, Bool.and_self, if_true, ha.quiet.statementError]
  split
  · rintro _ ⟨⟩
  · rename_i h
    cases h
  · split
    · rintro _ ⟨⟩
    · rintro _ ⟨⟩

theorem processRows_proceeds {attempt : BatchAttempt} {page remaining : List Row}
    (ha : a.Steady db) : Proceeds (.processingRows attempt page remaining)
      (processRows config service a db attempt page remaining) := by
  cases remaining with
  | nil =>
      simp only [processRows, ha.quiet.statementError]
      split
      · rintro _ ⟨⟩
      · split
        · rintro _ ⟨⟩
        · rintro _ ⟨⟩
  | cons row rest =>
      simp only [processRows, ha.quiet.authorized, if_true, ha.quiet.statementError]
      split
      · rintro _ ⟨⟩
      · rintro _ ⟨⟩
      · rintro _ ⟨⟩

theorem stageRow_proceeds {attempt : BatchAttempt} {page remaining : List Row} {row : Row}
    {sourceId : SourceId} : Proceeds (.stagingRow attempt page row sourceId remaining)
      (stageRow service a db attempt page row sourceId remaining) := by
  unfold stageRow
  split
  · rintro _ ⟨⟩
  · rintro _ ⟨⟩
  · rintro _ ⟨⟩

theorem completeBatch_proceeds {attempt : BatchAttempt} (ha : a.Steady db) :
    Proceeds (.completingBatch attempt) (completeBatch a db attempt) := by
  simp only [completeBatch, ha.quiet.authorized, Bool.and_self, if_true, ha.quiet.statementError]
  rintro _ ⟨⟩

theorem failPageLimit_proceeds {attempt : BatchAttempt} :
    Proceeds (.pageLimitReached attempt) (failPageLimit a db attempt) := by
  unfold failPageLimit
  split
  · rintro _ ⟨⟩
  · split
    · rintro _ ⟨⟩
    · rintro _ ⟨⟩

theorem failAttempt_proceeds {attempt : BatchAttempt} {message : String} (ha : a.Steady db) :
    Proceeds (.attemptFailed attempt message) (failAttempt a db attempt message) := by
  have herror : isBlank "BATCH_ROW_PROCESSING_FAILED: " = false := by decide
  have hfailed : db.markFailed attempt.runId attempt.batchNumber
      ("BATCH_ROW_PROCESSING_FAILED: " ++ message) = .ok _ :=
    markFailed_ok (not_isBlank_append herror)
  simp only [failAttempt, ha.quiet.authorized, if_true, ha.quiet.statementError, hfailed]
  rintro _ ⟨⟩

theorem publishTerminalOutcome_proceeds {lastError : Option String} (ha : a.Steady db) :
    Proceeds (.terminalOutcome r lastError) (publishTerminalOutcome a db r lastError) := by
  simp only [publishTerminalOutcome, ha.quiet.authorized, if_true]
  rintro _ ⟨⟩

/-- **The terminal publication is made**, and the execution has come to its end. -/
theorem publishTerminal_proceeds {request : IngestionTerminalPublicationRequest}
    (ha : a.Steady db) (hI : LifecycleInvariant db)
    (hp : Prepared db (.publishingTerminalFailure request))
    (hc : db.ConsistentVersions request.runId) :
    Proceeds (.publishingTerminalFailure request) (publishTerminal a db request) := by
  obtain ⟨db', hpublish⟩ := publishTerminalFailure_of_terminable ha.quiet hp hc
  obtain ⟨hv, ht⟩ := Db.publishTerminalFailure_ok hpublish
  obtain ⟨hstatus, -, -⟩ := Db.validate_eq_ok hv
  obtain ⟨run, coverage, hr, hactive, -, rfl⟩ := Db.terminalTransaction_frame ht
  simp only [publishTerminal, hpublish]
  rcases hstatus with hs | hs
  · simp only [hs, reduceCtorEq, if_false]
    rintro _ ⟨⟩
    refine ⟨request.runId, rfl, .of_modify hI hr hactive rfl ?_ ?_, .inl ⟨request, rfl⟩⟩
    · simp [IngestionRun.isActive, Db.terminalRun, hs]
    · simp [ExecutionOutcome.published?, Db.terminalRun, hs]
  · simp only [hs, if_true]
    rintro _ ⟨⟩
    refine ⟨request.runId, rfl, .of_modify hI hr hactive rfl ?_ ?_, .inl ⟨request, rfl⟩⟩
    · simp [IngestionRun.isActive, Db.terminalRun, hs]
    · simp [ExecutionOutcome.published?, Db.terminalRun, hs]

theorem finalizePublicationHandoff_proceeds (ha : a.Steady db) (hr : IsRunning db r) :
    Proceeds (.finalizing r) (finalizePublicationHandoff a db r) := by
  obtain ⟨run, hfind, -, -, hw⟩ := hr
  obtain ⟨w, hw⟩ := Option.ne_none_iff_exists'.mp hw
  obtain ⟨k, hk⟩ := ha.metadata
  simp only [finalizePublicationHandoff, ha.quiet.authorized, if_true, hfind, Option.map_some, hw,
    hk]
  rintro _ ⟨⟩

theorem persistEndWatermark_proceeds {startWatermark endWatermark : Time} (ha : a.Steady db) :
    Proceeds (.endWatermarkFetched r startWatermark endWatermark)
      (persistEndWatermark a db r startWatermark endWatermark) := by
  simp only [persistEndWatermark, ha.quiet.statementError, ha.quiet.authorized, if_true]
  split
  · rintro _ ⟨⟩
  · rintro _ ⟨⟩

/-- **The accepted publication is made**, and the execution has come to its end. -/
theorem publishAccepted_proceeds (ha : a.Steady db)
    (hI : ProgressInvariant config ⟨db, .readyForPublication r⟩) :
    Proceeds (.readyForPublication r) (publishAccepted a db r) := by
  have hbatch := hI.attempt.batch
  obtain ⟨run, hr, hs, -, -⟩ := hbatch.system.knows.running r rfl
  obtain ⟨hcompleted, run', hr', hw⟩ := hI.prepared
  cases hr.symm.trans hr'
  have hrun := hbatch.system.lifecycle.runs r run hr
  have hproperties : ∀ row ∈ db.snapshot r, db.properties.find row.propertyId ≠ none :=
    fun row hrow => Option.isSome_iff_ne_none.mp ((hI.guard.tables.snapshot r).property row hrow)
  have hlock := lockAndValidateAcceptedRun_of_ready hrun hI.records hr hs hw hcompleted
  have hload := loadAndValidateAcceptedRun_of_ready hrun hI.records hr hs hw hcompleted hproperties
    (hbatch.versions r).consistent
  have hcommits : CoverageRows.Commits db a.publication r :=
    ⟨fun i _ => ha.quiet.publicationAuthorized i, fun i _ => ha.quiet.publicationError i,
      ⟨run, hlock, by simp [hs]⟩, ⟨_, hload⟩⟩
  obtain ⟨_, live, coverage', -, htransaction, -⟩ :=
    CoverageRows.acceptedTransaction_of_commits hcommits
  have hpublish : db.publish a.publication r = ({ db with
      live := live
      coverage := coverage'
      runs := db.runs.modify r (Db.acceptedRun a.publication.now) }, .ok .completed) := by
    rw [Db.publish, ha.quiet.publicationAuthorized 0, htransaction]
    rfl
  simp only [publishAccepted, ha.quiet.authorized, if_true, hpublish]
  rintro _ ⟨⟩
  exact ⟨r, rfl, .of_modify hbatch.system.lifecycle hr (Db.isActive_iff.mpr (.inr hs)) rfl rfl rfl,
    .inr ⟨rfl, rfl⟩⟩

/-- **A step without failures goes on**, from every state that can be reached. -/
theorem executorStep_proceeds {pc : ExecutorState Row} {x : Db Row × ExecutorState Row}
    (hI : ProgressInvariant config ⟨db, pc⟩) (ha : a.Steady db)
    (h : executorStep config service a db pc = some x) : Proceeds pc x := by
  have hbatch := hI.attempt.batch
  have hlife := hbatch.system.lifecycle
  have hp := hI.prepared
  have hT := hI.guard.tables
  -- the batch an execution is in is there
  have hfound : ∀ r n, pc.batch? = some (r, n) → ∃ b, db.findBatch r n = some b ∧
      isValidDefinition b.batchDefinition = true := by
    intro r n hpc
    obtain ⟨b, hb, rfl⟩ := hbatch.selects r n hpc
    exact ⟨b, findBatch_of_firstOpen (hbatch.order r) hb,
      (hI.records.batches r b (List.mem_of_find?_eq_some hb)).definition⟩
  cases pc with
  | stopped outcome => cases h
  | started triggerType => cases h; exact executeWithAuthority_proceeds ha
  | creatingRun triggerType => cases h; exact createQueuedRun_proceeds ha hp
  | initializing r => cases h; exact initializeAndStartRun_proceeds ha hT hp
  | loadingSnapshot r => cases h; rintro _ ⟨⟩
  | snapshotBinsLoaded r relationships => cases h; exact loadSnapshotVersions_proceeds hp
  | snapshotLoaded r rows => cases h; exact storeSnapshot_proceeds ha hp
  | acquiringStartWatermark r run =>
      cases h
      exact acquireStartWatermark_proceeds ha hlife hbatch.system.knows.remembers hp
  | startWatermarkFetched r k => cases h; exact persistStartWatermark_proceeds ha hT hp
  | recoveringFailure r run => cases h; exact recoverPersistedFailure_proceeds ha
  | guardingResume r run =>
      cases h
      obtain ⟨run', hr', -, -, hw⟩ := hbatch.system.knows.running r rfl
      have hr : db.runs.find r = some run := hbatch.system.knows.remembers
      cases hr.symm.trans hr'
      exact rejectResumeOnWatermarkMismatch_proceeds ha hr hw
  | selectingBatch r => cases h; exact selectBatch_proceeds ha
  | executingBatch r n =>
      cases h
      obtain ⟨b, hb, -⟩ := hfound r n rfl
      exact executeBatchAttempt_proceeds ha hb
  | attemptCounted r n =>
      cases h
      obtain ⟨b, hb, hv⟩ := hfound r n rfl
      exact startAttempt_proceeds ha hb hv
  | fetchingPage attempt => cases h; exact fetchPage_proceeds ha
  | processingRows attempt page remaining => cases h; exact processRows_proceeds ha
  | stagingRow attempt page row sourceId remaining => cases h; exact stageRow_proceeds
  | completingBatch attempt => cases h; exact completeBatch_proceeds ha
  | pageLimitReached attempt => cases h; exact failPageLimit_proceeds
  | attemptFailed attempt message => cases h; exact failAttempt_proceeds ha
  | terminalOutcome r lastError => cases h; exact publishTerminalOutcome_proceeds ha
  | publishingTerminalFailure request =>
      cases h
      exact publishTerminal_proceeds ha hlife hp (hbatch.versions request.runId).consistent
  | finalizing r =>
      cases h
      exact finalizePublicationHandoff_proceeds ha (hbatch.system.knows.running r rfl)
  | endWatermarkFetched r w w' => cases h; exact persistEndWatermark_proceeds ha
  | readyForPublication r => cases h; exact publishAccepted_proceeds ha hI

end Steps

/-! ### The rank of an execution -/

/-- The phase of an execution; every phase but the loop of the batches is left by its next step. -/
def ExecutorState.phase : ExecutorState Row → Nat
  | .stopped _ => 0
  | .publishingTerminalFailure _ | .readyForPublication _ => 1
  | .endWatermarkFetched _ _ _ => 2
  | .finalizing _ => 3
  | .selectingBatch _ | .executingBatch _ _ | .attemptCounted _ _ | .fetchingPage _ => 4
  | .processingRows _ _ _ | .stagingRow _ _ _ _ _ | .completingBatch _ => 4
  | .pageLimitReached _ | .attemptFailed _ _ | .terminalOutcome _ _ => 4
  | .guardingResume _ _ | .startWatermarkFetched _ _ => 5
  | .recoveringFailure _ _ | .acquiringStartWatermark _ _ => 6
  | .snapshotLoaded _ _ => 7
  | .snapshotBinsLoaded _ _ => 8
  | .loadingSnapshot _ => 9
  | .initializing _ => 10
  | .creatingRun _ => 11
  | .started _ => 12

/-- **The rank of an execution**: its phase, and inside the loop of the batches the rank of the loop. -/
def executionRank (config : ExecutorConfig) (s : SystemState Row) :
    Nat ×ₗ Nat ×ₗ Nat ×ₗ Nat ×ₗ Nat :=
  toLex (s.executor.phase, loopRank config s)

/-- The next step of an execution, without a failure, after any number of transactions on
properties. -/
def SteadyTurn (config : ExecutorConfig) (service : EcbRowService Row) (s s' : SystemState Row) :
    Prop :=
  ∃ t a, Steps (next config service) (fun _ ev => ev.OnProperty) s t ∧ a.Steady t.db ∧
    next config service t (.executor a) = some s'

section Rank

variable {a : Answer Row} {db db' : Db Row} {pc pc' : ExecutorState Row} {s s' : SystemState Row}

/-- **A step enters a lower phase**, or stays in the loop. -/
theorem phase_effect (h : Effect config service a db pc db' pc')
    (hpc : ∀ outcome, pc ≠ .stopped outcome) :
    pc'.phase < pc.phase ∨ pc.phase = 4 ∧ pc'.phase = 4 := by
  cases h with
  | stop =>
      left
      cases pc with
      | stopped outcome => exact absurd rfl (hpc outcome)
      | _ => exact Nat.succ_pos _
  | attemptThrew h => cases pc <;> cases h <;> exact .inr ⟨rfl, rfl⟩
  | batchSelected => exact .inr ⟨rfl, rfl⟩
  | batchAlreadyCompleted => exact .inr ⟨rfl, rfl⟩
  | budgetExhausted => exact .inr ⟨rfl, rfl⟩
  | attemptCounted => exact .inr ⟨rfl, rfl⟩
  | attemptStarted => exact .inr ⟨rfl, rfl⟩
  | pageFetched => exact .inr ⟨rfl, rfl⟩
  | pageFailed => exact .inr ⟨rfl, rfl⟩
  | rawPersisted => exact .inr ⟨rfl, rfl⟩
  | rowStaged => exact .inr ⟨rfl, rfl⟩
  | lastPage => exact .inr ⟨rfl, rfl⟩
  | pageLimit => exact .inr ⟨rfl, rfl⟩
  | nextPage => exact .inr ⟨rfl, rfl⟩
  | batchCompleted => exact .inr ⟨rfl, rfl⟩
  | pageLimitFailed => exact .inr ⟨rfl, rfl⟩
  | attemptClosed => exact .inr ⟨rfl, rfl⟩
  | endRejected _ hp =>
      left
      rcases hp with rfl | ⟨outcome, rfl⟩
      · simp [ExecutorState.phase]
      · simp [ExecutorState.phase]
  | _ => left; simp [ExecutorState.phase]

/-- In the phase of the loop an execution is in the loop. -/
theorem processingBatches_of_phase (h : s.executor.phase = 4) : ProcessingBatches config s := by
  obtain ⟨db, pc⟩ := s
  cases pc <;> first | rfl | cases h

/-- **A step without a failure lowers the rank**, or the execution has come to its end. -/
theorem executionRank_turn (hr : Reachable config service s) (hin : IsExecuting s)
    (h : SteadyTurn config service s s') (hin' : IsExecuting s') :
    executionRank config s' < executionRank config s := by
  obtain ⟨t, a, hst, -, ht⟩ := h
  obtain ⟨hexec, -⟩ := identityFrame_onProperty hst
  obtain ⟨⟨db', pc'⟩, hstep, rfl⟩ := Option.map_eq_some_iff.mp ht
  have hphase := phase_effect (executorStep_effect hstep) fun outcome => by
    rw [hexec]
    exact hin outcome
  rw [hexec] at hphase
  rcases hphase with hlt | ⟨h₀, h₁⟩
  · exact Prod.Lex.toLex_lt_toLex.mpr (.inl hlt)
  · refine Prod.Lex.toLex_lt_toLex.mpr (.inr ⟨h₁.trans h₀.symm, ?_⟩)
    exact (loopRank_turn hr (processingBatches_of_phase h₀) ⟨t, a, hst, ht⟩).2
      (processingBatches_of_phase h₁)

/-- **What a step without a failure keeps** of an execution, and what it ends with. -/
theorem worksSince_turn {db₀ : Db Row} (hr : Reachable config service s) (hw : WorksSince db₀ s)
    (h : SteadyTurn config service s s') :
    (IsExecuting s' → WorksSince db₀ s') ∧
      ∀ outcome, s'.executor = .stopped outcome → Concluded db₀ s'.db outcome := by
  obtain ⟨t, a, hst, ha, ht⟩ := h
  have hrt : Reachable config service t := hr.trans (hst.mono fun _ _ _ => trivial)
  have hwt : WorksSince db₀ t := hw.onProperty hst
  obtain ⟨⟨db', pc'⟩, hstep, rfl⟩ := Option.map_eq_some_iff.mp ht
  have heffect := executorStep_effect hstep
  refine ⟨worksSince_effect hwt heffect, fun outcome hout => ?_⟩
  have hproceeds := executorStep_proceeds (progressInvariant_of_reachable hrt) ha hstep
  obtain ⟨r, hpc, hended, -⟩ := hproceeds outcome hout
  exact ⟨r, (hwt.run r hpc).effect heffect hpc, hended⟩

/-- A turn of an execution is one of the system. -/
theorem SteadyTurn.reachable (hr : Reachable config service s)
    (h : SteadyTurn config service s s') : Reachable config service s' := by
  obtain ⟨t, a, hst, -, ht⟩ := h
  have hrt : Reachable config service t := hr.trans (hst.mono fun _ _ _ => trivial)
  exact hrt.next ht

/-- An execution that goes on can take its next step, whatever it meets. -/
theorem IsExecuting.next (config : ExecutorConfig) (service : EcbRowService Row)
    (hin : IsExecuting s) (a : Answer Row) :
    ∃ s', next config service s (.executor a) = some s' := by
  obtain ⟨db, pc⟩ := s
  cases pc with
  | stopped outcome => exact absurd rfl (hin outcome)
  | _ => exact ⟨_, rfl⟩

/-- **An execution comes to its end.**  From every reachable state in which an execution goes on,
however many executions crashed before it, the steps that meet no failure lead to its end, whatever
the data pages hold and whatever happens to the properties in between: the run that was active in that
state, or the one the execution has created since, is then COMPLETED, FAILED or SOURCE_CHANGED as the
outcome says, every other run is as it was, and no run is active. -/
theorem execution_concludes (hr : Reachable config service s) (hin : IsExecuting s) :
    (∀ a : Answer Row, ∃ s', next config service s (.executor a) = some s') ∧
    ∀ trace : Nat → SystemState Row, trace 0 = s →
      (∀ n, IsExecuting (trace n) → SteadyTurn config service (trace n) (trace (n + 1))) →
      ∃ n outcome, (trace n).executor = .stopped outcome ∧ Concluded s.db (trace n).db outcome := by
  refine ⟨hin.next config service, fun trace h₀ htrace => ?_⟩
  obtain ⟨n, ⟨-, -, hconcluded⟩, hout⟩ := exits_of_rank wellFounded_lt IsExecuting
    (I := fun t => Reachable config service t ∧ (IsExecuting t → WorksSince s.db t) ∧
      ∀ outcome, t.executor = .stopped outcome → Concluded s.db t.db outcome)
    (executionRank config)
    (fun hI hin ht => ⟨⟨ht.reachable hI.1, worksSince_turn hI.1 (hI.2.1 hin) ht⟩,
      executionRank_turn hI.1 hin ht⟩)
    (by
      rw [h₀]
      exact ⟨hr, fun _ => .refl (progressInvariant_of_reachable hr),
        fun outcome hout => absurd hout (hin outcome)⟩) htrace
  simp only [IsExecuting, not_forall, not_not] at hout
  obtain ⟨outcome, hout⟩ := hout
  exact ⟨n, outcome, hout, hconcluded outcome hout⟩

/-- An answer without a failure, with an id that is not in use. -/
def steadyAnswer (db : Db Row) : Answer Row := quietAnswer (db.runs.keys.sum + 1) 7 []

theorem steadyAnswer_steady (db : Db Row) : (steadyAnswer db).Steady db where
  quiet := quietAnswer_quiet
  metadata := ⟨7, rfl⟩
  fresh := by
    by_contra hfound
    have hle := List.le_sum_of_mem ((db.runs.mem_keys _).mpr hfound)
    exact absurd hle (Nat.not_succ_le_self _)

/-- The steps of an execution that meets these answers. -/
def steadyTrace (config : ExecutorConfig) (service : EcbRowService Row) (s : SystemState Row) :
    Nat → SystemState Row
  | 0 => s
  | n + 1 =>
    let t := steadyTrace config service s n
    (next config service t (.executor (steadyAnswer t.db))).getD t

theorem steadyTrace_turn (s : SystemState Row) (n : Nat)
    (hin : IsExecuting (steadyTrace config service s n)) :
    SteadyTurn config service (steadyTrace config service s n)
      (steadyTrace config service s (n + 1)) := by
  obtain ⟨s', hs⟩ := hin.next config service
    (steadyAnswer (steadyTrace config service s n).db)
  refine ⟨_, _, .refl, steadyAnswer_steady _, ?_⟩
  rw [steadyTrace, hs, Option.getD_some]

end Rank

theorem execution_concludes_interruptedRun : ∃ s,
    Library.run (next smallConfig plainService) .initial interruptedRun = some s ∧
    ∃ n outcome, (steadyTrace smallConfig plainService s n).executor = .stopped outcome ∧
      Concluded s.db (steadyTrace smallConfig plainService s n).db outcome := by
  have hs : ((Library.run (next smallConfig plainService) .initial interruptedRun).map fun s =>
      (s.executor.loopPosition smallConfig).isSome) = some true := by decide +kernel
  obtain ⟨s, hrun, hloop⟩ := Option.map_eq_some_iff.mp hs
  have hr : Reachable smallConfig plainService s := run_steps (runOk_trivial _ _) hrun
  have hin : IsExecuting s := fun outcome hout => by
    rw [hout] at hloop
    cases hloop
  exact ⟨s, hrun, (execution_concludes hr hin).2 _ rfl fun n => steadyTrace_turn s n⟩

end NycPropertyResolver
