import NycPropertyResolver.Ingestion.Lifecycle

/-!
# Ingestion — what a write changes

The writes of the executor, read table by table: what a write makes of the row of one run
(`RowChange`), of its batches (`BatchesChange`) and of its staging rows (`staging_write`), and which
writes reach the snapshots, the live rows and the coverage.  They hold of a write wherever and whenever
it lands; an invariant about one table is a case analysis on what happens to that table.
-/

namespace NycPropertyResolver

open Library

variable {Row : Type} {config : ExecutorConfig}

/-! ### Rows of runs -/

/-- The run whose row the next statement of an execution locks or writes. -/
def ExecutorState.runRow? : ExecutorState Row → Option RunId
  | .snapshotLoaded runId _ | .startWatermarkFetched runId _ => some runId
  | .endWatermarkFetched runId _ _ | .readyForPublication runId => some runId
  | .publishingTerminalFailure request => some request.runId
  | _ => none

/-- **What a write makes of the row of a run.** -/
inductive RowChange (a : Answer Row) (db : Db Row) (pc : ExecutorState Row) (r : RunId)
    (db' : Db Row) (run : IngestionRun) : IngestionRun → Prop where
  | same : RowChange a db pc r db' run run
  | initialized {n₁ n₂ n₃ : Option Nat} {definitions : List IngestionBatchDefinition}
      (hpc : pc.runRow? = some r) (hi : run.initializationComplete = false)
      (hb : db'.batches r = pendingBatches definitions)
      (hbins : (definitions.map (·.bins)).flatten = (Db.distinctBins (db'.snapshot r)).toList) :
      RowChange a db pc r db' run { run with
        expectedPropertyBinCount := n₁
        expectedBinCount := n₂
        expectedBatchCount := n₃
        initializationComplete := true }
  | started {rowsUpdatedAt : Nat} {now : Time} (hpc : pc = .startWatermarkFetched r rowsUpdatedAt)
      (hs : run.status = .queued) (hi : run.initializationComplete = true)
      (hw : run.sourceWatermarkAtStart = none) (hst : db'.staging = db.staging)
      (hb : db'.batches = db.batches) :
      RowChange a db pc r db' run { run with
        sourceWatermarkAtStart := some (rowsUpdatedAtToDate rowsUpdatedAt)
        status := .running
        startedAt := some now }
  | ended {startWatermark endWatermark : Time}
      (hpc : pc = .endWatermarkFetched r startWatermark endWatermark) :
      RowChange a db pc r db' run { run with sourceWatermarkAtEnd := some endWatermark }
  | failed {request : IngestionTerminalPublicationRequest}
      (hpc : pc = .publishingTerminalFailure request ∧ request.runId = r)
      (hmove : CanBecome run.status request.status)
      (hs : request.status ≠ .running) (hc : request.status ≠ .completed) :
      RowChange a db pc r db' run (Db.terminalRun request run)
  | accepted {outcome : AcceptedPublicationOutcome} (hpc : pc = .readyForPublication r)
      (hpublish : db.publish a.publication r = (db', .ok outcome)) (h : db.Publishable r run) :
      RowChange a db pc r db' run (Db.acceptedRun a.publication.now run)

section Rows

variable {a : Answer Row} {db db' : Db Row} {pc : ExecutorState Row} {r : RunId}
  {run run' : IngestionRun}

/-- The row of a run after an update of one run. -/
theorem RowChange.of_modify {r₀ : RunId} {f : IngestionRun → IngestionRun}
    (hruns : db'.runs = db.runs.modify r₀ f) (hr : db.runs.find r = some run)
    (hf : r = r₀ → RowChange a db pc r db' run (f run)) :
    ∃ run', db'.runs.find r = some run' ∧ RowChange a db pc r db' run run' := by
  by_cases e : r = r₀
  · refine ⟨f run, ?_, hf e⟩
    rw [hruns, e, Table.find_modify_self, ← e, hr, Option.map_some]
  · refine ⟨run, ?_, .same⟩
    rw [hruns, Table.find_modify_ne e, hr]

/-- **A step changes the row of a run as it may.** -/
theorem row_write (h : Write config a db pc db') (hr : db.runs.find r = some run) :
    ∃ run', db'.runs.find r = some run' ∧ RowChange a db pc r db' run run' := by
  cases h with
  | nothing => exact ⟨run, hr, .same⟩
  | @runCreated r₀ _ _ h =>
      obtain ⟨-, hnone, rfl⟩ := Db.createQueued_eq_ok h
      have e : r ≠ r₀ := by
        rintro rfl
        rw [hnone] at hr
        cases hr
      exact ⟨run, (Table.find_set_ne e).trans hr, .same⟩
  | @snapshotStored _ rows _ _ hpc h =>
      obtain ⟨run₀, hr₀, hi, rfl, rfl⟩ := Db.initializeRunSnapshotAndBatches_eq_ok h
      refine RowChange.of_modify rfl hr ?_
      rintro rfl
      cases hr₀.symm.trans hr
      refine .initialized (by rw [hpc]; rfl) hi (Function.update_self ..) ?_
      simp only [Function.update_self]
      exact Db.flatten_buildBatchDefinitions (Db.distinctBins rows).toList config.socrataPageSize
        config.ecbBatchSize_pos
  | runStarted hpc h =>
      obtain ⟨run₀, hr₀, hs, hi, hw, rfl⟩ := Db.setStartWatermarkAndRunning_eq_ok h
      refine RowChange.of_modify rfl hr ?_
      rintro rfl
      cases hr₀.symm.trans hr
      exact .started hpc hs hi hw rfl rfl
  | batchUpdated => exact ⟨run, hr, .same⟩
  | rawPersisted => exact ⟨run, hr, .same⟩
  | rowStaged => exact ⟨run, hr, .same⟩
  | endPersisted hpc =>
      refine RowChange.of_modify rfl hr ?_
      rintro rfl
      exact .ended hpc
  | terminalPublished hpc h =>
      obtain ⟨hv, ht⟩ := Db.publishTerminalFailure_ok h
      obtain ⟨hst, -, -⟩ := Db.validate_eq_ok hv
      obtain ⟨run₀, _, hr₀, hactive, hsc, rfl⟩ := Db.terminalTransaction_frame ht
      refine RowChange.of_modify rfl hr ?_
      rintro rfl
      cases hr₀.symm.trans hr
      refine .failed ⟨hpc, rfl⟩ ?_ ?_ ?_
      · rcases hst with hst | hst
        · rcases Db.isActive_iff.mp hactive with hs | hs
          · rw [hst, hs]
            exact .failQueued
          · rw [hst, hs]
            exact .fail
        · rw [hst, (hsc hst).1]
          exact .reject
      · rcases hst with hst | hst <;> simp [hst]
      · rcases hst with hst | hst <;> simp [hst]
  | acceptedPublished hpc hpublish =>
      rcases Db.acceptedTransaction_frame (Db.publish_ok hpublish) with
        rfl | ⟨run₀, _, _, hp, -, rfl⟩
      · exact ⟨run, hr, .same⟩
      refine RowChange.of_modify rfl hr ?_
      rintro rfl
      cases hp.found.symm.trans hr
      exact .accepted hpc hpublish hp

/-- A row that a step inserts is that of a run that is QUEUED. -/
theorem row_write_new (h : Write config a db pc db') (hr : db.runs.find r = none)
    (hr' : db'.runs.find r = some run') : ∃ triggerType, run' = Db.queuedRun triggerType := by
  have modified : ∀ {r₀ : RunId} {f : IngestionRun → IngestionRun},
      db'.runs = db.runs.modify r₀ f → False := by
    intro r₀ f hruns
    rw [hruns, Table.find_modify] at hr'
    split at hr'
    · rename_i e
      rw [hr] at hr'
      cases hr'
    · rw [hr] at hr'
      cases hr'
  have same : db'.runs = db.runs → False := fun hruns => by
    rw [hruns, hr] at hr'
    cases hr'
  cases h with
  | nothing => exact (same rfl).elim
  | @runCreated r₀ triggerType _ h =>
      obtain ⟨-, -, rfl⟩ := Db.createQueued_eq_ok h
      by_cases e : r = r₀
      · subst e
        simp only [Table.find_set_self, Option.some.injEq] at hr'
        exact ⟨triggerType, hr'.symm⟩
      · rw [show db.runs.find r = some run' from (Table.find_set_ne e).symm.trans hr'] at hr
        cases hr
  | snapshotStored _ h =>
      obtain ⟨_, -, -, rfl, rfl⟩ := Db.initializeRunSnapshotAndBatches_eq_ok h
      exact (modified rfl).elim
  | runStarted _ h =>
      obtain ⟨_, -, -, -, -, rfl⟩ := Db.setStartWatermarkAndRunning_eq_ok h
      exact (modified rfl).elim
  | batchUpdated => exact (same rfl).elim
  | rawPersisted => exact (same rfl).elim
  | rowStaged => exact (same rfl).elim
  | endPersisted => exact (modified rfl).elim
  | terminalPublished _ h =>
      obtain ⟨-, ht⟩ := Db.publishTerminalFailure_ok h
      obtain ⟨_, _, -, -, -, rfl⟩ := Db.terminalTransaction_frame ht
      exact (modified rfl).elim
  | acceptedPublished _ h =>
      rcases Db.acceptedTransaction_frame (Db.publish_ok h) with rfl | ⟨_, _, _, -, -, rfl⟩
      · exact (same rfl).elim
      · exact (modified rfl).elim

/-- The row of a run, before and after a step. -/
theorem row_before (h : Write config a db pc db') (hr' : db'.runs.find r = some run') :
    (db.runs.find r = none ∧ ∃ triggerType, run' = Db.queuedRun triggerType) ∨
      ∃ run, db.runs.find r = some run ∧ RowChange a db pc r db' run run' := by
  cases hr : db.runs.find r with
  | none => exact .inl ⟨rfl, row_write_new h hr hr'⟩
  | some run =>
      obtain ⟨run₁, hr₁, hchange⟩ := row_write h hr
      cases hr₁.symm.trans hr'
      exact .inr ⟨run, rfl, hchange⟩

/-- A start watermark stays. -/
theorem RowChange.start {w : Time} (h : RowChange a db pc r db' run run')
    (hw : run.sourceWatermarkAtStart = some w) : run'.sourceWatermarkAtStart = some w := by
  cases h with
  | started _ _ _ hnone =>
      rw [hnone] at hw
      cases hw
  | _ => exact hw

/-- An initialized run stays so. -/
theorem RowChange.initializationComplete (h : RowChange a db pc r db' run run')
    (hi : run.initializationComplete = true) : run'.initializationComplete = true := by
  cases h with
  | initialized => rfl
  | _ => exact hi

/-- A row that the statement does not write stays. -/
theorem RowChange.eq_of_ne (h : RowChange a db pc r db' run run') (hne : pc.runRow? ≠ some r) :
    run' = run := by
  cases h with
  | same => rfl
  | initialized hpc => exact absurd hpc hne
  | started hpc => exact absurd (by rw [hpc]; rfl) hne
  | ended hpc => exact absurd (by rw [hpc]; rfl) hne
  | failed hpc =>
      obtain ⟨rfl, rfl⟩ := hpc
      exact absurd rfl hne
  | accepted hpc => exact absurd (by rw [hpc]; rfl) hne

/-- The status stays, or moves along one edge. -/
theorem RowChange.status (h : RowChange a db pc r db' run run') : OneMove run.status run'.status := by
  cases h with
  | started _ hs => exact .inr (hs ▸ .start)
  | failed _ hmove => exact .inr hmove
  | accepted _ _ hp => exact .inr (hp.running ▸ .complete)
  | _ => exact .inl rfl

end Rows

/-! ### Batches -/

/-- A batch with the same number and definition. -/
structure SameBatch (b b' : IngestionBatch) : Prop where
  number : b'.batchNumber = b.batchNumber
  definition : b'.batchDefinition = b.batchDefinition

theorem SameBatch.refl (b : IngestionBatch) : SameBatch b b := ⟨rfl, rfl⟩

section Batches

variable {a : Answer Row} {db db' : Db Row} {pc : ExecutorState Row} {r r₀ : RunId} {n : Nat}
  {f : IngestionBatch → IngestionBatch} {R : IngestionBatch → IngestionBatch → Prop}

theorem forall₂_of_eq (hrefl : ∀ b, R b b) (h : db'.batches r = db.batches r) :
    List.Forall₂ R (db.batches r) (db'.batches r) := by
  rw [h]
  exact List.forall₂_same.mpr fun b _ => hrefl b

theorem forall₂_modifyBatch (hrefl : ∀ b, R b b) (hf : ∀ b, R b (f b)) :
    List.Forall₂ R (db.batches r) ((db.modifyBatch r₀ n f).batches r) := by
  by_cases e : r = r₀
  · subst e
    simp only [Db.modifyBatch, Function.update_self]
    rw [List.forall₂_map_right_iff, List.forall₂_same]
    intro b _
    split
    · exact hf b
    · exact hrefl b
  · exact forall₂_of_eq hrefl (Function.update_of_ne e _ _)

/-- **What a step makes of the batches of a run**, and of its snapshot. -/
inductive BatchesChange (db : Db Row) (pc : ExecutorState Row) (r : RunId) (db' : Db Row) : Prop where
  | same (hb : db'.batches r = db.batches r) (hs : db'.snapshot r = db.snapshot r)
  | updated {n : Nat} {f : IngestionBatch → IngestionBatch} (hpc : pc.batch? = some (r, n))
      (hf : KeepsDefinition f) (hb : db'.batches r = (db.modifyBatch r n f).batches r)
      (hs : db'.snapshot r = db.snapshot r)
  | stored {run : IngestionRun} {definitions : List IngestionBatchDefinition}
      (hr : db.runs.find r = some run) (hi : run.initializationComplete = false)
      (hb : db'.batches r = pendingBatches definitions)

theorem batches_change (h : Write config a db pc db') (r : RunId) : BatchesChange db pc r db' := by
  cases h with
  | nothing => exact .same rfl rfl
  | runCreated h =>
      obtain ⟨-, -, rfl⟩ := Db.createQueued_eq_ok h
      exact .same rfl rfl
  | @snapshotStored r₀ rows _ _ _ h =>
      obtain ⟨run₀, hr₀, hi₀, rfl, rfl⟩ := Db.initializeRunSnapshotAndBatches_eq_ok h
      by_cases e : r = r₀
      · subst e
        exact .stored hr₀ hi₀ (Function.update_self ..)
      · exact .same (Function.update_of_ne e _ _) (Function.update_of_ne e _ _)
  | runStarted _ h =>
      obtain ⟨_, -, -, -, -, rfl⟩ := Db.setStartWatermarkAndRunning_eq_ok h
      exact .same rfl rfl
  | @batchUpdated r₀ n f hpc hf =>
      by_cases e : r = r₀
      · subst e
        exact .updated hpc hf rfl rfl
      · exact .same (Function.update_of_ne e _ _) rfl
  | rawPersisted => exact .same rfl rfl
  | rowStaged => exact .same rfl rfl
  | endPersisted => exact .same rfl rfl
  | terminalPublished _ h =>
      obtain ⟨-, ht⟩ := Db.publishTerminalFailure_ok h
      obtain ⟨_, _, -, -, -, rfl⟩ := Db.terminalTransaction_frame ht
      exact .same rfl rfl
  | acceptedPublished _ h =>
      rcases Db.acceptedTransaction_frame (Db.publish_ok h) with rfl | ⟨_, _, _, -, -, rfl⟩
      · exact .same rfl rfl
      · exact .same rfl rfl

/-- **An initialized run keeps its batches**, with their definitions, and its snapshot. -/
theorem BatchesChange.keeps (h : BatchesChange db pc r db') {run : IngestionRun}
    (hr : db.runs.find r = some run) (hi : run.initializationComplete = true) :
    List.Forall₂ SameBatch (db.batches r) (db'.batches r) ∧ db'.snapshot r = db.snapshot r := by
  cases h with
  | same hb hs => exact ⟨forall₂_of_eq .refl hb, hs⟩
  | updated _ hf hb hs =>
      rw [hb]
      exact ⟨forall₂_modifyBatch .refl fun b => ⟨(hf b).1, (hf b).2⟩, hs⟩
  | stored hr₀ hi₀ =>
      cases hr₀.symm.trans hr
      rw [hi] at hi₀
      cases hi₀

/-- And where the execution is in none of them they are the same. -/
theorem BatchesChange.unchanged (h : BatchesChange db pc r db') {run : IngestionRun}
    (hr : db.runs.find r = some run) (hi : run.initializationComplete = true)
    (hpc : ∀ n, pc.batch? ≠ some (r, n)) : db'.batches r = db.batches r := by
  cases h with
  | same hb => exact hb
  | updated hpc₀ => exact absurd hpc₀ (hpc _)
  | stored hr₀ hi₀ =>
      cases hr₀.symm.trans hr
      rw [hi] at hi₀
      cases hi₀

end Batches

/-! ### The other tables -/

section Tables

variable {a : Answer Row} {db db' : Db Row} {pc : ExecutorState Row}

/-- Only the storing of a snapshot changes the snapshots, and no write of the executor touches the
properties. -/
theorem write_snapshot (h : Write config a db pc db') :
    db'.properties = db.properties ∧ db'.propertyBins = db.propertyBins ∧
      (db'.snapshot = db.snapshot ∨ ∃ runId rows, pc = .snapshotLoaded runId rows ∧
        db'.snapshot = Function.update db.snapshot runId rows) := by
  cases h with
  | nothing => exact ⟨rfl, rfl, Or.inl rfl⟩
  | runCreated h =>
      obtain ⟨-, -, rfl⟩ := Db.createQueued_eq_ok h
      exact ⟨rfl, rfl, Or.inl rfl⟩
  | snapshotStored hpc h =>
      obtain ⟨_, -, -, -, rfl⟩ := Db.initializeRunSnapshotAndBatches_eq_ok h
      exact ⟨rfl, rfl, Or.inr ⟨_, _, hpc, rfl⟩⟩
  | runStarted _ h =>
      obtain ⟨_, -, -, -, -, rfl⟩ := Db.setStartWatermarkAndRunning_eq_ok h
      exact ⟨rfl, rfl, Or.inl rfl⟩
  | batchUpdated => exact ⟨rfl, rfl, Or.inl rfl⟩
  | rawPersisted => exact ⟨rfl, rfl, Or.inl rfl⟩
  | rowStaged => exact ⟨rfl, rfl, Or.inl rfl⟩
  | endPersisted => exact ⟨rfl, rfl, Or.inl rfl⟩
  | terminalPublished _ h =>
      obtain ⟨-, ht⟩ := Db.publishTerminalFailure_ok h
      obtain ⟨_, _, -, -, -, rfl⟩ := Db.terminalTransaction_frame ht
      exact ⟨rfl, rfl, Or.inl rfl⟩
  | acceptedPublished _ h =>
      rcases Db.acceptedTransaction_frame (Db.publish_ok h) with rfl | ⟨_, _, _, -, -, rfl⟩
      · exact ⟨rfl, rfl, Or.inl rfl⟩
      · exact ⟨rfl, rfl, Or.inl rfl⟩

/-- Only an execution in a batch of a run stages rows for it. -/
theorem staging_write (h : Write config a db pc db') (r : RunId) :
    db'.staging r = db.staging r ∨ ∃ n, pc.batch? = some (r, n) := by
  cases h with
  | runCreated h =>
      obtain ⟨-, -, rfl⟩ := Db.createQueued_eq_ok h
      exact .inl rfl
  | snapshotStored _ h =>
      obtain ⟨_, -, -, -, rfl⟩ := Db.initializeRunSnapshotAndBatches_eq_ok h
      exact .inl rfl
  | runStarted _ h =>
      obtain ⟨_, -, -, -, -, rfl⟩ := Db.setStartWatermarkAndRunning_eq_ok h
      exact .inl rfl
  | @rowStaged r₀ n _ hpc =>
      by_cases e : r = r₀
      · exact .inr ⟨n, e ▸ hpc⟩
      · exact .inl (Db.staging_upsertStaging_ne e)
  | terminalPublished _ h =>
      obtain ⟨-, ht⟩ := Db.publishTerminalFailure_ok h
      obtain ⟨_, _, -, -, -, rfl⟩ := Db.terminalTransaction_frame ht
      exact .inl rfl
  | acceptedPublished _ h =>
      rcases Db.acceptedTransaction_frame (Db.publish_ok h) with rfl | ⟨_, _, _, -, -, rfl⟩
      · exact .inl rfl
      · exact .inl rfl
  | _ => exact .inl rfl

/-- **Only a publication writes live rows or coverage.** -/
theorem write_publication (h : Write config a db pc db') :
    db'.live = db.live ∧ db'.coverage = db.coverage ∨
      (∃ request, pc = .publishingTerminalFailure request ∧
        db.publishTerminalFailure a.publication request = (db', .ok ())) ∨
      ∃ runId outcome, pc = .readyForPublication runId ∧
        db.publish a.publication runId = (db', .ok outcome) := by
  cases h with
  | runCreated h =>
      obtain ⟨-, -, rfl⟩ := Db.createQueued_eq_ok h
      exact .inl ⟨rfl, rfl⟩
  | snapshotStored _ h =>
      obtain ⟨_, -, -, -, rfl⟩ := Db.initializeRunSnapshotAndBatches_eq_ok h
      exact .inl ⟨rfl, rfl⟩
  | runStarted _ h =>
      obtain ⟨_, -, -, -, -, rfl⟩ := Db.setStartWatermarkAndRunning_eq_ok h
      exact .inl ⟨rfl, rfl⟩
  | terminalPublished hpc h => exact .inr (.inl ⟨_, hpc, h⟩)
  | acceptedPublished hpc h => exact .inr (.inr ⟨_, _, hpc, h⟩)
  | _ => exact .inl ⟨rfl, rfl⟩

end Tables

end NycPropertyResolver
