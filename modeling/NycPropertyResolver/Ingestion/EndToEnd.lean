import NycPropertyResolver.Ingestion.CoverageAgreement
import NycPropertyResolver.Ingestion.Source

/-!
# Ingestion — an accepted run, end to end

While the source stands at the start watermark of a run, what the run has staged is sound, and
complete for its COMPLETED batches and for what its current attempt has read (`StagingAgrees`).  Once
the watermark has moved nothing is known, and the run can no longer be accepted, unless its end
watermark was fetched before: then its staging rows are exactly the source rows at the start
watermark on its BINs, for good (`StagingExact`).
-/

namespace NycPropertyResolver

open Library

variable {Row : Type} {config : ExecutorConfig} {columns : SourceColumns Row}
  {service : EcbRowService Row} {source : Nat → SourceDataset Row}

/-! ### Statements -/

/-- The watermark at an instant, as a run persists it. -/
def watermarkAt (source : Nat → SourceDataset Row) (i : Nat) : Time :=
  rowsUpdatedAtToDate (source i).rowsUpdatedAt

/-- A source row is staged as it normalizes. -/
def IsStaged (service : EcbRowService Row) (staging : Table SourceId NormalizedEcbViolation)
    (row : Row) : Prop :=
  ∀ v, service.normalizeEcbViolation row = some v → staging.find v.sourceId = some v

/-- What is staged are source rows, normalized. -/
def StagedFrom (service : EcbRowService Row) (rows : List Row)
    (staging : Table SourceId NormalizedEcbViolation) : Prop :=
  ∀ sourceId v, staging.find sourceId = some v →
    v.sourceId = sourceId ∧ ∃ row ∈ rows, service.normalizeEcbViolation row = some v

/-- The rows before the offset of an attempt are staged. -/
def OffsetStaged (columns : SourceColumns Row) (service : EcbRowService Row) (rows : List Row)
    (staging : Table SourceId NormalizedEcbViolation) (attempt : BatchAttempt) : Prop :=
  ∀ row ∈ (matchingRows columns service rows attempt.definition.bins).take attempt.offset,
    IsStaged service staging row

/-- The page in work: it is the slice asked for, and its rows are staged but for the remaining. -/
structure PageStaged (columns : SourceColumns Row) (service : EcbRowService Row) (rows : List Row)
    (staging : Table SourceId NormalizedEcbViolation) (attempt : BatchAttempt)
    (page remaining : List Row) : Prop where
  offset : OffsetStaged columns service rows staging attempt
  page_eq : page = dataPage columns service rows attempt.definition.bins attempt.offset
    attempt.definition.pageSize
  done : ∃ done, page = done ++ remaining ∧ ∀ row ∈ done, IsStaged service staging row

/-- What the attempt in progress has staged. -/
def AttemptStaged (columns : SourceColumns Row) (service : EcbRowService Row) (rows : List Row)
    (staging : Table SourceId NormalizedEcbViolation) : ExecutorState Row → Prop
  | .fetchingPage attempt => OffsetStaged columns service rows staging attempt
  | .processingRows attempt page remaining =>
    PageStaged columns service rows staging attempt page remaining
  | .stagingRow attempt page row _ remaining =>
    PageStaged columns service rows staging attempt page (row :: remaining)
  | .completingBatch attempt =>
    ∀ row ∈ matchingRows columns service rows attempt.definition.bins, IsStaged service staging row
  | _ => True

/-- What the staging rows of a run hold while the source stands at its start watermark. -/
structure StagingAgrees (columns : SourceColumns Row) (service : EcbRowService Row)
    (rows : List Row) (db : Db Row) (r : RunId) (pc : ExecutorState Row) : Prop where
  sound : StagedFrom service rows (db.staging r)
  completed : ∀ b ∈ db.batches r, b.status = .completed →
    ∀ row ∈ matchingRows columns service rows b.batchDefinition.bins,
      IsStaged service (db.staging r) row
  attempt : pc.runningRun? = some r → AttemptStaged columns service rows (db.staging r) pc

/-- The staging rows of a run on its BINs are exactly the source rows on them. -/
def StagingExact (service : EcbRowService Row) (rows : List Row) (db : Db Row) (r : RunId) : Prop :=
  ∀ sourceId v, v.bin ∈ Db.distinctBins (db.snapshot r) →
    ((db.staging r).find sourceId = some v ↔
      v.sourceId = sourceId ∧ ∃ row ∈ rows, service.normalizeEcbViolation row = some v)

/-- A run that has read all it reads: its batches are COMPLETED, and its staging rows exact at every
instant with its start watermark. -/
structure ReadToTheEnd (service : EcbRowService Row) (source : Nat → SourceDataset Row) (db : Db Row)
    (r : RunId) (startWatermark : Time) : Prop where
  batches : ∀ b ∈ db.batches r, b.status = .completed
  exact : ∀ i, watermarkAt source i = startWatermark → StagingExact service (source i).rows db r

/-- What is in hand at the end of the batches. -/
def HandsOver (service : EcbRowService Row) (source : Nat → SourceDataset Row) (db : Db Row)
    (r : RunId) : ExecutorState Row → Prop
  | .finalizing r' => r' = r → ∀ b ∈ db.batches r, b.status = .completed
  | .endWatermarkFetched r' startWatermark endWatermark => r' = r →
    endWatermark = startWatermark → ReadToTheEnd service source db r startWatermark
  | _ => True

/-- **The source invariant of a run.** -/
structure SourceInvariant (columns : SourceColumns Row) (service : EcbRowService Row)
    (source : Nat → SourceDataset Row) (r : RunId) (s : TrackedState Row) : Prop where
  batch : BatchInvariant s.system
  stamps : StampsCompleted s.system.db
  fetched : ∀ rowsUpdatedAt, s.system.executor = .startWatermarkFetched r rowsUpdatedAt →
    ∃ i ≤ s.instant, (source i).rowsUpdatedAt = rowsUpdatedAt
  started : ∀ run w, s.system.db.runs.find r = some run → run.status = .running →
    run.sourceWatermarkAtStart = some w → ∃ i ≤ s.instant, watermarkAt source i = w
  staged : ∀ run, s.system.db.runs.find r = some run → run.status = .running →
    run.sourceWatermarkAtStart = some (watermarkAt source s.instant) →
      StagingAgrees columns service (source s.instant).rows s.system.db r s.system.executor
  handsOver : HandsOver service source s.system.db r s.system.executor
  accepted : ∀ run w, s.system.db.runs.find r = some run → run.status = .running →
    run.sourceWatermarkAtStart = some w → run.sourceWatermarkAtEnd = some w →
      ReadToTheEnd service source s.system.db r w

/-! ### Watermarks -/

theorem rowsUpdatedAtToDate_inj {k k' : Nat} :
    rowsUpdatedAtToDate k = rowsUpdatedAtToDate k' ↔ k = k' := by
  constructor
  · intro h
    have h' : (k : Int) * 1000 = (k' : Int) * 1000 := h
    omega
  · rintro rfl
    rfl

theorem watermarkAt_eq {i j : Nat} (h : watermarkAt source i = watermarkAt source j) :
    (source i).rowsUpdatedAt = (source j).rowsUpdatedAt :=
  rowsUpdatedAtToDate_inj.mp h

/-! ### Staging -/

section Staging

variable {rows rows' : List Row} {db db' : Db Row} {r : RunId} {pc pc' : ExecutorState Row}
  {staging : Table SourceId NormalizedEcbViolation} {attempt : BatchAttempt}

theorem StagedFrom.perm (h : StagedFrom service rows staging) (hp : rows.Perm rows') :
    StagedFrom service rows' staging := by
  intro sourceId v hv
  obtain ⟨he, row, hrow, hn⟩ := h sourceId v hv
  exact ⟨he, row, hp.mem_iff.mp hrow, hn⟩

/-- While the watermark stands, what agrees goes on to. -/
theorem StagingAgrees.of_source {i j : Nat} (hA : SourceAssumptions columns service source)
    (e : (source i).rowsUpdatedAt = (source j).rowsUpdatedAt)
    (h : StagingAgrees columns service (source i).rows db r pc) :
    StagingAgrees columns service (source j).rows db r pc := by
  have hm : ∀ bins, matchingRows columns service (source i).rows bins =
      matchingRows columns service (source j).rows bins := fun bins => hA.matchingRows_eq e
  refine ⟨h.sound.perm (hA.perm e), fun b hb hs => hm _ ▸ h.completed b hb hs, fun hpc => ?_⟩
  have ha := h.attempt hpc
  cases pc <;> simp only [AttemptStaged, OffsetStaged] at ha ⊢
  case fetchingPage attempt => rwa [← hm]
  case processingRows attempt page remaining =>
    exact ⟨by simpa only [OffsetStaged, hm] using ha.offset,
      by simpa only [dataPage, hm] using ha.page_eq, ha.done⟩
  case stagingRow attempt page row sourceId remaining =>
    exact ⟨by simpa only [OffsetStaged, hm] using ha.offset,
      by simpa only [dataPage, hm] using ha.page_eq, ha.done⟩
  case completingBatch attempt => rwa [← hm]

/-- A batch that a write leaves COMPLETED was so, where the write completes none. -/
theorem completed_modifyBatch {runId : RunId} {n : Nat} {f : IngestionBatch → IngestionBatch}
    (hf : ∀ b, (f b).status = .completed → b.status = .completed) (hk : KeepsDefinition f) :
    ∀ b' ∈ (db.modifyBatch runId n f).batches r, b'.status = .completed → ∃ b ∈ db.batches r,
      b.status = .completed ∧ b.batchDefinition = b'.batchDefinition := by
  intro b' hb' hs
  by_cases e : r = runId
  · subst e
    obtain ⟨b, hb, rfl⟩ := Db.mem_modifyBatch.mp hb'
    split at hs
    · rename_i hn
      rw [if_pos hn]
      exact ⟨b, hb, hf b hs, (hk b).2.symm⟩
    · rename_i hn
      rw [if_neg hn]
      exact ⟨b, hb, hs, rfl⟩
  · simp only [Db.modifyBatch, Function.update_of_ne e] at hb'
    exact ⟨b', hb', hs, rfl⟩

/-- What agrees goes on to while nothing is staged and no batch is completed. -/
theorem StagingAgrees.of_same (h : StagingAgrees columns service rows db r pc)
    (hst : db'.staging r = db.staging r)
    (hb : ∀ b' ∈ db'.batches r, b'.status = .completed → ∃ b ∈ db.batches r,
      b.status = .completed ∧ b.batchDefinition = b'.batchDefinition)
    (ha : pc'.runningRun? = some r →
      AttemptStaged columns service rows (db.staging r) pc') :
    StagingAgrees columns service rows db' r pc' := by
  refine ⟨hst ▸ h.sound, fun b' hb' hs => ?_, fun hpc => hst ▸ ha hpc⟩
  obtain ⟨b, hbm, hbs, hd⟩ := hb b' hb' hs
  rw [← hd, hst]
  exact h.completed b hbm hbs

/-- Staging a row of the source keeps the staged rows staged. -/
theorem IsStaged.set {i : Nat} (hA : SourceAssumptions columns service source) {row row' : Row}
    {v : NormalizedEcbViolation} (hrow : row ∈ (source i).rows)
    (hv : service.normalizeEcbViolation row = some v) (hrow' : row' ∈ (source i).rows)
    (h : IsStaged service staging row') : IsStaged service (staging.set v.sourceId v) row' := by
  intro v' hv'
  rw [Table.find_set]
  split
  · rename_i e
    rw [hA.sourceIds i row' hrow' row hrow v' v hv' hv e] at hv'
    rw [hv] at hv'
    exact hv'
  · exact h v' hv'

theorem isStaged_set_self {row : Row} {v : NormalizedEcbViolation}
    (hv : service.normalizeEcbViolation row = some v) :
    IsStaged service (staging.set v.sourceId v) row := by
  intro v' hv'
  rw [hv] at hv'
  cases hv'
  exact Table.find_set_self

/-- A page that is shorter than its limit is the last one. -/
theorem PageStaged.last {page : List Row}
    (h : PageStaged columns service rows staging attempt page [])
    (hl : page.length < attempt.definition.pageSize) :
    ∀ row ∈ matchingRows columns service rows attempt.definition.bins,
      IsStaged service staging row := by
  obtain ⟨done, hd, hdone⟩ := h.done
  rw [List.append_nil] at hd
  subst hd
  intro row hrow
  rw [← List.take_append_drop attempt.offset (matchingRows _ _ _ _), List.mem_append] at hrow
  rcases hrow with hrow | hrow
  · exact h.offset row hrow
  · refine hdone row ?_
    rw [h.page_eq, dataPage, List.length_take] at hl
    rw [h.page_eq, dataPage, List.take_of_length_le (by omega)]
    exact hrow

/-- After a page the offset has moved past its rows. -/
theorem PageStaged.next {page : List Row} {attempt' : BatchAttempt}
    (h : PageStaged columns service rows staging attempt page [])
    (hd : attempt'.definition = attempt.definition)
    (ho : attempt'.offset = attempt.offset + page.length) :
    OffsetStaged columns service rows staging attempt' := by
  obtain ⟨done, e, hdone⟩ := h.done
  rw [List.append_nil] at e
  subst e
  intro row hrow
  rw [hd, ho, List.take_add, List.mem_append] at hrow
  rcases hrow with hrow | hrow
  · exact h.offset row hrow
  · refine hdone row ?_
    rw [h.page_eq, dataPage]
    refine List.take_subset_take_left _ ?_ hrow
    rw [h.page_eq, dataPage, List.length_take]
    exact Nat.min_le_left _ _

/-- **At the end of the batches the staging rows are exact.** -/
theorem StagingAgrees.exact
    (hpartition : ((db.batches r).map (·.batchDefinition.bins)).flatten =
      (Db.distinctBins (db.snapshot r)).toList)
    (h : StagingAgrees columns service rows db r pc)
    (hb : ∀ b ∈ db.batches r, b.status = .completed) : StagingExact service rows db r := by
  intro sourceId v hv
  constructor
  · exact h.sound sourceId v
  · rintro ⟨rfl, row, hrow, hn⟩
    rw [SortedSet.mem_def, ← hpartition, List.mem_flatten] at hv
    obtain ⟨bins, hbins, hbin⟩ := hv
    obtain ⟨b, hbm, rfl⟩ := List.mem_map.mp hbins
    exact h.completed b hbm (hb b hbm) row
      (mem_matchingRows.mpr ⟨hrow, (hasBin_of_normalized hn).mpr hbin⟩) v hn

theorem StagingExact.perm (h : StagingExact service rows db r) (hp : rows.Perm rows') :
    StagingExact service rows' db r := by
  intro sourceId v hv
  rw [h sourceId v hv]
  simp only [hp.mem_iff]

theorem StagingExact.of_same (h : StagingExact service rows db r)
    (hsnap : db'.snapshot r = db.snapshot r) (hst : db'.staging r = db.staging r) :
    StagingExact service rows db' r := by
  simp only [StagingExact, hsnap, hst] at h ⊢
  exact h

end Staging

/-! ### One write -/

section Writes

variable {a : Answer Row} {db db' : Db Row} {r : RunId} {pc pc' : ExecutorState Row}

/-- A run that is RUNNING is initialized. -/
def RunningInitialized (db : Db Row) (r : RunId) : Prop :=
  ∀ run, db.runs.find r = some run → run.status = .running → run.initializationComplete = true

theorem LifecycleInvariant.runningInitialized (hI : LifecycleInvariant db) (r : RunId) :
    RunningInitialized db r :=
  fun run hr hs => ((hI.runs r run hr).started (Or.inl hs)).1

/-- **A run that a write leaves RUNNING** was so with the same start watermark, or starts. -/
theorem running_before (hinit : RunningInitialized db r) (h : Write config a db pc db')
    {run' : IngestionRun} (hr' : db'.runs.find r = some run') (hs' : run'.status = .running) :
    (∃ run, db.runs.find r = some run ∧ run.status = .running ∧
      run'.sourceWatermarkAtStart = run.sourceWatermarkAtStart ∧ db'.snapshot r = db.snapshot r) ∨
    ∃ rowsUpdatedAt, pc = .startWatermarkFetched r rowsUpdatedAt ∧ NotStarted db r ∧
      run'.sourceWatermarkAtStart = some (rowsUpdatedAtToDate rowsUpdatedAt) ∧
      (∃ run, db.runs.find r = some run ∧ run'.sourceWatermarkAtEnd = run.sourceWatermarkAtEnd) ∧
      db'.staging = db.staging ∧ db'.batches = db.batches := by
  rcases row_before h hr' with ⟨-, triggerType, rfl⟩ | ⟨run, hr, hchange⟩
  · cases hs'
  -- a run that was RUNNING keeps its snapshot
  have same : run.status = .running → db'.snapshot r = db.snapshot r :=
    fun hs => ((batches_change h r).keeps hr (hinit run hr hs)).2
  cases hchange with
  | same => exact Or.inl ⟨run', hr, hs', rfl, same hs'⟩
  | initialized => exact Or.inl ⟨run, hr, hs', rfl, same hs'⟩
  | @started rowsUpdatedAt _ hpc hs _ _ hst hb =>
      refine Or.inr ⟨rowsUpdatedAt, hpc, fun run₀ hr₀ => ?_, rfl, ⟨run, hr, rfl⟩, hst, hb⟩
      cases hr.symm.trans hr₀
      exact hs
  | ended => exact Or.inl ⟨run, hr, hs', rfl, same hs'⟩
  | failed _ _ hne => exact absurd hs' hne
  | accepted => cases hs'

theorem ReadToTheEnd.of_same {w : Time} (h : ReadToTheEnd service source db r w)
    (hsnap : db'.snapshot r = db.snapshot r) (hst : db'.staging r = db.staging r)
    (hb : db'.batches r = db.batches r) : ReadToTheEnd service source db' r w :=
  ⟨hb ▸ h.batches, fun i hi => (h.exact i hi).of_same hsnap hst⟩

/-- A run that has read all is in no batch. -/
theorem ReadToTheEnd.not_in_batch {w : Time} {n : Nat}
    (h : ReadToTheEnd service source db r w) (hs : Selects db pc) :
    pc.batch? ≠ some (r, n) := by
  intro hpc
  obtain ⟨b, hb, -⟩ := hs r n hpc
  exact (firstOpen_eq_some.mp hb).1 (h.batches b (List.mem_of_find?_eq_some hb))

/-- **An equal end watermark is persisted only for a run that has read all**, and it has from
then on. -/
theorem write_accepted (hI : BatchInvariant (⟨db, pc⟩ : SystemState Row))
    (hh : HandsOver service source db r pc)
    (hold : ∀ run w, db.runs.find r = some run → run.status = .running →
      run.sourceWatermarkAtStart = some w → run.sourceWatermarkAtEnd = some w →
        ReadToTheEnd service source db r w) (h : Write config a db pc db') {run' : IngestionRun}
    {w : Time} (hr' : db'.runs.find r = some run') (hs' : run'.status = .running)
    (hw' : run'.sourceWatermarkAtStart = some w) (he' : run'.sourceWatermarkAtEnd = some w) :
    ReadToTheEnd service source db' r w := by
  have hlife : LifecycleInvariant db := hI.system.lifecycle
  rcases running_before (hlife.runningInitialized r) h hr' hs' with
    ⟨run, hr, hs, hw, hsnap⟩ | ⟨k, -, hn, -, ⟨run, hr, he⟩, -, -⟩
  swap
  -- a run that starts has no end watermark
  · rw [(hI.untouched r hn).ending run hr, he'] at he
    cases he
  rw [hw] at hw'
  -- a run that has read all is in no batch, and stays as it is
  have kept : ReadToTheEnd service source db r w → ReadToTheEnd service source db' r w := by
    intro hread
    have hout : ∀ n, pc.batch? ≠ some (r, n) := fun n => hread.not_in_batch hI.selects
    refine hread.of_same hsnap ?_ ((batches_change h r).unchanged hr
      (hlife.runningInitialized r run hr hs) hout)
    exact (staging_write h r).resolve_right fun ⟨n, hpc⟩ => hout n hpc
  obtain ⟨run₁, hr₁, hchange⟩ := row_write h hr
  cases hr₁.symm.trans hr'
  have hold' := hold run w hr hs hw'
  cases hchange with
  | same => exact kept (hold' he')
  | initialized => exact kept (hold' he')
  | started => exact kept (hold' he')
  | @ended startWatermark endWatermark hpc =>
      -- the start watermark in hand is the one of the run
      have hrem := hI.system.knows.remembers
      simp only [hpc, Remembers, hr, Option.bind_some, hw', Option.some.injEq] at hrem
      rw [hpc] at hh
      subst hrem
      exact kept (hh rfl (Option.some.inj he'))
  | failed _ _ hne => exact absurd hs' hne
  | accepted => cases hs'

end Writes

/-! ### One step -/

section Steps

variable {a : Answer Row} {db db' : Db Row} {r : RunId} {pc pc' : ExecutorState Row} {i : Nat}

theorem mem_rows_of_mem_page {rows : List Row} {staging : Table SourceId NormalizedEcbViolation}
    {attempt : BatchAttempt} {page remaining : List Row} {row : Row}
    (h : PageStaged columns service rows staging attempt page remaining) (hrow : row ∈ page) :
    row ∈ rows := by
  rw [h.page_eq, dataPage] at hrow
  exact (mem_matchingRows.mp (List.mem_of_mem_drop (List.mem_of_mem_take hrow))).1

/-- Staging the next row of a page. -/
theorem StagingAgrees.stage (hA : SourceAssumptions columns service source)
    {attempt : BatchAttempt} {page rest : List Row} {row : Row} {sourceId : SourceId}
    {v : NormalizedEcbViolation} (hv : service.normalizeEcbViolation row = some v)
    (h : StagingAgrees columns service (source i).rows db attempt.runId
      (.stagingRow attempt page row sourceId rest)) :
    StagingAgrees columns service (source i).rows (db.upsertStaging attempt.runId v)
      attempt.runId (.processingRows attempt page rest) := by
  have ha : PageStaged columns service (source i).rows (db.staging attempt.runId) attempt page
      (row :: rest) := h.attempt rfl
  have hst : (db.upsertStaging attempt.runId v).staging attempt.runId =
      (db.staging attempt.runId).set v.sourceId v := by simp [Db.upsertStaging]
  obtain ⟨done, hd, hdone⟩ := ha.done
  have hrow : row ∈ (source i).rows := mem_rows_of_mem_page ha (by rw [hd]; simp)
  have keeps : ∀ row' ∈ (source i).rows, IsStaged service (db.staging attempt.runId) row' →
      IsStaged service ((db.staging attempt.runId).set v.sourceId v) row' :=
    fun row' hrow' h' => h'.set hA hrow hv hrow'
  refine ⟨fun sourceId' v' hv' => ?_, fun b hb hs row' hrow' => ?_, fun _ => ⟨fun row' hrow' => ?_,
    ha.page_eq, done ++ [row], by rw [hd, List.append_assoc]; rfl, fun row' hrow' => ?_⟩⟩
  · rw [hst, Table.find_set] at hv'
    split at hv'
    · rename_i e
      cases hv'
      exact ⟨e.symm, row, hrow, hv⟩
    · exact h.sound sourceId' v' hv'
  · rw [hst]
    exact keeps row' (mem_matchingRows.mp hrow').1 (h.completed b hb hs row' hrow')
  · rw [hst]
    exact keeps row' (mem_matchingRows.mp (List.mem_of_mem_take hrow')).1 (ha.offset row' hrow')
  · rw [hst]
    rcases List.mem_append.mp hrow' with hrow' | hrow'
    · exact keeps row' (mem_rows_of_mem_page ha (by rw [hd]; simp [hrow'])) (hdone row' hrow')
    · rw [List.mem_singleton.mp hrow']
      exact isStaged_set_self hv

/-- An attempt is at a batch of its run, with the definition of the batch. -/
def AttemptsBatch (db : Db Row) (attempt : BatchAttempt) : Prop :=
  ∃ b ∈ db.batches attempt.runId, b.batchNumber = attempt.batchNumber ∧
    b.batchDefinition = attempt.definition

theorem Defines.attemptsBatch (h : Defines db pc) {attempt : BatchAttempt}
    (hpc : pc.attempt? = some attempt) : AttemptsBatch db attempt := by
  obtain ⟨b, hb, hn, hdef⟩ := h attempt hpc
  exact ⟨b, List.mem_of_find?_eq_some hb, hn, hdef⟩

/-- Completing the batch of an attempt that has read all its rows. -/
theorem StagingAgrees.complete {attempt : BatchAttempt} {n m : Nat} {t : Time}
    (hnumbers : ((db.batches attempt.runId).map (·.batchNumber)).Nodup)
    (hd : AttemptsBatch db attempt) (h : StagingAgrees columns service (source i).rows db attempt.runId (.completingBatch attempt)) :
    StagingAgrees columns service (source i).rows
      (db.markCompleted attempt.runId attempt.batchNumber n m t) attempt.runId
      (.selectingBatch attempt.runId) := by
  refine ⟨h.sound, fun b' hb' hs => ?_, fun _ => trivial⟩
  obtain ⟨b, hb, hn, hdef⟩ := hd
  obtain ⟨b₀, hb₀, rfl⟩ := Db.mem_modifyBatch.mp hb'
  split
  · rename_i hn₀
    -- the batch with the number of the attempt is the one it is at
    have e : b₀ = b := List.inj_on_of_nodup_map hnumbers hb₀ hb (hn₀.trans hn.symm)
    subst e
    rw [show _ = attempt.definition from hdef]
    exact h.attempt rfl
  · rename_i hn₀
    rw [if_neg hn₀] at hs
    exact h.completed b₀ hb₀ hs

/-- **A step keeps the staging rows in agreement with the source.** -/
theorem staged_effect (hA : SourceAssumptions columns service source)
    (hans : SourceAnswers columns service (source i) pc a) (hinit : RunningInitialized db r)
    (huntouched : NotStarted db r → Untouched db r)
    (hnumbers : ((db.batches r).map (·.batchNumber)).Nodup)
    (hattempt : ∀ attempt, pc.attempt? = some attempt → AttemptsBatch db attempt)
    (hold : ∀ run, db.runs.find r = some run → run.status = .running →
      run.sourceWatermarkAtStart = some (watermarkAt source i) →
        StagingAgrees columns service (source i).rows db r pc)
    (h : Effect config service a db pc db' pc') {run' : IngestionRun}
    (hr' : db'.runs.find r = some run') (hs' : run'.status = .running)
    (hw' : run'.sourceWatermarkAtStart = some (watermarkAt source i)) :
    StagingAgrees columns service (source i).rows db' r pc' := by
  rcases running_before hinit h.write hr' hs' with
    ⟨run, hr, hs, hw, -⟩ | ⟨k, rfl, hn, -, -, hst, hb⟩
  swap
  -- the run starts with no staging rows and no batch COMPLETED
  · have hu := huntouched hn
    refine ⟨fun sourceId v hv => ?_, fun b hbm hbs => ?_, fun _ => ?_⟩
    · rw [hst, hu.staging] at hv
      cases hv
    · rw [hb] at hbm
      exact absurd hbs (hu.batches b hbm)
    · cases h with
      | stop => trivial
      | runStarted => trivial
      | attemptThrew h => cases h
  have hS := hold run hr hs (hw ▸ hw')
  have hid : ∀ b' ∈ db.batches r, b'.status = .completed → ∃ b ∈ db.batches r,
      b.status = .completed ∧ b.batchDefinition = b'.batchDefinition :=
    fun b hb hc => ⟨b, hb, hc, rfl⟩
  cases h with
  | runCreated h =>
      obtain ⟨-, -, rfl⟩ := Db.createQueued_eq_ok h
      exact hS.of_same rfl hid fun _ => trivial
  | @snapshotStored r₀ _ _ _ h =>
      obtain ⟨run₀, hr₀, hi₀, rfl, rfl⟩ := Db.initializeRunSnapshotAndBatches_eq_ok h
      have e : r ≠ r₀ := by
        rintro rfl
        rw [hr] at hr₀
        cases hr₀
        rw [hinit run hr hs] at hi₀
        cases hi₀
      refine hS.of_same rfl ?_ fun _ => trivial
      simp only [Function.update_of_ne e]
      exact hid
  | runStarted h =>
      obtain ⟨_, -, -, -, -, rfl⟩ := Db.setStartWatermarkAndRunning_eq_ok h
      exact hS.of_same rfl hid fun _ => trivial
  | budgetExhausted _ _ _ h =>
      rw [(Db.markFailed_eq_ok h).2]
      exact hS.of_same rfl (completed_modifyBatch (by simp) fun _ => ⟨rfl, rfl⟩) fun _ => trivial
  | attemptCounted =>
      exact hS.of_same rfl (completed_modifyBatch (fun _ h => h) fun _ => ⟨rfl, rfl⟩)
        fun _ => trivial
  | attemptStarted =>
      refine hS.of_same rfl (completed_modifyBatch (by simp) fun _ => ⟨rfl, rfl⟩) fun _ => ?_
      intro row hrow
      rw [List.take_zero] at hrow
      cases hrow
  | attemptInvalid =>
      exact hS.of_same rfl (completed_modifyBatch (by simp) fun _ => ⟨rfl, rfl⟩) fun _ => trivial
  | @pageFetched attempt page h =>
      refine hS.of_same rfl hid fun hpc => ?_
      exact ⟨hS.attempt hpc, hans.page attempt rfl page (by rw [h]; rfl), [], rfl, fun _ h => nomatch h⟩
  | pageFailed _ h =>
      rw [(Db.markFailed_eq_ok h).2]
      exact hS.of_same rfl (completed_modifyBatch (by simp) fun _ => ⟨rfl, rfl⟩) fun _ => trivial
  | rawPersisted =>
      obtain ⟨raw, hraw⟩ := Db.persistRaw_eq db
      rw [hraw]
      exact hS.of_same rfl hid fun hpc => hS.attempt hpc
  | @rowStaged attempt page rest row sourceId v hv =>
      by_cases e : r = attempt.runId
      · subst e
        exact hS.stage hA hv
      · refine hS.of_same (Db.staging_upsertStaging_ne e) hid fun hpc => ?_
        exact absurd (Option.some.inj hpc).symm e
  | lastPage hl =>
      refine hS.of_same rfl (completed_modifyBatch (fun _ h => h) fun _ => ⟨rfl, rfl⟩)
        fun hpc => ?_
      exact (show PageStaged _ _ _ _ _ _ _ from hS.attempt hpc).last hl
  | pageLimit =>
      exact hS.of_same rfl (completed_modifyBatch (fun _ h => h) fun _ => ⟨rfl, rfl⟩)
        fun _ => trivial
  | nextPage =>
      refine hS.of_same rfl (completed_modifyBatch (fun _ h => h) fun _ => ⟨rfl, rfl⟩)
        fun hpc => ?_
      exact (show PageStaged _ _ _ _ _ _ _ from hS.attempt hpc).next rfl rfl
  | @batchCompleted attempt =>
      by_cases e : r = attempt.runId
      · subst e
        exact hS.complete hnumbers (hattempt attempt rfl)
      · refine hS.of_same rfl ?_ fun _ => trivial
        simp only [Db.markCompleted, Db.modifyBatch, Function.update_of_ne e]
        exact hid
  | pageLimitFailed h =>
      rw [(Db.markFailed_eq_ok h).2]
      exact hS.of_same rfl (completed_modifyBatch (by simp) fun _ => ⟨rfl, rfl⟩) fun _ => trivial
  | attemptClosed h =>
      rw [(Db.markFailed_eq_ok h).2]
      exact hS.of_same rfl (completed_modifyBatch (by simp) fun _ => ⟨rfl, rfl⟩) fun _ => trivial
  | terminalPublished h =>
      obtain ⟨-, ht⟩ := Db.publishTerminalFailure_ok h
      obtain ⟨_, _, -, -, -, rfl⟩ := Db.terminalTransaction_frame ht
      exact hS.of_same rfl hid fun _ => trivial
  | endAccepted => exact hS.of_same rfl hid fun _ => trivial
  | endRejected _ hp =>
      refine hS.of_same rfl hid fun _ => ?_
      rcases hp with rfl | ⟨outcome, rfl⟩ <;> trivial
  | acceptedPublished h =>
      rcases Db.acceptedTransaction_frame (Db.publish_ok h) with rfl | ⟨_, _, _, -, -, rfl⟩
      · exact hS.of_same rfl hid fun _ => trivial
      · exact hS.of_same rfl hid fun _ => trivial
  | _ => exact hS.of_same rfl hid fun _ => trivial

/-- **At the end of its batches a run has read all**, where the source still stands at its start
watermark. -/
theorem handsOver_effect (hA : SourceAssumptions columns service source)
    (hans : SourceAnswers columns service (source i) pc a)
    (hI : BatchInvariant (⟨db, pc⟩ : SystemState Row)) (hh : HandsOver service source db r pc)
    (hold : ∀ run, db.runs.find r = some run → run.status = .running →
      run.sourceWatermarkAtStart = some (watermarkAt source i) →
        StagingAgrees columns service (source i).rows db r pc)
    (h : Effect config service a db pc db' pc') : HandsOver service source db' r pc' := by
  cases h with
  | batchesDone h =>
      rintro rfl b hb
      by_contra hs
      have := List.find?_eq_none.mp h b hb
      simp [hs] at this
  | @endWatermarkFetched r₀ run w k hr hw hm =>
      rintro rfl e
      obtain ⟨run₀, hr₀, hs, -⟩ := hI.system.knows.running r₀ rfl
      obtain rfl : run₀ = run := Option.some.inj (hr₀.symm.trans hr)
      have hk : rowsUpdatedAtToDate k = watermarkAt source i :=
        congrArg rowsUpdatedAtToDate (hans.metadata k (by rw [hm]; rfl))
      subst e
      have hb := hh rfl
      refine ⟨hb, fun j hj => ?_⟩
      have hlife : LifecycleInvariant db := hI.system.lifecycle
      have hexact := (hold run₀ hr hs (by rw [hw, hk])).exact
        ((hlife.runs r₀ run₀ hr).partition (hlife.runningInitialized r₀ run₀ hr hs)) hb
      exact hexact.perm (hA.perm (watermarkAt_eq (hk.symm.trans hj.symm)))
  | endRejected _ hp => rcases hp with rfl | ⟨outcome, rfl⟩ <;> trivial
  | _ => trivial

end Steps

/-! ### Runs of the tracked system -/

section Tracked

variable {s s' : TrackedState Row} {r : RunId}

/-- While the watermark stands at the start watermark of the run, an earlier instant with that
watermark held the same rows. -/
theorem SourceInvariant.standing (hA : SourceAssumptions columns service source)
    (hI : SourceInvariant columns service source r s) {run : IngestionRun}
    (hr : s.system.db.runs.find r = some run) (hs : run.status = .running)
    (hw : run.sourceWatermarkAtStart = some (watermarkAt source (s.instant + 1))) :
    (source s.instant).rowsUpdatedAt = (source (s.instant + 1)).rowsUpdatedAt := by
  obtain ⟨i, hi, e⟩ := hI.started run _ hr hs hw
  have e' := watermarkAt_eq e
  have h₁ := hA.monotone i s.instant hi
  have h₂ := hA.monotone s.instant (s.instant + 1) (Nat.le_succ _)
  omega

theorem SourceInvariant.sourceChanges (hA : SourceAssumptions columns service source)
    (hI : SourceInvariant columns service source r s) :
    SourceInvariant columns service source r ⟨s.system, s.instant + 1⟩ where
  batch := hI.batch
  stamps := hI.stamps
  fetched k hk := by
    obtain ⟨i, hi, e⟩ := hI.fetched k hk
    exact ⟨i, Nat.le_succ_of_le hi, e⟩
  started run w hr hs hw := by
    obtain ⟨i, hi, e⟩ := hI.started run w hr hs hw
    exact ⟨i, Nat.le_succ_of_le hi, e⟩
  staged run hr hs hw := by
    have e := hI.standing hA hr hs hw
    refine (hI.staged run hr hs ?_).of_source hA e
    rw [hw, watermarkAt, ← e, watermarkAt]
  handsOver := hI.handsOver
  accepted := hI.accepted

/-- An event that leaves the runs, their snapshots, their batches and their staging rows alone, and
the executor where it is or idle. -/
theorem SourceInvariant.of_same {db' : Db Row} {pc' : ExecutorState Row}
    (hI : SourceInvariant columns service source r s)
    (hb : BatchInvariant (⟨db', pc'⟩ : SystemState Row)) (hst : StampsCompleted db')
    (hruns : db'.runs = s.system.db.runs) (hsnap : db'.snapshot = s.system.db.snapshot)
    (hbatches : db'.batches = s.system.db.batches) (hstaging : db'.staging = s.system.db.staging)
    (hpc : pc' = s.system.executor ∨ (∃ triggerType, pc' = .started triggerType) ∨
      pc' = .stopped .crashed) :
    SourceInvariant columns service source r ⟨⟨db', pc'⟩, s.instant⟩ where
  batch := hb
  stamps := hst
  fetched k hk := by
    rcases hpc with rfl | ⟨triggerType, rfl⟩ | rfl
    · exact hI.fetched k hk
    · cases hk
    · cases hk
  started run w hr := hI.started run w (hruns ▸ hr)
  staged run hr hs hw := by
    refine (hI.staged run (hruns ▸ hr) hs hw).of_same (congrFun hstaging r) ?_ fun hrun => ?_
    · rw [hbatches]
      exact fun b hb hs => ⟨b, hb, hs, rfl⟩
    · rcases hpc with rfl | ⟨triggerType, rfl⟩ | rfl
      · exact (hI.staged run (hruns ▸ hr) hs hw).attempt hrun
      · trivial
      · trivial
  handsOver := by
    rcases hpc with rfl | ⟨triggerType, rfl⟩ | rfl
    · have hh := hI.handsOver
      cases hpc : s.system.executor with
      | finalizing r' =>
          rw [hpc] at hh
          intro e
          rw [hbatches]
          exact hh e
      | endWatermarkFetched r' startWatermark endWatermark =>
          rw [hpc] at hh
          exact fun e he => (hh e he).of_same (congrFun hsnap r) (congrFun hstaging r)
            (congrFun hbatches r)
      | _ => trivial
    · trivial
    · trivial
  accepted run w hr hs hw he := (hI.accepted run w (hruns ▸ hr) hs hw he).of_same
    (congrFun hsnap r) (congrFun hstaging r) (congrFun hbatches r)

/-- A step of the executor, answered by the source. -/
theorem SourceInvariant.step (hA : SourceAssumptions columns service source)
    (hI : SourceInvariant columns service source r s) {a : Answer Row} {db' : Db Row}
    {pc' : ExecutorState Row}
    (hans : SourceAnswers columns service (source s.instant) s.system.executor a)
    (hb : BatchInvariant (⟨db', pc'⟩ : SystemState Row)) (hst : StampsCompleted db')
    (h : Effect config service a s.system.db s.system.executor db' pc') :
    SourceInvariant columns service source r ⟨⟨db', pc'⟩, s.instant⟩ where
  batch := hb
  stamps := hst
  fetched k hk := by
    obtain ⟨⟨db, pc⟩, i⟩ := s
    cases hk
    cases h with
    | startWatermarkFetched _ _ hm => exact ⟨i, Nat.le_refl i, (hans.metadata k (by rw [hm]; rfl)).symm⟩
    | endRejected _ hp => rcases hp with hp | ⟨outcome, hp⟩ <;> cases hp
  started run w hr hs hw := by
    rcases running_before (hI.batch.system.lifecycle.runningInitialized r) h.write hr hs with
      ⟨run₀, hr₀, hs₀, e, -⟩ | ⟨k, hpc, -, e, -⟩
    · exact hI.started run₀ w hr₀ hs₀ (e ▸ hw)
    · obtain ⟨i, hi, hk⟩ := hI.fetched k hpc
      refine ⟨i, hi, ?_⟩
      rw [e, Option.some.injEq] at hw
      rw [watermarkAt, hk, hw]
  staged run hr hs hw :=
    staged_effect hA hans (hI.batch.system.lifecycle.runningInitialized r) (hI.batch.untouched r)
      (hI.batch.order r).nodup (fun _ => hI.batch.defines.attemptsBatch) hI.staged h hr hs hw
  handsOver := handsOver_effect hA hans hI.batch hI.handsOver hI.staged h
  accepted run w hr hs hw he :=
    write_accepted hI.batch hI.handsOver hI.accepted h.write hr hs hw he

/-- **One event keeps the source invariant.** -/
theorem sourceInvariant_next (hA : SourceAssumptions columns service source)
    {ev : TrackedEvent Row} (hI : SourceInvariant columns service source r s)
    (hans : AnsweredBy columns service source s ev)
    (h : trackedNext config service s ev = some s') :
    SourceInvariant columns service source r s' := by
  cases ev with
  | sourceChanges =>
      cases h
      exact hI.sourceChanges hA
  | system ev =>
      obtain ⟨t, hn, rfl⟩ := Option.map_eq_some_iff.mp h
      have hb := batchInvariant_next hI.batch hn
      have hst := stampsCompleted_next hI.batch.system hI.stamps hn
      have ht := next_turn hn
      clear h hn
      cases ht with
      | acquired => exact hI.of_same hb hst rfl rfl rfl rfl (Or.inr (Or.inl ⟨_, rfl⟩))
      | crashed => exact hI.of_same hb hst rfl rfl rfl rfl (Or.inr (Or.inr rfl))
      | created h =>
          obtain ⟨_, _, _, rfl⟩ := createProperty_frame h
          exact hI.of_same hb hst rfl rfl rfl rfl (Or.inl rfl)
      | applied h =>
          obtain ⟨_, _, _, rfl⟩ := applyEffectiveBinSet_frame h
          exact hI.of_same hb hst rfl rfl rfl rfl (Or.inl rfl)
      | stepped h => exact hI.step hA hans hb hst h

/-- **A run becomes COMPLETED by its publication only.** -/
theorem completes_by_publication {a : Answer Row} {db db' : Db Row} {pc : ExecutorState Row}
    (h : Write config a db pc db')
    (hbefore : (db.runs.find r).map (·.status) ≠ some .completed)
    (hafter : (db'.runs.find r).map (·.status) = some .completed) :
    pc = .readyForPublication r ∧ ∃ outcome, db.publish a.publication r = (db', .ok outcome) := by
  obtain ⟨run', hr', hs'⟩ := Option.map_eq_some_iff.mp hafter
  rcases row_before h hr' with ⟨-, triggerType, rfl⟩ | ⟨run, hr, hchange⟩
  · cases hs'
  have hnot : run.status ≠ .completed := fun hs => hbefore (by rw [hr, Option.map_some, hs])
  cases hchange with
  | same => exact absurd hs' hnot
  | initialized => exact absurd hs' hnot
  | started => cases hs'
  | ended => exact absurd hs' hnot
  | failed _ _ _ hne => exact absurd hs' hne
  | accepted hpc hpublish => exact ⟨hpc, _, hpublish⟩

/-- **What a publication leaves live** is what was staged, on every BIN of the snapshot. -/
theorem liveAgrees_published {a : PublicationAnswer} {db db' : Db Row}
    {outcome : AcceptedPublicationOutcome} (hst : StampsCompleted db)
    (hbefore : (db.runs.find r).map (·.status) ≠ some .completed)
    (h : db.publish a r = (db', .ok outcome)) :
    ∃ run, db.Publishable r run ∧ db'.runs.find r = some (Db.acceptedRun a.now run) ∧
      db'.snapshot r = db.snapshot r ∧ db'.staging r = db.staging r ∧
      LiveAgrees db' r (Db.distinctBins (db.snapshot r)) := by
  rcases Db.acceptedTransaction_eq_ok (Db.publish_ok h) with
    ⟨-, -, hc⟩ | ⟨run, db₂, -, hp, -, hcov, rfl⟩
  · exact absurd hc hbefore
  obtain ⟨coverage, rfl⟩ := Db.publishSuccessfulCoverage_frame hcov
  refine ⟨run, hp, ?_, rfl, rfl, ?_⟩
  · simp [Db.promoteEcbLiveState, Db.reconcileAbsences, Db.promoteStaging, hp.found]
  · refine liveAgrees_promote (fun sourceId live hl e => ?_) fun bin hb => hb
    -- a live row with the stamp of the run would be the row of a COMPLETED one
    have hc := hst sourceId live hl
    rw [e] at hc
    exact hbefore hc

/-- Between two executions the invariant holds of every run that is yet to come. -/
theorem sourceInvariant_of_absent {config₀ : ExecutorConfig} {service₀ : EcbRowService Row}
    (h : Reachable config₀ service₀ s.system) {outcome : ExecutionOutcome}
    (hpc : s.system.executor = .stopped outcome) (hr : s.system.db.runs.find r = none) :
    SourceInvariant columns service source r s where
  batch := batchInvariant_of_reachable h
  stamps := h.invariant (I := fun t => SystemInvariant t ∧ StampsCompleted t.db)
    (fun hI _ hn => ⟨(systemInvariant_next hI.1 hn).1, stampsCompleted_next hI.1 hI.2 hn⟩)
    ⟨systemInvariant_initial, fun _ _ h => nomatch h⟩ |>.2
  fetched _ h := by rw [hpc] at h; cases h
  started _ _ h := by rw [hr] at h; cases h
  staged _ h := by rw [hr] at h; cases h
  handsOver := by rw [hpc]; trivial
  accepted _ _ h := by rw [hr] at h; cases h

/-- The current live rows on the BINs of a run are the given source rows on them, normalized. -/
def LiveMatchesSource (service : EcbRowService Row) (rows : List Row) (db : Db Row) (r : RunId) :
    Prop :=
  ∀ sourceId (v : NormalizedEcbViolation), v.bin ∈ Db.distinctBins (db.snapshot r) →
    ((∃ live, db.live.find sourceId = some live ∧ live.isCurrent = true ∧
      live.toNormalizedEcbViolation = v) ↔
        v.sourceId = sourceId ∧ ∃ row ∈ rows, service.normalizeEcbViolation row = some v)

/-- **An accepted run, end to end.**  From any state the system reaches before a run is created, over
every interleaving of source changes, failed page fetches, crashes and resumes: when the run becomes
COMPLETED, its start watermark is one the source had, and the current live rows on its BINs are
exactly the source rows on them at that watermark, normalized. -/
theorem accepted_run_matches_source (hA : SourceAssumptions columns service source)
    {config₀ : ExecutorConfig} {service₀ : EcbRowService Row} {s₀ : TrackedState Row}
    (h₀ : Reachable config₀ service₀ s₀.system) {outcome : ExecutionOutcome}
    (hpc : s₀.system.executor = .stopped outcome) (hr : s₀.system.db.runs.find r = none)
    (h : Steps (trackedNext config service) (AnsweredBy columns service source) s₀ s)
    {ev : TrackedEvent Row} (hans : AnsweredBy columns service source s ev)
    (hn : trackedNext config service s ev = some s')
    (hbefore : (s.system.db.runs.find r).map (·.status) ≠ some .completed)
    (hafter : (s'.system.db.runs.find r).map (·.status) = some .completed) :
    ∃ run i, s'.system.db.runs.find r = some run ∧ i ≤ s'.instant ∧
      run.sourceWatermarkAtStart = some (watermarkAt source i) ∧
      ∀ j, watermarkAt source j = watermarkAt source i →
        LiveMatchesSource service (source j).rows s'.system.db r := by
  -- staging agrees with the source up to the step that completes the run
  have hI : SourceInvariant columns service source r s :=
    h.invariant (fun hI hok hs => sourceInvariant_next hA hI hok hs)
      (sourceInvariant_of_absent h₀ hpc hr)
  cases ev with
  | sourceChanges =>
      cases hn
      exact absurd hafter hbefore
  | system ev =>
      obtain ⟨t, hn', rfl⟩ := Option.map_eq_some_iff.mp hn
      have ht := next_turn hn'
      clear hn hn'
      cases ht with
      | acquired => exact absurd hafter hbefore
      | crashed => exact absurd hafter hbefore
      | created h =>
          rw [(createProperty_frame h).runs] at hafter
          exact absurd hafter hbefore
      | applied h =>
          rw [(applyEffectiveBinSet_frame h).runs] at hafter
          exact absurd hafter hbefore
      | @stepped a db' pc' h =>
          obtain ⟨-, outcome, hp⟩ := completes_by_publication h.write hbefore hafter
          obtain ⟨run, hpub, hrun, hsnap, hstaging, hlive⟩ :=
            liveAgrees_published hI.stamps hbefore hp
          obtain ⟨w, hw⟩ := Option.ne_none_iff_exists'.mp hpub.watermark
          obtain ⟨i, hi, rfl⟩ := hI.started run w hpub.found hpub.running hw
          have hread := hI.accepted run _ hpub.found hpub.running hw (hpub.guard ▸ hw)
          refine ⟨Db.acceptedRun a.publication.now run, i, hrun, hi, hw,
            fun j hj sourceId v hv => ?_⟩
          have hv' : v.bin ∈ Db.distinctBins (s.system.db.snapshot r) := hsnap ▸ hv
          calc (∃ live, db'.live.find sourceId = some live ∧ live.isCurrent = true ∧
                  live.toNormalizedEcbViolation = v)
              ↔ (db'.staging r).find sourceId = some v := hlive sourceId v hv'
            _ ↔ (s.system.db.staging r).find sourceId = some v := by rw [hstaging]
            _ ↔ v.sourceId = sourceId ∧ ∃ row ∈ (source j).rows,
                  service.normalizeEcbViolation row = some v :=
                hread.exact j hj sourceId v hv'

end Tracked

/-- The columns of a row that is normalized already. -/
def plainColumns : SourceColumns NormalizedEcbViolation :=
  ⟨(·.socrataRowId), (·.sourceRowUpdatedAt), fun row => some row.bin⟩

/-- A source of one row, emptied at the second instant. -/
def emptiedSource : Nat → SourceDataset NormalizedEcbViolation
  | 0 => ⟨[sampleViolation], 7⟩
  | _ + 1 => ⟨[], 8⟩

theorem emptiedSource_assumptions :
    SourceAssumptions plainColumns plainService emptiedSource where
  ids i := by cases i <;> simp [emptiedSource]
  sourceIds i row hrow row' hrow' _ _ _ _ _ := by
    cases i with
    | zero => rw [List.mem_singleton.mp hrow, List.mem_singleton.mp hrow']
    | succ i => cases hrow
  monotone i j h := by cases i <;> cases j <;> simp_all [emptiedSource]
  strict i j h hp := by
    cases i <;> cases j <;> simp_all [emptiedSource]

/-- A run over the row that crashes once the row is staged, and is resumed up to its publication.  The
source is emptied meanwhile. -/
def crashedAndResumedRun : List (TrackedEvent NormalizedEcbViolation) :=
  let step := TrackedEvent.system (.executor (quietAnswer 0 7 [sampleViolation]))
  .system (createSample 0 "1000010001" "1000001") :: .system (.acquireLock .manual) ::
    List.replicate 14 step ++ .system .crash :: .system (.acquireLock .manual) ::
      List.replicate 14 step ++ [.sourceChanges]

/-- The publication of the run. -/
def publicationStep : TrackedEvent NormalizedEcbViolation :=
  .system (.executor (quietAnswer 0 8 []))

theorem accepted_run_matches_source_crashedAndResumed : ∃ s s' : TrackedState _,
    Steps (trackedNext smallConfig plainService)
      (AnsweredBy plainColumns plainService emptiedSource) ⟨.initial, 0⟩ s ∧
    trackedNext smallConfig plainService s publicationStep = some s' ∧
    s'.system.db.live.find "1" ≠ none ∧
    ∃ run i, s'.system.db.runs.find 0 = some run ∧ i ≤ s'.instant ∧
      run.sourceWatermarkAtStart = some (watermarkAt emptiedSource i) ∧
      ∀ j, watermarkAt emptiedSource j = watermarkAt emptiedSource i →
        LiveMatchesSource plainService (emptiedSource j).rows s'.system.db 0 := by
  have hs : ((Library.run (trackedNext smallConfig plainService) ⟨.initial, 0⟩
      crashedAndResumedRun).bind fun s =>
        (trackedNext smallConfig plainService s publicationStep).map fun s' =>
          ((s.system.db.runs.find 0).map (·.status), (s'.system.db.runs.find 0).map (·.status),
            (s'.system.db.live.find "1").isSome,
            decide (AnsweredBy plainColumns plainService emptiedSource s publicationStep))) =
      some (some .running, some .completed, true, true) := by decide +kernel
  obtain ⟨s, hrun, hs⟩ := Option.bind_eq_some_iff.mp hs
  obtain ⟨s', hstep, hs⟩ := Option.map_eq_some_iff.mp hs
  simp only [Prod.mk.injEq] at hs
  have h : Steps (trackedNext smallConfig plainService)
      (AnsweredBy plainColumns plainService emptiedSource) ⟨.initial, 0⟩ s :=
    run_steps (by decide +kernel : RunOk _ _ _ crashedAndResumedRun) hrun
  exact ⟨s, s', h, hstep, Option.isSome_iff_ne_none.mp hs.2.2.1,
    accepted_run_matches_source emptiedSource_assumptions
      (show Reachable smallConfig plainService _ from .refl) rfl rfl h (of_decide_eq_true hs.2.2.2)
      hstep (by rw [hs.1]; simp) hs.2.1⟩

end NycPropertyResolver
