import NycPropertyResolver.Ingestion.NoHybrid
import NycPropertyResolver.Ingestion.SnapshotExact

/-!
# Ingestion — coverage agrees with live data

Whenever the coverage of a property is CHECKED, the current live rows on its BINs are the rows staged
by the run the coverage names.  The live table is shared by all properties and the coverage is kept
for each, and what ties them together over any number of runs is the snapshot of the active run:
every property that is CHECKED is in it, at its current version (`Fresh`), so that the publication
that rewrites the live rows rewrites its coverage as well.
-/

namespace NycPropertyResolver

open Library

variable {Row : Type} {config : ExecutorConfig} {service : EcbRowService Row}

/-! ### Statements -/

/-- The current live rows on the given BINs are the staged rows of the run on them, column by
column. -/
def LiveAgrees (db : Db Row) (runId : RunId) (bins : SortedSet CanonicalBin) : Prop :=
  ∀ sourceId (v : NormalizedEcbViolation), v.bin ∈ bins →
    ((∃ live, db.live.find sourceId = some live ∧ live.isCurrent = true ∧
      live.toNormalizedEcbViolation = v) ↔ (db.staging runId).find sourceId = some v)

/-- What CHECKED coverage of a property means. -/
structure CheckedBy (db : Db Row) (p : PropertyId) (c : PropertyDatasetCoverage) (runId : RunId)
    (run : IngestionRun) : Prop where
  lastSuccess : c.lastSuccessRunId = some runId
  found : db.runs.find runId = some run
  completed : run.status = .completed
  watermark : c.sourceWatermarkAt = run.sourceWatermarkAtStart
  property : db.properties.find p ≠ none
  nonempty : ∃ bin, bin ∈ db.propertyBins p
  agrees : LiveAgrees db runId (db.propertyBins p)

/-- Snapshot rows that are still good for a publication: they are exact, and every CHECKED property is
among them at its current version. -/
structure Fresh (db : Db Row) (rows : List IngestionRunPropertyBin) : Prop
    extends SnapshotExact db rows where
  checked : ∀ p c, db.coverage p = some c → c.status = .checked →
    ∃ row ∈ rows, row.propertyId = p ∧ db.versionOf p = some row.propertyIdentifierVersion

/-- No run is later than the one that is RUNNING. -/
def LatestRuns (db : Db Row) : Prop :=
  ∀ r run t, db.runs.find r = some run → run.status = .running → run.startedAt = some t →
    ∀ r' run' t', db.runs.find r' = some run' → run'.startedAt = some t' → t' ≤ t

/-- The snapshot of an active run is fresh. -/
def ActiveFresh (db : Db Row) : Prop :=
  ∀ r run, db.runs.find r = some run → run.isActive = true →
    run.initializationComplete = true → Fresh db (db.snapshot r)

/-- Every live row carries the stamp of a COMPLETED run. -/
def StampsCompleted (db : Db Row) : Prop :=
  ∀ sourceId live, db.live.find sourceId = some live →
    (db.runs.find live.lastSuccessRunId).map (·.status) = some .completed

/-- What the snapshot loaded so far is worth. -/
def SnapshotInHand (db : Db Row) : ExecutorState Row → Prop
  | .snapshotBinsLoaded _ relationships => ∀ bin p, (bin, p) ∈ relationships ↔
      db.properties.find p ≠ none ∧ bin ∈ db.propertyBins p
  | .snapshotLoaded _ rows => Fresh db rows
  | _ => True

/-- **The coverage invariant.** -/
structure CoverageInvariant (s : SystemState Row) : Prop where
  system : SystemInvariant s
  checked : ∀ p c, s.db.coverage p = some c → c.status = .checked →
    ∃ runId run, CheckedBy s.db p c runId run
  stamps : StampsCompleted s.db
  latest : LatestRuns s.db
  active : ActiveFresh s.db
  inHand : SnapshotInHand s.db s.executor

/-- Between the two statements of the snapshot. -/
def ExecutorState.isReadingSnapshot : ExecutorState Row → Bool
  | .snapshotBinsLoaded _ _ => true
  | _ => false

/-- Before the update that starts a run. -/
def ExecutorState.isStarting : ExecutorState Row → Bool
  | .startWatermarkFetched _ _ => true
  | _ => false

/-- The assumptions on a run of the system: the snapshot is read atomically, so no property changes
between its two statements, and no run starts before one that has started already. -/
def SnapshotAtomicAndStartsOrdered (s : SystemState Row) : Event Row → Prop
  | .createProperty _ _ _ | .applyEffectiveBinSet _ _ => s.executor.isReadingSnapshot = false
  | .executor a => s.executor.isStarting = true →
    ∀ r ∈ s.db.runs.keys, ((s.db.runs.find r).bind (·.startedAt)).all (fun t => t ≤ a.now) = true
  | _ => True

instance (s : SystemState Row) :
    (ev : Event Row) → Decidable (SnapshotAtomicAndStartsOrdered s ev)
  | .createProperty _ _ _ | .applyEffectiveBinSet _ _ => inferInstanceAs (Decidable (_ = false))
  | .executor _ => inferInstanceAs (Decidable (_ → _))
  | .acquireLock _ | .crash => inferInstanceAs (Decidable True)

/-! ### Frames -/

section Frames

variable {db db' : Db Row} {rows : List IngestionRunPropertyBin}

/-- Rows stay fresh while the properties stay, and no further property becomes CHECKED. -/
theorem Fresh.mono (h : Fresh db rows) (hp : db'.properties = db.properties)
    (hb : db'.propertyBins = db.propertyBins)
    (hc : ∀ p c', db'.coverage p = some c' → c'.status = .checked →
      ∃ c, db.coverage p = some c ∧ c.status = .checked) : Fresh db' rows where
  toSnapshotExact := h.toSnapshotExact.mono hp hb
  checked p c' hc' hs := by
    obtain ⟨c, hcov, hs⟩ := hc p c' hc' hs
    rw [Db.versionOf, hp]
    exact h.checked p c hcov hs

/-- A CHECKED property stays so under a write that leaves it, its run and the live rows alone. -/
theorem CheckedBy.frame {p : PropertyId} {c : PropertyDatasetCoverage} {runId : RunId}
    {run run' : IngestionRun} (h : CheckedBy db p c runId run)
    (hr : db'.runs.find runId = some run') (hs : run'.status = run.status)
    (hw : run'.sourceWatermarkAtStart = run.sourceWatermarkAtStart)
    (hp : db'.properties.find p ≠ none) (hb : db'.propertyBins p = db.propertyBins p)
    (hl : db'.live = db.live) (hst : db'.staging runId = db.staging runId) :
    CheckedBy db' p c runId run' where
  lastSuccess := h.lastSuccess
  found := hr
  completed := hs.trans h.completed
  watermark := h.watermark.trans hw.symm
  property := hp
  nonempty := by rw [hb]; exact h.nonempty
  agrees := by
    intro sourceId v hv
    rw [hl, hst]
    exact h.agrees sourceId v (by rwa [hb] at hv)

end Frames

/-! ### Identity events -/

section Identity

variable {db db' : Db Row} {rows : List IngestionRunPropertyBin} {p : PropertyId}

/-- Fresh rows stay fresh when the BIN set of a property is replaced: its coverage is no longer
CHECKED. -/
theorem Fresh.replaceBinSet (h : Fresh db rows) (bins : SortedSet CanonicalBin) :
    Fresh (db.replaceBinSet p bins) rows where
  toSnapshotExact := h.toSnapshotExact.replaceBinSet bins
  checked q c hc hs := by
    by_cases e : q = p
    · subst e
      simp only [Db.replaceBinSet, Function.update_self, Option.some.injEq] at hc
      subst hc
      revert hs
      simp only [Db.invalidatedCoverage, buildCoverageAfterBinSetChange, uncheckedCoverage]
      split <;> simp
    · simp only [Db.replaceBinSet, Function.update_of_ne e] at hc
      rw [SnapshotExact.versionOf_replaceBinSet_ne e]
      exact h.checked q c hc hs

/-- Fresh rows stay fresh when a property is created: it is not CHECKED. -/
theorem Fresh.create (h : Fresh db rows) {property : Property} {bins : SortedSet CanonicalBin}
    (hp : db.properties.find p = none) (hdb : db' = { db with
      properties := db.properties.set p property
      propertyBins := Function.update db.propertyBins p bins
      coverage := Function.update db.coverage p (some (buildInitialCoverage bins)) }) :
    Fresh db' rows := by
  refine ⟨h.toSnapshotExact.create hp (by rw [hdb]) (by rw [hdb]), fun q c hc hs => ?_⟩
  subst hdb
  by_cases e : q = p
  · subst e
    simp only [Function.update_self, Option.some.injEq] at hc
    subst hc
    simp [buildInitialCoverage, uncheckedCoverage] at hs
  · simp only [Function.update_of_ne e] at hc
    simp only [Db.versionOf, Table.find_set_ne e]
    exact h.checked q c hc hs

/-- **The rows loaded in two statements between which no property changed are fresh.** -/
theorem fresh_of_loaded {relationships : List (CanonicalBin × PropertyId)}
    (hl : ∀ bin p, (bin, p) ∈ relationships ↔
      db.properties.find p ≠ none ∧ bin ∈ db.propertyBins p)
    (hc : ∀ p c, db.coverage p = some c → c.status = .checked →
      db.properties.find p ≠ none ∧ ∃ bin, bin ∈ db.propertyBins p)
    (h : db.includeProperties relationships = some rows) : Fresh db rows := by
  refine ⟨.of_loaded (fun bin p hb bin' => ?_) h, fun p c hcov hs => ?_⟩
  · rw [hl bin' p]
    exact ⟨fun hb' => ⟨((hl bin p).mp hb).1, hb'⟩, And.right⟩
  · obtain ⟨hp, bin, hb⟩ := hc p c hcov hs
    obtain ⟨property, hf⟩ := Option.ne_none_iff_exists'.mp hp
    have hv : db.versionOf p = some property.identifierVersion := by rw [Db.versionOf, hf]; rfl
    exact ⟨⟨p, property.identifierVersion, bin⟩,
      (Db.mem_includeProperties h).mpr ⟨(hl bin p).mpr ⟨hp, hb⟩, hv⟩, rfl, hv⟩

end Identity

/-! ### The parts of the invariant, under one write -/

section Parts

variable {db db' : Db Row} {pc pc' : ExecutorState Row} {a : Answer Row}

/-- A COMPLETED run stays as it is. -/
theorem completed_evolves (hI : LifecycleInvariant db) (he : RunsEvolve OneMove db db') {r : RunId}
    {run : IngestionRun} (hr : db.runs.find r = some run) (hc : run.status = .completed) :
    ∃ run', db'.runs.find r = some run' ∧ run'.status = run.status ∧
      run'.sourceWatermarkAtStart = run.sourceWatermarkAtStart := by
  obtain ⟨run', hr', e⟩ := he r run hr
  refine ⟨run', hr', ?_, e.watermark ((hI.runs r run hr).completed hc).2.1⟩
  rcases e.status with hs | hs
  · exact hs
  · rw [hc] at hs; cases hs

/-- A write that touches neither the live rows, nor the staging rows of a COMPLETED run, nor a
property, and makes no property CHECKED. -/
structure LeavesAccepted (db db' : Db Row) : Prop where
  live : db'.live = db.live
  staging : ∀ r run, db.runs.find r = some run → run.status = .completed →
    db'.staging r = db.staging r
  properties : db'.properties = db.properties
  propertyBins : db'.propertyBins = db.propertyBins
  coverage : ∀ p c, db'.coverage p = some c → c.status = .checked → db.coverage p = some c

theorem LeavesAccepted.fresh (h : LeavesAccepted db db') {rows : List IngestionRunPropertyBin}
    (hf : Fresh db rows) : Fresh db' rows :=
  hf.mono h.properties h.propertyBins fun p c hc hs => ⟨c, h.coverage p c hc hs, hs⟩

theorem LeavesAccepted.checked (h : LeavesAccepted db db') (hI : LifecycleInvariant db)
    (he : RunsEvolve OneMove db db') {p : PropertyId} {c : PropertyDatasetCoverage} {runId : RunId}
    {run : IngestionRun} (hc : CheckedBy db p c runId run) :
    ∃ run', CheckedBy db' p c runId run' := by
  obtain ⟨run', hr', hs, hw⟩ := completed_evolves hI he hc.found hc.completed
  exact ⟨run', hc.frame hr' hs hw (by rw [h.properties]; exact hc.property)
    (by rw [h.propertyBins]) h.live (h.staging runId run hc.found hc.completed)⟩

/-- Every write but an accepted publication leaves the accepted state alone. -/
theorem write_leavesAccepted (hK : Knows db pc) (h : Write config a db pc db') :
    LeavesAccepted db db' ∨ ∃ runId answer outcome, pc = .readyForPublication runId ∧
      db.publish answer runId = (db', .ok outcome) := by
  obtain ⟨hproperties, hbins, -⟩ := write_snapshot h
  have hstaging : ∀ r run, db.runs.find r = some run → run.status = .completed →
      db'.staging r = db.staging r := by
    intro r run hr hc
    rcases staging_write h r with hst | ⟨n, hpc⟩
    · exact hst
    · -- the run staged for is RUNNING
      obtain ⟨run', hr', hs, -⟩ := hK.running r (runningRun?_of_batch? hpc)
      rw [hr] at hr'
      cases hr'
      rw [hs] at hc
      cases hc
  rcases write_publication h with ⟨hl, hcov⟩ | ⟨request, -, hp⟩ | ⟨runId, outcome, hpc, hp⟩
  · exact Or.inl ⟨hl, hstaging, hproperties, hbins, fun p c hc _ => by rwa [hcov] at hc⟩
  · obtain ⟨-, ht⟩ := Db.publishTerminalFailure_ok hp
    obtain ⟨run, -, -, -, ⟨-, rfl⟩ | ⟨-, rfl⟩⟩ := Db.terminalTransaction_eq_ok ht
    · refine Or.inl ⟨rfl, hstaging, hproperties, hbins, fun p c hc hs => ?_⟩
      rcases Db.coverage_publishFailedCoverage hc with hc | ⟨e, ⟨-, rfl⟩ | ⟨c₀, -, rfl⟩⟩
      · exact hc
      · simp [Db.failedCoverage] at hs
      · simp at hs
    · exact Or.inl ⟨rfl, hstaging, hproperties, hbins, fun _ _ hc _ => hc⟩
  · exact Or.inr ⟨runId, a.publication, outcome, hpc, hp⟩

/-- A write that starts no run, initializes none, and keeps the snapshots. -/
structure KeepsRuns (db db' : Db Row) : Prop where
  snapshot : db'.snapshot = db.snapshot
  runs : ∀ r run', db'.runs.find r = some run' →
    run'.startedAt ≠ none ∨ run'.initializationComplete = true → ∃ run,
      db.runs.find r = some run ∧ run'.startedAt = run.startedAt ∧
      run'.initializationComplete = run.initializationComplete ∧
      (run'.status = .running → run.status = .running) ∧
      (run'.isActive = true → run.isActive = true)

theorem KeepsRuns.of_runs (hr : db'.runs = db.runs) (hs : db'.snapshot = db.snapshot) :
    KeepsRuns db db' :=
  ⟨hs, fun r run' h _ => ⟨run', by rw [← hr]; exact h, rfl, rfl, id, id⟩⟩

theorem KeepsRuns.of_modify {runId : RunId} {f : IngestionRun → IngestionRun}
    (hr : db'.runs = db.runs.modify runId f) (hs : db'.snapshot = db.snapshot)
    (hf : ∀ run, db.runs.find runId = some run → (f run).startedAt = run.startedAt ∧
      (f run).initializationComplete = run.initializationComplete ∧
      ((f run).status = .running → run.status = .running) ∧
      ((f run).isActive = true → run.isActive = true)) : KeepsRuns db db' := by
  refine ⟨hs, fun r run' h _ => ?_⟩
  rw [hr, Table.find_modify] at h
  split at h
  · rename_i e
    subst e
    obtain ⟨run, hrun, rfl⟩ := Option.map_eq_some_iff.mp h
    exact ⟨run, hrun, hf run hrun⟩
  · exact ⟨run', h, rfl, rfl, id, id⟩

theorem KeepsRuns.latest (h : KeepsRuns db db') (hl : LatestRuns db) : LatestRuns db' := by
  intro r run t hr hs ht r' run' t' hr' ht'
  obtain ⟨run₀, hr₀, e, -, hs₀, -⟩ := h.runs r run hr (Or.inl (by rw [ht]; simp))
  obtain ⟨run₁, hr₁, e', -⟩ := h.runs r' run' hr' (Or.inl (by rw [ht']; simp))
  exact hl r run₀ t hr₀ (hs₀ hs) (e ▸ ht) r' run₁ t' hr₁ (e' ▸ ht')

theorem KeepsRuns.active (h : KeepsRuns db db') (ha : ActiveFresh db)
    (hf : ∀ rows, Fresh db rows → Fresh db' rows) : ActiveFresh db' := by
  intro r run hr hs hi
  obtain ⟨run₀, hr₀, -, e, -, hs₀⟩ := h.runs r run hr (Or.inr hi)
  rw [h.snapshot]
  exact hf _ (ha r run₀ hr₀ (hs₀ hs) (e ▸ hi))

/-- Every write but the storing of a snapshot and the start of a run keeps the runs. -/
theorem write_keepsRuns (h : Write config a db pc db') : KeepsRuns db db' ∨
    (∃ runId rows run, pc = .snapshotLoaded runId rows ∧
      db.initializeRunSnapshotAndBatches runId rows config.ecbBatchSize config.socrataPageSize =
        .ok (db', run)) ∨
    ∃ runId rowsUpdatedAt, pc = .startWatermarkFetched runId rowsUpdatedAt ∧
      db.setStartWatermarkAndRunning runId (rowsUpdatedAtToDate rowsUpdatedAt) a.now =
        .ok db' := by
  cases h with
  | nothing => exact Or.inl (.of_runs rfl rfl)
  | runCreated h =>
      obtain ⟨-, -, rfl⟩ := Db.createQueued_eq_ok h
      refine Or.inl ⟨rfl, fun r run' hr hor => ?_⟩
      simp only [Table.find_set] at hr
      split at hr
      · cases hr
        simp [Db.queuedRun] at hor
      · exact ⟨run', hr, rfl, rfl, id, id⟩
  | snapshotStored hpc h => exact Or.inr (Or.inl ⟨_, _, _, hpc, h⟩)
  | runStarted hpc h => exact Or.inr (Or.inr ⟨_, _, hpc, h⟩)
  | batchUpdated => exact Or.inl (.of_runs rfl rfl)
  | rawPersisted => exact Or.inl (.of_runs rfl rfl)
  | rowStaged => exact Or.inl (.of_runs rfl rfl)
  | endPersisted => exact Or.inl (.of_modify rfl rfl fun run _ => ⟨rfl, rfl, id, id⟩)
  | terminalPublished _ h =>
      obtain ⟨hv, h⟩ := Db.publishTerminalFailure_ok h
      obtain ⟨run, coverage, hr, ha, -, rfl⟩ := Db.terminalTransaction_frame h
      refine Or.inl (.of_modify rfl rfl fun run' hr' => ?_)
      rw [hr] at hr'
      cases hr'
      refine ⟨rfl, rfl, fun hs => ?_, fun _ => ha⟩
      obtain ⟨hst | hst, -⟩ := Db.validate_eq_ok hv <;> simp [Db.terminalRun, hst] at hs
  | acceptedPublished _ h =>
      rcases Db.acceptedTransaction_frame (Db.publish_ok h) with
        rfl | ⟨run, live, coverage, hp, -, rfl⟩
      · exact Or.inl (.of_runs rfl rfl)
      · refine Or.inl (.of_modify rfl rfl fun run' hr' => ?_)
        rw [hp.found] at hr'
        cases hr'
        exact ⟨rfl, rfl, fun _ => hp.running, fun _ => Db.isActive_iff.mpr (Or.inr hp.running)⟩

/-- The start of a run: it is the only one active, and none is later. -/
theorem latest_start {runId : RunId} {watermark now : Time} (hI : LifecycleInvariant db)
    (hn : ∀ r run t, db.runs.find r = some run → run.startedAt = some t → t ≤ now)
    (h : db.setStartWatermarkAndRunning runId watermark now = .ok db') : LatestRuns db' := by
  obtain ⟨run₀, hr₀, hs₀, -, -, rfl⟩ := Db.setStartWatermarkAndRunning_eq_ok h
  intro r run t hr hs ht r' run' t' hr' ht'
  simp only [Table.find_modify] at hr hr'
  -- the RUNNING run is the one that starts
  have e : r = runId := by
    by_contra e
    rw [if_neg e] at hr
    exact e (hI.oneActive r runId run run₀ hr hr₀ (Db.isActive_iff.mpr (Or.inr hs))
      (Db.isActive_iff.mpr (Or.inl hs₀)))
  rw [if_pos e] at hr
  obtain ⟨run₁, -, rfl⟩ := Option.map_eq_some_iff.mp hr
  cases ht
  split at hr'
  · obtain ⟨run₂, -, rfl⟩ := Option.map_eq_some_iff.mp hr'
    cases ht'
    exact le_refl _
  · exact hn r' run' t' hr' ht'

theorem active_start {runId : RunId} {watermark now : Time} (ha : ActiveFresh db)
    (hf : ∀ rows, Fresh db rows → Fresh db' rows)
    (h : db.setStartWatermarkAndRunning runId watermark now = .ok db') : ActiveFresh db' := by
  obtain ⟨run₀, hr₀, hs₀, hi₀, -, rfl⟩ := Db.setStartWatermarkAndRunning_eq_ok h
  intro r run hr hs hi
  simp only [Table.find_modify] at hr
  split at hr
  · rename_i e
    subst e
    exact hf _ (ha r run₀ hr₀ (Db.isActive_iff.mpr (Or.inl hs₀)) hi₀)
  · exact hf _ (ha r run hr hs hi)

/-- A stored snapshot is the one loaded. -/
theorem latest_snapshotStored {runId : RunId} {rows : List IngestionRunPropertyBin}
    {run' : IngestionRun} (hl : LatestRuns db)
    (h : db.initializeRunSnapshotAndBatches runId rows config.ecbBatchSize
      config.socrataPageSize = .ok (db', run')) : LatestRuns db' := by
  obtain ⟨run₀, hr₀, -, rfl, rfl⟩ := Db.initializeRunSnapshotAndBatches_eq_ok h
  -- the start and the status of every run stay
  have back : ∀ {r : RunId} {run : IngestionRun}, (db.runs.modify runId fun _ => { run₀ with
      expectedPropertyBinCount := some rows.length
      expectedBinCount := some (Db.distinctBins rows).size
      expectedBatchCount := some (buildBatchDefinitions (Db.distinctBins rows).toList
        config.ecbBatchSize config.socrataPageSize).length
      initializationComplete := true }).find r = some run →
      ∃ run₁, db.runs.find r = some run₁ ∧ run.startedAt = run₁.startedAt ∧
        run.status = run₁.status := fun {r run} hr => by
    rw [Table.find_modify] at hr
    split at hr
    · rename_i e
      subst e
      rw [hr₀] at hr
      cases hr
      exact ⟨run₀, hr₀, rfl, rfl⟩
    · exact ⟨run, hr, rfl, rfl⟩
  intro r run t hr hs ht r' run' t' hr' ht'
  obtain ⟨run₁, hr₁, e₁, s₁⟩ := back hr
  obtain ⟨run₂, hr₂, e₂, -⟩ := back hr'
  exact hl r run₁ t hr₁ (s₁ ▸ hs) (e₁ ▸ ht) r' run₂ t' hr₂ (e₂ ▸ ht')

theorem active_snapshotStored {runId : RunId} {rows : List IngestionRunPropertyBin}
    {run' : IngestionRun} (ha : ActiveFresh db) (hrows : Fresh db rows)
    (hf : ∀ rows, Fresh db rows → Fresh db' rows)
    (h : db.initializeRunSnapshotAndBatches runId rows config.ecbBatchSize
      config.socrataPageSize = .ok (db', run')) : ActiveFresh db' := by
  obtain ⟨run₀, hr₀, -, rfl, rfl⟩ := Db.initializeRunSnapshotAndBatches_eq_ok h
  intro r run hr hs hi
  by_cases e : r = runId
  · subst e
    simp only [Function.update_self]
    exact hf _ hrows
  · simp only [Table.find_modify, if_neg e] at hr
    simp only [Function.update_of_ne e]
    exact hf _ (ha r run hr hs hi)

/-- **What a step leaves in hand.** -/
theorem inHand_effect (hI : SnapshotInHand db pc)
    (hc : ∀ p c, db.coverage p = some c → c.status = .checked →
      db.properties.find p ≠ none ∧ ∃ bin, bin ∈ db.propertyBins p)
    (h : Effect config service a db pc db' pc') : SnapshotInHand db' pc' := by
  cases h with
  | binsLoaded => exact fun bin p => Db.mem_selectPropertyBins
  | versionsLoaded h => exact fresh_of_loaded hI hc h
  | endRejected _ hp => rcases hp with rfl | ⟨outcome, rfl⟩ <;> trivial
  | _ => trivial

end Parts

/-! ### Publication -/

section Publication

variable {db db' : Db Row} {runId : RunId} {answer : PublicationAnswer}

/-- A snapshot with a fresh row has a property to publish. -/
theorem snapshotProperties_ne_nil {row : IngestionRunPropertyBin} (hr : row ∈ db.snapshot runId)
    (hp : db.properties.find row.propertyId ≠ none) : db.snapshotProperties runId ≠ [] := by
  obtain ⟨property, hproperty⟩ := Option.ne_none_iff_exists'.mp hp
  exact List.ne_nil_of_mem (List.mem_filterMap.mpr
    ⟨row.propertyId, Db.mem_snapshotPropertyIds.mpr ⟨row, hr, rfl⟩, by rw [hproperty]; rfl⟩)

/-- **After a publication over a fresh snapshot the CHECKED properties are those of the snapshot at
their current version, and each names the run.** -/
theorem checked_published {db₂ : Db Row} {acceptedAt : Time}
    (hf : Fresh db (db.snapshot runId))
    (hn : ∀ run, db.runs.find runId = some run → ∀ c,
      ¬ db.PublishedByNewerRun (run.startedAt.getD 0) c)
    (h : db.publishSuccessfulCoverage runId acceptedAt = .ok db₂) {p : PropertyId}
    {c : PropertyDatasetCoverage} (hc : db₂.coverage p = some c) (hs : c.status = .checked) :
    db.VersionMatches runId p ∧ ∃ run, db.runs.find runId = some run ∧
      c = Db.checkedCoverage runId acceptedAt run.sourceWatermarkAtEnd := by
  obtain ⟨run, hp, hsv, ⟨he, rfl⟩ | ⟨-, rfl⟩⟩ := Db.publishSuccessfulCoverage_eq_ok h
  · obtain ⟨row, hr, e, hv⟩ := hf.checked p c hc hs
    exact absurd he (snapshotProperties_ne_nil hr (hf.known row hr))
  by_cases hm : db.VersionMatches runId p
  · refine ⟨hm, run, hp.found, ?_⟩
    have hd : ¬ (db.upsertCheckedCoverage runId (run.startedAt.getD 0) acceptedAt
        run.sourceWatermarkAtEnd).VersionDiffers runId p := Db.not_differs_of_matches hsv hm
    simp only [Db.upsertIdentifiersChangedCoverage, if_neg hd] at hc
    simp only [Db.upsertCheckedCoverage, if_pos hm] at hc
    split at hc
    · exact (Option.some.inj hc).symm
    · rw [if_neg (hn run hp.found _)] at hc
      exact (Option.some.inj hc).symm
  -- a property that does not match was not CHECKED, and is not after
  · exfalso
    have hold : ∀ c, db.coverage p = some c → c.status ≠ .checked := fun c hc hs => by
      obtain ⟨row, hr, e, hv⟩ := hf.checked p c hc hs
      exact hm ⟨row, hr, e, hv⟩
    have hcov : (db.upsertCheckedCoverage runId (run.startedAt.getD 0) acceptedAt
        run.sourceWatermarkAtEnd).coverage p = db.coverage p := if_neg hm
    simp only [Db.upsertIdentifiersChangedCoverage, hcov] at hc
    split at hc
    · split at hc
      · cases hc
        cases hs
      · split at hc
        · cases hc
          exact hold _ ‹_› hs
        · cases hc
          cases hs
    · exact hold _ hc hs

/-- The live rows after promotion are stamped by the run, or as they were. -/
theorem stamp_promote {now : Time} {sourceId : SourceId} {live : EcbViolation}
    (h : (db.promoteEcbLiveState runId now).live.find sourceId = some live) :
    live.lastSuccessRunId = runId ∨
      ∃ live₀, db.live.find sourceId = some live₀ ∧
        live.lastSuccessRunId = live₀.lastSuccessRunId := by
  cases hs : (db.staging runId).find sourceId with
  | some staged =>
      rw [Db.live_promote_of_staged hs] at h
      cases h
      exact Or.inl rfl
  | none =>
      rw [Db.live_promote_of_not_staged hs] at h
      obtain ⟨live₀, h₀, rfl⟩ := Option.map_eq_some_iff.mp h
      exact Or.inr ⟨live₀, h₀, by split <;> rfl⟩

/-- **After promotion the live rows agree with the staging rows on every BIN of the snapshot**, where
no live row carries the stamp of the run yet. -/
theorem liveAgrees_promote {now : Time} {bins : SortedSet CanonicalBin}
    (hstamp : ∀ sourceId live, db.live.find sourceId = some live →
      live.lastSuccessRunId ≠ runId)
    (hb : ∀ bin ∈ bins, bin ∈ Db.distinctBins (db.snapshot runId)) :
    LiveAgrees (db.promoteEcbLiveState runId now) runId bins := by
  intro sourceId v hv
  have hstamp' : ∀ s (live : EcbViolation), db.live.find s = some live →
      live.lastSuccessRunId = runId → (db.staging runId).find s ≠ none :=
    fun s live hl e => absurd e (hstamp s live hl)
  constructor
  · rintro ⟨live, hl, hcur, rfl⟩
    obtain ⟨staged, hst, rfl⟩ :=
      (Db.current_promote_iff (v := live) hstamp' (hb _ hv)).mp ⟨hl, hcur⟩
    exact hst
  · intro hst
    have hl := (Db.current_promote_iff (v := publishedViolation runId now v) hstamp'
      (hb _ hv)).mpr ⟨v, hst, rfl⟩
    exact ⟨_, hl.1, hl.2, rfl⟩

end Publication

/-! ### Runs of the system -/

section System

variable {s s' : SystemState Row}

/-- **Only COMPLETED runs stamp live rows.** -/
theorem stampsCompleted_next {ev : Event Row} (hI : SystemInvariant s)
    (hst : StampsCompleted s.db) (h : next config service s ev = some s') :
    StampsCompleted s'.db := by
  have he := (systemInvariant_next hI h).2
  have ht := next_turn h
  clear h
  -- the run of a stamp stays COMPLETED
  have stays : ∀ r, (s.db.runs.find r).map (·.status) = some .completed →
      (s'.db.runs.find r).map (·.status) = some .completed := fun r hr => by
    obtain ⟨run, hr, hs⟩ := Option.map_eq_some_iff.mp hr
    obtain ⟨run', hr', hs', -⟩ := completed_evolves hI.lifecycle he hr hs
    rw [hr', Option.map_some, hs', hs]
  cases ht with
  | acquired => exact hst
  | crashed => exact hst
  | created h =>
      obtain ⟨_, _, _, rfl⟩ := createProperty_frame h
      exact hst
  | applied h =>
      obtain ⟨_, _, _, rfl⟩ := applyEffectiveBinSet_frame h
      exact hst
  | @stepped a db' pc' h =>
      rcases write_leavesAccepted hI.knows h.write with hl | ⟨runId, answer, outcome, -, hp⟩
      · intro sourceId live hlive
        exact stays _ (hst sourceId live (hl.live ▸ hlive))
      rcases Db.acceptedTransaction_eq_ok (Db.publish_ok hp) with
        ⟨-, rfl, -⟩ | ⟨run, db₂, -, hpub, -, hcov, rfl⟩
      · exact hst
      intro sourceId live hlive
      obtain ⟨coverage, rfl⟩ := Db.publishSuccessfulCoverage_frame hcov
      rcases stamp_promote hlive with e | ⟨live₀, hl₀, e⟩
      · simp [e, Db.promoteEcbLiveState, Db.reconcileAbsences, Db.promoteStaging, hpub.found,
          Db.acceptedRun]
      · rw [e]
        exact stays _ (hst sourceId live₀ hl₀)

theorem coverageInvariant_initial : CoverageInvariant (SystemState.initial : SystemState Row) where
  system := systemInvariant_initial
  checked _ _ h := nomatch h
  stamps _ _ h := nomatch h
  latest _ _ _ h := nomatch h
  active _ _ h := nomatch h
  inHand := trivial

/-- A CHECKED property exists and has a BIN. -/
theorem CoverageInvariant.scanned (hI : CoverageInvariant s) {p : PropertyId}
    {c : PropertyDatasetCoverage} (hc : s.db.coverage p = some c) (hs : c.status = .checked) :
    s.db.properties.find p ≠ none ∧ ∃ bin, bin ∈ s.db.propertyBins p := by
  obtain ⟨runId, run, h⟩ := hI.checked p c hc hs
  exact ⟨h.property, h.nonempty⟩

/-- A write that leaves the accepted state alone. -/
theorem CoverageInvariant.leaves {db' : Db Row} {pc' : ExecutorState Row}
    (hI : CoverageInvariant s) (hI' : SystemInvariant ⟨db', pc'⟩)
    (he : RunsEvolve OneMove s.db db') (hl : LeavesAccepted s.db db')
    (hst : StampsCompleted db') (hlatest : LatestRuns db')
    (hactive : ActiveFresh db') (hhand : SnapshotInHand db' pc') :
    CoverageInvariant (⟨db', pc'⟩ : SystemState Row) where
  system := hI'
  checked p c hc hs := by
    obtain ⟨runId, run, h⟩ := hI.checked p c (hl.coverage p c hc hs) hs
    exact ⟨runId, hl.checked hI.system.lifecycle he h⟩
  stamps := hst
  latest := hlatest
  active := hactive
  inHand := hhand

/-- **An accepted publication**: the run published was the only active one, so that its snapshot
covers every property that was CHECKED, and no live row carried its stamp. -/
theorem CoverageInvariant.publish {db' : Db Row} {answer : PublicationAnswer} {runId : RunId}
    {outcome : AcceptedPublicationOutcome} {pc' : ExecutorState Row} (hI : CoverageInvariant s)
    (hI' : SystemInvariant ⟨db', pc'⟩) (h : s.db.publish answer runId = (db', .ok outcome))
    (hst : StampsCompleted db') (hhand : SnapshotInHand db' pc') : CoverageInvariant (⟨db', pc'⟩ : SystemState Row) := by
  rcases Db.acceptedTransaction_eq_ok (Db.publish_ok h) with
    ⟨-, rfl, -⟩ | ⟨run, db₂, -, hp, -, hcov, rfl⟩
  · exact ⟨hI', hI.checked, hI.stamps, hI.latest, hI.active, hhand⟩
  have hactive : run.isActive = true := Db.isActive_iff.mpr (Or.inr hp.running)
  have hf : Fresh s.db (s.db.snapshot runId) := hI.active runId run hp.found hactive hp.initialized
  obtain ⟨t, ht⟩ := Option.ne_none_iff_exists'.mp hp.started
  -- no run is later, so no coverage row is left to a newer run
  have hlater : ∀ r, ¬ s.db.StartedAfter t r := fun r hr => by
    obtain ⟨t', ht', hlt⟩ := (Option.any_eq_true _ _).mp hr
    obtain ⟨run', hr', ht'⟩ := Option.bind_eq_some_iff.mp ht'
    have hle := hI.latest runId run t hp.found hp.running ht r run' t' hr' ht'
    exact absurd (of_decide_eq_true hlt) (not_lt.mpr hle)
  have hnewer : ∀ run', s.db.runs.find runId = some run' → ∀ c,
      ¬ s.db.PublishedByNewerRun (run'.startedAt.getD 0) c := by
    rintro run' hr' c (hc | hc)
    all_goals
      rw [hp.found] at hr'
      cases hr'
      rw [ht] at hc
      obtain ⟨r, -, hr⟩ := (Option.any_eq_true _ _).mp hc
      exact hlater r (of_decide_eq_true hr)
  -- a live row with its stamp would be the row of a COMPLETED run
  have hstamp : ∀ sourceId live, s.db.live.find sourceId = some live →
      live.lastSuccessRunId ≠ runId := by
    rintro sourceId live hl rfl
    have := hI.stamps sourceId live hl
    rw [hp.found, Option.map_some, hp.running] at this
    cases this
  have hf' : Fresh (s.db.promoteEcbLiveState runId answer.currentTimestamp)
      (s.db.snapshot runId) := hf.mono rfl rfl fun _ c hc hs => ⟨c, hc, hs⟩
  have hchecked := fun p c => checked_published (p := p) (c := c) hf' hnewer hcov
  obtain ⟨coverage, rfl⟩ := Db.publishSuccessfulCoverage_frame hcov
  refine ⟨hI', fun p c hc hs => ?_, hst, ?_, ?_, hhand⟩
  · obtain ⟨⟨row, hrow, rfl, hv⟩, run', hr', rfl⟩ := hchecked p c hc hs
    have hbins := hf.bins row hrow hv
    rw [show run' = run from Option.some.inj (hr'.symm.trans hp.found)]
    refine ⟨runId, Db.acceptedRun answer.now run, ⟨rfl, ?_, rfl, hp.guard.symm,
      hf.known row hrow, ⟨row.bin, (hbins _).mpr ⟨row, hrow, rfl, rfl⟩⟩, ?_⟩⟩
    · simp [Db.promoteEcbLiveState, Db.reconcileAbsences, Db.promoteStaging, hp.found]
    · refine liveAgrees_promote hstamp fun bin hb => ?_
      obtain ⟨row', hrow', -, rfl⟩ := (hbins bin).mp hb
      exact SortedSet.mem_ofList.mpr (List.mem_map.mpr ⟨row', hrow', rfl⟩)
  · refine KeepsRuns.latest ?_ hI.latest
    refine KeepsRuns.of_modify (f := Db.acceptedRun answer.now) rfl rfl fun run' hr' => ?_
    rw [hp.found] at hr'
    cases hr'
    exact ⟨rfl, rfl, fun _ => hp.running, fun _ => hactive⟩
  -- the run published was the only active one
  · intro r run' hr ha hi
    simp only [Db.promoteEcbLiveState, Db.reconcileAbsences, Db.promoteStaging,
      Table.find_modify] at hr
    split at hr
    · obtain ⟨run₀, -, rfl⟩ := Option.map_eq_some_iff.mp hr
      simp [Db.acceptedRun, IngestionRun.isActive] at ha
    · rename_i e
      exact absurd (hI.system.lifecycle.oneActive r runId run' run hr hp.found ha hactive) e

/-- An identity event: the property it changes is not CHECKED afterwards, and the others stay. -/
theorem CoverageInvariant.identity {db' : Db Row} {p : PropertyId} (hI : CoverageInvariant s)
    (hframe : IdentityFrame s.db db') (hother : ∀ q, q ≠ p →
      db'.properties.find q = s.db.properties.find q ∧
        db'.propertyBins q = s.db.propertyBins q ∧ db'.coverage q = s.db.coverage q)
    (hself : ∀ c, db'.coverage p = some c → c.status ≠ .checked)
    (hfresh : ∀ rows, Fresh s.db rows → Fresh db' rows)
    (hok : s.executor.isReadingSnapshot = false) :
    CoverageInvariant (⟨db', s.executor⟩ : SystemState Row) := by
  have hkept := hframe.kept hI.system.lifecycle
  obtain ⟨properties, propertyBins, coverage, rfl⟩ := hframe
  refine ⟨⟨hkept.invariant, hI.system.knows.of_runs rfl⟩, fun q c hc hs => ?_, hI.stamps, hI.latest,
    fun r run hr ha hi => hfresh _ (hI.active r run hr ha hi), ?_⟩
  · have e : q ≠ p := by
      rintro rfl
      exact hself c hc hs
    obtain ⟨hp, hb, hcov⟩ := hother q e
    obtain ⟨runId, run, h⟩ := hI.checked q c (hcov ▸ hc) hs
    exact ⟨runId, run, h.frame h.found rfl rfl (by rw [hp]; exact h.property) hb rfl rfl⟩
  · have hh := hI.inHand
    cases hpc : s.executor with
    | snapshotBinsLoaded runId relationships =>
        rw [hpc] at hok
        cases hok
    | snapshotLoaded runId rows =>
        rw [hpc] at hh
        exact hfresh rows hh
    | _ => trivial

/-- **One event keeps the coverage invariant.** -/
theorem coverageInvariant_next {ev : Event Row} (hI : CoverageInvariant s)
    (hok : SnapshotAtomicAndStartsOrdered s ev) (h : next config service s ev = some s') :
    CoverageInvariant s' := by
  obtain ⟨hI', he⟩ := systemInvariant_next hI.system h
  have hst := stampsCompleted_next hI.system hI.stamps h
  have ht := next_turn h
  clear h
  cases ht with
  | acquired => exact ⟨hI', hI.checked, hI.stamps, hI.latest, hI.active, trivial⟩
  | crashed => exact ⟨hI', hI.checked, hI.stamps, hI.latest, hI.active, trivial⟩
  | @created p input now db' h =>
      have hframe := createProperty_frame h
      obtain ⟨property, bbl, -, -, -, -, hp, rfl⟩ := Db.createProperty_eq_ok h
      refine hI.identity hframe (p := p) (fun q e => ⟨Table.find_set_ne e,
        Function.update_of_ne e _ _, Function.update_of_ne e _ _⟩) (fun c hc => ?_)
        (fun rows hf => hf.create hp rfl) hok
      simp only [Function.update_self, Option.some.injEq] at hc
      subst hc
      simp [buildInitialCoverage, uncheckedCoverage]
  | @applied p candidateBins db' r h =>
      have hframe := applyEffectiveBinSet_frame h
      obtain ⟨-, ⟨-, rfl, -⟩ | ⟨-, -, rfl⟩⟩ := Db.applyEffectiveBinSet_eq_ok h
      · exact hI
      refine hI.identity hframe (p := p) (fun q e => ⟨Table.find_modify_ne e,
        Function.update_of_ne e _ _, Function.update_of_ne e _ _⟩) (fun c hc => ?_)
        (fun rows hf => hf.replaceBinSet _) hok
      simp only [Db.replaceBinSet, Function.update_self, Option.some.injEq] at hc
      subst hc
      simp only [Db.invalidatedCoverage, buildCoverageAfterBinSetChange, uncheckedCoverage]
      split <;> simp
  | @stepped a db' pc' h =>
      have hhand := inHand_effect hI.inHand (fun p c => hI.scanned) h
      rcases write_leavesAccepted hI.system.knows h.write with hl | ⟨runId, answer, outcome, -, hp⟩
      · have hf : ∀ rows, Fresh s.db rows → Fresh db' rows := fun _ => hl.fresh
        rcases write_keepsRuns h.write with hk | ⟨runId, rows, run, hpc, hinit⟩ |
          ⟨runId, rowsUpdatedAt, hpc, hstart⟩
        · exact hI.leaves hI' he hl hst (hk.latest hI.latest) (hk.active hI.active hf) hhand
        · have hrows := hI.inHand
          rw [hpc] at hrows
          exact hI.leaves hI' he hl hst (latest_snapshotStored hI.latest hinit)
            (active_snapshotStored hI.active hrows hf hinit) hhand
        · have hn : ∀ r run t, s.db.runs.find r = some run → run.startedAt = some t →
              t ≤ a.now := fun r run t hr ht => by
            have := hok (by rw [hpc]; rfl) r ((s.db.runs.mem_keys r).mpr (by simp [hr]))
            simpa [hr, ht] using this
          exact hI.leaves hI' he hl hst (latest_start hI.system.lifecycle hn hstart)
            (active_start hI.active hf hstart) hhand
      · exact hI.publish hI' hp hst hhand

/-- **Coverage agrees with live data.**  In every state the system reaches with atomic snapshots and
ordered starts, over any number of runs however they end: a property whose coverage is CHECKED names
a COMPLETED run, its watermark is the watermark of that run, and the current live rows on the BINs
it has now are exactly the staged rows of that run on them. -/
theorem coverage_agrees_with_live
    (h : Steps (next config service) SnapshotAtomicAndStartsOrdered .initial s) {p : PropertyId}
    {c : PropertyDatasetCoverage} (hc : s.db.coverage p = some c) (hs : c.status = .checked) :
    ∃ runId run, c.lastSuccessRunId = some runId ∧ s.db.runs.find runId = some run ∧
      run.status = .completed ∧ c.sourceWatermarkAt = run.sourceWatermarkAtStart ∧
      c.sourceWatermarkAt ≠ none ∧ LiveAgrees s.db runId (s.db.propertyBins p) := by
  have hI : CoverageInvariant s :=
    h.invariant (fun hI hok hn => coverageInvariant_next hI hok hn) coverageInvariant_initial
  obtain ⟨runId, run, hb⟩ := hI.checked p c hc hs
  have hw := ((hI.system.lifecycle.runs runId run hb.found).completed hb.completed).2.1
  exact ⟨runId, run, hb.lastSuccess, hb.found, hb.completed, hb.watermark, hb.watermark ▸ hw,
    hb.agrees⟩

end System

/-- A property is created, and one execution completes a run over it with one violation. -/
def checkedRun : List (Event NormalizedEcbViolation) :=
  createSample 0 "1000010001" "1000001" :: .acquireLock .manual ::
    List.replicate 20 (.executor (quietAnswer 0 7 [sampleViolation]))

theorem coverage_agrees_with_live_checkedRun :
    ∃ s c, Steps (next smallConfig plainService) SnapshotAtomicAndStartsOrdered .initial s ∧
      s.db.coverage 0 = some c ∧ c.status = .checked ∧ s.db.live.find "1" ≠ none ∧
      ∃ runId run, c.lastSuccessRunId = some runId ∧ s.db.runs.find runId = some run ∧
        run.status = .completed ∧ c.sourceWatermarkAt = run.sourceWatermarkAtStart ∧
        c.sourceWatermarkAt ≠ none ∧ LiveAgrees s.db runId (s.db.propertyBins 0) := by
  have hs : ((Library.run (next smallConfig plainService) .initial checkedRun).bind fun s =>
      (s.db.coverage 0).map fun c => (c.status, (s.db.live.find "1").isSome)) =
        some (.checked, true) := by decide +kernel
  obtain ⟨s, hrun, hs⟩ := Option.bind_eq_some_iff.mp hs
  obtain ⟨c, hc, hs⟩ := Option.map_eq_some_iff.mp hs
  rw [Prod.mk.injEq] at hs
  have h : Steps (next smallConfig plainService) SnapshotAtomicAndStartsOrdered .initial s :=
    run_steps (by decide +kernel : RunOk _ _ _ checkedRun) hrun
  exact ⟨s, c, h, hc, hs.1, Option.isSome_iff_ne_none.mp hs.2,
    coverage_agrees_with_live h hc hs.1⟩

end NycPropertyResolver
