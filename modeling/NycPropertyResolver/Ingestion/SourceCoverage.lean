import NycPropertyResolver.Ingestion.EndToEnd
import NycPropertyResolver.Ingestion.LivePromotion

/-!
# Ingestion — coverage against the source

What CHECKED coverage says of the source: the current live rows on the BINs of the property are the
source rows on them at the watermark of the coverage.  This holds where snapshots are read at one
instant, runs start in their order and the source answers as it stands.  An accepted run is exact when
it is published, and what it staged stays as it is (`completed_kept`); the coverage of a property names
a run whose snapshot has all its BINs (`SourceCoverage.scanned`); and the live rows on them stay those
of that run (`CoverageInvariant`), whatever other runs publish.
-/

namespace NycPropertyResolver

open Library

variable {Row : Type} {config : ExecutorConfig} {columns : SourceColumns Row}
  {service : EcbRowService Row} {source : Nat → SourceDataset Row}

/-! ### Statements -/

/-- The current live rows on the given BINs are the given source rows on them, normalized. -/
def LiveIsSource (service : EcbRowService Row) (rows : List Row) (db : Db Row)
    (bins : SortedSet CanonicalBin) : Prop :=
  ∀ sourceId (v : NormalizedEcbViolation), v.bin ∈ bins →
    ((∃ live, db.live.find sourceId = some live ∧ live.isCurrent = true ∧
      live.toNormalizedEcbViolation = v) ↔
        v.sourceId = sourceId ∧ ∃ row ∈ rows, service.normalizeEcbViolation row = some v)

/-- The rows of the live table and of every staging table stand at their `source_id`. -/
structure TablesKeyed (db : Db Row) : Prop where
  live : KeyedBySource (·.sourceId) db.live
  staging : ∀ r, KeyedBySource (·.sourceId) (db.staging r)

/-- A run is exact: its start watermark is one the source had by then, and what it staged on its BINs
is the source at that watermark. -/
def RunExact (service : EcbRowService Row) (source : Nat → SourceDataset Row) (s : TrackedState Row)
    (r : RunId) (run : IngestionRun) : Prop :=
  ∃ i ≤ s.instant, run.sourceWatermarkAtStart = some (watermarkAt source i) ∧
    ∀ j, watermarkAt source j = watermarkAt source i →
      StagingExact service (source j).rows s.system.db r

/-- The BINs of a CHECKED property are in the snapshot of the run its coverage names. -/
def CoverageScanned (db : Db Row) : Prop :=
  ∀ p c r, db.coverage p = some c → c.status = .checked → c.lastSuccessRunId = some r →
    ∀ bin ∈ db.propertyBins p, bin ∈ Db.distinctBins (db.snapshot r)

/-- **The invariant of coverage against the source.** -/
structure SourceCoverage (columns : SourceColumns Row) (service : EcbRowService Row)
    (source : Nat → SourceDataset Row) (s : TrackedState Row) : Prop where
  agrees : ∀ r, SourceInvariant columns service source r s
  coverage : CoverageInvariant s.system
  keyed : TablesKeyed s.system.db
  accepted : ∀ r run, s.system.db.runs.find r = some run → run.status = .completed →
    RunExact service source s r run
  scanned : CoverageScanned s.system.db

/-- The source answers, snapshots are read atomically, and runs start in order. -/
def AnsweredInOrder (columns : SourceColumns Row) (service : EcbRowService Row)
    (source : Nat → SourceDataset Row) (s : TrackedState Row) (ev : TrackedEvent Row) : Prop :=
  AnsweredBy columns service source s ev ∧
    match ev with
    | .sourceChanges => True
    | .system ev => SnapshotAtomicAndStartsOrdered s.system ev

instance (columns : SourceColumns Row) (service : EcbRowService Row) [DecidableEq Row]
    (source : Nat → SourceDataset Row) (s : TrackedState Row) :
    (ev : TrackedEvent Row) → Decidable (AnsweredInOrder columns service source s ev)
  | .sourceChanges => inferInstanceAs (Decidable (_ ∧ True))
  | .system ev => inferInstanceAs (Decidable (_ ∧ SnapshotAtomicAndStartsOrdered s.system ev))

/-! ### Keys -/

section Writes

variable {db db' : Db Row} {pc : ExecutorState Row} {a : Answer Row}

theorem tablesKeyed_empty : TablesKeyed (Db.empty : Db Row) :=
  ⟨fun _ _ h => (nomatch h), fun _ _ _ h => (nomatch h)⟩

theorem TablesKeyed.of_same (h : TablesKeyed db) (hlive : db'.live = db.live)
    (hstaging : db'.staging = db.staging) : TablesKeyed db' :=
  ⟨hlive ▸ h.live, hstaging ▸ h.staging⟩

/-- **A write leaves every row at its `source_id`.** -/
theorem TablesKeyed.write (h : TablesKeyed db) (hw : Write config a db pc db') : TablesKeyed db' := by
  cases hw with
  | runCreated hc =>
      obtain ⟨-, -, rfl⟩ := Db.createQueued_eq_ok hc
      exact h.of_same rfl rfl
  | snapshotStored _ hc =>
      obtain ⟨_, -, -, -, rfl⟩ := Db.initializeRunSnapshotAndBatches_eq_ok hc
      exact h.of_same rfl rfl
  | runStarted _ hc =>
      obtain ⟨_, -, -, -, -, rfl⟩ := Db.setStartWatermarkAndRunning_eq_ok hc
      exact h.of_same rfl rfl
  | @rowStaged r n v _ =>
      refine ⟨h.live, fun r' => ?_⟩
      by_cases e : r' = r
      · subst e
        intro sourceId staged hs
        simp only [Db.upsertStaging, Function.update_self, Table.find_set] at hs
        split at hs
        · rename_i hk
          cases hs
          exact hk.symm
        · exact h.staging r' sourceId staged hs
      · rw [Db.staging_upsertStaging_ne e]
        exact h.staging r'
  | terminalPublished _ hc =>
      obtain ⟨-, ht⟩ := Db.publishTerminalFailure_ok hc
      obtain ⟨_, _, -, -, -, rfl⟩ := Db.terminalTransaction_frame ht
      exact h.of_same rfl rfl
  | acceptedPublished _ hc =>
      rcases Db.acceptedTransaction_eq_ok (Db.publish_ok hc) with
        ⟨-, rfl, -⟩ | ⟨run, db₂, -, -, -, hcov, rfl⟩
      · exact h
      obtain ⟨coverage, rfl⟩ := Db.publishSuccessfulCoverage_frame hcov
      exact ⟨Db.keyed_promote h.live (h.staging _), h.staging⟩
  | _ => exact h.of_same rfl rfl

/-! ### Coverage after a publication -/

/-- **A property that is CHECKED after a publication** was so before, by the same coverage, or is in the
snapshot of the run at its current version and names the run. -/
theorem checked_publishSuccessfulCoverage {runId : RunId} {acceptedAt : Time} {p : PropertyId}
    {c : PropertyDatasetCoverage} (h : db.publishSuccessfulCoverage runId acceptedAt = .ok db')
    (hc : db'.coverage p = some c) (hs : c.status = .checked) :
    db.coverage p = some c ∨ db.VersionMatches runId p ∧ c.lastSuccessRunId = some runId := by
  obtain ⟨run, -, hsv, ⟨-, rfl⟩ | ⟨-, rfl⟩⟩ := Db.publishSuccessfulCoverage_eq_ok h
  · exact .inl hc
  by_cases hm : db.VersionMatches runId p
  · have hd : ¬ (db.upsertCheckedCoverage runId (run.startedAt.getD 0) acceptedAt
        run.sourceWatermarkAtEnd).VersionDiffers runId p := Db.not_differs_of_matches hsv hm
    simp only [Db.upsertIdentifiersChangedCoverage, if_neg hd] at hc
    simp only [Db.upsertCheckedCoverage, if_pos hm] at hc
    split at hc
    · cases hc
      exact .inr ⟨hm, rfl⟩
    · split at hc
      · rename_i hc₀ _
        exact .inl (hc₀.trans hc)
      · cases hc
        exact .inr ⟨hm, rfl⟩
  -- the first upsert leaves the row alone, and the second makes nothing CHECKED
  · left
    have hcov : (db.upsertCheckedCoverage runId (run.startedAt.getD 0) acceptedAt
        run.sourceWatermarkAtEnd).coverage p = db.coverage p := if_neg hm
    simp only [Db.upsertIdentifiersChangedCoverage, hcov] at hc
    split at hc
    · split at hc
      · cases hc
        cases hs
      · rename_i hc₀
        split at hc
        · exact hc₀.trans hc
        · cases hc
          cases hs
    · exact hc

end Writes

/-! ### Completed runs -/

section Steps

variable {s s' : SystemState Row} {r : RunId} {run : IngestionRun}

/-- **A COMPLETED run is kept**, with its snapshot and what it staged. -/
theorem completed_kept {ev : Event Row} (hI : SystemInvariant s)
    (h : next config service s ev = some s') (hr : s.db.runs.find r = some run)
    (hc : run.status = .completed) :
    ∃ run', s'.db.runs.find r = some run' ∧ run'.status = .completed ∧
      run'.sourceWatermarkAtStart = run.sourceWatermarkAtStart ∧
      s'.db.snapshot r = s.db.snapshot r ∧ s'.db.staging r = s.db.staging r := by
  have he := (systemInvariant_next hI h).2
  obtain ⟨run', hr', hs', hw'⟩ := completed_evolves hI.lifecycle he hr hc
  obtain ⟨run₁, -, hevolves⟩ := he r run hr
  have hinitialized := ((hI.lifecycle.runs r run hr).started (.inr (.inl hc))).1
  obtain ⟨-, -, -, -, hsnapshot, -⟩ := hevolves.initialized hinitialized
  refine ⟨run', hr', hs'.trans hc, hw', hsnapshot, ?_⟩
  cases next_turn h with
  | acquired => rfl
  | crashed => rfl
  | created hp =>
      obtain ⟨_, _, _, rfl⟩ := createProperty_frame hp
      rfl
  | applied hp =>
      obtain ⟨_, _, _, rfl⟩ := applyEffectiveBinSet_frame hp
      rfl
  | stepped heffect =>
      rcases staging_write heffect.write r with hsame | ⟨n, hpc⟩
      · exact hsame
      · -- the run staged for is RUNNING
        obtain ⟨run₂, hr₂, hs₂, -⟩ := hI.knows.running r (runningRun?_of_batch? hpc)
        rw [hr] at hr₂
        cases hr₂
        rw [hc] at hs₂
        cases hs₂

/-- **A run that is accepted is exact**: when it is published, by what it has read. -/
theorem runExact_published {t : TrackedState Row} {a : Answer Row} {db' : Db Row}
    {pc pc' : ExecutorState Row} (hI : SourceInvariant columns service source r t)
    (hw : Write config a t.system.db pc db')
    (hbefore : (t.system.db.runs.find r).map (·.status) ≠ some .completed)
    (hr : db'.runs.find r = some run) (hc : run.status = .completed) :
    RunExact service source ⟨⟨db', pc'⟩, t.instant⟩ r run := by
  have hafter : (db'.runs.find r).map (·.status) = some .completed := by
    rw [hr, Option.map_some, hc]
  obtain ⟨-, outcome, hp⟩ := completes_by_publication hw hbefore hafter
  obtain ⟨run₀, hpub, hrun, hsnapshot, hstaging, -⟩ := liveAgrees_published hI.stamps hbefore hp
  obtain rfl := Option.some.inj (hr.symm.trans hrun)
  obtain ⟨w, hw⟩ := Option.ne_none_iff_exists'.mp hpub.watermark
  obtain ⟨i, hi, rfl⟩ := hI.started run₀ w hpub.found hpub.running hw
  have hread := hI.accepted run₀ _ hpub.found hpub.running hw (hpub.guard ▸ hw)
  exact ⟨i, hi, hw, fun j hj => (hread.exact j hj).of_same hsnapshot hstaging⟩

/-- Runs that are exact stay so, where no run becomes COMPLETED. -/
theorem RunExact.kept {t t' : TrackedState Row} {ev : Event Row} {run' : IngestionRun}
    (hI : SystemInvariant t.system) (hn : next config service t.system ev = some t'.system)
    (hinstant : t.instant ≤ t'.instant) (h : RunExact service source t r run)
    (hr : t.system.db.runs.find r = some run) (hc : run.status = .completed)
    (hr' : t'.system.db.runs.find r = some run') : RunExact service source t' r run' := by
  obtain ⟨run₁, hr₁, -, hw, hsnapshot, hstaging⟩ := completed_kept hI hn hr hc
  obtain rfl := Option.some.inj (hr'.symm.trans hr₁)
  obtain ⟨i, hi, hstart, hexact⟩ := h
  exact ⟨i, hi.trans hinstant, hw.trans hstart, fun j hj => (hexact j hj).of_same hsnapshot hstaging⟩

/-! ### Snapshots of CHECKED properties -/

/-- An identity event: the property it changes is not CHECKED afterwards, and the others stay. -/
theorem CoverageScanned.identity {db db' : Db Row} {p : PropertyId} (h : CoverageScanned db)
    (hsnapshot : db'.snapshot = db.snapshot)
    (hother : ∀ q, q ≠ p → db'.propertyBins q = db.propertyBins q ∧ db'.coverage q = db.coverage q)
    (hself : ∀ c, db'.coverage p = some c → c.status ≠ .checked) : CoverageScanned db' := by
  intro q c r hc hs hl bin hb
  have hne : q ≠ p := by
    rintro rfl
    exact hself c hc hs
  obtain ⟨hbins, hcoverage⟩ := hother q hne
  rw [hsnapshot]
  exact h q c r (hcoverage ▸ hc) hs hl bin (hbins ▸ hb)

/-- **One event keeps the BINs of a CHECKED property in the snapshot of its run.** -/
theorem coverageScanned_next {ev : Event Row} (hI : CoverageInvariant s)
    (h : CoverageScanned s.db) (hn : next config service s ev = some s') :
    CoverageScanned s'.db := by
  cases next_turn hn with
  | acquired => exact h
  | crashed => exact h
  | @created p input now db' hp =>
      obtain ⟨_, bbl, -, -, -, -, -, rfl⟩ := Db.createProperty_eq_ok hp
      refine h.identity (p := p) rfl (fun q e => ⟨Function.update_of_ne e _ _,
        Function.update_of_ne e _ _⟩) fun c hc => ?_
      simp only [Function.update_self, Option.some.injEq] at hc
      subst hc
      simp [buildInitialCoverage, uncheckedCoverage]
  | @applied p candidateBins db' r hp =>
      obtain ⟨-, ⟨-, rfl, -⟩ | ⟨-, -, rfl⟩⟩ := Db.applyEffectiveBinSet_eq_ok hp
      · exact h
      refine h.identity (p := p) rfl (fun q e => ⟨Function.update_of_ne e _ _,
        Function.update_of_ne e _ _⟩) fun c hc => ?_
      simp only [Db.replaceBinSet, Function.update_self, Option.some.injEq] at hc
      subst hc
      simp only [Db.invalidatedCoverage, buildCoverageAfterBinSetChange, uncheckedCoverage]
      split <;> simp
  | @stepped a db' pc' heffect =>
      -- the snapshot of a run that a coverage names stays as it is
      have hold : ∀ p c r, s.db.coverage p = some c → c.status = .checked →
          c.lastSuccessRunId = some r → ∀ bin ∈ s.db.propertyBins p,
            bin ∈ Db.distinctBins (db'.snapshot r) := by
        intro p c r hc hs hl bin hb
        obtain ⟨r₀, run₀, hchecked⟩ := hI.checked p c hc hs
        obtain rfl := Option.some.inj (hl.symm.trans hchecked.lastSuccess)
        obtain ⟨_, -, -, -, hsnapshot, -⟩ :=
          completed_kept hI.system hn hchecked.found hchecked.completed
        rw [hsnapshot]
        exact h p c r hc hs hl bin hb
      intro p c r hc hs hl bin hb
      rcases write_leavesAccepted hI.system.knows heffect.write with hleaves | ⟨r₀, _, outcome, -, hp⟩
      · exact hold p c r (hleaves.coverage p c hc hs) hs hl bin (hleaves.propertyBins ▸ hb)
      rcases Db.acceptedTransaction_eq_ok (Db.publish_ok hp) with
        ⟨-, rfl, -⟩ | ⟨run₀, db₂, -, hpub, -, hcov, rfl⟩
      · exact hold p c r hc hs hl bin hb
      have hchecked := checked_publishSuccessfulCoverage hcov hc hs
      obtain ⟨coverage, rfl⟩ := Db.publishSuccessfulCoverage_frame hcov
      rcases hchecked with hsame | ⟨⟨row, hrow, rfl, hv⟩, hlast⟩
      · exact hold p c r hsame hs hl bin hb
      · -- the snapshot of the run published has the BINs of the property at that version
        obtain rfl := Option.some.inj (hl.symm.trans hlast)
        have hactive : run₀.isActive = true := Db.isActive_iff.mpr (.inr hpub.running)
        have hfresh := hI.active r run₀ hpub.found hactive hpub.initialized
        obtain ⟨row', hrow', -, rfl⟩ := (hfresh.bins row hrow hv bin).mp hb
        exact SortedSet.mem_ofList.mpr (List.mem_map.mpr ⟨row', hrow', rfl⟩)

end Steps

/-! ### Runs of the tracked system -/

section Tracked

variable {s s' : TrackedState Row}

theorem sourceCoverage_initial (config : ExecutorConfig) :
    SourceCoverage columns service source (⟨.initial, 0⟩ : TrackedState Row) where
  agrees _ := sourceInvariant_of_absent (.refl : Reachable config service .initial) rfl rfl
  coverage := coverageInvariant_initial
  keyed := tablesKeyed_empty
  accepted _ _ h := nomatch h
  scanned _ _ _ h := nomatch h

/-- **One event keeps coverage and the source together.** -/
theorem sourceCoverage_next (hA : SourceAssumptions columns service source)
    {ev : TrackedEvent Row} (hI : SourceCoverage columns service source s)
    (hok : AnsweredInOrder columns service source s ev)
    (h : trackedNext config service s ev = some s') :
    SourceCoverage columns service source s' := by
  have hagrees : ∀ r, SourceInvariant columns service source r s' :=
    fun r => sourceInvariant_next hA (hI.agrees r) hok.1 h
  cases ev with
  | sourceChanges =>
      cases h
      refine ⟨hagrees, hI.coverage, hI.keyed, fun r run hr hc => ?_, hI.scanned⟩
      obtain ⟨i, hi, hstart, hexact⟩ := hI.accepted r run hr hc
      exact ⟨i, Nat.le_succ_of_le hi, hstart, hexact⟩
  | system ev =>
      obtain ⟨t, hn, rfl⟩ := Option.map_eq_some_iff.mp h
      have hsystem := hI.coverage.system
      refine ⟨hagrees, coverageInvariant_next hI.coverage hok.2 hn, ?_, fun r run hr hc => ?_,
        coverageScanned_next hI.coverage hI.scanned hn⟩
      · cases next_turn hn with
        | acquired => exact hI.keyed
        | crashed => exact hI.keyed
        | created hp =>
            obtain ⟨_, _, _, rfl⟩ := createProperty_frame hp
            exact hI.keyed.of_same rfl rfl
        | applied hp =>
            obtain ⟨_, _, _, rfl⟩ := applyEffectiveBinSet_frame hp
            exact hI.keyed.of_same rfl rfl
        | stepped heffect => exact hI.keyed.write heffect.write
      · by_cases hbefore : (s.system.db.runs.find r).map (·.status) = some .completed
        · obtain ⟨run₀, hr₀, hc₀⟩ := Option.map_eq_some_iff.mp hbefore
          have hexact := hI.accepted r run₀ hr₀ hc₀
          exact hexact.kept hsystem hn le_rfl hr₀ hc₀ hr
        · cases next_turn hn with
          | acquired => exact absurd (by rw [hr, Option.map_some, hc]) hbefore
          | crashed => exact absurd (by rw [hr, Option.map_some, hc]) hbefore
          | created hp =>
              rw [(createProperty_frame hp).runs] at hr
              exact absurd (by rw [hr, Option.map_some, hc]) hbefore
          | applied hp =>
              rw [(applyEffectiveBinSet_frame hp).runs] at hr
              exact absurd (by rw [hr, Option.map_some, hc]) hbefore
          | stepped heffect =>
              exact runExact_published (hI.agrees r) heffect.write hbefore hr hc

/-- The invariant holds along every run. -/
theorem sourceCoverage_of_steps (hA : SourceAssumptions columns service source)
    (h : Steps (trackedNext config service) (AnsweredInOrder columns service source)
      ⟨.initial, 0⟩ s) : SourceCoverage columns service source s :=
  h.invariant (fun hI hok hn => sourceCoverage_next hA hI hok hn)
    (sourceCoverage_initial config)

/-- The rows of a CHECKED property are the source at an instant of its watermark. -/
theorem SourceCoverage.liveIsSource (hI : SourceCoverage columns service source s)
    {p : PropertyId} {c : PropertyDatasetCoverage} (hc : s.system.db.coverage p = some c)
    (hs : c.status = .checked) :
    ∃ i ≤ s.instant, c.sourceWatermarkAt = some (watermarkAt source i) ∧
      ∀ j, watermarkAt source j = watermarkAt source i →
        LiveIsSource service (source j).rows s.system.db (s.system.db.propertyBins p) := by
  obtain ⟨r, run, hchecked⟩ := hI.coverage.checked p c hc hs
  obtain ⟨i, hi, hstart, hexact⟩ := hI.accepted r run hchecked.found hchecked.completed
  refine ⟨i, hi, hchecked.watermark.trans hstart, fun j hj sourceId v hv => ?_⟩
  have hscanned := hI.scanned p c r hc hs hchecked.lastSuccess v.bin hv
  exact (hchecked.agrees sourceId v hv).trans (hexact j hj sourceId v hscanned)

/-- **CHECKED coverage tells the truth about the source.**  In every state the system reaches where
snapshots are read at one instant, runs start in their order and the source answers as it stands, over
any number of runs, source changes, failed requests, crashes and resumes: the watermark of a CHECKED
property is one the source has had, and whatever has been published since for other properties, the
current live rows on the BINs the property has now are exactly the rows of the source at that watermark
on them, normalized. -/
theorem checked_coverage_matches_source (hA : SourceAssumptions columns service source)
    (h : Steps (trackedNext config service) (AnsweredInOrder columns service source)
      ⟨.initial, 0⟩ s) {p : PropertyId} {c : PropertyDatasetCoverage}
    (hc : s.system.db.coverage p = some c) (hs : c.status = .checked) :
    ∃ i ≤ s.instant, c.sourceWatermarkAt = some (watermarkAt source i) ∧
      ∀ j, watermarkAt source j = watermarkAt source i →
        LiveIsSource service (source j).rows s.system.db (s.system.db.propertyBins p) :=
  (sourceCoverage_of_steps hA h).liveIsSource hc hs

end Tracked

/-- One execution completes a run over the row of the source, which is emptied afterwards. -/
def checkedThenEmptied : List (TrackedEvent NormalizedEcbViolation) :=
  checkedRun.map .system ++ [.sourceChanges]

theorem checked_coverage_matches_source_checkedThenEmptied : ∃ s c,
    Steps (trackedNext smallConfig plainService)
      (AnsweredInOrder plainColumns plainService emptiedSource) ⟨.initial, 0⟩ s ∧
    s.system.db.coverage 0 = some c ∧ s.instant = 1 ∧ c.sourceWatermarkAt = some 7000 ∧
    LiveIsSource plainService [sampleViolation] s.system.db (s.system.db.propertyBins 0) := by
  have hs : ((Library.run (trackedNext smallConfig plainService) ⟨.initial, 0⟩
      checkedThenEmptied).bind fun s => (s.system.db.coverage 0).map fun c =>
        (c.status, c.sourceWatermarkAt, s.instant)) = some (.checked, some 7000, 1) := by
    decide +kernel
  obtain ⟨s, hrun, hs⟩ := Option.bind_eq_some_iff.mp hs
  obtain ⟨c, hc, hs⟩ := Option.map_eq_some_iff.mp hs
  simp only [Prod.mk.injEq] at hs
  obtain ⟨hchecked, hwatermark, hinstant⟩ := hs
  have h : Steps (trackedNext smallConfig plainService)
      (AnsweredInOrder plainColumns plainService emptiedSource) ⟨.initial, 0⟩ s :=
    run_steps (by decide +kernel : RunOk _ _ _ checkedThenEmptied) hrun
  obtain ⟨i, -, hw, hlive⟩ :=
    checked_coverage_matches_source emptiedSource_assumptions h hc hchecked
  have hzero : watermarkAt emptiedSource 0 = watermarkAt emptiedSource i :=
    Option.some.inj (hwatermark.symm.trans hw)
  exact ⟨s, c, h, hc, hinstant, hwatermark, hlive 0 hzero⟩

end NycPropertyResolver
