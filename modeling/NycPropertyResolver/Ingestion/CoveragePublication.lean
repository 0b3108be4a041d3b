import NycPropertyResolver.Ingestion.NoHybrid

/-!
# Ingestion — what the publications make of the coverage

The two coverage publications, row by row.  Of the snapshot of an accepted run each property becomes
CHECKED at its snapshot version and NOT_CHECKED at another, except where a newer run has written the
row (`CoveragePublished`); a failed attempt is recorded in the row of each snapshot property at its
snapshot version, with the error of the first failed batch that has a BIN of the property and an error
to show (`FailurePublished`).
-/

namespace NycPropertyResolver

open Library

variable {Row : Type}

/-! ### Success -/

/-- NOT_CHECKED, since the identifiers changed after the snapshot; the other columns stay. -/
def movedCoverage (c : PropertyDatasetCoverage) : PropertyDatasetCoverage :=
  { c with status := .notChecked, statusReason := some .identifiersChangedAfterSnapshot }

/-- **What a successful publication makes of each coverage row.** -/
structure CoveragePublished (db : Db Row) (runId : RunId) (run : IngestionRun) (acceptedAt : Time)
    (coverage' : PropertyId → Option PropertyDatasetCoverage) : Prop where
  /-- At its snapshot version. -/
  checked : ∀ p, db.VersionMatches runId p →
    (∀ c, db.coverage p = some c → ¬ db.PublishedByNewerRun (run.startedAt.getD 0) c) →
      coverage' p = some (Db.checkedCoverage runId acceptedAt run.sourceWatermarkAtStart)
  /-- At another version. -/
  moved : ∀ p c, db.VersionDiffers runId p → db.coverage p = some c →
    ¬ db.PublishedByNewerRun (run.startedAt.getD 0) c → c.lastSuccessRunId ≠ some runId →
      coverage' p = some (movedCoverage c)
  /-- At another version, without a row. -/
  inserted : ∀ p, db.VersionDiffers runId p → db.coverage p = none →
    coverage' p = some Db.identifiersChangedCoverage
  /-- A row that has this run as its last success, at another version. -/
  replayed : ∀ p c, db.VersionDiffers runId p → db.coverage p = some c →
    c.lastSuccessRunId = some runId → coverage' p = some c
  newer : ∀ p c, db.coverage p = some c → db.PublishedByNewerRun (run.startedAt.getD 0) c →
    coverage' p = some c
  others : ∀ p, (∀ row ∈ db.snapshot runId, row.propertyId ≠ p) → coverage' p = db.coverage p

namespace Db

variable {db db' : Db Row} {runId : RunId} {run : IngestionRun} {p : PropertyId}

/-- Without a joined snapshot property neither upsert selects a row. -/
theorem versions_of_no_properties (h : db.snapshotProperties runId = []) :
    ¬ db.VersionMatches runId p ∧ ¬ db.VersionDiffers runId p := by
  have hnone : ∀ row ∈ db.snapshot runId, db.properties.find row.propertyId = none := by
    intro row hrow
    by_contra hp
    obtain ⟨property, hproperty⟩ := Option.ne_none_iff_exists'.mp hp
    have hmem : db.snapshotProperty runId row.propertyId property ∈ db.snapshotProperties runId :=
      List.mem_filterMap.mpr ⟨row.propertyId, mem_snapshotPropertyIds.mpr ⟨row, hrow, rfl⟩, by
        rw [hproperty]; rfl⟩
    rw [h] at hmem
    cases hmem
  constructor
  · rintro ⟨row, hrow, rfl, hv⟩
    rw [hnone row hrow] at hv
    cases hv
  · rintro ⟨row, hrow, rfl, hp, -⟩
    exact hp (hnone row hrow)

/-- Both upserts, at one property. -/
theorem coverage_upserts (hsv : db.SingleVersions runId) (startedAt acceptedAt : Time)
    (watermark : Option Time) :
    ((db.upsertCheckedCoverage runId startedAt acceptedAt
        watermark).upsertIdentifiersChangedCoverage runId startedAt).coverage p =
      if db.VersionMatches runId p then
        match db.coverage p with
        | none => some (checkedCoverage runId acceptedAt watermark)
        | some c =>
          if db.PublishedByNewerRun startedAt c then some c
          else some (checkedCoverage runId acceptedAt watermark)
      else if db.VersionDiffers runId p then
        match db.coverage p with
        | none => some identifiersChangedCoverage
        | some c =>
          if db.PublishedByNewerRun startedAt c ∨ c.lastSuccessRunId = some runId then some c
          else some (movedCoverage c)
      else db.coverage p := by
  by_cases hm : db.VersionMatches runId p
  · rw [if_pos hm]
    have hd : ¬ (db.upsertCheckedCoverage runId startedAt acceptedAt watermark).VersionDiffers runId
        p := not_differs_of_matches hsv hm
    exact (if_neg hd).trans (if_pos hm)
  · rw [if_neg hm]
    have hcoverage : (db.upsertCheckedCoverage runId startedAt acceptedAt watermark).coverage p =
        db.coverage p := if_neg hm
    by_cases hd : db.VersionDiffers runId p
    · have hd' : (db.upsertCheckedCoverage runId startedAt acceptedAt watermark).VersionDiffers runId
          p := hd
      rw [if_pos hd, upsertIdentifiersChangedCoverage]
      simp only [if_pos hd', hcoverage]
      rfl
    · have hd' : ¬ (db.upsertCheckedCoverage runId startedAt acceptedAt
          watermark).VersionDiffers runId p := hd
      rw [if_neg hd, upsertIdentifiersChangedCoverage]
      simp only [if_neg hd', hcoverage]

/-- What the two upserts make of each row. -/
theorem coveragePublished_upserts (hsv : db.SingleVersions runId)
    (hguard : run.sourceWatermarkAtStart = run.sourceWatermarkAtEnd) (acceptedAt : Time) :
    CoveragePublished db runId run acceptedAt
      ((db.upsertCheckedCoverage runId (run.startedAt.getD 0) acceptedAt
        run.sourceWatermarkAtEnd).upsertIdentifiersChangedCoverage runId
          (run.startedAt.getD 0)).coverage where
  checked p hm hn := by
    rw [coverage_upserts hsv, if_pos hm, hguard]
    cases hc : db.coverage p with
    | none => rfl
    | some c => exact if_neg (hn c hc)
  moved p c hd hc hn hl := by
    have hm : ¬ db.VersionMatches runId p := fun hm => not_differs_of_matches hsv hm hd
    rw [coverage_upserts hsv, if_neg hm, if_pos hd, hc]
    exact if_neg (not_or.mpr ⟨hn, hl⟩)
  inserted p hd hc := by
    have hm : ¬ db.VersionMatches runId p := fun hm => not_differs_of_matches hsv hm hd
    rw [coverage_upserts hsv, if_neg hm, if_pos hd, hc]
  replayed p c hd hc hl := by
    have hm : ¬ db.VersionMatches runId p := fun hm => not_differs_of_matches hsv hm hd
    rw [coverage_upserts hsv, if_neg hm, if_pos hd, hc]
    exact if_pos (Or.inr hl)
  newer p c hc hn := by
    rw [coverage_upserts hsv, hc]
    split
    · exact if_pos hn
    · split
      · exact if_pos (Or.inl hn)
      · rfl
  others p hp := by
    have hm : ¬ db.VersionMatches runId p := by
      rintro ⟨row, hrow, hproperty, -⟩
      exact hp row hrow hproperty
    have hd : ¬ db.VersionDiffers runId p := by
      rintro ⟨row, hrow, hproperty, -⟩
      exact hp row hrow hproperty
    rw [coverage_upserts hsv, if_neg hm, if_neg hd]

/-- A publication over no joined property leaves every row, as it should. -/
theorem coveragePublished_of_no_properties (h : db.snapshotProperties runId = []) (acceptedAt : Time) :
    CoveragePublished db runId run acceptedAt db.coverage where
  checked _ hm _ := absurd hm (versions_of_no_properties h).1
  moved _ _ hd _ _ _ := absurd hd (versions_of_no_properties h).2
  inserted _ hd _ := absurd hd (versions_of_no_properties h).2
  replayed _ _ _ hc _ := hc
  newer _ _ hc _ := hc
  others _ _ := rfl

/-- **A validated run publishes its coverage**, and nothing else is written. -/
theorem publishSuccessfulCoverage_of_valid {ps : List SnapshotProperty} (acceptedAt : Time)
    (hv : db.loadAndValidateAcceptedRun runId = .ok (run, ps)) :
    ∃ coverage', db.publishSuccessfulCoverage runId acceptedAt =
        .ok { db with coverage := coverage' } ∧
      CoveragePublished db runId run acceptedAt coverage' := by
  obtain ⟨hp, rfl, hsv⟩ := loadAndValidateAcceptedRun_eq_ok hv
  by_cases he : db.snapshotProperties runId = []
  · refine ⟨db.coverage, ?_, coveragePublished_of_no_properties he acceptedAt⟩
    rw [publishSuccessfulCoverage, hv]
    simp only [bind, Except.bind, he, List.isEmpty_nil, if_true]
  · refine ⟨_, ?_, coveragePublished_upserts hsv hp.guard acceptedAt⟩
    rw [publishSuccessfulCoverage, hv]
    simp only [bind, Except.bind, List.isEmpty_eq_false_iff.mpr he, Bool.false_eq_true, if_false]
    rfl

/-- A publication that is not refused has passed the validation. -/
theorem valid_of_publishSuccessfulCoverage {acceptedAt : Time}
    (h : db.publishSuccessfulCoverage runId acceptedAt = .ok db') :
    ∃ run ps, db.loadAndValidateAcceptedRun runId = .ok (run, ps) := by
  obtain ⟨⟨run, ps⟩, hv, -⟩ := except_bind_ok.mp h
  exact ⟨run, ps, hv⟩

/-- A refused publication, in a transaction of its own: it throws, and nothing is written. -/
theorem transaction_publishSuccessfulCoverage {acceptedAt : Time}
    (h : ∀ db', db.publishSuccessfulCoverage runId acceptedAt ≠ .ok db') :
    ∃ e, transaction db ((db.publishSuccessfulCoverage runId acceptedAt).map fun db' => (db', ())) =
      (db, .error e) := by
  cases hpublish : db.publishSuccessfulCoverage runId acceptedAt with
  | ok db' => exact absurd hpublish (h db')
  | error e => exact ⟨e, rfl⟩

end Db

/-- **Success coverage publication is exact.**  A run that passes validation publishes the coverage
of its snapshot, row by row, and writes nothing else; a run with a batch that is not COMPLETED, or whose
batches do not cover its snapshot, or whose snapshot holds two versions of one property, throws and
writes nothing. -/
theorem success_coverage_exact (db : Db Row) (runId : RunId) (acceptedAt : Time) :
    (∀ run ps, db.loadAndValidateAcceptedRun runId = .ok (run, ps) →
      run.status = .running ∧ ∃ coverage', db.publishSuccessfulCoverage runId acceptedAt =
          .ok { db with coverage := coverage' } ∧
        CoveragePublished db runId run acceptedAt coverage') ∧
    (¬ ((∀ b ∈ db.batches runId, b.status = .completed) ∧ db.CoversSnapshot runId) →
      ∃ e, transaction db ((db.publishSuccessfulCoverage runId acceptedAt).map fun db' =>
        (db', ())) = (db, .error e)) ∧
    (∀ row ∈ db.snapshot runId, ∀ row' ∈ db.snapshot runId, row.propertyId = row'.propertyId →
      db.properties.find row.propertyId ≠ none →
      row.propertyIdentifierVersion ≠ row'.propertyIdentifierVersion →
        ∃ e, transaction db ((db.publishSuccessfulCoverage runId acceptedAt).map fun db' =>
          (db', ())) = (db, .error e)) := by
  refine ⟨fun run ps hv => ?_, fun hc => ?_, fun row hrow row' hrow' hproperty hp hne => ?_⟩
  · obtain ⟨hp, -, -⟩ := Db.loadAndValidateAcceptedRun_eq_ok hv
    exact ⟨hp.running, Db.publishSuccessfulCoverage_of_valid acceptedAt hv⟩
  · refine Db.transaction_publishSuccessfulCoverage fun db' h => ?_
    obtain ⟨run, ps, hv⟩ := Db.valid_of_publishSuccessfulCoverage h
    have hpublishable := (Db.loadAndValidateAcceptedRun_eq_ok hv).1
    exact hc ⟨hpublishable.batches, hpublishable.covers⟩
  · refine Db.transaction_publishSuccessfulCoverage fun db' h => ?_
    obtain ⟨run, ps, hv⟩ := Db.valid_of_publishSuccessfulCoverage h
    exact hne ((Db.loadAndValidateAcceptedRun_eq_ok hv).2.2 row hrow row' hrow' hproperty hp)

/-- A property is created, and one execution gets to the publication of its run. -/
def readyRun : List (Event NormalizedEcbViolation) :=
  createSample 0 "1000010001" "1000001" :: .acquireLock .manual ::
    List.replicate 19 (.executor (quietAnswer 0 7 [sampleViolation]))

theorem success_coverage_exact_readyRun :
    ∃ s run ps, Library.run (next smallConfig plainService) .initial readyRun = some s ∧
      s.db.loadAndValidateAcceptedRun 0 = .ok (run, ps) ∧ s.db.VersionMatches 0 0 ∧
      run.status = .running ∧ ∃ coverage', s.db.publishSuccessfulCoverage 0 5 =
          .ok { s.db with coverage := coverage' } ∧
        CoveragePublished s.db 0 run 5 coverage' := by
  have hs : ((Library.run (next smallConfig plainService) .initial readyRun).map fun s =>
      ((s.db.loadAndValidateAcceptedRun 0).isOk, decide (s.db.VersionMatches 0 0))) =
        some (true, true) := by decide +kernel
  obtain ⟨s, hrun, hs⟩ := Option.map_eq_some_iff.mp hs
  rw [Prod.mk.injEq] at hs
  cases hv : s.db.loadAndValidateAcceptedRun 0 with
  | error e =>
      rw [hv] at hs
      cases hs.1
  | ok r =>
      exact ⟨s, r.1, r.2, hrun, hv, of_decide_eq_true hs.2,
        (success_coverage_exact s.db 0 5).1 r.1 r.2 hv⟩

/-! ### Failure -/

/-- A FAILED batch of the run with a BIN the snapshot has for the property, and with an error that is
not only spaces. -/
structure FailsProperty (db : Db Row) (runId : RunId) (p : PropertyId) (b : IngestionBatch) :
    Prop where
  mem : b ∈ db.batches runId
  failed : b.status = .failed
  bin : ∃ row ∈ db.snapshot runId, row.propertyId = p ∧ row.bin ∈ b.batchDefinition.bins
  error : ∃ e, b.lastError = some e ∧ ∃ c ∈ e.toList, c ≠ ' '

/-- The error a failed attempt records for a property. -/
def AttributedError (db : Db Row) (request : IngestionTerminalPublicationRequest) (p : PropertyId)
    (e : String) : Prop :=
  if request.status = .sourceChanged then e = "SOURCE_CHANGED"
  else
    (∃ b, FailsProperty db request.runId p b ∧ b.lastError = some e ∧
      ∀ b', FailsProperty db request.runId p b' → b.batchNumber ≤ b'.batchNumber) ∨
    (∀ b, ¬ FailsProperty db request.runId p b) ∧ e = "RUN_NOT_PROMOTED"

/-- A failed attempt in a coverage row: the success side stays, and is empty without a row. -/
def failedAttempt (request : IngestionTerminalPublicationRequest) (e : String) :
    Option PropertyDatasetCoverage → PropertyDatasetCoverage
  | none => Db.failedCoverage request e
  | some c => { c with
      status := .failed
      statusReason := none
      lastAttemptRunId := some request.runId
      lastAttemptAt := some request.finishedAt
      lastError := some e }

/-- **What a failure publication makes of each coverage row.** -/
structure FailurePublished (db : Db Row) (request : IngestionTerminalPublicationRequest)
    (coverage' : PropertyId → Option PropertyDatasetCoverage) : Prop where
  /-- At its snapshot version. -/
  failed : ∀ row ∈ db.snapshot request.runId,
    db.versionOf row.propertyId = some row.propertyIdentifierVersion →
      ∃ e, AttributedError db request row.propertyId e ∧
        coverage' row.propertyId = some (failedAttempt request e (db.coverage row.propertyId))
  /-- At another version. -/
  moved : ∀ row ∈ db.snapshot request.runId,
    db.versionOf row.propertyId ≠ some row.propertyIdentifierVersion →
      coverage' row.propertyId = db.coverage row.propertyId
  others : ∀ p, (∀ row ∈ db.snapshot request.runId, row.propertyId ≠ p) →
    coverage' p = db.coverage p

namespace Db

variable {db db' : Db Row} {request : IngestionTerminalPublicationRequest} {p : PropertyId}
  {runId : RunId}

/-- The batches of `failed_bins`. -/
theorem isFailedBatch_iff {b : IngestionBatch} :
    isFailedBatch b = true ↔
      b.status = .failed ∧ ∃ e, b.lastError = some e ∧ ∃ c ∈ e.toList, c ≠ ' ' := by
  rw [isFailedBatch, Bool.and_eq_true, decide_eq_true_eq, Option.any_eq_true]
  simp only [List.any_eq_true, decide_eq_true_eq]

/-- The batches `failed_property` joins with the property. -/
theorem failsProperty_iff {b : IngestionBatch} :
    FailsProperty db runId p b ↔ b ∈ db.failedBatches runId ∧
      ((db.snapshot runId).any fun row =>
        row.propertyId = p && row.bin ∈ b.batchDefinition.bins) = true := by
  rw [failedBatches, (List.perm_insertionSort _ _).mem_iff, List.mem_filter, isFailedBatch_iff]
  simp only [List.any_eq_true, Bool.and_eq_true, decide_eq_true_eq]
  constructor
  · rintro ⟨hm, hf, hbin, he⟩
    exact ⟨⟨hm, hf, he⟩, hbin⟩
  · rintro ⟨⟨hm, hf, he⟩, hbin⟩
    exact ⟨hm, hf, hbin, he⟩

/-- `failed_bins` stands in the order of the batch numbers. -/
theorem failedBatches_ordered (db : Db Row) (runId : RunId) :
    (db.failedBatches runId).Pairwise fun b b' => b.batchNumber ≤ b'.batchNumber :=
  have : Std.Total fun b b' : IngestionBatch => b.batchNumber ≤ b'.batchNumber :=
    ⟨fun b b' => le_total b.batchNumber b'.batchNumber⟩
  have : IsTrans IngestionBatch fun b b' => b.batchNumber ≤ b'.batchNumber :=
    ⟨fun _ _ _ => le_trans⟩
  List.pairwise_insertionSort _ _

/-- **The error of a property is that of its first failed batch with an error to show.** -/
theorem attributedError_failureReason (db : Db Row) (request : IngestionTerminalPublicationRequest)
    (p : PropertyId) : AttributedError db request p (db.failureReason request p) := by
  rw [AttributedError, failureReason]
  by_cases hs : request.status = .sourceChanged
  · rw [if_pos hs, if_pos hs]
  rw [if_neg hs, if_neg hs, failedPropertyError]
  cases hfind : (db.failedBatches request.runId).find? fun b =>
      (db.snapshot request.runId).any fun row =>
        row.propertyId = p && row.bin ∈ b.batchDefinition.bins with
  | none =>
      refine Or.inr ⟨fun b hfails => ?_, rfl⟩
      obtain ⟨hm, hbin⟩ := failsProperty_iff.mp hfails
      exact List.find?_eq_none.mp hfind b hm hbin
  | some b =>
      obtain ⟨hbin, before, after, hsplit, hbefore⟩ := List.find?_eq_some_iff_append.mp hfind
      have hm : b ∈ db.failedBatches request.runId := by
        rw [hsplit]
        exact List.mem_append_right _ List.mem_cons_self
      have hfails : FailsProperty db request.runId p b := failsProperty_iff.mpr ⟨hm, hbin⟩
      obtain ⟨e, he, -⟩ := hfails.error
      refine Or.inl ⟨b, hfails, by rw [Option.bind_some, he]; rfl, fun b' hfails' => ?_⟩
      -- the batches stand in the order of their numbers, and none before `b` fails the property
      obtain ⟨hm', hbin'⟩ := failsProperty_iff.mp hfails'
      have hordered := db.failedBatches_ordered request.runId
      rw [hsplit] at hm' hordered
      rcases List.mem_append.mp hm' with hm' | hm'
      · have hnot := hbefore b' hm'
        rw [hbin'] at hnot
        cases hnot
      · rcases List.mem_cons.mp hm' with rfl | hm'
        · exact le_refl _
        · have htail := (List.pairwise_append.mp hordered).2.1
          exact List.rel_of_pairwise_cons htail hm'

/-- With one version for each property, the eligible row is any row. -/
theorem eligibleVersion_of_mem (hv : db.ConsistentVersions runId) {row : IngestionRunPropertyBin}
    (hrow : row ∈ db.snapshot runId) :
    db.eligibleVersion runId row.propertyId = some row.propertyIdentifierVersion := by
  obtain ⟨n, hn⟩ := List.length_eq_one_iff.mp
    (hv row.propertyId (mem_snapshotPropertyIds.mpr ⟨row, hrow, rfl⟩))
  have hall : ∀ row' ∈ db.snapshot runId, row'.propertyId = row.propertyId →
      row'.propertyIdentifierVersion = n := by
    intro row' hrow' hp
    have hmem : row'.propertyIdentifierVersion ∈ (db.snapshotVersions runId row.propertyId).dedup :=
      List.mem_dedup.mpr (mem_snapshotVersions.mpr ⟨row', hrow', hp, rfl⟩)
    rw [hn] at hmem
    exact List.mem_singleton.mp hmem
  rw [eligibleVersion, hall row hrow rfl]
  cases hhead : (((db.snapshot runId).filter fun r => r.propertyId = row.propertyId).insertionSort
      fun r r' => r.bin ≤ r'.bin).head? with
  | none =>
      rw [List.head?_eq_none_iff] at hhead
      have hmem : row ∈ ((db.snapshot runId).filter fun r => r.propertyId = row.propertyId) :=
        List.mem_filter.mpr ⟨hrow, decide_eq_true rfl⟩
      rw [← (List.perm_insertionSort (fun r r' : IngestionRunPropertyBin => r.bin ≤ r'.bin)
        _).mem_iff, hhead] at hmem
      cases hmem
  | some row' =>
      have hmem := List.mem_of_mem_head? (Option.mem_def.mpr hhead)
      rw [(List.perm_insertionSort _ _).mem_iff, List.mem_filter] at hmem
      rw [Option.map_some, hall row' hmem.1 (of_decide_eq_true hmem.2)]

/-- A property outside the snapshot has no eligible row. -/
theorem eligibleVersion_of_not_mem (h : ∀ row ∈ db.snapshot runId, row.propertyId ≠ p) :
    db.eligibleVersion runId p = none := by
  have hnone : ((db.snapshot runId).filter fun row => row.propertyId = p) = [] := by
    refine List.filter_eq_nil_iff.mpr fun row hrow heq => ?_
    exact h row hrow (of_decide_eq_true heq)
  rw [eligibleVersion, hnone]
  rfl

/-- What the statement makes of one row. -/
theorem coverage_publishFailedCoverage_of_mem (hv : db.ConsistentVersions request.runId)
    {row : IngestionRunPropertyBin} (hrow : row ∈ db.snapshot request.runId) :
    (db.publishFailedCoverage request).coverage row.propertyId =
      if db.versionOf row.propertyId = some row.propertyIdentifierVersion then
        some (failedAttempt request (db.failureReason request row.propertyId)
          (db.coverage row.propertyId))
      else db.coverage row.propertyId := by
  rw [publishFailedCoverage]
  simp only [eligibleVersion_of_mem hv hrow]
  cases db.coverage row.propertyId with
  | none => rfl
  | some c => rfl

/-- What the statement makes of each row. -/
theorem failurePublished (hv : db.ConsistentVersions request.runId) :
    FailurePublished db request (db.publishFailedCoverage request).coverage where
  failed row hrow hversion := by
    refine ⟨_, attributedError_failureReason db request row.propertyId, ?_⟩
    rw [coverage_publishFailedCoverage_of_mem hv hrow, if_pos hversion]
  moved row hrow hversion := by
    rw [coverage_publishFailedCoverage_of_mem hv hrow, if_neg hversion]
  others p hp := by
    rw [publishFailedCoverage]
    simp only [eligibleVersion_of_not_mem hp]

/-- An initialized run is published only with one version for each property. -/
theorem terminalTransaction_consistent {answer : PublicationAnswer} {run : IngestionRun}
    (h : db.terminalTransaction answer request = .ok (db', ()))
    (hr : db.runs.find request.runId = some run) (hi : run.initializationComplete = true) :
    db.ConsistentVersions request.runId := by
  obtain ⟨-, h⟩ := runStatement_bind_ok.mp h
  obtain ⟨run', hvalid, h⟩ := except_bind_ok.mp h
  obtain ⟨hr', -, -⟩ := lockAndValidateTerminalRun_eq_ok hvalid
  rw [hr] at hr'
  cases hr'
  obtain ⟨-, h⟩ := assertAuthorized_bind_ok.mp h
  obtain ⟨-, h⟩ := runStatement_bind_ok.mp h
  rw [if_pos hi] at h
  obtain ⟨-, h⟩ := assertAuthorized_bind_ok.mp h
  obtain ⟨-, h⟩ := runStatement_bind_ok.mp h
  exact (ensure_bind_ok.mp h).1

end Db

/-- **Terminal failure coverage is exact.**  A run published FAILED or SOURCE_CHANGED ends so, and
where it was initialized the attempt is recorded for the snapshot properties at their snapshot
version, each with its error; no other row changes, no row loses its success side, and a run that was
never initialized changes no coverage.  This holds whatever the batch rows hold. -/
theorem terminal_failure_exact (db db' : Db Row) (answer : PublicationAnswer)
    (request : IngestionTerminalPublicationRequest)
    (h : db.publishTerminalFailure answer request = (db', .ok ())) :
    ∃ run, db.runs.find request.runId = some run ∧
      db' = { db with
        coverage := db'.coverage
        runs := db.runs.modify request.runId (Db.terminalRun request) } ∧
      (run.initializationComplete = true → FailurePublished db request db'.coverage) ∧
      (run.initializationComplete = false → db'.coverage = db.coverage) ∧
      ∀ p, successSide (db'.coverage p) = successSide (db.coverage p) := by
  obtain ⟨-, h⟩ := Db.publishTerminalFailure_ok h
  obtain ⟨run, hr, -, -, ⟨hi, rfl⟩ | ⟨hi, rfl⟩⟩ := Db.terminalTransaction_eq_ok h
  · refine ⟨run, hr, rfl, fun _ => ?_, fun hi' => ?_, fun p => ?_⟩
    · exact Db.failurePublished (Db.terminalTransaction_consistent h hr hi)
    · rw [hi] at hi'
      cases hi'
    · exact successSide_publishFailedCoverage p
  · refine ⟨run, hr, rfl, fun hi' => ?_, fun _ => rfl, fun _ => rfl⟩
    rw [hi] at hi'
    cases hi'

/-- A FAILED batch of one BIN. -/
def failedSample (batchNumber : Nat) (bin : CanonicalBin) (lastError : String) : IngestionBatch where
  batchNumber := batchNumber
  status := .failed
  batchDefinition := ⟨[bin], 1000⟩
  pagesFetched := 0
  attemptCount := 2
  rowsFetched := 0
  lastError := some lastError
  completedAt := none

/-- A running run over one property with three BINs, each in a FAILED batch; the first batch has an
error of two spaces. -/
def severalFailed : Db NormalizedEcbViolation where
  properties := Table.empty.set 0
    ⟨1, ⟨"1000020011", rfl, rfl⟩, none, none, none, 1, 1, 1, 0, 0⟩
  propertyBins := fun _ => .empty
  coverage := fun _ => none
  resolutionInputs := .empty
  runs := Table.empty.set 0
    ⟨.dobEcbViolations, .running, .manual, true, some 3, some 3, some 3, none, none, some 0, none,
      some 7000, none⟩
  snapshot := fun _ =>
    [⟨0, 1, ⟨"1000011", rfl, rfl⟩⟩, ⟨0, 1, ⟨"1000012", rfl, rfl⟩⟩, ⟨0, 1, ⟨"1000013", rfl, rfl⟩⟩]
  batches := fun _ =>
    [failedSample 3 ⟨"1000013", rfl, rfl⟩ "BATCH_PAGE_FETCH_FAILED: third",
      failedSample 1 ⟨"1000011", rfl, rfl⟩ "  ",
      failedSample 2 ⟨"1000012", rfl, rfl⟩ "BATCH_PAGE_FETCH_FAILED: second"]
  raw := .empty
  staging := fun _ => .empty
  live := .empty

theorem terminal_failure_exact_severalFailed :
    ∃ db', severalFailed.publishTerminalFailure ⟨0, 0, fun _ => true, fun _ => none⟩
        (batchFailureRequest 0 none 0) = (db', .ok ()) ∧
      (db'.coverage 0).map (·.lastError) = some (some "BATCH_PAGE_FETCH_FAILED: second") ∧
      ∃ run, severalFailed.runs.find 0 = some run ∧
        db' = { severalFailed with
          coverage := db'.coverage
          runs := severalFailed.runs.modify 0 (Db.terminalRun (batchFailureRequest 0 none 0)) } ∧
        (run.initializationComplete = true →
          FailurePublished severalFailed (batchFailureRequest 0 none 0) db'.coverage) ∧
        (run.initializationComplete = false → db'.coverage = severalFailed.coverage) ∧
        ∀ p, successSide (db'.coverage p) = successSide (severalFailed.coverage p) := by
  have hs : (fun (published : Db NormalizedEcbViolation × Except ServiceError Unit) =>
      (published.2.isOk, (published.1.coverage 0).map (·.lastError)))
        (severalFailed.publishTerminalFailure ⟨0, 0, fun _ => true, fun _ => none⟩
          (batchFailureRequest 0 none 0)) =
        (true, some (some "BATCH_PAGE_FETCH_FAILED: second")) := by decide +kernel
  cases hpublish : severalFailed.publishTerminalFailure ⟨0, 0, fun _ => true, fun _ => none⟩
      (batchFailureRequest 0 none 0) with
  | mk db' r =>
      rw [hpublish, Prod.mk.injEq] at hs
      cases r with
      | error e => cases hs.1
      | ok u => exact ⟨db', rfl, hs.2, terminal_failure_exact severalFailed db' _ _ hpublish⟩

/-- Batch 1 is the lowest FAILED batch with a BIN of the property, and the coverage does not show its
error. -/
theorem terminal_failure_skips_blank_error :
    (∃ b ∈ severalFailed.batches 0, b.status = .failed ∧
      (∃ row ∈ severalFailed.snapshot 0, row.propertyId = 0 ∧ row.bin ∈ b.batchDefinition.bins) ∧
      (∀ b' ∈ severalFailed.batches 0, b'.status = .failed → b.batchNumber ≤ b'.batchNumber) ∧
      b.lastError = some "  ") ∧
    ((severalFailed.publishTerminalFailure ⟨0, 0, fun _ => true, fun _ => none⟩
      (batchFailureRequest 0 none 0)).1.coverage 0).map (·.lastError) =
        some (some "BATCH_PAGE_FETCH_FAILED: second") := by
  decide +kernel

end NycPropertyResolver
