import NycPropertyResolver.Ingestion.Initialization

/-!
# Ingestion — successful coverage

`successful-coverage.service.ts`: the coverage an accepted run publishes.  A property of the run's
snapshot whose identifier version is still the one in the snapshot becomes CHECKED; a property whose
version has moved on becomes NOT_CHECKED.  Neither statement touches a row that a run with a later
start has written.
-/

namespace NycPropertyResolver

open Library

variable {Row : Type}

/-- The snapshot rows of one property, joined with the property. -/
structure SnapshotProperty where
  propertyId : PropertyId
  propertyIdentifierVersion : Nat
  currentIdentifierVersion : Nat
  snapshotBinCount : Nat
  snapshotVersionCount : Nat

namespace Db

/-- The versions the snapshot of a run holds for a property, one for each of its rows. -/
def snapshotVersions (db : Db Row) (runId : RunId) (p : PropertyId) : List Nat :=
  ((db.snapshot runId).filter fun row => row.propertyId = p).map (·.propertyIdentifierVersion)

/-- The properties of the snapshot of a run, in id order. -/
def snapshotPropertyIds (db : Db Row) (runId : RunId) : List PropertyId :=
  (SortedSet.ofList ((db.snapshot runId).map (·.propertyId))).toList

/-- The group of one property. -/
def snapshotProperty (db : Db Row) (runId : RunId) (p : PropertyId) (property : Property) :
    SnapshotProperty :=
  let versions := db.snapshotVersions runId p
  { propertyId := p
    propertyIdentifierVersion := versions.min?.getD 0
    currentIdentifierVersion := property.identifierVersion
    snapshotBinCount := versions.length
    snapshotVersionCount := versions.dedup.length }

/-- The snapshot joined with `properties`, grouped by property. -/
def snapshotProperties (db : Db Row) (runId : RunId) : List SnapshotProperty :=
  (db.snapshotPropertyIds runId).filterMap fun p =>
    (db.properties.find p).map (db.snapshotProperty runId p)

/-- `batches.flatMap(…bins)`. -/
def processedBins (db : Db Row) (runId : RunId) : List CanonicalBin :=
  (db.batches runId).flatMap fun batch => batch.batchDefinition.bins

/-- The comparison of the BINs the batches processed with the BINs of the snapshot: none twice, and
the sorted lists equal element by element. -/
def CoversSnapshot (db : Db Row) (runId : RunId) : Prop :=
  (db.processedBins runId).length = (SortedSet.ofList (db.processedBins runId)).toList.length ∧
    (SortedSet.ofList (db.processedBins runId)).toList =
      (distinctBins (db.snapshot runId)).toList

instance (db : Db Row) (runId : RunId) : Decidable (db.CoversSnapshot runId) :=
  inferInstanceAs (Decidable (_ ∧ _))

/-- `loadAndValidateAcceptedRun`. -/
def loadAndValidateAcceptedRun (db : Db Row) (runId : RunId) :
    Except ServiceError (IngestionRun × List SnapshotProperty) := do
  let run ← require (db.runs.find runId)
    s!"Successful coverage publication: run {runId} does not exist"
  ensure (run.dataset = .dobEcbViolations)
    s!"Successful coverage publication: run {runId} is not an ECB ingestion run"
  ensure (run.status ≠ .completed)
    s!"Successful coverage publication: run {runId} has already completed and cannot publish coverage again"
  ensure (run.status = .running)
    s!"Successful coverage publication: run {runId} is not accepted (status={run.status.text})"
  ensure (run.initializationComplete = true)
    s!"Successful coverage publication: run {runId} does not have a committed property scope"
  ensure (run.startedAt ≠ none)
    s!"Successful coverage publication: run {runId} is missing started_at"
  ensure (run.sourceWatermarkAtStart ≠ none ∧ run.sourceWatermarkAtEnd ≠ none)
    s!"Successful coverage publication: run {runId} is missing an accepted dataset watermark"
  ensure (run.sourceWatermarkAtStart = run.sourceWatermarkAtEnd)
    s!"Successful coverage publication: run {runId} failed the source watermark guard"
  ensure (run.expectedPropertyBinCount ≠ none ∧ run.expectedBinCount ≠ none ∧
      run.expectedBatchCount ≠ none)
    s!"Successful coverage publication: run {runId} is missing persisted scope counts"
  let snapshotProperties := db.snapshotProperties runId
  ensure ((snapshotProperties.all fun property => property.snapshotVersionCount = 1) = true)
    s!"Successful coverage publication: run {runId} has inconsistent identifier versions in its snapshot"
  ensure (run.expectedPropertyBinCount =
      some (snapshotProperties.map (·.snapshotBinCount)).sum)
    s!"Successful coverage publication: run {runId} property/BIN snapshot count is incomplete"
  ensure (run.expectedBinCount = some (distinctBins (db.snapshot runId)).size)
    s!"Successful coverage publication: run {runId} distinct BIN snapshot count is incomplete"
  ensure (run.expectedBatchCount = some (db.batches runId).length)
    s!"Successful coverage publication: run {runId} batch count is incomplete"
  ensure (((db.batches runId).all fun batch => batch.status = .completed) = true)
    s!"Successful coverage publication: run {runId} has incomplete BIN processing"
  ensure (db.CoversSnapshot runId)
    s!"Successful coverage publication: run {runId} completed batches do not exactly cover its BIN snapshot"
  .ok (run, snapshotProperties)

/-- Some snapshot row of the property holds the version the property has now. -/
def VersionMatches (db : Db Row) (runId : RunId) (p : PropertyId) : Prop :=
  ∃ row ∈ db.snapshot runId, row.propertyId = p ∧
    (db.properties.find p).map Property.identifierVersion = some row.propertyIdentifierVersion

instance (db : Db Row) (runId : RunId) (p : PropertyId) : Decidable (db.VersionMatches runId p) :=
  inferInstanceAs (Decidable (∃ row ∈ db.snapshot runId, _))

/-- Some snapshot row of the property holds another version than the property has now. -/
def VersionDiffers (db : Db Row) (runId : RunId) (p : PropertyId) : Prop :=
  ∃ row ∈ db.snapshot runId, row.propertyId = p ∧ db.properties.find p ≠ none ∧
    (db.properties.find p).map Property.identifierVersion ≠ some row.propertyIdentifierVersion

instance (db : Db Row) (runId : RunId) (p : PropertyId) : Decidable (db.VersionDiffers runId p) :=
  inferInstanceAs (Decidable (∃ row ∈ db.snapshot runId, _))

/-- The run with the given id started after the given instant. -/
def StartedAfter (db : Db Row) (startedAt : Time) (runId : RunId) : Prop :=
  (((db.runs.find runId).bind (·.startedAt)).any fun t => startedAt < t) = true

instance (db : Db Row) (t : Time) (runId : RunId) : Decidable (db.StartedAfter t runId) :=
  inferInstanceAs (Decidable (_ = true))

/-- `publishedByNewerRun`: the coverage row records an attempt or a success of a run that started
after the given instant. -/
def PublishedByNewerRun (db : Db Row) (startedAt : Time) (c : PropertyDatasetCoverage) : Prop :=
  (c.lastAttemptRunId.any fun r => db.StartedAfter startedAt r) = true ∨
    (c.lastSuccessRunId.any fun r => db.StartedAfter startedAt r) = true

instance (db : Db Row) (t : Time) (c : PropertyDatasetCoverage) :
    Decidable (db.PublishedByNewerRun t c) :=
  inferInstanceAs (Decidable (_ ∨ _))

/-- The coverage of a property an accepted run has checked. -/
def checkedCoverage (runId : RunId) (publicationTime : Time) (watermark : Option Time) :
    PropertyDatasetCoverage where
  status := .checked
  statusReason := none
  lastAttemptRunId := some runId
  lastSuccessRunId := some runId
  lastAttemptAt := some publicationTime
  lastSuccessAt := some publicationTime
  sourceWatermarkAt := watermark
  lastError := none

/-- The coverage inserted for a property whose identifiers changed after the snapshot. -/
def identifiersChangedCoverage : PropertyDatasetCoverage where
  status := .notChecked
  statusReason := some .identifiersChangedAfterSnapshot
  lastAttemptRunId := none
  lastSuccessRunId := none
  lastAttemptAt := none
  lastSuccessAt := none
  sourceWatermarkAt := none
  lastError := none

/-- The first upsert: CHECKED for the properties whose version is still the snapshot's. -/
def upsertCheckedCoverage (db : Db Row) (runId : RunId) (startedAt publicationTime : Time)
    (watermark : Option Time) : Db Row :=
  { db with
    coverage := fun p =>
      if db.VersionMatches runId p then
        match db.coverage p with
        | none => some (checkedCoverage runId publicationTime watermark)
        | some c =>
          if db.PublishedByNewerRun startedAt c then some c
          else some (checkedCoverage runId publicationTime watermark)
      else
        db.coverage p }

/-- The second upsert: NOT_CHECKED for the properties whose version has moved on. -/
def upsertIdentifiersChangedCoverage (db : Db Row) (runId : RunId) (startedAt : Time) : Db Row :=
  { db with
    coverage := fun p =>
      if db.VersionDiffers runId p then
        match db.coverage p with
        | none => some identifiersChangedCoverage
        | some c =>
          if db.PublishedByNewerRun startedAt c ∨ c.lastSuccessRunId = some runId then some c
          else some { c with
            status := .notChecked
            statusReason := some .identifiersChangedAfterSnapshot }
      else
        db.coverage p }

/-- `publishSuccessfulCoverage`, inside the caller's transaction. -/
def publishSuccessfulCoverage (db : Db Row) (runId : RunId) (acceptedAt : Time) :
    Except ServiceError (Db Row) := do
  let (run, snapshotProperties) ← db.loadAndValidateAcceptedRun runId
  if snapshotProperties.isEmpty then
    .ok db
  else
    let startedAt := run.startedAt.getD 0
    .ok ((db.upsertCheckedCoverage runId startedAt acceptedAt run.sourceWatermarkAtEnd)
      |>.upsertIdentifiersChangedCoverage runId startedAt)

/-! ### What validation establishes -/

variable {db db' : Db Row} {runId : RunId} {run : IngestionRun}

/-- A run whose state and counts let it be published. -/
structure Publishable (db : Db Row) (runId : RunId) (run : IngestionRun) : Prop where
  found : db.runs.find runId = some run
  running : run.status = .running
  initialized : run.initializationComplete = true
  started : run.startedAt ≠ none
  watermark : run.sourceWatermarkAtStart ≠ none
  guard : run.sourceWatermarkAtStart = run.sourceWatermarkAtEnd
  batches : ∀ b ∈ db.batches runId, b.status = .completed
  covers : db.CoversSnapshot runId

/-- No property of the snapshot is listed with two versions. -/
def SingleVersions (db : Db Row) (runId : RunId) : Prop :=
  ∀ row ∈ db.snapshot runId, ∀ row' ∈ db.snapshot runId, row.propertyId = row'.propertyId →
    db.properties.find row.propertyId ≠ none →
      row.propertyIdentifierVersion = row'.propertyIdentifierVersion

/-- A property that matches with every snapshot row it has, and one that differs with every one. -/
theorem not_differs_of_matches {p : PropertyId} (hsv : db.SingleVersions runId)
    (hm : db.VersionMatches runId p) : ¬ db.VersionDiffers runId p := by
  rintro ⟨row', hrow', rfl, hp, hne⟩
  obtain ⟨row, hrow, hproperty, hv⟩ := hm
  refine hne ?_
  rw [hv, hsv row hrow row' hrow' hproperty (by rw [hproperty]; exact hp)]

theorem mem_snapshotPropertyIds {p : PropertyId} :
    p ∈ db.snapshotPropertyIds runId ↔ ∃ row ∈ db.snapshot runId, row.propertyId = p := by
  rw [snapshotPropertyIds, ← SortedSet.mem_def, SortedSet.mem_ofList, List.mem_map]

theorem mem_snapshotVersions {p : PropertyId} {n : Nat} :
    n ∈ db.snapshotVersions runId p ↔
      ∃ row ∈ db.snapshot runId, row.propertyId = p ∧ row.propertyIdentifierVersion = n := by
  simp [snapshotVersions, List.mem_map, List.mem_filter, and_assoc]

/-- One distinct version for each property means no property is listed with two. -/
theorem singleVersions_of_all
    (h : ((db.snapshotProperties runId).all fun p => p.snapshotVersionCount = 1) = true) :
    db.SingleVersions runId := by
  intro row hrow row' hrow' hp hf
  obtain ⟨property, hproperty⟩ := Option.ne_none_iff_exists'.mp hf
  have hmem : db.snapshotProperty runId row.propertyId property ∈ db.snapshotProperties runId :=
    List.mem_filterMap.mpr ⟨row.propertyId, mem_snapshotPropertyIds.mpr ⟨row, hrow, rfl⟩,
      Option.map_eq_some_iff.mpr ⟨property, hproperty, rfl⟩⟩
  have hcount := decide_eq_true_eq.mp (List.all_eq_true.mp h _ hmem)
  obtain ⟨n, hn⟩ := List.length_eq_one_iff.mp hcount
  have h₁ : row.propertyIdentifierVersion ∈ (db.snapshotVersions runId row.propertyId).dedup :=
    List.mem_dedup.mpr (mem_snapshotVersions.mpr ⟨row, hrow, rfl, rfl⟩)
  have h₂ : row'.propertyIdentifierVersion ∈ (db.snapshotVersions runId row.propertyId).dedup :=
    List.mem_dedup.mpr (mem_snapshotVersions.mpr ⟨row', hrow', hp.symm, rfl⟩)
  rw [hn, List.mem_singleton] at h₁ h₂
  rw [h₁, h₂]

/-- **Validation of an accepted run** establishes all it checks. -/
theorem loadAndValidateAcceptedRun_eq_ok {ps : List SnapshotProperty}
    (h : db.loadAndValidateAcceptedRun runId = .ok (run, ps)) :
    db.Publishable runId run ∧ ps = db.snapshotProperties runId ∧ db.SingleVersions runId := by
  simp only [loadAndValidateAcceptedRun, require_bind_ok, ensure_bind_ok, Except.ok.injEq,
    Prod.mk.injEq] at h
  obtain ⟨run', hr, -, -, hs, hi, hst, hw, hg, -, hv, -, -, -, hb, hc, rfl, rfl⟩ := h
  refine ⟨⟨hr, hs, hi, hst, hw.1, hg, fun b hb' => ?_, hc⟩, rfl, singleVersions_of_all hv⟩
  simpa using List.all_eq_true.mp hb b hb'

/-! ### What the statements change -/

/-- **What a successful coverage publication does**: nothing for an empty scope, and the two
upserts otherwise. -/
theorem publishSuccessfulCoverage_eq_ok {acceptedAt : Time}
    (h : db.publishSuccessfulCoverage runId acceptedAt = .ok db') :
    ∃ run, db.Publishable runId run ∧ db.SingleVersions runId ∧
      ((db.snapshotProperties runId = [] ∧ db' = db) ∨
        (db.snapshotProperties runId ≠ [] ∧
          db' = (db.upsertCheckedCoverage runId (run.startedAt.getD 0) acceptedAt
            run.sourceWatermarkAtEnd).upsertIdentifiersChangedCoverage runId
              (run.startedAt.getD 0))) := by
  obtain ⟨⟨run, ps⟩, hv, h⟩ := except_bind_ok.mp h
  obtain ⟨hp, rfl, hsv⟩ := loadAndValidateAcceptedRun_eq_ok hv
  refine ⟨run, hp, hsv, ?_⟩
  by_cases he : db.snapshotProperties runId = []
  · left
    simp only [he, List.isEmpty_nil, if_true] at h
    cases h
    exact ⟨he, rfl⟩
  · right
    simp only [List.isEmpty_eq_false_iff.mpr he, Bool.false_eq_true, if_false] at h
    cases h
    exact ⟨he, rfl⟩

/-- Only coverage is written. -/
theorem publishSuccessfulCoverage_frame {acceptedAt : Time}
    (h : db.publishSuccessfulCoverage runId acceptedAt = .ok db') :
    ∃ coverage, db' = { db with coverage := coverage } := by
  obtain ⟨run, -, -, ⟨-, rfl⟩ | ⟨-, rfl⟩⟩ := publishSuccessfulCoverage_eq_ok h
  · exact ⟨db'.coverage, rfl⟩
  · exact ⟨_, rfl⟩

end Db

end NycPropertyResolver
