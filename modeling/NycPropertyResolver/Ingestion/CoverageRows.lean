import NycPropertyResolver.Ingestion.BatchRecords
import NycPropertyResolver.Ingestion.CoveragePublication

/-!
# Ingestion — coverage rows

What a coverage row says of its property, whichever of its four writers wrote last: a CHECKED row
names a success, a FAILED row an attempt and its error, a NOT_CHECKED row a reason, and the reason is
NO_VALID_BIN for the properties without a BIN.  The executions may overlap, and a publication of any
run may commit at any time.  The accepted publication writes a row by the versions alone: it is where
a publication writes the row of a property without a BIN that the reason is lost (`coverageRows_iff`).
-/

namespace NycPropertyResolver

open Library

variable {Row : Type}

namespace CoverageRows

/-! ### States -/

/-- The database, and the executions on it. -/
structure CoverageState (Row : Type) where
  db : Db Row
  executors : Nat → ExecutorState Row

/-- An empty database, and no execution. -/
def CoverageState.initial : CoverageState Row := ⟨.empty, fun _ => .stopped .notStarted⟩

/-- A step of an execution, of another process, or of a publication that is called directly. -/
inductive CoverageEvent (Row : Type) where
  | execute (x : Nat) (triggerType : IngestionTriggerType)
  | executor (x : Nat) (answer : Answer Row)
  | findOrCreateProperty (propertyId : PropertyId) (input : CreatePropertyInput) (now : Time)
  | applyEffectiveBinSet (propertyId : PropertyId) (candidateBins : List String)
  | publish (answer : PublicationAnswer) (runId : RunId)
  | publishTerminalFailure (answer : PublicationAnswer)
      (request : IngestionTerminalPublicationRequest)

/-- One event; `none` when it is not possible.  A call that throws leaves the database. -/
def nextCoverage (config : ExecutorConfig) (service : EcbRowService Row) (s : CoverageState Row) :
    CoverageEvent Row → Option (CoverageState Row)
  | .execute x triggerType =>
    some { s with executors := Function.update s.executors x (.started triggerType) }
  | .executor x answer =>
    (executorStep config service answer s.db (s.executors x)).map fun r =>
      ⟨r.1, Function.update s.executors x r.2⟩
  | .findOrCreateProperty propertyId input now =>
    match s.db.createProperty propertyId input now with
    | .ok db' => some { s with db := db' }
    | .error _ => some s
  | .applyEffectiveBinSet propertyId candidateBins =>
    match s.db.applyEffectiveBinSet propertyId candidateBins with
    | .ok (db', _) => some { s with db := db' }
    | .error _ => some s
  | .publish answer runId => some { s with db := (s.db.publish answer runId).1 }
  | .publishTerminalFailure answer request =>
    some { s with db := (s.db.publishTerminalFailure answer request).1 }

/-! ### The property -/

/-- **What a coverage row says** of a property with the given BINs. -/
structure RowHolds (c : PropertyDatasetCoverage) (bins : SortedSet CanonicalBin) : Prop where
  checked : c.status = .checked → c.statusReason = none ∧ c.lastError = none ∧
    c.lastAttemptRunId = c.lastSuccessRunId ∧ c.lastSuccessRunId ≠ none ∧ c.lastSuccessAt ≠ none ∧
    c.sourceWatermarkAt ≠ none
  failed : c.status = .failed → c.lastAttemptRunId ≠ none ∧
    (∃ e, c.lastError = some e ∧ isBlank e = false) ∧ c.statusReason = none
  notChecked : c.status = .notChecked → c.statusReason ≠ none
  noValidBin : c.statusReason = some .noValidBin ↔ bins = .empty

/-- Every property has a coverage row, and it holds.  The key of the table leaves room for one. -/
def RowsHold (db : Db Row) : Prop :=
  ∀ p, db.properties.find p ≠ none → ∃ c, db.coverage p = some c ∧ RowHolds c (db.propertyBins p)

/-! ### The condition -/

/-- An accepted publication commits: no check observes a lost lock session, the database fails no
statement, and the run passes the validations and is not COMPLETED yet. -/
structure Commits (db : Db Row) (answer : PublicationAnswer) (runId : RunId) : Prop where
  authorized : ∀ i < 4, answer.authorized i = true
  statements : ∀ i < 5, answer.statementError i = none
  run : ∃ run, db.lockAndValidateAcceptedRun runId = .ok run ∧ run.status ≠ .completed
  coverage : ∃ r, db.loadAndValidateAcceptedRun runId = .ok r

/-- The upserts of a run write a coverage row of a property. -/
def Writes (db : Db Row) (runId : RunId) (p : PropertyId) (c : PropertyDatasetCoverage) : Prop :=
  (db.VersionMatches runId p ∨ db.VersionDiffers runId p ∧ c.lastSuccessRunId ≠ some runId) ∧
    ∀ run, db.runs.find runId = some run → ¬ db.PublishedByNewerRun (run.startedAt.getD 0) c

/-- A terminal publication commits, and publishes failed coverage. -/
structure CommitsFailure (db : Db Row) (answer : PublicationAnswer)
    (request : IngestionTerminalPublicationRequest) : Prop where
  valid : request.validate = .ok ()
  authorized : ∀ i < 4, answer.authorized i = true
  statements : ∀ i < 4, answer.statementError i = none
  run : ∃ run, db.lockAndValidateTerminalRun request = .ok run ∧ run.initializationComplete = true
  versions : db.ConsistentVersions request.runId

/-- No row of a property without a BIN is written by an accepted publication. -/
def PublicationSpares (db : Db Row) (answer : PublicationAnswer) (runId : RunId) : Prop :=
  Commits db answer runId → ∀ p c, db.propertyBins p = .empty → db.coverage p = some c →
    ¬ Writes db runId p c

/-- Nor by a terminal publication. -/
def FailureSpares (db : Db Row) (answer : PublicationAnswer)
    (request : IngestionTerminalPublicationRequest) : Prop :=
  CommitsFailure db answer request → ∀ p, db.propertyBins p = .empty →
    ¬ db.VersionMatches request.runId p

/-- **No publication writes the coverage row of a property that has no BIN.** -/
def SparesUnbinned (s : CoverageState Row) : CoverageEvent Row → Prop
  | .publish answer runId => PublicationSpares s.db answer runId
  | .publishTerminalFailure answer request => FailureSpares s.db answer request
  | .executor x answer =>
    match s.executors x with
    | .readyForPublication runId =>
      answer.authorized 0 = true → PublicationSpares s.db answer.publication runId
    | .publishingTerminalFailure request => FailureSpares s.db answer.publication request
    | _ => True
  | _ => True

/-! ### Rows -/

section Rows

variable {bins : SortedSet CanonicalBin} {c : PropertyDatasetCoverage}

/-- The size tells whether there is a BIN. -/
theorem size_eq_zero_iff : bins.size = 0 ↔ bins = .empty := by
  rw [SortedSet.size, List.length_eq_zero_iff, SortedSet.eq_empty_iff]

theorem rowHolds_initial (bins : SortedSet CanonicalBin) :
    RowHolds (buildInitialCoverage bins) bins := by
  refine ⟨nofun, nofun, fun _ => nofun, ?_⟩
  rw [← size_eq_zero_iff, buildInitialCoverage]
  by_cases hsize : bins.size > 0
  · rw [if_pos hsize]
    exact ⟨nofun, fun h => by rw [h] at hsize; exact absurd hsize (Nat.lt_irrefl 0)⟩
  · rw [if_neg hsize]
    exact ⟨fun _ => Nat.eq_zero_of_not_pos hsize, fun _ => rfl⟩

/-- A changed BIN set makes the row NOT_CHECKED, with the reason of the new set. -/
theorem rowHolds_invalidated (c : Option PropertyDatasetCoverage) (bins : SortedSet CanonicalBin) :
    RowHolds (Db.invalidatedCoverage c bins) bins := by
  have hstatus : (Db.invalidatedCoverage c bins).status = .notChecked := by
    cases c <;> rfl
  have hreason : (Db.invalidatedCoverage c bins).statusReason =
      some (if bins.size = 0 then .noValidBin else .identifiersChanged) := by
    cases c <;> rfl
  refine ⟨fun h => ?_, fun h => ?_, fun _ => ?_, ?_⟩
  · rw [hstatus] at h
    cases h
  · rw [hstatus] at h
    cases h
  · rw [hreason]
    nofun
  · rw [hreason, ← size_eq_zero_iff]
    by_cases hsize : bins.size = 0
    · rw [if_pos hsize]
      exact ⟨fun _ => hsize, fun _ => rfl⟩
    · rw [if_neg hsize]
      exact ⟨nofun, fun h => absurd h hsize⟩

/-- A reason other than NO_VALID_BIN, or none, is right for a property with a BIN. -/
theorem noValidBin_of_ne {reason : Option CoverageStatusReason} (hbins : bins ≠ .empty)
    (hreason : reason ≠ some .noValidBin) : reason = some .noValidBin ↔ bins = .empty :=
  ⟨fun h => absurd h hreason, fun h => absurd h hbins⟩

theorem rowHolds_checked {runId : RunId} {acceptedAt : Time} {watermark : Option Time}
    (hbins : bins ≠ .empty) (hw : watermark ≠ none) :
    RowHolds (Db.checkedCoverage runId acceptedAt watermark) bins :=
  ⟨fun _ => ⟨rfl, rfl, rfl, nofun, nofun, hw⟩, nofun, nofun, noValidBin_of_ne hbins nofun⟩

theorem rowHolds_moved (hbins : bins ≠ .empty) : RowHolds (movedCoverage c) bins :=
  ⟨nofun, nofun, fun _ => nofun, noValidBin_of_ne hbins nofun⟩

theorem rowHolds_failedAttempt {request : IngestionTerminalPublicationRequest} {e : String}
    {c : Option PropertyDatasetCoverage} (hbins : bins ≠ .empty) (he : isBlank e = false) :
    RowHolds (failedAttempt request e c) bins := by
  cases c with
  | none => exact ⟨nofun, fun _ => ⟨nofun, ⟨e, rfl, he⟩, rfl⟩, nofun, noValidBin_of_ne hbins nofun⟩
  | some c => exact ⟨nofun, fun _ => ⟨nofun, ⟨e, rfl, he⟩, rfl⟩, nofun, noValidBin_of_ne hbins nofun⟩

end Rows

/-! ### Publications -/

section Publications

variable {db db' : Db Row} {answer : PublicationAnswer} {runId : RunId} {run : IngestionRun}
  {request : IngestionTerminalPublicationRequest}

/-- The transaction of a run that commits. -/
theorem acceptedTransaction_of_commits (h : Commits db answer runId) :
    ∃ run live coverage', db.Publishable runId run ∧ db.acceptedTransaction answer runId = .ok
        ({ db with live := live, coverage := coverage',
                   runs := db.runs.modify runId (Db.acceptedRun answer.now) }, .completed) ∧
      CoveragePublished db runId run answer.now coverage' := by
  obtain ⟨run, hlock, hstatus⟩ := h.run
  obtain ⟨⟨run', ps⟩, hload⟩ := h.coverage
  obtain ⟨hp, -, -⟩ := Db.loadAndValidateAcceptedRun_eq_ok hload
  have hload' : (db.promoteEcbLiveState runId answer.currentTimestamp).loadAndValidateAcceptedRun
      runId = .ok (run', ps) := hload
  obtain ⟨coverage', hpublish, hrows⟩ := Db.publishSuccessfulCoverage_of_valid answer.now hload'
  have hrunning : (db.runs.find runId).map (·.status) = some .running := by
    rw [hp.found, Option.map_some, hp.running]
  let live := (db.promoteEcbLiveState runId answer.currentTimestamp).live
  have htransaction : db.acceptedTransaction answer runId = .ok
      ({ db with live := live, coverage := coverage',
                 runs := db.runs.modify runId (Db.acceptedRun answer.now) }, .completed) := by
    refine runStatement_bind_ok.mpr ⟨h.statements 0 (by omega), ?_⟩
    refine except_bind_ok.mpr ⟨run, hlock, ?_⟩
    rw [if_neg hstatus]
    refine assertAuthorized_bind_ok.mpr ⟨h.authorized 1 (by omega), ?_⟩
    refine runStatement_bind_ok.mpr ⟨h.statements 1 (by omega), ?_⟩
    refine assertAuthorized_bind_ok.mpr ⟨h.authorized 2 (by omega), ?_⟩
    refine runStatement_bind_ok.mpr ⟨h.statements 2 (by omega), ?_⟩
    refine except_bind_ok.mpr ⟨_, hpublish, ?_⟩
    refine assertAuthorized_bind_ok.mpr ⟨h.authorized 3 (by omega), ?_⟩
    refine runStatement_bind_ok.mpr ⟨h.statements 3 (by omega), ?_⟩
    refine except_bind_ok.mpr ⟨_, ensure_bind_ok.mpr ⟨hrunning, rfl⟩, ?_⟩
    exact runStatement_bind_ok.mpr ⟨h.statements 4 (by omega), rfl⟩
  exact ⟨run', live, coverage', hp, htransaction, ⟨hrows.checked, hrows.moved, hrows.inserted,
    hrows.replayed, hrows.newer, hrows.others⟩⟩

/-- The coverage of a run that commits, row by row. -/
theorem publish_of_commits (h : Commits db answer runId) :
    ∃ run live coverage' runs, db.Publishable runId run ∧ (db.publish answer runId).1 =
        { db with live := live, coverage := coverage', runs := runs } ∧
      CoveragePublished db runId run answer.now coverage' := by
  obtain ⟨run, live, coverage', hp, htransaction, hrows⟩ := acceptedTransaction_of_commits h
  refine ⟨run, live, coverage', db.runs.modify runId (Db.acceptedRun answer.now), hp, ?_, hrows⟩
  rw [Db.publish, h.authorized 0 (by omega), htransaction]
  rfl

/-- A publication leaves the database, or it commits. -/
theorem commits_of_publish (h : (db.publish answer runId).1 ≠ db) : Commits db answer runId := by
  cases hpublish : db.publish answer runId with
  | mk db' r =>
      rw [hpublish] at h
      cases r with
      | error e => exact absurd (Db.publish_error hpublish) h
      | ok outcome =>
          have hauthorized : answer.authorized 0 = true := by
            cases hb : answer.authorized 0 with
            | true => rfl
            | false =>
                rw [Db.publish, hb] at hpublish
                cases hpublish
          have ht := Db.publish_ok hpublish
          obtain ⟨hstatement, ht⟩ := runStatement_bind_ok.mp ht
          obtain ⟨run, hlock, ht⟩ := except_bind_ok.mp ht
          split at ht
          · cases ht
            exact absurd rfl h
          rename_i hstatus
          obtain ⟨h₁, ht⟩ := assertAuthorized_bind_ok.mp ht
          obtain ⟨e₁, ht⟩ := runStatement_bind_ok.mp ht
          obtain ⟨h₂, ht⟩ := assertAuthorized_bind_ok.mp ht
          obtain ⟨e₂, ht⟩ := runStatement_bind_ok.mp ht
          obtain ⟨db₂, hcoverage, ht⟩ := except_bind_ok.mp ht
          obtain ⟨h₃, ht⟩ := assertAuthorized_bind_ok.mp ht
          obtain ⟨e₃, ht⟩ := runStatement_bind_ok.mp ht
          obtain ⟨db₃, -, ht⟩ := except_bind_ok.mp ht
          obtain ⟨e₄, -⟩ := runStatement_bind_ok.mp ht
          obtain ⟨run', ps, hload⟩ := Db.valid_of_publishSuccessfulCoverage hcoverage
          refine ⟨fun i hi => ?_, fun i hi => ?_, ⟨run, hlock, hstatus⟩, ⟨_, hload⟩⟩
          · obtain rfl | rfl | rfl | rfl : i = 0 ∨ i = 1 ∨ i = 2 ∨ i = 3 := by omega
            · exact hauthorized
            · exact h₁
            · exact h₂
            · exact h₃
          · obtain rfl | rfl | rfl | rfl | rfl : i = 0 ∨ i = 1 ∨ i = 2 ∨ i = 3 ∨ i = 4 := by omega
            · exact hstatement
            · exact e₁
            · exact e₂
            · exact e₃
            · exact e₄

/-- The failed coverage of a run that commits, row by row. -/
theorem publishTerminalFailure_of_commits (h : CommitsFailure db answer request) :
    ∃ coverage' runs, (db.publishTerminalFailure answer request).1 =
        { db with coverage := coverage', runs := runs } ∧
      FailurePublished db request coverage' := by
  obtain ⟨run, hlock, hinitialized⟩ := h.run
  have htransaction : db.terminalTransaction answer request =
      .ok ((db.terminateRun request).publishFailedCoverage request, ()) := by
    refine runStatement_bind_ok.mpr ⟨h.statements 0 (by omega), ?_⟩
    refine except_bind_ok.mpr ⟨run, hlock, ?_⟩
    refine assertAuthorized_bind_ok.mpr ⟨h.authorized 1 (by omega), ?_⟩
    refine runStatement_bind_ok.mpr ⟨h.statements 1 (by omega), ?_⟩
    rw [if_pos hinitialized]
    refine assertAuthorized_bind_ok.mpr ⟨h.authorized 2 (by omega), ?_⟩
    refine runStatement_bind_ok.mpr ⟨h.statements 2 (by omega), ?_⟩
    refine ensure_bind_ok.mpr ⟨h.versions, ?_⟩
    refine assertAuthorized_bind_ok.mpr ⟨h.authorized 3 (by omega), ?_⟩
    exact runStatement_bind_ok.mpr ⟨h.statements 3 (by omega), rfl⟩
  refine ⟨(db.publishFailedCoverage request).coverage,
    db.runs.modify request.runId (Db.terminalRun request), ?_, Db.failurePublished h.versions⟩
  rw [Db.publishTerminalFailure, h.valid, h.authorized 0 (by omega), htransaction]
  rfl

/-- A terminal publication leaves the coverage, or it commits. -/
theorem commitsFailure_of_publish
    (h : (db.publishTerminalFailure answer request).1.coverage ≠ db.coverage) :
    CommitsFailure db answer request := by
  cases hpublish : db.publishTerminalFailure answer request with
  | mk db' r =>
      rw [hpublish] at h
      cases r with
      | error e => exact absurd (by rw [Db.publishTerminalFailure_error hpublish]) h
      | ok u =>
          obtain ⟨hvalid, ht⟩ := Db.publishTerminalFailure_ok hpublish
          have hauthorized : answer.authorized 0 = true := by
            cases hb : answer.authorized 0 with
            | true => rfl
            | false =>
                rw [Db.publishTerminalFailure, hvalid, hb] at hpublish
                cases hpublish
          obtain ⟨hstatement, ht⟩ := runStatement_bind_ok.mp ht
          obtain ⟨run, hlock, ht⟩ := except_bind_ok.mp ht
          obtain ⟨h₁, ht⟩ := assertAuthorized_bind_ok.mp ht
          obtain ⟨e₁, ht⟩ := runStatement_bind_ok.mp ht
          split at ht
          · rename_i hinitialized
            obtain ⟨h₂, ht⟩ := assertAuthorized_bind_ok.mp ht
            obtain ⟨e₂, ht⟩ := runStatement_bind_ok.mp ht
            obtain ⟨hversions, ht⟩ := ensure_bind_ok.mp ht
            obtain ⟨h₃, ht⟩ := assertAuthorized_bind_ok.mp ht
            obtain ⟨e₃, -⟩ := runStatement_bind_ok.mp ht
            refine ⟨hvalid, fun i hi => ?_, fun i hi => ?_, ⟨run, hlock, hinitialized⟩, hversions⟩
            · obtain rfl | rfl | rfl | rfl : i = 0 ∨ i = 1 ∨ i = 2 ∨ i = 3 := by omega
              · exact hauthorized
              · exact h₁
              · exact h₂
              · exact h₃
            · obtain rfl | rfl | rfl | rfl : i = 0 ∨ i = 1 ∨ i = 2 ∨ i = 3 := by omega
              · exact hstatement
              · exact e₁
              · exact e₂
              · exact e₃
          · obtain ⟨-, ht⟩ := assertAuthorized_bind_ok.mp ht
            obtain ⟨-, ht⟩ := runStatement_bind_ok.mp ht
            cases ht
            exact absurd rfl h

/-- Only the coverage and the runs are written by a terminal publication. -/
theorem publishTerminalFailure_frame (db : Db Row) (answer : PublicationAnswer)
    (request : IngestionTerminalPublicationRequest) : ∃ coverage' runs,
    (db.publishTerminalFailure answer request).1 =
      { db with coverage := coverage', runs := runs } := by
  cases hpublish : db.publishTerminalFailure answer request with
  | mk db' r =>
      cases r with
      | error e =>
          rw [Db.publishTerminalFailure_error hpublish]
          exact ⟨db.coverage, db.runs, rfl⟩
      | ok u =>
          obtain ⟨_, coverage', -, -, -, rfl⟩ :=
            Db.terminalTransaction_frame (Db.publishTerminalFailure_ok hpublish).2
          exact ⟨coverage', _, rfl⟩

end Publications

/-! ### Rows under a publication -/

section Spared

variable {db : Db Row} {answer : PublicationAnswer} {runId : RunId}
  {request : IngestionTerminalPublicationRequest}

/-- A property whose row an upsert selects is there. -/
theorem found_of_writes {p : PropertyId} {c : PropertyDatasetCoverage} (h : Writes db runId p c) :
    db.properties.find p ≠ none := by
  rcases h.1 with ⟨row, -, -, hv⟩ | ⟨⟨row, -, rfl, hp, -⟩, -⟩
  · intro hnone
    rw [hnone] at hv
    cases hv
  · exact hp

/-- The error of a failed attempt is not blank. -/
theorem not_blank_of_attributed {p : PropertyId} {e : String}
    (hb : BatchRecords (db.batches request.runId)) (h : AttributedError db request p e) :
    isBlank e = false := by
  rw [AttributedError] at h
  split at h
  · rw [h]
    rfl
  · rcases h with ⟨b, hfails, he, -⟩ | ⟨-, rfl⟩
    · obtain ⟨e', he', hblank⟩ := hb.errors b hfails.mem hfails.failed
      rw [he] at he'
      cases he'
      exact hblank
    · rfl

/-- **An accepted publication keeps the rows it writes true**, where it spares the properties without
a BIN. -/
theorem rowsHold_publish (hrows : RowsHold db) (hok : PublicationSpares db answer runId) :
    RowsHold (db.publish answer runId).1 := by
  by_cases hsame : (db.publish answer runId).1 = db
  · rw [hsame]
    exact hrows
  have hcommits := commits_of_publish hsame
  obtain ⟨run, live, coverage', runs, hp, hdb, hpublished⟩ := publish_of_commits hcommits
  rw [hdb]
  intro p hproperty
  obtain ⟨c, hc, hholds⟩ := hrows p hproperty
  have hbins : Writes db runId p c → db.propertyBins p ≠ .empty :=
    fun hwrites hempty => hok hcommits p c hempty hc hwrites
  by_cases hnewer : db.PublishedByNewerRun (run.startedAt.getD 0) c
  · exact ⟨c, hpublished.newer p c hc hnewer, hholds⟩
  have hnot : ∀ run', db.runs.find runId = some run' →
      ¬ db.PublishedByNewerRun (run'.startedAt.getD 0) c := by
    intro run' hrun'
    rw [hp.found] at hrun'
    cases hrun'
    exact hnewer
  by_cases hmatches : db.VersionMatches runId p
  · refine ⟨_, hpublished.checked p hmatches fun c' hc' => ?_,
      rowHolds_checked (hbins ⟨Or.inl hmatches, hnot⟩) hp.watermark⟩
    rw [hc] at hc'
    cases hc'
    exact hnewer
  by_cases hdiffers : db.VersionDiffers runId p
  · by_cases hsuccess : c.lastSuccessRunId = some runId
    · exact ⟨c, hpublished.replayed p c hdiffers hc hsuccess, hholds⟩
    · exact ⟨_, hpublished.moved p c hdiffers hc hnewer hsuccess,
        rowHolds_moved (hbins ⟨Or.inr ⟨hdiffers, hsuccess⟩, hnot⟩)⟩
  · refine ⟨c, ?_, hholds⟩
    -- neither version: the snapshot does not have the property
    rw [← hc]
    refine hpublished.others p fun row hrow hproperty' => ?_
    subst hproperty'
    by_cases hv : (db.properties.find row.propertyId).map Property.identifierVersion =
        some row.propertyIdentifierVersion
    · exact hmatches ⟨row, hrow, rfl, hv⟩
    · exact hdiffers ⟨row, hrow, rfl, hproperty, hv⟩

/-- An accepted publication that writes the row of a property without a BIN makes it untrue. -/
theorem not_rowsHold_publish (hok : ¬ PublicationSpares db answer runId) :
    ¬ RowsHold (db.publish answer runId).1 := by
  simp only [PublicationSpares, not_forall, not_not] at hok
  obtain ⟨hcommits, p, c, hempty, hc, hwrites⟩ := hok
  obtain ⟨run, live, coverage', runs, hp, hdb, hpublished⟩ := publish_of_commits hcommits
  have hproperty := found_of_writes hwrites
  rw [hdb]
  intro hrows'
  obtain ⟨c', hc', hholds⟩ := hrows' p hproperty
  have hreason := hholds.noValidBin.mpr hempty
  have hnewer := hwrites.2 run hp.found
  rcases hwrites.1 with hmatches | ⟨hdiffers, hsuccess⟩
  · have hchecked := hpublished.checked p hmatches fun c'' hc'' => by
      rw [hc] at hc''
      cases hc''
      exact hnewer
    rw [show coverage' p = some c' from hc'] at hchecked
    cases hchecked
    cases hreason
  · have hmoved := hpublished.moved p c hdiffers hc hnewer hsuccess
    rw [show coverage' p = some c' from hc'] at hmoved
    cases hmoved
    cases hreason

theorem rowsHold_publishTerminalFailure (hb : BatchRecords (db.batches request.runId))
    (hrows : RowsHold db) (hok : FailureSpares db answer request) :
    RowsHold (db.publishTerminalFailure answer request).1 := by
  obtain ⟨coverage₀, runs₀, hframe⟩ := publishTerminalFailure_frame db answer request
  by_cases hsame : (db.publishTerminalFailure answer request).1.coverage = db.coverage
  · rw [hframe] at hsame ⊢
    intro p hproperty
    obtain ⟨c, hc, hholds⟩ := hrows p hproperty
    exact ⟨c, by rw [← hc, ← hsame], hholds⟩
  have hcommits := commitsFailure_of_publish hsame
  obtain ⟨coverage', runs, hdb, hpublished⟩ := publishTerminalFailure_of_commits hcommits
  rw [hdb]
  intro p hproperty
  obtain ⟨c, hc, hholds⟩ := hrows p hproperty
  by_cases hmem : ∃ row ∈ db.snapshot request.runId, row.propertyId = p
  · obtain ⟨row, hrow, rfl⟩ := hmem
    by_cases hversion : db.versionOf row.propertyId = some row.propertyIdentifierVersion
    · obtain ⟨e, herror, hfailed⟩ := hpublished.failed row hrow hversion
      refine ⟨_, hfailed, rowHolds_failedAttempt (fun hempty => ?_) (not_blank_of_attributed hb
        herror)⟩
      exact hok hcommits row.propertyId hempty ⟨row, hrow, rfl, hversion⟩
    · exact ⟨c, (hpublished.moved row hrow hversion).trans hc, hholds⟩
  · refine ⟨c, (hpublished.others p fun row hrow hproperty' => ?_).trans hc, hholds⟩
    exact hmem ⟨row, hrow, hproperty'⟩

theorem not_rowsHold_publishTerminalFailure (hok : ¬ FailureSpares db answer request) :
    ¬ RowsHold (db.publishTerminalFailure answer request).1 := by
  simp only [FailureSpares, not_forall, not_not] at hok
  obtain ⟨hcommits, p, hempty, row, hrow, rfl, hversion⟩ := hok
  obtain ⟨coverage', runs, hdb, hpublished⟩ := publishTerminalFailure_of_commits hcommits
  obtain ⟨e, -, hfailed⟩ := hpublished.failed row hrow hversion
  rw [hdb]
  intro hrows'
  have hproperty : db.properties.find row.propertyId ≠ none := by
    intro hnone
    rw [hnone] at hversion
    cases hversion
  obtain ⟨c', hc', hholds⟩ := hrows' row.propertyId hproperty
  have hreason := hholds.noValidBin.mpr hempty
  rw [show coverage' row.propertyId = some c' from hc'] at hfailed
  cases hfailed
  cases hc : db.coverage row.propertyId with
  | none =>
      rw [hc] at hreason
      cases hreason
  | some c =>
      rw [hc] at hreason
      cases hreason

end Spared

/-! ### Steps -/

section Steps

variable {config : ExecutorConfig} {service : EcbRowService Row} {s t : CoverageState Row}

/-- Neither a property, nor a BIN set, nor a coverage row is written. -/
structure SameRows (db db' : Db Row) : Prop where
  properties : db'.properties = db.properties
  propertyBins : db'.propertyBins = db.propertyBins
  coverage : db'.coverage = db.coverage

theorem SameRows.rowsHold {db db' : Db Row} (h : SameRows db db') (hrows : RowsHold db) :
    RowsHold db' := by
  intro p hproperty
  rw [h.properties] at hproperty
  rw [h.propertyBins, h.coverage]
  exact hrows p hproperty

/-- A step of an execution writes a coverage row only where it publishes. -/
theorem executorStep_rows {a : Answer Row} {db db' : Db Row} {pc pc' : ExecutorState Row}
    (h : executorStep config service a db pc = some (db', pc')) :
    SameRows db db' ∨ (∃ runId, pc = .readyForPublication runId ∧ a.authorized 0 = true ∧
        db' = (db.publish a.publication runId).1) ∨
      ∃ request, pc = .publishingTerminalFailure request ∧
        db' = (db.publishTerminalFailure a.publication request).1 := by
  have hw := (executorStep_effect h).write
  obtain ⟨hproperties, hbins, -⟩ := write_snapshot hw
  rcases write_publication hw with ⟨-, hc⟩ | ⟨request, hpc, hp⟩ | ⟨runId, outcome, rfl, hp⟩
  · exact Or.inl ⟨hproperties, hbins, hc⟩
  · exact Or.inr (Or.inr ⟨request, hpc, by rw [hp]⟩)
  · cases ha : a.authorized 0 with
    | true => exact Or.inr (Or.inl ⟨runId, rfl, rfl, by rw [hp]⟩)
    | false =>
        have hstep := Option.some.inj h
        rw [publishAccepted, ha] at hstep
        cases hstep
        exact Or.inl ⟨rfl, rfl, rfl⟩

/-- **One event keeps the rows true** where it spares the properties without a BIN, and the batch rows
keep their records. -/
theorem rowsHold_next {ev : CoverageEvent Row} (hrows : RowsHold s.db) (hb : AllBatchRecords s.db)
    (hok : SparesUnbinned s ev) (h : nextCoverage config service s ev = some t) :
    RowsHold t.db := by
  cases ev with
  | execute x triggerType =>
      cases h
      exact hrows
  | executor x answer =>
      obtain ⟨⟨db', pc'⟩, hstep, rfl⟩ := Option.map_eq_some_iff.mp h
      rcases executorStep_rows hstep with hsame | ⟨runId, hpc, ha, rfl⟩ | ⟨request, hpc, rfl⟩
      · exact hsame.rowsHold hrows
      · simp only [SparesUnbinned, hpc] at hok
        exact rowsHold_publish hrows (hok ha)
      · simp only [SparesUnbinned, hpc] at hok
        exact rowsHold_publishTerminalFailure (hb _) hrows hok
  | findOrCreateProperty p input now =>
      simp only [nextCoverage] at h
      split at h
      · rename_i db' hcreate
        cases h
        obtain ⟨property, bbl, -, -, -, -, -, rfl⟩ := Db.createProperty_eq_ok hcreate
        intro q hproperty
        by_cases hq : q = p
        · subst hq
          refine ⟨_, Function.update_self _ _ _, ?_⟩
          simp only [Function.update_self]
          exact rowHolds_initial _
        · simp only [Table.find_set_ne hq] at hproperty
          simp only [Function.update_of_ne hq]
          exact hrows q hproperty
      · cases h
        exact hrows
  | applyEffectiveBinSet p candidateBins =>
      simp only [nextCoverage] at h
      split at h
      · rename_i db' r happly
        cases h
        obtain ⟨-, ⟨-, rfl, -⟩ | ⟨-, -, rfl⟩⟩ := Db.applyEffectiveBinSet_eq_ok happly
        · exact hrows
        intro q hproperty
        by_cases hq : q = p
        · subst hq
          refine ⟨_, Function.update_self _ _ _, ?_⟩
          simp only [Db.replaceBinSet, Function.update_self]
          exact rowHolds_invalidated _ _
        · simp only [Db.replaceBinSet, Table.find_modify_ne hq] at hproperty
          simp only [Db.replaceBinSet, Function.update_of_ne hq]
          exact hrows q hproperty
      · cases h
        exact hrows
  | publish answer runId =>
      cases h
      exact rowsHold_publish hrows hok
  | publishTerminalFailure answer request =>
      cases h
      exact rowsHold_publishTerminalFailure (hb _) hrows hok

theorem batchRecords_next {ev : CoverageEvent Row} (hb : AllBatchRecords s.db)
    (h : nextCoverage config service s ev = some t) : AllBatchRecords t.db := by
  cases ev with
  | execute x triggerType =>
      cases h
      exact hb
  | executor x answer =>
      obtain ⟨⟨db', pc'⟩, hstep, rfl⟩ := Option.map_eq_some_iff.mp h
      exact hb.effect (executorStep_effect hstep)
  | findOrCreateProperty p input now =>
      simp only [nextCoverage] at h
      split at h
      · rename_i db' hcreate
        cases h
        obtain ⟨_, _, -, -, -, -, -, rfl⟩ := Db.createProperty_eq_ok hcreate
        exact hb
      · cases h
        exact hb
  | applyEffectiveBinSet p candidateBins =>
      simp only [nextCoverage] at h
      split at h
      · rename_i db' r happly
        cases h
        obtain ⟨-, ⟨-, rfl, -⟩ | ⟨-, -, rfl⟩⟩ := Db.applyEffectiveBinSet_eq_ok happly
        · exact hb
        · exact hb
      · cases h
        exact hb
  | publish answer runId =>
      cases h
      exact hb.of_batches (batches_publish rfl)
  | publishTerminalFailure answer request =>
      cases h
      exact hb.of_batches (batches_publishTerminalFailure rfl)

/-- **An event that does not spare the properties without a BIN** leaves an untrue row. -/
theorem not_rowsHold_next {ev : CoverageEvent Row} (hok : ¬ SparesUnbinned s ev)
    (h : nextCoverage config service s ev = some t) : ¬ RowsHold t.db := by
  cases ev with
  | execute x triggerType => exact absurd trivial hok
  | executor x answer =>
      obtain ⟨⟨db', pc'⟩, hstep, rfl⟩ := Option.map_eq_some_iff.mp h
      cases hpc : s.executors x with
      | readyForPublication runId =>
          simp only [SparesUnbinned, hpc, Classical.not_imp] at hok
          rw [hpc] at hstep
          have hdb := Option.some.inj hstep
          rw [publishAccepted, hok.1, if_pos rfl] at hdb
          have hafter := not_rowsHold_publish hok.2
          split at hdb
          · rename_i hp
            cases hdb
            rw [hp] at hafter
            exact hafter
          · rename_i hp
            cases hdb
            rw [hp] at hafter
            exact hafter
      | publishingTerminalFailure request =>
          simp only [SparesUnbinned, hpc] at hok
          rw [hpc] at hstep
          have hdb := Option.some.inj hstep
          rw [publishTerminal] at hdb
          have hafter := not_rowsHold_publishTerminalFailure hok
          split at hdb
          · rename_i hp
            rw [hp] at hafter
            split at hdb
            · cases hdb
              exact hafter
            · cases hdb
              exact hafter
          · rename_i hp
            cases hdb
            rw [hp] at hafter
            exact hafter
      | _ => exact absurd (by simp only [SparesUnbinned, hpc]) hok
  | findOrCreateProperty p input now => exact absurd trivial hok
  | applyEffectiveBinSet p candidateBins => exact absurd trivial hok
  | publish answer runId =>
      cases h
      exact not_rowsHold_publish hok
  | publishTerminalFailure answer request =>
      cases h
      exact not_rowsHold_publishTerminalFailure hok

end Steps

/-! ### Runs -/

section Runs

variable {config : ExecutorConfig} {service : EcbRowService Row}

theorem rowsHold_initial : RowsHold (CoverageState.initial : CoverageState Row).db :=
  fun _ h => absurd rfl h

theorem rowsHold_run {evs : List (CoverageEvent Row)} {s : CoverageState Row}
    (hok : RunOk (nextCoverage config service) SparesUnbinned .initial evs)
    (h : run (nextCoverage config service) .initial evs = some s) : RowsHold s.db := by
  have hboth := (run_steps hok h).invariant
    (I := fun s => RowsHold s.db ∧ AllBatchRecords s.db)
    (fun hI hok hn => ⟨rowsHold_next hI.1 hI.2 hok hn, batchRecords_next hI.2 hn⟩)
    ⟨rowsHold_initial, allBatchRecords_empty⟩
  exact hboth.1

/-- **Every property has a coverage row that holds** in the states of a run if and only if no
publication in it writes the row of a property without a BIN. -/
theorem coverageRows_iff (evs : List (CoverageEvent Row)) (s : CoverageState Row)
    (hrun : run (nextCoverage config service) .initial evs = some s) :
    (∀ before t, before <+: evs → run (nextCoverage config service) .initial before = some t →
        RowsHold t.db) ↔
      RunOk (nextCoverage config service) SparesUnbinned .initial evs := by
  constructor
  · intro hrows
    refine runOk_iff.mpr fun before ev t hbegins ht => ?_
    by_contra hok
    obtain ⟨rest, hevs⟩ := hbegins
    have hnext : ∃ u, nextCoverage config service t ev = some u := by
      rw [← hevs, List.append_assoc, run_append, ht, Option.bind_some] at hrun
      obtain ⟨u, hu, -⟩ := Option.bind_eq_some_iff.mp hrun
      exact ⟨u, hu⟩
    obtain ⟨u, hu⟩ := hnext
    exact not_rowsHold_next hok hu
      (hrows (before ++ [ev]) u ⟨rest, hevs⟩ (run_concat ht hu))
  · intro hok before t hbegins ht
    exact rowsHold_run (hok.of_prefix hbegins) ht

end Runs

/-- The creation of property 0, with one BIN. -/
def createBinned : CoverageEvent Row :=
  .findOrCreateProperty 0 ⟨"1000010001", ["1000001"], none, none, none, none, none, none, none⟩ 0

/-- A property loses its BINs, and a publication of a run that is not there is refused. -/
def refusedPublication : List (CoverageEvent NormalizedEcbViolation) :=
  [createBinned, .applyEffectiveBinSet 0 [], .publish ⟨0, 0, fun _ => true, fun _ => none⟩ 0]

theorem coverageRows_refused_publication :
    ∃ s, run (nextCoverage smallConfig plainService) .initial refusedPublication = some s ∧
      ∀ before t, before <+: refusedPublication →
        run (nextCoverage smallConfig plainService) .initial before = some t → RowsHold t.db := by
  refine ⟨_, rfl, (coverageRows_iff refusedPublication _ rfl).mpr ?_⟩
  refine ⟨trivial, fun t ht => ⟨trivial, fun t' ht' => ⟨?_, fun _ _ => trivial⟩⟩⟩
  intro hcommits
  cases ht
  cases ht'
  obtain ⟨run, hlock, -⟩ := hcommits.run
  cases hlock

/-- One execution gets to its publication, and then the property of its snapshot loses its BINs. -/
def lostBins : List (CoverageEvent NormalizedEcbViolation) :=
  createBinned :: .execute 0 .manual ::
    (List.replicate 19 (.executor 0 (quietAnswer 0 7 [sampleViolation])) ++
      [.applyEffectiveBinSet 0 [], .executor 0 (quietAnswer 0 7 [])])

/-- The publication replaces the reason NO_VALID_BIN of a property that has no BIN. -/
theorem publication_replaces_no_valid_bin :
    ¬ ∀ (evs : List (CoverageEvent NormalizedEcbViolation)) (s : CoverageState _),
      run (nextCoverage smallConfig plainService) .initial evs = some s → RowsHold s.db := by
  intro hall
  have hs : ((run (nextCoverage smallConfig plainService) .initial lostBins).bind fun s =>
      (s.db.coverage 0).map fun c => (c.statusReason, decide (s.db.propertyBins 0 = .empty),
        (s.db.properties.find 0).isSome)) =
      some (some .identifiersChangedAfterSnapshot, true, true) := by decide +kernel
  obtain ⟨s, hrun, hs⟩ := Option.bind_eq_some_iff.mp hs
  obtain ⟨c, hc, hs⟩ := Option.map_eq_some_iff.mp hs
  simp only [Prod.mk.injEq, decide_eq_true_eq] at hs
  obtain ⟨hreason, hempty, hproperty⟩ := hs
  obtain ⟨c', hc', hholds⟩ := hall lostBins s hrun 0 (Option.isSome_iff_ne_none.mp hproperty)
  rw [hc] at hc'
  cases hc'
  have hno := hholds.noValidBin.mpr hempty
  rw [hreason] at hno
  cases hno

end CoverageRows

end NycPropertyResolver
