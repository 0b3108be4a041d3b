import NycPropertyResolver.Ingestion.LiveState
import NycPropertyResolver.Ingestion.SuccessfulCoverage

/-!
# Ingestion — accepted publication

`accepted-publication.service.ts`: one transaction that promotes the staging rows of a run, publishes
the coverage of its snapshot and moves the run to COMPLETED.  A publication meets its surroundings
in a `PublicationAnswer`: what each of its authority checks observes, and whether the database fails
one of its statements.
-/

namespace NycPropertyResolver

open Library

variable {Row : Type}

/-! ### Transactions -/

/-- What a publication meets: the clock of the process and of the database, what its authority
checks observe, by position, and the statements the database fails, by position. -/
structure PublicationAnswer where
  now : Time
  currentTimestamp : Time
  authorized : Nat → Bool
  statementError : Nat → Option String

/-- A statement the database may fail. -/
def runStatement (error : Option String) : Except ServiceError Unit :=
  match error with
  | none => .ok ()
  | some message => .error (.error message)

/-- `prisma.$transaction`: what the work leaves is committed when it returns, and rolled back when it
throws. -/
def transaction {α : Type} (db : Db Row) (work : Except ServiceError (Db Row × α)) :
    Db Row × Except ServiceError α :=
  match work with
  | .ok (db', a) => (db', .ok a)
  | .error e => (db, .error e)

theorem runStatement_bind_ok {β : Type} {error : Option String}
    {f : Unit → Except ServiceError β} {r : β} :
    (runStatement error >>= f) = .ok r ↔ error = none ∧ f () = .ok r := by
  cases error <;> simp [runStatement, bind, Except.bind]

/-- A transaction that throws leaves the database as it was. -/
theorem transaction_error {α : Type} {db db' : Db Row} {work : Except ServiceError (Db Row × α)}
    {e : ServiceError} (h : transaction db work = (db', .error e)) : db' = db := by
  cases work with
  | ok r => cases h
  | error e' => cases h; rfl

theorem transaction_ok {α : Type} {db db' : Db Row} {work : Except ServiceError (Db Row × α)}
    {a : α} (h : transaction db work = (db', .ok a)) : work = .ok (db', a) := by
  cases work with
  | ok r => cases h; rfl
  | error e' => cases h

/-! ### Publication -/

/-- `AcceptedPublicationOutcome`: whether this call published the run. -/
inductive AcceptedPublicationOutcome where
  | completed
  | alreadyCompleted
  deriving DecidableEq, Repr

namespace Db

/-- `lockAndValidateRun`. -/
def lockAndValidateAcceptedRun (db : Db Row) (runId : RunId) :
    Except ServiceError IngestionRun := do
  let run ← require (db.runs.find runId) s!"Accepted run publication: run {runId} does not exist"
  ensure (run.dataset = .dobEcbViolations)
    s!"Accepted run publication: run {runId} is not an ECB ingestion run"
  if run.status = .completed then
    .ok run
  else do
    ensure (run.status = .running)
      s!"Accepted run publication: run {runId} is not ready for publication (status={run.status.text})"
    ensure (run.initializationComplete = true)
      s!"Accepted run publication: run {runId} initialization is incomplete"
    ensure (run.startedAt ≠ none)
      s!"Accepted run publication: run {runId} is missing started_at"
    ensure (run.sourceWatermarkAtStart ≠ none ∧ run.sourceWatermarkAtEnd ≠ none)
      s!"Accepted run publication: run {runId} is missing a start or end source watermark"
    ensure (run.sourceWatermarkAtStart = run.sourceWatermarkAtEnd)
      s!"Accepted run publication: run {runId} failed the source watermark guard"
    ensure (run.expectedPropertyBinCount ≠ none ∧ run.expectedBinCount ≠ none ∧
        run.expectedBatchCount ≠ none)
      s!"Accepted run publication: run {runId} is missing persisted initialization counts"
    ensure (run.expectedPropertyBinCount = some (db.snapshot runId).length)
      s!"Accepted run publication: run {runId} property/BIN snapshot count is incomplete"
    ensure (run.expectedBinCount = some (distinctBins (db.snapshot runId)).size)
      s!"Accepted run publication: run {runId} distinct BIN snapshot count is incomplete"
    ensure (run.expectedBatchCount = some (db.batches runId).length)
      s!"Accepted run publication: run {runId} batch count is incomplete"
    ensure (((db.batches runId).all fun batch =>
        batch.status = .completed && batch.completedAt.isSome && batch.lastError.isNone) = true)
      s!"Accepted run publication: run {runId} has incomplete or unsuccessful batch processing"
    ensure (db.CoversSnapshot runId)
      s!"Accepted run publication: run {runId} completed batches do not exactly cover its BIN snapshot"
    .ok run

/-- The row of a run that has been accepted. -/
def acceptedRun (acceptedAt : Time) (run : IngestionRun) : IngestionRun :=
  { run with
    status := .completed
    finishedAt := some acceptedAt
    failureStage := none
    lastError := none }

/-- `updateMany({ where: { id, status: RUNNING }, data: { status: COMPLETED, … } })` and the check of
its count. -/
def completeRun (db : Db Row) (runId : RunId) (acceptedAt : Time) :
    Except ServiceError (Db Row) := do
  ensure ((db.runs.find runId).map (·.status) = some .running)
    s!"Accepted run publication: run {runId} could not transition atomically to COMPLETED"
  .ok { db with runs := db.runs.modify runId (acceptedRun acceptedAt) }

/-- The transaction of `publish`. -/
def acceptedTransaction (db : Db Row) (answer : PublicationAnswer) (runId : RunId) :
    Except ServiceError (Db Row × AcceptedPublicationOutcome) := do
  runStatement (answer.statementError 0)
  let run ← db.lockAndValidateAcceptedRun runId
  if run.status = .completed then
    .ok (db, .alreadyCompleted)
  else do
    assertAuthorized (answer.authorized 1) "begin accepted-state publication"
    runStatement (answer.statementError 1)
    let db := db.promoteEcbLiveState runId answer.currentTimestamp
    assertAuthorized (answer.authorized 2) "publish successful property coverage"
    runStatement (answer.statementError 2)
    let db ← db.publishSuccessfulCoverage runId answer.now
    assertAuthorized (answer.authorized 3) "mark the accepted ingestion run completed"
    runStatement (answer.statementError 3)
    let db ← db.completeRun runId answer.now
    runStatement (answer.statementError 4)
    .ok (db, .completed)

/-- `AcceptedPublicationService.publish`. -/
def publish (db : Db Row) (answer : PublicationAnswer) (runId : RunId) :
    Db Row × Except ServiceError AcceptedPublicationOutcome :=
  match assertAuthorized (answer.authorized 0) "publish an accepted ingestion run" with
  | .error e => (db, .error e)
  | .ok () => transaction db (db.acceptedTransaction answer runId)

/-! ### What publication establishes -/

variable {db db' : Db Row} {runId : RunId} {run : IngestionRun} {answer : PublicationAnswer}

/-- A run that passes validation is COMPLETED already, or can be published, each of its batches
completed at an instant and without an error. -/
theorem lockAndValidateAcceptedRun_eq_ok (h : db.lockAndValidateAcceptedRun runId = .ok run) :
    db.runs.find runId = some run ∧ (run.status = .completed ∨
      run.status ≠ .completed ∧ db.Publishable runId run ∧
        run.expectedPropertyBinCount = some (db.snapshot runId).length ∧
        run.expectedBinCount = some (distinctBins (db.snapshot runId)).size ∧
        run.expectedBatchCount = some (db.batches runId).length ∧
        ∀ b ∈ db.batches runId, b.completedAt ≠ none ∧ b.lastError = none) := by
  simp only [lockAndValidateAcceptedRun, require_bind_ok, ensure_bind_ok] at h
  obtain ⟨run', hr, -, h⟩ := h
  split at h
  · cases h
    exact ⟨hr, Or.inl ‹_›⟩
  · simp only [ensure_bind_ok, Except.ok.injEq] at h
    obtain ⟨hs, hi, hst, hw, hg, -, hp, hd, hn, hb, hc, rfl⟩ := h
    have hb' := fun b hb' => List.all_eq_true.mp hb b hb'
    simp only [Bool.and_eq_true, decide_eq_true_eq, Option.isSome_iff_ne_none,
      Option.isNone_iff_eq_none] at hb'
    exact ⟨hr, Or.inr ⟨‹_›, ⟨hr, hs, hi, hst, hw.1, hg, fun b hm => (hb' b hm).1.1, hc⟩,
      hp, hd, hn, fun b hm => ⟨(hb' b hm).1.2, (hb' b hm).2⟩⟩⟩

theorem completeRun_eq_ok {t : Time} (h : db.completeRun runId t = .ok db') :
    (db.runs.find runId).map (·.status) = some .running ∧
      db' = { db with runs := db.runs.modify runId (acceptedRun t) } := by
  obtain ⟨hs, h⟩ := ensure_bind_ok.mp h
  cases h
  exact ⟨hs, rfl⟩

/-- **What an accepted publication does.**  It finds the run COMPLETED and changes nothing, or it
promotes the staging rows, publishes the coverage and completes the run, all three. -/
theorem acceptedTransaction_eq_ok {outcome : AcceptedPublicationOutcome}
    (h : db.acceptedTransaction answer runId = .ok (db', outcome)) :
    (outcome = .alreadyCompleted ∧ db' = db ∧
        (db.runs.find runId).map (·.status) = some .completed) ∨
      ∃ run db₂, outcome = .completed ∧ db.Publishable runId run ∧
        (∀ b ∈ db.batches runId, b.completedAt ≠ none ∧ b.lastError = none) ∧
        (db.promoteEcbLiveState runId answer.currentTimestamp).publishSuccessfulCoverage runId
          answer.now = .ok db₂ ∧
        db' = { db₂ with runs := db₂.runs.modify runId (acceptedRun answer.now) } := by
  obtain ⟨-, h⟩ := runStatement_bind_ok.mp h
  obtain ⟨run, hv, h⟩ := except_bind_ok.mp h
  obtain ⟨hr, hv⟩ := lockAndValidateAcceptedRun_eq_ok hv
  split at h
  · rename_i hs
    cases h
    exact Or.inl ⟨rfl, rfl, by rw [hr, Option.map_some, hs]⟩
  · rename_i hs
    simp only [assertAuthorized_bind_ok, runStatement_bind_ok] at h
    obtain ⟨-, -, -, -, h⟩ := h
    obtain ⟨db₂, hp, h⟩ := except_bind_ok.mp h
    simp only [assertAuthorized_bind_ok, runStatement_bind_ok] at h
    obtain ⟨-, -, h⟩ := h
    obtain ⟨db₃, hc, h⟩ := except_bind_ok.mp h
    obtain ⟨-, h⟩ := runStatement_bind_ok.mp h
    cases h
    obtain ⟨-, rfl⟩ := completeRun_eq_ok hc
    rcases hv with hv | ⟨-, hv, -, -, -, hb⟩
    · exact absurd hv hs
    · exact Or.inr ⟨run, db₂, rfl, hv, hb, hp, rfl⟩

/-- Beside the run's own row, only the live rows and the coverage are written. -/
theorem acceptedTransaction_frame {outcome : AcceptedPublicationOutcome}
    (h : db.acceptedTransaction answer runId = .ok (db', outcome)) :
    db' = db ∨ ∃ run live coverage, db.Publishable runId run ∧
      (∀ b ∈ db.batches runId, b.completedAt ≠ none ∧ b.lastError = none) ∧
      db' = { db with
        live := live
        coverage := coverage
        runs := db.runs.modify runId (acceptedRun answer.now) } := by
  rcases acceptedTransaction_eq_ok h with ⟨-, rfl, -⟩ | ⟨run, db₂, -, hv, hb, hp, rfl⟩
  · exact Or.inl rfl
  · obtain ⟨coverage, rfl⟩ := publishSuccessfulCoverage_frame hp
    exact Or.inr ⟨run, _, coverage, hv, hb, rfl⟩

/-- A publication that throws, or observes a lost lock session, leaves the database as it was. -/
theorem publish_error {e : ServiceError} (h : db.publish answer runId = (db', .error e)) :
    db' = db := by
  rw [publish] at h
  split at h
  · cases h; rfl
  · exact transaction_error h

theorem publish_ok {outcome : AcceptedPublicationOutcome}
    (h : db.publish answer runId = (db', .ok outcome)) :
    db.acceptedTransaction answer runId = .ok (db', outcome) := by
  rw [publish] at h
  split at h
  · cases h
  · exact transaction_ok h

end Db

end NycPropertyResolver
