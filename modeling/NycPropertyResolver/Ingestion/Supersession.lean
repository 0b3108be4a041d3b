import NycPropertyResolver.Ingestion.EndToEnd

/-!
# Ingestion — superseded executions

Any number of executions over one database.  One of them at a time holds the advisory lock, and an
authority check passes only then; but a statement whose check has passed may land at any later time,
when the session is lost and another execution is at work.  Three things an execution does in one
turn elsewhere are two here: the checks of a step and the step, the read of `findById` and the write
that goes by it, and the validation of an accepted publication, which locks the row of the run, and
its other statements.

What such an execution can spoil is a run that is handed over: one whose batches have been seen
COMPLETED at the end of the loop, with an end watermark that is equal to the start watermark or may
yet turn out to be (`HandedOver`).  A batch that is set to RUNNING or FAILED then is fetched again,
from a source that may have moved on, under an end watermark that is stored already.
-/

namespace NycPropertyResolver

open Library

variable {Row : Type}

/-! ### The statements of a publication -/

namespace Db

/-- `publish`, behind `lockAndValidateRun`. -/
def publishLocked (db : Db Row) (answer : PublicationAnswer) (runId : RunId) :
    Except ServiceError (Db Row) := do
  assertAuthorized (answer.authorized 1) "begin accepted-state publication"
  runStatement (answer.statementError 1)
  let db := db.promoteEcbLiveState runId answer.currentTimestamp
  assertAuthorized (answer.authorized 2) "publish successful property coverage"
  runStatement (answer.statementError 2)
  let db ← db.publishSuccessfulCoverage runId answer.now
  assertAuthorized (answer.authorized 3) "mark the accepted ingestion run completed"
  runStatement (answer.statementError 3)
  let db ← db.completeRun runId answer.now
  runStatement (answer.statementError 4)
  .ok db

/-- The two halves of a publication, at one instant. -/
theorem acceptedTransaction_eq {db : Db Row} {answer : PublicationAnswer} {runId : RunId}
    {run : IngestionRun} (herror : answer.statementError 0 = none)
    (hvalid : db.lockAndValidateAcceptedRun runId = .ok run) (hs : run.status ≠ .completed) :
    db.acceptedTransaction answer runId =
      (db.publishLocked answer runId).map fun db' => (db', .completed) := by
  simp only [acceptedTransaction, publishLocked, herror, runStatement, hvalid, bind, Except.bind,
    if_neg hs]
  repeat' split
  all_goals rfl

end Db

namespace Supersession

/-! ### States -/

/-- An execution, and how far its step under way has come. -/
structure Execution (Row : Type) where
  state : ExecutorState Row
  /-- The authority checks of the step under way have passed. -/
  passed : Bool
  /-- The batch that `findById` has returned to `executeBatchAttempt`. -/
  existing : Option IngestionBatch

/-- The tables, the executions, who has the locks, and the instant of the source. -/
structure State (Row : Type) where
  db : Db Row
  executions : Nat → Execution Row
  /-- The execution whose session holds the advisory lock. -/
  holder : Option Nat
  /-- The execution whose publication has locked the row of a run. -/
  rowLock : RunId → Option Nat
  instant : Nat

/-- An empty database, and no execution. -/
def State.initial : State Row where
  db := .empty
  executions _ := ⟨.stopped .notStarted, false, none⟩
  holder := none
  rowLock _ := none
  instant := 0

/-- The checks of the next step of an execution pass. -/
def State.mayAct (s : State Row) (x : Nat) : Bool :=
  s.holder = some x || (s.executions x).passed

/-- An execution without authority: every check fails. -/
def withoutAuthority (a : Answer Row) : Answer Row :=
  { a with
    authorized := fun _ => false
    publication := { a.publication with authorized := fun _ => false } }

/-- What a step of an execution meets. -/
def State.met (s : State Row) (x : Nat) (a : Answer Row) : Answer Row :=
  if s.mayAct x then a else withoutAuthority a

/-- The next statement of an execution waits for the publication of another. -/
def State.waits (s : State Row) (x : Nat) : Bool :=
  ((s.executions x).state.runRow?.bind s.rowLock).any fun y => y ≠ x

/-- An execution has taken a step. -/
def State.after (s : State Row) (x : Nat) (result : Db Row × ExecutorState Row) : State Row :=
  { s with
    db := result.1
    executions := Function.update s.executions x ⟨result.2, false, none⟩ }

/-! ### Steps -/

section Steps

variable (config : ExecutorConfig) (a : Answer Row) (db : Db Row)

/-- `executeBatchAttempt`, behind `findById`. -/
def attemptFound (runId : RunId) (batchNumber : Nat) (existing : IngestionBatch) :
    Db Row × ExecutorState Row :=
  if existing.status = .completed then
    (db, .selectingBatch runId)
  else
    match a.statementError with
    | some message => (db, .stopped (.threw message))
    | none =>
      if config.maxBatchAttemptsPerRun ≤ existing.attemptCount then
        let lastError :=
          s!"Batch attempt budget exhausted after {existing.attemptCount} logical attempts"
        match db.markFailed runId batchNumber lastError with
        | .ok db' => (db', .terminalOutcome runId (some lastError))
        | .error e => (db, stoppedBy e)
      else
        (db.incrementAttemptCount runId batchNumber, .attemptCounted runId batchNumber)

/-- Read and written at one instant. -/
theorem executeBatchAttempt_eq {runId : RunId} {batchNumber : Nat} {existing : IngestionBatch}
    (hauth : a.authorized 0 = true) (hfind : db.findBatch runId batchNumber = some existing) :
    executeBatchAttempt config a db runId batchNumber =
      attemptFound config a db runId batchNumber existing := by
  simp only [executeBatchAttempt, hauth, hfind, if_true]
  rfl

/-- `publishAccepted` up to the end of `lockAndValidateRun`: the state of an execution that is over
with its publication, or `none` where the row of the run is locked. -/
def lockRun (runId : RunId) : Option (ExecutorState Row) :=
  if a.authorized 0 then
    match assertAuthorized (a.publication.authorized 0) "publish an accepted ingestion run" with
    | .error e => some (stoppedBy e)
    | .ok () =>
      match runStatement (a.publication.statementError 0) with
      | .error e => some (stoppedBy e)
      | .ok () =>
        match db.lockAndValidateAcceptedRun runId with
        | .error e => some (stoppedBy e)
        | .ok run => if run.status = .completed then some (.stopped .completed) else none
  else
    some (.stopped .executionAuthorityLost)

/-- `publishAccepted`, behind `lockAndValidateRun`. -/
def commitRun (runId : RunId) : Db Row × ExecutorState Row :=
  match db.publishLocked a.publication runId with
  | .ok db' => (db', .stopped .completed)
  | .error e => (db, stoppedBy e)

end Steps

/-- A step of the source, of an execution, of its session, or of another process. -/
inductive Event (Row : Type) where
  /-- The source moves on. -/
  | sourceChanges
  | acquireLock (x : Nat) (triggerType : IngestionTriggerType)
  /-- The lock holder passes the checks of its next step, which may land later. -/
  | passChecks (x : Nat)
  /-- `findById`, in `executeBatchAttempt`. -/
  | findById (x : Nat)
  | step (x : Nat) (answer : Answer Row)
  /-- The session of the lock holder ends: the lock is released, or lost. -/
  | sessionEnds
  | crash (x : Nat)
  | createProperty (propertyId : PropertyId) (input : CreatePropertyInput) (now : Time)
  | applyEffectiveBinSet (propertyId : PropertyId) (candidateBins : List String)

section Next

variable (config : ExecutorConfig) (service : EcbRowService Row) (s : State Row)

/-- One step of an execution. -/
def stepNext (x : Nat) (a : Answer Row) : Option (State Row) :=
  match (s.executions x).state, (s.executions x).existing with
  | .executingBatch runId batchNumber, some existing =>
    some (s.after x (attemptFound config a s.db runId batchNumber existing))
  | .readyForPublication runId, _ =>
    if s.rowLock runId = some x then
      some { s.after x (commitRun a s.db runId) with
        rowLock := Function.update s.rowLock runId none }
    else
      match lockRun a s.db runId with
      | some pc => some (s.after x (s.db, pc))
      | none =>
        some { s.after x (s.db, .readyForPublication runId) with
          rowLock := Function.update s.rowLock runId (some x) }
  | pc, _ => (executorStep config service a s.db pc).map (s.after x)

/-- One event; `none` when it is not possible. -/
def next : Event Row → Option (State Row)
  | .sourceChanges => some { s with instant := s.instant + 1 }
  | .acquireLock x triggerType =>
    match s.holder, (s.executions x).state with
    | none, .stopped _ =>
      some { s.after x (s.db, .started triggerType) with holder := some x }
    | _, _ => none
  | .passChecks x =>
    if s.holder = some x then
      some { s with
        executions := Function.update s.executions x { s.executions x with passed := true } }
    else none
  | .findById x =>
    match (s.executions x).state with
    | .executingBatch runId batchNumber =>
      if s.mayAct x then
        (s.db.findBatch runId batchNumber).map fun existing =>
          { s with
            executions := Function.update s.executions x
              ⟨.executingBatch runId batchNumber, false, some existing⟩ }
      else none
    | _ => none
  | .step x answer => if s.waits x then none else stepNext config service s x (s.met x answer)
  | .sessionEnds => some { s with holder := none }
  | .crash x =>
    some { s.after x (s.db, .stopped .crashed) with
      holder := if s.holder = some x then none else s.holder
      rowLock := fun runId => if s.rowLock runId = some x then none else s.rowLock runId }
  | .createProperty propertyId input now =>
    match s.db.createProperty propertyId input now with
    | .ok db' => some { s with db := db' }
    | .error _ => none
  | .applyEffectiveBinSet propertyId candidateBins =>
    match s.db.applyEffectiveBinSet propertyId candidateBins with
    | .ok (db', _) => some { s with db := db' }
    | .error _ => none

end Next

/-- The source answers each request with what it holds at that instant. -/
def AnsweredBy (columns : SourceColumns Row) (service : EcbRowService Row)
    (source : Nat → SourceDataset Row) (s : State Row) : Event Row → Prop
  | .step x a => SourceAnswers columns service (source s.instant) (s.executions x).state a
  | _ => True

instance (columns : SourceColumns Row) (service : EcbRowService Row) [DecidableEq Row]
    (source : Nat → SourceDataset Row) (s : State Row) :
    (ev : Event Row) → Decidable (AnsweredBy columns service source s ev)
  | .step x a =>
    inferInstanceAs (Decidable
      (SourceAnswers columns service (source s.instant) (s.executions x).state a))
  | .sourceChanges | .sessionEnds => inferInstanceAs (Decidable True)
  | .acquireLock .. | .passChecks _ | .findById _ | .crash _ => inferInstanceAs (Decidable True)
  | .createProperty .. | .applyEffectiveBinSet .. => inferInstanceAs (Decidable True)

/-! ### The condition -/

/-- A run that is RUNNING. -/
def InProgress (db : Db Row) (r : RunId) : Prop :=
  ∃ run, db.runs.find r = some run ∧ run.status = .running

/-- An end watermark of a run that is equal to its start watermark is in hand, or stored. -/
inductive EndsAt (s : State Row) (r : RunId) (w : Time) : Prop where
  | fetched (x : Nat) (h : (s.executions x).state = .endWatermarkFetched r w w)
  | stored (run : IngestionRun) (h : s.db.runs.find r = some run)
      (hstart : run.sourceWatermarkAtStart = some w) (hend : run.sourceWatermarkAtEnd = some w)

/-- **A RUNNING run is handed over**: an execution that may act has seen its batches COMPLETED, or it
ends at its start watermark. -/
inductive HandedOver (s : State Row) (r : RunId) : Prop where
  | finalizing (hr : InProgress s.db r) (x : Nat) (h : (s.executions x).state = .finalizing r)
      (hact : s.mayAct x = true)
  | ending (hr : InProgress s.db r) (w : Time) (h : EndsAt s r w)

/-- The batch that a step sets to RUNNING (`updateProgress`, at the start of an attempt) or to FAILED
(`markFailed`). -/
def openedBatch? (config : ExecutorConfig) (a : Answer Row) (e : Execution Row) :
    Option (RunId × Nat) :=
  match a.statementError, e.state, e.existing with
  | none, .executingBatch runId batchNumber, some existing =>
    if existing.status ≠ .completed ∧ config.maxBatchAttemptsPerRun ≤ existing.attemptCount then
      some (runId, batchNumber)
    else none
  | none, .attemptCounted runId batchNumber, _ => some (runId, batchNumber)
  | none, .fetchingPage attempt, _ =>
    if (a.authorized 0 && a.authorized 1) = true ∧ a.page.toOption.isNone then
      some (attempt.runId, attempt.batchNumber)
    else none
  | none, .pageLimitReached attempt, _ => some (attempt.runId, attempt.batchNumber)
  | none, .attemptFailed attempt _, _ =>
    if a.authorized 0 then some (attempt.runId, attempt.batchNumber) else none
  | _, _, _ => none

/-- **No step sets a batch of a run that is handed over to RUNNING or FAILED.** -/
def SparesHandedOver (config : ExecutorConfig) (s : State Row) : Event Row → Prop
  | .step x a => ∀ p ∈ openedBatch? config (s.met x a) (s.executions x), ¬ HandedOver s p.1
  | _ => True

end Supersession

end NycPropertyResolver
