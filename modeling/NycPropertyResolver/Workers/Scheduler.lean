import NycPropertyResolver.Config.Env
import NycPropertyResolver.Library.Steps

/-!
# Workers — the scheduler

`workers/scheduler.ts`: the scheduler of the ingestion executions of one process, as the event loop
drives it.  The calls of `ingestionService.execute` are kept in the order they were made, each with what
it settled with; `currentExecution` is the field of the scheduler, the index of a call.  At most one
call is in progress, because `runOnce` reads the field and nothing but the end of that call clears it
(`IngestionScheduler.Sound`).
-/

namespace NycPropertyResolver

/-! ### Results -/

/-- `IngestionRunSummary`. -/
structure IngestionRunSummary where
  runId : RunId
  status : IngestionRunStatus
  binsScanned : Nat
  socrataDataCalls : Nat
  socrataMetadataCalls : Nat
  socrataRetryCalls : Nat
  socrataTotalCalls : Nat
  rowsFetched : Nat
  rowsWritten : Nat
  failures : Nat
  deriving DecidableEq, Repr

/-- The columns of a run that its summaries read. -/
structure RunCounters where
  id : RunId
  status : IngestionRunStatus
  expectedBinCount : Option Nat
  binsScanned : Nat
  dataPageCalls : Nat
  metadataCalls : Nat
  retryCalls : Nat
  totalSocrataCalls : Nat
  rowsFetched : Nat
  rowsWritten : Nat
  failures : Nat
  deriving DecidableEq, Repr

/-- The outcomes of `INGESTION_RUNNER_OUTCOMES` that come with a run. -/
inductive PublishedOutcome where
  | completed
  | terminalFailurePublished
  | sourceChangedPublished
  deriving DecidableEq, Repr

/-- `OperationalIngestionResult`. -/
inductive OperationalIngestionResult where
  | activeExecutor (activeRunId : Option RunId)
  | published (outcome : PublishedOutcome) (run : RunCounters)
      (operationalSummary : Option IngestionRunSummary)
  | executionAuthorityLost
  deriving DecidableEq, Repr

/-- `summarizeRun`: the counters of a run that was published. -/
def summarizeRun (run : RunCounters) : IngestionRunSummary where
  runId := run.id
  status := run.status
  binsScanned := run.binsScanned
  socrataDataCalls := run.dataPageCalls
  socrataMetadataCalls := run.metadataCalls
  socrataRetryCalls := run.retryCalls
  socrataTotalCalls := run.totalSocrataCalls
  rowsFetched := run.rowsFetched
  rowsWritten := run.rowsWritten
  failures := run.failures

/-- The fields `summarizeIngestionResult` logs. -/
inductive IngestionResultSummary where
  | activeExecutor (activeRunId : Option RunId) (durationMs : Int)
  | published (outcome : PublishedOutcome) (summary : IngestionRunSummary) (durationMs : Int)
  | executionAuthorityLost (durationMs : Int)
  deriving DecidableEq, Repr

/-- `summarizeIngestionResult`: the result of an execution, as it is logged. -/
def summarizeIngestionResult (result : OperationalIngestionResult) (durationMs : Int) :
    IngestionResultSummary :=
  match result with
  | .activeExecutor activeRunId => .activeExecutor activeRunId durationMs
  | .executionAuthorityLost => .executionAuthorityLost durationMs
  | .published outcome run operationalSummary =>
    .published outcome (operationalSummary.getD (summarizeRun run)) durationMs

/-! ### States -/

/-- What a call of `ingestionService.execute` settles with; `error` is a rejection. -/
abbrev ExecutionAnswer := Except String OperationalIngestionResult

/-- The lines the scheduler and its worker log. -/
inductive OperationsLog where
  | schedulerStarted (ingestIntervalMs : Nat)
  | skipped
  | executionStarted
  | lostAuthority (summary : IngestionResultSummary)
  | terminalOutcome (summary : IngestionResultSummary)
  | completed (summary : IngestionResultSummary)
  | failed (durationMs : Int) (errorType : String)
  | schedulerStopped
  | shuttingDown (signal : String)
  | shutdownFailed (signal : String) (errorType : String)
  deriving DecidableEq, Repr

/-- A call of `ingestionService.execute`, and what it has settled with. -/
structure ScheduledExecution where
  startedAt : Int
  answer : Option ExecutionAnswer
  deriving DecidableEq, Repr

/-- `IngestionScheduler`, with the calls it has made and the lines it has logged.  `timer` says whether
the interval is set, and `currentExecution` is the index of a call. -/
structure IngestionScheduler where
  intervalMs : Nat
  runImmediately : Bool
  timer : Bool
  currentExecution : Option Nat
  executions : List ScheduledExecution
  log : List OperationsLog
  deriving DecidableEq, Repr

/-- `createIngestionScheduler`, the constructor. -/
def createIngestionScheduler (intervalMs : Nat) (runImmediately : Bool) :
    Except String IngestionScheduler :=
  if 0 < intervalMs ∧ intervalMs ≤ maxSafeInteger then
    .ok ⟨intervalMs, runImmediately, false, none, [], []⟩
  else
    .error "ingestion scheduler interval must be a positive integer"

namespace IngestionScheduler

/-! ### Operations -/

/-- `runOnce`, up to the call of `ingestionService.execute`. -/
def runOnce (s : IngestionScheduler) (now : Int) : IngestionScheduler :=
  match s.currentExecution with
  | some _ => { s with log := s.log ++ [.skipped] }
  | none =>
    { s with
      currentExecution := some s.executions.length
      executions := s.executions ++ [⟨now, none⟩]
      log := s.log ++ [.executionStarted] }

/-- `start`: a scheduler that has a timer is left alone. -/
def start (s : IngestionScheduler) (now : Int) : IngestionScheduler :=
  if s.timer then
    s
  else
    let started : IngestionScheduler :=
      { s with timer := true, log := s.log ++ [.schedulerStarted s.intervalMs] }
    if s.runImmediately then started.runOnce now else started

/-- `stop`, up to its `await`. -/
def stop (s : IngestionScheduler) : IngestionScheduler := { s with timer := false }

/-- The line `executeScheduledRun` logs at its end. -/
def endLine (answer : ExecutionAnswer) (durationMs : Int) : OperationsLog :=
  match answer with
  | .error errorType => .failed durationMs errorType
  | .ok result =>
    let summary := summarizeIngestionResult result durationMs
    match result with
    | .executionAuthorityLost => .lostAuthority summary
    | .published .terminalFailurePublished _ _ => .terminalOutcome summary
    | .published .sourceChangedPublished _ _ => .terminalOutcome summary
    | .published .completed _ _ => .completed summary
    | .activeExecutor _ => .completed summary

/-- `executeScheduledRun`, from the moment its call settles. -/
def settle (s : IngestionScheduler) (x : Nat) (answer : ExecutionAnswer) (now : Int) :
    Option IngestionScheduler :=
  match s.executions[x]? with
  | some ⟨startedAt, none⟩ =>
    some { s with
      executions := s.executions.set x ⟨startedAt, some answer⟩
      log := s.log ++ [endLine answer (now - startedAt)] }
  | _ => none

/-- The `finally` clause of `runOnce`. -/
def finish (s : IngestionScheduler) (x : Nat) : IngestionScheduler :=
  { s with currentExecution := if s.currentExecution = some x then none else s.currentExecution }

/-- A call is in progress. -/
def InProgress (s : IngestionScheduler) (x : Nat) : Prop :=
  ∃ startedAt, s.executions[x]? = some ⟨startedAt, none⟩

/-- A call has settled with the loss of its authority. -/
def LostAuthority (s : IngestionScheduler) : Prop :=
  ∃ (x : Nat) (startedAt : Int), s.executions[x]? = some ⟨startedAt, some (.ok .executionAuthorityLost)⟩

/-- **The current execution is the one in progress.** -/
def Sound (s : IngestionScheduler) : Prop := ∀ x, s.InProgress x ↔ s.currentExecution = some x

/-! ### What the operations keep -/

section Operations

variable {s s' : IngestionScheduler} {x : Nat} {now : Int} {answer : ExecutionAnswer}

theorem sound_created {intervalMs : Nat} {runImmediately : Bool}
    (h : createIngestionScheduler intervalMs runImmediately = .ok s) : s.Sound := by
  unfold createIngestionScheduler at h
  split at h
  · cases h
    intro x
    simp [InProgress]
  · cases h

/-- With a call in progress `runOnce` makes none. -/
theorem runOnce_of_current (h : s.currentExecution = some x) :
    s.runOnce now = { s with log := s.log ++ [.skipped] } := by
  simp only [runOnce, h]

theorem runOnce_of_none (h : s.currentExecution = none) : s.runOnce now = { s with
      currentExecution := some s.executions.length
      executions := s.executions ++ [⟨now, none⟩]
      log := s.log ++ [.executionStarted] } := by
  simp only [runOnce, h]

theorem Sound.runOnce (h : s.Sound) : (s.runOnce now).Sound := by
  cases hc : s.currentExecution with
  | some x =>
      rw [runOnce_of_current hc]
      intro y
      exact h y
  | none =>
      rw [runOnce_of_none hc]
      intro y
      -- no call was in progress, and the new one is the last
      have hnone : ¬ s.InProgress y := by
        rw [h y, hc]
        exact nofun
      simp only [InProgress, Option.some.injEq] at hnone ⊢
      rcases Nat.lt_trichotomy y s.executions.length with hlt | rfl | hlt
      · rw [List.getElem?_append_left hlt]
        exact ⟨fun hp => absurd hp hnone, fun e => absurd e (Nat.ne_of_gt hlt)⟩
      · simp
      · have hout : (s.executions ++ [⟨now, none⟩])[y]? = none := by
          rw [List.getElem?_eq_none_iff, List.length_append]
          exact hlt
        rw [hout]
        exact ⟨fun ⟨_, hp⟩ => (nomatch hp), fun e => absurd e (Nat.ne_of_lt hlt)⟩

theorem Sound.start (h : s.Sound) : (s.start now).Sound := by
  unfold IngestionScheduler.start
  split
  · exact h
  · have hstarted : IngestionScheduler.Sound
        { s with timer := true, log := s.log ++ [.schedulerStarted s.intervalMs] } := h
    simp only
    split
    · exact hstarted.runOnce
    · exact hstarted

theorem Sound.stop (h : s.Sound) : s.stop.Sound := h

theorem settle_eq_some (h : s.settle x answer now = some s') :
    ∃ startedAt, s.executions[x]? = some ⟨startedAt, none⟩ ∧ s' = { s with
      executions := s.executions.set x ⟨startedAt, some answer⟩
      log := s.log ++ [endLine answer (now - startedAt)] } := by
  unfold settle at h
  split at h
  · rename_i startedAt hx
    cases h
    exact ⟨startedAt, hx, rfl⟩
  · cases h

/-- **The end of a call clears the field**, so that the next tick makes a call again. -/
theorem Sound.settle_finish (h : s.Sound) (hs : s.settle x answer now = some s') :
    (s'.finish x).Sound ∧ (s'.finish x).currentExecution = none := by
  obtain ⟨startedAt, hx, rfl⟩ := settle_eq_some hs
  have hc : s.currentExecution = some x := (h x).mp ⟨startedAt, hx⟩
  have hnone : (IngestionScheduler.finish { s with
      executions := s.executions.set x ⟨startedAt, some answer⟩
      log := s.log ++ [endLine answer (now - startedAt)] } x).currentExecution = none :=
    if_pos hc
  refine ⟨fun y => ?_, hnone⟩
  rw [hnone]
  refine ⟨?_, nofun⟩
  rintro ⟨startedAt', hy⟩
  simp only [finish, List.getElem?_set] at hy
  split at hy
  · split at hy
    · cases hy
    · cases hy
  · rename_i hne
    have hy' := (h y).mp ⟨startedAt', hy⟩
    rw [hc] at hy'
    exact absurd (Option.some.inj hy') hne

theorem lostAuthority_settle (hs : s.settle x answer now = some s') :
    s'.LostAuthority ↔ answer = .ok .executionAuthorityLost ∨ s.LostAuthority := by
  obtain ⟨startedAt, hx, rfl⟩ := settle_eq_some hs
  have hlt : x < s.executions.length := (List.getElem?_eq_some_iff.mp hx).1
  constructor
  · rintro ⟨y, t, hy⟩
    simp only [List.getElem?_set] at hy
    split at hy
    · left
      simp only [Option.some.injEq, ScheduledExecution.mk.injEq] at hy
      exact hy.2
    · exact .inr ⟨y, t, hy⟩
  · rintro (rfl | ⟨y, t, hy⟩)
    · exact ⟨x, startedAt, by simp [hlt]⟩
    · refine ⟨y, t, ?_⟩
      have hne : x ≠ y := by
        rintro rfl
        rw [hx] at hy
        cases hy
      simp only [List.getElem?_set_ne hne, hy]

/-- A call that is made has not settled. -/
theorem lostAuthority_runOnce : (s.runOnce now).LostAuthority ↔ s.LostAuthority := by
  cases hc : s.currentExecution with
  | some x =>
      rw [runOnce_of_current hc]
      exact Iff.rfl
  | none =>
      rw [runOnce_of_none hc]
      constructor
      · rintro ⟨y, t, hy⟩
        rcases List.mem_append.mp (List.mem_of_getElem? hy) with hmem | hmem
        · obtain ⟨z, hz⟩ := List.mem_iff_getElem?.mp hmem
          exact ⟨z, t, hz⟩
        · cases List.mem_singleton.mp hmem
      · rintro ⟨y, t, hy⟩
        refine ⟨y, t, ?_⟩
        have hlt : y < s.executions.length := (List.getElem?_eq_some_iff.mp hy).1
        rw [List.getElem?_append_left hlt, hy]

/-- A call in progress can settle, with anything. -/
theorem InProgress.settle (h : s.InProgress x) (answer : ExecutionAnswer) (now : Int) :
    ∃ s', s.settle x answer now = some s' := by
  obtain ⟨startedAt, hx⟩ := h
  exact ⟨_, by rw [IngestionScheduler.settle, hx]⟩

end Operations

end IngestionScheduler

end NycPropertyResolver
