import NycPropertyResolver.Workers.Scheduler

/-!
# Workers — the worker process

`startIngestionWorker` of `workers/ingestion.worker.ts`: the scheduler with its graceful shutdown.  An
event is a turn of the event loop: the interval elapses, a signal arrives, the call of
`ingestionService.execute` settles, or `disconnect` does.  What follows a turn without a further wait
(the `finally` clause of `runOnce`, the continuation of `stop`) belongs to it.  The listeners of the
signals are registered with `process.once`, so the second arrival of a signal finds none and kills the
process, wherever its shutdown stands.
-/

namespace NycPropertyResolver

open Library

/-! ### States -/

/-- Where the one shutdown of a worker stands: `stop` waits for a call in progress, then `disconnect`
is called. -/
inductive ShutdownPhase where
  | notRequested
  | stopping (signal : String) (awaited : Nat)
  | disconnecting (signal : String)
  | finished
  deriving DecidableEq, Repr

/-- The signals the worker listens to. -/
inductive ProcessSignal where
  | sigterm
  | sigint
  deriving DecidableEq, Repr

/-- The name of a signal. -/
def ProcessSignal.name : ProcessSignal → String
  | .sigterm => "SIGTERM"
  | .sigint => "SIGINT"

/-- The worker process.  `disconnects` are the calls of `disconnect`, each with whether it succeeded
once it has settled, and `exitCode` is `process.exitCode`.  `handled` are the signals whose listener has
been called, which removes it, and `killedBy` is the signal that has ended the process. -/
structure IngestionWorker where
  scheduler : IngestionScheduler
  phase : ShutdownPhase
  shutdownExitCode : Nat
  disconnects : List (Option Bool)
  exitCode : Option Nat
  handled : List ProcessSignal
  killedBy : Option ProcessSignal
  deriving DecidableEq, Repr

/-- The turns of the event loop of a worker. -/
inductive WorkerEvent where
  | interval (now : Int)
  | signal (signal : ProcessSignal)
  | settled (x : Nat) (answer : ExecutionAnswer) (now : Int)
  | disconnected (error : Option String)
  deriving DecidableEq, Repr

namespace IngestionWorker

/-! ### Steps -/

/-- The worker with a line added to its log. -/
def logged (w : IngestionWorker) (line : OperationsLog) : IngestionWorker :=
  { w with scheduler := { w.scheduler with log := w.scheduler.log ++ [line] } }

/-- The end of `scheduler.stop`, and the call of `disconnect`. -/
def stopped (w : IngestionWorker) (signal : String) : IngestionWorker :=
  { w.logged .schedulerStopped with
    phase := .disconnecting signal
    disconnects := w.disconnects ++ [none] }

/-- The first request for a shutdown begins it: `scheduler.stop` waits for the call in progress. -/
def beginShutdown (w : IngestionWorker) (signal : String) : IngestionWorker :=
  match w.phase with
  | .notRequested =>
    let w := w.logged (.shuttingDown signal)
    let w := { w with scheduler := w.scheduler.stop }
    match w.scheduler.currentExecution with
    | some x => { w with phase := .stopping signal x }
    | none => w.stopped signal
  | _ => w

/-- `worker.shutdown`; a later loss of authority upgrades the exit code of a stop in progress. -/
def shutdown (w : IngestionWorker) (signal : String) (exitCode : Nat) : IngestionWorker :=
  beginShutdown (if exitCode ≠ 0 then { w with shutdownExitCode := exitCode } else w) signal

/-- `onExecutionAuthorityLost`. -/
def onExecutionAuthorityLost (w : IngestionWorker) : IngestionWorker :=
  w.shutdown "EXECUTION_AUTHORITY_LOST" 1

/-- `stop` goes on when the call it waits for ends. -/
def resumeStop (w : IngestionWorker) (x : Nat) : IngestionWorker :=
  match w.phase with
  | .stopping signal awaited => if awaited = x then w.stopped signal else w
  | _ => w

/-- The execution settles: the scheduler reports it, and whoever waits for it goes on. -/
def settled (w : IngestionWorker) (x : Nat) (answer : ExecutionAnswer) (now : Int) :
    Option IngestionWorker :=
  (w.scheduler.settle x answer now).map fun scheduler =>
    let w := { w with scheduler := scheduler }
    let w := if answer = .ok .executionAuthorityLost then w.onExecutionAuthorityLost else w
    resumeStop { w with scheduler := w.scheduler.finish x } x

/-- `disconnect` settles. -/
def disconnected (w : IngestionWorker) (error : Option String) : Option IngestionWorker :=
  match w.phase with
  | .disconnecting signal =>
    match error with
    | none => some { w with
        phase := .finished
        disconnects := w.disconnects.dropLast ++ [some true]
        exitCode := some w.shutdownExitCode }
    | some errorType => some { w.logged (.shutdownFailed signal errorType) with
        phase := .finished
        disconnects := w.disconnects.dropLast ++ [some false]
        exitCode := some 1 }
  | _ => none

/-- `startIngestionWorker`. -/
def startIngestionWorker (ingestIntervalMs : Nat) (now : Int) : Except String IngestionWorker :=
  (createIngestionScheduler ingestIntervalMs true).map fun scheduler =>
    ⟨scheduler.start now, .notRequested, 0, [], none, [], none⟩

/-- A signal arrives: its listener is removed and called (`process.once`), or, when that has happened
before, the process is killed, without a wait for the execution and without a disconnect. -/
def signalled (w : IngestionWorker) (signal : ProcessSignal) : IngestionWorker :=
  if signal ∈ w.handled then { w with killedBy := some signal }
  else shutdown { w with handled := signal :: w.handled } signal.name 0

/-- A turn of the event loop of a process that is alive; `none` when it cannot happen. -/
def turn (w : IngestionWorker) : WorkerEvent → Option IngestionWorker
  | .interval now =>
    if w.scheduler.timer then some { w with scheduler := w.scheduler.runOnce now } else none
  | .signal signal => some (w.signalled signal)
  | .settled x answer now => w.settled x answer now
  | .disconnected error => w.disconnected error

/-- A turn of the event loop.  A process that has been killed takes none. -/
def next (w : IngestionWorker) (ev : WorkerEvent) : Option IngestionWorker :=
  match w.killedBy with
  | some _ => none
  | none => w.turn ev

/-! ### What holds of a worker -/

/-- **What holds at each phase of the shutdown.** -/
def PhaseHolds (w : IngestionWorker) : Prop :=
  match w.phase with
  | .notRequested => w.scheduler.timer = true ∧ w.disconnects = [] ∧ w.exitCode = none
  | .stopping _ x => w.scheduler.timer = false ∧ w.scheduler.currentExecution = some x ∧
      w.disconnects = [] ∧ w.exitCode = none
  | .disconnecting _ => w.scheduler.timer = false ∧ w.scheduler.currentExecution = none ∧
      w.disconnects = [none] ∧ w.exitCode = none
  | .finished => w.scheduler.timer = false ∧ w.scheduler.currentExecution = none ∧
      ∃ ok, w.disconnects = [some ok] ∧
        w.exitCode = some (if ok then w.shutdownExitCode else 1)

/-- **The exit code**: it is 1 once an execution has lost its authority, and the shutdown has then
begun. -/
structure CodeHolds (w : IngestionWorker) : Prop where
  lost : w.scheduler.LostAuthority → w.shutdownExitCode = 1 ∧ w.phase ≠ .notRequested
  kept : ¬ w.scheduler.LostAuthority → w.shutdownExitCode = 0

/-- Before a shutdown no signal has arrived. -/
def SignalsHold (w : IngestionWorker) : Prop :=
  w.phase = .notRequested → w.handled = [] ∧ w.killedBy = none

/-- **The invariant of a worker.** -/
structure Invariant (w : IngestionWorker) : Prop where
  sound : w.scheduler.Sound
  phase : w.PhaseHolds
  code : w.CodeHolds
  signals : w.SignalsHold

section Steps

variable {w w' : IngestionWorker} {signal : String} {x : Nat} {answer : ExecutionAnswer} {now : Int}

/-- **A request leaves the shutdown begun**, whatever its phase was. -/
theorem beginShutdown_holds (signal : String) (h : w.PhaseHolds) :
    (w.beginShutdown signal).PhaseHolds ∧ (w.beginShutdown signal).phase ≠ .notRequested := by
  unfold beginShutdown
  split
  · rename_i hp
    rw [PhaseHolds, hp] at h
    obtain ⟨-, hd, he⟩ := h
    simp only
    split
    · rename_i hc
      exact ⟨⟨rfl, hc, hd, he⟩, nofun⟩
    · rename_i hc
      have hd' : w.disconnects ++ [none] = [none] := by rw [hd, List.nil_append]
      exact ⟨⟨rfl, hc, hd', he⟩, nofun⟩
  · rename_i hp
    exact ⟨h, hp⟩

@[simp] theorem beginShutdown_executions :
    (w.beginShutdown signal).scheduler.executions = w.scheduler.executions := by
  unfold beginShutdown
  split
  · simp only
    split
    · rfl
    · rfl
  · rfl

@[simp] theorem beginShutdown_currentExecution :
    (w.beginShutdown signal).scheduler.currentExecution = w.scheduler.currentExecution := by
  unfold beginShutdown
  split
  · simp only
    split
    · rfl
    · rfl
  · rfl

@[simp] theorem beginShutdown_shutdownExitCode :
    (w.beginShutdown signal).shutdownExitCode = w.shutdownExitCode := by
  unfold beginShutdown
  split
  · simp only
    split
    · rfl
    · rfl
  · rfl

@[simp] theorem beginShutdown_handled : (w.beginShutdown signal).handled = w.handled := by
  unfold beginShutdown
  split
  · simp only
    split
    · rfl
    · rfl
  · rfl

@[simp] theorem beginShutdown_killedBy : (w.beginShutdown signal).killedBy = w.killedBy := by
  unfold beginShutdown
  split
  · simp only
    split
    · rfl
    · rfl
  · rfl

@[simp] theorem resumeStop_handled (w : IngestionWorker) (x : Nat) :
    (w.resumeStop x).handled = w.handled := by
  unfold resumeStop
  split
  · split
    · rfl
    · rfl
  · rfl

@[simp] theorem resumeStop_killedBy (w : IngestionWorker) (x : Nat) :
    (w.resumeStop x).killedBy = w.killedBy := by
  unfold resumeStop
  split
  · split
    · rfl
    · rfl
  · rfl

/-- While a call is in progress the worker runs, or waits for it. -/
theorem phase_of_current (h : w.PhaseHolds) (hc : w.scheduler.currentExecution = some x) :
    w.phase = .notRequested ∨ ∃ signal, w.phase = .stopping signal x := by
  unfold PhaseHolds at h
  split at h
  · exact .inl ‹_›
  · rename_i signal y hp
    rw [hc, Option.some.injEq] at h
    exact .inr ⟨signal, h.2.1 ▸ hp⟩
  · rw [hc] at h
    exact nomatch h.2.1
  · rw [hc] at h
    exact nomatch h.2.1

/-- The loss of authority is reported before its call ends. -/
theorem onExecutionAuthorityLost_holds (h : w.PhaseHolds)
    (hc : w.scheduler.currentExecution = some x) : w.onExecutionAuthorityLost.PhaseHolds ∧
      ∃ signal, w.onExecutionAuthorityLost.phase = .stopping signal x := by
  have hcode : ({ w with shutdownExitCode := 1 } : IngestionWorker).PhaseHolds := by
    rcases phase_of_current h hc with hp | ⟨signal, hp⟩
    · rw [PhaseHolds, hp] at h
      rw [PhaseHolds, hp]
      exact h
    · rw [PhaseHolds, hp] at h
      rw [PhaseHolds, hp]
      exact h
  obtain ⟨hholds, hbegun⟩ := beginShutdown_holds "EXECUTION_AUTHORITY_LOST" hcode
  have hcurrent : w.onExecutionAuthorityLost.scheduler.currentExecution = some x :=
    beginShutdown_currentExecution.trans hc
  exact ⟨hholds, (phase_of_current hholds hcurrent).resolve_left hbegun⟩

/-- The scheduler is as sound as its calls and its field. -/
theorem sound_congr {s s' : IngestionScheduler} (h : s.Sound) (he : s'.executions = s.executions)
    (hc : s'.currentExecution = s.currentExecution) : s'.Sound := by
  intro x
  rw [IngestionScheduler.InProgress, he, hc]
  exact h x

theorem lostAuthority_congr {s s' : IngestionScheduler} (he : s'.executions = s.executions) :
    s'.LostAuthority ↔ s.LostAuthority := by
  rw [IngestionScheduler.LostAuthority, he, IngestionScheduler.LostAuthority]

/-- **The end of the call in progress**: the worker goes on, or `disconnect` is called. -/
theorem invariant_resumeStop (hphase : w.PhaseHolds) (hcode : w.CodeHolds)
    (hsignals : w.SignalsHold) (hc : w.scheduler.currentExecution = some x)
    (hsound : (w.scheduler.finish x).Sound) :
    (resumeStop { w with scheduler := w.scheduler.finish x } x).Invariant := by
  have hnone : (w.scheduler.finish x).currentExecution = none := if_pos hc
  rcases phase_of_current hphase hc with hp | ⟨signal, hp⟩
  · rw [PhaseHolds, hp] at hphase
    simp only [resumeStop, hp]
    exact ⟨hsound, hphase, ⟨fun hl => absurd hp (hcode.lost hl).2, hcode.kept⟩,
      fun _ => hsignals hp⟩
  · rw [PhaseHolds, hp] at hphase
    obtain ⟨htimer, -, hd, he⟩ := hphase
    have hd' : w.disconnects ++ [none] = [none] := by rw [hd, List.nil_append]
    simp only [resumeStop, hp, if_true]
    exact ⟨sound_congr hsound rfl rfl, ⟨htimer, hnone, hd', he⟩,
      ⟨fun hl => ⟨(hcode.lost hl).1, nofun⟩, hcode.kept⟩, nofun⟩

/-- **An execution settles.** -/
theorem Invariant.settled (hI : w.Invariant) (h : w.settled x answer now = some w') :
    w'.Invariant := by
  obtain ⟨scheduler, hs, rfl⟩ := Option.map_eq_some_iff.mp h
  have hsound := (hI.sound.settle_finish hs).1
  obtain ⟨startedAt, hx, hscheduler⟩ := IngestionScheduler.settle_eq_some hs
  have hlost := IngestionScheduler.lostAuthority_settle hs
  -- the report of the scheduler changes neither its timer nor its field
  have hphase : ({ w with scheduler := scheduler } : IngestionWorker).PhaseHolds := by
    subst hscheduler
    exact hI.phase
  have hc : scheduler.currentExecution = some x := by
    subst hscheduler
    exact (hI.sound x).mp ⟨startedAt, hx⟩
  by_cases ha : answer = .ok .executionAuthorityLost
  · simp only [ha, if_true]
    obtain ⟨hholds, signal, hp⟩ := onExecutionAuthorityLost_holds hphase hc
    have hexecutions : (onExecutionAuthorityLost
        { w with scheduler := scheduler }).scheduler.executions = scheduler.executions :=
      beginShutdown_executions
    have hcurrent : (onExecutionAuthorityLost
        { w with scheduler := scheduler }).scheduler.currentExecution = some x :=
      beginShutdown_currentExecution.trans hc
    have hbegun : (onExecutionAuthorityLost { w with scheduler := scheduler }).phase ≠
        .notRequested := by
      rw [hp]
      exact nofun
    refine invariant_resumeStop hholds ⟨fun _ => ?_, fun hn => ?_⟩ (absurd · hbegun) hcurrent
      (sound_congr hsound hexecutions ?_)
    · exact ⟨beginShutdown_shutdownExitCode, hbegun⟩
    · exact absurd ((lostAuthority_congr hexecutions).mpr (hlost.mpr (.inl ha))) hn
    · exact (if_pos hcurrent).trans (if_pos hc).symm
  · simp only [ha, if_false]
    have hlost' : scheduler.LostAuthority ↔ w.scheduler.LostAuthority := by
      rw [hlost, or_iff_right ha]
    exact invariant_resumeStop hphase ⟨fun hl => hI.code.lost (hlost'.mp hl),
      fun hn => hI.code.kept fun hl => hn (hlost'.mpr hl)⟩ hI.signals hc hsound

/-- **A signal**, handled or killing the process. -/
theorem Invariant.signalled (hI : w.Invariant) (signal : ProcessSignal) :
    (w.signalled signal).Invariant := by
  unfold IngestionWorker.signalled
  split
  · rename_i hmem
    refine ⟨sound_congr hI.sound rfl rfl, hI.phase, ⟨hI.code.lost, hI.code.kept⟩, fun hp => ?_⟩
    rw [(hI.signals hp).1] at hmem
    exact absurd hmem List.not_mem_nil
  · have hphase : ({ w with handled := signal :: w.handled } : IngestionWorker).PhaseHolds := hI.phase
    obtain ⟨hholds, hbegun⟩ := beginShutdown_holds signal.name hphase
    have hlost : (shutdown { w with handled := signal :: w.handled } signal.name 0
        ).scheduler.LostAuthority ↔ w.scheduler.LostAuthority :=
      lostAuthority_congr beginShutdown_executions
    refine ⟨sound_congr hI.sound beginShutdown_executions beginShutdown_currentExecution, hholds,
      ⟨fun hl => ⟨?_, hbegun⟩, fun hn => ?_⟩, (absurd · hbegun)⟩
    · exact beginShutdown_shutdownExitCode.trans (hI.code.lost (hlost.mp hl)).1
    · exact beginShutdown_shutdownExitCode.trans (hI.code.kept fun hl => hn (hlost.mpr hl))

/-- The interval elapses, which it does only before a shutdown. -/
theorem Invariant.interval (hI : w.Invariant) (htimer : w.scheduler.timer = true) (now : Int) :
    ({ w with scheduler := w.scheduler.runOnce now } : IngestionWorker).Invariant := by
  have hp : w.phase = .notRequested := by
    have h := hI.phase
    unfold PhaseHolds at h
    split at h
    · assumption
    · exact nomatch htimer.symm.trans h.1
    · exact nomatch htimer.symm.trans h.1
    · exact nomatch htimer.symm.trans h.1
  have hphase := hI.phase
  rw [PhaseHolds, hp] at hphase
  have htimer' : (w.scheduler.runOnce now).timer = true := by
    unfold IngestionScheduler.runOnce
    split
    · exact htimer
    · exact htimer
  refine ⟨hI.sound.runOnce, ?_, ⟨fun hl => ?_, fun hn => ?_⟩, hI.signals⟩
  · rw [PhaseHolds, hp]
    exact ⟨htimer', hphase.2⟩
  · exact hI.code.lost (IngestionScheduler.lostAuthority_runOnce.mp hl)
  · exact hI.code.kept fun hl => hn (IngestionScheduler.lostAuthority_runOnce.mpr hl)

theorem disconnected_eq_some {error : Option String} (h : w.disconnected error = some w') :
    (∃ signal, w.phase = .disconnecting signal) ∧ ∃ log, w' = { w with
      scheduler := { w.scheduler with log := log }
      phase := .finished
      disconnects := w.disconnects.dropLast ++ [some error.isNone]
      exitCode := some (if error.isNone then w.shutdownExitCode else 1) } := by
  unfold IngestionWorker.disconnected at h
  split at h
  · rename_i signal hp
    refine ⟨⟨signal, hp⟩, ?_⟩
    split at h
    · cases h
      exact ⟨_, rfl⟩
    · cases h
      exact ⟨_, rfl⟩
  · cases h

/-- `disconnect` settles. -/
theorem Invariant.disconnected {error : Option String} (hI : w.Invariant)
    (h : w.disconnected error = some w') : w'.Invariant := by
  obtain ⟨⟨signal, hp⟩, log, rfl⟩ := disconnected_eq_some h
  have hphase := hI.phase
  rw [PhaseHolds, hp] at hphase
  obtain ⟨htimer, hc, hd, -⟩ := hphase
  refine ⟨sound_congr hI.sound rfl rfl, ⟨htimer, hc, error.isNone, ?_, rfl⟩,
    ⟨fun hl => ⟨(hI.code.lost hl).1, nofun⟩, hI.code.kept⟩, nofun⟩
  rw [hd]
  rfl

theorem next_of_alive (hk : w.killedBy = none) (ev : WorkerEvent) : w.next ev = w.turn ev := by
  rw [next, hk]

theorem next_of_killed (hk : w.killedBy ≠ none) (ev : WorkerEvent) : w.next ev = none := by
  obtain ⟨signal, hk⟩ := Option.ne_none_iff_exists'.mp hk
  rw [next, hk]

theorem next_eq_some {ev : WorkerEvent} (h : w.next ev = some w') :
    w.killedBy = none ∧ w.turn ev = some w' := by
  cases hk : w.killedBy with
  | none => exact ⟨rfl, (next_of_alive hk ev).symm.trans h⟩
  | some signal =>
      rw [next_of_killed (by rw [hk]; exact nofun)] at h
      cases h

/-- **One turn keeps the invariant.** -/
theorem invariant_next {ev : WorkerEvent} (hI : w.Invariant) (h : w.next ev = some w') :
    w'.Invariant := by
  replace h := (next_eq_some h).2
  cases ev with
  | interval now =>
      simp only [IngestionWorker.turn] at h
      split at h
      · rename_i htimer
        cases h
        exact hI.interval htimer now
      · cases h
  | signal signal =>
      cases h
      exact hI.signalled signal
  | settled x answer now => exact hI.settled h
  | disconnected error => exact hI.disconnected h

theorem invariant_started {ingestIntervalMs : Nat}
    (h : startIngestionWorker ingestIntervalMs now = .ok w) : w.Invariant := by
  unfold startIngestionWorker at h
  cases hs : createIngestionScheduler ingestIntervalMs true with
  | error e =>
      rw [hs] at h
      cases h
  | ok scheduler =>
      rw [hs] at h
      cases h
      have hsound := IngestionScheduler.sound_created hs
      have hscheduler : scheduler = ⟨ingestIntervalMs, true, false, none, [], []⟩ := by
        unfold createIngestionScheduler at hs
        split at hs
        · cases hs
          rfl
        · cases hs
      subst hscheduler
      have hnot : ¬ ((IngestionScheduler.mk ingestIntervalMs true false none [] []).start
          now).LostAuthority := by
        rintro ⟨x, startedAt, hx⟩
        cases List.mem_singleton.mp (List.mem_of_getElem? hx)
      exact ⟨hsound.start, ⟨rfl, rfl, rfl⟩, ⟨fun hl => absurd hl hnot, fun _ => rfl⟩,
        fun _ => ⟨rfl, rfl⟩⟩

/-- A request for a shutdown that has begun changes nothing. -/
theorem beginShutdown_phase (hp : w.phase ≠ .notRequested) :
    (w.beginShutdown signal).phase = w.phase := by
  unfold beginShutdown
  split
  · exact absurd ‹_› hp
  · rfl

theorem onExecutionAuthorityLost_phase (hp : w.phase ≠ .notRequested) :
    w.onExecutionAuthorityLost.phase = w.phase := by
  rw [onExecutionAuthorityLost, shutdown, if_pos Nat.one_ne_zero]
  exact beginShutdown_phase hp

@[simp] theorem resumeStop_executions (w : IngestionWorker) (x : Nat) :
    (w.resumeStop x).scheduler.executions = w.scheduler.executions := by
  unfold resumeStop
  split
  · split
    · rfl
    · rfl
  · rfl

/-- The calls after one has settled are those of the scheduler. -/
theorem settled_executions (h : w.settled x answer now = some w') :
    ∃ scheduler, w.scheduler.settle x answer now = some scheduler ∧
      w'.scheduler.executions = scheduler.executions := by
  obtain ⟨scheduler, hs, rfl⟩ := Option.map_eq_some_iff.mp h
  refine ⟨scheduler, hs, (resumeStop_executions _ x).trans ?_⟩
  show (IngestionScheduler.finish _ x).executions = _
  split
  · exact beginShutdown_executions
  · rfl

@[simp] theorem signalled_executions (w : IngestionWorker) (signal : ProcessSignal) :
    (w.signalled signal).scheduler.executions = w.scheduler.executions := by
  unfold signalled
  split
  · rfl
  · exact beginShutdown_executions

/-- A turn of the event loop makes no call once the timer is cleared. -/
theorem executions_next {ev : WorkerEvent} (h : w.next ev = some w')
    (htimer : w.scheduler.timer = false) :
    w'.scheduler.executions.length = w.scheduler.executions.length := by
  replace h := (next_eq_some h).2
  cases ev with
  | interval now =>
      rw [turn, htimer] at h
      cases h
  | signal signal =>
      cases h
      rw [signalled_executions]
  | settled x answer now =>
      obtain ⟨scheduler, hs, hexecutions⟩ := settled_executions h
      obtain ⟨startedAt, -, rfl⟩ := IngestionScheduler.settle_eq_some hs
      rw [hexecutions, List.length_set]
  | disconnected error =>
      obtain ⟨-, log, rfl⟩ := disconnected_eq_some h
      rfl

/-- After a request the timer is cleared. -/
theorem Invariant.timer_of_requested (hI : w.Invariant) (hp : w.phase ≠ .notRequested) :
    w.scheduler.timer = false := by
  have h := hI.phase
  unfold PhaseHolds at h
  split at h
  · exact absurd ‹_› hp
  · exact h.1
  · exact h.1
  · exact h.1

end Steps

/-! ### Signals -/

section Signals

variable {w w' : IngestionWorker} {evs : List WorkerEvent} {ev : WorkerEvent}

/-- **The signals of a run.**  While the process is alive each has arrived at most once, and its
listener has been called if it has; the signal that killed it has arrived twice. -/
structure Heard (evs : List WorkerEvent) (w : IngestionWorker) : Prop where
  alive : w.killedBy = none → ∀ signal,
    evs.count (.signal signal) = if signal ∈ w.handled then 1 else 0
  killed : ∀ signal ∈ w.killedBy, evs.count (.signal signal) = 2

/-- A turn without a signal leaves the listeners as they are. -/
theorem signals_turn (h : w.turn ev = some w') (hev : ∀ signal, ev ≠ .signal signal) :
    w'.handled = w.handled ∧ w'.killedBy = w.killedBy := by
  cases ev with
  | interval now =>
      simp only [turn] at h
      split at h
      · cases h
        exact ⟨rfl, rfl⟩
      · cases h
  | signal signal => exact absurd rfl (hev signal)
  | settled x answer now =>
      obtain ⟨scheduler, -, rfl⟩ := Option.map_eq_some_iff.mp h
      rw [resumeStop_handled, resumeStop_killedBy]
      show (ite _ _ _ : IngestionWorker).handled = _ ∧ (ite _ _ _ : IngestionWorker).killedBy = _
      split
      · exact ⟨beginShutdown_handled, beginShutdown_killedBy⟩
      · exact ⟨rfl, rfl⟩
  | disconnected error =>
      obtain ⟨-, log, rfl⟩ := disconnected_eq_some h
      exact ⟨rfl, rfl⟩

/-- The first arrival of a signal is handled. -/
theorem signalled_of_new {signal : ProcessSignal} (h : signal ∉ w.handled) :
    (w.signalled signal).handled = signal :: w.handled ∧
      (w.signalled signal).killedBy = w.killedBy := by
  rw [signalled, if_neg h]
  exact ⟨beginShutdown_handled, beginShutdown_killedBy⟩

/-- **One turn.** -/
theorem Heard.next (hI : Heard evs w) (h : w.next ev = some w') : Heard (evs ++ [ev]) w' := by
  obtain ⟨hk, h⟩ := next_eq_some h
  have hcount := hI.alive hk
  by_cases hev : ∃ signal, ev = .signal signal
  · obtain ⟨signal, rfl⟩ := hev
    cases h
    by_cases hmem : signal ∈ w.handled
    -- the listener is gone, and the default action ends the process
    · rw [signalled, if_pos hmem]
      refine ⟨nofun, ?_⟩
      rintro _ ⟨⟩
      rw [List.count_append, hcount, if_pos hmem, List.count_singleton_self]
    -- the listener is called, and removed
    · obtain ⟨hhandled, hkilled⟩ := signalled_of_new hmem
      refine ⟨fun _ other => ?_, fun other hother => ?_⟩
      · rw [List.count_append, hcount, hhandled]
        by_cases he : other = signal
        · subst he
          simp [hmem]
        · simp [he, Ne.symm he]
      · rw [hkilled, hk] at hother
        cases hother
  · have hnot : ∀ signal, ev ≠ .signal signal := fun signal he => hev ⟨signal, he⟩
    obtain ⟨hhandled, hkilled⟩ := signals_turn h hnot
    refine ⟨fun _ signal => ?_, fun signal hsignal => ?_⟩
    · rw [List.count_append, List.count_singleton, hcount, hhandled]
      simp [hnot signal]
    · rw [hkilled, hk] at hsignal
      cases hsignal

theorem heard_started {ingestIntervalMs : Nat} {now : Int}
    (h : startIngestionWorker ingestIntervalMs now = .ok w) : Heard [] w := by
  unfold startIngestionWorker at h
  cases hs : createIngestionScheduler ingestIntervalMs true with
  | error e =>
      rw [hs] at h
      cases h
  | ok scheduler =>
      rw [hs] at h
      cases h
      exact ⟨fun _ _ => rfl, nofun⟩

/-- The process has been killed exactly if a signal has arrived twice. -/
theorem Heard.killedBy_eq_none (hI : Heard evs w) :
    w.killedBy = none ↔ ∀ signal, evs.count (.signal signal) ≤ 1 := by
  constructor
  · intro hk signal
    rw [hI.alive hk]
    split
    · exact Nat.le_refl 1
    · exact Nat.zero_le 1
  · intro hcount
    by_contra hk
    obtain ⟨signal, hk⟩ := Option.ne_none_iff_exists'.mp hk
    have hle := hcount signal
    rw [hI.killed signal hk] at hle
    exact absurd hle (by decide)

end Signals

/-! ### Runs -/

/-- **How a worker operates**, whatever its executions, its signals and its disconnect come to. -/
structure Operates (w : IngestionWorker) : Prop where
  /-- One execution at a time. -/
  oneExecution : ∀ x y, w.scheduler.InProgress x → w.scheduler.InProgress y → x = y
  /-- It is the one the scheduler holds. -/
  holds : ∀ x, w.scheduler.InProgress x ↔ w.scheduler.currentExecution = some x
  /-- The loss of authority shuts it down. -/
  losesAuthority : w.scheduler.LostAuthority → w.phase ≠ .notRequested
  /-- It disconnects once, when no execution is in progress. -/
  disconnectsOnce : w.disconnects ≠ [] →
    w.disconnects.length = 1 ∧ ∀ x, ¬ w.scheduler.InProgress x
  /-- It exits once the disconnect has settled, with 0 when that succeeded and no execution has lost
  its authority, and otherwise with 1. -/
  exits : ∀ code, w.exitCode = some code ↔ ∃ ok, w.disconnects = [some ok] ∧
    (code = 0 ∧ ok = true ∧ ¬ w.scheduler.LostAuthority ∨
      code = 1 ∧ (ok = false ∨ w.scheduler.LostAuthority))
  /-- A process that has been killed was shutting down, and does nothing more. -/
  killed : w.killedBy ≠ none → w.phase ≠ .notRequested ∧ ∀ ev, w.next ev = none
  /-- A shutdown that has begun waits for the execution in progress, then for the disconnect, as long
  as the process is alive. -/
  waits : w.killedBy = none → w.phase ≠ .notRequested → w.exitCode = none →
    (∃ x, w.scheduler.InProgress x ∧ ∀ answer now, ∃ w' signal,
        w.next (.settled x answer now) = some w' ∧ w'.phase = .disconnecting signal) ∨
      ∀ error, ∃ w', w.next (.disconnected error) = some w' ∧ w'.exitCode ≠ none

section Runs

variable {w w' w₀ : IngestionWorker} {ingestIntervalMs : Nat} {now : Int} {signal : String}

/-- A shutdown that has begun goes on. -/
theorem requested_next {ev : WorkerEvent} (hp : w.phase ≠ .notRequested)
    (h : w.next ev = some w') : w'.phase ≠ .notRequested := by
  replace h := (next_eq_some h).2
  cases ev with
  | interval now =>
      simp only [turn] at h
      split at h
      · cases h
        exact hp
      · cases h
  | signal signal =>
      cases h
      unfold signalled
      split
      · exact hp
      · have hp' : ({ w with handled := signal :: w.handled } : IngestionWorker).phase ≠
            .notRequested := hp
        exact (beginShutdown_phase hp').trans_ne hp
  | settled x answer now =>
      obtain ⟨scheduler, -, rfl⟩ := Option.map_eq_some_iff.mp h
      have hreported : ∀ w₁ : IngestionWorker, w₁.phase ≠ .notRequested →
          (w₁.resumeStop x).phase ≠ .notRequested := by
        intro w₁ hp₁
        unfold resumeStop
        split
        · split
          · exact nofun
          · exact hp₁
        · exact hp₁
      have hp₁ : ({ w with scheduler := scheduler } : IngestionWorker).phase ≠ .notRequested := hp
      refine hreported _ ?_
      simp only
      split
      · exact (onExecutionAuthorityLost_phase hp₁).trans_ne hp
      · exact hp
  | disconnected error =>
      obtain ⟨-, log, rfl⟩ := disconnected_eq_some h
      exact nofun

/-- `disconnect` is called once, with no execution in progress. -/
theorem Invariant.disconnectsOnce (hI : w.Invariant) (hd : w.disconnects ≠ []) :
    w.disconnects.length = 1 ∧ ∀ x, ¬ w.scheduler.InProgress x := by
  have idle : w.scheduler.currentExecution = none → ∀ x, ¬ w.scheduler.InProgress x := by
    intro hnone x hx
    rw [(hI.sound x).mp hx] at hnone
    cases hnone
  have h := hI.phase
  unfold PhaseHolds at h
  split at h
  -- no shutdown, or one that waits: `disconnect` has not been called
  · exact absurd h.2.1 hd
  · exact absurd h.2.2.1 hd
  -- it is under way, or has settled
  · exact ⟨by rw [h.2.2.1]; rfl, idle h.2.1⟩
  · obtain ⟨-, hnone, ok, hd', -⟩ := h
    exact ⟨by rw [hd']; rfl, idle hnone⟩

/-- The exit code, by what `disconnect` and the executions have come to. -/
theorem Invariant.exits (hI : w.Invariant) (code : Nat) :
    w.exitCode = some code ↔ ∃ ok, w.disconnects = [some ok] ∧
      (code = 0 ∧ ok = true ∧ ¬ w.scheduler.LostAuthority ∨
        code = 1 ∧ (ok = false ∨ w.scheduler.LostAuthority)) := by
  have h := hI.phase
  unfold PhaseHolds at h
  split at h
  · simp [h.2.1, h.2.2]
  · simp [h.2.2.1, h.2.2.2]
  · simp [h.2.2.1, h.2.2.2]
  -- `disconnect` has settled, and the code is there
  · obtain ⟨-, -, ok, hd, he⟩ := h
    rw [hd, he]
    by_cases hl : w.scheduler.LostAuthority
    · cases ok <;> simp [hl, (hI.code.lost hl).1, eq_comm]
    · cases ok <;> simp [hl, hI.code.kept hl, eq_comm]

/-- A stop that waits for an execution goes on when that settles, whatever it settles with. -/
theorem stopping_settles {answer : ExecutionAnswer} {x : Nat} (hk : w.killedBy = none)
    (hstopping : w.phase = .stopping signal x) (hx : w.scheduler.InProgress x) :
    ∃ w', w.next (.settled x answer now) = some w' ∧ w'.phase = .disconnecting signal := by
  obtain ⟨scheduler, hs⟩ := hx.settle answer now
  -- a loss of authority that is reported leaves the stop in progress
  let reported : IngestionWorker :=
    if answer = .ok .executionAuthorityLost then
      ({ w with scheduler := scheduler } : IngestionWorker).onExecutionAuthorityLost
    else { w with scheduler := scheduler }
  have hp : ({ w with scheduler := scheduler } : IngestionWorker).phase ≠ .notRequested := by
    rw [hstopping]
    exact nofun
  have hreported : reported.phase = .stopping signal x := by
    simp only [reported]
    split
    · exact (onExecutionAuthorityLost_phase hp).trans hstopping
    · exact hstopping
  refine ⟨resumeStop { reported with scheduler := reported.scheduler.finish x } x, ?_, ?_⟩
  · rw [next_of_alive hk, turn, IngestionWorker.settled, hs]
    rfl
  · simp only [resumeStop, hreported, if_true]
    rfl

/-- A `disconnect` that was called can settle, and ends the worker. -/
theorem disconnecting_settles {error : Option String} (hk : w.killedBy = none)
    (hdisconnecting : w.phase = .disconnecting signal) :
    ∃ w', w.next (.disconnected error) = some w' ∧ w'.exitCode ≠ none := by
  have hd : ∃ w', w.disconnected error = some w' := by
    cases error with
    | none => exact ⟨_, by rw [IngestionWorker.disconnected, hdisconnecting]⟩
    | some e => exact ⟨_, by rw [IngestionWorker.disconnected, hdisconnecting]⟩
  obtain ⟨w', hd⟩ := hd
  obtain ⟨-, log, rfl⟩ := disconnected_eq_some hd
  exact ⟨_, (next_of_alive hk _).trans hd, Option.some_ne_none _⟩

/-- **What the invariant says of a worker.** -/
theorem operates_of_invariant (hI : w.Invariant) : w.Operates where
  oneExecution x y hx hy := by
    have hc := (hI.sound x).mp hx
    rw [(hI.sound y).mp hy] at hc
    exact (Option.some.inj hc).symm
  holds := hI.sound
  losesAuthority hl := (hI.code.lost hl).2
  disconnectsOnce := hI.disconnectsOnce
  exits := hI.exits
  killed hk := ⟨fun hp => hk (hI.signals hp).2, next_of_killed hk⟩
  waits hk hp he := by
    have h := hI.phase
    unfold PhaseHolds at h
    split at h
    · exact absurd ‹_› hp
    -- the stop waits for an execution
    · rename_i signal x hstopping
      have hx := (hI.sound x).mpr h.2.1
      exact .inl ⟨x, hx, fun answer now =>
        (stopping_settles hk hstopping hx).imp fun _ hw => ⟨signal, hw⟩⟩
    -- it waits for `disconnect`
    · rename_i signal hdisconnecting
      exact .inr fun error => disconnecting_settles hk hdisconnecting
    · obtain ⟨-, -, ok, -, he'⟩ := h
      rw [he'] at he
      cases he

/-- A tick during an execution, a signal, and the loss of authority while the worker stops. -/
def upgradedStop : List WorkerEvent :=
  [.interval 1000, .signal .sigterm, .settled 0 (.ok .executionAuthorityLost) 1500,
    .disconnected none]

/-- The two signals while an execution is in progress, and the first of them once more. -/
def killedStop : List WorkerEvent := [.signal .sigterm, .signal .sigint, .signal .sigterm]

end Runs

end IngestionWorker

end NycPropertyResolver
