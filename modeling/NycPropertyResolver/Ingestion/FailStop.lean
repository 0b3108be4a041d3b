import NycPropertyResolver.Ingestion.LockLease
import NycPropertyResolver.Ingestion.RequestTimeouts
import NycPropertyResolver.Ingestion.StatusWrites

/-!
# Ingestion — executions that lose their authority

The calls of `execute` of one runner with all they share: the lock service, the database and the two
request executors.  An execution checks its own authority, but three places ask the lock service for
the authority it has at the time: the hand-off to the accepted publication, the terminal publication
and the metadata port.  Where that is the authority of the execution itself, and no other call releases
its lease, an execution whose authority is lost writes no status and starts no request (`fail_stop`).
-/

namespace NycPropertyResolver

open Library

namespace RunnerService

open LockService RequestTimeouts

/-! ### States -/

/-- What the runner is composed of, and the inputs of the calls. -/
structure RunnerOptions (Row : Type) where
  config : ExecutorConfig
  rows : EcbRowService Row
  requestExecutors : Plane → RequestExecutor.SocrataRequestExecutor
  triggerType : Nat → IngestionTriggerType

/-- The lock service, the database, where the execution of each call stands, and the requests of each
plane with the calls that made them. -/
structure RunnerState (Row V : Type) where
  lock : LockState
  db : Db Row
  executors : Nat → ExecutorState Row
  requests : PlaneStates V
  makers : Plane → List Nat

/-- A step of the lock service, of an execution, of its requests, or of the rest of the system. -/
inductive RunnerEvent (Row V : Type) where
  | lock (ev : LockEvent)
  /-- A step of an execution.  `loss`: the authority it checks is lost before the check at a position. -/
  | step (call : Nat) (answer : Answer Row) (loss : Option (Nat × String))
  | request (call : Nat) (plane : Plane)
  | turn (plane : Plane) (ev : RequestExecutor.Event V)
  /-- A transaction of another part of the system. -/
  | database (db : Db Row)

variable {Row V : Type}

/-- Nothing has been called. -/
def RunnerState.initial : RunnerState Row V :=
  ⟨.initial, .empty, fun _ => .stopped .notStarted, noRequests V, fun _ => []⟩

/-- The authority of the lease is in force. -/
def isAuthorized (s : LockState) (l : Nat) : Bool := (s.calls l).lease.any (·.authority.authorized)

/-- The authority of the lease has been revoked. -/
def isRevoked (s : LockState) (l : Nat) : Bool := (s.calls l).lease.any (·.authority.revoked)

/-! ### Steps -/

/-- The authority a step checks, by its call: the publications take the one the lock service has. -/
def RunnerState.checked (s : RunnerState Row V) (x : Nat) : Option Nat :=
  match s.executors x with
  | .publishingTerminalFailure _ => s.lock.lease
  | .readyForPublication _ => s.lock.lease
  | _ => some x

/-- `requireAuthority` and `publishTerminalFailure`, where the lock service has none. -/
def withoutAuthority : ExecutorState Row → String
  | .readyForPublication runId => s!"ingestion run {runId} reached publication without lock authority"
  | _ => "Terminal failure publication: execution authority is required"

/-- What the check at a position observes. -/
def checkPasses (authorized : Bool) (loss : Option (Nat × String)) (i : Nat) : Bool :=
  authorized && loss.all fun l => decide (i < l.1)

/-- The answer of a step, with what its checks observe; the hand-off to the accepted publication makes
one before those of the publication. -/
def observe (authorized : Bool) (loss : Option (Nat × String)) (pc : ExecutorState Row)
    (a : Answer Row) : Answer Row :=
  { a with
    authorized := checkPasses authorized loss
    publication := { a.publication with
      authorized := fun i => checkPasses authorized loss (match pc with
        | .readyForPublication _ => i + 1
        | _ => i) } }

/-- A step of the lock service; an authority that is revoked aborts the requests made under it. -/
def RunnerState.lockStep (s : RunnerState Row V) (ev : LockEvent) : Option (RunnerState Row V) :=
  (nextLock s.lock ev).map fun lock =>
    { s with
      lock := lock
      requests := match ev with
        | .lossNoticed y _ =>
          if isRevoked s.lock y = false ∧ isRevoked lock y = true then
            fun plane => (s.requests plane).abort y .primitive
          else s.requests
        | _ => s.requests }

/-- A call of `execute` of a request executor, under the signal of an authority. -/
def RunnerState.call (s : RunnerState Row V) (x : Nat) (plane : Plane) (authority : Nat) :
    RunnerState Row V :=
  { s with
    requests := Function.update s.requests plane ((s.requests plane).call (some authority))
    makers := Function.update s.makers plane (s.makers plane ++ [x]) }

/-- A turn of a request executor that is neither a call nor an abort. -/
def ofExecutor : RequestExecutor.Event V → Bool
  | .call _ => false
  | .abort _ _ => false
  | _ => true

/-- The lock service begins the execution of a call that is granted the lock. -/
def RunnerState.begin (options : RunnerOptions Row) (s : RunnerState Row V) (ev : LockEvent) :
    RunnerState Row V :=
  match ev with
  | .answer x =>
    { s with executors := Function.update s.executors x (.started (options.triggerType x)) }
  | _ => s

/-- The execution has ended. -/
def isStopped : ExecutorState Row → Bool
  | .stopped _ => true
  | _ => false

/-- A call gets to its `finally` clause when its execution has ended. -/
def RunnerState.mayTake (s : RunnerState Row V) : LockEvent → Bool
  | .cleanup x => decide ((s.lock.calls x).phase ≠ .executing) || isStopped (s.executors x)
  | _ => true

/-- One event; `none` when it is not possible. -/
def nextRunner (options : RunnerOptions Row) (s : RunnerState Row V) :
    RunnerEvent Row V → Option (RunnerState Row V)
  | .lock ev => if s.mayTake ev then (s.lockStep ev).map fun t => t.begin options ev else none
  | .step x answer loss =>
    if (s.lock.calls x).phase = .executing then
      match s.checked x with
      | none =>
        some { s with
          executors := Function.update s.executors x
            (.stopped (.threw (withoutAuthority (s.executors x)))) }
      | some y =>
        match executorStep options.config options.rows
          (observe (isAuthorized s.lock y) loss (s.executors x) answer) s.db (s.executors x) with
        | none => none
        | some (db', pc') =>
          let t := { s with db := db', executors := Function.update s.executors x pc' }
          match loss with
          | none => some t
          | some (_, reason) => t.lockStep (.lossNoticed y reason)
    else none
  | .request x plane =>
    if (s.lock.calls x).phase = .executing then
      match plane with
      | .data => some (s.call x .data x)
      | .metadata =>
        match s.lock.lease with
        | none => none
        | some y => if isAuthorized s.lock y then some (s.call x .metadata y) else none
    else none
  | .turn plane ev =>
    if ofExecutor ev then
      (RequestExecutor.next (options.requestExecutors plane) (s.requests plane) ev).map fun t =>
        { s with requests := Function.update s.requests plane t }
    else none
  | .database db => some { s with db := db }

/-! ### The property -/

/-- The lock session of a call was lost while it executes: its authority reports so. -/
def Lost (s : RunnerState Row V) (x : Nat) : Prop :=
  (s.lock.calls x).phase = .executing ∧ isAuthorized s.lock x = false

/-- The authority of a call reports loss or release. -/
def Reported (s : RunnerState Row V) (x : Nat) : Prop :=
  ∃ lease, (s.lock.calls x).lease = some lease ∧ lease.authority.authorized = false

/-- An operation of a request executor is called for a request of a call of `execute`. -/
def StartsRequest (s t : RunnerState Row V) (x : Nat) : Prop :=
  ∃ (plane : Plane) (i : Nat) (job : RequestExecutor.Job V), (t.requests plane).jobs[i]? = some job ∧
    job.phase = .calling none ∧ (t.makers plane)[job.owner]? = some x ∧
    ∀ before : RequestExecutor.Job V, (s.requests plane).jobs[i]? = some before → before.phase = .queued

/-- No `finally` clause releases the lease of another call that executes, and an execution finds no
authority but its own where it asks the lock service for one. -/
def OwnAuthority (s : RunnerState Row V) : RunnerEvent Row V → Prop
  | .lock ev => OwnCleanup s.lock ev
  | .step x _ _ => ∀ y, s.checked x = some y → y = x
  | .request _ .data => True
  | .request x .metadata => ∀ y, s.lock.lease = some y → y = x
  | .turn _ _ => True
  | .database _ => True

/-! ### What becomes of a lease -/

/-- What an event of the lock service makes of the lease of a call. -/
inductive LeaseTurn (s : LockState) (ev : LockEvent) (y : Nat) : Option IngestionLockLease → Prop where
  | kept : LeaseTurn s ev y (s.calls y).lease
  | acquired (hphase : (s.calls y).phase = .acquiring (some true)) : LeaseTurn s ev y (some .new)
  | released : LeaseTurn s ev y ((s.calls y).lease.map (·.release))
  | lost {reason : String} (hev : ev = .lossNoticed y reason) :
      LeaseTurn s ev y ((s.calls y).lease.map (·.handleUnexpectedSessionLoss reason))
  | closed : LeaseTurn s ev y ((s.calls y).lease.map fun lease => { lease with active := false })

section Leases

variable {s t : LockState} {ev : LockEvent}

theorem leaseTurn_of_eq {y : Nat} (h : (t.calls y).lease = (s.calls y).lease) :
    LeaseTurn s ev y (t.calls y).lease := by
  rw [h]
  exact .kept

/-- The phase of a call, or its session, is written. -/
theorem lease_modifyCall (s : LockState) (x y : Nat) (f : LockCall → LockCall)
    (hf : ∀ c, (f c).lease = c.lease) : ((s.modifyCall x f).calls y).lease = (s.calls y).lease := by
  rw [calls_modifyCall]
  split
  · exact hf _
  · rfl

theorem lease_setPhase (s : LockState) (x y : Nat) (phase : CallPhase) :
    ((s.modifyCall x fun c => { c with phase := phase }).calls y).lease = (s.calls y).lease :=
  lease_modifyCall s x y _ fun _ => rfl

theorem lease_endSession (s : LockState) (x y : Nat) :
    ((s.endSession x).calls y).lease = (s.calls y).lease :=
  lease_modifyCall s x y (fun c => { c with sessionAlive := false }) fun _ => rfl

/-- The lease of one call is written, after steps that leave the leases. -/
theorem leaseTurn_modifyCall {u : LockState} {x y : Nat} {f : LockCall → LockCall}
    (hu : (u.calls y).lease = (s.calls y).lease)
    (h : y = x → LeaseTurn s ev y (f (u.calls y)).lease) :
    LeaseTurn s ev y ((u.modifyCall x f).calls y).lease := by
  rw [calls_modifyCall]
  by_cases hy : y = x
  · rw [if_pos hy]
    exact h hy
  · rw [if_neg hy, hu]
    exact .kept

theorem leaseTurn_of_release (x y : Nat) : LeaseTurn s ev y ((s.release x).calls y).lease := by
  unfold LockState.release
  split
  · exact leaseTurn_of_eq (lease_setPhase s x y _)
  · rw [lease_setPhase]
    exact leaseTurn_modifyCall rfl fun _ => .released

theorem leaseTurn_of_nextLock (h : nextLock s ev = some t) (y : Nat) :
    LeaseTurn s ev y (t.calls y).lease := by
  cases ev with
  | execute x =>
      simp only [nextLock, Option.ite_none_right_eq_some, Option.some.injEq] at h
      obtain ⟨-, rfl⟩ := h
      unfold LockState.beginAcquire
      split
      · exact leaseTurn_of_eq (lease_setPhase s x y _)
      · exact leaseTurn_modifyCall rfl fun _ => .kept
  | tryLock x =>
      simp only [nextLock, Option.ite_none_right_eq_some, Option.some.injEq] at h
      obtain ⟨-, rfl⟩ := h
      exact leaseTurn_of_eq (lease_setPhase s x y _)
  | answer x =>
      simp only [nextLock] at h
      split at h
      · rename_i granted hphase
        cases h
        unfold LockState.finishAcquire
        cases granted with
        | false => exact leaseTurn_of_eq (lease_setPhase s x y _)
        | true =>
            have hleases : LeaseTurn s (.answer x) y ((s.modifyCall x fun c =>
                { c with phase := .executing, lease := some .new }).calls y).lease := by
              refine leaseTurn_modifyCall rfl fun hy => ?_
              subst hy
              exact .acquired hphase
            exact hleases
      · cases h
  | acquireFails x =>
      simp only [nextLock] at h
      split at h
      · cases h
        exact leaseTurn_of_eq ((lease_setPhase _ x y _).trans (lease_endSession s x y))
      · cases h
  | refusalEnds x =>
      simp only [nextLock, Option.ite_none_right_eq_some, Option.some.injEq] at h
      obtain ⟨-, rfl⟩ := h
      exact leaseTurn_of_eq ((lease_setPhase _ x y _).trans (lease_endSession s x y))
  | sessionDies x =>
      simp only [nextLock, Option.ite_none_right_eq_some, Option.some.injEq] at h
      obtain ⟨-, rfl⟩ := h
      exact leaseTurn_of_eq (lease_endSession s x y)
  | lossNoticed x reason =>
      simp only [nextLock, Option.ite_none_right_eq_some, Option.some.injEq] at h
      obtain ⟨-, rfl⟩ := h
      exact leaseTurn_modifyCall rfl fun hy => .lost (by rw [hy])
  | cleanup x =>
      simp only [nextLock] at h
      split at h
      · cases h
        exact leaseTurn_of_release x y
      · cases h
        exact leaseTurn_of_release x y
      · cases h
  | unlock l =>
      simp only [nextLock, Option.ite_none_right_eq_some, Option.some.injEq] at h
      obtain ⟨-, rfl⟩ := h
      exact .kept
  | endSession l =>
      simp only [nextLock, Option.ite_none_right_eq_some, Option.some.injEq] at h
      obtain ⟨-, rfl⟩ := h
      refine leaseTurn_modifyCall (lease_endSession s l y) fun _ => ?_
      show LeaseTurn s _ y (((s.endSession l).calls y).lease.map _)
      rw [lease_endSession]
      exact .closed
  | released x =>
      simp only [nextLock] at h
      split at h
      · simp only [Option.ite_none_right_eq_some, Option.some.injEq] at h
        obtain ⟨-, rfl⟩ := h
        exact leaseTurn_of_eq (lease_setPhase s x y _)
      · cases h
  | foreign =>
      simp only [nextLock] at h
      split at h
      · cases h
        exact .kept
      · cases h
        exact .kept
      · cases h

/-- An authority that was revoked is unauthorized, and so is one that was only deactivated. -/
structure Reports (lease : IngestionLockLease) : Prop where
  unauthorized : lease.authority.revoked = true → lease.authority.authorized = false
  revoked : lease.authority.authorized = false → lease.cleanupStarted = false →
    lease.authority.revoked = true

theorem reports_new : Reports .new := ⟨(fun h => by cases h), (fun h => by cases h)⟩

theorem Reports.release {lease : IngestionLockLease} (h : Reports lease) : Reports lease.release := by
  unfold IngestionLockLease.release
  split
  · exact h
  · refine ⟨fun _ => rfl, fun _ hstarted => ?_⟩
    cases hstarted

theorem Reports.loss {lease : IngestionLockLease} (h : Reports lease) (reason : String) :
    Reports (lease.handleUnexpectedSessionLoss reason) := by
  unfold IngestionLockLease.handleUnexpectedSessionLoss
  split
  · exact h
  · unfold IngestionExecutionAuthority.revoke
    split
    · exact h
    · exact ⟨fun _ => rfl, fun _ _ => rfl⟩

theorem Reports.turn {y : Nat} {lease' : Option IngestionLockLease} (h : LeaseTurn s ev y lease')
    (hs : ∀ lease, (s.calls y).lease = some lease → Reports lease) :
    ∀ lease, lease' = some lease → Reports lease := by
  intro lease hlease
  cases h with
  | kept => exact hs lease hlease
  | acquired => cases hlease; exact reports_new
  | released =>
      obtain ⟨before, hbefore, rfl⟩ := Option.map_eq_some_iff.mp hlease
      exact (hs before hbefore).release
  | lost =>
      obtain ⟨before, hbefore, rfl⟩ := Option.map_eq_some_iff.mp hlease
      exact (hs before hbefore).loss _
  | closed =>
      obtain ⟨before, hbefore, rfl⟩ := Option.map_eq_some_iff.mp hlease
      exact ⟨(hs before hbefore).unauthorized, (hs before hbefore).revoked⟩

theorem revoked_release (lease : IngestionLockLease) :
    lease.release.authority.revoked = lease.authority.revoked := by
  unfold IngestionLockLease.release
  split <;> rfl

/-- Only the loss of its session revokes an authority. -/
theorem LeaseTurn.revokes {y : Nat} {lease' : Option IngestionLockLease} (h : LeaseTurn s ev y lease')
    (hrevoked : lease'.any (·.authority.revoked) = true) :
    isRevoked s y = true ∨ ∃ reason, ev = .lossNoticed y reason := by
  cases h with
  | kept => exact .inl hrevoked
  | acquired => cases hrevoked
  | released =>
      left
      rw [Option.any_map] at hrevoked
      rw [isRevoked, ← hrevoked]
      congr 1
      funext lease
      exact (revoked_release lease).symm
  | lost hev => exact .inr ⟨_, hev⟩
  | closed =>
      left
      rw [Option.any_map] at hrevoked
      exact hrevoked

/-- **An authority that has reported loss or release never reports being authorized again.** -/
theorem LeaseTurn.unauthorized {y : Nat} {lease : IngestionLockLease}
    (h : LeaseTurn s ev y (t.calls y).lease) (howned : Owned s) (hlease : (s.calls y).lease = some lease)
    (hauthority : lease.authority.authorized = false) :
    ∃ lease', (t.calls y).lease = some lease' ∧ lease'.authority.authorized = false := by
  generalize (t.calls y).lease = lease' at h
  cases h with
  | kept => exact ⟨lease, hlease, hauthority⟩
  | acquired hphase =>
      rw [(howned y).unleased (.inr ⟨_, hphase⟩)] at hlease
      cases hlease
  | released =>
      refine ⟨lease.release, by rw [hlease, Option.map_some], ?_⟩
      unfold IngestionLockLease.release
      split
      · exact hauthority
      · rfl
  | @lost reason =>
      refine ⟨lease.handleUnexpectedSessionLoss reason, by rw [hlease, Option.map_some], ?_⟩
      unfold IngestionLockLease.handleUnexpectedSessionLoss
      split
      · exact hauthority
      · unfold IngestionExecutionAuthority.revoke
        split
        · exact hauthority
        · rfl
  | closed => exact ⟨{ lease with active := false }, by rw [hlease, Option.map_some], hauthority⟩

end Leases

/-! ### The requests of a call -/

section Makers

open RequestExecutor

variable {executor : SocrataRequestExecutor} {s t : State V} {makers : List Nat}

/-- A request is made under the signal of the call that made it. -/
structure MadeUnderOwn (s : State V) (makers : List Nat) : Prop where
  length : makers.length = s.executes.length
  signal : ∀ {k : Nat} {e : Execute V} {x : Nat}, s.executes[k]? = some e → makers[k]? = some x →
    e.signal = some x
  owner : ∀ {i : Nat} {job : Job V}, s.jobs[i]? = some job → job.owner < s.executes.length

theorem madeUnderOwn_initial : MadeUnderOwn (State.initial V) [] where
  length := rfl
  signal h := by cases h
  owner h := by cases h

theorem MadeUnderOwn.extend (h : MadeUnderOwn s makers) (hext : Extends s t)
    (hlength : t.executes.length = s.executes.length)
    (howner : ∀ {i : Nat} {job : Job V}, t.jobs[i]? = some job → job.owner < t.executes.length) :
    MadeUnderOwn t makers where
  length := h.length.trans hlength.symm
  signal := by
    intro k e' x he' hx
    have hk : k < s.executes.length := hlength ▸ (List.getElem?_eq_some_iff.mp he').1
    obtain ⟨e'', he'', hsignal⟩ := hext.executes (List.getElem?_eq_getElem hk)
    rw [he'] at he''
    cases he''
    exact hsignal.trans (h.signal (List.getElem?_eq_getElem hk) hx)
  owner := howner

theorem MadeUnderOwn.owner_turn (h : MadeUnderOwn s makers) {ev : RequestExecutor.Event V}
    (hext : Extends s t) (hjobs : ∀ {i : Nat} {job : Job V}, t.jobs[i]? = some job →
      JobAfter executor s t ev i job) {i : Nat} {job' : Job V} (hjob' : t.jobs[i]? = some job') :
    job'.owner < t.executes.length := by
  rcases hjobs hjob' with ⟨job, hjob, howner, -⟩ | ⟨-, hlt⟩
  · rw [howner]
    exact hext.lt_length (h.owner hjob)
  · exact hlt

theorem MadeUnderOwn.turn (h : MadeUnderOwn s makers) {ev : RequestExecutor.Event V} (hev : ofExecutor ev = true)
    (hturn : RequestExecutor.Turn executor s ev t) : MadeUnderOwn t makers := by
  refine h.extend hturn.extends ?_ fun hjob => h.owner_turn hturn.extends hturn.job hjob
  rcases hturn.length with hlength | ⟨signal, rfl, -⟩
  · exact hlength
  · cases hev

theorem MadeUnderOwn.abort (h : MadeUnderOwn s makers) (signal : SignalId) (reason : ThrownValue) :
    MadeUnderOwn (s.abort signal reason) makers := by
  have hjobs : ∀ {i : Nat} {job : Job V}, (s.abort signal reason).jobs[i]? = some job →
      JobAfter defaultExecutor s (s.abort signal reason) (.abort signal reason) i job :=
    fun hjob => jobAfter_of_abort signal reason hjob
  exact h.extend (extends_abort reason) (List.length_map _) fun hjob =>
    h.owner_turn (extends_abort reason) hjobs hjob

theorem MadeUnderOwn.call (h : MadeUnderOwn s makers) (x : Nat) :
    MadeUnderOwn (s.call (some x)) (makers ++ [x]) := by
  have hturn : RequestExecutor.Turn defaultExecutor s (.call (some x)) (s.call (some x)) := .called _
  have hlength : (s.call (some x)).executes.length = s.executes.length + 1 := by
    rw [call_eq, length_beginAttempt, State.enter, List.length_append]
    rfl
  refine ⟨?_, ?_, fun hjob => h.owner_turn hturn.extends hturn.job hjob⟩
  · rw [List.length_append, h.length, hlength]
    rfl
  · intro k e' y he' hy
    by_cases hk : k < s.executes.length
    · rw [List.getElem?_append_left (h.length ▸ hk)] at hy
      obtain ⟨e'', he'', hsignal⟩ := hturn.extends.executes (List.getElem?_eq_getElem hk)
      rw [he'] at he''
      cases he''
      exact hsignal.trans (h.signal (List.getElem?_eq_getElem hk) hy)
    · rw [List.getElem?_append_right (h.length ▸ Nat.le_of_not_lt hk), List.getElem?_singleton] at hy
      split at hy
      · cases hy
        rcases hturn.signal he' with ⟨e, he, -⟩ | hcall
        · exact absurd (List.getElem?_eq_some_iff.mp he).1 hk
        · injection hcall with hsignal
          exact hsignal.symm
      · cases hy

/-- A call of the operation is one for a request whose signal was not aborted. -/
theorem reason_of_started (h : MadeUnderOwn s makers) {ev : RequestExecutor.Event V} {i : Nat} {job' : Job V}
    (hafter : JobAfter executor s t ev i job') (hphase : job'.phase = .calling none)
    (hbefore : ∀ before : Job V, s.jobs[i]? = some before → before.phase = .queued) {x : Nat}
    (hmaker : makers[job'.owner]? = some x) : s.reasons x = none := by
  rcases hafter with ⟨job, hjob, howner, hturn⟩ | ⟨hqueued, -⟩
  · have hqueued := hbefore job hjob
    generalize hphase' : job'.phase = phase at hturn
    rw [hphase'] at hphase
    subst hphase
    have hreason : s.reason (s.signalOf job) = none := by
      generalize hcalling : JobPhase.calling none = phase at hturn
      cases hturn with
      | kept => rw [← hcalling] at hqueued; cases hqueued
      | settled => cases hcalling
      | started _ hreason => exact hreason
      | timedOut => cases hcalling
      | aborted => cases hcalling
    have he := List.getElem?_eq_getElem (h.owner hjob)
    rw [State.signalOf, he, Option.bind_some, h.signal he (howner ▸ hmaker)] at hreason
    exact hreason
  · rw [hqueued] at hphase
    cases hphase

end Makers

/-! ### What an event can do -/

section Turns

variable {options : RunnerOptions Row} {s t : RunnerState Row V} {ev : RunnerEvent Row V}

/-- The requests of a plane after an event, and the calls that made them, each under its own
authority. -/
inductive PlaneTurn (s t : RunnerState Row V) (plane : Plane) : Prop where
  | kept (hrequests : t.requests plane = s.requests plane) (hmakers : t.makers plane = s.makers plane)
  | aborted {y : Nat} (hrequests : t.requests plane = (s.requests plane).abort y .primitive)
      (hmakers : t.makers plane = s.makers plane)
  | turned (executor : RequestExecutor.SocrataRequestExecutor) {ev : RequestExecutor.Event V}
      (hev : ofExecutor ev = true)
      (hturn : RequestExecutor.Turn executor (s.requests plane) ev (t.requests plane))
      (hmakers : t.makers plane = s.makers plane)
  | called {x : Nat} (hrequests : t.requests plane = (s.requests plane).call (some x))
      (hmakers : t.makers plane = s.makers plane ++ [x])

/-- What each event finds and what it does. -/
inductive RunnerTurn (options : RunnerOptions Row) (s : RunnerState Row V) :
    RunnerEvent Row V → RunnerState Row V → Prop where
  | locked {ev : LockEvent} {t : RunnerState Row V} (h : s.lockStep ev = some t) :
      RunnerTurn options s (.lock ev) (t.begin options ev)
  | unleased {x : Nat} {answer : Answer Row} {loss : Option (Nat × String)} {pc : ExecutorState Row} :
      RunnerTurn options s (.step x answer loss)
        { s with executors := Function.update s.executors x pc }
  | stepped {x y : Nat} {answer : Answer Row} {db' : Db Row} {pc' : ExecutorState Row}
      (hphase : (s.lock.calls x).phase = .executing) (hchecked : s.checked x = some y)
      (hstep : executorStep options.config options.rows
        (observe (isAuthorized s.lock y) none (s.executors x) answer) s.db (s.executors x) =
          some (db', pc')) :
      RunnerTurn options s (.step x answer none)
        { s with db := db', executors := Function.update s.executors x pc' }
  | steppedAndLost {x y n : Nat} {reason : String} {answer : Answer Row} {db' : Db Row}
      {pc' : ExecutorState Row} {t : RunnerState Row V}
      (hphase : (s.lock.calls x).phase = .executing) (hchecked : s.checked x = some y)
      (hstep : executorStep options.config options.rows
        (observe (isAuthorized s.lock y) (some (n, reason)) (s.executors x) answer) s.db
          (s.executors x) = some (db', pc'))
      (hloss : { s with db := db', executors := Function.update s.executors x pc' }.lockStep
        (.lossNoticed y reason) = some t) :
      RunnerTurn options s (.step x answer (some (n, reason))) t
  | requestedData {x : Nat} : RunnerTurn options s (.request x .data) (s.call x .data x)
  | requestedMetadata {x y : Nat} (hlease : s.lock.lease = some y) :
      RunnerTurn options s (.request x .metadata) (s.call x .metadata y)
  | turned {plane : Plane} {ev : RequestExecutor.Event V} {u : RequestExecutor.State V}
      (hev : ofExecutor ev = true)
      (hturn : RequestExecutor.Turn (options.requestExecutors plane) (s.requests plane) ev u) :
      RunnerTurn options s (.turn plane ev)
        { s with requests := Function.update s.requests plane u }
  | other {db : Db Row} : RunnerTurn options s (.database db) { s with db := db }

theorem runnerTurn_of_next (h : nextRunner options s ev = some t) : RunnerTurn options s ev t := by
  cases ev with
  | lock ev =>
      rw [nextRunner, Option.ite_none_right_eq_some] at h
      obtain ⟨u, hu, rfl⟩ := Option.map_eq_some_iff.mp h.2
      exact .locked hu
  | step x answer loss =>
      rw [nextRunner, Option.ite_none_right_eq_some] at h
      obtain ⟨hphase, h⟩ := h
      split at h
      · cases h
        exact .unleased
      · rename_i y hchecked
        split at h
        · cases h
        · rename_i db' pc' hstep
          cases loss with
          | none =>
              cases h
              exact .stepped hphase hchecked hstep
          | some loss => exact .steppedAndLost hphase hchecked hstep h
  | request x plane =>
      cases plane with
      | data =>
          rw [nextRunner, Option.ite_none_right_eq_some] at h
          cases h.2
          exact .requestedData
      | metadata =>
          rw [nextRunner, Option.ite_none_right_eq_some] at h
          obtain ⟨-, h⟩ := h
          split at h
          · cases h
          · rename_i y hlease
            rw [Option.ite_none_right_eq_some] at h
            cases h.2
            exact .requestedMetadata hlease
  | turn plane ev =>
      rw [nextRunner, Option.ite_none_right_eq_some] at h
      obtain ⟨u, hu, rfl⟩ := Option.map_eq_some_iff.mp h.2
      exact .turned h.1 (RequestExecutor.turn_of_next hu)
  | database db =>
      cases h
      exact .other

theorem lockStep_lock {ev : LockEvent} (h : s.lockStep ev = some t) :
    nextLock s.lock ev = some t.lock ∧ t.db = s.db ∧ t.makers = s.makers ∧
      (t.requests = s.requests ∨
        ∃ y, t.requests = fun plane => (s.requests plane).abort y .primitive) := by
  obtain ⟨lock, hlock, rfl⟩ := Option.map_eq_some_iff.mp h
  refine ⟨hlock, rfl, rfl, ?_⟩
  cases ev with
  | lossNoticed y reason =>
      simp only
      split
      · exact .inr ⟨y, rfl⟩
      · exact .inl rfl
  | _ => exact .inl rfl

theorem begin_frame (options : RunnerOptions Row) (s : RunnerState Row V) (ev : LockEvent) :
    (s.begin options ev).lock = s.lock ∧ (s.begin options ev).db = s.db ∧
      (s.begin options ev).requests = s.requests ∧ (s.begin options ev).makers = s.makers := by
  cases ev <;> exact ⟨rfl, rfl, rfl, rfl⟩

/-- The lock service takes a step, or stays as it is. -/
theorem RunnerTurn.lock (h : RunnerTurn options s ev t) :
    t.lock = s.lock ∨ ∃ lev, nextLock s.lock lev = some t.lock := by
  cases h with
  | @locked ev u h =>
      rw [(begin_frame options u ev).1]
      exact .inr ⟨ev, (lockStep_lock h).1⟩
  | unleased => exact .inl rfl
  | stepped => exact .inl rfl
  | steppedAndLost _ _ _ hloss => exact .inr ⟨_, (lockStep_lock hloss).1⟩
  | requestedData => exact .inl rfl
  | requestedMetadata => exact .inl rfl
  | turned => exact .inl rfl
  | other => exact .inl rfl

theorem planeTurn_of_lockStep {u : RunnerState Row V} {lev : LockEvent} (h : u.lockStep lev = some t)
    (hrequests : u.requests = s.requests) (hmakers : u.makers = s.makers) (plane : Plane) :
    PlaneTurn s t plane := by
  obtain ⟨-, -, hmakers', hrequests' | ⟨y, hrequests'⟩⟩ := lockStep_lock h
  · exact .kept (by rw [hrequests', hrequests]) (by rw [hmakers', hmakers])
  · exact .aborted (by rw [hrequests', hrequests]) (by rw [hmakers', hmakers])

theorem planeTurn_call (x : Nat) (called plane : Plane) : PlaneTurn s (s.call x called x) plane := by
  by_cases hplane : plane = called
  · subst hplane
    exact .called (Function.update_self ..) (Function.update_self ..)
  · exact .kept (Function.update_of_ne hplane ..) (Function.update_of_ne hplane ..)

/-- **What an event does to the requests of a plane.** -/
theorem RunnerTurn.plane (h : RunnerTurn options s ev t) (hown : OwnAuthority s ev) (plane : Plane) :
    PlaneTurn s t plane := by
  cases h with
  | @locked ev u h =>
      obtain ⟨-, -, hrequests, hmakers⟩ := begin_frame options u ev
      cases planeTurn_of_lockStep (s := s) h rfl rfl plane with
      | kept h h' => exact .kept (by rw [hrequests, h]) (by rw [hmakers, h'])
      | aborted h h' => exact .aborted (by rw [hrequests, h]) (by rw [hmakers, h'])
      | turned executor hev hturn h' =>
          exact .turned executor hev (by rw [hrequests]; exact hturn) (by rw [hmakers, h'])
      | called h h' => exact .called (by rw [hrequests, h]) (by rw [hmakers, h'])
  | unleased => exact .kept rfl rfl
  | stepped => exact .kept rfl rfl
  | steppedAndLost _ _ _ hloss => exact planeTurn_of_lockStep (s := s) hloss rfl rfl plane
  | requestedData => exact planeTurn_call _ _ _
  | requestedMetadata hlease =>
      cases hown _ hlease
      exact planeTurn_call _ _ _
  | @turned other ev u hev hturn =>
      by_cases hplane : plane = other
      · subst hplane
        refine .turned (options.requestExecutors plane) hev ?_ rfl
        show RequestExecutor.Turn _ _ _ (Function.update s.requests plane u plane)
        rw [Function.update_self]
        exact hturn
      · exact .kept (Function.update_of_ne hplane ..) rfl
  | other => exact .kept rfl rfl

end Turns

/-! ### The invariant -/

section Invariant

variable {options : RunnerOptions Row} {s t : RunnerState Row V} {ev : RunnerEvent Row V}

/-- Leases are owned and report what became of them; an authority that was revoked has aborted its
requests, which are those of its own call. -/
structure RunnerInvariant (s : RunnerState Row V) : Prop where
  owned : Owned s.lock
  reports : ∀ y lease, (s.lock.calls y).lease = some lease → Reports lease
  aborted : ∀ y, isRevoked s.lock y = true → ∀ plane, (s.requests plane).reasons y ≠ none
  made : ∀ plane, MadeUnderOwn (s.requests plane) (s.makers plane)

theorem runnerInvariant_initial : RunnerInvariant (RunnerState.initial : RunnerState Row V) where
  owned := owned_initial
  reports y lease h := by cases h
  aborted y h := by cases h
  made plane := madeUnderOwn_initial

/-- The calls of a plane go on, and what was aborted stays so. -/
theorem PlaneTurn.extends {plane : Plane} (h : PlaneTurn s t plane) :
    RequestExecutor.Extends (s.requests plane) (t.requests plane) := by
  cases h with
  | kept hrequests => rw [hrequests]; exact .refl _
  | aborted hrequests => rw [hrequests]; exact RequestExecutor.extends_abort _
  | turned _ _ hturn => exact hturn.extends
  | @called x hrequests =>
      have hturn : RequestExecutor.Turn RequestExecutor.defaultExecutor (s.requests plane)
        (.call (some x)) ((s.requests plane).call (some x)) := .called _
      rw [hrequests]
      exact hturn.extends

theorem PlaneTurn.made {plane : Plane} (h : PlaneTurn s t plane)
    (hmade : MadeUnderOwn (s.requests plane) (s.makers plane)) :
    MadeUnderOwn (t.requests plane) (t.makers plane) := by
  cases h with
  | kept hrequests hmakers => rw [hrequests, hmakers]; exact hmade
  | aborted hrequests hmakers => rw [hrequests, hmakers]; exact hmade.abort _ _
  | turned _ hev hturn hmakers => rw [hmakers]; exact hmade.turn hev hturn
  | called hrequests hmakers => rw [hrequests, hmakers]; exact hmade.call _

/-- The lock service takes a step under which the leases of executing calls stay owned. -/
theorem RunnerTurn.lockOwned (h : RunnerTurn options s ev t) (hown : OwnAuthority s ev)
    (howned : Owned s.lock) : Owned t.lock := by
  cases h with
  | @locked ev u h =>
      rw [(begin_frame options u ev).1]
      exact howned.step hown (lockStep_lock h).1
  | unleased => exact howned
  | stepped => exact howned
  | steppedAndLost _ _ _ hloss => exact howned.step (fun _ _ hev => by cases hev) (lockStep_lock hloss).1
  | requestedData => exact howned
  | requestedMetadata => exact howned
  | turned => exact howned
  | other => exact howned

/-- A session that is lost revokes its authority, and that aborts the requests. -/
theorem aborted_of_lockStep {lev : LockEvent} (h : s.lockStep lev = some t) {y : Nat}
    (haborted : isRevoked s.lock y = true → ∀ plane, (s.requests plane).reasons y ≠ none)
    (hrevoked : isRevoked t.lock y = true) (plane : Plane) : (t.requests plane).reasons y ≠ none := by
  by_cases hbefore : isRevoked s.lock y = true
  · -- it was revoked before
    exact (planeTurn_of_lockStep (s := s) h rfl rfl plane).extends.reasons (haborted hbefore plane)
  · rcases (leaseTurn_of_nextLock (lockStep_lock h).1 y).revokes hrevoked with hs | ⟨reason, rfl⟩
    · exact absurd hs hbefore
    · obtain ⟨lock, hlock, rfl⟩ := Option.map_eq_some_iff.mp h
      have hnew : isRevoked s.lock y = false ∧ isRevoked lock y = true :=
        ⟨Bool.not_eq_true _ ▸ hbefore, hrevoked⟩
      simp only [if_pos hnew]
      show (if y = y then some RequestExecutor.ThrownValue.primitive else _) ≠ none
      rw [if_pos rfl]
      exact Option.some_ne_none _

theorem RunnerTurn.aborted (h : RunnerTurn options s ev t) {y : Nat}
    (haborted : isRevoked s.lock y = true → ∀ plane, (s.requests plane).reasons y ≠ none)
    (hown : OwnAuthority s ev) (hrevoked : isRevoked t.lock y = true) (plane : Plane) :
    (t.requests plane).reasons y ≠ none := by
  have hplane := h.plane hown plane
  cases h with
  | @locked ev u h =>
      obtain ⟨hlock, -, hrequests, -⟩ := begin_frame options u ev
      rw [hlock] at hrevoked
      rw [hrequests]
      exact aborted_of_lockStep h haborted hrevoked plane
  | steppedAndLost _ _ _ hloss => exact aborted_of_lockStep hloss haborted hrevoked plane
  | unleased => exact haborted hrevoked plane
  | stepped => exact haborted hrevoked plane
  | requestedData => exact hplane.extends.reasons (haborted hrevoked plane)
  | requestedMetadata => exact hplane.extends.reasons (haborted hrevoked plane)
  | turned => exact hplane.extends.reasons (haborted hrevoked plane)
  | other => exact haborted hrevoked plane

/-- **Every event keeps the invariant**, where an execution finds no authority but its own. -/
theorem RunnerInvariant.next (h : RunnerInvariant s) (hown : OwnAuthority s ev)
    (hturn : RunnerTurn options s ev t) : RunnerInvariant t where
  owned := hturn.lockOwned hown h.owned
  reports y := by
    rcases hturn.lock with hlock | ⟨lev, hlock⟩
    · rw [hlock]
      exact h.reports y
    · exact Reports.turn (leaseTurn_of_nextLock hlock y) (h.reports y)
  aborted y hrevoked := hturn.aborted (h.aborted y) hown hrevoked
  made plane := (hturn.plane hown plane).made (h.made plane)

end Invariant

/-! ### Fail-stop -/

section FailStop

variable {options : RunnerOptions Row} {s t : RunnerState Row V} {ev : RunnerEvent Row V} {x : Nat}

/-- What holds of a step from `s` to `t` for a call, when `r` was reached before. -/
structure FailStop (r s : RunnerState Row V) (ev : RunnerEvent Row V) (t : RunnerState Row V)
    (x : Nat) : Prop where
  writesNoStatus : Lost r x → ∀ answer loss, ev = .step x answer loss → ¬ StatusWrites s.db t.db
  startsNoRequest : Lost r x → ¬ StartsRequest s t x
  staysReported : Reported r x → Reported t x
  checksBeforeLoss : ∀ answer n reason, ev = .step x answer (some (n, reason)) →
    StatusWrites s.db t.db → (s.executors x).lastCheck < n

/-- The authority of a call reports loss or release, and its requests were told so. -/
structure Silenced (s : RunnerState Row V) (x : Nat) : Prop where
  reported : Reported s x
  aborted : ∀ plane, (s.requests plane).reasons x ≠ none

theorem isAuthorized_of_reported (h : Reported s x) : isAuthorized s.lock x = false := by
  obtain ⟨lease, hlease, hauthority⟩ := h
  rw [isAuthorized, hlease, Option.any_some, hauthority]

/-- The authority of an execution whose lease was not released has lost its session. -/
theorem RunnerInvariant.silenced (hI : RunnerInvariant s) (h : Lost s x) : Silenced s x := by
  obtain ⟨lease, hlease, ⟨-, hstarted⟩, -⟩ := (hI.owned x).executing h.1
  have hauthority : lease.authority.authorized = false := by
    have hlost := h.2
    rw [isAuthorized, hlease, Option.any_some] at hlost
    exact hlost
  refine ⟨⟨lease, hlease, hauthority⟩, hI.aborted x ?_⟩
  rw [isRevoked, hlease, Option.any_some]
  exact (hI.reports x lease hlease).revoked hauthority hstarted

theorem Reported.next (hI : RunnerInvariant s) (hturn : RunnerTurn options s ev t)
    (h : Reported s x) : Reported t x := by
  rcases hturn.lock with hlock | ⟨lev, hlock⟩
  · rw [Reported, hlock]
    exact h
  · obtain ⟨lease, hlease, hauthority⟩ := h
    exact (leaseTurn_of_nextLock hlock x).unauthorized hI.owned hlease hauthority

theorem Silenced.next (hI : RunnerInvariant s) (hown : OwnAuthority s ev)
    (hturn : RunnerTurn options s ev t) (h : Silenced s x) : Silenced t x :=
  ⟨h.reported.next hI hturn, fun plane => (hturn.plane hown plane).extends.reasons (h.aborted plane)⟩

/-- No request of a call that was told so starts: none that is made, that is queued, or that is
retried. -/
theorem Silenced.not_startsRequest (hI : RunnerInvariant s) (hplane : ∀ plane, PlaneTurn s t plane)
    (h : Silenced s x) : ¬ StartsRequest s t x := by
  rintro ⟨plane, i, job, hjob, hphase, hmaker, hbefore⟩
  have hmade := hI.made plane
  refine h.aborted plane ?_
  cases hplane plane with
  | kept hrequests =>
      rw [hrequests] at hjob
      rw [hbefore job hjob] at hphase
      cases hphase
  | aborted hrequests hmakers =>
      rw [hrequests] at hjob
      rw [hmakers] at hmaker
      have hafter : RequestExecutor.JobAfter RequestExecutor.defaultExecutor _ _ _ _ _ :=
        RequestExecutor.jobAfter_of_abort _ _ hjob
      exact reason_of_started hmade hafter hphase hbefore hmaker
  | turned _ _ hturn hmakers =>
      rw [hmakers] at hmaker
      exact reason_of_started hmade (hturn.job hjob) hphase hbefore hmaker
  | @called y hrequests hmakers =>
      have hturn : RequestExecutor.Turn RequestExecutor.defaultExecutor (s.requests plane)
        (.call (some y)) ((s.requests plane).call (some y)) := .called _
      rw [hrequests] at hjob
      rw [hmakers] at hmaker
      have hafter := hturn.job hjob
      refine reason_of_started hmade hafter hphase hbefore ?_
      rcases hafter with ⟨before, hs, howner, -⟩ | ⟨hqueued, -⟩
      · have hlt := hmade.length ▸ hmade.owner hs
        rw [howner, List.getElem?_append_left hlt, ← howner] at hmaker
        exact hmaker
      · rw [hqueued] at hphase
        cases hphase

theorem lastCheckPasses_observe_false (loss : Option (Nat × String)) (pc : ExecutorState Row)
    (a : Answer Row) : lastCheckPasses (observe false loss pc a) pc = false := by
  cases pc <;> rfl

theorem lastCheck_lt (authorized : Bool) (n : Nat) (reason : String) (pc : ExecutorState Row)
    (a : Answer Row)
    (h : lastCheckPasses (observe authorized (some (n, reason)) pc a) pc = true) : pc.lastCheck < n := by
  cases pc <;> simp_all [lastCheckPasses, observe, checkPasses, ExecutorState.lastCheck]

/-- A step of an execution whose authority reports loss or release writes no status. -/
theorem Reported.not_statusWrites {answer : Answer Row} {loss : Option (Nat × String)}
    (hown : OwnAuthority s (.step x answer loss))
    (hturn : RunnerTurn options s (.step x answer loss) t) (h : Reported s x) :
    ¬ StatusWrites s.db t.db := by
  intro hwrites
  cases hturn with
  | unleased => exact not_statusWrites_self _ hwrites
  | stepped _ hchecked hstep =>
      cases hown _ hchecked
      have hpasses := executorStep_statusWrites hstep hwrites
      rw [isAuthorized_of_reported h, lastCheckPasses_observe_false] at hpasses
      cases hpasses
  | steppedAndLost _ hchecked hstep hloss =>
      cases hown _ hchecked
      rw [(lockStep_lock hloss).2.1] at hwrites
      have hpasses := executorStep_statusWrites hstep hwrites
      rw [isAuthorized_of_reported h, lastCheckPasses_observe_false] at hpasses
      cases hpasses

/-- A step during which the authority is lost has made its last check before, if it writes a status. -/
theorem RunnerTurn.lastCheck_lt {answer : Answer Row} {n : Nat} {reason : String}
    (hturn : RunnerTurn options s (.step x answer (some (n, reason))) t)
    (hwrites : StatusWrites s.db t.db) : (s.executors x).lastCheck < n := by
  cases hturn with
  | unleased => exact absurd hwrites (not_statusWrites_self _)
  | steppedAndLost _ _ hstep hloss =>
      rw [(lockStep_lock hloss).2.1] at hwrites
      exact RunnerService.lastCheck_lt _ _ _ _ _ (executorStep_statusWrites hstep hwrites)

theorem runnerInvariant_of_steps (h : Steps (nextRunner options) OwnAuthority .initial s) :
    RunnerInvariant s :=
  h.invariant (fun hI hown hnext => hI.next hown (runnerTurn_of_next hnext)) runnerInvariant_initial

/-- **Fail-stop**: in the runs in which an execution finds no authority but its own and no other call
releases its lease, one whose authority is lost writes no status and starts no request. -/
theorem fail_stop (options : RunnerOptions Row) (r s t : RunnerState Row V) (ev : RunnerEvent Row V)
    (x : Nat) (hbefore : Steps (nextRunner options) OwnAuthority .initial r)
    (hafter : Steps (nextRunner options) OwnAuthority r s) (hown : OwnAuthority s ev)
    (hnext : nextRunner options s ev = some t) : FailStop r s ev t x := by
  have hI := runnerInvariant_of_steps hbefore
  have hturn := runnerTurn_of_next hnext
  have hIs := runnerInvariant_of_steps (hbefore.trans hafter)
  have hsilenced : Lost r x → Silenced s x := by
    intro hlost
    have hboth : RunnerInvariant s ∧ Silenced s x := by
      refine hafter.invariant (I := fun u => RunnerInvariant u ∧ Silenced u x) ?_ ⟨hI, hI.silenced hlost⟩
      intro u v ev' hu hown' hnext'
      have hturn' := runnerTurn_of_next hnext'
      exact ⟨hu.1.next hown' hturn', hu.2.next hu.1 hown' hturn'⟩
    exact hboth.2
  have hreported : Reported r x → Reported s x := by
    intro hreported
    have hboth : RunnerInvariant s ∧ Reported s x := by
      refine hafter.invariant (I := fun u => RunnerInvariant u ∧ Reported u x) ?_ ⟨hI, hreported⟩
      intro u v ev' hu hown' hnext'
      have hturn' := runnerTurn_of_next hnext'
      exact ⟨hu.1.next hown' hturn', hu.2.next hu.1 hturn'⟩
    exact hboth.2
  refine ⟨?_, ?_, fun h => (hreported h).next hIs hturn, ?_⟩
  · rintro hlost answer loss rfl
    exact (hsilenced hlost).reported.not_statusWrites hown hturn
  · intro hlost
    exact (hsilenced hlost).not_startsRequest hIs (hturn.plane hown)
  · rintro answer n reason rfl hwrites
    exact hturn.lastCheck_lt hwrites

/-! ### Runs -/

/-- A runner whose executions are scheduled, with the default request executors. -/
def sampleOptions : RunnerOptions NormalizedEcbViolation where
  config := smallConfig
  rows := plainService
  requestExecutors := fun _ => RequestExecutor.defaultExecutor
  triggerType := fun _ => .scheduled

/-- A call that is granted the lock. -/
def acquire (x : Nat) : List (RunnerEvent NormalizedEcbViolation Unit) :=
  [.lock (.execute x), .lock (.tryLock x), .lock (.answer x)]

/-- The lock session of a call is lost. -/
def loseSession (x : Nat) : List (RunnerEvent NormalizedEcbViolation Unit) :=
  [.lock (.sessionDies x), .lock (.lossNoticed x "client ended unexpectedly")]

/-- A step of an execution whose source does not change and has no rows. -/
def quietStep (x : Nat) : RunnerEvent NormalizedEcbViolation Unit := .step x (quietAnswer 7 100 []) none

/-- An execution that loses its session before its first step. -/
theorem fail_stop_first_step :
    ∃ r t, Steps (nextRunner sampleOptions) OwnAuthority .initial r ∧ Lost r 0 ∧
      nextRunner sampleOptions r (quietStep 0) = some t ∧ FailStop r r (quietStep 0) t 0 := by
  have hok : RunOk (nextRunner sampleOptions) OwnAuthority .initial (acquire 0 ++ loseSession 0) := by
    refine ⟨nofun, fun t ht => ?_⟩
    cases ht
    refine ⟨nofun, fun t ht => ?_⟩
    cases ht
    refine ⟨nofun, fun t ht => ?_⟩
    cases ht
    refine ⟨nofun, fun t ht => ?_⟩
    cases ht
    exact ⟨nofun, fun _ _ => trivial⟩
  have hsteps := run_steps hok rfl
  refine ⟨_, _, hsteps, ⟨rfl, rfl⟩, rfl, ?_⟩
  exact fail_stop sampleOptions _ _ _ _ _ hsteps .refl (fun y hy => (Option.some.inj hy).symm) rfl

/-- An execution whose session is lost while its end watermark is persisted: the second call throws and
releases the lease, the third acquires the lock, and the first publishes under its authority. -/
theorem publishes_under_other_authority :
    ¬ ∀ (r s t : RunnerState NormalizedEcbViolation Unit)
        (ev : RunnerEvent NormalizedEcbViolation Unit) (x : Nat),
      Steps (nextRunner sampleOptions) (fun _ _ => True) .initial r →
        Steps (nextRunner sampleOptions) (fun _ _ => True) r s →
          nextRunner sampleOptions s ev = some t → FailStop r s ev t x := by
  intro hall
  have hstop : ∀ r s t, run (nextRunner sampleOptions) .initial
        (acquire 0 ++ List.replicate 11 (quietStep 0) ++ loseSession 0) = some r →
      run (nextRunner sampleOptions) r ([.lock (.execute 1), .lock (.cleanup 1),
        .lock (.endSession 0), .lock (.released 1)] ++ acquire 2) = some s →
      nextRunner sampleOptions s (quietStep 0) = some t → FailStop r s (quietStep 0) t 0 :=
    fun r s t hr hs ht => hall r s t _ 0 (run_steps (runOk_trivial _ _) hr)
      (run_steps (runOk_trivial _ _) hs) ht
  refine (hstop _ _ _ rfl rfl rfl).writesNoStatus ⟨rfl, rfl⟩ _ _ rfl ?_
  refine .run (show Table.find _ 7 = some _ from rfl) (fun hstatus => ?_) fun hbefore => ?_
  · cases hstatus
  · change some IngestionRunStatus.running = some .completed at hbefore
    cases hbefore

end FailStop

end RunnerService

end NycPropertyResolver
