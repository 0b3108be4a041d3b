import NycPropertyResolver.Library.Steps

/-!
# Ingestion — the lock and its leases

`ingestion-lock.service.ts` and the `finally` clause of `ingestion-runner.service.ts`: calls of `execute`
of one runner share one lock service, which keeps the lease of the call that acquired last.  Every
call ends with a `release` of that lease, whichever call acquired it: also one that was refused the
lock, or that threw because the service had a lease.  So a call keeps its lease while it executes
exactly in the runs in which no other call gets to its `finally` clause meanwhile (`keepsLease_iff`).
-/

namespace NycPropertyResolver

open Library

namespace LockService

/-! ### Authorities and leases -/

/-- `IngestionExecutionAuthority`; `signal` is the reason its signal was aborted with. -/
structure IngestionExecutionAuthority where
  authorized : Bool
  revoked : Bool
  signal : Option String
  deriving DecidableEq

/-- An authority in force. -/
def IngestionExecutionAuthority.new : IngestionExecutionAuthority := ⟨true, false, none⟩

/-- `revoke`: the first reason is the one that aborts the signal. -/
def IngestionExecutionAuthority.revoke (authority : IngestionExecutionAuthority) (reason : String) :
    IngestionExecutionAuthority :=
  if authority.revoked then authority else ⟨false, true, some reason⟩

/-- An intentional release does not abort work. -/
def IngestionExecutionAuthority.deactivate (authority : IngestionExecutionAuthority) :
    IngestionExecutionAuthority :=
  { authority with authorized := false }

/-- `IngestionLockLease`: whether it is held, whether its cleanup has begun, and its authority. -/
structure IngestionLockLease where
  active : Bool
  cleanupStarted : Bool
  authority : IngestionExecutionAuthority
  deriving DecidableEq

/-- A lease that was just acquired. -/
def IngestionLockLease.new : IngestionLockLease := ⟨true, false, .new⟩

/-- `release`, up to its first wait; the waits that follow are those of `finishRelease`. -/
def IngestionLockLease.release (lease : IngestionLockLease) : IngestionLockLease :=
  if lease.cleanupStarted ∨ lease.active = false then lease
  else { lease with cleanupStarted := true, authority := lease.authority.deactivate }

/-- `handleUnexpectedSessionLoss`: a lease that is being released is left alone. -/
def IngestionLockLease.handleUnexpectedSessionLoss (lease : IngestionLockLease) (reason : String) :
    IngestionLockLease :=
  if lease.active = false ∨ lease.cleanupStarted then lease
  else { lease with authority := lease.authority.revoke reason }

/-! ### States -/

/-- Where a call of `execute` stands.  `acquiring`: before the answer of `pg_try_advisory_lock`, which
is there once the database has run it; `refused`: another session has the lock; `executing`: under the
lease it acquired, up to the `finally` clause; `unwinding`: on the way to that clause without a lease;
`releasing`: in it, for the lease of a call. -/
inductive CallPhase where
  | notCalled
  | acquiring (granted : Option Bool)
  | refused
  | executing
  | unwinding
  | releasing (lease : Nat)
  | finished
  deriving DecidableEq

/-- A call of `execute`, the session of its client, and the lease it acquired. -/
structure LockCall where
  phase : CallPhase
  sessionAlive : Bool
  lease : Option IngestionLockLease
  deriving DecidableEq

/-- The session that has the advisory lock: that of a call, or one of another process. -/
inductive LockHolder where
  | session (call : Nat)
  | foreign
  deriving DecidableEq

/-- `lease` is `this.lease`, by the call that acquired it. -/
structure LockState where
  calls : Nat → LockCall
  lease : Option Nat
  lock : Option LockHolder

/-- Nothing has been called, and no session has the lock. -/
def LockState.initial : LockState := ⟨fun _ => ⟨.notCalled, false, none⟩, none, none⟩

/-- The state with the call `x` changed. -/
def LockState.modifyCall (s : LockState) (x : Nat) (f : LockCall → LockCall) : LockState :=
  { s with calls := fun y => if y = x then f (s.calls y) else s.calls y }

/-- The end of a session, which gives up the lock. -/
def LockState.endSession (s : LockState) (x : Nat) : LockState :=
  { s.modifyCall x fun c => { c with sessionAlive := false } with
    lock := if s.lock = some (.session x) then none else s.lock }

/-! ### Steps -/

/-- What happens to the service: a step of a call, of its session or of the release of its lease, or
another process that takes the lock. -/
inductive LockEvent where
  | execute (call : Nat)
  | tryLock (call : Nat)
  | answer (call : Nat)
  | acquireFails (call : Nat)
  | refusalEnds (call : Nat)
  | sessionDies (call : Nat)
  | lossNoticed (call : Nat) (reason : String)
  | cleanup (call : Nat)
  | unlock (lease : Nat)
  | endSession (lease : Nat)
  | released (call : Nat)
  | foreign
  deriving DecidableEq

/-- The head of `acquire`: a service that has a lease throws. -/
def LockState.beginAcquire (s : LockState) (x : Nat) : LockState :=
  match s.lease with
  | some _ => s.modifyCall x fun c => { c with phase := .unwinding }
  | none => s.modifyCall x fun c => { c with phase := .acquiring none, sessionAlive := true }

/-- `pg_try_advisory_lock`. -/
def LockState.tryAdvisoryLock (s : LockState) (x : Nat) : LockState :=
  { s.modifyCall x fun c => { c with phase := .acquiring (some s.lock.isNone) } with
    lock := if s.lock = none then some (.session x) else s.lock }

/-- The rest of `acquire`. -/
def LockState.finishAcquire (s : LockState) (x : Nat) (granted : Bool) : LockState :=
  if granted then
    { s.modifyCall x fun c => { c with phase := .executing, lease := some .new } with lease := some x }
  else s.modifyCall x fun c => { c with phase := .refused }

/-- The `finally` clause of a call: `release` of the lease the service has. -/
def LockState.release (s : LockState) (x : Nat) : LockState :=
  match s.lease with
  | none => s.modifyCall x fun c => { c with phase := .finished }
  | some l =>
    (s.modifyCall l fun c => { c with lease := c.lease.map (·.release) }).modifyCall x fun c =>
      { c with phase := .releasing l }

/-- The end of `release`. -/
def LockState.finishRelease (s : LockState) (x l : Nat) : LockState :=
  { s.modifyCall x fun c => { c with phase := .finished } with
    lease := if s.lease = some l then none else s.lease }

/-- The cleanup of a lease is under way. -/
def LockCall.cleaningUp (c : LockCall) : Bool :=
  c.lease.any fun lease => lease.cleanupStarted && lease.active

/-- One step of the calls, of their sessions or of other processes; `none` where the event cannot
happen. -/
def nextLock (s : LockState) : LockEvent → Option LockState
  | .execute x => if (s.calls x).phase = .notCalled then some (s.beginAcquire x) else none
  | .tryLock x =>
    if (s.calls x).phase = .acquiring none ∧ (s.calls x).sessionAlive then some (s.tryAdvisoryLock x)
    else none
  | .answer x =>
    match (s.calls x).phase with
    | .acquiring (some granted) => some (s.finishAcquire x granted)
    | _ => none
  | .acquireFails x =>
    match (s.calls x).phase with
    | .acquiring _ => some ((s.endSession x).modifyCall x fun c => { c with phase := .unwinding })
    | _ => none
  | .refusalEnds x =>
    if (s.calls x).phase = .refused then
      some ((s.endSession x).modifyCall x fun c => { c with phase := .unwinding })
    else none
  | .sessionDies x => if (s.calls x).sessionAlive then some (s.endSession x) else none
  | .lossNoticed x reason =>
    if (s.calls x).sessionAlive = false then
      some (s.modifyCall x fun c =>
        { c with lease := c.lease.map (·.handleUnexpectedSessionLoss reason) })
    else none
  | .cleanup x =>
    match (s.calls x).phase with
    | .executing | .unwinding => some (s.release x)
    | _ => none
  | .unlock l =>
    if (s.calls l).cleaningUp then
      some { s with lock := if s.lock = some (.session l) then none else s.lock }
    else none
  | .endSession l =>
    if (s.calls l).cleaningUp then
      some ((s.endSession l).modifyCall l fun c =>
        { c with lease := c.lease.map fun lease => { lease with active := false } })
    else none
  | .released x =>
    match (s.calls x).phase with
    | .releasing l =>
      if (s.calls l).lease.all (!·.active) then some (s.finishRelease x l) else none
    | _ => none
  | .foreign =>
    match s.lock with
    | none => some { s with lock := some .foreign }
    | some .foreign => some { s with lock := none }
    | some (.session _) => none

/-! ### Ownership -/

/-- `release` of the lease has not begun. -/
def IngestionLockLease.unreleased (lease : IngestionLockLease) : Prop :=
  lease.active = true ∧ lease.cleanupStarted = false

/-- A call that executes under the lock has its lease, not released, and while its session is there its
authority and the advisory lock. -/
def KeepsLease (s : LockState) : Prop :=
  ∀ x, (s.calls x).phase = .executing → ∃ lease, (s.calls x).lease = some lease ∧ lease.unreleased ∧
    ((s.calls x).sessionAlive = true →
      lease.authority.authorized = true ∧ s.lock = some (.session x))

/-- The `finally` clause of a call runs when the service has no lease, or that of this call, or one of
a call that executes no more. -/
def OwnCleanup (s : LockState) (ev : LockEvent) : Prop :=
  ∀ x l, ev = .cleanup x → s.lease = some l → l ≠ x → (s.calls l).phase ≠ .executing

/-- A call that has its answer and does not execute. -/
def CallPhase.isOut : CallPhase → Bool
  | .refused | .unwinding | .releasing _ | .finished => true
  | _ => false

/-- What a call has of the lock: its lease and the lock while it executes; the lock, and no lease yet,
while the answer that grants it is on its way. -/
structure OwnedBy (c : LockCall) (lock : Option LockHolder) (x : Nat) : Prop where
  unleased : c.phase = .notCalled ∨ (∃ granted, c.phase = .acquiring granted) → c.lease = none
  executing : c.phase = .executing → ∃ lease, c.lease = some lease ∧ lease.unreleased ∧
    (c.sessionAlive = true → lease.authority.authorized = true ∧ lock = some (.session x))
  granted : c.phase = .acquiring (some true) → c.sessionAlive = true → lock = some (.session x)

/-- Every call has of the lock what it is due. -/
def Owned (s : LockState) : Prop := ∀ x, OwnedBy (s.calls x) s.lock x

theorem Owned.keepsLease {s : LockState} (h : Owned s) : KeepsLease s := fun x => (h x).executing

/-- A call stays as it is, and so does its lock. -/
theorem OwnedBy.mono {c : LockCall} {lock lock' : Option LockHolder} {x : Nat} (h : OwnedBy c lock x)
    (hlock : lock = some (.session x) → lock' = some (.session x)) : OwnedBy c lock' x where
  unleased := h.unleased
  executing hphase := by
    obtain ⟨lease, hlease, hunreleased, hheld⟩ := h.executing hphase
    exact ⟨lease, hlease, hunreleased, fun halive => ⟨(hheld halive).1, hlock (hheld halive).2⟩⟩
  granted hphase halive := hlock (h.granted hphase halive)

/-- A call that is out has nothing to keep. -/
theorem ownedBy_of_isOut {c : LockCall} {lock : Option LockHolder} {x : Nat}
    (h : c.phase.isOut = true) : OwnedBy c lock x where
  unleased hphase := by
    rcases hphase with hphase | ⟨granted, hphase⟩
    · rw [hphase] at h
      cases h
    · rw [hphase] at h
      cases h
  executing hphase := by rw [hphase] at h; cases h
  granted hphase := by rw [hphase] at h; cases h

/-- Its session is gone. -/
theorem OwnedBy.dead {c c' : LockCall} {lock lock' : Option LockHolder} {x : Nat}
    (h : OwnedBy c lock x) (hphase : c'.phase = c.phase) (hdead : c'.sessionAlive = false)
    (f : IngestionLockLease → IngestionLockLease) (hlease : c'.lease = c.lease.map f)
    (hf : ∀ lease, lease.unreleased → (f lease).unreleased) : OwnedBy c' lock' x where
  unleased hfresh := by rw [hlease, h.unleased (hphase ▸ hfresh), Option.map_none]
  executing hexecuting := by
    obtain ⟨lease, hl, hunreleased, -⟩ := h.executing (hphase ▸ hexecuting)
    refine ⟨f lease, by rw [hlease, hl, Option.map_some], hf lease hunreleased, fun halive => ?_⟩
    rw [hdead] at halive
    cases halive
  granted _ halive := by
    rw [hdead] at halive
    cases halive

theorem calls_modifyCall (s : LockState) (x y : Nat) (f : LockCall → LockCall) :
    (s.modifyCall x f).calls y = if y = x then f (s.calls y) else s.calls y := rfl

/-- One call goes on, and the others keep what they have. -/
theorem Owned.modifyCall {s t : LockState} (h : Owned s) (x : Nat) (f : LockCall → LockCall)
    (hcalls : t.calls = (s.modifyCall x f).calls)
    (hlock : ∀ y, y ≠ x → s.lock = some (.session y) → t.lock = some (.session y))
    (hx : OwnedBy (f (s.calls x)) t.lock x) : Owned t := by
  intro y
  rw [hcalls, calls_modifyCall]
  by_cases hy : y = x
  · rw [if_pos hy, hy]
    exact hx
  · rw [if_neg hy]
    exact (h y).mono (hlock y hy)

/-- The lock of another session is not given up. -/
theorem lock_endSession {s : LockState} {x y : Nat} (hy : y ≠ x)
    (hlock : s.lock = some (.session y)) : (s.endSession x).lock = some (.session y) := by
  show (if s.lock = some (.session x) then none else s.lock) = _
  rw [if_neg, hlock]
  rw [hlock]
  intro h
  cases h
  exact hy rfl

theorem Owned.endSession {s : LockState} (h : Owned s) (x : Nat) : Owned (s.endSession x) := by
  refine h.modifyCall x (fun c => { c with sessionAlive := false }) rfl
    (fun y hy => lock_endSession hy) ?_
  exact (h x).dead rfl rfl id (Option.map_id_apply).symm fun _ => id

/-- A call goes out. -/
theorem Owned.setPhase {s : LockState} (h : Owned s) (x : Nat) (phase : CallPhase)
    (hout : phase.isOut = true) : Owned (s.modifyCall x fun c => { c with phase := phase }) :=
  h.modifyCall x _ rfl (fun _ _ => id) (ownedBy_of_isOut hout)

theorem Owned.beginAcquire {s : LockState} (h : Owned s) {x : Nat}
    (hphase : (s.calls x).phase = .notCalled) : Owned (s.beginAcquire x) := by
  unfold LockState.beginAcquire
  split
  · exact h.setPhase x .unwinding rfl
  · refine h.modifyCall x (fun c => { c with phase := .acquiring none, sessionAlive := true }) rfl
      (fun _ _ => id) ⟨fun _ => (h x).unleased (.inl hphase), ?_, ?_⟩
    · intro hexecuting
      cases hexecuting
    · intro hgranted
      cases hgranted

theorem Owned.tryAdvisoryLock {s : LockState} (h : Owned s) {x : Nat}
    (hphase : (s.calls x).phase = .acquiring none) : Owned (s.tryAdvisoryLock x) := by
  refine h.modifyCall x (fun c => { c with phase := .acquiring (some s.lock.isNone) }) rfl ?_ ?_
  · intro y hy hlock
    show (if s.lock = none then some (.session x) else s.lock) = _
    rw [hlock, if_neg (Option.some_ne_none _)]
  · refine ⟨fun _ => (h x).unleased (.inr ⟨none, hphase⟩), fun hexecuting => ?_, fun hgranted _ => ?_⟩
    · cases hexecuting
    · show (if s.lock = none then some (.session x) else s.lock) = _
      injection hgranted with hfree
      rw [if_pos (Option.isNone_iff_eq_none.mp (Option.some.inj hfree))]

theorem Owned.finishAcquire {s : LockState} (h : Owned s) {x : Nat} {granted : Bool}
    (hphase : (s.calls x).phase = .acquiring (some granted)) : Owned (s.finishAcquire x granted) := by
  unfold LockState.finishAcquire
  cases granted with
  | false => exact h.setPhase x .refused rfl
  | true =>
      refine h.modifyCall x (fun c => { c with phase := .executing, lease := some .new }) rfl
        (fun _ _ => id) ⟨fun hfresh => ?_, fun _ => ?_, fun hgranted => ?_⟩
      · rcases hfresh with hfresh | ⟨granted, hfresh⟩
        · cases hfresh
        · cases hfresh
      · exact ⟨.new, rfl, ⟨rfl, rfl⟩, fun halive => ⟨rfl, (h x).granted hphase halive⟩⟩
      · cases hgranted

theorem unreleased_loss {lease : IngestionLockLease} (reason : String) (h : lease.unreleased) :
    (lease.handleUnexpectedSessionLoss reason).unreleased := by
  unfold IngestionLockLease.handleUnexpectedSessionLoss
  split
  · exact h
  · exact h

/-- A `finally` clause that releases no lease of another call that executes leaves the leases of those
that do. -/
theorem Owned.release {s : LockState} (h : Owned s) (x : Nat)
    (hown : ∀ l, s.lease = some l → l ≠ x → (s.calls l).phase ≠ .executing) : Owned (s.release x) := by
  unfold LockState.release
  cases hl : s.lease with
  | none => exact h.setPhase x .finished rfl
  | some l =>
      intro y
      rw [calls_modifyCall, calls_modifyCall]
      by_cases hx : y = x
      · rw [if_pos hx]
        exact ownedBy_of_isOut rfl
      · rw [if_neg hx]
        by_cases hy : y = l
        · -- the lease of a call that is out of it
          rw [if_pos hy, hy]
          refine ⟨fun hfresh => ?_, fun hphase => ?_, (h l).granted⟩
          · rw [(h l).unleased hfresh, Option.map_none]
          · exact absurd hphase (hown l hl (hy ▸ hx))
        · rw [if_neg hy]
          exact h y

/-- A lease that is cleaned up is one of a call that is out. -/
theorem Owned.isOut_of_cleaningUp {s : LockState} (h : Owned s) {l : Nat}
    (hcleaning : (s.calls l).cleaningUp = true) : (s.calls l).phase.isOut = true := by
  have hnone : (s.calls l).lease ≠ none := by
    intro hnone
    rw [LockCall.cleaningUp, hnone, Option.any_none] at hcleaning
    cases hcleaning
  cases hphase : (s.calls l).phase with
  | notCalled => exact absurd ((h l).unleased (.inl hphase)) hnone
  | acquiring granted => exact absurd ((h l).unleased (.inr ⟨granted, hphase⟩)) hnone
  | executing =>
      obtain ⟨lease, hlease, ⟨-, hstarted⟩, -⟩ := (h l).executing hphase
      rw [LockCall.cleaningUp, hlease, Option.any_some, hstarted, Bool.false_and] at hcleaning
      cases hcleaning
  | refused => rfl
  | unwinding => rfl
  | releasing _ => rfl
  | finished => rfl

/-- **One step**: where no `finally` clause releases the lease of another call that executes, every call
keeps what it has. -/
theorem Owned.step {s t : LockState} {ev : LockEvent} (h : Owned s) (hown : OwnCleanup s ev)
    (hnext : nextLock s ev = some t) : Owned t := by
  cases ev with
  | execute x =>
      simp only [nextLock, Option.ite_none_right_eq_some, Option.some.injEq] at hnext
      obtain ⟨hphase, rfl⟩ := hnext
      exact h.beginAcquire hphase
  | tryLock x =>
      simp only [nextLock, Option.ite_none_right_eq_some, Option.some.injEq] at hnext
      obtain ⟨⟨hphase, -⟩, rfl⟩ := hnext
      exact h.tryAdvisoryLock hphase
  | answer x =>
      simp only [nextLock] at hnext
      split at hnext
      · rename_i granted hphase
        cases hnext
        exact h.finishAcquire hphase
      · cases hnext
  | acquireFails x =>
      simp only [nextLock] at hnext
      split at hnext
      · cases hnext
        exact (h.endSession x).setPhase x .unwinding rfl
      · cases hnext
  | refusalEnds x =>
      simp only [nextLock, Option.ite_none_right_eq_some, Option.some.injEq] at hnext
      obtain ⟨-, rfl⟩ := hnext
      exact (h.endSession x).setPhase x .unwinding rfl
  | sessionDies x =>
      simp only [nextLock, Option.ite_none_right_eq_some, Option.some.injEq] at hnext
      obtain ⟨-, rfl⟩ := hnext
      exact h.endSession x
  | lossNoticed x reason =>
      simp only [nextLock, Option.ite_none_right_eq_some, Option.some.injEq] at hnext
      obtain ⟨hdead, rfl⟩ := hnext
      refine h.modifyCall x
        (fun c => { c with lease := c.lease.map (·.handleUnexpectedSessionLoss reason) }) rfl
        (fun _ _ => id) ?_
      exact (h x).dead rfl hdead _ rfl fun lease => unreleased_loss reason
  | cleanup x =>
      simp only [nextLock] at hnext
      split at hnext
      · cases hnext
        exact h.release x fun l hl => hown x l rfl hl
      · cases hnext
        exact h.release x fun l hl => hown x l rfl hl
      · cases hnext
  | unlock l =>
      simp only [nextLock, Option.ite_none_right_eq_some, Option.some.injEq] at hnext
      obtain ⟨hcleaning, rfl⟩ := hnext
      intro y
      by_cases hy : y = l
      · rw [hy]
        exact ownedBy_of_isOut (h.isOut_of_cleaningUp hcleaning)
      · -- the lock of another session stays
        exact (h y).mono fun hlock => lock_endSession hy hlock
  | endSession l =>
      simp only [nextLock, Option.ite_none_right_eq_some, Option.some.injEq] at hnext
      obtain ⟨hcleaning, rfl⟩ := hnext
      refine (h.endSession l).modifyCall l
        (fun c => { c with lease := c.lease.map fun lease => { lease with active := false } }) rfl
        (fun _ _ => id) ?_
      refine ownedBy_of_isOut ?_
      show ((s.endSession l).calls l).phase.isOut = true
      rw [LockState.endSession, calls_modifyCall, if_pos rfl]
      exact h.isOut_of_cleaningUp hcleaning
  | released x =>
      simp only [nextLock] at hnext
      split at hnext
      · simp only [Option.ite_none_right_eq_some, Option.some.injEq] at hnext
        obtain ⟨-, rfl⟩ := hnext
        exact h.modifyCall x (fun c => { c with phase := .finished }) rfl (fun _ _ => id)
          (ownedBy_of_isOut rfl)
      · cases hnext
  | foreign =>
      simp only [nextLock] at hnext
      split at hnext
      · rename_i hfree
        cases hnext
        exact fun y => (h y).mono fun hlock => by rw [hfree] at hlock; cases hlock
      · rename_i hforeign
        cases hnext
        exact fun y => (h y).mono fun hlock => by rw [hforeign] at hlock; cases hlock
      · cases hnext

/-! ### Runs -/

theorem owned_initial : Owned .initial := fun _ => by
  refine ⟨fun _ => rfl, fun hexecuting => ?_, fun hgranted => ?_⟩
  · cases hexecuting
  · cases hgranted

theorem owned_run {evs : List LockEvent} {s : LockState} (hown : RunOk nextLock OwnCleanup .initial evs)
    (hrun : run nextLock .initial evs = some s) : Owned s :=
  (run_steps hown hrun).invariant Owned.step owned_initial

/-- A `finally` clause that releases the lease of another call that executes. -/
theorem not_keepsLease_release {s : LockState} {x l : Nat} (hkeeps : KeepsLease s)
    (hl : s.lease = some l) (hx : l ≠ x) (hphase : (s.calls l).phase = .executing) :
    ¬ KeepsLease (s.release x) := by
  intro hkeeps'
  obtain ⟨lease, hlease, ⟨hactive, hstarted⟩, -⟩ := hkeeps l hphase
  have hcall : (s.release x).calls l =
      { s.calls l with lease := (s.calls l).lease.map (·.release) } := by
    unfold LockState.release
    rw [hl]
    show ((s.modifyCall l _).modifyCall x _).calls l = _
    rw [calls_modifyCall, if_neg hx, calls_modifyCall, if_pos rfl]
  obtain ⟨released, hreleased, ⟨-, hreleasedStarted⟩, -⟩ := hkeeps' l (by rw [hcall]; exact hphase)
  rw [hcall, hlease] at hreleased
  cases hreleased
  have hbegun : lease.release.cleanupStarted = true := by
    simp [IngestionLockLease.release, hactive, hstarted]
  rw [hbegun] at hreleasedStarted
  cases hreleasedStarted

/-- **Every call that executes under the lock keeps its lease** in the states of a run if and only if no
`finally` clause in it releases the lease of another call that executes. -/
theorem keepsLease_iff (evs : List LockEvent) (s : LockState)
    (hrun : run nextLock .initial evs = some s) :
    (∀ before t, before <+: evs → run nextLock .initial before = some t → KeepsLease t) ↔
      RunOk nextLock OwnCleanup .initial evs := by
  constructor
  · intro hkeeps
    refine runOk_iff.mpr fun before ev t hbegins ht => ?_
    rintro x l rfl hl hx hphase
    obtain ⟨rest, hevs⟩ := hbegins
    have hbegins : before <+: evs := ⟨.cleanup x :: rest, by rw [← hevs, List.append_assoc]; rfl⟩
    -- the clause runs in the run, and the state after it has lost the lease
    have hnext : ∃ u, nextLock t (.cleanup x) = some u := by
      rw [← hevs, List.append_assoc, run_append, ht, Option.bind_some] at hrun
      obtain ⟨u, hu, -⟩ := Option.bind_eq_some_iff.mp hrun
      exact ⟨u, hu⟩
    obtain ⟨u, hu⟩ := hnext
    have hafter : u = t.release x := by
      simp only [nextLock] at hu
      split at hu
      · exact (Option.some.inj hu).symm
      · exact (Option.some.inj hu).symm
      · cases hu
    refine not_keepsLease_release (hkeeps before t hbegins ht) hl hx hphase ?_
    rw [← hafter]
    exact hkeeps (before ++ [.cleanup x]) u ⟨rest, hevs⟩ (run_concat ht hu)
  · intro hown before t hbegins ht
    exact (owned_run (hown.of_prefix hbegins) ht).keepsLease

/-- Two calls overlap, and the second is refused the lock but gets to its `finally` clause after the
first. -/
def refusedCall : List LockEvent :=
  [.execute 0, .execute 1, .tryLock 0, .tryLock 1, .answer 0, .answer 1, .refusalEnds 1, .cleanup 0,
    .cleanup 1]

theorem keepsLease_refused_call :
    ∃ s, run nextLock .initial refusedCall = some s ∧
      ∀ before t, before <+: refusedCall → run nextLock .initial before = some t → KeepsLease t := by
  refine ⟨_, rfl, (keepsLease_iff refusedCall _ rfl).mpr ?_⟩
  refine ⟨nofun, fun t ht => ?_⟩
  cases ht
  refine ⟨nofun, fun t ht => ?_⟩
  cases ht
  refine ⟨nofun, fun t ht => ?_⟩
  cases ht
  refine ⟨nofun, fun t ht => ?_⟩
  cases ht
  refine ⟨nofun, fun t ht => ?_⟩
  cases ht
  refine ⟨nofun, fun t ht => ?_⟩
  cases ht
  refine ⟨nofun, fun t ht => ?_⟩
  cases ht
  refine ⟨?_, fun t ht => ?_⟩
  · -- the first releases its own
    rintro x l ⟨⟩ hl hx
    cases hl
    exact absurd rfl hx
  · cases ht
    refine ⟨?_, fun _ _ => trivial⟩
    rintro x l ⟨⟩ hl _ hphase
    cases hl
    cases hphase

/-- The second call throws, since the service has a lease, and its `finally` clause releases it. -/
theorem finally_releases_lease :
    ¬ ∀ evs s, run nextLock .initial evs = some s → KeepsLease s := by
  intro hall
  have hkeeps := hall [.execute 0, .tryLock 0, .answer 0, .execute 1] _ rfl
  exact not_keepsLease_release hkeeps rfl Nat.zero_ne_one rfl
    (hall [.execute 0, .tryLock 0, .answer 0, .execute 1, .cleanup 1] _ rfl)

end LockService

end NycPropertyResolver
