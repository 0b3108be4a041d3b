import NycPropertyResolver.Config.Env
import NycPropertyResolver.Library.Steps

/-!
# Clients — the request executor

`socrata-request-executor.ts`: a call of `execute` is a loop of attempts, each a job of a limiter that
runs at most `concurrency` jobs at once.  A timeout or the abort of the caller's signal settles the
attempt for the caller; the job holds its slot of the limiter until the operation itself settles.

A state holds the calls of `execute`, the jobs and the signals that were aborted; an event is one
turn of the event loop (`next`).  Which waiting job the limiter starts, what the operations and the
delays come to, and when, is open.
-/

namespace NycPropertyResolver

open Library

namespace RequestExecutor

/-! ### Errors -/

/-- What the executor reads of an error object. -/
structure ErrorFields where
  isError : Bool
  name : String
  message : String
  code : Option String
  statusCode : Option Int
  status : Option Int
  retryable : Option Bool
  isRetryable : Option Bool
  transient : Option Bool
  deriving DecidableEq

/-- A thrown value; `primitive` is no object. -/
inductive ThrownValue where
  | primitive
  | object (fields : ErrorFields) (cause : ThrownValue)
  deriving DecidableEq

/-- The code of a request its caller aborted. -/
def requestAborted : String := "SOCRATA_REQUEST_ABORTED"

/-- The code of a request that took too long. -/
def requestTimeout : String := "SOCRATA_REQUEST_TIMEOUT"

/-- `RETRYABLE_HTTP_STATUS_CODES`. -/
def retryableHttpStatusCodes : List Int := [408, 425, 429, 500, 502, 503, 504]

/-- `RETRYABLE_ERROR_CODES`: the transport's codes, and the executor's own timeout. -/
def retryableErrorCodes : List String :=
  ["ECONNRESET", "ECONNREFUSED", "ETIMEDOUT", "EAI_AGAIN", "ENETUNREACH", "EHOSTUNREACH",
    "UND_ERR_CONNECT_TIMEOUT", "UND_ERR_HEADERS_TIMEOUT", "UND_ERR_BODY_TIMEOUT", "UND_ERR_SOCKET",
    requestTimeout]

/-- Transient failures, by their flags, their status, their code or those of their cause. -/
def isRetryableSocrataError : ThrownValue → Bool
  | .primitive => false
  | .object fields cause =>
    if fields.retryable = some true ∨ fields.isRetryable = some true ∨
        fields.transient = some true then true
    else if fields.retryable = some false ∨ fields.isRetryable = some false then false
    else if (fields.statusCode <|> fields.status).any (retryableHttpStatusCodes.contains ·) then true
    else if fields.code.any (retryableErrorCodes.contains ·) then true
    else isRetryableSocrataError cause

/-- `isAbortLikeError`: an error whose name or code says that a signal ended it. -/
def isAbortLikeError : ThrownValue → Bool
  | .primitive => false
  | .object fields _ =>
    fields.isError &&
      (fields.name == "AbortError" || fields.name == "TimeoutError" || fields.code == some "ABORT_ERR")

/-- The fields of an `AppError`. -/
def appErrorFields (code message : String) : ErrorFields :=
  ⟨true, "AppError", message, some code, none, none, none, none, none⟩

/-- `createAbortError`: the error of an aborted call, with the signal's reason as its cause. -/
def createAbortError (reason : ThrownValue) : ThrownValue :=
  .object (appErrorFields requestAborted "Socrata request was aborted by the caller") reason

/-- `createTimeoutError`: the error of an attempt that took too long. -/
def createTimeoutError (timeoutMs : Nat) (cause : ThrownValue) : ThrownValue :=
  .object (appErrorFields requestTimeout s!"Socrata request timed out after {timeoutMs}ms") cause

/-- `TypeError` and `Error`, as the executor throws them itself. -/
def plainError (name message : String) : ThrownValue :=
  .object ⟨true, name, message, none, none, none, none, none, none⟩ .primitive

/-- By the classifier of the executor a timeout is transient. -/
theorem isRetryable_timeoutError (timeoutMs : Nat) (cause : ThrownValue) :
    isRetryableSocrataError (createTimeoutError timeoutMs cause) = true := by
  have hcode : requestTimeout ∈ retryableErrorCodes := by decide
  simp [createTimeoutError, isRetryableSocrataError, appErrorFields, hcode]

/-! ### Options -/

/-- `positiveInteger`; the message of the `TypeError` it throws. -/
def positiveInteger (value : Int) (name : String) (allowZero : Bool) :
    Except String {n : Nat // allowZero = false → 0 < n} :=
  if h : value ≤ maxSafeInteger ∧ 0 ≤ value ∧ (allowZero = false → 1 ≤ value) then
    .ok ⟨value.toNat, fun ha => by have := h.2.2 ha; omega⟩
  else
    .error (name ++ " must be " ++ (if allowZero then "a non-negative" else "a positive") ++ " integer")

/-- The limits a configuration may give. -/
structure SocrataConfigValues where
  socrataConcurrency : Option Int
  socrataRequestTimeoutMs : Option Int
  socrataMaxRetries : Option Int

/-- The options of an executor: limits of its own, a configuration's, and a test for retryable
errors. -/
structure SocrataRequestExecutorOptions extends SocrataConfigValues where
  config : SocrataConfigValues
  concurrency : Option Int
  requestTimeoutMs : Option Int
  maxRetries : Option Int
  classifyError : Option (ThrownValue → Bool)

/-- An executor's limits, both positive, and its test for retryable errors. -/
structure SocrataRequestExecutor where
  concurrency : Nat
  requestTimeoutMs : Nat
  maxRetries : Nat
  classifyError : ThrownValue → Bool
  concurrency_pos : 0 < concurrency
  requestTimeoutMs_pos : 0 < requestTimeoutMs

/-- The constructor. -/
def SocrataRequestExecutor.create (options : SocrataRequestExecutorOptions) :
    Except String SocrataRequestExecutor := do
  let concurrency ← positiveInteger
    ((options.concurrency <|> options.socrataConcurrency <|> options.config.socrataConcurrency).getD
      ConfigDefaults.socrataConcurrency.val) "SOCRATA_CONCURRENCY" false
  let requestTimeoutMs ← positiveInteger
    ((options.requestTimeoutMs <|> options.socrataRequestTimeoutMs <|>
      options.config.socrataRequestTimeoutMs).getD ConfigDefaults.socrataRequestTimeoutMs.val)
    "SOCRATA_REQUEST_TIMEOUT_MS" false
  let maxRetries ← positiveInteger
    ((options.maxRetries <|> options.socrataMaxRetries <|> options.config.socrataMaxRetries).getD
      ConfigDefaults.socrataMaxRetries.val) "SOCRATA_MAX_RETRIES" true
  .ok ⟨concurrency.1, requestTimeoutMs.1, maxRetries.1,
    options.classifyError.getD isRetryableSocrataError, concurrency.2 rfl, requestTimeoutMs.2 rfl⟩

/-- The executor of no options. -/
def defaultExecutor : SocrataRequestExecutor :=
  ⟨10, 15000, 3, isRetryableSocrataError, Nat.zero_lt_succ 9, Nat.zero_lt_succ 14999⟩

theorem create_default :
    SocrataRequestExecutor.create ⟨⟨none, none, none⟩, ⟨none, none, none⟩, none, none, none, none⟩ =
      .ok defaultExecutor := rfl

/-! ### States -/

/-- An `AbortSignal` of a caller. -/
abbrev SignalId := Nat

/-- Where a call of `execute` stands.  `waiting`: for the outcome of a job; `attempted`: that wait has
settled; `sleeping` and `slept`: so for the delay before the next attempt. -/
inductive ExecutePhase (V : Type) where
  | waiting (attempt job : Nat)
  | attempted (attempt job : Nat) (settled : Except ThrownValue V)
  | sleeping (attempt : Nat)
  | slept (attempt : Nat) (settled : Except ThrownValue Unit)
  | finished (result : Except ThrownValue V)

/-- A call of `execute`: its caller's signal, where it stands, and how often it called the
operation. -/
structure Execute (V : Type) where
  signal : Option SignalId
  phase : ExecutePhase V
  requestCalls : Nat

/-- Where a job stands: `calling` while the operation is in progress, with the error it was cancelled
with, if it was. -/
inductive JobPhase where
  | queued
  | calling (cancellation : Option ThrownValue)
  | settled
  deriving DecidableEq

/-- A job and the outcome it has given the caller, if it has. -/
structure Job (V : Type) where
  owner : Nat
  phase : JobPhase
  outcome : Option (Except ThrownValue V)

/-- The calls, the limiter's jobs, the signals that are aborted, and the metrics' totals. -/
structure State (V : Type) where
  executes : List (Execute V)
  jobs : List (Job V)
  reasons : SignalId → Option ThrownValue
  totalRequestCalls : Nat
  totalRetryCalls : Nat

/-- Nothing has been called. -/
def State.initial (V : Type) : State V := ⟨[], [], fun _ => none, 0, 0⟩

section Machine

variable {V : Type}

/-- `resolve` and `reject` of a deferred: only the first counts. -/
def Job.settleOutcome (job : Job V) (result : Except ThrownValue V) : Job V :=
  { job with outcome := job.outcome.or (some result) }

/-- The operation of the job is in progress. -/
def JobPhase.isCalling : JobPhase → Bool
  | .calling _ => true
  | _ => false

/-- The slots of the limiter in use. -/
def State.running (s : State V) : Nat := s.jobs.countP (·.phase.isCalling)

/-- The reason a signal was aborted with. -/
def State.reason (s : State V) (signal : Option SignalId) : Option ThrownValue :=
  signal.bind s.reasons

/-- The signal of the call a job belongs to. -/
def State.signalOf (s : State V) (job : Job V) : Option SignalId :=
  (s.executes[job.owner]?).bind (·.signal)

/-- The state with the job at `i` replaced. -/
def State.setJob (s : State V) (i : Nat) (job : Job V) : State V := { s with jobs := s.jobs.set i job }

/-- The state with the call at `x` replaced. -/
def State.setExecute (s : State V) (x : Nat) (e : Execute V) : State V :=
  { s with executes := s.executes.set x e }

/-! ### Steps -/

/-- The end of a call, and its accounting. -/
def State.finish (s : State V) (x : Nat) (e : Execute V) (result : Except ThrownValue V) : State V :=
  { s.setExecute x { e with phase := .finished result } with
    totalRequestCalls := s.totalRequestCalls + e.requestCalls
    totalRetryCalls := s.totalRetryCalls + (e.requestCalls - 1) }

/-- The head of the loop: `throwIfAborted`, and the job of the attempt. -/
def State.beginAttempt (s : State V) (x : Nat) (e : Execute V) (attempt : Nat) : State V :=
  match s.reason e.signal with
  | some reason => s.finish x e (.error (createAbortError reason))
  | none =>
    { s.setExecute x { e with phase := .waiting attempt s.jobs.length } with
      jobs := s.jobs ++ [⟨x, .queued, none⟩] }

/-- A call of `execute`. -/
def State.call (s : State V) (signal : Option SignalId) : State V :=
  let e : Execute V := ⟨signal, .sleeping 0, 0⟩
  { s with executes := s.executes ++ [e] }.beginAttempt s.executes.length e 0

/-- `runAttempt`, up to the call of the operation. -/
def State.startJob (s : State V) (i : Nat) (job : Job V) : State V :=
  match s.reason (s.signalOf job) with
  | some reason =>
    s.setJob i { job.settleOutcome (.error (createAbortError reason)) with phase := .settled }
  | none =>
    { s.setJob i { job with phase := .calling none } with
      executes := s.executes.modify job.owner fun e => { e with requestCalls := e.requestCalls + 1 } }

/-- `cancel`; a call that was cancelled before is left as it is. -/
def Job.cancel (job : Job V) (error : ThrownValue) : Job V :=
  match job.phase with
  | .calling none => { job.settleOutcome (.error error) with phase := .calling (some error) }
  | _ => job

/-- What the caller is told of an operation that fails. -/
def operationError (cancellation : Option ThrownValue) (error : ThrownValue) : ThrownValue :=
  match cancellation with
  | some cancelled => cancelled
  | none => if isAbortLikeError error then createAbortError error else error

/-- The operation settles, and the job gives back its slot. -/
def Job.settle (job : Job V) (cancellation : Option ThrownValue) (result : Except ThrownValue V) :
    Job V :=
  { job.settleOutcome (match result with
      | .ok value => .ok value
      | .error error => .error (operationError cancellation error)) with phase := .settled }

/-- What the abort of a signal does to a call: the waits for an outcome and for a delay reject. -/
def Execute.abort (e : Execute V) (error : ThrownValue) : Execute V :=
  match e.phase with
  | .waiting attempt job => { e with phase := .attempted attempt job (.error error) }
  | .sleeping attempt => { e with phase := .slept attempt (.error error) }
  | _ => e

/-- `abort` of a signal: its listeners run at once. -/
def State.abort (s : State V) (signal : SignalId) (reason : ThrownValue) : State V where
  executes := s.executes.map fun e =>
    if e.signal = some signal then e.abort (createAbortError reason) else e
  jobs := s.jobs.map fun job =>
    if s.signalOf job = some signal then job.cancel (createAbortError reason) else job
  reasons := fun other => if other = signal then some reason else s.reasons other
  totalRequestCalls := s.totalRequestCalls
  totalRetryCalls := s.totalRetryCalls

end Machine

/-- What happens to an executor: a call, an abort, a step of a job, or a step of a call. -/
inductive Event (V : Type) where
  | call (signal : Option SignalId)
  | abort (signal : SignalId) (reason : ThrownValue)
  | start (job : Nat)
  | drop (job : Nat) (error : ThrownValue)
  | timeout (job : Nat)
  | settle (job : Nat) (result : Except ThrownValue V)
  | deliver (execute : Nat)
  | sleepEnds (execute : Nat) (result : Except ThrownValue Unit)
  | resume (execute : Nat) (delayMs : Option Nat)

section Steps

variable {V : Type} (executor : SocrataRequestExecutor)

/-- The `catch` clause of the loop; `delayMs` is the delay before the retry, `none` where it is no
non-negative finite number. -/
def afterFailure (s : State V) (x : Nat) (e : Execute V) (attempt : Nat) (error : ThrownValue)
    (delayMs : Option Nat) : State V :=
  match s.reason e.signal with
  | some reason => s.finish x e (.error (createAbortError reason))
  | none =>
    if executor.maxRetries ≤ attempt ∨ executor.classifyError error = false then
      s.finish x e (.error error)
    else
      match delayMs with
      | none =>
        s.finish x e
          (.error (plainError "TypeError" "retry delay must be a non-negative finite number"))
      | some _ => s.setExecute x { e with phase := .sleeping attempt }

/-- The loop goes on after a delay. -/
def afterSleep (s : State V) (x : Nat) (e : Execute V) (attempt : Nat) : State V :=
  if attempt + 1 ≤ executor.maxRetries then s.beginAttempt x e (attempt + 1)
  else
    s.finish x e
      (.error (plainError "Error" "Socrata request retry loop exhausted unexpectedly"))

/-- One turn of the event loop; `none` where the event cannot happen. -/
def next (s : State V) : Event V → Option (State V)
  | .call signal => some (s.call signal)
  | .abort signal reason => if s.reasons signal = none then some (s.abort signal reason) else none
  | .start i =>
    match s.jobs[i]? with
    | some ⟨owner, .queued, outcome⟩ =>
      if s.running < executor.concurrency then some (s.startJob i ⟨owner, .queued, outcome⟩) else none
    | _ => none
  | .drop i error =>
    match s.jobs[i]? with
    | some ⟨owner, .queued, outcome⟩ =>
      some (s.setJob i
        { (⟨owner, .queued, outcome⟩ : Job V).settleOutcome (.error error) with phase := .settled })
    | _ => none
  | .timeout i =>
    match s.jobs[i]? with
    | some ⟨owner, .calling none, outcome⟩ =>
      some (s.setJob i ((⟨owner, .calling none, outcome⟩ : Job V).cancel
        (createTimeoutError executor.requestTimeoutMs .primitive)))
    | _ => none
  | .settle i result =>
    match s.jobs[i]? with
    | some ⟨owner, .calling cancellation, outcome⟩ =>
      some (s.setJob i
        ((⟨owner, .calling cancellation, outcome⟩ : Job V).settle cancellation result))
    | _ => none
  | .deliver x =>
    match s.executes[x]? with
    | some ⟨signal, .waiting attempt i, requestCalls⟩ =>
      match (s.jobs[i]?).bind (·.outcome) with
      | some result => some (s.setExecute x ⟨signal, .attempted attempt i result, requestCalls⟩)
      | none => none
    | _ => none
  | .sleepEnds x result =>
    match s.executes[x]? with
    | some ⟨signal, .sleeping attempt, requestCalls⟩ =>
      some (s.setExecute x ⟨signal, .slept attempt result, requestCalls⟩)
    | _ => none
  | .resume x delayMs =>
    match s.executes[x]? with
    | some ⟨signal, .attempted attempt i settled, requestCalls⟩ =>
      match settled with
      | .ok value =>
        some (s.finish x ⟨signal, .attempted attempt i settled, requestCalls⟩ (.ok value))
      | .error error =>
        some (afterFailure executor s x ⟨signal, .attempted attempt i settled, requestCalls⟩ attempt
          error delayMs)
    | some ⟨signal, .slept attempt settled, requestCalls⟩ =>
      match settled with
      | .ok () => some (afterSleep executor s x ⟨signal, .slept attempt settled, requestCalls⟩ attempt)
      | .error error =>
        some (s.finish x ⟨signal, .slept attempt settled, requestCalls⟩ (.error error))
    | _ => none

/-- The states an executor can be in. -/
def Reachable (s : State V) : Prop :=
  Steps (next executor) (fun _ _ => True) (State.initial V) s

end Steps

/-- The calls of the operation of one call of `execute` that are in progress. -/
def State.callsInProgress {V : Type} (s : State V) (x : Nat) : Nat :=
  s.jobs.countP fun job => decide (job.owner = x) && job.phase.isCalling

/-! ### What an event can do -/

section Turns

variable {V : Type} (executor : SocrataRequestExecutor)

/-- What each event finds and what it does. -/
inductive Turn (s : State V) : Event V → State V → Prop where
  | called (signal : Option SignalId) : Turn s (.call signal) (s.call signal)
  | aborted {signal : SignalId} {reason : ThrownValue} (hfirst : s.reasons signal = none) :
      Turn s (.abort signal reason) (s.abort signal reason)
  | started {i : Nat} {job : Job V} (hjob : s.jobs[i]? = some job) (hphase : job.phase = .queued)
      (hslot : s.running < executor.concurrency) : Turn s (.start i) (s.startJob i job)
  | dropped {i : Nat} {job : Job V} {error : ThrownValue} (hjob : s.jobs[i]? = some job)
      (hphase : job.phase = .queued) :
      Turn s (.drop i error) (s.setJob i { job.settleOutcome (.error error) with phase := .settled })
  | timedOut {i : Nat} {job : Job V} (hjob : s.jobs[i]? = some job)
      (hphase : job.phase = .calling none) :
      Turn s (.timeout i)
        (s.setJob i (job.cancel (createTimeoutError executor.requestTimeoutMs .primitive)))
  | settled {i : Nat} {job : Job V} {cancellation : Option ThrownValue}
      {result : Except ThrownValue V} (hjob : s.jobs[i]? = some job)
      (hphase : job.phase = .calling cancellation) :
      Turn s (.settle i result) (s.setJob i (job.settle cancellation result))
  | delivered {x attempt i : Nat} {e : Execute V} {job : Job V} {result : Except ThrownValue V}
      (he : s.executes[x]? = some e) (hphase : e.phase = .waiting attempt i)
      (hjob : s.jobs[i]? = some job) (hresult : job.outcome = some result) :
      Turn s (.deliver x) (s.setExecute x { e with phase := .attempted attempt i result })
  | sleptUntil {x attempt : Nat} {e : Execute V} {result : Except ThrownValue Unit}
      (he : s.executes[x]? = some e) (hphase : e.phase = .sleeping attempt) :
      Turn s (.sleepEnds x result) (s.setExecute x { e with phase := .slept attempt result })
  | succeeded {x attempt i : Nat} {e : Execute V} {value : V} {delayMs : Option Nat}
      (he : s.executes[x]? = some e) (hphase : e.phase = .attempted attempt i (.ok value)) :
      Turn s (.resume x delayMs) (s.finish x e (.ok value))
  | failed {x attempt i : Nat} {e : Execute V} {error : ThrownValue} {delayMs : Option Nat}
      (he : s.executes[x]? = some e) (hphase : e.phase = .attempted attempt i (.error error)) :
      Turn s (.resume x delayMs) (afterFailure executor s x e attempt error delayMs)
  | awoke {x attempt : Nat} {e : Execute V} {delayMs : Option Nat} (he : s.executes[x]? = some e)
      (hphase : e.phase = .slept attempt (.ok ())) :
      Turn s (.resume x delayMs) (afterSleep executor s x e attempt)
  | sleepFailed {x attempt : Nat} {e : Execute V} {error : ThrownValue} {delayMs : Option Nat}
      (he : s.executes[x]? = some e) (hphase : e.phase = .slept attempt (.error error)) :
      Turn s (.resume x delayMs) (s.finish x e (.error error))

variable {executor}

theorem turn_of_next {s t : State V} {ev : Event V} (h : next executor s ev = some t) :
    Turn executor s ev t := by
  cases ev with
  | call signal => cases h; exact .called signal
  | abort signal reason =>
      simp only [next, Option.ite_none_right_eq_some, Option.some.injEq] at h
      obtain ⟨hfirst, rfl⟩ := h
      exact .aborted hfirst
  | start i =>
      simp only [next] at h
      split at h
      · rename_i owner outcome hjob
        simp only [Option.ite_none_right_eq_some, Option.some.injEq] at h
        obtain ⟨hslot, rfl⟩ := h
        exact .started hjob rfl hslot
      · cases h
  | drop i error =>
      simp only [next] at h
      split at h
      · rename_i owner outcome hjob
        cases h
        exact .dropped hjob rfl
      · cases h
  | timeout i =>
      simp only [next] at h
      split at h
      · rename_i owner outcome hjob
        cases h
        exact .timedOut hjob rfl
      · cases h
  | settle i result =>
      simp only [next] at h
      split at h
      · rename_i owner cancellation outcome hjob
        cases h
        exact .settled hjob rfl
      · cases h
  | deliver x =>
      simp only [next] at h
      split at h
      · rename_i signal attempt i requestCalls he
        split at h
        · rename_i result hresult
          obtain ⟨job, hjob, hresult⟩ := Option.bind_eq_some_iff.mp hresult
          cases h
          exact .delivered he rfl hjob hresult
        · cases h
      · cases h
  | sleepEnds x result =>
      simp only [next] at h
      split at h
      · rename_i signal attempt requestCalls he
        cases h
        exact .sleptUntil he rfl
      · cases h
  | resume x delayMs =>
      simp only [next] at h
      split at h
      · rename_i signal attempt i settled requestCalls he
        cases settled with
        | ok value => cases h; exact .succeeded he rfl
        | error error => cases h; exact .failed he rfl
      · rename_i signal attempt settled requestCalls he
        cases settled with
        | ok value => cases h; exact .awoke he rfl
        | error error => cases h; exact .sleepFailed he rfl
      · cases h

/-! ### What the loop can do -/

/-- An attempt begins with a new job, or the signal was aborted and the call ends. -/
theorem beginAttempt_cases (s : State V) (x : Nat) (e : Execute V) (attempt : Nat) :
    (∃ error, s.beginAttempt x e attempt = s.finish x e (.error error)) ∨
      s.reason e.signal = none ∧ s.beginAttempt x e attempt =
        { s.setExecute x { e with phase := .waiting attempt s.jobs.length } with
          jobs := s.jobs ++ [⟨x, .queued, none⟩] } := by
  unfold State.beginAttempt
  cases h : s.reason e.signal with
  | some reason => exact .inl ⟨_, rfl⟩
  | none => exact .inr ⟨rfl, rfl⟩

/-- A call retries after a failure that is transient, as often as it may. -/
theorem afterFailure_cases (executor : SocrataRequestExecutor) (s : State V) (x : Nat) (e : Execute V) (attempt : Nat)
    (error : ThrownValue) (delayMs : Option Nat) :
    (∃ error', afterFailure executor s x e attempt error delayMs = s.finish x e (.error error')) ∨
      s.reason e.signal = none ∧ attempt < executor.maxRetries ∧
        executor.classifyError error = true ∧ afterFailure executor s x e attempt error delayMs =
          s.setExecute x { e with phase := .sleeping attempt } := by
  unfold afterFailure
  cases h : s.reason e.signal with
  | some reason => exact .inl ⟨_, rfl⟩
  | none =>
      by_cases hstop : executor.maxRetries ≤ attempt ∨ executor.classifyError error = false
      · left
        exact ⟨error, if_pos hstop⟩
      · cases delayMs with
        | none =>
            left
            exact ⟨_, if_neg hstop⟩
        | some delay =>
            right
            rw [not_or, Nat.not_le, Bool.not_eq_false] at hstop
            exact ⟨rfl, hstop.1, hstop.2, if_neg (by simp [hstop.1, hstop.2])⟩

theorem afterSleep_cases (executor : SocrataRequestExecutor) (s : State V) (x : Nat) (e : Execute V) (attempt : Nat) :
    (∃ error, afterSleep executor s x e attempt = s.finish x e (.error error)) ∨
      afterSleep executor s x e attempt = s.beginAttempt x e (attempt + 1) := by
  unfold afterSleep
  by_cases hmore : attempt + 1 ≤ executor.maxRetries
  · exact .inr (if_pos hmore)
  · exact .inl ⟨_, if_neg hmore⟩

/-- A job calls the operation, or the signal was aborted and it ends. -/
theorem startJob_cases (s : State V) (i : Nat) (job : Job V) :
    (∃ outcome, s.startJob i job = s.setJob i ⟨job.owner, .settled, outcome⟩) ∨
      s.reason (s.signalOf job) = none ∧ s.startJob i job =
        { s.setJob i { job with phase := .calling none } with
          executes := s.executes.modify job.owner fun e =>
            { e with requestCalls := e.requestCalls + 1 } } := by
  unfold State.startJob
  cases h : s.reason (s.signalOf job) with
  | some reason => exact .inl ⟨_, rfl⟩
  | none => exact .inr ⟨rfl, rfl⟩

end Turns

end RequestExecutor

end NycPropertyResolver
