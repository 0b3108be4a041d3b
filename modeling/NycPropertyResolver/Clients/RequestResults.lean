import NycPropertyResolver.Clients.RequestAccounting

/-!
# Clients — what the request executor hands on

Where the results of a call of `execute` come from: what one event does to the outcome of a job
(`Turn.outcome`) and to a call (`Turn.execute`), and from these what a run hands on
(`ResultsAdmitted`).  A value is one an operation returned.  A failure is one an operation threw, a
timeout or a drop, unless the signal of the call was aborted, and a call whose signal was aborted
is not made again: after a failure that is not transient the operation is never called again
(`FailuresLast`).
-/

namespace NycPropertyResolver

open Library

namespace RequestExecutor

variable {V : Type} {executor : SocrataRequestExecutor} {s t : State V}

/-! ### What an event does to an outcome -/

/-- What an event gives the caller of a job. -/
inductive Supplied (executor : SocrataRequestExecutor) (s t : State V) (i : Nat) (job : Job V) :
    Event V → Except ThrownValue V → Prop where
  | aborted {ev : Event V} {error : ThrownValue} (h : Aborted t (s.signalOf job)) :
      Supplied executor s t i job ev (.error error)
  | timedOut : Supplied executor s t i job (.timeout i) (.error (timeoutError executor))
  | dropped {error : ThrownValue} : Supplied executor s t i job (.drop i error) (.error error)
  | returned {value : V} : Supplied executor s t i job (.settle i (.ok value)) (.ok value)
  | threw {error : ThrownValue} (hphase : job.phase = .calling none) :
      Supplied executor s t i job (.settle i (.error error)) (.error (operationError none error))
  | cancelled {error cancelled : ThrownValue} (hphase : job.phase = .calling (some cancelled)) :
      Supplied executor s t i job (.settle i (.error error)) (.error cancelled)

theorem outcome_settleOutcome {job : Job V} {result r : Except ThrownValue V}
    (h : (job.settleOutcome result).outcome = some r) : job.outcome = some r ∨ r = result := by
  cases ho : job.outcome with
  | none =>
      rw [Job.settleOutcome, ho] at h
      cases h
      exact .inr rfl
  | some r' =>
      rw [Job.settleOutcome, ho] at h
      exact .inl h

theorem outcome_cancel {job : Job V} {error : ThrownValue} {r : Except ThrownValue V}
    (h : (job.cancel error).outcome = some r) :
    job.outcome = some r ∨ job.phase = .calling none ∧ r = .error error := by
  by_cases hphase : job.phase = .calling none
  · have hcancel : (job.cancel error).outcome = (job.settleOutcome (.error error)).outcome := by
      rw [Job.cancel, hphase]
    rw [hcancel] at h
    exact (outcome_settleOutcome h).imp_right fun hr => ⟨hphase, hr⟩
  · rw [cancel_eq_self hphase] at h
    exact .inl h

/-- A job that finds its signal aborted. -/
theorem startJob_aborted {i : Nat} {job : Job V} {reason : ThrownValue}
    (h : s.reason (s.signalOf job) = some reason) : s.startJob i job =
      s.setJob i { job.settleOutcome (.error (createAbortError reason)) with phase := .settled } := by
  unfold State.startJob
  rw [h]

/-- A job that does not. -/
theorem startJob_calling {i : Nat} {job : Job V} (h : s.reason (s.signalOf job) = none) :
    s.startJob i job = { s.setJob i { job with phase := .calling none } with
      executes := s.executes.modify job.owner fun e =>
        { e with requestCalls := e.requestCalls + 1 } } := by
  unfold State.startJob
  rw [h]

/-- Where the outcome of a job comes from. -/
def OutcomeFrom (executor : SocrataRequestExecutor) (s t : State V) (ev : Event V) (i : Nat)
    (owner : Nat) (r : Except ThrownValue V) : Prop :=
  ∃ job, s.jobs[i]? = some job ∧ owner = job.owner ∧
    (job.outcome = some r ∨ Supplied executor s t i job ev r)

section Outcomes

variable {ev : Event V} {i : Nat} {job' : Job V} {r : Except ThrownValue V}

theorem outcomeFrom_of_jobs (hjobs : t.jobs = s.jobs) (hjob' : t.jobs[i]? = some job')
    (hr : job'.outcome = some r) : OutcomeFrom executor s t ev i job'.owner r :=
  ⟨job', hjobs ▸ hjob', rfl, .inl hr⟩

theorem outcomeFrom_of_setJob {j : Nat} {job new : Job V} (hjob : s.jobs[j]? = some job)
    (hjobs : t.jobs = (s.setJob j new).jobs) (howner : new.owner = job.owner)
    (hnew : ∀ {r}, new.outcome = some r → job.outcome = some r ∨ Supplied executor s t j job ev r)
    (hjob' : t.jobs[i]? = some job') (hr : job'.outcome = some r) :
    OutcomeFrom executor s t ev i job'.owner r := by
  rw [hjobs, State.setJob, List.getElem?_set] at hjob'
  by_cases hij : j = i
  · subst hij
    rw [if_pos rfl, if_pos (List.getElem?_eq_some_iff.mp hjob).1] at hjob'
    cases hjob'
    exact ⟨job, hjob, howner, hnew hr⟩
  · rw [if_neg hij] at hjob'
    exact ⟨job', hjob', rfl, .inl hr⟩

/-- An attempt that begins queues a job without an outcome. -/
theorem outcomeFrom_of_beginAttempt {u : State V} (hjobs : u.jobs = s.jobs) {x : Nat} {e : Execute V}
    (attempt : Nat) (hjob' : (u.beginAttempt x e attempt).jobs[i]? = some job')
    (hr : job'.outcome = some r) :
    OutcomeFrom executor s (u.beginAttempt x e attempt) ev i job'.owner r := by
  rcases beginAttempt_cases u x e attempt with ⟨error, hb⟩ | ⟨-, hb⟩
  · refine outcomeFrom_of_jobs ?_ hjob' hr
    rw [hb]
    exact hjobs
  · rw [hb] at hjob'
    by_cases hi : i < u.jobs.length
    · rw [List.getElem?_append_left hi, hjobs] at hjob'
      exact ⟨job', hjob', rfl, .inl hr⟩
    · rw [List.getElem?_append_right (Nat.le_of_not_lt hi), List.getElem?_singleton] at hjob'
      split at hjob'
      · cases hjob'
        cases hr
      · cases hjob'

/-- **What every event does to the outcome of a job.** -/
theorem Turn.outcome (h : Turn executor s ev t) (hjob' : t.jobs[i]? = some job')
    (hr : job'.outcome = some r) : OutcomeFrom executor s t ev i job'.owner r := by
  cases h with
  | called signal =>
      exact outcomeFrom_of_beginAttempt (s := s) (u := s.enter signal) rfl 0 hjob' hr
  | @aborted signal reason hfirst =>
      rw [State.abort, List.getElem?_map, Option.map_eq_some_iff] at hjob'
      obtain ⟨job, hjob, rfl⟩ := hjob'
      by_cases hsignal : s.signalOf job = some signal
      · rw [if_pos hsignal] at hr ⊢
        refine ⟨job, hjob, owner_cancel _ _, ?_⟩
        refine (outcome_cancel hr).imp_right ?_
        rintro ⟨-, rfl⟩
        exact .aborted (by rw [hsignal]; exact aborted_abort signal reason)
      · rw [if_neg hsignal] at hr ⊢
        exact ⟨job, hjob, rfl, .inl hr⟩
  | @started j job hjob hphase hslot =>
      cases hreason : s.reason (s.signalOf job) with
      | some reason =>
          rw [startJob_aborted hreason] at hjob' ⊢
          refine outcomeFrom_of_setJob hjob rfl rfl (fun hnew => ?_) hjob' hr
          refine (outcome_settleOutcome hnew).imp_right ?_
          rintro rfl
          have haborted : Aborted s (s.signalOf job) := by simp [Aborted, hreason]
          exact .aborted (haborted.mono (extends_setJob j _))
      | none =>
          rw [startJob_calling hreason] at hjob' ⊢
          exact outcomeFrom_of_setJob hjob rfl rfl .inl hjob' hr
  | @dropped j job error hjob hphase =>
      refine outcomeFrom_of_setJob hjob rfl rfl (fun hnew => ?_) hjob' hr
      refine (outcome_settleOutcome hnew).imp_right ?_
      rintro rfl
      exact .dropped
  | @timedOut j job hjob hphase =>
      refine outcomeFrom_of_setJob hjob rfl (owner_cancel _ _) (fun hnew => ?_) hjob' hr
      refine (outcome_cancel hnew).imp_right ?_
      rintro ⟨-, rfl⟩
      exact .timedOut
  | @settled j job cancellation result hjob hphase =>
      refine outcomeFrom_of_setJob hjob rfl rfl (fun hnew => ?_) hjob' hr
      refine (outcome_settleOutcome hnew).imp_right ?_
      rintro rfl
      cases result with
      | ok value => exact .returned
      | error error =>
          cases cancellation with
          | none => exact .threw hphase
          | some cancelled => exact .cancelled hphase
  | delivered => exact outcomeFrom_of_jobs rfl hjob' hr
  | sleptUntil => exact outcomeFrom_of_jobs rfl hjob' hr
  | succeeded => exact outcomeFrom_of_jobs rfl hjob' hr
  | @failed x attempt j e error delayMs he =>
      rcases afterFailure_cases executor s x e attempt error delayMs with
        ⟨error', hf⟩ | ⟨-, -, -, hf⟩
      · rw [hf] at hjob' ⊢
        exact outcomeFrom_of_jobs rfl hjob' hr
      · rw [hf] at hjob' ⊢
        exact outcomeFrom_of_jobs rfl hjob' hr
  | @awoke x attempt e delayMs he =>
      rcases afterSleep_cases executor s x e attempt with ⟨error, ha⟩ | ha
      · rw [ha] at hjob' ⊢
        exact outcomeFrom_of_jobs rfl hjob' hr
      · rw [ha] at hjob' ⊢
        exact outcomeFrom_of_beginAttempt rfl _ hjob' hr
  | sleepFailed => exact outcomeFrom_of_jobs rfl hjob' hr

end Outcomes

/-! ### What an event does to a call -/

/-- The jobs of `s` are jobs of `t`, of the same calls. -/
def JobsKept (s t : State V) : Prop :=
  ∀ (i : Nat) (job : Job V), s.jobs[i]? = some job →
    ∃ job', t.jobs[i]? = some job' ∧ job'.owner = job.owner

theorem jobsKept_of_append (new : List (Job V)) (h : t.jobs = s.jobs ++ new) : JobsKept s t := by
  intro i job hjob
  refine ⟨job, ?_, rfl⟩
  rw [h, List.getElem?_append_left (List.getElem?_eq_some_iff.mp hjob).1]
  exact hjob

theorem jobsKept_of_jobs (h : t.jobs = s.jobs) : JobsKept s t :=
  jobsKept_of_append [] (by rw [h, List.append_nil])

theorem jobsKept_of_setJob {j : Nat} {job : Job V} (new : Job V) (hjob : s.jobs[j]? = some job)
    (howner : new.owner = job.owner) (hjobs : t.jobs = (s.setJob j new).jobs) : JobsKept s t := by
  intro i other hother
  rw [hjobs, State.setJob, List.getElem?_set]
  by_cases hij : j = i
  · subst hij
    obtain rfl := Option.some.inj (hjob.symm.trans hother)
    rw [if_pos rfl, if_pos (List.getElem?_eq_some_iff.mp hjob).1]
    exact ⟨new, rfl, howner⟩
  · rw [if_neg hij]
    exact ⟨other, hother, rfl⟩

theorem jobsKept_of_beginAttempt {u : State V} (hjobs : u.jobs = s.jobs) (x : Nat) (e : Execute V)
    (attempt : Nat) : JobsKept s (u.beginAttempt x e attempt) := by
  rcases beginAttempt_cases u x e attempt with ⟨error, h⟩ | ⟨-, h⟩
  · rw [h]
    exact jobsKept_of_jobs hjobs
  · rw [h]
    exact jobsKept_of_append _ (congrArg (· ++ _) hjobs)

/-- **Every event keeps the jobs.** -/
theorem Turn.jobsKept {ev : Event V} (h : Turn executor s ev t) : JobsKept s t := by
  cases h with
  | called signal => exact jobsKept_of_beginAttempt (u := s.enter signal) rfl _ _ _
  | @aborted signal reason hfirst =>
      intro i job hjob
      refine ⟨_, by rw [State.abort, List.getElem?_map, hjob, Option.map_some], ?_⟩
      split
      · exact owner_cancel _ _
      · rfl
  | @started j job hjob hphase hslot =>
      rcases startJob_cases s j job with ⟨outcome, hs⟩ | ⟨-, hs⟩
      · exact jobsKept_of_setJob ⟨job.owner, .settled, outcome⟩ hjob rfl (by rw [hs])
      · exact jobsKept_of_setJob { job with phase := .calling none } hjob rfl (by rw [hs])
  | @dropped j job error hjob hphase =>
      exact jobsKept_of_setJob { job.settleOutcome (.error error) with phase := .settled } hjob rfl rfl
  | timedOut hjob => exact jobsKept_of_setJob _ hjob (owner_cancel _ _) rfl
  | @settled j job cancellation result hjob hphase =>
      exact jobsKept_of_setJob (job.settle cancellation result) hjob rfl rfl
  | delivered => exact jobsKept_of_jobs rfl
  | sleptUntil => exact jobsKept_of_jobs rfl
  | succeeded => exact jobsKept_of_jobs rfl
  | @failed x attempt i e error delayMs =>
      rcases afterFailure_cases executor s x e attempt error delayMs with
        ⟨error', h⟩ | ⟨-, -, -, h⟩
      · rw [h]
        exact jobsKept_of_jobs rfl
      · rw [h]
        exact jobsKept_of_jobs rfl
  | @awoke x attempt e delayMs =>
      rcases afterSleep_cases executor s x e attempt with ⟨error, h⟩ | h
      · rw [h]
        exact jobsKept_of_jobs rfl
      · rw [h]
        exact jobsKept_of_beginAttempt rfl _ _ _
  | sleepFailed => exact jobsKept_of_jobs rfl

/-- Where a call stands after an event. -/
inductive ExecuteTurn (s t : State V) (x : Nat) (e : Execute V) : ExecutePhase V → Prop where
  | kept : ExecuteTurn s t x e e.phase
  | delivered {attempt i : Nat} {job : Job V} {r : Except ThrownValue V}
      (hphase : e.phase = .waiting attempt i) (hjob : s.jobs[i]? = some job)
      (hr : job.outcome = some r) : ExecuteTurn s t x e (.attempted attempt i r)
  | aborted {attempt i : Nat} {error : ThrownValue} (haborted : Aborted t e.signal) :
      ExecuteTurn s t x e (.attempted attempt i (.error error))
  | slept {attempt : Nat} {result : Except ThrownValue Unit} : ExecuteTurn s t x e (.slept attempt result)
  | sleeping {attempt : Nat} : ExecuteTurn s t x e (.sleeping attempt)
  | begun {attempt i : Nat} {job : Job V} (hjob : t.jobs[i]? = some job) (howner : job.owner = x) :
      ExecuteTurn s t x e (.waiting attempt i)
  | succeeded {attempt i : Nat} {value : V} (hphase : e.phase = .attempted attempt i (.ok value)) :
      ExecuteTurn s t x e (.finished (.ok value))
  | gaveUp {error : ThrownValue} : ExecuteTurn s t x e (.finished (.error error))

/-- A call after an event: one there was, or a new one, with or without a job. -/
def ExecuteAfter (s t : State V) (x : Nat) (e' : Execute V) : Prop :=
  (∃ e, s.executes[x]? = some e ∧ e'.signal = e.signal ∧ ExecuteTurn s t x e e'.phase) ∨
    (∃ error, e'.phase = .finished (.error error)) ∨
    ∃ attempt i job, e'.phase = .waiting attempt i ∧ t.jobs[i]? = some job ∧ job.owner = x

section Executes

variable {ev : Event V} {x : Nat} {e' : Execute V}

theorem executeAfter_of_executes (h : t.executes = s.executes) (he' : t.executes[x]? = some e') :
    ExecuteAfter s t x e' := .inl ⟨e', h ▸ he', rfl, .kept⟩

theorem executeAfter_of_setExecute {y : Nat} {e : Execute V} (new : Execute V)
    (he : s.executes[y]? = some e) (hset : t.executes = (s.setExecute y new).executes)
    (hsignal : new.signal = e.signal) (hturn : ExecuteTurn s t y e new.phase) (he' : t.executes[x]? = some e') :
    ExecuteAfter s t x e' := by
  rw [hset, State.setExecute, List.getElem?_set] at he'
  by_cases hyx : y = x
  · subst hyx
    rw [if_pos rfl, if_pos (List.getElem?_eq_some_iff.mp he).1] at he'
    cases he'
    exact .inl ⟨e, he, hsignal, hturn⟩
  · rw [if_neg hyx] at he'
    exact .inl ⟨e', he', rfl, .kept⟩

theorem executeAfter_of_finish {y : Nat} {e : Execute V} {result : Except ThrownValue V}
    (he : s.executes[y]? = some e) (hturn : ExecuteTurn s (s.finish y e result) y e (.finished result))
    (he' : (s.finish y e result).executes[x]? = some e') :
    ExecuteAfter s (s.finish y e result) x e' :=
  executeAfter_of_setExecute { e with phase := .finished result } he rfl rfl hturn he'

theorem executeAfter_of_beginAttempt {y : Nat} {e : Execute V} (he : s.executes[y]? = some e)
    (attempt : Nat) (he' : (s.beginAttempt y e attempt).executes[x]? = some e') :
    ExecuteAfter s (s.beginAttempt y e attempt) x e' := by
  rcases beginAttempt_cases s y e attempt with ⟨error, hb⟩ | ⟨-, hb⟩
  · rw [hb] at he' ⊢
    exact executeAfter_of_finish he .gaveUp he'
  · rw [hb] at he' ⊢
    refine executeAfter_of_setExecute { e with phase := .waiting attempt s.jobs.length } he rfl rfl ?_ he'
    exact .begun List.getElem?_concat_length rfl

/-- Counting a call leaves every call where it stands. -/
theorem executeAfter_of_modify {y : Nat} (f : Execute V → Execute V)
    (hf : ∀ e, (f e).phase = e.phase ∧ (f e).signal = e.signal)
    (hexecutes : t.executes = s.executes.modify y f) (he' : t.executes[x]? = some e') :
    ExecuteAfter s t x e' := by
  rw [hexecutes, List.getElem?_modify, Option.map_eq_map, Option.map_eq_some_iff] at he'
  obtain ⟨e, he, rfl⟩ := he'
  refine .inl ⟨e, he, ?_, ?_⟩
  · by_cases hyx : y = x
    · simp [hyx, hf]
    · simp [hyx]
  · have hphase : (if y = x then f e else e).phase = e.phase := by
      by_cases hyx : y = x
      · simp [hyx, hf]
      · simp [hyx]
    rw [hphase]
    exact .kept

theorem executeAfter_of_abort (signal : SignalId) (reason : ThrownValue)
    (he' : (s.abort signal reason).executes[x]? = some e') :
    ExecuteAfter s (s.abort signal reason) x e' := by
  rw [State.abort, List.getElem?_map, Option.map_eq_some_iff] at he'
  obtain ⟨e, he, rfl⟩ := he'
  left
  by_cases hsignal : e.signal = some signal
  · rw [if_pos hsignal]
    refine ⟨e, he, signal_abort _ _, ?_⟩
    have haborted : Aborted (s.abort signal reason) e.signal := hsignal ▸ aborted_abort signal reason
    obtain ⟨signal', phase, requestCalls⟩ := e
    cases phase with
    | waiting attempt i => exact .aborted haborted
    | sleeping attempt => exact .slept
    | attempted attempt i r => exact .kept
    | slept attempt r => exact .slept
    | finished r => exact .kept
  · rw [if_neg hsignal]
    exact ⟨e, he, rfl, .kept⟩

/-- The calls after one more, which has moved to a phase. -/
theorem executes_enter_set (signal : Option SignalId) {new : Execute V}
    (he' : ((s.enter signal).executes.set s.executes.length new)[x]? = some e') :
    s.executes[x]? = some e' ∨ x = s.executes.length ∧ e' = new := by
  rw [List.getElem?_set] at he'
  by_cases hx : s.executes.length = x
  · rw [if_pos hx, if_pos (by simp [State.enter])] at he'
    cases he'
    exact .inr ⟨hx.symm, rfl⟩
  · rw [if_neg hx, State.enter] at he'
    by_cases hlt : x < s.executes.length
    · rw [List.getElem?_append_left hlt] at he'
      exact .inl he'
    · rw [List.getElem?_eq_none (by simp; omega)] at he'
      cases he'

/-- **What every event does to a call.** -/
theorem Turn.execute (h : Turn executor s ev t) (he' : t.executes[x]? = some e') :
    ExecuteAfter s t x e' := by
  cases h with
  | called signal =>
      rw [call_eq] at he' ⊢
      rcases beginAttempt_cases (s.enter signal) s.executes.length ⟨signal, .sleeping 0, 0⟩ 0 with
        ⟨error, hb⟩ | ⟨-, hb⟩
      · rw [hb] at he' ⊢
        rcases executes_enter_set signal he' with hold | ⟨-, rfl⟩
        · exact .inl ⟨e', hold, rfl, .kept⟩
        · exact .inr (.inl ⟨error, rfl⟩)
      · rw [hb] at he' ⊢
        rcases executes_enter_set signal he' with hold | ⟨rfl, rfl⟩
        · exact .inl ⟨e', hold, rfl, .kept⟩
        · exact .inr (.inr ⟨0, s.jobs.length, _, rfl, List.getElem?_concat_length, rfl⟩)
  | aborted => exact executeAfter_of_abort _ _ he'
  | @started j job hjob hphase hslot =>
      rcases startJob_cases s j job with ⟨outcome, hs⟩ | ⟨-, hs⟩
      · rw [hs] at he' ⊢
        exact executeAfter_of_executes rfl he'
      · rw [hs] at he' ⊢
        exact executeAfter_of_modify (fun e => { e with requestCalls := e.requestCalls + 1 })
          (fun _ => ⟨rfl, rfl⟩) rfl he'
  | dropped => exact executeAfter_of_executes rfl he'
  | timedOut => exact executeAfter_of_executes rfl he'
  | settled => exact executeAfter_of_executes rfl he'
  | delivered he hphase hjob hr =>
      exact executeAfter_of_setExecute _ he rfl rfl (.delivered hphase hjob hr) he'
  | sleptUntil he => exact executeAfter_of_setExecute _ he rfl rfl .slept he'
  | succeeded he hphase => exact executeAfter_of_finish he (.succeeded hphase) he'
  | @failed y attempt i e error delayMs he hphase =>
      rcases afterFailure_cases executor s y e attempt error delayMs with
        ⟨error', h⟩ | ⟨-, -, -, h⟩
      · rw [h] at he' ⊢
        exact executeAfter_of_finish he .gaveUp he'
      · rw [h] at he' ⊢
        exact executeAfter_of_setExecute { e with phase := .sleeping attempt } he rfl rfl .sleeping he'
  | @awoke y attempt e delayMs he =>
      rcases afterSleep_cases executor s y e attempt with ⟨error, h⟩ | h
      · rw [h] at he' ⊢
        exact executeAfter_of_finish he .gaveUp he'
      · rw [h] at he' ⊢
        exact executeAfter_of_beginAttempt he _ he'
  | sleepFailed he => exact executeAfter_of_finish he .gaveUp he'

end Executes

/-! ### What a run hands on -/

variable {P : ThrownValue → Prop} {Q : V → Prop}

/-- A result of a call: a value that is admitted, or a failure that is, or any once its signal was
aborted. -/
def Admitted (P : ThrownValue → Prop) (Q : V → Prop) (s : State V) (signal : Option SignalId) :
    Except ThrownValue V → Prop
  | .ok value => Q value
  | .error error => P error ∨ Aborted s signal

/-- What the operations return and throw, and what the limiter drops a job with, is admitted. -/
def Supplies (P : ThrownValue → Prop) (Q : V → Prop) : Event V → Prop
  | .settle _ (.ok value) => Q value
  | .settle _ (.error error) => P (operationError none error)
  | .drop _ error => P error
  | _ => True

/-- **The invariant of the results.** -/
structure ResultsAdmitted (P : ThrownValue → Prop) (Q : V → Prop) (s : State V) : Prop where
  owned : ∀ {i : Nat} {job : Job V}, s.jobs[i]? = some job → job.owner < s.executes.length
  outcomes : ∀ {i : Nat} {job : Job V} {r : Except ThrownValue V}, s.jobs[i]? = some job →
    job.outcome = some r → Admitted P Q s (s.signalOf job) r
  cancelled : ∀ {i : Nat} {job : Job V} {error : ThrownValue}, s.jobs[i]? = some job →
    job.phase = .calling (some error) → P error ∨ Aborted s (s.signalOf job)
  waiting : ∀ {x attempt i : Nat} {e : Execute V}, s.executes[x]? = some e →
    e.phase = .waiting attempt i → ∃ job, s.jobs[i]? = some job ∧ job.owner = x
  attempted : ∀ {x attempt i : Nat} {e : Execute V} {r : Except ThrownValue V},
    s.executes[x]? = some e → e.phase = .attempted attempt i r → Admitted P Q s e.signal r
  finished : ∀ {x : Nat} {e : Execute V} {value : V}, s.executes[x]? = some e →
    e.phase = .finished (.ok value) → Q value

theorem resultsAdmitted_initial : ResultsAdmitted P Q (State.initial V) where
  owned h := by cases h
  outcomes h := by cases h
  cancelled h := by cases h
  waiting h := by cases h
  attempted h := by cases h
  finished h := by cases h

theorem Admitted.mono (hext : Extends s t) {signal : Option SignalId} {r : Except ThrownValue V}
    (h : Admitted P Q s signal r) : Admitted P Q t signal r := by
  cases r with
  | ok value => exact h
  | error error => exact h.imp_right (Aborted.mono hext)

theorem signalOf_of_owner {job job' : Job V} (h : job'.owner = job.owner) :
    s.signalOf job' = s.signalOf job := by
  rw [State.signalOf, State.signalOf, h]

/-- **Every event hands on what is admitted.** -/
theorem ResultsAdmitted.turn (hs : ResultsAdmitted P Q s) (htimeout : P (timeoutError executor))
    {ev : Event V} (hev : Supplies P Q ev) (h : Turn executor s ev t) : ResultsAdmitted P Q t where
  owned hjob' := by
    rcases h.job hjob' with ⟨job, hjob, howner, -⟩ | ⟨-, hlt⟩
    · exact howner ▸ h.extends.lt_length (hs.owned hjob)
    · exact hlt
  outcomes hjob' hr := by
    obtain ⟨job, hjob, howner, hfrom⟩ := h.outcome hjob' hr
    rw [signalOf_of_owner howner, h.extends.signalOf (hs.owned hjob)]
    rcases hfrom with hbefore | hsupplied
    · exact (hs.outcomes hjob hbefore).mono h.extends
    cases hsupplied with
    | aborted haborted => exact .inr haborted
    | timedOut => exact .inl htimeout
    | dropped => exact .inl hev
    | returned => exact hev
    | threw => exact .inl hev
    | cancelled hphase => exact (hs.cancelled hjob hphase).imp_right (Aborted.mono h.extends)
  cancelled {i job' error} hjob' hphase' := by
    rcases h.job hjob' with ⟨job, hjob, howner, hturn⟩ | ⟨hqueued, -⟩
    · rw [signalOf_of_owner howner, h.extends.signalOf (hs.owned hjob)]
      rw [hphase'] at hturn
      generalize hp : JobPhase.calling (some error) = phase at hturn
      cases hturn with
      | kept => exact (hs.cancelled hjob hp.symm).imp_right (Aborted.mono h.extends)
      | settled => cases hp
      | started => cases hp
      | timedOut => cases hp; exact .inl htimeout
      | @aborted signal reason hphase hsignal =>
          cases h
          exact .inr (hsignal ▸ aborted_abort signal reason)
    · rw [hqueued] at hphase'
      cases hphase'
  waiting {x attempt i e'} he' hphase' := by
    rcases h.execute he' with ⟨e, he, -, hturn⟩ | ⟨error, hnew⟩ | ⟨attempt', i', job, hnew, hjob, howner⟩
    · rw [hphase'] at hturn
      generalize hp : ExecutePhase.waiting attempt i = phase at hturn
      cases hturn with
      | kept =>
          obtain ⟨job, hjob, rfl⟩ := hs.waiting he hp.symm
          exact h.jobsKept i job hjob
      | begun hjob howner => cases hp; exact ⟨_, hjob, howner⟩
      | _ => cases hp
    · rw [hnew] at hphase'
      cases hphase'
    · rw [hnew] at hphase'
      cases hphase'
      exact ⟨job, hjob, howner⟩
  attempted {x attempt i e' r} he' hphase' := by
    rcases h.execute he' with ⟨e, he, hsignal, hturn⟩ | ⟨error, hnew⟩ | ⟨_, _, _, hnew, -, -⟩
    · rw [hsignal]
      rw [hphase'] at hturn
      generalize hp : ExecutePhase.attempted attempt i r = phase at hturn
      cases hturn with
      | kept => exact (hs.attempted he hp.symm).mono h.extends
      | delivered hphase hjob hr =>
          cases hp
          -- the job a call waits for is its own
          obtain ⟨job, hjob₁, howner⟩ := hs.waiting he hphase
          obtain rfl := Option.some.inj (hjob.symm.trans hjob₁)
          have hadmitted := (hs.outcomes hjob hr).mono h.extends
          rw [State.signalOf, howner, he, Option.bind_some] at hadmitted
          exact hadmitted
      | aborted haborted => cases hp; exact .inr haborted
      | _ => cases hp
    · rw [hnew] at hphase'
      cases hphase'
    · rw [hnew] at hphase'
      cases hphase'
  finished {x e' value} he' hphase' := by
    rcases h.execute he' with ⟨e, he, -, hturn⟩ | ⟨error, hnew⟩ | ⟨_, _, _, hnew, -, -⟩
    · rw [hphase'] at hturn
      generalize hp : (ExecutePhase.finished (.ok value) : ExecutePhase V) = phase at hturn
      cases hturn with
      | kept => exact hs.finished he hp.symm
      | succeeded hphase => cases hp; exact hs.attempted he hphase
      | _ => cases hp
    · rw [hnew] at hphase'
      cases hphase'
    · rw [hnew] at hphase'
      cases hphase'

/-! ### The last failure -/

section Failures

variable {log : List Entry} {ev : Event V}

/-- An event logs one entry at most. -/
theorem entries_cases (s t : State V) (ev : Event V) :
    entries s t ev = [] ∨ ∃ entry, entries s t ev = [entry] := by
  unfold entries
  split
  · split
    · split
      · exact .inr ⟨_, rfl⟩
      · exact .inl rfl
    · exact .inl rfl
  · split
    · exact .inr ⟨_, rfl⟩
    · exact .inl rfl
  · exact .inl rfl

/-- A failure that is logged is the one a call goes on from. -/
theorem failure_logged (h : Turn executor s ev t) {x : Nat} {error : ThrownValue}
    (hmem : .failure x error ∈ entries s t ev) :
    ∃ e attempt i delayMs, s.executes[x]? = some e ∧
      e.phase = .attempted attempt i (.error error) ∧
      t = afterFailure executor s x e attempt error delayMs := by
  cases h with
  | @failed y attempt i e error' delayMs he hphase =>
      rw [entries_failed _ delayMs he hphase, List.mem_singleton, Entry.failure.injEq] at hmem
      obtain ⟨rfl, rfl⟩ := hmem
      exact ⟨e, attempt, i, delayMs, he, hphase, rfl⟩
  | @started i job hjob hphase hslot =>
      simp only [entries] at hmem
      split at hmem
      · split at hmem <;> simp at hmem
      · cases hmem
  | succeeded he hphase =>
      rw [entries_resumed _ _ he fun _ _ _ hf => by rw [hphase] at hf; cases hf] at hmem
      cases hmem
  | awoke he hphase =>
      rw [entries_resumed _ _ he fun _ _ _ hf => by rw [hphase] at hf; cases hf] at hmem
      cases hmem
  | sleepFailed he hphase =>
      rw [entries_resumed _ _ he fun _ _ _ hf => by rw [hphase] at hf; cases hf] at hmem
      cases hmem
  | _ => simp [entries] at hmem

/-- After a failure the call has settled, unless it is an admitted one that is transient. -/
theorem settled_of_failure (hs : ResultsAdmitted P Q s) (h : Turn executor s ev t) {x : Nat}
    {error : ThrownValue} (hmem : .failure x error ∈ entries s t ev) :
    (P error ∧ executor.classifyError error = true) ∨ Settled t x := by
  obtain ⟨e, attempt, i, delayMs, he, hphase, rfl⟩ := failure_logged h hmem
  rcases afterFailure_cases executor s x e attempt error delayMs with
    ⟨error', hf⟩ | ⟨hreason, -, hretry, -⟩
  · right
    rw [hf]
    refine ⟨{ e with phase := .finished (.error error') }, ?_, rfl⟩
    exact List.getElem?_set_self (List.getElem?_eq_some_iff.mp he).1
  · left
    -- the signal is not aborted, so that the failure is admitted
    exact ⟨(hs.attempted he hphase).resolve_right fun haborted => haborted hreason, hretry⟩

/-- Where a failure stands in the log and its operation is called afterwards, it is an admitted one that
is transient. -/
def FailuresLast (executor : SocrataRequestExecutor) (P : ThrownValue → Prop) (log : List Entry) :
    Prop :=
  ∀ x error before after, log = before ++ .failure x error :: after → .call x ∈ after →
    P error ∧ executor.classifyError error = true

theorem failuresLast_nil : FailuresLast executor P [] := by
  intro x error before after hlog
  simp at hlog

/-- An entry that calls no operation whose failure was the last keeps the log so. -/
theorem FailuresLast.concat (h : FailuresLast executor P log) {entry : Entry}
    (hentry : ∀ x error, entry = .call x → .failure x error ∈ log →
      P error ∧ executor.classifyError error = true) : FailuresLast executor P (log ++ [entry]) := by
  intro x error before after hlog hcall
  rcases List.eq_nil_or_concat' after with rfl | ⟨after', last, rfl⟩
  · cases hcall
  · rw [← List.cons_append, ← List.append_assoc] at hlog
    obtain ⟨hbefore, hlast⟩ := List.append_inj' hlog rfl
    rcases List.mem_append.mp hcall with hold | hnew
    · exact h x error before after' hbefore hold
    · refine hentry x error ?_ (by rw [hbefore]; simp)
      rw [List.head_eq_of_cons_eq hlast, List.mem_singleton.mp hnew]

/-- A run, with what is known of it. -/
structure ResultsInvariant (executor : SocrataRequestExecutor) (P : ThrownValue → Prop) (Q : V → Prop)
    (s : State V) (log : List Entry) : Prop where
  accounted : Accounted executor s log
  results : ResultsAdmitted P Q s
  settled : ∀ x error, .failure x error ∈ log →
    (P error ∧ executor.classifyError error = true) ∨ Settled s x
  last : FailuresLast executor P log

theorem resultsInvariant_next (htimeout : P (timeoutError executor)) (hev : Supplies P Q ev)
    (hs : ResultsInvariant executor P Q s log) (h : Turn executor s ev t) :
    ResultsInvariant executor P Q t (log ++ entries s t ev) where
  accounted := hs.accounted.turn h
  results := hs.results.turn htimeout hev h
  settled x error hmem := by
    rcases List.mem_append.mp hmem with hold | hnew
    · exact (hs.settled x error hold).imp_right fun hsettled => hsettled.turn h
    · exact settled_of_failure hs.results h hnew
  last := by
    rcases entries_cases s t ev with hnone | ⟨entry, hone⟩
    · rw [hnone, List.append_nil]
      exact hs.last
    · rw [hone]
      refine hs.last.concat fun x error hcall hmem => (hs.settled x error hmem).resolve_right ?_
      -- a call that has settled calls nothing
      rintro ⟨f, hf, hfinished⟩
      obtain ⟨e, attempt, i, he, -, hphase⟩ := hs.accounted.called h (x := x) (by rw [hone, hcall]; simp)
      obtain rfl := Option.some.inj (hf.symm.trans he)
      rw [hphase] at hfinished
      cases hfinished

/-- **What a run hands on, and its last failures.** -/
theorem resultsInvariant_of_steps (htimeout : P (timeoutError executor))
    (h : Steps (loggedNext executor) (fun _ ev => Supplies P Q ev) (State.initial V, []) (s, log)) :
    ResultsInvariant executor P Q s log := by
  refine h.invariant (I := fun p => ResultsInvariant executor P Q p.1 p.2) (fun {p q ev} hI hev hnext => ?_)
    ⟨accounted_initial, resultsAdmitted_initial, fun _ _ hmem => (by cases hmem), failuresLast_nil⟩
  obtain ⟨t, ht, rfl⟩ := Option.map_eq_some_iff.mp hnext
  exact resultsInvariant_next htimeout hev hI (turn_of_next ht)

end Failures

end RequestExecutor

end NycPropertyResolver
