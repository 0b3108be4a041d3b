import NycPropertyResolver.Clients.RequestExecutor

/-!
# Clients — what a turn of the request executor does

What one event does to the calls (`Turn.extends`), to a job (`Turn.job`) and to the signals
(`Turn.reasons`) of a request executor.
-/

namespace NycPropertyResolver

open Library

namespace RequestExecutor

variable {V : Type} {executor : SocrataRequestExecutor} {s t : State V}

/-! ### Calls and their signals -/

/-- The signal was aborted. -/
def Aborted (s : State V) (signal : Option SignalId) : Prop := s.reason signal ≠ none

/-- The calls of `s` are calls of `t`, and what was aborted stays so. -/
structure Extends (s t : State V) : Prop where
  executes : ∀ {x : Nat} {e : Execute V}, s.executes[x]? = some e →
    ∃ e' : Execute V, t.executes[x]? = some e' ∧ e'.signal = e.signal
  reasons : ∀ {signal : SignalId}, s.reasons signal ≠ none → t.reasons signal ≠ none

theorem Extends.refl (s : State V) : Extends s s := ⟨fun he => ⟨_, he, rfl⟩, id⟩

theorem Extends.trans {u : State V} (h₁ : Extends s t) (h₂ : Extends t u) : Extends s u where
  executes he := by
    obtain ⟨e', he', hsignal⟩ := h₁.executes he
    obtain ⟨e'', he'', hsignal'⟩ := h₂.executes he'
    exact ⟨e'', he'', hsignal'.trans hsignal⟩
  reasons h := h₂.reasons (h₁.reasons h)

theorem Aborted.mono (hext : Extends s t) {signal : Option SignalId} (h : Aborted s signal) :
    Aborted t signal := by
  cases signal with
  | none => exact absurd rfl h
  | some signal => exact hext.reasons h

theorem Extends.lt_length (hext : Extends s t) {x : Nat} (h : x < s.executes.length) :
    x < t.executes.length := by
  obtain ⟨e', he', -⟩ := hext.executes (List.getElem?_eq_getElem h)
  exact (List.getElem?_eq_some_iff.mp he').1

theorem Extends.signalOf (hext : Extends s t) {job : Job V} (h : job.owner < s.executes.length) :
    t.signalOf job = s.signalOf job := by
  have he := List.getElem?_eq_getElem h
  obtain ⟨e', he', hsignal⟩ := hext.executes he
  rw [State.signalOf, State.signalOf, he, he', Option.bind_some, Option.bind_some, hsignal]

theorem extends_setExecute {x : Nat} {e : Execute V} (he : s.executes[x]? = some e)
    (e' : Execute V) (hsignal : e'.signal = e.signal) : Extends s (s.setExecute x e') where
  executes := by
    intro y f hf
    by_cases hxy : x = y
    · subst hxy
      rw [he] at hf
      cases hf
      refine ⟨e', ?_, hsignal⟩
      rw [State.setExecute, List.getElem?_set_self (List.getElem?_eq_some_iff.mp he).1]
    · refine ⟨f, ?_, rfl⟩
      rw [State.setExecute, List.getElem?_set_ne hxy]
      exact hf
  reasons := id

theorem extends_setJob (i : Nat) (job : Job V) : Extends s (s.setJob i job) :=
  ⟨fun he => ⟨_, he, rfl⟩, id⟩

theorem extends_finish {x : Nat} {e : Execute V} (he : s.executes[x]? = some e)
    (result : Except ThrownValue V) : Extends s (s.finish x e result) := by
  have hset := extends_setExecute he { e with phase := .finished result } rfl
  exact ⟨hset.executes, hset.reasons⟩

theorem extends_beginAttempt {x : Nat} {e : Execute V} (he : s.executes[x]? = some e)
    (attempt : Nat) : Extends s (s.beginAttempt x e attempt) := by
  rcases beginAttempt_cases s x e attempt with ⟨error, h⟩ | ⟨-, h⟩
  · rw [h]
    exact extends_finish he _
  · rw [h]
    have hset := extends_setExecute he { e with phase := .waiting attempt s.jobs.length } rfl
    exact ⟨hset.executes, hset.reasons⟩

/-- A new call, before its first attempt. -/
def State.enter (s : State V) (signal : Option SignalId) : State V :=
  { s with executes := s.executes ++ [⟨signal, .sleeping 0, 0⟩] }

theorem call_eq (signal : Option SignalId) :
    s.call signal = (s.enter signal).beginAttempt s.executes.length ⟨signal, .sleeping 0, 0⟩ 0 := rfl

theorem enter_executes (signal : Option SignalId) :
    (s.enter signal).executes[s.executes.length]? = some ⟨signal, .sleeping 0, 0⟩ := by
  rw [State.enter, List.getElem?_append_right (le_refl _), Nat.sub_self]
  rfl

theorem extends_enter (signal : Option SignalId) : Extends s (s.enter signal) where
  executes he := ⟨_, by
    rw [State.enter, List.getElem?_append_left (List.getElem?_eq_some_iff.mp he).1]
    exact he, rfl⟩
  reasons := id

theorem extends_startJob (i : Nat) (job : Job V) : Extends s (s.startJob i job) := by
  rcases startJob_cases s i job with ⟨outcome, h⟩ | ⟨-, h⟩
  · rw [h]
    exact extends_setJob i _
  · rw [h]
    refine ⟨?_, id⟩
    intro x e he
    refine ⟨_, by rw [List.getElem?_modify, he]; rfl, ?_⟩
    by_cases hx : job.owner = x
    · simp [hx]
    · simp [hx]

theorem signal_abort (e : Execute V) (error : ThrownValue) : (e.abort error).signal = e.signal := by
  rw [Execute.abort]
  cases e.phase <;> rfl

theorem extends_abort {signal : SignalId} (reason : ThrownValue) :
    Extends s (s.abort signal reason) where
  executes := by
    intro x e he
    refine ⟨_, by rw [State.abort, List.getElem?_map, he, Option.map_some], ?_⟩
    by_cases hsignal : e.signal = some signal
    · rw [if_pos hsignal, signal_abort]
    · rw [if_neg hsignal]
  reasons := by
    intro other h
    show (if other = signal then some reason else s.reasons other) ≠ none
    by_cases hother : other = signal
    · rw [if_pos hother]
      exact Option.some_ne_none _
    · rw [if_neg hother]
      exact h

/-- **Every event keeps the calls and what was aborted.** -/
theorem Turn.extends {ev : Event V} (h : Turn executor s ev t) : Extends s t := by
  cases h with
  | called signal => exact (extends_enter signal).trans (extends_beginAttempt (enter_executes signal) 0)
  | aborted => exact extends_abort _
  | started => exact extends_startJob _ _
  | dropped => exact extends_setJob _ _
  | timedOut => exact extends_setJob _ _
  | settled => exact extends_setJob _ _
  | delivered he => exact extends_setExecute he _ rfl
  | sleptUntil he => exact extends_setExecute he _ rfl
  | succeeded he => exact extends_finish he _
  | @failed x attempt i e error delayMs he =>
      rcases afterFailure_cases executor s x e attempt error delayMs with
        ⟨error', h⟩ | ⟨-, -, -, h⟩
      · rw [h]
        exact extends_finish he _
      · rw [h]
        exact extends_setExecute he _ rfl
  | @awoke x attempt e delayMs he =>
      rcases afterSleep_cases executor s x e attempt with ⟨error, h⟩ | h
      · rw [h]
        exact extends_finish he _
      · rw [h]
        exact extends_beginAttempt he _
  | sleepFailed he => exact extends_finish he _

/-! ### What an event does to a job -/

/-- The error of a timed-out attempt. -/
def timeoutError (executor : SocrataRequestExecutor) : ThrownValue :=
  createTimeoutError executor.requestTimeoutMs .primitive

theorem owner_cancel (job : Job V) (error : ThrownValue) : (job.cancel error).owner = job.owner := by
  unfold Job.cancel
  split <;> rfl

theorem phase_cancel {job : Job V} (hphase : job.phase = .calling none) (error : ThrownValue) :
    (job.cancel error).phase = .calling (some error) := by
  unfold Job.cancel
  rw [hphase]

theorem cancel_eq_self {job : Job V} (hphase : job.phase ≠ .calling none) (error : ThrownValue) :
    job.cancel error = job := by
  unfold Job.cancel
  split
  · contradiction
  · rfl

/-- The signal an event aborts, and the reason. -/
def Event.aborts : Event V → Option (SignalId × ThrownValue)
  | .abort signal reason => some (signal, reason)
  | _ => none

/-- Where a job stands after an event. -/
inductive JobTurn (executor : SocrataRequestExecutor) (s : State V) (i : Nat) (job : Job V) :
    Event V → JobPhase → Prop where
  | kept {ev : Event V} (hkept : ∀ signal reason, ev.aborts = some (signal, reason) →
      job.phase = .calling none → s.signalOf job ≠ some signal) : JobTurn executor s i job ev job.phase
  | settled {ev : Event V} : JobTurn executor s i job ev .settled
  | started (hphase : job.phase = .queued) (hreason : s.reason (s.signalOf job) = none) :
      JobTurn executor s i job (.start i) (.calling none)
  | timedOut (hphase : job.phase = .calling none) :
      JobTurn executor s i job (.timeout i) (.calling (some (timeoutError executor)))
  | aborted {signal : SignalId} {reason : ThrownValue} (hphase : job.phase = .calling none)
      (hsignal : s.signalOf job = some signal) :
      JobTurn executor s i job (.abort signal reason) (.calling (some (createAbortError reason)))

/-- A job after an event: one there was, or a new one. -/
def JobAfter (executor : SocrataRequestExecutor) (s t : State V) (ev : Event V) (i : Nat)
    (job' : Job V) : Prop :=
  (∃ job, s.jobs[i]? = some job ∧ job'.owner = job.owner ∧ JobTurn executor s i job ev job'.phase) ∨
    job'.phase = .queued ∧ job'.owner < t.executes.length

theorem kept_of_aborts {ev : Event V} (hev : ev.aborts = none) (i : Nat) (job : Job V) :
    JobTurn executor s i job ev job.phase := by
  refine .kept fun signal reason he => ?_
  rw [hev] at he
  cases he

theorem jobAfter_of_jobs (s : State V) (ev : Event V) (hev : ev.aborts = none) (hjobs : t.jobs = s.jobs) {i : Nat}
    {job' : Job V} (h : t.jobs[i]? = some job') : JobAfter executor s t ev i job' :=
  .inl ⟨job', hjobs ▸ h, rfl, kept_of_aborts hev i job'⟩

theorem jobAfter_of_setJob {ev : Event V} (hev : ev.aborts = none) {j : Nat} {job : Job V}
    (hjob : s.jobs[j]? = some job) (new : Job V) (hjobs : t.jobs = (s.setJob j new).jobs)
    (howner : new.owner = job.owner) (hturn : JobTurn executor s j job ev new.phase) {i : Nat}
    {job' : Job V} (h : t.jobs[i]? = some job') : JobAfter executor s t ev i job' := by
  rw [hjobs, State.setJob, List.getElem?_set] at h
  by_cases hij : j = i
  · subst hij
    rw [if_pos rfl, if_pos (List.getElem?_eq_some_iff.mp hjob).1] at h
    cases h
    exact .inl ⟨job, hjob, howner, hturn⟩
  · rw [if_neg hij] at h
    exact .inl ⟨job', h, rfl, kept_of_aborts hev i job'⟩

theorem jobAfter_of_beginAttempt (s : State V) (ev : Event V) (hev : ev.aborts = none) {u : State V}
    (hjobs : u.jobs = s.jobs) {x : Nat} {e : Execute V} (he : u.executes[x]? = some e)
    (attempt : Nat) {i : Nat} {job' : Job V}
    (h : (u.beginAttempt x e attempt).jobs[i]? = some job') :
    JobAfter executor s (u.beginAttempt x e attempt) ev i job' := by
  have hlt := (extends_beginAttempt he attempt).lt_length (List.getElem?_eq_some_iff.mp he).1
  rcases beginAttempt_cases u x e attempt with ⟨error, hb⟩ | ⟨-, hb⟩
  · refine jobAfter_of_jobs s ev hev ?_ h
    rw [hb]
    exact hjobs
  · rw [hb] at h
    by_cases hi : i < u.jobs.length
    · rw [List.getElem?_append_left hi, hjobs] at h
      exact .inl ⟨job', h, rfl, kept_of_aborts hev i job'⟩
    · rw [List.getElem?_append_right (Nat.le_of_not_lt hi), List.getElem?_singleton] at h
      split at h
      · cases h
        exact .inr ⟨rfl, hlt⟩
      · cases h

theorem jobAfter_of_abort (signal : SignalId) (reason : ThrownValue) {i : Nat} {job' : Job V}
    (h : (s.abort signal reason).jobs[i]? = some job') :
    JobAfter executor s (s.abort signal reason) (.abort signal reason) i job' := by
  rw [State.abort, List.getElem?_map, Option.map_eq_some_iff] at h
  obtain ⟨job, hjob, rfl⟩ := h
  left
  by_cases hsignal : s.signalOf job = some signal
  · rw [if_pos hsignal]
    refine ⟨job, hjob, owner_cancel _ _, ?_⟩
    by_cases hphase : job.phase = .calling none
    · rw [phase_cancel hphase]
      exact .aborted hphase hsignal
    · rw [cancel_eq_self hphase]
      exact .kept fun _ _ _ hcalling => absurd hcalling hphase
  · rw [if_neg hsignal]
    refine ⟨job, hjob, rfl, .kept fun signal' reason' he _ hsignal' => hsignal ?_⟩
    cases he
    exact hsignal'

/-- **What every event does to a job.** -/
theorem Turn.job {ev : Event V} (h : Turn executor s ev t) {i : Nat} {job' : Job V}
    (hjob' : t.jobs[i]? = some job') : JobAfter executor s t ev i job' := by
  cases h with
  | called signal =>
      exact jobAfter_of_beginAttempt (u := s.enter signal) s (.call signal) rfl rfl (enter_executes signal) 0 hjob'
  | aborted => exact jobAfter_of_abort _ _ hjob'
  | @started j job hjob hphase hslot =>
      rcases startJob_cases s j job with ⟨outcome, hs⟩ | ⟨hreason, hs⟩
      · exact jobAfter_of_setJob rfl hjob ⟨job.owner, .settled, outcome⟩ (by rw [hs]) rfl .settled
          hjob'
      · exact jobAfter_of_setJob rfl hjob { job with phase := .calling none } (by rw [hs]) rfl
          (.started hphase hreason) hjob'
  | @dropped j job error hjob hphase =>
      exact jobAfter_of_setJob rfl hjob
        { job.settleOutcome (.error error) with phase := .settled } rfl rfl .settled hjob'
  | @timedOut j job hjob hphase =>
      refine jobAfter_of_setJob rfl hjob (job.cancel (timeoutError executor)) rfl (owner_cancel _ _)
        ?_ hjob'
      rw [phase_cancel hphase]
      exact .timedOut hphase
  | @settled j job cancellation result hjob hphase =>
      exact jobAfter_of_setJob rfl hjob (job.settle cancellation result) rfl rfl .settled hjob'
  | delivered => exact .inl ⟨job', hjob', rfl, kept_of_aborts rfl i job'⟩
  | sleptUntil => exact .inl ⟨job', hjob', rfl, kept_of_aborts rfl i job'⟩
  | succeeded => exact .inl ⟨job', hjob', rfl, kept_of_aborts rfl i job'⟩
  | @failed x attempt j e error delayMs he =>
      rcases afterFailure_cases executor s x e attempt error delayMs with
        ⟨error', hf⟩ | ⟨-, -, -, hf⟩
      · exact jobAfter_of_jobs s _ rfl (by rw [hf]; rfl) hjob'
      · exact jobAfter_of_jobs s _ rfl (by rw [hf]; rfl) hjob'
  | @awoke x attempt e delayMs he =>
      rcases afterSleep_cases executor s x e attempt with ⟨error, ha⟩ | ha
      · exact jobAfter_of_jobs s _ rfl (by rw [ha]; rfl) hjob'
      · rw [ha] at hjob' ⊢
        exact jobAfter_of_beginAttempt s _ rfl rfl he _ hjob'
  | sleepFailed => exact .inl ⟨job', hjob', rfl, kept_of_aborts rfl i job'⟩

/-! ### What an event does to the signals -/

theorem reasons_beginAttempt (x : Nat) (e : Execute V) (attempt : Nat) :
    (s.beginAttempt x e attempt).reasons = s.reasons := by
  rcases beginAttempt_cases s x e attempt with ⟨error, h⟩ | ⟨-, h⟩
  · rw [h]
    rfl
  · rw [h]
    rfl

/-- Only an abort aborts. -/
theorem Turn.reasons {ev : Event V} (h : Turn executor s ev t) :
    t.reasons = s.reasons ∨ ∃ signal reason, ev = .abort signal reason ∧
      s.reasons signal = none ∧
      t.reasons = fun other => if other = signal then some reason else s.reasons other := by
  cases h with
  | called signal => exact .inl (by rw [call_eq, reasons_beginAttempt]; rfl)
  | aborted hfirst => exact .inr ⟨_, _, rfl, hfirst, rfl⟩
  | @started i job =>
      left
      rcases startJob_cases s i job with ⟨outcome, h⟩ | ⟨-, h⟩
      · rw [h]
        rfl
      · rw [h]
        rfl
  | dropped => exact .inl rfl
  | timedOut => exact .inl rfl
  | settled => exact .inl rfl
  | delivered => exact .inl rfl
  | sleptUntil => exact .inl rfl
  | succeeded => exact .inl rfl
  | @failed x attempt i e error delayMs =>
      left
      rcases afterFailure_cases executor s x e attempt error delayMs with
        ⟨error', h⟩ | ⟨-, -, -, h⟩
      · rw [h]
        rfl
      · rw [h]
        rfl
  | @awoke x attempt e =>
      left
      rcases afterSleep_cases executor s x e attempt with ⟨error, h⟩ | h
      · rw [h]
        rfl
      · rw [h, reasons_beginAttempt]
  | sleepFailed => exact .inl rfl

theorem aborted_of_turn {ev : Event V} (h : Turn executor s ev t) {signal : Option SignalId}
    (haborted : Aborted t signal) :
    Aborted s signal ∨ ∃ signal' reason, ev = .abort signal' reason ∧ signal = some signal' := by
  cases signal with
  | none => exact absurd rfl haborted
  | some signal =>
      rcases h.reasons with hsame | ⟨signal', reason, hev, -, hreasons⟩
      · left
        intro hnone
        refine haborted ?_
        show t.reasons signal = none
        rw [hsame]
        exact hnone
      · by_cases hsignal : signal = signal'
        · exact .inr ⟨signal', reason, hev, by rw [hsignal]⟩
        · left
          intro hnone
          refine haborted ?_
          show t.reasons signal = none
          rw [hreasons]
          show (if signal = signal' then some reason else s.reasons signal) = none
          rw [if_neg hsignal]
          exact hnone

theorem length_setExecute (x : Nat) (e : Execute V) :
    (s.setExecute x e).executes.length = s.executes.length := List.length_set

theorem length_finish (x : Nat) (e : Execute V) (result : Except ThrownValue V) :
    (s.finish x e result).executes.length = s.executes.length := length_setExecute x _

theorem length_beginAttempt (x : Nat) (e : Execute V) (attempt : Nat) :
    (s.beginAttempt x e attempt).executes.length = s.executes.length := by
  rcases beginAttempt_cases s x e attempt with ⟨error, h⟩ | ⟨-, h⟩
  · rw [h, length_finish]
  · rw [h]
    exact length_setExecute x _

/-- Only a call of `execute` adds one. -/
theorem Turn.length {ev : Event V} (h : Turn executor s ev t) :
    t.executes.length = s.executes.length ∨ ∃ signal, ev = .call signal ∧
      t.executes.length = s.executes.length + 1 := by
  cases h with
  | called signal =>
      right
      refine ⟨signal, rfl, ?_⟩
      rw [call_eq, length_beginAttempt, State.enter, List.length_append]
      rfl
  | aborted => exact .inl (List.length_map _)
  | @started i job =>
      left
      rcases startJob_cases s i job with ⟨outcome, h⟩ | ⟨-, h⟩
      · rw [h]
        rfl
      · rw [h]
        exact List.length_modify ..
  | dropped => exact .inl rfl
  | timedOut => exact .inl rfl
  | settled => exact .inl rfl
  | delivered => exact .inl (length_setExecute _ _)
  | sleptUntil => exact .inl (length_setExecute _ _)
  | succeeded => exact .inl (length_finish _ _ _)
  | @failed x attempt i e error delayMs =>
      left
      rcases afterFailure_cases executor s x e attempt error delayMs with
        ⟨error', h⟩ | ⟨-, -, -, h⟩
      · rw [h, length_finish]
      · rw [h, length_setExecute]
  | @awoke x attempt e =>
      left
      rcases afterSleep_cases executor s x e attempt with ⟨error, h⟩ | h
      · rw [h, length_finish]
      · rw [h, length_beginAttempt]
  | sleepFailed => exact .inl (length_finish _ _ _)

/-- The signal of a call is the one it was given. -/
theorem Turn.signal {ev : Event V} (h : Turn executor s ev t) {x : Nat} {e' : Execute V}
    (he' : t.executes[x]? = some e') :
    (∃ e, s.executes[x]? = some e ∧ e'.signal = e.signal) ∨ ev = .call e'.signal := by
  by_cases hx : x < s.executes.length
  · left
    obtain ⟨e'', he'', hsignal⟩ := h.extends.executes (List.getElem?_eq_getElem hx)
    rw [he'] at he''
    cases he''
    exact ⟨_, List.getElem?_eq_getElem hx, hsignal⟩
  · right
    have hlt := (List.getElem?_eq_some_iff.mp he').1
    rcases h.length with hlength | ⟨signal, rfl, hlength⟩
    · omega
    · have hlast : x = s.executes.length := by omega
      cases h
      obtain ⟨e'', he'', hsignal⟩ :=
        (extends_beginAttempt (enter_executes signal) 0).executes (enter_executes (s := s) signal)
      rw [hlast, call_eq, he''] at he'
      cases he'
      rw [hsignal]

end RequestExecutor

end NycPropertyResolver
