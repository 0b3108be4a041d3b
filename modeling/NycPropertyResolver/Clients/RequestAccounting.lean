import NycPropertyResolver.Clients.RequestTurns

/-!
# Clients — the accounting of the request executor

Which calls of the operation a request executor makes, and what its metrics say of them
(`attempt_accounting`).  A run is kept with its log, the calls of the operation and the failures its
loops take.  A call of `execute` counts a call of the operation when the job of its attempt starts, and
adds its count to the metrics when it ends.  A job that waits for a slot then belongs to a call whose
signal was aborted (`QueuedOk`), and such a job calls nothing: this is why no count comes too late.
-/

namespace NycPropertyResolver

open Library

namespace RequestExecutor

variable {V : Type} {executor : SocrataRequestExecutor} {s t : State V}

/-! ### The log -/

/-- An entry of the log: the operation of a call of `execute` is called, or its loop takes a
failure. -/
inductive Entry where
  | call (x : Nat)
  | failure (x : Nat) (error : ThrownValue)
  deriving DecidableEq

/-- A call of the operation, not its failure. -/
def Entry.isCall : Entry → Bool
  | .call _ => true
  | .failure _ _ => false

/-- What an event from `s` to `t` adds to the log. -/
def entries (s t : State V) : Event V → List Entry
  | .start i =>
    match t.jobs[i]? with
    | some job => if job.phase.isCalling then [.call job.owner] else []
    | none => []
  | .resume x _ =>
    match s.executes[x]? with
    | some ⟨_, .attempted _ _ (.error error), _⟩ => [.failure x error]
    | _ => []
  | _ => []

/-- A turn of the event loop, logged. -/
def loggedNext (executor : SocrataRequestExecutor) (s : State V × List Entry) (ev : Event V) :
    Option (State V × List Entry) :=
  (next executor s.1 ev).map fun t => (t, s.2 ++ entries s.1 t ev)

/-- A run of an executor to a state, with its log. -/
abbrev Logged (executor : SocrataRequestExecutor) (s : State V) (log : List Entry) : Prop :=
  Steps (loggedNext executor) (fun _ _ => True) (State.initial V, []) (s, log)

/-- A call of `execute` that has settled. -/
def ExecutePhase.isFinished : ExecutePhase V → Bool
  | .finished _ => true
  | _ => false

/-- Every call of `execute` has settled. -/
def AllSettled (s : State V) : Prop := ∀ e ∈ s.executes, e.phase.isFinished = true

/-! ### What holds of a log -/

/-- Since the operation of `x` was last called, its loop has taken a failure that is transient. -/
def MayCall (executor : SocrataRequestExecutor) (x : Nat) (log : List Entry) : Prop :=
  ∀ before after, log = before ++ .call x :: after →
    ∃ error, .failure x error ∈ after ∧ executor.classifyError error = true

/-- Between two calls of an operation its loop takes a failure that is transient. -/
def Retried (executor : SocrataRequestExecutor) (log : List Entry) : Prop :=
  ∀ x before mid after, log = before ++ .call x :: (mid ++ .call x :: after) →
    ∃ error, .failure x error ∈ mid ∧ executor.classifyError error = true

section Logs

variable {log : List Entry} {x : Nat} {entry : Entry}

theorem mayCall_of_not_mem (h : .call x ∉ log) : MayCall executor x log := by
  intro before after hlog
  exact absurd (by simp [hlog]) h

/-- Nothing but a call of the operation takes the leave to call it. -/
theorem MayCall.concat (h : MayCall executor x log) (hentry : entry ≠ .call x) :
    MayCall executor x (log ++ [entry]) := by
  intro before after hlog
  rcases List.eq_nil_or_concat' after with rfl | ⟨after', last, rfl⟩
  · have hlast := (List.append_inj' hlog rfl).2
    exact absurd (List.head_eq_of_cons_eq hlast) hentry
  · rw [← List.cons_append, ← List.append_assoc] at hlog
    obtain ⟨error, hmem, hretry⟩ := h before after' (List.append_inj' hlog rfl).1
    exact ⟨error, List.mem_append_left _ hmem, hretry⟩

/-- A failure that is transient gives the leave to call again. -/
theorem mayCall_failure {error : ThrownValue} (hretry : executor.classifyError error = true) :
    MayCall executor x (log ++ [.failure x error]) := by
  intro before after hlog
  rcases List.eq_nil_or_concat' after with rfl | ⟨after', last, rfl⟩
  · have hlast := List.head_eq_of_cons_eq (List.append_inj' hlog rfl).2
    cases hlast
  · rw [← List.cons_append, ← List.append_assoc] at hlog
    have hlast := List.head_eq_of_cons_eq (List.append_inj' hlog rfl).2
    refine ⟨error, ?_, hretry⟩
    rw [hlast]
    simp

theorem retried_nil : Retried executor [] := by
  intro x before mid after hlog
  simp at hlog

/-- A call at leave keeps the log in order. -/
theorem Retried.concat (h : Retried executor log)
    (hentry : ∀ x, entry = .call x → MayCall executor x log) : Retried executor (log ++ [entry]) := by
  intro x before mid after hlog
  -- the second of the two calls is the new entry, or stood in the log before
  rcases List.eq_nil_or_concat' after with rfl | ⟨after', last, rfl⟩
  · rw [← List.cons_append, ← List.append_assoc] at hlog
    obtain ⟨hbefore, hlast⟩ := List.append_inj' hlog rfl
    exact hentry x (List.head_eq_of_cons_eq hlast) before mid hbefore
  · have hsplit : before ++ .call x :: (mid ++ .call x :: (after' ++ [last])) =
        (before ++ .call x :: (mid ++ .call x :: after')) ++ [last] := by simp
    rw [hsplit] at hlog
    exact h x before mid after' (List.append_inj' hlog rfl).1

end Logs

/-! ### The invariant -/

/-- A job that waits for a slot has told its caller nothing, and its caller waits for it, unless the
caller's signal was aborted. -/
structure QueuedOk (s : State V) (i : Nat) (job : Job V) : Prop where
  owned : job.owner < s.executes.length
  fresh : job.phase = .queued → job.outcome = none
  waited : job.phase = .queued → Aborted s (s.signalOf job) ∨
    ∃ e attempt, s.executes[job.owner]? = some e ∧ e.phase = .waiting attempt i

/-- The calls of the operation that a call of `execute` has counted, by the attempt it is in. -/
def CountOk (executor : SocrataRequestExecutor) (s : State V) (log : List Entry) (x : Nat)
    (e : Execute V) : Prop :=
  match e.phase with
  | .waiting attempt i => attempt ≤ executor.maxRetries ∧ e.requestCalls ≤ attempt + 1 ∧
    ∃ job, s.jobs[i]? = some job ∧
      (job.phase = .queued → e.requestCalls ≤ attempt ∧ MayCall executor x log)
  | .attempted attempt _ _ => attempt ≤ executor.maxRetries ∧ e.requestCalls ≤ attempt + 1
  | .sleeping attempt | .slept attempt _ => attempt ≤ executor.maxRetries ∧
    e.requestCalls ≤ attempt + 1 ∧ MayCall executor x log
  | .finished _ => e.requestCalls ≤ executor.maxRetries + 1

/-- What a call of `execute` has added to the metrics. -/
def settledRequests (e : Execute V) : Nat := if e.phase.isFinished then e.requestCalls else 0

/-- The retries a settled call of `execute` made: all its calls but the first. -/
def settledRetries (e : Execute V) : Nat := if e.phase.isFinished then e.requestCalls - 1 else 0

/-- **The accounting invariant.** -/
structure Accounted (executor : SocrataRequestExecutor) (s : State V) (log : List Entry) : Prop where
  jobs : ∀ {i : Nat} {job : Job V}, s.jobs[i]? = some job → QueuedOk s i job
  counts : ∀ {x : Nat} {e : Execute V}, s.executes[x]? = some e → CountOk executor s log x e
  counted : ∀ {x : Nat} {e : Execute V}, s.executes[x]? = some e →
    log.count (.call x) = e.requestCalls
  known : ∀ {x : Nat}, .call x ∈ log → x < s.executes.length
  retried : Retried executor log
  all : log.countP Entry.isCall = (s.executes.map (·.requestCalls)).sum
  requests : s.totalRequestCalls = (s.executes.map settledRequests).sum
  retries : s.totalRetryCalls = (s.executes.map settledRetries).sum

theorem accounted_initial : Accounted executor (State.initial V) [] where
  jobs h := by cases h
  counts h := by cases h
  counted h := by cases h
  known h := by cases h
  retried := retried_nil
  all := rfl
  requests := rfl
  retries := rfl

/-! ### Frames -/

/-- The jobs of `s` are jobs of `t`, and none has gone back to wait. -/
def JobsMove (s t : State V) : Prop :=
  ∀ {i : Nat} {job : Job V}, s.jobs[i]? = some job →
    ∃ job', t.jobs[i]? = some job' ∧ (job'.phase = .queued → job.phase = .queued)

theorem JobsMove.refl (s : State V) : JobsMove s s := fun h => ⟨_, h, id⟩

theorem jobsMove_append {new : List (Job V)} (h : t.jobs = s.jobs ++ new) : JobsMove s t := by
  intro i job hjob
  refine ⟨job, ?_, id⟩
  rw [h, List.getElem?_append_left (List.getElem?_eq_some_iff.mp hjob).1]
  exact hjob

/-- A call that stays where it is. -/
theorem CountOk.mono {log log' : List Entry} {x : Nat} {e : Execute V}
    (h : CountOk executor s log x e) (hmove : JobsMove s t)
    (hlog : MayCall executor x log → MayCall executor x log') : CountOk executor t log' x e := by
  unfold CountOk at h ⊢
  cases hphase : e.phase with
  | waiting attempt i =>
      rw [hphase] at h
      obtain ⟨hattempt, hcalls, job, hjob, hqueued⟩ := h
      obtain ⟨job', hjob', hback⟩ := hmove hjob
      exact ⟨hattempt, hcalls, job', hjob', fun hq =>
        ⟨(hqueued (hback hq)).1, hlog (hqueued (hback hq)).2⟩⟩
  | attempted attempt i settled => rw [hphase] at h; exact h
  | sleeping attempt => rw [hphase] at h; exact ⟨h.1, h.2.1, hlog h.2.2⟩
  | slept attempt settled => rw [hphase] at h; exact ⟨h.1, h.2.1, hlog h.2.2⟩
  | finished result => rw [hphase] at h; exact h

/-- A call of `execute` never counts more than its attempts allow. -/
theorem CountOk.le {log : List Entry} {x : Nat} {e : Execute V} (h : CountOk executor s log x e) :
    e.requestCalls ≤ executor.maxRetries + 1 := by
  unfold CountOk at h
  cases hphase : e.phase with
  | waiting attempt i => rw [hphase] at h; exact h.2.1.trans (Nat.succ_le_succ h.1)
  | attempted attempt i settled => rw [hphase] at h; exact h.2.trans (Nat.succ_le_succ h.1)
  | sleeping attempt => rw [hphase] at h; exact h.2.1.trans (Nat.succ_le_succ h.1)
  | slept attempt settled => rw [hphase] at h; exact h.2.1.trans (Nat.succ_le_succ h.1)
  | finished result => rw [hphase] at h; exact h

/-- A sum over a list, one entry of which changes. -/
theorem sum_map_set {α : Type} {xs : List α} {x : Nat} {a b : α} (f : α → Nat)
    (h : xs[x]? = some a) : ((xs.set x b).map f).sum + f a = (xs.map f).sum + f b := by
  induction xs generalizing x with
  | nil => cases h
  | cons c xs ih =>
      cases x with
      | zero =>
          cases h
          simp only [List.set_cons_zero, List.map_cons, List.sum_cons]
          omega
      | succ x =>
          have hrest := ih h
          simp only [List.set_cons_succ, List.map_cons, List.sum_cons]
          omega

/-! ### A call goes on -/

section Replace

variable {log : List Entry} {x : Nat} {e g : Execute V}

theorem extends_of_set (he : s.executes[x]? = some e) (hsignal : g.signal = e.signal)
    (hexecutes : t.executes = s.executes.set x g) (hreasons : t.reasons = s.reasons) :
    Extends s t := by
  have hset := extends_setExecute he g hsignal
  refine ⟨?_, ?_⟩
  · intro y f hf
    rw [hexecutes]
    exact hset.executes hf
  · intro signal hs
    rw [hreasons]
    exact hs

theorem find_replaced (he : s.executes[x]? = some e) (hexecutes : t.executes = s.executes.set x g) :
    t.executes[x]? = some g := by
  rw [hexecutes, List.getElem?_set_self (List.getElem?_eq_some_iff.mp he).1]

theorem find_others (hexecutes : t.executes = s.executes.set x g) {y : Nat} (hy : x ≠ y) :
    t.executes[y]? = s.executes[y]? := by
  rw [hexecutes, List.getElem?_set_ne hy]

/-- What holds of the call that moves, and of every other call, holds of all. -/
theorem forall_replaced {P : Nat → Execute V → Prop} (he : s.executes[x]? = some e)
    (hexecutes : t.executes = s.executes.set x g) (hself : P x g)
    (hothers : ∀ {y : Nat} {f : Execute V}, x ≠ y → s.executes[y]? = some f → P y f) :
    ∀ {y : Nat} {f : Execute V}, t.executes[y]? = some f → P y f := by
  intro y f hf
  by_cases hy : x = y
  · subst hy
    rw [find_replaced he hexecutes] at hf
    cases hf
    exact hself
  · rw [find_others hexecutes hy] at hf
    exact hothers hy hf

/-- A sum over the calls, once one of them has moved. -/
theorem sum_replaced (f : Execute V → Nat) (he : s.executes[x]? = some e)
    (hexecutes : t.executes = s.executes.set x g) :
    (t.executes.map f).sum + f e = (s.executes.map f).sum + f g := by
  rw [hexecutes]
  exact sum_map_set f he

/-- A job waits for its slot as before, if the call that moves did not wait for it. -/
theorem QueuedOk.replaced {i : Nat} {job : Job V} (h : QueuedOk s i job)
    (he : s.executes[x]? = some e) (hext : Extends s t) (hexecutes : t.executes = s.executes.set x g)
    (hidle : ∀ attempt, e.phase = .waiting attempt i → job.phase ≠ .queued) : QueuedOk t i job where
  owned := hext.lt_length h.owned
  fresh := h.fresh
  waited hqueued := by
    rcases h.waited hqueued with haborted | ⟨f, attempt, hf, hphase⟩
    · left
      rw [hext.signalOf h.owned]
      exact haborted.mono hext
    · by_cases hx : x = job.owner
      -- the call that moves has let go of the job it waited for
      · rw [← hx, he] at hf
        cases hf
        exact absurd hqueued (hidle attempt hphase)
      · exact .inr ⟨f, attempt, (find_others hexecutes hx).trans hf, hphase⟩

/-- **One call of `execute` moves**, and may queue a job; the one it waited for has been started. -/
theorem Accounted.replace (h : Accounted executor s log) {q : List (Job V)}
    (he : s.executes[x]? = some e) (hsignal : g.signal = e.signal)
    (hcalls : g.requestCalls = e.requestCalls) (hexecutes : t.executes = s.executes.set x g)
    (hjobs : t.jobs = s.jobs ++ q) (hreasons : t.reasons = s.reasons)
    (hidle : ∀ attempt i job, e.phase = .waiting attempt i → s.jobs[i]? = some job →
      job.phase ≠ .queued)
    (hnew : ∀ i job, s.jobs.length ≤ i → t.jobs[i]? = some job → QueuedOk t i job)
    (hcount : CountOk executor t log x g)
    (hrequests : t.totalRequestCalls + settledRequests e = s.totalRequestCalls + settledRequests g)
    (hretries : t.totalRetryCalls + settledRetries e = s.totalRetryCalls + settledRetries g) :
    Accounted executor t log where
  jobs {i job} hjob := by
    -- a job of before, or one that the call queues
    by_cases hi : i < s.jobs.length
    · have hjob' : s.jobs[i]? = some job := by
        rw [hjobs, List.getElem?_append_left hi] at hjob
        exact hjob
      exact (h.jobs hjob').replaced he (extends_of_set he hsignal hexecutes hreasons) hexecutes
        fun attempt hphase => hidle attempt i job hphase hjob'
    · exact hnew i job (Nat.le_of_not_lt hi) hjob
  counts := forall_replaced he hexecutes hcount fun _ hf =>
    (h.counts hf).mono (jobsMove_append hjobs) id
  counted := forall_replaced he hexecutes (by rw [hcalls]; exact h.counted he) fun _ hf => h.counted hf
  known hy := (extends_of_set he hsignal hexecutes hreasons).lt_length (h.known hy)
  retried := h.retried
  all := by
    have hsum := sum_replaced (·.requestCalls) he hexecutes
    rw [h.all]
    simp only [hcalls] at hsum
    omega
  requests := by
    have hsum := sum_replaced settledRequests he hexecutes
    have hbefore := h.requests
    omega
  retries := by
    have hsum := sum_replaced settledRetries he hexecutes
    have hbefore := h.retries
    omega

theorem settledRequests_eq_zero (h : e.phase.isFinished = false) : settledRequests e = 0 := by
  rw [settledRequests, h]
  rfl

theorem settledRetries_eq_zero (h : e.phase.isFinished = false) : settledRetries e = 0 := by
  rw [settledRetries, h]
  rfl

/-- A phase in which no job is waited for, and more may come. -/
def ExecutePhase.isRunning : ExecutePhase V → Bool
  | .attempted _ _ _ | .sleeping _ | .slept _ _ => true
  | _ => false

theorem not_finished_of_running {phase : ExecutePhase V} (h : phase.isRunning = true) :
    phase.isFinished = false := by
  cases phase <;> first | rfl | cases h

theorem not_waiting_of_running (h : e.phase.isRunning = true) (attempt i : Nat) (job : Job V)
    (hphase : e.phase = .waiting attempt i) (_ : s.jobs[i]? = some job) : job.phase ≠ .queued := by
  rw [hphase] at h
  cases h

/-- A call of `execute` enters a phase that is not the last. -/
theorem Accounted.setExecute (h : Accounted executor s log) {phase : ExecutePhase V}
    (he : s.executes[x]? = some e) (hnot : e.phase.isFinished = false)
    (hphase : phase.isFinished = false)
    (hidle : ∀ attempt i job, e.phase = .waiting attempt i → s.jobs[i]? = some job →
      job.phase ≠ .queued)
    (hcount : CountOk executor s log x { e with phase := phase }) :
    Accounted executor (s.setExecute x { e with phase := phase }) log := by
  have hjobs : (s.setExecute x { e with phase := phase }).jobs = s.jobs ++ [] :=
    (List.append_nil _).symm
  refine h.replace (g := { e with phase := phase }) he rfl rfl rfl hjobs rfl hidle
    (fun i job hi hjob => ?_) (hcount.mono (JobsMove.refl s) id) ?_ ?_
  · exact absurd (List.getElem?_eq_some_iff.mp hjob).1 (Nat.not_lt.mpr hi)
  · rw [settledRequests_eq_zero hnot, settledRequests_eq_zero hphase]
    rfl
  · rw [settledRetries_eq_zero hnot, settledRetries_eq_zero hphase]
    rfl

/-- **A call of `execute` ends, and adds its count to the metrics.** -/
theorem Accounted.finish (h : Accounted executor s log) (he : s.executes[x]? = some e)
    (hrunning : e.phase.isRunning = true) (result : Except ThrownValue V) :
    Accounted executor (s.finish x e result) log := by
  have hjobs : (s.finish x e result).jobs = s.jobs ++ [] := (List.append_nil _).symm
  have hnot := not_finished_of_running hrunning
  have hlast : (ExecutePhase.finished result : ExecutePhase V).isFinished = true := rfl
  refine h.replace (g := { e with phase := .finished result }) he rfl rfl rfl hjobs rfl
    (not_waiting_of_running hrunning) (fun i job hi hjob => ?_) (h.counts he).le ?_ ?_
  · exact absurd (List.getElem?_eq_some_iff.mp hjob).1 (Nat.not_lt.mpr hi)
  · rw [settledRequests_eq_zero hnot, settledRequests, if_pos hlast]
    rfl
  · rw [settledRetries_eq_zero hnot, settledRetries, if_pos hlast]
    rfl

/-- **An attempt begins**, with a job that may call the operation. -/
theorem Accounted.beginAttempt (h : Accounted executor s log) (he : s.executes[x]? = some e)
    (hrunning : e.phase.isRunning = true) {attempt : Nat} (hattempt : attempt ≤ executor.maxRetries)
    (hcalls : e.requestCalls ≤ attempt) (hmay : MayCall executor x log) :
    Accounted executor (s.beginAttempt x e attempt) log := by
  rcases beginAttempt_cases s x e attempt with ⟨error, hb⟩ | ⟨-, hb⟩
  · rw [hb]
    exact h.finish he hrunning _
  · rw [hb]
    have hnot := not_finished_of_running hrunning
    have hlt : x < s.executes.length := (List.getElem?_eq_some_iff.mp he).1
    have hwaiting : (ExecutePhase.waiting attempt s.jobs.length : ExecutePhase V).isFinished = false :=
      rfl
    have hlast : (s.jobs ++ [(⟨x, .queued, none⟩ : Job V)])[s.jobs.length]? =
        some ⟨x, .queued, none⟩ := by
      rw [List.getElem?_append_right (le_refl _), Nat.sub_self]
      rfl
    refine h.replace (g := { e with phase := .waiting attempt s.jobs.length })
      (q := [⟨x, .queued, none⟩]) he rfl rfl rfl rfl rfl (not_waiting_of_running hrunning)
      (fun i job hi hjob => ?_) ⟨hattempt, hcalls.trans (Nat.le_succ _), _, hlast,
        fun _ => ⟨hcalls, hmay⟩⟩ ?_ ?_
    · have hend : i = s.jobs.length := by
        have hbound := (List.getElem?_eq_some_iff.mp hjob).1
        simp only [List.length_append, List.length_singleton] at hbound
        omega
      subst hend
      change (s.jobs ++ [(⟨x, .queued, none⟩ : Job V)])[s.jobs.length]? = some job at hjob
      rw [hlast] at hjob
      cases hjob
      refine ⟨?_, fun _ => rfl, fun _ => .inr ⟨_, attempt, List.getElem?_set_self hlt, rfl⟩⟩
      show x < (s.executes.set x _).length
      rw [List.length_set]
      exact hlt
    · rw [settledRequests_eq_zero hnot, settledRequests_eq_zero hwaiting]
      rfl
    · rw [settledRetries_eq_zero hnot, settledRetries_eq_zero hwaiting]
      rfl

end Replace

/-! ### A job goes on -/

section Jobs

variable {log : List Entry}

/-- A failure is logged. -/
theorem Accounted.failure (h : Accounted executor s log) (x : Nat) (error : ThrownValue) :
    Accounted executor s (log ++ [.failure x error]) where
  jobs := h.jobs
  counts he := (h.counts he).mono (JobsMove.refl s) fun hmay => hmay.concat (by simp)
  counted he := by
    rw [List.count_append, h.counted he]
    simp
  known hx := by
    rcases List.mem_append.mp hx with hx | hx
    · exact h.known hx
    · simp at hx
  retried := h.retried.concat (by simp)
  all := by
    rw [List.countP_append, h.all]
    rfl
  requests := h.requests
  retries := h.retries

/-- A job moves to a phase in which it does not wait. -/
theorem jobsMove_setJob {i : Nat} {job : Job V} (hphase : job.phase ≠ .queued) :
    JobsMove s (s.setJob i job) := by
  intro j other hother
  by_cases hij : i = j
  · subst hij
    refine ⟨job, ?_, fun hq => absurd hq hphase⟩
    rw [State.setJob, List.getElem?_set_self (List.getElem?_eq_some_iff.mp hother).1]
  · refine ⟨other, ?_, id⟩
    rw [State.setJob, List.getElem?_set_ne hij]
    exact hother

theorem Accounted.setJob (h : Accounted executor s log) {i : Nat} {job job' : Job V}
    (hjob : s.jobs[i]? = some job) (howner : job'.owner = job.owner) (hphase : job'.phase ≠ .queued) :
    Accounted executor (s.setJob i job') log where
  jobs := by
    intro j other hother
    by_cases hij : i = j
    · subst hij
      rw [State.setJob, List.getElem?_set_self (List.getElem?_eq_some_iff.mp hjob).1] at hother
      cases hother
      have howned : job'.owner < s.executes.length := howner ▸ (h.jobs hjob).owned
      exact ⟨howned, fun hq => absurd hq hphase, fun hq => absurd hq hphase⟩
    · rw [State.setJob, List.getElem?_set_ne hij] at hother
      obtain ⟨howned, hfresh, hwaited⟩ := h.jobs hother
      exact ⟨howned, hfresh, hwaited⟩
  counts he := (h.counts he).mono (jobsMove_setJob hphase) id
  counted := h.counted
  known := h.known
  retried := h.retried
  all := h.all
  requests := h.requests
  retries := h.retries

/-- One more call of the operation has been counted. -/
def Execute.countCall (e : Execute V) : Execute V := { e with requestCalls := e.requestCalls + 1 }

/-- The operation is called in a job. -/
def State.callJob (s : State V) (i : Nat) (job : Job V) : State V :=
  { s.setJob i { job with phase := .calling none } with
    executes := s.executes.modify job.owner Execute.countCall }

section CallJob

variable {i attempt : Nat} {job : Job V} {e : Execute V}

/-- **The call that a job is started for** waits for it, and may call the operation once more. -/
theorem Accounted.starts (h : Accounted executor s log) (hjob : s.jobs[i]? = some job)
    (hphase : job.phase = .queued) (hreason : s.reason (s.signalOf job) = none) :
    ∃ e attempt, s.executes[job.owner]? = some e ∧ e.phase = .waiting attempt i ∧
      attempt ≤ executor.maxRetries ∧ e.requestCalls ≤ attempt ∧ MayCall executor job.owner log := by
  obtain ⟨e, attempt, he, hwaiting⟩ :=
    ((h.jobs hjob).waited hphase).resolve_left fun haborted => haborted hreason
  have hcount := h.counts he
  unfold CountOk at hcount
  rw [hwaiting] at hcount
  obtain ⟨hattempt, -, job₀, hjob₀, hqueued⟩ := hcount
  rw [hjob] at hjob₀
  cases hjob₀
  exact ⟨e, attempt, he, hwaiting, hattempt, hqueued hphase⟩

theorem callJob_executes (he : s.executes[job.owner]? = some e) :
    (s.callJob i job).executes = s.executes.set job.owner e.countCall := by
  rw [State.callJob, List.modify_eq_set_getElem?, he]
  rfl

theorem callJob_find_self (hjob : s.jobs[i]? = some job) :
    (s.callJob i job).jobs[i]? = some { job with phase := .calling none } :=
  List.getElem?_set_self (List.getElem?_eq_some_iff.mp hjob).1

theorem callJob_find_ne {j : Nat} (hij : i ≠ j) : (s.callJob i job).jobs[j]? = s.jobs[j]? :=
  List.getElem?_set_ne hij

theorem extends_callJob (he : s.executes[job.owner]? = some e) : Extends s (s.callJob i job) :=
  extends_of_set (g := e.countCall) he rfl (callJob_executes he) rfl

theorem callJob_jobs (h : Accounted executor s log) (hjob : s.jobs[i]? = some job)
    (he : s.executes[job.owner]? = some e) (hwaiting : e.phase = .waiting attempt i) {j : Nat}
    {other : Job V} (hother : (s.callJob i job).jobs[j]? = some other) :
    QueuedOk (s.callJob i job) j other := by
  have hext : Extends s (s.callJob i job) := extends_callJob he
  by_cases hij : i = j
  · subst hij
    rw [callJob_find_self hjob] at hother
    cases hother
    refine ⟨hext.lt_length (h.jobs hjob).owned, fun hq => ?_, fun hq => ?_⟩
    · cases hq
    · cases hq
  · rw [callJob_find_ne hij] at hother
    refine (h.jobs hother).replaced he hext (callJob_executes he) fun attempt' hphase => ?_
    -- the call waits for one job only
    rw [hwaiting] at hphase
    cases hphase
    exact absurd rfl hij

theorem callJob_counts (h : Accounted executor s log) (hjob : s.jobs[i]? = some job)
    (he : s.executes[job.owner]? = some e) (hwaiting : e.phase = .waiting attempt i)
    (hattempt : attempt ≤ executor.maxRetries) (hle : e.requestCalls ≤ attempt) {x : Nat}
    {f : Execute V} (hf : (s.callJob i job).executes[x]? = some f) :
    CountOk executor (s.callJob i job) (log ++ [.call job.owner]) x f := by
  have hmove : JobsMove s (s.setJob i { job with phase := .calling none }) :=
    jobsMove_setJob fun hq => by cases hq
  refine forall_replaced (P := CountOk executor (s.callJob i job) (log ++ [.call job.owner])) he
    (callJob_executes he) ?_ (fun hx hf => ?_) hf
  · unfold CountOk Execute.countCall
    rw [hwaiting]
    refine ⟨hattempt, Nat.succ_le_succ hle, _, callJob_find_self hjob, fun hq => ?_⟩
    cases hq
  · exact (h.counts hf).mono hmove fun hmay => hmay.concat fun hentry => hx (Entry.call.inj hentry)

theorem callJob_counted (h : Accounted executor s log) (he : s.executes[job.owner]? = some e)
    {x : Nat} {f : Execute V} (hf : (s.callJob i job).executes[x]? = some f) :
    (log ++ [Entry.call job.owner]).count (.call x) = f.requestCalls := by
  refine forall_replaced
    (P := fun x f => (log ++ [Entry.call job.owner]).count (.call x) = f.requestCalls) he (callJob_executes he) ?_ (fun hx hf => ?_) hf
  · rw [List.count_append, h.counted he, List.count_singleton_self]
    rfl
  · rw [List.count_append, h.counted hf, List.count_singleton, if_neg (by simpa using hx)]
    rfl

/-- All calls of the operation are one more. -/
theorem callJob_all (h : Accounted executor s log) (he : s.executes[job.owner]? = some e) :
    (log ++ [Entry.call job.owner]).countP Entry.isCall =
      ((s.callJob i job).executes.map (·.requestCalls)).sum := by
  have hsum := sum_replaced (·.requestCalls) he (callJob_executes (i := i) he)
  have hone : e.countCall.requestCalls = e.requestCalls + 1 := rfl
  have hcalled : [Entry.call job.owner].countP Entry.isCall = 1 := rfl
  rw [List.countP_append, hcalled, h.all]
  simp only [hone] at hsum
  omega

/-- The metrics count a call that has settled, which the one that waits has not. -/
theorem callJob_settled (f : Execute V → Nat) (he : s.executes[job.owner]? = some e)
    (hnot : f e = 0) (hnot' : f e.countCall = 0) :
    ((s.callJob i job).executes.map f).sum = (s.executes.map f).sum := by
  have hsum := sum_replaced f he (callJob_executes (i := i) he)
  rwa [hnot, hnot'] at hsum

/-- **The operation is called**, in the job its call waits for. -/
theorem Accounted.callOperation (h : Accounted executor s log) (hjob : s.jobs[i]? = some job)
    (hphase : job.phase = .queued) (hreason : s.reason (s.signalOf job) = none) :
    Accounted executor (s.callJob i job) (log ++ [.call job.owner]) := by
  obtain ⟨e, attempt, he, hwaiting, hattempt, hle, hmay⟩ := h.starts hjob hphase hreason
  have hnot : e.phase.isFinished = false := by rw [hwaiting]; rfl
  have hnot' : e.countCall.phase.isFinished = false := hnot
  exact {
    jobs := callJob_jobs h hjob he hwaiting
    counts := callJob_counts h hjob he hwaiting hattempt hle
    counted := callJob_counted h he
    known := fun hx => (extends_callJob he).lt_length <| by
      rcases List.mem_append.mp hx with hx | hx
      · exact h.known hx
      · cases List.mem_singleton.mp hx
        exact (h.jobs hjob).owned
    retried := h.retried.concat fun x hentry => Entry.call.inj hentry ▸ hmay
    all := callJob_all h he
    requests := h.requests.trans (callJob_settled settledRequests he (settledRequests_eq_zero hnot)
      (settledRequests_eq_zero hnot')).symm
    retries := h.retries.trans (callJob_settled settledRetries he (settledRetries_eq_zero hnot)
      (settledRetries_eq_zero hnot')).symm }

end CallJob

/-! ### A signal is aborted -/

theorem phase_cancel_queued {job : Job V} {error : ThrownValue}
    (h : (job.cancel error).phase = .queued) : job.phase = .queued := by
  by_cases hphase : job.phase = .calling none
  · rw [phase_cancel hphase] at h
    cases h
  · rw [cancel_eq_self hphase] at h
    exact h

theorem jobsMove_abort (signal : SignalId) (reason : ThrownValue) :
    JobsMove s (s.abort signal reason) := by
  intro i job hjob
  refine ⟨_, by rw [State.abort, List.getElem?_map, hjob, Option.map_some], ?_⟩
  by_cases hsignal : s.signalOf job = some signal
  · rw [if_pos hsignal]
    exact phase_cancel_queued
  · rw [if_neg hsignal]
    exact id

/-- The abort of a signal moves a call, and counts nothing. -/
theorem CountOk.abort {x : Nat} {e : Execute V} (h : CountOk executor s log x e)
    (error : ThrownValue) : CountOk executor s log x (e.abort error) := by
  unfold Execute.abort
  cases hphase : e.phase with
  | waiting attempt i =>
      unfold CountOk at h ⊢
      rw [hphase] at h
      exact ⟨h.1, h.2.1⟩
  | sleeping attempt =>
      unfold CountOk at h ⊢
      rw [hphase] at h
      exact h
  | attempted attempt i settled => exact h
  | slept attempt settled => exact h
  | finished result => exact h

theorem requestCalls_abort (e : Execute V) (error : ThrownValue) :
    (e.abort error).requestCalls = e.requestCalls := by
  unfold Execute.abort
  cases e.phase <;> rfl

theorem isFinished_abort (e : Execute V) (error : ThrownValue) :
    (e.abort error).phase.isFinished = e.phase.isFinished := by
  unfold Execute.abort
  cases hphase : e.phase <;> first | rfl | rw [hphase]

section Abort

variable {signal : SignalId} {reason : ThrownValue}

theorem aborted_abort (signal : SignalId) (reason : ThrownValue) :
    Aborted (s.abort signal reason) (some signal) := by
  show (if signal = signal then some reason else s.reasons signal) ≠ none
  rw [if_pos rfl]
  exact Option.some_ne_none _

/-- A call of `execute` that is not on the signal stays as it is. -/
theorem executes_abort {x : Nat} {e' : Execute V}
    (he' : (s.abort signal reason).executes[x]? = some e') :
    ∃ e, s.executes[x]? = some e ∧
      (e' = e ∨ e.signal = some signal ∧ e' = e.abort (createAbortError reason)) := by
  rw [State.abort, List.getElem?_map, Option.map_eq_some_iff] at he'
  obtain ⟨e, he, rfl⟩ := he'
  refine ⟨e, he, ?_⟩
  by_cases hsignal : e.signal = some signal
  · exact .inr ⟨hsignal, if_pos hsignal⟩
  · exact .inl (if_neg hsignal)

/-- The abort changes no sum that a call keeps. -/
theorem sum_abort (f : Execute V → Nat) (hf : ∀ (e : Execute V) error, f (e.abort error) = f e) :
    ((s.abort signal reason).executes.map f).sum = (s.executes.map f).sum := by
  rw [State.abort, List.map_map]
  refine congrArg List.sum (List.map_congr_left fun e _ => ?_)
  rw [Function.comp_apply]
  split
  · exact hf e _
  · rfl

theorem abort_jobs (h : Accounted executor s log) {i : Nat} {job' : Job V}
    (hjob' : (s.abort signal reason).jobs[i]? = some job') :
    QueuedOk (s.abort signal reason) i job' := by
  have hext : Extends s (s.abort signal reason) := extends_abort reason
  rw [State.abort, List.getElem?_map, Option.map_eq_some_iff] at hjob'
  obtain ⟨job, hjob, rfl⟩ := hjob'
  obtain ⟨howned, hfresh, hwaited⟩ := h.jobs hjob
  by_cases hsignal : s.signalOf job = some signal
  · rw [if_pos hsignal]
    have howner := owner_cancel job (createAbortError reason)
    refine ⟨howner ▸ hext.lt_length howned, fun hq => ?_, fun hq => .inl ?_⟩
    · rw [cancel_eq_self fun hcalling => by rw [phase_cancel hcalling] at hq; cases hq]
      exact hfresh (phase_cancel_queued hq)
    · rw [hext.signalOf (howner ▸ howned), State.signalOf, howner, ← State.signalOf, hsignal]
      exact aborted_abort signal reason
  · rw [if_neg hsignal]
    refine ⟨hext.lt_length howned, hfresh, fun hq => ?_⟩
    rcases hwaited hq with hbefore | ⟨e, attempt, he, hphase⟩
    · left
      rw [hext.signalOf howned]
      exact hbefore.mono hext
    · right
      refine ⟨e, attempt, ?_, hphase⟩
      have hsame : e.signal ≠ some signal := by
        rwa [State.signalOf, he, Option.bind_some] at hsignal
      rw [State.abort, List.getElem?_map, he, Option.map_some, if_neg hsame]

theorem Accounted.abort (h : Accounted executor s log) (signal : SignalId) (reason : ThrownValue) :
    Accounted executor (s.abort signal reason) log where
  jobs := abort_jobs h
  counts he' := by
    obtain ⟨e, he, rfl | ⟨-, rfl⟩⟩ := executes_abort he'
    · exact (h.counts he).mono (jobsMove_abort signal reason) id
    · exact ((h.counts he).abort _).mono (jobsMove_abort signal reason) id
  counted he' := by
    obtain ⟨e, he, rfl | ⟨-, rfl⟩⟩ := executes_abort he'
    · exact h.counted he
    · rw [requestCalls_abort]
      exact h.counted he
  known hx := (extends_abort reason).lt_length (h.known hx)
  retried := h.retried
  all := h.all.trans (sum_abort _ requestCalls_abort).symm
  requests := h.requests.trans (sum_abort _ fun e error => by
    rw [settledRequests, settledRequests, isFinished_abort, requestCalls_abort]).symm
  retries := h.retries.trans (sum_abort _ fun e error => by
    rw [settledRetries, settledRetries, isFinished_abort, requestCalls_abort]).symm

end Abort

/-- **A call of `execute` begins.** -/
theorem Accounted.call (h : Accounted executor s log) (signal : Option SignalId) :
    Accounted executor (s.call signal) log := by
  have hext : Extends s (s.enter signal) := extends_enter signal
  have hnew : .call s.executes.length ∉ log := fun hmem => lt_irrefl _ (h.known hmem)
  have hmay : MayCall executor s.executes.length log := mayCall_of_not_mem hnew
  have hlast : ∀ {x : Nat} {e : Execute V}, (s.enter signal).executes[x]? = some e →
      s.executes[x]? = some e ∨ x = s.executes.length ∧ e = ⟨signal, .sleeping 0, 0⟩ := by
    intro x e he
    by_cases hx : x < s.executes.length
    · rw [State.enter, List.getElem?_append_left hx] at he
      exact .inl he
    · have hend : x = s.executes.length := by
        have hbound := (List.getElem?_eq_some_iff.mp he).1
        rw [State.enter, List.length_append, List.length_singleton] at hbound
        omega
      subst hend
      rw [enter_executes] at he
      exact .inr ⟨rfl, (Option.some.inj he).symm⟩
  have henter : Accounted executor (s.enter signal) log := by
    constructor
    · intro i job hjob
      obtain ⟨howned, hfresh, hwaited⟩ := h.jobs hjob
      refine ⟨hext.lt_length howned, hfresh, fun hq => ?_⟩
      rcases hwaited hq with haborted | ⟨e, attempt, he, hphase⟩
      · left
        rw [hext.signalOf howned]
        exact haborted.mono hext
      · refine .inr ⟨e, attempt, ?_, hphase⟩
        rw [State.enter, List.getElem?_append_left howned]
        exact he
    · intro x e he
      rcases hlast he with he | ⟨rfl, rfl⟩
      · exact (h.counts he).mono (JobsMove.refl s) id
      · exact ⟨Nat.zero_le _, Nat.zero_le _, hmay⟩
    · intro x e he
      rcases hlast he with he | ⟨rfl, rfl⟩
      · exact h.counted he
      · exact List.count_eq_zero.mpr hnew
    · intro x hx
      exact hext.lt_length (h.known hx)
    · exact h.retried
    · rw [h.all, State.enter, List.map_append, List.sum_append]
      rfl
    · rw [State.enter, List.map_append, List.sum_append]
      exact h.requests
    · rw [State.enter, List.map_append, List.sum_append]
      exact h.retries
  rw [call_eq]
  exact henter.beginAttempt (enter_executes signal) rfl (Nat.zero_le _) (le_refl _) hmay

end Jobs

/-! ### Runs -/

section Runs

variable {log : List Entry}

/-- A failure that the loop takes is logged. -/
theorem entries_failed (t : State V) {x attempt i : Nat} {e : Execute V} {error : ThrownValue}
    (delayMs : Option Nat) (he : s.executes[x]? = some e)
    (hphase : e.phase = .attempted attempt i (.error error)) :
    entries s t (.resume x delayMs) = [.failure x error] := by
  obtain ⟨signal, phase, requestCalls⟩ := e
  cases hphase
  simp only [entries, he]

theorem entries_resumed (t : State V) {x : Nat} {e : Execute V} (delayMs : Option Nat)
    (he : s.executes[x]? = some e)
    (hphase : ∀ attempt i error, e.phase ≠ .attempted attempt i (.error error)) :
    entries s t (.resume x delayMs) = [] := by
  obtain ⟨signal, phase, requestCalls⟩ := e
  simp only [entries, he]
  split
  · rename_i attempt i error calls hsome
    cases hsome
    exact absurd rfl (hphase attempt i error)
  · rfl

section Turns

variable {x i attempt : Nat} {e : Execute V} {job : Job V} {error : ThrownValue}

/-- A job takes its slot: the operation is called, unless the signal has been aborted. -/
theorem Accounted.started (h : Accounted executor s log) (hjob : s.jobs[i]? = some job)
    (hphase : job.phase = .queued) :
    Accounted executor (s.startJob i job) (log ++ entries s (s.startJob i job) (.start i)) := by
  have hlt := (List.getElem?_eq_some_iff.mp hjob).1
  rcases startJob_cases s i job with ⟨outcome, hs⟩ | ⟨hreason, hs⟩
  · have hnone : entries s (s.startJob i job) (.start i) = [] := by
      rw [hs]
      simp [entries, State.setJob, List.getElem?_set_self hlt, JobPhase.isCalling]
    rw [hnone, List.append_nil, hs]
    exact h.setJob hjob rfl fun hq => by cases hq
  · have hone : entries s (s.startJob i job) (.start i) = [.call job.owner] := by
      rw [hs]
      simp [entries, State.setJob, List.getElem?_set_self hlt, JobPhase.isCalling]
    rw [hone, hs]
    exact h.callOperation hjob hphase hreason

/-- A call takes the outcome of its job, which does not wait for a slot any more. -/
theorem Accounted.delivered (h : Accounted executor s log) (he : s.executes[x]? = some e)
    (hphase : e.phase = .waiting attempt i) (hjob : s.jobs[i]? = some job)
    {result : Except ThrownValue V} (hresult : job.outcome = some result) :
    Accounted executor (s.setExecute x { e with phase := .attempted attempt i result }) log := by
  have hnot : e.phase.isFinished = false := by rw [hphase]; rfl
  have hcount := h.counts he
  unfold CountOk at hcount
  rw [hphase] at hcount
  refine h.setExecute he hnot rfl (fun attempt' i' job' hphase' hjob' hq => ?_)
    ⟨hcount.1, hcount.2.1⟩
  rw [hphase] at hphase'
  cases hphase'
  rw [hjob] at hjob'
  cases hjob'
  rw [(h.jobs hjob).fresh hq] at hresult
  cases hresult

/-- A call wakes up, or is woken by its signal. -/
theorem Accounted.sleptUntil (h : Accounted executor s log) (he : s.executes[x]? = some e)
    (hphase : e.phase = .sleeping attempt) (result : Except ThrownValue Unit) :
    Accounted executor (s.setExecute x { e with phase := .slept attempt result }) log := by
  have hrunning : e.phase.isRunning = true := by rw [hphase]; rfl
  have hcount := h.counts he
  unfold CountOk at hcount
  rw [hphase] at hcount
  exact h.setExecute he (not_finished_of_running hrunning) rfl (not_waiting_of_running hrunning)
    hcount

/-- A failed attempt ends the call, or is logged and slept on. -/
theorem Accounted.failed (h : Accounted executor s log) (he : s.executes[x]? = some e)
    (hphase : e.phase = .attempted attempt i (.error error)) (delayMs : Option Nat) :
    Accounted executor (afterFailure executor s x e attempt error delayMs)
      (log ++ [.failure x error]) := by
  have hlogged := h.failure x error
  have hrunning : e.phase.isRunning = true := by rw [hphase]; rfl
  rcases afterFailure_cases executor s x e attempt error delayMs with
    ⟨error', hf⟩ | ⟨-, hattempt, hretry, hf⟩
  · rw [hf]
    exact hlogged.finish he hrunning _
  · rw [hf]
    have hcount := h.counts he
    unfold CountOk at hcount
    rw [hphase] at hcount
    exact hlogged.setExecute he (not_finished_of_running hrunning) rfl
      (not_waiting_of_running hrunning) ⟨hcount.1, hcount.2, mayCall_failure hretry⟩

/-- A call that has slept begins its next attempt, if it has one left. -/
theorem Accounted.awoke (h : Accounted executor s log) (he : s.executes[x]? = some e)
    (hphase : e.phase = .slept attempt (.ok ())) :
    Accounted executor (afterSleep executor s x e attempt) log := by
  have hrunning : e.phase.isRunning = true := by rw [hphase]; rfl
  have hcount := h.counts he
  unfold CountOk at hcount
  rw [hphase] at hcount
  unfold afterSleep
  by_cases hmore : attempt + 1 ≤ executor.maxRetries
  · rw [if_pos hmore]
    exact h.beginAttempt he hrunning hmore hcount.2.1 hcount.2.2
  · rw [if_neg hmore]
    exact h.finish he hrunning _

end Turns

/-- **Every turn keeps the account.** -/
theorem Accounted.turn (h : Accounted executor s log) {ev : Event V} (hturn : Turn executor s ev t) :
    Accounted executor t (log ++ entries s t ev) := by
  cases hturn with
  | called signal =>
      simp only [entries, List.append_nil]
      exact h.call signal
  | aborted =>
      simp only [entries, List.append_nil]
      exact h.abort _ _
  | started hjob hphase hslot => exact h.started hjob hphase
  | dropped hjob hphase =>
      simp only [entries, List.append_nil]
      exact h.setJob hjob rfl fun hq => by cases hq
  | timedOut hjob hphase =>
      simp only [entries, List.append_nil]
      refine h.setJob hjob (owner_cancel _ _) fun hq => ?_
      rw [phase_cancel hphase] at hq
      cases hq
  | settled hjob hphase =>
      simp only [entries, List.append_nil]
      exact h.setJob hjob rfl fun hq => by cases hq
  | delivered he hphase hjob hresult =>
      simp only [entries, List.append_nil]
      exact h.delivered he hphase hjob hresult
  | sleptUntil he hphase =>
      simp only [entries, List.append_nil]
      exact h.sleptUntil he hphase _
  | @succeeded x attempt i e value delayMs he hphase =>
      have hnone : entries s (s.finish x e (.ok value)) (.resume x delayMs) = [] :=
        entries_resumed _ delayMs he fun _ _ _ hfailed => by rw [hphase] at hfailed; cases hfailed
      rw [hnone, List.append_nil]
      exact h.finish he (by rw [hphase]; rfl) _
  | @failed x attempt i e error delayMs he hphase =>
      rw [entries_failed _ delayMs he hphase]
      exact h.failed he hphase delayMs
  | @awoke x attempt e delayMs he hphase =>
      have hnone : entries s (afterSleep executor s x e attempt) (.resume x delayMs) = [] :=
        entries_resumed _ delayMs he fun _ _ _ hfailed => by rw [hphase] at hfailed; cases hfailed
      rw [hnone, List.append_nil]
      exact h.awoke he hphase
  | @sleepFailed x attempt e error delayMs he hphase =>
      have hnone : entries s (s.finish x e (.error error)) (.resume x delayMs) = [] :=
        entries_resumed _ delayMs he fun _ _ _ hfailed => by rw [hphase] at hfailed; cases hfailed
      rw [hnone, List.append_nil]
      exact h.finish he (by rw [hphase]; rfl) _

theorem accounted_of_logged (h : Logged executor s log) : Accounted executor s log := by
  refine h.invariant (I := fun p => Accounted executor p.1 p.2) (fun {p q ev} hI _ hnext => ?_)
    accounted_initial
  obtain ⟨t, ht, rfl⟩ := Option.map_eq_some_iff.mp hnext
  exact hI.turn (turn_of_next ht)

/-- **The log misses no call of the operation**: a job that has just called it is logged. -/
theorem call_logged {ev : Event V} (hturn : Turn executor s ev t) {i : Nat} {job' : Job V}
    (hjob' : t.jobs[i]? = some job') (hcalling : job'.phase.isCalling = true)
    (hbefore : ∀ job, s.jobs[i]? = some job → job.phase.isCalling = false) :
    ev = .start i ∧ entries s t ev = [.call job'.owner] := by
  rcases hturn.job hjob' with ⟨job, hjob, howner, hmoved⟩ | ⟨hqueued, -⟩
  · have hnot := hbefore job hjob
    obtain ⟨owner', phase', outcome'⟩ := job'
    cases hmoved with
    | kept => rw [hnot] at hcalling; cases hcalling
    | settled => cases hcalling
    | started => exact ⟨rfl, by simp [entries, hjob', JobPhase.isCalling]⟩
    | timedOut hphase => rw [hphase] at hnot; cases hnot
    | aborted hphase => rw [hphase] at hnot; cases hnot
  · rw [hqueued] at hcalling
    cases hcalling

/-- A call that is logged is made by the job of a call of `execute` whose signal is not aborted, and
which waits for it. -/
theorem Accounted.called (h : Accounted executor s log) {ev : Event V}
    (hturn : Turn executor s ev t) {x : Nat} (hx : .call x ∈ entries s t ev) :
    ∃ e attempt i, s.executes[x]? = some e ∧ s.reason e.signal = none ∧
      e.phase = .waiting attempt i := by
  cases hturn with
  | @started i job hjob hphase hslot =>
      have hlt := (List.getElem?_eq_some_iff.mp hjob).1
      rcases startJob_cases s i job with ⟨outcome, hs⟩ | ⟨hreason, hs⟩
      · rw [hs] at hx
        simp [entries, State.setJob, List.getElem?_set_self hlt, JobPhase.isCalling] at hx
      · rw [hs] at hx
        simp only [entries, State.setJob, List.getElem?_set_self hlt, JobPhase.isCalling, if_true,
          List.mem_singleton, Entry.call.injEq] at hx
        subst hx
        obtain ⟨e, attempt, he, hwaiting⟩ :=
          ((h.jobs hjob).waited hphase).resolve_left fun haborted => haborted hreason
        refine ⟨e, attempt, i, he, ?_, hwaiting⟩
        rw [State.signalOf, he, Option.bind_some] at hreason
        exact hreason
  | @failed x' attempt i e error delayMs he hphase =>
      rw [entries_failed _ delayMs he hphase] at hx
      simp at hx
  | @succeeded x' attempt i e value delayMs he hphase =>
      rw [entries_resumed _ delayMs he fun _ _ _ hfailed => by rw [hphase] at hfailed; cases hfailed]
        at hx
      cases hx
  | @awoke x' attempt e delayMs he hphase =>
      rw [entries_resumed _ delayMs he fun _ _ _ hfailed => by rw [hphase] at hfailed; cases hfailed]
        at hx
      cases hx
  | @sleepFailed x' attempt e error delayMs he hphase =>
      rw [entries_resumed _ delayMs he fun _ _ _ hfailed => by rw [hphase] at hfailed; cases hfailed]
        at hx
      cases hx
  | _ => simp [entries] at hx

/-- A call of `execute` that has settled. -/
def Settled (s : State V) (x : Nat) : Prop :=
  ∃ e, s.executes[x]? = some e ∧ e.phase.isFinished = true

/-- A call that moves is not one that has settled. -/
theorem Settled.set {x y : Nat} {e e' : Execute V} (h : Settled s x) (he : s.executes[y]? = some e)
    (hnot : e.phase.isFinished = false) (hexecutes : t.executes = s.executes.set y e') :
    Settled t x := by
  obtain ⟨f, hf, hfinished⟩ := h
  have hxy : y ≠ x := by
    rintro rfl
    rw [he] at hf
    cases hf
    rw [hnot] at hfinished
    cases hfinished
  refine ⟨f, ?_, hfinished⟩
  rw [hexecutes, List.getElem?_set_ne hxy]
  exact hf

theorem Settled.beginAttempt {x y attempt : Nat} {e : Execute V} (h : Settled s x)
    (he : s.executes[y]? = some e) (hnot : e.phase.isFinished = false) :
    Settled (s.beginAttempt y e attempt) x := by
  rcases beginAttempt_cases s y e attempt with ⟨error, hb⟩ | ⟨-, hb⟩
  · rw [hb]
    exact h.set he hnot rfl
  · rw [hb]
    exact h.set he hnot rfl

/-- **What has settled stays so.** -/
theorem Settled.turn {x : Nat} (h : Settled s x) {ev : Event V} (hturn : Turn executor s ev t) :
    Settled t x := by
  cases hturn with
  | called signal =>
      have henter : Settled (s.enter signal) x := by
        obtain ⟨f, hf, hfinished⟩ := h
        refine ⟨f, ?_, hfinished⟩
        rw [State.enter, List.getElem?_append_left (List.getElem?_eq_some_iff.mp hf).1]
        exact hf
      rw [call_eq]
      exact henter.beginAttempt (enter_executes signal) rfl
  | @aborted signal reason =>
      obtain ⟨f, hf, hfinished⟩ := h
      refine ⟨_, by rw [State.abort, List.getElem?_map, hf, Option.map_some], ?_⟩
      split
      · rw [isFinished_abort]
        exact hfinished
      · exact hfinished
  | @started i job =>
      rcases startJob_cases s i job with ⟨outcome, hs⟩ | ⟨-, hs⟩
      · rw [hs]
        exact h
      · rw [hs]
        obtain ⟨f, hf, hfinished⟩ := h
        refine ⟨_, by rw [List.getElem?_modify]; exact congrArg _ hf, ?_⟩
        split
        · exact hfinished
        · exact hfinished
  | dropped => exact h
  | timedOut => exact h
  | settled => exact h
  | delivered he hphase => exact h.set he (by rw [hphase]; rfl) rfl
  | sleptUntil he hphase => exact h.set he (by rw [hphase]; rfl) rfl
  | succeeded he hphase => exact h.set he (by rw [hphase]; rfl) rfl
  | @failed y attempt i e error delayMs he hphase =>
      rcases afterFailure_cases executor s y e attempt error delayMs with ⟨error', hf⟩ | ⟨-, -, -, hf⟩
      · rw [hf]
        exact h.set he (by rw [hphase]; rfl) rfl
      · rw [hf]
        exact h.set he (by rw [hphase]; rfl) rfl
  | @awoke y attempt e delayMs he hphase =>
      rcases afterSleep_cases executor s y e attempt with ⟨error, ha⟩ | ha
      · rw [ha]
        exact h.set he (by rw [hphase]; rfl) rfl
      · rw [ha]
        exact h.beginAttempt he (by rw [hphase]; rfl)
  | sleepFailed he hphase => exact h.set he (by rw [hphase]; rfl) rfl

/-- A call of `execute` that has settled calls nothing more. -/
theorem count_of_settled {x : Nat} {log' : List Entry} (h : Logged executor s log)
    (hsettled : Settled s x)
    (hrun : Steps (loggedNext executor) (fun _ _ => True) (s, log) (t, log')) :
    log'.count (.call x) = log.count (.call x) := by
  refine (hrun.invariant (I := fun p => Accounted executor p.1 p.2 ∧ Settled p.1 x ∧
    p.2.count (.call x) = log.count (.call x)) (fun {p q ev} hI _ hnext => ?_)
    ⟨accounted_of_logged h, hsettled, rfl⟩).2.2
  obtain ⟨haccounted, hbefore, hcount⟩ := hI
  obtain ⟨u, hu, rfl⟩ := Option.map_eq_some_iff.mp hnext
  have hturn := turn_of_next hu
  refine ⟨haccounted.turn hturn, hbefore.turn hturn, ?_⟩
  have hnone : (entries p.1 u ev).count (.call x) = 0 := by
    refine List.count_eq_zero.mpr fun hx => ?_
    obtain ⟨e, attempt, i, he, -, hphase⟩ := haccounted.called hturn hx
    obtain ⟨f, hf, hfinished⟩ := hbefore
    rw [he] at hf
    cases hf
    rw [hphase] at hfinished
    cases hfinished
  rw [List.count_append, hnone, hcount]
  rfl

/-! ### Attempt bounds and accounting -/

/-- **Attempt bounds and accounting**, in every run.  The operation of a call of `execute` is called at
most `maxRetries + 1` times; the next event calls it only while its signal is not aborted; between two
calls the loop takes a failure classified as transient; and when every call of `execute` has settled,
the metrics are the calls of all operations and the sum of the retries, and nothing that has settled
calls its operation again. -/
theorem attempt_accounting (h : Logged executor s log) :
    (∀ x, log.count (.call x) ≤ executor.maxRetries + 1) ∧
    (∀ ev t x, next executor s ev = some t → .call x ∈ entries s t ev →
      ∃ e, s.executes[x]? = some e ∧ s.reason e.signal = none) ∧
    Retried executor log ∧
    (AllSettled s → s.totalRequestCalls = log.countP Entry.isCall ∧
      s.totalRetryCalls =
        ((List.range s.executes.length).map fun x => log.count (.call x) - 1).sum ∧
      ∀ t log', Steps (loggedNext executor) (fun _ _ => True) (s, log) (t, log') →
        ∀ x < s.executes.length, log'.count (.call x) = log.count (.call x)) := by
  have hI := accounted_of_logged h
  refine ⟨fun x => ?_, fun ev t x ht hx => ?_, hI.retried, fun hall => ⟨?_, ?_, ?_⟩⟩
  · by_cases hx : x < s.executes.length
    · have he := List.getElem?_eq_getElem hx
      rw [hI.counted he]
      exact (hI.counts he).le
    · have hnone : log.count (.call x) = 0 := List.count_eq_zero.mpr fun hmem => hx (hI.known hmem)
      rw [hnone]
      exact Nat.zero_le _
  · obtain ⟨e, attempt, i, he, hreason, -⟩ := hI.called (turn_of_next ht) hx
    exact ⟨e, he, hreason⟩
  · rw [hI.requests, hI.all]
    exact congrArg List.sum (List.map_congr_left fun e he => by
      rw [settledRequests, if_pos (hall e he)])
  · rw [hI.retries]
    refine congrArg List.sum (List.ext_getElem (by simp) fun x hx hx' => ?_)
    simp only [List.getElem_map, List.getElem_range]
    rw [List.length_map] at hx
    rw [settledRetries, if_pos (hall _ (List.getElem_mem hx)),
      hI.counted (List.getElem?_eq_getElem hx)]
  · intro t log' hrun x hx
    exact count_of_settled h ⟨_, List.getElem?_eq_getElem hx, hall _ (List.getElem_mem hx)⟩ hrun

/-- Two calls of `execute`: the first is retried after an error of its operation, the second is aborted
while its job waits for a slot. -/
def retriedEvents : List (Event Nat) :=
  [.call none, .call (some 0), .start 0, .abort 0 .primitive, .resume 1 (some 0), .start 1,
    .settle 0 (.error (createTimeoutError 0 .primitive)), .deliver 0, .resume 0 (some 0),
    .sleepEnds 0 (.ok ()), .resume 0 none, .start 2, .settle 2 (.ok 7), .deliver 0, .resume 0 none]

theorem attempt_accounting_retriedEvents :
    ∃ s log, Library.run (loggedNext defaultExecutor) (State.initial Nat, []) retriedEvents =
        some (s, log) ∧ AllSettled s ∧ s.executes.length = 2 ∧ s.totalRequestCalls = 2 ∧
      s.totalRetryCalls = 1 ∧ log.countP Entry.isCall = 2 ∧ log.count (.call 0) ≤ 4 ∧
      Retried defaultExecutor log := by
  have hs : ((Library.run (loggedNext defaultExecutor) (State.initial Nat, []) retriedEvents).map
      fun p => (p.1.executes.all (·.phase.isFinished), p.1.executes.length, p.1.totalRequestCalls,
        p.1.totalRetryCalls)) = some (true, 2, 2, 1) := by decide +kernel
  obtain ⟨⟨s, log⟩, hrun, hs⟩ := Option.map_eq_some_iff.mp hs
  simp only [Prod.mk.injEq, List.all_eq_true] at hs
  obtain ⟨hall, hlength, hrequests, hretries⟩ := hs
  obtain ⟨hbound, -, hretried, hsettled⟩ := attempt_accounting (run_steps (runOk_trivial _ _) hrun)
  exact ⟨s, log, hrun, hall, hlength, hrequests, hretries, (hsettled hall).1 ▸ hrequests, hbound 0,
    hretried⟩

end Runs

end RequestExecutor

end NycPropertyResolver
