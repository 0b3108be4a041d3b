import NycPropertyResolver.Clients.RequestTurns

/-!
# Clients — a timed-out request and its retry

When no two calls of one `execute` are ever in progress at once (`noOverlap_iff`).  A timed-out call
keeps its slot of the limiter, but the retry needs only a slot, not that one: it waits for the
timed-out call just where there is no other slot.
-/

namespace NycPropertyResolver

open Library

namespace RequestExecutor

variable {V : Type} {executor : SocrataRequestExecutor} {s t : State V}

/-! ### Jobs that are not over -/

/-- A job of the call that waits or holds a slot. -/
def Live (s : State V) (x i : Nat) : Prop :=
  ∃ job, s.jobs[i]? = some job ∧ job.owner = x ∧ job.phase ≠ .settled

/-- A job that is not over has told its caller nothing, except that it was cancelled: by its timeout, or
because the caller's signal was aborted. -/
structure JobOk (executor : SocrataRequestExecutor) (s : State V) (job : Job V) : Prop where
  owned : job.owner < s.executes.length
  queued : job.phase = .queued → job.outcome = none
  calling : job.phase = .calling none → job.outcome = none
  cancelled : ∀ {error : ThrownValue}, job.phase = .calling (some error) → job.outcome = some (.error error) ∧
    (error = timeoutError executor ∨ Aborted s (s.signalOf job))

/-- What a job of a call that is not over says about where the call stands. -/
def PhaseOk (executor : SocrataRequestExecutor) (s : State V) (x : Nat) (e : Execute V) : Prop :=
  ∀ i, Live s x i →
    match e.phase with
    | .waiting _ job => i = job
    | .attempted _ _ (.ok _) => False
    | .attempted _ _ (.error error) => error = timeoutError executor ∨ Aborted s e.signal
    | .sleeping _ | .slept _ (.ok _) => Aborted s e.signal
    | .slept _ (.error _) | .finished _ => True

/-- Every call has at most one job that is not over. -/
structure Tidy (executor : SocrataRequestExecutor) (s : State V) : Prop where
  jobs : ∀ {i : Nat} {job : Job V}, s.jobs[i]? = some job → JobOk executor s job
  one : ∀ {x i i' : Nat}, Live s x i → Live s x i' → i = i'
  phases : ∀ {x : Nat} {e : Execute V}, s.executes[x]? = some e → PhaseOk executor s x e

theorem tidy_initial : Tidy executor (State.initial V) where
  jobs h := by cases h
  one h := by obtain ⟨job, h, -⟩ := h; cases h
  phases h := by cases h

theorem JobOk.mono (hext : Extends s t) {job : Job V} (h : JobOk executor s job) :
    JobOk executor t job where
  owned := hext.lt_length h.owned
  queued := h.queued
  calling := h.calling
  cancelled hphase := by
    obtain ⟨houtcome, herror⟩ := h.cancelled hphase
    refine ⟨houtcome, herror.imp_right fun haborted => ?_⟩
    rw [hext.signalOf h.owned]
    exact haborted.mono hext

theorem PhaseOk.mono (hext : Extends s t) {x : Nat} (hlive : ∀ i, Live t x i → Live s x i)
    {e e' : Execute V} (hphase : e'.phase = e.phase) (hsignal : e'.signal = e.signal)
    (h : PhaseOk executor s x e) : PhaseOk executor t x e' := by
  intro i hi
  have hi' := h i (hlive i hi)
  rw [hphase, hsignal]
  split at hi'
  · exact hi'
  · exact hi'
  · exact hi'.imp_right (Aborted.mono hext)
  · exact hi'.mono hext
  · exact hi'.mono hext
  · trivial
  · trivial

theorem Live.owner_lt {x i : Nat} (h : Live s x i) (hs : Tidy executor s) :
    x < s.executes.length := by
  obtain ⟨job, hjob, rfl, -⟩ := h
  exact (hs.jobs hjob).owned

/-! ### A call goes on -/

/-- One call moves to another phase; the jobs stay as they are. -/
theorem Tidy.setExecute (hs : Tidy executor s) {x : Nat} {e e' : Execute V}
    (he : s.executes[x]? = some e) (hsignal : e'.signal = e.signal)
    (hphase : PhaseOk executor (s.setExecute x e') x e') : Tidy executor (s.setExecute x e') where
  jobs hjob := (hs.jobs hjob).mono (extends_setExecute he e' hsignal)
  one := hs.one
  phases := by
    intro y f hf
    rw [State.setExecute, List.getElem?_set] at hf
    by_cases hxy : x = y
    · subst hxy
      rw [if_pos rfl, if_pos (List.getElem?_eq_some_iff.mp he).1] at hf
      cases hf
      exact hphase
    · rw [if_neg hxy] at hf
      exact (hs.phases hf).mono (extends_setExecute he e' hsignal) (fun _ => id) rfl rfl

theorem Tidy.of_eq (hs : Tidy executor s) (hexecutes : t.executes = s.executes)
    (hjobs : t.jobs = s.jobs) (hreasons : t.reasons = s.reasons) : Tidy executor t := by
  obtain ⟨executes, jobs, reasons, calls, retries⟩ := t
  cases hexecutes
  cases hjobs
  cases hreasons
  exact ⟨fun h => ⟨(hs.jobs h).owned, (hs.jobs h).queued, (hs.jobs h).calling, (hs.jobs h).cancelled⟩,
    hs.one, hs.phases⟩

theorem Tidy.finish (hs : Tidy executor s) {x : Nat} {e : Execute V} (he : s.executes[x]? = some e)
    (result : Except ThrownValue V) : Tidy executor (s.finish x e result) := by
  have hset : Tidy executor (s.setExecute x { e with phase := .finished result }) := by
    refine hs.setExecute he rfl ?_
    intro i _
    trivial
  exact hset.of_eq rfl rfl rfl

/-- The jobs that are not over after one more was queued. -/
theorem live_of_append (s : State V) {x y i : Nat} {outcome : Option (Except ThrownValue V)}
    (hjobs : t.jobs = s.jobs ++ [⟨x, .queued, outcome⟩]) (h : Live t y i) :
    Live s y i ∨ y = x ∧ i = s.jobs.length := by
  obtain ⟨job, hjob, howner, hphase⟩ := h
  rw [hjobs] at hjob
  by_cases hi : i < s.jobs.length
  · rw [List.getElem?_append_left hi] at hjob
    exact .inl ⟨job, hjob, howner, hphase⟩
  · have hlast : i = s.jobs.length := by
      have hlt := (List.getElem?_eq_some_iff.mp hjob).1
      rw [List.length_append, List.length_singleton] at hlt
      omega
    rw [hlast, List.getElem?_append_right (le_refl _), Nat.sub_self] at hjob
    cases hjob
    exact .inr ⟨howner.symm, hlast⟩

/-- An attempt begins when the jobs before it are over. -/
theorem Tidy.beginAttempt (hs : Tidy executor s) {x : Nat} {e : Execute V}
    (he : s.executes[x]? = some e) (hover : ∀ i, Live s x i → Aborted s e.signal) (attempt : Nat) :
    Tidy executor (s.beginAttempt x e attempt) := by
  have hext := extends_beginAttempt he attempt
  rcases beginAttempt_cases s x e attempt with ⟨error, h⟩ | ⟨hreason, h⟩
  · rw [h]
    exact hs.finish he _
  · rw [h] at hext ⊢
    have hnone : ∀ i, ¬ Live s x i := fun i hi => hover i hi hreason
    constructor
    · intro i job hjob
      rcases List.mem_append.mp (List.mem_of_getElem? hjob) with hin | hin
      · obtain ⟨i', hi'⟩ := List.mem_iff_getElem?.mp hin
        exact (hs.jobs hi').mono hext
      · rw [List.mem_singleton.mp hin]
        refine ⟨hext.lt_length (List.getElem?_eq_some_iff.mp he).1, fun _ => rfl, fun _ => rfl, ?_⟩
        intro error hphase
        cases hphase
    · intro y i i' hi hi'
      rcases live_of_append s rfl hi with hold | ⟨hyx, hnew⟩
      · rcases live_of_append s rfl hi' with hold' | ⟨hyx, -⟩
        · exact hs.one hold hold'
        · exact absurd (hyx ▸ hold) (hnone i)
      · rcases live_of_append s rfl hi' with hold' | ⟨-, hnew'⟩
        · exact absurd (hyx ▸ hold') (hnone i')
        · rw [hnew, hnew']
    · intro y f hf
      change (s.executes.set x _)[y]? = some f at hf
      rw [List.getElem?_set] at hf
      by_cases hxy : x = y
      · subst hxy
        rw [if_pos rfl, if_pos (List.getElem?_eq_some_iff.mp he).1] at hf
        cases hf
        intro i hi
        rcases live_of_append s rfl hi with hi | ⟨-, hi⟩
        · exact absurd hi (hnone i)
        · exact hi
      · rw [if_neg hxy] at hf
        refine (hs.phases hf).mono hext (fun i hi => ?_) rfl rfl
        rcases live_of_append s rfl hi with hi | ⟨hyx, -⟩
        · exact hi
        · exact absurd hyx.symm hxy

/-! ### A job goes on -/

/-- One job moves to another phase; if it is not over, it was not over before. -/
theorem Tidy.setJob (hs : Tidy executor s) {i : Nat} {job job' : Job V} (hjob : s.jobs[i]? = some job)
    (howner : job'.owner = job.owner) (hlive : job.phase ≠ .settled)
    (hok : JobOk executor s job') : Tidy executor (s.setJob i job') := by
  have hshrink : ∀ x i', Live (s.setJob i job') x i' → Live s x i' := by
    rintro x i' ⟨other, hother, hx, hphase⟩
    rw [State.setJob, List.getElem?_set] at hother
    by_cases hi : i = i'
    · subst hi
      rw [if_pos rfl, if_pos (List.getElem?_eq_some_iff.mp hjob).1] at hother
      cases hother
      exact ⟨job, hjob, howner ▸ hx, hlive⟩
    · rw [if_neg hi] at hother
      exact ⟨other, hother, hx, hphase⟩
  constructor
  · intro i' other hother
    rw [State.setJob, List.getElem?_set] at hother
    by_cases hi : i = i'
    · subst hi
      rw [if_pos rfl, if_pos (List.getElem?_eq_some_iff.mp hjob).1] at hother
      cases hother
      exact hok.mono (extends_setJob i _)
    · rw [if_neg hi] at hother
      exact (hs.jobs hother).mono (extends_setJob i _)
  · intro x i₁ i₂ h₁ h₂
    exact hs.one (hshrink x i₁ h₁) (hshrink x i₂ h₂)
  · intro x e he
    exact (hs.phases he).mono (extends_setJob i _) (hshrink x) rfl rfl

theorem JobOk.of_settled {job : Job V} (howned : job.owner < s.executes.length)
    (h : job.phase = .settled) : JobOk executor s job where
  owned := howned
  queued hphase := by rw [h] at hphase; cases hphase
  calling hphase := by rw [h] at hphase; cases hphase
  cancelled hphase := by rw [h] at hphase; cases hphase

theorem JobOk.of_calling {job : Job V} (howned : job.owner < s.executes.length)
    (h : job.phase = .calling none) (houtcome : job.outcome = none) : JobOk executor s job where
  owned := howned
  queued hphase := by rw [h] at hphase; cases hphase
  calling _ := houtcome
  cancelled hphase := by rw [h] at hphase; cases hphase

/-- Counting a call leaves every call where it stands. -/
theorem Tidy.modify (hs : Tidy executor s) (x : Nat) (f : Execute V → Execute V)
    (hf : ∀ e, (f e).phase = e.phase ∧ (f e).signal = e.signal) :
    Tidy executor { s with executes := s.executes.modify x f } := by
  have hext : Extends s { s with executes := s.executes.modify x f } := by
    refine ⟨?_, id⟩
    intro y e he
    refine ⟨_, by rw [List.getElem?_modify, he]; rfl, ?_⟩
    by_cases hxy : x = y
    · simp [hxy, hf]
    · simp [hxy]
  refine ⟨fun hjob => (hs.jobs hjob).mono hext, hs.one, ?_⟩
  intro y e' he'
  rw [List.getElem?_modify, Option.map_eq_map, Option.map_eq_some_iff] at he'
  obtain ⟨e, he, rfl⟩ := he'
  refine (hs.phases he).mono hext (fun _ => id) ?_ ?_
  · by_cases hxy : x = y
    · simp [hxy, hf]
    · simp [hxy]
  · by_cases hxy : x = y
    · simp [hxy, hf]
    · simp [hxy]

theorem Tidy.startJob (hs : Tidy executor s) {i : Nat} {job : Job V} (hjob : s.jobs[i]? = some job)
    (hphase : job.phase = .queued) : Tidy executor (s.startJob i job) := by
  have hlive : job.phase ≠ .settled := by rw [hphase]; exact fun h => by cases h
  have hok := hs.jobs hjob
  rcases startJob_cases s i job with ⟨outcome, h⟩ | ⟨-, h⟩
  · rw [h]
    exact hs.setJob hjob rfl hlive (.of_settled hok.owned rfl)
  · rw [h]
    have hset : Tidy executor (s.setJob i { job with phase := .calling none }) :=
      hs.setJob hjob rfl hlive (.of_calling hok.owned rfl (hok.queued hphase))
    have hcount := hset.modify job.owner (fun e => { e with requestCalls := e.requestCalls + 1 })
      fun e => ⟨rfl, rfl⟩
    exact hcount.of_eq rfl rfl rfl

/-! ### A signal is aborted -/

theorem settled_of_cancel {job : Job V} {error : ThrownValue} (h : job.phase = .settled) :
    (job.cancel error).phase = .settled := by
  unfold Job.cancel
  rw [h]
  exact h

/-- A job that is cancelled tells its caller why. -/
theorem JobOk.cancel {job : Job V} (h : JobOk executor s job) {error : ThrownValue}
    (herror : error = timeoutError executor ∨ Aborted s (s.signalOf job)) :
    JobOk executor s (job.cancel error) := by
  by_cases hphase : job.phase = .calling none
  · have hcancel : job.cancel error = ⟨job.owner, .calling (some error), some (.error error)⟩ := by
      unfold Job.cancel Job.settleOutcome
      rw [hphase, h.calling hphase]
      rfl
    rw [hcancel]
    refine ⟨h.owned, (fun hphase' => by cases hphase'), (fun hphase' => by cases hphase'), ?_⟩
    intro error' hphase'
    cases hphase'
    exact ⟨rfl, herror⟩
  · rw [cancel_eq_self hphase]
    exact h

theorem Tidy.abort (hs : Tidy executor s) (signal : SignalId) (reason : ThrownValue) :
    Tidy executor (s.abort signal reason) := by
  have hext : Extends s (s.abort signal reason) := extends_abort reason
  have haborted : Aborted (s.abort signal reason) (some signal) := by
    show (if signal = signal then some reason else s.reasons signal) ≠ none
    rw [if_pos rfl]
    exact Option.some_ne_none _
  have hshrink : ∀ x i, Live (s.abort signal reason) x i → Live s x i := by
    rintro x i ⟨job', hjob', hx, hphase⟩
    rw [State.abort, List.getElem?_map, Option.map_eq_some_iff] at hjob'
    obtain ⟨job, hjob, rfl⟩ := hjob'
    refine ⟨job, hjob, ?_, fun hsettled => hphase ?_⟩
    · rw [← hx]
      split
      · rw [owner_cancel]
      · rfl
    · split
      · exact settled_of_cancel hsettled
      · exact hsettled
  constructor
  · intro i job' hjob'
    rw [State.abort, List.getElem?_map, Option.map_eq_some_iff] at hjob'
    obtain ⟨job, hjob, rfl⟩ := hjob'
    have hok := (hs.jobs hjob).mono hext
    split
    · rename_i hsignal
      refine hok.cancel (.inr ?_)
      rw [hext.signalOf (hs.jobs hjob).owned, hsignal]
      exact haborted
    · exact hok
  · intro x i i' hi hi'
    exact hs.one (hshrink x i hi) (hshrink x i' hi')
  · intro x e' he'
    rw [State.abort, List.getElem?_map, Option.map_eq_some_iff] at he'
    obtain ⟨e, he, rfl⟩ := he'
    have hok := hs.phases he
    by_cases hsignal : e.signal = some signal
    · rw [if_pos hsignal]
      intro i hi
      have hi' := hok i (hshrink x i hi)
      unfold Execute.abort
      cases hphase : e.phase with
      | waiting attempt job => exact .inr (hsignal ▸ haborted)
      | sleeping attempt => trivial
      | attempted attempt job settled =>
          exact hok.mono hext (hshrink x) rfl rfl i hi
      | slept attempt settled => exact hok.mono hext (hshrink x) rfl rfl i hi
      | finished result => exact hok.mono hext (hshrink x) rfl rfl i hi
    · rw [if_neg hsignal]
      exact hok.mono hext (hshrink x) rfl rfl

theorem Tidy.call (hs : Tidy executor s) (signal : Option SignalId) :
    Tidy executor (s.call signal) := by
  have hext : Extends s (s.enter signal) := extends_enter signal
  have hnone : ∀ i, ¬ Live s s.executes.length i := fun i hi => lt_irrefl _ (hi.owner_lt hs)
  have henter : Tidy executor (s.enter signal) := by
    refine ⟨fun hjob => (hs.jobs hjob).mono hext, hs.one, ?_⟩
    intro x e he
    by_cases hx : x < s.executes.length
    · rw [State.enter, List.getElem?_append_left hx] at he
      exact (hs.phases he).mono hext (fun _ => id) rfl rfl
    · intro i hi
      have hlive : Live s x i := hi
      exact absurd (hlive.owner_lt hs) hx
  rw [call_eq]
  exact henter.beginAttempt (enter_executes signal) (fun i hi => absurd hi (hnone i)) 0

/-! ### Runs -/

/-- The executor does not retry an attempt that timed out. -/
def RefusesTimeouts (executor : SocrataRequestExecutor) : Prop :=
  executor.maxRetries = 0 ∨ executor.classifyError (timeoutError executor) = false

/-- **Where no timeout is retried, every event keeps the calls tidy.** -/
theorem Tidy.turn (hrefuses : RefusesTimeouts executor) (hs : Tidy executor s) {ev : Event V}
    (h : Turn executor s ev t) : Tidy executor t := by
  cases h with
  | called signal => exact hs.call signal
  | aborted => exact hs.abort _ _
  | started hjob hphase => exact hs.startJob hjob hphase
  | dropped hjob hphase =>
      exact hs.setJob hjob rfl (by rw [hphase]; exact fun h => by cases h)
        (.of_settled (hs.jobs hjob).owned rfl)
  | timedOut hjob hphase =>
      exact hs.setJob hjob (owner_cancel _ _) (by rw [hphase]; exact fun h => by cases h)
        ((hs.jobs hjob).cancel (.inl rfl))
  | settled hjob hphase =>
      exact hs.setJob hjob rfl (by rw [hphase]; exact fun h => by cases h)
        (.of_settled (hs.jobs hjob).owned rfl)
  | @delivered x attempt i e job result he hphase hjob hresult =>
      refine hs.setExecute he rfl ?_
      intro i' hi'
      -- the live job of the call is the one it waited for
      have hwaited := hs.phases he i' hi'
      rw [hphase] at hwaited
      subst hwaited
      obtain ⟨job', hjob', howner, hlive⟩ := hi'
      change s.jobs[i']? = some job' at hjob'
      rw [hjob] at hjob'
      cases hjob'
      have hok := hs.jobs hjob
      cases hjobPhase : job.phase with
      | queued =>
          rw [hok.queued hjobPhase] at hresult
          cases hresult
      | settled => exact absurd hjobPhase hlive
      | calling cancellation =>
          cases cancellation with
          | none =>
              rw [hok.calling hjobPhase] at hresult
              cases hresult
          | some error =>
              obtain ⟨houtcome, herror⟩ := hok.cancelled hjobPhase
              rw [houtcome] at hresult
              cases hresult
              refine herror.imp_right fun haborted => ?_
              rw [State.signalOf, howner, he, Option.bind_some] at haborted
              exact haborted
  | @sleptUntil x attempt e result he hphase =>
      refine hs.setExecute he rfl ?_
      intro i hi
      have hi' := hs.phases he i hi
      rw [hphase] at hi'
      cases result with
      | ok value => exact hi'
      | error error => trivial
  | succeeded he => exact hs.finish he _
  | @failed x attempt i e error delayMs he hphase =>
      rcases afterFailure_cases executor s x e attempt error delayMs with
        ⟨error', h⟩ | ⟨-, hattempt, hretry, h⟩
      · rw [h]
        exact hs.finish he _
      · rw [h]
        refine hs.setExecute he rfl ?_
        intro i' hi'
        have herror := hs.phases he i' hi'
        rw [hphase] at herror
        rcases herror with rfl | haborted
        · rcases hrefuses with hnone | hrefused
          · omega
          · rw [hrefused] at hretry
            cases hretry
        · exact haborted
  | @awoke x attempt e delayMs he hphase =>
      rcases afterSleep_cases executor s x e attempt with ⟨error, h⟩ | h
      · rw [h]
        exact hs.finish he _
      · rw [h]
        refine hs.beginAttempt he (fun i hi => ?_) _
        have hi' := hs.phases he i hi
        rw [hphase] at hi'
        exact hi'
  | sleepFailed he => exact hs.finish he _

/-- No two calls of one `execute` are in progress at once. -/
def NoOverlap (s : State V) : Prop := ∀ x, s.callsInProgress x ≤ 1

/-- Rows no two of which have a property. -/
theorem countP_le_one {ρ : Type} {p : ρ → Bool} {rows : List ρ}
    (h : ∀ (i i' : Nat) (a b : ρ), rows[i]? = some a → rows[i']? = some b → p a = true → p b = true → i = i') :
    rows.countP p ≤ 1 := by
  induction rows with
  | nil => exact Nat.zero_le _
  | cons row rows ih =>
      have ih' := ih fun i i' a b ha hb hpa hpb =>
        Nat.succ_inj.mp (h (i + 1) (i' + 1) a b ha hb hpa hpb)
      rw [List.countP_cons]
      by_cases hrow : p row = true
      · have hzero : rows.countP p = 0 := by
          rw [List.countP_eq_zero]
          intro b hb hpb
          obtain ⟨i', hi'⟩ := List.mem_iff_getElem?.mp hb
          have habsurd := h 0 (i' + 1) row b rfl hi' hrow hpb
          omega
        rw [hzero, if_pos hrow]
      · rw [if_neg hrow]
        exact ih'

theorem Tidy.noOverlap (hs : Tidy executor s) : NoOverlap s := by
  intro x
  refine countP_le_one fun i i' a b ha hb hpa hpb => ?_
  have hlive : ∀ {j : Nat} {job : Job V}, s.jobs[j]? = some job →
      (decide (job.owner = x) && job.phase.isCalling) = true → Live s x j := by
    intro j job hjob hp
    obtain ⟨howner, hcalling⟩ := Bool.and_eq_true_iff.mp hp
    refine ⟨job, hjob, of_decide_eq_true howner, fun hsettled => ?_⟩
    rw [hsettled] at hcalling
    cases hcalling
  exact hs.one (hlive ha hpa) (hlive hb hpb)

theorem tidy_of_reachable (hrefuses : RefusesTimeouts executor) (h : Reachable executor s) :
    Tidy executor s :=
  h.invariant (fun hs _ hnext => hs.turn hrefuses (turn_of_next hnext)) tidy_initial

/-! ### The slots of the limiter -/

theorem running_setJob_le {i : Nat} {job job' : Job V} (hjob : s.jobs[i]? = some job)
    (hcalling : job'.phase.isCalling = true → job.phase.isCalling = true) :
    (s.setJob i job').running ≤ s.running := by
  obtain ⟨hi, rfl⟩ := List.getElem?_eq_some_iff.mp hjob
  rw [State.running, State.setJob, List.countP_set hi, State.running]
  by_cases hnew : job'.phase.isCalling = true
  · have hpos : 0 < s.jobs.countP (·.phase.isCalling) :=
      List.countP_pos_iff.mpr ⟨_, List.getElem_mem hi, hcalling hnew⟩
    rw [if_pos hnew, if_pos (hcalling hnew)]
    omega
  · rw [if_neg hnew]
    omega

theorem running_startJob_le (i : Nat) (job : Job V) :
    (s.startJob i job).running ≤ s.running + 1 := by
  have hset : ∀ job' : Job V, (s.setJob i job').running ≤ s.running + 1 := by
    intro job'
    rw [State.running, State.setJob]
    by_cases hi : i < s.jobs.length
    · rw [List.countP_set hi, State.running]
      split <;> split <;> omega
    · rw [List.set_eq_of_length_le (Nat.le_of_not_lt hi)]
      exact Nat.le_succ _
  rcases startJob_cases s i job with ⟨outcome, h⟩ | ⟨-, h⟩
  · rw [h]
    exact hset _
  · rw [h]
    exact hset _

theorem isCalling_cancel (job : Job V) (error : ThrownValue) :
    (job.cancel error).phase.isCalling = job.phase.isCalling := by
  unfold Job.cancel
  split
  · rename_i h
    rw [h]
    rfl
  · rfl

theorem running_abort (signal : SignalId) (reason : ThrownValue) :
    (s.abort signal reason).running = s.running := by
  rw [State.running, State.abort, List.countP_map, State.running]
  refine List.countP_congr fun job _ => ?_
  rw [Function.comp_apply]
  split
  · rw [isCalling_cancel]
  · rfl

theorem running_beginAttempt (x : Nat) (e : Execute V) (attempt : Nat) :
    (s.beginAttempt x e attempt).running = s.running := by
  rcases beginAttempt_cases s x e attempt with ⟨error, h⟩ | ⟨-, h⟩
  · rw [h]
    rfl
  · rw [h, State.running, List.countP_append]
    rfl

/-- **The limiter runs no more jobs than it may.** -/
theorem running_turn {ev : Event V} (h : Turn executor s ev t)
    (hs : s.running ≤ executor.concurrency) : t.running ≤ executor.concurrency := by
  cases h with
  | called signal =>
      rw [call_eq, running_beginAttempt]
      exact hs
  | aborted => rwa [running_abort]
  | started hjob hphase hslot => exact (running_startJob_le _ _).trans hslot
  | dropped hjob =>
      exact (running_setJob_le hjob fun hcalling => by cases hcalling).trans hs
  | timedOut hjob =>
      refine (running_setJob_le hjob fun hcalling => ?_).trans hs
      rw [isCalling_cancel] at hcalling
      exact hcalling
  | settled hjob =>
      exact (running_setJob_le hjob fun hcalling => by cases hcalling).trans hs
  | delivered => exact hs
  | sleptUntil => exact hs
  | succeeded => exact hs
  | @failed x attempt i e error delayMs =>
      rcases afterFailure_cases executor s x e attempt error delayMs with
        ⟨error', h⟩ | ⟨-, -, -, h⟩
      · rw [h]
        exact hs
      · rw [h]
        exact hs
  | @awoke x attempt e =>
      rcases afterSleep_cases executor s x e attempt with ⟨error, h⟩ | h
      · rw [h]
        exact hs
      · rw [h, running_beginAttempt]
        exact hs
  | sleepFailed => exact hs

theorem running_le (h : Reachable executor s) : s.running ≤ executor.concurrency :=
  h.invariant (I := fun s => s.running ≤ executor.concurrency)
    (fun hs _ hnext => running_turn (turn_of_next hnext) hs) (Nat.zero_le _)

theorem callsInProgress_le_running (x : Nat) : s.callsInProgress x ≤ s.running :=
  List.countP_mono_left fun _ _ h => (Bool.and_eq_true_iff.mp h).2

/-! ### A retry beside the call that timed out -/

/-- A call times out and does not settle, and its retry finds another slot. -/
def overlapEvents (V : Type) : List (Event V) :=
  [.call none, .start 0, .timeout 0, .deliver 0, .resume 0 (some 0), .sleepEnds 0 (.ok ()),
    .resume 0 (some 0), .start 1]

/-- The end of that run: two calls in progress. -/
def overlapState (V : Type) (executor : SocrataRequestExecutor) : State V where
  executes := [⟨none, .waiting 1 1, 2⟩]
  jobs := [⟨0, .calling (some (timeoutError executor)), some (.error (timeoutError executor))⟩,
    ⟨0, .calling none, none⟩]
  reasons := fun _ => none
  totalRequestCalls := 0
  totalRetryCalls := 0

theorem afterSleep_of_lt {executor : SocrataRequestExecutor} {attempt : Nat}
    (h : attempt < executor.maxRetries) (s : State V) (x : Nat) (e : Execute V) :
    afterSleep executor s x e attempt = s.beginAttempt x e (attempt + 1) :=
  if_pos h

theorem run_overlap (V : Type) (executor : SocrataRequestExecutor)
    (hslots : 2 ≤ executor.concurrency) (hretries : 0 < executor.maxRetries)
    (hretry : executor.classifyError (timeoutError executor) = true) :
    run (next executor) (State.initial V) (overlapEvents V) = some (overlapState V executor) := by
  have hone : 0 < executor.concurrency := by omega
  have htwo : 1 < executor.concurrency := by omega
  have hretry' : executor.classifyError
      (createTimeoutError executor.requestTimeoutMs .primitive) = true := hretry
  have hnot : ¬ executor.maxRetries = 0 := by omega
  simp [overlapEvents, run, next, State.initial, State.call, State.beginAttempt, State.reason,
    State.setExecute, State.setJob, State.startJob, State.signalOf, State.running, JobPhase.isCalling,
    Job.cancel, Job.settleOutcome, afterFailure, afterSleep_of_lt hretries, hone, htwo, hretry',
    hnot, overlapState, timeoutError]

/-- An executor with two slots that retries a timeout reaches two calls of one `execute`. -/
theorem exists_overlap (executor : SocrataRequestExecutor) (V : Type)
    (hslots : 2 ≤ executor.concurrency)
    (hretries : 0 < executor.maxRetries)
    (hretry : executor.classifyError (timeoutError executor) = true) :
    ∃ s : State V, Reachable executor s ∧ ¬ NoOverlap s := by
  refine ⟨overlapState V executor,
    run_steps (runOk_trivial _ _) (run_overlap V executor hslots hretries hretry), ?_⟩
  intro hle
  have hone := hle 0
  simp [State.callsInProgress, overlapState, JobPhase.isCalling] at hone

/-- **When no two calls of one `execute` are ever in progress at once**: exactly when the limiter has a
single slot, or no attempt that timed out is retried. -/
theorem noOverlap_iff (executor : SocrataRequestExecutor) (V : Type) :
    (∀ s : State V, Reachable executor s → NoOverlap s) ↔
      executor.concurrency = 1 ∨ executor.maxRetries = 0 ∨
        executor.classifyError (createTimeoutError executor.requestTimeoutMs .primitive) = false := by
  constructor
  · intro hall
    by_contra hnot
    rw [not_or, not_or, Bool.not_eq_false] at hnot
    obtain ⟨hslots, hretries, hretry⟩ := hnot
    have hpos := executor.concurrency_pos
    obtain ⟨s, hreachable, hoverlap⟩ :=
      exists_overlap executor V (by omega) (by omega) hretry
    exact hoverlap (hall s hreachable)
  · rintro (hslot | hrefuses) s hreachable
    · intro x
      exact (callsInProgress_le_running x).trans (hslot ▸ running_le hreachable)
    · exact (tidy_of_reachable hrefuses hreachable).noOverlap

/-- The retries of the default executor do not wait for the calls that timed out. -/
theorem default_overlaps :
    ¬ ∀ executor : SocrataRequestExecutor, ∀ s : State Unit, Reachable executor s → NoOverlap s := by
  intro hall
  obtain ⟨s, hreachable, hoverlap⟩ := exists_overlap defaultExecutor Unit (by decide)
    (by decide) (isRetryable_timeoutError 15000 .primitive)
  exact hoverlap (hall defaultExecutor s hreachable)

end RequestExecutor

end NycPropertyResolver
