import NycPropertyResolver.Clients.RequestTurns

/-!
# Ingestion — timeouts and the requests they end

The requests of a production execution: those of data pages, by the client of the batch processor
(`createBoundedSocrataClient` in `batch-processor.service.ts`), and those of the dataset's metadata,
by the metadata port of the worker (`createAuthorityBoundMetadataPort` in `ingestion.worker.ts`), each
through a request executor of its own.  An attempt of the executor has a signal that its timeout
aborts; a fetch has the signal its request was given.  The metadata port gives a request the signal of
its attempt, the batch processor leaves it the signal of the authority
(`timeouts_reach_fetch_iff`).
-/

namespace NycPropertyResolver

open Library

namespace RequestTimeouts

open RequestExecutor

/-! ### Requests -/

/-- The two kinds of requests. -/
inductive Plane where
  | data
  | metadata
  deriving DecidableEq

/-- A signal a fetch can be given: that of an authority, or that of an attempt, by its job. -/
inductive AbortSignalRef where
  | authority (signal : SignalId)
  | attempt (job : Nat)
  deriving DecidableEq

/-- What of a `RequestInit` matters here. -/
structure RequestInit where
  appToken : Option String
  signal : Option AbortSignalRef
  deriving DecidableEq

/-- `requestJson`: the request of a client constructed with a signal, or without one. -/
def requestInit (clientSignal : Option AbortSignalRef) : RequestInit := ⟨none, clientSignal⟩

/-- `withSocrataToken`. -/
def withSocrataToken (token : Option String) (init : RequestInit) : RequestInit :=
  match token with
  | none => init
  | some token => { init with appToken := some token }

/-- A Socrata client under an authority: the signal it is constructed with, and what its executor makes
of a request before it executes it, given the signal of the attempt. -/
structure SocrataPort where
  signal : Option AbortSignalRef
  prepare : AbortSignalRef → RequestInit → RequestInit

/-- `requestExecutor.execute(async () => attempt.execute(), authority.signal)`. -/
def createBoundedSocrataClient (authority : SignalId) : SocrataPort where
  signal := some (.authority authority)
  prepare := fun _ init => init

/-- `attempt.request.init = { ...attempt.request.init, signal: requestSignal }`. -/
def createAuthorityBoundMetadataPort : SocrataPort where
  signal := none
  prepare := fun requestSignal init => { init with signal := some requestSignal }

/-- The port of a kind of requests, under an authority. -/
def port (authority : SignalId) : Plane → SocrataPort
  | .data => createBoundedSocrataClient authority
  | .metadata => createAuthorityBoundMetadataPort

/-- What the fetch of an attempt is given. -/
def fetchInit (token : Option String) (plane : Plane) (authority : SignalId) (job : Nat) : RequestInit :=
  withSocrataToken token
    ((port authority plane).prepare (.attempt job) (requestInit (port authority plane).signal))

/-! ### Runs -/

/-- The composition root: an executor for each kind of requests, and the application token. -/
structure ProductionRequests where
  executors : Plane → SocrataRequestExecutor
  socrataAppToken : Option String

/-- The executor of each kind of requests. -/
abbrev PlaneStates (V : Type) := Plane → State V

/-- A turn of an executor, or an authority that is revoked. -/
inductive PlaneEvent (V : Type) where
  | turn (plane : Plane) (ev : Event V)
  | revoke (authority : SignalId) (reason : ThrownValue)

/-- Every request is made under the signal of an authority, and only an authority aborts it. -/
def ofClient {V : Type} : Event V → Bool
  | .call none => false
  | .abort _ _ => false
  | _ => true

/-- A turn of one executor, or an authority that aborts its signal for both. -/
def nextRequests {V : Type} (production : ProductionRequests) (s : PlaneStates V) :
    PlaneEvent V → Option (PlaneStates V)
  | .turn plane ev =>
    if ofClient ev then
      (next (production.executors plane) (s plane) ev).map fun t other =>
        if other = plane then t else s other
    else none
  | .revoke authority reason =>
    if (s .data).reasons authority = none ∧ (s .metadata).reasons authority = none then
      some fun plane => (s plane).abort authority reason
    else none

/-- No request has been made. -/
def noRequests (V : Type) : PlaneStates V := fun _ => State.initial V

/-! ### Timeouts -/

section Timeouts

variable {V : Type} (production : ProductionRequests)

/-- The attempt of a job timed out and its operation is still in progress. -/
def TimedOut (executor : SocrataRequestExecutor) (job : Job V) : Prop :=
  job.phase = .calling (some (timeoutError executor))

/-- A signal was aborted; that of an attempt is aborted when the attempt is cancelled. -/
def SignalAborted (s : State V) : AbortSignalRef → Prop
  | .authority signal => s.reasons signal ≠ none
  | .attempt i => ∃ job error, s.jobs[i]? = some job ∧ job.phase = .calling (some error)

/-- The fetch of an attempt was told to abort. -/
def FetchTold (s : PlaneStates V) (plane : Plane) (i : Nat) (job : Job V) : Prop :=
  ∃ authority ref, (s plane).signalOf job = some authority ∧
    (fetchInit production.socrataAppToken plane authority i).signal = some ref ∧
    SignalAborted (s plane) ref

/-- Slots of the limiters are held only by attempts that have not timed out or whose fetch was told to
abort. -/
def TimeoutsReachFetch (s : PlaneStates V) : Prop :=
  ∀ plane i job, (s plane).jobs[i]? = some job → TimedOut (production.executors plane) job →
    FetchTold production s plane i job

end Timeouts

/-! ### Attempts and their authority -/

section Heard

variable {V : Type} {executor : SocrataRequestExecutor} {s t : State V}

/-- Every call has a signal, every job has a call, and an attempt that was not cancelled has a signal
that was not aborted. -/
structure Heard (s : State V) : Prop where
  signals : ∀ {x : Nat} {e : Execute V}, s.executes[x]? = some e → e.signal ≠ none
  owned : ∀ {i : Nat} {job : Job V}, s.jobs[i]? = some job → job.owner < s.executes.length
  calling : ∀ {i : Nat} {job : Job V}, s.jobs[i]? = some job → job.phase = .calling none →
    ¬ Aborted s (s.signalOf job)

theorem heard_initial : Heard (State.initial V) where
  signals h := by cases h
  owned h := by cases h
  calling h := by cases h

theorem signalOf_of_owner {job job' : Job V} (h : job'.owner = job.owner) :
    s.signalOf job' = s.signalOf job := by
  rw [State.signalOf, State.signalOf, h]

/-- **Every event keeps it so.** -/
theorem Heard.turn (hs : Heard s) {ev : Event V} (hcall : ev ≠ .call none)
    (h : Turn executor s ev t) : Heard t := by
  have howned : ∀ {i : Nat} {job' : Job V}, t.jobs[i]? = some job' →
      job'.owner < t.executes.length := by
    intro i job' hjob'
    rcases h.job hjob' with ⟨job, hjob, howner, -⟩ | ⟨-, hlt⟩
    · rw [howner]
      exact h.extends.lt_length (hs.owned hjob)
    · exact hlt
  refine ⟨?_, howned, ?_⟩
  · intro x e' he' hnone
    rcases h.signal he' with ⟨e, he, hsignal⟩ | hev
    · exact hs.signals he (hsignal ▸ hnone)
    · exact hcall (hnone ▸ hev)
  · intro i job' hjob' hphase' haborted
    rcases h.job hjob' with ⟨job, hjob, howner, hturn⟩ | ⟨hqueued, -⟩
    · rw [signalOf_of_owner howner, h.extends.signalOf (hs.owned hjob)] at haborted
      rcases aborted_of_turn h haborted with hbefore | ⟨signal, reason, rfl, hsignal⟩
      · generalize hphase : job'.phase = phase at hturn
        cases hturn with
        | kept => exact hs.calling hjob (hphase.symm.trans hphase') hbefore
        | settled => rw [hphase] at hphase'; cases hphase'
        | started _ hreason => exact hbefore hreason
        | timedOut => rw [hphase] at hphase'; cases hphase'
        | aborted => rw [hphase] at hphase'; cases hphase'
      · -- its signal is aborted now, and so is the attempt
        generalize hphase : job'.phase = phase at hturn
        cases hturn with
        | kept hkept => exact hkept signal reason rfl (hphase.symm.trans hphase') hsignal
        | settled => rw [hphase] at hphase'; cases hphase'
        | aborted => rw [hphase] at hphase'; cases hphase'
    · rw [hqueued] at hphase'
      cases hphase'

end Heard

/-! ### Runs of both planes -/

section Planes

variable {V : Type} {production : ProductionRequests} {s t : PlaneStates V}

theorem next_of_turn {plane : Plane} {ev : Event V}
    (h : nextRequests production s (.turn plane ev) = some t) :
    ofClient ev = true ∧ next (production.executors plane) (s plane) ev = some (t plane) ∧
      ∀ other, other ≠ plane → t other = s other := by
  rw [nextRequests] at h
  split at h
  · rename_i hclient
    obtain ⟨u, hu, rfl⟩ := Option.map_eq_some_iff.mp h
    refine ⟨hclient, ?_, fun other hother => if_neg hother⟩
    rw [hu]
    exact congrArg some (if_pos rfl).symm
  · cases h

/-- What an event does to one of the two executors: nothing, a turn of its own, or the abort of an
authority's signal. -/
theorem turn_of_nextRequests {ev : PlaneEvent V} (h : nextRequests production s ev = some t)
    (plane : Plane) :
    t plane = s plane ∨
      ∃ ev' : Event V, ev' ≠ .call none ∧ Turn (production.executors plane) (s plane) ev' (t plane) ∧
        (ev = .turn plane ev' ∨ ∃ authority reason, ev = .revoke authority reason ∧
          ev' = .abort authority reason) := by
  cases ev with
  | turn plane' ev' =>
      obtain ⟨hclient, hnext, hothers⟩ := next_of_turn h
      by_cases hplane : plane = plane'
      · subst hplane
        right
        refine ⟨ev', ?_, turn_of_next hnext, .inl rfl⟩
        rintro rfl
        cases hclient
      · exact .inl (hothers plane hplane)
  | revoke authority reason =>
      right
      rw [nextRequests, Option.ite_none_right_eq_some] at h
      obtain ⟨⟨hdata, hmetadata⟩, ht⟩ := h
      cases ht
      refine ⟨.abort authority reason, (fun he => by cases he), ?_, .inr ⟨_, _, rfl, rfl⟩⟩
      cases plane with
      | data => exact .aborted hdata
      | metadata => exact .aborted hmetadata

theorem heard_run {evs : List (PlaneEvent V)}
    (hrun : run (nextRequests production) (noRequests V) evs = some s) (plane : Plane) :
    Heard (s plane) := by
  have hI : ∀ ev ∈ evs, ∀ {s t : PlaneStates V}, (∀ plane, Heard (s plane)) →
      nextRequests production s ev = some t → ∀ plane, Heard (t plane) := by
    intro ev _ s t hs hnext plane
    rcases turn_of_nextRequests hnext plane with hsame | ⟨ev', hcall, hturn, -⟩
    · rw [hsame]
      exact hs plane
    · exact (hs plane).turn hcall hturn
  exact run_invariant hI (fun _ => heard_initial) hrun plane

theorem timeout_turn {executor : SocrataRequestExecutor} {s t : State V} {i : Nat}
    (h : Turn executor s (.timeout i) t) :
    ∃ job, s.jobs[i]? = some job ∧ job.phase = .calling none ∧
      t = s.setJob i (job.cancel (timeoutError executor)) := by
  cases h with
  | timedOut hjob hphase => exact ⟨_, hjob, hphase, rfl⟩

theorem abortError_ne_timeoutError (reason : ThrownValue) (executor : SocrataRequestExecutor) :
    createAbortError reason ≠ timeoutError executor := by
  intro h
  injection h with hfields
  have hcode := congrArg ErrorFields.code hfields
  simp [appErrorFields, requestAborted, requestTimeout] at hcode

/-- An attempt times out in the turn of its timeout. -/
theorem timedOut_of_turn {executor : SocrataRequestExecutor} {s t : State V} {ev : Event V}
    (h : Turn executor s ev t) (hs : ∀ (i : Nat) (job : Job V), s.jobs[i]? = some job → ¬ TimedOut executor job)
    {i : Nat} {job' : Job V} (hjob' : t.jobs[i]? = some job') (htimed : TimedOut executor job') :
    ev = .timeout i := by
  rcases h.job hjob' with ⟨job, hjob, -, hturn⟩ | ⟨hqueued, -⟩
  · generalize hphase : job'.phase = phase at hturn
    rw [TimedOut, hphase] at htimed
    cases hturn with
    | kept => exact absurd htimed (hs i job hjob)
    | settled => cases htimed
    | started => cases htimed
    | timedOut => rfl
    | aborted =>
        injection htimed with herror
        exact absurd (Option.some.inj herror) (abortError_ne_timeoutError _ _)
  · rw [TimedOut, hqueued] at htimed
    cases htimed

/-- Without a timeout of a data page, no attempt at one has timed out. -/
theorem not_timedOut_data {evs : List (PlaneEvent V)} (hno : ∀ i, .turn .data (.timeout i) ∉ evs)
    (hrun : run (nextRequests production) (noRequests V) evs = some s) {i : Nat} {job : Job V}
    (hjob : (s .data).jobs[i]? = some job) : ¬ TimedOut (production.executors .data) job := by
  have hI : ∀ ev ∈ evs, ∀ {s t : PlaneStates V},
      (∀ (i : Nat) (job : Job V), (s .data).jobs[i]? = some job →
        ¬ TimedOut (production.executors .data) job) →
      nextRequests production s ev = some t →
        ∀ (i : Nat) (job : Job V), (t .data).jobs[i]? = some job →
          ¬ TimedOut (production.executors .data) job := by
    intro ev hev s t hs hnext i job hjob htimed
    rcases turn_of_nextRequests hnext .data with hsame | ⟨ev', -, hturn, hcases⟩
    · rw [hsame] at hjob
      exact hs i job hjob htimed
    · have htimeout := timedOut_of_turn hturn hs hjob htimed
      rcases hcases with rfl | ⟨authority, reason, -, rfl⟩
      · exact hno i (htimeout ▸ hev)
      · cases htimeout
  refine run_invariant hI (fun i job h => ?_) hrun i job hjob
  cases h

/-- The fetch of a metadata request has the signal of its attempt. -/
theorem fetchTold_metadata (hs : Heard (s .metadata)) {i : Nat} {job : Job V}
    (hjob : (s .metadata).jobs[i]? = some job)
    (htimed : TimedOut (production.executors .metadata) job) :
    FetchTold production s .metadata i job := by
  have he := List.getElem?_eq_getElem (hs.owned hjob)
  obtain ⟨authority, hauthority⟩ := Option.ne_none_iff_exists'.mp (hs.signals he)
  refine ⟨authority, .attempt i, ?_, ?_, job, _, hjob, htimed⟩
  · rw [State.signalOf, he, Option.bind_some, hauthority]
  · cases production.socrataAppToken <;> rfl

/-- The fetch of a data page has the signal of the authority. -/
theorem signal_of_fetchTold_data {i : Nat} {job : Job V} (h : FetchTold production s .data i job) :
    Aborted (s .data) ((s .data).signalOf job) := by
  obtain ⟨authority, ref, hsignal, hfetch, haborted⟩ := h
  have hinit : (fetchInit production.socrataAppToken .data authority i).signal =
      some (.authority authority) := by
    cases production.socrataAppToken <;> rfl
  rw [hinit] at hfetch
  cases hfetch
  rw [hsignal]
  exact haborted

/-- **When every timeout reaches the request it times out**: in the runs in which no attempt at a data
page times out. -/
theorem timeouts_reach_fetch_iff (production : ProductionRequests) {V : Type}
    (evs : List (PlaneEvent V)) (s : PlaneStates V)
    (hrun : run (nextRequests production) (noRequests V) evs = some s) :
    (∀ before t, before <+: evs → run (nextRequests production) (noRequests V) before = some t →
      TimeoutsReachFetch production t) ↔ ∀ i, .turn .data (.timeout i) ∉ evs := by
  constructor
  · intro hall i hmem
    obtain ⟨before, after, rfl⟩ := List.append_of_mem hmem
    obtain ⟨t, ht, hafter⟩ := Option.bind_eq_some_iff.mp (run_append _ _ _ ▸ hrun)
    obtain ⟨u, hu, -⟩ := Option.bind_eq_some_iff.mp hafter
    have hreach := hall _ u (List.prefix_append_right_inj _ |>.mpr (List.prefix_append _ _))
      (run_concat ht hu)
    obtain ⟨-, hnext, -⟩ := next_of_turn hu
    obtain ⟨job, hjob, hphase, hset⟩ := timeout_turn (turn_of_next hnext)
    have hheard := heard_run ht .data
    have hi := (List.getElem?_eq_some_iff.mp hjob).1
    have hjob' : (u .data).jobs[i]? =
        some (job.cancel (timeoutError (production.executors .data))) := by
      rw [hset, State.setJob, List.getElem?_set_self hi]
    -- the signal of the authority was not aborted
    have haborted := signal_of_fetchTold_data (hreach .data i _ hjob' (phase_cancel hphase _))
    rw [signalOf_of_owner (owner_cancel _ _), hset] at haborted
    exact hheard.calling hjob hphase haborted
  · intro hno before t hbegins ht plane i job hjob htimed
    cases plane with
    | data =>
        refine absurd htimed (not_timedOut_data (fun i hmem => ?_) ht hjob)
        exact hno i (hbegins.subset hmem)
    | metadata => exact fetchTold_metadata (heard_run ht .metadata) hjob htimed

end Planes

/-! ### A request that hangs -/

/-- Two executors of the default options. -/
def defaultRequests : ProductionRequests := ⟨fun _ => defaultExecutor, none⟩

/-- A request is started and times out. -/
def hungRequest (plane : Plane) : List (PlaneEvent Unit) :=
  [.turn plane (.call (some 0)), .turn plane (.start 0), .turn plane (.timeout 0)]

theorem timeouts_reach_fetch_metadata :
    ∃ s, run (nextRequests defaultRequests) (noRequests Unit) (hungRequest .metadata) = some s ∧
      ((∀ before t, before <+: hungRequest .metadata →
        run (nextRequests defaultRequests) (noRequests Unit) before = some t →
          TimeoutsReachFetch defaultRequests t) ↔
        ∀ i, .turn .data (.timeout i) ∉ hungRequest .metadata) :=
  ⟨_, rfl, timeouts_reach_fetch_iff defaultRequests (hungRequest .metadata) _ rfl⟩

/-- The fetch of a data page that times out is not told to abort. -/
theorem data_timeout_not_told :
    ¬ ∀ (evs : List (PlaneEvent Unit)) (s : PlaneStates Unit),
      run (nextRequests defaultRequests) (noRequests Unit) evs = some s →
        TimeoutsReachFetch defaultRequests s := by
  intro hall
  have htold := hall (hungRequest .data) _ rfl .data 0 _ rfl rfl
  exact signal_of_fetchTold_data htold rfl

end RequestTimeouts

end NycPropertyResolver
