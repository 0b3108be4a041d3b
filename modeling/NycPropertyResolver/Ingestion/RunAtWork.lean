import NycPropertyResolver.Ingestion.Prepared

/-!
# Ingestion — the run of an execution

An execution works on one run: the one that was active when it took the lock, or one it has created
(`WorksOn`).  It writes the row of no other run (`others_effect`), so from any point of it on every
other run stays as it was (`worksSince_effect`).
-/

namespace NycPropertyResolver

open Library

variable {Row : Type} {config : ExecutorConfig} {service : EcbRowService Row}

/-- The run a point of the executor works on. -/
def ExecutorState.run? : ExecutorState Row → Option RunId
  | .initializing r | .loadingSnapshot r | .snapshotBinsLoaded r _ | .snapshotLoaded r _ => some r
  | .acquiringStartWatermark r _ | .startWatermarkFetched r _ => some r
  | .publishingTerminalFailure request => some request.runId
  | pc => pc.runningRun?

/-- The execution goes on. -/
def IsExecuting (s : SystemState Row) : Prop := ∀ outcome, s.executor ≠ .stopped outcome

/-- **The run an execution works on**, between two states of it: it was active in the first, or did not
exist, and every other run is as it was. -/
structure WorksOn (db₀ db : Db Row) (r : RunId) : Prop where
  opened : db₀.runs.find r = none ∨ ∃ run, db₀.runs.find r = some run ∧ run.isActive = true
  others : ∀ r', r' ≠ r → db.runs.find r' = db₀.runs.find r'

/-- What an execution that goes on has done to the runs since a state of it. -/
structure WorksSince (db₀ : Db Row) (s : SystemState Row) : Prop where
  before : s.executor.run? = none → s.db.runs = db₀.runs
  run : ∀ r, s.executor.run? = some r → WorksOn db₀ s.db r

theorem run?_of_runningRun? {pc : ExecutorState Row} {r : RunId} (h : pc.runningRun? = some r) :
    pc.run? = some r := by
  cases pc <;> cases h <;> rfl

theorem run?_of_attempt? {pc : ExecutorState Row} {attempt : BatchAttempt}
    (h : pc.attempt? = some attempt) : pc.run? = some attempt.runId :=
  run?_of_runningRun? (runningRun?_of_attempt? h)

/-! ### Steps -/

section Steps

variable {a : Answer Row} {db₀ db db' : Db Row} {pc pc' : ExecutorState Row} {r : RunId}

/-- **A step stays with its run.** -/
theorem run?_effect (h : Effect config service a db pc db' pc')
    (hin : ∀ outcome, pc' ≠ .stopped outcome) (hr : pc.run? = some r) : pc'.run? = some r := by
  cases h with
  | stop => exact absurd rfl (hin _)
  | attemptThrew h => rwa [run?_of_attempt? h] at hr
  | attemptInvalid => exact absurd rfl (hin _)
  | endRejected _ hp =>
      rcases hp with rfl | ⟨outcome, rfl⟩
      · exact hr
      · exact absurd rfl (hin outcome)
  | terminalPublished => exact absurd rfl (hin _)
  | acceptedPublished => exact absurd rfl (hin _)
  -- before it has come to a run
  | noActiveRun => cases hr
  | foundQueued => cases hr
  | foundRunning => cases hr
  | runCreated => cases hr
  | _ => exact hr

/-- **And writes the row of no other.** -/
theorem others_effect (h : Effect config service a db pc db' pc') (hr : pc.run? = some r) :
    ∀ r', r' ≠ r → db'.runs.find r' = db.runs.find r' := by
  intro r' hne
  cases h with
  | runCreated => cases hr
  | snapshotStored h =>
      obtain ⟨_, -, -, -, rfl⟩ := Db.initializeRunSnapshotAndBatches_eq_ok h
      cases hr
      exact Table.find_modify_ne hne
  | runStarted h =>
      obtain ⟨_, -, -, -, -, rfl⟩ := Db.setStartWatermarkAndRunning_eq_ok h
      cases hr
      exact Table.find_modify_ne hne
  -- a batch changes, and no run
  | budgetExhausted _ _ _ h => rw [(Db.markFailed_eq_ok h).2]; rfl
  | pageFailed _ h => rw [(Db.markFailed_eq_ok h).2]; rfl
  | rawPersisted =>
      obtain ⟨raw, hraw⟩ := Db.persistRaw_eq db
      rw [hraw]
  | pageLimitFailed h => rw [(Db.markFailed_eq_ok h).2]; rfl
  | attemptClosed h => rw [(Db.markFailed_eq_ok h).2]; rfl
  | endAccepted => cases hr; exact Table.find_modify_ne hne
  | endRejected => cases hr; exact Table.find_modify_ne hne
  | terminalPublished h =>
      obtain ⟨_, _, -, -, -, rfl⟩ := Db.terminalTransaction_frame (Db.publishTerminalFailure_ok h).2
      cases hr
      exact Table.find_modify_ne hne
  | acceptedPublished h =>
      cases hr
      rcases Db.acceptedTransaction_frame (Db.publish_ok h) with rfl | ⟨_, _, _, -, -, rfl⟩
      · rfl
      · exact Table.find_modify_ne hne
  | _ => rfl

theorem WorksOn.effect (hw : WorksOn db₀ db r) (h : Effect config service a db pc db' pc')
    (hr : pc.run? = some r) : WorksOn db₀ db' r where
  opened := hw.opened
  others r' hne := (others_effect h hr r' hne).trans (hw.others r' hne)

/-- An execution comes to its run by finding it active, or by creating it. -/
theorem worksOn_of_found (h : Effect config service a db pc db' pc') (hpc : pc.run? = none)
    (hr : pc'.run? = some r) : WorksOn db db' r := by
  cases h with
  | foundQueued h _ =>
      cases hr
      exact ⟨.inr ⟨_, Db.findActive_eq_some h⟩, fun _ _ => rfl⟩
  | foundRunning h _ =>
      cases hr
      exact ⟨.inr ⟨_, Db.findActive_eq_some h⟩, fun _ _ => rfl⟩
  | runCreated h =>
      obtain ⟨-, hnone, rfl⟩ := Db.createQueued_eq_ok h
      cases hr
      exact ⟨.inl hnone, fun _ hne => Table.find_set_ne hne⟩
  | attemptThrew h =>
      rw [run?_of_attempt? h] at hpc
      cases hpc
  | endRejected => cases hpc
  | stop => cases hr
  | noActiveRun => cases hr
  | _ => cases hpc

/-- Up to then it writes no run. -/
theorem runs_of_before (h : Effect config service a db pc db' pc') (hpc : pc.run? = none)
    (hr : pc'.run? = none) : db'.runs = db.runs := by
  cases h with
  | stop => rfl
  | noActiveRun => rfl
  | runCreated => cases hr
  | attemptThrew => rfl
  | endRejected => cases hpc
  | _ => first | rfl | cases hpc

/-- **A step of an execution keeps what it has done to the runs.** -/
theorem worksSince_effect (hw : WorksSince db₀ ⟨db, pc⟩) (h : Effect config service a db pc db' pc')
    (hin : IsExecuting ⟨db', pc'⟩) : WorksSince db₀ ⟨db', pc'⟩ := by
  cases hpc : pc.run? with
  | some r =>
      -- the run it works on is the one it has worked on, and the only one written
      have hr := run?_effect h hin hpc
      refine ⟨fun hnone => ?_, fun r' hr' => ?_⟩
      · rw [hr] at hnone
        cases hnone
      · cases hr.symm.trans hr'
        exact (hw.run r hpc).effect h hpc
  | none =>
      -- it comes to its run in this step, if at all, and has written none before
      have hruns : db.runs = db₀.runs := hw.before hpc
      refine ⟨fun hnone => (runs_of_before h hpc hnone).trans hruns, fun r hr => ?_⟩
      obtain ⟨hopened, hothers⟩ := worksOn_of_found h hpc hr
      rw [hruns] at hopened
      exact ⟨hopened, fun r' hne => (hothers r' hne).trans (by rw [hruns])⟩

end Steps

/-! ### States -/

section States

variable {s s' : SystemState Row} {r : RunId}

/-- Transactions on properties leave the execution where it is, and only properties, their BINs and
their coverage differ. -/
theorem identityFrame_onProperty
    (h : Steps (next config service) (fun _ ev => ev.OnProperty) s s') :
    s'.executor = s.executor ∧ IdentityFrame s.db s'.db := by
  refine h.invariant (I := fun t => t.executor = s.executor ∧ IdentityFrame s.db t.db)
    (fun {t u ev} hI hev hs => ?_) ⟨rfl, _, _, _, rfl⟩
  obtain ⟨hexec, _, _, _, hdb⟩ := hI
  cases next_turn hs with
  | created hc =>
      obtain ⟨_, _, _, hdb'⟩ := createProperty_frame hc
      exact ⟨hexec, _, _, _, by rw [hdb', hdb]⟩
  | applied ha =>
      obtain ⟨_, _, _, hdb'⟩ := applyEffectiveBinSet_frame ha
      exact ⟨hexec, _, _, _, by rw [hdb', hdb]⟩
  | _ => cases hev

theorem WorksOn.next {a : Answer Row} {db₀ : Db Row} (hw : WorksOn db₀ s.db r)
    (h : next config service s (.executor a) = some s') (hr : s.executor.run? = some r) :
    WorksOn db₀ s'.db r := by
  obtain ⟨⟨db', pc'⟩, hstep, rfl⟩ := Option.map_eq_some_iff.mp h
  exact hw.effect (executorStep_effect hstep) hr

theorem WorksSince.onProperty {db₀ : Db Row} (hw : WorksSince db₀ s)
    (h : Steps (next config service) (fun _ ev => ev.OnProperty) s s') : WorksSince db₀ s' := by
  obtain ⟨hexec, hframe⟩ := identityFrame_onProperty h
  refine ⟨fun hnone => ?_, fun r hr => ?_⟩
  · rw [hexec] at hnone
    rw [hframe.runs, hw.before hnone]
  · rw [hexec] at hr
    obtain ⟨hopened, hothers⟩ := hw.run r hr
    exact ⟨hopened, by rw [hframe.runs]; exact hothers⟩

/-- **The run of an execution is active.** -/
theorem isActive_of_run? (hI : ProgressInvariant config s) (h : s.executor.run? = some r) :
    ∃ run, s.db.runs.find r = some run ∧ run.isActive = true := by
  have hp := hI.prepared
  have hknows := hI.attempt.batch.system.knows.running
  have queued : ∀ {initialized}, IsQueued s.db r initialized →
      ∃ run, s.db.runs.find r = some run ∧ run.isActive = true := by
    rintro _ ⟨run, hr, hs, -⟩
    exact ⟨run, hr, Db.isActive_iff.mpr (.inl hs)⟩
  have running : s.executor.runningRun? = some r →
      ∃ run, s.db.runs.find r = some run ∧ run.isActive = true := by
    intro hr
    obtain ⟨run, hr, hs, -⟩ := (hknows r hr).found
    exact ⟨run, hr, Db.isActive_iff.mpr (.inr hs)⟩
  obtain ⟨db, pc⟩ := s
  -- QUEUED up to its start watermark, then RUNNING until a publication
  cases pc with
  | initializing r' => cases h; exact queued hp.choose_spec
  | loadingSnapshot r' => cases h; exact queued hp
  | snapshotBinsLoaded r' relationships => cases h; exact queued hp.1
  | snapshotLoaded r' rows => cases h; exact queued hp
  | acquiringStartWatermark r' run => cases h; exact queued hp
  | startWatermarkFetched r' rowsUpdatedAt => cases h; exact queued hp
  | publishingTerminalFailure request =>
      cases h
      obtain ⟨run, hr, hactive, -⟩ := hp.run
      exact ⟨run, hr, hactive⟩
  | _ => exact running h

/-- What an execution has done since the state it is in. -/
theorem WorksSince.refl (hI : ProgressInvariant config s) : WorksSince s.db s where
  before _ := rfl
  run _ hr := ⟨.inr (isActive_of_run? hI hr), fun _ _ => rfl⟩

end States

end NycPropertyResolver
