import NycPropertyResolver.Ingestion.BatchOrder

/-!
# Ingestion — terminal batch decisions and crashes

The decision to fail a run because of a batch is taken in memory, between the update of the batch row
and the terminal publication.  A resume takes it again from the row, where the attempt budget of the
batch is used up: the run then ends FAILED with the same error in every continuation
(`Decided`).  The page limit is the outcome that may leave budget, and a crash before the publication
then loses the decision.
-/

namespace NycPropertyResolver

open Library

variable {Row : Type} {config : ExecutorConfig} {service : EcbRowService Row}

/-! ### Statements -/

/-- A step that writes the row of a batch with an outcome `processPersistedBatches` treats as
terminal: one it returns, or a failure that has used up the attempt budget. -/
structure RecordsTerminalOutcome (config : ExecutorConfig) (service : EcbRowService Row)
    (s : SystemState Row) (a : Answer Row) (s₁ : SystemState Row) (r : RunId) (n : Nat)
    (e : Option String) : Prop where
  batch : s.executor.batch? = some (r, n)
  step : next config service s (.executor a) = some s₁
  outcome : s₁.executor = .terminalOutcome r e ∨ s₁.executor = .selectingBatch r ∧
    ∃ b, s₁.db.findBatch r n = some b ∧ isExhausted config b = true ∧ b.lastError = e

/-- The row of a run published FAILED for the error of a batch. -/
def PublishedFailed (e : Option String) (run : IngestionRun) : Prop :=
  run.status = .failed ∧ run.failureStage = some "batch_processing" ∧
    run.lastError = some (e.getD "BATCH_TERMINAL_FAILURE")

/-- An execution meets no failure: its lock is held, and no statement fails. -/
structure Answer.Quiet (a : Answer Row) : Prop where
  authorized : ∀ i, a.authorized i = true
  statementError : a.statementError = none
  publicationAuthorized : ∀ i, a.publication.authorized i = true
  publicationError : ∀ i, a.publication.statementError i = none

/-- The decision survives every crash: whatever follows, the run stays RUNNING until it is published
FAILED with the error, and the batch stays as it was written; the execution publishes the run when it
goes on, and so does every resume of the run. -/
structure DecisionSurvives (config : ExecutorConfig) (service : EcbRowService Row)
    (s : SystemState Row) (r : RunId) (n : Nat) (e : Option String) : Prop where
  run : ∀ s', Steps (next config service) (fun _ _ => True) s s' → ∃ run,
    s'.db.runs.find r = some run ∧ (run.status = .running ∨ PublishedFailed e run)
  batch : ∀ s', Steps (next config service) (fun _ _ => True) s s' → ∃ b,
    s'.db.findBatch r n = some b ∧ s.db.findBatch r n = some b ∧ b.status = .failed ∧
      b.lastError = e
  uncrashed : ∀ a : Answer Row, a.Quiet → ∃ k s', Library.run (next config service) s
    (List.replicate k (.executor a)) = some s' ∧
      ∃ run, s'.db.runs.find r = some run ∧ PublishedFailed e run
  resumed : ∀ s' outcome triggerType (a : Answer Row),
    Steps (next config service) (fun _ _ => True) s s' → s'.executor = .stopped outcome →
    (s'.db.runs.find r).map (·.status) = some .running → a.Quiet →
    ∃ k s'', Library.run (next config service) s'
      (.acquireLock triggerType :: List.replicate k (.executor a)) = some s'' ∧
        ∃ run, s''.db.runs.find r = some run ∧ PublishedFailed e run

/-! ### A publication without failures -/

section Quiet

variable {a : Answer Row} {db : Db Row} {request : IngestionTerminalPublicationRequest}
  {run : IngestionRun} {r : RunId}

/-- A terminal publication that meets no failure succeeds. -/
theorem publishTerminalFailure_quiet (hq : a.Quiet) (hv : request.validate = .ok ())
    (hr : db.runs.find request.runId = some run) (hs : run.status = .running)
    (hi : run.initializationComplete = true) (hw : run.sourceWatermarkAtStart ≠ none)
    (hc : db.ConsistentVersions request.runId) :
    ∃ db', db.publishTerminalFailure a.publication request = (db', .ok ()) ∧
      db'.runs.find request.runId = some (Db.terminalRun request run) := by
  have hd : run.dataset = .dobEcbViolations := by cases run.dataset; rfl
  have ht : db.terminalTransaction a.publication request =
      .ok ((db.terminateRun request).publishFailedCoverage request, ()) := by
    simp [Db.terminalTransaction, Db.lockAndValidateTerminalRun, runStatement, require, ensure,
      assertAuthorized, hq.publicationAuthorized, hq.publicationError, hr, hd, hs, hi, hw, hc, bind,
      Except.bind]
  refine ⟨(db.terminateRun request).publishFailedCoverage request, ?_, ?_⟩
  · rw [Db.publishTerminalFailure, hv]
    simp only [assertAuthorized, hq.publicationAuthorized, if_true, ht, transaction]
  · simp [Db.publishFailedCoverage, Db.terminateRun, hr]

/-- The failure of a batch is a valid request. -/
theorem validate_batchFailureRequest {e : Option String} {now : Time}
    (he : isBlank (e.getD "BATCH_TERMINAL_FAILURE") = false) :
    (batchFailureRequest r e now).validate = .ok () := by
  have hstage : isBlank "batch_processing" = false := by decide
  simp [IngestionTerminalPublicationRequest.validate, batchFailureRequest, ensure, he, hstage, bind,
    Except.bind]

/-- The rejection of a changed source is a valid request. -/
theorem validate_sourceChangedRequest {now : Time} :
    (sourceChangedRequest r now).validate = .ok () := by
  have hstage : isBlank "watermark_guard" = false := by decide
  have herror : isBlank "SOURCE_CHANGED" = false := by decide
  simp [IngestionTerminalPublicationRequest.validate, sourceChangedRequest, ensure, hstage, herror,
    bind, Except.bind]

/-- The RUNNING run is the active one. -/
theorem findActive_of_running (hI : LifecycleInvariant db) (hr : db.runs.find r = some run)
    (hs : run.status = .running) : db.findActive = some (r, run) := by
  have ha : run.isActive = true := Db.isActive_iff.mpr (Or.inr hs)
  cases h : db.findActive with
  | none =>
      rw [Db.findActive_eq_none h hr] at ha
      cases ha
  | some p =>
      obtain ⟨r', run'⟩ := p
      obtain ⟨hr', ha'⟩ := Db.findActive_eq_some h
      obtain rfl := hI.oneActive r' r run' run hr' hr ha' ha
      rw [hr] at hr'
      cases hr'
      rfl

end Quiet

/-! ### Runs that have ended -/

/-- A write leaves a run that was initialized and has ended, and its batches. -/
theorem write_ended {a : Answer Row} {db db' : Db Row} {pc : ExecutorState Row} {r : RunId}
    {run : IngestionRun} (hK : Knows db pc) (h : Write config a db pc db')
    (hr : db.runs.find r = some run) (ha : run.isActive = false)
    (hi : run.initializationComplete = true) :
    db'.runs.find r = some run ∧ db'.batches r = db.batches r := by
  have hnot : run.status ≠ .queued ∧ run.status ≠ .running := by
    rwa [Bool.eq_false_iff, Ne, Db.isActive_iff, not_or] at ha
  -- the run an execution works on is another one, since it is RUNNING
  have running : pc.runningRun? ≠ some r := fun hpc => by
    obtain ⟨run', hr', hs', -⟩ := hK.running r hpc
    cases hr'.symm.trans hr
    exact hnot.2 hs'
  constructor
  · obtain ⟨run', hr', hchange⟩ := row_write h hr
    cases hchange with
    | same => exact hr'
    | initialized _ hi' =>
        rw [hi] at hi'
        cases hi'
    | started _ hs => exact absurd hs hnot.1
    | ended hpc => exact absurd (by rw [hpc]; rfl) running
    | failed _ hmove => exact absurd hmove.active (not_or.mpr hnot)
    | accepted _ _ hp => exact absurd hp.running hnot.2
  · exact (batches_change h r).unchanged hr hi fun n hpc => running (runningRun?_of_batch? hpc)

/-! ### Decided runs -/

/-- The points an execution can be at while the run is decided and not published. -/
def StaysDecided (r : RunId) (e : Option String) : ExecutorState Row → Prop
  | .stopped _ | .started _ => True
  | .recoveringFailure r' _ | .selectingBatch r' => r' = r
  | .terminalOutcome r' e' => r' = r ∧ e' = e
  | .publishingTerminalFailure request => ∃ now, request = batchFailureRequest r e now
  | _ => False

/-- The first open batch has failed with the error and used up its budget. -/
def FirstExhausted (config : ExecutorConfig) (bs : List IngestionBatch) (e : Option String) : Prop :=
  ∃ b, firstOpen bs = some b ∧ isExhausted config b = true ∧ b.lastError = e

/-- **A decided run**: its batches are the given ones, and it is published FAILED or about to be. -/
structure Decided (r : RunId) (e : Option String) (bs : List IngestionBatch)
    (s : SystemState Row) : Prop where
  invariant : BatchInvariant s
  batches : s.db.batches r = bs
  run : ∃ run, s.db.runs.find r = some run ∧ run.initializationComplete = true ∧
    (run.status = .running ∧ StaysDecided r e s.executor ∨ PublishedFailed e run)

section Decided

variable {s s' : SystemState Row} {r : RunId} {e : Option String} {bs : List IngestionBatch}

theorem isExhausted_iff {b : IngestionBatch} : isExhausted config b = true ↔
    b.status = .failed ∧ config.maxBatchAttemptsPerRun ≤ b.attemptCount := by
  simp [isExhausted]

/-- The exhausted batch a resume finds is the first open one. -/
theorem find?_isExhausted {b : IngestionBatch} (h : firstOpen bs = some b)
    (hb : isExhausted config b = true) : bs.find? (isExhausted config) = some b := by
  obtain ⟨-, done, rest, rfl, hdone⟩ := firstOpen_eq_some.mp h
  rw [List.find?_eq_some_iff_append]
  refine ⟨hb, done, rest, rfl, fun c hc => ?_⟩
  simp [isExhausted, hdone c hc]

theorem FirstExhausted.find_eq (h : FirstExhausted config bs e) :
    ∃ b, firstOpen bs = some b ∧ bs.find? (isExhausted config) = some b ∧
      isExhausted config b = true ∧ b.lastError = e := by
  obtain ⟨b, ho, hb, he⟩ := h
  exact ⟨b, ho, find?_isExhausted ho hb, hb, he⟩

/-- **A step of the executor from a decided RUNNING run stays decided**, or publishes. -/
theorem staysDecided_effect {a : Answer Row} {db db' : Db Row} {pc pc' : ExecutorState Row}
    {run : IngestionRun} (hI : LifecycleInvariant db) (hx : FirstExhausted config (db.batches r) e)
    (hr : db.runs.find r = some run) (hs : run.status = .running) (hpc : StaysDecided r e pc)
    (h : Effect config service a db pc db' pc') :
    (db' = db ∧ StaysDecided r e pc') ∨ ∃ now,
      db.publishTerminalFailure a.publication (batchFailureRequest r e now) = (db', .ok ()) := by
  obtain ⟨b, ho, hf, hb, he⟩ := hx.find_eq
  have hactive : db.findActive = some (r, run) := findActive_of_running hI hr hs
  cases h with
  | stop => exact Or.inl ⟨rfl, trivial⟩
  | noActiveRun h =>
      rw [hactive] at h
      cases h
  | foundQueued h hs' =>
      rw [hactive] at h
      cases h
      rw [hs] at hs'
      cases hs'
  | foundRunning h _ =>
      rw [hactive] at h
      cases h
      exact Or.inl ⟨rfl, rfl⟩
  | failureRecovered h =>
      obtain rfl : _ = r := hpc
      rw [hf] at h
      cases h
      exact Or.inl ⟨rfl, a.now, by rw [he]⟩
  | recoveredReady hn _ =>
      obtain rfl : _ = r := hpc
      rw [hf] at hn
      cases hn
  | recoveredOpen hn _ =>
      obtain rfl : _ = r := hpc
      rw [hf] at hn
      cases hn
  | batchesDone h =>
      obtain rfl : _ = r := hpc
      rw [show firstOpen _ = _ from h] at ho
      cases ho
  | batchExhausted h _ =>
      obtain rfl : _ = r := hpc
      rw [show firstOpen _ = _ from h] at ho
      cases ho
      exact Or.inl ⟨rfl, a.now, by rw [he]⟩
  | batchSelected h hx =>
      obtain rfl : _ = r := hpc
      rw [show firstOpen _ = _ from h] at ho
      cases ho
      rw [hb] at hx
      cases hx
  | attemptThrew h => cases pc <;> cases h <;> exact hpc.elim
  | outcomeHandedOver =>
      obtain ⟨rfl, rfl⟩ := hpc
      exact Or.inl ⟨rfl, a.now, rfl⟩
  | terminalPublished h =>
      obtain ⟨now, rfl⟩ := hpc
      exact Or.inr ⟨now, h⟩
  | _ => exact hpc.elim

/-- **One event keeps a run decided.** -/
theorem decided_next {ev : Event Row} (hx : FirstExhausted config bs e) (hD : Decided r e bs s)
    (h : next config service s ev = some s') : Decided r e bs s' := by
  have hI' := batchInvariant_next hD.invariant h
  have ht := next_turn h
  clear h
  obtain ⟨run, hr, hi, hrun⟩ := hD.run
  cases ht with
  | acquired => exact ⟨hI', hD.batches, run, hr, hi, hrun.imp (fun h => ⟨h.1, trivial⟩) id⟩
  | crashed => exact ⟨hI', hD.batches, run, hr, hi, hrun.imp (fun h => ⟨h.1, trivial⟩) id⟩
  | created h =>
      obtain ⟨_, _, _, rfl⟩ := createProperty_frame h
      exact ⟨hI', hD.batches, run, hr, hi, hrun⟩
  | applied h =>
      obtain ⟨_, _, _, rfl⟩ := applyEffectiveBinSet_frame h
      exact ⟨hI', hD.batches, run, hr, hi, hrun⟩
  | @stepped a db' pc' h =>
      rcases hrun with ⟨hs, hpc⟩ | hp
      · rw [← hD.batches] at hx
        rcases staysDecided_effect hD.invariant.system.lifecycle hx hr hs hpc h with
          ⟨rfl, hpc'⟩ | ⟨now, hpub⟩
        · exact ⟨hI', hD.batches, run, hr, hi, Or.inl ⟨hs, hpc'⟩⟩
        · obtain ⟨-, ht⟩ := Db.publishTerminalFailure_ok hpub
          obtain ⟨_, _, -, -, -, rfl⟩ := Db.terminalTransaction_frame ht
          refine ⟨hI', hD.batches, Db.terminalRun (batchFailureRequest r e now) run, ?_, hi,
            Or.inr ⟨rfl, rfl, rfl⟩⟩
          simp only [batchFailureRequest, Table.find_modify_self, hr, Option.map_some]
      · have ha : run.isActive = false := by simp [IngestionRun.isActive, hp.1]
        obtain ⟨hr', hb'⟩ := write_ended hD.invariant.system.knows h.write hr ha hi
        exact ⟨hI', hb'.trans hD.batches, run, hr', hi, Or.inr hp⟩

/-! ### Executions without failures -/

/-- An execution whose steps all meet the answer publishes the run FAILED. -/
def Publishes (config : ExecutorConfig) (service : EcbRowService Row) (a : Answer Row) (r : RunId)
    (e : Option String) (s : SystemState Row) : Prop :=
  ∃ k s', Library.run (next config service) s (List.replicate k (.executor a)) = some s' ∧
    ∃ run, s'.db.runs.find r = some run ∧ PublishedFailed e run

variable {a : Answer Row}

theorem Publishes.step (hs : next config service s (.executor a) = some s')
    (h : Publishes config service a r e s') : Publishes config service a r e s := by
  obtain ⟨k, s'', hrun, hp⟩ := h
  refine ⟨k + 1, s'', ?_, hp⟩
  rw [List.replicate_succ, Library.run, hs, Option.bind_some, hrun]

/-- **From any point at which a decided run may be, a quiet execution publishes it.** -/
theorem Decided.publishes (hD : Decided r e bs s) (hx : FirstExhausted config bs e)
    (he : isBlank (e.getD "BATCH_TERMINAL_FAILURE") = false) (hq : a.Quiet)
    (hs : (s.db.runs.find r).map (·.status) = some .running)
    (hstop : ∀ outcome, s.executor ≠ .stopped outcome) : Publishes config service a r e s := by
  obtain ⟨run, hr, hi, hrun⟩ := hD.run
  rw [hr, Option.map_some, Option.some.injEq] at hs
  obtain ⟨-, hpc⟩ | hp := hrun
  swap
  · rw [hp.1] at hs
    cases hs
  obtain ⟨db, pc⟩ := s
  have hI := hD.invariant.system.lifecycle
  rw [← hD.batches] at hx
  obtain ⟨b, ho, hf, hb, hbe⟩ := hx.find_eq
  -- the publication itself
  have hpublishing : ∀ now, Publishes config service a r e
      ⟨db, .publishingTerminalFailure (batchFailureRequest r e now)⟩ := fun now => by
    obtain ⟨db', hpub, hrun'⟩ := publishTerminalFailure_quiet hq
      (validate_batchFailureRequest he : (batchFailureRequest r e now).validate = .ok ()) hr hs hi
      ((hI.runs r run hr).started (Or.inl hs)).2 (hD.invariant.versions r).consistent
    refine ⟨1, ⟨db', .stopped .terminalFailurePublished⟩, ?_, _, hrun', rfl, rfl, rfl⟩
    have hstep : publishTerminal a db (batchFailureRequest r e now) =
        (db', .stopped .terminalFailurePublished) := by
      rw [publishTerminal, hpub]
      exact if_neg (by simp [batchFailureRequest])
    simp [Library.run, next, executorStep, hstep]
  have hrecovering : ∀ run', Publishes config service a r e ⟨db, .recoveringFailure r run'⟩ :=
    fun run' => (hpublishing a.now).step (by
      simp [next, executorStep, recoverPersistedFailure, hq.authorized, hf, hbe])
  cases pc with
  | stopped outcome => exact absurd rfl (hstop outcome)
  | started triggerType =>
      refine (hrecovering run).step ?_
      simp [next, executorStep, executeWithAuthority, hq.authorized,
        findActive_of_running hI hr hs, hs]
  | recoveringFailure r' run' =>
      obtain rfl : r' = r := hpc
      exact hrecovering run'
  | selectingBatch r' =>
      obtain rfl : r' = r := hpc
      refine (hpublishing a.now).step ?_
      have hstep : selectBatch config a db r' =
          (db, .publishingTerminalFailure (batchFailureRequest r' e a.now)) := by
        rw [selectBatch, if_pos (hq.authorized 0)]
        simp only [show List.find? _ _ = some b from ho, hb, hbe, hq.authorized, if_true]
      simp [next, executorStep, hstep]
  | terminalOutcome r' e' =>
      obtain ⟨rfl, rfl⟩ := hpc
      refine (hpublishing a.now).step ?_
      simp [next, executorStep, publishTerminalOutcome, hq.authorized]
  | publishingTerminalFailure request =>
      obtain ⟨now, rfl⟩ := hpc
      exact hpublishing now
  | _ => exact hpc.elim

end Decided

/-! ### The outcome of an attempt -/

section Outcome

variable {s s₁ : SystemState Row} {a : Answer Row} {r : RunId} {n : Nat} {e : Option String}

/-- `markFailed`, on the row of a batch. -/
def failedBatch (message : String) (b : IngestionBatch) : IngestionBatch :=
  { b with status := .failed, lastError := some message }

/-- An update of a batch is read back from it. -/
theorem find_modifyBatch {db : Db Row} {f : IngestionBatch → IngestionBatch} (hf : KeepsDefinition f) :
    (db.modifyBatch r n f).findBatch r n = (db.findBatch r n).map f := by
  rw [Db.findBatch_modifyBatch fun b => (hf b).1]
  cases h : db.findBatch r n with
  | none => rfl
  | some b =>
      have hn : b.batchNumber = n := by simpa using List.find?_some h
      simp [hn]

/-- **A terminal outcome is written as the failure of the first open batch**, and an execution that
goes on selecting batches has used up the budget. -/
theorem RecordsTerminalOutcome.failed (hw : RecordsTerminalOutcome config service s a s₁ r n e)
    (hI : BatchInvariant s) : ∃ b message, firstOpen (s.db.batches r) = some b ∧
      b.batchNumber = n ∧ isBlank message = false ∧ e = some message ∧
      s₁.db = s.db.modifyBatch r n (failedBatch message) ∧
      (s₁.executor = .terminalOutcome r e ∨
        s₁.executor = .selectingBatch r ∧ config.maxBatchAttemptsPerRun ≤ b.attemptCount) := by
  obtain ⟨b, hb, hn⟩ := hI.selects r n hw.batch
  have hfind : s.db.findBatch r n = some b := hn ▸ findBatch_of_firstOpen (hI.order r) hb
  have hfailed : ∀ message, (s.db.modifyBatch r n (failedBatch message)).findBatch r n =
      some (failedBatch message b) := fun message => by
    rw [find_modifyBatch (by exact fun _ => ⟨rfl, rfl⟩), hfind, Option.map_some]
  obtain ⟨db, pc⟩ := s
  obtain ⟨⟨db', pc'⟩, hstep, rfl⟩ := Option.map_eq_some_iff.mp hw.step
  have hpc := hw.batch
  have hout := hw.outcome
  simp only at hpc hout hfind
  have heffect := executorStep_effect hstep
  cases heffect with
  | budgetExhausted _ _ _ hf =>
      obtain ⟨hblank, rfl⟩ := Db.markFailed_eq_ok hf
      cases hpc
      obtain ho | ⟨ho, -⟩ := hout
      · cases ho
        exact ⟨b, _, hb, hn, hblank, rfl, rfl, Or.inl rfl⟩
      · cases ho
  | pageLimitFailed hf =>
      obtain ⟨hblank, rfl⟩ := Db.markFailed_eq_ok hf
      cases hpc
      obtain ho | ⟨ho, -⟩ := hout
      · cases ho
        exact ⟨b, _, hb, hn, hblank, rfl, rfl, Or.inl rfl⟩
      · cases ho
  | pageFailed _ hf =>
      obtain ⟨hblank, rfl⟩ := Db.markFailed_eq_ok hf
      cases hpc
      obtain ho | ⟨-, b', hb', hx, rfl⟩ := hout
      · cases ho
      · obtain rfl := Option.some.inj ((hfailed _).symm.trans hb')
        exact ⟨b, _, hb, hn, hblank, rfl, rfl, Or.inr ⟨rfl, (isExhausted_iff.mp hx).2⟩⟩
  | attemptClosed hf =>
      obtain ⟨hblank, rfl⟩ := Db.markFailed_eq_ok hf
      cases hpc
      obtain ho | ⟨-, b', hb', hx, rfl⟩ := hout
      · cases ho
      · obtain rfl := Option.some.inj ((hfailed _).symm.trans hb')
        exact ⟨b, _, hb, hn, hblank, rfl, rfl, Or.inr ⟨rfl, (isExhausted_iff.mp hx).2⟩⟩
  | batchAlreadyCompleted h hs =>
      cases hpc
      obtain ho | ⟨-, b', hb', hx, -⟩ := hout
      · cases ho
      · rw [h] at hb'
        cases hb'
        rw [(isExhausted_iff.mp hx).1] at hs
        cases hs
  | batchCompleted =>
      cases hpc
      obtain ho | ⟨-, b', hb', hx, -⟩ := hout
      · cases ho
      · rw [Db.markCompleted, find_modifyBatch (by exact fun _ => ⟨rfl, rfl⟩), hfind] at hb'
        cases hb'
        cases (isExhausted_iff.mp hx).1
  | endRejected => cases hpc
  | _ => first | cases hpc; done | obtain ho | ⟨ho, -⟩ := hout <;> cases ho

theorem quietAnswer_quiet {runId : RunId} {rowsUpdatedAt : Nat} {page : List Row} :
    (quietAnswer runId rowsUpdatedAt page).Quiet :=
  ⟨fun _ => rfl, rfl, fun _ => rfl, fun _ => rfl⟩

/-- **Where budget is left, a crash loses the decision**: a resume takes the run up again, and
rejects it when the source has changed meanwhile. -/
theorem lost_of_budget_left {run : IngestionRun} {b : IngestionBatch} (hI : BatchInvariant s)
    (hstop : ∀ outcome, s.executor ≠ .stopped outcome) (hr : s.db.runs.find r = some run)
    (hs : run.status = .running) (hb : firstOpen (s.db.batches r) = some b)
    (hbs : b.status = .failed) (hm : b.attemptCount < config.maxBatchAttemptsPerRun) :
    ∃ s', Steps (next config service) (fun _ _ => True) s s' ∧
      (s'.db.runs.find r).map (·.status) = some .sourceChanged := by
  obtain ⟨db, pc⟩ := s
  have hlife := hI.system.lifecycle
  obtain ⟨hi, hw⟩ := (hlife.runs r run hr).started (Or.inl hs)
  obtain ⟨w, hw⟩ := Option.ne_none_iff_exists'.mp hw
  -- a watermark that differs from the one at the start
  obtain ⟨k, hk⟩ : ∃ k, rowsUpdatedAtToDate k ≠ w := by
    by_cases h0 : rowsUpdatedAtToDate 0 = w
    · exact ⟨1, by rw [← h0]; decide⟩
    · exact ⟨0, h0⟩
  have hq : (quietAnswer r k ([] : List Row)).Quiet := quietAnswer_quiet
  obtain ⟨done, rest, hbatches, hdone, hrest, -⟩ := (hI.order r).split hb
  have hnone : (db.batches r).find? (isExhausted config) = none := by
    rw [List.find?_eq_none]
    intro c hc hx
    obtain ⟨hcs, hcm⟩ := isExhausted_iff.mp hx
    rw [show db.batches r = _ from hbatches, List.mem_append, List.mem_cons] at hc
    rcases hc with hc | rfl | hc
    · rw [hdone c hc] at hcs
      cases hcs
    · exact absurd hcm (Nat.not_le.mpr hm)
    · rw [hrest c hc] at hcs
      cases hcs
  have hready : isPersistedRunReadyForPublication db r run = false := by
    rw [Bool.eq_false_iff]
    intro h
    simp only [isPersistedRunReadyForPublication, Bool.and_eq_true, List.all_eq_true] at h
    have hc := (h.2 b (List.mem_of_find?_eq_some hb)).1.1
    rw [hbs] at hc
    cases hc
  obtain ⟨db', hpub, hrun'⟩ := publishTerminalFailure_quiet hq
    (validate_sourceChangedRequest : (sourceChangedRequest r 0).validate = .ok ()) hr hs hi
    (by rw [hw]; simp) (hI.versions r).consistent
  have h₁ : next config service ⟨db, pc⟩ .crash = some ⟨db, .stopped .crashed⟩ := by
    cases pc <;> first | rfl | exact absurd rfl (hstop _)
  have h₂ : next config service ⟨db, .stopped .crashed⟩ (.acquireLock .manual) =
      some ⟨db, .started .manual⟩ := rfl
  have h₃ : next config service ⟨db, .started .manual⟩ (.executor (quietAnswer r k [])) =
      some ⟨db, .recoveringFailure r run⟩ := by
    simp [next, executorStep, executeWithAuthority, hq.authorized,
      findActive_of_running hlife hr hs, hs]
  have h₄ : next config service ⟨db, .recoveringFailure r run⟩ (.executor (quietAnswer r k [])) =
      some ⟨db, .guardingResume r run⟩ := by
    simp [next, executorStep, recoverPersistedFailure, hq.authorized, hnone, hready]
  have h₅ : next config service ⟨db, .guardingResume r run⟩ (.executor (quietAnswer r k [])) =
      some ⟨db, .publishingTerminalFailure (sourceChangedRequest r 0)⟩ := by
    have hstep : rejectResumeOnWatermarkMismatch (quietAnswer r k []) db r run =
        (db, .publishingTerminalFailure (sourceChangedRequest r 0)) := by
      simp only [rejectResumeOnWatermarkMismatch, if_true, hw, quietAnswer, if_neg hk]
    simp [next, executorStep, hstep]
  have h₆ : next config service ⟨db, .publishingTerminalFailure (sourceChangedRequest r 0)⟩
      (.executor (quietAnswer r k [])) = some ⟨db', .stopped .sourceChangedPublished⟩ := by
    have hstep : publishTerminal (quietAnswer r k []) db (sourceChangedRequest r 0) =
        (db', .stopped .sourceChangedPublished) := by
      rw [publishTerminal, hpub]
      exact if_pos rfl
    simp [next, executorStep, hstep]
  refine ⟨_, .tail (.tail (.tail (.tail (.tail (.tail .refl trivial h₁) trivial h₂) trivial h₃)
    trivial h₄) trivial h₅) trivial h₆, ?_⟩
  rw [show (sourceChangedRequest r 0).runId = r from rfl] at hrun'
  simp only [hrun', Option.map_some]
  rfl

/-- **Crash-equivalence of terminal batch decisions.**  The decision to fail a run because of a batch
survives every crash exactly when the attempt budget of the batch was used up at the write that
records the outcome. -/
theorem terminal_decision_survives_iff (hs : Reachable config service s)
    (hw : RecordsTerminalOutcome config service s a s₁ r n e) :
    DecisionSurvives config service s₁ r n e ↔
      ∃ b, s.db.findBatch r n = some b ∧ config.maxBatchAttemptsPerRun ≤ b.attemptCount := by
  have hI := batchInvariant_of_reachable hs
  have hI₁ := batchInvariant_next hI hw.step
  obtain ⟨b, message, hb, rfl, hblank, rfl, hdb, hpc⟩ := hw.failed hI
  have hfind : s.db.findBatch r b.batchNumber = some b := findBatch_of_firstOpen (hI.order r) hb
  have hk : KeepsDefinition (failedBatch message) := fun _ => ⟨rfl, rfl⟩
  have hb₁ : firstOpen (s₁.db.batches r) = some (failedBatch message b) := by
    rw [hdb]
    simp only [Db.modifyBatch, Function.update_self]
    exact (hI.order r).firstOpen_update hb (by simp [failedBatch])
  have hfind₁ : s₁.db.findBatch r b.batchNumber = some (failedBatch message b) :=
    findBatch_of_firstOpen (hI₁.order r) hb₁
  obtain ⟨run, hr, hst, hi, -⟩ := hI.system.knows.running r (runningRun?_of_batch? hw.batch)
  have hr₁ : s₁.db.runs.find r = some run := by rw [hdb]; exact hr
  have hstop : ∀ outcome, s₁.executor ≠ .stopped outcome := fun outcome h => by
    rcases hpc with hpc | ⟨hpc, -⟩ <;> rw [h] at hpc <;> cases hpc
  have hrunning : (s₁.db.runs.find r).map (·.status) = some .running := by
    rw [hr₁, Option.map_some, hst]
  constructor
  · intro hsurvives
    refine ⟨b, hfind, ?_⟩
    by_contra hm
    obtain ⟨s', hs', hchanged⟩ := lost_of_budget_left hI₁ hstop hr₁ hst hb₁ rfl
      (Nat.not_le.mp hm)
    obtain ⟨run', hr', h⟩ := hsurvives.run s' hs'
    rw [hr', Option.map_some, Option.some.injEq] at hchanged
    rcases h with h | h
    · rw [h] at hchanged
      cases hchanged
    · rw [h.1] at hchanged
      cases hchanged
  · rintro ⟨b', hb', hm⟩
    rw [hfind] at hb'
    cases hb'
    have hx : FirstExhausted config (s₁.db.batches r) (some message) :=
      ⟨_, hb₁, isExhausted_iff.mpr ⟨rfl, hm⟩, rfl⟩
    have hD : Decided r (some message) (s₁.db.batches r) s₁ := by
      refine ⟨hI₁, rfl, run, hr₁, hi, Or.inl ⟨hst, ?_⟩⟩
      rcases hpc with hpc | ⟨hpc, -⟩
      · rw [hpc]
        exact ⟨rfl, rfl⟩
      · rw [hpc]
        exact rfl
    have hsteps : ∀ s', Steps (next config service) (fun _ _ => True) s₁ s' →
        Decided r (some message) (s₁.db.batches r) s' :=
      fun s' h => h.invariant (fun hD _ hn => decided_next hx hD hn) hD
    refine ⟨fun s' h => ?_, fun s' h => ?_, fun a hq => hD.publishes hx hblank hq hrunning hstop,
      fun s' outcome triggerType a h hout hrun hq => ?_⟩
    · obtain ⟨run', hr', -, hrun'⟩ := (hsteps s' h).run
      exact ⟨run', hr', hrun'.imp (fun h => h.1) id⟩
    · have hkept := (hsteps s' h).batches
      refine ⟨failedBatch message b, ?_, hfind₁, rfl, rfl⟩
      rw [Db.findBatch, hkept]
      exact hfind₁
    · obtain ⟨db, pc⟩ := s'
      obtain rfl : pc = .stopped outcome := hout
      have hacq : next config service ⟨db, .stopped outcome⟩ (.acquireLock triggerType) =
          some ⟨db, .started triggerType⟩ := rfl
      have hD' := decided_next hx (hsteps _ h) hacq
      obtain ⟨k, s'', hk', hp⟩ := hD'.publishes hx hblank hq hrun fun _ h => by cases h
      refine ⟨k, s'', ?_, hp⟩
      rw [Library.run, hacq, Option.bind_some, hk']

end Outcome

/-! ### The page limit -/

/-- One attempt a batch. -/
def oneAttemptConfig : ExecutorConfig :=
  { smallConfig with maxBatchAttemptsPerRun := 1, maxBatchAttemptsPerRun_pos := by decide }

/-- An answer with a full page. -/
def fullPageAnswer : Answer NormalizedEcbViolation :=
  quietAnswer 0 7 [sampleViolation, { sampleViolation with sourceId := "2", socrataRowId := "row-2" }]

/-- A run over one property, up to the page limit of its batch. -/
def pageLimitRun : List (Event NormalizedEcbViolation) :=
  createSample 0 "1000010001" "1000001" :: .acquireLock .manual ::
    List.replicate 23 (.executor fullPageAnswer)

/-- The execution dies, and a second one gets an empty page. -/
def resumedRun : List (Event NormalizedEcbViolation) :=
  .crash :: .acquireLock .manual :: List.replicate 13 (.executor (quietAnswer 0 7 []))

/-- The outcome in hand. -/
def ExecutorState.terminalOutcome? : ExecutorState Row → Option (RunId × Option String)
  | .terminalOutcome runId lastError => some (runId, lastError)
  | _ => none

theorem eq_of_terminalOutcome? {pc : ExecutorState Row} {r : RunId} {e : Option String}
    (h : pc.terminalOutcome? = some (r, e)) : pc = .terminalOutcome r e := by
  cases pc <;> cases h
  rfl

/-- The run records the page limit at its next step. -/
theorem pageLimitRun_records (config : ExecutorConfig)
    (h : ((Library.run (next config plainService) .initial pageLimitRun).bind fun s =>
      (next config plainService s (.executor fullPageAnswer)).map fun s₁ =>
        (s.executor.batch?, s₁.executor.terminalOutcome?)) =
      some (some (0, 1), some (0, some "FAILED_PAGE_LIMIT"))) :
    ∃ s s₁, Library.run (next config plainService) .initial pageLimitRun = some s ∧
      Reachable config plainService s ∧ RecordsTerminalOutcome config plainService s fullPageAnswer
        s₁ 0 1 (some "FAILED_PAGE_LIMIT") := by
  obtain ⟨s, hs, h⟩ := Option.bind_eq_some_iff.mp h
  obtain ⟨s₁, hs₁, h⟩ := Option.map_eq_some_iff.mp h
  rw [Prod.mk.injEq] at h
  exact ⟨s, s₁, hs, run_steps (runOk_trivial _ _) hs, h.1, hs₁,
    Or.inl (eq_of_terminalOutcome? h.2)⟩

theorem terminal_decision_survives_oneAttempt : ∃ s s₁,
    Reachable oneAttemptConfig plainService s ∧
      RecordsTerminalOutcome oneAttemptConfig plainService s fullPageAnswer s₁ 0 1
        (some "FAILED_PAGE_LIMIT") ∧
      DecisionSurvives oneAttemptConfig plainService s₁ 0 1 (some "FAILED_PAGE_LIMIT") := by
  obtain ⟨s, s₁, hrun, hs, hw⟩ := pageLimitRun_records oneAttemptConfig (by decide +kernel)
  refine ⟨s, s₁, hs, hw, (terminal_decision_survives_iff hs hw).mpr ?_⟩
  have hm : ((Library.run (next oneAttemptConfig plainService) .initial pageLimitRun).bind fun s =>
      (s.db.findBatch 0 1).map fun b => decide (1 ≤ b.attemptCount)) = some true := by
    decide +kernel
  rw [hrun, Option.bind_some] at hm
  obtain ⟨b, hb, hm⟩ := Option.map_eq_some_iff.mp hm
  exact ⟨b, hb, of_decide_eq_true hm⟩

/-- **A decision that is lost.**  The page limit is reached on the first of two attempts, the process
dies before the publication, and the resume completes the batch and the run. -/
theorem page_limit_decision_lost : ∃ s s₁ s', Reachable smallConfig plainService s ∧
    RecordsTerminalOutcome smallConfig plainService s fullPageAnswer s₁ 0 1
      (some "FAILED_PAGE_LIMIT") ∧
    Library.run (next smallConfig plainService) s₁ resumedRun = some s' ∧
    (s'.db.findBatch 0 1).map (·.status) = some .completed ∧
    (s'.db.runs.find 0).map (·.status) = some .completed ∧
    ¬ DecisionSurvives smallConfig plainService s₁ 0 1 (some "FAILED_PAGE_LIMIT") := by
  obtain ⟨s, s₁, hrun, hs, hw⟩ := pageLimitRun_records smallConfig (by decide +kernel)
  have h : ((Library.run (next smallConfig plainService) .initial pageLimitRun).bind fun s =>
      (next smallConfig plainService s (.executor fullPageAnswer)).bind fun s₁ =>
        (Library.run (next smallConfig plainService) s₁ resumedRun).map fun s' =>
          ((s'.db.findBatch 0 1).map (·.status), (s'.db.runs.find 0).map (·.status))) =
      some (some .completed, some .completed) := by decide +kernel
  rw [hrun, Option.bind_some, hw.step, Option.bind_some] at h
  obtain ⟨s', hs', h⟩ := Option.map_eq_some_iff.mp h
  rw [Prod.mk.injEq] at h
  refine ⟨s, s₁, s', hs, hw, hs', h.1, h.2, fun hsurvives => ?_⟩
  obtain ⟨b, hb, -, hfailed, -⟩ := hsurvives.batch s' (run_steps (runOk_trivial _ _) hs')
  have hcompleted := h.1
  rw [hb, Option.map_some, hfailed] at hcompleted
  cases hcompleted

end NycPropertyResolver
