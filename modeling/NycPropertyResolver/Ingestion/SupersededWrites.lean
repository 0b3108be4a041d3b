import NycPropertyResolver.Ingestion.Supersession

/-!
# Ingestion — what a superseded execution can write

What a step makes of one run, whichever execution takes it and whenever: of its row (`RowChange`), of
its snapshot and its batches, and of its staging rows.  The conditional updates and the checks of the
transactions carry the database through all of it (`Sound`), and a row of `ingestion_runs` keeps what
an execution has read there.
-/

namespace NycPropertyResolver

open Library

variable {Row : Type} {config : ExecutorConfig} {service : EcbRowService Row}

namespace Supersession

/-! ### Batches -/

/-- A batch as the accepted publication asks for it. -/
def IsDone (b : IngestionBatch) : Prop :=
  b.status = .completed ∧ b.completedAt ≠ none ∧ b.lastError = none

/-- A batch that is COMPLETED, or done, if it was. -/
structure StaysDone (b b' : IngestionBatch) : Prop extends SameBatch b b' where
  completed : b.status = .completed → b'.status = .completed
  done : IsDone b → IsDone b'

theorem StaysDone.refl (b : IngestionBatch) : StaysDone b b := ⟨.refl b, id, id⟩

section Batches

variable {a : Answer Row} {db db' : Db Row} {pc pc' : ExecutorState Row} {r r₀ : RunId} {n : Nat}
  {f : IngestionBatch → IngestionBatch} {R : IngestionBatch → IngestionBatch → Prop}

/-! ### Writes that open a batch -/

/-- A write that opens a batch only where `openedBatch?` says so. -/
def OpensAsSaid (config : ExecutorConfig) (a : Answer Row) (e : Execution Row) (db db' : Db Row) :
    Prop :=
  db' = db ∨ ∃ r n f, db' = db.modifyBatch r n f ∧ KeepsDefinition f ∧
    openedBatch? config a e = some (r, n)

theorem startAttempt_opens {passed : Bool} {existing : Option IngestionBatch}
    (h : startAttempt a db r n = (db', pc')) :
    OpensAsSaid config a ⟨.attemptCounted r n, passed, existing⟩ db db' := by
  obtain rfl : (startAttempt a db r n).1 = db' := congrArg Prod.fst h
  clear h
  unfold startAttempt
  split
  · exact .inl rfl
  · exact .inl rfl
  · rename_i herror _
    refine .inr ⟨r, n, fun b => { b with status := .running, lastError := none }, ?_,
      fun _ => ⟨rfl, rfl⟩, by simp [openedBatch?, herror]⟩
    split <;> rfl

theorem fetchPage_opens {passed : Bool} {existing : Option IngestionBatch} {attempt : BatchAttempt}
    (h : fetchPage a db attempt = (db', pc')) :
    OpensAsSaid config a ⟨.fetchingPage attempt, passed, existing⟩ db db' := by
  obtain rfl : (fetchPage a db attempt).1 = db' := congrArg Prod.fst h
  clear h
  unfold fetchPage
  split
  · rename_i hauth
    split
    · exact .inl rfl
    · exact .inl rfl
    · rename_i hpage herror
      split
      · rename_i hfailed
        refine .inr ⟨_, _, _, (Db.markFailed_eq_ok hfailed).2, fun _ => ⟨rfl, rfl⟩, ?_⟩
        simp [openedBatch?, herror, hpage, Except.toOption, hauth]
      · exact .inl rfl
  · exact .inl rfl

theorem failPageLimit_opens {passed : Bool} {existing : Option IngestionBatch}
    {attempt : BatchAttempt} (h : failPageLimit a db attempt = (db', pc')) :
    OpensAsSaid config a ⟨.pageLimitReached attempt, passed, existing⟩ db db' := by
  obtain rfl : (failPageLimit a db attempt).1 = db' := congrArg Prod.fst h
  clear h
  unfold failPageLimit
  split
  · exact .inl rfl
  · rename_i herror
    split
    · rename_i hfailed
      exact .inr ⟨_, _, _, (Db.markFailed_eq_ok hfailed).2, fun _ => ⟨rfl, rfl⟩,
        by simp [openedBatch?, herror]⟩
    · exact .inl rfl

theorem failAttempt_opens {passed : Bool} {existing : Option IngestionBatch} {attempt : BatchAttempt}
    {message : String} (h : failAttempt a db attempt message = (db', pc')) :
    OpensAsSaid config a ⟨.attemptFailed attempt message, passed, existing⟩ db db' := by
  obtain rfl : (failAttempt a db attempt message).1 = db' := congrArg Prod.fst h
  clear h
  unfold failAttempt
  split
  · rename_i hauth
    split
    · exact .inl rfl
    · rename_i herror
      split
      · rename_i hfailed
        exact .inr ⟨_, _, _, (Db.markFailed_eq_ok hfailed).2, fun _ => ⟨rfl, rfl⟩,
          by simp [openedBatch?, herror, hauth]⟩
      · exact .inl rfl
  · exact .inl rfl

/-- A write that opens a batch of another run. -/
theorem OpensAsSaid.staysDone {e : Execution Row} (h : OpensAsSaid config a e db db')
    (hspare : ∀ p ∈ openedBatch? config a e, p.1 ≠ r) :
    List.Forall₂ StaysDone (db.batches r) (db'.batches r) := by
  rcases h with rfl | ⟨r₀, n, f, rfl, -, hopened⟩
  · exact forall₂_of_eq .refl rfl
  · exact forall₂_of_eq .refl (Function.update_of_ne (hspare _ hopened).symm _ _)

/-- **A step that opens no batch of a run whose batches are COMPLETED** leaves them so. -/
theorem staysDone_step {e : Execution Row} (hpc : e.state = pc)
    (h : executorStep config service a db pc = some (db', pc'))
    (hspare : ∀ p ∈ openedBatch? config a e, p.1 ≠ r)
    (hdone : ∀ b ∈ db.batches r, b.status = .completed) {run : IngestionRun}
    (hr : db.runs.find r = some run) (hi : run.initializationComplete = true) :
    List.Forall₂ StaysDone (db.batches r) (db'.batches r) := by
  obtain ⟨_, passed, existing⟩ := e
  subst hpc
  have heffect := executorStep_effect h
  have hwrite := heffect.write
  have same : db'.batches = db.batches → List.Forall₂ StaysDone (db.batches r) (db'.batches r) :=
    fun e => forall₂_of_eq .refl (congrFun e r)
  cases heffect with
  | stop => exact same rfl
  | batchAlreadyCompleted => exact same rfl
  | @budgetExhausted r₀ n b _ _ hfind hs _ hfailed =>
      rw [(Db.markFailed_eq_ok hfailed).2]
      refine forall₂_of_eq .refl (Function.update_of_ne ?_ _ _)
      rintro rfl
      exact hs (hdone b (List.mem_of_find?_eq_some hfind))
  | attemptCounted => exact forall₂_modifyBatch .refl fun b => ⟨⟨rfl, rfl⟩, id, id⟩
  | attemptStarted =>
      exact (startAttempt_opens (Option.some.inj h)).staysDone hspare
  | attemptInvalid =>
      exact (startAttempt_opens (Option.some.inj h)).staysDone hspare
  | pageFetched => exact same rfl
  | pageFailed =>
      exact (fetchPage_opens (Option.some.inj h)).staysDone hspare
  | attemptThrew => exact same rfl
  | rawPersisted =>
      obtain ⟨raw, hraw⟩ := Db.persistRaw_eq db
      rw [hraw]
      exact forall₂_of_eq .refl rfl
  | rowStaged => exact same rfl
  | lastPage => exact forall₂_modifyBatch .refl fun b => ⟨⟨rfl, rfl⟩, id, id⟩
  | pageLimit => exact forall₂_modifyBatch .refl fun b => ⟨⟨rfl, rfl⟩, id, id⟩
  | nextPage => exact forall₂_modifyBatch .refl fun b => ⟨⟨rfl, rfl⟩, id, id⟩
  | batchCompleted =>
      exact forall₂_modifyBatch .refl fun b => ⟨⟨rfl, rfl⟩, fun _ => rfl, fun _ => ⟨rfl, by simp, rfl⟩⟩
  | pageLimitFailed =>
      exact (failPageLimit_opens (Option.some.inj h)).staysDone hspare
  | attemptClosed =>
      exact (failAttempt_opens (Option.some.inj h)).staysDone hspare
  | _ =>
      exact forall₂_of_eq .refl ((batches_change hwrite r).unchanged hr hi fun n e => by cases e)

/-- **What `executeBatchAttempt` does behind `findById`.** -/
inductive FoundEffect (config : ExecutorConfig) (a : Answer Row) (db : Db Row) (r : RunId) (n : Nat)
    (existing : IngestionBatch) : Db Row → ExecutorState Row → Prop where
  | completed : FoundEffect config a db r n existing db (.selectingBatch r)
  | stopped {outcome : ExecutionOutcome} : FoundEffect config a db r n existing db (.stopped outcome)
  | exhausted {message : String} (hs : existing.status ≠ .completed)
      (hmax : config.maxBatchAttemptsPerRun ≤ existing.attemptCount) (herror : a.statementError = none) :
      FoundEffect config a db r n existing
        (db.modifyBatch r n fun b => { b with status := .failed, lastError := some message })
        (.terminalOutcome r (some message))
  | counted :
      FoundEffect config a db r n existing (db.incrementAttemptCount r n) (.attemptCounted r n)

theorem attemptFound_effect {existing : IngestionBatch}
    (h : attemptFound config a db r n existing = (db', pc')) :
    FoundEffect config a db r n existing db' pc' := by
  unfold attemptFound at h
  split at h
  · cases h
    exact .completed
  · split at h
    · cases h
      exact .stopped
    · split at h
      · dsimp only at h
        split at h
        · rename_i hfailed
          cases h
          rw [(Db.markFailed_eq_ok hfailed).2]
          exact .exhausted ‹_› ‹_› ‹_›
        · rename_i e _
          obtain ⟨outcome, hstopped⟩ := stoppedBy_eq Row e
          rw [hstopped] at h
          cases h
          exact .stopped
      · cases h
        exact .counted

theorem FoundEffect.write {existing : IngestionBatch}
    (h : FoundEffect config a db r n existing db' pc') :
    Write config a db (.executingBatch r n) db' := by
  cases h with
  | completed => exact .nothing
  | stopped => exact .nothing
  | exhausted => exact .batchUpdated rfl fun _ => ⟨rfl, rfl⟩
  | counted => exact .batchUpdated rfl fun _ => ⟨rfl, rfl⟩

theorem FoundEffect.staysDone {existing : IngestionBatch} {r' : RunId} {passed : Bool}
    (h : FoundEffect config a db r n existing db' pc')
    (hspare : ∀ p ∈ openedBatch? config a ⟨.executingBatch r n, passed, some existing⟩, p.1 ≠ r') :
    List.Forall₂ StaysDone (db.batches r') (db'.batches r') := by
  cases h with
  | completed => exact forall₂_of_eq .refl rfl
  | stopped => exact forall₂_of_eq .refl rfl
  | exhausted hs hmax herror =>
      have hne : r ≠ r' := hspare (r, n) (by simp [openedBatch?, herror, hs, hmax])
      exact forall₂_of_eq .refl (Function.update_of_ne hne.symm _ _)
  | counted => exact forall₂_modifyBatch .refl fun b => ⟨⟨rfl, rfl⟩, id, id⟩

end Batches

/-! ### Staging and live rows -/

section Tables

variable {a : Answer Row} {db db' : Db Row} {pc pc' : ExecutorState Row} {r : RunId}

/-- **The staging rows of a run**, which a step leaves alone or adds the row in hand to. -/
theorem staging_effect (h : Effect config service a db pc db' pc') (r : RunId) :
    db'.staging r = db.staging r ∨ ∃ attempt page row sourceId rest v,
      pc = .stagingRow attempt page row sourceId rest ∧ attempt.runId = r ∧
        service.normalizeEcbViolation row = some v ∧
        db'.staging r = (db.staging r).set v.sourceId v := by
  cases h with
  | runCreated h =>
      obtain ⟨-, -, rfl⟩ := Db.createQueued_eq_ok h
      exact .inl rfl
  | snapshotStored h =>
      obtain ⟨_, -, -, -, rfl⟩ := Db.initializeRunSnapshotAndBatches_eq_ok h
      exact .inl rfl
  | runStarted h =>
      obtain ⟨_, -, -, -, -, rfl⟩ := Db.setStartWatermarkAndRunning_eq_ok h
      exact .inl rfl
  | budgetExhausted _ _ _ h =>
      rw [(Db.markFailed_eq_ok h).2]
      exact .inl rfl
  | pageFailed _ h =>
      rw [(Db.markFailed_eq_ok h).2]
      exact .inl rfl
  | rawPersisted =>
      obtain ⟨raw, hraw⟩ := Db.persistRaw_eq db
      rw [hraw]
      exact .inl rfl
  | @rowStaged attempt page rest row sourceId v hv =>
      by_cases e : r = attempt.runId
      · subst e
        exact .inr ⟨attempt, page, row, sourceId, rest, v, rfl, rfl, hv, by simp [Db.upsertStaging]⟩
      · exact .inl (Db.staging_upsertStaging_ne e)
  | pageLimitFailed h =>
      rw [(Db.markFailed_eq_ok h).2]
      exact .inl rfl
  | attemptClosed h =>
      rw [(Db.markFailed_eq_ok h).2]
      exact .inl rfl
  | terminalPublished h =>
      obtain ⟨-, ht⟩ := Db.publishTerminalFailure_ok h
      obtain ⟨_, _, -, -, -, rfl⟩ := Db.terminalTransaction_frame ht
      exact .inl rfl
  | acceptedPublished h =>
      rcases Db.acceptedTransaction_frame (Db.publish_ok h) with rfl | ⟨_, _, _, -, -, rfl⟩
      · exact .inl rfl
      · exact .inl rfl
  | _ => exact .inl rfl

/-- Only an accepted publication writes live rows. -/
theorem live_write (h : Write config a db pc db') : db'.live = db.live ∨
    ∃ runId answer outcome, db.publish answer runId = (db', .ok outcome) := by
  rcases write_publication h with ⟨hl, -⟩ | ⟨request, -, hp⟩ | ⟨runId, outcome, -, hp⟩
  · exact .inl hl
  · obtain ⟨-, ht⟩ := Db.publishTerminalFailure_ok hp
    obtain ⟨_, _, -, -, -, rfl⟩ := Db.terminalTransaction_frame ht
    exact .inl rfl
  · exact .inr ⟨_, _, _, hp⟩

end Tables

/-! ### The database -/

/-- A run has a start watermark. -/
def HasStarted (db : Db Row) (r : RunId) : Prop :=
  ∃ run, db.runs.find r = some run ∧ run.sourceWatermarkAtStart ≠ none

/-- **What holds of the database**, whatever executions write to it. -/
structure Sound (db : Db Row) : Prop where
  running : ∀ r run, db.runs.find r = some run → run.status = .running →
    run.sourceWatermarkAtStart ≠ none
  started : ∀ r run, db.runs.find r = some run → run.sourceWatermarkAtStart ≠ none →
    run.initializationComplete = true ∧ run.status ≠ .queued
  partition : ∀ r run, db.runs.find r = some run → run.initializationComplete = true →
    ((db.batches r).map (·.batchDefinition.bins)).flatten = (Db.distinctBins (db.snapshot r)).toList
  numbers : ∀ r, ((db.batches r).map (·.batchNumber)).Nodup
  untouched : ∀ r, NotStarted db r → Untouched db r
  stamps : StampsCompleted db

section Sound

variable {a : Answer Row} {db db' : Db Row} {pc pc' : ExecutorState Row} {r : RunId}

theorem Sound.initialized (hS : Sound db) (h : HasStarted db r) :
    ∃ run, db.runs.find r = some run ∧ run.initializationComplete = true := by
  obtain ⟨run, hr, hw⟩ := h
  exact ⟨run, hr, (hS.started r run hr hw).1⟩

theorem Sound.not_notStarted (hS : Sound db) (h : HasStarted db r) : ¬ NotStarted db r := by
  intro hn
  obtain ⟨run, hr, hw⟩ := h
  exact (hS.started r run hr hw).2 (hn run hr)

theorem HasStarted.write (h : Write config a db pc db') (hs : HasStarted db r) :
    HasStarted db' r := by
  obtain ⟨run, hr, hw⟩ := hs
  obtain ⟨run', hr', hchange⟩ := row_write h hr
  obtain ⟨w, hw⟩ := Option.ne_none_iff_exists'.mp hw
  exact ⟨run', hr', by rw [hchange.start hw]; simp⟩

/-- The bins of the batches are those of their definitions. -/
theorem flatten_bins_eq {bs bs' : List IngestionBatch} (h : List.Forall₂ SameBatch bs bs') :
    (bs'.map (·.batchDefinition.bins)).flatten = (bs.map (·.batchDefinition.bins)).flatten := by
  induction h with
  | nil => rfl
  | cons hb _ ih => simp [hb.definition, ih]

theorem numbers_eq {bs bs' : List IngestionBatch} (h : List.Forall₂ SameBatch bs bs') :
    bs'.map (·.batchNumber) = bs.map (·.batchNumber) := by
  induction h with
  | nil => rfl
  | cons hb _ ih => simp [hb.number, ih]

/-- **A step leaves the database sound**, where the run it works on has started. -/
theorem Sound.write (hS : Sound db) (hworks : ∀ r, pc.runningRun? = some r → HasStarted db r)
    (h : Write config a db pc db') : Sound db' where
  running r run' hr' hs := by
    rcases row_before h hr' with ⟨-, triggerType, rfl⟩ | ⟨run, hr, hchange⟩
    · cases hs
    · have hold := hS.running r run hr
      cases hchange with
      | same => exact hold hs
      | initialized => exact hold hs
      | started => simp
      | ended => exact hold hs
      | failed _ _ hne => exact absurd hs hne
      | accepted => cases hs
  started r run' hr' hw := by
    rcases row_before h hr' with ⟨-, triggerType, rfl⟩ | ⟨run, hr, hchange⟩
    · exact absurd rfl hw
    · have hold := hS.started r run hr
      cases hchange with
      | same => exact hold hw
      | initialized => exact ⟨rfl, (hold hw).2⟩
      | started _ _ hi => exact ⟨hi, by simp⟩
      | ended => exact hold hw
      | failed _ hmove =>
          refine ⟨(hold hw).1, fun hq => ?_⟩
          simp only [Db.terminalRun] at hq
          rw [hq] at hmove
          exact not_canBecome_queued hmove
      | accepted => exact ⟨(hold hw).1, by simp [Db.acceptedRun]⟩
  partition r run' hr' hi' := by
    have kept : ∀ {run : IngestionRun}, db.runs.find r = some run →
        run.initializationComplete = true →
        ((db'.batches r).map (·.batchDefinition.bins)).flatten =
          (Db.distinctBins (db'.snapshot r)).toList := by
      intro run hr hi
      obtain ⟨hb, hsnap⟩ := (batches_change h r).keeps hr hi
      rw [flatten_bins_eq hb, hsnap, hS.partition r run hr hi]
    rcases row_before h hr' with ⟨-, triggerType, rfl⟩ | ⟨run, hr, hchange⟩
    · cases hi'
    · cases hchange with
      | same => exact kept hr hi'
      | @initialized _ _ _ definitions _ _ hb hbins =>
          rw [hb, ← hbins, ← Db.pendingBatches_map_definition definitions, List.map_map,
            Db.pendingBatches_map_definition]
          rfl
      | started _ _ hi => exact kept hr hi
      | ended => exact kept hr hi'
      | failed => exact kept hr hi'
      | accepted => exact kept hr hi'
  numbers r := by
    cases batches_change h r with
    | same hb => rw [hb]; exact hS.numbers r
    | updated _ hf hb =>
        rw [hb, numbers_eq (forall₂_modifyBatch .refl fun b => ⟨(hf b).1, (hf b).2⟩)]
        exact hS.numbers r
    | stored _ _ hb =>
        rw [hb]
        exact (batchOrder_pendingBatches _).nodup
  untouched r :=
    write_untouched (fun r' hpc => hS.not_notStarted (hworks r' hpc)) (hS.untouched r) h
  stamps := by
    -- the run of a stamp stays COMPLETED
    have stays : ∀ r, (db.runs.find r).map (·.status) = some .completed →
        (db'.runs.find r).map (·.status) = some .completed := fun r hr => by
      obtain ⟨run, hr, hs⟩ := Option.map_eq_some_iff.mp hr
      obtain ⟨run', hr', hchange⟩ := row_write h hr
      rw [hr', Option.map_some]
      rcases hchange.status with hsame | hmove
      · rw [hsame, hs]
      · rw [hs] at hmove
        cases hmove
    intro sourceId live hlive
    rcases live_write h with heq | ⟨runId, answer, outcome, hp⟩
    · exact stays _ (hS.stamps sourceId live (heq ▸ hlive))
    rcases Db.acceptedTransaction_eq_ok (Db.publish_ok hp) with
      ⟨-, rfl, -⟩ | ⟨run, db₂, -, hpub, -, hcov, rfl⟩
    · exact hS.stamps sourceId live hlive
    obtain ⟨coverage, rfl⟩ := Db.publishSuccessfulCoverage_frame hcov
    rcases stamp_promote hlive with e | ⟨live₀, hl₀, e⟩
    · simp [e, Db.promoteEcbLiveState, Db.reconcileAbsences, Db.promoteStaging, hpub.found,
        Db.acceptedRun]
    · rw [e]
      exact stays _ (hS.stamps sourceId live₀ hl₀)

/-- A transaction on a property. -/
theorem Sound.of_identityFrame (hS : Sound db) (h : IdentityFrame db db') : Sound db' := by
  obtain ⟨_, _, _, rfl⟩ := h
  refine ⟨hS.running, hS.started, hS.partition, hS.numbers, fun r hn => ?_, hS.stamps⟩
  exact ⟨(hS.untouched r hn).ending, (hS.untouched r hn).staging, (hS.untouched r hn).batches⟩

theorem Sound.runningInitialized (hS : Sound db) (r : RunId) : RunningInitialized db r :=
  fun run hr hs => (hS.started r run hr (hS.running r run hr hs)).1

theorem sound_empty : Sound (Db.empty : Db Row) where
  running _ _ h := nomatch h
  started _ _ h := nomatch h
  partition _ _ h := nomatch h
  numbers _ := List.nodup_nil
  untouched _ _ := ⟨fun _ h => (nomatch h), fun _ => rfl, fun _ h => (nomatch h)⟩
  stamps _ _ h := nomatch h

end Sound

end Supersession

end NycPropertyResolver
