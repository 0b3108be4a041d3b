import NycPropertyResolver.Ingestion.SupersededWrites

/-!
# Ingestion — one step among several executions

A step of an execution is a rule of the executor, the rest of `executeBatchAttempt` behind a
`findById` that may be out of date, or the locking of the row of a run (`Act`).  What it says of the
execution that takes it stands here: of the run and the batch the execution is at, of the row it may
stage next, and of the batches of a run that is handed over.
-/

namespace NycPropertyResolver

open Library

variable {Row : Type} {config : ExecutorConfig} {columns : SourceColumns Row}
  {service : EcbRowService Row} {source : Nat → SourceDataset Row}

namespace Supersession

/-! ### Turns -/

/-- **What a step of an execution can be.** -/
inductive Turn (config : ExecutorConfig) (service : EcbRowService Row) (a : Answer Row)
    (s : State Row) (x : Nat) : State Row → Prop where
  | executor {db' : Db Row} {pc' : ExecutorState Row}
      (hpc : ∀ r, (s.executions x).state ≠ .readyForPublication r)
      (h : executorStep config service a s.db (s.executions x).state = some (db', pc')) :
      Turn config service a s x (s.after x (db', pc'))
  | found {r : RunId} {n : Nat} {existing : IngestionBatch} {db' : Db Row} {pc' : ExecutorState Row}
      (hpc : (s.executions x).state = .executingBatch r n)
      (he : (s.executions x).existing = some existing)
      (h : attemptFound config a s.db r n existing = (db', pc')) :
      Turn config service a s x (s.after x (db', pc'))
  | refused {r : RunId} {outcome : ExecutionOutcome}
      (hpc : (s.executions x).state = .readyForPublication r) (hlock : s.rowLock r ≠ some x) :
      Turn config service a s x (s.after x (s.db, .stopped outcome))
  | locked {r : RunId} {run : IngestionRun}
      (hpc : (s.executions x).state = .readyForPublication r)
      (hvalid : s.db.lockAndValidateAcceptedRun r = .ok run) (hs : run.status ≠ .completed) :
      Turn config service a s x { s.after x (s.db, .readyForPublication r) with
        rowLock := Function.update s.rowLock r (some x) }
  | committed {r : RunId} {db' : Db Row} (hpc : (s.executions x).state = .readyForPublication r)
      (hlock : s.rowLock r = some x) (h : s.db.publishLocked a.publication r = .ok db') :
      Turn config service a s x { s.after x (db', .stopped .completed) with
        rowLock := Function.update s.rowLock r none }
  | rolledBack {r : RunId} {outcome : ExecutionOutcome}
      (hpc : (s.executions x).state = .readyForPublication r) (hlock : s.rowLock r = some x) :
      Turn config service a s x { s.after x (s.db, .stopped outcome) with
        rowLock := Function.update s.rowLock r none }

section Turns

variable {a : Answer Row} {s s' : State Row} {x : Nat}

theorem lockRun_cases (a : Answer Row) (db : Db Row) (r : RunId) :
    (∃ outcome, lockRun a db r = some (.stopped outcome)) ∨
      lockRun a db r = none ∧ ∃ run, db.lockAndValidateAcceptedRun r = .ok run ∧
        run.status ≠ .completed := by
  have stopped : ∀ e : ServiceError, ∃ outcome, some (stoppedBy e : ExecutorState Row) =
      some (.stopped outcome) := fun e => by
    obtain ⟨outcome, h⟩ := stoppedBy_eq Row e
    exact ⟨outcome, by rw [h]⟩
  unfold lockRun
  split
  · split
    · exact .inl (stopped _)
    · split
      · exact .inl (stopped _)
      · split
        · exact .inl (stopped _)
        · split
          · exact .inl ⟨_, rfl⟩
          · exact .inr ⟨rfl, _, ‹_›, ‹_›⟩
  · exact .inl ⟨_, rfl⟩

/-- **A step is one of these turns.** -/
theorem stepNext_turn (h : stepNext config service s x a = some s') :
    Turn config service a s x s' := by
  unfold stepNext at h
  split at h
  · rename_i hpc he
    cases h
    exact .found hpc he rfl
  · rename_i r hpc
    split at h
    · rename_i hlock
      cases h
      unfold commitRun
      split
      · exact .committed hpc hlock ‹_›
      · rename_i e _
        obtain ⟨outcome, he⟩ := stoppedBy_eq Row e
        rw [he]
        exact .rolledBack hpc hlock
    · rename_i hlock
      rcases lockRun_cases a s.db r with
        ⟨outcome, hl⟩ | ⟨hl, run, hvalid, hs⟩
      · rw [hl] at h
        cases h
        exact .refused hpc hlock
      · rw [hl] at h
        cases h
        exact .locked hpc hvalid hs
  · rename_i hready _
    obtain ⟨⟨db', pc'⟩, hstep, rfl⟩ := Option.map_eq_some_iff.mp h
    exact .executor (fun r hpc => hready r hpc) hstep

/-- A step is a step of one execution, whose checks are used up. -/
structure Moved (s : State Row) (x : Nat) (s' : State Row) : Prop where
  instant : s'.instant = s.instant
  holder : s'.holder = s.holder
  others : ∀ y, y ≠ x → s'.executions y = s.executions y
  passed : (s'.executions x).passed = false

theorem State.after_moved (s : State Row) (x : Nat) (result : Db Row × ExecutorState Row)
    (rowLock : RunId → Option Nat) : Moved s x { s.after x result with rowLock := rowLock } where
  instant := rfl
  holder := rfl
  others y hy := by simp [State.after, Function.update_of_ne hy]
  passed := by simp [State.after]

theorem Turn.moved (h : Turn config service a s x s') : Moved s x s' := by
  cases h with
  | @executor db' pc' => exact s.after_moved x (db', pc') s.rowLock
  | @found _ _ _ db' pc' => exact s.after_moved x (db', pc') s.rowLock
  | @refused _ outcome => exact s.after_moved x (s.db, .stopped outcome) s.rowLock
  | locked => exact s.after_moved x _ _
  | committed => exact s.after_moved x _ _
  | rolledBack => exact s.after_moved x _ _

theorem Moved.mayAct (h : Moved s x s') {y : Nat} (hy : y ≠ x) : s'.mayAct y = s.mayAct y := by
  rw [State.mayAct, State.mayAct, h.holder, h.others y hy]

theorem Moved.holds (h : Moved s x s') (hact : s'.mayAct x = true) : s.holder = some x := by
  simpa [State.mayAct, h.passed, h.holder] using hact

end Turns

/-! ### What a step does -/

/-- **What a step does**: it follows a rule of the executor, goes on from a `findById`, or locks the row
of a run. -/
inductive Act (config : ExecutorConfig) (service : EcbRowService Row) (a : Answer Row)
    (db : Db Row) : ExecutorState Row → Db Row → ExecutorState Row → Prop where
  | effect {pc pc' : ExecutorState Row} {db' : Db Row}
      (h : Effect config service a db pc db' pc') : Act config service a db pc db' pc'
  | found {r : RunId} {n : Nat} {existing : IngestionBatch} {db' : Db Row} {pc' : ExecutorState Row}
      (h : FoundEffect config a db r n existing db' pc') :
      Act config service a db (.executingBatch r n) db' pc'
  | locked {r : RunId} :
      Act config service a db (.readyForPublication r) db (.readyForPublication r)

/-- The run has passed the validation of its accepted publication. -/
def Validated (db : Db Row) (r : RunId) : Prop :=
  ∃ run, db.lockAndValidateAcceptedRun r = .ok run ∧ run.status ≠ .completed

section Acts

variable {a : Answer Row} {s s' : State Row} {x : Nat}

/-- A publication that has passed its first check and its first statement. -/
def pastValidation (a : Answer Row) : Answer Row :=
  { a with publication := { a.publication with
      authorized := fun k => k = 0 || a.publication.authorized k
      statementError := fun k => if k = 0 then none else a.publication.statementError k } }

/-- The second half of a publication is one as a whole, where the run is still validated. -/
theorem publishLocked_publish {db db' : Db Row} {r : RunId} (hvalid : Validated db r)
    (h : db.publishLocked a.publication r = .ok db') :
    db.publish (pastValidation a).publication r = (db', .ok .completed) := by
  obtain ⟨run, hv, hs⟩ := hvalid
  have ht : db.acceptedTransaction (pastValidation a).publication r = .ok (db', .completed) := by
    rw [Db.acceptedTransaction_eq rfl hv hs,
      show db.publishLocked (pastValidation a).publication r = db.publishLocked a.publication r
        from rfl, h]
    rfl
  rw [Db.publish, show assertAuthorized ((pastValidation a).publication.authorized 0) _ = .ok ()
    from rfl]
  simp only [ht, transaction]

/-- **What a step does**, where a run whose row the execution has locked is still validated. -/
theorem Turn.act (h : Turn config service a s x s')
    (hlocked : ∀ r, s.rowLock r = some x → Validated s.db r) :
    ∃ a', a'.metadata = a.metadata ∧ a'.page = a.page ∧
      Act config service a' s.db (s.executions x).state s'.db (s'.executions x).state := by
  cases h with
  | executor _ h =>
      refine ⟨a, rfl, rfl, ?_⟩
      simp only [State.after, Function.update_self]
      exact .effect (executorStep_effect h)
  | found hpc _ h =>
      refine ⟨a, rfl, rfl, ?_⟩
      simp only [State.after, Function.update_self, hpc]
      exact .found (attemptFound_effect h)
  | refused =>
      refine ⟨a, rfl, rfl, ?_⟩
      simp only [State.after, Function.update_self]
      exact .effect .stop
  | locked hpc =>
      refine ⟨a, rfl, rfl, ?_⟩
      simp only [State.after, Function.update_self, hpc]
      exact .locked
  | committed hpc hlock h =>
      refine ⟨pastValidation a, rfl, rfl, ?_⟩
      simp only [State.after, Function.update_self, hpc]
      exact .effect (.acceptedPublished (publishLocked_publish (hlocked _ hlock) h))
  | rolledBack =>
      refine ⟨a, rfl, rfl, ?_⟩
      simp only [State.after, Function.update_self]
      exact .effect .stop

end Acts

section Facts

variable {a : Answer Row} {db db' : Db Row} {pc pc' : ExecutorState Row} {r : RunId} {i : Nat}

theorem Act.write (h : Act config service a db pc db' pc') : Write config a db pc db' := by
  cases h with
  | effect h => exact h.write
  | found h => exact h.write
  | locked => exact .nothing

/-- **The run an execution is at has started.** -/
theorem Act.works (h : Act config service a db pc db' pc') (hS : Sound db)
    (hw : ∀ r, pc.runningRun? = some r → HasStarted db r) :
    ∀ r, pc'.runningRun? = some r → HasStarted db' r := by
  have hwrite := h.write
  have same : pc'.runningRun? = pc.runningRun? →
      ∀ r, pc'.runningRun? = some r → HasStarted db' r :=
    fun e r hr => (hw r (e ▸ hr)).write hwrite
  cases h with
  | found h => cases h with
    | stopped => intro r hr; cases hr
    | _ => exact same rfl
  | locked => exact same rfl
  | effect h => cases h with
    | @foundRunning _ runId run h hs =>
        intro r hr
        cases hr
        have hfind := (Db.findActive_eq_some h).1
        exact ⟨run, hfind, hS.running runId run hfind hs⟩
    | alreadyRunning h _ _ hstart =>
        intro r hr
        cases hr
        exact ⟨_, h, hstart⟩
    | runStarted h =>
        intro r hr
        cases hr
        obtain ⟨run, hr, -, -, -, rfl⟩ := Db.setStartWatermarkAndRunning_eq_ok h
        exact ⟨_, by rw [Table.find_modify_self, hr, Option.map_some], by simp⟩
    | attemptThrew h => exact same (runningRun?_of_attempt? h).symm
    | endRejected _ hp =>
        intro r hr
        rcases hp with rfl | ⟨outcome, rfl⟩
        · cases hr
        · cases hr
    | _ => first | exact same rfl | exact fun r hr => nomatch hr

/-- **An attempt is at a batch of its run.** -/
theorem Act.attempts (h : Act config service a db pc db' pc')
    (hold : ∀ attempt, pc.attempt? = some attempt → AttemptsBatch db attempt)
    (attempt : BatchAttempt) (hpc' : pc'.attempt? = some attempt) :
    AttemptsBatch db attempt ∧ pc.runningRun? = some attempt.runId := by
  -- the attempt is the one before, with other counters
  have same : ∀ attempt₀, pc.attempt? = some attempt₀ → attempt₀.runId = attempt.runId →
      attempt₀.batchNumber = attempt.batchNumber → attempt₀.definition = attempt.definition →
      AttemptsBatch db attempt ∧ pc.runningRun? = some attempt.runId := by
    intro attempt₀ hpc hr hn hd
    obtain ⟨b, hb, hbn, hbd⟩ := hold attempt₀ hpc
    exact ⟨⟨b, hr ▸ hb, hbn.trans hn, hbd.trans hd⟩, hr ▸ runningRun?_of_attempt? hpc⟩
  cases h with
  | found h => cases h <;> cases hpc'
  | locked => cases hpc'
  | effect h => cases h with
    | @attemptStarted runId n b hfind =>
        cases hpc'
        exact ⟨⟨b, List.mem_of_find?_eq_some hfind, by simpa using List.find?_some hfind, rfl⟩, rfl⟩
    | attemptThrew h =>
        cases hpc'
        exact same _ h rfl rfl rfl
    | endRejected _ hp =>
        rcases hp with rfl | ⟨outcome, rfl⟩
        · cases hpc'
        · cases hpc'
    | _ => first
      | (cases hpc'; exact same _ rfl rfl rfl rfl)
      | cases hpc'

/-- An end watermark is fetched at the end of the batches, next to the start watermark of the run. -/
theorem Act.endWatermark {startWatermark endWatermark : Time}
    (h : Act config service a db pc db' (.endWatermarkFetched r startWatermark endWatermark)) :
    pc = .finalizing r ∧ db' = db ∧
      (db.runs.find r).bind (·.sourceWatermarkAtStart) = some startWatermark ∧
      ∃ k, a.metadata = .ok k ∧ rowsUpdatedAtToDate k = endWatermark := by
  cases h with
  | found h => cases h
  | effect h => cases h with
    | endWatermarkFetched hr hw hm =>
        exact ⟨rfl, rfl, by rw [hr, Option.bind_some, hw], _, hm, rfl⟩
    | endRejected _ hp =>
        rcases hp with hp | ⟨outcome, hp⟩
        · cases hp
        · cases hp

/-- The start watermark in hand is that of the source. -/
theorem Act.startWatermark {k : Nat} (hans : SourceAnswers columns service (source i) pc a)
    (h : Act config service a db pc db' (.startWatermarkFetched r k)) :
    (source i).rowsUpdatedAt = k := by
  cases h with
  | found h => cases h
  | effect h => cases h with
    | startWatermarkFetched _ _ hm => exact (hans.metadata k (by rw [hm]; rfl)).symm
    | endRejected _ hp =>
        rcases hp with hp | ⟨outcome, hp⟩
        · cases hp
        · cases hp

/-- At the end of the loop the batches are COMPLETED. -/
theorem Act.finalizing (h : Act config service a db pc db' (.finalizing r)) :
    db' = db ∧ ∀ b ∈ db.batches r, b.status = .completed := by
  cases h with
  | found h => cases h
  | effect h => cases h with
    | batchesDone h =>
        refine ⟨rfl, fun b hb => ?_⟩
        simpa using List.find?_eq_none.mp h b hb
    | endRejected _ hp =>
        rcases hp with hp | ⟨outcome, hp⟩
        · cases hp
        · cases hp

/-- An execution comes to a batch where it finds one open. -/
theorem Act.batch {n : Nat} (h : Act config service a db pc db' pc')
    (hpc' : pc'.batch? = some (r, n)) :
    pc.batch? = some (r, n) ∨ ∃ b ∈ db.batches r, b.status ≠ .completed := by
  cases h with
  | found h => cases h with
    | counted => exact .inl hpc'
    | _ => cases hpc'
  | locked => cases hpc'
  | effect h => cases h with
    | batchSelected h =>
        cases hpc'
        exact .inr ⟨_, List.mem_of_find?_eq_some h, (firstOpen_eq_some.mp h).1⟩
    | attemptThrew h =>
        refine .inl ?_
        cases pc <;> cases h <;> exact hpc'
    | endRejected _ hp =>
        rcases hp with rfl | ⟨outcome, rfl⟩
        · cases hpc'
        · cases hpc'
    | _ => first
      | exact .inl hpc'
      | cases hpc'

/-- **The staging rows of a run**, which a step leaves alone or adds the row in hand to. -/
theorem Act.staging (h : Act config service a db pc db' pc') (r : RunId) :
    db'.staging r = db.staging r ∨ ∃ attempt page row sourceId rest v,
      pc = .stagingRow attempt page row sourceId rest ∧ attempt.runId = r ∧
        service.normalizeEcbViolation row = some v ∧
        db'.staging r = (db.staging r).set v.sourceId v := by
  cases h with
  | effect h => exact staging_effect h r
  | found h => cases h <;> exact .inl rfl
  | locked => exact .inl rfl

/-- A row in hand is the next one of the page. -/
theorem Act.stagingRow {attempt : BatchAttempt} {page rest : List Row} {row : Row}
    {sourceId : SourceId}
    (h : Act config service a db pc db' (.stagingRow attempt page row sourceId rest)) :
    pc = .processingRows attempt page (row :: rest) := by
  cases h with
  | found h => cases h
  | effect h => cases h with
    | rawPersisted => rfl
    | endRejected _ hp =>
        rcases hp with hp | ⟨outcome, hp⟩
        · cases hp
        · cases hp

end Facts

/-! ### Authority -/

section Authority

variable {a : Answer Row} {s s' : State Row} {x : Nat} {r : RunId}

theorem State.met_of_not_mayAct (h : s.mayAct x = false) : s.met x a = withoutAuthority a := by
  simp [State.met, h]

/-- An end watermark is fetched by an execution whose checks pass. -/
theorem Turn.mayAct_of_endWatermark {startWatermark endWatermark : Time}
    (h : Turn config service (s.met x a) s x s')
    (hpc' : (s'.executions x).state = .endWatermarkFetched r startWatermark endWatermark) :
    s.mayAct x = true := by
  by_contra hact
  rw [State.met_of_not_mayAct (Bool.eq_false_of_not_eq_true hact)] at h
  cases h with
  | executor _ h =>
      simp only [State.after, Function.update_self] at hpc'
      subst hpc'
      have hpc := (Act.endWatermark (.effect (executorStep_effect h))).1
      rw [hpc] at h
      simp [executorStep, finalizePublicationHandoff, withoutAuthority] at h
  | found hpc _ h =>
      simp only [State.after, Function.update_self] at hpc'
      subst hpc'
      cases attemptFound_effect h
  | _ => simp [State.after] at hpc'

/-- A row is taken up by an execution whose check passes. -/
theorem Turn.mayAct_of_stagingRow {attempt : BatchAttempt} {page rest : List Row} {row : Row}
    {sourceId : SourceId} (h : Turn config service (s.met x a) s x s')
    (hpc' : (s'.executions x).state = .stagingRow attempt page row sourceId rest) :
    s.mayAct x = true := by
  by_contra hact
  rw [State.met_of_not_mayAct (Bool.eq_false_of_not_eq_true hact)] at h
  cases h with
  | executor _ h =>
      simp only [State.after, Function.update_self] at hpc'
      subst hpc'
      have hpc := Act.stagingRow (.effect (executorStep_effect h))
      rw [hpc] at h
      simp [executorStep, processRows, withoutAuthority] at h
  | found hpc _ h =>
      simp only [State.after, Function.update_self] at hpc'
      subst hpc'
      cases attemptFound_effect h
  | _ => simp [State.after] at hpc'

/-- **The batches of a run that is handed over stay as its publication asks for them**, under a step
that opens none of them. -/
theorem Turn.staysDone (h : Turn config service (s.met x a) s x s')
    (hspare : SparesHandedOver config s (.step x a)) (hh : HandedOver s r)
    (hlocked : ∀ r, s.rowLock r = some x → Validated s.db r)
    (hdone : ∀ b ∈ s.db.batches r, b.status = .completed) {run : IngestionRun}
    (hr : s.db.runs.find r = some run) (hi : run.initializationComplete = true) :
    List.Forall₂ StaysDone (s.db.batches r) (s'.db.batches r) := by
  have hspare' : ∀ p ∈ openedBatch? config (s.met x a) (s.executions x), p.1 ≠ r := by
    rintro p hp rfl
    exact hspare p hp hh
  cases h with
  | executor _ h => exact staysDone_step rfl h hspare' hdone hr hi
  | @found r₀ n existing _ _ hpc he h =>
      have e : s.executions x =
          ⟨.executingBatch r₀ n, (s.executions x).passed, some existing⟩ := by
        rw [← hpc, ← he]
      rw [e] at hspare'
      exact (attemptFound_effect h).staysDone hspare'
  | refused => exact forall₂_of_eq .refl rfl
  | locked => exact forall₂_of_eq .refl rfl
  | rolledBack => exact forall₂_of_eq .refl rfl
  | committed hpc hlock h =>
      have hw : Write config (pastValidation (s.met x a)) s.db (.readyForPublication _) _ :=
        .acceptedPublished rfl (publishLocked_publish (hlocked _ hlock) h)
      exact forall₂_of_eq .refl ((batches_change hw r).unchanged hr hi fun n e => by cases e)

end Authority

end Supersession

end NycPropertyResolver
