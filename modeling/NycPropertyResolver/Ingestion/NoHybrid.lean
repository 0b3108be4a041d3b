import Mathlib.Tactic.IntervalCases
import NycPropertyResolver.Ingestion.WriteFrames

/-!
# Ingestion — no hybrid publication

A publication happens as a whole or not at all.  A call that throws, or whose lock session is gone at
one of its checks, changes nothing; and over whole histories the live rows and the success side of
the coverage change only in the step that completes the run being published, which is COMPLETED from
then on.
-/

namespace NycPropertyResolver

open Library

variable {Row : Type} {config : ExecutorConfig} {service : EcbRowService Row}

/-! ### Publications -/

/-- `last_success_run_id`, `last_success_at` and `source_watermark_at`; all null where there is no
row. -/
def successSide (c : Option PropertyDatasetCoverage) :
    Option RunId × Option Time × Option Time :=
  match c with
  | none => (none, none, none)
  | some c => (c.lastSuccessRunId, c.lastSuccessAt, c.sourceWatermarkAt)

section Publications

variable {db db' : Db Row} {answer : PublicationAnswer} {runId : RunId}
  {request : IngestionTerminalPublicationRequest}

theorem authorized_of_publish_ok {outcome : AcceptedPublicationOutcome}
    (h : db.publish answer runId = (db', .ok outcome)) : answer.authorized 0 = true := by
  by_contra h₀
  rw [Bool.not_eq_true] at h₀
  simp [Db.publish, assertAuthorized, h₀] at h

/-- **An accepted publication that changes anything completes the run**, with its lock session held
at each check and no statement failed. -/
theorem publish_changes (h : (db.publish answer runId).1 ≠ db) :
    (∃ run, db.runs.find runId = some run ∧ run.status = .running) ∧
      (((db.publish answer runId).1.runs.find runId).map (·.status) = some .completed) ∧
      (∀ i < 4, answer.authorized i = true) ∧ ∀ i < 5, answer.statementError i = none := by
  cases hp : db.publish answer runId with
  | mk db' r =>
  rw [hp] at h
  cases r with
  | error e => exact absurd (Db.publish_error hp) h
  | ok outcome =>
      have h₀ := authorized_of_publish_ok hp
      have ht := Db.publish_ok hp
      rcases Db.acceptedTransaction_frame ht with e | ⟨run, live, coverage, hv, -, e⟩
      · exact absurd e h
      refine ⟨⟨run, hv.found, hv.running⟩, ?_, ?_⟩
      · rw [e]
        simp [hv.found, Db.acceptedRun]
      · obtain ⟨s₀, ht⟩ := runStatement_bind_ok.mp ht
        obtain ⟨run', hl, ht⟩ := except_bind_ok.mp ht
        obtain rfl : run' = run := by
          have := (Db.lockAndValidateAcceptedRun_eq_ok hl).1
          rw [hv.found] at this
          exact (Option.some.inj this).symm
        rw [if_neg (by rw [hv.running]; decide)] at ht
        simp only [assertAuthorized_bind_ok, runStatement_bind_ok] at ht
        obtain ⟨a₁, s₁, a₂, s₂, ht⟩ := ht
        obtain ⟨_, -, ht⟩ := except_bind_ok.mp ht
        simp only [assertAuthorized_bind_ok, runStatement_bind_ok] at ht
        obtain ⟨a₃, s₃, ht⟩ := ht
        obtain ⟨_, -, ht⟩ := except_bind_ok.mp ht
        obtain ⟨s₄, -⟩ := runStatement_bind_ok.mp ht
        constructor
        · intro i hi
          interval_cases i <;> assumption
        · intro i hi
          interval_cases i <;> assumption

/-- **A terminal publication that changes anything ends an active run**, with its lock session held
at each check it makes. -/
theorem publishTerminalFailure_changes (h : (db.publishTerminalFailure answer request).1 ≠ db) :
    ∃ run, db.runs.find request.runId = some run ∧ run.isActive = true ∧
      ((db.publishTerminalFailure answer request).1.runs.find request.runId).map (·.status) =
        some request.status ∧
      answer.authorized 0 = true ∧ answer.authorized 1 = true ∧
      (run.initializationComplete = true → answer.authorized 2 = true) ∧
      answer.authorized 3 = true := by
  cases hp : db.publishTerminalFailure answer request with
  | mk db' r =>
  rw [hp] at h
  cases r with
  | error e => exact absurd (Db.publishTerminalFailure_error hp) h
  | ok _ =>
      have h₀ : answer.authorized 0 = true := by
        by_contra h₀
        rw [Bool.not_eq_true] at h₀
        obtain ⟨hv, -⟩ := Db.publishTerminalFailure_ok hp
        simp [Db.publishTerminalFailure, hv, assertAuthorized, h₀] at hp
      obtain ⟨-, ht⟩ := Db.publishTerminalFailure_ok hp
      obtain ⟨run, coverage, hr, ha, -, e⟩ := Db.terminalTransaction_frame ht
      refine ⟨run, hr, ha, by rw [e]; simp [hr, Db.terminalRun], h₀, ?_⟩
      obtain ⟨-, ht⟩ := runStatement_bind_ok.mp ht
      obtain ⟨run', hl, ht⟩ := except_bind_ok.mp ht
      obtain rfl : run' = run := by
        have := (Db.lockAndValidateTerminalRun_eq_ok hl).1
        rw [hr] at this
        exact (Option.some.inj this).symm
      obtain ⟨a₁, ht⟩ := assertAuthorized_bind_ok.mp ht
      obtain ⟨-, ht⟩ := runStatement_bind_ok.mp ht
      split at ht
      · simp only [assertAuthorized_bind_ok, runStatement_bind_ok, ensure_bind_ok] at ht
        exact ⟨a₁, fun _ => ht.1, ht.2.2.2.1⟩
      · rename_i hi
        simp only [assertAuthorized_bind_ok, runStatement_bind_ok] at ht
        exact ⟨a₁, fun h => absurd h hi, ht.1⟩

/-- Publishing a COMPLETED run again changes nothing. -/
theorem publish_completed {run : IngestionRun} (hr : db.runs.find runId = some run)
    (hs : run.status = .completed) : (db.publish answer runId).1 = db := by
  by_contra h
  obtain ⟨⟨run', hr', hs'⟩, -⟩ := publish_changes h
  rw [hr] at hr'
  cases hr'
  rw [hs] at hs'
  cases hs'

/-- A failed attempt leaves the success side of every coverage row. -/
theorem successSide_publishFailedCoverage (p : PropertyId) :
    successSide ((db.publishFailedCoverage request).coverage p) = successSide (db.coverage p) := by
  simp only [Db.publishFailedCoverage]
  split
  · rfl
  · split
    · split <;> simp [successSide, Db.failedCoverage, *]
    · rfl

/-- A terminal publication leaves the live rows, and the success side of every coverage row. -/
theorem publishTerminalFailure_successSide
    (h : db.publishTerminalFailure answer request = (db', .ok ())) :
    db'.live = db.live ∧ ∀ p, successSide (db'.coverage p) = successSide (db.coverage p) := by
  obtain ⟨-, ht⟩ := Db.publishTerminalFailure_ok h
  obtain ⟨run, -, -, -, ⟨-, rfl⟩ | ⟨-, rfl⟩⟩ := Db.terminalTransaction_eq_ok ht
  · exact ⟨rfl, fun p => successSide_publishFailedCoverage p⟩
  · exact ⟨rfl, fun _ => rfl⟩

end Publications

/-! ### Histories -/

/-- The accepted state of two databases is the same: their live rows and the success side of their
coverage. -/
def SameAcceptedState (db db' : Db Row) : Prop :=
  db'.live = db.live ∧ ∀ p, successSide (db'.coverage p) = successSide (db.coverage p)

/-- **One write changes the accepted state only by publishing a run that was RUNNING.** -/
theorem write_sameAcceptedState {a : Answer Row} {db db' : Db Row} {pc : ExecutorState Row}
    (h : Write config a db pc db') : SameAcceptedState db db' ∨
      ∃ runId answer outcome, pc = .readyForPublication runId ∧
        db.publish answer runId = (db', .ok outcome) := by
  rcases write_publication h with ⟨hl, hc⟩ | ⟨request, -, hp⟩ | ⟨runId, outcome, hpc, hp⟩
  · exact Or.inl ⟨hl, fun p => by rw [hc]⟩
  · exact Or.inl (publishTerminalFailure_successSide hp)
  · exact Or.inr ⟨runId, a.publication, outcome, hpc, hp⟩

variable {s s' s'' : SystemState Row}

/-- A run that is COMPLETED stays so. -/
theorem completed_stays {runId : RunId}
    (h : Steps (next config service) (fun _ _ => True) s s') (hI : SystemInvariant s)
    (hc : (s.db.runs.find runId).map (·.status) = some .completed) :
    (s'.db.runs.find runId).map (·.status) = some .completed := by
  refine (h.invariant (I := fun t => SystemInvariant t ∧
    (t.db.runs.find runId).map (·.status) = some .completed) ?_ ⟨hI, hc⟩).2
  rintro t u ev ⟨hI, hc⟩ - hs
  obtain ⟨hu, he⟩ := systemInvariant_next hI hs
  obtain ⟨run, hr, hst⟩ := Option.map_eq_some_iff.mp hc
  obtain ⟨run', hr', e⟩ := he _ run hr
  refine ⟨hu, ?_⟩
  rw [hr', Option.map_some]
  rcases e.status with e | e
  · rw [e, hst]
  · rw [hst] at e
    cases e

/-- **No hybrid publication.**  A publication that throws, or finds its lock session lost at one of
its checks, leaves the database as it was; publishing a COMPLETED run again changes nothing; and in
every history a step of the ingestion that changes the live rows, or the success side of a coverage
row, publishes a RUNNING run, which is COMPLETED in every later state. -/
theorem no_hybrid_publication (config : ExecutorConfig) (service : EcbRowService Row) :
    (∀ (db : Db Row) answer runId,
      (∀ e, (db.publish answer runId).2 = .error e → (db.publish answer runId).1 = db) ∧
      (∀ i < 4, answer.authorized i = false → (db.publish answer runId).1 = db) ∧
      (∀ run, db.runs.find runId = some run → run.status = .completed →
        (db.publish answer runId).1 = db)) ∧
    (∀ (db : Db Row) answer request,
      (∀ e, (db.publishTerminalFailure answer request).2 = .error e →
        (db.publishTerminalFailure answer request).1 = db) ∧
      (∀ i < 4, answer.authorized i = false →
        (i = 2 → (db.runs.find request.runId).map (·.initializationComplete) = some true) →
        (db.publishTerminalFailure answer request).1 = db)) ∧
    ∀ s s' a, Reachable config service s → next config service s (.executor a) = some s' →
      SameAcceptedState s.db s'.db ∨
        ∃ runId, s.executor = .readyForPublication runId ∧
          (s.db.runs.find runId).map (·.status) = some .running ∧
          ∀ s'', Steps (next config service) (fun _ _ => True) s' s'' →
            (s''.db.runs.find runId).map (·.status) = some .completed := by
  refine ⟨fun db answer runId => ⟨fun e h => ?_, fun i hi h => ?_, fun run => publish_completed⟩,
    fun db answer request => ⟨fun e h => ?_, fun i hi h hinit => ?_⟩, fun s s' a hs hn => ?_⟩
  · exact Db.publish_error (Prod.ext rfl h)
  · by_contra hne
    have ha := (publish_changes hne).2.2.1 i hi
    rw [h] at ha
    cases ha
  · exact Db.publishTerminalFailure_error (Prod.ext rfl h)
  · by_contra hne
    obtain ⟨run, hr, -, -, a₀, a₁, a₂, a₃⟩ := publishTerminalFailure_changes hne
    rw [hr, Option.map_some] at hinit
    interval_cases i
    · rw [a₀] at h; cases h
    · rw [a₁] at h; cases h
    · rw [a₂ (Option.some.inj (hinit rfl))] at h; cases h
    · rw [a₃] at h; cases h
  · have hI := systemInvariant_of_steps hs systemInvariant_initial
    have hI' := (systemInvariant_next hI hn).1
    obtain ⟨⟨db', pc'⟩, he, rfl⟩ := Option.map_eq_some_iff.mp hn
    rcases write_sameAcceptedState (executorStep_effect he).write with h |
      ⟨runId, answer, outcome, hpc, hp⟩
    · exact Or.inl h
    · by_cases e : db' = s.db
      · exact Or.inl (by rw [e]; exact ⟨rfl, fun _ => rfl⟩)
      · right
        have hne : (s.db.publish answer runId).1 ≠ s.db := by rw [hp]; exact e
        obtain ⟨⟨run, hr, hst⟩, hc, -⟩ := publish_changes hne
        rw [hp] at hc
        exact ⟨runId, hpc, by rw [hr, Option.map_some, hst],
          fun s'' hs'' => completed_stays hs'' hI' hc⟩

end NycPropertyResolver
