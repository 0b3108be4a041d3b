import NycPropertyResolver.Ingestion.SupersededInvariant

/-!
# Ingestion — superseded executions and publications

A run gets at most one terminal status, whichever executions write to it and whenever.  While no step
opens a batch of a run that is handed over, a run that becomes COMPLETED has the live rows of its
start watermark (`superseded_publication_exact`).  A late statement that does open such a batch can
make a run COMPLETED over rows of a later watermark: the batch is fetched again, and a run with equal
watermarks and COMPLETED batches is published without another look at the source
(`isPersistedRunReadyForPublication`).
-/

namespace NycPropertyResolver

open Library

variable {Row : Type} {config : ExecutorConfig} {columns : SourceColumns Row}
  {service : EcbRowService Row} {source : Nat → SourceDataset Row}

namespace Supersession

/-! ### Terminal statuses -/

section Status

variable {s s' : State Row} {x : Nat} {r : RunId} {run : IngestionRun}

/-- A publication completes a run that is RUNNING. -/
theorem publishLocked_runs {db db' : Db Row} {answer : PublicationAnswer}
    (h : db.publishLocked answer r = .ok db') :
    (db.runs.find r).map (·.status) = some .running ∧
      db'.runs = db.runs.modify r (Db.acceptedRun answer.now) := by
  simp only [Db.publishLocked, assertAuthorized_bind_ok, runStatement_bind_ok] at h
  obtain ⟨-, -, -, -, h⟩ := h
  obtain ⟨db₂, hcov, h⟩ := except_bind_ok.mp h
  simp only [assertAuthorized_bind_ok, runStatement_bind_ok] at h
  obtain ⟨-, -, h⟩ := h
  obtain ⟨db₃, hc, h⟩ := except_bind_ok.mp h
  obtain ⟨-, h⟩ := runStatement_bind_ok.mp h
  cases h
  obtain ⟨hs, rfl⟩ := Db.completeRun_eq_ok hc
  obtain ⟨coverage, rfl⟩ := Db.publishSuccessfulCoverage_frame hcov
  exact ⟨hs, rfl⟩

/-- **A turn moves the status of a run along at most one edge.** -/
theorem Turn.status {a : Answer Row} (h : Turn config service a s x s')
    (hr : s.db.runs.find r = some run) :
    ∃ run', s'.db.runs.find r = some run' ∧ OneMove run.status run'.status := by
  have of_write : ∀ {a : Answer Row} {pc : ExecutorState Row} {db' : Db Row},
      Write config a s.db pc db' → ∃ run', db'.runs.find r = some run' ∧
        OneMove run.status run'.status := fun hw => by
    obtain ⟨run', hr', hchange⟩ := row_write hw hr
    exact ⟨run', hr', hchange.status⟩
  cases h with
  | executor _ h => exact of_write (executorStep_effect h).write
  | found _ _ h => exact of_write (attemptFound_effect h).write
  | refused => exact ⟨run, hr, .inl rfl⟩
  | locked => exact ⟨run, hr, .inl rfl⟩
  | rolledBack => exact ⟨run, hr, .inl rfl⟩
  | @committed r₀ _ _ _ h =>
      obtain ⟨hs, hruns⟩ := publishLocked_runs h
      by_cases e : r = r₀
      · subst e
        rw [hr, Option.map_some, Option.some.injEq] at hs
        refine ⟨Db.acceptedRun a.publication.now run, ?_, .inr (hs ▸ .complete)⟩
        simp only [State.after, hruns, Table.find_modify_self, hr, Option.map_some]
      · refine ⟨run, ?_, .inl rfl⟩
        simp only [State.after, hruns, Table.find_modify_ne e, hr]

/-- **An event moves the status of a run along at most one edge.** -/
theorem next_status {ev : Event Row} (h : next config service s ev = some s')
    (hr : s.db.runs.find r = some run) :
    ∃ run', s'.db.runs.find r = some run' ∧ OneMove run.status run'.status := by
  rcases next_cases h with hq | ⟨x, a, -, -, ht⟩
  · exact ⟨run, hq.runs ▸ hr, .inl rfl⟩
  · exact ht.status hr

/-- **A terminal status stays**, over any run. -/
theorem terminal_stays {ok : State Row → Event Row → Prop}
    (h : Steps (next config service) ok s s') (hr : s.db.runs.find r = some run)
    (ht : run.isActive = false) :
    ∃ run', s'.db.runs.find r = some run' ∧ run'.status = run.status := by
  have ht' : run.status ≠ .queued ∧ run.status ≠ .running := by
    rwa [Bool.eq_false_iff, Ne, Db.isActive_iff, not_or] at ht
  refine h.invariant (I := fun t => ∃ run', t.db.runs.find r = some run' ∧
    run'.status = run.status) ?_ ⟨run, hr, rfl⟩
  rintro t u ev ⟨run₁, hr₁, e₁⟩ - hn
  obtain ⟨run₂, hr₂, hmove⟩ := next_status hn hr₁
  refine ⟨run₂, hr₂, ?_⟩
  rcases hmove with e₂ | hmove
  · rw [e₂, e₁]
  · rw [e₁] at hmove
    exact terminal_of_moves (.single hmove) ht'

end Status

/-! ### Completed runs -/

/-- **What a COMPLETED run owes to the source**: its batches are COMPLETED, its end watermark is its
start watermark, and the current live rows on its BINs are exactly the source rows on them at that
watermark, normalized. -/
def PublishedExactly (service : EcbRowService Row) (source : Nat → SourceDataset Row) (s : State Row)
    (r : RunId) : Prop :=
  (∀ b ∈ s.db.batches r, b.status = .completed) ∧
    ∃ run i, s.db.runs.find r = some run ∧ i ≤ s.instant ∧
      run.sourceWatermarkAtStart = some (watermarkAt source i) ∧
      run.sourceWatermarkAtEnd = run.sourceWatermarkAtStart ∧
      ∀ j, watermarkAt source j = watermarkAt source i →
        LiveMatchesSource service (source j).rows s.db r

section Completed

variable {s s' : State Row} {r : RunId}

/-- **The event that completes a run publishes it exactly.** -/
theorem Coherent.published (hI : Coherent columns service source s) {ev : Event Row}
    (hn : next config service s ev = some s')
    (hbefore : (s.db.runs.find r).map (·.status) ≠ some .completed)
    (hafter : (s'.db.runs.find r).map (·.status) = some .completed) :
    PublishedExactly service source s' r := by
  rcases next_cases hn with hq | ⟨x, a, rfl, -, ht⟩
  · rw [hq.runs] at hafter
    exact absurd hafter hbefore
  obtain ⟨a', -, -, hact⟩ := ht.act fun r hr => (hI.locked r x hr).2
  obtain ⟨-, outcome, hp⟩ := completes_by_publication hact.write hbefore hafter
  obtain ⟨run, hpub, hrun, hsnap, hstaging, hlive⟩ :=
    liveAgrees_published hI.sound.stamps hbefore hp
  obtain ⟨w, hw, he, hh⟩ := handedOver_of_publishable hpub
  obtain ⟨i, hi, rfl⟩ := hI.begun r run w hpub.found hpub.running hw
  have hbatches : s'.db.batches r = s.db.batches r := by
    rcases Db.acceptedTransaction_frame (Db.publish_ok hp) with e | ⟨_, _, _, -, -, e⟩
    · rw [e]
    · rw [e]
  refine ⟨hbatches ▸ hI.done r hh, Db.acceptedRun a'.publication.now run, i, hrun,
    ht.moved.instant ▸ hi, hw, hpub.guard.symm, fun j hj sourceId v hv => ?_⟩
  have hv' : v.bin ∈ Db.distinctBins (s.db.snapshot r) := hsnap ▸ hv
  calc (∃ live, s'.db.live.find sourceId = some live ∧ live.isCurrent = true ∧
          live.toNormalizedEcbViolation = v)
      ↔ (s'.db.staging r).find sourceId = some v := hlive sourceId v hv'
    _ ↔ (s.db.staging r).find sourceId = some v := by rw [hstaging]
    _ ↔ v.sourceId = sourceId ∧ ∃ row ∈ (source j).rows,
          service.normalizeEcbViolation row = some v :=
        hI.exact r _ j hh.inProgress he hj sourceId v hv'

/-- **Superseded executions and publications.**  Over every interleaving of any number of executions,
of which those without the lock may still land statements they have checked: a terminal status stays;
and while no step opens a batch of a run that is handed over, a run that becomes COMPLETED is
published exactly. -/
theorem superseded_publication_exact (hA : SourceAssumptions columns service source)
    (h : Steps (next config service)
      (fun s ev => AnsweredBy columns service source s ev ∧ SparesHandedOver config s ev) .initial s) :
    (∀ s', Steps (next config service) (fun _ _ => True) s s' →
      ∀ r run, s.db.runs.find r = some run → run.isActive = false →
        ∃ run', s'.db.runs.find r = some run' ∧ run'.status = run.status) ∧
    ∀ ev s', next config service s ev = some s' →
      ∀ r, (s.db.runs.find r).map (·.status) ≠ some .completed →
        (s'.db.runs.find r).map (·.status) = some .completed →
          PublishedExactly service source s' r := by
  have hI : Coherent columns service source s :=
    h.invariant (fun hI hok hn => coherent_next hA hI hok.1 hok.2 hn) coherent_initial
  exact ⟨fun s' hs r run hr ht => terminal_stays hs hr ht,
    fun ev s' hn r hbefore hafter => hI.published hn hbefore hafter⟩

end Completed

/-! ### An open batch -/

/-- No step opens a batch of a run whose batches are COMPLETED. -/
def SparesCompleted (config : ExecutorConfig) (s : State Row) : Event Row → Prop
  | .step x a => ∀ p ∈ openedBatch? config (s.met x a) (s.executions x),
      ∃ b ∈ s.db.batches p.1, b.status ≠ .completed
  | _ => True

instance (config : ExecutorConfig) (s : State Row) :
    (ev : Event Row) → Decidable (SparesCompleted config s ev)
  | .step x a =>
    inferInstanceAs (Decidable (∀ p ∈ openedBatch? config (s.met x a) (s.executions x),
      ∃ b ∈ s.db.batches p.1, b.status ≠ .completed))
  | .sourceChanges | .sessionEnds => inferInstanceAs (Decidable True)
  | .acquireLock .. | .passChecks _ | .findById _ | .crash _ => inferInstanceAs (Decidable True)
  | .createProperty .. | .applyEffectiveBinSet .. => inferInstanceAs (Decidable True)

/-- A run with an open batch is not handed over. -/
theorem Coherent.spares {s : State Row} (hI : Coherent columns service source s) {ev : Event Row}
    (h : SparesCompleted config s ev) : SparesHandedOver config s ev := by
  cases ev with
  | step x a =>
      intro p hp hh
      obtain ⟨b, hb, hs⟩ := h p hp
      exact hs (hI.done p.1 hh b hb)
  | _ => trivial

/-- A run whose steps open batches only next to open ones spares what is handed over. -/
theorem steps_spare (hA : SourceAssumptions columns service source) {s : State Row}
    (h : Steps (next config service)
      (fun s ev => AnsweredBy columns service source s ev ∧ SparesCompleted config s ev) .initial s) :
    Steps (next config service)
        (fun s ev => AnsweredBy columns service source s ev ∧ SparesHandedOver config s ev) .initial s ∧
      Coherent columns service source s := by
  induction h with
  | refl => exact ⟨.refl, coherent_initial⟩
  | tail _ hok hn ih =>
      obtain ⟨hsteps, hI⟩ := ih
      have hspare := hI.spares hok.2
      exact ⟨hsteps.tail ⟨hok.1, hspare⟩ hn, coherent_next hA hI hok.1 hspare hn⟩

/-! ### Two executions -/

/-- The sample violation, settled. -/
def settledViolation : NormalizedEcbViolation :=
  { sampleViolation with ecbViolationStatus := some "RESOLVE" }

/-- A source of one row, which changes at the second instant. -/
def settledSource : Nat → SourceDataset NormalizedEcbViolation
  | 0 => ⟨[sampleViolation], 7⟩
  | _ + 1 => ⟨[settledViolation], 8⟩

theorem settledSource_assumptions :
    SourceAssumptions plainColumns plainService settledSource where
  ids i := by cases i <;> simp [settledSource]
  sourceIds i row hrow row' hrow' _ _ _ _ _ := by
    cases i with
    | zero => rw [List.mem_singleton.mp hrow, List.mem_singleton.mp hrow']
    | succ i => rw [List.mem_singleton.mp hrow, List.mem_singleton.mp hrow']
  monotone i j h := by cases i <;> cases j <;> simp_all [settledSource]
  strict i j h hp := by cases i <;> cases j <;> simp_all [settledSource]

/-- Three attempts at a batch. -/
def threeAttempts : ExecutorConfig :=
  { smallConfig with
    maxBatchAttemptsPerRun := 3
    maxBatchAttemptsPerRun_pos := Nat.zero_lt_succ 2 }

/-- A step before the source changes. -/
def early (x : Nat) : Event NormalizedEcbViolation := .step x (quietAnswer 0 7 [sampleViolation])

/-- A step after the source has changed. -/
def late (x : Nat) : Event NormalizedEcbViolation := .step x (quietAnswer 0 8 [settledViolation])

/-- Another process registers the property. -/
def createOne : Event NormalizedEcbViolation :=
  .createProperty 0 ⟨"1000010001", ["1000001"], none, none, none, none, none, none, none⟩ 0

/-- The first execution loses its session with a row in hand.  The second resumes the run and fetches
the end watermark; only then the row is staged.  The source changes before the publication. -/
def lateRowRun : List (Event NormalizedEcbViolation) :=
  createOne :: .acquireLock 0 .manual :: List.replicate 13 (early 0) ++
    .sessionEnds :: .acquireLock 1 .manual :: List.replicate 13 (early 1) ++
      [early 0, .sourceChanges, late 1, late 1]

theorem superseded_publication_exact_lateRow : ∃ s s' : State NormalizedEcbViolation,
    next threeAttempts plainService s (late 1) = some s' ∧ s'.db.live.find "1" ≠ none ∧
      PublishedExactly plainService settledSource s' 0 := by
  have hs : ((Library.run (next threeAttempts plainService) .initial lateRowRun).bind fun s =>
      (next threeAttempts plainService s (late 1)).map fun s' =>
        ((s.db.runs.find 0).map (·.status), (s'.db.runs.find 0).map (·.status),
          (s'.db.live.find "1").isSome)) = some (some .running, some .completed, true) := by
    decide +kernel
  obtain ⟨s, hrun, hs⟩ := Option.bind_eq_some_iff.mp hs
  obtain ⟨s', hstep, hs⟩ := Option.map_eq_some_iff.mp hs
  simp only [Prod.mk.injEq] at hs
  have h := (steps_spare settledSource_assumptions (run_steps (by decide +kernel :
    RunOk (next threeAttempts plainService) (fun s ev => AnsweredBy plainColumns plainService
      settledSource s ev ∧ SparesCompleted threeAttempts s ev) .initial lateRowRun) hrun)).1
  exact ⟨s, s', hstep, Option.isSome_iff_ne_none.mp hs.2.2,
    (superseded_publication_exact settledSource_assumptions h).2 (late 1) s' hstep 0
      (by rw [hs.1]; simp) hs.2.1⟩

/-- The first execution loses its session before it sets the batch to RUNNING.  The second resumes the
run, completes the batch and fetches the end watermark; then the batch is set to RUNNING, the end
watermark is stored, and the publication refuses the run.  The second execution resumes the run once
more; the source changes, the batch is fetched again, and the metadata request of the hand-off fails.
A third time it finds the run ready. -/
def reopenedBatchRun : List (Event NormalizedEcbViolation) :=
  createOne :: .acquireLock 0 .manual :: List.replicate 10 (early 0) ++
    .sessionEnds :: .acquireLock 1 .manual :: List.replicate 13 (early 1) ++
      [early 0, early 1, early 1, .sessionEnds, .acquireLock 1 .manual] ++
        List.replicate 5 (early 1) ++ .sourceChanges :: List.replicate 7 (late 1) ++
          [.step 1 { quietAnswer 0 8 [] with metadata := .error "503" }, .sessionEnds,
            .acquireLock 1 .manual, late 1, late 1, late 1]

/-- **A batch that is opened late is published with the rows of a later watermark.** -/
theorem reopened_batch_publishes_later_rows : ∃ s s' : State NormalizedEcbViolation,
    SourceAssumptions plainColumns plainService settledSource ∧
    Steps (next threeAttempts plainService) (AnsweredBy plainColumns plainService settledSource)
      .initial s ∧
    next threeAttempts plainService s (late 1) = some s' ∧
    (s.db.runs.find 0).map (·.status) = some .running ∧
    (s'.db.runs.find 0).map (·.status) = some .completed ∧
    ¬ PublishedExactly plainService settledSource s' 0 := by
  have hs : ((Library.run (next threeAttempts plainService) .initial reopenedBatchRun).bind fun s =>
      (next threeAttempts plainService s (late 1)).map fun s' =>
        ((s.db.runs.find 0).map (·.status), (s'.db.runs.find 0).map (·.status),
          (s'.db.runs.find 0).bind (·.sourceWatermarkAtStart),
          (s'.db.live.find "1").map (·.toNormalizedEcbViolation),
          decide (sampleViolation.bin ∈ Db.distinctBins (s'.db.snapshot 0)))) =
      some (some .running, some .completed, some (watermarkAt settledSource 0),
        some settledViolation, true) := by
    decide +kernel
  obtain ⟨s, hrun, hs⟩ := Option.bind_eq_some_iff.mp hs
  obtain ⟨s', hstep, hs⟩ := Option.map_eq_some_iff.mp hs
  simp only [Prod.mk.injEq, decide_eq_true_eq] at hs
  obtain ⟨hbefore, hafter, hstart, hlive, hbin⟩ := hs
  refine ⟨s, s', settledSource_assumptions, run_steps (by decide +kernel) hrun, hstep, hbefore,
    hafter, ?_⟩
  rintro ⟨-, run, i, hr, -, hw, -, hmatches⟩
  rw [hr, Option.bind_some, hw, Option.some.injEq] at hstart
  -- the source row of the start watermark is not live
  obtain ⟨live, hl, -, e⟩ := (hmatches 0 hstart.symm "1" sampleViolation hbin).mpr
    ⟨rfl, sampleViolation, List.mem_singleton_self _, rfl⟩
  rw [hl, Option.map_some, e] at hlive
  exact absurd hlive (by decide)

end Supersession

end NycPropertyResolver
