import NycPropertyResolver.Ingestion.Completion

/-!
# Ingestion — a source that stands is published

The end to end theorem with its liveness.  Executions crash, resume and restart while the source
changes; from the execution that finds a source that stands, the run it completes leaves live exactly
the rows of that source on the BINs of its snapshot.
-/

namespace NycPropertyResolver

open Library

variable {Row : Type} {config : ExecutorConfig} {columns : SourceColumns Row}
  {service : EcbRowService Row} {source : Nat → SourceDataset Row}

/-! ### Statements -/

/-- **The runs created since a state** are those that agree with the source, the active ones among
them. -/
structure CreatedSince (columns : SourceColumns Row) (service : EcbRowService Row)
    (source : Nat → SourceDataset Row) (s₀ s : TrackedState Row) : Prop where
  kept : ∀ r, s.system.db.runs.find r = none → s₀.system.db.runs.find r = none
  active : ∀ r run, s.system.db.runs.find r = some run → run.isActive = true →
    s₀.system.db.runs.find r = none
  agrees : ∀ r, s₀.system.db.runs.find r = none → SourceInvariant columns service source r s

/-! ### Steps -/

section Steps

variable {s₀ s s' : TrackedState Row} {r : RunId} {w : Time}

/-- No run is deleted or becomes active again. -/
structure RunsGoOn (db db' : Db Row) : Prop where
  kept : ∀ r, db'.runs.find r = none → db.runs.find r = none
  active : ∀ r run', db'.runs.find r = some run' → run'.isActive = true →
    db.runs.find r = none ∨ ∃ run, db.runs.find r = some run ∧ run.isActive = true

theorem runsGoOn_next {t t' : SystemState Row} {ev : Event Row}
    (h : next config service t ev = some t') : RunsGoOn t.db t'.db := by
  have of_same : t'.db.runs = t.db.runs → RunsGoOn t.db t'.db := fun hruns =>
    ⟨fun r h => hruns ▸ h, fun r run' h ha => .inr ⟨run', hruns ▸ h, ha⟩⟩
  cases next_turn h with
  | acquired => exact of_same rfl
  | crashed => exact of_same rfl
  | created hc => exact of_same (createProperty_frame hc).runs
  | applied ha => exact of_same (applyEffectiveBinSet_frame ha).runs
  | stepped he =>
      refine ⟨fun r hnone => ?_, fun r run' hr' ha => ?_⟩
      · by_contra hfound
        obtain ⟨run, hr⟩ := Option.ne_none_iff_exists'.mp hfound
        obtain ⟨run', hr', -⟩ := row_write he.write hr
        rw [hnone] at hr'
        cases hr'
      · rcases row_before he.write hr' with ⟨hnone, -⟩ | ⟨run, hr, hchange⟩
        · exact .inl hnone
        · exact .inr ⟨run, hr, hchange.active ha⟩

/-- Between two executions, with no run active. -/
theorem CreatedSince.refl (h : Reachable config service s.system) {outcome : ExecutionOutcome}
    (hpc : s.system.executor = .stopped outcome)
    (hidle : ∀ r run, s.system.db.runs.find r = some run → run.isActive = false) :
    CreatedSince columns service source s s where
  kept _ h := h
  active r run hr ha := by
    rw [hidle r run hr] at ha
    cases ha
  agrees _ hr := sourceInvariant_of_absent h hpc hr

/-- **One event keeps it.** -/
theorem CreatedSince.next (hA : SourceAssumptions columns service source)
    (hI : CreatedSince columns service source s₀ s) {ev : TrackedEvent Row}
    (hans : AnsweredBy columns service source s ev)
    (h : trackedNext config service s ev = some s') :
    CreatedSince columns service source s₀ s' := by
  have hagrees : ∀ r, s₀.system.db.runs.find r = none →
      SourceInvariant columns service source r s' :=
    fun r hr => sourceInvariant_next hA (hI.agrees r hr) hans h
  cases ev with
  | sourceChanges =>
      cases h
      exact ⟨hI.kept, hI.active, hagrees⟩
  | system ev =>
      obtain ⟨t, hn, rfl⟩ := Option.map_eq_some_iff.mp h
      obtain ⟨hkept, hactive⟩ := runsGoOn_next hn
      refine ⟨fun r hr => hI.kept r (hkept r hr), fun r run hr ha => ?_, hagrees⟩
      rcases hactive r run hr ha with hnone | ⟨run₀, hr₀, ha₀⟩
      · exact hI.kept r hnone
      · exact hI.active r run₀ hr₀ ha₀

/-- The system of a tracked state is reachable. -/
theorem reachable_of_tracked (h₀ : Reachable config service s₀.system)
    (h : Steps (trackedNext config service) (AnsweredBy columns service source) s₀ s) :
    Reachable config service s.system := by
  refine h.invariant (I := fun t => Reachable config service t.system)
    (fun {t u ev} hI _ hn => ?_) h₀
  cases ev with
  | sourceChanges =>
      cases hn
      exact hI
  | system ev =>
      obtain ⟨t', hn', rfl⟩ := Option.map_eq_some_iff.mp hn
      exact hI.next hn'

/-- Transactions on properties need no answer of the source. -/
theorem trackedSteps_onProperty {t u : SystemState Row} {i : Nat}
    (h : Steps (next config service) (fun _ ev => ev.OnProperty) t u) :
    Steps (trackedNext config service) (AnsweredBy columns service source) ⟨t, i⟩ ⟨u, i⟩ := by
  induction h with
  | refl => exact .refl
  | @tail u v ev _ hev hs ih =>
      have hn : trackedNext config service ⟨u, i⟩ (.system ev) = some ⟨v, i⟩ := by
        rw [trackedNext, hs, Option.map_some]
      refine ih.tail ?_ hn
      cases ev <;> trivial

/-- A request that is served is answered by the source. -/
theorem Answer.Serves.answered {a : Answer Row} {dataset : SourceDataset Row} {db : Db Row}
    {pc : ExecutorState Row} (h : a.Serves columns service dataset db pc) :
    SourceAnswers columns service dataset pc a where
  metadata k hk := by
    rw [h.metadata] at hk
    exact (Option.some.inj hk).symm
  page attempt hattempt page hpage := by
    rw [h.page attempt hattempt] at hpage
    exact (Option.some.inj hpage).symm

/-- **The publication of a run that agrees with the source** makes its rows on the BINs of the
snapshot live. -/
theorem liveMatchesSource_of_publish {a : PublicationAnswer} {db db' : Db Row} {i : Nat}
    {outcome : AcceptedPublicationOutcome} {pc : ExecutorState Row}
    (hI : SourceInvariant columns service source r ⟨⟨db, pc⟩, i⟩) (hr : IsRunning db r)
    (h : db.publish a r = (db', .ok outcome)) (hw : CompletedAt db' r (watermarkAt source i)) :
    LiveMatchesSource service (source i).rows db' r := by
  obtain ⟨run₀, hr₀, hs₀, -⟩ := hr
  have hbefore : (db.runs.find r).map (·.status) ≠ some .completed := by
    rw [hr₀, Option.map_some, hs₀]
    simp
  obtain ⟨run, hpub, hrun, hsnap, hstaging, hlive⟩ := liveAgrees_published hI.stamps hbefore h
  obtain ⟨run', hr', -, hstart, hend⟩ := hw
  cases hrun.symm.trans hr'
  have hread := hI.accepted run _ hpub.found hpub.running hstart hend
  intro sourceId v hv
  calc (∃ live, db'.live.find sourceId = some live ∧ live.isCurrent = true ∧
          live.toNormalizedEcbViolation = v)
      ↔ (db'.staging r).find sourceId = some v := hlive sourceId v (hsnap ▸ hv)
    _ ↔ (db.staging r).find sourceId = some v := by rw [hstaging]
    _ ↔ _ := hread.exact i rfl sourceId v (hsnap ▸ hv)

end Steps

/-! ### Executions -/

section Executions

variable {s₀ s : TrackedState Row} {triggerType : IngestionTriggerType}

/-- The run of an execution is COMPLETED at the watermark of the source, and the source is live on its
BINs. -/
def Published (service : EcbRowService Row) (dataset : SourceDataset Row) (db₀ db : Db Row) : Prop :=
  ∃ r, WorksOn db₀ db r ∧ CompletedAt db r (rowsUpdatedAtToDate dataset.rowsUpdatedAt) ∧
    LiveMatchesSource service dataset.rows db r

/-- A turn that is served keeps what the runs agree with, and ends by publishing the source. -/
theorem CreatedSince.turn (hA : SourceAssumptions columns service source) {t t' : SystemState Row}
    {db₀ : Db Row} {i : Nat} (hsource : Ingestible config columns service (source i))
    (hcompleting : Completing config columns service (source i) t) (hin : IsExecuting t)
    (hI : CreatedSince columns service source s₀ ⟨t, i⟩) (hw : WorksSince db₀ t)
    (h : ServedTurn config columns service (source i) t t') :
    CreatedSince columns service source s₀ ⟨t', i⟩ ∧
      ∀ outcome, t'.executor = .stopped outcome → Published service (source i) db₀ t'.db := by
  obtain ⟨u, a, hst, ha, hn⟩ := h
  have hu : CreatedSince columns service source s₀ ⟨u, i⟩ :=
    (trackedSteps_onProperty hst).invariant (fun hI hans hn => hI.next hA hans hn) hI
  obtain ⟨hcompleting, hin⟩ := hcompleting.onProperty hin hst
  have hnext : trackedNext config service ⟨u, i⟩ (.system (.executor a)) = some ⟨t', i⟩ := by
    rw [trackedNext, hn, Option.map_some]
  refine ⟨hu.next hA ?_ hnext, fun outcome hout => ?_⟩
  · exact ha.answered
  · obtain ⟨r, published, hpc, hrunning, hp, hcompleted⟩ :=
      (hcompleting.step hsource hin ha hn).2 outcome hout
    have hr : u.executor.run? = some r := by rw [hpc]; rfl
    have hworks := ((hw.onProperty hst).run r hr).next hn hr
    obtain ⟨run, hr, hs, -⟩ := id hrunning
    have hagrees := hu.agrees r (hu.active r run hr (Db.isActive_iff.mpr (.inr hs)))
    exact ⟨r, hworks, hcompleted, liveMatchesSource_of_publish hagrees hrunning hp hcompleted⟩

/-- **A source that stands is published.**  The system runs from a state with no active run, over
every interleaving of source changes, failed requests, crashes and resumes.  When an execution takes
the lock and the source stands from then on, with an active run, if any, that is under its watermark
and has attempts left, the execution ends with that run, or with the one it has created, COMPLETED,
and the current live rows on the BINs of it are exactly the rows of the source on them, normalized.  From
then on the source can be ingested, no request and no statement fails, no lock is lost and no process
crashes. -/
theorem execution_publishes_source (hA : SourceAssumptions columns service source)
    (h₀ : Reachable config service s₀.system) {outcome₀ : ExecutionOutcome}
    (hpc : s₀.system.executor = .stopped outcome₀)
    (hidle : ∀ r run, s₀.system.db.runs.find r = some run → run.isActive = false)
    (h : Steps (trackedNext config service) (AnsweredBy columns service source) s₀ s)
    (hstart : s.system.executor = .started triggerType)
    (hsource : Ingestible config columns service (source s.instant))
    (hc : Completable config (watermarkAt source s.instant) none s.system.db)
    {trace : Nat → SystemState Row} (htrace₀ : trace 0 = s.system)
    (htrace : ∀ n, IsExecuting (trace n) →
      ServedTurn config columns service (source s.instant) (trace n) (trace (n + 1))) :
    ∃ n, (trace n).executor = .stopped .completed ∧
      Published service (source s.instant) s.system.db (trace n).db := by
  have hreachable : Reachable config service s.system := reachable_of_tracked h₀ h
  have hstarted : CreatedSince columns service source s₀ s :=
    h.invariant (fun hI hans hn => hI.next hA hans hn) (.refl h₀ hpc hidle)
  have hcompleting : Completing config columns service (source s.instant) (trace 0) := by
    rw [htrace₀]
    exact completing_started hreachable hstart hc
  obtain ⟨n, hI, ⟨-, -, hpublished⟩, outcome, hout⟩ := served_execution_ends hsource
    (J := fun t => (IsExecuting t → WorksSince s.system.db t) ∧
      CreatedSince columns service source s₀ ⟨t, s.instant⟩ ∧
      ∀ outcome, t.executor = .stopped outcome →
        Published service (source s.instant) s.system.db t.db)
    (fun hI hin hJ ht => ⟨(worksSince_turn hI.reachable (hJ.1 hin) ht.steady).1,
      hJ.2.1.turn hA hsource hI hin (hJ.1 hin) ht⟩) hcompleting
    (by
      rw [htrace₀]
      refine ⟨fun _ => .refl (progressInvariant_of_reachable hreachable), hstarted,
        fun outcome hout => ?_⟩
      rw [hstart] at hout
      cases hout) htrace
  have hcourse := hI.course
  rw [hout] at hcourse
  cases hcourse
  exact ⟨n, hout, hpublished _ hout⟩

end Executions

theorem singleSource_assumptions :
    SourceAssumptions plainColumns plainService fun _ => singleSource where
  ids _ := List.nodup_singleton _
  sourceIds _ row hrow row' hrow' _ _ _ _ _ := by
    rw [List.mem_singleton.mp hrow, List.mem_singleton.mp hrow']
  monotone _ _ _ := Nat.le_refl _
  strict _ _ _ hp := absurd (.refl _) hp

theorem execution_publishes_source_crashedAttemptRun : ∃ s : TrackedState NormalizedEcbViolation,
    Steps (trackedNext smallConfig plainService)
      (AnsweredBy plainColumns plainService fun _ => singleSource) ⟨.initial, 0⟩ s ∧
    (s.system.db.batches 0).map (fun b => (b.status, b.attemptCount)) = [(.running, 1)] ∧
    ∃ n, (servedTrace smallConfig plainColumns plainService singleSource s.system n).executor =
        .stopped .completed ∧
      Published plainService singleSource s.system.db
        (servedTrace smallConfig plainColumns plainService singleSource s.system n).db := by
  have hs : ((Library.run (trackedNext smallConfig plainService) ⟨.initial, 0⟩
      (crashedAttemptRun.map .system)).map fun s =>
        ((s.system.db.batches 0).map (fun b => (b.status, b.attemptCount)),
          decide (Completable smallConfig (rowsUpdatedAtToDate 7) none s.system.db),
          match s.system.executor with | .started .scheduled => true | _ => false)) =
      some ([(.running, 1)], true, true) := by decide +kernel
  obtain ⟨s, hrun, hs⟩ := Option.map_eq_some_iff.mp hs
  simp only [Prod.mk.injEq, decide_eq_true_eq] at hs
  obtain ⟨hbatches, hc, hstart⟩ := hs
  have h : Steps (trackedNext smallConfig plainService)
      (AnsweredBy plainColumns plainService fun _ => singleSource) ⟨.initial, 0⟩ s :=
    run_steps (by decide +kernel : RunOk _ _ _ (crashedAttemptRun.map .system)) hrun
  have hstart : s.system.executor = .started .scheduled := by
    split at hstart
    · assumption
    · cases hstart
  have hidle : ∀ r run, (SystemState.initial : SystemState NormalizedEcbViolation).db.runs.find r =
      some run → run.isActive = false := fun _ _ h => (nomatch h)
  exact ⟨s, h, hbatches, execution_publishes_source singleSource_assumptions
    (show Reachable smallConfig plainService _ from .refl) rfl hidle h hstart
    singleSource_ingestible hc rfl fun n => servedTrace_turn s.system n⟩

end NycPropertyResolver
