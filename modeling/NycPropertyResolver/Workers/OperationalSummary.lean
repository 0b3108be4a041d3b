import Mathlib.Algebra.BigOperators.Fin
import Mathlib.Algebra.Order.BigOperators.Group.Finset
import NycPropertyResolver.Clients.RequestAccounting
import NycPropertyResolver.Ingestion.Prepared
import NycPropertyResolver.Workers.Scheduler

/-!
# Workers — the operational summary

`createOperationalIngestionExecutor` of `workers/ingestion.worker.ts`: the summary of one execution,
read off the difference of the metrics of the two request executors and off the rows of the run.  The
differences count the requests that have settled in between, each once, and their retries apart
(`operational_summary_exact`).
-/

namespace NycPropertyResolver

open Library Finset

/-! ### The summary -/

/-- `RequestMetrics`. -/
structure RequestMetrics where
  requestCalls : Nat
  retryCalls : Nat
  deriving DecidableEq, Repr

/-- The difference, `Math.max(0, after - before)` of each. -/
def requestMetricsDelta (after before : RequestMetrics) : RequestMetrics where
  requestCalls := after.requestCalls - before.requestCalls
  retryCalls := after.retryCalls - before.retryCalls

/-- The counts of a run that are read from the database. -/
structure PersistedOperationalCounts where
  rowsFetched : Nat
  rowsWritten : Nat
  failedBatches : Nat
  deriving DecidableEq, Repr

variable {Row : Type}

/-- `loadPersistedOperationalCounts`. -/
def Db.loadPersistedOperationalCounts (db : Db Row) (runId : RunId) : PersistedOperationalCounts where
  rowsFetched := ((db.batches runId).map (·.rowsFetched)).sum
  rowsWritten := (db.staging runId).rows.length
  failedBatches := (db.batches runId).countP (·.status = .failed)

/-- The `operationalSummary` of an execution. -/
def operationalSummary (run : RunCounters) (counts : PersistedOperationalCounts)
    (dataMetrics metadataMetrics : RequestMetrics) : IngestionRunSummary where
  runId := run.id
  status := run.status
  binsScanned := run.expectedBinCount.getD 0
  socrataDataCalls := dataMetrics.requestCalls - dataMetrics.retryCalls
  socrataMetadataCalls := metadataMetrics.requestCalls - metadataMetrics.retryCalls
  socrataRetryCalls := dataMetrics.retryCalls + metadataMetrics.retryCalls
  socrataTotalCalls := dataMetrics.requestCalls + metadataMetrics.requestCalls
  rowsFetched := counts.rowsFetched
  rowsWritten := counts.rowsWritten
  failures := if run.status = .completed then 0 else max 1 counts.failedBatches

/-- `execute` of `createOperationalIngestionExecutor`, on the result of the runner. -/
def attachSummary (result : OperationalIngestionResult)
    (loadCounts : RunId → PersistedOperationalCounts)
    (dataBefore dataAfter metadataBefore metadataAfter : RequestMetrics) :
    OperationalIngestionResult :=
  match result with
  | .published outcome run _ => .published outcome run (some (operationalSummary run
      (loadCounts run.id) (requestMetricsDelta dataAfter dataBefore)
      (requestMetricsDelta metadataAfter metadataBefore)))
  | result => result

/-! ### The metrics of a request executor -/

namespace RequestExecutor

variable {V : Type} {executor : SocrataRequestExecutor} {s t : State V} {log log' : List Entry}

/-- `getMetrics`. -/
def State.getMetrics (s : State V) : RequestMetrics := ⟨s.totalRequestCalls, s.totalRetryCalls⟩

/-- The call `x` of `execute` has settled. -/
def settledAt (s : State V) (x : Nat) : Bool := (s.executes[x]?).any (·.phase.isFinished)

/-- The calls of `execute` that have settled. -/
def settledCalls (s : State V) : Finset Nat := (range s.executes.length).filter (settledAt s ·)

/-- **The calls of `execute` that settle on the way** from `s` to `t`. -/
def settledBetween (s t : State V) : Finset Nat := settledCalls t \ settledCalls s

theorem settledAt_iff {x : Nat} : settledAt s x = true ↔ Settled s x := by
  simp [settledAt, Settled, Option.any_eq_true]

theorem mem_settledCalls {x : Nat} : x ∈ settledCalls s ↔ Settled s x := by
  rw [settledCalls, mem_filter, settledAt_iff, mem_range]
  refine ⟨fun h => h.2, fun h => ⟨?_, h⟩⟩
  obtain ⟨e, he, -⟩ := h
  exact (List.getElem?_eq_some_iff.mp he).1

/-- A sum over the calls that have settled, by their log. -/
theorem sum_settled (h : Accounted executor s log) (f : Nat → Nat) :
    (s.executes.map fun e => if e.phase.isFinished then f e.requestCalls else 0).sum =
      ∑ x ∈ settledCalls s, f (log.count (.call x)) := by
  rw [settledCalls, sum_filter, sum_range, ← Fin.sum_univ_fun_getElem]
  refine sum_congr rfl fun x _ => ?_
  have he := List.getElem?_eq_getElem x.isLt
  simp only [settledAt, he, Option.any_some, h.counted he]

/-- **The metrics are the settled calls** of the log. -/
theorem getMetrics_eq (h : Accounted executor s log) :
    s.getMetrics = ⟨∑ x ∈ settledCalls s, log.count (.call x),
      ∑ x ∈ settledCalls s, (log.count (.call x) - 1)⟩ := by
  have hrequests := sum_settled h id
  have hretries := sum_settled h (· - 1)
  rw [State.getMetrics, h.requests, h.retries]
  exact congrArg₂ RequestMetrics.mk hrequests hretries

/-- What has settled stays so, along a run. -/
theorem settledCalls_subset (h : Steps (loggedNext executor) (fun _ _ => True) (s, log) (t, log')) :
    settledCalls s ⊆ settledCalls t := by
  intro x hx
  refine mem_settledCalls.mpr (h.invariant (I := fun p => Settled p.1 x) (fun {p q ev} hI _ hn => ?_)
    (mem_settledCalls.mp hx))
  obtain ⟨u, hu, rfl⟩ := Option.map_eq_some_iff.mp hn
  exact hI.turn (turn_of_next hu)

/-- The calls of `execute` among `S` whose operation was called. -/
def sentCalls (S : Finset Nat) (log : List Entry) : Nat := #{x ∈ S | Entry.call x ∈ log}

/-- The retries of the calls of `execute` among `S`: the calls of their operation but for the first. -/
def retryCalls (S : Finset Nat) (log : List Entry) : Nat := ∑ x ∈ S, (log.count (.call x) - 1)

/-- The calls of an operation are its first call, if there is one, and its retries. -/
theorem sum_calls (S : Finset Nat) (log : List Entry) :
    ∑ x ∈ S, log.count (.call x) = sentCalls S log + retryCalls S log := by
  rw [sentCalls, retryCalls, card_filter, ← sum_add_distrib]
  refine sum_congr rfl fun x _ => ?_
  split
  · rename_i hmem
    exact (Nat.add_sub_cancel' (List.count_pos_iff.mpr hmem)).symm
  · rename_i hnot
    rw [List.count_eq_zero.mpr hnot]

/-- **The difference of the metrics** is what has settled in between, and nothing is cut off. -/
theorem requestMetricsDelta_eq (h : Logged executor s log)
    (hrun : Steps (loggedNext executor) (fun _ _ => True) (s, log) (t, log')) :
    requestMetricsDelta t.getMetrics s.getMetrics =
      ⟨sentCalls (settledBetween s t) log' + retryCalls (settledBetween s t) log',
        retryCalls (settledBetween s t) log'⟩ := by
  have hsub := settledCalls_subset hrun
  have hbefore : ∀ f : Nat → Nat, ∑ x ∈ settledCalls s, f (log.count (.call x)) =
      ∑ x ∈ settledCalls s, f (log'.count (.call x)) := fun f =>
    sum_congr rfl fun x hx => by rw [count_of_settled h (mem_settledCalls.mp hx) hrun]
  have hsplit : ∀ f : Nat → Nat, ∑ x ∈ settledBetween s t, f x + ∑ x ∈ settledCalls s, f x =
      ∑ x ∈ settledCalls t, f x := fun f => sum_sdiff hsub
  rw [getMetrics_eq (accounted_of_logged h), getMetrics_eq (accounted_of_logged (h.trans hrun)),
    hbefore (· - 1), show ∑ x ∈ settledCalls s, log.count (.call x) = _ from hbefore id,
    requestMetricsDelta, ← sum_calls, retryCalls]
  simp only [id_eq, ← hsplit, Nat.add_sub_cancel]

end RequestExecutor

/-! ### The summary is exact -/

open RequestExecutor

variable {config : ExecutorConfig} {service : EcbRowService Row}
  {s : SystemState Row}

/-- A run that has completed has no failed batch. -/
theorem failedBatches_of_completed (h : Reachable config service s) {r : RunId} {run : IngestionRun}
    (hrun : s.db.runs.find r = some run) (hstatus : run.status = .completed) :
    (s.db.loadPersistedOperationalCounts r).failedBatches = 0 := by
  have hI := (systemInvariant_of_steps h systemInvariant_initial).lifecycle.runs r run hrun
  obtain ⟨-, -, hbatches⟩ := hI.completed hstatus
  refine List.countP_eq_zero.mpr fun b hb => ?_
  simp [(hbatches b hb).1]

variable {V U : Type} {data metadata : SocrataRequestExecutor} {d d' : State V} {m m' : State U}
  {dataLog dataLog' metadataLog metadataLog' : List Entry}

/-- The BINs of the snapshot of a run that has ended are counted. -/
theorem expectedBinCount_of_ended (h : Reachable config service s) {r : RunId} {run : IngestionRun}
    (hrun : s.db.runs.find r = some run) (hended : run.isActive = false) :
    run.expectedBinCount = some (Db.distinctBins (s.db.snapshot r)).size := by
  have hI := progressInvariant_of_reachable h
  have hinitialized := hI.records.ended r run hrun hended
  exact ((hI.attempt.batch.system.lifecycle.runs r run hrun).counts hinitialized).2.1

/-- **The operational summary is exact.**  An execution that has published a run reads the metrics of
two request executors, each shared with whatever else the process does, before and after.  The data and
metadata calls its result reports are the calls of `execute` that settled in between and whose operation
was called, each counted once however often it was retried; the retries are what their operations were
called beyond that; the total is the sum of the three, so nothing is lost to the clamps at zero.  It
reports no failure exactly when its run is COMPLETED, and then no batch of the run has failed; the BINs
it reports are those of the snapshot. -/
theorem operational_summary_exact (hd : Logged data d dataLog)
    (hd' : Steps (loggedNext data) (fun _ _ => True) (d, dataLog) (d', dataLog'))
    (hm : Logged metadata m metadataLog)
    (hm' : Steps (loggedNext metadata) (fun _ _ => True) (m, metadataLog) (m', metadataLog'))
    (hs : Reachable config service s) {run : IngestionRun} {result : RunCounters}
    (hrun : s.db.runs.find result.id = some run) (hended : run.isActive = false)
    (hstatus : result.status = run.status) (hcount : result.expectedBinCount = run.expectedBinCount)
    (outcome : PublishedOutcome) (previous : Option IngestionRunSummary) :
    ∃ summary, attachSummary (.published outcome result previous) s.db.loadPersistedOperationalCounts
        d.getMetrics d'.getMetrics m.getMetrics m'.getMetrics =
          .published outcome result (some summary) ∧
      summary.runId = result.id ∧ summary.status = run.status ∧
      summary.socrataDataCalls = sentCalls (settledBetween d d') dataLog' ∧
      summary.socrataMetadataCalls = sentCalls (settledBetween m m') metadataLog' ∧
      summary.socrataRetryCalls =
        retryCalls (settledBetween d d') dataLog' + retryCalls (settledBetween m m') metadataLog' ∧
      summary.socrataTotalCalls = summary.socrataDataCalls + summary.socrataMetadataCalls +
        summary.socrataRetryCalls ∧
      summary.binsScanned = (Db.distinctBins (s.db.snapshot result.id)).size ∧
      (summary.failures = 0 ↔ run.status = .completed) ∧
      (run.status = .completed →
        (s.db.loadPersistedOperationalCounts result.id).failedBatches = 0) := by
  refine ⟨_, rfl, rfl, hstatus, ?_⟩
  simp only [operationalSummary, requestMetricsDelta_eq hd hd', requestMetricsDelta_eq hm hm',
    hcount, expectedBinCount_of_ended hs hrun hended, hstatus, Option.getD_some]
  simp only [Nat.add_sub_cancel]
  refine ⟨trivial, trivial, trivial, Nat.add_add_add_comm _ _ _ _, trivial, ?_,
    failedBatches_of_completed hs hrun⟩
  · constructor
    · intro h
      by_contra hne
      rw [if_neg hne] at h
      exact absurd h (Nat.ne_of_gt (Nat.lt_of_lt_of_le Nat.one_pos (Nat.le_max_left _ _)))
    · intro h
      rw [if_pos h]

/-- One call that is retried, another that is aborted before it is sent, and a run that completes. -/
theorem operational_summary_exact_retriedEvents :
    ∃ (d : State Nat) (log : List Entry) (s : SystemState NormalizedEcbViolation)
      (run : IngestionRun) (result : RunCounters) (summary : IngestionRunSummary),
      Logged defaultExecutor d log ∧ Reachable smallConfig plainService s ∧
      s.db.runs.find 0 = some run ∧ run.status = .completed ∧
      attachSummary (.published .completed result none) s.db.loadPersistedOperationalCounts
        (State.initial Nat).getMetrics d.getMetrics (State.initial Unit).getMetrics
          (State.initial Unit).getMetrics = .published .completed result (some summary) ∧
      summary.socrataDataCalls = sentCalls (settledBetween (State.initial Nat) d) log ∧
      summary.socrataRetryCalls = retryCalls (settledBetween (State.initial Nat) d) log ∧
      summary.binsScanned = (Db.distinctBins (s.db.snapshot 0)).size ∧ summary.failures = 0 := by
  have hd : (Library.run (loggedNext defaultExecutor) (State.initial Nat, []) retriedEvents).isSome =
      true := by decide +kernel
  obtain ⟨⟨d, log⟩, hd⟩ := Option.isSome_iff_exists.mp hd
  have hlogged : Logged defaultExecutor d log := run_steps (runOk_trivial _ _) hd
  have hs : (Library.run (next smallConfig plainService) .initial completedRun).isSome = true := by
    decide +kernel
  obtain ⟨s, hs⟩ := Option.isSome_iff_exists.mp hs
  have hreachable : Reachable smallConfig plainService s := run_steps (runOk_trivial _ _) hs
  have hc : ((Library.run (next smallConfig plainService) .initial completedRun).bind fun s =>
      (s.db.runs.find 0).map (·.status)) = some .completed := by decide +kernel
  rw [hs, Option.bind_some] at hc
  obtain ⟨run, hrun, hstatus⟩ := Option.map_eq_some_iff.mp hc
  have hended : run.isActive = false := by simp [IngestionRun.isActive, hstatus]
  let result : RunCounters := ⟨0, run.status, run.expectedBinCount, 0, 0, 0, 0, 0, 0, 0, 0⟩
  have hresult : s.db.runs.find result.id = some run := hrun
  have hidle : Logged defaultExecutor (State.initial Unit) [] := .refl
  obtain ⟨summary, hattached, -, -, hdata, -, hretries, -, hbins, hfailures, -⟩ :=
    operational_summary_exact .refl hlogged hidle .refl hreachable hresult hended rfl rfl .completed
      none
  refine ⟨d, log, s, run, result, summary, hlogged, hreachable, hrun, hstatus, hattached, hdata,
    hretries.trans ?_, hbins, hfailures.mpr hstatus⟩
  exact Nat.add_zero _

end NycPropertyResolver
