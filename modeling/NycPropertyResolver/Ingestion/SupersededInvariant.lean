import NycPropertyResolver.Ingestion.SupersededSteps

/-!
# Ingestion — what several executions preserve

While no step opens a batch of a run that is handed over, the staging rows of the run are exact from
the moment an end watermark equal to its start watermark is fetched, and every row that may be staged
later is one of the source at that watermark (`Coherent`).  An event is a step of one execution, or
leaves the runs alone (`next_cases`); each field of the invariant is kept by both.
-/

namespace NycPropertyResolver

open Library

variable {Row : Type} {config : ExecutorConfig} {columns : SourceColumns Row}
  {service : EcbRowService Row} {source : Nat → SourceDataset Row}

theorem IdentityFrame.refl (db : Db Row) : IdentityFrame db db :=
  ⟨db.properties, db.propertyBins, db.coverage, rfl⟩

theorem SourceAnswers.congr {dataset : SourceDataset Row} {pc : ExecutorState Row}
    {a a' : Answer Row}
    (h : SourceAnswers columns service dataset pc a) (hm : a'.metadata = a.metadata)
    (hp : a'.page = a.page) : SourceAnswers columns service dataset pc a' :=
  ⟨by rw [hm]; exact h.metadata, by rw [hp]; exact h.page⟩

namespace Supersession

/-! ### The invariant -/

/-- The row an execution may stage without another check. -/
def pendingRow? (may : Bool) : ExecutorState Row → Option Row
  | .processingRows _ _ remaining => if may then remaining.head? else none
  | .stagingRow _ _ row _ _ => some row
  | _ => none

/-- With more authority no fewer rows are pending. -/
theorem pendingRow?_mono {may may' : Bool} {pc : ExecutorState Row} {row : Row}
    (hmay : may = true → may' = true) (h : pendingRow? may pc = some row) :
    pendingRow? may' pc = some row := by
  cases pc with
  | processingRows =>
      simp only [pendingRow?] at h ⊢
      split at h
      · rename_i hact
        rw [if_pos (hmay hact)]
        exact h
      · cases h
  | _ => exact h

/-- **What holds of several executions**, whichever of them may act. -/
structure Coherent (columns : SourceColumns Row) (service : EcbRowService Row)
    (source : Nat → SourceDataset Row) (s : State Row) : Prop where
  sound : Sound s.db
  works : ∀ x r, (s.executions x).state.runningRun? = some r → HasStarted s.db r
  attempts : ∀ x attempt, (s.executions x).state.attempt? = some attempt → AttemptsBatch s.db attempt
  remembers : ∀ x r startWatermark endWatermark,
    (s.executions x).state = .endWatermarkFetched r startWatermark endWatermark →
      (s.db.runs.find r).bind (·.sourceWatermarkAtStart) = some startWatermark
  fetched : ∀ x r rowsUpdatedAt, (s.executions x).state = .startWatermarkFetched r rowsUpdatedAt →
    ∃ i ≤ s.instant, (source i).rowsUpdatedAt = rowsUpdatedAt
  begun : ∀ r run w, s.db.runs.find r = some run → run.status = .running →
    run.sourceWatermarkAtStart = some w → ∃ i ≤ s.instant, watermarkAt source i = w
  standing : ∀ r run, s.db.runs.find r = some run → run.status = .running →
    run.sourceWatermarkAtStart = some (watermarkAt source s.instant) →
      ∀ x, StagingAgrees columns service (source s.instant).rows s.db r (s.executions x).state
  done : ∀ r, HandedOver s r → ∀ b ∈ s.db.batches r, b.status = .completed
  outside : ∀ r n x, HandedOver s r → s.holder = some x → (s.executions x).state.batch? ≠ some (r, n)
  exact : ∀ r w i, InProgress s.db r → EndsAt s r w → watermarkAt source i = w →
    StagingExact service (source i).rows s.db r
  pending : ∀ r w i, InProgress s.db r → EndsAt s r w → watermarkAt source i = w →
    ∀ x row, (s.executions x).state.runningRun? = some r →
      pendingRow? (s.mayAct x) (s.executions x).state = some row → row ∈ (source i).rows
  locked : ∀ r x, s.rowLock r = some x →
    (s.executions x).state = .readyForPublication r ∧ Validated s.db r

theorem coherent_initial : Coherent columns service source (State.initial : State Row) where
  sound := sound_empty
  works _ _ h := nomatch h
  attempts _ _ h := nomatch h
  remembers _ _ _ _ h := nomatch h
  fetched _ _ _ h := nomatch h
  begun _ _ _ h := nomatch h
  standing _ _ h := nomatch h
  done _ h := by
    obtain ⟨⟨_, h, -⟩, -⟩ | ⟨⟨_, h, -⟩, -⟩ := h
    · exact nomatch h
    · exact nomatch h
  outside _ _ _ _ h := nomatch h
  exact _ _ _ h := by
    obtain ⟨_, h, -⟩ := h
    cases h
  pending _ _ _ h := by
    obtain ⟨_, h, -⟩ := h
    cases h
  locked _ _ h := nomatch h

/-! ### Events beside the steps -/

/-- An execution that is at no run. -/
def Idle : ExecutorState Row → Prop
  | .stopped _ | .started _ => True
  | _ => False

/-- Nothing happens to the runs, and an execution goes on where it is or is idle. -/
structure Quiet (s s' : State Row) : Prop where
  db : IdentityFrame s.db s'.db
  instant : s.instant ≤ s'.instant
  state : ∀ x, Idle (s'.executions x).state ∨ (s'.executions x).state = (s.executions x).state
  mayAct : ∀ x, Idle (s'.executions x).state ∨ (s'.mayAct x = true → s.mayAct x = true)
  holder : ∀ x, Idle (s'.executions x).state ∨ (s'.holder = some x → s.holder = some x)
  rowLock : ∀ r x, s'.rowLock r = some x → s.rowLock r = some x ∧
    ((∃ outcome, (s.executions x).state = .stopped outcome) ∨
      (s'.executions x).state = (s.executions x).state)

section Quiet

variable {s s' : State Row} {r : RunId} {x : Nat}

theorem Idle.runningRun? {pc : ExecutorState Row} (h : Idle pc) : pc.runningRun? = none := by
  cases pc <;> first | rfl | cases h

/-- An execution that is at a run was there. -/
theorem Quiet.same (h : Quiet s s') {pc : ExecutorState Row} (hpc : (s'.executions x).state = pc)
    (hidle : ¬ Idle pc) : (s.executions x).state = pc ∧ (s'.mayAct x = true → s.mayAct x = true) ∧
      (s'.holder = some x → s.holder = some x) := by
  subst hpc
  exact ⟨((h.state x).resolve_left hidle).symm, (h.mayAct x).resolve_left hidle,
    (h.holder x).resolve_left hidle⟩

theorem Quiet.runs (h : Quiet s s') : s'.db.runs = s.db.runs := h.db.runs

theorem Quiet.batches (h : Quiet s s') : s'.db.batches = s.db.batches := by
  obtain ⟨_, _, _, e⟩ := h.db
  rw [e]

theorem Quiet.staging (h : Quiet s s') : s'.db.staging = s.db.staging := by
  obtain ⟨_, _, _, e⟩ := h.db
  rw [e]

theorem Quiet.snapshot (h : Quiet s s') : s'.db.snapshot = s.db.snapshot := by
  obtain ⟨_, _, _, e⟩ := h.db
  rw [e]

theorem Quiet.inProgress (h : Quiet s s') (hr : InProgress s'.db r) : InProgress s.db r := by
  obtain ⟨run, hr, hs⟩ := hr
  exact ⟨run, h.runs ▸ hr, hs⟩

theorem Quiet.endsAt (h : Quiet s s') {w : Time} (he : EndsAt s' r w) : EndsAt s r w := by
  cases he with
  | fetched x hx => exact .fetched x (h.same hx id).1
  | stored run hr hstart hend => exact .stored run (h.runs ▸ hr) hstart hend

theorem Quiet.handedOver (h : Quiet s s') (hh : HandedOver s' r) : HandedOver s r := by
  cases hh with
  | finalizing hr x hx hact =>
      obtain ⟨hpc, hmay, -⟩ := h.same hx id
      exact .finalizing (h.inProgress hr) x hpc (hmay hact)
  | ending hr w he => exact .ending (h.inProgress hr) w (h.endsAt he)

theorem Quiet.validated (h : Quiet s s') (hv : Validated s.db r) : Validated s'.db r := by
  obtain ⟨_, _, _, e⟩ := h.db
  rw [e]
  exact hv

/-- **Such an event keeps the invariant.** -/
theorem Coherent.quiet (hA : SourceAssumptions columns service source)
    (hI : Coherent columns service source s) (h : Quiet s s') :
    Coherent columns service source s' where
  sound := hI.sound.of_identityFrame h.db
  works x r hr := by
    have hidle : ¬ Idle (s'.executions x).state := fun hi => by
      rw [hi.runningRun?] at hr
      cases hr
    obtain ⟨run, hrun, hw⟩ := hI.works x r ((h.same rfl hidle).1 ▸ hr)
    exact ⟨run, h.runs ▸ hrun, hw⟩
  attempts x attempt ha := by
    have hidle : ¬ Idle (s'.executions x).state := fun hi => by
      have hr := runningRun?_of_attempt? ha
      rw [hi.runningRun?] at hr
      cases hr
    have hb := hI.attempts x attempt ((h.same rfl hidle).1 ▸ ha)
    rwa [AttemptsBatch, h.batches]
  remembers x r startWatermark endWatermark hx := by
    rw [h.runs]
    exact hI.remembers x r startWatermark endWatermark (h.same hx id).1
  fetched x r k hx := by
    obtain ⟨i, hi, e⟩ := hI.fetched x r k (h.same hx id).1
    exact ⟨i, hi.trans h.instant, e⟩
  begun r run w hr hs hw := by
    obtain ⟨i, hi, e⟩ := hI.begun r run w (h.runs ▸ hr) hs hw
    exact ⟨i, hi.trans h.instant, e⟩
  standing r run hr hs hw x := by
    rw [h.runs] at hr
    -- an earlier instant had the same watermark, so that the source stands still
    obtain ⟨i, hi, e⟩ := hI.begun r run _ hr hs hw
    have h₁ := hA.monotone i s.instant hi
    have h₂ := hA.monotone s.instant s'.instant h.instant
    have h₃ := watermarkAt_eq e
    have h₄ : (source s.instant).rowsUpdatedAt = (source s'.instant).rowsUpdatedAt :=
      Nat.le_antisymm h₂ (h₃ ▸ h₁)
    have hold := hI.standing r run hr hs (by rw [hw, watermarkAt, ← h₄, watermarkAt]) x
    refine (hold.of_same (congrFun h.staging r) ?_ fun hpc => ?_).of_source hA h₄
    · rw [h.batches]
      exact fun b hb hs => ⟨b, hb, hs, rfl⟩
    · have hidle : ¬ Idle (s'.executions x).state := fun hi => by
        rw [hi.runningRun?] at hpc
        cases hpc
      have hx := (h.same rfl hidle).1
      rw [← hx] at hpc ⊢
      exact hold.attempt hpc
  done r hh := by
    rw [h.batches]
    exact hI.done r (h.handedOver hh)
  outside r n x hh hx hb := by
    have hidle : ¬ Idle (s'.executions x).state := fun hi => by
      have hr := runningRun?_of_batch? hb
      rw [hi.runningRun?] at hr
      cases hr
    obtain ⟨hpc, -, hholder⟩ := h.same rfl hidle
    exact hI.outside r n x (h.handedOver hh) (hholder hx) (hpc ▸ hb)
  exact r w i hr he hi := by
    exact (hI.exact r w i (h.inProgress hr) (h.endsAt he) hi).of_same (congrFun h.snapshot r)
      (congrFun h.staging r)
  pending r w i hr he hi x row hx hrow := by
    have hidle : ¬ Idle (s'.executions x).state := fun hidle => by
      rw [hidle.runningRun?] at hx
      cases hx
    obtain ⟨hpc, hmay, -⟩ := h.same rfl hidle
    rw [← hpc] at hx hrow
    exact hI.pending r w i (h.inProgress hr) (h.endsAt he) hi x row hx (pendingRow?_mono hmay hrow)
  locked r x hx := by
    obtain ⟨hold, ⟨outcome, hpc⟩ | hpc⟩ := h.rowLock r x hx
    · -- an execution that is stopped has locked no row
      rw [(hI.locked r x hold).1] at hpc
      cases hpc
    · obtain ⟨hready, hv⟩ := hI.locked r x hold
      exact ⟨hpc.trans hready, h.validated hv⟩

end Quiet

section Events

variable {s s' : State Row} {x : Nat}

theorem Quiet.of_identityFrame {db' : Db Row} (h : IdentityFrame s.db db') :
    Quiet s { s with db := db' } where
  db := h
  instant := Nat.le_refl _
  state _ := .inr rfl
  mayAct _ := .inr id
  holder _ := .inr id
  rowLock _ _ h := ⟨h, .inr rfl⟩

/-- An execution stays where it is. -/
theorem Quiet.of_update {e : Execution Row} (hstate : e.state = (s.executions x).state)
    (hact : e.passed = true → s.mayAct x = true) :
    Quiet s { s with executions := Function.update s.executions x e } := by
  have same : ∀ y, (Function.update s.executions x e y).state = (s.executions y).state := by
    intro y
    by_cases hy : y = x
    · subst hy
      rw [Function.update_self, hstate]
    · rw [Function.update_of_ne hy]
  refine ⟨.refl _, Nat.le_refl _, fun y => .inr (same y), fun y => .inr fun hy => ?_,
    fun _ => .inr id, fun _ y h => ⟨h, .inr (same y)⟩⟩
  by_cases e : y = x
  · subst e
    simp only [State.mayAct, Function.update_self, Bool.or_eq_true] at hy
    rcases hy with hy | hy
    · simp only [State.mayAct, hy, Bool.true_or]
    · exact hact hy
  · simpa only [State.mayAct, Function.update_of_ne e] using hy

/-- An execution gets idle. -/
theorem Quiet.of_idle {pc : ExecutorState Row} {holder : Option Nat} {rowLock : RunId → Option Nat}
    (hidle : Idle pc) (hholder : ∀ y, y ≠ x → holder = some y → s.holder = some y)
    (hlock : ∀ r y, rowLock r = some y → s.rowLock r = some y ∧
      ((∃ outcome, (s.executions y).state = .stopped outcome) ∨ y ≠ x)) :
    Quiet s { s.after x (s.db, pc) with holder := holder, rowLock := rowLock } := by
  have idle : Idle (Function.update s.executions x ⟨pc, false, none⟩ x).state := by
    rwa [Function.update_self]
  refine ⟨.refl _, Nat.le_refl _, fun y => ?_, fun y => ?_, fun y => ?_, fun r y hy => ?_⟩
  · by_cases e : y = x
    · exact .inl (e ▸ idle)
    · exact .inr (by simp only [State.after, Function.update_of_ne e])
  · by_cases e : y = x
    · exact .inl (e ▸ idle)
    · refine .inr fun hy => ?_
      simp only [State.mayAct, State.after, Function.update_of_ne e, Bool.or_eq_true,
        decide_eq_true_eq] at hy ⊢
      exact hy.imp_left (hholder y e)
  · by_cases e : y = x
    · exact .inl (e ▸ idle)
    · exact .inr (hholder y e)
  · obtain ⟨hold, hstopped | e⟩ := hlock r y hy
    · exact ⟨hold, .inl hstopped⟩
    · exact ⟨hold, .inr (by simp only [State.after, Function.update_of_ne e])⟩

/-- **An event is a step of an execution, or beside the steps.** -/
theorem next_cases {ev : Event Row} (h : next config service s ev = some s') :
    Quiet s s' ∨ ∃ x a, ev = .step x a ∧ s.waits x = false ∧
      Turn config service (s.met x a) s x s' := by
  cases ev with
  | sourceChanges =>
      cases h
      exact .inl ⟨.refl _, Nat.le_succ _, fun _ => .inr rfl, fun _ => .inr id, fun _ => .inr id,
        fun _ _ h => ⟨h, .inr rfl⟩⟩
  | acquireLock x triggerType =>
      simp only [next] at h
      split at h
      · rename_i hnone hpc
        cases h
        refine .inl (.of_idle trivial (fun y hy e => absurd (Option.some.inj e).symm hy)
          fun r y hy => ⟨hy, ?_⟩)
        by_cases e : y = x
        · exact .inl ⟨_, e ▸ hpc⟩
        · exact .inr e
      · cases h
  | passChecks x =>
      simp only [next] at h
      split at h
      · rename_i hx
        cases h
        exact .inl (.of_update rfl fun _ => by simp [State.mayAct, hx])
      · cases h
  | findById x =>
      simp only [next] at h
      split at h
      · rename_i r n hpc
        split at h
        · obtain ⟨existing, -, rfl⟩ := Option.map_eq_some_iff.mp h
          exact .inl (.of_update hpc.symm fun h => by cases h)
        · cases h
      · cases h
  | step x a =>
      simp only [next] at h
      split at h
      · cases h
      · rename_i hw
        exact .inr ⟨x, a, rfl, Bool.eq_false_of_not_eq_true hw, stepNext_turn h⟩
  | sessionEnds =>
      cases h
      exact .inl ⟨.refl _, Nat.le_refl _, fun _ => .inr rfl,
        fun _ => .inr (by simp +contextual [State.mayAct]), fun _ => .inr fun h => (by cases h),
        fun _ _ h => ⟨h, .inr rfl⟩⟩
  | crash x =>
      cases h
      refine .inl (.of_idle trivial (fun y _ hy => ?_) fun r y hy => ?_)
      · split at hy
        · cases hy
        · exact hy
      · split at hy
        · cases hy
        · rename_i hne
          exact ⟨hy, .inr (by rintro rfl; exact hne hy)⟩
  | createProperty propertyId input now =>
      simp only [next] at h
      split at h
      · cases h
        exact .inl (.of_identityFrame (createProperty_frame ‹_›))
      · cases h
  | applyEffectiveBinSet propertyId candidateBins =>
      simp only [next] at h
      split at h
      · cases h
        exact .inl (.of_identityFrame (applyEffectiveBinSet_frame ‹_›))
      · cases h

end Events

/-! ### Steps -/

/-- A step of one execution, with what it owes to its authority and to the row locks. -/
structure Stepped (config : ExecutorConfig) (columns : SourceColumns Row)
    (service : EcbRowService Row) (source : Nat → SourceDataset Row) (s : State Row) (x : Nat)
    (s' : State Row) : Prop where
  moved : Moved s x s'
  act : ∃ a, SourceAnswers columns service (source s.instant) (s.executions x).state a ∧
    Act config service a s.db (s.executions x).state s'.db (s'.executions x).state
  ending : ∀ r startWatermark endWatermark,
    (s'.executions x).state = .endWatermarkFetched r startWatermark endWatermark →
      s.mayAct x = true
  taking : ∀ attempt page row sourceId rest,
    (s'.executions x).state = .stagingRow attempt page row sourceId rest → s.mayAct x = true
  staysDone : ∀ r run, HandedOver s r → s.db.runs.find r = some run →
    run.initializationComplete = true → List.Forall₂ StaysDone (s.db.batches r) (s'.db.batches r)
  waited : ∀ r y, (s.executions x).state.runRow? = some r → s.rowLock r = some y → y = x
  rowLock : ∀ r y, s'.rowLock r = some y → y ≠ x ∧ s.rowLock r = some y ∨
    y = x ∧ (s'.executions x).state = .readyForPublication r ∧ Validated s'.db r

section Steps

variable {s s' : State Row} {x : Nat} {a : Answer Row} {r : RunId}

theorem State.met_metadata : (s.met x a).metadata = a.metadata := by
  unfold State.met
  split <;> rfl

theorem State.met_page : (s.met x a).page = a.page := by
  unfold State.met
  split <;> rfl

theorem State.waited (h : s.waits x = false) {y : Nat} (hpc : (s.executions x).state.runRow? = some r)
    (hlock : s.rowLock r = some y) : y = x := by
  simpa [State.waits, hpc, hlock] using h

/-- The row locks after a turn. -/
theorem Turn.rowLock (hI : Coherent columns service source s)
    (h : Turn config service (s.met x a) s x s') {y : Nat} (hy : s'.rowLock r = some y) :
    y ≠ x ∧ s.rowLock r = some y ∨
      y = x ∧ (s'.executions x).state = .readyForPublication r ∧ Validated s'.db r := by
  -- the execution is not past its publication, or has locked no other row
  have other : ∀ pc, (s.executions x).state = pc → pc ≠ .readyForPublication r →
      s.rowLock r = some y → y ≠ x ∧ s.rowLock r = some y := by
    rintro pc hpc hne hold
    refine ⟨?_, hold⟩
    rintro rfl
    exact hne (hpc.symm.trans (hI.locked r y hold).1)
  cases h with
  | executor hpc => exact .inl (other _ rfl (hpc r) hy)
  | found hpc => exact .inl (other _ hpc nofun hy)
  | @refused r₀ _ hpc hlock =>
      refine .inl ⟨?_, hy⟩
      rintro rfl
      have e := (hI.locked r y hy).1
      rw [hpc] at e
      cases e
      exact hlock hy
  | @locked r₀ run hpc hvalid hs =>
      by_cases e : r = r₀
      · subst e
        simp only [Function.update_self, Option.some.injEq] at hy
        refine .inr ⟨hy.symm, by simp [State.after], run, hvalid, hs⟩
      · simp only [Function.update_of_ne e] at hy
        exact .inl (other _ hpc (fun h => e (by cases h; rfl)) hy)
  | @committed r₀ _ hpc =>
      by_cases e : r = r₀
      · subst e
        simp only [Function.update_self] at hy
        cases hy
      · simp only [Function.update_of_ne e] at hy
        exact .inl (other _ hpc (fun h => e (by cases h; rfl)) hy)
  | @rolledBack r₀ _ hpc =>
      by_cases e : r = r₀
      · subst e
        simp only [Function.update_self] at hy
        cases hy
      · simp only [Function.update_of_ne e] at hy
        exact .inl (other _ hpc (fun h => e (by cases h; rfl)) hy)

/-- **A turn is such a step**, where it opens no batch of a run that is handed over. -/
theorem Turn.stepped (hI : Coherent columns service source s)
    (hans : SourceAnswers columns service (source s.instant) (s.executions x).state a)
    (hspare : SparesHandedOver config s (.step x a)) (hw : s.waits x = false)
    (h : Turn config service (s.met x a) s x s') :
    Stepped config columns service source s x s' where
  moved := h.moved
  act := by
    obtain ⟨a', hm, hp, hact⟩ := h.act fun r hr => (hI.locked r x hr).2
    exact ⟨a', hans.congr (hm.trans s.met_metadata) (hp.trans s.met_page), hact⟩
  ending _ _ _ hpc' := h.mayAct_of_endWatermark hpc'
  taking _ _ _ _ _ hpc' := h.mayAct_of_stagingRow hpc'
  staysDone r _ hh hr hi :=
    h.staysDone hspare hh (fun r hr => (hI.locked r x hr).2) (hI.done r hh) hr hi
  waited _ _ hpc hlock := s.waited hw hpc hlock
  rowLock _ _ hy := h.rowLock hI hy

/-- **A run in progress that ends at its start watermark** did so before, or the step fetches the end
watermark. -/
theorem Stepped.endsAt (h : Stepped config columns service source s x s')
    (hI : Coherent columns service source s) {w : Time} (hr : InProgress s'.db r)
    (he : EndsAt s' r w) : InProgress s.db r ∧ (EndsAt s r w ∨
      (s.executions x).state = .finalizing r ∧ s.mayAct x = true ∧ s'.db = s.db ∧
        (s'.executions x).state = .endWatermarkFetched r w w ∧ watermarkAt source s.instant = w ∧
        (s.db.runs.find r).bind (·.sourceWatermarkAtStart) = some w) := by
  obtain ⟨a, hans, hact⟩ := h.act
  have hwrite := hact.write
  obtain ⟨run', hr', hs'⟩ := hr
  rcases running_before (hI.sound.runningInitialized r) hwrite hr' hs' with
    ⟨run, hrun, hs, -, -⟩ | ⟨k, hpc, hn, -, ⟨run, hrun, hend⟩, -, -⟩
  swap
  -- a run that starts has no end watermark, and no execution is at it
  · exfalso
    cases he with
    | fetched y hy =>
        by_cases e : y = x
        · subst e
          rw [hy] at hact
          rw [hact.endWatermark.1] at hpc
          cases hpc
        · rw [h.moved.others y e] at hy
          exact hI.sound.not_notStarted (hI.works y r (by rw [hy]; rfl)) hn
    | stored run₁ hr₁ _ hend₁ =>
        obtain rfl : run₁ = run' := Option.some.inj (hr₁.symm.trans hr')
        rw [hend, (hI.sound.untouched r hn).ending run hrun] at hend₁
        cases hend₁
  refine ⟨⟨run, hrun, hs⟩, ?_⟩
  cases he with
  | fetched y hy =>
      by_cases e : y = x
      · subst e
        have hmay := h.ending r w w hy
        have hact' := hact
        rw [hy] at hact'
        obtain ⟨hpc, hdb, hstart, k, hm, hk⟩ := hact'.endWatermark
        refine .inr ⟨hpc, hmay, hdb, hy, ?_, hstart⟩
        rw [← hk, watermarkAt, hans.metadata k (by rw [hm]; rfl)]
      · rw [h.moved.others y e] at hy
        exact .inl (.fetched y hy)
  | stored run₁ hr₁ hstart hend =>
      obtain rfl : run₁ = run' := Option.some.inj (hr₁.symm.trans hr')
      refine .inl ?_
      obtain ⟨run₂, hr₂, hchange⟩ := row_write hwrite hrun
      obtain rfl : run₂ = run₁ := Option.some.inj (hr₂.symm.trans hr')
      cases hchange with
      | same => exact .stored _ hrun hstart hend
      | initialized => exact .stored run hrun hstart hend
      | started _ hq =>
          rw [hs] at hq
          cases hq
      | @ended startWatermark endWatermark hpc =>
          -- the end watermark in hand is stored, next to the start watermark in hand
          have hrem := hI.remembers x r startWatermark endWatermark hpc
          rw [hrun, Option.bind_some] at hrem
          obtain rfl : startWatermark = w := Option.some.inj (hrem.symm.trans hstart)
          obtain rfl : endWatermark = startWatermark := Option.some.inj hend
          exact .fetched x hpc
      | failed _ _ hne => exact absurd hs' hne
      | accepted => cases hs'

/-- **A run that is handed over** was so before, or the step has seen its batches COMPLETED. -/
theorem Stepped.handedOver (h : Stepped config columns service source s x s')
    (hI : Coherent columns service source s) (hh : HandedOver s' r) :
    HandedOver s r ∨ (s'.executions x).state = .finalizing r ∧ s.holder = some x ∧ s'.db = s.db ∧
      ∀ b ∈ s.db.batches r, b.status = .completed := by
  obtain ⟨a, hans, hact⟩ := h.act
  cases hh with
  | ending hr w he =>
      obtain ⟨hr', he' | ⟨hpc, hmay, -⟩⟩ := h.endsAt hI hr he
      · exact .inl (.ending hr' w he')
      · exact .inl (.finalizing hr' x hpc hmay)
  | finalizing hr y hy hmay =>
      by_cases e : y = x
      · subst e
        rw [hy] at hact
        obtain ⟨hdb, hdone⟩ := hact.finalizing
        exact .inr ⟨hy, h.moved.holds hmay, hdb, hdone⟩
      · rw [h.moved.others y e] at hy
        rw [h.moved.mayAct e] at hmay
        refine .inl (.finalizing ?_ y hy hmay)
        -- the run the other execution is at has started
        obtain ⟨run', hr', hs'⟩ := hr
        rcases running_before (hI.sound.runningInitialized r) hact.write hr' hs' with
          ⟨run, hrun, hs, -, -⟩ | ⟨k, -, hn, -⟩
        · exact ⟨run, hrun, hs⟩
        · exact absurd hn (hI.sound.not_notStarted (hI.works y r (by rw [hy]; rfl)))

/-! #### What the executions know -/

theorem Stepped.works (h : Stepped config columns service source s x s')
    (hI : Coherent columns service source s) (y : Nat) (r : RunId)
    (hr : (s'.executions y).state.runningRun? = some r) : HasStarted s'.db r := by
  obtain ⟨a, -, hact⟩ := h.act
  by_cases e : y = x
  · subst e
    exact hact.works hI.sound (hI.works y) r hr
  · rw [h.moved.others y e] at hr
    exact (hI.works y r hr).write hact.write

theorem exists_of_forall₂ {bs bs' : List IngestionBatch} (h : List.Forall₂ SameBatch bs bs')
    {b : IngestionBatch} (hb : b ∈ bs) : ∃ b' ∈ bs', SameBatch b b' := by
  induction h with
  | nil => cases hb
  | cons hsame _ ih =>
      rcases List.mem_cons.mp hb with rfl | hb
      · exact ⟨_, List.mem_cons_self, hsame⟩
      · obtain ⟨b', hb', h⟩ := ih hb
        exact ⟨b', List.mem_cons_of_mem _ hb', h⟩

/-- An attempt stays at a batch of its run. -/
theorem attemptsBatch_write {db db' : Db Row} {pc : ExecutorState Row} {attempt : BatchAttempt}
    (hS : Sound db) (hw : HasStarted db attempt.runId) (hb : AttemptsBatch db attempt)
    (h : Write config a db pc db') : AttemptsBatch db' attempt := by
  obtain ⟨run, hr, hi⟩ := hS.initialized hw
  obtain ⟨b, hb, hn, hd⟩ := hb
  obtain ⟨b', hb', hsame⟩ :=
    exists_of_forall₂ ((batches_change h attempt.runId).keeps hr hi).1 hb
  exact ⟨b', hb', hsame.number.trans hn, hsame.definition.trans hd⟩

theorem Stepped.attempts (h : Stepped config columns service source s x s')
    (hI : Coherent columns service source s) (y : Nat) (attempt : BatchAttempt)
    (hy : (s'.executions y).state.attempt? = some attempt) : AttemptsBatch s'.db attempt := by
  obtain ⟨a, -, hact⟩ := h.act
  by_cases e : y = x
  · subst e
    obtain ⟨hb, hr⟩ := hact.attempts (hI.attempts y) attempt hy
    exact attemptsBatch_write hI.sound (hI.works y _ hr) hb hact.write
  · rw [h.moved.others y e] at hy
    exact attemptsBatch_write hI.sound (hI.works y _ (runningRun?_of_attempt? hy))
      (hI.attempts y attempt hy) hact.write

theorem Stepped.remembers (h : Stepped config columns service source s x s')
    (hI : Coherent columns service source s) (y : Nat) (r : RunId) (startWatermark endWatermark : Time)
    (hy : (s'.executions y).state = .endWatermarkFetched r startWatermark endWatermark) :
    (s'.db.runs.find r).bind (·.sourceWatermarkAtStart) = some startWatermark := by
  obtain ⟨a, -, hact⟩ := h.act
  by_cases e : y = x
  · subst e
    rw [hy] at hact
    obtain ⟨-, hdb, hstart, -⟩ := hact.endWatermark
    rw [hdb, hstart]
  · rw [h.moved.others y e] at hy
    obtain ⟨run, hr, hw⟩ := Option.bind_eq_some_iff.mp (hI.remembers y r _ _ hy)
    obtain ⟨run', hr', hchange⟩ := row_write hact.write hr
    rw [hr', Option.bind_some, hchange.start hw]

theorem Stepped.fetched (h : Stepped config columns service source s x s')
    (hI : Coherent columns service source s) (y : Nat) (r : RunId) (k : Nat)
    (hy : (s'.executions y).state = .startWatermarkFetched r k) :
    ∃ i ≤ s'.instant, (source i).rowsUpdatedAt = k := by
  obtain ⟨a, hans, hact⟩ := h.act
  rw [h.moved.instant]
  by_cases e : y = x
  · subst e
    rw [hy] at hact
    exact ⟨s.instant, Nat.le_refl _, hact.startWatermark hans⟩
  · rw [h.moved.others y e] at hy
    exact hI.fetched y r k hy

theorem Stepped.begun (h : Stepped config columns service source s x s')
    (hI : Coherent columns service source s) (r : RunId) (run : IngestionRun) (w : Time)
    (hr : s'.db.runs.find r = some run) (hs : run.status = .running)
    (hw : run.sourceWatermarkAtStart = some w) : ∃ i ≤ s'.instant, watermarkAt source i = w := by
  obtain ⟨a, -, hact⟩ := h.act
  rw [h.moved.instant]
  rcases running_before (hI.sound.runningInitialized r) hact.write hr hs with
    ⟨run₀, hr₀, hs₀, e, -⟩ | ⟨k, hpc, -, e, -⟩
  · exact hI.begun r run₀ w hr₀ hs₀ (e ▸ hw)
  · obtain ⟨i, hi, hk⟩ := hI.fetched x r k hpc
    rw [e, Option.some.injEq] at hw
    exact ⟨i, hi, by rw [watermarkAt, hk, hw]⟩

/-! #### What is staged -/

/-- **A step keeps what it has staged in agreement with the source.** -/
theorem Act.staged {db db' : Db Row} {pc pc' : ExecutorState Row} {i : Nat}
    (hA : SourceAssumptions columns service source)
    (hans : SourceAnswers columns service (source i) pc a) (hS : Sound db)
    (hattempt : ∀ attempt, pc.attempt? = some attempt → AttemptsBatch db attempt)
    (hold : ∀ run, db.runs.find r = some run → run.status = .running →
      run.sourceWatermarkAtStart = some (watermarkAt source i) →
        StagingAgrees columns service (source i).rows db r pc)
    (h : Act config service a db pc db' pc') {run' : IngestionRun}
    (hr' : db'.runs.find r = some run') (hs' : run'.status = .running)
    (hw' : run'.sourceWatermarkAtStart = some (watermarkAt source i)) :
    StagingAgrees columns service (source i).rows db' r pc' := by
  have hid : ∀ b' ∈ db.batches r, b'.status = .completed → ∃ b ∈ db.batches r,
      b.status = .completed ∧ b.batchDefinition = b'.batchDefinition :=
    fun b hb hc => ⟨b, hb, hc, rfl⟩
  cases h with
  | effect h =>
      exact staged_effect hA hans (hS.runningInitialized r) (hS.untouched r) (hS.numbers r)
        hattempt hold h hr' hs' hw'
  | locked => exact (hold run' hr' hs' hw').of_same rfl hid fun _ => trivial
  | found h =>
      cases h with
      | completed => exact (hold run' hr' hs' hw').of_same rfl hid fun _ => trivial
      | stopped => exact (hold run' hr' hs' hw').of_same rfl hid fun _ => trivial
      | exhausted =>
          exact (hold run' hr' hs' hw').of_same rfl
            (completed_modifyBatch (by simp) fun _ => ⟨rfl, rfl⟩) fun _ => trivial
      | counted =>
          exact (hold run' hr' hs' hw').of_same rfl
            (completed_modifyBatch (fun _ h => h) fun _ => ⟨rfl, rfl⟩) fun _ => trivial

/-- What another attempt has staged stays staged, when a row of the source is. -/
theorem attemptStaged_set {staging : Table SourceId NormalizedEcbViolation}
    {pc : ExecutorState Row} {i : Nat} {row : Row} {v : NormalizedEcbViolation}
    (hA : SourceAssumptions columns service source) (hrow : row ∈ (source i).rows)
    (hv : service.normalizeEcbViolation row = some v)
    (h : AttemptStaged columns service (source i).rows staging pc) :
    AttemptStaged columns service (source i).rows (staging.set v.sourceId v) pc := by
  have keeps : ∀ row' ∈ (source i).rows, IsStaged service staging row' →
      IsStaged service (staging.set v.sourceId v) row' :=
    fun row' hrow' h' => h'.set hA hrow hv hrow'
  have offset : ∀ {attempt : BatchAttempt},
      OffsetStaged columns service (source i).rows staging attempt →
        OffsetStaged columns service (source i).rows (staging.set v.sourceId v) attempt :=
    fun h row' hrow' => keeps row' (mem_matchingRows.mp (List.mem_of_mem_take hrow')).1 (h row' hrow')
  have page : ∀ {attempt : BatchAttempt} {page remaining : List Row},
      PageStaged columns service (source i).rows staging attempt page remaining →
        PageStaged columns service (source i).rows (staging.set v.sourceId v) attempt page
          remaining := by
    intro attempt page remaining h
    obtain ⟨done, hd, hdone⟩ := h.done
    refine ⟨offset h.offset, h.page_eq, done, hd, fun row' hrow' => ?_⟩
    exact keeps row' (mem_rows_of_mem_page h (by rw [hd]; simp [hrow'])) (hdone row' hrow')
  cases pc with
  | fetchingPage => exact offset h
  | processingRows => exact page h
  | stagingRow => exact page h
  | completingBatch => exact fun row' hrow' => keeps row' (mem_matchingRows.mp hrow').1 (h row' hrow')
  | _ => trivial

/-- A row in hand is one of the source, while the source stands at the start watermark. -/
theorem mem_of_pending {rows : List Row} {db : Db Row} {pc : ExecutorState Row}
    {may : Bool} {row : Row} (h : StagingAgrees columns service rows db r pc)
    (hpc : pc.runningRun? = some r) (hrow : pendingRow? may pc = some row) : row ∈ rows := by
  have ha := h.attempt hpc
  cases pc with
  | processingRows attempt page remaining =>
      obtain ⟨done, hd, -⟩ := PageStaged.done ha
      refine mem_rows_of_mem_page ha ?_
      simp only [pendingRow?] at hrow
      split at hrow
      · rw [hd]
        exact List.mem_append_right _ (List.mem_of_mem_head? hrow)
      · cases hrow
  | stagingRow attempt page row' sourceId rest =>
      cases hrow
      obtain ⟨done, hd, -⟩ := PageStaged.done ha
      exact mem_rows_of_mem_page ha (by rw [hd]; simp)
  | _ => cases hrow

theorem Stepped.standing (hA : SourceAssumptions columns service source)
    (h : Stepped config columns service source s x s') (hI : Coherent columns service source s)
    (r : RunId) (run : IngestionRun) (hr : s'.db.runs.find r = some run) (hs : run.status = .running)
    (hw : run.sourceWatermarkAtStart = some (watermarkAt source s'.instant)) (y : Nat) :
    StagingAgrees columns service (source s'.instant).rows s'.db r (s'.executions y).state := by
  obtain ⟨a, hans, hact⟩ := h.act
  rw [h.moved.instant] at hw ⊢
  have hx := hact.staged hA hans hI.sound (hI.attempts x)
    (fun run hr hs hw => hI.standing r run hr hs hw x) hr hs hw
  by_cases e : y = x
  · subst e
    exact hx
  refine ⟨hx.sound, hx.completed, fun hpc => ?_⟩
  rw [h.moved.others y e] at hpc ⊢
  rcases running_before (hI.sound.runningInitialized r) hact.write hr hs with
    ⟨run₀, hr₀, hs₀, hw₀, -⟩ | ⟨k, -, hn, -⟩
  swap
  · exact absurd hn (hI.sound.not_notStarted (hI.works y r hpc))
  rw [hw₀] at hw
  have ha := (hI.standing r run₀ hr₀ hs₀ hw y).attempt hpc
  rcases hact.staging r with hst | ⟨attempt, page, row, sourceId, rest, v, hpcx, hrun, hv, hst⟩
  · rwa [hst]
  · -- the staged row is one of the source
    have hrow : row ∈ (source s.instant).rows :=
      mem_of_pending (hI.standing r run₀ hr₀ hs₀ hw x) (by rw [hpcx, ← hrun]; rfl)
        (show pendingRow? false _ = some row by rw [hpcx]; rfl)
    rw [hst]
    exact attemptStaged_set hA hrow hv ha

/-! #### What is handed over -/

theorem forall₂_completed {bs bs' : List IngestionBatch} (h : List.Forall₂ StaysDone bs bs')
    (hdone : ∀ b ∈ bs, b.status = .completed) : ∀ b' ∈ bs', b'.status = .completed := by
  induction h with
  | nil => exact hdone
  | cons hb _ ih =>
      simp only [List.forall_mem_cons] at hdone ⊢
      exact ⟨hb.completed hdone.1, ih hdone.2⟩

/-- A run in progress is initialized. -/
theorem Coherent.initialized (hI : Coherent columns service source s) (hr : InProgress s.db r) :
    ∃ run, s.db.runs.find r = some run ∧ run.initializationComplete = true := by
  obtain ⟨run, hr, hs⟩ := hr
  exact ⟨run, hr, hI.sound.runningInitialized r run hr hs⟩

theorem HandedOver.inProgress (h : HandedOver s r) : InProgress s.db r := by
  cases h with
  | finalizing hr => exact hr
  | ending hr => exact hr

theorem Stepped.done (h : Stepped config columns service source s x s')
    (hI : Coherent columns service source s) (r : RunId) (hh : HandedOver s' r) :
    ∀ b ∈ s'.db.batches r, b.status = .completed := by
  rcases h.handedOver hI hh with hold | ⟨-, -, hdb, hdone⟩
  · obtain ⟨run, hr, hi⟩ := hI.initialized hold.inProgress
    exact forall₂_completed (h.staysDone r run hold hr hi) (hI.done r hold)
  · rwa [hdb]

/-- **The lock holder is in no batch of a run that is handed over.** -/
theorem Stepped.outside (h : Stepped config columns service source s x s')
    (hI : Coherent columns service source s) (r : RunId) (n y : Nat) (hh : HandedOver s' r)
    (hy : s'.holder = some y) : (s'.executions y).state.batch? ≠ some (r, n) := by
  intro hb
  rw [h.moved.holder] at hy
  obtain ⟨a, -, hact⟩ := h.act
  by_cases e : y = x
  · subst e
    rcases h.handedOver hI hh with hold | ⟨hpc', -⟩
    · rcases hact.batch hb with hb | ⟨b, hb, hs⟩
      · exact hI.outside r n y hold hy hb
      · exact hs (hI.done r hold b hb)
    · rw [hpc'] at hb
      cases hb
  · rw [h.moved.others y e] at hb
    rcases h.handedOver hI hh with hold | ⟨-, hx, -⟩
    · exact hI.outside r n y hold hy hb
    · exact e (Option.some.inj (hy.symm.trans hx))

/-- Rows that are exact stay so, when a row of the source is staged. -/
theorem stagingExact_set {db db' : Db Row} {i : Nat} {row : Row} {v : NormalizedEcbViolation}
    (hA : SourceAssumptions columns service source) (hrow : row ∈ (source i).rows)
    (hv : service.normalizeEcbViolation row = some v)
    (hsnap : db'.snapshot r = db.snapshot r)
    (hst : db'.staging r = (db.staging r).set v.sourceId v)
    (h : StagingExact service (source i).rows db r) :
    StagingExact service (source i).rows db' r := by
  intro sourceId v' hv'
  rw [hsnap] at hv'
  rw [hst, Table.find_set]
  split
  · rename_i e
    constructor
    · intro hfind
      cases hfind
      exact ⟨e.symm, row, hrow, hv⟩
    · -- a source row with this source id is the one that is staged
      rintro ⟨rfl, row', hrow', hn⟩
      rw [hA.sourceIds i row' hrow' row hrow v' v hn hv e, hv] at hn
      exact hn
  · exact h sourceId v' hv'

theorem Stepped.exact (hA : SourceAssumptions columns service source)
    (h : Stepped config columns service source s x s') (hI : Coherent columns service source s)
    (r : RunId) (w : Time) (i : Nat) (hr : InProgress s'.db r) (he : EndsAt s' r w)
    (hi : watermarkAt source i = w) : StagingExact service (source i).rows s'.db r := by
  obtain ⟨a, -, hact⟩ := h.act
  obtain ⟨hr₀, he₀ | ⟨hpc, hmay, hdb, -, hw, hstart⟩⟩ := h.endsAt hI hr he
  · have hold := hI.exact r w i hr₀ he₀ hi
    obtain ⟨run, hrun, hinit⟩ := hI.initialized hr₀
    have hsnap := ((batches_change hact.write r).keeps hrun hinit).2
    rcases hact.staging r with hst | ⟨attempt, page, row, sourceId, rest, v, hpc, hx, hv, hst⟩
    · exact hold.of_same hsnap hst
    · have hrow : row ∈ (source i).rows :=
        hI.pending r w i hr₀ he₀ hi x row (by rw [hpc, ← hx]; rfl) (by rw [hpc]; rfl)
      exact stagingExact_set hA hrow hv hsnap hst hold
  · -- the end watermark is fetched: the source stands at the start watermark
    rw [hdb]
    obtain ⟨run, hrun, hs⟩ := hr₀
    rw [hrun, Option.bind_some, ← hw] at hstart
    have hdone := hI.done r (.finalizing ⟨run, hrun, hs⟩ x hpc hmay)
    have hexact := (hI.standing r run hrun hs hstart x).exact
      (hI.sound.partition r run hrun (hI.sound.runningInitialized r run hrun hs)) hdone
    exact hexact.perm (hA.perm (watermarkAt_eq (hw.trans hi.symm)))

/-- A row in hand belongs to a batch. -/
theorem batch?_of_pending {may : Bool} {pc : ExecutorState Row} {row : Row}
    (hpc : pc.runningRun? = some r) (hrow : pendingRow? may pc = some row) :
    ∃ n, pc.batch? = some (r, n) := by
  cases pc with
  | processingRows => cases hpc; exact ⟨_, rfl⟩
  | stagingRow => cases hpc; exact ⟨_, rfl⟩
  | _ => cases hrow

/-- A row in hand without authority is one that was taken up with it. -/
theorem Stepped.pendingRow?_before (h : Stepped config columns service source s x s') {row : Row}
    (hpc' : (s'.executions x).state.runningRun? = some r)
    (hrow : pendingRow? false (s'.executions x).state = some row) :
    (s.executions x).state.runningRun? = some r ∧
      pendingRow? (s.mayAct x) (s.executions x).state = some row := by
  obtain ⟨a, -, hact⟩ := h.act
  cases hx : (s'.executions x).state with
  | stagingRow attempt page row' sourceId rest =>
      have hmay := h.taking _ _ _ _ _ hx
      rw [hx] at hact hpc' hrow
      cases hrow
      rw [hact.stagingRow, hmay]
      exact ⟨hpc', rfl⟩
  | _ =>
      rw [hx] at hrow
      cases hrow

theorem Stepped.pending (hA : SourceAssumptions columns service source)
    (h : Stepped config columns service source s x s') (hI : Coherent columns service source s)
    (r : RunId) (w : Time) (i : Nat) (hr : InProgress s'.db r) (he : EndsAt s' r w)
    (hi : watermarkAt source i = w) (y : Nat) (row : Row)
    (hy : (s'.executions y).state.runningRun? = some r)
    (hrow : pendingRow? (s'.mayAct y) (s'.executions y).state = some row) :
    row ∈ (source i).rows := by
  obtain ⟨hr₀, he₀ | ⟨-, -, hdb, hpc', hw, hstart⟩⟩ := h.endsAt hI hr he
  · by_cases e : y = x
    · subst e
      cases hmay : s'.mayAct y with
      | true =>
          -- the lock holder is in no batch of the run
          obtain ⟨n, hb⟩ := batch?_of_pending hy hrow
          exact absurd hb (h.outside hI r n y (.ending hr w he)
            (h.moved.holder.trans (h.moved.holds hmay)))
      | false =>
          rw [hmay] at hrow
          obtain ⟨hy₀, hrow₀⟩ := h.pendingRow?_before hy hrow
          exact hI.pending r w i hr₀ he₀ hi y row hy₀ hrow₀
    · rw [h.moved.others y e] at hy hrow
      rw [h.moved.mayAct e] at hrow
      exact hI.pending r w i hr₀ he₀ hi y row hy hrow
  · by_cases e : y = x
    · subst e
      rw [hpc'] at hrow
      cases hrow
    · rw [h.moved.others y e] at hy hrow
      obtain ⟨run, hrun, hs⟩ := hr₀
      rw [hrun, Option.bind_some, ← hw] at hstart
      have hmem := mem_of_pending (hI.standing r run hrun hs hstart y) hy hrow
      exact (hA.perm (watermarkAt_eq (hw.trans hi.symm))).mem_iff.mp hmem

theorem forall₂_isDone {bs bs' : List IngestionBatch} (h : List.Forall₂ StaysDone bs bs')
    (hdone : ∀ b ∈ bs, IsDone b) : ∀ b' ∈ bs', IsDone b' := by
  induction h with
  | nil => exact hdone
  | cons hb _ ih =>
      simp only [List.forall_mem_cons] at hdone ⊢
      exact ⟨hb.done hdone.1, ih hdone.2⟩

/-- The check of the batches by the accepted publication. -/
theorem all_isDone {bs : List IngestionBatch} :
    (bs.all fun b => b.status = .completed && b.completedAt.isSome && b.lastError.isNone) = true ↔
      ∀ b ∈ bs, IsDone b := by
  simp [List.all_eq_true, IsDone, Option.isSome_iff_ne_none, and_assoc]

/-- A run stays validated, while its row, its snapshot and what is asked of its batches stay. -/
theorem validated_of_same {db db' : Db Row} (hv : Validated db r)
    (hrow : db'.runs.find r = db.runs.find r) (hsnap : db'.snapshot r = db.snapshot r)
    (hb : List.Forall₂ StaysDone (db.batches r) (db'.batches r)) : Validated db' r := by
  obtain ⟨run, hv, hs⟩ := hv
  have hsame : List.Forall₂ SameBatch (db.batches r) (db'.batches r) :=
    hb.imp fun _ _ h => h.toSameBatch
  have hcovers : db'.CoversSnapshot r ↔ db.CoversSnapshot r := by
    have hbins : db'.processedBins r = db.processedBins r := by
      rw [Db.processedBins, Db.processedBins, List.flatMap_def, List.flatMap_def]
      exact flatten_bins_eq hsame
    rw [Db.CoversSnapshot, Db.CoversSnapshot, hbins, hsnap]
  refine ⟨run, ?_, hs⟩
  simp only [Db.lockAndValidateAcceptedRun, require_bind_ok, ensure_bind_ok, hrow, hsnap,
    ← hb.length_eq] at hv ⊢
  obtain ⟨run', hr, hdataset, hv⟩ := hv
  refine ⟨run', hr, hdataset, ?_⟩
  split at hv
  · rename_i hc
    rwa [if_pos hc]
  · rename_i hc
    rw [if_neg hc]
    simp only [ensure_bind_ok, all_isDone, hcovers] at hv ⊢
    obtain ⟨h₁, h₂, h₃, h₄, h₅, h₆, h₇, h₈, h₉, hdone, hv⟩ := hv
    exact ⟨h₁, h₂, h₃, h₄, h₅, h₆, h₇, h₈, h₉, forall₂_isDone hb hdone, hv⟩

/-- A run that is validated can be published. -/
theorem Validated.publishable {db : Db Row} (h : Validated db r) :
    ∃ run, db.Publishable r run := by
  obtain ⟨run, hv, hs⟩ := h
  obtain ⟨-, hc | ⟨-, hp, -⟩⟩ := Db.lockAndValidateAcceptedRun_eq_ok hv
  · exact absurd hc hs
  · exact ⟨run, hp⟩

/-- A run that can be published is handed over. -/
theorem handedOver_of_publishable {run : IngestionRun} (h : s.db.Publishable r run) :
    ∃ w, run.sourceWatermarkAtStart = some w ∧ EndsAt s r w ∧ HandedOver s r := by
  obtain ⟨w, hw⟩ := Option.ne_none_iff_exists'.mp h.watermark
  have he : EndsAt s r w := .stored run h.found hw (h.guard ▸ hw)
  exact ⟨w, hw, he, .ending ⟨run, h.found, h.running⟩ w he⟩

/-- **A run whose row is locked by another execution stays validated.** -/
theorem Stepped.locked (h : Stepped config columns service source s x s')
    (hI : Coherent columns service source s) (r : RunId) (y : Nat) (hy : s'.rowLock r = some y) :
    (s'.executions y).state = .readyForPublication r ∧ Validated s'.db r := by
  obtain ⟨hne, hold⟩ | ⟨rfl, hready, hv⟩ := h.rowLock r y hy
  swap
  · exact ⟨hready, hv⟩
  obtain ⟨hready, hv⟩ := hI.locked r y hold
  refine ⟨by rw [h.moved.others y hne, hready], ?_⟩
  obtain ⟨run, hp⟩ := hv.publishable
  obtain ⟨-, -, -, hh⟩ := handedOver_of_publishable hp
  obtain ⟨a, -, hact⟩ := h.act
  -- a statement on the row of the run would have waited
  have hrow : (s.executions x).state.runRow? ≠ some r := fun e => hne (h.waited r y e hold)
  obtain ⟨run', hr', hchange⟩ := row_write hact.write hp.found
  refine validated_of_same hv ?_ ((batches_change hact.write r).keeps hp.found hp.initialized).2
    (h.staysDone r run hh hp.found hp.initialized)
  rw [hr', hp.found, hchange.eq_of_ne hrow]

/-- **A step keeps the invariant.** -/
theorem Coherent.step (hA : SourceAssumptions columns service source)
    (hI : Coherent columns service source s) (h : Stepped config columns service source s x s') :
    Coherent columns service source s' where
  sound := by
    obtain ⟨a, -, hact⟩ := h.act
    exact hI.sound.write (hI.works x) hact.write
  works := h.works hI
  attempts := h.attempts hI
  remembers := h.remembers hI
  fetched := h.fetched hI
  begun := h.begun hI
  standing := h.standing hA hI
  done := h.done hI
  outside := h.outside hI
  exact := h.exact hA hI
  pending := h.pending hA hI
  locked := h.locked hI

/-- **An event keeps the invariant**, where it opens no batch of a run that is handed over. -/
theorem coherent_next (hA : SourceAssumptions columns service source)
    (hI : Coherent columns service source s) {ev : Event Row}
    (hans : AnsweredBy columns service source s ev) (hspare : SparesHandedOver config s ev)
    (h : next config service s ev = some s') : Coherent columns service source s' := by
  rcases next_cases h with hq | ⟨x, a, rfl, hw, ht⟩
  · exact hI.quiet hA hq
  · exact hI.step hA (ht.stepped hI hans hspare hw)

end Steps

end Supersession

end NycPropertyResolver
