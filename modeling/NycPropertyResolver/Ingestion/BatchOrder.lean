import NycPropertyResolver.Ingestion.WriteFrames

/-!
# Ingestion — the order of the batches

The batches of a run are completed in their order.  Behind the first batch that is not COMPLETED every
batch is still PENDING (`BatchOrder`), and an execution in the middle of a batch is in that one
(`Selects`).  The versions a snapshot holds for one property agree, since one statement reads them
all.
-/

namespace NycPropertyResolver

open Library

variable {Row : Type} {config : ExecutorConfig} {service : EcbRowService Row}

/-! ### Statements -/

/-- `batches.find((batch) => batch.status !== COMPLETED)`. -/
abbrev firstOpen (bs : List IngestionBatch) : Option IngestionBatch :=
  bs.find? fun b => b.status ≠ .completed

/-- The batches have distinct numbers, and those after one that is not completed are pending. -/
structure BatchOrder (bs : List IngestionBatch) : Prop where
  nodup : (bs.map (·.batchNumber)).Nodup
  later : bs.Pairwise fun b b' => b.status ≠ .completed → b'.status = .pending

/-- The batch an execution is in the middle of is the first one open. -/
def Selects (db : Db Row) (pc : ExecutorState Row) : Prop :=
  ∀ r n, pc.batch? = some (r, n) → ∃ b, firstOpen (db.batches r) = some b ∧ b.batchNumber = n

/-- The attempt an execution is in the middle of is at the definition of that batch. -/
def Defines (db : Db Row) (pc : ExecutorState Row) : Prop :=
  ∀ attempt, pc.attempt? = some attempt → ∃ b, firstOpen (db.batches attempt.runId) = some b ∧
    b.batchNumber = attempt.batchNumber ∧ b.batchDefinition = attempt.definition

/-- A run that is not there yet, or QUEUED. -/
def NotStarted (db : Db Row) (r : RunId) : Prop :=
  ∀ run, db.runs.find r = some run → run.status = .queued

/-- Nothing has been done for a run that has not started. -/
structure Untouched (db : Db Row) (r : RunId) : Prop where
  ending : ∀ run, db.runs.find r = some run → run.sourceWatermarkAtEnd = none
  staging : ∀ sourceId, (db.staging r).find sourceId = none
  batches : ∀ b ∈ db.batches r, b.status ≠ .completed

/-- No property is listed with two versions. -/
def VersionsAgree (rows : List IngestionRunPropertyBin) : Prop :=
  ∀ row ∈ rows, ∀ row' ∈ rows, row.propertyId = row'.propertyId →
    row.propertyIdentifierVersion = row'.propertyIdentifierVersion

/-- The versions of a snapshot in hand agree. -/
def LoadedVersionsAgree : ExecutorState Row → Prop
  | .snapshotLoaded _ rows => VersionsAgree rows
  | _ => True

/-- **The batch invariant.** -/
structure BatchInvariant (s : SystemState Row) : Prop where
  system : SystemInvariant s
  order : ∀ r, BatchOrder (s.db.batches r)
  selects : Selects s.db s.executor
  defines : Defines s.db s.executor
  untouched : ∀ r, NotStarted s.db r → Untouched s.db r
  versions : ∀ r, VersionsAgree (s.db.snapshot r)
  loaded : LoadedVersionsAgree s.executor

/-! ### Lists of batches -/

section Lists

variable {bs : List IngestionBatch} {b : IngestionBatch} {f : IngestionBatch → IngestionBatch}

theorem firstOpen_eq_some : firstOpen bs = some b ↔ b.status ≠ .completed ∧
    ∃ done rest, bs = done ++ b :: rest ∧ ∀ c ∈ done, c.status = .completed := by
  simp [firstOpen, List.find?_eq_some_iff_append]

/-- The first open batch stands between the COMPLETED ones and the PENDING ones. -/
theorem BatchOrder.split (h : BatchOrder bs) (hb : firstOpen bs = some b) :
    ∃ done rest, bs = done ++ b :: rest ∧ (∀ c ∈ done, c.status = .completed) ∧
      (∀ c ∈ rest, c.status = .pending) ∧
      ∀ c ∈ done ++ rest, c.batchNumber ≠ b.batchNumber := by
  obtain ⟨hs, done, rest, rfl, hdone⟩ := firstOpen_eq_some.mp hb
  have hlater := (List.pairwise_cons.mp (List.pairwise_append.mp h.later).2.1).1
  have hn := h.nodup
  rw [List.map_append, List.map_cons, List.nodup_middle, List.nodup_cons, ← List.map_append] at hn
  refine ⟨done, rest, rfl, hdone, fun c hc => hlater c hc hs, fun c hc e => ?_⟩
  exact hn.1 (List.mem_map.mpr ⟨c, hc, e⟩)

/-- An update of the first open batch touches no other. -/
theorem BatchOrder.map_update (h : BatchOrder bs) (hb : firstOpen bs = some b) :
    ∃ done rest, bs = done ++ b :: rest ∧ (∀ c ∈ done, c.status = .completed) ∧
      (∀ c ∈ rest, c.status = .pending) ∧
      (bs.map fun c => if c.batchNumber = b.batchNumber then f c else c) =
        done ++ f b :: rest := by
  obtain ⟨done, rest, rfl, hdone, hrest, hne⟩ := h.split hb
  have hid : ∀ cs : List IngestionBatch, (∀ c ∈ cs, c ∈ done ++ rest) →
      (cs.map fun c => if c.batchNumber = b.batchNumber then f c else c) = cs := by
    intro cs hcs
    rw [List.map_congr_left (g := id), List.map_id]
    intro c hc
    rw [if_neg (hne c (hcs c hc)), id]
  refine ⟨done, rest, rfl, hdone, hrest, ?_⟩
  rw [List.map_append, List.map_cons, if_pos rfl,
    hid done fun c hc => List.mem_append_left _ hc,
    hid rest fun c hc => List.mem_append_right _ hc]

/-- **An update of the first open batch keeps the order.** -/
theorem BatchOrder.update (h : BatchOrder bs) (hb : firstOpen bs = some b)
    (hf : KeepsDefinition f) :
    BatchOrder (bs.map fun c => if c.batchNumber = b.batchNumber then f c else c) := by
  refine ⟨?_, ?_⟩
  · have e : (bs.map fun c => if c.batchNumber = b.batchNumber then f c else c).map
        (·.batchNumber) = bs.map (·.batchNumber) := by
      rw [List.map_map]
      refine List.map_congr_left fun c _ => ?_
      simp only [Function.comp_apply]
      split
      · exact (hf c).1
      · rfl
    rw [e]
    exact h.nodup
  · obtain ⟨done, rest, rfl, hdone, hrest, e⟩ := h.map_update (f := f) hb
    rw [e]
    obtain ⟨hpre, hsuf, hcross⟩ := List.pairwise_append.mp h.later
    refine List.pairwise_append.mpr ⟨hpre, List.pairwise_cons.mpr
      ⟨fun c hc _ => hrest c hc, (List.pairwise_cons.mp hsuf).2⟩, fun c hc _ _ hs => ?_⟩
    exact absurd (hdone c hc) hs

/-- While it stays open, the updated batch is the first one open. -/
theorem BatchOrder.firstOpen_update (h : BatchOrder bs) (hb : firstOpen bs = some b)
    (hs : (f b).status ≠ .completed) :
    firstOpen (bs.map fun c => if c.batchNumber = b.batchNumber then f c else c) =
      some (f b) := by
  obtain ⟨done, rest, -, hdone, -, e⟩ := h.map_update (f := f) hb
  rw [e, firstOpen_eq_some]
  exact ⟨hs, done, rest, rfl, hdone⟩

/-- The batch with the number of the first open one is the first open one. -/
theorem findBatch_of_firstOpen {db : Db Row} {r : RunId} (ho : BatchOrder (db.batches r))
    (h : firstOpen (db.batches r) = some b) : db.findBatch r b.batchNumber = some b := by
  obtain ⟨done, rest, e, -, -, hne⟩ := ho.split h
  rw [Db.findBatch, e, List.find?_eq_some_iff_append]
  refine ⟨by simp, done, rest, rfl, fun c hc => ?_⟩
  simp [hne c (List.mem_append_left _ hc)]

/-- Fresh batches are in order. -/
theorem batchOrder_pendingBatches (definitions : List IngestionBatchDefinition) :
    BatchOrder (pendingBatches definitions) := by
  constructor
  · have e : (pendingBatches definitions).map (·.batchNumber) =
        (List.range definitions.length).map (· + 1) := by
      refine List.ext_getElem (by simp) fun i _ _ => ?_
      simp [pendingBatches, pendingBatch]
    rw [e]
    exact List.nodup_range.map fun i j h => Nat.succ_injective h
  · refine List.Pairwise.imp_of_mem ?_ (List.pairwise_of_forall fun _ _ => trivial)
    intro _ b' _ hb' _ _
    obtain ⟨n, definition, rfl, -⟩ := Db.mem_pendingBatches hb'
    rfl

end Lists

/-! ### Versions -/

/-- One statement reads the version of each property once. -/
theorem versionsAgree_includeProperties {db : Db Row}
    {relationships : List (CanonicalBin × PropertyId)} {rows : List IngestionRunPropertyBin}
    (h : db.includeProperties relationships = some rows) : VersionsAgree rows := by
  intro row hrow row' hrow' e
  have hv := ((Db.mem_includeProperties h).mp hrow).2
  have hv' := ((Db.mem_includeProperties h).mp hrow').2
  rw [e, hv'] at hv
  exact (Option.some.inj hv).symm

/-- The check of the versions of a snapshot passes. -/
theorem VersionsAgree.consistent {db : Db Row} {r : RunId} (h : VersionsAgree (db.snapshot r)) :
    db.ConsistentVersions r := by
  intro p hp
  obtain ⟨row, hrow, rfl⟩ := Db.mem_snapshotPropertyIds.mp hp
  have hall : ∀ n ∈ db.snapshotVersions r row.propertyId,
      n = row.propertyIdentifierVersion := fun n hn => by
    obtain ⟨row', hrow', e, rfl⟩ := Db.mem_snapshotVersions.mp hn
    exact h row' hrow' row hrow e
  have hmem : row.propertyIdentifierVersion ∈ db.snapshotVersions r row.propertyId :=
    Db.mem_snapshotVersions.mpr ⟨row, hrow, rfl, rfl⟩
  rw [List.eq_replicate_of_mem hall,
    List.replicate_dedup (List.length_pos_of_mem hmem).ne', List.length_singleton]

/-! ### Steps -/

section Steps

variable {a : Answer Row} {db db' : Db Row} {pc pc' : ExecutorState Row}

/-- **A write keeps the order of every run's batches.** -/
theorem write_batchOrder (ho : ∀ r, BatchOrder (db.batches r)) (hs : Selects db pc)
    (h : Write config a db pc db') (r : RunId) : BatchOrder (db'.batches r) := by
  cases batches_change h r with
  | same hb => rw [hb]; exact ho r
  | @updated n f hpc hf hb =>
      obtain ⟨b, hopen, rfl⟩ := hs r n hpc
      rw [hb]
      simp only [Db.modifyBatch, Function.update_self]
      exact (ho r).update hopen hf
  | stored _ _ hb => rw [hb]; exact batchOrder_pendingBatches _

/-- The snapshots stay as they are, but for the one stored. -/
theorem write_versionsAgree (hv : ∀ r, VersionsAgree (db.snapshot r))
    (hl : LoadedVersionsAgree pc) (h : Write config a db pc db') (r : RunId) :
    VersionsAgree (db'.snapshot r) := by
  obtain ⟨-, -, hsnap | ⟨runId, rows, rfl, hsnap⟩⟩ := write_snapshot h
  · rw [hsnap]
    exact hv r
  · rw [hsnap, Function.update_apply]
    split
    · exact hl
    · exact hv r

/-- A batch in work stays selected while the batches do. -/
theorem Selects.of_batches (h : Selects db pc) (hb : db'.batches = db.batches)
    (hp : pc'.batch? = pc.batch?) : Selects db' pc' := by
  intro r n e
  rw [hb]
  exact h r n (hp ▸ e)

/-- A batch in work stays selected under an update that leaves it open. -/
theorem Selects.of_update {runId : RunId} {n : Nat} {f : IngestionBatch → IngestionBatch}
    (ho : ∀ r, BatchOrder (db.batches r)) (h : Selects db pc) (hpc : pc.batch? = some (runId, n))
    (hf : ∀ b, b.status ≠ .completed → (f b).status ≠ .completed)
    (hk : KeepsDefinition f) (hp : pc'.batch? = pc.batch?) :
    Selects (db.modifyBatch runId n f) pc' := by
  intro r m e
  rw [hp, hpc] at e
  cases e
  obtain ⟨b, hb, rfl⟩ := h _ _ hpc
  refine ⟨f b, ?_, (hk b).1⟩
  simp only [Db.modifyBatch, Function.update_self]
  exact (ho runId).firstOpen_update hb (hf b (firstOpen_eq_some.mp hb).1)

theorem Selects.idle (h : pc.batch? = none) : Selects db pc :=
  fun _ _ e => (by rw [h] at e; cases e)

/-- **A step leaves the executor in the first open batch.** -/
theorem selects_effect (ho : ∀ r, BatchOrder (db.batches r)) (hs : Selects db pc)
    (h : Effect config service a db pc db' pc') : Selects db' pc' := by
  cases h with
  | @batchSelected runId b h _ =>
      intro r n e
      cases e
      exact ⟨b, h, rfl⟩
  | attemptCounted => exact hs.of_update ho rfl (fun _ h => h) (fun _ => ⟨rfl, rfl⟩) rfl
  | @attemptStarted runId n b h _ =>
      exact hs.of_update ho rfl (fun _ _ => by simp) (fun _ => ⟨rfl, rfl⟩) rfl
  | pageFetched => exact hs.of_batches rfl rfl
  | attemptThrew h =>
      refine hs.of_batches rfl ?_
      cases pc <;> cases h <;> rfl
  | rawPersisted =>
      obtain ⟨raw, hraw⟩ := Db.persistRaw_eq db
      rw [hraw]
      exact hs.of_batches rfl rfl
  | rowStaged => exact hs.of_batches rfl rfl
  | lastPage => exact hs.of_update ho rfl (fun _ h => h) (fun _ => ⟨rfl, rfl⟩) rfl
  | pageLimit => exact hs.of_update ho rfl (fun _ h => h) (fun _ => ⟨rfl, rfl⟩) rfl
  | nextPage => exact hs.of_update ho rfl (fun _ h => h) (fun _ => ⟨rfl, rfl⟩) rfl
  | endRejected _ hp => rcases hp with rfl | ⟨outcome, rfl⟩ <;> exact .idle rfl
  | _ => exact .idle rfl

theorem Defines.of_batches (h : Defines db pc) (hb : db'.batches = db.batches)
    (hp : ∀ attempt', pc'.attempt? = some attempt' → ∃ attempt, pc.attempt? = some attempt ∧
      attempt.runId = attempt'.runId ∧ attempt.batchNumber = attempt'.batchNumber ∧
      attempt.definition = attempt'.definition) : Defines db' pc' := by
  intro attempt' e
  obtain ⟨attempt, ha, h₁, h₂, h₃⟩ := hp attempt' e
  rw [hb, ← h₁, ← h₂, ← h₃]
  exact h attempt ha

theorem Defines.of_update {attempt attempt' : BatchAttempt} {f : IngestionBatch → IngestionBatch}
    (ho : ∀ r, BatchOrder (db.batches r)) (h : Defines db pc) (ha : pc.attempt? = some attempt)
    (hf : ∀ b, b.status ≠ .completed → (f b).status ≠ .completed) (hk : KeepsDefinition f)
    (hp : pc'.attempt? = some attempt') (he : attempt.runId = attempt'.runId ∧
      attempt.batchNumber = attempt'.batchNumber ∧ attempt.definition = attempt'.definition) :
    Defines (db.modifyBatch attempt.runId attempt.batchNumber f) pc' := by
  intro attempt'' e
  rw [hp] at e
  cases e
  obtain ⟨b, hb, hn, hd⟩ := h attempt ha
  refine ⟨f b, ?_, (hk b).1.trans (hn.trans he.2.1), (hk b).2.trans (hd.trans he.2.2)⟩
  rw [← he.1, ← hn]
  simp only [Db.modifyBatch, Function.update_self]
  exact (ho _).firstOpen_update hb (hf b (firstOpen_eq_some.mp hb).1)

theorem Defines.idle (h : pc.attempt? = none) : Defines db pc :=
  fun _ e => (by rw [h] at e; cases e)

/-- **A step leaves an attempt at the definition of its batch.** -/
theorem defines_effect (ho : ∀ r, BatchOrder (db.batches r)) (hs : Selects db pc)
    (hd : Defines db pc) (h : Effect config service a db pc db' pc') : Defines db' pc' := by
  cases h with
  | @attemptStarted runId n b h _ =>
      intro attempt e
      cases e
      obtain ⟨b', hb', rfl⟩ := hs runId n rfl
      have e := findBatch_of_firstOpen (ho runId) hb'
      rw [h] at e
      cases e
      refine ⟨{ b with status := .running, lastError := none }, ?_, rfl, rfl⟩
      simp only [Db.startBatch, Db.modifyBatch, Function.update_self]
      exact (ho runId).firstOpen_update (f := fun b => { b with status := .running, lastError := none })
        hb' (by simp)
  | pageFetched =>
      exact hd.of_batches rfl fun _ e => ⟨_, rfl, by cases e; exact ⟨rfl, rfl, rfl⟩⟩
  | attemptThrew h =>
      exact hd.of_batches rfl fun _ e => ⟨_, h, by cases e; exact ⟨rfl, rfl, rfl⟩⟩
  | rawPersisted =>
      obtain ⟨raw, hraw⟩ := Db.persistRaw_eq db
      rw [hraw]
      exact hd.of_batches rfl fun _ e => ⟨_, rfl, by cases e; exact ⟨rfl, rfl, rfl⟩⟩
  | rowStaged =>
      exact hd.of_batches rfl fun _ e => ⟨_, rfl, by cases e; exact ⟨rfl, rfl, rfl⟩⟩
  | lastPage => exact hd.of_update ho rfl (fun _ h => h) (fun _ => ⟨rfl, rfl⟩) rfl ⟨rfl, rfl, rfl⟩
  | pageLimit => exact hd.of_update ho rfl (fun _ h => h) (fun _ => ⟨rfl, rfl⟩) rfl ⟨rfl, rfl, rfl⟩
  | nextPage => exact hd.of_update ho rfl (fun _ h => h) (fun _ => ⟨rfl, rfl⟩) rfl ⟨rfl, rfl, rfl⟩
  | endRejected _ hp => rcases hp with rfl | ⟨outcome, rfl⟩ <;> exact .idle rfl
  | _ => exact .idle rfl

/-- The run an execution works on has started. -/
theorem Knows.started (hK : Knows db pc) {r : RunId} (hpc : pc.runningRun? = some r) :
    ¬ NotStarted db r := by
  intro hn
  obtain ⟨run, hr, hs, -⟩ := hK.running r hpc
  have hq := hn run hr
  rw [hs] at hq
  cases hq

/-- A run that has not started after a write had not before. -/
theorem NotStarted.before {r : RunId} (hn : NotStarted db' r) (h : Write config a db pc db') :
    NotStarted db r := by
  intro run hr
  obtain ⟨run', hr', hchange⟩ := row_write h hr
  have hq := hn run' hr'
  rcases hchange.status with hs | hmove
  · rw [← hs, hq]
  · rw [hq] at hmove
    exact absurd hmove not_canBecome_queued

/-- **Nothing is written for a run that has not started**, but its snapshot and its batches. -/
theorem write_untouched {r : RunId} (hK : ∀ r', pc.runningRun? = some r' → ¬ NotStarted db r')
    (hu : NotStarted db r → Untouched db r) (h : Write config a db pc db')
    (hn : NotStarted db' r) : Untouched db' r := by
  have hn₀ := hn.before h
  obtain ⟨hending, hstaging, hbatches⟩ := hu hn₀
  -- the run an execution works on has started
  have running : pc.runningRun? ≠ some r := fun hpc => hK r hpc hn₀
  refine ⟨fun run' hr' => ?_, ?_, ?_⟩
  · rcases row_before h hr' with ⟨-, triggerType, rfl⟩ | ⟨run, hr, hchange⟩
    · rfl
    · have hnone := hending run hr
      cases hchange with
      | ended hpc => exact absurd (by rw [hpc]; rfl) running
      | _ => exact hnone
  · rcases staging_write h r with hst | ⟨n, hpc⟩
    · rw [hst]
      exact hstaging
    · exact absurd (runningRun?_of_batch? hpc) running
  · cases batches_change h r with
    | same hb => rw [hb]; exact hbatches
    | updated hpc => exact absurd (runningRun?_of_batch? hpc) running
    | stored _ _ hb =>
        rw [hb]
        intro b hb
        obtain ⟨n, definition, rfl, -⟩ := Db.mem_pendingBatches hb
        simp [pendingBatch]

theorem loadedVersionsAgree_effect (h : Effect config service a db pc db' pc') :
    LoadedVersionsAgree pc' := by
  cases h with
  | versionsLoaded h => exact versionsAgree_includeProperties h
  | endRejected _ hp => rcases hp with rfl | ⟨outcome, rfl⟩ <;> trivial
  | _ => trivial

end Steps

/-! ### Runs of the system -/

variable {s s' : SystemState Row}

theorem batchInvariant_initial : BatchInvariant (SystemState.initial : SystemState Row) where
  system := systemInvariant_initial
  order _ := ⟨List.nodup_nil, .nil⟩
  selects := .idle rfl
  defines := .idle rfl
  untouched _ _ := ⟨fun _ h => (nomatch h), fun _ => rfl, fun _ h => (nomatch h)⟩
  versions _ _ h := nomatch h
  loaded := trivial

/-- **One event keeps the batch invariant.** -/
theorem batchInvariant_next {ev : Event Row} (hI : BatchInvariant s)
    (h : next config service s ev = some s') : BatchInvariant s' := by
  have hI' := (systemInvariant_next hI.system h).1
  have ht := next_turn h
  clear h
  cases ht with
  | acquired =>
      exact ⟨hI', hI.order, .idle rfl, .idle rfl, hI.untouched, hI.versions, trivial⟩
  | crashed =>
      exact ⟨hI', hI.order, .idle rfl, .idle rfl, hI.untouched, hI.versions, trivial⟩
  | stepped h =>
      exact ⟨hI', write_batchOrder hI.order hI.selects h.write, selects_effect hI.order hI.selects h,
        defines_effect hI.order hI.selects hI.defines h,
        fun r => write_untouched (fun _ => hI.system.knows.started) (hI.untouched r) h.write,
        write_versionsAgree hI.versions hI.loaded h.write, loadedVersionsAgree_effect h⟩
  | created h =>
      obtain ⟨_, _, _, rfl⟩ := createProperty_frame h
      exact ⟨hI', hI.order, hI.selects.of_batches rfl rfl,
        hI.defines.of_batches rfl fun _ e => ⟨_, e, rfl, rfl, rfl⟩,
        fun r hn => ⟨(hI.untouched r hn).ending, (hI.untouched r hn).staging,
          (hI.untouched r hn).batches⟩, hI.versions, hI.loaded⟩
  | applied h =>
      obtain ⟨_, _, _, rfl⟩ := applyEffectiveBinSet_frame h
      exact ⟨hI', hI.order, hI.selects.of_batches rfl rfl,
        hI.defines.of_batches rfl fun _ e => ⟨_, e, rfl, rfl, rfl⟩,
        fun r hn => ⟨(hI.untouched r hn).ending, (hI.untouched r hn).staging,
          (hI.untouched r hn).batches⟩, hI.versions, hI.loaded⟩

theorem batchInvariant_of_reachable (h : Reachable config service s) : BatchInvariant s :=
  h.invariant (fun hI _ hs => batchInvariant_next hI hs) batchInvariant_initial

end NycPropertyResolver
