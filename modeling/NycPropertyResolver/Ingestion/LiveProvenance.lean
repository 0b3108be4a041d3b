import NycPropertyResolver.Ingestion.SourceCoverage

/-!
# Ingestion — provenance of live rows

Every live row is a row of the source, as it was normalized: also one that is not current any more, one
of a BIN that is not registered any more, and one of a run that failed later.  A row comes to an
execution in a page (`ExecutorState.held`), from there to staging and from there, when the run is
accepted, to the live table.
-/

namespace NycPropertyResolver

open Library

variable {Row : Type} {config : ExecutorConfig} {columns : SourceColumns Row}
  {service : EcbRowService Row} {source : Nat → SourceDataset Row}

/-! ### Statements -/

/-- A violation of the source at some instant. -/
def FromSource (service : EcbRowService Row) (source : Nat → SourceDataset Row)
    (v : NormalizedEcbViolation) : Prop :=
  ∃ i, ∃ row ∈ (source i).rows, service.normalizeEcbViolation row = some v

/-- The rows of its page that an execution has not staged yet. -/
def ExecutorState.held : ExecutorState Row → List Row
  | .processingRows _ _ remaining => remaining
  | .stagingRow _ _ row _ remaining => row :: remaining
  | _ => []

/-- **The invariant of provenance.**  A BIN is of a property that is there. -/
structure Provenance (service : EcbRowService Row) (source : Nat → SourceDataset Row)
    (s : SystemState Row) : Prop where
  held : ∀ row ∈ s.executor.held, ∃ i, row ∈ (source i).rows
  staging : ∀ r sourceId v, (s.db.staging r).find sourceId = some v → FromSource service source v
  live : ∀ sourceId live, s.db.live.find sourceId = some live →
    FromSource service source live.toNormalizedEcbViolation
  registered : ∀ p bin, bin ∈ s.db.propertyBins p → s.db.properties.find p ≠ none

/-! ### One step -/

section Steps

variable {a : Answer Row} {db db' : Db Row} {pc pc' : ExecutorState Row} {i : Nat}

/-- **What a step holds** it held before, or has read from the source. -/
theorem held_effect (hans : SourceAnswers columns service (source i) pc a)
    (hheld : ∀ row ∈ pc.held, ∃ i, row ∈ (source i).rows)
    (h : Effect config service a db pc db' pc') : ∀ row ∈ pc'.held, ∃ i, row ∈ (source i).rows := by
  cases h with
  | @pageFetched attempt page h =>
      have hpage := hans.page attempt rfl page (by rw [h]; rfl)
      intro row hrow
      have hmem : row ∈ page := hrow
      rw [hpage, dataPage] at hmem
      exact ⟨i, (mem_matchingRows.mp (List.mem_of_mem_drop (List.mem_of_mem_take hmem))).1⟩
  | rawPersisted => exact hheld
  | rowStaged => exact fun row hrow => hheld row (List.mem_cons_of_mem _ hrow)
  | endRejected _ hp =>
      rcases hp with rfl | ⟨outcome, rfl⟩
      · exact fun row hrow => absurd hrow List.not_mem_nil
      · exact fun row hrow => absurd hrow List.not_mem_nil
  | _ => exact fun row hrow => absurd hrow List.not_mem_nil

/-- **What a step stages** it held. -/
theorem staging_effect (h : Effect config service a db pc db' pc') {r : RunId} {sourceId : SourceId}
    {v : NormalizedEcbViolation} (hv : (db'.staging r).find sourceId = some v) :
    (db.staging r).find sourceId = some v ∨
      ∃ row ∈ pc.held, service.normalizeEcbViolation row = some v := by
  cases h with
  | @rowStaged attempt page rest row _ normalized hnormalized =>
      by_cases hr : r = attempt.runId
      · subst hr
        simp only [Db.upsertStaging, Function.update_self, Table.find_set] at hv
        split at hv
        · cases hv
          exact .inr ⟨row, List.mem_cons_self, hnormalized⟩
        · exact .inl hv
      · rw [Db.staging_upsertStaging_ne hr] at hv
        exact .inl hv
  | runCreated h =>
      obtain ⟨-, -, rfl⟩ := Db.createQueued_eq_ok h
      exact .inl hv
  | snapshotStored h =>
      obtain ⟨_, -, -, -, rfl⟩ := Db.initializeRunSnapshotAndBatches_eq_ok h
      exact .inl hv
  | runStarted h =>
      obtain ⟨_, -, -, -, -, rfl⟩ := Db.setStartWatermarkAndRunning_eq_ok h
      exact .inl hv
  | budgetExhausted _ _ _ h =>
      rw [(Db.markFailed_eq_ok h).2] at hv
      exact .inl hv
  | pageFailed _ h =>
      rw [(Db.markFailed_eq_ok h).2] at hv
      exact .inl hv
  | pageLimitFailed h =>
      rw [(Db.markFailed_eq_ok h).2] at hv
      exact .inl hv
  | attemptClosed h =>
      rw [(Db.markFailed_eq_ok h).2] at hv
      exact .inl hv
  | rawPersisted =>
      obtain ⟨raw, hraw⟩ := Db.persistRaw_eq db
      rw [hraw] at hv
      exact .inl hv
  | terminalPublished h =>
      obtain ⟨-, ht⟩ := Db.publishTerminalFailure_ok h
      obtain ⟨_, _, -, -, -, rfl⟩ := Db.terminalTransaction_frame ht
      exact .inl hv
  | acceptedPublished h =>
      rcases Db.acceptedTransaction_frame (Db.publish_ok h) with rfl | ⟨_, _, _, -, -, rfl⟩
      · exact .inl hv
      · exact .inl hv
  | _ => exact .inl hv

/-- A live row after promotion was staged, or was live before with the same content. -/
theorem live_promote {runId : RunId} {now : Time} {sourceId : SourceId} {live : EcbViolation}
    (h : (db.promoteEcbLiveState runId now).live.find sourceId = some live) :
    (db.staging runId).find sourceId = some live.toNormalizedEcbViolation ∨
      ∃ before, db.live.find sourceId = some before ∧
        before.toNormalizedEcbViolation = live.toNormalizedEcbViolation := by
  cases hs : (db.staging runId).find sourceId with
  | some staged =>
      rw [Db.live_promote_of_staged hs] at h
      cases h
      exact .inl rfl
  | none =>
      rw [Db.live_promote_of_not_staged hs] at h
      obtain ⟨before, hbefore, rfl⟩ := Option.map_eq_some_iff.mp h
      refine .inr ⟨before, hbefore, ?_⟩
      split
      · rfl
      · rfl

/-- **What a write makes live** was staged or live. -/
theorem live_write (h : Write config a db pc db') {sourceId : SourceId} {live : EcbViolation}
    (hlive : db'.live.find sourceId = some live) :
    (∃ r, (db.staging r).find sourceId = some live.toNormalizedEcbViolation) ∨
      ∃ before, db.live.find sourceId = some before ∧
        before.toNormalizedEcbViolation = live.toNormalizedEcbViolation := by
  have hsame : db'.live = db.live → ∃ before, db.live.find sourceId = some before ∧
      before.toNormalizedEcbViolation = live.toNormalizedEcbViolation :=
    fun e => ⟨live, e ▸ hlive, rfl⟩
  cases h with
  | runCreated hc =>
      obtain ⟨-, -, rfl⟩ := Db.createQueued_eq_ok hc
      exact .inr (hsame rfl)
  | snapshotStored _ hc =>
      obtain ⟨_, -, -, -, rfl⟩ := Db.initializeRunSnapshotAndBatches_eq_ok hc
      exact .inr (hsame rfl)
  | runStarted _ hc =>
      obtain ⟨_, -, -, -, -, rfl⟩ := Db.setStartWatermarkAndRunning_eq_ok hc
      exact .inr (hsame rfl)
  | terminalPublished _ hc =>
      obtain ⟨-, ht⟩ := Db.publishTerminalFailure_ok hc
      obtain ⟨_, _, -, -, -, rfl⟩ := Db.terminalTransaction_frame ht
      exact .inr (hsame rfl)
  | acceptedPublished _ hc =>
      rcases Db.acceptedTransaction_eq_ok (Db.publish_ok hc) with
        ⟨-, rfl, -⟩ | ⟨run, db₂, -, -, -, hcov, rfl⟩
      · exact .inr (hsame rfl)
      obtain ⟨coverage, rfl⟩ := Db.publishSuccessfulCoverage_frame hcov
      exact (live_promote hlive).imp_left fun h => ⟨_, h⟩
  | _ => exact .inr (hsame rfl)

/-- The BINs of a property that is there, after a transaction on a property. -/
theorem registered_identity {p : PropertyId} (hother : ∀ q, q ≠ p →
      db'.propertyBins q = db.propertyBins q ∧ db'.properties.find q = db.properties.find q)
    (hself : db'.properties.find p ≠ none)
    (h : ∀ q bin, bin ∈ db.propertyBins q → db.properties.find q ≠ none) :
    ∀ q bin, bin ∈ db'.propertyBins q → db'.properties.find q ≠ none := by
  intro q bin hbin
  by_cases hq : q = p
  · exact hq ▸ hself
  · obtain ⟨hbins, hproperty⟩ := hother q hq
    rw [hproperty]
    exact h q bin (hbins ▸ hbin)

end Steps

/-! ### Runs -/

section Runs

variable {s s' : TrackedState Row}

theorem provenance_initial : Provenance service source (.initial : SystemState Row) where
  held _ hrow := absurd hrow List.not_mem_nil
  staging _ _ _ h := nomatch h
  live _ _ h := nomatch h
  registered _ _ h := nomatch h

/-- **One event** keeps provenance. -/
theorem provenance_next {ev : TrackedEvent Row} (hI : Provenance service source s.system)
    (hans : AnsweredBy columns service source s ev) (h : trackedNext config service s ev = some s') :
    Provenance service source s'.system := by
  cases ev with
  | sourceChanges =>
      cases h
      exact hI
  | system ev =>
      obtain ⟨t, hn, rfl⟩ := Option.map_eq_some_iff.mp h
      cases next_turn hn with
      | acquired => exact ⟨fun _ hrow => absurd hrow List.not_mem_nil, hI.staging, hI.live, hI.registered⟩
      | crashed => exact ⟨fun _ hrow => absurd hrow List.not_mem_nil, hI.staging, hI.live, hI.registered⟩
      | @created p input now db' hp =>
          obtain ⟨_, bbl, -, -, -, -, -, rfl⟩ := Db.createProperty_eq_ok hp
          refine ⟨hI.held, hI.staging, hI.live, registered_identity (p := p) (fun q hq => ?_) ?_
            hI.registered⟩
          · exact ⟨Function.update_of_ne hq .., Table.find_set_ne hq⟩
          · simp
      | @applied p candidateBins db' r hp =>
          obtain ⟨hfound, ⟨-, rfl, -⟩ | ⟨-, -, rfl⟩⟩ := Db.applyEffectiveBinSet_eq_ok hp
          · exact hI
          refine ⟨hI.held, hI.staging, hI.live, registered_identity (p := p) (fun q hq => ?_) ?_
            hI.registered⟩
          · exact ⟨Function.update_of_ne hq .., Table.find_modify_ne hq⟩
          · obtain ⟨property, hproperty⟩ := Option.ne_none_iff_exists'.mp hfound
            rw [Db.replaceBinSet, Table.find_modify_self, hproperty]
            exact Option.some_ne_none _
      | @stepped a db' pc' heffect =>
          obtain ⟨hproperties, hbins, -⟩ := write_snapshot heffect.write
          refine ⟨held_effect hans hI.held heffect, fun r sourceId v hv => ?_,
            fun sourceId live hlive => ?_, fun p bin hbin => ?_⟩
          · rcases staging_effect heffect hv with hold | ⟨row, hrow, hnormalized⟩
            · exact hI.staging r sourceId v hold
            · obtain ⟨i, hi⟩ := hI.held row hrow
              exact ⟨i, row, hi, hnormalized⟩
          · rcases live_write heffect.write hlive with ⟨r, hstaged⟩ | ⟨before, hbefore, heq⟩
            · exact hI.staging r sourceId _ hstaged
            · exact heq ▸ hI.live sourceId before hbefore
          · rw [hproperties]
            exact hI.registered p bin (hbins ▸ hbin)

/-- **Every live row is a row of the source**, in every state the system reaches. -/
theorem provenance_of_steps
    (h : Steps (trackedNext config service) (AnsweredInOrder columns service source)
      ⟨.initial, 0⟩ s) : Provenance service source s.system :=
  h.invariant (I := fun s => Provenance service source s.system)
    (fun hI hok hn => provenance_next hI hok.1 hn) provenance_initial

end Runs

end NycPropertyResolver
