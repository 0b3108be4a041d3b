import NycPropertyResolver.Identity.BulkRegistration
import NycPropertyResolver.Identity.RegistrationEffects

/-!
# Identity — what a bulk registration leaves behind

The registrations of a request are of distinct BBLs (`bulkResolutions_eq_ok`), so that each is framed
off from the others: between the first and the last state of the request, its BBL changes in its own
registration alone (`persistRegistrations_resolved`).
-/

namespace NycPropertyResolver

open Library

variable {Row : Type}

/-! ### The registrations of a request -/

section Bulk

variable {ids : CanonicalBbl → PropertyId} {now : Time} {db db' db₁ db₂ : Db Row}
  {b : CanonicalBbl} {rs : List PropertyRegistration} {progress progress' : BulkProgress}

theorem SameAt.symm (h : SameAt b db db') : SameAt b db' db where
  found := h.found.symm
  property p hp := by
    obtain ⟨hf, hb, hc⟩ := h.property p (h.found ▸ hp)
    exact ⟨hf.symm, hb.symm, hc.symm⟩
  input := h.input.symm

/-- The postcondition at a BBL depends on what the BBL has. -/
theorem Resolved.of_sameAt {bins : SortedSet CanonicalBin} {p : PropertyId}
    (h₁ : SameAt b db db₁) (h₂ : SameAt b db₂ db')
    (h : Resolved db₁ db₂ (.bbl, b.text) b bins p) : Resolved db db' (.bbl, b.text) b bins p := by
  obtain ⟨hf, hb, hc⟩ := h₂.property p h.found
  have hv : db'.versionOf p = db₂.versionOf p := by rw [Db.versionOf, Db.versionOf, hf]
  refine ⟨h₂.found.trans h.found, hb.trans h.bins_eq, fun hn => ?_, fun q hq => ?_, ?_⟩
  · rw [hv, hc]
    exact h.new (h₁.found.trans hn)
  · obtain ⟨hqf, hqb, hqc⟩ := h₁.property q hq
    obtain ⟨rfl, hversion, hcoverage⟩ := h.stood q (h₁.found.trans hq)
    have hv₁ : db₁.versionOf q = db.versionOf q := by rw [Db.versionOf, Db.versionOf, hqf]
    rw [hqb] at hversion hcoverage
    rw [hqc] at hcoverage
    exact ⟨rfl, by rw [hv, hversion, hv₁], by rw [hc, hcoverage]⟩
  · have hi := h.input
    rw [Db.findPropertyIdByResolutionInput] at hi ⊢
    rw [h₂.input]
    exact hi

theorem KeepsBins.of_sameAt {bins : SortedSet CanonicalBin} (h : SameAt b db db₁)
    (hk : KeepsBins db b bins) : KeepsBins db₁ b bins := by
  obtain ⟨he, p, hp, hne⟩ := hk
  refine ⟨he, p, h.found.trans hp, ?_⟩
  rw [(h.property p hp).2.1]
  exact hne

/-- The registrations of other BBLs leave a BBL alone. -/
theorem persistRegistrations_sameAt (hb : ∀ r ∈ rs, r.bbl ≠ b)
    (hkeys : ∀ r ∈ rs, (r.inputType, r.normalizedInput) = (.bbl, r.bbl.text))
    (h : db.persistRegistrations ids now progress rs = (db', .ok progress')) :
    SameAt b db db' ∧ progress'.resolvedByBbl.find b = progress.resolvedByBbl.find b := by
  induction rs generalizing db progress with
  | nil =>
      cases h
      exact ⟨.refl b _, rfl⟩
  | cons r rs ih =>
      have hne : b ≠ r.bbl := (hb r List.mem_cons_self).symm
      have hkey : (r.inputType, r.normalizedInput) ≠ (.bbl, b.text) := by
        rw [hkeys r List.mem_cons_self]
        intro e
        exact hne (DigitString.ext (Prod.mk.inj e).2).symm
      have hs : SameAt b db (db.registerProperty (ids r.bbl) now r).1 :=
        registerProperty_sameAt hne hkey
      have hrest {db₁ : Db Row} {progress₁ : BulkProgress}
          (h : db₁.persistRegistrations ids now progress₁ rs = (db', .ok progress')) :=
        ih (fun r' hr' => hb r' (List.mem_cons_of_mem _ hr'))
          (fun r' hr' => hkeys r' (List.mem_cons_of_mem _ hr')) h
      rw [Db.persistRegistrations] at h
      split at h
      · rename_i db₁ property hreg
        rw [hreg] at hs
        obtain ⟨hs', hp⟩ := hrest h
        exact ⟨hs.trans hs', hp.trans (Table.find_set_ne hne)⟩
      · rename_i db₁ code message status hreg
        rw [hreg] at hs
        obtain ⟨hs', hp⟩ := hrest h
        exact ⟨hs.trans hs', hp⟩
      · cases h

/-- **The registration of a BBL in a request**, with the others framed off before and after it. -/
theorem persistRegistrations_resolved {property : PropertyWithRelations}
    (hnodup : (rs.map (·.bbl)).Nodup)
    (hkeys : ∀ r ∈ rs, (r.inputType, r.normalizedInput) = (.bbl, r.bbl.text))
    (h : db.persistRegistrations ids now progress rs = (db', .ok progress'))
    (hmiss : progress.resolvedByBbl.find b = none)
    (hp : progress'.resolvedByBbl.find b = some property) :
    ∃ r ∈ rs, r.bbl = b ∧ ∃ db₁ db₂, SameAt b db db₁ ∧
      db₁.registerProperty (ids b) now r = (db₂, .ok property) ∧ SameAt b db₂ db' := by
  induction rs generalizing db progress with
  | nil =>
      cases h
      rw [hmiss] at hp
      cases hp
  | cons r rs ih =>
      rw [List.map_cons, List.nodup_cons] at hnodup
      have hkeys' : ∀ r' ∈ rs, (r'.inputType, r'.normalizedInput) = (.bbl, r'.bbl.text) :=
        fun r' hr' => hkeys r' (List.mem_cons_of_mem _ hr')
      by_cases hb : r.bbl = b
      · -- The BBL is registered here, and by none of the registrations that follow.
        subst hb
        have hothers : ∀ r' ∈ rs, r'.bbl ≠ r.bbl := fun r' hr' e =>
          hnodup.1 (List.mem_map.mpr ⟨r', hr', e⟩)
        rw [Db.persistRegistrations] at h
        split at h
        · rename_i db₁ property₁ hreg
          obtain ⟨hs, hfind⟩ := persistRegistrations_sameAt hothers hkeys' h
          rw [hfind, Table.find_set_self] at hp
          cases hp
          exact ⟨r, List.mem_cons_self, rfl, db, db₁, .refl _ db, hreg, hs⟩
        · obtain ⟨-, hfind⟩ := persistRegistrations_sameAt hothers hkeys' h
          rw [hfind, hmiss] at hp
          cases hp
        · cases h
      · have hne : b ≠ r.bbl := fun e => hb e.symm
        have hkey : (r.inputType, r.normalizedInput) ≠ (.bbl, b.text) := by
          rw [hkeys r List.mem_cons_self]
          intro e
          exact hb (DigitString.ext (Prod.mk.inj e).2)
        have hs : SameAt b db (db.registerProperty (ids r.bbl) now r).1 :=
          registerProperty_sameAt hne hkey
        have hrest {db₁ : Db Row} {progress₁ : BulkProgress}
            (h : db₁.persistRegistrations ids now progress₁ rs = (db', .ok progress'))
            (hs : SameAt b db db₁) (hmiss : progress₁.resolvedByBbl.find b = none) :
            ∃ r' ∈ r :: rs, r'.bbl = b ∧ ∃ db₁ db₂, SameAt b db db₁ ∧
              db₁.registerProperty (ids b) now r' = (db₂, .ok property) ∧ SameAt b db₂ db' := by
          obtain ⟨r', hr', hb', db₂, db₃, hs₂, hreg, hs₃⟩ := ih hnodup.2 hkeys' h hmiss
          exact ⟨r', List.mem_cons_of_mem _ hr', hb', db₂, db₃, hs.trans hs₂, hreg, hs₃⟩
        rw [Db.persistRegistrations] at h
        split at h
        · rename_i db₁ property₁ hreg
          rw [hreg] at hs
          exact hrest h hs ((Table.find_set_ne hne).trans hmiss)
        · rename_i db₁ code message status hreg
          rw [hreg] at hs
          exact hrest h hs hmiss
        · cases h

/-- The registrations of one flow: of distinct BBLs, in their order. -/
theorem resolvePayloads_eq_ok {lookups : BulkLookups} {bbls : List CanonicalBbl}
    {failures : Table CanonicalBbl BulkInputError}
    {result : List PropertyRegistration × Table CanonicalBbl BulkInputError}
    (h : resolvePayloads lookups bbls failures = .ok result) :
    (result.1.map (·.bbl)).Sublist bbls ∧
      ∀ r ∈ result.1, resolveBulkBbl lookups r.bbl = .ok r := by
  induction bbls generalizing failures result with
  | nil =>
      cases h
      exact ⟨List.Sublist.refl [], fun _ hr => nomatch hr⟩
  | cons bbl bbls ih =>
      rw [resolvePayloads] at h
      split at h
      · rename_i r hr
        cases hrest : resolvePayloads lookups bbls failures with
        | error e => rw [hrest] at h; cases h
        | ok rest =>
            rw [hrest] at h
            cases h
            obtain ⟨hsub, hall⟩ := ih hrest
            have hb : r.bbl = bbl := (resolveBulkBbl_eq_ok hr).2.2.1
            refine ⟨?_, fun r' hr' => ?_⟩
            · rw [List.map_cons, hb]
              exact hsub.cons_cons bbl
            · rcases List.mem_cons.mp hr' with rfl | hr'
              · rw [hb]
                exact hr
              · exact hall r' hr'
      · obtain ⟨hsub, hall⟩ := ih h
        exact ⟨hsub.cons bbl, hall⟩
      · cases h

/-- **The registrations of a request** are of distinct BBLs, each as the lookups resolve it. -/
theorem bulkResolutions_eq_ok {clients : BulkPropertyRegistrationClients} {bbls : List CanonicalBbl}
    {lookups : BulkLookups} {result : List PropertyRegistration × Table CanonicalBbl BulkInputError}
    (hbbls : bbls.Nodup) (hl : bulkLookups clients bbls = .ok lookups)
    (h : bulkResolutions clients bbls = .ok result) :
    (result.1.map (·.bbl)).Nodup ∧ ∀ r ∈ result.1, resolveBulkBbl lookups r.bbl = .ok r := by
  rw [bulkResolutions] at h
  split at h
  · obtain ⟨lookups', hl', h⟩ := except_bind_ok.mp h
    rw [hl] at hl'
    cases hl'
    obtain ⟨nonCondo, hn, h⟩ := except_bind_ok.mp h
    obtain ⟨condo, hc, h⟩ := except_bind_ok.mp h
    cases h
    obtain ⟨hns, hna⟩ := resolvePayloads_eq_ok hn
    obtain ⟨hcs, hca⟩ := resolvePayloads_eq_ok hc
    refine ⟨?_, fun r hr => (List.mem_append.mp hr).elim (hna r) (hca r)⟩
    rw [List.map_append]
    refine (hns.append hcs).nodup ?_
    have hperm := List.filter_append_perm isCondoUnitBbl bbls
    exact (List.perm_append_comm.trans hperm).nodup_iff.mpr hbbls
  · cases h
    exact ⟨List.nodup_nil, fun _ hr => nomatch hr⟩

/-- Every BBL of one flow is registered or refused, and what was refused before is refused still. -/
theorem resolvePayloads_covers {lookups : BulkLookups} {bbls : List CanonicalBbl}
    {failures : Table CanonicalBbl BulkInputError}
    {result : List PropertyRegistration × Table CanonicalBbl BulkInputError}
    (h : resolvePayloads lookups bbls failures = .ok result) :
    (failures.find b ≠ none → result.2.find b ≠ none) ∧
      (b ∈ bbls → (∃ r ∈ result.1, r.bbl = b) ∨ result.2.find b ≠ none) := by
  induction bbls generalizing failures result with
  | nil =>
      cases h
      exact ⟨id, fun hb => nomatch hb⟩
  | cons bbl bbls ih =>
      rw [resolvePayloads] at h
      split at h
      · rename_i r hr
        cases hrest : resolvePayloads lookups bbls failures with
        | error e => rw [hrest] at h; cases h
        | ok rest =>
            rw [hrest] at h
            cases h
            obtain ⟨hkeep, hcov⟩ := ih hrest
            refine ⟨hkeep, fun hb => ?_⟩
            rcases List.mem_cons.mp hb with rfl | hb
            · exact Or.inl ⟨r, List.mem_cons_self, (resolveBulkBbl_eq_ok hr).2.2.1⟩
            · rcases hcov hb with ⟨r', hr', hb'⟩ | hf
              · exact Or.inl ⟨r', List.mem_cons_of_mem _ hr', hb'⟩
              · exact Or.inr hf
      · obtain ⟨hkeep, hcov⟩ := ih h
        refine ⟨fun hf => hkeep ?_, fun hb => ?_⟩
        · rw [Table.find_set]
          split
          · simp
          · exact hf
        · rcases List.mem_cons.mp hb with rfl | hb
          · exact Or.inr (hkeep (by simp))
          · exact hcov hb
      · cases h

/-- **Every uncached BBL of a request is registered or refused.** -/
theorem bulkResolutions_covers {clients : BulkPropertyRegistrationClients}
    {bbls : List CanonicalBbl}
    {result : List PropertyRegistration × Table CanonicalBbl BulkInputError}
    (h : bulkResolutions clients bbls = .ok result) (hb : b ∈ bbls) :
    (∃ r ∈ result.1, r.bbl = b) ∨ result.2.find b ≠ none := by
  rw [bulkResolutions] at h
  split at h
  · obtain ⟨lookups, -, h⟩ := except_bind_ok.mp h
    obtain ⟨nonCondo, hn, h⟩ := except_bind_ok.mp h
    obtain ⟨condo, hc, h⟩ := except_bind_ok.mp h
    cases h
    by_cases hcondo : isCondoUnitBbl b = true
    · rcases (resolvePayloads_covers hc).2 (List.mem_filter.mpr ⟨hb, hcondo⟩) with ⟨r, hr, he⟩ | hf
      · exact Or.inl ⟨r, List.mem_append_right _ hr, he⟩
      · exact Or.inr hf
    · have hmem : b ∈ bbls.filter fun bbl => !isCondoUnitBbl bbl :=
        List.mem_filter.mpr ⟨hb, by simpa using hcondo⟩
      rcases (resolvePayloads_covers hn).2 hmem with ⟨r, hr, he⟩ | hf
      · exact Or.inl ⟨r, List.mem_append_left _ hr, he⟩
      · exact Or.inr ((resolvePayloads_covers hc).1 hf)
  · rename_i hl
    rw [List.length_eq_zero_iff.mp (Nat.eq_zero_of_not_pos hl)] at hb
    cases hb

/-- The registrations of a request are of its uncached BBLs, each answered by lookups. -/
theorem bulkResolutions_answers {clients : BulkPropertyRegistrationClients} {bbls : List CanonicalBbl}
    {result : List PropertyRegistration × Table CanonicalBbl BulkInputError}
    (h : bulkResolutions clients bbls = .ok result) :
    ∀ r ∈ result.1, r.bbl ∈ bbls ∧ ∃ lookups, resolveBulkBbl lookups r.bbl = .ok r := by
  rw [bulkResolutions] at h
  split at h
  · obtain ⟨lookups, -, h⟩ := except_bind_ok.mp h
    obtain ⟨nonCondo, hn, h⟩ := except_bind_ok.mp h
    obtain ⟨condo, hc, h⟩ := except_bind_ok.mp h
    cases h
    intro r hr
    have hof {bbls' : List CanonicalBbl} {failures : Table CanonicalBbl BulkInputError}
        {result : List PropertyRegistration × Table CanonicalBbl BulkInputError}
        (h : resolvePayloads lookups bbls' failures = .ok result) (hsub : bbls'.Sublist bbls)
        (hr : r ∈ result.1) : r.bbl ∈ bbls ∧ ∃ lookups, resolveBulkBbl lookups r.bbl = .ok r := by
      obtain ⟨hs, ha⟩ := resolvePayloads_eq_ok h
      exact ⟨hsub.subset (hs.subset (List.mem_map_of_mem hr)), lookups, ha r hr⟩
    exact (List.mem_append.mp hr).elim (hof hn List.filter_sublist) (hof hc List.filter_sublist)
  · cases h
    exact fun _ hr => nomatch hr

/-- A cached registration is the property stored for the BBL. -/
theorem findCachedBblRegistrations_some {bbls : List CanonicalBbl}
    {cached : Table CanonicalBbl PropertyWithRelations} {property : PropertyWithRelations}
    (h : db.findCachedBblRegistrations bbls = .ok cached) (hp : cached.find b = some property) :
    db.findPropertyIdByResolutionInput .bbl b.text = some property.id := by
  induction bbls generalizing cached with
  | nil => cases h; cases hp
  | cons bbl bbls ih =>
      obtain ⟨results, hr, h⟩ := except_bind_ok.mp h
      cases hf : db.findPropertyIdByResolutionInput .bbl bbl.text with
      | none =>
          simp only [hf] at h
          cases h
          exact ih hr hp
      | some p =>
          simp only [hf] at h
          split at h
          · cases h
          · rename_i property' hl
            cases h
            rw [Table.find_set] at hp
            split at hp
            · rename_i he
              cases hp
              obtain ⟨x, -, hx⟩ := Option.map_eq_some_iff.mp hl
              rw [he, hf, ← hx]
            · exact ih hr hp

/-- A BBL without a cached registration has no stored input. -/
theorem findCachedBblRegistrations_none {bbls : List CanonicalBbl}
    {cached : Table CanonicalBbl PropertyWithRelations}
    (h : db.findCachedBblRegistrations bbls = .ok cached) (hb : b ∈ bbls)
    (hn : cached.find b = none) : db.findPropertyIdByResolutionInput .bbl b.text = none := by
  induction bbls generalizing cached with
  | nil => cases hb
  | cons bbl bbls ih =>
      obtain ⟨results, hr, h⟩ := except_bind_ok.mp h
      cases hf : db.findPropertyIdByResolutionInput .bbl bbl.text with
      | none =>
          simp only [hf] at h
          cases h
          rcases List.mem_cons.mp hb with rfl | hb
          · exact hf
          · exact ih hr hb hn
      | some p =>
          simp only [hf] at h
          split at h
          · cases h
          · cases h
            rw [Table.find_set] at hn
            split at hn
            · cases hn
            · rename_i hne
              exact ih hr ((List.mem_cons.mp hb).resolve_left hne) hn

end Bulk

end NycPropertyResolver
