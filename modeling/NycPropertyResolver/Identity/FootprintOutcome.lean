import NycPropertyResolver.Identity.FootprintValidation

/-!
# Identity — what a set of footprint candidates comes to

The outcome of validating the footprint candidates of a parcel (`validatedBins`): the error of the
first check that fails, or the BINs.  Each candidate is tested alone (`belongs_iff`), and what is read
of the two lists of the result is which candidates are in them, so that the order of the candidates and
their repetitions are irrelevant (`validatedBins_outcome`).
-/

namespace NycPropertyResolver

open Library

/-! ### Candidates -/

/-- The candidate is of the parcel: MAPPLUTO says so, or it is silent, by a null for a parcel that is no
condominium or with no field at all, and the base BBL says so. -/
def BelongsTo (canonicalBbl : CanonicalBbl) (mode : FootprintValidationMode)
    (candidate : BuildingFootprintCandidate) : Prop :=
  candidate.mapplutoBbl = some (some canonicalBbl) ∨
    (candidate.mapplutoBbl = none ∨ candidate.mapplutoBbl = some none ∧ mode = .nonCondo) ∧
      candidate.baseBbl = canonicalBbl

/-- The candidate is turned down for its MAPPLUTO BBL: that of another parcel, or null where a
condominium needs one. -/
def MapplutoMismatch (canonicalBbl : CanonicalBbl) (mode : FootprintValidationMode)
    (candidate : BuildingFootprintCandidate) : Prop :=
  validateFootprintCandidate candidate canonicalBbl mode = .error .mapplutoBblMismatch

section Candidates

variable {canonicalBbl : CanonicalBbl} {mode : FootprintValidationMode}
  {candidate : BuildingFootprintCandidate}

instance : Decidable (BelongsTo canonicalBbl mode candidate) :=
  inferInstanceAs (Decidable (_ ∨ _))

/-- **The candidates that are accepted** are those of the parcel. -/
theorem isAccepted_iff :
    isAccepted canonicalBbl mode candidate = true ↔ BelongsTo canonicalBbl mode candidate := by
  obtain ⟨bin, baseBbl, mapplutoBbl⟩ := candidate
  rw [isAccepted, BelongsTo, validateFootprintCandidate]
  cases mapplutoBbl with
  | none =>
      by_cases hbase : baseBbl = canonicalBbl
      · simp [hbase, Except.isOk, Except.toBool]
      · simp [hbase, Except.isOk, Except.toBool]
  | some mappluto =>
      cases mappluto with
      | none =>
          cases mode with
          | condo => simp [Except.isOk, Except.toBool]
          | nonCondo =>
              by_cases hbase : baseBbl = canonicalBbl
              · simp [hbase, Except.isOk, Except.toBool]
              · simp [hbase, Except.isOk, Except.toBool]
      | some mappluto =>
          by_cases hmappluto : mappluto = canonicalBbl
          · simp [hmappluto, Except.isOk, Except.toBool]
          · simp [hmappluto, Except.isOk, Except.toBool]

/-- Any other candidate is turned down for one of its two BBLs. -/
theorem validate_of_not_belongs (h : ¬ BelongsTo canonicalBbl mode candidate) :
    ∃ reason, validateFootprintCandidate candidate canonicalBbl mode = .error reason := by
  cases hvalidate : validateFootprintCandidate candidate canonicalBbl mode with
  | error reason => exact ⟨reason, rfl⟩
  | ok validated =>
      refine absurd (isAccepted_iff.mp ?_) h
      rw [isAccepted, hvalidate]
      rfl

end Candidates

/-! ### Lists of candidates -/

section Lists

variable {canonicalBbl : CanonicalBbl} {mode : FootprintValidationMode}
  {candidates : List BuildingFootprintCandidate}

theorem accepted_ne_nil_iff :
    (validateFootprintCandidates candidates canonicalBbl mode).accepted.length > 0 ↔
      ∃ candidate ∈ candidates, BelongsTo canonicalBbl mode candidate := by
  have hbins := congrArg List.length (accepted_bins candidates canonicalBbl mode)
  rw [List.length_map, List.length_map] at hbins
  rw [hbins, gt_iff_lt, List.length_pos_iff_exists_mem]
  constructor
  · rintro ⟨candidate, hc⟩
    obtain ⟨hmem, haccepted⟩ := List.mem_filter.mp hc
    exact ⟨candidate, hmem, isAccepted_iff.mp haccepted⟩
  · rintro ⟨candidate, hmem, hbelongs⟩
    exact ⟨candidate, List.mem_filter.mpr ⟨hmem, isAccepted_iff.mpr hbelongs⟩⟩

/-- A reason is given exactly when it is that of a candidate. -/
theorem rejected_any_iff {reason : FootprintValidationFailureReason} :
    ((validateFootprintCandidates candidates canonicalBbl mode).rejected.any
        fun entry => entry.reason = reason) = true ↔
      ∃ candidate ∈ candidates,
        validateFootprintCandidate candidate canonicalBbl mode = .error reason := by
  induction candidates with
  | nil => simp [validateFootprintCandidates]
  | cons candidate candidates ih =>
      rw [List.exists_mem_cons_iff, ← ih, validateFootprintCandidates]
      cases hvalidate : validateFootprintCandidate candidate canonicalBbl mode with
      | error reason' => simp
      | ok validated => simp

end Lists

/-! ### The outcome -/

/-- `validateFootprintCandidates`, `assertFootprintIdentifierAgreement` and `collectValidatedBins`, as
the resolvers call them one after the other. -/
def validatedBins (candidates : List BuildingFootprintCandidate) (canonicalBbl : CanonicalBbl)
    (mode : FootprintValidationMode) : Except IdentityError (SortedSet CanonicalBin) := do
  let validation := validateFootprintCandidates candidates canonicalBbl mode
  assertFootprintIdentifierAgreement validation false
  .ok (collectValidatedBins validation)

/-- The error of footprints without an accepted one, of which one is evidence of another parcel. -/
def mapplutoMismatchError : IdentityError :=
  .app "RESOLVER_FOOTPRINT_MAPPLUTO_BBL_MISMATCH"
    "Building Footprints MAPPLUTO_BBL does not match the canonical parcel BBL" 422

/-- The error of footprints that all have another base parcel. -/
def baseMismatchError : IdentityError :=
  .app "RESOLVER_FOOTPRINT_BASE_BBL_MISMATCH"
    "Building Footprints BASE_BBL does not match the canonical parcel BBL" 422

section Outcome

variable {canonicalBbl : CanonicalBbl} {mode : FootprintValidationMode}
  {candidates candidates' : List BuildingFootprintCandidate}

theorem validatedBins_of_belongs (h : candidates = [] ∨
    ∃ candidate ∈ candidates, BelongsTo canonicalBbl mode candidate) :
    validatedBins candidates canonicalBbl mode = .ok (acceptedBins candidates canonicalBbl mode) := by
  have hcollect := collectValidatedBins_eq candidates canonicalBbl mode
  rcases h with rfl | h
  · rw [← hcollect]
    rfl
  · simp only [validatedBins, assertFootprintIdentifierAgreement, if_pos (accepted_ne_nil_iff.mpr h),
      hcollect, bind, Except.bind]

/-- With candidates, none of the parcel, the code is that of the MAPPLUTO BBLs if one of these was the
reason. -/
theorem validatedBins_of_not_belongs (hne : candidates ≠ [])
    (h : ∀ candidate ∈ candidates, ¬ BelongsTo canonicalBbl mode candidate) :
    ((∃ candidate ∈ candidates, MapplutoMismatch canonicalBbl mode candidate) →
        validatedBins candidates canonicalBbl mode = .error mapplutoMismatchError) ∧
      ((¬ ∃ candidate ∈ candidates, MapplutoMismatch canonicalBbl mode candidate) →
        validatedBins candidates canonicalBbl mode = .error baseMismatchError) := by
  have hnone : ¬ (validateFootprintCandidates candidates canonicalBbl mode).accepted.length > 0 := by
    rw [accepted_ne_nil_iff]
    rintro ⟨candidate, hmem, hbelongs⟩
    exact h candidate hmem hbelongs
  constructor
  · intro hmappluto
    simp only [validatedBins, assertFootprintIdentifierAgreement, if_neg hnone,
      if_pos (rejected_any_iff.mpr hmappluto), bind, Except.bind, mapplutoMismatchError]
  · intro hmappluto
    have hbase : ∃ candidate ∈ candidates,
        validateFootprintCandidate candidate canonicalBbl mode = .error .baseBblMismatch := by
      obtain ⟨candidate, hmem⟩ := List.exists_mem_of_ne_nil candidates hne
      obtain ⟨reason, hreason⟩ := validate_of_not_belongs (h candidate hmem)
      cases reason with
      | mapplutoBblMismatch => exact absurd ⟨candidate, hmem, hreason⟩ hmappluto
      | baseBblMismatch => exact ⟨candidate, hmem, hreason⟩
    simp only [validatedBins, assertFootprintIdentifierAgreement, if_neg hnone,
      if_neg fun hany => hmappluto (rejected_any_iff.mp hany),
      if_pos (rejected_any_iff.mpr hbase), bind, Except.bind, baseMismatchError]

theorem mem_acceptedBins {bin : CanonicalBin} : bin ∈ acceptedBins candidates canonicalBbl mode ↔
    (∃ candidate ∈ candidates, BelongsTo canonicalBbl mode candidate ∧ candidate.bin = bin) ∧
      isPlaceholderBin bin = false := by
  simp only [acceptedBins, SortedSet.mem_ofList, List.mem_filter, List.mem_map, isAccepted_iff,
    and_assoc, Bool.not_eq_true']

/-- The same candidates come to the same. -/
theorem validatedBins_congr (h : ∀ candidate, candidate ∈ candidates' ↔ candidate ∈ candidates) :
    validatedBins candidates' canonicalBbl mode = validatedBins candidates canonicalBbl mode := by
  have hnil : candidates' = [] ↔ candidates = [] := by
    rw [List.eq_nil_iff_forall_not_mem, List.eq_nil_iff_forall_not_mem]
    exact forall_congr' fun candidate => not_congr (h candidate)
  have hsome (P : BuildingFootprintCandidate → Prop) :
      (∃ candidate ∈ candidates', P candidate) ↔ ∃ candidate ∈ candidates, P candidate :=
    exists_congr fun candidate => and_congr_left fun _ => h candidate
  by_cases hbelongs : candidates = [] ∨
      ∃ candidate ∈ candidates, BelongsTo canonicalBbl mode candidate
  · have hbelongs' := (or_congr hnil (hsome _)).mpr hbelongs
    rw [validatedBins_of_belongs hbelongs, validatedBins_of_belongs hbelongs']
    refine congrArg Except.ok (SortedSet.ext_mem fun bin => ?_)
    rw [mem_acceptedBins, mem_acceptedBins, hsome]
  · obtain ⟨hne, hnone⟩ := not_or.mp hbelongs
    obtain ⟨hmappluto, hbase⟩ := validatedBins_of_not_belongs hne
      fun candidate hmem hc => hnone ⟨candidate, hmem, hc⟩
    obtain ⟨hmappluto', hbase'⟩ := validatedBins_of_not_belongs (fun e => hne (hnil.mp e))
      fun candidate hmem hc => hnone ⟨candidate, (h candidate).mp hmem, hc⟩
    by_cases hmismatch : ∃ candidate ∈ candidates, MapplutoMismatch canonicalBbl mode candidate
    · rw [hmappluto hmismatch, hmappluto' ((hsome _).mpr hmismatch)]
    · rw [hbase hmismatch, hbase' fun hc => hmismatch ((hsome _).mp hc)]

/-- **What the error is**, and when there is one. -/
theorem validatedBins_eq_error_iff {error : IdentityError} :
    validatedBins candidates canonicalBbl mode = .error error ↔
      candidates ≠ [] ∧ (∀ candidate ∈ candidates, ¬ BelongsTo canonicalBbl mode candidate) ∧
        ((∃ candidate ∈ candidates, MapplutoMismatch canonicalBbl mode candidate) ∧
            error = mapplutoMismatchError ∨
          (¬ ∃ candidate ∈ candidates, MapplutoMismatch canonicalBbl mode candidate) ∧
            error = baseMismatchError) := by
  constructor
  · intro h
    have hbelongs : ¬ (candidates = [] ∨
        ∃ candidate ∈ candidates, BelongsTo canonicalBbl mode candidate) := by
      intro hbelongs
      rw [validatedBins_of_belongs hbelongs] at h
      cases h
    obtain ⟨hne, hnone⟩ := not_or.mp hbelongs
    have hnone' : ∀ candidate ∈ candidates, ¬ BelongsTo canonicalBbl mode candidate :=
      fun candidate hmem hc => hnone ⟨candidate, hmem, hc⟩
    obtain ⟨hmappluto, hbase⟩ := validatedBins_of_not_belongs hne hnone'
    refine ⟨hne, hnone', ?_⟩
    by_cases hmismatch : ∃ candidate ∈ candidates, MapplutoMismatch canonicalBbl mode candidate
    · rw [hmappluto hmismatch] at h
      exact .inl ⟨hmismatch, (Except.error.inj h).symm⟩
    · rw [hbase hmismatch] at h
      exact .inr ⟨hmismatch, (Except.error.inj h).symm⟩
  · rintro ⟨hne, hnone, ⟨hmismatch, rfl⟩ | ⟨hmismatch, rfl⟩⟩
    · exact (validatedBins_of_not_belongs hne hnone).1 hmismatch
    · exact (validatedBins_of_not_belongs hne hnone).2 hmismatch

/-- **What the BINs are**, and when there is no error. -/
theorem validatedBins_eq_ok_iff {bins : SortedSet CanonicalBin} :
    validatedBins candidates canonicalBbl mode = .ok bins ↔
      (candidates = [] ∨ ∃ candidate ∈ candidates, BelongsTo canonicalBbl mode candidate) ∧
        ∀ bin, bin ∈ bins ↔
          (∃ candidate ∈ candidates, BelongsTo canonicalBbl mode candidate ∧ candidate.bin = bin) ∧
            isPlaceholderBin bin = false := by
  constructor
  · intro h
    have hbelongs : candidates = [] ∨
        ∃ candidate ∈ candidates, BelongsTo canonicalBbl mode candidate := by
      by_contra hn
      obtain ⟨hne, hnone⟩ := not_or.mp hn
      obtain ⟨error, herror⟩ : ∃ error, validatedBins candidates canonicalBbl mode = .error error := by
        obtain ⟨hmappluto, hbase⟩ := validatedBins_of_not_belongs hne
          fun candidate hmem hc => hnone ⟨candidate, hmem, hc⟩
        exact (em _).elim (fun hm => ⟨_, hmappluto hm⟩) fun hm => ⟨_, hbase hm⟩
      rw [herror] at h
      cases h
    rw [validatedBins_of_belongs hbelongs] at h
    cases h
    exact ⟨hbelongs, fun bin => mem_acceptedBins⟩
  · rintro ⟨hbelongs, hbins⟩
    rw [validatedBins_of_belongs hbelongs]
    refine congrArg Except.ok (SortedSet.ext_mem fun bin => ?_)
    rw [mem_acceptedBins, hbins]

end Outcome

/-- **Footprint validation is a function of the candidate set.**  Lists of the same candidates come to
the same; there is an error exactly when there are candidates and none is of the parcel, the one of the
MAPPLUTO BBLs if a candidate was turned down for it and that of the base BBLs otherwise; and else the
BINs are those of the candidates of the parcel, but for placeholders. -/
theorem validatedBins_outcome (candidates : List BuildingFootprintCandidate)
    (canonicalBbl : CanonicalBbl) (mode : FootprintValidationMode) :
    (∀ candidates', (∀ candidate, candidate ∈ candidates' ↔ candidate ∈ candidates) →
      validatedBins candidates' canonicalBbl mode = validatedBins candidates canonicalBbl mode) ∧
    (∀ error, validatedBins candidates canonicalBbl mode = .error error ↔
      candidates ≠ [] ∧ (∀ candidate ∈ candidates, ¬ BelongsTo canonicalBbl mode candidate) ∧
        ((∃ candidate ∈ candidates, MapplutoMismatch canonicalBbl mode candidate) ∧
            error = mapplutoMismatchError ∨
          (¬ ∃ candidate ∈ candidates, MapplutoMismatch canonicalBbl mode candidate) ∧
            error = baseMismatchError)) ∧
    ∀ bins, validatedBins candidates canonicalBbl mode = .ok bins ↔
      (candidates = [] ∨ ∃ candidate ∈ candidates, BelongsTo canonicalBbl mode candidate) ∧
        ∀ bin, bin ∈ bins ↔
          (∃ candidate ∈ candidates, BelongsTo canonicalBbl mode candidate ∧ candidate.bin = bin) ∧
            isPlaceholderBin bin = false :=
  ⟨fun _ h => validatedBins_congr h, fun _ => validatedBins_eq_error_iff,
    fun _ => validatedBins_eq_ok_iff⟩

end NycPropertyResolver
