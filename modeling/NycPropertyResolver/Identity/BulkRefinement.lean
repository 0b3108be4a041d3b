import Mathlib.Logic.Equiv.List
import NycPropertyResolver.Identity.FootprintOutcome
import NycPropertyResolver.Identity.StoredState

/-!
# Identity — bulk registration refines single registration

Over clients whose bulk lookups agree with their single ones, key by key (`AgreesWith`), a request
resolves a BBL as `resolveBbl` does, its metadata aside (`resolveBulkBbl_agrees`).  The registrations of
a request frame each other off, so that each starts from what was stored for its BBL before the request
(`persistRegistrations_spec`); and what a registration leaves is a function of that.
-/

namespace NycPropertyResolver

open Library

/-! ### Lookups -/

/-- A bulk lookup that does not throw and gives every key what its single lookup gives. -/
def LookupsAgree {κ α : Type} [DecidableEq κ] (many : List κ → Except IdentityError (Table κ α))
    (one : κ → Except IdentityError α) : Prop :=
  ∀ keys, ∃ results, many keys = .ok results ∧
    ∀ key ∈ keys, ∃ result, one key = .ok result ∧ results.find key = some result

/-- The results of some keys. -/
def tabulate {κ α : Type} [DecidableEq κ] (one : κ → α) (keys : List κ) : Table κ α :=
  keys.foldr (fun key results => results.set key (one key)) .empty

theorem find_tabulate {κ α : Type} [DecidableEq κ] {one : κ → α} {keys : List κ} {key : κ}
    (h : key ∈ keys) : (tabulate one keys).find key = some (one key) := by
  induction keys with
  | nil => cases h
  | cons k keys ih =>
      rw [tabulate, List.foldr_cons]
      by_cases hk : key = k
      · subst hk
        exact Table.find_set_self
      · rw [Table.find_set_ne hk]
        exact ih ((List.mem_cons.mp h).resolve_left hk)

theorem lookupsAgree_tabulate {κ α : Type} [DecidableEq κ] (one : κ → α) :
    LookupsAgree (fun keys => .ok (tabulate one keys)) fun key => .ok (one key) :=
  fun keys => ⟨tabulate one keys, rfl, fun key hkey => ⟨one key, rfl, find_tabulate hkey⟩⟩

/-- The bulk lookups agree with the single ones. -/
structure BulkPropertyRegistrationClients.AgreesWith (clients : BulkPropertyRegistrationClients)
    (single : PropertyResolverClients) : Prop where
  pluto : LookupsAgree clients.plutoLookupByBbls single.plutoLookupByBbl
  parcelFootprints :
    LookupsAgree clients.footprintsLookupByParcelBbls single.footprintsLookupByParcelBbl
  baseFootprints : LookupsAgree clients.footprintsLookupByBaseBbls single.footprintsLookupByBaseBbl
  unit : LookupsAgree clients.lookupByUnitBbls single.lookupByUnitBbl
  billing : LookupsAgree clients.lookupByCondoBaseBbls single.lookupByCondoBaseBbl

/-- What the lookups of a request hold for its BBLs. -/
structure BulkLookups.AnswersFor (lookups : BulkLookups) (single : PropertyResolverClients)
    (bbls : List CanonicalBbl) : Prop where
  parcel : ∀ bbl ∈ bbls, isCondoUnitBbl bbl = false →
    (∃ result, single.plutoLookupByBbl bbl = .ok result ∧
      lookups.plutoResults.find bbl = some result) ∧
    ∃ result, single.footprintsLookupByParcelBbl bbl = .ok result ∧
      lookups.parcelFootprintResults.find bbl = some result
  unit : ∀ bbl ∈ bbls, isCondoUnitBbl bbl = true →
    ∃ result, single.lookupByUnitBbl bbl = .ok result ∧ lookups.condoUnitResults.find bbl = some result
  base : ∀ bbl ∈ bbls, isCondoUnitBbl bbl = true → ∀ unit,
    lookups.condoUnitResults.find bbl = some (.one unit) →
    (∃ result, single.lookupByCondoBaseBbl unit.condoBaseBbl = .ok result ∧
      lookups.condoBillingResults.find unit.condoBaseBbl = some result) ∧
    ∃ result, single.footprintsLookupByBaseBbl unit.condoBaseBbl = .ok result ∧
      lookups.condoBaseFootprintResults.find unit.condoBaseBbl = some result
  billing : ∀ condoBaseBbl billing,
    lookups.condoBillingResults.find condoBaseBbl = some (.one billing) →
    ∃ result, single.plutoLookupByBbl billing.condoBillingBbl = .ok result ∧
      lookups.plutoResults.find billing.condoBillingBbl = some result

section Lookups

variable {clients : BulkPropertyRegistrationClients} {single : PropertyResolverClients}
  {lookups : BulkLookups} {bbls : List CanonicalBbl} {bbl : CanonicalBbl}

/-- **The lookups of a request** hold what the single lookups of its BBLs would give. -/
theorem bulkLookups_answersFor (h : clients.AgreesWith single) (bbls : List CanonicalBbl) :
    ∃ lookups, bulkLookups clients bbls = .ok lookups ∧ lookups.AnswersFor single bbls := by
  let condoUnitBbls := bbls.filter isCondoUnitBbl
  let nonCondoBbls := bbls.filter fun bbl => !isCondoUnitBbl bbl
  obtain ⟨parcelFootprintResults, hparcel, hparcels⟩ := h.parcelFootprints nonCondoBbls
  obtain ⟨condoUnitResults, hunit, hunits⟩ := h.unit condoUnitBbls
  let condoBaseBbls := (condoUnitBbls.filterMap fun unitBbl =>
    (condoUnitResults.find unitBbl).bind (LookupMatches.one? (·.condoBaseBbl))).eraseDups
  obtain ⟨condoBillingResults, hbilling, hbillings⟩ := h.billing condoBaseBbls
  let condoBillingBbls := (condoBillingResults.rows.filterMap fun row =>
    row.2.one? (·.condoBillingBbl)).eraseDups
  obtain ⟨plutoResults, hpluto, hplutos⟩ := h.pluto (nonCondoBbls ++ condoBillingBbls)
  obtain ⟨condoBaseFootprintResults, hbase, hbases⟩ := h.baseFootprints condoBaseBbls
  refine ⟨⟨parcelFootprintResults, condoUnitResults, condoBillingResults, plutoResults,
    condoBaseFootprintResults⟩, ?_, ?_, ?_, ?_, ?_⟩
  · simp only [bulkLookups, bind, Except.bind]
    rw [hparcel]
    simp only
    rw [hunit]
    simp only
    rw [hbilling]
    simp only
    rw [hpluto]
    simp only
    rw [hbase]
  · intro bbl hbbl hcondo
    have hmem : bbl ∈ nonCondoBbls := List.mem_filter.mpr ⟨hbbl, by simp [hcondo]⟩
    exact ⟨hplutos bbl (List.mem_append_left _ hmem), hparcels bbl hmem⟩
  · intro bbl hbbl hcondo
    exact hunits bbl (List.mem_filter.mpr ⟨hbbl, hcondo⟩)
  · intro bbl hbbl hcondo unit hfind
    have hmem : unit.condoBaseBbl ∈ condoBaseBbls := by
      refine List.mem_eraseDups.mpr (List.mem_filterMap.mpr
        ⟨bbl, List.mem_filter.mpr ⟨hbbl, hcondo⟩, ?_⟩)
      simp only at hfind
      rw [hfind]
      rfl
    exact ⟨hbillings _ hmem, hbases _ hmem⟩
  · intro condoBaseBbl billing hfind
    refine hplutos _ (List.mem_append_right _ (List.mem_eraseDups.mpr
      (List.mem_filterMap.mpr ⟨(condoBaseBbl, .one billing), ?_, rfl⟩)))
    exact Table.mem_rows.mpr hfind

/-! ### Resolution -/

/-- The two ways of the code to the BINs of a footprint lookup. -/
theorem foundBins_eq (lookup : BuildingFootprintsLookupResult) (bbl : CanonicalBbl)
    (mode : FootprintValidationMode) :
    foundBins (some lookup) (resolveCandidateBins mode bbl) =
      resolveFootprintBins lookup bbl mode none := by
  cases lookup with
  | notFound => rfl
  | found candidates =>
      have hsingle : resolveFootprintBins (.found candidates) bbl mode none =
          validatedBins candidates bbl mode := by
        rw [resolveFootprintBins, validatedBins]
        cases assertFootprintIdentifierAgreement
          (validateFootprintCandidates candidates bbl mode) false <;> rfl
      rw [hsingle, foundBins, resolveCandidateBins]
      by_cases hnil : candidates.length = 0
      · obtain rfl := List.length_eq_zero_iff.mp hnil
        rw [if_pos hnil, validatedBins_of_belongs (.inl rfl)]
        rfl
      · rw [if_neg hnil]
        rfl

/-- An error of a resolution is an `AppError`. -/
def AppErrorOnly {α : Type} (result : Except IdentityError α) : Prop :=
  ∀ error, result = .error error → ∃ code message statusCode, error = .app code message statusCode

theorem AppErrorOnly.bind {α β : Type} {result : Except IdentityError α}
    {next : α → Except IdentityError β} (h : AppErrorOnly result)
    (hnext : ∀ a, result = .ok a → AppErrorOnly (next a)) : AppErrorOnly (result >>= next) := by
  cases result with
  | error error =>
      intro e he
      cases he
      exact h error rfl
  | ok a => exact hnext a rfl

theorem AppErrorOnly.ok {α : Type} (a : α) : AppErrorOnly (.ok a : Except IdentityError α) := by
  intro error h
  cases h

theorem appErrorOnly_requirePlutoParcel (bbl : CanonicalBbl) (lookup : Option PlutoLookupResult) :
    AppErrorOnly (requirePlutoParcel bbl lookup) := by
  intro error h
  rcases lookup with _ | _ | reasons | parcel | parcels
  · cases h; exact ⟨_, _, _, rfl⟩
  · cases h; exact ⟨_, _, _, rfl⟩
  · cases h; exact ⟨_, _, _, rfl⟩
  · cases h
  · cases h; exact ⟨_, _, _, rfl⟩

theorem appErrorOnly_resolveFootprintBins (lookup : BuildingFootprintsLookupResult)
    (bbl : CanonicalBbl) (mode : FootprintValidationMode) :
    AppErrorOnly (resolveFootprintBins lookup bbl mode none) := by
  rw [← foundBins_eq]
  cases lookup with
  | notFound => exact .ok _
  | found candidates =>
      rw [foundBins, resolveCandidateBins]
      split
      · exact .ok _
      · intro error h
        obtain ⟨-, -, ⟨-, rfl⟩ | ⟨-, rfl⟩⟩ := validatedBins_eq_error_iff.mp h
        · exact ⟨_, _, _, rfl⟩
        · exact ⟨_, _, _, rfl⟩

/-- A parcel is registered alike. -/
theorem resolveBulkNonCondo_agrees {pluto : PlutoLookupResult} {footprints : BuildingFootprintsLookupResult}
    (hpluto : single.plutoLookupByBbl bbl = .ok pluto)
    (hpluto' : lookups.plutoResults.find bbl = some pluto)
    (hfootprints : single.footprintsLookupByParcelBbl bbl = .ok footprints)
    (hfootprints' : lookups.parcelFootprintResults.find bbl = some footprints) :
    AppErrorOnly (resolveBulkNonCondo lookups bbl) ∧
      (resolveBulkNonCondo lookups bbl).map (fun payload => (bulkNonCondoRegistration payload).plain) =
        (resolveNonCondoParcel single bbl ⟨none, none, none⟩).map fun payload =>
          (nonCondoRegistration payload .bbl bbl.text).plain := by
  have hbins : foundBins (lookups.parcelFootprintResults.find bbl) (resolveNonCondoBins bbl) =
      resolveFootprintBins footprints bbl .nonCondo none := by
    rw [hfootprints']
    exact foundBins_eq footprints bbl .nonCondo
  rw [resolveBulkNonCondo, resolveNonCondoParcel, hpluto, hpluto', hbins, hfootprints]
  constructor
  · refine (appErrorOnly_requirePlutoParcel _ _).bind fun parcel _ => ?_
    exact (appErrorOnly_resolveFootprintBins _ _ _).bind fun bins _ => .ok _
  · cases hparcel : requirePlutoParcel bbl (some pluto) with
    | error error => simp only [bind, Except.bind, Except.map, hparcel]
    | ok parcel =>
        cases hresolve : resolveFootprintBins footprints bbl .nonCondo none with
        | error error => simp only [bind, Except.bind, Except.map, hparcel, hresolve]
        | ok bins =>
            simp only [bind, Except.bind, Except.map, hparcel, hresolve]
            rfl

/-- A condo unit is registered alike. -/
theorem resolveBulkCondoUnit_agrees (h : lookups.AnswersFor single bbls) (hbbl : bbl ∈ bbls)
    (hcondo : isCondoUnitBbl bbl = true) :
    AppErrorOnly (resolveBulkCondoUnit lookups bbl) ∧
      (resolveBulkCondoUnit lookups bbl).map (fun payload => (bulkCondoRegistration payload).plain) =
        (resolveCondoUnitBbl single bbl none).map fun payload =>
          (condoRegistration payload .bbl bbl.text none).plain := by
  obtain ⟨unitLookup, hunit, hunit'⟩ := h.unit bbl hbbl hcondo
  have happ : ∀ {α : Type} {code message : String},
      AppErrorOnly (.error (.app code message 422) : Except IdentityError α) := by
    intro α code message error h
    cases h
    exact ⟨_, _, _, rfl⟩
  rw [resolveBulkCondoUnit, resolveCondoUnitBbl, hunit, hunit']
  cases unitLookup with
  | zero => exact ⟨happ, rfl⟩
  | multiple units => exact ⟨happ, rfl⟩
  | one unit =>
      obtain ⟨⟨billingLookup, hbilling, hbilling'⟩, footprints, hfootprints, hfootprints'⟩ :=
        h.base bbl hbbl hcondo unit hunit'
      simp only [requirePresent, requireCondoUnit, requireSingleMatch, resolveCondoBillingBbl,
        requireCondoBillingBbl, hbilling, hbilling', bind, Except.bind]
      cases billingLookup with
      | zero => exact ⟨happ, rfl⟩
      | multiple billings => exact ⟨happ, rfl⟩
      | one billing =>
          obtain ⟨pluto, hpluto, hpluto'⟩ := h.billing unit.condoBaseBbl billing hbilling'
          have hbins : foundBins (lookups.condoBaseFootprintResults.find unit.condoBaseBbl)
              (resolveCondoBins billing.condoBillingBbl) =
                resolveFootprintBins footprints billing.condoBillingBbl .condo none := by
            rw [hfootprints']
            exact foundBins_eq footprints billing.condoBillingBbl .condo
          simp only [hpluto, hpluto', hbins, resolveFootprintBinsForCondoBase, hfootprints, bind,
            Except.bind]
          cases hparcel : requirePlutoParcel billing.condoBillingBbl (some pluto) with
          | error error =>
              refine ⟨fun e he => ?_, rfl⟩
              cases he
              exact appErrorOnly_requirePlutoParcel _ _ _ hparcel
          | ok parcel =>
              cases hresolve : resolveFootprintBins footprints billing.condoBillingBbl .condo none with
              | error error =>
                  refine ⟨fun e he => ?_, rfl⟩
                  cases he
                  exact appErrorOnly_resolveFootprintBins _ _ _ _ hresolve
              | ok bins => exact ⟨.ok _, rfl⟩

theorem resolveUncachedBbl_eq (single : PropertyResolverClients) (bbl : CanonicalBbl) :
    resolveUncachedBbl single bbl = if isCondoUnitBbl bbl then
      (resolveCondoUnitBbl single bbl none).map fun payload => condoRegistration payload .bbl bbl.text none
    else
      (resolveNonCondoParcel single bbl ⟨none, none, none⟩).map fun payload =>
        nonCondoRegistration payload .bbl bbl.text := by
  rw [resolveUncachedBbl, isCondoUnitBbl]
  cases resolveCondoUnitBbl single bbl none <;>
    cases resolveNonCondoParcel single bbl ⟨none, none, none⟩ <;> rfl

/-- **A request resolves a BBL as `resolveBbl` does**, its metadata aside. -/
theorem resolveBulkBbl_agrees (h : lookups.AnswersFor single bbls) (hbbl : bbl ∈ bbls) :
    AppErrorOnly (resolveBulkBbl lookups bbl) ∧
      (resolveBulkBbl lookups bbl).map (·.plain) = (resolveUncachedBbl single bbl).map (·.plain) := by
  have hmap : ∀ {α : Type} {result : Except IdentityError α} (f : α → PropertyRegistration),
      AppErrorOnly result → AppErrorOnly (result.map f) := by
    intro α result f hresult error he
    cases result with
    | error e => cases he; exact hresult _ rfl
    | ok a => cases he
  have hcomp : ∀ {α : Type} (result : Except IdentityError α) (f : α → PropertyRegistration),
      (result.map f).map (·.plain) = result.map fun a => (f a).plain := by
    intro α result f
    cases result <;> rfl
  rw [resolveBulkBbl, resolveUncachedBbl_eq]
  by_cases hcondo : isCondoUnitBbl bbl = true
  · obtain ⟨happ, heq⟩ := resolveBulkCondoUnit_agrees h hbbl hcondo
    rw [if_pos hcondo, if_pos hcondo, hcomp, hcomp]
    exact ⟨hmap _ happ, heq⟩
  · obtain ⟨⟨pluto, hpluto, hpluto'⟩, footprints, hfootprints, hfootprints'⟩ :=
      h.parcel bbl hbbl (by simpa using hcondo)
    obtain ⟨happ, heq⟩ := resolveBulkNonCondo_agrees hpluto hpluto' hfootprints hfootprints'
    rw [if_neg hcondo, if_neg hcondo, hcomp, hcomp]
    exact ⟨hmap _ happ, heq⟩

end Lookups

/-! ### The resolutions of a request -/

/-- What a request records for a BBL that does not resolve. -/
def failureOf {α : Type} : Except IdentityError α → Option BulkInputError
  | .error (.app code message _) => some ⟨code, message⟩
  | _ => none

section Resolutions

variable {clients : BulkPropertyRegistrationClients} {single : PropertyResolverClients}
  {lookups : BulkLookups} {bbls : List CanonicalBbl}

/-- **The loop over one flow**: those that resolve in their order, and the failures of the others. -/
theorem resolvePayloads_spec (happ : ∀ bbl ∈ bbls, AppErrorOnly (resolveBulkBbl lookups bbl))
    (failures : Table CanonicalBbl BulkInputError) :
    ∃ failures', resolvePayloads lookups bbls failures =
        .ok (bbls.filterMap fun bbl => (resolveBulkBbl lookups bbl).toOption, failures') ∧
      ∀ b, failures'.find b =
        (if b ∈ bbls then failureOf (resolveBulkBbl lookups b) else none).or (failures.find b) := by
  induction bbls generalizing failures with
  | nil => exact ⟨failures, rfl, fun b => rfl⟩
  | cons bbl bbls ih =>
      obtain ⟨hbbl, hrest⟩ := List.forall_mem_cons.mp happ
      rw [resolvePayloads]
      cases hresolve : resolveBulkBbl lookups bbl with
      | ok r =>
          obtain ⟨failures', hloop, hfind⟩ := ih hrest failures
          refine ⟨failures', ?_, fun b => ?_⟩
          · simp only [hloop, Except.map, List.filterMap_cons, hresolve, Except.toOption]
          · rw [hfind]
            by_cases hb : b = bbl
            · subst hb
              simp [hresolve, failureOf]
            · simp [hb]
      | error error =>
          obtain ⟨code, message, statusCode, rfl⟩ := hbbl error hresolve
          obtain ⟨failures', hloop, hfind⟩ := ih hrest (failures.set bbl ⟨code, message⟩)
          refine ⟨failures', ?_, fun b => ?_⟩
          · simp only [hloop, List.filterMap_cons, hresolve, Except.toOption]
          · rw [hfind]
            by_cases hb : b = bbl
            · subst hb
              by_cases hmem : b ∈ bbls
              · simp [hresolve, failureOf, hmem]
              · simp [hresolve, failureOf, hmem]
            · simp [hb, Table.find_set_ne hb]

/-- The registrations of the BBLs of one flow. -/
theorem mem_filterMap_resolve {p : CanonicalBbl → Bool} {r : PropertyRegistration} :
    (r ∈ (bbls.filter p).filterMap fun bbl => (resolveBulkBbl lookups bbl).toOption) ↔
      r.bbl ∈ bbls ∧ p r.bbl = true ∧ resolveBulkBbl lookups r.bbl = .ok r := by
  rw [List.mem_filterMap]
  constructor
  · rintro ⟨bbl, hbbl, hresolve⟩
    obtain ⟨hmem, hp⟩ := List.mem_filter.mp hbbl
    have hok : resolveBulkBbl lookups bbl = .ok r := by
      cases h : resolveBulkBbl lookups bbl with
      | error e => rw [h] at hresolve; cases hresolve
      | ok r' => rw [h] at hresolve; cases hresolve; rfl
    obtain rfl : r.bbl = bbl := (resolveBulkBbl_eq_ok hok).2.2.1
    exact ⟨hmem, hp, hok⟩
  · rintro ⟨hmem, hp, hok⟩
    exact ⟨r.bbl, List.mem_filter.mpr ⟨hmem, hp⟩, by rw [hok]; rfl⟩

/-- **The resolutions of a request**: each of its BBLs is registered as it resolves, or has failed. -/
theorem bulkResolutions_spec (h : clients.AgreesWith single) (hnodup : bbls.Nodup) :
    ∃ lookups result, lookups.AnswersFor single bbls ∧ bulkResolutions clients bbls = .ok result ∧
      (result.1.map (·.bbl)).Nodup ∧
      (∀ r, r ∈ result.1 ↔ r.bbl ∈ bbls ∧ resolveBulkBbl lookups r.bbl = .ok r) ∧
      ∀ b, result.2.find b = if b ∈ bbls then failureOf (resolveBulkBbl lookups b) else none := by
  obtain ⟨lookups, hlookups, hanswers⟩ := bulkLookups_answersFor h bbls
  have happ : ∀ bbl ∈ bbls, AppErrorOnly (resolveBulkBbl lookups bbl) := fun bbl hbbl =>
    (resolveBulkBbl_agrees hanswers hbbl).1
  have hsub : ∀ p : CanonicalBbl → Bool, ∀ bbl ∈ bbls.filter p,
      AppErrorOnly (resolveBulkBbl lookups bbl) := fun p bbl hbbl =>
    happ bbl (List.mem_of_mem_filter hbbl)
  obtain ⟨failures, hnonCondo, hfailures⟩ :=
    resolvePayloads_spec (hsub fun bbl => !isCondoUnitBbl bbl) .empty
  obtain ⟨failures', hcondo, hfailures'⟩ := resolvePayloads_spec (hsub isCondoUnitBbl) failures
  have hresult : ∃ result, bulkResolutions clients bbls = .ok result ∧
      (∀ r, r ∈ result.1 ↔ r.bbl ∈ bbls ∧ resolveBulkBbl lookups r.bbl = .ok r) ∧
      ∀ b, result.2.find b = if b ∈ bbls then failureOf (resolveBulkBbl lookups b) else none := by
    by_cases hempty : bbls.length > 0
    · refine ⟨(((bbls.filter fun bbl => !isCondoUnitBbl bbl).filterMap fun bbl =>
          (resolveBulkBbl lookups bbl).toOption) ++ ((bbls.filter isCondoUnitBbl).filterMap fun bbl =>
          (resolveBulkBbl lookups bbl).toOption), failures'), ?_, fun r => ?_, fun b => ?_⟩
      · simp only [bulkResolutions, if_pos hempty, hlookups, hnonCondo, hcondo, bind, Except.bind]
      · rw [List.mem_append, mem_filterMap_resolve, mem_filterMap_resolve]
        by_cases hflow : isCondoUnitBbl r.bbl = true
        · simp [hflow]
        · simp [hflow]
      · rw [hfailures', hfailures]
        by_cases hflow : isCondoUnitBbl b = true
        · simp [List.mem_filter, hflow]
        · simp [List.mem_filter, hflow]
    · obtain rfl := List.length_eq_zero_iff.mp (Nat.eq_zero_of_not_pos hempty)
      exact ⟨([], .empty), by simp [bulkResolutions], by simp, by simp⟩
  obtain ⟨result, hok, hmem, hfind⟩ := hresult
  exact ⟨lookups, result, hanswers, hok, (bulkResolutions_eq_ok hnodup hlookups hok).1, hmem, hfind⟩

end Resolutions

/-! ### The registrations of a request -/

section Persist

variable {Row : Type} {ids : CanonicalBbl → PropertyId} {db : Db Row}

/-- **The persistence loops**, over registrations of distinct BBLs whose inputs are not stored: each
leaves what it makes of the state before the request, and the other BBLs are left alone. -/
theorem persistRegistrations_spec (now : Time) (hids : Function.Injective ids)
    {rs : List PropertyRegistration} (hnodup : (rs.map (·.bbl)).Nodup)
    (hkeys : ∀ r ∈ rs, (r.inputType, r.normalizedInput) = (.bbl, r.bbl.text))
    (hfresh : ∀ r ∈ rs, db.properties.find (ids r.bbl) = none)
    (hinput : ∀ r ∈ rs, db.findPropertyIdByResolutionInput .bbl r.bbl.text = none)
    (progress : BulkProgress) :
    ∃ db' progress', db.persistRegistrations ids now progress rs = (db', .ok progress') ∧
      progress'.resolutionFailures = progress.resolutionFailures ∧
      ∀ r ∈ rs, ∃ property, progress'.resolvedByBbl.find r.bbl = some property ∧
        property.view = r.registeredView (db.viewAt r.bbl) ∧
        db'.storedAt r.bbl = ⟨some property.view, some .own⟩ := by
  induction rs generalizing db progress with
  | nil => exact ⟨db, progress, rfl, rfl, fun _ hr => nomatch hr⟩
  | cons r rs ih =>
      rw [List.map_cons, List.nodup_cons] at hnodup
      obtain ⟨hkey, hkeysRest⟩ := List.forall_mem_cons.mp hkeys
      obtain ⟨hfreshId, hfresh⟩ := List.forall_mem_cons.mp hfresh
      obtain ⟨hmiss, hinput⟩ := List.forall_mem_cons.mp hinput
      obtain ⟨htype, htext⟩ := Prod.mk.inj hkey
      have hothers : ∀ r' ∈ rs, r'.bbl ≠ r.bbl := fun r' hr' heq =>
        hnodup.1 (List.mem_map.mpr ⟨r', hr', heq⟩)
      obtain ⟨db₁, property, hregister, hview, hview₁, hfound₁, hinput₁, hfresh₁⟩ :=
        registerProperty_spec r now hfreshId (by rw [htype, htext]; exact hmiss)
      -- the registration of one BBL is framed off from the others
      have hsame : ∀ r' ∈ rs, SameAt r'.bbl db db₁ := by
        intro r' hr'
        have hsameAt : SameAt r'.bbl db (db.registerProperty (ids r.bbl) now r).1 := by
          refine registerProperty_sameAt (hothers r' hr') ?_
          rw [hkey]
          intro heq
          exact hothers r' hr' (DigitString.ext (Prod.mk.inj heq).2).symm
        rwa [hregister] at hsameAt
      obtain ⟨db', progress', hloop, hfailures, hall⟩ := ih hnodup.2 hkeysRest
        (fun r' hr' => (hfresh₁ _ fun heq => hothers r' hr' (hids heq)).mpr (hfresh r' hr'))
        (fun r' hr' => by
          rw [Db.findPropertyIdByResolutionInput, (hsame r' hr').input]
          exact hinput r' hr')
        { progress with resolvedByBbl := progress.resolvedByBbl.set r.bbl property }
      refine ⟨db', progress', ?_, hfailures, fun r' hr' => ?_⟩
      · rw [Db.persistRegistrations, hregister]
        exact hloop
      · rcases List.mem_cons.mp hr' with rfl | hr'
        · obtain ⟨hframe, hfind⟩ := persistRegistrations_sameAt hothers hkeysRest hloop
          refine ⟨property, hfind.trans Table.find_set_self, hview, ?_⟩
          have hown : db₁.inputTarget r'.bbl property.id = .own := by
            rw [Db.inputTarget, if_pos hfound₁]
          rw [htype, htext] at hinput₁
          rw [hframe.storedAt, Db.storedAt, hview₁, hinput₁, Option.map_some, hown]
        · obtain ⟨property', hfind, hview', hstored⟩ := hall r' hr'
          exact ⟨property', hfind, by rw [hview', (hsame r' hr').viewAt], hstored⟩

end Persist

/-! ### The results of a request -/

/-- The foreign key of the stored inputs. -/
def Db.InputsReferToProperties {Row : Type} (db : Db Row) : Prop :=
  ∀ inputType normalizedInput propertyId,
    db.findPropertyIdByResolutionInput inputType normalizedInput = some propertyId →
      db.properties.find propertyId ≠ none

/-- A result says what a single resolution does: its error, or its property, ids and times aside. -/
def BulkPropertyInputResult.SaysOf (result : BulkPropertyInputResult) :
    Except IdentityError ResolvePropertyResult → Prop
  | .error error => result.status = .failed ∧ result.property = none ∧
      ∃ code message statusCode, error = .app code message statusCode ∧
        result.error = some ⟨code, message⟩
  | .ok single => result.status = (if single.cached then .cached else .succeeded) ∧
      result.error = none ∧
      ∃ property, result.property = some (toBulkPropertyPayload property) ∧
        property.view = single.property.view

/-- An input and its canonical BBL. -/
def parsedBulkInput (inputBbl : String) : ParsedBulkInput where
  inputBbl := inputBbl
  parsed := match canonicalizeBbl inputBbl with
    | none => .error ⟨"INVALID_BBL", "BBL must be a 10-digit NYC parcel identifier"⟩
    | some bbl => .ok bbl

section Results

variable {Row : Type} {db db' : Db Row} {bbls : List String} {b : CanonicalBbl}

/-- The response to a request, from what is known of its BBLs. -/
def bulkResponse (bbls : List String) (cachedByBbl : Table CanonicalBbl PropertyWithRelations)
    (progress : BulkProgress) : BulkPropertyRegistrationResponse :=
  let results := (bbls.map parsedBulkInput).map (inputResult cachedByBbl progress)
  ⟨⟨bbls.length, (uniqueCanonicalBbls (parseBulkInputs bbls)).size, countStatus .succeeded results,
    countStatus .failed results, countStatus .cached results⟩, results⟩

theorem parseBulkInputs_eq (bbls : List String) : parseBulkInputs bbls = bbls.map parsedBulkInput := rfl

theorem mem_uniqueCanonicalBbls : b ∈ uniqueCanonicalBbls (parseBulkInputs bbls) ↔
    ∃ inputBbl ∈ bbls, canonicalizeBbl inputBbl = some b := by
  rw [uniqueCanonicalBbls, SortedSet.mem_ofList, parseBulkInputs_eq, List.filterMap_map,
    List.mem_filterMap]
  refine exists_congr fun inputBbl => and_congr_right fun _ => ?_
  rw [Function.comp_apply, parsedBulkInput]
  cases canonicalizeBbl inputBbl with
  | none => simp [Except.toOption]
  | some bbl => simp [Except.toOption]

/-- The stored registrations of some BBLs. -/
theorem findCachedBblRegistrations_spec (hinputs : db.InputsReferToProperties)
    (bbls : List CanonicalBbl) :
    ∃ cached, db.findCachedBblRegistrations bbls = .ok cached ∧ ∀ b, cached.find b =
      if b ∈ bbls then
        (db.findPropertyIdByResolutionInput .bbl b.text).bind db.loadPropertyWithRelations
      else none := by
  induction bbls with
  | nil => exact ⟨.empty, rfl, fun b => by simp⟩
  | cons bbl bbls ih =>
      obtain ⟨cached, hcached, hfind⟩ := ih
      cases hinput : db.findPropertyIdByResolutionInput .bbl bbl.text with
      | none =>
          refine ⟨cached, ?_, fun b => ?_⟩
          · simp only [Db.findCachedBblRegistrations, hcached, hinput, bind, Except.bind]
          · rw [hfind]
            by_cases hb : b = bbl
            · subst hb
              simp [hinput]
            · simp [hb]
      | some propertyId =>
          obtain ⟨property, hload⟩ :
              ∃ property, db.loadPropertyWithRelations propertyId = some property := by
            obtain ⟨stored, hstored⟩ := Option.ne_none_iff_exists'.mp (hinputs _ _ _ hinput)
            exact ⟨_, by rw [Db.loadPropertyWithRelations, hstored]; rfl⟩
          refine ⟨cached.set bbl property, ?_, fun b => ?_⟩
          · simp only [Db.findCachedBblRegistrations, hcached, hinput, hload, bind, Except.bind]
          · by_cases hb : b = bbl
            · subst hb
              simp [hinput, hload]
            · rw [Table.find_set_ne hb, hfind]
              simp [hb]

/-- Every result has one of the three statuses. -/
theorem countStatus_add (results : List BulkPropertyInputResult) :
    results.length = countStatus .succeeded results + countStatus .failed results +
      countStatus .cached results := by
  induction results with
  | nil => rfl
  | cons result results ih =>
      simp only [countStatus, List.length_cons, List.countP_cons] at ih ⊢
      cases result.status with
      | succeeded => simp; omega
      | failed => simp; omega
      | cached => simp; omega

/-- A result depends on the input through its canonical BBL. -/
theorem inputResult_congr {cachedByBbl : Table CanonicalBbl PropertyWithRelations}
    {progress : BulkProgress} {input input' : String}
    (h : canonicalizeBbl input = canonicalizeBbl input') :
    { inputResult cachedByBbl progress (parsedBulkInput input) with inputBbl := input' } =
      inputResult cachedByBbl progress (parsedBulkInput input') := by
  rw [inputResult, inputResult, parsedBulkInput, parsedBulkInput, h]
  cases canonicalizeBbl input' with
  | none => rfl
  | some bbl =>
      simp only
      cases progress.resolutionFailures.find bbl with
      | some failure => rfl
      | none =>
          cases progress.resolvedByBbl.find bbl with
          | none => rfl
          | some property =>
              simp only
              split <;> rfl

theorem inputBbl_inputResult {cachedByBbl : Table CanonicalBbl PropertyWithRelations}
    {progress : BulkProgress} (input : String) :
    (inputResult cachedByBbl progress (parsedBulkInput input)).inputBbl = input :=
  congrArg BulkPropertyInputResult.inputBbl (inputResult_congr rfl).symm

theorem inputResult_failure {cachedByBbl : Table CanonicalBbl PropertyWithRelations}
    {progress : BulkProgress} {input : String} {failure : BulkInputError}
    (hb : canonicalizeBbl input = some b) (h : progress.resolutionFailures.find b = some failure) :
    inputResult cachedByBbl progress (parsedBulkInput input) = toInputFailure input b failure := by
  simp only [inputResult, parsedBulkInput, hb, h]

theorem inputResult_success {cachedByBbl : Table CanonicalBbl PropertyWithRelations}
    {progress : BulkProgress} {input : String} {property : PropertyWithRelations}
    (hb : canonicalizeBbl input = some b) (hfailure : progress.resolutionFailures.find b = none)
    (h : progress.resolvedByBbl.find b = some property) :
    inputResult cachedByBbl progress (parsedBulkInput input) = toInputSuccess input b property
      (if (cachedByBbl.find b).isSome then .cached else .succeeded) := by
  simp only [inputResult, parsedBulkInput, hb, hfailure, h]
  split <;> rfl

end Results

/-! ### A request and single resolutions -/

/-- The ids a request gives to new properties: distinct, and of no stored property. -/
structure FreshIds {Row : Type} (db : Db Row) (ids : CanonicalBbl → PropertyId) : Prop where
  injective : Function.Injective ids
  fresh : ∀ bbl, db.properties.find (ids bbl) = none

/-- The digits of a BBL as a number. -/
def idOfBbl (bbl : CanonicalBbl) : PropertyId :=
  Encodable.encode (bbl.text.toList.map Char.toNat)

theorem freshIds_empty {Row : Type} : FreshIds (Db.empty : Db Row) idOfBbl where
  injective := by
    intro bbl bbl' h
    have htext := List.map_injective_iff.mpr (fun c d hcd => Char.toNat_inj.mp hcd)
      (Encodable.encode_injective h)
    exact DigitString.ext (String.toList_inj.mp htext)
  fresh _ := rfl

/-- Registrations that differ in their metadata are of one BBL and one input. -/
theorem PropertyRegistration.key_of_plain {r r' : PropertyRegistration} (h : r.plain = r'.plain) :
    r.bbl = r'.bbl ∧ r.inputType = r'.inputType ∧ r.normalizedInput = r'.normalizedInput := by
  have hbbl : r.plain.bbl = r'.plain.bbl := congrArg _ h
  have htype : r.plain.inputType = r'.plain.inputType := congrArg _ h
  have htext : r.plain.normalizedInput = r'.plain.normalizedInput := congrArg _ h
  exact ⟨hbbl, htype, htext⟩

section Refinement

variable {Row : Type} {db db' : Db Row} {clients : BulkPropertyRegistrationClients}
  {single : PropertyResolverClients} {ids ids' : CanonicalBbl → PropertyId} {b : CanonicalBbl}

theorem resolveBbl_of_canonicalizeBbl (ids : CanonicalBbl → PropertyId) (now : Time) (db : Db Row)
    {input : String} (hb : canonicalizeBbl input = some b) :
    db.resolveBbl ids now single input =
      db.resolveInput ids now .bbl b.text (resolveUncachedBbl single b) := by
  rw [Db.resolveBbl, assertValidBbl, hb]

/-- A BBL that is stored: both answer with its property, and change nothing there. -/
theorem resolveInput_cached (now : Time) {propertyId : PropertyId} {property : PropertyWithRelations}
    {resolution : Except IdentityError PropertyRegistration}
    (hinput : db.findPropertyIdByResolutionInput .bbl b.text = some propertyId)
    (hload : db.loadPropertyWithRelations propertyId = some property) :
    db.resolveInput ids now .bbl b.text resolution = (db, .ok ⟨property, true⟩) := by
  simp only [Db.resolveInput, hinput, hload]

/-- A BBL that does not resolve. -/
theorem resolveInput_unresolved (now : Time) {error : IdentityError}
    (hinput : db.findPropertyIdByResolutionInput .bbl b.text = none) :
    db.resolveInput ids now .bbl b.text (.error error) = (db, .error error) := by
  simp only [Db.resolveInput, hinput]

/-- A BBL that resolves: what it leaves. -/
theorem resolveInput_registers (now : Time) (hids : FreshIds db ids) {r : PropertyRegistration}
    (hinput : db.findPropertyIdByResolutionInput .bbl b.text = none) (hbbl : r.bbl = b)
    (hkey : (r.inputType, r.normalizedInput) = (.bbl, b.text)) :
    ∃ db' property, db.resolveInput ids now .bbl b.text (.ok r) = (db', .ok ⟨property, false⟩) ∧
      property.view = r.registeredView (db.viewAt b) ∧
      db'.storedAt b = ⟨some property.view, some .own⟩ := by
  obtain ⟨htype, htext⟩ := Prod.mk.inj hkey
  subst hbbl
  obtain ⟨db', property, hregister, hview, hviewAt, hfound, hstored, -⟩ :=
    registerProperty_spec r now (hids.fresh r.bbl) (by rw [htype, htext]; exact hinput)
  refine ⟨db', property, ?_, hview, ?_⟩
  · simp only [Db.resolveInput, hinput, hregister]
  · have hown : db'.inputTarget r.bbl property.id = .own := by rw [Db.inputTarget, if_pos hfound]
    rw [htype, htext] at hstored
    rw [Db.storedAt, hviewAt, hstored, Option.map_some, hown]

/-- What the parts of a request come to before its inputs are answered: the stored registrations, the
resolutions of the other BBLs (`asked`), and the database the new registrations leave. -/
structure BulkParts (db db' : Db Row) (single : PropertyResolverClients) (lookups : BulkLookups)
    (asked : List CanonicalBbl) (cachedByBbl : Table CanonicalBbl PropertyWithRelations)
    (registrations : List PropertyRegistration) (progress : BulkProgress) : Prop where
  answers : lookups.AnswersFor single asked
  unstored : ∀ b ∈ asked, db.findPropertyIdByResolutionInput .bbl b.text = none
  mem : ∀ r, r ∈ registrations ↔ r.bbl ∈ asked ∧ resolveBulkBbl lookups r.bbl = .ok r
  failures : ∀ b, progress.resolutionFailures.find b =
    if b ∈ asked then failureOf (resolveBulkBbl lookups b) else none
  others : ∀ b, (∀ r ∈ registrations, r.bbl ≠ b) →
    SameAt b db db' ∧ progress.resolvedByBbl.find b = cachedByBbl.find b
  registered : ∀ r ∈ registrations, ∃ property, progress.resolvedByBbl.find r.bbl = some property ∧
    property.view = r.registeredView (db.viewAt r.bbl) ∧
    db'.storedAt r.bbl = ⟨some property.view, some .own⟩

section Parts

variable {lookups : BulkLookups} {asked : List CanonicalBbl} {input : String}
  {cachedByBbl : Table CanonicalBbl PropertyWithRelations}
  {registrations : List PropertyRegistration} {progress : BulkProgress}

/-- A request gets as far as its answers: `cachedByBbl` is what is stored for its BBLs. -/
theorem registerBbls_parts (now : Time) (h : clients.AgreesWith single) (hids : FreshIds db ids)
    (hinputs : db.InputsReferToProperties) (bbls : List String) :
    ∃ db' lookups cachedByBbl registrations progress,
      BulkParts db db' single lookups (Db.uncachedBbls bbls cachedByBbl) cachedByBbl registrations
        progress ∧
      (∀ b ∈ (uniqueCanonicalBbls (parseBulkInputs bbls)).toList, cachedByBbl.find b =
        (db.findPropertyIdByResolutionInput .bbl b.text).bind db.loadPropertyWithRelations) ∧
      db.registerBbls ids now clients bbls =
        (db', .ok (bulkResponse bbls cachedByBbl progress)) := by
  obtain ⟨cachedByBbl, hcached, hcachedFind⟩ := findCachedBblRegistrations_spec hinputs
    (uniqueCanonicalBbls (parseBulkInputs bbls)).toList
  have hnodup : (Db.uncachedBbls bbls cachedByBbl).Nodup :=
    (uniqueCanonicalBbls (parseBulkInputs bbls)).nodup.filter _
  obtain ⟨lookups, result, hanswers, hresolutions, hbbls, hmem, hfailures⟩ :=
    bulkResolutions_spec h hnodup
  -- a BBL that is looked up has no stored input
  have hunstored : ∀ b ∈ Db.uncachedBbls bbls cachedByBbl,
      db.findPropertyIdByResolutionInput .bbl b.text = none := by
    intro b hb
    obtain ⟨hunique, hnone⟩ := List.mem_filter.mp hb
    exact findCachedBblRegistrations_none hcached hunique (Option.isNone_iff_eq_none.mp hnone)
  have hkeys : ∀ r ∈ result.1, (r.inputType, r.normalizedInput) = (.bbl, r.bbl.text) := by
    intro r hr
    obtain ⟨htype, htext, -⟩ := resolveBulkBbl_eq_ok ((hmem r).mp hr).2
    rw [htype, htext]
  obtain ⟨db', progress, hpersist, hfailures', hall⟩ := persistRegistrations_spec now hids.injective
    hbbls hkeys (fun r _ => hids.fresh r.bbl) (fun r hr => hunstored _ ((hmem r).mp hr).1)
    ⟨cachedByBbl, result.2⟩
  have hparts : BulkParts db db' single lookups (Db.uncachedBbls bbls cachedByBbl) cachedByBbl
      result.1 progress :=
    { answers := hanswers
      unstored := hunstored
      mem := hmem
      failures := fun b => by rw [hfailures', hfailures b]
      others := fun b hothers => persistRegistrations_sameAt hothers hkeys hpersist
      registered := hall }
  refine ⟨db', lookups, cachedByBbl, result.1, progress, hparts, fun b hb => ?_, ?_⟩
  · rw [hcachedFind, if_pos hb]
  · simp only [Db.registerBbls, hcached, hresolutions, hpersist]
    rfl

/-- The answer to an input whose BBL is stored. -/
theorem BulkParts.stored
    (hparts : BulkParts db db' single lookups asked cachedByBbl registrations progress) (now' : Time)
    (hb : canonicalizeBbl input = some b) {propertyId : PropertyId} {property : PropertyWithRelations}
    (hstored : db.findPropertyIdByResolutionInput .bbl b.text = some propertyId)
    (hload : db.loadPropertyWithRelations propertyId = some property)
    (hcached : cachedByBbl.find b = some property) :
    (inputResult cachedByBbl progress (parsedBulkInput input)).SaysOf
        (db.resolveBbl ids' now' single input).2 ∧
      db'.storedAt b = (db.resolveBbl ids' now' single input).1.storedAt b := by
  have hnot : b ∉ asked := by
    intro hmemB
    rw [hparts.unstored b hmemB] at hstored
    cases hstored
  obtain ⟨hframe, hresolved⟩ := hparts.others b (by
    rintro r hr rfl
    exact hnot ((hparts.mem r).mp hr).1)
  have hfailure := hparts.failures b
  rw [if_neg hnot] at hfailure
  rw [resolveBbl_of_canonicalizeBbl ids' now' db hb, resolveInput_cached now' hstored hload,
    inputResult_success hb hfailure (hresolved.trans hcached)]
  refine ⟨⟨?_, rfl, property, rfl, rfl⟩, hframe.storedAt⟩
  simp [toInputSuccess, hcached]

/-- The answer to an input whose BBL is asked for and does not resolve. -/
theorem BulkParts.unresolved
    (hparts : BulkParts db db' single lookups asked cachedByBbl registrations progress) (now' : Time)
    (hb : canonicalizeBbl input = some b) (hasked : b ∈ asked) {error : IdentityError}
    (hresolve : resolveBulkBbl lookups b = .error error) :
    (inputResult cachedByBbl progress (parsedBulkInput input)).SaysOf
        (db.resolveBbl ids' now' single input).2 ∧
      db'.storedAt b = (db.resolveBbl ids' now' single input).1.storedAt b := by
  obtain ⟨happ, hplain⟩ := resolveBulkBbl_agrees hparts.answers hasked
  obtain ⟨code, message, statusCode, rfl⟩ := happ error hresolve
  have hsingle : resolveUncachedBbl single b = .error (.app code message statusCode) := by
    rw [hresolve] at hplain
    cases hs : resolveUncachedBbl single b with
    | error e => rw [hs] at hplain; cases hplain; rfl
    | ok r => rw [hs] at hplain; cases hplain
  obtain ⟨hframe, -⟩ := hparts.others b (by
    rintro r hr rfl
    rw [((hparts.mem r).mp hr).2] at hresolve
    cases hresolve)
  have hfailure := hparts.failures b
  rw [if_pos hasked, hresolve] at hfailure
  rw [resolveBbl_of_canonicalizeBbl ids' now' db hb, hsingle,
    resolveInput_unresolved now' (hparts.unstored b hasked), inputResult_failure hb hfailure]
  exact ⟨⟨rfl, rfl, code, message, statusCode, rfl, rfl⟩, hframe.storedAt⟩

/-- The answer to an input whose BBL is asked for and registered. -/
theorem BulkParts.resolved
    (hparts : BulkParts db db' single lookups asked cachedByBbl registrations progress) (now' : Time)
    (hids' : FreshIds db ids') (hb : canonicalizeBbl input = some b) (hasked : b ∈ asked)
    (hcached : cachedByBbl.find b = none) {r : PropertyRegistration}
    (hresolve : resolveBulkBbl lookups b = .ok r) :
    (inputResult cachedByBbl progress (parsedBulkInput input)).SaysOf
        (db.resolveBbl ids' now' single input).2 ∧
      db'.storedAt b = (db.resolveBbl ids' now' single input).1.storedAt b := by
  obtain ⟨htype, htext, hbbl, -⟩ := resolveBulkBbl_eq_ok hresolve
  subst hbbl
  obtain ⟨r', hsingle, hplain⟩ : ∃ r', resolveUncachedBbl single r.bbl = .ok r' ∧
      r.plain = r'.plain := by
    have hagree := (resolveBulkBbl_agrees hparts.answers hasked).2
    rw [hresolve] at hagree
    cases hs : resolveUncachedBbl single r.bbl with
    | error e => rw [hs] at hagree; cases hagree
    | ok r' => rw [hs] at hagree; exact ⟨r', rfl, Except.ok.inj hagree⟩
  obtain ⟨property, hresolved, hview, hstoredAt⟩ :=
    hparts.registered r ((hparts.mem r).mpr ⟨hasked, hresolve⟩)
  obtain ⟨hbbl', htype', htext'⟩ := PropertyRegistration.key_of_plain hplain
  obtain ⟨db₁, property', hregisters, hview', hstoredAt'⟩ :=
    resolveInput_registers now' hids' (hparts.unstored _ hasked) hbbl'.symm
      (by rw [← htype', ← htext', htype, htext])
  have hviews : property.view = property'.view := by
    rw [hview, hview', PropertyRegistration.registeredView_of_plain hplain]
  have hfailure := hparts.failures r.bbl
  rw [if_pos hasked, hresolve] at hfailure
  rw [resolveBbl_of_canonicalizeBbl ids' now' db hb, hsingle, hregisters,
    inputResult_success hb hfailure hresolved]
  refine ⟨⟨?_, rfl, property, rfl, hviews⟩, ?_⟩
  · simp [toInputSuccess, hcached]
  · rw [hstoredAt, hstoredAt', hviews]

end Parts

/-- **A request, BBL by BBL**: its result and what is stored for the BBL are those of a single
resolution. -/
theorem registerBbls_outcome (now now' : Time) (h : clients.AgreesWith single)
    (hids : FreshIds db ids) (hids' : FreshIds db ids') (hinputs : db.InputsReferToProperties)
    (bbls : List String) :
    ∃ db' cachedByBbl progress,
      db.registerBbls ids now clients bbls =
        (db', .ok (bulkResponse bbls cachedByBbl progress)) ∧
      ∀ input b, input ∈ bbls → canonicalizeBbl input = some b →
        (inputResult cachedByBbl progress (parsedBulkInput input)).SaysOf
          (db.resolveBbl ids' now' single input).2 ∧
        db'.storedAt b = (db.resolveBbl ids' now' single input).1.storedAt b := by
  obtain ⟨db', lookups, cachedByBbl, registrations, progress, hparts, hcached, hregister⟩ :=
    registerBbls_parts now h hids hinputs bbls
  refine ⟨db', cachedByBbl, progress, hregister, fun input b hinput hb => ?_⟩
  have hunique : b ∈ (uniqueCanonicalBbls (parseBulkInputs bbls)).toList :=
    mem_uniqueCanonicalBbls.mpr ⟨input, hinput, hb⟩
  have hcachedB := hcached b hunique
  cases hstored : db.findPropertyIdByResolutionInput .bbl b.text with
  | some propertyId =>
      obtain ⟨stored, hproperty⟩ := Option.ne_none_iff_exists'.mp (hinputs _ _ _ hstored)
      obtain ⟨property, hload⟩ : ∃ property, db.loadPropertyWithRelations propertyId = some property :=
        ⟨_, by rw [Db.loadPropertyWithRelations, hproperty]; rfl⟩
      rw [hstored, Option.bind_some, hload] at hcachedB
      exact hparts.stored now' hb hstored hload hcachedB
  | none =>
      rw [hstored, Option.bind_none] at hcachedB
      have hasked : b ∈ Db.uncachedBbls bbls cachedByBbl :=
        List.mem_filter.mpr ⟨hunique, by simp [hcachedB]⟩
      cases hresolve : resolveBulkBbl lookups b with
      | error error => exact hparts.unresolved now' hb hasked hresolve
      | ok r => exact hparts.resolved now' hids' hb hasked hcachedB hresolve

end Refinement

/-- **Bulk registration refines single registration.**  Over lookups that agree, a request gives one
result for each input, in the order of the inputs, and equal results for inputs of one BBL; and the
result of an input, and what is stored for its BBL afterwards, are those of `resolveBbl` on the database
the request began with, whatever the other inputs are. -/
theorem registerBbls_refines_resolveBbl {Row : Type} (clients : BulkPropertyRegistrationClients)
    (single : PropertyResolverClients) (h : clients.AgreesWith single) (db : Db Row)
    (hinputs : db.InputsReferToProperties) (ids ids' : CanonicalBbl → PropertyId) (now now' : Time)
    (hids : FreshIds db ids) (hids' : FreshIds db ids') (bbls : List String) :
    ∃ db' response, db.registerBbls ids now clients bbls = (db', .ok response) ∧
      response.results.map (·.inputBbl) = bbls ∧
      response.summary.submitted = bbls.length ∧
      response.summary.submitted =
        response.summary.succeeded + response.summary.failed + response.summary.cached ∧
      (∀ result ∈ response.results, ∀ result' ∈ response.results,
        canonicalizeBbl result.inputBbl = canonicalizeBbl result'.inputBbl →
          { result with inputBbl := result'.inputBbl } = result') ∧
      ∀ result ∈ response.results,
        result.SaysOf (db.resolveBbl ids' now' single result.inputBbl).2 ∧
        ∀ b, canonicalizeBbl result.inputBbl = some b →
          db'.storedAt b = (db.resolveBbl ids' now' single result.inputBbl).1.storedAt b := by
  obtain ⟨db', cachedByBbl, progress, hregister, houtcome⟩ :=
    registerBbls_outcome now now' h hids hids' hinputs bbls
  have hresult : ∀ result ∈ (bulkResponse bbls cachedByBbl progress).results, ∃ input ∈ bbls,
      result = inputResult cachedByBbl progress (parsedBulkInput input) := by
    intro result hmem
    rw [bulkResponse, List.map_map] at hmem
    obtain ⟨input, hinput, rfl⟩ := List.mem_map.mp hmem
    exact ⟨input, hinput, rfl⟩
  refine ⟨db', bulkResponse bbls cachedByBbl progress, hregister, ?_, rfl, ?_, ?_, ?_⟩
  · rw [bulkResponse, List.map_map, List.map_map]
    exact (List.map_congr_left fun input _ => inputBbl_inputResult input).trans (List.map_id bbls)
  · simp only [bulkResponse]
    rw [← countStatus_add, List.length_map, List.length_map]
  · intro result hmem result' hmem' heq
    obtain ⟨input, -, rfl⟩ := hresult result hmem
    obtain ⟨input', -, rfl⟩ := hresult result' hmem'
    rw [inputBbl_inputResult, inputBbl_inputResult] at heq
    rw [inputBbl_inputResult]
    exact inputResult_congr heq
  · intro result hmem
    obtain ⟨input, hinput, rfl⟩ := hresult result hmem
    rw [inputBbl_inputResult]
    cases hb : canonicalizeBbl input with
    | some b =>
        obtain ⟨hsaid, hstored⟩ := houtcome input b hinput hb
        refine ⟨hsaid, fun b' hb' => ?_⟩
        cases hb'
        exact hstored
    | none =>
        refine ⟨?_, fun b' hb' => nomatch hb'⟩
        simp only [Db.resolveBbl, assertValidBbl, inputResult, parsedBulkInput, hb]
        exact ⟨rfl, rfl, _, _, _, rfl, rfl⟩

/-- Sources that know one building on every parcel, and no condominium. -/
def oneBuildingEach : PropertyResolverClients where
  searchByAddress address := .ok ⟨address, []⟩
  plutoLookupByBbl bbl := .ok (.found ⟨bbl, 1, 1, 1, "1 Main St", none⟩)
  footprintsLookupByParcelBbl bbl := .ok (.found [⟨⟨"1000002", by decide, by decide⟩, bbl, none⟩])
  footprintsLookupByBaseBbl _ := .ok .notFound
  lookupByUnitBbl _ := .ok .zero
  lookupByCondoBaseAndUnitDesignation _ _ := .ok .zero
  lookupByCondoBillingBbl _ := .ok .zero
  lookupByCondoBaseBbl _ := .ok .zero

/-- Their bulk lookups, key by key. -/
def oneBuildingEachBulk : BulkPropertyRegistrationClients where
  plutoLookupByBbls keys :=
    .ok (tabulate (fun bbl => .found ⟨bbl, 1, 1, 1, "1 Main St", none⟩) keys)
  footprintsLookupByParcelBbls keys := .ok (tabulate
    (fun bbl => .found [⟨⟨"1000002", by decide, by decide⟩, bbl, none⟩]) keys)
  footprintsLookupByBaseBbls keys := .ok (tabulate (fun _ => .notFound) keys)
  lookupByUnitBbls keys := .ok (tabulate (fun _ => .zero) keys)
  lookupByCondoBaseBbls keys := .ok (tabulate (fun _ => .zero) keys)

/-- A parcel twice, a malformed BBL and a condo unit. -/
theorem registerBbls_refines_resolveBbl_mixed :
    ∃ db' response, (Db.empty : Db Unit).registerBbls idOfBbl 0 oneBuildingEachBulk
        ["1000010001", "1-00001", "1000011001", "1000010001"] = (db', .ok response) ∧
      ∀ result ∈ response.results,
        result.SaysOf ((Db.empty : Db Unit).resolveBbl idOfBbl 1 oneBuildingEach result.inputBbl).2 := by
  have hagrees : oneBuildingEachBulk.AgreesWith oneBuildingEach :=
    ⟨lookupsAgree_tabulate _, lookupsAgree_tabulate _, lookupsAgree_tabulate _,
      lookupsAgree_tabulate _, lookupsAgree_tabulate _⟩
  have hinputs : (Db.empty : Db Unit).InputsReferToProperties := fun _ _ _ h => nomatch h
  obtain ⟨db', response, hregister, -, -, -, -, hresults⟩ :=
    registerBbls_refines_resolveBbl oneBuildingEachBulk oneBuildingEach hagrees (Db.empty : Db Unit)
      hinputs idOfBbl idOfBbl 0 1 freshIds_empty freshIds_empty
      ["1000010001", "1-00001", "1000011001", "1000010001"]
  exact ⟨db', response, hregister, fun result hresult => (hresults result hresult).1⟩

end NycPropertyResolver
