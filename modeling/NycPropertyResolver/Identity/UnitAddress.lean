import NycPropertyResolver.Clients.CondoContent
import NycPropertyResolver.Identity.AddressFixedPoint
import NycPropertyResolver.Identity.CandidateOrder
import NycPropertyResolver.Identity.ResolutionPostcondition

/-!
# Identity — addresses with a unit

What a unit-aware resolution rests on in the two condominium datasets (`UnitContext`): one unit row for
the base of the parcel and the unit designation, one row for the BBL of that unit, one billing row for
the base; and where the parcel is a billing lot itself, one row for it as well.  A resolution either
fails as the resolver fails, with the error of a malformed row among the ways, or has established the
context (`Establishes`); what it stores is read off the context.
-/

namespace NycPropertyResolver

open Library

variable {Row κ : Type}

/-! ### The context of a unit -/

section Context

variable (units billings : OpenDataset κ)

/-- The base of a parcel: that of its billing row for a billing lot, and the parcel itself for another. -/
def IsCondoBaseOf (parcelBbl condoBaseBbl : CanonicalBbl) : Prop :=
  if isCondoBillingLot (parseBblComponents parcelBbl).lot then
    ∃ billing, Condo.IsOnlyRow Condo.condominiums billings (Condo.byCondoBillingBbl parcelBbl) billing ∧
      billing.condoBaseBbl = condoBaseBbl
  else
    condoBaseBbl = parcelBbl

/-- The unit of a parcel and a designation, by the rows of the two datasets. -/
structure UnitContext (parcelBbl : CanonicalBbl) (unitDesignation : String)
    (condoBaseBbl unitBbl condoBillingBbl : CanonicalBbl) : Prop where
  base : IsCondoBaseOf billings parcelBbl condoBaseBbl
  /-- One unit row for the base and the designation, of the unit BBL. -/
  unit : ∃ unit, Condo.IsOnlyRow Condo.condoUnits units
    (Condo.byCondoBaseAndUnitDesignation condoBaseBbl unitDesignation) unit ∧ unit.unitBbl = unitBbl
  /-- One row for the unit BBL, of the base. -/
  mapping : ∃ unit, Condo.IsOnlyRow Condo.condoUnits units (Condo.byUnitBbl unitBbl) unit ∧
    unit.condoBaseBbl = condoBaseBbl
  /-- One billing row for the base, of the billing BBL. -/
  billing : ∃ billing, Condo.IsOnlyRow Condo.condominiums billings
    (Condo.byCondoBaseBbl condoBaseBbl) billing ∧ billing.condoBillingBbl = condoBillingBbl
  /-- A billing lot is the billing BBL of its own base. -/
  billingLot : isCondoBillingLot (parseBblComponents parcelBbl).lot = true → condoBillingBbl = parcelBbl

end Context

/-! ### Errors of the resolver -/

/-- The codes of the condominium resolution. -/
def condoErrorCodes : List String :=
  ["RESOLVER_CONDO_BASE_NOT_FOUND", "RESOLVER_CONDO_BASE_AMBIGUOUS", "RESOLVER_CONDO_UNIT_NOT_FOUND",
    "RESOLVER_CONDO_UNIT_AMBIGUOUS", "RESOLVER_CONDO_BILLING_NOT_FOUND",
    "RESOLVER_CONDO_BILLING_AMBIGUOUS"]

section Errors

variable (units billings : OpenDataset κ)

/-- The error of the resolver for a row it cannot read. -/
def IsMalformedRowError (e : IdentityError) : Prop :=
  (∃ row ∈ units.records, ∃ message,
      Condo.parseCondoUnitRow row = .error (Condo.malformedRow "CONDO_UNITS" message) ∧
        e = .app "CONDO_UNITS_MALFORMED_RESPONSE" message 502) ∨
    ∃ row ∈ billings.records, ∃ message,
      Condo.parseCondominiumRow row = .error (Condo.malformedRow "CONDOMINIUMS" message) ∧
        e = .app "CONDOMINIUMS_MALFORMED_RESPONSE" message 502

/-- An error with one of the codes, or that of a row. -/
def IsCondoError (e : IdentityError) : Prop :=
  (∃ code ∈ condoErrorCodes, ∃ message, e = .app code message 422) ∨
    IsMalformedRowError units billings e

/-- A computation that gives what `Q` says, or fails as the condominium resolution does; where `C` has
been established it may fail otherwise. -/
def Establishes {β : Type} (C : Prop) (Q : β → Prop) : Except IdentityError β → Prop
  | .ok b => Q b
  | .error e => IsCondoError units billings e ∨ C

end Errors

namespace Establishes

variable {units billings : OpenDataset κ} {β γ : Type} {C : Prop} {P : β → Prop} {Q : γ → Prop}
  {x : Except IdentityError β} {f : β → Except IdentityError γ}

/-- What the first computation gives, the second may use. -/
theorem bind (hx : Establishes units billings C P x)
    (hf : ∀ b, P b → Establishes units billings C Q (f b)) :
    Establishes units billings C Q (x >>= f) := by
  cases x with
  | error e => exact hx
  | ok b => exact hf b hx

theorem of_context (hC : C) (h : ∀ b, x = .ok b → P b) : Establishes units billings C P x := by
  cases x with
  | error e => exact .inr hC
  | ok b => exact h b rfl

end Establishes

/-! ### The lookups of a resolution -/

/-- A client's error as the resolver passes it on.  What is no `AppError` with a status is `thrown`. -/
def IdentityError.ofClient (thrown : SourceClientError → IdentityError) :
    SourceClientError → IdentityError
  | .app code message (some statusCode) => .app code message statusCode
  | e => thrown e

/-- The resolver with the clients of the condominium datasets. -/
def PropertyResolverClients.withCondoClients (clients : PropertyResolverClients)
    (thrown : SourceClientError → IdentityError) (unitsClient billingsClient : Condo.CondoClient) :
    PropertyResolverClients :=
  { clients with
    lookupByUnitBbl := fun unitBbl =>
      (Condo.lookupByUnitBbl unitsClient unitBbl.text).mapError (.ofClient thrown)
    lookupByCondoBaseAndUnitDesignation := fun condoBaseBbl unitDesignation =>
      (Condo.lookupByCondoBaseAndUnitDesignation unitsClient condoBaseBbl.text
        unitDesignation).mapError (.ofClient thrown)
    lookupByCondoBillingBbl := fun condoBillingBbl =>
      (Condo.lookupByCondoBillingBbl billingsClient condoBillingBbl.text).mapError (.ofClient thrown)
    lookupByCondoBaseBbl := fun condoBaseBbl =>
      (Condo.lookupByCondoBaseBbl billingsClient condoBaseBbl.text).mapError (.ofClient thrown) }

section Lookups

variable {units billings : OpenDataset κ} {unitsClient billingsClient : Condo.CondoClient}
  {clients : PropertyResolverClients} {thrown : SourceClientError → IdentityError}
  {parcelBbl condoBaseBbl unitBbl : CanonicalBbl} {unitDesignation : String} {C : Prop}

/-- A lookup of the units reports the rows that match, or fails with the error of one of them. -/
theorem lookupUnits_establishes
    (hunits : Condo.Serves Condo.condoUnits Condo.unitBblColumns units unitsClient)
    (filter : SourceFilter) :
    Establishes units billings C (Condo.Reports Condo.condoUnits units filter)
      ((Condo.queryRows Condo.condoUnits unitsClient filter).mapError (.ofClient thrown)) := by
  rcases Condo.queryRows_reports Condo.condoUnits_lawful.sort_perm hunits filter with
    ⟨lookup, hlookup, hreports⟩ | ⟨row, hrow, e, herror, hlookup⟩
  · rw [hlookup]
    exact hreports
  · obtain ⟨message, rfl⟩ := Condo.parseCondoUnitRow_error herror
    rw [hlookup]
    exact .inl (.inr (.inl ⟨row, List.mem_of_mem_filter hrow, message, herror, rfl⟩))

/-- A lookup of the billing rows, likewise. -/
theorem lookupBillings_establishes
    (hbillings : Condo.Serves Condo.condominiums Condo.billingBblColumns billings billingsClient)
    (filter : SourceFilter) :
    Establishes units billings C (Condo.Reports Condo.condominiums billings filter)
      ((Condo.queryRows Condo.condominiums billingsClient filter).mapError (.ofClient thrown)) := by
  rcases Condo.queryRows_reports Condo.condominiums_lawful.sort_perm hbillings filter with
    ⟨lookup, hlookup, hreports⟩ | ⟨row, hrow, e, herror, hlookup⟩
  · rw [hlookup]
    exact hreports
  · obtain ⟨message, rfl⟩ := Condo.parseCondominiumRow_error herror
    rw [hlookup]
    exact .inl (.inr (.inr ⟨row, List.mem_of_mem_filter hrow, message, herror, rfl⟩))

/-- The single match of a lookup is the only row; none and several are errors of the resolver. -/
theorem requireSingleMatch_establishes {α : Type} {source : Condo.CondoSource α}
    {dataset : OpenDataset κ} {filter : SourceFilter} {lookup : LookupMatches α}
    {zero multiple : String × String} (hzero : zero.1 ∈ condoErrorCodes)
    (hmultiple : multiple.1 ∈ condoErrorCodes) (h : Condo.Reports source dataset filter lookup) :
    Establishes units billings C (Condo.IsOnlyRow source dataset filter)
      (requireSingleMatch lookup zero multiple) := by
  cases lookup with
  | zero => exact .inl (.inl ⟨zero.1, hzero, zero.2, rfl⟩)
  | one record => exact h
  | multiple records => exact .inl (.inl ⟨multiple.1, hmultiple, multiple.2, rfl⟩)

theorem resolveCondoBaseContext_establishes
    (hbillings : Condo.Serves Condo.condominiums Condo.billingBblColumns billings billingsClient) :
    Establishes units billings C (IsCondoBaseOf billings parcelBbl)
      (resolveCondoBaseContextFromParcelBbl
        (clients.withCondoClients thrown unitsClient billingsClient) parcelBbl) := by
  rw [resolveCondoBaseContextFromParcelBbl]
  by_cases hlot : isCondoBillingLot (parseBblComponents parcelBbl).lot = true
  · have hcall : (clients.withCondoClients thrown unitsClient billingsClient).lookupByCondoBillingBbl
        parcelBbl = (Condo.queryRows Condo.condominiums billingsClient
          (Condo.byCondoBillingBbl parcelBbl)).mapError (.ofClient thrown) := by
      rw [← Condo.lookupByCondoBillingBbl_eq]
      rfl
    rw [if_neg (by simp [hlot]), hcall]
    refine (lookupBillings_establishes hbillings _).bind fun lookup hreports => ?_
    refine (requireSingleMatch_establishes (by simp [condoErrorCodes]) (by simp [condoErrorCodes])
      hreports).bind fun billing hbilling => ?_
    change IsCondoBaseOf billings parcelBbl billing.condoBaseBbl
    rw [IsCondoBaseOf, if_pos hlot]
    exact ⟨billing, hbilling, rfl⟩
  · rw [if_pos (by simpa using hlot)]
    change IsCondoBaseOf billings parcelBbl parcelBbl
    rw [IsCondoBaseOf, if_neg hlot]

theorem resolveCondoBillingBbl_establishes
    (hbillings : Condo.Serves Condo.condominiums Condo.billingBblColumns billings billingsClient) :
    Establishes units billings C (fun condoBillingBbl => ∃ billing, Condo.IsOnlyRow Condo.condominiums
        billings (Condo.byCondoBaseBbl condoBaseBbl) billing ∧ billing.condoBillingBbl = condoBillingBbl)
      (resolveCondoBillingBbl (clients.withCondoClients thrown unitsClient billingsClient)
        condoBaseBbl) := by
  have hcall : (clients.withCondoClients thrown unitsClient billingsClient).lookupByCondoBaseBbl
      condoBaseBbl = (Condo.queryRows Condo.condominiums billingsClient
        (Condo.byCondoBaseBbl condoBaseBbl)).mapError (.ofClient thrown) := by
    rw [← Condo.lookupByCondoBaseBbl_eq]
    rfl
  rw [resolveCondoBillingBbl, hcall]
  refine (lookupBillings_establishes hbillings _).bind fun lookup hreports => ?_
  refine (requireSingleMatch_establishes (by simp [condoErrorCodes]) (by simp [condoErrorCodes])
    hreports).bind fun billing hbilling => ?_
  exact ⟨billing, hbilling, rfl⟩

/-- The lookup of a unit BBL, and the check of what it gives. -/
theorem requireCondoUnit_establishes
    (hunits : Condo.Serves Condo.condoUnits Condo.unitBblColumns units unitsClient)
    (unitBbl : CanonicalBbl) :
    Establishes units billings C (Condo.IsOnlyRow Condo.condoUnits units (Condo.byUnitBbl unitBbl))
      ((clients.withCondoClients thrown unitsClient billingsClient).lookupByUnitBbl unitBbl >>=
        requireCondoUnit unitBbl) := by
  have hcall : (clients.withCondoClients thrown unitsClient billingsClient).lookupByUnitBbl unitBbl =
      (Condo.queryRows Condo.condoUnits unitsClient (Condo.byUnitBbl unitBbl)).mapError
        (.ofClient thrown) := by
    rw [← Condo.lookupByUnitBbl_eq]
    rfl
  rw [hcall]
  refine (lookupUnits_establishes hunits _).bind fun lookup hreports => ?_
  exact requireSingleMatch_establishes (by simp [condoErrorCodes]) (by simp [condoErrorCodes]) hreports

/-- **A unit found by its base and designation**: with its BBL go the base and the billing BBL of the
context. -/
theorem resolveCondoUnitByAddressContext_establishes
    (hunits : Condo.Serves Condo.condoUnits Condo.unitBblColumns units unitsClient)
    (hbillings : Condo.Serves Condo.condominiums Condo.billingBblColumns billings billingsClient)
    {geosearchBin : Option String}
    (htrim : trim unitDesignation = unitDesignation) (hne : unitDesignation.isEmpty = false)
    (hbase : IsCondoBaseOf billings parcelBbl condoBaseBbl) :
    Establishes units billings
      (∃ condoBaseBbl unitBbl condoBillingBbl, UnitContext units billings parcelBbl unitDesignation
        condoBaseBbl unitBbl condoBillingBbl)
      (fun payload => UnitContext units billings parcelBbl unitDesignation payload.condoBaseBbl
        payload.unitBbl payload.condoBillingBbl)
      (resolveCondoUnitByAddressContext (clients.withCondoClients thrown unitsClient billingsClient)
        condoBaseBbl unitDesignation geosearchBin) := by
  have hcall : (clients.withCondoClients thrown unitsClient
      billingsClient).lookupByCondoBaseAndUnitDesignation condoBaseBbl unitDesignation =
        (Condo.queryRows Condo.condoUnits unitsClient
          (Condo.byCondoBaseAndUnitDesignation condoBaseBbl unitDesignation)).mapError
            (.ofClient thrown) := by
    rw [← Condo.lookupByCondoBaseAndUnitDesignation_eq condoBaseBbl htrim hne]
    rfl
  rw [resolveCondoUnitByAddressContext, hcall]
  refine (lookupUnits_establishes hunits _).bind fun lookup hreports => ?_
  refine (requireSingleMatch_establishes (by simp [condoErrorCodes]) (by simp [condoErrorCodes])
    hreports).bind fun unit hunit => ?_
  obtain ⟨hunitBase, hmapped⟩ := Condo.unit_of_context hunits hunit
  have hresolve : ∀ next : CondoUnitRecord → Except IdentityError CondoResolutionResult,
      ((clients.withCondoClients thrown unitsClient billingsClient).lookupByUnitBbl unit.unitBbl >>=
        fun unitLookup => requireCondoUnit unit.unitBbl unitLookup >>= next) =
      ((clients.withCondoClients thrown unitsClient billingsClient).lookupByUnitBbl unit.unitBbl >>=
        requireCondoUnit unit.unitBbl) >>= next := fun next => (bind_assoc _ _ _).symm
  rw [resolveCondoUnitBbl, hresolve]
  refine (requireCondoUnit_establishes hunits unit.unitBbl).bind fun mapping hmapping => ?_
  -- the row of the unit BBL is the row that was found
  cases hmapped mapping hmapping
  rw [hunitBase]
  refine (resolveCondoBillingBbl_establishes hbillings).bind fun condoBillingBbl hbilling => ?_
  have hcontext : UnitContext units billings parcelBbl unitDesignation condoBaseBbl unit.unitBbl
      condoBillingBbl :=
    { base := hbase
      unit := ⟨unit, hunit, rfl⟩
      mapping := ⟨unit, hmapping, hunitBase⟩
      billing := hbilling
      billingLot := by
        intro hlot
        rw [IsCondoBaseOf, if_pos hlot] at hbase
        obtain ⟨parcelBilling, hparcel, rfl⟩ := hbase
        obtain ⟨billing, hbilling, rfl⟩ := hbilling
        exact Condo.billing_of_billingBbl hbillings hparcel hbilling }
  refine .of_context ⟨_, _, _, hcontext⟩ fun payload hpayload => ?_
  obtain ⟨plutoLookup, -, hpayload⟩ := except_bind_ok.mp hpayload
  obtain ⟨parcel, -, hpayload⟩ := except_bind_ok.mp hpayload
  obtain ⟨candidateBins, -, hpayload⟩ := except_bind_ok.mp hpayload
  cases hpayload
  exact hcontext

end Lookups

/-! ### The unit of an address -/

section Designation

variable {mapping : CaseMapping} {input : String} {normalized : AddressNormalizationResult}

theorem spaced_collapseWhitespace (text : List Char) :
    Spaced isWhitespace ' ' (collapseWhitespace text) := by
  obtain ⟨ws, hws, hsqueeze⟩ := exists_words isWhitespace ' ' text
  rw [collapseWhitespace_eq, hsqueeze]
  exact spaced_unwords fun w hw => (hws w hw).1

/-- The unit designation of an address is a value in upper case. -/
theorem unitDesignation_eq (h : normalizeAddress mapping input = .ok normalized)
    {unitDesignation : String} (hunit : normalized.normalizedUnitDesignation = some unitDesignation) :
    ∃ value, IsUnitValue value ∧ unitDesignation = String.ofList value := by
  obtain ⟨-, base, unit, hextract, -, rfl⟩ := normalizeAddress_eq_ok.mp h
  have hspaced := spaced_collapseWhitespace input.toList
  have hvalue : ∀ {keyword value}, IsUnitValue value → unit = some (unitMatch mapping keyword value) →
      ∃ value, IsUnitValue value ∧ unitDesignation = String.ofList value := by
    rintro keyword value hvalue rfl
    cases hunit
    refine ⟨value.map Char.toUpper, hvalue.upper, ?_⟩
    rw [unitMatch, normalizeUnitValue_eq hvalue]
  by_cases honly : IsUnitOnly (collapseWhitespace input.toList)
  · obtain ⟨keyword, value, honly⟩ := honly
    rw [extractUnitDesignator_only hspaced honly] at hextract
    obtain ⟨lead, -, hisValue, -⟩ := honly
    exact hvalue hisValue (Prod.mk.inj hextract).2.symm
  · by_cases hends : EndsInUnit (collapseWhitespace input.toList)
    · obtain ⟨front, rest, keyword, value, htext, hends⟩ := hends
      rw [extractUnitDesignator_trailing hspaced honly htext hends] at hextract
      exact hvalue hends.isValue (Prod.mk.inj hextract).2.symm
    · rw [extractUnitDesignator_none hspaced honly hends] at hextract
      cases hextract
      cases hunit

/-- So trimming leaves it as it is, and it is not empty. -/
theorem trim_unitDesignation (h : normalizeAddress mapping input = .ok normalized)
    {unitDesignation : String} (hunit : normalized.normalizedUnitDesignation = some unitDesignation) :
    trim unitDesignation = unitDesignation ∧ unitDesignation.isEmpty = false := by
  obtain ⟨value, hvalue, rfl⟩ := unitDesignation_eq h hunit
  constructor
  · rw [trim, String.toList_ofList, trimChars_of_isWord hvalue.isWord]
  · rw [Bool.eq_false_iff]
    intro hempty
    have hnil := congrArg String.toList (String.isEmpty_iff.mp hempty)
    rw [String.toList_ofList] at hnil
    exact hvalue.isWord.1 hnil

end Designation

/-! ### What is stored -/

section Store

variable {db db' : Db Row} {r : PropertyRegistration} {p freshId : PropertyId} {now : Time}

/-- The property has the BBLs of the registration. -/
def HasBbls (property : Property) (r : PropertyRegistration) : Prop :=
  property.bbl = r.bbl ∧ property.condoBaseBbl = r.condoBaseBbl ∧
    property.condoBillingBbl = r.condoBillingBbl

/-- A property that is created has the BBLs of its registration. -/
theorem findOrCreateProperty_hasBbls (hnone : db.findPropertyByBbl r.bbl = none)
    (h : db.findOrCreateProperty freshId now r.createInput = .ok (db', p)) :
    ∃ property, db'.properties.find p = some property ∧ HasBbls property r := by
  rcases Db.findOrCreateProperty_eq_ok h with ⟨hfound, -⟩ | ⟨-, rfl, h⟩
  · rw [hnone] at hfound
    cases hfound
  · obtain ⟨bbl, hbbl, h⟩ := except_bind_ok.mp h
    obtain ⟨condoBaseBbl, hbase, h⟩ := except_bind_ok.mp h
    obtain ⟨condoBillingBbl, hbilling, h⟩ := except_bind_ok.mp h
    change assertValidBbl r.bbl.text = _ at hbbl
    change assertValidOptionalBbl (r.condoBaseBbl.map (·.text)) = _ at hbase
    change assertValidOptionalBbl (r.condoBillingBbl.map (·.text)) = _ at hbilling
    rw [Db.assertValidBbl_text] at hbbl
    rw [Db.assertValidOptionalBbl_text] at hbase hbilling
    cases hbbl
    cases hbase
    cases hbilling
    simp only at h
    split at h
    · cases h
    · cases h
      exact ⟨_, Table.find_set_self, rfl, rfl, rfl⟩

/-- Applying the BINs leaves a property as it is, its version aside. -/
theorem applyCandidateBins_property (h : db.applyCandidateBins r p = .ok db') {property : Property}
    (hfind : db'.properties.find p = some property) :
    ∃ before version, db.properties.find p = some before ∧
      property = { before with identifierVersion := version } := by
  rw [Db.applyCandidateBins] at h
  split at h
  · rw [Db.applyEffectiveBinSet] at h
    cases hbefore : db.properties.find p with
    | none => rw [hbefore] at h; cases h
    | some before =>
        rw [hbefore] at h
        simp only at h
        split at h
        · cases h
          rw [hbefore] at hfind
          cases hfind
          exact ⟨property, property.identifierVersion, rfl, rfl⟩
        · cases h
          change (db.properties.modify p _).find p = _ at hfind
          rw [Table.find_modify_self, hbefore] at hfind
          cases hfind
          exact ⟨before, before.identifierVersion + 1, rfl, rfl⟩
  · cases h
    exact ⟨property, property.identifierVersion, hfind, rfl⟩

/-- **What a registration returns is stored**: the property that was found or created, its version
aside. -/
theorem registerProperty_property {property : PropertyWithRelations}
    (h : db.registerProperty freshId now r = (db', .ok property)) :
    db'.properties.find property.id = some property.property ∧
      ∃ db₁ before version, db.findOrCreateProperty freshId now r.createInput = .ok (db₁, property.id) ∧
        db₁.properties.find property.id = some before ∧
        property.property = { before with identifierVersion := version } := by
  rw [Db.registerProperty] at h
  cases hcreate : db.findOrCreateProperty freshId now r.createInput with
  | error e => rw [hcreate] at h; cases h
  | ok created =>
      obtain ⟨db₁, p⟩ := created
      rw [hcreate] at h
      simp only at h
      cases happly : db₁.applyCandidateBins r p with
      | error e => rw [happly] at h; cases h
      | ok db₂ =>
          rw [happly] at h
          simp only at h
          cases hfind : db₂.properties.find p with
          | none =>
              rw [Db.loadPropertyWithRelations, hfind] at h
              cases h
          | some stored =>
              rw [Db.loadPropertyWithRelations, hfind] at h
              cases h
              obtain ⟨before, version, hbefore, hversion⟩ := applyCandidateBins_property happly hfind
              rw [persistResolutionInput_properties.1]
              exact ⟨hfind, db₁, before, version, rfl, hbefore, hversion⟩

/-- **What is registered at a BBL without a property has the BBLs of the registration.** -/
theorem registerProperty_hasBbls {property : PropertyWithRelations}
    (h : db.registerProperty freshId now r = (db', .ok property))
    (hnone : db.findPropertyByBbl property.property.bbl = none) : HasBbls property.property r := by
  obtain ⟨-, db₁, before, version, hcreate, hbefore, hversion⟩ := registerProperty_property h
  have hnew : db.findPropertyByBbl r.bbl = none := by
    rcases Db.findOrCreateProperty_eq_ok hcreate with ⟨hfound, rfl⟩ | ⟨hnew, -⟩
    · -- the property that was there would be found by its BBL
      obtain ⟨found, hfind, hbbl⟩ := Db.findPropertyByBbl_eq_some hfound
      rw [hbefore] at hfind
      cases hfind
      rw [hversion] at hnone
      change db₁.findPropertyByBbl before.bbl = none at hnone
      rw [hbbl, hfound] at hnone
      cases hnone
    · exact hnew
  obtain ⟨created, hfind, hbbls⟩ := findOrCreateProperty_hasBbls hnew hcreate
  rw [hbefore] at hfind
  cases hfind
  rw [hversion]
  exact hbbls

end Store

/-! ### Resolution of an address with a unit -/

section Input

variable {db db' : Db Row} {ids : CanonicalBbl → PropertyId} {now : Time}
  {inputType : PropertyResolutionInputType} {normalizedInput : String}
  {resolution : Except IdentityError PropertyRegistration}

/-- The resolution of an input that is not stored fails before anything is written. -/
theorem resolveInput_error {e : IdentityError}
    (hinput : db.findPropertyIdByResolutionInput inputType normalizedInput = none)
    (h : resolution = .error e) :
    db.resolveInput ids now inputType normalizedInput resolution = (db, .error e) := by
  rw [h]
  simp only [Db.resolveInput, hinput]

theorem resolveInput_ok {result : ResolvePropertyResult}
    (hinput : db.findPropertyIdByResolutionInput inputType normalizedInput = none)
    (h : db.resolveInput ids now inputType normalizedInput resolution = (db', .ok result)) :
    ∃ r, resolution = .ok r ∧ db.registerProperty (ids r.bbl) now r = (db', .ok result.property) := by
  cases hr : resolution with
  | error e =>
      rw [resolveInput_error hinput hr] at h
      cases h
  | ok r =>
      simp only [Db.resolveInput, hinput, hr] at h
      cases hregister : db.registerProperty (ids r.bbl) now r with
      | mk db₁ registered =>
          cases registered with
          | error e => simp only [hregister] at h; cases h
          | ok property =>
              simp only [hregister] at h
              cases h
              exact ⟨r, rfl, hregister⟩

end Input

/-- What follows the selection of a parcel. -/
def resolveSelectedUnit (clients : PropertyResolverClients) (normalized : AddressNormalizationResult)
    (unitDesignation : String) (selected : SelectedGeoSearchCandidate) :
    Except IdentityError PropertyRegistration := do
  let condoBaseBbl ← resolveCondoBaseContextFromParcelBbl clients selected.canonicalBbl
  let payload ← resolveCondoUnitByAddressContext clients condoBaseBbl unitDesignation
    selected.candidate.bin
  .ok (condoRegistration payload .address normalized.normalizedInput (some selected.candidate))

/-- The registration of a selected parcel is that of a unit in its context. -/
theorem resolveSelectedUnit_establishes {units billings : OpenDataset κ}
    {unitsClient billingsClient : Condo.CondoClient}
    (hunits : Condo.Serves Condo.condoUnits Condo.unitBblColumns units unitsClient)
    (hbillings : Condo.Serves Condo.condominiums Condo.billingBblColumns billings billingsClient)
    (clients : PropertyResolverClients) (thrown : SourceClientError → IdentityError)
    (normalized : AddressNormalizationResult) {unitDesignation : String}
    (htrim : trim unitDesignation = unitDesignation) (hne : unitDesignation.isEmpty = false)
    (selected : SelectedGeoSearchCandidate) :
    Establishes units billings
      (∃ condoBaseBbl unitBbl condoBillingBbl, UnitContext units billings selected.canonicalBbl
        unitDesignation condoBaseBbl unitBbl condoBillingBbl)
      (fun r => ∃ condoBaseBbl condoBillingBbl, UnitContext units billings selected.canonicalBbl
        unitDesignation condoBaseBbl r.bbl condoBillingBbl ∧ r.condoBaseBbl = some condoBaseBbl ∧
        r.condoBillingBbl = some condoBillingBbl)
      (resolveSelectedUnit (clients.withCondoClients thrown unitsClient billingsClient) normalized
        unitDesignation selected) := by
  refine (resolveCondoBaseContext_establishes hbillings).bind fun condoBaseBbl hbase => ?_
  refine (resolveCondoUnitByAddressContext_establishes hunits hbillings htrim hne hbase).bind
    fun payload hpayload => ?_
  exact ⟨payload.condoBaseBbl, payload.condoBillingBbl, hpayload, rfl, rfl⟩

/-- **Unit-aware resolution is consistent.**  A resolution that succeeds has established the context of
the unit it stores, for the parcel GeoSearch gives; where there is no such context, or no parcel, it
fails with an error of the resolver, that of a malformed row included, and leaves the database as it
is. -/
theorem resolveAddress_unit_consistent {units billings : OpenDataset κ}
    {unitsClient billingsClient : Condo.CondoClient}
    (hunits : Condo.Serves Condo.condoUnits Condo.unitBblColumns units unitsClient)
    (hbillings : Condo.Serves Condo.condominiums Condo.billingBblColumns billings billingsClient)
    (mapping : CaseMapping) (locale : LocaleCompare) (clients : PropertyResolverClients)
    (thrown : SourceClientError → IdentityError) (ids : CanonicalBbl → PropertyId) (now : Time)
    (db : Db Row) (address : String) {normalized : AddressNormalizationResult}
    {unitDesignation : String} {response : GeoSearchSearchResult}
    (hnormal : normalizeAddress mapping address = .ok normalized)
    (hunit : normalized.normalizedUnitDesignation = some unitDesignation)
    (hsearch : clients.searchByAddress normalized.normalizedBaseAddress = .ok response)
    (hinput : db.findPropertyIdByResolutionInput .address normalized.normalizedInput = none) :
    (∀ db' result, db.resolveAddress ids now (addressRules mapping locale)
        (clients.withCondoClients thrown unitsClient billingsClient) address = (db', .ok result) →
      db.findPropertyByBbl result.property.property.bbl = none →
      ∃ selected condoBaseBbl condoBillingBbl,
        selectGeoSearchCandidate mapping locale response.candidates response.queriedAddress =
          .ok selected ∧
        UnitContext units billings selected.canonicalBbl unitDesignation condoBaseBbl
          result.property.property.bbl condoBillingBbl ∧
        db'.properties.find result.property.id = some result.property.property ∧
        result.property.property.condoBaseBbl = some condoBaseBbl ∧
        result.property.property.condoBillingBbl = some condoBillingBbl) ∧
    (∀ selected, selectGeoSearchCandidate mapping locale response.candidates
        response.queriedAddress = .ok selected →
      (¬ ∃ condoBaseBbl unitBbl condoBillingBbl, UnitContext units billings selected.canonicalBbl
        unitDesignation condoBaseBbl unitBbl condoBillingBbl) →
      ∃ e, IsCondoError units billings e ∧ db.resolveAddress ids now (addressRules mapping locale)
        (clients.withCondoClients thrown unitsClient billingsClient) address = (db, .error e)) ∧
    ∀ e, selectGeoSearchCandidate mapping locale response.candidates response.queriedAddress =
        .error e →
      e ∈ selectionErrors ∧ db.resolveAddress ids now (addressRules mapping locale)
        (clients.withCondoClients thrown unitsClient billingsClient) address = (db, .error e) := by
  obtain ⟨htrim, hne⟩ := trim_unitDesignation hnormal hunit
  have hselected := resolveSelectedUnit_establishes hunits hbillings clients thrown normalized htrim hne
  -- the resolution, from the selection of a parcel on
  have hresolve : db.resolveAddress ids now (addressRules mapping locale)
        (clients.withCondoClients thrown unitsClient billingsClient) address =
      db.resolveInput ids now .address normalized.normalizedInput
        (selectGeoSearchCandidate mapping locale response.candidates response.queriedAddress >>=
          resolveSelectedUnit (clients.withCondoClients thrown unitsClient billingsClient) normalized
            unitDesignation) := by
    have huncached : resolveUncachedAddress (addressRules mapping locale)
        (clients.withCondoClients thrown unitsClient billingsClient) normalized =
        (clients.searchByAddress normalized.normalizedBaseAddress >>= fun geoSearchResult =>
          selectGeoSearchCandidate mapping locale geoSearchResult.candidates
            geoSearchResult.queriedAddress >>=
          resolveSelectedUnit (clients.withCondoClients thrown unitsClient billingsClient) normalized
            unitDesignation) := by
      rw [resolveUncachedAddress, hunit]
      rfl
    have hrules : (addressRules mapping locale).normalizeAddress address = .ok normalized := hnormal
    rw [Db.resolveAddress, hrules]
    simp only
    rw [huncached, hsearch]
    rfl
  rw [hresolve]
  refine ⟨fun db' result hok hnew => ?_, fun selected hselection hnone => ?_, fun e hselection => ?_⟩
  · obtain ⟨r, hr, hregister⟩ := resolveInput_ok hinput hok
    obtain ⟨selected, hselection, hr⟩ := except_bind_ok.mp hr
    have hcontext := hselected selected
    rw [hr] at hcontext
    obtain ⟨condoBaseBbl, condoBillingBbl, hcontext, hbase, hbilling⟩ := hcontext
    obtain ⟨hbbl, hbase', hbilling'⟩ := registerProperty_hasBbls hregister hnew
    rw [← hbbl] at hcontext
    exact ⟨selected, condoBaseBbl, condoBillingBbl, hselection, hcontext,
      (registerProperty_property hregister).1, hbase'.trans hbase, hbilling'.trans hbilling⟩
  · have hfails := hselected selected
    rw [hselection]
    cases hr : resolveSelectedUnit (clients.withCondoClients thrown unitsClient billingsClient)
        normalized unitDesignation selected with
    | error e =>
        rw [hr] at hfails
        exact ⟨e, hfails.resolve_right hnone, resolveInput_error hinput hr⟩
    | ok r =>
        rw [hr] at hfails
        obtain ⟨condoBaseBbl, condoBillingBbl, hcontext, -⟩ := hfails
        exact absurd ⟨condoBaseBbl, r.bbl, condoBillingBbl, hcontext⟩ hnone
  · refine ⟨selectGeoSearchCandidate_error hselection, resolveInput_error hinput ?_⟩
    rw [hselection]
    rfl

/-! ### A unit of a billing lot -/

/-- The billing parcel of the tower. -/
def towerBillingBbl : CanonicalBbl := ⟨"1008357501", by decide, by decide⟩

/-- Its base parcel. -/
def towerBaseBbl : CanonicalBbl := ⟨"1008350041", by decide, by decide⟩

/-- The unit of it that is asked for. -/
def towerUnitBbl : CanonicalBbl := ⟨"1008351001", by decide, by decide⟩

/-- The unit 4B of the tower. -/
def towerUnits : OpenDataset Nat where
  records := [fun
    | "unit_bbl" => .string towerUnitBbl.text
    | "condo_base_bbl" => .string towerBaseBbl.text
    | "unit_designation" => .string "4B"
    | _ => .undefined]
  reads value text := value = .string text
  rank _ := 0

/-- The billing lot of the tower. -/
def towerBillings : OpenDataset Nat where
  records := [fun
    | "condo_base_bbl" => .string towerBaseBbl.text
    | "condo_billing_bbl" => .string towerBillingBbl.text
    | _ => .undefined]
  reads value text := value = .string text
  rank _ := 0

/-- The resolver of the tower, its GeoSearch answering with the billing lot. -/
def towerClients : PropertyResolverClients where
  searchByAddress address := .ok ⟨address, [⟨"350 5 AVENUE, MANHATTAN", none, "address", some 1,
    some towerBillingBbl.text, none, none, some "1"⟩]⟩
  plutoLookupByBbl bbl := .ok (.found ⟨bbl, 1, 835, 7501, "350 5 AVENUE", none⟩)
  footprintsLookupByParcelBbl _ := .ok .notFound
  footprintsLookupByBaseBbl _ := .ok .notFound
  lookupByUnitBbl _ := .ok .zero
  lookupByCondoBaseAndUnitDesignation _ _ := .ok .zero
  lookupByCondoBillingBbl _ := .ok .zero
  lookupByCondoBaseBbl _ := .ok .zero

theorem reads_text_iff (bbl bbl' : CanonicalBbl) :
    decide (SourceValue.string bbl.text = .string bbl'.text) = true ↔
      Condo.sourceBbl? (.string bbl.text) = some bbl' := by
  have hparse : Condo.sourceBbl? (.string bbl.text) = some bbl := DigitString.parse_text bbl
  rw [hparse, decide_eq_true_eq, SourceValue.string.injEq, Option.some.injEq]
  exact ⟨DigitString.ext, congrArg _⟩

theorem towerUnits_serves : Condo.Serves Condo.condoUnits Condo.unitBblColumns towerUnits
    ⟨towerUnits.fetch, 30000, 25⟩ := by
  refine Condo.serves_of_answers towerUnits.fetch_answers (by decide) ?_
  intro row hrow column hcolumn bbl
  rw [List.mem_singleton.mp hrow]
  rcases List.mem_cons.mp hcolumn with rfl | hcolumn
  · exact reads_text_iff towerUnitBbl bbl
  · rw [List.mem_singleton.mp hcolumn]
    exact reads_text_iff towerBaseBbl bbl

theorem towerBillings_serves : Condo.Serves Condo.condominiums Condo.billingBblColumns towerBillings
    ⟨towerBillings.fetch, 30000, 25⟩ := by
  refine Condo.serves_of_answers towerBillings.fetch_answers (by decide) ?_
  intro row hrow column hcolumn bbl
  rw [List.mem_singleton.mp hrow]
  rcases List.mem_cons.mp hcolumn with rfl | hcolumn
  · exact reads_text_iff towerBaseBbl bbl
  · rw [List.mem_singleton.mp hcolumn]
    exact reads_text_iff towerBillingBbl bbl

/-- The resolution of its unit, from an empty database. -/
def towerResolution : Db Unit × Except IdentityError ResolvePropertyResult :=
  (Db.empty : Db Unit).resolveAddress (fun _ => 0) 0 (addressRules .ascii .codePoints)
    (towerClients.withCondoClients (fun _ => .typeError) ⟨towerUnits.fetch, 30000, 25⟩
      ⟨towerBillings.fetch, 30000, 25⟩) "350 5th Ave, Apt. 4b"

/-- The unit of the tower is resolved in its context. -/
theorem resolveAddress_unit_consistent_tower :
    ∃ (result : ResolvePropertyResult) (selected : SelectedGeoSearchCandidate)
      (condoBaseBbl condoBillingBbl : CanonicalBbl), towerResolution.2 = .ok result ∧
      UnitContext towerUnits towerBillings selected.canonicalBbl "4B" condoBaseBbl
        result.property.property.bbl condoBillingBbl := by
  have hid : uncachedId? towerResolution.2 = some 0 := by decide +kernel
  obtain ⟨property, hresult, -⟩ := uncachedId?_eq_some hid
  have hnormal : normalizeAddress .ascii "350 5th Ave, Apt. 4b" =
      .ok ⟨"350 5th Ave,", some "4B", "350 5th Ave, Apt 4B"⟩ := by decide +kernel
  obtain ⟨selected, condoBaseBbl, condoBillingBbl, -, hcontext, -⟩ :=
    (resolveAddress_unit_consistent towerUnits_serves towerBillings_serves .ascii .codePoints
      towerClients (fun _ => .typeError) (fun _ => 0) 0 Db.empty "350 5th Ave, Apt. 4b" hnormal rfl rfl
      rfl).1 towerResolution.1 ⟨property, false⟩ (Prod.ext rfl hresult) rfl
  exact ⟨_, selected, condoBaseBbl, condoBillingBbl, hresult, hcontext⟩

end NycPropertyResolver
