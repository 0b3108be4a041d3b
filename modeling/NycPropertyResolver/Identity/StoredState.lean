import NycPropertyResolver.Identity.BulkEffects

/-!
# Identity — what is stored for a BBL

What the database holds for a BBL (`StoredState`): its property with its BINs and its coverage, ids and
times aside, and the property its input maps to.  A registration of an input that is not stored
succeeds, and what it leaves at its BBL is a function of what was there and of the registration without
its metadata (`registerProperty_spec`).
-/

namespace NycPropertyResolver

open Library

variable {Row : Type}

/-! ### Views -/

/-- A property with its BINs and its coverage, its id and the times of its creation and its resolution
aside. -/
@[ext] structure PropertyView where
  property : Property
  bins : SortedSet CanonicalBin
  coverage : Option PropertyDatasetCoverage

/-- The property, at no particular time. -/
def Property.timeless (property : Property) : Property :=
  { property with createdAt := 0, resolvedAt := 0 }

/-- The view of a property with its relations. -/
def PropertyWithRelations.view (property : PropertyWithRelations) : PropertyView where
  property := property.property.timeless
  bins := property.bins
  coverage := property.datasetCoverage

/-- The property a stored input maps to: the one at its BBL, or another. -/
inductive InputTarget where
  | own
  | other (propertyId : PropertyId)
  deriving DecidableEq

/-- What is stored for a BBL. -/
@[ext] structure StoredState where
  property : Option PropertyView
  input : Option InputTarget

namespace Db

/-- The view of the property stored for a BBL. -/
def viewAt (db : Db Row) (bbl : CanonicalBbl) : Option PropertyView :=
  ((db.findPropertyByBbl bbl).bind db.loadPropertyWithRelations).map (·.view)

/-- Where an input of a BBL leads: to the BBL's own property or to another's. -/
def inputTarget (db : Db Row) (bbl : CanonicalBbl) (propertyId : PropertyId) : InputTarget :=
  if db.findPropertyByBbl bbl = some propertyId then .own else .other propertyId

/-- What is stored for a BBL: its property, and where its input leads. -/
def storedAt (db : Db Row) (bbl : CanonicalBbl) : StoredState where
  property := db.viewAt bbl
  input := (db.findPropertyIdByResolutionInput .bbl bbl.text).map (db.inputTarget bbl)

end Db

section Views

variable {db db' : Db Row} {bbl : CanonicalBbl} {p : PropertyId}

theorem SameAt.viewAt (h : SameAt bbl db db') : db'.viewAt bbl = db.viewAt bbl := by
  rw [Db.viewAt, Db.viewAt, h.found]
  cases hfound : db.findPropertyByBbl bbl with
  | none => rfl
  | some p =>
      obtain ⟨hproperty, hbins, hcoverage⟩ := h.property p hfound
      simp only [Option.bind_some, Db.loadPropertyWithRelations, hproperty, hbins, hcoverage]

/-- What is stored for a BBL is the same in databases that agree on it. -/
theorem SameAt.storedAt (h : SameAt bbl db db') : db'.storedAt bbl = db.storedAt bbl := by
  have htarget : db'.inputTarget bbl = db.inputTarget bbl := by
    funext p
    rw [Db.inputTarget, Db.inputTarget, h.found]
  rw [Db.storedAt, Db.storedAt, h.viewAt, htarget, Db.findPropertyIdByResolutionInput,
    Db.findPropertyIdByResolutionInput, h.input]

theorem viewAt_of_load {property : PropertyWithRelations} (hfound : db.findPropertyByBbl bbl = some p)
    (hload : db.loadPropertyWithRelations p = some property) : db.viewAt bbl = some property.view := by
  rw [Db.viewAt, hfound, Option.bind_some, hload]
  rfl

end Views

/-! ### The view a registration leaves -/

namespace PropertyRegistration

/-- The BINs the property is given. -/
def effective (r : PropertyRegistration) : SortedSet CanonicalBin := filterValidBins r.candidateTexts

/-- A new property. -/
def createdView (r : PropertyRegistration) : PropertyView where
  property :=
    { identifierVersion := 1
      bbl := r.bbl
      condoBaseBbl := r.condoBaseBbl
      condoBillingBbl := r.condoBillingBbl
      normalizedAddress := some r.normalizedAddress
      borough := r.borough
      block := r.block
      lot := r.lot
      createdAt := 0
      resolvedAt := 0 }
  bins := r.effective
  coverage := some (buildInitialCoverage r.effective)

/-- A property whose BINs are replaced. -/
def replacedView (r : PropertyRegistration) (view : PropertyView) : PropertyView where
  property := { view.property with identifierVersion := view.property.identifierVersion + 1 }
  bins := r.effective
  coverage := some (Db.invalidatedCoverage view.coverage r.effective)

/-- What a registration leaves where there was a property, or none. -/
def registeredView (r : PropertyRegistration) : Option PropertyView → PropertyView
  | none => r.createdView
  | some view =>
    if r.candidateBins.size > 0 ∧ view.bins ≠ r.effective then r.replacedView view else view

/-- The registration, with no metadata. -/
def plain (r : PropertyRegistration) : PropertyRegistration :=
  { r with
    resolverConfidence := none
    resolverMetadata := .bulkNonCondo r.bbl 0 }

theorem registeredView_plain (r : PropertyRegistration) (view : Option PropertyView) :
    r.plain.registeredView view = r.registeredView view := rfl

/-- Registrations that differ in their metadata leave the same. -/
theorem registeredView_of_plain {r r' : PropertyRegistration} (h : r.plain = r'.plain)
    (view : Option PropertyView) : r.registeredView view = r'.registeredView view := by
  rw [← registeredView_plain r, ← registeredView_plain r', h]

end PropertyRegistration

/-! ### A registration -/

section Register

variable {db : Db Row} {p freshId : PropertyId}

/-- Applying the BINs to a stored property. -/
theorem applyCandidateBins_view (r : PropertyRegistration) {property : PropertyWithRelations}
    (hload : db.loadPropertyWithRelations p = some property) :
    ∃ db' property', db.applyCandidateBins r p = .ok db' ∧
      db'.loadPropertyWithRelations p = some property' ∧ property'.id = p ∧
      property'.view = (if r.candidateBins.size > 0 ∧ property.view.bins ≠ r.effective then
        r.replacedView property.view else property.view) ∧
      (∀ bbl, db'.findPropertyByBbl bbl = db.findPropertyByBbl bbl) ∧
      db'.resolutionInputs = db.resolutionInputs ∧
      ∀ q, db'.properties.find q = none ↔ db.properties.find q = none := by
  obtain ⟨stored, hstored, rfl⟩ := Option.map_eq_some_iff.mp hload
  have hsame : ∃ db' property', (Except.ok db : Except IdentityError (Db Row)) = .ok db' ∧
      db'.loadPropertyWithRelations p = some property' ∧ property'.id = p ∧
      property'.view = PropertyWithRelations.view ⟨p, stored, db.propertyBins p, db.coverage p⟩ ∧
      (∀ bbl, db'.findPropertyByBbl bbl = db.findPropertyByBbl bbl) ∧
      db'.resolutionInputs = db.resolutionInputs ∧
      ∀ q, db'.properties.find q = none ↔ db.properties.find q = none :=
    ⟨db, _, rfl, hload, rfl, rfl, fun _ => rfl, rfl, fun _ => Iff.rfl⟩
  rw [Db.applyCandidateBins]
  by_cases hsize : r.candidateBins.size > 0
  · rw [if_pos hsize, Db.applyEffectiveBinSet, hstored]
    simp only
    by_cases hbins : db.propertyBins p = filterValidBins r.candidateTexts
    · rw [if_pos hbins, if_neg fun h => h.2 hbins]
      exact hsame
    · rw [if_neg hbins, if_pos ⟨hsize, hbins⟩]
      let replaced := db.replaceBinSet p (filterValidBins r.candidateTexts)
      refine ⟨replaced, ⟨p, { stored with identifierVersion := stored.identifierVersion + 1 },
        replaced.propertyBins p, replaced.coverage p⟩, rfl, ?_, rfl, ?_,
        fun bbl => Db.findPropertyByBbl_replaceBinSet, rfl, fun q => ?_⟩
      · have hfind : replaced.properties.find p =
            some { stored with identifierVersion := stored.identifierVersion + 1 } := by
          change (db.properties.modify p _).find p = _
          rw [Table.find_modify_self, hstored]
          rfl
        rw [Db.loadPropertyWithRelations, hfind]
        rfl
      · ext1
        · rfl
        · exact Function.update_self ..
        · exact Function.update_self ..
      · change (db.properties.modify p _).find q = none ↔ _
        rw [Table.find_modify]
        split
        · simp
        · rfl
  · rw [if_neg hsize, if_neg fun h => hsize h.1]
    exact hsame

/-- A property is found at the BBL, or a new one is created there. -/
theorem findOrCreateProperty_view (r : PropertyRegistration) (now : Time)
    (hfresh : db.properties.find freshId = none) :
    ∃ db₁ property, db.findOrCreateProperty freshId now r.createInput = .ok (db₁, property.id) ∧
      db₁.loadPropertyWithRelations property.id = some property ∧
      db₁.findPropertyByBbl r.bbl = some property.id ∧
      property.view = (db.viewAt r.bbl).getD r.createdView ∧
      db₁.resolutionInputs = db.resolutionInputs ∧
      ∀ q, q ≠ freshId → (db₁.properties.find q = none ↔ db.properties.find q = none) := by
  have hbbl : assertValidBbl r.createInput.bbl = .ok r.bbl := Db.assertValidBbl_text r.bbl
  rw [Db.findOrCreateProperty, hbbl]
  cases hfound : db.findPropertyByBbl r.bbl with
  | some p =>
      obtain ⟨stored, hstored, -⟩ := Db.findPropertyByBbl_eq_some hfound
      have hload : db.loadPropertyWithRelations p =
          some ⟨p, stored, db.propertyBins p, db.coverage p⟩ := by
        rw [Db.loadPropertyWithRelations, hstored]
        rfl
      refine ⟨db, ⟨p, stored, db.propertyBins p, db.coverage p⟩, ?_, hload, hfound, ?_, rfl,
        fun _ _ => Iff.rfl⟩
      · simp only [bind, Except.bind, hfound]
      · rw [viewAt_of_load hfound hload]
        rfl
  | none =>
      have hbase : assertValidOptionalBbl r.createInput.condoBaseBbl = .ok r.condoBaseBbl :=
        Db.assertValidOptionalBbl_text r.condoBaseBbl
      have hbilling : assertValidOptionalBbl r.createInput.condoBillingBbl =
          .ok r.condoBillingBbl := Db.assertValidOptionalBbl_text r.condoBillingBbl
      let created : Property :=
        { r.createdView.property with createdAt := now, resolvedAt := now }
      let db₁ : Db Row := { db with
        properties := db.properties.set freshId created
        propertyBins := Function.update db.propertyBins freshId r.effective
        coverage := Function.update db.coverage freshId (some (buildInitialCoverage r.effective)) }
      have hcreate : db.createProperty freshId r.createInput now = .ok db₁ := by
        rw [Db.createProperty, hbbl, hbase, hbilling]
        simp only [bind, Except.bind]
        rw [if_neg (by simp [hfound, hfresh])]
        rfl
      refine ⟨db₁, ⟨freshId, created, db₁.propertyBins freshId, db₁.coverage freshId⟩, ?_, ?_, ?_, ?_,
        rfl, fun q hq => ?_⟩
      · simp only [bind, Except.bind, hfound, hcreate]
        rfl
      · have hfind : db₁.properties.find freshId = some created := Table.find_set_self
        rw [Db.loadPropertyWithRelations, hfind]
        rfl
      · rw [Db.findPropertyByBbl_set hfresh rfl, hfound]
        exact if_pos rfl
      · rw [Db.viewAt, hfound]
        ext1
        · rfl
        · exact Function.update_self ..
        · exact Function.update_self ..
      · change (db.properties.set freshId created).find q = none ↔ _
        rw [Table.find_set_ne hq]

/-- **A registration of an input that is not stored**: it succeeds, its property is what the
registration makes of the property that was there, and that property and the input are stored. -/
theorem registerProperty_spec (r : PropertyRegistration) (now : Time)
    (hfresh : db.properties.find freshId = none)
    (hinput : db.findPropertyIdByResolutionInput r.inputType r.normalizedInput = none) :
    ∃ db' property, db.registerProperty freshId now r = (db', .ok property) ∧
      property.view = r.registeredView (db.viewAt r.bbl) ∧
      db'.viewAt r.bbl = some property.view ∧
      db'.findPropertyByBbl r.bbl = some property.id ∧
      db'.findPropertyIdByResolutionInput r.inputType r.normalizedInput = some property.id ∧
      ∀ q, q ≠ freshId → (db'.properties.find q = none ↔ db.properties.find q = none) := by
  obtain ⟨db₁, created, hcreate, hload₁, hfound₁, hview₁, hinputs₁, hfresh₁⟩ :=
    findOrCreateProperty_view r now hfresh
  obtain ⟨db₂, property, happly, hload₂, hid, hview₂, hfound₂, hinputs₂, hfresh₂⟩ :=
    applyCandidateBins_view r hload₁
  have hmiss : db₂.findPropertyIdByResolutionInput r.inputType r.normalizedInput = none := by
    rw [Db.findPropertyIdByResolutionInput, hinputs₂, hinputs₁]
    exact hinput
  obtain ⟨hproperties, hbins, hcoverage⟩ :
      (db₂.persistResolutionInput now r created.id).properties = db₂.properties ∧
        (db₂.persistResolutionInput now r created.id).propertyBins = db₂.propertyBins ∧
        (db₂.persistResolutionInput now r created.id).coverage = db₂.coverage :=
    persistResolutionInput_properties
  have hfound : (db₂.persistResolutionInput now r created.id).findPropertyByBbl r.bbl =
      some property.id := by
    rw [Db.findPropertyByBbl, hproperties, hid]
    exact (hfound₂ r.bbl).trans hfound₁
  refine ⟨db₂.persistResolutionInput now r created.id, property, ?_, ?_, ?_, hfound, ?_, ?_⟩
  · rw [Db.registerProperty, hcreate]
    simp only [happly, hload₂]
  · rw [hview₂, hview₁]
    cases db.viewAt r.bbl with
    | none =>
        -- a new property has the BINs already
        rw [Option.getD_none, if_neg fun h => h.2 rfl]
        rfl
    | some view => rfl
  · refine viewAt_of_load hfound ?_
    rw [Db.loadPropertyWithRelations, hproperties, hbins, hcoverage, hid]
    exact hload₂
  · rw [hid]
    exact findPropertyId_persistResolutionInput hmiss
  · intro q hq
    rw [hproperties, hfresh₂ q, hfresh₁ q hq]

end Register

end NycPropertyResolver
