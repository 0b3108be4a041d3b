import Mathlib.Data.List.Find
import NycPropertyResolver.Identity.Registration

/-!
# Identity — what a registration leaves behind

A registration (`Db.registerProperty`) creates the property of its BBL, or finds it and replaces its
BIN set, or finds it and leaves it (`PropertyChange`).  It leaves the other BBLs alone (`SameAt`).

The BIN set is replaced only by a set that is not empty (`applyCandidateBins`): a property that
stands with BINs keeps them when the registration has none.  In every other case the property holds
the BIN set of the registration afterwards (`registerProperty_resolved_iff`).
-/

namespace NycPropertyResolver

open Library

variable {Row : Type}

/-! ### Finding a property by its BBL -/

namespace Db

variable {db db' db₁ : Db Row} {bbl : CanonicalBbl} {p : PropertyId}

/-- A new property is found by its BBL, unless one was found there already. -/
theorem findPropertyByBbl_set {property : Property} (hp : db.properties.find p = none)
    (h : db'.properties = db.properties.set p property) :
    db'.findPropertyByBbl bbl =
      (db.findPropertyByBbl bbl).or (if property.bbl = bbl then some p else none) := by
  have hk : p ∉ db.properties.keys := by simp [db.properties.mem_keys, hp]
  have hold : db.properties.keys.find? (fun q => (db'.properties.find q).any fun property =>
      property.bbl = bbl) = db.findPropertyByBbl bbl := by
    refine List.find?_congr fun q hq => ?_
    have hq : q ≠ p := by
      rintro rfl
      exact hk hq
    rw [h, Table.find_set_ne hq]
  have hkeys : db'.properties.keys = db.properties.keys ++ [p] := by
    rw [h]
    exact if_neg hk
  rw [findPropertyByBbl, hkeys, List.find?_append, hold]
  congr 1
  simp [h, List.find?_cons]
  split <;> simp_all

/-- An update that keeps the BBLs changes nothing about where a property is found. -/
theorem findPropertyByBbl_modify {f : Property → Property}
    (h : db'.properties = db.properties.modify p f) (hf : ∀ x, (f x).bbl = x.bbl) :
    db'.findPropertyByBbl bbl = db.findPropertyByBbl bbl := by
  rw [findPropertyByBbl, findPropertyByBbl, h]
  refine List.find?_congr fun q _ => ?_
  rw [Table.find_modify]
  split
  · cases db.properties.find q with
    | none => rfl
    | some x => simp [hf]
  · rfl

theorem findPropertyByBbl_replaceBinSet {bins : SortedSet CanonicalBin} :
    (db.replaceBinSet p bins).findPropertyByBbl bbl = db.findPropertyByBbl bbl :=
  findPropertyByBbl_modify rfl fun _ => rfl

end Db

/-! ### One registration -/

/-- What a registration does to the property of its BBL. -/
inductive PropertyChange (db : Db Row) (bbl : CanonicalBbl) (bins : SortedSet CanonicalBin)
    (p : PropertyId) : Db Row → Prop where
  /-- There is none: it is created with the BINs. -/
  | created {db' : Db Row} {property : Property} (hnone : db.findPropertyByBbl bbl = none)
      (hnew : db.properties.find p = none) (hbbl : property.bbl = bbl)
      (hversion : property.identifierVersion = 1)
      (h : db' = { db with
        properties := db.properties.set p property
        propertyBins := Function.update db.propertyBins p bins
        coverage := Function.update db.coverage p (some (buildInitialCoverage bins)) }) :
      PropertyChange db bbl bins p db'
  /-- It is left as it is, since the BINs are its own or there are none. -/
  | kept (hfound : db.findPropertyByBbl bbl = some p)
      (hkept : bins = .empty ∨ db.propertyBins p = bins) : PropertyChange db bbl bins p db
  /-- Its BINs are replaced. -/
  | replaced (hfound : db.findPropertyByBbl bbl = some p) (hbins : bins ≠ .empty)
      (hne : db.propertyBins p ≠ bins) :
      PropertyChange db bbl bins p (db.replaceBinSet p bins)

/-- The BINs of the registration are those its property is given. -/
def PropertyRegistration.Valid (r : PropertyRegistration) : Prop :=
  filterValidBins r.candidateTexts = r.candidateBins

namespace Db

variable {db db' db₁ db₂ : Db Row} {bbl b : CanonicalBbl} {p freshId : PropertyId} {now : Time}
  {r : PropertyRegistration}

theorem assertValidBbl_text (bbl : CanonicalBbl) : assertValidBbl bbl.text = .ok bbl := by
  rw [assertValidBbl, canonicalizeBbl, DigitString.parse_text]

theorem assertValidOptionalBbl_text (bbl : Option CanonicalBbl) :
    assertValidOptionalBbl (bbl.map (·.text)) = .ok bbl := by
  cases bbl with
  | none => rfl
  | some bbl =>
      rw [Option.map_some, assertValidOptionalBbl, isEmpty_text (by decide), assertValidBbl_text]
      rfl

/-- The property that is found, or a new one. -/
theorem findOrCreateProperty_eq_ok
    (h : db.findOrCreateProperty freshId now r.createInput = .ok (db₁, p)) :
    (db.findPropertyByBbl r.bbl = some p ∧ db₁ = db) ∨
      (db.findPropertyByBbl r.bbl = none ∧ p = freshId ∧
        db.createProperty freshId r.createInput now = .ok db₁) := by
  obtain ⟨bbl, hbbl, h⟩ := except_bind_ok.mp h
  rw [show r.createInput.bbl = r.bbl.text from rfl, assertValidBbl_text] at hbbl
  cases hbbl
  cases hf : db.findPropertyByBbl r.bbl with
  | some q =>
      simp only [hf] at h
      cases h
      exact Or.inl ⟨rfl, rfl⟩
  | none =>
      simp only [hf] at h
      cases hc : db.createProperty freshId r.createInput now with
      | error e => rw [hc] at h; cases h
      | ok db' =>
          rw [hc] at h
          cases h
          exact Or.inr ⟨rfl, rfl, rfl⟩

/-- What the BIN set update does, with the test in front of it. -/
theorem applyCandidateBins_eq_ok (hr : r.Valid) (h : db.applyCandidateBins r p = .ok db') :
    (db' = db ∧ (r.candidateBins = .empty ∨ db.propertyBins p = r.candidateBins)) ∨
      (r.candidateBins ≠ .empty ∧ db.propertyBins p ≠ r.candidateBins ∧
        db' = db.replaceBinSet p r.candidateBins) := by
  rw [applyCandidateBins] at h
  split at h
  · rename_i hs
    have hne : r.candidateBins ≠ .empty := by
      intro e
      rw [e] at hs
      exact absurd hs (Nat.lt_irrefl 0)
    cases ha : db.applyEffectiveBinSet p r.candidateTexts with
    | error e => rw [ha] at h; cases h
    | ok result =>
        rw [ha] at h
        cases h
        obtain ⟨-, ⟨hb, hdb, -⟩ | ⟨hb, -, hdb⟩⟩ := applyEffectiveBinSet_eq_ok ha
        · exact Or.inl ⟨hdb, Or.inr (hb.trans hr)⟩
        · rw [hr] at hb hdb
          exact Or.inr ⟨hne, hb, hdb⟩
  · rename_i hs
    cases h
    refine Or.inl ⟨rfl, Or.inl ?_⟩
    rw [SortedSet.eq_empty_iff]
    exact List.length_eq_zero_iff.mp (Nat.eq_zero_of_not_pos hs)

/-- **What a registration does**: one change of the property at its BBL, and the input persisted. -/
theorem registerProperty_eq_ok {property : PropertyWithRelations} (hr : r.Valid)
    (h : db.registerProperty freshId now r = (db', .ok property)) :
    ∃ db₂, PropertyChange db r.bbl r.candidateBins property.id db₂ ∧
      db' = db₂.persistResolutionInput now r property.id ∧
      db₂.loadPropertyWithRelations property.id = some property := by
  rw [registerProperty] at h
  split at h
  · cases h
  rename_i db₁ p hfc
  split at h
  · cases h
  rename_i db₂ ha
  split at h
  · cases h
  rename_i refreshed hl
  cases h
  have hid : property.id = p := by
    obtain ⟨x, -, e⟩ := Option.map_eq_some_iff.mp hl
    rw [← e]
  rw [hid]
  refine ⟨db₂, ?_, rfl, hl⟩
  rcases findOrCreateProperty_eq_ok hfc with ⟨hf, rfl⟩ | ⟨hn, rfl, hc⟩
  · rcases applyCandidateBins_eq_ok hr ha with ⟨rfl, hk⟩ | ⟨he, hne, rfl⟩
    · exact .kept hf hk
    · exact .replaced hf he hne
  · obtain ⟨x, bbl, hbbl, hx, hv, -, hnew, rfl⟩ := createProperty_eq_ok hc
    have hb : filterValidBins r.createInput.candidateBins = r.candidateBins := hr
    rw [show r.createInput.bbl = r.bbl.text from rfl, canonicalizeBbl, DigitString.parse_text] at hbbl
    cases hbbl
    rw [hb] at ha
    -- The property has the BINs from its creation, and the update that follows finds them there.
    rcases applyCandidateBins_eq_ok hr ha with ⟨rfl, -⟩ | ⟨-, hne, -⟩
    · exact .created hn hnew hx hv rfl
    · exact absurd (Function.update_self ..) hne

end Db

/-! ### The postcondition -/

/-- **The postcondition of a resolution** of the input `key` to the BBL, with the effective BIN set
`bins`, from `db` to `db'`. -/
structure Resolved (db db' : Db Row) (key : PropertyResolutionInputType × String)
    (bbl : CanonicalBbl) (bins : SortedSet CanonicalBin) (p : PropertyId) : Prop where
  /-- The property stands at the BBL. -/
  found : db'.findPropertyByBbl bbl = some p
  /-- It has exactly the BINs. -/
  bins_eq : db'.propertyBins p = bins
  /-- A new property has version 1 and the initial coverage. -/
  new : db.findPropertyByBbl bbl = none →
    db'.versionOf p = some 1 ∧ db'.coverage p = some (buildInitialCoverage bins)
  /-- A property that was there has its version raised and its coverage invalidated exactly when its
  BINs changed. -/
  stood : ∀ q, db.findPropertyByBbl bbl = some q → q = p ∧
    db'.versionOf p = (db.versionOf p).map (fun n => if db.propertyBins p = bins then n else n + 1) ∧
    db'.coverage p = if db.propertyBins p = bins then db.coverage p
      else some (Db.invalidatedCoverage (db.coverage p) bins)
  /-- The input is stored with the property. -/
  input : db'.findPropertyIdByResolutionInput key.1 key.2 = some p

/-- The sources give no BIN, and the property stands at the BBL with some. -/
def KeepsBins (db : Db Row) (bbl : CanonicalBbl) (bins : SortedSet CanonicalBin) : Prop :=
  bins = .empty ∧ ∃ p, db.findPropertyByBbl bbl = some p ∧ db.propertyBins p ≠ .empty

/-- The two databases agree on what a BBL has: its property and its stored input. -/
structure SameAt (bbl : CanonicalBbl) (db db' : Db Row) : Prop where
  found : db'.findPropertyByBbl bbl = db.findPropertyByBbl bbl
  property : ∀ p, db.findPropertyByBbl bbl = some p →
    db'.properties.find p = db.properties.find p ∧ db'.propertyBins p = db.propertyBins p ∧
      db'.coverage p = db.coverage p
  input : db'.resolutionInputs.find (.bbl, bbl.text) = db.resolutionInputs.find (.bbl, bbl.text)

section Change

variable {db db' db₁ db₂ : Db Row} {bbl b : CanonicalBbl} {bins : SortedSet CanonicalBin}
  {p freshId : PropertyId} {now : Time} {r : PropertyRegistration}
  {key : PropertyResolutionInputType × String}

theorem SameAt.refl (bbl : CanonicalBbl) (db : Db Row) : SameAt bbl db db :=
  ⟨rfl, fun _ _ => ⟨rfl, rfl, rfl⟩, rfl⟩

theorem SameAt.trans (h₁ : SameAt bbl db db₁) (h₂ : SameAt bbl db₁ db₂) : SameAt bbl db db₂ where
  found := h₂.found.trans h₁.found
  property p hp := by
    obtain ⟨hf, hb, hc⟩ := h₁.property p hp
    obtain ⟨hf', hb', hc'⟩ := h₂.property p (h₁.found.trans hp)
    exact ⟨hf'.trans hf, hb'.trans hb, hc'.trans hc⟩
  input := h₂.input.trans h₁.input

/-- Properties at two BBLs are two properties. -/
theorem ne_of_findPropertyByBbl {q : PropertyId} (hne : b ≠ bbl)
    (hb : db.findPropertyByBbl b = some q) (hp : db.findPropertyByBbl bbl = some p) : q ≠ p := by
  rintro rfl
  obtain ⟨x, hx, hxb⟩ := Db.findPropertyByBbl_eq_some hb
  obtain ⟨y, hy, hyb⟩ := Db.findPropertyByBbl_eq_some hp
  rw [hx] at hy
  cases hy
  exact hne (hxb.symm.trans hyb)

theorem sameAt_replaceBinSet (hne : b ≠ bbl) (hp : db.findPropertyByBbl bbl = some p) :
    SameAt b db (db.replaceBinSet p bins) where
  found := Db.findPropertyByBbl_replaceBinSet
  property q hq := by
    have hqp : q ≠ p := ne_of_findPropertyByBbl hne hq hp
    exact ⟨Table.find_modify_ne hqp, Function.update_of_ne hqp .., Function.update_of_ne hqp ..⟩
  input := rfl

/-- A change at one BBL is none at another. -/
theorem PropertyChange.sameAt (h : PropertyChange db bbl bins p db') (hne : b ≠ bbl) :
    SameAt b db db' := by
  cases h with
  | kept => exact .refl b db
  | replaced hfound _ _ => exact sameAt_replaceBinSet hne hfound
  | created hnone hnew hbbl _ h =>
      subst h
      refine ⟨?_, fun q hq => ?_, rfl⟩
      · rw [Db.findPropertyByBbl_set hnew rfl, if_neg (fun e => hne (e.symm.trans hbbl)), Option.or_none]
      · have hqp : q ≠ p := by
          rintro rfl
          obtain ⟨x, hx, -⟩ := Db.findPropertyByBbl_eq_some hq
          rw [hnew] at hx
          cases hx
        exact ⟨Table.find_set_ne hqp, Function.update_of_ne hqp .., Function.update_of_ne hqp ..⟩

theorem sameAt_persistResolutionInput (hkey : (r.inputType, r.normalizedInput) ≠ (.bbl, b.text)) :
    SameAt b db (db.persistResolutionInput now r p) := by
  rw [Db.persistResolutionInput]
  split
  · exact .refl b db
  · exact ⟨rfl, fun _ _ => ⟨rfl, rfl, rfl⟩, Table.find_set_ne hkey.symm⟩

/-- **The postcondition holds exactly when no BINs are kept.** -/
theorem PropertyChange.resolved_iff (h : PropertyChange db bbl bins p db₂)
    (hinput : db'.findPropertyIdByResolutionInput key.1 key.2 = some p)
    (hproperties : db'.properties = db₂.properties) (hbins : db'.propertyBins = db₂.propertyBins)
    (hcoverage : db'.coverage = db₂.coverage) :
    Resolved db db' key bbl bins p ↔ ¬ KeepsBins db bbl bins := by
  have hf (b : CanonicalBbl) : db'.findPropertyByBbl b = db₂.findPropertyByBbl b := by
    rw [Db.findPropertyByBbl, Db.findPropertyByBbl, hproperties]
  have hv (q : PropertyId) : db'.versionOf q = db₂.versionOf q := by
    rw [Db.versionOf, Db.versionOf, hproperties]
  constructor
  · rintro hr ⟨rfl, q, hq, hne⟩
    obtain ⟨rfl, -, -⟩ := hr.stood q hq
    have hb := hr.bins_eq
    rw [hbins] at hb
    cases h with
    | created hnone => rw [hnone] at hq; cases hq
    | kept => exact hne hb
    | replaced _ hempty _ => exact hempty rfl
  · intro hk
    cases h with
    | created hnone hnew hbbl hversion h =>
        subst h
        refine ⟨?_, ?_, fun _ => ⟨?_, ?_⟩, fun q hq => ?_, hinput⟩
        · rw [hf, Db.findPropertyByBbl_set hnew rfl, hnone, if_pos hbbl]
          rfl
        · rw [hbins]
          exact Function.update_self ..
        · rw [hv]
          simp only [Db.versionOf, Table.find_set_self, Option.map_some, hversion]
        · rw [hcoverage]
          exact Function.update_self ..
        · rw [hnone] at hq
          cases hq
    | kept hfound hkept =>
        have hb : db.propertyBins p = bins := by
          rcases hkept with rfl | hb
          · by_contra hne
            exact hk ⟨rfl, p, hfound, hne⟩
          · exact hb
        refine ⟨(hf bbl).trans hfound, by rw [hbins, hb], fun hn => ?_, fun q hq => ?_, hinput⟩
        · rw [hn] at hfound
          cases hfound
        · cases Option.some.inj (hfound.symm.trans hq)
          rw [hv, hcoverage, if_pos hb]
          simp [hb]
    | replaced hfound hempty hne =>
        refine ⟨?_, ?_, fun hn => ?_, fun q hq => ?_, hinput⟩
        · rw [hf, Db.findPropertyByBbl_replaceBinSet, hfound]
        · rw [hbins]
          exact Function.update_self ..
        · rw [hn] at hfound
          cases hfound
        · cases Option.some.inj (hfound.symm.trans hq)
          refine ⟨rfl, ?_, ?_⟩
          · rw [hv]
            simp only [Db.versionOf, Db.replaceBinSet, Table.find_modify_self, Option.map_map, hne]
            rfl
          · rw [hcoverage, if_neg hne]
            exact Function.update_self ..

/-- A registration of an input that is not stored stores it. -/
theorem findPropertyId_persistResolutionInput
    (hmiss : db.findPropertyIdByResolutionInput r.inputType r.normalizedInput = none) :
    (db.persistResolutionInput now r p).findPropertyIdByResolutionInput r.inputType
      r.normalizedInput = some p := by
  have hn : db.resolutionInputs.find (r.inputType, r.normalizedInput) = none := by
    simpa [Db.findPropertyIdByResolutionInput] using hmiss
  simp only [Db.persistResolutionInput, hn, Db.findPropertyIdByResolutionInput, Table.find_set_self,
    Option.map_some]

theorem PropertyChange.resolutionInputs (h : PropertyChange db bbl bins p db') :
    db'.resolutionInputs = db.resolutionInputs := by
  cases h with
  | created _ _ _ _ h => rw [h]
  | kept => rfl
  | replaced => rfl

theorem persistResolutionInput_properties :
    (db.persistResolutionInput now r p).properties = db.properties ∧
      (db.persistResolutionInput now r p).propertyBins = db.propertyBins ∧
      (db.persistResolutionInput now r p).coverage = db.coverage := by
  rw [Db.persistResolutionInput]
  split <;> exact ⟨rfl, rfl, rfl⟩

/-- **One registration**, of an input that is not stored. -/
theorem registerProperty_resolved_iff {property : PropertyWithRelations} (hr : r.Valid)
    (hmiss : db.findPropertyIdByResolutionInput r.inputType r.normalizedInput = none)
    (h : db.registerProperty freshId now r = (db', .ok property)) :
    Resolved db db' (r.inputType, r.normalizedInput) r.bbl r.candidateBins property.id ↔
      ¬ KeepsBins db r.bbl r.candidateBins := by
  obtain ⟨db₂, hc, rfl, -⟩ := Db.registerProperty_eq_ok hr h
  obtain ⟨hp, hb, hcov⟩ :
      (db₂.persistResolutionInput now r property.id).properties = db₂.properties ∧ _ ∧ _ :=
    persistResolutionInput_properties
  refine hc.resolved_iff (findPropertyId_persistResolutionInput ?_) hp hb hcov
  rw [Db.findPropertyIdByResolutionInput, hc.resolutionInputs]
  exact hmiss

/-- A registration leaves the other BBLs alone, whatever its outcome. -/
theorem registerProperty_sameAt (hne : b ≠ r.bbl)
    (hkey : (r.inputType, r.normalizedInput) ≠ (.bbl, b.text)) :
    SameAt b db (db.registerProperty freshId now r).1 := by
  rw [Db.registerProperty]
  split
  · exact .refl b db
  rename_i db₁ p hfc
  have h₁ : SameAt b db db₁ ∧ db₁.findPropertyByBbl r.bbl = some p := by
    rcases Db.findOrCreateProperty_eq_ok hfc with ⟨hf, rfl⟩ | ⟨hn, rfl, hc⟩
    · exact ⟨.refl b _, hf⟩
    · obtain ⟨x, bbl, hbbl, hx, hv, -, hnew, rfl⟩ := Db.createProperty_eq_ok hc
      rw [show r.createInput.bbl = r.bbl.text from rfl, canonicalizeBbl, DigitString.parse_text]
        at hbbl
      cases hbbl
      refine ⟨(PropertyChange.created hn hnew hx hv rfl).sameAt hne, ?_⟩
      rw [Db.findPropertyByBbl_set hnew rfl, hn, if_pos hx]
      rfl
  split
  · exact h₁.1
  rename_i db₂ ha
  have h₂ : SameAt b db db₂ := by
    rw [Db.applyCandidateBins] at ha
    split at ha
    · cases he : db₁.applyEffectiveBinSet p r.candidateTexts with
      | error e => rw [he] at ha; cases ha
      | ok result =>
          rw [he] at ha
          cases ha
          obtain ⟨-, ⟨-, hdb, -⟩ | ⟨-, -, hdb⟩⟩ := Db.applyEffectiveBinSet_eq_ok he
          · rw [hdb]
            exact h₁.1
          · rw [hdb]
            exact h₁.1.trans (sameAt_replaceBinSet hne h₁.2)
    · cases ha
      exact h₁.1
  split
  · exact h₂
  · exact h₂.trans (sameAt_persistResolutionInput hkey)

end Change

end NycPropertyResolver
