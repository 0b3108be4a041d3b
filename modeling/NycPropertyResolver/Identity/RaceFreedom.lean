import NycPropertyResolver.Identity.RegistrationRace
import NycPropertyResolver.Identity.ResolutionPostcondition

/-!
# Identity — when concurrent registrations agree

Between two statements of a registration the database may only grow: no property goes away or changes
its BBL, and no stored input changes (`Db.Grows`).  What a registration has read therefore stays true
(`RegistrarOk.frame`), with one exception: that something was not there.  `NoConflict` is that
exception.
-/

namespace NycPropertyResolver

open Library

variable {Row ι : Type}

/-! ### The database between two statements -/

namespace Db

/-- The property stored for an input. -/
def storedId (db : Db Row) (key : PropertyResolutionInputType × String) : Option PropertyId :=
  db.findPropertyIdByResolutionInput key.1 key.2

/-- The constraints of the schema: one property at a BBL, and a property behind every stored input. -/
structure Constrained (db : Db Row) : Prop where
  unique : ∀ {p q : PropertyId} {b : CanonicalBbl},
    db.bblOf p = some b → db.bblOf q = some b → p = q
  reference : ∀ {key : PropertyResolutionInputType × String} {p : PropertyId},
    db.storedId key = some p → ∃ b, db.bblOf p = some b

/-- Nothing that was there has gone or changed. -/
structure Grows (db db' : Db Row) : Prop where
  bbl : ∀ {p : PropertyId} {b : CanonicalBbl}, db.bblOf p = some b → db'.bblOf p = some b
  input : ∀ {key : PropertyResolutionInputType × String} {p : PropertyId},
    db.storedId key = some p → db'.storedId key = some p

variable {db db' : Db Row} {b : CanonicalBbl} {p freshId : PropertyId} {now : Time}
  {r : PropertyRegistration} {key : PropertyResolutionInputType × String}

theorem Grows.refl (db : Db Row) : db.Grows db := ⟨id, id⟩

theorem bblOf_of_find (h : db.findPropertyByBbl b = some p) : db.bblOf p = some b := by
  obtain ⟨x, hx, hb⟩ := findPropertyByBbl_eq_some h
  rw [bblOf, hx, ← hb]
  rfl

theorem bblOf_ne_of_not_find (h : db.findPropertyByBbl b = none) (p : PropertyId) :
    db.bblOf p ≠ some b := by
  intro hp
  obtain ⟨x, hx, hb⟩ := Option.map_eq_some_iff.mp hp
  exact findPropertyByBbl_eq_none.mp h p x hx hb

theorem bblOf_eq_some (h : db.bblOf p = some b) : ∃ x, db.properties.find p = some x ∧ x.bbl = b :=
  Option.map_eq_some_iff.mp h

/-! ### The creation of a property -/

/-- **The creation of the property of a registration** is refused exactly when there is one at its
BBL. -/
theorem createProperty_createInput (hfresh : db.properties.find freshId = none) :
    (db.findPropertyByBbl r.bbl = none → ∃ db', db.createProperty freshId r.createInput now = .ok db') ∧
      (db.findPropertyByBbl r.bbl ≠ none →
        db.createProperty freshId r.createInput now = .error (.database "P2002")) := by
  have hbbl : assertValidBbl r.createInput.bbl = .ok r.bbl := assertValidBbl_text r.bbl
  have hbase : assertValidOptionalBbl r.createInput.condoBaseBbl = .ok r.condoBaseBbl :=
    assertValidOptionalBbl_text r.condoBaseBbl
  have hbilling : assertValidOptionalBbl r.createInput.condoBillingBbl = .ok r.condoBillingBbl :=
    assertValidOptionalBbl_text r.condoBillingBbl
  constructor
  · intro hn
    simp only [createProperty, hbbl, hbase, hbilling, bind, Except.bind, hn, hfresh, ne_eq,
      not_true_eq_false, or_self, if_false]
    exact ⟨_, rfl⟩
  · intro hn
    simp only [createProperty, hbbl, hbase, hbilling, bind, Except.bind, ne_eq, hn,
      not_false_eq_true, true_or, if_true]

theorem createProperty_grows (hc : db.Constrained)
    (h : db.createProperty freshId r.createInput now = .ok db') :
    db.Grows db' ∧ db'.Constrained ∧ db'.bblOf freshId = some r.bbl ∧
      ∀ key, db'.storedId key = db.storedId key := by
  obtain ⟨x, bbl, hbbl, hx, -, hnone, hnew, rfl⟩ := createProperty_eq_ok h
  rw [show r.createInput.bbl = r.bbl.text from rfl, canonicalizeBbl, DigitString.parse_text] at hbbl
  cases hbbl
  have hold {q : PropertyId} {b : CanonicalBbl} (hq : db.bblOf q = some b) : q ≠ freshId := by
    rintro rfl
    rw [bblOf, hnew] at hq
    cases hq
  have hgrow : ∀ {q : PropertyId} {b : CanonicalBbl}, db.bblOf q = some b →
      ((db.properties.set freshId x).find q).map (·.bbl) = some b := by
    intro q b hq
    rw [Table.find_set_ne (hold hq)]
    exact hq
  refine ⟨⟨hgrow, id⟩, ⟨?_, ?_⟩, ?_, fun _ => rfl⟩
  · intro p q b hp hq
    simp only [bblOf, Table.find_set] at hp hq
    split at hp <;> split at hq
    · rw [‹p = freshId›, ‹q = freshId›]
    · simp only [Option.map_some, Option.some.injEq, hx] at hp
      rw [← hp] at hq
      exact absurd hq (bblOf_ne_of_not_find hnone q)
    · simp only [Option.map_some, Option.some.injEq, hx] at hq
      rw [← hq] at hp
      exact absurd hp (bblOf_ne_of_not_find hnone p)
    · exact hc.unique hp hq
  · intro key p hs
    obtain ⟨b, hb⟩ := hc.reference hs
    exact ⟨b, hgrow hb⟩
  · simp only [bblOf, Table.find_set_self, Option.map_some, hx]

/-! ### The other statements -/

theorem bblOf_replaceBinSet {bins : SortedSet CanonicalBin} (q : PropertyId) :
    (db.replaceBinSet p bins).bblOf q = db.bblOf q := by
  simp only [bblOf, replaceBinSet, Table.find_modify]
  split
  · cases db.properties.find q <;> rfl
  · rfl

theorem applyEffectiveBinSet_grows {bins : List String} {result : ApplyEffectiveBinSetResult}
    (h : db.applyEffectiveBinSet p bins = .ok (db', result)) :
    (∀ q, db'.bblOf q = db.bblOf q) ∧ ∀ key, db'.storedId key = db.storedId key := by
  obtain ⟨-, ⟨-, rfl, -⟩ | ⟨-, -, rfl⟩⟩ := applyEffectiveBinSet_eq_ok h
  · exact ⟨fun _ => rfl, fun _ => rfl⟩
  · exact ⟨bblOf_replaceBinSet, fun _ => rfl⟩

theorem applyEffectiveBinSet_ok (h : db.bblOf p = some b) (bins : List String) :
    ∃ t, db.applyEffectiveBinSet p bins = .ok t := by
  obtain ⟨x, hx, -⟩ := bblOf_eq_some h
  simp only [applyEffectiveBinSet, hx]
  split <;> exact ⟨_, rfl⟩

theorem Constrained.congr (hc : db.Constrained) (hb : ∀ q, db'.bblOf q = db.bblOf q)
    (hs : ∀ key, db'.storedId key = db.storedId key) : db'.Constrained where
  unique hp hq := hc.unique ((hb _).symm.trans hp) ((hb _).symm.trans hq)
  reference h := by
    obtain ⟨b, h⟩ := hc.reference ((hs _).symm.trans h)
    exact ⟨b, (hb _).trans h⟩

theorem Grows.of_eq (hb : ∀ q, db'.bblOf q = db.bblOf q)
    (hs : ∀ key, db'.storedId key = db.storedId key) : db.Grows db' :=
  ⟨fun h => (hb _).trans h, fun h => (hs _).trans h⟩

/-- An upsert stores the input where it is not stored, and changes nothing else. -/
theorem storedId_persistResolutionInput (key : PropertyResolutionInputType × String) :
    (db.persistResolutionInput now r p).storedId key =
      if key = r.key ∧ db.storedId r.key = none then some p else db.storedId key := by
  by_cases hn : db.storedId r.key = none
  · have hn' : db.resolutionInputs.find (r.inputType, r.normalizedInput) = none := by
      simpa [storedId, findPropertyIdByResolutionInput, PropertyRegistration.key] using hn
    simp only [storedId, persistResolutionInput, hn', findPropertyIdByResolutionInput,
      Table.find_set, PropertyRegistration.key]
    by_cases hk : key = (r.inputType, r.normalizedInput)
    · simp [hk]
    · simp [hk]
  · cases hf : db.resolutionInputs.find (r.inputType, r.normalizedInput) with
    | none =>
        exact absurd (by simp [storedId, findPropertyIdByResolutionInput, PropertyRegistration.key, hf])
          hn
    | some x => simp only [persistResolutionInput, hf, hn, and_false, if_false]

theorem persistResolutionInput_grows (hc : db.Constrained) (hp : db.bblOf p = some b) :
    db.Grows (db.persistResolutionInput now r p) ∧
      (db.persistResolutionInput now r p).Constrained := by
  have hb (q : PropertyId) : (db.persistResolutionInput now r p).bblOf q = db.bblOf q := by
    rw [bblOf, persistResolutionInput_properties.1]
    rfl
  refine ⟨⟨fun h => (hb _).trans h, fun {key q} h => ?_⟩, ⟨fun hp hq => ?_, fun {key q} h => ?_⟩⟩
  · rw [storedId_persistResolutionInput, if_neg]
    · exact h
    · rintro ⟨rfl, hn⟩
      rw [hn] at h
      cases h
  · exact hc.unique ((hb _).symm.trans hp) ((hb _).symm.trans hq)
  · rw [storedId_persistResolutionInput] at h
    split at h
    · cases h
      exact ⟨b, (hb _).trans hp⟩
    · obtain ⟨b', h⟩ := hc.reference h
      exact ⟨b', (hb _).trans h⟩

end Db

/-! ### The statement a registration takes -/

/-- The registration that is under way. -/
def Registrar.Current (s : Registrar) (r : PropertyRegistration) : Prop := s.todo.head? = some r

/-- What one statement of a registration does. -/
inductive RegistrarTurn (nativeUpsert : Bool) (db : Db Row) (s : Registrar) (freshId : PropertyId)
    (now : Time) : Db Row → Registrar → Prop where
  | checked (hpoint : s.point = .checkingCache) :
      RegistrarTurn nativeUpsert db s freshId now db (s.checkCache db)
  | loaded {key : PropertyResolutionInputType × String} {p : PropertyId}
      (hpoint : s.point = .loadingCached key p) :
      RegistrarTurn nativeUpsert db s freshId now db
        { s with point := .finished, results := [⟨key, p, true⟩] }
  | lost {key : PropertyResolutionInputType × String} {p : PropertyId} {e : IdentityError}
      (hpoint : s.point = .loadingCached key p) (hp : db.properties.find p = none) :
      RegistrarTurn nativeUpsert db s freshId now db { s with point := .failed e }
  | found {r : PropertyRegistration} {p : PropertyId} (hcurrent : s.Current r)
      (hpoint : s.point = .findingProperty) (hp : db.findPropertyByBbl r.bbl = some p) :
      RegistrarTurn nativeUpsert db s freshId now db (s.found r p)
  | missing {r : PropertyRegistration} (hcurrent : s.Current r) (hpoint : s.point = .findingProperty) :
      RegistrarTurn nativeUpsert db s freshId now db { s with point := .creatingProperty }
  | created {r : PropertyRegistration} {db' : Db Row} (hcurrent : s.Current r)
      (hpoint : s.point = .creatingProperty)
      (hc : db.createProperty freshId r.createInput now = .ok db') :
      RegistrarTurn nativeUpsert db s freshId now db' (s.found r freshId)
  | notCreated {r : PropertyRegistration} {e : IdentityError} (hcurrent : s.Current r)
      (hpoint : s.point = .creatingProperty) (hfresh : db.properties.find freshId = none)
      (hc : db.createProperty freshId r.createInput now = .error e) :
      RegistrarTurn nativeUpsert db s freshId now db (s.refuse r e)
  | applied {r : PropertyRegistration} {p : PropertyId} {db' : Db Row}
      {result : ApplyEffectiveBinSetResult} (hcurrent : s.Current r)
      (hpoint : s.point = .applyingBins p)
      (ha : db.applyEffectiveBinSet p r.candidateTexts = .ok (db', result)) :
      RegistrarTurn nativeUpsert db s freshId now db' { s with point := .persistingInput p }
  | notApplied {r : PropertyRegistration} {p : PropertyId} {e : IdentityError}
      (hcurrent : s.Current r) (hpoint : s.point = .applyingBins p)
      (ha : db.applyEffectiveBinSet p r.candidateTexts = .error e) :
      RegistrarTurn nativeUpsert db s freshId now db (s.refuse r e)
  | read {r : PropertyRegistration} {p : PropertyId} (hcurrent : s.Current r)
      (hpoint : s.point = .persistingInput p) :
      RegistrarTurn nativeUpsert db s freshId now db { s with point := .creatingInput p }
  | stored {r : PropertyRegistration} {p : PropertyId} (hcurrent : s.Current r)
      (hpoint : s.point = .persistingInput p ∨ s.point = .creatingInput p) :
      RegistrarTurn nativeUpsert db s freshId now (db.persistResolutionInput now r p)
        (s.registered r p)
  | notStored {r : PropertyRegistration} {p q : PropertyId} (hcurrent : s.Current r)
      (hpoint : s.point = .creatingInput p) (hs : db.storedId r.key = some q) :
      RegistrarTurn nativeUpsert db s freshId now db (s.refuse r (.database "P2002"))

theorem step_turn {nativeUpsert : Bool} {db db' : Db Row} {s s' : Registrar} {freshId : PropertyId}
    {now : Time} (h : s.step nativeUpsert db freshId now = some (db', s')) :
    RegistrarTurn nativeUpsert db s freshId now db' s' := by
  rw [Registrar.step] at h
  split at h
  · cases h
    exact .checked ‹_›
  · split at h
    · rename_i hl
      cases h
      exact .lost ‹_› (by simpa [Db.loadPropertyWithRelations] using hl)
    · rename_i hl
      cases h
      obtain ⟨x, -, rfl⟩ := Option.map_eq_some_iff.mp hl
      exact .loaded ‹_›
  · rename_i r rs hpoint htodo
    have hcurrent : s.Current r := by rw [Registrar.Current, htodo]; rfl
    split at h
    · cases h
      exact .found hcurrent hpoint ‹_›
    · cases h
      exact .missing hcurrent hpoint
  · rename_i r rs hpoint htodo
    have hcurrent : s.Current r := by rw [Registrar.Current, htodo]; rfl
    split at h
    · split at h
      · cases h
        exact .notCreated hcurrent hpoint ‹_› ‹_›
      · cases h
        exact .created hcurrent hpoint ‹_›
    · cases h
  · rename_i p r rs hpoint htodo
    have hcurrent : s.Current r := by rw [Registrar.Current, htodo]; rfl
    split at h
    · cases h
      exact .notApplied hcurrent hpoint ‹_›
    · cases h
      exact .applied hcurrent hpoint ‹_›
  · rename_i p r rs hpoint htodo
    have hcurrent : s.Current r := by rw [Registrar.Current, htodo]; rfl
    split at h
    · cases h
      exact .read hcurrent hpoint
    · cases h
      exact .stored hcurrent (.inl hpoint)
  · rename_i p r rs hpoint htodo
    have hcurrent : s.Current r := by rw [Registrar.Current, htodo]; rfl
    split at h
    · cases h
      exact .notStored hcurrent hpoint ‹_›
    · cases h
      exact .stored hcurrent (.inr hpoint)
  · cases h

/-! ### What the sources answer -/

/-- The registration is what the sources answer to the request, or to one of its BBLs. -/
inductive Answers (sources : RegistrationSources) : RegistrationRequest → PropertyRegistration → Prop
    where
  | resolveBbl {bbl : CanonicalBbl} {r : PropertyRegistration}
      (h : resolveUncachedBbl sources.clients bbl = .ok r) : Answers sources (.resolveBbl bbl) r
  | resolveAddress {normalized : AddressNormalizationResult} {r : PropertyRegistration}
      (h : resolveUncachedAddress sources.rules sources.clients normalized = .ok r) :
      Answers sources (.resolveAddress normalized) r
  | registerBbls {bbls : List String} {lookups : BulkLookups} {bbl : CanonicalBbl}
      {r : PropertyRegistration} (h : resolveBulkBbl lookups bbl = .ok r) :
      Answers sources (.registerBbls bbls) r

/-- Two resolutions of one normalized address are answered with the same BBL. -/
def AddressesAgree (registrars : ι → Registrar) : Prop :=
  ∀ i j normalized normalized' r r',
    (registrars i).request = .resolveAddress normalized →
    (registrars j).request = .resolveAddress normalized' →
    normalized.normalizedInput = normalized'.normalizedInput →
    Answers (registrars i).sources (.resolveAddress normalized) r →
    Answers (registrars j).sources (.resolveAddress normalized') r' → r.bbl = r'.bbl

/-- The input of an answer: a BBL is its own canonical BBL. -/
theorem Answers.key_eq {sources : RegistrationSources} {request : RegistrationRequest}
    {r : PropertyRegistration} (h : Answers sources request r) :
    r.key = (.bbl, r.bbl.text) ∨
      ∃ normalized, request = .resolveAddress normalized ∧
        r.key = (.address, normalized.normalizedInput) := by
  cases h with
  | resolveBbl h =>
      obtain ⟨hkey, hb, -⟩ := resolveUncachedBbl_eq_ok h
      rw [hb]
      exact Or.inl hkey
  | resolveAddress h => exact Or.inr ⟨_, rfl, (resolveUncachedAddress_eq_ok h).1⟩
  | registerBbls h =>
      obtain ⟨ht, hi, hb, -⟩ := resolveBulkBbl_eq_ok h
      left
      rw [PropertyRegistration.key, ht, hi, hb]

/-- **Answers for one input are answers for one BBL.** -/
theorem Answers.bbl_eq {registrars : ι → Registrar} (hagree : AddressesAgree registrars) {i j : ι}
    {r r' : PropertyRegistration}
    (hr : Answers (registrars i).sources (registrars i).request r)
    (hr' : Answers (registrars j).sources (registrars j).request r') (hkey : r.key = r'.key) :
    r.bbl = r'.bbl := by
  rcases hr.key_eq with hk | ⟨n, hn, hk⟩ <;> rcases hr'.key_eq with hk' | ⟨n', hn', hk'⟩
  · rw [hk, hk'] at hkey
    exact DigitString.ext (Prod.mk.inj hkey).2
  · rw [hk, hk'] at hkey
    cases (Prod.mk.inj hkey).1
  · rw [hk, hk'] at hkey
    cases (Prod.mk.inj hkey).1
  · rw [hk, hk'] at hkey
    rw [hn] at hr
    rw [hn'] at hr'
    exact hagree i j n n' r r' hn hn' (Prod.mk.inj hkey).2 hr hr'

/-! ### The invariant of a registration -/

/-- What holds at the point a registration has reached. -/
def Registrar.PointOk (db : Db Row) (s : Registrar) : Prop :=
  match s.point with
  | .checkingCache => s.todo = [] ∧ s.results = []
  | .loadingCached key p => s.todo = [] ∧ s.request.keys = [key] ∧ db.storedId key = some p
  | .applyingBins p | .persistingInput p | .creatingInput p =>
    ∃ r, s.Current r ∧ db.bblOf p = some r.bbl
  | .finished => s.todo = []
  | .failed _ => False
  | _ => True

/-- The inputs of the request are returned, under way or refused by the sources. -/
def Registrar.Covers (s : Registrar) : Prop :=
  match s.point with
  | .checkingCache | .loadingCached _ _ | .unresolved _ => True
  | _ => ∀ key ∈ s.request.keys, (∃ e ∈ s.results, e.key = key) ∨ (∃ r ∈ s.todo, r.key = key) ∨
      ∃ bbl : CanonicalBbl, key = (.bbl, bbl.text) ∧ s.unresolvedBbls.find bbl ≠ none

/-- What holds of a registration between its statements, whatever the others do. -/
structure RegistrarOk (db : Db Row) (s : Registrar) : Prop where
  point : s.PointOk db
  covers : s.Covers
  answers : ∀ r ∈ s.todo, Answers s.sources s.request r
  /-- Where the input of a pending registration is stored, it is with the property of its BBL. -/
  pending : ∀ r ∈ s.todo, ∀ p, db.storedId r.key = some p → db.bblOf p = some r.bbl
  results : ∀ e ∈ s.results, db.storedId e.key = some e.propertyId
  resolved : ∀ e ∈ s.results, e.cached = false →
    ∃ r, Answers s.sources s.request r ∧ r.key = e.key ∧ db.bblOf e.propertyId = some r.bbl
  rejected : s.rejectedBbls = []

/-- Every input that is newly stored is stored with the property of the BBL it was resolved to. -/
def StoresAnswers (answers : PropertyRegistration → Prop) (db db' : Db Row) : Prop :=
  ∀ key p, db'.storedId key = some p →
    db.storedId key = some p ∨ ∃ r, answers r ∧ r.key = key ∧ db'.bblOf p = some r.bbl

section Invariant

variable {db db' : Db Row} {s s' : Registrar} {r : PropertyRegistration} {p freshId : PropertyId}
  {now : Time} {nativeUpsert : Bool}

theorem Registrar.PointOk.grows (hg : db.Grows db') (h : s.PointOk db) : s.PointOk db' := by
  rw [PointOk] at h ⊢
  split at h
  · exact h
  · exact ⟨h.1, h.2.1, hg.input h.2.2⟩
  · obtain ⟨r, hr, hb⟩ := h
    exact ⟨r, hr, hg.bbl hb⟩
  · obtain ⟨r, hr, hb⟩ := h
    exact ⟨r, hr, hg.bbl hb⟩
  · obtain ⟨r, hr, hb⟩ := h
    exact ⟨r, hr, hg.bbl hb⟩
  · exact h
  · exact h
  · exact h

/-- **The statements of the others** leave a registration as it is: what they store for an input of
its own, they store with the property of the same BBL. -/
theorem RegistrarOk.frame {answers : PropertyRegistration → Prop} (hg : db.Grows db')
    (hs : StoresAnswers answers db db')
    (hagree : ∀ r r', Answers s.sources s.request r → answers r' → r.key = r'.key → r.bbl = r'.bbl)
    (h : RegistrarOk db s) : RegistrarOk db' s where
  point := h.point.grows hg
  covers := h.covers
  answers := h.answers
  pending r hr p hp := by
    rcases hs r.key p hp with hold | ⟨r', hr', hkey, hb⟩
    · exact hg.bbl (h.pending r hr p hold)
    · rw [hb, hagree r r' (h.answers r hr) hr' hkey.symm]
  results e he := hg.input (h.results e he)
  resolved e he hc := by
    obtain ⟨r, hr, hkey, hb⟩ := h.resolved e he hc
    exact ⟨r, hr, hkey, hg.bbl hb⟩
  rejected := h.rejected

/-- Where every stored input has its property, the cached registrations are all loaded. -/
theorem findCachedBblRegistrations_ok (hc : db.Constrained) (bbls : List CanonicalBbl) :
    ∃ cached, db.findCachedBblRegistrations bbls = .ok cached := by
  induction bbls with
  | nil => exact ⟨_, rfl⟩
  | cons bbl bbls ih =>
      obtain ⟨cached, hr⟩ := ih
      simp only [Db.findCachedBblRegistrations, hr, bind, Except.bind]
      cases hf : db.findPropertyIdByResolutionInput .bbl bbl.text with
      | none => exact ⟨_, rfl⟩
      | some p =>
          have hs : db.storedId (.bbl, bbl.text) = some p := hf
          obtain ⟨b, hb⟩ := hc.reference hs
          obtain ⟨x, hx, -⟩ := Db.bblOf_eq_some hb
          simp only [Db.loadPropertyWithRelations, hx, Option.map_some]
          exact ⟨_, rfl⟩

/-! ### The cache check -/

theorem checkInput_ok {key : PropertyResolutionInputType × String}
    {resolution : Except IdentityError PropertyRegistration} (hkeys : s.request.keys = [key])
    (hres : ∀ r, resolution = .ok r → Answers s.sources s.request r ∧ r.key = key)
    (hpoint : s.point = .checkingCache) (h : RegistrarOk db s) :
    RegistrarOk db (s.checkInput db key resolution) := by
  obtain ⟨htodo, hresults⟩ : s.todo = [] ∧ s.results = [] := by
    have hp := h.point
    rwa [Registrar.PointOk, hpoint] at hp
  have hnone {s' : Registrar} (hp : s'.PointOk db) (hcov : s'.Covers) (ht : s'.todo = s.todo)
      (hr : s'.results = s.results) (hj : s'.rejectedBbls = s.rejectedBbls) : RegistrarOk db s' := by
    rw [htodo] at ht
    rw [hresults] at hr
    exact ⟨hp, hcov, by simp [ht], by simp [ht], by simp [hr], by simp [hr], hj.trans h.rejected⟩
  cases hs : db.findPropertyIdByResolutionInput key.1 key.2 with
  | some p =>
      simp only [Registrar.checkInput, hs]
      exact hnone ⟨htodo, hkeys, hs⟩ trivial rfl rfl rfl
  | none =>
      cases hr : resolution with
      | error e =>
          simp only [Registrar.checkInput, hs]
          exact hnone trivial trivial rfl rfl rfl
      | ok r =>
          simp only [Registrar.checkInput, hs]
          obtain ⟨ha, hk⟩ := hres r hr
          refine ⟨trivial, ?_, ?_, ?_, h.results, h.resolved, h.rejected⟩
          · intro key' hkey'
            rw [hkeys, List.mem_singleton] at hkey'
            exact Or.inr (Or.inl ⟨r, List.mem_singleton_self r, hk.trans hkey'.symm⟩)
          · intro r' hr'
            rw [List.mem_singleton.mp hr']
            exact ha
          · intro r' hr' p hp
            rw [List.mem_singleton.mp hr', hk, Db.storedId, hs] at hp
            cases hp

/-- A registration with nothing left is finished; any other goes on. -/
theorem proceed_ok
    (hcov : ∀ key ∈ s.request.keys, (∃ e ∈ s.results, e.key = key) ∨ (∃ r ∈ s.todo, r.key = key) ∨
      ∃ bbl : CanonicalBbl, key = (.bbl, bbl.text) ∧ s.unresolvedBbls.find bbl ≠ none)
    (hanswers : ∀ r ∈ s.todo, Answers s.sources s.request r)
    (hpending : ∀ r ∈ s.todo, ∀ p, db.storedId r.key = some p → db.bblOf p = some r.bbl)
    (hresults : ∀ e ∈ s.results, db.storedId e.key = some e.propertyId)
    (hresolved : ∀ e ∈ s.results, e.cached = false →
      ∃ r, Answers s.sources s.request r ∧ r.key = e.key ∧ db.bblOf e.propertyId = some r.bbl)
    (hrejected : s.rejectedBbls = []) : RegistrarOk db s.proceed := by
  refine ⟨?_, ?_, hanswers, hpending, hresults, hresolved, hrejected⟩
  · cases ht : s.todo with
    | nil =>
        simp only [Registrar.PointOk, Registrar.proceed, ht, List.isEmpty_nil, if_true]
    | cons r rs =>
        simp only [Registrar.PointOk, Registrar.proceed, ht, List.isEmpty_cons, Bool.false_eq_true,
          if_false]
  · rw [Registrar.Covers, Registrar.proceed]
    cases s.todo.isEmpty <;> exact hcov

theorem checkBbls_ok {bbls : List String} (hc : db.Constrained)
    (hrequest : s.request = .registerBbls bbls) (h : RegistrarOk db s) :
    RegistrarOk db (s.checkBbls db bbls) := by
  obtain ⟨cached, hcached⟩ :=
    findCachedBblRegistrations_ok hc (uniqueCanonicalBbls (parseBulkInputs bbls)).toList
  simp only [Registrar.checkBbls, hcached]
  split
  · exact ⟨trivial, trivial, h.answers, h.pending, h.results, h.resolved, h.rejected⟩
  · rename_i registrations failures hres
    have hkey {r : PropertyRegistration} (hr : r ∈ registrations) :
        r.key = (.bbl, r.bbl.text) ∧ Answers s.sources s.request r := by
      obtain ⟨-, lookups, ha⟩ := bulkResolutions_answers hres r hr
      obtain ⟨ht, hi, -⟩ := resolveBulkBbl_eq_ok ha
      rw [hrequest]
      exact ⟨by rw [PropertyRegistration.key, ht, hi], .registerBbls ha⟩
    have hresults : ∀ e ∈ cached.rows.map fun row : CanonicalBbl × PropertyWithRelations =>
        (⟨(.bbl, row.1.text), row.2.id, true⟩ : RegistrationResult),
        e.cached = true ∧ db.storedId e.key = some e.propertyId := by
      intro e he
      obtain ⟨⟨bbl, property⟩, hrow, rfl⟩ := List.mem_map.mp he
      exact ⟨rfl, findCachedBblRegistrations_some hcached (Table.mem_rows.mp hrow)⟩
    refine proceed_ok ?_ (fun r hr => (hkey hr).2) ?_ (fun e he => (hresults e he).2) ?_ h.rejected
    · intro key hk
      simp only [hrequest, RegistrationRequest.keys, List.mem_map] at hk
      obtain ⟨bbl, hbbl, rfl⟩ := hk
      cases hf : cached.find bbl with
      | some property =>
          exact Or.inl ⟨_, List.mem_map.mpr ⟨(bbl, property), Table.mem_rows.mpr hf, rfl⟩, rfl⟩
      | none =>
          have hmem : bbl ∈ Db.uncachedBbls bbls cached :=
            List.mem_filter.mpr ⟨hbbl, by rw [hf]; rfl⟩
          rcases bulkResolutions_covers hres hmem with ⟨r, hr, rfl⟩ | hfail
          · exact Or.inr (Or.inl ⟨r, hr, (hkey hr).1⟩)
          · exact Or.inr (Or.inr ⟨bbl, rfl, hfail⟩)
    · intro r hr p hp
      obtain ⟨hmem, hnone⟩ := List.mem_filter.mp (bulkResolutions_answers hres r hr).1
      have hstored := findCachedBblRegistrations_none hcached hmem (by simpa using hnone)
      rw [(hkey hr).1] at hp
      rw [Db.storedId, hstored] at hp
      cases hp
    · intro e he hfalse
      rw [(hresults e he).1] at hfalse
      cases hfalse

theorem checkCache_ok (hc : db.Constrained) (hpoint : s.point = .checkingCache)
    (h : RegistrarOk db s) : RegistrarOk db (s.checkCache db) := by
  rw [Registrar.checkCache]
  split
  · rename_i bbl hrequest
    refine checkInput_ok (by rw [hrequest]; rfl) (fun r hr => ?_) hpoint h
    rw [hrequest]
    exact ⟨.resolveBbl hr, (resolveUncachedBbl_eq_ok hr).1⟩
  · rename_i normalized hrequest
    refine checkInput_ok (by rw [hrequest]; rfl) (fun r hr => ?_) hpoint h
    rw [hrequest]
    exact ⟨.resolveAddress hr, (resolveUncachedAddress_eq_ok hr).1⟩
  · rename_i bbls hrequest
    exact checkBbls_ok hc hrequest h

/-! ### The other statements -/

theorem StoresAnswers.of_eq {answers : PropertyRegistration → Prop}
    (h : ∀ key, db'.storedId key = db.storedId key) : StoresAnswers answers db db' :=
  fun key _ hp => Or.inl ((h key).symm.trans hp)

theorem RegistrarOk.withPoint {point : RegistrationPoint} (h : RegistrarOk db s)
    (hp : Registrar.PointOk db { s with point := point })
    (hcov : Registrar.Covers { s with point := point }) : RegistrarOk db { s with point := point } :=
  ⟨hp, hcov, h.answers, h.pending, h.results, h.resolved, h.rejected⟩

/-- A registration that has its property goes on with the BINs or with the input. -/
theorem RegistrarOk.found (h : RegistrarOk db s) (hcurrent : s.Current r)
    (hp : db.bblOf p = some r.bbl)
    (hcov : ∀ key ∈ s.request.keys, (∃ e ∈ s.results, e.key = key) ∨ (∃ r ∈ s.todo, r.key = key) ∨
      ∃ bbl : CanonicalBbl, key = (.bbl, bbl.text) ∧ s.unresolvedBbls.find bbl ≠ none) :
    RegistrarOk db (s.found r p) := by
  rw [Registrar.found]
  split
  · exact h.withPoint ⟨r, hcurrent, hp⟩ hcov
  · exact h.withPoint ⟨r, hcurrent, hp⟩ hcov

/-- The statement that stores the input of a registration. -/
theorem RegistrarOk.registered (hc : db.Constrained) (h : RegistrarOk db s)
    (hself : ∀ r r', Answers s.sources s.request r → Answers s.sources s.request r' →
      r.key = r'.key → r.bbl = r'.bbl)
    (hcurrent : s.Current r) (hp : db.bblOf p = some r.bbl)
    (hcov : ∀ key ∈ s.request.keys, (∃ e ∈ s.results, e.key = key) ∨ (∃ r ∈ s.todo, r.key = key) ∨
      ∃ bbl : CanonicalBbl, key = (.bbl, bbl.text) ∧ s.unresolvedBbls.find bbl ≠ none) :
    StoresAnswers (Answers s.sources s.request) db (db.persistResolutionInput now r p) ∧
      RegistrarOk (db.persistResolutionInput now r p) (s.registered r p) := by
  have hmem : r ∈ s.todo := List.mem_of_mem_head? hcurrent
  have hr : Answers s.sources s.request r := h.answers r hmem
  obtain ⟨hg, hc'⟩ : db.Grows (db.persistResolutionInput now r p) ∧
      (db.persistResolutionInput now r p).Constrained := Db.persistResolutionInput_grows hc hp
  have hstores : StoresAnswers (Answers s.sources s.request) db
      (db.persistResolutionInput now r p) := by
    intro key q hq
    rw [Db.storedId_persistResolutionInput] at hq
    split at hq
    · rename_i hk
      cases hq
      exact Or.inr ⟨r, hr, hk.1.symm, hg.bbl hp⟩
    · exact Or.inl hq
  -- Where the input was stored before, it was with the one property at the BBL.
  have hstored : (db.persistResolutionInput now r p).storedId r.key = some p := by
    rw [Db.storedId_persistResolutionInput]
    cases hs : db.storedId r.key with
    | none => simp
    | some q => simpa using hc.unique (h.pending r hmem q hs) hp
  have hframe := h.frame hg hstores hself
  have htail : ∀ r' ∈ s.todo.tail, r' ∈ s.todo := fun r' hr' => List.mem_of_mem_tail hr'
  refine ⟨hstores, proceed_ok ?_ (fun r' hr' => h.answers r' (htail r' hr'))
    (fun r' hr' => hframe.pending r' (htail r' hr')) ?_ ?_ h.rejected⟩
  · intro key hkey
    rcases hcov key hkey with ⟨e, he, hk⟩ | ⟨r', hr', hk⟩ | hu
    · exact Or.inl ⟨e, List.mem_append_left _ he, hk⟩
    · have htodo := List.eq_cons_of_mem_head? hcurrent
      rw [htodo] at hr'
      rcases List.mem_cons.mp hr' with rfl | hr'
      · exact Or.inl ⟨_, List.mem_append_right _ (List.mem_singleton_self _), hk⟩
      · exact Or.inr (Or.inl ⟨r', hr', hk⟩)
    · exact Or.inr (Or.inr hu)
  · intro e he
    rcases List.mem_append.mp he with he | he
    · exact hframe.results e he
    · rw [List.mem_singleton.mp he]
      exact hstored
  · intro e he hfalse
    rcases List.mem_append.mp he with he | he
    · exact hframe.resolved e he hfalse
    · rw [List.mem_singleton.mp he]
      exact ⟨r, hr, rfl, hg.bbl hp⟩

/-- **One statement of a registration**, where it meets no conflict, keeps the constraints and its own
invariant, and stores only what the sources have answered to it. -/
theorem turn_ok (hc : db.Constrained) (h : RegistrarOk db s)
    (hself : ∀ r r', Answers s.sources s.request r → Answers s.sources s.request r' →
      r.key = r'.key → r.bbl = r'.bbl)
    (hcreate : s.point = .creatingProperty → ∀ r, s.Current r → db.findPropertyByBbl r.bbl = none)
    (hinsert : ∀ p, s.point = .creatingInput p → ∀ r, s.Current r → db.storedId r.key = none)
    (ht : RegistrarTurn nativeUpsert db s freshId now db' s') :
    db.Grows db' ∧ db'.Constrained ∧ StoresAnswers (Answers s.sources s.request) db db' ∧
      RegistrarOk db' s' := by
  have hcovers := h.covers
  have hpointOk := h.point
  have hsame {s' : Registrar} (hs' : RegistrarOk db s') :
      db.Grows db ∧ db.Constrained ∧ StoresAnswers (Answers s.sources s.request) db db ∧
        RegistrarOk db s' :=
    ⟨.refl db, hc, .of_eq fun _ => rfl, hs'⟩
  have hcurrent_eq {r r' : PropertyRegistration} (hr : s.Current r) (hr' : s.Current r') : r = r' :=
    Option.some.inj (hr.symm.trans hr')
  cases ht with
  | checked hpoint => exact hsame (checkCache_ok hc hpoint h)
  | @loaded key p hpoint =>
      rw [Registrar.PointOk, hpoint] at hpointOk
      obtain ⟨htodo, hkeys, hs⟩ := hpointOk
      refine hsame ⟨htodo, ?_, h.answers, h.pending, ?_, ?_, h.rejected⟩
      · intro key' hkey'
        rw [hkeys, List.mem_singleton] at hkey'
        exact Or.inl ⟨_, List.mem_singleton_self _, hkey'.symm⟩
      · intro e he
        rw [List.mem_singleton.mp he]
        exact hs
      · intro e he hfalse
        rw [List.mem_singleton.mp he] at hfalse
        cases hfalse
  | lost hpoint hp =>
      rw [Registrar.PointOk, hpoint] at hpointOk
      obtain ⟨b, hb⟩ := hc.reference hpointOk.2.2
      obtain ⟨x, hx, -⟩ := Db.bblOf_eq_some hb
      rw [hp] at hx
      cases hx
  | found hcurrent hpoint hp =>
      rw [Registrar.Covers, hpoint] at hcovers
      exact hsame (h.found hcurrent (Db.bblOf_of_find hp) hcovers)
  | missing hcurrent hpoint =>
      rw [Registrar.Covers, hpoint] at hcovers
      exact hsame (h.withPoint trivial hcovers)
  | created hcurrent hpoint hcreated =>
      rw [Registrar.Covers, hpoint] at hcovers
      obtain ⟨hg, hc', hb, hs⟩ := Db.createProperty_grows hc hcreated
      have h' := h.frame hg (StoresAnswers.of_eq hs : StoresAnswers (fun _ => False) _ _) (fun _ _ _ hf => hf.elim)
      exact ⟨hg, hc', .of_eq hs, h'.found hcurrent hb hcovers⟩
  | notCreated hcurrent hpoint hfresh hcreated =>
      obtain ⟨db₁, hok⟩ := (Db.createProperty_createInput hfresh).1 (hcreate hpoint _ hcurrent)
      rw [hok] at hcreated
      cases hcreated
  | applied hcurrent hpoint ha =>
      rw [Registrar.Covers, hpoint] at hcovers
      rw [Registrar.PointOk, hpoint] at hpointOk
      obtain ⟨r, hr, hb⟩ := hpointOk
      obtain ⟨hbbl, hs⟩ := Db.applyEffectiveBinSet_grows ha
      have h' := h.frame (.of_eq hbbl hs) (StoresAnswers.of_eq hs : StoresAnswers (fun _ => False) _ _)
        (fun _ _ _ hf => hf.elim)
      exact ⟨.of_eq hbbl hs, hc.congr hbbl hs, .of_eq hs,
        h'.withPoint ⟨r, hr, (hbbl _).trans hb⟩ hcovers⟩
  | notApplied hcurrent hpoint ha =>
      rw [Registrar.PointOk, hpoint] at hpointOk
      obtain ⟨r, hr, hb⟩ := hpointOk
      obtain ⟨t, hok⟩ := Db.applyEffectiveBinSet_ok hb _
      rw [hok] at ha
      cases ha
  | read hcurrent hpoint =>
      rw [Registrar.Covers, hpoint] at hcovers
      rw [Registrar.PointOk, hpoint] at hpointOk
      exact hsame (h.withPoint hpointOk hcovers)
  | @stored r p hcurrent hpoint =>
      have hb : db.bblOf p = some r.bbl := by
        rw [Registrar.PointOk] at hpointOk
        rcases hpoint with hpoint | hpoint <;> rw [hpoint] at hpointOk <;>
          obtain ⟨r', hr', hb⟩ := hpointOk <;> rwa [hcurrent_eq hcurrent hr']
      have hcov : ∀ key ∈ s.request.keys, (∃ e ∈ s.results, e.key = key) ∨
          (∃ r ∈ s.todo, r.key = key) ∨
          ∃ bbl : CanonicalBbl, key = (.bbl, bbl.text) ∧ s.unresolvedBbls.find bbl ≠ none := by
        rw [Registrar.Covers] at hcovers
        rcases hpoint with hpoint | hpoint <;> rw [hpoint] at hcovers <;> exact hcovers
      obtain ⟨hg, hc'⟩ : db.Grows (db.persistResolutionInput now _ _) ∧
          (db.persistResolutionInput now _ _).Constrained := Db.persistResolutionInput_grows hc hb
      obtain ⟨hs, h'⟩ : StoresAnswers _ db (db.persistResolutionInput now _ _) ∧ _ :=
        h.registered hc hself hcurrent hb hcov
      exact ⟨hg, hc', hs, h'⟩
  | notStored hcurrent hpoint hs =>
      rw [hinsert _ hpoint _ hcurrent] at hs
      cases hs

end Invariant

/-! ### Runs -/

/-- The registrations have not started, on a database that meets its constraints. -/
structure Starts (s : RegistrationState Row ι) : Prop where
  constrained : s.db.Constrained
  start : ∀ i, s.registrars i =
    Registrar.start (s.registrars i).request (s.registrars i).sources

/-- **The registrations do not hurt each other.** -/
structure RaceFree (s : RegistrationState Row ι) : Prop where
  /-- No statement threw. -/
  unfailed : ∀ i e, (s.registrars i).point ≠ .failed e
  unrejected : ∀ i, (s.registrars i).rejectedBbls = []
  /-- A call that has ended returns a property for every input the sources have answered. -/
  returned : ∀ i, (s.registrars i).point = .finished → ∀ key ∈ (s.registrars i).request.keys,
    (∃ e ∈ (s.registrars i).results, e.key = key) ∨
      ∃ bbl : CanonicalBbl, key = (.bbl, bbl.text) ∧ (s.registrars i).unresolvedBbls.find bbl ≠ none
  /-- The property returned for an input is the one stored for it. -/
  stored : ∀ i, ∀ e ∈ (s.registrars i).results,
    s.db.findPropertyIdByResolutionInput e.key.1 e.key.2 = some e.propertyId
  /-- A property that was not cached stands at the BBL the sources gave for the input. -/
  resolved : ∀ i, ∀ e ∈ (s.registrars i).results, e.cached = false →
    ∃ r, Answers (s.registrars i).sources (s.registrars i).request r ∧ r.key = e.key ∧
      s.db.bblOf e.propertyId = some r.bbl
  /-- One property is returned for one input, and for one BBL. -/
  agree : ∀ i j, ∀ e ∈ (s.registrars i).results, ∀ e' ∈ (s.registrars j).results,
    e.key = e'.key ∨ s.db.bblOf e.propertyId = s.db.bblOf e'.propertyId → e.propertyId = e'.propertyId

/-- What holds between any two statements. -/
structure RaceInvariant (registrars₀ : ι → Registrar) (s : RegistrationState Row ι) : Prop where
  constrained : s.db.Constrained
  request : ∀ i, (s.registrars i).request = (registrars₀ i).request ∧
    (s.registrars i).sources = (registrars₀ i).sources
  ok : ∀ i, RegistrarOk s.db (s.registrars i)

section Runs

variable [DecidableEq ι] {nativeUpsert : Bool} {s s₀ t : RegistrationState Row ι}
  {registrars₀ : ι → Registrar} {ev : RegistrationEvent ι}

theorem registrationNext_eq_some (h : registrationNext nativeUpsert s ev = some t) :
    ∃ registrar, RegistrarTurn nativeUpsert s.db (s.registrars ev.registrar) ev.freshId ev.now t.db
        registrar ∧ t.registrars = Function.update s.registrars ev.registrar registrar := by
  obtain ⟨⟨db', registrar⟩, hs, rfl⟩ := Option.map_eq_some_iff.mp h
  exact ⟨registrar, step_turn hs, rfl⟩

/-- A call keeps its request and its sources. -/
theorem turn_request {db db' : Db Row} {s s' : Registrar} {freshId : PropertyId} {now : Time}
    (h : RegistrarTurn nativeUpsert db s freshId now db' s') :
    s'.request = s.request ∧ s'.sources = s.sources := by
  have hproceed (s' : Registrar) :
      s'.proceed.request = s'.request ∧ s'.proceed.sources = s'.sources := ⟨rfl, rfl⟩
  have hrefuse (r : PropertyRegistration) (e : IdentityError) :
      (s.refuse r e).request = s.request ∧ (s.refuse r e).sources = s.sources := by
    cases hq : s.request <;> cases e <;> simp only [Registrar.refuse, hq, and_self]
    exact hproceed _
  have hinput (key : PropertyResolutionInputType × String)
      (resolution : Except IdentityError PropertyRegistration) :
      (s.checkInput db key resolution).request = s.request ∧
        (s.checkInput db key resolution).sources = s.sources := by
    cases hf : db.findPropertyIdByResolutionInput key.1 key.2 with
    | some p => simp only [Registrar.checkInput, hf, and_self]
    | none => cases resolution <;> simp only [Registrar.checkInput, hf, and_self]
  cases h with
  | checked =>
      rw [Registrar.checkCache]
      split
      · exact hinput _ _
      · exact hinput _ _
      · rename_i bbls _
        cases hf : db.findCachedBblRegistrations (uniqueCanonicalBbls (parseBulkInputs bbls)).toList with
        | error e => simp only [Registrar.checkBbls, hf, and_self]
        | ok cached =>
            simp only [Registrar.checkBbls, hf]
            split
            · exact ⟨rfl, rfl⟩
            · exact hproceed _
  | loaded | lost | found | missing | created | applied | read => exact ⟨rfl, rfl⟩
  | stored => exact hproceed _
  | notCreated | notApplied | notStored => exact hrefuse _ _

omit [DecidableEq ι] in
theorem raceInvariant_start (h : Starts s₀) : RaceInvariant s₀.registrars s₀ where
  constrained := h.constrained
  request _ := ⟨rfl, rfl⟩
  ok i := by
    rw [h.start i]
    exact ⟨⟨rfl, rfl⟩, trivial, fun _ hr => (nomatch hr), fun _ hr => (nomatch hr),
      fun _ he => (nomatch he), fun _ he => (nomatch he), rfl⟩

omit [DecidableEq ι] in
/-- Answers for one input, to any two of the registrations, are for one BBL. -/
theorem RaceInvariant.bbl_eq (hagree : AddressesAgree registrars₀) (h : RaceInvariant registrars₀ s)
    {i j : ι} {r r' : PropertyRegistration}
    (hr : Answers (s.registrars i).sources (s.registrars i).request r)
    (hr' : Answers (s.registrars j).sources (s.registrars j).request r') (hkey : r.key = r'.key) :
    r.bbl = r'.bbl := by
  rw [(h.request i).1, (h.request i).2] at hr
  rw [(h.request j).1, (h.request j).2] at hr'
  exact hr.bbl_eq hagree hr' hkey

/-- **A statement without a conflict keeps the invariant** of every registration. -/
theorem raceInvariant_next (hagree : AddressesAgree registrars₀) (h : RaceInvariant registrars₀ s)
    (hok : NoConflict s ev) (hs : registrationNext nativeUpsert s ev = some t) :
    RaceInvariant registrars₀ t := by
  obtain ⟨registrar, hturn, ht⟩ := registrationNext_eq_some hs
  have htodo {r : PropertyRegistration} (hr : (s.registrars ev.registrar).Current r) :
      ∃ rs, (s.registrars ev.registrar).todo = r :: rs := ⟨_, List.eq_cons_of_mem_head? hr⟩
  obtain ⟨hg, hc, hstores, hregistrar⟩ := turn_ok h.constrained (h.ok ev.registrar)
    (fun r r' hr hr' hkey => h.bbl_eq hagree hr hr' hkey)
    (fun hpoint r hr => by
      obtain ⟨rs, htodo⟩ := htodo hr
      rw [NoConflict, hpoint, htodo] at hok
      exact hok)
    (fun p hpoint r hr => by
      obtain ⟨rs, htodo⟩ := htodo hr
      rw [NoConflict, hpoint, htodo] at hok
      exact hok)
    hturn
  refine ⟨hc, fun i => ?_, fun i => ?_⟩
  · rw [ht]
    by_cases hi : i = ev.registrar
    · subst hi
      rw [Function.update_self, (turn_request hturn).1, (turn_request hturn).2]
      exact h.request ev.registrar
    · rw [Function.update_of_ne hi]
      exact h.request i
  · rw [ht]
    by_cases hi : i = ev.registrar
    · subst hi
      rw [Function.update_self]
      exact hregistrar
    · rw [Function.update_of_ne hi]
      exact (h.ok i).frame hg hstores fun r r' hr hr' hkey => h.bbl_eq hagree hr hr' hkey

omit [DecidableEq ι] in
theorem RaceInvariant.raceFree (h : RaceInvariant registrars₀ s) : RaceFree s where
  unfailed i e hpoint := by
    have hp := (h.ok i).point
    rwa [Registrar.PointOk, hpoint] at hp
  unrejected i := (h.ok i).rejected
  returned i hpoint key hkey := by
    have hcov := (h.ok i).covers
    have hp := (h.ok i).point
    rw [Registrar.Covers, hpoint] at hcov
    rw [Registrar.PointOk, hpoint] at hp
    rcases hcov key hkey with he | ⟨r, hr, -⟩ | hu
    · exact Or.inl he
    · rw [hp] at hr
      cases hr
    · exact Or.inr hu
  stored i := (h.ok i).results
  resolved i := (h.ok i).resolved
  agree i j e he e' he' := by
    have hs := (h.ok i).results e he
    have hs' := (h.ok j).results e' he'
    rintro (hkey | hbbl)
    · rw [hkey, hs'] at hs
      exact (Option.some.inj hs).symm
    · obtain ⟨b, hb⟩ := h.constrained.reference hs
      exact h.constrained.unique hb (hbbl ▸ hb)

/-- A conflict ends the registration that meets it. -/
theorem conflict_fails (hn : ¬ NoConflict s ev) (hs : registrationNext nativeUpsert s ev = some t) :
    ∃ e, (t.registrars ev.registrar).point = .failed e := by
  have hrefuse (r : PropertyRegistration) : ∃ e,
      ((s.registrars ev.registrar).refuse r (.database "P2002")).point = .failed e := by
    refine ⟨.database "P2002", ?_⟩
    cases hq : (s.registrars ev.registrar).request <;> simp only [Registrar.refuse, hq]
  rw [NoConflict] at hn
  split at hn
  · rename_i r rs hpoint htodo
    simp only [registrationNext, Registrar.step, hpoint, htodo] at hs
    by_cases hfresh : s.db.properties.find ev.freshId = none
    · simp only [hfresh, if_true, (Db.createProperty_createInput hfresh).2 hn, Option.map_some,
        Option.some.injEq] at hs
      simp only [← hs, Function.update_self]
      exact hrefuse r
    · simp only [hfresh, if_false, Option.map_none] at hs
      cases hs
  · rename_i p r rs hpoint htodo
    cases hf : s.db.findPropertyIdByResolutionInput r.inputType r.normalizedInput with
    | none => exact absurd hf hn
    | some q =>
        simp only [registrationNext, Registrar.step, hpoint, htodo, hf, Option.map_some,
          Option.some.injEq] at hs
        simp only [← hs, Function.update_self]
        exact hrefuse r
  · exact absurd trivial hn

/-- A call that has failed takes no further statement. -/
theorem failed_stays {i : ι} {e : IdentityError} (hf : (s.registrars i).point = .failed e)
    (hs : registrationNext nativeUpsert s ev = some t) : (t.registrars i).point = .failed e := by
  obtain ⟨registrar, hturn, ht⟩ := registrationNext_eq_some hs
  by_cases hi : i = ev.registrar
  · subst hi
    have hnone : (s.registrars ev.registrar).step nativeUpsert s.db ev.freshId ev.now = none := by
      simp only [Registrar.step, hf]
    rw [registrationNext, hnone] at hs
    cases hs
  · rw [ht, Function.update_of_ne hi]
    exact hf

theorem failed_stays_run {evs : List (RegistrationEvent ι)} {i : ι} {e : IdentityError}
    (hf : (s.registrars i).point = .failed e)
    (h : run (registrationNext nativeUpsert) s evs = some t) : (t.registrars i).point = .failed e := by
  induction evs generalizing s with
  | nil =>
      cases h
      exact hf
  | cons ev evs ih =>
      obtain ⟨u, hu, ht⟩ := Option.bind_eq_some_iff.mp h
      exact ih (failed_stays hf hu) ht

/-- **Concurrent registrations do not hurt each other exactly when none meets a conflict**: whatever
they are, and however their statements interleave. -/
theorem race_free_iff {evs : List (RegistrationEvent ι)} (hstart : Starts s₀)
    (hagree : AddressesAgree s₀.registrars)
    (h : run (registrationNext nativeUpsert) s₀ evs = some s) :
    RaceFree s ↔ RunOk (registrationNext nativeUpsert) NoConflict s₀ evs := by
  constructor
  · intro hfree
    have hfrom : ∀ {t : RegistrationState Row ι} {evs : List (RegistrationEvent ι)},
        run (registrationNext nativeUpsert) t evs = some s →
        RunOk (registrationNext nativeUpsert) NoConflict t evs := by
      intro t evs
      induction evs generalizing t with
      | nil => exact fun _ => trivial
      | cons ev evs ih =>
          intro h
          obtain ⟨u, hu, hrest⟩ := Option.bind_eq_some_iff.mp h
          refine ⟨?_, fun u' hu' => ?_⟩
          · by_contra hn
            obtain ⟨e, hf⟩ := conflict_fails hn hu
            exact hfree.unfailed _ e (failed_stays_run hf hrest)
          · cases Option.some.inj (hu.symm.trans hu')
            exact ih hrest
    exact hfrom h
  · intro hok
    exact (Steps.invariant (I := RaceInvariant s₀.registrars)
      (fun hI hok hs => raceInvariant_next hagree hI hok hs) (run_steps hok h)
      (raceInvariant_start hstart)).raceFree

end Runs

/-! ### One registration alone -/

section Alone

variable [DecidableEq ι] {s : RegistrationState Row ι} {i : ι} {db₁ db' : Db Row}
  {r : PropertyRegistration} {p freshId : PropertyId} {now : Time}

/-- Only the one call takes statements. -/
abbrev Alone (i : ι) (freshId : PropertyId) (now : Time) (_ : RegistrationState Row ι)
    (ev : RegistrationEvent ι) : Prop :=
  ev = ⟨i, freshId, now⟩

theorem alone_step {registrars : ι → Registrar} {registrar registrar' : Registrar} {db : Db Row}
    (h : registrar.step true db freshId now = some (db', registrar')) :
    Steps (registrationNext true) (Alone i freshId now)
      ⟨db, Function.update registrars i registrar⟩ ⟨db', Function.update registrars i registrar'⟩ := by
  refine .one rfl ?_
  rw [registrationNext]
  simp only [Function.update_self, h, Option.map_some, Function.update_idem]

/-- From the property to the stored input, alone. -/
theorem alone_found {registrars : ι → Registrar} {registrar : Registrar} {db : Db Row}
    (hcurrent : registrar.Current r) (ha : db.applyCandidateBins r p = .ok db₁) :
    Steps (registrationNext true) (Alone i freshId now)
      ⟨db, Function.update registrars i (registrar.found r p)⟩
      ⟨db₁.persistResolutionInput now r p, Function.update registrars i (registrar.registered r p)⟩ := by
  obtain ⟨rs, htodo⟩ : ∃ rs, registrar.todo = r :: rs := ⟨_, List.eq_cons_of_mem_head? hcurrent⟩
  have hpersist : Steps (registrationNext true) (Alone i freshId now)
      ⟨db₁, Function.update registrars i { registrar with point := .persistingInput p }⟩
      ⟨db₁.persistResolutionInput now r p,
        Function.update registrars i (registrar.registered r p)⟩ := by
    refine alone_step ?_
    simp only [Registrar.step, Registrar.registered, Registrar.proceed, htodo]
  rw [Db.applyCandidateBins] at ha
  by_cases hs : r.candidateBins.size > 0
  · rw [if_pos hs] at ha
    cases he : db.applyEffectiveBinSet p r.candidateTexts with
    | error e => rw [he] at ha; cases ha
    | ok result =>
        rw [he] at ha
        cases ha
        refine Steps.trans (alone_step ?_) hpersist
        simp only [Registrar.found, hs, if_true, Registrar.step, htodo, he]
  · rw [if_neg hs] at ha
    cases ha
    rw [Registrar.found, if_neg hs]
    exact hpersist

/-- **A registration whose statements nobody interrupts** is `registerProperty`. -/
theorem steps_registerProperty {property : PropertyWithRelations}
    (hpoint : (s.registrars i).point = .findingProperty) (hcurrent : (s.registrars i).Current r)
    (h : s.db.registerProperty freshId now r = (db', .ok property)) :
    Steps (registrationNext true) (Alone i freshId now) s
      ⟨db', Function.update s.registrars i ((s.registrars i).registered r property.id)⟩ := by
  obtain ⟨rs, htodo⟩ : ∃ rs, (s.registrars i).todo = r :: rs :=
    ⟨_, List.eq_cons_of_mem_head? hcurrent⟩
  suffices hsteps : Steps (registrationNext true) (Alone i freshId now)
      ⟨s.db, Function.update s.registrars i (s.registrars i)⟩
      ⟨db', Function.update s.registrars i ((s.registrars i).registered r property.id)⟩ by
    rwa [Function.update_eq_self] at hsteps
  rw [Db.registerProperty] at h
  split at h
  · cases h
  rename_i db₁ p hfc
  split at h
  · cases h
  rename_i db₂ ha
  split at h
  · cases h
  rename_i refreshed hl
  cases h
  have hid : property.id = p := by
    obtain ⟨x, -, e⟩ := Option.map_eq_some_iff.mp hl
    rw [← e]
  rw [hid]
  rcases Db.findOrCreateProperty_eq_ok hfc with ⟨hf, rfl⟩ | ⟨hn, rfl, hc⟩
  · refine Steps.trans (alone_step ?_) (alone_found hcurrent ha)
    simp only [Registrar.step, hpoint, htodo, hf]
  · have hfresh : s.db.properties.find p = none := by
      obtain ⟨-, -, -, -, -, -, hfresh, -⟩ := Db.createProperty_eq_ok hc
      exact hfresh
    have hfind : Steps (registrationNext true) (Alone i p now)
        ⟨s.db, Function.update s.registrars i (s.registrars i)⟩
        ⟨s.db, Function.update s.registrars i { s.registrars i with point := .creatingProperty }⟩ :=
      alone_step (by simp only [Registrar.step, hpoint, htodo, hn])
    have hcreate : Steps (registrationNext true) (Alone i p now)
        ⟨s.db, Function.update s.registrars i { s.registrars i with point := .creatingProperty }⟩
        ⟨db₁, Function.update s.registrars i ((s.registrars i).found r p)⟩ :=
      alone_step (by simp only [Registrar.step, Registrar.found, htodo, hfresh, if_true, hc])
    exact hfind.trans (hcreate.trans (alone_found hcurrent ha))

end Alone

/-! ### Two registrations of one parcel -/

theorem constrained_empty : (Db.empty : Db Row).Constrained where
  unique hp _ := nomatch hp
  reference h := nomatch h

/-- The same answer for every BBL that is looked up. -/
def answerAll {α : Type} (answer : CanonicalBbl → α) : List CanonicalBbl → Table CanonicalBbl α
  | [] => .empty
  | bbl :: bbls => (answerAll answer bbls).set bbl (answer bbl)

/-- Sources that know a parcel without footprints at every BBL. -/
def plainSources : RegistrationSources where
  rules := plainAddresses
  clients := mainStreetClients .notFound
  bulkClients :=
    { plutoLookupByBbls := fun bbls => .ok (answerAll (fun bbl =>
        .found ⟨bbl, 1, 1, 1, "1 MAIN STREET", none⟩) bbls)
      footprintsLookupByParcelBbls := fun bbls => .ok (answerAll (fun _ => .notFound) bbls)
      footprintsLookupByBaseBbls := fun _ => .ok .empty
      lookupByUnitBbls := fun _ => .ok .empty
      lookupByCondoBaseBbls := fun _ => .ok .empty }

/-- Two calls on an empty database. -/
def twoCalls (first second : RegistrationRequest) : RegistrationState Unit Bool where
  db := .empty
  registrars b := Registrar.start (if b then second else first) plainSources

theorem starts_twoCalls (first second : RegistrationRequest) : Starts (twoCalls first second) :=
  ⟨constrained_empty, fun _ => rfl⟩

/-- A statement of the first call, which would create the property 0. -/
def firstCall : RegistrationEvent Bool := ⟨false, 0, 0⟩

/-- A statement of the second call, which would create the property 1. -/
def secondCall : RegistrationEvent Bool := ⟨true, 1, 0⟩

/-- The second call looks for the property after the first has created it. -/
def lateSearch : List (RegistrationEvent Bool) :=
  [firstCall, secondCall, firstCall, firstCall, secondCall, secondCall, firstCall]

/-- Both calls look for the property before the first creates it. -/
def earlySearch : List (RegistrationEvent Bool) :=
  [firstCall, secondCall, firstCall, secondCall, firstCall, secondCall]

instance (s : RegistrationState Row ι) (ev : RegistrationEvent ι) : Decidable (NoConflict s ev) := by
  rw [NoConflict]
  split <;> infer_instance

/-- An address and the BBL it leads to, registered side by side, become one property. -/
theorem race_free_iff_lateSearch :
    ∃ s, run (registrationNext true) (twoCalls (.resolveAddress ⟨"1 MAIN STREET", none, "1 MAIN STREET"⟩)
        (.resolveBbl mainStreetBbl)) lateSearch = some s ∧
      (∀ b, (s.registrars b).point = .finished) ∧ RaceFree s := by
  have hrun : (run (registrationNext true) (twoCalls
      (.resolveAddress ⟨"1 MAIN STREET", none, "1 MAIN STREET"⟩)
      (.resolveBbl mainStreetBbl)) lateSearch).any
      (fun s => ∀ b, (s.registrars b).point = .finished) = true := by decide +kernel
  obtain ⟨s, hs, hfinished⟩ := Option.any_eq_true _ _ |>.mp hrun
  refine ⟨s, hs, by simpa using hfinished, (race_free_iff (starts_twoCalls _ _) ?_ hs).mpr ?_⟩
  · intro i j n n' r r' hi hj _ hr hr'
    cases i <;> cases j <;> cases hi <;> cases hj
    cases hr with
    | resolveAddress hr =>
        cases hr' with
        | resolveAddress hr' => rw [Except.ok.inj (hr.symm.trans hr')]
  · decide +kernel

/-- A BBL that two calls register at once: the second, a request of two BBLs, is refused by the
database and ends, and its other BBL is not registered. -/
theorem early_search_fails :
    ∃ s, Starts (twoCalls (.resolveBbl mainStreetBbl) (.registerBbls ["1000010001", "1000010002"])) ∧
      run (registrationNext true) (twoCalls (.resolveBbl mainStreetBbl)
        (.registerBbls ["1000010001", "1000010002"])) earlySearch = some s ∧
      (s.registrars true).point = .failed (.database "P2002") ∧
      (s.registrars true).results.length = 0 ∧ ¬ RaceFree s := by
  have hrun : (run (registrationNext true) (twoCalls (.resolveBbl mainStreetBbl)
      (.registerBbls ["1000010001", "1000010002"])) earlySearch).any
      (fun s => (s.registrars true).point = .failed (.database "P2002") ∧
        (s.registrars true).results.length = 0) = true := by decide +kernel
  obtain ⟨s, hs, hpost⟩ := Option.any_eq_true _ _ |>.mp hrun
  obtain ⟨hfailed, hresults⟩ := of_decide_eq_true hpost
  exact ⟨s, starts_twoCalls _ _, hs, hfailed, hresults, fun h => h.unfailed true _ hfailed⟩

end NycPropertyResolver
