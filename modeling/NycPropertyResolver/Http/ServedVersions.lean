import NycPropertyResolver.Http.Server
import NycPropertyResolver.Identity.RaceFreedom

/-!
# HTTP — versions that are served

A property only ages (`Later`): it stays, no column of its row but the version changes, the version does
not fall, and the BINs are the same while the version is.  What a handler has read therefore remains
true of the property with its own version (`Sighting.Stands`), through the second statement of the read,
and so does the body that is served (`Served`).
-/

namespace NycPropertyResolver

open Library

variable {Row ι C : Type}

/-! ### How a property ages -/

/-- Another row of a property, later: with the same columns, and a version at least as high. -/
structure Property.Ages (x x' : Property) : Prop where
  columns : { x' with identifierVersion := x.identifierVersion } = x
  version : x.identifierVersion ≤ x'.identifierVersion

/-- A property later, with its BINs. -/
structure Later (x : Property) (bins : SortedSet CanonicalBin) (x' : Property)
    (bins' : SortedSet CanonicalBin) : Prop where
  ages : x.Ages x'
  bins_eq : x'.identifierVersion = x.identifierVersion → bins' = bins

/-- Every property is there later. -/
def Db.Advances (db db' : Db Row) : Prop :=
  ∀ p x, db.properties.find p = some x →
    ∃ x', db'.properties.find p = some x' ∧ Later x (db.propertyBins p) x' (db'.propertyBins p)

section Ages

variable {x x' x'' : Property} {bins bins' bins'' : SortedSet CanonicalBin} {db db' db'' : Db Row}

theorem Property.Ages.refl (x : Property) : x.Ages x := ⟨rfl, le_refl _⟩

theorem Property.Ages.trans (h : x.Ages x') (h' : x'.Ages x'') : x.Ages x'' where
  columns := by
    rw [← h.columns, ← h'.columns]
  version := h.version.trans h'.version

theorem Later.refl (x : Property) (bins : SortedSet CanonicalBin) : Later x bins x bins :=
  ⟨.refl x, fun _ => rfl⟩

theorem Later.trans (h : Later x bins x' bins') (h' : Later x' bins' x'' bins'') :
    Later x bins x'' bins'' where
  ages := h.ages.trans h'.ages
  bins_eq heq := by
    -- the version in between is the same
    have hle := h.ages.version
    have hle' := h'.ages.version
    rw [h'.bins_eq (by omega), h.bins_eq (by omega)]

theorem Db.Advances.refl (db : Db Row) : db.Advances db := fun _ x hx => ⟨x, hx, .refl _ _⟩

theorem Db.Advances.trans (h : db.Advances db') (h' : db'.Advances db'') : db.Advances db'' := by
  intro p x hx
  obtain ⟨x', hx', hlater⟩ := h p x hx
  obtain ⟨x'', hx'', hlater'⟩ := h' p x' hx'
  exact ⟨x'', hx'', hlater.trans hlater'⟩

theorem Db.Advances.of_same (h : db'.properties = db.properties)
    (hbins : db'.propertyBins = db.propertyBins) : db.Advances db' := by
  intro p x hx
  rw [h, hbins]
  exact ⟨x, hx, .refl _ _⟩

theorem advances_createProperty {p : PropertyId} {input : CreatePropertyInput} {now : Time}
    (h : db.createProperty p input now = .ok db') : db.Advances db' := by
  obtain ⟨_, _, -, -, -, -, hnew, rfl⟩ := Db.createProperty_eq_ok h
  intro q x hx
  have hne : q ≠ p := by
    rintro rfl
    rw [hnew] at hx
    cases hx
  refine ⟨x, (Table.find_set_ne hne).trans hx, .refl x, fun _ => ?_⟩
  exact Function.update_of_ne hne ..

theorem advances_applyEffectiveBinSet {p : PropertyId} {candidateBins : List String}
    {r : ApplyEffectiveBinSetResult} (h : db.applyEffectiveBinSet p candidateBins = .ok (db', r)) :
    db.Advances db' := by
  obtain ⟨-, ⟨-, rfl, -⟩ | ⟨-, -, rfl⟩⟩ := Db.applyEffectiveBinSet_eq_ok h
  · exact .refl _
  intro q x hx
  by_cases hq : q = p
  · subst hq
    refine ⟨{ x with identifierVersion := x.identifierVersion + 1 }, ?_, ⟨rfl, Nat.le_succ _⟩, ?_⟩
    · exact Table.find_modify_self.trans (by rw [hx]; rfl)
    · exact fun heq => absurd heq (Nat.succ_ne_self _)
  · refine ⟨x, (Table.find_modify_ne hq).trans hx, .refl x, fun _ => ?_⟩
    exact Function.update_of_ne hq ..

end Ages

/-! ### What an event does to the properties -/

/-- Nothing, the creation of a property with the given id, or a change of BINs. -/
inductive PropertyWrite (db : Db Row) : Option PropertyId → Db Row → Prop where
  | same {db' : Db Row} (h : db'.properties = db.properties)
      (hbins : db'.propertyBins = db.propertyBins) : PropertyWrite db none db'
  | created {p : PropertyId} {input : CreatePropertyInput} {now : Time} {db' : Db Row}
      (h : db.createProperty p input now = .ok db') : PropertyWrite db (some p) db'
  | applied {p : PropertyId} {candidateBins : List String} {r : ApplyEffectiveBinSetResult}
      {db' : Db Row} (h : db.applyEffectiveBinSet p candidateBins = .ok (db', r)) :
      PropertyWrite db none db'

namespace PropertyWrite

variable {db db' : Db Row} {new : Option PropertyId}

theorem advances (h : PropertyWrite db new db') : db.Advances db' := by
  cases h with
  | same h hbins => exact .of_same h hbins
  | created h => exact advances_createProperty h
  | applied h => exact advances_applyEffectiveBinSet h

/-- A property that is there afterwards was there before, or is the new one. -/
theorem find_ne_none (h : PropertyWrite db new db') {p : PropertyId}
    (hp : db'.properties.find p ≠ none) : db.properties.find p ≠ none ∨ new = some p := by
  cases h with
  | same h => exact .inl (h ▸ hp)
  | @created q _ _ _ h =>
      obtain ⟨_, _, -, -, -, -, -, rfl⟩ := Db.createProperty_eq_ok h
      by_cases hq : p = q
      · exact .inr (by rw [hq])
      · exact .inl (Table.find_set_ne hq ▸ hp)
  | @applied q _ _ _ h =>
      obtain ⟨-, ⟨-, rfl, -⟩ | ⟨-, -, rfl⟩⟩ := Db.applyEffectiveBinSet_eq_ok h
      · exact .inl hp
      · refine .inl fun hnone => hp ?_
        change (db.properties.modify q _).find p = none
        rw [Table.find_modify, hnone]
        split
        · rfl
        · rfl

theorem of_registrar {nativeUpsert : Bool} {s s' : Registrar} {freshId : PropertyId} {now : Time}
    (h : s.step nativeUpsert db freshId now = some (db', s')) :
    PropertyWrite db none db' ∨ PropertyWrite db (some freshId) db' := by
  cases step_turn h with
  | created _ _ hc => exact .inr (.created hc)
  | applied _ _ ha => exact .inl (.applied ha)
  | stored => exact .inl (.same persistResolutionInput_properties.1 persistResolutionInput_properties.2.1)
  | _ => exact .inl (.same rfl rfl)

theorem of_next {config : ExecutorConfig} {service : EcbRowService Row} {s s' : SystemState Row}
    {ev : Event Row} (h : next config service s ev = some s') :
    PropertyWrite s.db none s'.db ∨
      ∃ p input now, ev = .createProperty p input now ∧ PropertyWrite s.db (some p) s'.db := by
  cases next_turn h with
  | stepped heffect =>
      obtain ⟨hproperties, hbins, -⟩ := write_snapshot heffect.write
      exact .inl (.same hproperties hbins)
  | created hp => exact .inr ⟨_, _, _, rfl, .created hp⟩
  | applied hp => exact .inl (.applied hp)
  | acquired => exact .inl (.same rfl rfl)
  | crashed => exact .inl (.same rfl rfl)

end PropertyWrite

/-! ### What was read -/

section Read

variable {db db' : Db Row} {seen : Sighting}

/-- A read is of a property that is there, and is exact while the property has the version read. -/
def Sighting.Stands (db : Db Row) (seen : Sighting) : Prop :=
  ∃ x, db.properties.find seen.id = some x ∧
    Later seen.property (seen.bins.getD (db.propertyBins seen.id)) x (db.propertyBins seen.id)

theorem Sighting.Stands.advances (h : seen.Stands db) (hdb : db.Advances db') : seen.Stands db' := by
  obtain ⟨x, hx, hlater⟩ := h
  obtain ⟨x', hx', hlater'⟩ := hdb _ x hx
  refine ⟨x', hx', hlater.ages.trans hlater'.ages, ?_⟩
  cases hbins : seen.bins with
  | none => exact fun _ => rfl
  | some bins =>
      rw [hbins] at hlater
      exact (hlater.trans hlater').bins_eq

theorem Sighting.Stands.complete (h : seen.Stands db) : (seen.complete db).Stands db := by
  obtain ⟨x, hx, hlater⟩ := h
  exact ⟨x, hx, hlater.ages, fun _ => rfl⟩

theorem stands_of_sightRow {p : PropertyId} (h : db.sightRow p = some seen) : seen.Stands db := by
  obtain ⟨x, hx, rfl⟩ := Option.map_eq_some_iff.mp h
  exact ⟨x, hx, .refl x _⟩

theorem stands_of_sightWhole {p : PropertyId} (h : db.sightWhole p = some seen) : seen.Stands db := by
  obtain ⟨x, hx, rfl⟩ := Option.map_eq_some_iff.mp h
  exact ⟨x, hx, .refl x _⟩

/-- What a registration has seen stands after its statement. -/
theorem stands_of_sighted {before after : Registrar} {kept : Option Sighting} (hdb : db.Advances db')
    (hkept : ∀ seen ∈ kept, seen.Stands db) (h : sighted db db' before after kept = some seen) :
    seen.Stands db' := by
  rw [sighted] at h
  split at h
  · exact (stands_of_sightRow h).advances hdb
  · exact (stands_of_sightRow h).advances hdb
  · exact (stands_of_sightRow h).advances hdb
  · exact stands_of_sightWhole h
  · exact stands_of_sightWhole h
  · exact stands_of_sightWhole h
  · exact (hkept seen h).advances hdb

end Read

/-! ### What is served -/

/-- What a property is served as now. -/
def Db.currentBody (db : Db Row) (p : PropertyId) : Option StoredPropertyResponse :=
  (db.loadPropertyWithRelations p).map serializeStoredProperty

/-- A later body of the same property: it has the same columns and a version at least as high, and it is
the same body while the version is. -/
structure StoredPropertyResponse.Precedes (body body' : StoredPropertyResponse) : Prop where
  columns : { body' with identifierVersion := body.identifierVersion, bins := body.bins } = body
  version : body.identifierVersion ≤ body'.identifierVersion
  exact : body'.identifierVersion = body.identifierVersion → body' = body

/-- The property of a body that was served is still there, and the body precedes its current one. -/
def Served (db : Db Row) (body : StoredPropertyResponse) : Prop :=
  ∃ p < 2 ^ 128, ∃ current, db.currentBody p = some current ∧ body.Precedes current

section Bodies

variable {db db' : Db Row} {body body' body'' : StoredPropertyResponse} {p : PropertyId}

theorem StoredPropertyResponse.Precedes.trans (h : body.Precedes body') (h' : body'.Precedes body'') :
    body.Precedes body'' where
  columns := by
    rw [← h.columns, ← h'.columns]
  version := h.version.trans h'.version
  exact heq := by
    have hle := h.version
    have hle' := h'.version
    rw [h'.exact (by omega), h.exact (by omega)]

/-- A property later is served as a later body. -/
theorem Later.precedes {x x' : Property} {bins bins' : SortedSet CanonicalBin}
    {coverage coverage' : Option PropertyDatasetCoverage} (h : Later x bins x' bins') :
    (serializeStoredProperty ⟨p, x, bins, coverage⟩).Precedes
      (serializeStoredProperty ⟨p, x', bins', coverage'⟩) where
  columns := by
    rw [← h.ages.columns]
    rfl
  version := h.ages.version
  exact heq := by
    have hsame : x' = x := by
      rw [← h.ages.columns, ← show x'.identifierVersion = x.identifierVersion from heq]
    rw [h.bins_eq heq, hsame]
    rfl

theorem currentBody_of_find {x : Property} (hx : db.properties.find p = some x) :
    db.currentBody p =
      some (serializeStoredProperty ⟨p, x, db.propertyBins p, db.coverage p⟩) := by
  simp only [Db.currentBody, Db.loadPropertyWithRelations, hx, Option.map_some]

theorem Served.advances (h : Served db body) (hdb : db.Advances db') : Served db' body := by
  obtain ⟨p, hp, current, hcurrent, hprecedes⟩ := h
  obtain ⟨view, hview, rfl⟩ := Option.map_eq_some_iff.mp hcurrent
  obtain ⟨x, hx, rfl⟩ := Option.map_eq_some_iff.mp hview
  obtain ⟨x', hx', hlater⟩ := hdb p x hx
  exact ⟨p, hp, _, currentBody_of_find hx', hprecedes.trans hlater.precedes⟩

/-- What was read is served as a body of the property. -/
theorem Sighting.Stands.served {seen : Sighting} {bins : SortedSet CanonicalBin} (h : seen.Stands db)
    (hid : seen.id < 2 ^ 128) (hbins : seen.bins = some bins) :
    Served db (serializeStoredProperty ⟨seen.id, seen.property, bins, none⟩) := by
  obtain ⟨x, hx, hlater⟩ := h
  rw [hbins] at hlater
  exact ⟨seen.id, hid, _, currentBody_of_find hx, hlater.precedes⟩

end Bodies

/-- What holds of a request between its statements. -/
def ExchangeOk (db : Db Row) : Exchange → Prop
  | .registering _ seen => ∀ sighting ∈ seen, sighting.Stands db
  | .reading seen => seen.Stands db
  | .answered response => ∀ status body, response = ⟨status, .property body⟩ → Served db body
  | _ => True

/-- The ids of the properties are UUIDs. -/
def UuidIds (db : Db Row) : Prop := ∀ p, db.properties.find p ≠ none → p < 2 ^ 128

/-- Every property has a UUID, and what a request in progress has seen precedes what is stored. -/
structure ServerInvariant (s : ServerState Row ι) : Prop where
  ids : UuidIds s.db
  exchanges : ∀ i, ExchangeOk s.db (s.exchanges i)

section Invariant

variable {db db' : Db Row} {exchange exchange' : Exchange} {seen : Sighting}

theorem ExchangeOk.advances (h : ExchangeOk db exchange) (hdb : db.Advances db') :
    ExchangeOk db' exchange := by
  cases exchange with
  | registering registrar kept => exact fun seen hseen => (h seen hseen).advances hdb
  | reading seen => exact Sighting.Stands.advances h hdb
  | answered response =>
      exact fun status body hbody => (h status body hbody).advances hdb
  | _ => trivial

theorem Sighting.Stands.id_lt (h : seen.Stands db) (hids : UuidIds db) : seen.id < 2 ^ 128 := by
  obtain ⟨x, hx, -⟩ := h
  exact hids _ (by rw [hx]; exact Option.some_ne_none x)

/-- The answer with what was read. -/
theorem served_of_response (hids : UuidIds db) (h : seen.Stands db) {status : Nat}
    {body : StoredPropertyResponse} (hbody : seen.response = ⟨status, .property body⟩) :
    Served db body := by
  cases hbins : seen.bins with
  | none =>
      rw [Sighting.response, hbins] at hbody
      cases hbody
  | some bins =>
      rw [Sighting.response, hbins] at hbody
      have hserved := HttpBody.property.inj (HttpResponse.mk.inj hbody).2
      exact hserved ▸ h.served (h.id_lt hids) hbins

/-- An error is no property. -/
theorem exchangeOk_error (db : Db Row) (e : IdentityError) :
    ExchangeOk db (.answered (handleRouteError e)) := by
  intro status body hbody
  cases e with
  | _ => cases hbody

theorem exchangeOk_internalServerError (db : Db Row) :
    ExchangeOk db (.answered internalServerError) := by
  rintro status body ⟨⟩

theorem exchangeOk_queryError (db : Db Row) (e : QueryError) :
    ExchangeOk db (.answered (handleQueryError e)) := by
  intro status body hbody
  cases e with
  | _ => cases hbody

theorem exchangeOk_violationsResponse [LinearOrder C] {platform : Platform} {collation : SourceId ↪ C}
    {propertyId : PropertyId} {query : RawQuery} :
    ExchangeOk db (.answered (violationsResponse platform collation db propertyId query)) := by
  intro status body hbody
  rw [violationsResponse] at hbody
  split at hbody
  · cases hbody
  · exact exchangeOk_queryError db _ status body hbody

theorem exchangeOk_thrownQueryResponse {platform : Platform} {query : RawQuery} :
    ExchangeOk db (.answered (thrownQueryResponse platform query)) := by
  rw [thrownQueryResponse]
  split
  · exact exchangeOk_internalServerError db
  · exact exchangeOk_queryError db _

theorem exchangeOk_orThrow {throws : Bool} (h : ExchangeOk db exchange) :
    ExchangeOk db (orThrow throws exchange) := by
  unfold orThrow
  split
  · exact exchangeOk_internalServerError db
  · exact h

theorem exchangeOk_readById {throws : Bool} {id : String} {found : Sighting → Exchange}
    (hfound : ∀ seen : Sighting, seen.Stands db → ExchangeOk db (found seen)) :
    ExchangeOk db (readById throws db id found) := by
  rw [readById]
  split
  · exact exchangeOk_error db _
  · refine exchangeOk_orThrow ?_
    split
    · intro status body hbody
      cases hbody
    · exact hfound _ (stands_of_sightRow ‹_›)

theorem exchangeOk_receivePost (db : Db Row) (body : Option JsonValue) (sources : RegistrationSources) :
    ExchangeOk db (receivePost body sources) := by
  rw [receivePost]
  split
  · exact exchangeOk_error db _
  · exact fun seen hseen => nomatch hseen

/-- **A statement of a registration.** -/
theorem stepRegistering_ok {nativeUpsert throws : Bool} {registrar : Registrar} {kept : Option Sighting}
    {freshId : PropertyId} {now : Time} (hids : UuidIds db)
    (hkept : ∀ sighting ∈ kept, sighting.Stands db)
    (h : stepRegistering nativeUpsert throws db registrar kept freshId now = some (db', exchange')) :
    (PropertyWrite db none db' ∨ PropertyWrite db (some freshId) db') ∧ ExchangeOk db' exchange' := by
  rw [stepRegistering] at h
  split at h
  · cases h
    refine ⟨.inl (.same rfl rfl), fun status body hbody => ?_⟩
    cases kept with
    | none => cases hbody
    | some seen => exact served_of_response hids (hkept seen rfl) hbody
  · cases h
    exact ⟨.inl (.same rfl rfl), exchangeOk_error db _⟩
  · cases h
    exact ⟨.inl (.same rfl rfl), exchangeOk_error db _⟩
  · obtain ⟨⟨db₁, registrar'⟩, hstep, hr⟩ := Option.map_eq_some_iff.mp h
    split at hr
    · cases hr
      exact ⟨.inl (.same rfl rfl), exchangeOk_internalServerError db⟩
    cases hr
    have hwrite := PropertyWrite.of_registrar hstep
    have hdb : db.Advances db₁ := hwrite.elim (·.advances) (·.advances)
    exact ⟨hwrite, fun seen hseen => stands_of_sighted hdb hkept hseen⟩

variable [LinearOrder C] {platform : Platform} {collation : SourceId ↪ C} {nativeUpsert throws : Bool}
  {freshId : PropertyId} {now : Time}

/-- **A statement of a handler** writes the properties as a registration does, and what it has read or
answered stands. -/
theorem stepExchange_ok (hids : UuidIds db) (hok : ExchangeOk db exchange)
    (h : stepExchange platform collation nativeUpsert throws db freshId now exchange =
      some (db', exchange')) :
    (PropertyWrite db none db' ∨ PropertyWrite db (some freshId) db') ∧ ExchangeOk db' exchange' := by
  have hsame : PropertyWrite db none db ∨ PropertyWrite db (some freshId) db := .inl (.same rfl rfl)
  cases exchange with
  | idle => cases h
  | received request =>
      cases request with
      | postProperty body sources =>
          cases h
          exact ⟨hsame, exchangeOk_receivePost db body sources⟩
      | getProperty id =>
          cases h
          exact ⟨hsame, exchangeOk_readById fun _ hseen => hseen⟩
      | getViolations id query =>
          cases h
          exact ⟨hsame, exchangeOk_readById fun _ _ => trivial⟩
  | registering registrar kept =>
      cases kept with
      | none => exact stepRegistering_ok hids hok h
      | some seen =>
          simp only [stepExchange] at h
          split at h
          · cases h
            refine ⟨hsame, exchangeOk_orThrow fun sighting hsighting => ?_⟩
            cases hsighting
            exact (hok seen rfl).complete
          · exact stepRegistering_ok hids hok h
  | reading seen =>
      cases h
      exact ⟨hsame, exchangeOk_orThrow fun status body hbody =>
        served_of_response hids (Sighting.Stands.complete hok) hbody⟩
  | querying propertyId query =>
      cases h
      refine ⟨hsame, ?_⟩
      split
      · exact exchangeOk_thrownQueryResponse
      · exact exchangeOk_violationsResponse
  | answered response => cases h

variable [DecidableEq ι] {config : ExecutorConfig} {service : EcbRowService Row}
  {s t : ServerState Row ι}

/-- **One event** ages the properties. -/
theorem serverNext_ok {ev : ServerEvent Row ι} (hI : ServerInvariant s) (hok : UuidEvent ev)
    (h : serverNext platform collation nativeUpsert config service s ev = some t) :
    ServerInvariant t ∧ s.db.Advances t.db := by
  have hkeep : ∀ {new : Option PropertyId}, PropertyWrite s.db new t.db → (∀ p ∈ new, p < 2 ^ 128) →
      UuidIds t.db ∧ s.db.Advances t.db := by
    intro new hwrite hnew
    refine ⟨fun p hp => ?_, hwrite.advances⟩
    rcases hwrite.find_ne_none hp with hold | hp
    · exact hI.ids p hold
    · exact hnew p hp
  cases ev with
  | system ev =>
      obtain ⟨system, hsystem, rfl⟩ := Option.map_eq_some_iff.mp h
      obtain ⟨hids, hdb⟩ : UuidIds system.db ∧ s.db.Advances system.db := by
        rcases PropertyWrite.of_next hsystem with hwrite | ⟨p, input, now, rfl, hwrite⟩
        · exact hkeep hwrite (fun _ hp => nomatch hp)
        · refine hkeep hwrite fun q hq => ?_
          cases hq
          exact hok
      exact ⟨⟨hids, fun i => (hI.exchanges i).advances hdb⟩, hdb⟩
  | storeInput r propertyId now =>
      simp only [serverNext] at h
      split at h
      · cases h
      cases h
      obtain ⟨hids, hdb⟩ := hkeep (.same persistResolutionInput_properties.1
        persistResolutionInput_properties.2.1) (fun _ hp => nomatch hp)
      exact ⟨⟨hids, fun i => (hI.exchanges i).advances hdb⟩, hdb⟩
  | receive i request =>
      simp only [serverNext] at h
      split at h
      · cases h
        refine ⟨⟨hI.ids, fun j => ?_⟩, .refl _⟩
        by_cases hj : j = i
        · subst hj
          simp only [Function.update_self]
          trivial
        · simp only [Function.update_of_ne hj]
          exact hI.exchanges j
      · cases h
  | limit i =>
      simp only [serverNext] at h
      split at h
      · cases h
        refine ⟨⟨hI.ids, fun j => ?_⟩, .refl _⟩
        by_cases hj : j = i
        · subst hj
          simp only [Function.update_self]
          rintro status body ⟨⟩
        · simp only [Function.update_of_ne hj]
          exact hI.exchanges j
      · cases h
  | step i throws freshId now =>
      obtain ⟨⟨db', exchange'⟩, hstep, rfl⟩ := Option.map_eq_some_iff.mp h
      obtain ⟨hwrite, hexchange⟩ := stepExchange_ok hI.ids (hI.exchanges i) hstep
      obtain ⟨hids, hdb⟩ := hwrite.elim (fun hwrite => hkeep hwrite (fun _ hp => nomatch hp))
        (fun hwrite => hkeep hwrite fun p hp => by cases hp; exact hok)
      refine ⟨⟨hids, fun j => ?_⟩, hdb⟩
      by_cases hj : j = i
      · subst hj
        simp only [Function.update_self]
        exact hexchange
      · simp only [Function.update_of_ne hj]
        exact (hI.exchanges j).advances hdb

end Invariant

end NycPropertyResolver
