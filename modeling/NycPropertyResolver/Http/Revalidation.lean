import NycPropertyResolver.Http.ServedVersions
import NycPropertyResolver.Query.Traversal

/-!
# HTTP — revalidation

A client holds a body and reads the property again.  The read answers with the same columns and a
version at least as high, and where the version is the same the body that the client holds was exact
when the read began (`identifier_version_validates`), although a body is of two statements.  Its
violations are those of one snapshot, and the property is never answered as not found again.  A read is
refused only where a statement of it throws or the rate limiter stops it.
-/

namespace NycPropertyResolver

open Library

variable {Row ι C : Type}

/-! ### The errors of a query -/

/-- Every error answers otherwise than a property that is not found. -/
def FindsProperty {α : Type} (result : Except QueryError α) : Prop :=
  ∀ e, result = .error e → (handleQueryError e).status ≠ 404

namespace FindsProperty

variable {α β : Type}

theorem ok (a : α) : FindsProperty (.ok a) := fun _ h => nomatch h

theorem validation (message : String) :
    FindsProperty (.error (cursorValidationError message) : Except QueryError α) := by
  rintro _ ⟨⟩
  simp [cursorValidationError, handleQueryError]

theorem zod (messages : List String) :
    FindsProperty (.error (.zod messages) : Except QueryError α) := by
  rintro _ ⟨⟩
  simp [handleQueryError, internalServerError]

theorem database (message : String) :
    FindsProperty (.error (.database message) : Except QueryError α) := by
  rintro _ ⟨⟩
  simp [handleQueryError, internalServerError]

theorem bind {x : Except QueryError α} {f : α → Except QueryError β} (hx : FindsProperty x)
    (hf : ∀ a, FindsProperty (f a)) : FindsProperty (x >>= f) := by
  cases x with
  | error e => exact fun e' h => hx e' (by cases h; rfl)
  | ok a => exact hf a

theorem map {x : Except QueryError α} {f : α → β} (hx : FindsProperty x) :
    FindsProperty (x.map f) := by
  cases x with
  | error e => exact fun e' h => hx e' (by cases h; rfl)
  | ok a => exact ok _

theorem decode {platform : Platform} {parse : JsonValue → Option α} {encoded : String} :
    FindsProperty (decodeCursor platform parse encoded) := by
  rw [decodeCursor]
  split
  · simp only
    split
    · split
      · exact ok _
      · exact validation _
    · exact validation _
  · exact validation _

theorem encode {issues : List String} {fields : List (String × Option String)} :
    FindsProperty (encodeCursor issues fields) := by
  rw [encodeCursor]
  split
  · exact ok _
  · exact zod _

theorem query {platform : Platform} {raw : RawQuery} :
    FindsProperty (parsePropertyViolationsQuery platform raw) := by
  simp only [parsePropertyViolationsQuery]
  refine bind ?_ fun cursor => ?_
  · unfold decodeOptional
    split
    · exact ok _
    · exact map decode
  · split
    · exact ok _
    · exact validation _

variable [LinearOrder C] {platform : Platform} {collation : SourceId ↪ C} {db : Db Row}

theorem page {propertyId : PropertyId} {query : PropertyViolationsQuery} :
    FindsProperty (findPropertyPage platform collation db propertyId query) := by
  refine bind ?_ fun predicate => ok _
  rw [buildCursorPredicate]
  split
  · exact ok _
  · rw [issueDateCursorPredicate]
    split
    · exact ok _
    · split
      · exact database _
      · exact ok _

theorem next {found : ViolationsPage} {encoded : EcbViolation → Except QueryError String}
    (h : ∀ row, FindsProperty (encoded row)) : FindsProperty (nextCursor found encoded) := by
  rw [nextCursor]
  split
  · exact map (h _)
  · exact ok _

/-- **A query never misses the property**: it fails for other reasons. -/
theorem violations {propertyId : PropertyId} {raw : RawQuery} :
    (violationsResponse platform collation db propertyId raw).status ≠ 404 := by
  have hquery : FindsProperty (queryPropertyViolations platform collation db propertyId raw) :=
    bind query fun _ => bind page fun _ => bind (next fun _ => encode) fun _ => ok _
  rw [violationsResponse]
  split
  · simp
  · exact hquery _ ‹_›

end FindsProperty

/-! ### A request on its way -/

/-- A request is answered as it should be, or with a refusal, where it may have been refused. -/
def AnsweredOrRefused (refused : Prop) (answer : HttpResponse → Prop) (response : HttpResponse) : Prop :=
  refused ∧ response.IsRefusal ∨ answer response

/-- The answer to a read by id of a property that was there as `x`. -/
def FoundAgain (p : PropertyId) (x : Property) (response : HttpResponse) : Prop :=
  ∃ property bins, x.Ages property ∧
    response = ⟨200, .property (serializeStoredProperty ⟨p, property, bins, none⟩)⟩

/-- A read by id of a property that was there as `x`, and how far it has come. -/
def ReadsProperty (p : PropertyId) (x : Property) (refused : Prop) : Exchange → Prop
  | .received request => request = .getProperty (uuidText p)
  | .reading seen => seen.id = p ∧ x.Ages seen.property
  | .answered response => AnsweredOrRefused refused (FoundAgain p x) response
  | _ => False

/-- A query for the violations of a property, and how far it has come. -/
def ReadsViolations (p : PropertyId) (query : RawQuery) (refused : Prop)
    (answer : HttpResponse → Prop) : Exchange → Prop
  | .received request => request = .getViolations (uuidText p) query
  | .querying propertyId query' => propertyId = p ∧ query' = query
  | .answered response => AnsweredOrRefused refused answer response
  | _ => False

theorem ReadsProperty.ne_idle {p : PropertyId} {x : Property} {refused : Prop} {exchange : Exchange}
    (h : ReadsProperty p x refused exchange) : exchange ≠ .idle := by
  rintro rfl
  exact h

theorem ReadsViolations.ne_idle {p : PropertyId} {query : RawQuery} {refused : Prop}
    {answer : HttpResponse → Prop} {exchange : Exchange}
    (h : ReadsViolations p query refused answer exchange) : exchange ≠ .idle := by
  rintro rfl
  exact h

section Exchanges

variable {db db' : Db Row} {exchange exchange' : Exchange} {p : PropertyId} {x x' : Property}
  {refused : Prop} {answer : HttpResponse → Prop} [LinearOrder C] {platform : Platform}
  {collation : SourceId ↪ C} {nativeUpsert throws : Bool} {freshId : PropertyId} {now : Time}

theorem answered_internalServerError (hr : refused) :
    AnsweredOrRefused refused answer internalServerError := .inl ⟨hr, .inl rfl⟩

theorem answered_tooManyRequests (hr : refused) :
    AnsweredOrRefused refused answer tooManyRequests := .inl ⟨hr, .inr rfl⟩

/-- A property that is there is found under the text of its id. -/
theorem readById_uuidText {found : Sighting → Exchange} (hp : p < 2 ^ 128)
    (hx : db.properties.find p = some x) :
    readById throws db (uuidText p) found = orThrow throws (found ⟨p, x, none⟩) := by
  simp only [readById, parsePropertyIdParam, parseUuid_uuidText hp, Db.sightRow, hx, Option.map_some]

/-- **A statement of a read by id** reads the property as it is. -/
theorem readsProperty_step (hp : p < 2 ^ 128) (hx : db.properties.find p = some x') (hages : x.Ages x')
    (h : ReadsProperty p x refused exchange) (hthrows : throws = true → refused)
    (hstep : stepExchange platform collation nativeUpsert throws db freshId now exchange =
      some (db', exchange')) : ReadsProperty p x refused exchange' := by
  cases exchange with
  | received request =>
      cases h
      obtain ⟨-, rfl⟩ := Prod.mk.inj (Option.some.inj hstep)
      rw [readById_uuidText hp hx]
      cases throws with
      | true => exact answered_internalServerError (hthrows rfl)
      | false => exact ⟨rfl, hages⟩
  | reading seen =>
      obtain ⟨rfl, hseen⟩ := h
      obtain ⟨-, rfl⟩ := Prod.mk.inj (Option.some.inj hstep)
      cases throws with
      | true => exact answered_internalServerError (hthrows rfl)
      | false => exact .inr ⟨seen.property, _, hseen, rfl⟩
  | answered response => cases hstep
  | idle => exact h.elim
  | registering registrar seen => exact h.elim
  | querying propertyId query => exact h.elim

/-- Where the parameters of a query are refused no statement is sent. -/
theorem thrownQueryResponse_eq (db : Db Row) (p : PropertyId) (query : RawQuery) :
    thrownQueryResponse platform query = internalServerError ∨
      thrownQueryResponse platform query = violationsResponse platform collation db p query := by
  rw [thrownQueryResponse, violationsResponse, queryPropertyViolations]
  cases parsePropertyViolationsQuery platform query with
  | ok parsed => exact .inl rfl
  | error e => exact .inr rfl

/-- **A statement of a query** reads one snapshot. -/
theorem readsViolations_step {query : RawQuery} (hp : p < 2 ^ 128)
    (hx : db.properties.find p = some x') (h : ReadsViolations p query refused answer exchange)
    (hthrows : throws = true → refused)
    (hanswer : answer (violationsResponse platform collation db p query))
    (hstep : stepExchange platform collation nativeUpsert throws db freshId now exchange =
      some (db', exchange')) : ReadsViolations p query refused answer exchange' := by
  cases exchange with
  | received request =>
      cases h
      obtain ⟨-, rfl⟩ := Prod.mk.inj (Option.some.inj hstep)
      rw [readById_uuidText hp hx]
      cases throws with
      | true => exact answered_internalServerError (hthrows rfl)
      | false => exact ⟨rfl, rfl⟩
  | querying propertyId query' =>
      obtain ⟨rfl, rfl⟩ := h
      obtain ⟨-, rfl⟩ := Prod.mk.inj (Option.some.inj hstep)
      cases throws with
      | true =>
          -- a query that is refused for its parameters sends no statement
          have heq : thrownQueryResponse platform query' = internalServerError ∨
              thrownQueryResponse platform query' =
                violationsResponse platform collation db propertyId query' :=
            thrownQueryResponse_eq db propertyId query'
          rcases heq with heq | heq
          · exact heq ▸ answered_internalServerError (hthrows rfl)
          · exact .inr (heq ▸ hanswer)
      | false => exact .inr hanswer
  | answered response => cases hstep
  | idle => exact h.elim
  | registering registrar seen => exact h.elim
  | reading seen => exact h.elim

end Exchanges

/-! ### Runs of the server -/

section Runs

variable [LinearOrder C] {platform : Platform} {collation : SourceId ↪ C} {nativeUpsert : Bool}
  [DecidableEq ι] {config : ExecutorConfig} {service : EcbRowService Row}
  {s t : ServerState Row ι}

/-- A run of the server whose new ids are UUIDs. -/
abbrev ServerRuns (platform : Platform) (collation : SourceId ↪ C) (nativeUpsert : Bool)
    (config : ExecutorConfig) (service : EcbRowService Row) (s t : ServerState Row ι) : Prop :=
  Steps (serverNext platform collation nativeUpsert config service) (fun _ ev => UuidEvent ev) s t

omit [DecidableEq ι] in
theorem serverInvariant_initial : ServerInvariant (.initial : ServerState Row ι) where
  ids := fun _ hp => absurd rfl hp
  exchanges := fun _ => trivial

/-- **The invariant of the server**, and how its properties age. -/
theorem serverRuns_ok (h : ServerRuns platform collation nativeUpsert config service s t)
    (hI : ServerInvariant s) : ServerInvariant t ∧ s.db.Advances t.db := by
  refine Steps.invariant (I := fun u => ServerInvariant u ∧ s.db.Advances u.db)
    (fun hu hok hnext => ?_) h ⟨hI, .refl _⟩
  obtain ⟨hI', hdb⟩ := serverNext_ok hu.1 hok hnext
  exact ⟨hI', hu.2.trans hdb⟩

/-- An event leaves a request that was received as it is, or stops it, or is its next statement. -/
theorem exchange_next {ev : ServerEvent Row ι} {j : ι}
    (h : serverNext platform collation nativeUpsert config service s ev = some t)
    (hj : s.exchanges j ≠ .idle) :
    t.exchanges j = s.exchanges j ∨
      (ev.Refuses j ∧ (∃ request, s.exchanges j = .received request) ∧
        t.exchanges j = .answered tooManyRequests) ∨
      ∃ throws freshId now, (throws = true → ev.Refuses j) ∧
        stepExchange platform collation nativeUpsert throws s.db freshId now (s.exchanges j) =
          some (t.db, t.exchanges j) := by
  cases ev with
  | system ev =>
      obtain ⟨system, -, rfl⟩ := Option.map_eq_some_iff.mp h
      exact .inl rfl
  | storeInput r propertyId now =>
      simp only [serverNext] at h
      split at h
      · cases h
      · cases h
        exact .inl rfl
  | receive i request =>
      simp only [serverNext] at h
      split at h
      · rename_i hidle
        cases h
        refine .inl (Function.update_of_ne ?_ ..)
        rintro rfl
        exact hj hidle
      · cases h
  | limit i =>
      simp only [serverNext] at h
      split at h
      · rename_i request hreceived
        cases h
        by_cases hi : j = i
        · subst hi
          exact .inr (.inl ⟨rfl, ⟨request, hreceived⟩, Function.update_self ..⟩)
        · exact .inl (Function.update_of_ne hi ..)
      · cases h
  | step i throws freshId now =>
      obtain ⟨⟨db', exchange'⟩, hstep, rfl⟩ := Option.map_eq_some_iff.mp h
      by_cases hi : j = i
      · subst hi
        refine .inr (.inr ⟨throws, freshId, now, ?_, ?_⟩)
        · rintro rfl
          rfl
        · simp only [Function.update_self]
          exact hstep
      · exact .inl (Function.update_of_ne hi ..)

/-- A run of the server in which a request is refused only if `refused` holds. -/
abbrev ServerRunsFor (platform : Platform) (collation : SourceId ↪ C) (nativeUpsert : Bool)
    (config : ExecutorConfig) (service : EcbRowService Row) (j : ι) (refused : Prop)
    (s t : ServerState Row ι) : Prop :=
  Steps (serverNext platform collation nativeUpsert config service)
    (fun _ ev => UuidEvent ev ∧ (ev.Refuses j → refused)) s t

theorem ServerRunsFor.runs {j : ι} {refused : Prop}
    (h : ServerRunsFor platform collation nativeUpsert config service j refused s t) :
    ServerRuns platform collation nativeUpsert config service s t :=
  h.mono fun _ _ hok => hok.1

/-- **A read by id over a run.** -/
theorem readsProperty_run {p : PropertyId} {x : Property} {j : ι} {refused : Prop}
    (hI : ServerInvariant s) (hx : s.db.properties.find p = some x)
    (hj : ReadsProperty p x refused (s.exchanges j))
    (h : ServerRunsFor platform collation nativeUpsert config service j refused s t) :
    ReadsProperty p x refused (t.exchanges j) := by
  have hp : p < 2 ^ 128 := hI.ids p (by rw [hx]; exact Option.some_ne_none x)
  refine (Steps.invariant (I := fun u => (ServerInvariant u ∧ s.db.Advances u.db) ∧
    ReadsProperty p x refused (u.exchanges j)) (fun {u v ev} hu hok hnext => ?_) h
    ⟨⟨hI, .refl _⟩, hj⟩).2
  obtain ⟨⟨hIu, hdb⟩, hread⟩ := hu
  obtain ⟨hIv, hdb'⟩ := serverNext_ok hIu hok.1 hnext
  refine ⟨⟨hIv, hdb.trans hdb'⟩, ?_⟩
  -- the event is another's, or refuses the request, or is its next statement
  rcases exchange_next hnext hread.ne_idle with
    heq | ⟨hrefuses, -, heq⟩ | ⟨throws, freshId, now, hthrows, hstep⟩
  · exact heq ▸ hread
  · rw [heq]
    exact answered_tooManyRequests (hok.2 hrefuses)
  · obtain ⟨x', hx', hlater⟩ := hdb p x hx
    exact readsProperty_step hp hx' hlater.ages hread (fun ht => hok.2 (hthrows ht)) hstep

/-- The response of a query, of a state between two others. -/
def AnsweredBetween (platform : Platform) (collation : SourceId ↪ C) (nativeUpsert : Bool)
    (config : ExecutorConfig) (service : EcbRowService Row) (p : PropertyId) (query : RawQuery)
    (s t : ServerState Row ι) (response : HttpResponse) : Prop :=
  ∃ w, ServerRuns platform collation nativeUpsert config service s w ∧
    ServerRuns platform collation nativeUpsert config service w t ∧
    response = violationsResponse platform collation w.db p query

theorem ReadsViolations.mono {p : PropertyId} {query : RawQuery} {refused : Prop}
    {answer answer' : HttpResponse → Prop} {exchange : Exchange}
    (h : ReadsViolations p query refused answer exchange)
    (hanswer : ∀ response, answer response → answer' response) :
    ReadsViolations p query refused answer' exchange := by
  cases exchange with
  | answered response => exact Or.imp_right (hanswer response) h
  | _ => exact h

/-- **A query over a run** is answered from one of its states. -/
theorem readsViolations_run {p : PropertyId} {x : Property} {query : RawQuery} {j : ι}
    {refused : Prop} (hI : ServerInvariant s) (hx : s.db.properties.find p = some x)
    (hj : s.exchanges j = .received (.getViolations (uuidText p) query))
    (h : ServerRunsFor platform collation nativeUpsert config service j refused s t) :
    ReadsViolations p query refused
      (AnsweredBetween platform collation nativeUpsert config service p query s t) (t.exchanges j) := by
  have hp : p < 2 ^ 128 := hI.ids p (by rw [hx]; exact Option.some_ne_none x)
  refine (Steps.invariant (I := fun u =>
    ServerRuns platform collation nativeUpsert config service s u ∧ ReadsViolations p query refused
      (AnsweredBetween platform collation nativeUpsert config service p query s u) (u.exchanges j))
    (fun {u v ev} hu hok hnext => ?_) h ⟨.refl, by rw [hj]; rfl⟩).2
  obtain ⟨hrun, hread⟩ := hu
  obtain ⟨-, hdb⟩ := serverRuns_ok hrun hI
  -- an answer that was given before the event is still one of a state in between
  have hlater := hread.mono fun response hresponse => by
    obtain ⟨w, hsw, hwu, heq⟩ := hresponse
    exact (⟨w, hsw, .tail hwu hok.1 hnext, heq⟩ : AnsweredBetween platform collation nativeUpsert
      config service p query s v response)
  refine ⟨.tail hrun hok.1 hnext, ?_⟩
  rcases exchange_next hnext hread.ne_idle with
    heq | ⟨hrefuses, -, heq⟩ | ⟨throws, freshId, now, hthrows, hstep⟩
  · exact heq ▸ hlater
  · rw [heq]
    exact answered_tooManyRequests (hok.2 hrefuses)
  · obtain ⟨x', hx', -⟩ := hdb p x hx
    exact readsViolations_step hp hx' hlater (fun ht => hok.2 (hthrows ht))
      ⟨u, hrun, .one hok.1 hnext, rfl⟩ hstep

/-- A request that may have been refused: every run between the two states has an event that refuses
it, a statement of its handler that throws or the rate limiter. -/
def MayRefuse (platform : Platform) (collation : SourceId ↪ C) (nativeUpsert : Bool)
    (config : ExecutorConfig) (service : EcbRowService Row) (j : ι) (s t : ServerState Row ι) : Prop :=
  ¬ ServerRunsFor platform collation nativeUpsert config service j False s t

/-- What holds of a request however it may be refused holds of it as it is. -/
theorem answered_of_runs {j : ι} {response : HttpResponse} {answer : HttpResponse → Prop}
    (h : ServerRuns platform collation nativeUpsert config service s t)
    (hall : ∀ refused, ServerRunsFor platform collation nativeUpsert config service j refused s t →
      AnsweredOrRefused refused answer response) :
    AnsweredOrRefused (MayRefuse platform collation nativeUpsert config service j s t) answer
      response := by
  by_cases hrefused : MayRefuse platform collation nativeUpsert config service j s t
  · exact (hall True (h.mono fun _ _ hok => ⟨hok, fun _ => trivial⟩)).imp_left fun hr =>
      ⟨hrefused, hr.2⟩
  · exact (hall False (not_not.mp hrefused)).imp_left fun hr => hr.1.elim

/-- **A version validates a body.**  Requests, executions and other processes go on in any order,
statements throw and the rate limiter refuses requests.  A property of which a body was served, to a
registration or a read, is found whenever it is read again and the read is not refused: the columns are
those of the body and the version is not lower.  Where the version is the same, the body was what the
property and its BINs were when that read was received, even if its two statements had a change between
them.  A query for the violations that is not refused is answered from one state of the database. -/
theorem identifier_version_validates {i : ι} {status : Nat} {body : StoredPropertyResponse}
    (hs : ServerRuns platform collation nativeUpsert config service .initial s)
    (hbody : s.exchanges i = .answered ⟨status, .property body⟩) :
    ∃ p, body.id = uuidText p ∧
      (∀ j t response, s.exchanges j = .received (.getProperty body.id) →
        ServerRuns platform collation nativeUpsert config service s t →
        t.exchanges j = .answered response →
        AnsweredOrRefused (MayRefuse platform collation nativeUpsert config service j s t)
          (fun response => ∃ body', response = ⟨200, .property body'⟩ ∧
            { body' with identifierVersion := body.identifierVersion, bins := body.bins } = body ∧
            body.identifierVersion ≤ body'.identifierVersion ∧
            (body'.identifierVersion = body.identifierVersion → s.db.currentBody p = some body))
          response) ∧
      ∀ j query t response, s.exchanges j = .received (.getViolations body.id query) →
        ServerRuns platform collation nativeUpsert config service s t →
        t.exchanges j = .answered response →
        AnsweredOrRefused (MayRefuse platform collation nativeUpsert config service j s t)
          (fun response => response.status ≠ 404 ∧
            AnsweredBetween platform collation nativeUpsert config service p query s t response)
          response := by
  obtain ⟨hI, -⟩ := serverRuns_ok hs serverInvariant_initial
  obtain ⟨p, -, current, hcurrent, hprecedes⟩ : Served s.db body := by
    have hok := hI.exchanges i
    rw [hbody] at hok
    exact hok status body rfl
  obtain ⟨view, hview, rfl⟩ := Option.map_eq_some_iff.mp hcurrent
  obtain ⟨x, hx, rfl⟩ := Option.map_eq_some_iff.mp hview
  have hid : body.id = uuidText p := by
    rw [← hprecedes.columns]
    rfl
  refine ⟨p, hid, fun j t response hj ht hanswer => answered_of_runs ht fun refused hrun => ?_,
    fun j query t response hj ht hanswer => answered_of_runs ht fun refused hrun => ?_⟩
  · have hread : ReadsProperty p x refused (t.exchanges j) :=
      readsProperty_run hI hx (by rw [hj, hid]; rfl) hrun
    rw [hanswer] at hread
    refine hread.imp_right ?_
    rintro ⟨property, bins, hages, rfl⟩
    refine ⟨_, rfl, ?_, hprecedes.version.trans hages.version, fun hversion => ?_⟩
    · -- the columns of both are those of the row
      rw [← hprecedes.columns, ← hages.columns]
      rfl
    · have hle : x.identifierVersion ≤ body.identifierVersion := hversion ▸ hages.version
      rw [hcurrent, hprecedes.exact (le_antisymm hle hprecedes.version)]
  · have hread : ReadsViolations p query refused
        (AnsweredBetween platform collation nativeUpsert config service p query s t)
        (t.exchanges j) :=
      readsViolations_run hI hx (by rw [hj, hid]) hrun
    rw [hanswer] at hread
    refine hread.imp_right ?_
    rintro ⟨w, hsw, hwt, rfl⟩
    exact ⟨FindsProperty.violations, w, hsw, hwt, rfl⟩

end Runs

/-! ### A change between two statements -/

/-- The body of a property that was served. -/
def Exchange.served : Exchange → Option StoredPropertyResponse
  | .answered ⟨_, .property body⟩ => some body
  | _ => none

/-- The id of a read that was received. -/
def Exchange.requested : Exchange → Option String
  | .received (.getProperty id) => some id
  | _ => none

theorem served_eq_some {exchange : Exchange} {body : StoredPropertyResponse}
    (h : exchange.served = some body) : ∃ status, exchange = .answered ⟨status, .property body⟩ := by
  unfold Exchange.served at h
  split at h
  · cases h
    exact ⟨_, rfl⟩
  · cases h

theorem requested_eq_some {exchange : Exchange} {id : String} (h : exchange.requested = some id) :
    exchange = .received (.getProperty id) := by
  unfold Exchange.requested at h
  split at h
  · cases h
    rfl
  · cases h

open ViolationsListing in
/-- A server of a small configuration. -/
abbrev sampleNext : ServerState NormalizedEcbViolation Nat →
    ServerEvent NormalizedEcbViolation Nat → Option (ServerState NormalizedEcbViolation Nat) :=
  serverNext boundaryPlatform (Function.Embedding.refl String) true smallConfig plainService

instance : DecidablePred (UuidEvent : ServerEvent Row ι → Prop) := by
  intro ev
  unfold UuidEvent
  split <;> infer_instance

/-- A read with a change of the BINs between its statements, another read, and a third that is
received. -/
def changedBetween : List (ServerEvent NormalizedEcbViolation Nat) :=
  [.system (createSample 0 "1000010001" "1000001"),
    .receive 0 (.getProperty (uuidText 0)), .step 0 false 0 0,
    .system (.applyEffectiveBinSet 0 ["1000002"]), .step 0 false 0 0,
    .receive 1 (.getProperty (uuidText 0)), .step 1 false 0 0, .step 1 false 0 0,
    .receive 2 (.getProperty (uuidText 0))]

/-- The rest of the third read. -/
def thirdRead : List (ServerEvent NormalizedEcbViolation Nat) := [.step 2 false 0 0, .step 2 false 0 0]

/-- The first body names version 1 and has the BINs of version 2.  The second is validated by the third
read. -/
theorem identifier_version_validates_changedBetween :
    ∃ (s t : ServerState NormalizedEcbViolation Nat) (torn whole reread : StoredPropertyResponse)
      (p : PropertyId),
      Library.run sampleNext .initial changedBetween = some s ∧
      Library.run sampleNext s thirdRead = some t ∧
      (torn.identifierVersion, torn.bins) = (1, ["1000002"]) ∧
      (whole.identifierVersion, whole.bins) = (2, ["1000002"]) ∧
      (s.exchanges 0).served = some torn ∧ (s.exchanges 1).served = some whole ∧
      t.exchanges 2 = .answered ⟨200, .property reread⟩ ∧
      torn.identifierVersion ≤ reread.identifierVersion ∧ s.db.currentBody p = some whole := by
  have hrun : ((Library.run sampleNext .initial changedBetween).bind fun s =>
      (Library.run sampleNext s thirdRead).bind fun t =>
        (s.exchanges 0).served.bind fun torn => (s.exchanges 1).served.bind fun whole =>
          (t.exchanges 2).served.map fun reread =>
            ((torn.identifierVersion, torn.bins), (whole.identifierVersion, whole.bins),
              reread.identifierVersion, decide (torn.id = whole.id),
              decide ((s.exchanges 2).requested = some whole.id))) =
      some ((1, ["1000002"]), (2, ["1000002"]), 2, true, true) := by decide +kernel
  obtain ⟨s, hs, hrun⟩ := Option.bind_eq_some_iff.mp hrun
  obtain ⟨t, ht, hrun⟩ := Option.bind_eq_some_iff.mp hrun
  obtain ⟨torn, htorn, hrun⟩ := Option.bind_eq_some_iff.mp hrun
  obtain ⟨whole, hwhole, hrun⟩ := Option.bind_eq_some_iff.mp hrun
  obtain ⟨reread, hreread, hrun⟩ := Option.map_eq_some_iff.mp hrun
  simp only [Prod.mk.injEq, decide_eq_true_eq] at hrun
  obtain ⟨htorn', hwhole', hversion, hid, hrequested⟩ := hrun
  have hj := requested_eq_some hrequested
  obtain ⟨_, hanswer⟩ := served_eq_some hreread
  have hsteps : Steps sampleNext (fun _ ev => UuidEvent ev) .initial s := run_steps (by decide +kernel) hs
  have hsteps' : Steps sampleNext (fun _ ev => UuidEvent ev) s t :=
    run_steps (runOk_of_forall (by decide)) ht
  have found : ∀ {refused : Prop} {status : Nat} {body : StoredPropertyResponse},
      ¬ (refused ∧ HttpResponse.IsRefusal ⟨status, .property body⟩) := by
    rintro _ _ _ ⟨-, h | h⟩
    · cases h
    · cases h
  obtain ⟨_, h₀⟩ := served_eq_some htorn
  obtain ⟨_, h₁⟩ := served_eq_some hwhole
  obtain ⟨_, -, hread, -⟩ := identifier_version_validates hsteps h₀
  obtain ⟨_, heq, -, hle, -⟩ := (hread 2 t _ (hid ▸ hj) hsteps' hanswer).resolve_left found
  obtain ⟨p, -, hread, -⟩ := identifier_version_validates hsteps h₁
  obtain ⟨_, heq', -, -, hexact⟩ := (hread 2 t _ hj hsteps' hanswer).resolve_left found
  cases HttpBody.property.inj (HttpResponse.mk.inj heq).2
  cases HttpBody.property.inj (HttpResponse.mk.inj heq').2
  have hcurrent := hexact (hversion.trans hwhole'.1.symm)
  exact ⟨s, t, torn, whole, reread, p, hs, ht, Prod.ext htorn'.1 htorn'.2,
    Prod.ext hwhole'.1 hwhole'.2, htorn, hwhole, heq ▸ hanswer, hle, hcurrent⟩

end NycPropertyResolver
