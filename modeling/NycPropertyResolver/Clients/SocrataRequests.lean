import NycPropertyResolver.Clients.RequestResults
import NycPropertyResolver.Clients.SocrataResponses

/-!
# Clients — Socrata requests

The requests of `socrata.client.ts` behind a request executor.  The operation of a call of `execute` is
an attempt of the client (`ClientRun`); what the client classifies as transient is what the executor
tries again, and in no run is anything else (`client_requests`).
-/

namespace NycPropertyResolver

open Library RequestExecutor

/-! ### Requests -/

/-- What the operation of an attempt returns or throws. -/
def attemptResult (operation : String) (answer : FetchAnswer) :
    Except ThrownValue SocrataResponseEnvelope :=
  match executeRequestAttempt operation answer with
  | .ok envelope => .ok envelope
  | .error failure => .error failure.thrown

/-- A check of the client throws its error, without a cause. -/
def liftClient {α : Type} (result : Except SocrataClientError α) : Except ThrownValue α :=
  match result with
  | .ok value => .ok value
  | .error error => .error (.object
      { isError := true
        name := "SocrataClientError"
        message := error.message
        code := some error.code
        statusCode := some error.statusCode
        status := none
        retryable := some error.retryable
        isRetryable := some error.retryable
        transient := none } .primitive)

section Client

-- the payload of the response to a URL, for an operation
variable (requestJson : String → String → Except ThrownValue JsonValue)

/-- `SOCRATA_ECB_METADATA_URL`. -/
def socrataEcbMetadataUrl : String := "https://data.cityofnewyork.us/api/views/6bgk-3dad"

/-- The field of `getDatasetMetadata`. -/
def parseMetadata (payload : JsonValue) : Except SocrataClientError Nat :=
  match (record? payload).bind (·.find "rowsUpdatedAt") with
  | none => .error (socrataMalformedResponse "malformed_payload"
      "Socrata metadata response is missing rowsUpdatedAt")
  | some value => parseNonNegativeInteger (some value) "rowsUpdatedAt"

/-- `getDatasetMetadata`: the dataset's watermark. -/
def getDatasetMetadata : Except ThrownValue Nat := do
  let payload ← requestJson socrataEcbMetadataUrl "metadata"
  liftClient (parseMetadata payload)

/-- `getEcbDataPage`: the rows of one page of a batch. -/
def SocrataClient.getEcbDataPage (client : SocrataClient) (binBatch : List String)
    (offset pageSize : Nat) : Except ThrownValue (List EcbTransportRow) := do
  let url ← liftClient (client.buildEcbDataPageUrl binBatch offset pageSize)
  let payload ← requestJson url "ECB data page"
  liftClient (parsePayloadRows payload "ECB data page")

end Client

/-! ### Transient failures -/

/-- A failure that the client classifies as transient; `reading` a body, a text that is no JSON is not. -/
def TransportFailure.isTransient (reading : Bool) : TransportFailure → Bool
  | .client failure => failure.error.retryable
  | .syntaxError thrown => isAbortError thrown || !reading
  | .other _ => true

/-- What `fetch` came to is worth another try. -/
def FetchAnswer.isTransient : FetchAnswer → Bool
  | .failed failure => failure.isTransient false
  | .malformed => false
  | .response ok status body =>
    if status < 100 ∨ 599 < status then false
    else if ok = false ∨ status < 200 ∨ 300 ≤ status then isRetryableStatus status.toNat
    else
      match body with
      | .ok _ => false
      | .error failure => failure.isTransient true

theorem retryable_fetchFailure (failure : TransportFailure) :
    (fetchFailure failure).error.retryable = failure.isTransient false := by
  cases failure with
  | client failure => rfl
  | syntaxError thrown =>
      simp only [fetchFailure, TransportFailure.isTransient, Bool.not_false, Bool.or_true]
      split <;> rfl
  | other thrown =>
      simp only [fetchFailure, TransportFailure.isTransient]
      split <;> rfl

theorem retryable_bodyFailure (operation : String) (failure : TransportFailure) :
    (bodyFailure operation failure).error.retryable = failure.isTransient true := by
  cases failure with
  | client failure => rfl
  | syntaxError thrown =>
      cases h : isAbortError thrown with
      | true => simp [bodyFailure, TransportFailure.isTransient, h, timeoutFailure, socrataTimeout]
      | false =>
          simp [bodyFailure, TransportFailure.isTransient, h, malformedFailure, socrataMalformedResponse]
  | other thrown =>
      simp only [bodyFailure, TransportFailure.isTransient]
      split <;> rfl

/-- **The flag of an error** says what became of the request. -/
theorem retryable_executeRequestAttempt {operation : String} {answer : FetchAnswer}
    {failure : SocrataFailure} (h : executeRequestAttempt operation answer = .error failure) :
    failure.error.retryable = answer.isTransient := by
  cases answer with
  | failed fetched =>
      cases h
      exact retryable_fetchFailure fetched
  | malformed =>
      cases h
      rfl
  | response ok status body =>
      simp only [executeRequestAttempt] at h
      simp only [FetchAnswer.isTransient]
      split at h
      · rename_i hshape
        cases h
        rw [if_pos hshape]
        rfl
      rename_i hshape
      rw [if_neg hshape]
      split at h
      · rename_i hstatus
        cases h
        rw [if_pos hstatus]
        rfl
      · rename_i hstatus
        rw [if_neg hstatus]
        cases body with
        | ok payload => cases h
        | error fetched =>
            cases h
            exact retryable_bodyFailure operation fetched

/-! ### Runs -/

section Runs

variable {executor : SocrataRequestExecutor} {s : State SocrataResponseEnvelope} {log : List Entry}
  {fetched : FetchAnswer → Prop}

/-- The operations are attempts of the client, by what was fetched; and a limiter that is stopped drops
its jobs with a plain error. -/
def ClientRun (fetched : FetchAnswer → Prop) : RequestExecutor.Event SocrataResponseEnvelope → Prop
  | .settle _ result => ∃ operation answer, fetched answer ∧ result = attemptResult operation answer
  | .drop _ error => ∃ message, error = plainError "Error" message
  | _ => True

/-- A failure of an attempt, of its time or of the limiter. -/
def ClientFailure (executor : SocrataRequestExecutor) (fetched : FetchAnswer → Prop)
    (error : ThrownValue) : Prop :=
  error = timeoutError executor ∨ (∃ message, error = plainError "Error" message) ∨
    ∃ operation answer failure, fetched answer ∧
      executeRequestAttempt operation answer = .error failure ∧ error = failure.thrown

/-- A response of success that was fetched. -/
def FetchedResponse (fetched : FetchAnswer → Prop) (envelope : SocrataResponseEnvelope) : Prop :=
  200 ≤ envelope.status ∧ envelope.status < 300 ∧
    fetched (.response true envelope.status (.ok envelope.payload))

theorem supplies_of_clientRun {ev : RequestExecutor.Event SocrataResponseEnvelope}
    (h : ClientRun fetched ev) :
    Supplies (ClientFailure executor fetched) (FetchedResponse fetched) ev := by
  cases ev with
  | settle i result =>
      obtain ⟨operation, answer, hfetched, rfl⟩ := h
      cases hattempt : executeRequestAttempt operation answer with
      | ok envelope =>
          simp only [attemptResult, hattempt, Supplies]
          obtain ⟨hanswer, hlow, hhigh⟩ := executeRequestAttempt_eq_ok hattempt
          exact ⟨hlow, hhigh, hanswer ▸ hfetched⟩
      | error failure =>
          simp only [attemptResult, hattempt, Supplies, operationError, isAbortLike_thrown,
            Bool.false_eq_true, if_false]
          exact .inr (.inr ⟨operation, answer, failure, hfetched, hattempt, rfl⟩)
  | drop i error => exact .inr (.inl h)
  | _ => trivial

theorem not_isRetryable_plainError (name message : String) :
    isRetryableSocrataError (plainError name message) = false := by
  simp [plainError, isRetryableSocrataError]

/-- The result of a request made in a run. -/
def RequestedIn (s : State SocrataResponseEnvelope)
    (requestJson : String → String → Except ThrownValue JsonValue) : Prop :=
  ∀ url operation payload, requestJson url operation = .ok payload →
    ∃ e ∈ s.executes, ∃ status, e.phase = .finished (.ok ⟨status, payload⟩)

theorem liftClient_eq_ok {α : Type} {result : Except SocrataClientError α} {value : α}
    (h : liftClient result = .ok value) : result = .ok value := by
  cases result with
  | ok a => cases h; rfl
  | error e => cases h

/-- **What is read of the rows of a page.** -/
theorem parsePayloadRows_eq_ok {payload : JsonValue} {operation : String} {rows : List EcbTransportRow}
    (h : parsePayloadRows payload operation = .ok rows) :
    (∃ items, payload = .array items ∧ items.mapM record? = some rows) ∧
      ∀ row ∈ rows, hasSystemFields row = true := by
  cases payload with
  | array items =>
      simp only [parsePayloadRows] at h
      split at h
      · cases h
      · rename_i rows' hrows
        split at h
        · rename_i hall
          cases h
          exact ⟨⟨items, rfl, hrows⟩, List.all_eq_true.mp hall⟩
        · cases h
  | _ => cases h

theorem safeNatural?_le {value : JsNumber} {n : Nat} (h : safeNatural? value = some n) :
    n ≤ maxSafeInteger := by
  cases value with
  | finite value =>
      simp only [safeNatural?, Option.ite_none_right_eq_some, Option.some.injEq] at h
      obtain ⟨⟨hden, hnonneg, hle⟩, rfl⟩ := h
      have hnum : ((value.num : Int) : Rat) = value := Rat.coe_int_num_of_den_eq_one hden
      rw [← hnum] at hle
      have hle' : value.num ≤ (maxSafeInteger : Int) := by exact_mod_cast hle
      exact Int.toNat_le.mpr hle'
  | _ => cases h

/-- **An integer of a response is a safe one.** -/
theorem parseNonNegativeInteger_le {value : Option JsonValue} {fieldName : String} {n : Nat}
    (h : parseNonNegativeInteger value fieldName = .ok n) : n ≤ maxSafeInteger := by
  simp only [parseNonNegativeInteger] at h
  split at h
  · rename_i parsed hparsed
    cases h
    split at hparsed
    · exact safeNatural?_le hparsed
    · split at hparsed
      · exact safeNatural?_le hparsed
      · cases hparsed
    · cases hparsed
  · cases h

theorem parseMetadata_le {payload : JsonValue} {n : Nat} (h : parseMetadata payload = .ok n) :
    n ≤ maxSafeInteger := by
  rw [parseMetadata] at h
  split at h
  · cases h
  · exact parseNonNegativeInteger_le h

/-- **The requests of the client**, in every run of its executor.  The rows of a data page are the
objects, in order, of a JSON array that a response of success brought, each with its system fields; a
watermark is a safe integer such a response brought; and after a failure a request is sent again only
if it timed out or the client classified what became of it as transient. -/
theorem client_requests (hclass : executor.classifyError = isRetryableSocrataError)
    (hrun : Steps (loggedNext executor) (fun _ ev => ClientRun fetched ev)
      (State.initial SocrataResponseEnvelope, []) (s, log))
    {requestJson : String → String → Except ThrownValue JsonValue} (hrequests : RequestedIn s requestJson) :
    (∀ (client : SocrataClient) binBatch offset pageSize rows,
      client.getEcbDataPage requestJson binBatch offset pageSize = .ok rows →
      (∃ status items, 200 ≤ status ∧ status < 300 ∧
        fetched (.response true (status : Nat) (.ok (.array items))) ∧ items.mapM record? = some rows) ∧
        ∀ row ∈ rows, hasSystemFields row = true) ∧
    (∀ rowsUpdatedAt, getDatasetMetadata requestJson = .ok rowsUpdatedAt →
      rowsUpdatedAt ≤ maxSafeInteger ∧ ∃ status payload, 200 ≤ status ∧ status < 300 ∧
        fetched (.response true (status : Nat) (.ok payload)) ∧
        parseMetadata payload = .ok rowsUpdatedAt) ∧
    (∀ x error before after, log = before ++ .failure x error :: after → .call x ∈ after →
      error = timeoutError executor ∨ ∃ operation answer failure, fetched answer ∧
        executeRequestAttempt operation answer = .error failure ∧ error = failure.thrown ∧
        answer.isTransient = true) := by
  have hI : ResultsInvariant executor (ClientFailure executor fetched) (FetchedResponse fetched) s log :=
    resultsInvariant_of_steps (.inl rfl) (hrun.mono fun _ _ => supplies_of_clientRun)
  have hpayload : ∀ url operation payload, requestJson url operation = .ok payload →
      ∃ status, FetchedResponse fetched ⟨status, payload⟩ := by
    intro url operation payload hrequest
    obtain ⟨e, he, status, hphase⟩ := hrequests url operation payload hrequest
    obtain ⟨x, hx⟩ := List.mem_iff_getElem?.mp he
    exact ⟨status, hI.results.finished hx hphase⟩
  refine ⟨?_, ?_, ?_⟩
  · intro client binBatch offset pageSize rows hpage
    obtain ⟨url, -, hpage⟩ := except_bind_ok.mp hpage
    obtain ⟨payload, hrequest, hpage⟩ := except_bind_ok.mp hpage
    obtain ⟨⟨items, rfl, hrows⟩, hfields⟩ := parsePayloadRows_eq_ok (liftClient_eq_ok hpage)
    obtain ⟨status, hlow, hhigh, hfetched⟩ := hpayload _ _ _ hrequest
    exact ⟨⟨status, items, hlow, hhigh, hfetched, hrows⟩, hfields⟩
  · intro rowsUpdatedAt hmetadata
    obtain ⟨payload, hrequest, hmetadata⟩ := except_bind_ok.mp hmetadata
    have hparsed := liftClient_eq_ok hmetadata
    obtain ⟨status, hlow, hhigh, hfetched⟩ := hpayload _ _ _ hrequest
    exact ⟨parseMetadata_le hparsed, status, payload, hlow, hhigh, hfetched, hparsed⟩
  · intro x error before after hlog hcall
    obtain ⟨hfailure, hretry⟩ := hI.last x error before after hlog hcall
    rw [hclass] at hretry
    rcases hfailure with rfl | ⟨message, rfl⟩ | ⟨operation, answer, failure, hfetched, hattempt, rfl⟩
    · exact .inl rfl
    · rw [not_isRetryable_plainError] at hretry
      cases hretry
    · rw [isRetryable_thrown, retryable_executeRequestAttempt hattempt] at hretry
      exact .inr ⟨operation, answer, failure, hfetched, hattempt, rfl, hretry⟩

/-- A page that is unavailable at first, and empty then. -/
def unavailable : FetchAnswer := .response false 503 (.ok .null)

/-- The answer of a source with no rows. -/
def emptyPage : FetchAnswer := .response true 200 (.ok (.array []))

/-- A call whose first attempt finds the source unavailable, its second an empty page. -/
def unavailableEvents : List (RequestExecutor.Event SocrataResponseEnvelope) :=
  [.call none, .start 0, .settle 0 (attemptResult "ECB data page" unavailable), .deliver 0,
    .resume 0 (some 0), .sleepEnds 0 (.ok ()), .resume 0 none, .start 1,
    .settle 1 (attemptResult "ECB data page" emptyPage), .deliver 0, .resume 0 none]

theorem client_requests_unavailable :
    ∃ (s : State SocrataResponseEnvelope) (error : ThrownValue) (client : SocrataClient),
      Library.run (loggedNext defaultExecutor) (State.initial SocrataResponseEnvelope, [])
        unavailableEvents = some (s, [.call 0, .failure 0 error, .call 0]) ∧
      client.getEcbDataPage (fun _ _ => .ok (.array [])) ["1000001"] 0 2 = .ok [] ∧
      (∃ status items, 200 ≤ status ∧ status < 300 ∧
        (.response true (status : Nat) (.ok (.array items)) : FetchAnswer) ∈ [unavailable, emptyPage] ∧
        items.mapM record? = some []) ∧
      ∃ operation answer failure, answer ∈ [unavailable, emptyPage] ∧
        executeRequestAttempt operation answer = .error failure ∧ error = failure.thrown ∧
        answer.isTransient = true := by
  let error : ThrownValue := (httpFailure "ECB data page" 503).thrown
  obtain ⟨s, hs, hexecutes⟩ : ∃ s, Library.run (loggedNext defaultExecutor)
      (State.initial SocrataResponseEnvelope, []) unavailableEvents =
        some (s, [.call 0, .failure 0 error, .call 0]) ∧
      s.executes = [⟨none, .finished (.ok ⟨200, .array []⟩), 2⟩] := ⟨_, rfl, rfl⟩
  have hok : RunOk (loggedNext defaultExecutor) (fun _ ev => ClientRun (· ∈ [unavailable, emptyPage]) ev)
      (State.initial SocrataResponseEnvelope, []) unavailableEvents := by
    refine runOk_of_forall ?_
    simp only [unavailableEvents, List.forall_mem_cons]
    exact ⟨trivial, trivial, ⟨_, unavailable, by simp, rfl⟩, trivial, trivial, trivial, trivial, trivial,
      ⟨_, emptyPage, by simp, rfl⟩, trivial, trivial, by simp⟩
  have hrequests : RequestedIn s fun _ _ => .ok (.array []) := by
    intro url operation payload hpayload
    cases hpayload
    exact ⟨_, by rw [hexecutes]; exact List.mem_singleton.mpr rfl, 200, rfl⟩
  have hclient := client_requests rfl (run_steps hok hs) hrequests
  let client : SocrataClient := ⟨socrataEcbDataUrl, 2, socrataDefaultMaxQueryUrlLength⟩
  have hurl : (client.buildEcbDataPageUrl ["1000001"] 0 2).toOption.isSome = true := by decide +kernel
  obtain ⟨url, hurl⟩ := Option.isSome_iff_exists.mp hurl
  have hpage : client.getEcbDataPage (fun _ _ => .ok (.array [])) ["1000001"] 0 2 = .ok [] := by
    cases hbuilt : client.buildEcbDataPageUrl ["1000001"] 0 2 with
    | error e => rw [hbuilt] at hurl; cases hurl
    | ok built =>
        rw [SocrataClient.getEcbDataPage, hbuilt]
        rfl
  refine ⟨s, error, _, hs, hpage, (hclient.1 _ _ _ _ _ hpage).1, ?_⟩
  rcases hclient.2.2 0 error [.call 0] [.call 0] rfl (by simp) with htimeout | htransient
  · exact absurd htimeout (by decide)
  · exact htransient

end Runs

end NycPropertyResolver
