import NycPropertyResolver.Clients.RequestExecutor
import NycPropertyResolver.Domain.SafeIntegers
import NycPropertyResolver.Ingestion.SourceRows

/-!
# Clients — Socrata responses

`socrata.client.ts`, behind its requests: one attempt of a request, from the call of `fetch` to the
parsed body, and what is read of a body.  A failure is classified where it happens, and its class is
a flag of the error that is thrown; the payload of a response is checked before anything is made of
it.
-/

namespace NycPropertyResolver

open Library RequestExecutor

/-! ### Errors -/

/-- `SOCRATA_ERROR_CODES`. -/
def socrataErrorCodes : List String :=
  ["SOCRATA_INVALID_REQUEST", "SOCRATA_HTTP_ERROR", "SOCRATA_TIMEOUT", "SOCRATA_TRANSPORT_ERROR",
    "SOCRATA_MALFORMED_RESPONSE"]

/-- A `SocrataClientError` with its cause; each has one of the codes. -/
structure SocrataFailure where
  error : SocrataClientError
  cause : ThrownValue
  code_mem : error.code ∈ socrataErrorCodes

/-- The error object. -/
def SocrataFailure.thrown (failure : SocrataFailure) : ThrownValue :=
  .object
    { isError := true
      name := "SocrataClientError"
      message := failure.error.message
      code := some failure.error.code
      statusCode := some failure.error.statusCode
      status := none
      retryable := some failure.error.retryable
      isRetryable := some failure.error.retryable
      transient := none }
    failure.cause

/-- The error of a request that took too long. -/
def socrataTimeout (message : String) : SocrataClientError where
  code := "SOCRATA_TIMEOUT"
  kind := "timeout"
  retryable := true
  statusCode := 504
  message := message

/-- The error of a request that did not reach the source. -/
def socrataTransportError (message : String) : SocrataClientError where
  code := "SOCRATA_TRANSPORT_ERROR"
  kind := "transport"
  retryable := true
  statusCode := 503
  message := message

/-- A response that is not as it has to be: in shape, as JSON, or in its payload. -/
def socrataMalformedResponse (kind message : String) : SocrataClientError where
  code := "SOCRATA_MALFORMED_RESPONSE"
  kind := kind
  retryable := false
  statusCode := 502
  message := message

/-- `RETRYABLE_HTTP_STATUSES`. -/
def retryableHttpStatuses : List Nat := [408, 425, 429, 500, 502, 503, 504]

/-- `isRetryableStatus`. -/
def isRetryableStatus (status : Nat) : Bool := retryableHttpStatuses.contains status

/-- The error of an answer that is not a success, retryable by its status. -/
def socrataHttpError (operation : String) (status : Nat) : SocrataClientError where
  code := "SOCRATA_HTTP_ERROR"
  kind := "http"
  retryable := isRetryableStatus status
  statusCode := status
  message := s!"Socrata {operation} failed with HTTP {status}"

/-- A failed attempt that took too long. -/
def timeoutFailure (message : String) (cause : ThrownValue) : SocrataFailure :=
  ⟨socrataTimeout message, cause, by simp [socrataTimeout, socrataErrorCodes]⟩

/-- A failed attempt that did not reach the source. -/
def transportFailure (message : String) (cause : ThrownValue) : SocrataFailure :=
  ⟨socrataTransportError message, cause, by simp [socrataTransportError, socrataErrorCodes]⟩

/-- A failed attempt whose answer cannot be read. -/
def malformedFailure (kind message : String) (cause : ThrownValue) : SocrataFailure :=
  ⟨socrataMalformedResponse kind message, cause,
    by simp [socrataMalformedResponse, socrataErrorCodes]⟩

/-- A failed attempt that the source refused. -/
def httpFailure (operation : String) (status : Nat) : SocrataFailure :=
  ⟨socrataHttpError operation status, .primitive, by simp [socrataHttpError, socrataErrorCodes]⟩

/-! ### Attempts -/

/-- What `fetch` or the reading of a body throws: an error of the client, a `SyntaxError`, or another
value. -/
inductive TransportFailure where
  | client (failure : SocrataFailure)
  | syntaxError (thrown : ThrownValue)
  | other (thrown : ThrownValue)

/-- What `fetch` comes to; `malformed` is no response. -/
inductive FetchAnswer where
  | failed (failure : TransportFailure)
  | malformed
  | response (ok : Bool) (status : Int) (body : Except TransportFailure JsonValue)

/-- An answer that was read: its status and its JSON. -/
structure SocrataResponseEnvelope where
  status : Nat
  payload : JsonValue

/-- `isAbortError`. -/
def isAbortError : ThrownValue → Bool
  | .primitive => false
  | .object fields _ => fields.isError && (fields.name == "AbortError" || fields.name == "TimeoutError")

/-- The failure of `fetch`. -/
def fetchFailure : TransportFailure → SocrataFailure
  | .client failure => failure
  | .syntaxError thrown | .other thrown =>
    if isAbortError thrown then
      timeoutFailure "Socrata request was aborted or timed out" thrown
    else
      transportFailure "Socrata request failed before a response was received" thrown

/-- `readJsonBody`, where it fails. -/
def bodyFailure (operation : String) : TransportFailure → SocrataFailure
  | .client failure => failure
  | .syntaxError thrown =>
    if isAbortError thrown then
      timeoutFailure s!"Socrata {operation} response body was aborted or timed out" thrown
    else
      malformedFailure "malformed_json" s!"Socrata {operation} response was not valid JSON" thrown
  | .other thrown =>
    if isAbortError thrown then
      timeoutFailure s!"Socrata {operation} response body was aborted or timed out" thrown
    else
      transportFailure s!"Socrata {operation} response body failed before it was fully received" thrown

/-- `executeRequestAttempt`. -/
def executeRequestAttempt (operation : String) :
    FetchAnswer → Except SocrataFailure SocrataResponseEnvelope
  | .failed failure => .error (fetchFailure failure)
  | .malformed =>
    .error (malformedFailure "transport_shape" "Socrata transport returned an invalid response shape"
      .primitive)
  | .response ok status body =>
    -- `isResponseShape`
    if status < 100 ∨ 599 < status then
      .error (malformedFailure "transport_shape"
        "Socrata transport returned an invalid response shape" .primitive)
    else if ok = false ∨ status < 200 ∨ 300 ≤ status then
      .error (httpFailure operation status.toNat)
    else
      match body with
      | .error failure => .error (bodyFailure operation failure)
      | .ok payload => .ok ⟨status.toNat, payload⟩

/-! ### Payloads -/

/-- The object of members as they are parsed: the last of a name counts. -/
def recordOf (members : List (List Char × JsonValue)) : EcbTransportRow :=
  members.foldl (fun row member => row.set (String.ofList member.1) member.2) .empty

/-- `isRecord`, and the record. -/
def record? : JsonValue → Option EcbTransportRow
  | .object members => some (recordOf members)
  | _ => none

/-- `Number.isSafeInteger(value) && value >= 0`, and the integer. -/
def safeNatural? : JsNumber → Option Nat
  | .finite value =>
    if value.den = 1 ∧ 0 ≤ value ∧ value ≤ maxSafeInteger then some value.num.toNat else none
  | _ => none

/-- `/^\s*\d+\s*$/`. -/
def isIntegerText (text : String) : Bool :=
  !(trimChars text.toList).isEmpty && (trimChars text.toList).all Char.isDigit

/-- `parseNonNegativeInteger`: a safe natural number, as a number or as a text. -/
def parseNonNegativeInteger (value : Option JsonValue) (fieldName : String) :
    Except SocrataClientError Nat :=
  let parsed := match value with
    | some (.number literal) => safeNatural? (toNumber (String.ofList literal))
    | some (.string text) =>
      if isIntegerText (String.ofList text) then safeNatural? (toNumber (String.ofList text)) else none
    | _ => none
  match parsed with
  | some n => .ok n
  | none => .error (socrataMalformedResponse "malformed_payload"
      s!"Socrata response field {fieldName} must be a non-negative integer")

/-- `typeof value === 'string' && value.trim().length !== 0`. -/
def isFilledText : Option JsonValue → Bool
  | some (.string text) => !isBlank (String.ofList text)
  | _ => false

/-- A row has its system fields. -/
def hasSystemFields (row : EcbTransportRow) : Bool :=
  isFilledText (row.find socrataRowIdField) && isFilledText (row.find sourceRowUpdatedAtField)

/-- `parsePayloadRows`: an array of objects, each with its id and its last change. -/
def parsePayloadRows (payload : JsonValue) (operation : String) :
    Except SocrataClientError (List EcbTransportRow) :=
  match payload with
  | .array items =>
    match items.mapM record? with
    | none => .error (socrataMalformedResponse "malformed_payload"
        s!"Socrata {operation} response must be a JSON array of row objects")
    | some rows =>
      if rows.all hasSystemFields then .ok rows
      else .error (socrataMalformedResponse "malformed_payload"
        s!"Socrata {operation} rows require non-empty {socrataRowIdField} and {sourceRowUpdatedAtField} string fields")
  | _ => .error (socrataMalformedResponse "malformed_payload"
      s!"Socrata {operation} response must be a JSON array of row objects")

/-! ### What an attempt comes to -/

section Attempts

variable {operation : String} {answer : FetchAnswer} {failure : SocrataFailure}
  {envelope : SocrataResponseEnvelope}

/-- **Whether to try again**: the executor reads it off the error, whatever its cause. -/
theorem isRetryable_thrown (failure : SocrataFailure) :
    isRetryableSocrataError failure.thrown = failure.error.retryable := by
  cases h : failure.error.retryable with
  | true => simp [SocrataFailure.thrown, isRetryableSocrataError, h]
  | false => simp [SocrataFailure.thrown, isRetryableSocrataError, h]

/-- No error of the client is taken for an abort. -/
theorem isAbortLike_thrown (failure : SocrataFailure) : isAbortLikeError failure.thrown = false := by
  have hcode : failure.error.code ≠ "ABORT_ERR" := by
    intro h
    have hmem := failure.code_mem
    rw [h] at hmem
    exact absurd hmem (by decide)
  simp [SocrataFailure.thrown, isAbortLikeError, hcode]

/-- **What an attempt accepts**: a response with a status of success, and a body that is JSON. -/
theorem executeRequestAttempt_eq_ok (h : executeRequestAttempt operation answer = .ok envelope) :
    answer = .response true envelope.status (.ok envelope.payload) ∧ 200 ≤ envelope.status ∧
      envelope.status < 300 := by
  cases answer with
  | failed failure => cases h
  | malformed => cases h
  | response ok status body =>
      simp only [executeRequestAttempt] at h
      split at h
      · cases h
      split at h
      · cases h
      rename_i hshape hstatus
      cases body with
      | error failure => cases h
      | ok payload =>
          cases h
          simp only [not_or, Bool.not_eq_false, not_lt, not_le] at hstatus
          obtain ⟨rfl, hlow, hhigh⟩ := hstatus
          have hnat : ((status.toNat : Nat) : Int) = status := Int.toNat_of_nonneg (by omega)
          refine ⟨?_, ?_, ?_⟩
          · simp only [hnat]
          · exact_mod_cast hnat.symm ▸ hlow
          · exact_mod_cast hnat.symm ▸ hhigh

end Attempts

end NycPropertyResolver
