import NycPropertyResolver.Domain.Numbers
import NycPropertyResolver.Ingestion.Executor

/-!
# Config — the environment

`defaults.ts` and `env.ts`: the application configuration, read from the environment.  Every field is
checked, and the issues of all of them are reported together.  A number of the configuration carries
its bound, so that what runs under it need not check it again.
-/

namespace NycPropertyResolver

/-- `z.number().int().positive()`. -/
abbrev PositiveInt := { n : Nat // 0 < n }

/-- `SOCRATA_PAGE_SIZE`. -/
abbrev PageSize := { n : Nat // 0 < n ∧ n ≤ 50000 }

/-- `z.number().int().min(1).max(65535)`. -/
abbrev TcpPort := { n : Nat // 1 ≤ n ∧ n ≤ 65535 }

/-! ### Defaults -/

namespace ConfigDefaults

/-- The default of `PORT`. -/
def port : TcpPort := ⟨3000, by decide⟩

/-- The default of `INGEST_INTERVAL_MS`: seven days. -/
def ingestIntervalMs : PositiveInt := ⟨604800000, by decide⟩

/-- The default of `ECB_BATCH_SIZE`. -/
def ecbBatchSize : PositiveInt := ⟨1000, by decide⟩

/-- The default of `SOCRATA_PAGE_SIZE`. -/
def socrataPageSize : PageSize := ⟨50000, by decide⟩

/-- The default of `SOCRATA_MAX_PAGES_PER_BATCH`. -/
def socrataMaxPagesPerBatch : PositiveInt := ⟨100, by decide⟩

/-- The default of `SOCRATA_CONCURRENCY`. -/
def socrataConcurrency : PositiveInt := ⟨10, by decide⟩

/-- The default of `SOCRATA_REQUEST_TIMEOUT_MS`. -/
def socrataRequestTimeoutMs : PositiveInt := ⟨15000, by decide⟩

/-- The default of `SOCRATA_MAX_RETRIES`. -/
def socrataMaxRetries : PositiveInt := ⟨3, by decide⟩

/-- The default of `MAX_BATCH_ATTEMPTS_PER_RUN`. -/
def maxBatchAttemptsPerRun : PositiveInt := ⟨3, by decide⟩

/-- The default of `ACCEPTED_PUBLICATION_TRANSACTION_TIMEOUT_MS`. -/
def acceptedPublicationTransactionTimeoutMs : PositiveInt := ⟨60000, by decide⟩

/-- The default of `TERMINAL_PUBLICATION_TRANSACTION_TIMEOUT_MS`. -/
def terminalPublicationTransactionTimeoutMs : PositiveInt := ⟨30000, by decide⟩

/-- The default of `API_BODY_LIMIT`. -/
def apiBodyLimit : String := "512kb"

end ConfigDefaults

/-! ### Fields -/

/-- The messages of the checks a field fails. -/
abbrev FieldResult (α : Type) := Except (List String) α

/-- `Number.isInteger`. -/
def JsNumber.isInteger : JsNumber → Bool
  | .finite value => value.den = 1
  | _ => false

/-- `number < value`. -/
def JsNumber.gt (bound : Rat) : JsNumber → Bool
  | .nan => false
  | .infinity negative => !negative
  | .finite value => bound < value

/-- The natural number a number is, if it is one. -/
def JsNumber.toNat? : JsNumber → Option Nat
  | .finite value => if value.den = 1 ∧ 0 ≤ value.num then some value.num.toNat else none
  | _ => none

/-- The issue of a number that is not an integer. -/
def integerIssue (value : JsNumber) : List String :=
  if value.isInteger then [] else ["Expected integer, received float"]

/-- The text of a variable that is set, and not to the empty text. -/
def givenValue (value : Option String) : Option String := value.filter fun text => text ≠ ""

/-- `envPositiveInt`: a variable that is absent or blank takes the default. -/
def envPositiveInt (defaultValue : PositiveInt) (value : Option String) : FieldResult PositiveInt :=
  match givenValue value with
  | none => .ok defaultValue
  | some text =>
    match toNumber text with
    | .nan => .error ["Expected number, received nan"]
    | number =>
      match number.toNat? with
      | some n => if h : 0 < n then .ok ⟨n, h⟩ else .error ["Number must be greater than 0"]
      | none => .error (integerIssue number ++
          if number.gt 0 then [] else ["Number must be greater than 0"])

/-- `envPositiveInt` with its `refine`, which also runs on a number that failed its checks. -/
def envPageSize (value : Option String) : FieldResult PageSize :=
  let message := "SOCRATA_PAGE_SIZE must be at most 50000"
  match envPositiveInt ⟨ConfigDefaults.socrataPageSize, ConfigDefaults.socrataPageSize.2.1⟩ value with
  | .ok n => if h : n.1 ≤ 50000 then .ok ⟨n, n.2, h⟩ else .error [message]
  | .error issues => .error (issues ++
      if ((givenValue value).map toNumber).any (JsNumber.gt 50000) then [message] else [])

/-- `envTcpPort`: an integer between 1 and 65535. -/
def envTcpPort (defaultValue : TcpPort) (value : Option String) : FieldResult TcpPort :=
  match givenValue value with
  | none => .ok defaultValue
  | some text =>
    match toNumber text with
    | .nan => .error ["Expected number, received nan"]
    | number =>
      let rangeIssues :=
        (if number = .finite 1 ∨ number.gt 1 then [] else ["Number must be greater than or equal to 1"])
          ++ if number.gt 65535 then ["Number must be less than or equal to 65535"] else []
      match number.toNat? with
      | some n => if h : 1 ≤ n ∧ n ≤ 65535 then .ok ⟨n, h⟩ else .error rangeIssues
      | none => .error (integerIssue number ++ rangeIssues)

/-- `optionalSecret` and `optionalNonEmptyString`: the trimmed text, if anything is left. -/
def optionalTrimmed (value : Option String) : FieldResult (Option String) :=
  .ok ((value.map trim).filter fun text => text ≠ "")

/-- `DATABASE_URL`, which has no default. -/
def envDatabaseUrl (value : Option String) : FieldResult String :=
  match value with
  | none => .error ["Required"]
  | some text => if trim text = "" then .error ["DATABASE_URL is required"] else .ok (trim text)

/-- `API_BODY_LIMIT`: any text that is not blank. -/
def envBodyLimit (value : Option String) : FieldResult String :=
  let text := (givenValue value).getD ConfigDefaults.apiBodyLimit
  if trim text = "" then .error ["String must contain at least 1 character(s)"] else .ok (trim text)

/-! ### The configuration -/

/-- `AppConfig`: the variables of the environment, each within its bounds. -/
structure AppConfig where
  databaseUrl : String
  port : TcpPort
  socrataAppToken : Option String
  ingestIntervalMs : PositiveInt
  ecbBatchSize : PositiveInt
  socrataPageSize : PageSize
  socrataMaxPagesPerBatch : PositiveInt
  socrataConcurrency : PositiveInt
  socrataRequestTimeoutMs : PositiveInt
  socrataMaxRetries : PositiveInt
  maxBatchAttemptsPerRun : PositiveInt
  acceptedPublicationTransactionTimeoutMs : PositiveInt
  terminalPublicationTransactionTimeoutMs : PositiveInt
  apiRateLimit : Option String
  apiBodyLimit : String

/-- An issue of a `ConfigError`. -/
structure ConfigIssue where
  path : String
  message : String
  deriving DecidableEq, Repr

/-- `formatIssues`. -/
def formatIssues (issues : List ConfigIssue) : String :=
  "; ".intercalate (issues.map fun issue => issue.path ++ ": " ++ issue.message)

/-- `ConfigError`, with the issues of all fields in its message. -/
structure ConfigError where
  message : String
  issues : List ConfigIssue
  deriving DecidableEq, Repr

/-- The constructor of `ConfigError`. -/
def ConfigError.of (issues : List ConfigIssue) : ConfigError :=
  ⟨"Invalid application configuration: " ++ formatIssues issues, issues⟩

/-- The fields parsed so far, and the next one. -/
def withField {α β : Type} (fields : Except (List ConfigIssue) (α → β)) (path : String)
    (field : FieldResult α) : Except (List ConfigIssue) β :=
  match fields, field with
  | .ok f, .ok a => .ok (f a)
  | .error issues, .ok _ => .error issues
  | .ok _, .error messages => .error (messages.map (ConfigIssue.mk path))
  | .error issues, .error messages => .error (issues ++ messages.map (ConfigIssue.mk path))

/-- `appConfigSchema.safeParse`. -/
def parseAppConfig (env : String → Option String) : Except (List ConfigIssue) AppConfig :=
  let positiveInt (path : String) (defaultValue : PositiveInt) := envPositiveInt defaultValue (env path)
  let c := withField (.ok AppConfig.mk) "DATABASE_URL" (envDatabaseUrl (env "DATABASE_URL"))
  let c := withField c "PORT" (envTcpPort ConfigDefaults.port (env "PORT"))
  let c := withField c "SOCRATA_APP_TOKEN" (optionalTrimmed (env "SOCRATA_APP_TOKEN"))
  let c := withField c "INGEST_INTERVAL_MS"
    (positiveInt "INGEST_INTERVAL_MS" ConfigDefaults.ingestIntervalMs)
  let c := withField c "ECB_BATCH_SIZE" (positiveInt "ECB_BATCH_SIZE" ConfigDefaults.ecbBatchSize)
  let c := withField c "SOCRATA_PAGE_SIZE" (envPageSize (env "SOCRATA_PAGE_SIZE"))
  let c := withField c "SOCRATA_MAX_PAGES_PER_BATCH"
    (positiveInt "SOCRATA_MAX_PAGES_PER_BATCH" ConfigDefaults.socrataMaxPagesPerBatch)
  let c := withField c "SOCRATA_CONCURRENCY"
    (positiveInt "SOCRATA_CONCURRENCY" ConfigDefaults.socrataConcurrency)
  let c := withField c "SOCRATA_REQUEST_TIMEOUT_MS"
    (positiveInt "SOCRATA_REQUEST_TIMEOUT_MS" ConfigDefaults.socrataRequestTimeoutMs)
  let c := withField c "SOCRATA_MAX_RETRIES"
    (positiveInt "SOCRATA_MAX_RETRIES" ConfigDefaults.socrataMaxRetries)
  let c := withField c "MAX_BATCH_ATTEMPTS_PER_RUN"
    (positiveInt "MAX_BATCH_ATTEMPTS_PER_RUN" ConfigDefaults.maxBatchAttemptsPerRun)
  let c := withField c "ACCEPTED_PUBLICATION_TRANSACTION_TIMEOUT_MS"
    (positiveInt "ACCEPTED_PUBLICATION_TRANSACTION_TIMEOUT_MS"
      ConfigDefaults.acceptedPublicationTransactionTimeoutMs)
  let c := withField c "TERMINAL_PUBLICATION_TRANSACTION_TIMEOUT_MS"
    (positiveInt "TERMINAL_PUBLICATION_TRANSACTION_TIMEOUT_MS"
      ConfigDefaults.terminalPublicationTransactionTimeoutMs)
  let c := withField c "API_RATE_LIMIT" (optionalTrimmed (env "API_RATE_LIMIT"))
  withField c "API_BODY_LIMIT" (envBodyLimit (env "API_BODY_LIMIT"))

/-- `loadConfig`. -/
def loadConfig (env : String → Option String) : Except ConfigError AppConfig :=
  (parseAppConfig env).mapError .of

/-- The limits the executor runs under. -/
def AppConfig.executorConfig (config : AppConfig) : ExecutorConfig where
  ecbBatchSize := config.ecbBatchSize
  socrataPageSize := config.socrataPageSize
  socrataMaxPagesPerBatch := config.socrataMaxPagesPerBatch
  maxBatchAttemptsPerRun := config.maxBatchAttemptsPerRun
  ecbBatchSize_pos := config.ecbBatchSize.2
  socrataPageSize_pos := config.socrataPageSize.2.1
  socrataPageSize_le := config.socrataPageSize.2.2
  socrataMaxPagesPerBatch_pos := config.socrataMaxPagesPerBatch.2
  maxBatchAttemptsPerRun_pos := config.maxBatchAttemptsPerRun.2

end NycPropertyResolver
