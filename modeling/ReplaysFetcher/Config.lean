/-
  The configuration (`src/config.ts`).

  An environment maps names to texts, to booleans when it is given by a program, or to nothing.  The
  schema reads it field by field and collects the issues; only `booleanFromEnvironment` throws.

  The checks are those of `Schema`, as they are for a checkpoint.  What is not a check is a parameter
  (`TextReader`): the number and the URL that a text is read as, and the wording of an issue.
-/
import ReplaysFetcher.Data.JsNumber
import ReplaysFetcher.Schema
import ReplaysFetcher.Transport

namespace ReplaysFetcher.Config

open Schema

/-! ## The environment -/

/-- A value of the environment: `boolean | string`. -/
inductive EnvValue
  | boolean (value : Bool)
  | text (value : String)
  deriving DecidableEq

/-- `ConfigSource` -/
abbrev ConfigSource : Type := String → Option EnvValue

/-- What is done to a text that should be a number or a URL, and how issues are worded. -/
structure TextReader {Text : Type} (pf : Platform Text) where
  /-- `Number(text)` -/
  toNumber : String → JsNumber
  /-- the text that `z.url()` gives for a text; `none` when it is not a URL -/
  url : String → Option String
  /-- the message of an issue that is not custom -/
  message : Problem → String
  /-- `z.url()` accepts what `new URL()` accepts -/
  parse_url : ∀ text out, url text = some out → (pf.parseUrl out).isSome = true

/-! ## Types -/

/-- `z.string()` -/
def stringSchema : Option EnvValue → Checked String
  | some (.text text) => .value text
  | _ => .issues (found [.invalidType "string"])

/-- `z.enum(options)` -/
def enumSchema (options : List String) : Option EnvValue → Checked String
  | some (.text text) =>
    if text ∈ options then .value text else .issues (found [.invalidValue options])
  | _ => .issues (found [.invalidValue options])

/-- `schema.optional()` -/
def optionalSchema {α : Type} (schema : Option EnvValue → Checked α) :
    Option EnvValue → Checked (Option α)
  | none => .value none
  | some value => some <$> schema (some value)

/-- `schema.default(value)` -/
def defaultSchema {α : Type} (fallback : α) (schema : Option EnvValue → Checked α) :
    Option EnvValue → Checked α
  | none => .value fallback
  | some value => schema (some value)

/-- A field of an object: its issues are found under its name. -/
def fieldAt {α : Type} (name : String) (v : Checked α) : Checked α :=
  v.mapIssues fun issue => { issue with path := name :: issue.path }

section Schemas

variable {Text : Type} {pf : Platform Text} (env : TextReader pf)

/-- `z.url().max(n)` -/
def urlSchema (n : ℕ) (value : Option EnvValue) : Checked String :=
  match stringSchema value with
  | .value text =>
    -- a text that is no URL is looked at further
    match env.url text with
    | some out => withChecks [maxLength n] (.value out)
    | none => withChecks [maxLength n] (.flawed (found [.invalidFormat "url"]) text)
  | v => v

/-- `Number(value)` -/
def coerceNumber : Option EnvValue → JsNumber
  -- `Number(undefined)`
  | none => .nan
  | some (.boolean value) => .finite (if value then 1 else 0)
  | some (.text text) => env.toNumber text

/-- `z.coerce.number().int()`, with more checks -/
def integerSchema (checks : List (ℤ → Option Problem)) (value : Option EnvValue) : Checked ℤ :=
  match coerceNumber env value with
  | .finite q => integer checks q
  -- `NaN` and the infinities are no numbers to the validator
  | _ => .issues (found [.invalidType "number"])

/-! ## The schema -/

/-- A flag, on unless it is given; another text than these throws. -/
def booleanFromEnvironment : Option EnvValue → Checked Bool
  | none => .value true
  | some (.boolean value) => .value value
  | some (.text value) =>
    let normalized := String.ofList ((trimJs value).toList.map Char.toLower)
    if normalized ∈ ["1", "true", "yes", "y"] then .value true
    else if normalized ∈ ["0", "false", "no", "n"] then .value false
    -- a plain `Error` inside `preprocess`, which the validator does not catch
    else .threw (.error "Expected boolean-like value")

def defaultSourceTimeoutMs : ℤ := 30000
def defaultSourceRetryAttempts : ℤ := 3
def MIN_CONCURRENCY : ℤ := 1
def MAX_CONCURRENCY : ℤ := 32
def defaultSourceConcurrency : ℤ := 8
def MIN_SPACING_MS : ℤ := 0
def MAX_SPACING_MS : ℤ := 5000
def defaultSourceRequestSpacingMs : ℤ := 250
def MIN_WATCH_INTERVAL_MS : ℤ := 0
def MAX_WATCH_INTERVAL_MS : ℤ := 600000
def DEFAULT_WATCH_INTERVAL_MS : ℤ := 0
def MAX_HEARTBEAT_PATH_LEN : ℕ := 4096
def DEFAULT_WATCH_HEARTBEAT_PATH : String := "/tmp/replays-fetcher-watch.heartbeat"
def MAX_URL_LEN : ℕ := 2048
def MAX_HOSTNAME_LEN : ℕ := 253
def MAX_SSH_COMMAND_LEN : ℕ := 2048
def MAX_S3_REGION_LEN : ℕ := 64
def MAX_S3_BUCKET_LEN : ℕ := 63
def MAX_S3_KEY_ID_LEN : ℕ := 128
def MAX_S3_SECRET_LEN : ℕ := 256
def MAX_S3_PREFIX_LEN : ℕ := 256

def SOURCE_TRANSPORTS : List String := ["direct", "ssh"]

/-- `SourceConfig`, with all that is read for it -/
structure SourceConfig where
  sourceMaxPages : Option ℤ
  sourceConcurrency : ℤ
  sourceRequestSpacingMs : ℤ
  sourceUrl : String
  sourceTransport : String
  sourceSshHost : Option String
  sourceSshCommand : String
  sourceTimeoutMs : ℤ
  sourceRetryAttempts : ℤ
  watchIntervalMs : ℤ
  watchHeartbeatPath : String

/-- Where the raw objects and the checkpoints are. -/
structure S3Config where
  endpoint : String
  region : String
  bucket : String
  accessKeyId : String
  secretAccessKey : String
  forcePathStyle : Bool
  checkpointPrefix : String
  evidencePrefix : String
  conditionalWrites : Bool

/-- Where the staging table is. -/
structure StagingConfig where
  databaseUrl : String

/-- The configuration of the commands that write. -/
structure AppConfig extends SourceConfig where
  s3 : S3Config
  staging : StagingConfig

/-- A text of some characters, but not too many. -/
def boundedString (n : ℕ) (value : Option EnvValue) : Checked String :=
  withChecks [minLength 1, maxLength n] (stringSchema value)

/-- Only a text is taken. -/
def stringOrUndefined : Option EnvValue → Option EnvValue
  | some (.text text) => some (.text text)
  | _ => none

/-- A blank text counts as none. -/
def sourceTransportOrUndefined : Option EnvValue → Option EnvValue
  -- an empty variable is how a compose file leaves it unset
  | some (.text text) => if trimJs text = "" then none else some (.text text)
  | _ => none

/-- The fields of `sourceConfigSchema`, of what `readSourceConfigInput` gives for them. -/
def sourceFields (source : ConfigSource) : Checked SourceConfig :=
  SourceConfig.mk
    <$> fieldAt "sourceMaxPages" (optionalSchema (integerSchema env [minValue 1])
      (source "REPLAY_SOURCE_MAX_PAGES"))
    <*> fieldAt "sourceConcurrency" (defaultSchema defaultSourceConcurrency
      (integerSchema env [minValue MIN_CONCURRENCY, maxValue MAX_CONCURRENCY])
      (source "REPLAY_SOURCE_CONCURRENCY"))
    <*> fieldAt "sourceRequestSpacingMs" (defaultSchema defaultSourceRequestSpacingMs
      (integerSchema env [minValue MIN_SPACING_MS, maxValue MAX_SPACING_MS])
      (source "REPLAY_SOURCE_REQUEST_SPACING_MS"))
    <*> fieldAt "sourceUrl" (urlSchema env MAX_URL_LEN (source "REPLAY_SOURCE_URL"))
    <*> fieldAt "sourceTransport" (defaultSchema "direct" (enumSchema SOURCE_TRANSPORTS)
      (sourceTransportOrUndefined (source "REPLAY_SOURCE_TRANSPORT")))
    <*> fieldAt "sourceSshHost" (optionalSchema (boundedString MAX_HOSTNAME_LEN)
      (stringOrUndefined (source "REPLAY_SOURCE_SSH_HOST")))
    <*> fieldAt "sourceSshCommand" (defaultSchema "curl -fsSL --max-time 30"
      (boundedString MAX_SSH_COMMAND_LEN) (stringOrUndefined (source "REPLAY_SOURCE_SSH_COMMAND")))
    <*> fieldAt "sourceTimeoutMs" (defaultSchema defaultSourceTimeoutMs
      (integerSchema env [minValue 1]) (source "REPLAY_SOURCE_TIMEOUT_MS"))
    <*> fieldAt "sourceRetryAttempts" (defaultSchema defaultSourceRetryAttempts
      (integerSchema env [minValue 0]) (source "REPLAY_SOURCE_RETRY_ATTEMPTS"))
    <*> fieldAt "watchIntervalMs" (defaultSchema DEFAULT_WATCH_INTERVAL_MS
      (integerSchema env [minValue MIN_WATCH_INTERVAL_MS, maxValue MAX_WATCH_INTERVAL_MS])
      (source "REPLAY_WATCH_INTERVAL_MS"))
    <*> fieldAt "watchHeartbeatPath" (defaultSchema DEFAULT_WATCH_HEARTBEAT_PATH
      (boundedString MAX_HEARTBEAT_PATH_LEN)
      (stringOrUndefined (source "REPLAY_WATCH_HEARTBEAT_PATH")))

/-- The `superRefine` of `sourceConfigSchema`. -/
def sshHostIssues (config : SourceConfig) : List Issue :=
  -- the host is needed for one transport only
  if config.sourceTransport = "ssh" ∧ config.sourceSshHost = none then
    [{ path := ["sourceSshHost"]
       problem := .custom "REPLAY_SOURCE_SSH_HOST is required when REPLAY_SOURCE_TRANSPORT=ssh" }]
  else []

/-- The fields of the source, and then what they have to agree on. -/
def sourceConfigSchema (source : ConfigSource) : Checked SourceConfig :=
  (sourceFields env source).refine sshHostIssues

/-- The fields of the object store. -/
def s3Schema (source : ConfigSource) : Checked S3Config :=
  S3Config.mk
    <$> fieldAt "endpoint" (urlSchema env MAX_URL_LEN (source "S3_ENDPOINT"))
    <*> fieldAt "region" (boundedString MAX_S3_REGION_LEN (source "S3_REGION"))
    <*> fieldAt "bucket" (boundedString MAX_S3_BUCKET_LEN (source "S3_BUCKET"))
    <*> fieldAt "accessKeyId" (boundedString MAX_S3_KEY_ID_LEN (source "S3_ACCESS_KEY_ID"))
    <*> fieldAt "secretAccessKey" (boundedString MAX_S3_SECRET_LEN (source "S3_SECRET_ACCESS_KEY"))
    <*> fieldAt "forcePathStyle" (booleanFromEnvironment (source "S3_FORCE_PATH_STYLE"))
    <*> fieldAt "checkpointPrefix" (defaultSchema "checkpoints" (boundedString MAX_S3_PREFIX_LEN)
      (source "S3_CHECKPOINT_PREFIX"))
    <*> fieldAt "evidencePrefix" (defaultSchema "runs" (boundedString MAX_S3_PREFIX_LEN)
      (source "S3_EVIDENCE_PREFIX"))
    <*> fieldAt "conditionalWrites" (booleanFromEnvironment
      (source "S3_CHECKPOINT_CONDITIONAL_WRITES"))

/-- The database URL. -/
def stagingSchema (source : ConfigSource) : Checked StagingConfig :=
  StagingConfig.mk <$> fieldAt "databaseUrl" (urlSchema env MAX_URL_LEN (source "DATABASE_URL"))

/-- All three, side by side: the issues of one do not hide those of another. -/
def configSchema (source : ConfigSource) : Checked AppConfig :=
  -- the refinement looks at the fields of the source, below `s3` and `staging`
  (AppConfig.mk <$> sourceFields env source <*> fieldAt "s3" (s3Schema env source)
    <*> fieldAt "staging" (stagingSchema env source)).refine
      fun config => sshHostIssues config.toSourceConfig

/-! ## Loading -/

/-- What loading throws: a `ConfigValidationError`, or another exception. -/
inductive ConfigError
  | configValidation (issues : List String)
  | other (error : JsError)
  deriving DecidableEq

/-- `${issue.path.join(".")}: ${issue.message}` -/
def issueText (issue : Issue) : String :=
  ".".intercalate issue.path ++ ": " ++
    match issue.problem with
    | .custom message => message
    | problem => env.message problem

/-- `if (!result.success) throw new ConfigValidationError(…)` -/
def parsed {α : Type} : Checked α → Except ConfigError α
  | .threw error => .error (.other error)
  | .issues issues => .error (.configValidation (issues.map (issueText env)))
  -- a value to go on with does not make it a success
  | .flawed issues _ => .error (.configValidation (issues.map (issueText env)))
  | .value config => .ok config

/-- `loadConfig`: the whole configuration, or the issues found. -/
def loadConfig (source : ConfigSource) : Except ConfigError AppConfig :=
  parsed env (configSchema env source)

/-- `loadSourceConfig`: the fields of the source alone. -/
def loadSourceConfig (source : ConfigSource) : Except ConfigError SourceConfig :=
  parsed env (sourceConfigSchema env source)

end Schemas

end ReplaysFetcher.Config
