/-
  The command line (`src/cli.ts`, `src/commands/`, `src/check/`).

  Five commands.  Each loads its configuration, opens the clients it needs, runs one of the programs
  of this development, prints one JSON document and sets the exit code; whatever it throws is caught
  around it, reported, and turned into the exit code 1.

  A command speaks two signatures.  On the left are the requests of the services, as everywhere else:
  what a run, a watcher or a discovery asks is lifted unchanged (`service`).  On the right is what
  belongs to the process: its clients, its signal handlers, its output and its exit code
  (`CliEffect`).

  The parsing of the arguments is left out: a command comes with its options.
-/
import ReplaysFetcher.ContractCheck
import ReplaysFetcher.Effectful.Sums
import ReplaysFetcher.KeyBuilding
import ReplaysFetcher.StoreRaw
import ReplaysFetcher.Watch

namespace ReplaysFetcher.Cli

open Effectful Config

/-! ## Connectivity -/

/-- How a probe came out. -/
inductive ConnectivityCheckStatus
  | passed | failed
  deriving DecidableEq, Repr

/-- The categories that `check` reports. -/
inductive ConnectivityFailureCategory
  | rateLimited | s3Unavailable | sourceTransient | sourceUnavailable | stagingUnavailable
  deriving DecidableEq, Repr

/-- The result of one probe. -/
structure ConnectivityCheck where
  failureCategory : Option ConnectivityFailureCategory := none
  message : Option String := none
  status : ConnectivityCheckStatus
  deriving DecidableEq, Repr

/-- The results of the three probes. -/
structure ConnectivityCheckResults where
  s3Connectivity : ConnectivityCheck
  sourceConnectivity : ConnectivityCheck
  stagingConnectivity : ConnectivityCheck
  deriving DecidableEq, Repr

/-- All three passed. -/
def connectivityOk (checks : ConnectivityCheckResults) : Bool :=
  checks.s3Connectivity.status = .passed && checks.sourceConnectivity.status = .passed &&
    checks.stagingConnectivity.status = .passed

/-- `failureCategory: error.code` -/
def failureCategoryOf : SourceFetchCode → ConnectivityFailureCategory
  | .rateLimited => .rateLimited
  | .sourceTransient => .sourceTransient
  | .sourceUnavailable => .sourceUnavailable

/-- A probe that failed, and why. -/
def failedCheck (failureCategory : ConnectivityFailureCategory) (message : String) :
    ConnectivityCheck :=
  { failureCategory := some failureCategory, message := some message, status := .failed }

/-- Is there a database? -/
def basicReadSql : String := "select 1"

/-- Can the staging table be read? -/
def stagingReadSql : String := "select 1 from ingest_staging_records limit 1"

/-! ## Secrets -/

/-- The UTF-16 code units of a text. -/
def codeUnits (text : String) : List ℕ :=
  text.toList.flatMap fun c =>
    if c.toNat < 0x10000 then [c.toNat]
    else [0xD800 + (c.toNat - 0x10000) / 0x400, 0xDC00 + (c.toNat - 0x10000) % 0x400]

/-- `redactSecret`; it cuts code units, so that what it gives need not be a text. -/
def redactSecret (value : String) : List ℕ :=
  if (codeUnits value).length ≤ 4 then codeUnits "****"
  else (codeUnits value).take 2 ++ codeUnits "****" ++
    (codeUnits value).drop ((codeUnits value).length - 2)

/-- The store's configuration as `check` prints it; the secrets are code units. -/
structure RedactedS3Config where
  endpoint : String
  region : String
  bucket : String
  accessKeyId : List ℕ
  secretAccessKey : List ℕ
  forcePathStyle : Bool
  checkpointPrefix : String
  evidencePrefix : String
  conditionalWrites : Bool

/-- The configuration as `check` prints it. -/
structure RedactedAppConfig extends Config.SourceConfig where
  s3 : RedactedS3Config
  staging : StagingConfig

/-- The two keys are shortened, the SSH command and the database URL replaced. -/
def redactConfig (config : AppConfig) : RedactedAppConfig where
  toSourceConfig :=
    { config.toSourceConfig with sourceSshCommand := "[redacted-source-ssh-command]" }
  s3 :=
    { endpoint := config.s3.endpoint
      region := config.s3.region
      bucket := config.s3.bucket
      accessKeyId := redactSecret config.s3.accessKeyId
      secretAccessKey := redactSecret config.s3.secretAccessKey
      forcePathStyle := config.s3.forcePathStyle
      checkpointPrefix := config.s3.checkpointPrefix
      evidencePrefix := config.s3.evidencePrefix
      conditionalWrites := config.s3.conditionalWrites }
  staging := { databaseUrl := "[redacted-database-url]" }

/-! ## Documents -/

/-- What `run-once` prints when its configuration is refused. -/
structure RunConfigFailureSummary where
  counts : RunSummaryCounts
  failureCategories : List RunFailureCategory
  finishedAt : String
  issues : List String
  mode : RunMode
  ok : Bool
  runId : String
  startedAt : String

/-- Nothing was counted. -/
def emptyCounts : RunSummaryCounts where
  conflict := 0
  diagnostics := 0
  discovered := 0
  duplicate := 0
  failed := 0
  fetched := 0
  skipped := 0
  skippedBySourceId := 0
  skippedPreDetail := 0
  staged := 0
  stored := 0

/-- `buildConfigInvalidRunSummary`; the watcher uses it as well, and its mode is `run-once` then. -/
def buildConfigInvalidRunSummary (finishedAt : String) (issues : List String)
    (runId startedAt : String) : RunConfigFailureSummary where
  counts := emptyCounts
  failureCategories := [.configInvalid]
  finishedAt := finishedAt
  issues := issues
  mode := .runOnce
  ok := false
  runId := runId
  startedAt := startedAt

/-- What a command prints. -/
inductive Document
  | run (summary : CompactRunSummary)
  | configInvalid (summary : RunConfigFailureSummary)
  | check (ok : Bool) (checks : ConnectivityCheckResults) (config : RedactedAppConfig)
  | checkConfigInvalid (issues : List String)
  | contractCheck (result : ContractCheckResult)
  | contractCheckConfigInvalid (issues : List String)
  | discovery (report : DiscoveryReport)
  | storeRaw (report : StoreRawReport)
  | refused (error : String) (issues : Option (List String))

/-- The `ok` of a document. -/
def Document.ok : Document → Bool
  | run summary => summary.ok
  | configInvalid summary => summary.ok
  | check ok _ _ => ok
  | contractCheck result => result.ok
  | discovery report => report.ok
  | storeRaw report => report.ok
  | checkConfigInvalid _ | contractCheckConfigInvalid _ | refused _ _ => false

/-! ## Requests -/

/-- The signals that end a watch. -/
inductive Signal
  | sigterm | sigint
  deriving DecidableEq, Repr

/-- What a command asks of its process.  `fetchText` is a read of the source client without options,
    with the cause of its error. -/
inductive CliEffect
  | randomUUID
  | createS3Client (config : S3Config)
  | createPgPool (databaseUrl : String)
  | fetchText (url : Url)
  | headBucket (bucket : String)
  | query (text : String)
  | destroyS3Client
  | endPool
  | once (signal : Signal)
  | removeListener (signal : Signal)
  | writeJson (document : Document)
  | setExitCode (exitCode : ℕ)
  | flushLogger
  | warn (message : String)
  | captureFatal (error : JsError)
  | flushSentry

/-- The replies.  A probe is rejected with the message of its error, if it is one. -/
@[reducible] def CliReply : CliEffect → Type
  | .randomUUID => String
  | .createS3Client _ => Except JsError Unit
  | .createPgPool _ => Except JsError Unit
  | .fetchText _ => Except ProbeFailure String
  | .headBucket _ => Except (Option String) Unit
  | .query _ => Except (Option String) Unit
  | .destroyS3Client => Except JsError Unit
  | .endPool => Except JsError Unit
  | .once _ => Unit
  | .removeListener _ => Unit
  | .writeJson _ => Unit
  | .setExitCode _ => Unit
  | .flushLogger => Except JsError Unit
  | .warn _ => Unit
  | .captureFatal _ => Unit
  | .flushSentry => Bool

/-- A command, or a part of one. -/
abbrev CliTask (Text : Type) (α : Type) : Type 1 :=
  Async (Effect Text ⊕ CliEffect) (Sum.elim Reply CliReply) JsError α

/-- A part that cannot throw. -/
abbrev CliProgram (Text : Type) (α : Type) : Type 1 :=
  Proc (Effect Text ⊕ CliEffect) (Sum.elim Reply CliReply) α

section Commands

variable {Text : Type}

/-- A command's request. -/
def ask (e : CliEffect) : CliProgram Text (CliReply e) :=
  Proc.perform (E := Effect Text ⊕ CliEffect) (R := Sum.elim Reply CliReply) (Sum.inr e)

/-- A program of the services. -/
def service {α : Type} (p : Program Text α) : CliProgram Text α := Proc.inl p

/-- `new Date()` -/
def currentTime : CliProgram Text Date := service nowRequest

/-- What is thrown, or not, without a request. -/
def computed {α : Type} (value : Except JsError α) : CliTask Text α := Proc.pure value

/-- The one document of a command goes to the standard output. -/
def writeJson (document : Document) : CliProgram Text Unit := ask (.writeJson document)

/-- `process.exitCode = exitCode` -/
def setExitCode (exitCode : ℕ) : CliProgram Text Unit := ask (.setExitCode exitCode)

/-- The logger's flush, which may reject. -/
def flushLogger : CliTask Text Unit :=
  (ask .flushLogger : CliProgram Text (Except JsError Unit))

/-- `if (!ok) { process.exitCode = 2; }` -/
def exitUnless (ok : Bool) : CliProgram Text Unit := if ok then .pure () else setExitCode 2

/-- A document about a command that does nothing. -/
def refuse (document : Document) : CliTask Text Unit := do
  (writeJson document : CliProgram Text Unit)
  (setExitCode 2 : CliProgram Text Unit)

/-! ## Clients -/

/-- The client is only configured, but its constructor may throw. -/
def createS3Client (config : S3Config) : CliTask Text Unit :=
  (ask (.createS3Client config) : CliProgram Text (Except JsError Unit))

/-- So may the pool's. -/
def createPgPool (databaseUrl : String) : CliTask Text Unit :=
  (ask (.createPgPool databaseUrl) : CliProgram Text (Except JsError Unit))

/-- The clients of `createStoreRawResources`. -/
def createStoreRawResources (config : AppConfig) (shouldStage : Bool) : CliTask Text Unit := do
  createS3Client config.s3
  if shouldStage then createPgPool config.staging.databaseUrl else pure ()

/-- One leg of a teardown: an error is logged. -/
def closing (close : CliProgram Text (Except JsError Unit)) (message : String) : CliProgram Text Unit :=
  close.bind fun
    | .ok _ => .pure ()
    | .error _ => ask (.warn message)

/-- `dispose`, with the flag it closes over; it gives the flag it leaves. -/
def dispose (hasPool disposed : Bool) : CliProgram Text Bool :=
  if disposed then .pure true
  else
    (closing (ask .destroyS3Client) "S3Client.destroy() threw during teardown").bind fun _ =>
    (if hasPool then closing (ask .endPool) "pg.Pool.end() threw during teardown"
      else .pure ()).bind fun _ => .pure true

/-! ## Configurations -/

/-- `AppConfigResult`, in the catch of `loadStoreRawConfig` and of `loadDryRunSourceConfig`: an error
    of another class is thrown again. -/
def configResult {α : Type} : Except ConfigError α → Except JsError (List String ⊕ α)
  | .ok config => .ok (.inr config)
  | .error (.configValidation issues) => .ok (.inl issues)
  | .error (.other error) => .error error

/-- The flags of `run-once`. -/
structure RunOnceOptions where
  emitEvidence : Bool := false
  evidenceFile : Option String := none
  resume : Bool := false

/-- A run id has its prefix. -/
theorem createRunId_ne_empty (now : Date) (uuid : String) : KeyBuilding.createRunId now uuid ≠ "" := by
  intro h
  have hchars := congrArg String.toList h
  unfold KeyBuilding.createRunId at hchars
  simp at hchars

/-- What a run is called with. -/
def runConfigOf (config : AppConfig) (options : RunOnceOptions) (startedAt : Date) (uuid : String)
    (sourceUrl : Url) : RunConfig where
  attempts := some config.sourceRetryAttempts.toNat
  bucket := config.s3.bucket
  checkpointOptions :=
    { conditionalWrites := config.s3.conditionalWrites, keyPrefix := config.s3.checkpointPrefix }
  concurrency := config.sourceConcurrency.toNat
  emitEvidence := some options.emitEvidence
  evidenceFile := options.evidenceFile
  maxPages := config.sourceMaxPages.map Int.toNat
  requestSpacingMs := config.sourceRequestSpacingMs.toNat
  resume := some options.resume
  runId := KeyBuilding.createRunId startedAt uuid
  runId_ne_empty := createRunId_ne_empty startedAt uuid
  sourceUrl := sourceUrl

/-- What a watcher is called with. -/
def watchConfigOf (config : AppConfig) (sourceUrl : Url) : WatchConfig where
  attempts := some config.sourceRetryAttempts.toNat
  bucket := config.s3.bucket
  concurrency := config.sourceConcurrency.toNat
  heartbeatPath := config.watchHeartbeatPath
  intervalMs := config.watchIntervalMs.toNat
  requestSpacingMs := config.sourceRequestSpacingMs.toNat
  sourceUrl := sourceUrl

/-- What a store-raw discovery is called with. -/
def storeRawConfigOf (config : AppConfig) (shouldStage : Bool) (sourceUrl : Url) : StoreRawConfig where
  attempts := some config.sourceRetryAttempts.toNat
  bucket := config.s3.bucket
  shouldStage := shouldStage
  sourceUrl := sourceUrl

/-! ## Commands -/

variable {pf : Platform Text} (reader : SourceReader pf) (env : TextReader pf) (isJson : String → Bool)
  (environment : ConfigSource)

/-- The summary of a run that has not begun. -/
def configInvalid (startedAt : Date) (uuid : String) (issues : List String) : CliTask Text Unit := do
  let finishedAt ← (currentTime : CliProgram Text Date)
  let summary := buildConfigInvalidRunSummary (toISOString finishedAt) issues
    (KeyBuilding.createRunId startedAt uuid) (toISOString startedAt)
  (writeJson (.configInvalid summary) : CliProgram Text Unit)
  (setExitCode (runExitCode summary.ok none) : CliProgram Text Unit)

variable (pf) in
/-- `run-once`, with its configuration. -/
def runOnceWith (options : RunOnceOptions) (startedAt : Date) (uuid : String) (config : AppConfig) :
    CliTask Text Unit := do
  createStoreRawResources config true
  let sourceUrl ← computed (newUrl pf config.sourceUrl)
  let result ← (service ((runConfigOf config options startedAt uuid sourceUrl).run pf) :
    CliTask Text RunOnceResult)
  (writeJson (.run (toCompactSummary result.summary)) : CliProgram Text Unit)
  flushLogger
  (setExitCode result.exitCode : CliProgram Text Unit)

/-- `run-once` -/
def runOnceCommand (options : RunOnceOptions) : CliTask Text Unit := do
  let startedAt ← (currentTime : CliProgram Text Date)
  let uuid ← (ask .randomUUID : CliProgram Text String)
  let result ← computed (configResult (loadConfig env environment))
  match result with
  | .inl issues => configInvalid startedAt uuid issues
  | .inr config => runOnceWith pf options startedAt uuid config

/-- The `try` of `watch`. -/
def watchLoop (config : AppConfig) : CliTask Text Unit := do
  let sourceUrl ← computed (newUrl pf config.sourceUrl)
  let exitCode ← (service ((watchConfigOf config sourceUrl).loop reader) : CliProgram Text ℕ)
  flushLogger
  (setExitCode exitCode : CliProgram Text Unit)

/-- The `finally` of `watch`. -/
def watchTeardown : CliTask Text Unit := do
  let _ ← (dispose true false : CliProgram Text Bool)
  (ask (.removeListener .sigterm) : CliProgram Text Unit)
  (ask (.removeListener .sigint) : CliProgram Text Unit)

/-- `watch`, with its configuration. -/
def watchWith (config : AppConfig) : CliTask Text Unit := do
  createStoreRawResources config true
  (ask (.once .sigterm) : CliProgram Text Unit)
  (ask (.once .sigint) : CliProgram Text Unit)
  Async.ensure (watchLoop reader config) watchTeardown

/-- `watch` -/
def watchCommand : CliTask Text Unit := do
  let startedAt ← (currentTime : CliProgram Text Date)
  let uuid ← (ask .randomUUID : CliProgram Text String)
  let result ← computed (configResult (loadConfig env environment))
  match result with
  | .inl issues => configInvalid startedAt uuid issues
  | .inr config => watchWith reader config

/-- One read of the source; only a source failure is a failed check. -/
def checkSourceConnectivity (sourceUrl : Url) : CliTask Text ConnectivityCheck :=
  (ask (.fetchText sourceUrl) : CliProgram Text (Except ProbeFailure String)).bind fun
    | .ok _ => .pure (.ok { status := .passed })
    | .error (.sourceFetch failure _) =>
      .pure (.ok (failedCheck (failureCategoryOf failure.code) failure.message))
    | .error (.other error) => .pure (.error error)

/-- One HEAD of the bucket. -/
def checkS3Connectivity (bucket : String) : CliProgram Text ConnectivityCheck :=
  (ask (.headBucket bucket) : CliProgram Text (Except (Option String) Unit)).bind fun
    | .ok _ => .pure { status := .passed }
    | .error message => .pure (failedCheck .s3Unavailable (message.getD "S3 check failed"))

/-- The `catch` of `checkPostgresConnectivity`. -/
def stagingUnavailable (message : Option String) : ConnectivityCheck :=
  failedCheck .stagingUnavailable (message.getD "PostgreSQL check failed")

/-- Two statements, the second one only after the first. -/
def checkPostgresConnectivity : CliProgram Text ConnectivityCheck :=
  (ask (.query basicReadSql) : CliProgram Text (Except (Option String) Unit)).bind fun
    | .error message => .pure (stagingUnavailable message)
    | .ok _ =>
      (ask (.query stagingReadSql) : CliProgram Text (Except (Option String) Unit)).bind fun
        | .error message => .pure (stagingUnavailable message)
        | .ok _ => .pure { status := .passed }

/-- The pool is ended in any case. -/
def runStagingCheck : CliTask Text ConnectivityCheck :=
  Async.ensure (ExceptT.lift checkPostgresConnectivity) (ask .endPool : CliProgram Text (Except JsError Unit))

variable (pf) in
/-- `check`, with its configuration. -/
def checkWith (config : AppConfig) : CliTask Text Unit := do
  createS3Client config.s3
  createPgPool config.staging.databaseUrl
  let sourceUrl ← computed (newUrl pf config.sourceUrl)
  let sourceConnectivity ← checkSourceConnectivity sourceUrl
  let s3Connectivity ← (checkS3Connectivity config.s3.bucket : CliProgram Text ConnectivityCheck)
  let stagingConnectivity ← runStagingCheck
  let checks : ConnectivityCheckResults :=
    { s3Connectivity, sourceConnectivity, stagingConnectivity }
  (writeJson (.check (connectivityOk checks) checks (redactConfig config)) : CliProgram Text Unit)
  (exitUnless (connectivityOk checks) : CliProgram Text Unit)

/-- `check` -/
def checkCommand : CliTask Text Unit := do
  let result ← computed (configResult (loadConfig env environment))
  match result with
  | .inl issues => refuse (.checkConfigInvalid issues)
  | .inr config => checkWith pf config

/-- `contract-check`, with its configuration. -/
def contractCheckWith (config : Config.SourceConfig) : CliTask Text Unit := do
  let sourceUrl ← computed (newUrl pf config.sourceUrl)
  let result ← runContractCheck reader.toHtmlReader isJson
    (fun url => (ask (.fetchText url) : CliProgram Text (Except ProbeFailure String))) sourceUrl
  (writeJson (.contractCheck result) : CliProgram Text Unit)
  (exitUnless result.ok : CliProgram Text Unit)

/-- `contract-check` -/
def contractCheckCommand : CliTask Text Unit := do
  let result ← computed (configResult (loadSourceConfig env environment))
  match result with
  | .inl issues => refuse (.contractCheckConfigInvalid issues)
  | .inr config => contractCheckWith reader isJson config

/-- `runDryRunDiscovery`, with its configuration.  The run id is for the log alone. -/
def dryRunWith (config : Config.SourceConfig) : CliTask Text Unit := do
  let _ ← (currentTime : CliProgram Text Date)
  let _ ← (ask .randomUUID : CliProgram Text String)
  let sourceUrl ← computed (newUrl pf config.sourceUrl)
  let report ← (service (discoverReplaysDryRun reader (DiscoverInput.dryRunOptions
    { attempts := some config.sourceRetryAttempts.toNat, sourceUrl := sourceUrl })) :
    CliTask Text DiscoveryReport)
  (writeJson (.discovery report) : CliProgram Text Unit)
  (exitUnless report.ok : CliProgram Text Unit)

/-- `discover --dry-run` -/
def runDryRunDiscovery : CliTask Text Unit := do
  let result ← computed (configResult (loadSourceConfig env environment))
  match result with
  | .inl issues => refuse (.refused "discover dry-run configuration is invalid" (some issues))
  | .inr config => dryRunWith reader config

/-- `runStoreRawDiscovery`, with its configuration. -/
def storeRawWith (shouldStage : Bool) (config : AppConfig) : CliTask Text Unit := do
  createStoreRawResources config shouldStage
  let sourceUrl ← computed (newUrl pf config.sourceUrl)
  let report ← (service (discoverAndStore reader (storeRawConfigOf config shouldStage sourceUrl)) :
    CliTask Text StoreRawReport)
  (writeJson (.storeRaw report) : CliProgram Text Unit)
  (exitUnless report.ok : CliProgram Text Unit)

/-- `discover --store-raw`, with or without `--stage` -/
def runStoreRawDiscovery (shouldStage : Bool) : CliTask Text Unit := do
  let result ← computed (configResult (loadConfig env environment))
  match result with
  | .inl issues => refuse (.refused "discover store-raw configuration is invalid" (some issues))
  | .inr config => storeRawWith reader shouldStage config

/-- The flags of `discover`. -/
structure DiscoverOptions where
  dryRun : Bool := false
  stage : Bool := false
  storeRaw : Bool := false

/-- The flags are checked before the configuration is read. -/
def discoverCommand (options : DiscoverOptions) : CliTask Text Unit :=
  if options.dryRun ∧ options.storeRaw then
    refuse (.refused "discover accepts only one mode: --dry-run or --store-raw" none)
  else if options.stage ∧ ¬ options.storeRaw then
    refuse (.refused "discover --stage requires --store-raw" none)
  else if options.storeRaw then runStoreRawDiscovery reader env environment options.stage
  else if ¬ options.dryRun then
    refuse (.refused "discover requires --dry-run or --store-raw" none)
  else runDryRunDiscovery reader env environment

/-- What the arguments say. -/
inductive CommandLine
  | check
  | contractCheck
  | discover (options : DiscoverOptions)
  | runOnce (options : RunOnceOptions)
  | watch

/-- The command that was asked for. -/
def action : CommandLine → CliTask Text Unit
  | .check => checkCommand env environment
  | .contractCheck => contractCheckCommand reader env isJson environment
  | .discover options => discoverCommand reader env environment options
  | .runOnce options => runOnceCommand env environment options
  | .watch => watchCommand reader env environment

/-- The `catch` of the entry point. -/
def crash (error : JsError) : CliProgram Text Unit :=
  (ask (.captureFatal error)).bind fun _ => setExitCode 1

/-- What is left to do about how a command ended. -/
def settle : Except JsError Unit → CliProgram Text Unit
  | .ok _ => .pure ()
  | .error error => crash error

/-- `src/cli.ts`, run as a program. -/
def entryPoint (command : CommandLine) : CliProgram Text Unit :=
  Proc.bind (action reader env isJson environment command) fun outcome =>
    (settle outcome).bind fun _ => (ask .flushSentry).bind fun _ => .pure ()

end Commands

end ReplaysFetcher.Cli
