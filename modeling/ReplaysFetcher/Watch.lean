/-
  The watch loop (`src/run/watch-loop.ts`, `src/commands/watch.ts`).

  A cycle reads page 1, fans its candidates out with both dedup gates on, and logs one compact
  summary.  It knows no checkpoint.  The loop runs one cycle after the other until it is told to
  stop; a cycle that rejects is logged and the loop goes on.

  `runWatchLoop` is generic in its dependencies.  All that a cycle calls may reject, for that is what
  becomes of an exception inside it, except for the log; `WatchConfig.loop` is the loop wired to the
  real discovery, storage and staging.
-/
import ReplaysFetcher.DryRun
import ReplaysFetcher.RunOnce

namespace ReplaysFetcher

open Effectful

/-- A watcher looks at the first page only. -/
def WATCH_PAGE : ℕ := 1

/-- What a cycle passes to `discoverReplays`. -/
structure WatchDiscoverInput (E : Type) (R : E → Type) where
  attempts : Option ℕ
  existsBySourceIdentity : String → String → Async E R JsError Bool
  maxPages : ℕ
  requestDelayMs : ℕ
  sourceSystem : String
  sourceUrl : Url

/-- What the loop is called with. -/
structure WatchLoopInput (E : Type) (R : E → Type) where
  attempts : Option ℕ := none
  /-- the pacer's floor, which persists across cycles -/
  awaitFloor : Async E R JsError Unit
  concurrency : ℕ
  createRunId : Date → Async E R JsError String
  discoverReplays : WatchDiscoverInput E R → Async E R JsError DiscoveryReport
  existsBySourceIdentity : String → String → Async E R JsError Bool
  heartbeatPath : String
  intervalMs : ℕ
  log : LogLine → Proc E R Unit
  now : Async E R JsError Date
  requestSpacingMs : ℕ
  shouldStop : Proc E R Bool
  sleep : ℕ → Proc E R Unit
  sourceUrl : Url
  stageRawReplay : StoreRawReplayResult → Option String → Async E R JsError IngestStagingResult
  storeRawReplay : ReplayCandidate → Async E R JsError StoreRawReplayResult
  writeHeartbeat : String → String → Async E R JsError Unit

section Loop

variable {E : Type} {R : E → Type} (input : WatchLoopInput E R)

/-- The discovery of a cycle, with its gate. -/
def buildDiscoverInput : WatchDiscoverInput E R where
  attempts := input.attempts
  existsBySourceIdentity := input.existsBySourceIdentity
  maxPages := WATCH_PAGE
  requestDelayMs := input.requestSpacingMs
  sourceSystem := defaultSourceSystem
  sourceUrl := input.sourceUrl

/-- The ingest of a cycle, with its gate. -/
def watchIngestInput (runId : String) (candidates : List ReplayCandidate) :
    IngestPageInput E R where
  candidates := candidates
  existsBySourceIdentity := some input.existsBySourceIdentity
  limit := input.concurrency
  prefetchDedup := some true
  runId := runId
  sourceSystem := some defaultSourceSystem
  stageRawReplay := input.stageRawReplay
  storeRawReplay := input.storeRawReplay

/-- The summary of a cycle. -/
def watchSummary (runId : String) (startedAt finishedAt : Date) (report : DiscoveryReport)
    (result : IngestPageResult) : RunSummary :=
  buildRunSummary
    { discoveryReport := report
      finishedAt := toISOString finishedAt
      mode := some .watch
      rawStorage := result.rawStorage
      runId := runId
      skippedBySourceId := some result.counts.skippedBySourceId
      staging := result.staging
      startedAt := toISOString startedAt }

/-- One cycle.  It resolves with the summary it has logged, which the source drops. -/
def runCycle : Async E R JsError RunSummary := do
  let cycleStart ← input.now
  let runId ← input.createRunId cycleStart
  input.awaitFloor
  let report ← input.discoverReplays (buildDiscoverInput input)
  let result ← ingestPage (watchIngestInput input runId report.candidates)
  let finishedAt ← input.now
  let summary := watchSummary runId cycleStart finishedAt report result
  (input.log (.watchCycleComplete (toCompactSummary summary)) : Proc E R Unit)
  pure summary

/-- The `try` of the loop's body: the cycle, then the heartbeat. -/
def cycleWithHeartbeat : Async E R JsError Unit := do
  let _ ← runCycle input
  let now ← input.now
  input.writeHeartbeat input.heartbeatPath (toISOString now)

/-- One turn of the loop: `inl` goes on, `inr` leaves. -/
def watchIteration : Proc E R (Unit ⊕ Unit) :=
  input.shouldStop.bind fun stop =>
    if stop then .pure (.inr ())
    else
      Proc.bind (cycleWithHeartbeat input) fun outcome =>
        Proc.bind
          (match outcome with
            | .ok _ => .pure ()
            | .error error => input.log (.watchCycleFailed error)) fun _ =>
        input.shouldStop.bind fun stop =>
          if stop then .pure (.inr ())
          else (input.sleep input.intervalMs).bind fun _ => .pure (.inl ())

/-- The loop; its only exit code is 0. -/
def runWatchLoop : Proc E R ℕ :=
  (Proc.iterate (fun _ => watchIteration input) ()).bind fun _ => .pure 0

end Loop

/-! ## The wiring -/

/-- What a watcher is configured with. -/
structure WatchConfig where
  attempts : Option ℕ := none
  bucket : String
  concurrency : ℕ
  heartbeatPath : String
  intervalMs : ℕ
  requestSpacingMs : ℕ
  sourceUrl : Url

section Wiring

variable {Text : Type} {pf : Platform Text} (reader : SourceReader pf)

/-- The discovery of a cycle, over source reads. -/
def watchDiscoverReplays (input : WatchDiscoverInput (Effect Text) Reply) :
    Task Text DiscoveryReport :=
  discoverReplaysDryRun reader
    { attempts := input.attempts
      existsBySourceIdentity := some input.existsBySourceIdentity
      fetchText := fun url _ => Proc.perform (Effect.fetchText url)
      maxPages := some input.maxPages
      requestDelayMs := some input.requestDelayMs
      sleep := fun milliseconds => Proc.perform (Effect.sleep milliseconds)
      sourceSystem := some input.sourceSystem
      sourceUrl := input.sourceUrl }

/-- What `watch` passes to the loop. -/
def WatchConfig.toInput (config : WatchConfig) : WatchLoopInput (Effect Text) Reply where
  attempts := config.attempts
  awaitFloor := ExceptT.lift (Proc.perform Effect.awaitFloor)
  concurrency := config.concurrency
  createRunId now := ExceptT.lift (Proc.perform (Effect.createRunId now))
  discoverReplays := watchDiscoverReplays reader
  existsBySourceIdentity := existsBySourceIdentity
  heartbeatPath := config.heartbeatPath
  intervalMs := config.intervalMs
  log line := Proc.perform (Effect.log line)
  now := ExceptT.lift nowRequest
  requestSpacingMs := config.requestSpacingMs
  shouldStop := Proc.perform Effect.shouldStop
  sleep milliseconds := Proc.perform (Effect.sleep milliseconds)
  sourceUrl := config.sourceUrl
  stageRawReplay := stageRawReplay pf
  storeRawReplay := storeRawReplay pf config.bucket
  writeHeartbeat path timestamp := Proc.perform (Effect.writeHeartbeat path timestamp)

/-- The same watcher over other requests: `services` stands for the services, `fetchText` for the
    source client and `awaitFloor` for the pacer. -/
def WatchConfig.wired {E : Type} {R : E → Type} (config : WatchConfig)
    (services : (e : Effect Text) → Proc E R (Reply e))
    (fetchText : Url → SourceReadOptions → Async E R JsError String)
    (awaitFloor : Proc E R Unit) : WatchLoopInput E R where
  attempts := config.attempts
  awaitFloor := ExceptT.lift awaitFloor
  concurrency := config.concurrency
  createRunId now := ExceptT.lift (services (.createRunId now))
  discoverReplays input := discoverReplaysDryRun reader
    { attempts := input.attempts
      existsBySourceIdentity := some input.existsBySourceIdentity
      fetchText := fetchText
      maxPages := some input.maxPages
      requestDelayMs := some input.requestDelayMs
      sleep := fun milliseconds => services (.sleep milliseconds)
      sourceSystem := some input.sourceSystem
      sourceUrl := input.sourceUrl }
  existsBySourceIdentity sourceSystem sourceReplayId :=
    services (.existsBySourceIdentity sourceSystem sourceReplayId)
  heartbeatPath := config.heartbeatPath
  intervalMs := config.intervalMs
  log line := services (.log line)
  now := ExceptT.lift (services .now)
  requestSpacingMs := config.requestSpacingMs
  shouldStop := services .shouldStop
  sleep milliseconds := services (.sleep milliseconds)
  sourceUrl := config.sourceUrl
  stageRawReplay rawResult runId := Proc.handle services (stageRawReplay pf rawResult runId)
  storeRawReplay candidate := Proc.handle services (storeRawReplay pf config.bucket candidate)
  writeHeartbeat path timestamp := services (.writeHeartbeat path timestamp)

/-- One cycle of the watcher. -/
def WatchConfig.cycle (config : WatchConfig) : Task Text RunSummary :=
  runCycle (config.toInput reader)

/-- The watcher. -/
def WatchConfig.loop (config : WatchConfig) : Program Text ℕ :=
  runWatchLoop (config.toInput reader)

end Wiring

/-! ## A cycle to compute with -/

/-- A watcher over the source `a`. -/
def toyWatch : WatchConfig where
  bucket := "bucket"
  concurrency := 1
  heartbeatPath := "heartbeat"
  intervalMs := 0
  requestSpacingMs := 0
  sourceUrl := { protocol := "https:", host := "a", pathname := "" }

/-- A source with one text for every page. -/
def toySource (text : String) : Script where
  reports _ := .error (.error "no list")
  pageText _ := .ok text
  bytes _ := .ok [7]

end ReplaysFetcher
