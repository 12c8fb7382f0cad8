/-
  One `run-once` invocation (`src/run/run-once*.ts`, `src/source/throttle.ts`).

  A run reads the checkpoint of its source, decides where to start, and then takes one list page
  after the other: discover, fan out, checkpoint, decide whether to go on.  When the loop has ended
  well it writes the checkpoint once more as `complete`, and reports.

  Like the source, the module is generic in what it is wired to: the checkpoint store, discovery,
  storage and staging, the clock, the log and the pacer are fields of `RunOnceInput`.  `LoopState`
  is the source's, together with the two objects the loop also mutates, the throttle controller and
  the limiter's concurrency.
-/
import ReplaysFetcher.Ingest

namespace ReplaysFetcher

open Effectful

/-! ## The AIMD throttle -/

/-- The variables of a throttle controller. -/
structure ThrottleState where
  concurrency : ℕ
  pacingFloorMs : ℕ
  rateLimitedStreak : ℕ := 0
  cleanStreak : ℕ := 0
  lastSignalAtMs : Option ℤ := none
  deriving DecidableEq, Repr

/-- The options of a throttle controller. -/
structure ThrottleControllerOptions where
  baseConcurrency : ℕ
  baseSpacingMs : ℕ
  max : ℕ
  min : ℕ

def CONCURRENCY_FLOOR : ℕ := 1
def RATE_LIMITED_WINDOW : ℕ := 2
def CLEAN_WINDOW : ℕ := 3
def PACING_FLOOR_STEP_MS : ℕ := 100

/-- A controller that has seen nothing yet. -/
def createThrottleController (options : ThrottleControllerOptions) : ThrottleState where
  concurrency := options.baseConcurrency
  pacingFloorMs := options.baseSpacingMs

/-- The first signal of a streak only opens the window; the next one halves the concurrency. -/
def onRateLimited (options : ThrottleControllerOptions) (s : ThrottleState) (nowMs : ℤ) :
    ThrottleState :=
  if s.rateLimitedStreak + 1 < RATE_LIMITED_WINDOW then
    { s with lastSignalAtMs := some nowMs, cleanStreak := 0
             rateLimitedStreak := s.rateLimitedStreak + 1 }
  else
    { s with lastSignalAtMs := some nowMs, cleanStreak := 0, rateLimitedStreak := 0
             concurrency := max (max CONCURRENCY_FLOOR options.min) (s.concurrency / 2)
             pacingFloorMs := s.pacingFloorMs + PACING_FLOOR_STEP_MS }

/-- Every third clean window in a row gives one slot back. -/
def onCleanWindow (options : ThrottleControllerOptions) (s : ThrottleState) (nowMs : ℤ) :
    ThrottleState :=
  if s.cleanStreak + 1 < CLEAN_WINDOW then
    { s with lastSignalAtMs := some nowMs, rateLimitedStreak := 0, cleanStreak := s.cleanStreak + 1 }
  else
    { s with lastSignalAtMs := some nowMs, rateLimitedStreak := 0, cleanStreak := 0
             concurrency := min options.max (s.concurrency + 1) }

/-! ## Input and state -/

/-- What `runOnce` is given. -/
structure RunOnceInput (E : Type) (R : E → Type) where
  attempts : Option ℕ := none
  /-- `createPacer(requestSpacingMs).awaitFloor` -/
  awaitFloor : Proc E R Unit
  checkpointStore : CheckpointStore E R
  concurrency : ℕ
  discoverReplays : DiscoverInput → Async E R JsError DiscoveryReport
  emitEvidence : Option Bool := none
  evidenceFile : Option String := none
  evidenceStore : Option (String → RunSummary → Async E R JsError Unit) := none
  log : Option (LogLine → Proc E R Unit) := none
  maxPages : Option ℕ := none
  now : Proc E R Date
  requestSpacingMs : ℕ
  resume : Option Bool := none
  runId : String
  sourceUrl : Url
  stageRawReplay : StoreRawReplayResult → Option String → Async E R JsError IngestStagingResult
  storeRawReplay : ReplayCandidate → Async E R JsError StoreRawReplayResult
  writeEvidenceFile : Option (String → RunSummary → Async E R JsError Unit) := none

/-- What `runOnce` resolves with. -/
structure RunOnceResult where
  exitCode : ℕ
  summary : RunSummary

/-- Where a run begins. -/
structure ResumeState where
  etag : Option String := none
  pages : JsRecord CheckpointPage := ∅
  startPage : ℕ := FIRST_PAGE

/-- The variables of the page loop. -/
structure LoopState where
  discoveryReport : DiscoveryReport
  etag : Option String
  lastCompletedPage : ℕ
  pageTimestampsMs : List ℤ
  pages : JsRecord CheckpointPage
  rawStorage : List StoreRawReplayResult
  reachedMaxPages : Bool
  staging : List IngestStagingResult
  limit : ℕ
  throttle : ThrottleState

/-- Why the page loop stopped. -/
inductive StopReason
  | allDuplicate | cap | empty | pageFailed
  deriving DecidableEq, Repr

/-- The report that the pages are appended to. -/
def emptyDiscoveryReport (sourceUrl : String) : DiscoveryReport where
  candidates := []
  counts := { candidates := 0, diagnostics := 0, discovered := 0, skippedPreDetail := 0 }
  diagnostics := []
  ok := true
  sourceUrl := sourceUrl

/-- The report with another page: the first one's source URL stays. -/
def appendDiscoveryReport (target pageReport : DiscoveryReport) : DiscoveryReport :=
  let candidates := target.candidates ++ pageReport.candidates
  let diagnostics := target.diagnostics ++ pageReport.diagnostics
  { target with
    candidates := candidates
    diagnostics := diagnostics
    counts :=
      { candidates := candidates.length, diagnostics := diagnostics.length
        discovered := candidates.length, skippedPreDetail := 0 }
    ok := target.ok && pageReport.ok }

/-! ## Resuming -/

/-- From page 1, over the checkpoint that is there. -/
def startFresh (etag : Option String) : ResumeState := { etag }

/-- From behind the last completed page, with the pages so far. -/
def resumeFrom (etag : Option String) (checkpoint : Checkpoint) : ResumeState where
  etag := etag
  pages := checkpoint.pages
  startPage := checkpoint.lastCompletedPage + FIRST_PAGE

/-- What `resolveResumeState` makes of a read. -/
def resumeStateOf (read : CheckpointReadResult) : ResumeState :=
  match read.checkpoint with
  | none => {}
  | some checkpoint =>
    if checkpoint.status = .complete then startFresh read.etag
    else resumeFrom read.etag checkpoint

/-- The log line that goes with it. -/
def resumeLogLine (resume : Option Bool) (slug : String) (read : CheckpointReadResult) :
    Option LogLine :=
  match read.checkpoint with
  | none => some (.checkpointMissing slug)
  | some checkpoint =>
    if checkpoint.status = .complete then some (.completeResumed (resume = some true) slug)
    else none

section Run

variable {Text : Type} (pf : Platform Text) {E : Type} {R : E → Type} (input : RunOnceInput E R)

/-- `input.log?.…` -/
def logLine (line : LogLine) : Proc E R Unit :=
  match input.log with
  | none => .pure ()
  | some log => log line

/-- Read the checkpoint, say what it comes to, and begin there. -/
def resolveResumeState (slug : String) : Async E R JsError ResumeState := do
  let read ← input.checkpointStore.read slug
  match resumeLogLine input.resume slug read with
  | none => pure (resumeStateOf read)
  | some line => do
    (logLine input line : Proc E R Unit)
    pure (resumeStateOf read)

/-- The limits of the controller are those of the configuration. -/
def throttleOptions : ThrottleControllerOptions where
  baseConcurrency := input.concurrency
  baseSpacingMs := input.requestSpacingMs
  max := input.concurrency
  min := CONCURRENCY_FLOOR

/-- `buildLoopState`, with the runtime of `buildRunRuntime`. -/
def loopStateOf (slug : String) (resumeState : ResumeState) : LoopState where
  discoveryReport := emptyDiscoveryReport slug
  etag := resumeState.etag
  lastCompletedPage := resumeState.startPage - FIRST_PAGE
  pageTimestampsMs := []
  pages := resumeState.pages
  rawStorage := []
  reachedMaxPages := false
  staging := []
  limit := input.concurrency
  throttle := createThrottleController (throttleOptions input)

/-! ## Checkpointing -/

/-- Field-wise sums over `Object.values(pages)`. -/
def aggregatePageCounts (pages : JsRecord CheckpointPage) : PageCounts where
  discovered := (pages.values.map fun page => page.counts.discovered).sum
  failed := (pages.values.map fun page => page.counts.failed).sum
  staged := (pages.values.map fun page => page.counts.staged).sum
  stored := (pages.values.map fun page => page.counts.stored).sum

/-- What a checkpoint is made from. -/
structure BuildCheckpointInput where
  discoveredLastPage : Option ℕ := none
  lastCompletedPage : ℕ
  pages : JsRecord CheckpointPage
  slug : String
  startedAt : String
  status : CheckpointStatus

/-- `buildCheckpoint`, at the time it is built. -/
def checkpointAt (runId : String) (context : BuildCheckpointInput) (now : Date) : Checkpoint where
  counts := aggregatePageCounts context.pages
  createdAt := context.startedAt
  discoveredLastPage := context.discoveredLastPage.getD context.lastCompletedPage
  lastCompletedPage := context.lastCompletedPage
  pages := context.pages
  runId := runId
  sourceUrl := context.slug
  status := context.status
  updatedAt := toISOString now

/-- The checkpoint, with the time of the clock. -/
def buildCheckpoint (context : BuildCheckpointInput) : Proc E R Checkpoint :=
  input.now.bind fun now => .pure (checkpointAt input.runId context now)

/-- What the checkpoint of a page is made from. -/
structure WritePageCheckpointInput where
  etag : Option String
  lastCompletedPage : ℕ
  pages : JsRecord CheckpointPage
  slug : String
  startedAt : String

/-- A failed write is logged and the ETag held before is kept. -/
def writePageCheckpoint (page : WritePageCheckpointInput) : Async E R JsError (Option String) := do
  let checkpoint ← (buildCheckpoint input
    { lastCompletedPage := page.lastCompletedPage, pages := page.pages, slug := page.slug
      startedAt := page.startedAt, status := .running } : Proc E R Checkpoint)
  tryCatch
    (input.checkpointStore.write { checkpoint, etag := page.etag, slug := page.slug })
    (fun error => do
      (logLine input (.checkpointWriteFailed error page.lastCompletedPage page.slug) : Proc E R Unit)
      pure page.etag)

/-- What a run knows of itself. -/
structure AssembleContext where
  slug : String
  startedAt : String

/-- The last checkpoint of a complete run; a failed write is only logged. -/
def writeFinalCheckpoint (context : AssembleContext) (state : LoopState)
    (discoveredLastPage : ℕ) : Async E R JsError Unit := do
  let checkpoint ← (buildCheckpoint input
    { discoveredLastPage := some discoveredLastPage
      lastCompletedPage := state.lastCompletedPage, pages := state.pages, slug := context.slug
      startedAt := context.startedAt, status := .complete } : Proc E R Checkpoint)
  tryCatch
    (do
      let _ ← input.checkpointStore.write { checkpoint, etag := state.etag, slug := context.slug }
      pure ())
    (fun error => (ExceptT.lift (logLine input (.finalCheckpointWriteFailed error context.slug)) :
      Async E R JsError Unit))

/-! ## One page -/

/-- A page that failed as rate limited is a signal to the controller. -/
def applyRateLimitThrottle (pageReport : DiscoveryReport) (state : LoopState) :
    Proc E R LoopState :=
  match deriveSourceFailure pageReport with
  | some { classification := .rateLimited, .. } =>
    input.now.bind fun now =>
      let throttle := onRateLimited (throttleOptions input) state.throttle now
      .pure { state with throttle, limit := throttle.concurrency }
  | _ => .pure state

/-- The fields of the page's counts the checkpoint knows. -/
def IngestPageCounts.toPageCounts (counts : IngestPageCounts) : PageCounts where
  discovered := counts.discovered
  failed := counts.failed
  staged := counts.staged
  stored := counts.stored

/-- `{ counts: pageCounts, status: "running" }` -/
def runningPage (counts : IngestPageCounts) : CheckpointPage where
  counts := counts.toPageCounts
  skippedBySourceId := some counts.skippedBySourceId
  status := "running"

/-- The candidates of a page go through the run's own limiter, without a gate. -/
def ingestInput (state : LoopState) (candidates : List ReplayCandidate) : IngestPageInput E R where
  candidates := candidates
  limit := state.limit
  runId := input.runId
  stageRawReplay := input.stageRawReplay
  storeRawReplay := input.storeRawReplay

/-- The state after a page's fan-out: results appended, completion time noted, page entered. -/
def recordPage (state : LoopState) (page : ℕ) (result : IngestPageResult) (now : Date) :
    LoopState :=
  { state with
    rawStorage := state.rawStorage ++ result.rawStorage
    staging := state.staging ++ result.staging
    pageTimestampsMs := state.pageTimestampsMs ++ [now]
    pages := state.pages.insert (toString page) (runningPage result.counts) }

/-- The line of a page, with the rates up to it. -/
def pageCompleteLine (state : LoopState) (page : ℕ) (counts : IngestPageCounts) : LogLine :=
  .pageComplete page counts.toPageCounts (derivePagesPerMinute state.pageTimestampsMs)
    (deriveCandidatesPerMinute state.pageTimestampsMs counts.discovered)

/-- `completeOkPage`: throttle, fan out, note the time, log the rate line, and only then write the
    checkpoint.  Resolves with the state after the page and the page's counts. -/
def completeOkPage (context : AssembleContext) (page : ℕ) (candidates : List ReplayCandidate)
    (state : LoopState) : Async E R JsError (LoopState × IngestPageCounts) := do
  let throttledAt ← (input.now : Proc E R Date)
  let throttle := onCleanWindow (throttleOptions input) state.throttle throttledAt
  let state := { state with throttle, limit := throttle.concurrency }
  let result ← ingestPage (ingestInput input state candidates)
  let completedAt ← (input.now : Proc E R Date)
  let state := recordPage state page result completedAt
  (logLine input (pageCompleteLine state page result.counts) : Proc E R Unit)
  let etag ← writePageCheckpoint input
    { etag := state.etag, lastCompletedPage := page, pages := state.pages, slug := context.slug
      startedAt := context.startedAt }
  pure ({ state with etag, lastCompletedPage := page }, result.counts)

/-- A permanent failure has an event of its own. -/
def derivePageFailureEventName : SourceFailureClassification → PageFailureEvent
  | .permanent => .sourceUnavailable
  | _ => .pageFailed

/-- The failed read of a page is logged, if there was one. -/
def emitPageFailureEvent (page : ℕ) (pageReport : DiscoveryReport) : Proc E R Unit :=
  match deriveSourceFailure pageReport with
  | none => .pure ()
  | some failure =>
    logLine input (.pageFailure (derivePageFailureEventName failure.classification) page failure)

/-- `pageCounts.stored === 0 && pageCounts.staged === 0 && pageCounts.failed === 0` -/
def isAllDuplicate (counts : IngestPageCounts) : Bool :=
  counts.stored = 0 && counts.staged = 0 && counts.failed = 0

/-- The loop is left, for this reason. -/
def stopped (reason : StopReason) (state : LoopState) : LoopState :=
  { state with reachedMaxPages := reason = .cap }

/-- One page is one discovery. -/
def discoverInput (page : ℕ) : DiscoverInput where
  attempts := input.attempts
  maxPages := some 1
  sourceUrl := pf.toPageUrl input.sourceUrl page

/-- One turn of the page loop: `inl` goes on with the next page, `inr` leaves. -/
def pageIteration (context : AssembleContext) (cursor : LoopState × ℕ) :
    Async E R JsError ((LoopState × ℕ) ⊕ LoopState) :=
  if input.maxPages.any fun maxPages => maxPages < cursor.2 then
    pure (.inr (stopped .cap cursor.1))
  else do
    (input.awaitFloor : Proc E R Unit)
    let pageReport ← input.discoverReplays (discoverInput pf input cursor.2)
    let state := { cursor.1 with
      discoveryReport := appendDiscoveryReport cursor.1.discoveryReport pageReport }
    if pageReport.ok = false then do
      let state ← (applyRateLimitThrottle input pageReport state : Proc E R LoopState)
      (emitPageFailureEvent input cursor.2 pageReport : Proc E R Unit)
      pure (.inr (stopped .pageFailed state))
    else if pageReport.candidates = [] then
      pure (.inr (stopped .empty state))
    else do
      let (state, counts) ← completeOkPage input context cursor.2 pageReport.candidates state
      if isAllDuplicate counts then pure (.inr (stopped .allDuplicate state))
      else pure (.inl (state, cursor.2 + 1))

/-- The pages, from behind the last completed one. -/
def runPageLoop (context : AssembleContext) (state : LoopState) : Async E R JsError LoopState :=
  Async.iterate (pageIteration pf input context) (state, state.lastCompletedPage + FIRST_PAGE)

/-! ## The result -/

/-- How a run is resumed. -/
def RESUME_INVOCATION : String := "replays-fetcher run-once --resume"

/-- A complete run need not be. -/
def resumeInvocationOption (status : RunStatus) : Option String :=
  if status = .complete then none else some RESUME_INVOCATION

/-- The range ends with the last completed page. -/
def discoveredRangeOption (lastCompletedPage : ℕ) : Option DiscoveredRange :=
  if lastCompletedPage < FIRST_PAGE then none
  else some { firstPage := FIRST_PAGE, lastPage := lastCompletedPage }

/-- A page that failed is one past the last completed one. -/
def deriveDiscoveredLastPage (state : LoopState) : ℕ :=
  if state.discoveryReport.ok then state.lastCompletedPage
  else state.lastCompletedPage + FIRST_PAGE

/-- The status `assembleResult` derives. -/
def finalStatus (state : LoopState) : RunStatus :=
  deriveRunStatus
    { discoveredLastPage := deriveDiscoveredLastPage state
      lastCompletedPage := state.lastCompletedPage
      ok := state.discoveryReport.ok
      reachedMaxPages := state.reachedMaxPages
      sourceFailure := deriveSourceFailure state.discoveryReport }

/-- The summary of a run from what its loop has left. -/
def finalSummary (runId : String) (context : AssembleContext) (state : LoopState)
    (finishedAt : Date) : RunSummary :=
  buildRunSummary
    { candidateCount := some state.discoveryReport.candidates.length
      discoveryReport := state.discoveryReport
      discoveredRange := discoveredRangeOption state.lastCompletedPage
      finishedAt := toISOString finishedAt
      lastCompletedPage := some state.lastCompletedPage
      pageTimestampsMs := some state.pageTimestampsMs
      rawStorage := state.rawStorage
      resumeInvocation := resumeInvocationOption (finalStatus state)
      runId := runId
      staging := state.staging
      startedAt := context.startedAt
      status := some (finalStatus state) }

/-- One of the two evidence writes: skipped when it is off, logged when it fails. -/
def writeEvidenceWith (write : Option (Async E R JsError Unit)) : Async E R JsError Unit :=
  match write with
  | none => pure ()
  | some write => tryCatch write fun error =>
    (ExceptT.lift (logLine input (.evidenceWriteFailed error input.runId)) : Async E R JsError Unit)

/-- The summary goes to the evidence store and to a file, each if it is wanted. -/
def writeEvidence (summary : RunSummary) : Async E R JsError Unit := do
  writeEvidenceWith input
    (if input.emitEvidence = some true then
      input.evidenceStore.map fun write => write input.runId summary
    else none)
  writeEvidenceWith input
    (match input.evidenceFile, input.writeEvidenceFile with
      | some path, some write => some (write path summary)
      | _, _ => none)

/-- The last line of a run. -/
def finalLogLine (runId : String) (state : LoopState) (counts : RunSummaryCounts) : LogLine :=
  if finalStatus state = .complete then .runComplete runId (finalStatus state) counts
  else .runPartial runId (finalStatus state) counts

/-- Checkpoint, summary, log line, evidence, exit code. -/
def assembleResult (context : AssembleContext) (state : LoopState) :
    Async E R JsError RunOnceResult := do
  (if finalStatus state = .complete then
      writeFinalCheckpoint input context state (deriveDiscoveredLastPage state)
    else pure () : Async E R JsError Unit)
  let finishedAt ← (input.now : Proc E R Date)
  let summary := finalSummary input.runId context state finishedAt
  (logLine input (finalLogLine input.runId state summary.counts) : Proc E R Unit)
  writeEvidence input summary
  pure { exitCode := runExitCode summary.ok summary.status, summary }

/-- What a run does once it knows where it resumes. -/
def runFrom (context : AssembleContext) (resumeState : ResumeState) :
    Async E R JsError RunOnceResult := do
  let state ← runPageLoop pf input context (loopStateOf input context.slug resumeState)
  assembleResult input context state

/-- `runOnce(input)` -/
def runOnce : Async E R JsError RunOnceResult := do
  let startedAt ← (input.now : Proc E R Date)
  let slug := pf.withoutUserinfo input.sourceUrl
  (logLine input (.runStart input.runId slug) : Proc E R Unit)
  let resumeState ← resolveResumeState input slug
  runFrom pf input { slug, startedAt := toISOString startedAt } resumeState

end Run

end ReplaysFetcher
