/-
  Run summaries, statuses and exit codes (`src/run/summary.ts`, `src/types/run-summary.ts`, and
  the rates of `src/run/run-once-summary.ts`).

  Everything here is a pure function of the reports a run has collected.  The rates, which only
  ever reach the log and the summary, are exact rationals here.
-/
import ReplaysFetcher.Types
import Mathlib.Data.Rat.Defs
import Mathlib.Data.List.Sort
import Mathlib.Data.List.Dedup
import Mathlib.Algebra.Order.Field.Rat

namespace ReplaysFetcher

/-! ## Records -/

/-- The categories of `failureCategories`, in the order they are sorted in. -/
inductive RunFailureCategory
  | configInvalid | fetchFailed | notStageable | sourceUnavailable
  | stagingConflict | stagingFailed | storageConflict | storageFailed
  deriving DecidableEq, Repr

/-- The position of a category in the alphabetical order of the source's texts. -/
def RunFailureCategory.rank : RunFailureCategory → ℕ
  | .configInvalid => 0
  | .fetchFailed => 1
  | .notStageable => 2
  | .sourceUnavailable => 3
  | .stagingConflict => 4
  | .stagingFailed => 5
  | .storageConflict => 6
  | .storageFailed => 7

/-- Which command made the summary. -/
inductive RunMode
  | runOnce | watch
  deriving DecidableEq, Repr

/-- The counts of a run; `skippedBySourceId` and `skippedPreDetail` come from outside the results.
    -/
structure RunSummaryCounts where
  conflict : ℕ
  diagnostics : ℕ
  discovered : ℕ
  duplicate : ℕ
  failed : ℕ
  fetched : ℕ
  skipped : ℕ
  skippedBySourceId : ℕ
  skippedPreDetail : ℕ
  staged : ℕ
  stored : ℕ
  deriving DecidableEq, Repr

/-- The first and the last page a run has gone through. -/
structure DiscoveredRange where
  firstPage : ℕ
  lastPage : ℕ
  deriving DecidableEq, Repr

/-- The summary of a run, with everything that is stored as evidence. -/
structure RunSummary where
  candidates : List ReplayCandidate
  candidatesPerMinute : Option ℚ := none
  counts : RunSummaryCounts
  diagnostics : List DiscoveryDiagnostic
  discoveredRange : Option DiscoveredRange := none
  etaSeconds : Option ℚ := none
  failureCategories : List RunFailureCategory
  finishedAt : String
  mode : RunMode
  ok : Bool
  pagesPerMinute : Option ℚ := none
  rawStorage : List StoreRawReplayResult
  resumeInvocation : Option String := none
  runId : String
  sourceFailure : Option RunSourceFailure := none
  sourceUrl : Option String
  staging : List IngestStagingResult
  startedAt : String
  status : Option RunStatus := none

/-! ## Counting -/

/-- The staging results with this status. -/
def countStatus (staging : List IngestStagingResult) (status : StagingOutcomeStatus) : ℕ :=
  staging.countP fun result => result.status = status

/-- `countRawStatus`, `countRawConflicts` and `countRawFailures`, by the status they count. -/
def countRawStatus (rawStorage : List StoreRawReplayResult) (status : RawReplayStorageStatus) : ℕ :=
  rawStorage.countP fun result => result.status = status

/-- `[...new Set(categories)].toSorted()` -/
def uniqueCategories (categories : List RunFailureCategory) : List RunFailureCategory :=
  categories.dedup.insertionSort fun a b => a.rank ≤ b.rank

/-- A category for each staging result that is not a success. -/
def stagingFailureCategories (staging : List IngestStagingResult) : List RunFailureCategory :=
  staging.flatMap fun result =>
    match result.status with
    | .conflict => [.stagingConflict]
    | .failed => [.stagingFailed]
    | .notStageable => [.notStageable]
    | _ => []

/-- A category for each raw result that is not a success; a fetch that failed has one of its own. -/
def rawFailureCategories (rawStorage : List StoreRawReplayResult) : List RunFailureCategory :=
  rawStorage.flatMap fun result =>
    match result with
    | .fetchFailed _ => [.fetchFailed]
    | .stored evidence =>
      match evidence.status with
      | .conflict => [.storageConflict]
      | .failed => [.storageFailed]
      | _ => []

/-- A discovery that is not ok counts as an unavailable source. -/
def sourceFailureCategories (discoveryReport : DiscoveryReport) : List RunFailureCategory :=
  if discoveryReport.ok then [] else [.sourceUnavailable]

/-- The categories of the discovery, of the raw results and of the staging results. -/
def collectFailureCategories (discoveryReport : DiscoveryReport)
    (rawStorage : List StoreRawReplayResult) (staging : List IngestStagingResult) :
    List RunFailureCategory :=
  uniqueCategories (sourceFailureCategories discoveryReport ++ rawFailureCategories rawStorage ++
    stagingFailureCategories staging)

/-- What is counted, and the two skips that the results do not show. -/
structure CountRunInput where
  discoveryReport : DiscoveryReport
  rawStorage : List StoreRawReplayResult
  skippedBySourceId : ℕ
  skippedPreDetail : ℕ
  staging : List IngestStagingResult

/-- The counts of a run, each by the status of the results. -/
def countRun (input : CountRunInput) : RunSummaryCounts where
  conflict := countRawStatus input.rawStorage .conflict + countStatus input.staging .conflict
  diagnostics := input.discoveryReport.diagnostics.length
  discovered := input.discoveryReport.candidates.length
  duplicate := countStatus input.staging .alreadyStaged
  failed := countRawStatus input.rawStorage .failed + countStatus input.staging .failed
  fetched := input.rawStorage.length
  skipped := countRawStatus input.rawStorage .skipped + countStatus input.staging .notStageable
  skippedBySourceId := input.skippedBySourceId
  skippedPreDetail := input.skippedPreDetail
  staged := countStatus input.staging .staged
  stored := countRawStatus input.rawStorage .stored

/-! ## Source failures -/

/-- The diagnostics that stand for a failed source read. -/
def sourceFailureClassification : DiagnosticCode → Option SourceFailureClassification
  | .rateLimited => some .rateLimited
  | .sourceTransient => some .transient
  | .sourceUnavailable => some .permanent
  | _ => none

/-- The failed read as the summary reports it: identifiers only. -/
def buildSourceFailure (diagnostic : DiscoveryDiagnostic)
    (classification : SourceFailureClassification) : RunSourceFailure where
  attempts := diagnostic.attempts
  classification := classification
  code := diagnostic.code
  phase := diagnostic.phase

/-- The first error of the discovery that stands for a failed source read. -/
def deriveSourceFailure (discoveryReport : DiscoveryReport) : Option RunSourceFailure :=
  if discoveryReport.ok then none
  else
    -- a malformed or doubled row is a warning, and no failed read
    match discoveryReport.diagnostics.find? fun entry =>
        entry.severity = .error && (sourceFailureClassification entry.code).isSome with
    | none => none
    | some diagnostic =>
      (sourceFailureClassification diagnostic.code).map (buildSourceFailure diagnostic)

/-- The failure is that of the first error that has a classification. -/
theorem deriveSourceFailure_of_find {report : DiscoveryReport} {diagnostic : DiscoveryDiagnostic}
    (hok : report.ok = false)
    (hfind : (report.diagnostics.find? fun entry =>
      entry.severity = .error && (sourceFailureClassification entry.code).isSome) =
        some diagnostic) :
    deriveSourceFailure report =
      (sourceFailureClassification diagnostic.code).map (buildSourceFailure diagnostic) := by
  unfold deriveSourceFailure
  rw [if_neg (by rw [hok]; exact Bool.false_ne_true), hfind]

/-- A later run may get past the failure. -/
def isRecoverable (sourceFailure : Option RunSourceFailure) : Bool :=
  match sourceFailure with
  | none => false
  | some failure =>
    failure.classification = .rateLimited || failure.classification = .transient

/-! ## Status and exit code -/

/-- What decides the status of a run. -/
structure DeriveRunStatusInput where
  discoveredLastPage : ℕ
  lastCompletedPage : ℕ
  ok : Bool
  reachedMaxPages : Bool := false
  sourceFailure : Option RunSourceFailure := none

/-- A run that got as far as it knows of is complete, or truncated by its cap; otherwise the failure
    decides, and then whether any page was completed. -/
def deriveRunStatus (input : DeriveRunStatusInput) : RunStatus :=
  if input.ok ∧ input.lastCompletedPage ≥ input.discoveredLastPage then
    -- the run went as far as it was allowed to; there may be more pages
    if input.reachedMaxPages then .truncated else .complete
  else if isRecoverable input.sourceFailure then .resumable
  -- nothing a later run would get past, but some pages are done
  else if input.lastCompletedPage > 0 then .partiallyDone
  else .failed

/-- 0 for an ok run that is complete or has no status, 2 for any other. -/
def runExitCode (ok : Bool) (status : Option RunStatus) : ℕ :=
  match status with
  -- a configuration that was refused is reported without a status
  | some .complete | none => if ok then 0 else 2
  | some _ => 2

/-! ## Rates -/

def MS_PER_MINUTE : ℚ := 60000

/-- `Number.EPSILON` -/
def numberEpsilon : ℚ := 1 / 2 ^ 52

/-- `Math.max((last - first) / MS_PER_MINUTE, Number.EPSILON)` -/
def windowMinutes (first last : ℤ) : ℚ := max ((last - first : ℚ) / MS_PER_MINUTE) numberEpsilon

/-- `amount` per minute of the window the timestamps span; 0 for an empty window. -/
def perMinute (pageTimestampsMs : List ℤ) (amount : ℕ) : ℚ :=
  match pageTimestampsMs.head?, pageTimestampsMs.getLast? with
  -- one page alone spans the shortest window, not an empty one
  | some first, some last => amount / windowMinutes first last
  | _, _ => 0

/-- Pages per minute between the first and the last timestamp. -/
def derivePagesPerMinute (pageTimestampsMs : List ℤ) : ℚ :=
  perMinute pageTimestampsMs pageTimestampsMs.length

/-- Candidates per minute over the same window. -/
def deriveCandidatesPerMinute (pageTimestampsMs : List ℤ) (discovered : ℕ) : ℚ :=
  perMinute pageTimestampsMs discovered

/-! ## The summary -/

/-- Everything a summary is built from; what is left out is left out of the summary. -/
structure BuildRunSummaryInput where
  candidateCount : Option ℕ := none
  discoveredRange : Option DiscoveredRange := none
  discoveryReport : DiscoveryReport
  finishedAt : String
  lastCompletedPage : Option ℕ := none
  mode : Option RunMode := none
  pageTimestampsMs : Option (List ℤ) := none
  rawStorage : List StoreRawReplayResult
  resumeInvocation : Option String := none
  runId : String
  skippedBySourceId : Option ℕ := none
  staging : List IngestStagingResult
  startedAt : String
  status : Option RunStatus := none
  upperBoundLastPage : Option ℕ := none

/-- The time that is left, if it is known where the run would end. -/
def deriveEtaSeconds (input : BuildRunSummaryInput) (pagesPerMinute : ℚ) : Option ℚ :=
  match input.upperBoundLastPage, input.lastCompletedPage with
  | some upperBound, some lastCompleted =>
    -- a rate of 0 would never get there
    if pagesPerMinute ≤ 0 then none
    else some (((upperBound : ℚ) - lastCompleted) / pagesPerMinute * 60)
  | _, _ => none

/-- The summary with its status, and with how to resume it. -/
def withRunStatus (summary : RunSummary) (input : BuildRunSummaryInput) : RunSummary :=
  { summary with status := input.status, resumeInvocation := input.resumeInvocation }

/-- The summary with its range, and with its rates where there are timestamps. -/
def withRunMetrics (summary : RunSummary) (input : BuildRunSummaryInput) : RunSummary :=
  let next := { summary with discoveredRange := input.discoveredRange }
  match input.pageTimestampsMs with
  -- no page was read: no rate is given
  | none | some [] => next
  | some timestamps =>
    let pagesPerMinute := perMinute timestamps timestamps.length
    { next with
      candidatesPerMinute := some (perMinute timestamps (input.candidateCount.getD 0))
      pagesPerMinute := some pagesPerMinute
      etaSeconds := deriveEtaSeconds input pagesPerMinute }

/-- The summary: identity and results, then status, range and metrics where they are given. -/
def buildRunSummary (input : BuildRunSummaryInput) : RunSummary :=
  let failureCategories :=
    collectFailureCategories input.discoveryReport input.rawStorage input.staging
  let summary : RunSummary :=
    { candidates := input.discoveryReport.candidates
      counts := countRun
        { discoveryReport := input.discoveryReport
          rawStorage := input.rawStorage
          skippedBySourceId := input.skippedBySourceId.getD 0
          skippedPreDetail := input.discoveryReport.counts.skippedPreDetail
          staging := input.staging }
      diagnostics := input.discoveryReport.diagnostics
      failureCategories := failureCategories
      finishedAt := input.finishedAt
      mode := input.mode.getD .runOnce
      ok := input.discoveryReport.ok && failureCategories.isEmpty
      rawStorage := input.rawStorage
      runId := input.runId
      sourceFailure := deriveSourceFailure input.discoveryReport
      sourceUrl := some input.discoveryReport.sourceUrl
      staging := input.staging
      startedAt := input.startedAt }
  -- a run that is given no status has none
  withRunMetrics (withRunStatus summary input) input

/-- What a run prints of its summary. -/
structure CompactRunSummary where
  counts : RunSummaryCounts
  discoveredRange : Option DiscoveredRange := none
  failureCategories : List RunFailureCategory
  finishedAt : String
  mode : RunMode
  ok : Bool
  resumeInvocation : Option String := none
  runId : String
  sourceFailure : Option RunSourceFailure := none
  sourceUrl : Option String
  startedAt : String
  status : Option RunStatus := none
  deriving DecidableEq, Repr

/-- What is printed of a summary: no candidates, diagnostics, results or rates. -/
def toCompactSummary (summary : RunSummary) : CompactRunSummary where
  counts := summary.counts
  discoveredRange := summary.discoveredRange
  failureCategories := summary.failureCategories
  finishedAt := summary.finishedAt
  mode := summary.mode
  ok := summary.ok
  resumeInvocation := summary.resumeInvocation
  runId := summary.runId
  sourceFailure := summary.sourceFailure
  sourceUrl := summary.sourceUrl
  startedAt := summary.startedAt
  status := summary.status

/-- The status is handed through. -/
@[simp] theorem status_buildRunSummary (input : BuildRunSummaryInput) :
    (buildRunSummary input).status = input.status := by
  unfold buildRunSummary withRunMetrics
  -- with and without timestamps
  split <;> rfl

/-- The raw results are handed through. -/
@[simp] theorem rawStorage_buildRunSummary (input : BuildRunSummaryInput) :
    (buildRunSummary input).rawStorage = input.rawStorage := by
  unfold buildRunSummary withRunMetrics
  split <;> rfl

/-- So are the staging results. -/
@[simp] theorem staging_buildRunSummary (input : BuildRunSummaryInput) :
    (buildRunSummary input).staging = input.staging := by
  unfold buildRunSummary withRunMetrics
  split <;> rfl

/-- A run is `complete` exactly when every page it read was fine and the cap was not hit. -/
theorem deriveRunStatus_eq_complete {input : DeriveRunStatusInput} :
    deriveRunStatus input = .complete ↔
      input.ok ∧ input.lastCompletedPage ≥ input.discoveredLastPage ∧
        input.reachedMaxPages = false := by
  unfold deriveRunStatus
  -- the five leaves; only one is `complete`
  split_ifs <;> grind

end ReplaysFetcher
