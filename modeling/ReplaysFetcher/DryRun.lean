/-
  Discovery over several list pages (`src/discovery/discover.ts`,
  `src/discovery/discover-diagnostics.ts`).

  One list page after the other is read and turned into candidates; what has been found is kept
  when a page fails.  A `SourceFetchError` ends the discovery with a report that is not `ok`, any
  other error ends it with a rejection.

  The page loop is generic in the candidates.  The clock reading of the report, its `mode` and its
  `maxPages` are left out: nothing reads them.
-/
import ReplaysFetcher.Discovery

namespace ReplaysFetcher

open Effectful

/-! ## Options -/

/-- `ReadOptions`, without its retry callback. -/
structure SourceReadOptions where
  attempts : Option ℕ := none
  page : ℕ
  phase : SourceReadPhase
  deriving DecidableEq, Repr

/-- What a discovery is called with; of the source client it uses the text read. -/
structure DiscoverReplaysDryRunOptions (E : Type) (R : E → Type) where
  attempts : Option ℕ := none
  existsBySourceIdentity : Option (String → String → Async E R JsError Bool) := none
  /-- `sourceClient.fetchText` -/
  fetchText : Url → SourceReadOptions → Async E R JsError String
  maxPages : Option ℕ := none
  requestDelayMs : Option ℕ := none
  sleep : ℕ → Proc E R Unit
  sourceSystem : Option String := none
  sourceUrl : Url

/-- No wait unless one is asked for. -/
def defaultRequestDelayMs : ℕ := 0

/-- What a text turns out to be: `parseSourceFixture`, next to the functions on HTML. -/
structure SourceReader {Text : Type} (pf : Platform Text) extends HtmlReader pf where
  parseSourceFixture : String → Option SourceFixture

/-! ## The page loop -/

/-- The three accumulators of the page loop. -/
structure PageFindings (C : Type) where
  candidates : List C := []
  diagnostics : List DiscoveryDiagnostic := []
  skippedPreDetail : ℕ := 0

/-- What a further page adds. -/
def PageFindings.add {C : Type} (found page : PageFindings C) : PageFindings C where
  candidates := found.candidates ++ page.candidates
  diagnostics := found.diagnostics ++ page.diagnostics
  skippedPreDetail := found.skippedPreDetail + page.skippedPreDetail

/-- The pages from `page` on, `remaining` of them.  An error is handed on with the page that failed
    and with what the pages before it have yielded. -/
def dryRunPages {E : Type} {R : E → Type} {C : Type}
    (discoverPage : ℕ → Async E R JsError (PageFindings C)) :
    ℕ → ℕ → PageFindings C → Proc E R (PageFindings C × Option (JsError × ℕ))
  | 0, _, found => .pure (found, none)
  | remaining + 1, page, found =>
    Proc.bind (discoverPage page) fun
      | .ok yielded => dryRunPages discoverPage remaining (page + 1) (found.add yielded)
      | .error error => .pure (found, some (error, page))

/-! ## Reports -/

/-- The report of a discovery. -/
def buildReport {Text : Type} (pf : Platform Text) (sourceUrl : Url) (ok : Bool)
    (found : PageFindings ReplayCandidate) : DiscoveryReport where
  candidates := found.candidates
  counts :=
    { candidates := found.candidates.length, diagnostics := found.diagnostics.length
      discovered := found.candidates.length, skippedPreDetail := found.skippedPreDetail }
  diagnostics := found.diagnostics
  ok := ok
  sourceUrl := pf.urlToString sourceUrl

/-- The diagnostic has the code of the failure. -/
def SourceFetchCode.toDiagnosticCode : SourceFetchCode → DiagnosticCode
  | .rateLimited => .rateLimited
  | .sourceTransient => .sourceTransient
  | .sourceUnavailable => .sourceUnavailable

/-- `buildSourceFailureDiagnostic`: the details of the error, and the page that failed when they do
    not name one. -/
def buildSourceFailureDiagnostic {Text : Type} (pf : Platform Text) (failure : SourceFetchError)
    (sourceUrl : Url) (failedPage : ℕ) : DiscoveryDiagnostic :=
  match failure.details with
  | none =>
    { code := failure.code.toDiagnosticCode, message := failure.message, page := some failedPage
      severity := .error, sourceUrl := some (pf.urlToString sourceUrl) }
  | some details =>
    { attempts := details.attempts
      causeCode := details.causeCode
      causeMessage := details.causeMessage
      cfChallenge := if details.cfChallenge then some true else none
      code := failure.code.toDiagnosticCode
      httpStatus := details.httpStatus
      message := failure.message
      page := some (details.page.getD failedPage)
      phase := some details.phase
      severity := .error
      sourceUrl := some details.url }

/-! ## The discovery -/

section DryRun

variable {Text : Type} {pf : Platform Text} (reader : SourceReader pf) {E : Type} {R : E → Type}
  (options : DiscoverReplaysDryRunOptions E R)

/-- `createPacedSourceClient`: every request but the first one waits before it is sent. -/
def pacedFetchText (first : Bool) (url : Url) (readOptions : SourceReadOptions) :
    Async E R JsError String :=
  let requestDelayMs := options.requestDelayMs.getD defaultRequestDelayMs
  if !first && requestDelayMs > 0 then do
    (options.sleep requestDelayMs : Proc E R Unit)
    options.fetchText url readOptions
  else options.fetchText url readOptions

/-- `buildReadOptions` -/
def buildReadOptions (page : ℕ) (phase : SourceReadPhase) : SourceReadOptions where
  attempts := options.attempts
  page := page
  phase := phase

/-- The input of `discoverPageCandidates`, once the list text is there. -/
def discoverPageInput (page : ℕ) (sourceText : String) : DiscoverPageInput E R where
  existsBySourceIdentity := options.existsBySourceIdentity
  fetchText url := pacedFetchText options false url (buildReadOptions options page .detail)
  fixture := reader.parseSourceFixture sourceText
  page := page
  pageUrl := pf.toPageUrl options.sourceUrl page
  sourceSystem := options.sourceSystem
  sourceText := sourceText

/-- What a page yields, to be added up. -/
def DiscoverPageCandidatesResult.findings (result : DiscoverPageCandidatesResult) :
    PageFindings ReplayCandidate where
  candidates := result.candidates
  diagnostics := result.diagnostics
  skippedPreDetail := result.skippedPreDetail

/-- The body of the page loop.  The list of page 1 is the first request of all. -/
def discoverPage (page : ℕ) : Async E R JsError (PageFindings ReplayCandidate) := do
  let sourceText ← pacedFetchText options (page = 1) (pf.toPageUrl options.sourceUrl page)
    (buildReadOptions options page .list)
  let found ← discoverPageCandidates reader.toHtmlReader
    (discoverPageInput reader options page sourceText)
  pure found.findings

/-- The `catch` and the two `return`s. -/
def dryRunReport (outcome : PageFindings ReplayCandidate × Option (JsError × ℕ)) :
    Except JsError DiscoveryReport :=
  match outcome.2 with
  | none => .ok (buildReport pf options.sourceUrl true outcome.1)
  | some (.sourceFetch failure, failedPage) =>
    .ok (buildReport pf options.sourceUrl false
      { outcome.1 with
        diagnostics := outcome.1.diagnostics ++
          [buildSourceFailureDiagnostic pf failure options.sourceUrl failedPage] })
  | some (error, _) => .error error

/-- Read the pages one after the other; a source failure ends with a report of it. -/
def discoverReplaysDryRun : Async E R JsError DiscoveryReport :=
  Proc.bind (dryRunPages (discoverPage reader options) (options.maxPages.getD 1) 1 {})
    fun outcome => .pure (@dryRunReport Text pf _ _ options outcome)

end DryRun

/-- How a run calls it: one page, no gate, the source asked directly. -/
def DiscoverInput.dryRunOptions {Text : Type} (input : DiscoverInput) :
    DiscoverReplaysDryRunOptions (Effect Text) Reply where
  attempts := input.attempts
  fetchText url _ := Proc.perform (Effect.fetchText url)
  maxPages := input.maxPages
  sleep milliseconds := Proc.perform (Effect.sleep milliseconds)
  sourceUrl := input.sourceUrl

/-! ## What a report says -/

section Reports

variable {Text : Type} {pf : Platform Text} {reader : SourceReader pf} {E : Type} {R : E → Type}
  {options : DiscoverReplaysDryRunOptions E R}

/-- A report counts what it holds, and one over a single page holds nothing when that page failed. -/
structure DiscoveryReport.Sound (report : DiscoveryReport) : Prop where
  discovered : report.counts.discovered = report.candidates.length
  failed : report.ok = false → report.candidates = []

/-- A report of a failed read lists no candidates. -/
theorem sound_dryRunReport {outcome : PageFindings ReplayCandidate × Option (JsError × ℕ)}
    (h : outcome.2 ≠ none → outcome.1.candidates = []) {report : DiscoveryReport}
    (hreport : @dryRunReport Text pf _ _ options outcome = .ok report) : report.Sound := by
  obtain ⟨found, failure⟩ := outcome
  unfold dryRunReport at hreport
  match failure with
  | none =>
    cases hreport
    exact ⟨rfl, fun hok => by cases hok⟩
  | some (.sourceFetch failure, page) =>
    have hnone : found.candidates = [] := h fun hnone => by cases hnone
    cases hreport
    exact ⟨rfl, fun _ => hnone⟩

/-- **A failed page has no candidates**, when the discovery is over one page. -/
theorem safe_discoverReplaysDryRun {W : Type} {env : Env W E R} {rely : W → W → Prop} (w : W)
    (hmax : options.maxPages.getD 1 = 1) :
    Proc.Safe env rely (fun _ _ => True)
      (fun r _ => ∀ report, r = .ok report → DiscoveryReport.Sound report) w
      (discoverReplaysDryRun reader options : Proc E R (Except JsError DiscoveryReport)) := by
  unfold discoverReplaysDryRun
  rw [hmax]
  show Proc.Safe _ _ _ _ _ (Proc.bind (Proc.bind (discoverPage reader options 1) _) _)
  rw [Proc.bind_assoc']
  refine Proc.safe_bind_of (Proc.safe_any (fun _ _ => trivial) _) fun r w _ => ?_
  cases r with
  | ok yielded =>
    exact Proc.safe_pure (fun _ _ h _ => h)
      fun report hreport => sound_dryRunReport (fun h => absurd rfl h) hreport
  | error error =>
    exact Proc.safe_pure (fun _ _ h _ => h)
      fun report hreport => sound_dryRunReport (fun _ => rfl) hreport

end Reports

/-! ## A source to compute with -/

/-- A text is the link of the one candidate it lists; the empty text lists nothing. -/
def toyReader : SourceReader toyPlatform where
  extractReplayRows _ _ _ := []
  extractFilenameFromDetailHtml _ := none
  toRawReplayUrl filename _ := filename
  parse_rowUrl _ _ _ _ hrow := absurd hrow List.not_mem_nil
  parseSourceFixture text :=
    if text = "" then none
    else some
      { candidates := [{ externalId := some "1", filename := some "a.ocap", url := some text }] }

end ReplaysFetcher
