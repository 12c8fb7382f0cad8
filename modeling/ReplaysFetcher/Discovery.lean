/-
  Discovering the candidates of one list page (`src/discovery/discover-dedup.ts`,
  `src/discovery/discover-candidate.ts`).

  A page is a fixture or an HTML list.  The rows of a list are taken one after the other: a row
  without a link is reported, a row the watch gate knows to be staged is passed over, and for every
  other one the detail page is fetched to learn the filename.  What comes out is a candidate, and
  exact repetitions of candidates are dropped.

  Reading HTML is not part of this: `HtmlReader` is what the module asks of it, with the one
  property its caller relies on, that a row's link is a URL.
-/
import ReplaysFetcher.Ingest

namespace ReplaysFetcher

open Effectful

/-! ## Rows and fixtures -/

/-- The link of a row, if it counts, and the id in it. -/
structure ReplayRow.Source where
  externalId : Option String := none
  url : Option String := none
  deriving DecidableEq, Repr

/-- `ReplayRowObservation` -/
structure ReplayRow where
  metadata : ReplayCandidate.Metadata
  page : ℕ
  source : ReplayRow.Source
  deriving DecidableEq, Repr

/-- The functions of `src/discovery/html.ts`, and the URL a raw replay is served under. -/
structure HtmlReader {Text : Type} (pf : Platform Text) where
  extractReplayRows : String → ℕ → Url → List ReplayRow
  extractFilenameFromDetailHtml : String → Option String
  toRawReplayUrl : String → Url → String
  /-- a row's link is the text of a parsed URL -/
  parse_rowUrl : ∀ html page pageUrl, ∀ row ∈ extractReplayRows html page pageUrl, ∀ url,
    row.source.url = some url → (pf.parseUrl url).isSome = true

/-- `SourceCandidateFixture`; a filename or a URL that is not a string is `none`. -/
structure SourceCandidateFixture where
  discoveredAt : Option String := none
  externalId : Option String := none
  filename : Option String := none
  missionText : Option String := none
  page : Option ℕ := none
  rawUrl : Option String := none
  serverId : Option ℤ := none
  url : Option String := none
  world : Option String := none
  deriving DecidableEq, Repr

/-- A page that is a JSON list of candidates. -/
structure SourceFixture where
  candidates : List SourceCandidateFixture

/-- What a page yields. -/
structure DiscoverPageCandidatesResult where
  candidates : List ReplayCandidate
  diagnostics : List DiscoveryDiagnostic
  skippedPreDetail : ℕ
  deriving DecidableEq, Repr

/-- What the discovery of a page is called with. -/
structure DiscoverPageInput (E : Type) (R : E → Type) where
  existsBySourceIdentity : Option (String → String → Async E R JsError Bool) := none
  fetchText : Url → Async E R JsError String
  fixture : Option SourceFixture
  page : ℕ
  pageUrl : Url
  sourceSystem : Option String := none
  sourceText : String

/-! ## Candidates -/

/-- `{}` is left out. -/
def optionalMetadata (metadata : ReplayCandidate.Metadata) : Option ReplayCandidate.Metadata :=
  if metadata = {} then none else some metadata

/-- `value.trim().length === 0` -/
def isBlank (value : String) : Bool := value.toList.all isJsWhitespace

section Candidates

variable {Text : Type} (pf : Platform Text)

/-- An entry without a filename or a URL. -/
def malformedFixtureDiagnostic (index : ℕ) (pageUrl : Url) : DiscoveryDiagnostic where
  candidateIndex := some index
  code := .malformedRow
  message := "Source fixture candidate did not include filename and URL"
  severity := .warning
  sourceUrl := some (pf.urlToString pageUrl)

/-- An entry is taken if it has a filename and a URL that can be parsed. -/
def toReplayCandidate (candidate : SourceCandidateFixture) (index : ℕ) (pageUrl : Url) :
    Except DiscoveryDiagnostic ReplayCandidate :=
  match candidate.filename, candidate.url with
  | some filename, some url =>
    if isBlank filename || isBlank url || (pf.parseUrl url).isNone then
      .error (malformedFixtureDiagnostic pf index pageUrl)
    else .ok
      { identity := { filename }
        metadata := optionalMetadata
          { discoveredAt := candidate.discoveredAt, missionText := candidate.missionText
            serverId := candidate.serverId, world := candidate.world }
        source :=
          { externalId := candidate.externalId, page := candidate.page
            rawUrl := candidate.rawUrl, url } }
  | _, _ => .error (malformedFixtureDiagnostic pf index pageUrl)

/-- A row and the filename of its detail page make a candidate. -/
def toReplayCandidateFromHtmlRow (filename rawUrl : String) (row : ReplayRow) (sourceUrl : String) :
    ReplayCandidate where
  identity := { filename }
  metadata := optionalMetadata row.metadata
  source :=
    { externalId := row.source.externalId, page := some row.page, rawUrl := some rawUrl
      url := sourceUrl }

/-! ## Repetitions within a page -/

/-- The state of the loop of `collectCandidateDiagnostics`; `seen` is the registry. -/
structure CandidateRegistry where
  seen : List ReplayCandidate := []
  outputCandidates : List ReplayCandidate := []
  diagnostics : List DiscoveryDiagnostic := []

/-- The candidates seen before under this filename. -/
def CandidateRegistry.existingEntries (registry : CandidateRegistry) (candidate : ReplayCandidate) :
    List ReplayCandidate :=
  registry.seen.filter fun entry => entry.identity.filename = candidate.identity.filename

/-- An earlier entry has the same id, and other metadata. -/
def hasChangedMetadata (existingEntries : List ReplayCandidate) (candidate : ReplayCandidate) :
    Bool :=
  existingEntries.any fun entry =>
    entry.source.externalId = candidate.source.externalId &&
      entry.metadata.getD {} ≠ candidate.metadata.getD {}

/-- A warning about a repeated filename. -/
def repetitionDiagnostic (code : DiagnosticCode) (message : String) (candidateIndex : ℕ)
    (candidate : ReplayCandidate) : DiscoveryDiagnostic where
  candidateIndex := some candidateIndex
  code := code
  externalId := candidate.source.externalId
  message := message
  page := candidate.source.page
  severity := .warning
  sourceUrl := some candidate.source.url

/-- The filename was seen before. -/
def duplicateFilenameDiagnostic (candidateIndex : ℕ) (candidate : ReplayCandidate) :
    DiscoveryDiagnostic :=
  repetitionDiagnostic .duplicateFilename "Filename appeared more than once in source discovery"
    candidateIndex candidate

/-- And its metadata has changed since. -/
def changedMetadataDiagnostic (candidateIndex : ℕ) (candidate : ReplayCandidate) :
    DiscoveryDiagnostic :=
  repetitionDiagnostic .changedMetadata
    "Filename/source ID metadata changed within one discovery run" candidateIndex candidate

/-- What one candidate adds to the diagnostics. -/
def repetitionDiagnostics (registry : CandidateRegistry) (candidate : ReplayCandidate) :
    List DiscoveryDiagnostic :=
  let existingEntries := registry.existingEntries candidate
  let candidateIndex := registry.outputCandidates.length
  if existingEntries = [] then []
  else if hasChangedMetadata existingEntries candidate then
    [duplicateFilenameDiagnostic candidateIndex candidate,
      changedMetadataDiagnostic candidateIndex candidate]
  else [duplicateFilenameDiagnostic candidateIndex candidate]

/-- One turn of the loop.  Candidates that serialize alike are equal, so the set of emitted
    serializations is the list of emitted candidates. -/
def collectCandidate (registry : CandidateRegistry) (candidate : ReplayCandidate) :
    CandidateRegistry where
  seen := registry.seen ++ [candidate]
  outputCandidates :=
    if candidate ∈ registry.outputCandidates then registry.outputCandidates
    else registry.outputCandidates ++ [candidate]
  diagnostics := registry.diagnostics ++ repetitionDiagnostics registry candidate

/-- The candidates without repetitions, and the warnings about those. -/
def collectCandidateDiagnostics (candidates : List ReplayCandidate) :
    DiscoverPageCandidatesResult :=
  let registry := candidates.foldl collectCandidate {}
  { candidates := registry.outputCandidates, diagnostics := registry.diagnostics
    skippedPreDetail := 0 }

/-! ## Fixture pages -/

/-- The candidates and the diagnostics of the fixture entries from `index` on. -/
def fixtureCandidates (pageUrl : Url) : ℕ → List SourceCandidateFixture →
    List ReplayCandidate × List DiscoveryDiagnostic
  | _, [] => ([], [])
  | index, candidate :: rest =>
    let others := fixtureCandidates pageUrl (index + 1) rest
    match toReplayCandidate pf candidate index pageUrl with
    | .ok candidate => (candidate :: others.1, others.2)
    | .error diagnostic => (others.1, diagnostic :: others.2)

/-- A fixture's candidates; the malformed entries are reported first. -/
def collectFixtureCandidates (fixture : SourceFixture) (pageUrl : Url) :
    DiscoverPageCandidatesResult :=
  let (candidates, diagnostics) := fixtureCandidates pf pageUrl 0 fixture.candidates
  let collected := collectCandidateDiagnostics candidates
  { candidates := collected.candidates, diagnostics := diagnostics ++ collected.diagnostics
    skippedPreDetail := 0 }

end Candidates

/-! ## HTML pages -/

/-- `isTrustworthyId` of `discover-dedup.ts`, a copy of the one of `ingest-page.ts`. -/
def Discover.isTrustworthyId (id : Option String) : Bool :=
  match id with
  | none => false
  | some text => text.toList.any fun c => !isJsWhitespace c

section Html

variable {Text : Type} {pf : Platform Text} (html : HtmlReader pf) {E : Type} {R : E → Type}

/-- The gate before the detail read; without a trusted id nothing is skipped. -/
def shouldSkipPreDetail (externalId : Option String)
    (existsBySourceIdentity : Option (String → String → Async E R JsError Bool))
    (sourceSystem : Option String) : Async E R JsError Bool :=
  match existsBySourceIdentity, sourceSystem, externalId with
  | some existsBySourceIdentity, some sourceSystem, some externalId =>
    if Discover.isTrustworthyId (some externalId) then
      existsBySourceIdentity sourceSystem externalId
    else pure false
  | _, _, _ => pure false

/-- What the detail page of a row makes of it; `none` without a filename. -/
def rowCandidate (row : ReplayRow) (sourceUrl : String) (detailUrl : Url) (detailHtml : String) :
    Option ReplayCandidate :=
  (html.extractFilenameFromDetailHtml detailHtml).map fun filename =>
    toReplayCandidateFromHtmlRow filename (html.toRawReplayUrl filename detailUrl) row sourceUrl

variable (input : DiscoverPageInput E R)

/-- Read the detail page of a row. -/
def discoverRowCandidate (row : ReplayRow) (sourceUrl : String) :
    Async E R JsError (Option ReplayCandidate) := do
  let detailUrl ← (Proc.pure (newUrl pf sourceUrl) : Async E R JsError Url)
  let detailHtml ← input.fetchText detailUrl
  pure (rowCandidate html row sourceUrl detailUrl detailHtml)

/-- A row without a link that counts. -/
def malformedRowDiagnostic (pf : Platform Text) (row : ReplayRow) (pageUrl : Url) :
    DiscoveryDiagnostic where
  code := .malformedRow
  message := "Source row did not include a replay link"
  page := some row.page
  severity := .warning
  sourceUrl := some (pf.urlToString pageUrl)

/-- A row whose detail page has no filename. -/
def missingFilenameDiagnostic (row : ReplayRow) (sourceUrl : String) : DiscoveryDiagnostic where
  code := .missingFilename
  externalId := row.source.externalId
  message := "Replay detail page did not include a filename"
  page := some row.page
  severity := .warning
  sourceUrl := some sourceUrl

/-- The three variables of the row loop. -/
structure RowLoop where
  candidates : List ReplayCandidate := []
  diagnostics : List DiscoveryDiagnostic := []
  skippedPreDetail : ℕ := 0

/-- What a row with a link, its detail page read, adds. -/
def RowLoop.addRow (acc : RowLoop) (row : ReplayRow) (sourceUrl : String) :
    Option ReplayCandidate → RowLoop
  | none =>
    { acc with diagnostics := acc.diagnostics ++ [missingFilenameDiagnostic row sourceUrl] }
  | some candidate => { acc with candidates := acc.candidates ++ [candidate] }

/-- The candidates are those there were, and the one that is added. -/
theorem RowLoop.mem_addRow {acc : RowLoop} {row : ReplayRow} {sourceUrl : String}
    {found : Option ReplayCandidate} {candidate : ReplayCandidate} :
    candidate ∈ (acc.addRow row sourceUrl found).candidates ↔
      candidate ∈ acc.candidates ∨ found = some candidate := by
  cases found with
  | none =>
    show candidate ∈ acc.candidates ↔ _
    simp
  | some added =>
    show candidate ∈ acc.candidates ++ [added] ↔ _
    rw [List.mem_append, List.mem_singleton, Option.some.injEq, eq_comm (a := candidate)]

/-- One turn of the row loop. -/
def discoverRow (acc : RowLoop) (row : ReplayRow) : Async E R JsError RowLoop :=
  match row.source.url with
  | none =>
    pure { acc with
      diagnostics := acc.diagnostics ++ [malformedRowDiagnostic pf row input.pageUrl] }
  | some rowUrl => do
    let skip ← shouldSkipPreDetail row.source.externalId input.existsBySourceIdentity
      input.sourceSystem
    if skip then pure { acc with skippedPreDetail := acc.skippedPreDetail + 1 }
    else do
      let candidate ← discoverRowCandidate html input row rowUrl
      pure (acc.addRow row rowUrl candidate)

/-- The rows of a page, one after the other. -/
def discoverRows : RowLoop → List ReplayRow → Async E R JsError RowLoop
  | acc, [] => pure acc
  | acc, row :: rows => do
    let acc ← discoverRow html input acc row
    discoverRows acc rows

/-- The result of the row loop, with the repetitions dropped. -/
def RowLoop.result (acc : RowLoop) : DiscoverPageCandidatesResult :=
  let collected := collectCandidateDiagnostics acc.candidates
  { candidates := collected.candidates
    diagnostics := acc.diagnostics ++ collected.diagnostics
    skippedPreDetail := acc.skippedPreDetail }

/-- A fixture is taken as it is; the rows of another page are read one by one. -/
def discoverPageCandidates : Async E R JsError DiscoverPageCandidatesResult :=
  match input.fixture with
  | some fixture => pure (collectFixtureCandidates pf fixture input.pageUrl)
  | none => do
    let acc ← discoverRows html input {}
      (html.extractReplayRows input.sourceText input.page input.pageUrl)
    pure acc.result

end Html

/-! ## What is known of the result -/

/-- The two copies of the trust predicate agree. -/
theorem discover_isTrustworthyId (id : Option String) :
    Discover.isTrustworthyId id = isTrustworthyId id := rfl

/-- Dropping repetitions, as the loop of `collectCandidateDiagnostics` does it. -/
def emitNew (output : List ReplayCandidate) (candidate : ReplayCandidate) : List ReplayCandidate :=
  if candidate ∈ output then output else output ++ [candidate]

/-- The output list has each candidate once, in the order of their first appearance. -/
theorem collectCandidateDiagnostics_candidates (candidates : List ReplayCandidate) :
    (collectCandidateDiagnostics candidates).candidates = candidates.foldl emitNew [] := by
  have hfold : ∀ (candidates : List ReplayCandidate) (registry : CandidateRegistry),
      (candidates.foldl collectCandidate registry).outputCandidates =
        candidates.foldl emitNew registry.outputCandidates := by
    intro candidates
    induction candidates with
    | nil => intro registry; rfl
    | cons candidate rest ih => exact fun registry => ih (collectCandidate registry candidate)
  exact hfold candidates {}

/-- Dropping repetitions commutes with selecting. -/
theorem foldl_emitNew_filter (p : ReplayCandidate → Bool) (candidates output : List ReplayCandidate) :
    (candidates.filter p).foldl emitNew (output.filter p) =
      (candidates.foldl emitNew output).filter p := by
  induction candidates generalizing output with
  | nil => rfl
  | cons candidate rest ih =>
    by_cases hp : p candidate = true
    · have hemit : emitNew (output.filter p) candidate = (emitNew output candidate).filter p := by
        unfold emitNew
        by_cases hmem : candidate ∈ output
        · rw [if_pos hmem, if_pos (List.mem_filter.2 ⟨hmem, hp⟩)]
        · rw [if_neg hmem, if_neg fun h => hmem (List.mem_filter.1 h).1, List.filter_append,
            List.filter_cons_of_pos hp]
          rfl
      rw [List.filter_cons_of_pos hp, List.foldl_cons, List.foldl_cons, hemit]
      exact ih _
    · have hemit : (emitNew output candidate).filter p = output.filter p := by
        unfold emitNew
        split
        · rfl
        · rw [List.filter_append, List.filter_cons_of_neg hp, List.filter_nil, List.append_nil]
      rw [List.filter_cons_of_neg hp, List.foldl_cons, ← hemit]
      exact ih _

/-- A page emits the candidates that pass `p` when its rows yielded only these. -/
theorem collectCandidateDiagnostics_filter (p : ReplayCandidate → Bool)
    (candidates : List ReplayCandidate) :
    (collectCandidateDiagnostics (candidates.filter p)).candidates =
      (collectCandidateDiagnostics candidates).candidates.filter p := by
  rw [collectCandidateDiagnostics_candidates, collectCandidateDiagnostics_candidates]
  exact foldl_emitNew_filter p candidates []

/-- Dropping repetitions adds no candidate. -/
theorem mem_of_collectCandidateDiagnostics {candidates : List ReplayCandidate}
    {candidate : ReplayCandidate}
    (h : candidate ∈ (collectCandidateDiagnostics candidates).candidates) :
    candidate ∈ candidates := by
  have hall : ∀ x ∈ candidates, decide (x ∈ candidates) = true := fun x hx => decide_eq_true hx
  have hfilter := collectCandidateDiagnostics_filter (fun x => decide (x ∈ candidates)) candidates
  rw [List.filter_eq_self.2 hall] at hfilter
  rw [hfilter] at h
  exact of_decide_eq_true (List.mem_filter.1 h).2

/-- Dropping repetitions loses no candidate. -/
theorem mem_collectCandidateDiagnostics_candidates {candidates : List ReplayCandidate}
    {candidate : ReplayCandidate} (h : candidate ∈ candidates) :
    candidate ∈ (collectCandidateDiagnostics candidates).candidates := by
  have hfold : ∀ (candidates output : List ReplayCandidate),
      candidate ∈ output ∨ candidate ∈ candidates → candidate ∈ candidates.foldl emitNew output := by
    intro candidates
    induction candidates with
    | nil => exact fun output hmem => hmem.resolve_right List.not_mem_nil
    | cons first rest ih =>
      intro output hmem
      refine ih (emitNew output first) ?_
      unfold emitNew
      split
      · rename_i hfirst
        rcases hmem with hmem | hmem
        · exact Or.inl hmem
        · rcases List.mem_cons.1 hmem with rfl | hmem
          · exact Or.inl hfirst
          · exact Or.inr hmem
      · rw [List.mem_append, List.mem_singleton, or_assoc, ← List.mem_cons]
        exact hmem
  rw [collectCandidateDiagnostics_candidates]
  exact hfold candidates [] (Or.inr h)

end ReplaysFetcher
