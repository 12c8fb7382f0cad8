/-
  A page as the source really sends it (`src/discovery/discover-candidate.ts`,
  `src/discovery/discover-dedup.ts`, `src/run/ingest-page.ts`, `src/storage/store-raw-replay.ts`,
  `src/staging/payload.ts`).

  A fixture body is parsed and CAST: `parsed.candidates` becomes `SourceCandidateFixture[]` with no
  look at its entries.  The other modules take the fixture at its type.  Here an entry is any JSON
  value, and so is every property of a candidate that the code hands on without a look: the external
  id, the raw URL, the dates and the texts.  Only the filename, the URL, the page and the server id
  are checked.

  What JavaScript does with such a value is spelled out where it matters: reading a property of
  `null` throws, calling `trim` on what is no string throws, and whatever wants a string coerces
  (`toText`), which throws in one case only.
-/
import ReplaysFetcher.DryRun

namespace ReplaysFetcher

open Effectful

namespace Untrusted

/-! ## Coercion -/

mutual

/-- `String(value)`; `none` when it throws.  The objects of a JSON text inherit their `toString`,
    but a property of that name comes first, and it is never a function. -/
def toText (numberText : ℚ → String) : Json → Option String
  | .null => some "null"
  | .bool b => some (if b then "true" else "false")
  | .num q => some (numberText q)
  | .str s => some s
  | .arr elements => joinText numberText elements
  | .obj fields =>
    if fields.any fun field => field.1 = "toString" then none else some "[object Object]"

/-- `elements.join()` -/
def joinText (numberText : ℚ → String) : List Json → Option String
  | [] => some ""
  | element :: rest =>
    (match element with
      | .null => some ""
      | element => toText numberText element).bind fun text =>
    if rest = [] then some text
    else (joinText numberText rest).map fun others => text ++ "," ++ others

end

/-- A `TypeError`, with what the engine says. -/
def typeError (message : String) : JsError := .error message

/-- `typeof value === "number"` -/
def number? : Json → Option ℚ
  | .num q => some q
  | _ => none

/-- `left === right`: two objects of a parsed text are never the same. -/
def sameValue : Option Json → Option Json → Bool
  | some (.arr _), _ => false
  | some (.obj _), _ => false
  | left, right => left = right

/-! ## Candidates -/

/-- `source` of a fixture's candidate: whatever value the text has in a field that is not checked.
    -/
structure Source where
  externalId : Option Json := none
  page : Option ℚ := none
  rawUrl : Option Json := none
  url : String
  deriving DecidableEq

/-- `metadata`, of which only the server id is checked. -/
structure Metadata where
  discoveredAt : Option Json := none
  missionText : Option Json := none
  serverId : Option ℚ := none
  world : Option Json := none
  deriving DecidableEq

/-- `ReplayCandidate`, as untrusted as its page. -/
structure Candidate where
  filename : String
  metadata : Option Metadata := none
  source : Source
  deriving DecidableEq

/-- A diagnostic; the external id and the page are those of a candidate. -/
structure Diagnostic where
  base : DiscoveryDiagnostic
  externalId : Option Json := none
  page : Option ℚ := none

/-- A candidate of an HTML row. -/
def ofCandidate (candidate : ReplayCandidate) : Candidate where
  filename := candidate.identity.filename
  metadata := candidate.metadata.map fun metadata =>
    { discoveredAt := metadata.discoveredAt.map Json.str
      missionText := metadata.missionText.map Json.str
      serverId := metadata.serverId.map fun serverId => (serverId : ℚ)
      world := metadata.world.map Json.str }
  source :=
    { externalId := candidate.source.externalId.map Json.str
      page := candidate.source.page.map fun page => (page : ℚ)
      rawUrl := candidate.source.rawUrl.map Json.str
      url := candidate.source.url }

/-- What reads a text. -/
structure Reader {Text : Type} (pf : Platform Text) extends HtmlReader pf where
  /-- `JSON.parse`; `none` when it throws -/
  parseJson : String → Option Json
  /-- `String(value)`, of a number -/
  numberText : ℚ → String

/-- The first character that is no blank opens an object or an array. -/
def looksLikeJson (text : String) : Bool :=
  match text.toList.dropWhile isJsWhitespace with
  | [] => false
  | first :: _ => first = '\x7b' || first = '['

section Fixture

variable {Text : Type} {pf : Platform Text} (reader : Reader pf)

/-- The entries of a fixture. -/
def parseSourceFixture (text : String) : Option (List Json) :=
  if looksLikeJson text then
    match (reader.parseJson text).bind fun parsed => parsed.get "candidates" with
    | some (.arr candidates) => some candidates
    | _ => none
  else none

variable (pf) in
/-- An entry: rejected, reported, or taken for a candidate. -/
def toReplayCandidate (entry : Json) (index : ℕ) (pageUrl : Url) :
    Except JsError (Except Diagnostic Candidate) :=
  if entry = .null then .error (typeError "Cannot read properties of null (reading 'filename')")
  else
    match entry.get "filename", entry.get "url" with
    | some (.str filename), some (.str url) =>
      if isBlank filename || isBlank url || (pf.parseUrl url).isNone then
        .ok (.error { base := malformedFixtureDiagnostic pf index pageUrl })
      else
        let metadata : Metadata :=
          { discoveredAt := entry.get "discoveredAt", missionText := entry.get "missionText"
            serverId := (entry.get "serverId").bind number?, world := entry.get "world" }
        .ok (.ok
          { filename
            metadata := if metadata = {} then none else some metadata
            source :=
              { externalId := entry.get "externalId", page := (entry.get "page").bind number?
                rawUrl := entry.get "rawUrl", url } })
    | _, _ => .ok (.error { base := malformedFixtureDiagnostic pf index pageUrl })

end Fixture

/-! ## Repetitions -/

/-- What the loop over the candidates has seen so far. -/
structure Registry where
  seen : List Candidate := []
  outputCandidates : List Candidate := []
  diagnostics : List Diagnostic := []

/-- An earlier entry has the same external id, and its metadata serializes differently. -/
def hasChangedMetadata (existingEntries : List Candidate) (candidate : Candidate) : Bool :=
  existingEntries.any fun entry =>
    sameValue entry.source.externalId candidate.source.externalId &&
      entry.metadata.getD {} ≠ candidate.metadata.getD {}

/-- A warning about a repetition, at the index of the output list. -/
def repetitionDiagnostic (code : DiagnosticCode) (message : String) (candidateIndex : ℕ)
    (candidate : Candidate) : Diagnostic where
  base :=
    { candidateIndex := some candidateIndex, code, message, severity := .warning
      sourceUrl := some candidate.source.url }
  externalId := candidate.source.externalId
  page := candidate.source.page

/-- One warning for a filename seen before, a second one if its metadata changed. -/
def repetitionDiagnostics (registry : Registry) (candidate : Candidate) : List Diagnostic :=
  let existingEntries := registry.seen.filter fun entry => entry.filename = candidate.filename
  let candidateIndex := registry.outputCandidates.length
  let duplicate := repetitionDiagnostic .duplicateFilename
    "Filename appeared more than once in source discovery" candidateIndex candidate
  let changed := repetitionDiagnostic .changedMetadata
    "Filename/source ID metadata changed within one discovery run" candidateIndex candidate
  if existingEntries = [] then []
  else if hasChangedMetadata existingEntries candidate then [duplicate, changed]
  else [duplicate]

/-- One turn of the loop: what serializes alike is equal. -/
def collectCandidate (registry : Registry) (candidate : Candidate) : Registry where
  seen := registry.seen ++ [candidate]
  outputCandidates :=
    if candidate ∈ registry.outputCandidates then registry.outputCandidates
    else registry.outputCandidates ++ [candidate]
  diagnostics := registry.diagnostics ++ repetitionDiagnostics registry candidate

/-- What a page, or a discovery, has yielded. -/
structure Findings where
  candidates : List Candidate := []
  diagnostics : List Diagnostic := []
  skippedPreDetail : ℕ := 0

/-- The candidates without repetitions, and what is to be said of them. -/
def collectCandidateDiagnostics (candidates : List Candidate) : Findings :=
  let registry := candidates.foldl collectCandidate {}
  { candidates := registry.outputCandidates, diagnostics := registry.diagnostics }

/-! ## The discovery of a page -/

/-- `DiscoveryReport`; its counts are the lengths of its lists. -/
structure Report where
  candidates : List Candidate
  diagnostics : List Diagnostic
  ok : Bool
  skippedPreDetail : ℕ
  sourceUrl : String

section Discovery

variable {Text : Type} {pf : Platform Text} (reader : Reader pf) {E : Type} {R : E → Type}
  (options : DiscoverReplaysDryRunOptions E R)

variable (pf) in
/-- The entries from `index` on; the first that throws ends it. -/
def fixtureCandidates (pageUrl : Url) :
    ℕ → List Json → Except JsError (List Candidate × List Diagnostic)
  | _, [] => .ok ([], [])
  | index, entry :: rest => do
    let result ← toReplayCandidate pf entry index pageUrl
    let others ← fixtureCandidates pageUrl (index + 1) rest
    match result with
    | .ok candidate => .ok (candidate :: others.1, others.2)
    | .error diagnostic => .ok (others.1, diagnostic :: others.2)

variable (pf) in

/-- A fixture's candidates; the malformed entries are reported first. -/
def collectFixtureCandidates (entries : List Json) (pageUrl : Url) : Except JsError Findings := do
  let (candidates, diagnostics) ← fixtureCandidates pf pageUrl 0 entries
  let collected := collectCandidateDiagnostics candidates
  .ok { collected with diagnostics := diagnostics ++ collected.diagnostics }

/-- The rows of an HTML page have strings throughout. -/
def ofHtml (result : DiscoverPageCandidatesResult) : Findings where
  candidates := result.candidates.map ofCandidate
  diagnostics := result.diagnostics.map fun diagnostic => { base := diagnostic }
  skippedPreDetail := result.skippedPreDetail

/-- The input of `discoverPageCandidates` for a page that is no fixture. -/
def htmlInput (sourceText : String) : DiscoverPageInput E R where
  existsBySourceIdentity := options.existsBySourceIdentity
  fetchText url := pacedFetchText options false url (buildReadOptions options 1 .detail)
  fixture := none
  page := 1
  pageUrl := options.sourceUrl
  sourceSystem := options.sourceSystem
  sourceText := sourceText

/-- A page is a fixture, or HTML. -/
def discoverPageCandidates (sourceText : String) : Async E R JsError Findings :=
  match parseSourceFixture reader sourceText with
  | some entries => Proc.pure (collectFixtureCandidates pf entries options.sourceUrl)
  | none => do
    let result ← ReplaysFetcher.discoverPageCandidates reader.toHtmlReader
      (htmlInput options sourceText)
    pure (ofHtml result)

variable (pf) in

/-- The report of a page. -/
def buildReport (ok : Bool) (found : Findings) : Report where
  candidates := found.candidates
  diagnostics := found.diagnostics
  ok := ok
  skippedPreDetail := found.skippedPreDetail
  sourceUrl := pf.urlToString options.sourceUrl

/-- `discoverReplaysDryRun`, over the one page its callers ask for. -/
def discoverReplaysDryRun : Async E R JsError Report :=
  tryCatch
    (do
      let sourceText ← pacedFetchText options true options.sourceUrl (buildReadOptions options 1 .list)
      let found ← discoverPageCandidates reader options sourceText
      pure (buildReport pf options true found))
    fun error =>
      match error with
      | .sourceFetch failure =>
        pure (buildReport pf options false
          { diagnostics := [{ base := buildSourceFailureDiagnostic pf failure options.sourceUrl 1 }] })
      | error => throw error

end Discovery

/-! ## Storing and staging -/

/-- `RawReplayStorageEvidence` of an untrusted source. -/
structure Evidence where
  bucket : String
  byteSize : ℕ
  checksum : String
  discoveredAt : Option Json := none
  failureCategory : Option StorageFailureCategory := none
  fetchedAt : String
  objectKey : String
  source : Source
  sourceFilename : String
  status : RawReplayStorageStatus

/-- A replay whose bytes could not be read. -/
structure FetchFailure where
  fetchedAt : String
  message : String
  source : Source
  sourceFilename : String

/-- What storing a candidate resolves with. -/
inductive StoreRawReplayResult
  | fetchFailed (evidence : FetchFailure)
  | stored (evidence : Evidence)

/-- A replay without bytes counts as failed. -/
def StoreRawReplayResult.status : StoreRawReplayResult → RawReplayStorageStatus
  | .fetchFailed _ => .failed
  | .stored evidence => evidence.status

/-- What a payload keeps of its evidence. -/
structure PromotionEvidence where
  bucket : String
  byteSize : ℕ
  checksum : String
  discoveredAt : Option Json := none
  fetchedAt : String
  objectKey : String
  rawStorageStatus : RawReplayStorageStatus
  runId : String
  sourceExternalId : Option Json := none
  sourceFilename : String
  sourceUrl : String

/-- What is staged, with an id that may be any value. -/
structure Payload where
  checksum : String
  objectKey : String
  promotionEvidence : PromotionEvidence
  replayTimestamp : Option Json := none
  sizeBytes : ℕ
  sourceReplayId : Json
  sourceSystem : String

/-- What staging a candidate resolves with. -/
structure StagingResult where
  payload : Option Payload := none
  reason : Option String := none
  status : StagingOutcomeStatus

/-- The requests of a page.  The staging repository resolves. -/
inductive Request
  | now
  | sleep (milliseconds : ℕ)
  | fetchText (url : Url) (options : SourceReadOptions)
  | fetchBytes (url : Url)
  | headObject (key : String)
  | putObject (key : String) (bytes : Bytes) (sha256 : String)
  | existsBySourceIdentity (sourceSystem sourceReplayId : String)
  | stage (payload : Payload)

/-- The replies; every request but staging, and the two timers, may reject. -/
@[reducible] def Answer : Request → Type
  | .now => Date
  | .sleep _ => Unit
  | .fetchText _ _ => Except JsError String
  | .fetchBytes _ => Except JsError Bytes
  | .headObject _ => Except JsError HeadObjectOutput
  | .putObject _ _ _ => Except JsError Unit
  | .existsBySourceIdentity _ _ => Except JsError Bool
  | .stage _ => StagingResult

/-- An async function of a page. -/
abbrev Job (α : Type) : Type 1 := Async Request Answer JsError α

/-- What a page is called with. -/
structure PageCall where
  attempts : Option ℕ := none
  bucket : String
  /-- are the two gates of the watch loop on? -/
  gated : Bool
  limit : ℕ
  /-- `p-limit` takes no other -/
  limit_pos : 0 < limit
  requestDelayMs : Option ℕ := none
  runId : String
  sourceUrl : Url

section Ingest

variable {Text : Type} {pf : Platform Text} (reader : Reader pf) (call : PageCall)

/-- `isTrustworthyId(id)`: only a string has a `trim`. -/
def isTrustworthyId : Option Json → Except JsError Bool
  | none => .ok false
  | some (.str text) => .ok (ReplaysFetcher.isTrustworthyId (some text))
  | some _ => .error (typeError "id.trim is not a function")

/-- The URL a candidate's bytes are fetched from: `new URL(rawUrl ?? url)`. -/
def bytesUrl (candidate : Candidate) : Except JsError Url :=
  match candidate.source.rawUrl with
  | none | some .null => newUrl pf candidate.source.url
  | some value =>
    match toText reader.numberText value with
    | some text => newUrl pf text
    | none => .error (typeError "Cannot convert object to primitive value")

variable (pf) in
/-- The evidence of stored, or not stored, bytes. -/
def toEvidence (candidate : Candidate) (fetchedAt : String) (bytes : Bytes)
    (status : RawReplayStorageStatus) (failureCategory : Option StorageFailureCategory := none) :
    Evidence where
  bucket := call.bucket
  byteSize := bytes.length
  checksum := calculateSha256 pf bytes
  discoveredAt := candidate.metadata.bind (·.discoveredAt)
  failureCategory := failureCategory
  fetchedAt := fetchedAt
  objectKey := rawKey (calculateSha256 pf bytes)
  source := candidate.source
  sourceFilename := candidate.filename
  status := status

variable (pf) in
/-- The S3 adapter, on bytes that are addressed by their digest. -/
def storeBytes (candidate : Candidate) (fetchedAt : String) (bytes : Bytes) :
    Proc Request Answer Evidence :=
  .call (.headObject (rawKey (calculateSha256 pf bytes))) fun head =>
    match head with
    | .ok output =>
      if output.contentLength = some bytes.length ∧
          output.sha256 = some (calculateSha256 pf bytes) then
        .pure (toEvidence pf call candidate fetchedAt bytes .skipped)
      else .pure (toEvidence pf call candidate fetchedAt bytes .conflict (some .objectConflict))
    | .error error =>
      if isNotFound error then
        .call (.putObject (rawKey (calculateSha256 pf bytes)) bytes (calculateSha256 pf bytes))
          fun put =>
          match put with
          | .ok _ => .pure (toEvidence pf call candidate fetchedAt bytes .stored)
          | .error _ => .pure (toEvidence pf call candidate fetchedAt bytes .failed (some .s3Error))
      else .pure (toEvidence pf call candidate fetchedAt bytes .failed (some .s3Error))

/-- The handler of `storeRawReplay`. -/
def fetchFailure (candidate : Candidate) (fetchedAt : String) :
    JsError → Except JsError StoreRawReplayResult
  | .replayByteFetch _ message =>
    .ok (.fetchFailed
      { fetchedAt, message, source := candidate.source, sourceFilename := candidate.filename })
  | error => .error error

/-- The URL is parsed inside the `try`, so its error goes where a failed read goes. -/
def storeRawReplay (candidate : Candidate) : Job StoreRawReplayResult :=
  .call .now fun now =>
    match bytesUrl reader candidate with
    | .error error => Proc.pure (fetchFailure candidate (toISOString now) error)
    | .ok url => .call (.fetchBytes url) fun r =>
      match r with
      | .error error => Proc.pure (fetchFailure candidate (toISOString now) error)
      | .ok bytes => (storeBytes pf call candidate (toISOString now) bytes).bind fun evidence =>
        Proc.pure (.ok (.stored evidence))

variable (pf) in

/-- Only an undefined id is derived. -/
def toSourceReplayId (evidence : Evidence) : Json :=
  match evidence.source.externalId with
  | some externalId => externalId
  | none => .str ("derived:" ++ calculateSha256 pf (pf.encode
      (evidence.source.url ++ "\n" ++ evidence.sourceFilename ++ "\n" ++ evidence.checksum)))

/-- `epochToUtcIso(externalId)`: the pattern wants a string, and what is not one fails the round
    trip. -/
def epochTimestamp : Option Json → Except JsError (Option String)
  | none => .ok none
  | some (.str externalId) => .ok (epochToUtcIso externalId)
  | some value =>
    match toText reader.numberText value with
    | some _ => .ok none
    | none => .error (typeError "Cannot convert object to primitive value")

/-- `toPayload`, with `basePayload` written out. -/
def toPayload (evidence : Evidence) : Except JsError Payload := do
  let epoch ← epochTimestamp reader evidence.source.externalId
  .ok
    { checksum := evidence.checksum
      objectKey := evidence.objectKey
      promotionEvidence :=
        { bucket := evidence.bucket
          byteSize := evidence.byteSize
          checksum := evidence.checksum
          discoveredAt := evidence.discoveredAt
          fetchedAt := evidence.fetchedAt
          objectKey := evidence.objectKey
          rawStorageStatus := evidence.status
          runId := call.runId
          sourceExternalId := evidence.source.externalId
          sourceFilename := evidence.sourceFilename
          sourceUrl := sanitizeSourceUrl pf evidence.source.url }
      replayTimestamp :=
        ((epoch.or (replayTimestampFromFilename evidence.sourceFilename)).map Json.str).or
          evidence.discoveredAt
      sizeBytes := evidence.byteSize
      sourceReplayId := toSourceReplayId pf evidence
      sourceSystem := defaultSourceSystem }

/-- Bytes that are in the store may be staged. -/
def isStageable (evidence : Evidence) : Bool :=
  evidence.status = .stored || evidence.status = .skipped

/-- Stage what is stageable, and say why the rest is not. -/
def stageRawReplay (rawResult : StoreRawReplayResult) : Job StagingResult :=
  match rawResult with
  | .fetchFailed _ =>
    Proc.pure (.ok { reason := some (notStageableReason .failed), status := .notStageable })
  | .stored evidence =>
    if isStageable evidence then
      match toPayload reader call evidence with
      | .error error => Proc.pure (.error error)
      | .ok payload => .call (.stage payload) fun result => Proc.pure (.ok result)
    else
      Proc.pure (.ok { reason := some (notStageableReason evidence.status), status := .notStageable })

/-- A candidate that was processed, or that the gate skipped. -/
inductive SettledCandidate
  | processed (rawResult : StoreRawReplayResult) (stagingResult : StagingResult)
  | skipped

/-- Store, then stage. -/
def processCandidate (candidate : Candidate) : Job SettledCandidate :=
  Proc.bind (storeRawReplay reader call candidate) fun
    | .error error => Proc.pure (.error error)
    | .ok rawResult => Proc.bind (stageRawReplay reader call rawResult) fun
      | .error error => Proc.pure (.error error)
      | .ok stagingResult => Proc.pure (.ok (.processed rawResult stagingResult))

/-- A candidate, past the pre-fetch gate when that is on. -/
def ingestCandidate (candidate : Candidate) : Job SettledCandidate :=
  if call.gated then
    match isTrustworthyId candidate.source.externalId, candidate.source.externalId with
    | .error error, _ => Proc.pure (.error error)
    | .ok true, some (.str externalId) =>
      .call (.existsBySourceIdentity defaultSourceSystem externalId) fun r =>
        match r with
        | .error error => Proc.pure (.error error)
        | .ok true => Proc.pure (.ok .skipped)
        | .ok false => processCandidate reader call candidate
    | .ok _, _ => processCandidate reader call candidate
  else processCandidate reader call candidate

/-- What a page resolves with. -/
structure IngestPageResult where
  counts : IngestPageCounts
  rawStorage : List StoreRawReplayResult
  staging : List StagingResult

/-- A stored or a failed replay is counted. -/
def tallyRawResult (counts : IngestPageCounts) (result : StoreRawReplayResult) : IngestPageCounts :=
  match result.status with
  | .stored => { counts with stored := counts.stored + 1 }
  | .failed => { counts with failed := counts.failed + 1 }
  | _ => counts

/-- A staged or a failed row is counted. -/
def tallyStagingResult (counts : IngestPageCounts) (result : StagingResult) : IngestPageCounts :=
  match result.status with
  | .staged => { counts with staged := counts.staged + 1 }
  | .failed => { counts with failed := counts.failed + 1 }
  | _ => counts

/-- A candidate's results, in order. -/
def tallyCandidate (acc : IngestPageResult) : SettledCandidate → IngestPageResult
  | .skipped =>
    { acc with counts :=
        { acc.counts with skippedBySourceId := acc.counts.skippedBySourceId + 1 } }
  | .processed rawResult stagingResult =>
    { counts := tallyStagingResult (tallyRawResult acc.counts rawResult) stagingResult
      rawStorage := acc.rawStorage ++ [rawResult]
      staging := acc.staging ++ [stagingResult] }

/-- The page's counts and results. -/
def tallyPage (settled : List SettledCandidate) : IngestPageResult :=
  settled.foldl tallyCandidate
    { counts := newPageCounts settled.length, rawStorage := [], staging := [] }

/-- `rethrowProgrammerError`, then the values in candidate order. -/
def fulfilledInOrder : List (Except JsError SettledCandidate) → Except JsError (List SettledCandidate)
  | [] => .ok []
  | .error error :: _ => .error error
  | .ok value :: rest => (fulfilledInOrder rest).map (value :: ·)

/-- All candidates, at most `limit` at a time; one that rejects makes the page reject. -/
def ingestPage (candidates : List Candidate) : Job IngestPageResult :=
  .fan call.limit (fun i : Fin candidates.length => ingestCandidate reader call (candidates.get i))
    fun settled => .pure ((fulfilledInOrder (List.ofFn settled)).map tallyPage)

/-! ## A page -/

/-- The options of the discovery, with the pre-detail gate when the watch loop asks for it. -/
def PageCall.dryRunOptions : DiscoverReplaysDryRunOptions Request Answer where
  attempts := call.attempts
  existsBySourceIdentity :=
    if call.gated then
      some fun sourceSystem sourceReplayId =>
        Proc.perform (Request.existsBySourceIdentity sourceSystem sourceReplayId)
    else none
  fetchText url options := Proc.perform (Request.fetchText url options)
  requestDelayMs := call.requestDelayMs
  sleep milliseconds := Proc.perform (Request.sleep milliseconds)
  sourceSystem := if call.gated then some defaultSourceSystem else none
  sourceUrl := call.sourceUrl

/-- The page is discovered, and its candidates ingested. -/
def discoverThenIngest : Job (Report × IngestPageResult) :=
  Proc.bind (discoverReplaysDryRun reader call.dryRunOptions) fun
    | .error error => Proc.pure (.error error)
    | .ok report => Proc.bind (ingestPage reader call report.candidates) fun
      | .error error => Proc.pure (.error error)
      | .ok result => Proc.pure (.ok (report, result))

end Ingest

end Untrusted

end ReplaysFetcher
