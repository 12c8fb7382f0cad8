/-
  What the userinfo of the source URL reaches of a single run (`src/staging/payload.ts`,
  `src/storage/store-raw-replay.ts`, `src/run/run-once.ts`).

  A run prints the report of a discovery only through its compact summary, and that takes the
  stripped source URL.  But the id that `toSourceReplayId` derives for a replay without one is a
  digest of the text of its detail URL, and a link of the source page inherits the userinfo of the
  source: so it reaches the staging row.

  1. `barePage` is one HTML page that is a listing, of one link that names no replay, and the detail
     page it leads to.
  2. `bare` is the deployment where every service is well and every page is that one.
  3. `reaches_runOnce_bare` follows a run against it until the row is written: 14 steps.
  4. `run_leaves_no_trace_iff`: two userinfo parts leave the same artifacts of a run iff they are
     one.
-/
import ReplaysFetcher.Credentials
import ReplaysFetcher.Effectful.Leads
import ReplaysFetcher.WebUrls

namespace ReplaysFetcher

open Effectful

/-! ## One page -/

/-- A listing of one link that names no replay, with the input of a detail page. -/
@[irreducible] def barePage : String :=
  "<table class=\"common-table\"><tbody><tr><td><a href=\"/replays/\">a</a></td></tr></tbody>" ++
    "</table><input id=\"filename\" value=\"a\">"

/-- Its row. -/
def bareRow : String := "<td><a href=\"/replays/\">a</a></td>"

/-- The table of the page is that row. -/
theorem tableBody_barePage : tableBody? barePage = some ("<tr>" ++ bareRow ++ "</tr>") := by
  decide +kernel

/-- It is the only one. -/
theorem rows_barePage : (allMatches rowPattern ("<tr>" ++ bareRow ++ "</tr>")).map
    (fun found => getMatchGroup found "row") = [bareRow] := by
  decide +kernel

/-- The row links below the source. -/
theorem rowHref_bareRow : rowHref bareRow = some "/replays/" := by
  decide +kernel

/-- As a detail page it names a file. -/
theorem filename_barePage : extractFilenameFromDetailHtml barePage = some "a" := by
  decide +kernel

/-- It is not a fixture. -/
theorem looksLikeJson_barePage : Untrusted.looksLikeJson barePage = false := by
  decide +kernel

/-! ## A deployment where all is well -/

/-- Every page is the bare one, and nothing is stored or staged yet. -/
def bare (Text : Type) : Responses Text :=
  { quiet Text with
    text := fun _ => .ok barePage
    bytes := fun _ => .ok []
    getCheckpoint := fun _ => .error (.s3Service "NotFound" none)
    headObject := fun _ => .error (.s3Service "NotFound" none)
    putObject := fun _ => .ok ()
    insertStaging := fun _ => .ok none }

/-- What it answers, on record. -/
abbrev bareServe (Text : Type) : Recorded Unit ℕ (SourcedEffect Text) SourcedReply →
    (e : SourcedEffect Text) →
    SourcedReply e × Recorded Unit ℕ (SourcedEffect Text) SourcedReply :=
  recordServe (bare Text).serve ()

/-- The record once it has answered. -/
abbrev bareHear {Text : Type} (w : Recorded Unit ℕ (SourcedEffect Text) SourcedReply)
    (e : SourcedEffect Text) : Recorded Unit ℕ (SourcedEffect Text) SourcedReply :=
  (bareServe Text w e).2

/-- The ids of the rows among artifacts. -/
def stagedIds {Text : Type} (artifacts : List (Artifact Text)) : List String :=
  artifacts.filterMap fun artifact => match artifact with
    | .staging payload => some payload.sourceReplayId
    | _ => none

/-- The ids staged so far. -/
def stagedSoFar {Text : Type} (w : Recorded Unit ℕ (SourcedEffect Text) SourcedReply) :
    List String :=
  stagedIds ((conversation (w.2 ())).filterMap fun said => said.1.artifact?)

/-- An answered request adds the id of the row it writes. -/
theorem stagedSoFar_hear {Text : Type} (w : Recorded Unit ℕ (SourcedEffect Text) SourcedReply)
    (e : SourcedEffect Text) :
    stagedSoFar (bareHear w e) = stagedSoFar w ++ stagedIds e.artifact?.toList := by
  have hsaid : conversation ((bareHear w e).2 ()) =
      conversation (w.2 ()) ++ [⟨e, (bareServe Text w e).1⟩] := by
    show conversation (Function.update w.2 () (w.2 () ++ [_]) ()) = _
    rw [Function.update_self, conversation_append]
    rfl
  unfold stagedSoFar
  rw [hsaid, List.filterMap_append]
  unfold stagedIds
  rw [List.filterMap_append]
  cases h : e.artifact? <;> simp [h]

section Run

variable {Text : Type} {pf : Platform Text} {parser : PageParser pf}
  {sourceUrl detailUrl rawUrl : Url} {config : RunConfig}
  {w : Recorded Unit ℕ (SourcedEffect Text) SourcedReply}

/-! ## Reading the page -/

/-- Where the link of the page leads: below the source, to no replay, and from there to the raw
    file. -/
structure BareLink (parser : PageParser pf) (sourceUrl detailUrl rawUrl : Url) : Prop where
  resolve : parser.resolve "/replays/" sourceUrl = some detailUrl
  origin : detailUrl.origin = sourceUrl.origin
  pathname : "/replays/".toList.isPrefixOf detailUrl.pathname.toList = true
  id : urlReplayId (pf.urlToString detailUrl) = none
  parse : pf.parseUrl (pf.urlToString detailUrl) = some detailUrl
  raw : pf.parseUrl (toRawReplayUrl parser "a" detailUrl) = some rawUrl

/-- The row of the page, as it is read. -/
def bareReplayRow (parser : PageParser pf) (sourceUrl : Url) : ReplayRow :=
  parseReplayRow parser bareRow 1 sourceUrl

/-- It is the only one that is read. -/
theorem extractReplayRows_barePage :
    extractReplayRows parser barePage 1 sourceUrl = [bareReplayRow parser sourceUrl] := by
  unfold extractReplayRows
  rw [tableBody_barePage]
  have hrows := congrArg (List.map fun row => parseReplayRow parser row 1 sourceUrl) rows_barePage
  rw [List.map_map] at hrows
  exact hrows

/-- Its source is the link, without an id. -/
theorem source_bareReplayRow (h : BareLink parser sourceUrl detailUrl rawUrl) :
    (bareReplayRow parser sourceUrl).source =
      { externalId := none, url := some (pf.urlToString detailUrl) } := by
  have hurl : hrefToUrl parser (rowHref bareRow) sourceUrl = some (pf.urlToString detailUrl) := by
    rw [rowHref_bareRow]
    unfold hrefToUrl
    dsimp only
    rw [h.resolve]
    dsimp only
    rw [h.origin, h.pathname]
    simp
  show ({ externalId := _, url := _ } : ReplayRow.Source) = _
  rw [hurl]
  show ({ externalId := urlReplayId (pf.urlToString detailUrl), url := _ } : ReplayRow.Source) = _
  rw [h.id]

/-- What the row and its detail page make. -/
def bareCandidate (parser : PageParser pf) (sourceUrl detailUrl : Url) : ReplayCandidate :=
  toReplayCandidateFromHtmlRow "a" (toRawReplayUrl parser "a" detailUrl)
    (bareReplayRow parser sourceUrl) (pf.urlToString detailUrl)

/-- How a run discovers its first page. -/
abbrev bareOptions (Text : Type) (attempts : Option ℕ) (sourceUrl : Url) :
    DiscoverReplaysDryRunOptions (SourcedEffect Text) SourcedReply :=
  sourcedDryRunOptions attempts (some 1) sourceUrl

/-- The read of the list. -/
def bareList (Text : Type) (attempts : Option ℕ) (sourceUrl : Url) : SourcedEffect Text :=
  .text sourceUrl (buildReadOptions (bareOptions Text attempts sourceUrl) 1 .list)

/-- The read of the detail page. -/
def bareDetail (Text : Type) (attempts : Option ℕ) (sourceUrl detailUrl : Url) :
    SourcedEffect Text :=
  .text detailUrl (buildReadOptions (bareOptions Text attempts sourceUrl) 1 .detail)

/-- The row takes one read, of its detail page. -/
theorem leads_discoverRow_bare (h : BareLink parser sourceUrl detailUrl rawUrl)
    (attempts : Option ℕ) :
    Proc.Leads (bareServe Text) 1
      (w, discoverRow parser.reader.toHtmlReader
        (discoverPageInput parser.reader (bareOptions Text attempts sourceUrl) 1 barePage) {}
        (bareReplayRow parser sourceUrl))
      (bareHear w (bareDetail Text attempts sourceUrl detailUrl),
        .pure (.ok { candidates := [bareCandidate parser sourceUrl detailUrl] })) := by
  have hcandidate : rowCandidate parser.reader.toHtmlReader (bareReplayRow parser sourceUrl)
      (pf.urlToString detailUrl) detailUrl barePage =
        some (bareCandidate parser sourceUrl detailUrl) := by
    show (extractFilenameFromDetailHtml barePage).map _ = _
    rw [filename_barePage]
    rfl
  unfold discoverRow
  rw [source_bareReplayRow h]
  dsimp only
  refine (Async.leads_bind (a := false) (.refl _)).trans ?_
  rw [if_neg Bool.false_ne_true]
  refine Async.leads_bind (a := some (bareCandidate parser sourceUrl detailUrl)) ?_
  unfold discoverRowCandidate newUrl
  rw [h.parse]
  refine (Async.leads_bind (a := detailUrl) (.refl _)).trans ?_
  rw [← hcandidate]
  exact Async.leads_bind (a := barePage) Proc.leads_call

/-- What is found on the page. -/
def bareLoop (parser : PageParser pf) (sourceUrl detailUrl : Url) : RowLoop :=
  { candidates := [bareCandidate parser sourceUrl detailUrl] }

/-- The page takes two reads. -/
theorem leads_discoverPage_bare (h : BareLink parser sourceUrl detailUrl rawUrl)
    (attempts : Option ℕ) :
    Proc.Leads (bareServe Text) 2
      (w, discoverPage parser.reader (bareOptions Text attempts sourceUrl) 1)
      (bareHear (bareHear w (bareList Text attempts sourceUrl))
          (bareDetail Text attempts sourceUrl detailUrl),
        .pure (.ok (bareLoop parser sourceUrl detailUrl).result.findings)) := by
  have hread : Proc.Leads (bareServe Text) 1
      (w, .call (bareList Text attempts sourceUrl) fun r => .pure r)
      (bareHear w (bareList Text attempts sourceUrl), .pure (.ok barePage)) := Proc.leads_call
  have hfixture : (discoverPageInput parser.reader (bareOptions Text attempts sourceUrl) 1 barePage :
      DiscoverPageInput (SourcedEffect Text) SourcedReply).fixture = none := by
    show (if Untrusted.looksLikeJson barePage then _ else _) = none
    rw [looksLikeJson_barePage]
    rfl
  have hrows : parser.reader.extractReplayRows barePage 1 (pf.toPageUrl sourceUrl 1) =
      [bareReplayRow parser sourceUrl] := extractReplayRows_barePage
  unfold discoverPage
  refine (Async.leads_bind hread).trans ?_
  refine Async.leads_bind (a := (bareLoop parser sourceUrl detailUrl).result) ?_
  unfold discoverPageCandidates
  rw [hfixture]
  dsimp only
  show Proc.Leads _ 1 (_, (discoverRows _ _ _
    (parser.reader.extractReplayRows barePage 1 (pf.toPageUrl sourceUrl 1)) >>= _ :
      Async _ _ _ _)) _
  rw [hrows]
  refine Async.leads_bind (a := bareLoop parser sourceUrl detailUrl) ?_
  unfold discoverRows
  exact Async.leads_bind (leads_discoverRow_bare h attempts)

/-- So does the discovery of the first page, and it finds the candidate. -/
theorem leads_discoverReplaysDryRun_bare (h : BareLink parser sourceUrl detailUrl rawUrl)
    (attempts : Option ℕ) :
    ∃ report : DiscoveryReport, report.ok = true ∧
      report.candidates = [bareCandidate parser sourceUrl detailUrl] ∧
      Proc.Leads (bareServe Text) 2
        (w, discoverReplaysDryRun parser.reader (bareOptions Text attempts sourceUrl))
        (bareHear (bareHear w (bareList Text attempts sourceUrl))
            (bareDetail Text attempts sourceUrl detailUrl),
          .pure (.ok report)) := by
  have hpages := leads_discoverPage_bare (w := w) h attempts
  refine ⟨buildReport pf sourceUrl true
    (({} : PageFindings ReplayCandidate).add (bareLoop parser sourceUrl detailUrl).result.findings),
    rfl, rfl, ?_⟩
  unfold discoverReplaysDryRun
  refine Proc.Leads.bind (q := .pure (({} : PageFindings ReplayCandidate).add
    (bareLoop parser sourceUrl detailUrl).result.findings, none)) ?_ _
  show Proc.Leads _ 2 (w, dryRunPages _ 1 1 {}) _
  unfold dryRunPages
  exact hpages.bind _

/-! ## Storing and staging it -/

/-- What is known of the stored replay, but for the instant. -/
def bareEvidence (pf : Platform Text) (parser : PageParser pf) (bucket : String)
    (sourceUrl detailUrl : Url) : RawReplayStorageEvidence :=
  toEvidence bucket (storageInput pf (bareCandidate parser sourceUrl detailUrl) 0 []) .stored

/-- Its bytes are fetched from the raw URL. -/
theorem storeRawReplay_bare (h : BareLink parser sourceUrl detailUrl rawUrl) (bucket : String) :
    (storeRawReplay pf bucket (bareCandidate parser sourceUrl detailUrl) :
      Program Text (Except JsError StoreRawReplayResult)) =
      .call .now fun now => .call (.fetchBytes rawUrl) fun r =>
        match r with
        | .error error =>
          .pure (fetchFailureOutcome (bareCandidate parser sourceUrl detailUrl) (toISOString now)
            error)
        | .ok bytes =>
          (s3StoreRawReplay bucket
            (storageInput pf (bareCandidate parser sourceUrl detailUrl) now bytes)).bind
            fun evidence => .pure (.ok (.stored evidence)) := by
  have hurl : bytesUrl pf (bareCandidate parser sourceUrl detailUrl) = .ok rawUrl := by
    show newUrl pf (toRawReplayUrl parser "a" detailUrl) = _
    unfold newUrl
    rw [h.raw]
  rw [storeRawReplay_eq]
  generalize bytesUrl pf (bareCandidate parser sourceUrl detailUrl) = url at hurl
  subst hurl
  rfl

/-- The id that is derived for it: the digest of its detail URL, its name and its checksum. -/
def bareId (pf : Platform Text) (detailUrl : Url) : String :=
  "derived:" ++
    calculateSha256 pf (pf.encode (pf.urlToString detailUrl ++ "\n" ++ "a" ++ "\n" ++ pf.sha256Hex []))

/-- It has no other. -/
theorem toSourceReplayId_bare (h : BareLink parser sourceUrl detailUrl rawUrl) (bucket : String) :
    toSourceReplayId pf (bareEvidence pf parser bucket sourceUrl detailUrl) =
      bareId pf detailUrl := by
  have hid : (bareEvidence pf parser bucket sourceUrl detailUrl).source.externalId = none :=
    congrArg ReplayRow.Source.externalId (source_bareReplayRow h)
  unfold toSourceReplayId
  rw [hid]
  rfl

/-- The ingest of the page takes the instant, the bytes, the two object requests and the INSERT. -/
theorem reaches_ingestPage_bare (h : BareLink parser config.sourceUrl detailUrl rawUrl)
    (state : LoopState) (hlimit : 0 < state.limit) (hw : stagedSoFar w = []) :
    Proc.Reaches (bareServe Text) 5 (fun w => stagedSoFar w = [bareId pf detailUrl]) w
      (ingestPage (ingestInput (config.sourcedInput parser.reader) state
        [bareCandidate parser config.sourceUrl detailUrl])) := by
  have hstore : (ingestInput (config.sourcedInput parser.reader) state
      [bareCandidate parser config.sourceUrl detailUrl]).storeRawReplay
        (bareCandidate parser config.sourceUrl detailUrl) =
      Proc.handle sourced (storeRawReplay pf config.bucket
        (bareCandidate parser config.sourceUrl detailUrl)) := rfl
  rw [storeRawReplay_bare h] at hstore
  have htask : ingestCandidate (ingestInput (config.sourcedInput parser.reader) state
      [bareCandidate parser config.sourceUrl detailUrl])
        (bareCandidate parser config.sourceUrl detailUrl) =
      processCandidate (ingestInput (config.sourcedInput parser.reader) state
        [bareCandidate parser config.sourceUrl detailUrl])
          (bareCandidate parser config.sourceUrl detailUrl) := ingestCandidate_ungated _ rfl _
  unfold processCandidate at htask
  rw [hstore] at htask
  rw [ingestPage_eq]
  refine Proc.Reaches.first hlimit ?_
  show Proc.Reaches _ _ _ _ (ingestCandidate _ (bareCandidate parser config.sourceUrl detailUrl))
  rw [htask]
  iterate 4 refine Proc.leads_call.reaches ?_
  refine Proc.leads_call.reaches_there ?_
  iterate 5 rw [stagedSoFar_hear]
  rw [hw]
  show ([] ++ [] ++ [] ++ [] ++ [] ++ [toSourceReplayId pf
    (bareEvidence pf parser config.bucket config.sourceUrl detailUrl)] : List String) = _
  rw [toSourceReplayId_bare h]
  rfl

/-! ## The run -/

/-- The first turn of the page loop writes the row. -/
theorem reaches_pageIteration_bare (h : BareLink parser config.sourceUrl detailUrl rawUrl)
    (hpages : config.maxPages ≠ some 0) (context : AssembleContext) {state : LoopState}
    (hlimit : 0 < state.throttle.concurrency) (hclean : state.throttle.cleanStreak = 0)
    (hw : stagedSoFar w = []) :
    Proc.Reaches (bareServe Text) 9 (fun w => stagedSoFar w = [bareId pf detailUrl]) w
      (pageIteration pf (config.sourcedInput parser.reader) context (state, 1)) := by
  obtain ⟨report, hok, hcandidates, hreport⟩ :=
    leads_discoverReplaysDryRun_bare (w := bareHear w (.other .awaitFloor)) h config.attempts
  have hcap : ¬ ((config.sourcedInput parser.reader).maxPages.any
      fun maxPages => decide (maxPages < (state, 1).2)) = true := by
    show ¬ (config.maxPages.any fun maxPages => decide (maxPages < 1)) = true
    cases hmax : config.maxPages with
    | none => exact Bool.false_ne_true
    | some n =>
      have hn : n ≠ 0 := fun hzero => hpages (hzero ▸ hmax)
      simp [hn]
  unfold pageIteration
  rw [if_neg hcap]
  refine Async.reaches_lift_bind_of Proc.leads_call ?_
  refine Async.reaches_bind_of hreport ?_
  rw [if_neg (by rw [hok]; decide), if_neg (by rw [hcandidates]; exact List.cons_ne_nil _ _),
    hcandidates]
  refine Async.reaches_bind ?_
  unfold completeOkPage
  refine Async.reaches_lift_bind_of Proc.leads_call ?_
  refine Async.reaches_bind (reaches_ingestPage_bare h _ ?_ ?_)
  · -- the page has been clean, and one clean page leaves the limit as it was
    unfold onCleanWindow
    dsimp only
    rw [if_pos (by rw [hclean]; decide)]
    exact hlimit
  · iterate 4 rw [stagedSoFar_hear]
    rw [hw]
    rfl

/-- No checkpoint is found. -/
theorem leads_resolveResumeState_bare {key : String}
    (hkey : checkpointKey pf config.checkpointOptions (pf.withoutUserinfo config.sourceUrl) =
      .ok key) :
    Proc.Leads (bareServe Text) 2
      (w, resolveResumeState (config.sourcedInput parser.reader)
        (pf.withoutUserinfo config.sourceUrl))
      (bareHear (bareHear w (.other (.getCheckpoint key)))
        (.other (.log (.checkpointMissing (pf.withoutUserinfo config.sourceUrl)))),
        .pure (.ok {})) := by
  have hread : (config.sourcedInput parser.reader).checkpointStore.read
      (pf.withoutUserinfo config.sourceUrl) =
        Proc.call (.other (.getCheckpoint key)) fun r => .pure (readReply pf r) := by
    show Proc.handle sourced (readCheckpoint pf config.checkpointOptions _) = _
    rw [readCheckpoint_eq hkey]
    rfl
  have hget : Proc.Leads (bareServe Text) 1
      (w, .call (.other (.getCheckpoint key)) fun r => .pure (readReply pf r))
      (bareHear w (.other (.getCheckpoint key)), .pure (.ok {})) := Proc.leads_call
  unfold resolveResumeState
  rw [hread]
  exact (Async.leads_bind hget).trans (Async.leads_lift_bind Proc.leads_call)

/-- Fourteen steps of a run write the row. -/
theorem reaches_runOnce_bare (h : BareLink parser config.sourceUrl detailUrl rawUrl) {key : String}
    (hkey : checkpointKey pf config.checkpointOptions (pf.withoutUserinfo config.sourceUrl) =
      .ok key) (hpages : config.maxPages ≠ some 0) (hconcurrency : 0 < config.concurrency) :
    Proc.Reaches (bareServe Text) 14 (fun w => stagedSoFar w = [bareId pf detailUrl])
      (0, fun _ => []) (runOnce pf (config.sourcedInput parser.reader)) := by
  unfold runOnce
  refine Async.reaches_lift_bind_of Proc.leads_call ?_
  refine Async.reaches_lift_bind_of Proc.leads_call ?_
  refine Async.reaches_bind_of (leads_resolveResumeState_bare hkey) ?_
  unfold runFrom
  refine Async.reaches_bind ?_
  refine Proc.leads_loop.reaches ?_
  exact ((reaches_pageIteration_bare h hpages _ hconcurrency rfl rfl).bind _).bind _

/-- So its artifacts hold the derived id. -/
theorem stagedIds_bare (h : BareLink parser config.sourceUrl detailUrl rawUrl) {key : String}
    (hkey : checkpointKey pf config.checkpointOptions (pf.withoutUserinfo config.sourceUrl) =
      .ok key) (hpages : config.maxPages ≠ some 0) (hconcurrency : 0 < config.concurrency) :
    stagedIds (runArtifacts parser config (bare Text) (List.replicate 14 0)) =
      [bareId pf detailUrl] := by
  obtain ⟨w', q, hleads, hstaged⟩ := reaches_runOnce_bare h hkey hpages hconcurrency
  unfold runArtifacts artifactsOf
  rw [Proc.execPicks_replicate, Proc.exec_of_leads hleads]
  dsimp only
  unfold stagedIds
  rw [List.filterMap_append]
  -- what is printed is no row
  refine (congrArg (_ ++ ·) ?_).trans ((List.append_nil _).trans hstaged)
  split <;> rfl

/-- **A run alone leaves a trace of its credentials.**  For a run that is allowed a page and a
    candidate at a time, two userinfo parts leave the same artifacts, against every sequence of
    replies and in every order of steps, iff the two are one: as long as the link of a bare page
    leads somewhere below the source with either, and the digest tells the two ids apart when the
    userinfo parts are different. -/
theorem run_leaves_no_trace_iff {u v : Userinfo} {detailUrl' rawUrl' : Url} {key : String}
    (hkey : checkpointKey pf config.checkpointOptions (pf.withoutUserinfo config.sourceUrl) =
      .ok key) (hpages : config.maxPages ≠ some 0) (hconcurrency : 0 < config.concurrency)
    (hu : BareLink parser (config.sourceUrl.withUserinfo u) detailUrl rawUrl)
    (hv : BareLink parser (config.sourceUrl.withUserinfo v) detailUrl' rawUrl')
    (hdigest : u ≠ v → bareId pf detailUrl ≠ bareId pf detailUrl') :
    (∀ responses picks, runArtifacts parser (config.withUserinfo u) responses picks =
      runArtifacts parser (config.withUserinfo v) responses picks) ↔ u = v := by
  constructor
  · intro hsame
    by_contra hne
    have hidsu : stagedIds (runArtifacts parser (config.withUserinfo u) (bare Text)
        (List.replicate 14 0)) = [bareId pf detailUrl] :=
      stagedIds_bare hu hkey hpages hconcurrency
    have hidsv : stagedIds (runArtifacts parser (config.withUserinfo v) (bare Text)
        (List.replicate 14 0)) = [bareId pf detailUrl'] :=
      stagedIds_bare hv hkey hpages hconcurrency
    rw [hsame (bare Text) (List.replicate 14 0), hidsv] at hidsu
    exact hdigest hne (List.head_eq_of_cons_eq hidsu).symm
  · rintro rfl _ _
    rfl

end Run

/-- The standard platform, with a digest that tells texts of two sums apart. -/
def summingPlatform : Platform (Option Json) :=
  { standardPlatform with
    parse_stringify := parse_stringify_toyPlatform
    sha256Hex := fun bytes => toyDigest [bytes.foldl (· + ·) 0]
    sha256Hex_hex := fun _ => isSha256Hex_toyDigest _
    urlToString_ne_empty := standardPlatform.urlToString_ne_empty }

/-- It reads what it has written. -/
theorem parse_urlToString_summing (href : String) (base url : Url)
    (h : resolveHttpUrl href base = some url) :
    (summingPlatform.parseUrl (summingPlatform.urlToString url)).isSome = true :=
  standardParser.parse_urlToString href base url h

/-- Its page parser is the standard one. -/
def summingParser : PageParser summingPlatform where
  resolve := resolveHttpUrl
  resolvePath path base := (resolveHttpUrl path base).getD base
  parseFixture _ := none
  parse_urlToString := parse_urlToString_summing

/-- The link of the bare page of `https://alice@a/`, and of `https://bob@a/`. -/
theorem bareLink_summing : ∀ user ∈ [alice, bob],
    BareLink summingParser (toyConfig.sourceUrl.withUserinfo user)
      { toyConfig.sourceUrl.withUserinfo user with pathname := "/replays/" }
      { toyConfig.sourceUrl.withUserinfo user with pathname := "/data/a.json" } := by
  intro user huser
  refine ⟨?_, ?_, ?_, ?_, ?_, ?_⟩ <;> revert user
  all_goals decide +kernel

example : (∀ responses picks,
    runArtifacts summingParser (toyConfig.withUserinfo alice) responses picks =
      runArtifacts summingParser (toyConfig.withUserinfo bob) responses picks) ↔ alice = bob :=
  run_leaves_no_trace_iff rfl (by decide) (by decide) (bareLink_summing alice (by decide))
    (bareLink_summing bob (by decide)) (by decide +kernel)

end ReplaysFetcher
