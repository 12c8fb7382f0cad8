/-
  Retries, as a run sees them (`src/source/retry.ts`, `src/storage/store-raw-replay.ts`,
  `src/storage/replay-byte-client-retry.ts`).

  A run reads list pages, detail pages and replay bytes.  Its clients try a read again as often as
  the options of the call say, so the configured retry count has to travel from the command through
  the loop to every one of these calls.  The signature `SourcedEffect` makes the options of a call
  visible, and a run is written over it without any other change.

  The count reaches the two kinds of text reads: `discoverReplays` gets it, and every `fetchText` of
  a discovery carries it (`gives_discoverReplaysDryRun`).  It does not reach the bytes:
  `storeRawReplay` calls `fetchBytes(url)` and nothing more.  So a run survives the failures its
  count allows exactly when no byte read fails at first (`retry_parity_iff`).
-/
import ReplaysFetcher.Challenge
import ReplaysFetcher.SshBytes
import ReplaysFetcher.PageTurns
import ReplaysFetcher.Watch
import ReplaysFetcher.Effectful.Replies

namespace ReplaysFetcher

open Effectful

/-! ## One read -/

/-- A read, try by try: what is asked, what is made of a reply, and how a failure is classified. -/
structure ReadShape (α : Type) where
  request : TransportEffect
  answer : TransportReply request → Except ReadError α
  classify : ReadError → FailureClassification

/-- The reply fails the try, and another one may help. -/
def ReadShape.Fails {α : Type} (shape : ReadShape α) (reply : TransportReply shape.request) : Prop :=
  ∃ error, shape.answer reply = .error error ∧ isRetryable (shape.classify error) = true

/-- The source answers the read with at most `k` such failures and then with a success, and nobody
    aborts it. -/
structure Recovered {α : Type} (shape : ReadShape α) (k : ℕ) (l : Exchanges) : Prop where
  notAborted : NotAborted l
  replies : ∃ failures success, failures.length ≤ k ∧ (∀ reply ∈ failures, shape.Fails reply) ∧
    (∃ value, shape.answer success = .ok value) ∧
    reads l <+: (failures ++ [success]).map fun reply => ⟨shape.request, reply⟩

/-- **A client with enough tries resolves.** -/
theorem ok_of_recovered {α ε : Type} {shape : ReadShape α} {k : ℕ} {l : Exchanges}
    {options : RetrySourceReadOptions α} {toError : ReadError → ε} {r : Except ε α}
    (hread : IsRequest options.read shape.request shape.answer)
    (hclassify : options.classify = shape.classify)
    (hdelay : ∀ error, Proc.Asks (fun e => e = .now) (options.retryAfterMs error))
    (hk : k ≤ options.attempts) (hrecovered : Recovered shape k l)
    (h : Emits (retryOrThrow options toError) l r) : ∃ value, r = .ok value := by
  obtain ⟨outcome, rfl, hends⟩ := endsWithLast_of_emits hread hdelay h
  obtain ⟨⟨reply, hlast, hanswer⟩, hgaveUp⟩ := hends hrecovered.notAborted
  obtain ⟨failures, success, hlength, hfails, ⟨value, hvalue⟩, hreads⟩ := hrecovered.replies
  cases outcome with
  | ok value => exact ⟨value, rfl⟩
  | error error =>
    exfalso
    rw [List.map_append, List.map_singleton, List.prefix_concat_iff] at hreads
    rcases hreads with hall | hsome
    · -- the last reply was the success
      rw [hall, List.getLast?_concat] at hlast
      cases hlast
      rw [hvalue] at hanswer
      cases hanswer
    · -- the last reply was one of the failures, and there was a try left
      have hmem : reply ∈ failures := by
        obtain ⟨other, hother, heq⟩ := List.mem_map.1 (hsome.subset (List.mem_of_getLast? hlast))
        cases heq
        exact hother
      obtain ⟨error', herror, hretryable⟩ := hfails reply hmem
      rw [hanswer] at herror
      cases herror
      rcases hgaveUp error rfl with hfinal | hused
      · rw [hclassify, hretryable] at hfinal
        cases hfinal
      · have htries := hsome.length_le
        rw [List.length_map] at htries
        omega

/-! ## The clients of a run -/

/-- `createSourceClient` and `createReplayByteClient`; a configuration for SSH names a host. -/
inductive SourceTransport
  | direct (codec : Codec)
  | ssh (config : SourceConfig) (host : String) (hhost : config.sourceSshHost = some host)

section Clients

variable {Text : Type} (pf : Platform Text) (transport : SourceTransport) (url : Url)

def SourceTransport.fetchText (options : SourceFetchOptions) : Read SourceFetchError String :=
  match transport with
  | .direct codec => directFetchText pf codec url options
  | .ssh config _ _ => sshFetchText pf config url options

def SourceTransport.fetchBytes (options : SourceFetchOptions) : Read ReplayByteFetchError Bytes :=
  match transport with
  | .direct codec => directFetchBytes pf codec url options
  | .ssh config _ _ => sshFetchBytes pf config url options

def SourceTransport.textShape (phase : SourceReadPhase) : ReadShape String :=
  match transport with
  | .direct codec =>
    { request := .fetch url, answer := directTextAnswer pf codec url phase
      classify := classifyDirect }
  | .ssh config host _ =>
    { request := .execFile "ssh" (host :: sshTextArguments pf config url)
      answer := fun r => r.mapError .runtime, classify := classifySsh }

def SourceTransport.bytesShape : ReadShape Bytes :=
  match transport with
  | .direct _ =>
    { request := .fetch url, answer := directBytesAnswer pf url, classify := Bytes.classifyDirect }
  | .ssh config host _ =>
    { request := .execFile "ssh" (host :: sshByteArguments pf config url)
      answer := sshBytesAnswer, classify := classifySsh }

theorem sshReadText_eq (config : SourceConfig) (host : String) :
    IsRequest (sshReadText pf config url host)
      (.execFile "ssh" (host :: sshTextArguments pf config url)) fun r => r.mapError .runtime :=
  ⟨rfl, rfl⟩

variable {pf transport url} {options : SourceFetchOptions} {k : ℕ} {l : Exchanges}

theorem fetchText_ok {r : Except SourceFetchError String} (hk : k ≤ options.attempts.getD 0)
    (hrecovered : Recovered (transport.textShape pf url (resolvePhase options)) k l)
    (h : Emits (transport.fetchText pf url options) l r) : ∃ text, r = .ok text := by
  cases transport with
  | direct codec =>
    exact ok_of_recovered (directReadText_eq pf codec url _) rfl (asks_directRetryAfter codec) hk
      hrecovered h
  | ssh config host hhost =>
    unfold SourceTransport.fetchText sshFetchText at h
    dsimp only at h
    rw [hhost] at h
    refine ok_of_recovered (sshReadText_eq pf url config host) rfl ?_ hk hrecovered h
    exact fun _ => trivial

theorem fetchBytes_ok {r : Except ReplayByteFetchError Bytes} (hk : k ≤ options.attempts.getD 0)
    (hrecovered : Recovered (transport.bytesShape pf url) k l)
    (h : Emits (transport.fetchBytes pf url options) l r) : ∃ bytes, r = .ok bytes := by
  cases transport with
  | direct codec =>
    exact ok_of_recovered (directReadBytes_eq pf url) rfl (asks_directRetryAfter codec) hk
      hrecovered h
  | ssh config host hhost =>
    unfold SourceTransport.fetchBytes sshFetchBytes at h
    dsimp only at h
    rw [hhost] at h
    refine ok_of_recovered (sshReadBytes_eq pf config url host) rfl ?_ hk hrecovered h
    exact fun _ => trivial

end Clients

/-! ## A run that shows its reads -/

/-- The requests of a run, with the options of its source reads. -/
inductive SourcedEffect (Text : Type)
  | text (url : Url) (options : SourceReadOptions)
  | bytes (url : Url) (options : SourceFetchOptions)
  | other (e : Effect Text)

@[reducible] def SourcedReply {Text : Type} : SourcedEffect Text → Type
  | .text _ _ => Except JsError String
  | .bytes _ _ => Except JsError Bytes
  | .other e => Reply e

/-- `byteClient.fetchBytes(url)`: without options. -/
def sourced {Text : Type} :
    (e : Effect Text) → Proc (SourcedEffect Text) SourcedReply (Reply e)
  | .fetchBytes url => Proc.perform (SourcedEffect.bytes url {})
  | e => Proc.perform (SourcedEffect.other e)

section Wiring

variable {Text : Type} {pf : Platform Text} (reader : SourceReader pf)

/-- What a run adds to the input of its discovery: the clients and the timer. -/
def sourcedDryRunOptions (attempts maxPages : Option ℕ) (sourceUrl : Url) :
    DiscoverReplaysDryRunOptions (SourcedEffect Text) SourcedReply where
  attempts := attempts
  fetchText url options := Proc.perform (SourcedEffect.text url options)
  maxPages := maxPages
  sleep milliseconds := Proc.perform (SourcedEffect.other (.sleep milliseconds))
  sourceUrl := sourceUrl

/-- The invocation. -/
def RunConfig.sourcedInput (config : RunConfig) :
    RunOnceInput (SourcedEffect Text) SourcedReply where
  attempts := config.attempts
  awaitFloor := Proc.perform (SourcedEffect.other .awaitFloor)
  checkpointStore :=
    { read := fun slug => Proc.handle sourced ((config.store pf).read slug)
      write := fun input => Proc.handle sourced ((config.store pf).write input) }
  concurrency := config.concurrency
  discoverReplays input := discoverReplaysDryRun reader
    (sourcedDryRunOptions input.attempts input.maxPages input.sourceUrl)
  emitEvidence := config.emitEvidence
  evidenceFile := config.evidenceFile
  evidenceStore := some fun runId summary =>
    Proc.perform (SourcedEffect.other (.putEvidence runId summary))
  log := some fun line => Proc.perform (SourcedEffect.other (.log line))
  maxPages := config.maxPages
  now := Proc.perform (SourcedEffect.other .now)
  requestSpacingMs := config.requestSpacingMs
  resume := config.resume
  runId := config.runId
  sourceUrl := config.sourceUrl
  stageRawReplay rawResult runId := Proc.handle sourced (stageRawReplay pf rawResult runId)
  storeRawReplay candidate := Proc.handle sourced (storeRawReplay pf config.bucket candidate)
  writeEvidenceFile := some fun path summary =>
    Proc.perform (SourcedEffect.other (.writeEvidenceFile path summary))

/-- The watcher. -/
def WatchConfig.sourcedInput (config : WatchConfig) :
    WatchLoopInput (SourcedEffect Text) SourcedReply :=
  config.wired reader sourced (fun url options => Proc.perform (SourcedEffect.text url options))
    (Proc.perform (SourcedEffect.other .awaitFloor))

end Wiring

/-! ## The weather -/

section Weather

variable {Text : Type} (pf : Platform Text) (transport : SourceTransport)

/-- The options as the text client takes them. -/
def SourceReadOptions.toFetchOptions (options : SourceReadOptions) : SourceFetchOptions where
  attempts := options.attempts
  page := some options.page
  phase := some options.phase

/-- What the services may reply.  A read of the source is answered by its client, which has had at
    most `failures phase` failed tries before a success; a database error is none of the source. -/
def Weather (failures : SourceReadPhase → ℕ) : (e : SourcedEffect Text) → SourcedReply e → Prop
  | .text url options, r => ∃ l outcome, Emits (transport.fetchText pf url options.toFetchOptions) l
      outcome ∧ Recovered (transport.textShape pf url options.phase) (failures options.phase) l ∧
      r = outcome.mapError JsError.sourceFetch
  | .bytes url options, r => ∃ l outcome, Emits (transport.fetchBytes pf url options) l outcome ∧
      Recovered (transport.bytesShape pf url) (failures .bytes) l ∧
      r = outcome.mapError ReplayByteFetchError.toJsError
  | .other (.existsBySourceIdentity _ _), r => ∀ failure, r ≠ .error (.sourceFetch failure)
  | .other _, _ => True

end Weather

/-! ## What a run makes of replies -/

section Rules

variable {E : Type} {R : E → Type} {allowed : (e : E) → R e → Prop}

/-- An error that is no failure of the source. -/
def Foreign (error : JsError) : Prop := ∀ failure, error ≠ .sourceFetch failure

variable (allowed) in
/-- The program rejects for foreign reasons only. -/
abbrev ReadsWell {α : Type} (p : Async E R JsError α) : Prop :=
  Proc.Gives allowed (Async.Settled (fun _ => True) Foreign) p

theorem readsWell_bind {α β : Type} {p : Async E R JsError α} {f : α → Async E R JsError β}
    (hp : ReadsWell allowed p) (hf : ∀ a, ReadsWell allowed (f a)) :
    ReadsWell allowed (p >>= f : Async E R JsError β) :=
  Async.gives_bind (fun _ => True) hp fun a _ => hf a

section Discovery

variable {Text : Type} {pf : Platform Text} {reader : SourceReader pf}
  {options : DiscoverReplaysDryRunOptions E R}

/-- The discovery's dependencies reject for foreign reasons only, if they are asked with its own
    retry count. -/
structure DiscoveryReadsWell (allowed : (e : E) → R e → Prop)
    (options : DiscoverReplaysDryRunOptions E R) : Prop where
  text : ∀ url (readOptions : SourceReadOptions), readOptions.attempts = options.attempts →
    ReadsWell allowed (options.fetchText url readOptions)
  gate : ∀ exists', options.existsBySourceIdentity = some exists' →
    ∀ sourceSystem sourceReplayId, ReadsWell allowed (exists' sourceSystem sourceReplayId)

theorem DiscoveryReadsWell.paced (h : DiscoveryReadsWell allowed options) (first : Bool) (url : Url)
    {readOptions : SourceReadOptions} (hattempts : readOptions.attempts = options.attempts) :
    ReadsWell allowed (pacedFetchText options first url readOptions) := by
  unfold pacedFetchText
  dsimp only
  split
  · exact Async.gives_lift_bind (fun _ => True) (Proc.gives_any _) fun _ _ => h.text _ _ hattempts
  · exact h.text _ _ hattempts

theorem DiscoveryReadsWell.row (h : DiscoveryReadsWell allowed options) (page : ℕ)
    (sourceText : String) (acc : RowLoop) (row : ReplayRow) :
    ReadsWell allowed (discoverRow reader.toHtmlReader
      (discoverPageInput reader options page sourceText) acc row) := by
  unfold discoverRow
  split
  · exact Proc.gives_pure trivial
  · refine readsWell_bind ?_ fun skip => ?_
    · -- the gate
      unfold shouldSkipPreDetail
      split
      · rename_i exists' sourceSystem externalId hexists _ _
        split
        · exact h.gate exists' hexists _ _
        · exact Proc.gives_pure trivial
      · exact Proc.gives_pure trivial
    · split
      · exact Proc.gives_pure trivial
      · refine readsWell_bind ?_ fun candidate => Proc.gives_pure trivial
        unfold discoverRowCandidate
        refine readsWell_bind (Proc.gives_pure ?_) fun detailUrl =>
          readsWell_bind (h.paced _ _ rfl) fun detailHtml => Proc.gives_pure trivial
        unfold newUrl
        split
        · exact trivial
        · exact fun failure heq => (by cases heq)

theorem DiscoveryReadsWell.rows (h : DiscoveryReadsWell allowed options) (page : ℕ)
    (sourceText : String) (rows : List ReplayRow) (acc : RowLoop) :
    ReadsWell allowed (discoverRows reader.toHtmlReader
      (discoverPageInput reader options page sourceText) acc rows) := by
  induction rows generalizing acc with
  | nil => exact Proc.gives_pure trivial
  | cons row rows ih => exact readsWell_bind (h.row page sourceText acc row) fun acc => ih acc

theorem DiscoveryReadsWell.page (h : DiscoveryReadsWell allowed options) (page : ℕ) :
    ReadsWell allowed (discoverPage reader options page) := by
  unfold discoverPage
  refine readsWell_bind (h.paced _ _ rfl) fun sourceText => ?_
  refine readsWell_bind ?_ fun found => Proc.gives_pure trivial
  unfold discoverPageCandidates
  split
  · exact Proc.gives_pure trivial
  · exact readsWell_bind (h.rows page sourceText _ _) fun acc => Proc.gives_pure trivial

/-- **A discovery whose reads succeed reports no failure.** -/
theorem gives_discoverReplaysDryRun (h : DiscoveryReadsWell allowed options) :
    Proc.Gives allowed (Async.Settled (fun report => report.ok = true) fun _ => True)
      (discoverReplaysDryRun reader options) := by
  have hpages : ∀ remaining page found, Proc.Gives allowed
      (fun outcome => ∀ failed, outcome.2 = some failed → Foreign failed.1)
      (dryRunPages (discoverPage reader options) remaining page found) := by
    intro remaining
    induction remaining with
    | zero => exact fun page found => Proc.gives_pure fun failed hfailed => (by cases hfailed)
    | succ remaining ih =>
      intro page found
      refine Proc.gives_bind _ (h.page page) fun r hr => ?_
      cases r with
      | ok yielded => exact ih _ _
      | error error =>
        refine Proc.gives_pure fun failed hfailed => ?_
        cases hfailed
        exact hr
  unfold discoverReplaysDryRun
  refine Proc.gives_bind _ (hpages _ _ _) fun outcome houtcome => Proc.gives_pure ?_
  obtain ⟨found, failed⟩ := outcome
  match failed with
  | none => exact rfl
  | some (error, page) =>
    have hforeign : Foreign error := houtcome _ rfl
    cases error with
    | sourceFetch failure => exact absurd rfl (hforeign failure)
    | _ => exact trivial

end Discovery

/-! ### Pages -/

/-- The bytes were read. -/
def StoreRawReplayResult.Fetched : StoreRawReplayResult → Prop
  | .fetchFailed _ => False
  | .stored _ => True

def AllFetched (results : List StoreRawReplayResult) : Prop := ∀ raw ∈ results, raw.Fetched

/-- A fan-out whose byte reads succeed. -/
theorem gives_ingestPage {input : IngestPageInput E R}
    (hstore : ∀ candidate, Proc.Gives allowed
      (Async.Settled StoreRawReplayResult.Fetched fun _ => True) (input.storeRawReplay candidate)) :
    Proc.Gives allowed (Async.Settled (fun result => AllFetched result.rawStorage) fun _ => True)
      (ingestPage input) := by
  let Read : SettledCandidate → Prop := fun settled =>
    ∀ raw, settled.rawResult? = some raw → raw.Fetched
  have hprocess : ∀ candidate, Proc.Gives allowed (Async.Settled Read fun _ => True)
      (processCandidate input candidate) := by
    intro candidate
    unfold processCandidate
    refine Async.gives_bind _ (hstore candidate) fun raw hraw => ?_
    refine Async.gives_bind _ (Async.gives_any _) fun staging _ => Proc.gives_pure ?_
    intro raw' heq
    cases heq
    exact hraw
  have hcandidate : ∀ candidate, Proc.Gives allowed (Async.Settled Read fun _ => True)
      (ingestCandidate input candidate) := by
    intro candidate
    unfold ingestCandidate
    split
    · exact hprocess candidate
    · refine Async.gives_bind _ (Async.gives_any _) fun exists' _ => ?_
      split
      · exact Proc.gives_pure fun raw heq => (by cases heq)
      · exact hprocess candidate
  rw [ingestPage_eq]
  refine Proc.gives_fan (fun _ => Async.Settled Read fun _ => True) (fun i => hcandidate _)
    fun vs hvs => Proc.gives_pure ?_
  cases houtcome : pageOutcome vs with
  | error error => exact trivial
  | ok result =>
    obtain ⟨values, hvalues, rfl⟩ := pageOutcome_eq_ok.1 houtcome
    intro raw hraw
    rw [(results_tallyPage _).1] at hraw
    obtain ⟨settled, hsettled, heq⟩ := List.mem_filterMap.1 hraw
    obtain ⟨i, rfl⟩ := List.mem_ofFn.1 hsettled
    have hread := hvs i
    rw [hvalues i] at hread
    exact hread raw heq

/-- What a turn of the page loop adds when its reads succeed: no failed page, no failed bytes. -/
structure TurnRead (before : LoopState) (turn : PageTurn) : Prop where
  notFailed : turn.stopReason ≠ some .pageFailed
  report : before.discoveryReport.ok = true → turn.state.discoveryReport.ok = true
  fetched : ∀ raw ∈ turn.state.rawStorage, raw ∈ before.rawStorage ∨ raw.Fetched

section RunOnce

variable {Text : Type} {pf : Platform Text} {input : RunOnceInput E R}

/-- The list and the details of every page can be read, and so can the bytes. -/
structure RunReadsWell (allowed : (e : E) → R e → Prop) (pf : Platform Text)
    (input : RunOnceInput E R) : Prop where
  discover : ∀ page, Proc.Gives allowed (Async.Settled (fun report => report.ok = true)
    fun _ => True) (input.discoverReplays (discoverInput pf input page))
  store : ∀ candidate, Proc.Gives allowed
    (Async.Settled StoreRawReplayResult.Fetched fun _ => True) (input.storeRawReplay candidate)

/-- A turn of the page loop. -/
theorem RunReadsWell.turn (h : RunReadsWell allowed pf input) (context : AssembleContext)
    (cursor : LoopState × ℕ) :
    Proc.Gives allowed (Async.Settled (TurnRead cursor.1) fun _ => True)
      (pageTurn pf input context cursor) := by
  unfold pageTurn
  split
  · exact Proc.gives_pure ⟨fun heq => (by cases heq), fun hok => hok, fun _ hraw => Or.inl hraw⟩
  · refine Async.gives_lift_bind (fun _ => True) (Proc.gives_any _) fun _ _ => ?_
    refine Async.gives_bind _ (h.discover _) fun report hreport => ?_
    have hdiscovered : cursor.1.discoveryReport.ok = true →
        (discoveredState cursor.1 report).discoveryReport.ok = true := by
      intro hok
      show (cursor.1.discoveryReport.ok && report.ok) = true
      rw [hok, hreport]
      rfl
    unfold afterDiscovery
    rw [if_neg (by rw [hreport]; exact Bool.noConfusion)]
    split
    · exact Proc.gives_pure ⟨fun heq => (by cases heq), hdiscovered, fun _ hraw => Or.inl hraw⟩
    · -- the fan-out
      have hpage : Proc.Gives allowed (Async.Settled (fun x : LoopState × IngestPageCounts =>
          (x.1.discoveryReport = (discoveredState cursor.1 report).discoveryReport) ∧
          ∀ raw ∈ x.1.rawStorage, raw ∈ cursor.1.rawStorage ∨ raw.Fetched) fun _ => True)
          (completeOkPage input context cursor.2 report.candidates
            (discoveredState cursor.1 report)) := by
        unfold completeOkPage
        refine Async.gives_lift_bind (fun _ => True) (Proc.gives_any _) fun throttledAt _ => ?_
        refine Async.gives_bind _ (gives_ingestPage h.store) fun result hfetched => ?_
        refine Async.gives_lift_bind (fun _ => True) (Proc.gives_any _) fun completedAt _ => ?_
        refine Async.gives_lift_bind (fun _ => True) (Proc.gives_any _) fun _ _ => ?_
        refine Async.gives_bind _ (Async.gives_any _) fun etag _ => Proc.gives_pure ⟨rfl, ?_⟩
        intro raw hraw
        exact (List.mem_append.1 hraw).imp_right (hfetched raw)
      refine Async.gives_bind _ hpage ?_
      rintro ⟨state, counts⟩ ⟨hstate, hfetched⟩
      refine Proc.gives_pure ⟨fun heq => ?_, fun hok => ?_, hfetched⟩
      · unfold PageTurn.stopReason at heq
        dsimp only at heq
        split at heq <;> cases heq
      · show state.discoveryReport.ok = true
        rw [hstate]
        exact hdiscovered hok

end RunOnce

/-! ### Summaries -/

/-- No page is reported as failed, and no candidate as `fetch_failed`. -/
def RunSummary.ReadsSucceeded (summary : RunSummary) : Prop :=
  RunFailureCategory.sourceUnavailable ∉ summary.failureCategories ∧
    RunFailureCategory.fetchFailed ∉ summary.failureCategories

theorem failureCategories_buildRunSummary (input : BuildRunSummaryInput) :
    (buildRunSummary input).failureCategories =
      collectFailureCategories input.discoveryReport input.rawStorage input.staging := by
  unfold buildRunSummary withRunMetrics
  split <;> rfl

theorem mem_collectFailureCategories {category : RunFailureCategory} {report : DiscoveryReport}
    {rawStorage : List StoreRawReplayResult} {staging : List IngestStagingResult} :
    category ∈ collectFailureCategories report rawStorage staging ↔
      category ∈ sourceFailureCategories report ∨ category ∈ rawFailureCategories rawStorage ∨
        category ∈ stagingFailureCategories staging := by
  unfold collectFailureCategories uniqueCategories
  rw [List.mem_insertionSort, List.mem_dedup, List.mem_append, List.mem_append, or_assoc]

/-- The staging results have categories of their own. -/
theorem notMem_stagingFailureCategories {category : RunFailureCategory}
    (h : category = .sourceUnavailable ∨ category = .fetchFailed)
    (staging : List IngestStagingResult) : category ∉ stagingFailureCategories staging := by
  intro hmem
  obtain ⟨result, _, hmem⟩ := List.mem_flatMap.1 hmem
  cases hstatus : result.status <;> rw [hstatus] at hmem <;> rcases h with rfl | rfl <;>
    simp at hmem

theorem fetchFailed_mem_iff {rawStorage : List StoreRawReplayResult} :
    RunFailureCategory.fetchFailed ∈ rawFailureCategories rawStorage ↔ ¬ AllFetched rawStorage := by
  unfold rawFailureCategories AllFetched
  rw [List.mem_flatMap]
  push Not
  refine exists_congr fun raw => and_congr_right fun _ => ?_
  cases raw with
  | fetchFailed evidence => simp [StoreRawReplayResult.Fetched]
  | stored evidence =>
    cases hstatus : evidence.status <;> simp [StoreRawReplayResult.Fetched, hstatus]

/-- What the categories of a summary say about its reads. -/
theorem readsSucceeded_buildRunSummary {input : BuildRunSummaryInput} :
    (buildRunSummary input).ReadsSucceeded ↔
      input.discoveryReport.ok = true ∧ AllFetched input.rawStorage := by
  have hraw : RunFailureCategory.sourceUnavailable ∉ rawFailureCategories input.rawStorage := by
    intro hmem
    obtain ⟨raw, _, hmem⟩ := List.mem_flatMap.1 hmem
    cases raw with
    | fetchFailed evidence => simp at hmem
    | stored evidence => cases hstatus : evidence.status <;> simp [hstatus] at hmem
  have hsource : RunFailureCategory.fetchFailed ∉ sourceFailureCategories input.discoveryReport := by
    unfold sourceFailureCategories
    split <;> simp
  unfold RunSummary.ReadsSucceeded
  rw [failureCategories_buildRunSummary, mem_collectFailureCategories, mem_collectFailureCategories,
    fetchFailed_mem_iff]
  have hstaging₁ := notMem_stagingFailureCategories (Or.inl rfl) input.staging
  have hstaging₂ := notMem_stagingFailureCategories (Or.inr rfl) input.staging
  constructor
  · rintro ⟨hok, hfetched⟩
    refine ⟨?_, not_not.1 fun hnot => hfetched (Or.inr (Or.inl hnot))⟩
    by_contra hnot
    refine hok (Or.inl ?_)
    unfold sourceFailureCategories
    rw [if_neg hnot]
    exact List.mem_singleton_self _
  · rintro ⟨hok, hfetched⟩
    refine ⟨?_, ?_⟩
    · rintro (h | h | h)
      · unfold sourceFailureCategories at h
        rw [if_pos hok] at h
        cases h
      · exact hraw h
      · exact hstaging₁ h
    · rintro (h | h | h)
      · exact hsource h
      · exact h hfetched
      · exact hstaging₂ h

section RunOnce

variable {Text : Type} {pf : Platform Text} {input : RunOnceInput E R}

/-- Every page so far was read, and so were all bytes. -/
def LoopState.ReadsSucceeded (state : LoopState) : Prop :=
  state.discoveryReport.ok = true ∧ AllFetched state.rawStorage

/-- **A run whose reads succeed reports no failed read.** -/
theorem RunReadsWell.runOnce (h : RunReadsWell allowed pf input) :
    Proc.Gives allowed (Async.Settled (fun result => result.summary.ReadsSucceeded) fun _ => True)
      (runOnce pf input) := by
  have hloop : ∀ context state, state.ReadsSucceeded → Proc.Gives allowed
      (Async.Settled LoopState.ReadsSucceeded fun _ => True)
      (runPageLoop pf input context state) := by
    intro context state hstate
    refine Async.gives_iterate (fun cursor => cursor.1.ReadsSucceeded) (fun cursor hcursor => ?_)
      hstate
    rw [pageIteration_eq]
    refine Async.gives_bind _ (h.turn context cursor) fun turn hturn => Proc.gives_pure ?_
    have hkept : turn.state.ReadsSucceeded :=
      ⟨hturn.report hcursor.1, fun raw hraw => (hturn.fetched raw hraw).elim (hcursor.2 raw) id⟩
    show Sum.elim _ _ (turn.next cursor.2)
    unfold PageTurn.next
    split
    · exact hkept
    · exact hkept
  unfold ReplaysFetcher.runOnce
  refine Async.gives_lift_bind (fun _ => True) (Proc.gives_any _) fun startedAt _ => ?_
  refine Async.gives_lift_bind (fun _ => True) (Proc.gives_any _) fun _ _ => ?_
  refine Async.gives_bind _ (Async.gives_any _) fun resumeState _ => ?_
  unfold runFrom
  refine Async.gives_bind _ (hloop _ _ ⟨rfl, fun _ hraw => absurd hraw List.not_mem_nil⟩)
    fun state hstate => ?_
  unfold assembleResult
  refine Async.gives_bind (fun _ => True) (Async.gives_any _) fun _ _ => ?_
  refine Async.gives_lift_bind (fun _ => True) (Proc.gives_any _) fun finishedAt _ => ?_
  refine Async.gives_lift_bind (fun _ => True) (Proc.gives_any _) fun _ _ => ?_
  refine Async.gives_bind (fun _ => True) (Async.gives_any _) fun _ _ => Proc.gives_pure ?_
  exact readsSucceeded_buildRunSummary.2 hstate

end RunOnce

/-- **A cycle whose reads succeed reports no failed read.** -/
theorem gives_runCycle {input : WatchLoopInput E R}
    (hdiscover : Proc.Gives allowed (Async.Settled (fun report => report.ok = true) fun _ => True)
      (input.discoverReplays (buildDiscoverInput input)))
    (hstore : ∀ candidate, Proc.Gives allowed
      (Async.Settled StoreRawReplayResult.Fetched fun _ => True) (input.storeRawReplay candidate)) :
    Proc.Gives allowed (Async.Settled RunSummary.ReadsSucceeded fun _ => True) (runCycle input) := by
  unfold runCycle
  refine Async.gives_bind _ (Async.gives_any _) fun cycleStart _ => ?_
  refine Async.gives_bind _ (Async.gives_any _) fun runId _ => ?_
  refine Async.gives_bind _ (Async.gives_any _) fun _ _ => ?_
  refine Async.gives_bind _ hdiscover fun report hreport => ?_
  refine Async.gives_bind _ (gives_ingestPage hstore) fun result hfetched => ?_
  refine Async.gives_bind _ (Async.gives_any _) fun finishedAt _ => ?_
  refine Async.gives_lift_bind (fun _ => True) (Proc.gives_any _) fun _ _ => Proc.gives_pure ?_
  exact readsSucceeded_buildRunSummary.2 ⟨hreport, hfetched⟩

end Rules

/-! ## Retry parity -/

section Parity

variable {Text : Type} {pf : Platform Text} {reader : SourceReader pf} {transport : SourceTransport}
  {failures : SourceReadPhase → ℕ} {n : ℕ}

/-- **Retry parity**, in the weather `failures`: with the retry count `n`, no turn of the page loop
    meets a failed page or failed bytes, and no run and no watch cycle reports one. -/
structure RetryParity (n : ℕ) (failures : SourceReadPhase → ℕ) : Prop where
  turn : ∀ {Text : Type} {pf : Platform Text} (reader : SourceReader pf) (transport : SourceTransport)
    (config : RunConfig), config.attempts = some n → ∀ context cursor,
    Proc.Gives (Weather pf transport failures) (Async.Settled (TurnRead cursor.1) fun _ => True)
      (pageTurn pf (config.sourcedInput reader) context cursor)
  run : ∀ {Text : Type} {pf : Platform Text} (reader : SourceReader pf) (transport : SourceTransport)
    (config : RunConfig), config.attempts = some n →
    Proc.Gives (Weather pf transport failures)
      (Async.Settled (fun result => result.summary.ReadsSucceeded) fun _ => True)
      (runOnce pf (config.sourcedInput reader))
  cycle : ∀ {Text : Type} {pf : Platform Text} (reader : SourceReader pf)
    (transport : SourceTransport) (config : WatchConfig), config.attempts = some n →
    Proc.Gives (Weather pf transport failures)
      (Async.Settled RunSummary.ReadsSucceeded fun _ => True)
      (runCycle (config.sourcedInput reader))

/-- A text read with the configured count succeeds. -/
theorem readsWell_text {readOptions : SourceReadOptions} (hfailures : ∀ phase, failures phase ≤ n)
    (hattempts : readOptions.attempts = some n) (url : Url) :
    ReadsWell (Weather pf transport failures)
      (Proc.perform (SourcedEffect.text url readOptions) :
        Async (SourcedEffect Text) SourcedReply JsError String) := by
  refine Proc.gives_call fun r hr => Proc.gives_pure ?_
  obtain ⟨l, outcome, hemits, hrecovered, rfl⟩ := hr
  have hk : failures readOptions.phase ≤ readOptions.toFetchOptions.attempts.getD 0 := by
    show _ ≤ readOptions.attempts.getD 0
    rw [hattempts]
    exact hfailures _
  obtain ⟨text, rfl⟩ := fetchText_ok hk hrecovered hemits
  exact trivial

/-- Bytes that never fail at first are fetched. -/
theorem gives_storeRawReplay (hbytes : failures .bytes = 0) (bucket : String)
    (candidate : ReplayCandidate) :
    Proc.Gives (Weather pf transport failures)
      (Async.Settled StoreRawReplayResult.Fetched fun _ => True)
      (Proc.handle sourced (storeRawReplay pf bucket candidate)) := by
  rw [storeRawReplay_eq]
  refine Proc.gives_call fun now _ => ?_
  cases hurl : bytesUrl pf candidate with
  | error error =>
    have herror := hurl
    unfold bytesUrl newUrl at herror
    split at herror
    · cases herror
    · cases herror
      exact Proc.gives_pure trivial
  | ok url =>
    refine Proc.gives_call fun r hr => ?_
    obtain ⟨l, outcome, hemits, hrecovered, rfl⟩ := hr
    obtain ⟨bytes, rfl⟩ := fetchBytes_ok (by rw [hbytes]; exact Nat.zero_le _)
      hrecovered hemits
    show Proc.Gives _ _ (Proc.handle sourced (Proc.bind (s3StoreRawReplay _ _) _))
    rw [Proc.handle_bind]
    exact Proc.gives_bind _ (Proc.gives_any _) fun evidence _ => Proc.gives_pure trivial

/-- The reads of a discovery that was given the configured count succeed. -/
theorem discoveryReadsWell (hfailures : ∀ phase, failures phase ≤ n) {maxPages : Option ℕ}
    {sourceUrl : Url} : DiscoveryReadsWell (Weather pf transport failures)
      (sourcedDryRunOptions (some n) maxPages sourceUrl :
        DiscoverReplaysDryRunOptions (SourcedEffect Text) SourcedReply) where
  text url _ hattempts := readsWell_text hfailures hattempts url
  gate _ hexists := (by cases hexists)

theorem parity_of_bytes (hfailures : ∀ phase, failures phase ≤ n) (hbytes : failures .bytes = 0) :
    RetryParity n failures := by
  have hrun : ∀ {Text : Type} {pf : Platform Text} (reader : SourceReader pf)
      (transport : SourceTransport) (config : RunConfig), config.attempts = some n →
      RunReadsWell (Weather pf transport failures) pf (config.sourcedInput reader) := by
    intro Text pf reader transport config hattempts
    refine ⟨fun page => ?_, gives_storeRawReplay hbytes _⟩
    have hoptions : (discoverInput pf (config.sourcedInput reader) page).attempts = some n :=
      hattempts
    show Proc.Gives _ _ (discoverReplaysDryRun reader (sourcedDryRunOptions _ _ _))
    rw [hoptions]
    exact gives_discoverReplaysDryRun (discoveryReadsWell hfailures)
  refine ⟨fun reader transport config hattempts context cursor => ?_,
    fun reader transport config hattempts => ?_, fun reader transport config hattempts => ?_⟩
  · exact (hrun reader transport config hattempts).turn context cursor
  · exact (hrun reader transport config hattempts).runOnce
  · refine gives_runCycle (gives_discoverReplaysDryRun ⟨fun url readOptions hread => ?_, ?_⟩)
      (gives_storeRawReplay hbytes _)
    · exact readsWell_text hfailures (hread.trans hattempts) url
    · rintro _ ⟨⟩ sourceSystem sourceReplayId
      refine Proc.gives_call fun r hr => Proc.gives_pure ?_
      cases r with
      | ok found => exact trivial
      | error error => exact fun failure heq => hr failure (congrArg _ heq)

/-! ### One failed byte read -/

/-- A text read whose first try decides it. -/
theorem emits_directFetchText_once {pf : Platform Text} {codec : Codec} {url : Url}
    {options : SourceFetchOptions} {reply : Except RuntimeError Response}
    (hlast : (∃ text, directTextAnswer pf codec url (resolvePhase options) reply = .ok text) ∨
      options.attempts.getD 0 = 0) :
    Emits (directFetchText pf codec url options) (firstTry (.fetch url) reply)
      ((directTextAnswer pf codec url (resolvePhase options) reply).mapError fun error =>
        toDirectFetchError pf error options url) := by
  unfold directFetchText
  refine emits_firstTry (directReadText_eq pf codec url _) _ _ ?_
  exact hlast

/-- A byte read whose first try decides it. -/
theorem emits_directFetchBytes_once {pf : Platform Text} {codec : Codec} {url : Url}
    {options : SourceFetchOptions} {reply : Except RuntimeError Response}
    (hlast : (∃ bytes, directBytesAnswer pf url reply = .ok bytes) ∨
      options.attempts.getD 0 = 0) :
    Emits (directFetchBytes pf codec url options) (firstTry (.fetch url) reply)
      ((directBytesAnswer pf url reply).mapError fun error =>
        toDirectByteError pf error options url) := by
  unfold directFetchBytes
  refine emits_firstTry (directReadBytes_eq pf url) _ _ ?_
  exact hlast

/-- A source that is overloaded for a moment. -/
def toyOverload : Response where
  status := 503
  body := .ok []

/-- The source's list page. -/
def toyListPage : Response where
  status := 200
  body := .ok [97]

/-- The list page is served, and the bytes are asked for once too early. -/
def overloadServe (_ : Unit) :
    (e : SourcedEffect (Option Json)) → SourcedReply e × Unit
  | .text _ _ => (.ok "a", ())
  | .bytes _ options =>
    match options.attempts with
    | none => (.error (.replayByteFetch "fetch_failed"
        "Replay byte request failed with status 503"), ())
    | some _ => (.ok [97], ())
  | .other e => ((toyScript.serve emptyWorld e).1, ())

/-- That is one failed try of a byte read, which the client does not repeat. -/
theorem weather_overload (hbytes : failures .bytes ≠ 0) (w : Unit)
    (e : SourcedEffect (Option Json)) :
    Weather toyPlatform (.direct toyCodec) failures e (overloadServe w e).1 := by
  cases e with
  | text url options =>
    have hemits : Emits (directFetchText toyPlatform toyCodec url options.toFetchOptions)
        (firstTry (.fetch url) (.ok toyListPage)) (.ok "a") :=
      @emits_directFetchText_once _ toyPlatform toyCodec url _ (.ok toyListPage)
        (Or.inl ⟨"a", rfl⟩)
    refine ⟨_, _, hemits, ⟨notAborted_firstTry rfl _, [], .ok toyListPage, Nat.zero_le _, ?_,
      ⟨"a", rfl⟩, List.prefix_refl _⟩, rfl⟩
    exact fun _ hmem => absurd hmem List.not_mem_nil
  | bytes url options =>
    obtain ⟨attempts, page, phase⟩ := options
    cases attempts with
    | none =>
      have hemits : Emits (directFetchBytes toyPlatform toyCodec url ⟨none, page, phase⟩)
          (firstTry (.fetch url) (.ok toyOverload))
          (.error (toDirectByteError toyPlatform
            (.replayByteFetch (Bytes.buildDirectHttpError toyPlatform toyOverload url))
            ⟨none, page, phase⟩ url)) :=
        @emits_directFetchBytes_once _ toyPlatform toyCodec url _ (.ok toyOverload) (Or.inr rfl)
      refine ⟨_, _, hemits, ⟨notAborted_firstTry rfl _, [.ok toyOverload], .ok toyListPage,
        Nat.one_le_iff_ne_zero.2 hbytes, ?_, ⟨[97], rfl⟩, List.prefix_append _ _⟩, rfl⟩
      intro reply hreply
      rw [List.mem_singleton.1 hreply]
      exact ⟨_, rfl, rfl⟩
    | some attempts =>
      have hemits : Emits (directFetchBytes toyPlatform toyCodec url ⟨some attempts, page, phase⟩)
          (firstTry (.fetch url) (.ok toyListPage)) (.ok [97]) :=
        @emits_directFetchBytes_once _ toyPlatform toyCodec url _ (.ok toyListPage)
          (Or.inl ⟨[97], rfl⟩)
      refine ⟨_, _, hemits, ⟨notAborted_firstTry rfl _, [], .ok toyListPage, Nat.zero_le _, ?_,
        ⟨[97], rfl⟩, List.prefix_refl _⟩, rfl⟩
      exact fun _ hmem => absurd hmem List.not_mem_nil
  | other e => cases e <;> first | trivial | exact fun failure heq => (by cases heq)

/-- A watcher that retries `n` times. -/
def toyRetryWatch (n : ℕ) : WatchConfig := { toyWatch with attempts := some n }

/-- Its cycle reports the replay as not fetched, whatever its retry count. -/
theorem overload_reported (n : ℕ) : ∃ (input : BuildRunSummaryInput)
    (evidence : RawReplayFetchFailureEvidence),
    (Proc.exec overloadServe 40 ((), runCycle ((toyRetryWatch n).sourcedInput toyReader))).2 =
      Proc.pure (.ok (buildRunSummary input)) ∧ input.rawStorage = [.fetchFailed evidence] :=
  ⟨_, _, rfl, rfl⟩

theorem not_parity_of_bytes (n : ℕ) (hbytes : failures .bytes ≠ 0) : ¬ RetryParity n failures := by
  intro hparity
  obtain ⟨input, evidence, hexec, hraw⟩ := overload_reported n
  have hruns := @Proc.runs_exec _ _ _ _ overloadServe (Proc.replying (Weather toyPlatform
    (.direct toyCodec) failures)) (weather_overload hbytes) Lts.Alone 40
    ((), runCycle ((toyRetryWatch n).sourcedInput toyReader))
  rw [hexec] at hruns
  have hsucceeded := (hparity.cycle toyReader (.direct toyCodec) (toyRetryWatch n) rfl).returned hruns
  have hfetched := (readsSucceeded_buildRunSummary.1 hsucceeded).2 (.fetchFailed evidence)
  rw [hraw] at hfetched
  exact hfetched (List.mem_singleton_self _)

/-- **Which failures a run survives**: all that its retry count allows, if the byte reads are spared. -/
theorem retry_parity_iff (hfailures : ∀ phase, failures phase ≤ n) :
    RetryParity n failures ↔ failures .bytes = 0 := by
  constructor
  · intro hparity
    by_contra hbytes
    exact not_parity_of_bytes n hbytes hparity
  · exact parity_of_bytes hfailures

theorem retry_parity_iff_texts :
    RetryParity 2 (fun phase => if phase = .bytes then 0 else 2) :=
  (retry_parity_iff fun phase => by cases phase <;> decide).2 rfl

/-- **One failed byte read is not retried**, with a retry count of 1. -/
theorem bytes_not_retried : ¬ RetryParity 1 fun _ => 1 :=
  not_parity_of_bytes 1 Nat.one_ne_zero

end Parity

end ReplaysFetcher
