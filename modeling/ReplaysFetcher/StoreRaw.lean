/-
  Storing what one discovery finds (`src/commands/discover.ts`, the `--store-raw` mode).

  The command knows no page loop, no checkpoint and no gate.  It discovers once, and when the report
  is `ok` it stores the candidates one after the other, staging each behind its store when `--stage`
  is given.  What it prints at the end says whether all of it went well.

  1. **Program**: `discoverAndStore` is what the command does between loading its configuration and
     printing.  The loop is a recursion on the candidates that are left.
  2. **The log of the loop**: `Stored` says of a conversation which results it yields.  The loop
     holds exactly such conversations, so a fact about the report is a fact about this list.
  3. **The report**: each status has the number of the candidates that ended with it, every candidate
     is counted under exactly one, and `ok` is said exactly when each of them ended well.
-/
import ReplaysFetcher.PageTurns
import ReplaysFetcher.Watch
import ReplaysFetcher.Effectful.Conversations

namespace ReplaysFetcher

open Effectful

/-! ## Reports -/

/-- `countRawStorage`'s result. -/
structure RawStorageCounts where
  candidates : ℕ
  conflict : ℕ
  diagnostics : ℕ
  failed : ℕ
  skipped : ℕ
  stored : ℕ
  deriving DecidableEq, Repr

/-- `countStaging`'s result. -/
structure StagingCounts where
  alreadyStaged : ℕ
  conflict : ℕ
  failed : ℕ
  skipped : ℕ
  staged : ℕ
  deriving DecidableEq, Repr

/-- The mode that a report names. -/
inductive StoreRawMode
  | storeRaw | storeRawAndStage
  deriving DecidableEq, Repr

/-- `StoreRawCountsResult` -/
inductive StoreRawCountsResult
  | rawStorage (counts : RawStorageCounts)
  | both (rawStorage : RawStorageCounts) (staging : StagingCounts)
  deriving DecidableEq, Repr

/-- What the command prints.  `staging` is there only with `--stage`. -/
structure StoreRawReport where
  ok : Bool
  mode : StoreRawMode
  sourceUrl : String
  counts : StoreRawCountsResult
  candidates : List ReplayCandidate
  diagnostics : List DiscoveryDiagnostic
  storage : List StoreRawReplayResult
  staging : Option (List IngestStagingResult) := none

/-- The candidates and diagnostics of the discovery, and the results by status. -/
def countRawStorage (discoveryReport : DiscoveryReport)
    (storageResults : List StoreRawReplayResult) : RawStorageCounts where
  candidates := discoveryReport.candidates.length
  conflict := countRawStatus storageResults .conflict
  diagnostics := discoveryReport.diagnostics.length
  failed := countRawStatus storageResults .failed
  skipped := countRawStatus storageResults .skipped
  stored := countRawStatus storageResults .stored

/-- The results by status; what is not stageable is reported as skipped. -/
def countStaging (stagingResults : List IngestStagingResult) : StagingCounts where
  alreadyStaged := countStatus stagingResults .alreadyStaged
  conflict := countStatus stagingResults .conflict
  failed := countStatus stagingResults .failed
  skipped := countStatus stagingResults .notStageable
  staged := countStatus stagingResults .staged

/-- `--stage` shows in the mode. -/
def storeRawMode (shouldStage : Bool) : StoreRawMode :=
  if shouldStage then .storeRawAndStage else .storeRaw

/-- The staging counts are reported only with `--stage`. -/
def storeRawCounts (shouldStage : Bool) (rawCounts : RawStorageCounts)
    (stagingCounts : StagingCounts) : StoreRawCountsResult :=
  if shouldStage then .both rawCounts stagingCounts else .rawStorage rawCounts

/-- `storageResults` and `stagingResults`. -/
structure StoreRawResults where
  storage : List StoreRawReplayResult := []
  staging : List IngestStagingResult := []

/-- The object behind `writeJson`. -/
def storeRawReport (shouldStage : Bool) (discoveryReport : DiscoveryReport)
    (results : StoreRawResults) : StoreRawReport :=
  let rawCounts := countRawStorage discoveryReport results.storage
  let stagingCounts := countStaging results.staging
  { ok := discoveryReport.ok && rawCounts.conflict = 0 && rawCounts.failed = 0 &&
      stagingCounts.conflict = 0 && stagingCounts.failed = 0
    mode := storeRawMode shouldStage
    sourceUrl := discoveryReport.sourceUrl
    counts := storeRawCounts shouldStage rawCounts stagingCounts
    candidates := discoveryReport.candidates
    diagnostics := discoveryReport.diagnostics
    storage := results.storage
    staging := if shouldStage then some results.staging else none }

/-! ## The program -/

/-- What the command is configured with. -/
structure StoreRawConfig where
  attempts : Option ℕ := none
  bucket : String
  shouldStage : Bool
  sourceUrl : Url

/-- What became of one candidate: its store and, with `--stage`, its staging. -/
abbrev StoreRawOutcome : Type := StoreRawReplayResult × Option IngestStagingResult

/-- The two `push`es of the loop. -/
def StoreRawResults.push (results : StoreRawResults) (outcome : StoreRawOutcome) :
    StoreRawResults where
  storage := results.storage ++ [outcome.1]
  staging := results.staging ++ outcome.2.toList

section Program

variable {Text : Type} {pf : Platform Text} (reader : SourceReader pf) (config : StoreRawConfig)

/-- `discoverForStoreRaw`: one page, no gate.  The run id is for the log alone. -/
def discoverForStoreRaw : Task Text DiscoveryReport := do
  let now ← (nowRequest : Program Text Date)
  let _ ← (Proc.perform (Effect.createRunId now) : Program Text String)
  discoverReplaysDryRun reader
    (DiscoverInput.dryRunOptions { attempts := config.attempts, sourceUrl := config.sourceUrl })

variable (pf)

/-- The body of the loop.  The row is staged without a run id. -/
def storeCandidate (candidate : ReplayCandidate) : Task Text StoreRawOutcome := do
  let result ← storeRawReplay pf config.bucket candidate
  if config.shouldStage then do
    let stagingResult ← stageRawReplay pf result none
    pure (result, some stagingResult)
  else pure (result, none)

/-- One candidate after the other; an error ends the loop. -/
def storeCandidates : List ReplayCandidate → StoreRawResults → Task Text StoreRawResults
  | [], results => pure results
  | candidate :: rest, results => do
    let outcome ← storeCandidate pf config candidate
    storeCandidates rest (results.push outcome)

variable {pf}

/-- `runStoreRawDiscovery`, from the loaded configuration to the printed report. -/
def discoverAndStore : Task Text StoreRawReport := do
  let discoveryReport ← discoverForStoreRaw reader config
  let results ← (if discoveryReport.ok then
      storeCandidates pf config discoveryReport.candidates {}
    else pure {} : Task Text StoreRawResults)
  pure (storeRawReport config.shouldStage discoveryReport results)

end Program

/-! ## The log of the loop -/

section Log

variable {Text : Type} {pf : Platform Text} {config : StoreRawConfig}

/-- The conversations of the loop: store and stage each candidate, in the order of the report. -/
inductive StoredInOrder (pf : Platform Text) (config : StoreRawConfig) :
    List ReplayCandidate → List StoreRawOutcome → Conversation Text → Prop
  | nil : StoredInOrder pf config [] [] []
  | cons {candidate : ReplayCandidate} {candidates : List ReplayCandidate}
      {outcome : StoreRawOutcome} {outcomes : List StoreRawOutcome} {l l' : Conversation Text}
      (hstore : Emits (storeCandidate pf config candidate) l (.ok outcome))
      (hrest : StoredInOrder pf config candidates outcomes l') :
      StoredInOrder pf config (candidate :: candidates) (outcome :: outcomes) (l ++ l')

/-- There is one outcome for each candidate. -/
theorem StoredInOrder.length {candidates : List ReplayCandidate} {outcomes : List StoreRawOutcome}
    {l : Conversation Text} (h : StoredInOrder pf config candidates outcomes l) :
    outcomes.length = candidates.length := by
  induction h with
  | nil => rfl
  | cons _ _ ih => rw [List.length_cons, List.length_cons, ih]

/-- What the two lists hold after these outcomes. -/
def resultsOf (outcomes : List StoreRawOutcome) : StoreRawResults :=
  outcomes.foldl StoreRawResults.push {}

/-- The pushes leave the outcomes in order. -/
theorem foldl_push (outcomes : List StoreRawOutcome) (results : StoreRawResults) :
    outcomes.foldl StoreRawResults.push results =
      { storage := results.storage ++ outcomes.map Prod.fst
        staging := results.staging ++ outcomes.flatMap fun outcome => outcome.2.toList } := by
  induction outcomes generalizing results with
  | nil => simp
  | cons outcome rest ih =>
    rw [List.foldl_cons, ih]
    unfold StoreRawResults.push
    simp [List.append_assoc]

/-- **The loop**, as a set of conversations. -/
theorem emits_storeCandidates {candidates : List ReplayCandidate} {results : StoreRawResults}
    {l : Conversation Text} {final : StoreRawResults} :
    Emits (storeCandidates pf config candidates results) l (.ok final) ↔
      ∃ outcomes, StoredInOrder pf config candidates outcomes l ∧
        final = outcomes.foldl StoreRawResults.push results := by
  induction candidates generalizing results l with
  | nil =>
    constructor
    · intro h
      obtain ⟨rfl, hfinal⟩ := Proc.emits_pure.1 h
      obtain rfl := Except.ok.inj hfinal
      exact ⟨[], .nil, rfl⟩
    · rintro ⟨_, ⟨⟩, rfl⟩
      exact Proc.emits_pure.2 ⟨rfl, rfl⟩
  | cons candidate rest ih =>
    unfold storeCandidates
    rw [Async.emits_bind_ok]
    constructor
    · rintro ⟨outcome, l₁, l₂, rfl, hstore, hrest⟩
      obtain ⟨outcomes, houtcomes, rfl⟩ := ih.1 hrest
      exact ⟨outcome :: outcomes, .cons hstore houtcomes, rfl⟩
    · rintro ⟨outcomes, h, rfl⟩
      cases h with
      | cons hstore hrest => exact ⟨_, _, _, rfl, hstore, ih.2 ⟨_, hrest, rfl⟩⟩

end Log

/-! ## What the report says -/

section Report

variable {Text : Type} {pf : Platform Text} {config : StoreRawConfig} {l : Conversation Text}

/-- The candidate's bytes are stored and, with `--stage`, its row is there. -/
def EndedWell (outcome : StoreRawOutcome) : Prop :=
  (outcome.1.status = .stored ∨ outcome.1.status = .skipped) ∧
    ∀ stagingResult, outcome.2 = some stagingResult →
      stagingResult.status = .staged ∨ stagingResult.status = .alreadyStaged

/-- A candidate is staged exactly with `--stage`, and then its two statuses go together. -/
def OutcomePair (config : StoreRawConfig) (outcome : StoreRawOutcome) : Prop :=
  if config.shouldStage then
    ∃ stagingResult, outcome.2 = some stagingResult ∧
      StatusPair outcome.1.status stagingResult.status
  else outcome.2 = none

/-- A candidate's two results go together. -/
theorem outcomePair_of_emits {candidate : ReplayCandidate} {outcome : StoreRawOutcome}
    (h : Emits (storeCandidate pf config candidate) l (.ok outcome)) :
    OutcomePair config outcome := by
  unfold storeCandidate at h
  obtain ⟨result, l₁, l₂, rfl, _, h⟩ := Async.emits_bind_ok.1 h
  unfold OutcomePair
  by_cases hstage : config.shouldStage = true
  · rw [if_pos hstage] at h ⊢
    obtain ⟨stagingResult, l₃, l₄, rfl, hstaging, h⟩ := Async.emits_bind_ok.1 h
    obtain ⟨_, houtcome⟩ := Proc.emits_pure.1 h
    obtain rfl := Except.ok.inj houtcome
    have hsafe : Proc.Safe Env.free Lts.Alone (fun _ _ => True)
        (Async.Outcome
          (fun stagingResult (_ : Conversation Text) => StatusPair result.status stagingResult.status)
          fun _ _ => True) [] (stageRawReplay pf result none) :=
      safe_stageRawReplay_status result none []
    have hpost : Async.Outcome
        (fun stagingResult (_ : Conversation Text) => StatusPair result.status stagingResult.status)
        (fun (_ : JsError) _ => True) (.ok stagingResult) l₃ := Proc.Safe.of_run hsafe hstaging
    exact ⟨stagingResult, rfl, hpost⟩
  · rw [if_neg hstage] at h ⊢
    obtain ⟨_, houtcome⟩ := Proc.emits_pure.1 h
    obtain rfl := Except.ok.inj houtcome
    rfl

/-- So do those of all candidates. -/
theorem StoredInOrder.outcomePair {candidates : List ReplayCandidate}
    {outcomes : List StoreRawOutcome} (h : StoredInOrder pf config candidates outcomes l) :
    ∀ outcome ∈ outcomes, OutcomePair config outcome := by
  induction h with
  | nil => exact fun _ hmem => absurd hmem List.not_mem_nil
  | cons hstore _ ih =>
    intro outcome hmem
    rcases List.mem_cons.1 hmem with rfl | hmem
    · exact outcomePair_of_emits hstore
    · exact ih outcome hmem

/-- A count of 0, read off the list. -/
theorem countRawStatus_eq_zero {storage : List StoreRawReplayResult}
    {status : RawReplayStorageStatus} :
    countRawStatus storage status = 0 ↔ ∀ result ∈ storage, result.status ≠ status := by
  unfold countRawStatus
  rw [List.countP_eq_zero]
  simp

/-- A status is not counted if no result has it. -/
theorem countStatus_eq_zero {staging : List IngestStagingResult} {status : StagingOutcomeStatus} :
    countStatus staging status = 0 ↔ ∀ result ∈ staging, result.status ≠ status := by
  unfold countStatus
  rw [List.countP_eq_zero]
  simp

/-- For outcomes that can occur, no conflict and no failure means that all ended well. -/
theorem endedWell_iff {outcome : StoreRawOutcome} (h : OutcomePair config outcome) :
    EndedWell outcome ↔ (outcome.1.status ≠ .conflict ∧ outcome.1.status ≠ .failed) ∧
      ∀ stagingResult, outcome.2 = some stagingResult →
        stagingResult.status ≠ .conflict ∧ stagingResult.status ≠ .failed := by
  obtain ⟨result, staging⟩ := outcome
  unfold EndedWell
  dsimp only
  have hraw : (result.status = .stored ∨ result.status = .skipped) ↔
      (result.status ≠ .conflict ∧ result.status ≠ .failed) := by
    cases result.status <;> simp
  rw [hraw]
  refine and_congr_right fun hgood => ?_
  cases staging with
  | none => simp
  | some stagingResult =>
    have hpair : StatusPair result.status stagingResult.status := by
      unfold OutcomePair at h
      split at h
      · obtain ⟨_, heq, hpair⟩ := h
        obtain rfl := Option.some.inj heq
        exact hpair
      · cases h
    -- only what was refused is not stageable
    have hstageable : stagingResult.status ≠ .notStageable := by
      intro hnot
      rw [hnot] at hpair
      cases hpair with
      | staged _ hstaging => exact hstaging rfl
      | refused hrefused => rcases hrefused with h | h <;> simp [h] at hgood
    simp only [Option.some.injEq, forall_eq']
    cases hstatus : stagingResult.status <;> simp_all

/-- The count of a status. -/
def RawStorageCounts.of (counts : RawStorageCounts) : RawReplayStorageStatus → ℕ
  | .stored => counts.stored
  | .skipped => counts.skipped
  | .conflict => counts.conflict
  | .failed => counts.failed

/-- The count of a status; what is not stageable is counted as skipped. -/
def StagingCounts.of (counts : StagingCounts) : StagingOutcomeStatus → ℕ
  | .alreadyStaged => counts.alreadyStaged
  | .conflict => counts.conflict
  | .failed => counts.failed
  | .notStageable => counts.skipped
  | .staged => counts.staged

/-- The report's count of a raw status. -/
@[simp] theorem of_countRawStorage (discovery : DiscoveryReport) (storage : List StoreRawReplayResult)
    (status : RawReplayStorageStatus) :
    (countRawStorage discovery storage).of status = countRawStatus storage status := by
  cases status <;> rfl

/-- The report's count of a staging status. -/
@[simp] theorem of_countStaging (staging : List IngestStagingResult) (status : StagingOutcomeStatus) :
    (countStaging staging).of status = countStatus staging status := by
  cases status <;> rfl

/-- The counts of raw results, in either form of the report. -/
def StoreRawCountsResult.raw : StoreRawCountsResult → RawStorageCounts
  | .rawStorage counts => counts
  | .both counts _ => counts

/-- The counts of staging results, which only `--stage` reports. -/
def StoreRawCountsResult.staging? : StoreRawCountsResult → Option StagingCounts
  | .rawStorage _ => none
  | .both _ counts => some counts

/-- The raw counts are reported in either mode. -/
@[simp] theorem raw_storeRawCounts (shouldStage : Bool) (rawCounts : RawStorageCounts)
    (stagingCounts : StagingCounts) :
    (storeRawCounts shouldStage rawCounts stagingCounts).raw = rawCounts := by
  cases shouldStage <;> rfl

/-- The staging counts are reported in one. -/
@[simp] theorem staging?_storeRawCounts (shouldStage : Bool) (rawCounts : RawStorageCounts)
    (stagingCounts : StagingCounts) :
    (storeRawCounts shouldStage rawCounts stagingCounts).staging? =
      if shouldStage then some stagingCounts else none := by
  cases shouldStage <;> rfl

/-- What the report says of a discovery and of what became of its candidates. -/
structure StoreRawReport.Accounts (config : StoreRawConfig) (discovery : DiscoveryReport)
    (outcomes : List StoreRawOutcome) (report : StoreRawReport) : Prop where
  mode : report.mode = storeRawMode config.shouldStage
  sourceUrl : report.sourceUrl = discovery.sourceUrl
  candidates : report.candidates = discovery.candidates
  diagnostics : report.diagnostics = discovery.diagnostics
  storage : report.storage = outcomes.map Prod.fst
  staging : report.staging =
    if config.shouldStage then some (outcomes.flatMap fun outcome => outcome.2.toList) else none
  candidateCount : report.counts.raw.candidates = discovery.candidates.length
  diagnosticCount : report.counts.raw.diagnostics = discovery.diagnostics.length
  /-- each raw status has as many candidates as ended with it -/
  rawCount : ∀ status, report.counts.raw.of status =
    outcomes.countP fun outcome => outcome.1.status = status
  /-- and every candidate that was tried has one -/
  rawCounts : report.counts.raw.stored + report.counts.raw.skipped + report.counts.raw.conflict +
    report.counts.raw.failed = outcomes.length
  stages : report.counts.staging?.isSome = config.shouldStage
  /-- with `--stage`, so it is with the staging statuses -/
  stagingCount : ∀ counts, report.counts.staging? = some counts → ∀ status, counts.of status =
    outcomes.countP fun outcome => outcome.2.any fun result => result.status = status
  stagingCounts : ∀ counts, report.counts.staging? = some counts →
    counts.staged + counts.alreadyStaged + counts.conflict + counts.failed + counts.skipped =
      outcomes.length
  ok : report.ok = true ↔ discovery.ok = true ∧ ∀ outcome ∈ outcomes, EndedWell outcome

/-- The staging results of a status, counted by their candidates. -/
theorem countStatus_flatMap (outcomes : List StoreRawOutcome) (status : StagingOutcomeStatus) :
    countStatus (outcomes.flatMap fun outcome => outcome.2.toList) status =
      outcomes.countP fun outcome => outcome.2.any fun result => result.status = status := by
  unfold countStatus
  induction outcomes with
  | nil => rfl
  | cons outcome rest ih =>
    rw [List.flatMap_cons, List.countP_append, ih, List.countP_cons, Nat.add_comm]
    congr 1
    cases outcome.2 with
    | none => rfl
    | some result => rw [Option.toList_some, List.countP_singleton, Option.any_some]

/-- With `--stage` every outcome has a staging result. -/
theorem length_stagingResults {outcomes : List StoreRawOutcome} (hstage : config.shouldStage = true)
    (h : ∀ outcome ∈ outcomes, OutcomePair config outcome) :
    (outcomes.flatMap fun outcome => outcome.2.toList).length = outcomes.length := by
  induction outcomes with
  | nil => rfl
  | cons outcome rest ih =>
    have hpair := h outcome List.mem_cons_self
    unfold OutcomePair at hpair
    rw [if_pos hstage] at hpair
    obtain ⟨stagingResult, hsome, _⟩ := hpair
    have hrest := ih fun outcome hmem => h outcome (List.mem_cons_of_mem _ hmem)
    rw [List.flatMap_cons, List.length_append, hrest, hsome, List.length_cons, Option.toList_some,
      List.length_singleton, Nat.add_comm]

/-- A report counts its raw results, with `--stage` or without. -/
theorem raw_counts_storeRawReport (shouldStage : Bool) (discovery : DiscoveryReport)
    (results : StoreRawResults) : (storeRawReport shouldStage discovery results).counts.raw =
      countRawStorage discovery results.storage :=
  raw_storeRawCounts shouldStage _ _

/-- It counts its staging results with `--stage` only. -/
theorem staging?_counts_storeRawReport {shouldStage : Bool} {discovery : DiscoveryReport}
    {results : StoreRawResults} {counts : StagingCounts}
    (h : (storeRawReport shouldStage discovery results).counts.staging? = some counts) :
    shouldStage = true ∧ counts = countStaging results.staging := by
  have hcounts := (staging?_storeRawCounts shouldStage _ _).symm.trans h
  by_cases hstage : shouldStage = true
  · rw [if_pos hstage] at hcounts
    exact ⟨hstage, (Option.some.inj hcounts).symm⟩
  · rw [if_neg hstage] at hcounts
    cases hcounts

/-- It is ok exactly when the discovery was and each outcome ended well. -/
theorem ok_storeRawReport_iff (shouldStage : Bool) (discovery : DiscoveryReport)
    {outcomes : List StoreRawOutcome} (h : ∀ outcome ∈ outcomes, OutcomePair config outcome) :
    (storeRawReport shouldStage discovery
      { storage := outcomes.map Prod.fst
        staging := outcomes.flatMap fun outcome => outcome.2.toList }).ok = true ↔
      discovery.ok = true ∧ ∀ outcome ∈ outcomes, EndedWell outcome := by
  unfold storeRawReport countRawStorage countStaging
  simp only [Bool.and_eq_true, decide_eq_true_eq, countRawStatus_eq_zero, countStatus_eq_zero,
    List.forall_mem_map, List.mem_flatMap, Option.mem_toList, forall_exists_index, and_imp]
  constructor
  · rintro ⟨⟨⟨⟨hok, hconflict⟩, hfailed⟩, hstagingConflict⟩, hstagingFailed⟩
    refine ⟨hok, fun outcome hmem => (endedWell_iff (h outcome hmem)).2
      ⟨⟨hconflict outcome hmem, hfailed outcome hmem⟩, fun stagingResult hsome => ?_⟩⟩
    exact ⟨hstagingConflict stagingResult outcome hmem hsome,
      hstagingFailed stagingResult outcome hmem hsome⟩
  · rintro ⟨hok, hwell⟩
    have hgood := fun outcome hmem => (endedWell_iff (h outcome hmem)).1 (hwell outcome hmem)
    exact ⟨⟨⟨⟨hok, fun outcome hmem => (hgood outcome hmem).1.1⟩,
      fun outcome hmem => (hgood outcome hmem).1.2⟩,
      fun stagingResult outcome hmem hsome => ((hgood outcome hmem).2 stagingResult hsome).1⟩,
      fun stagingResult outcome hmem hsome => ((hgood outcome hmem).2 stagingResult hsome).2⟩

/-- A report that is built from such outcomes accounts for them. -/
theorem accounts_storeRawReport (discovery : DiscoveryReport) {outcomes : List StoreRawOutcome}
    (h : ∀ outcome ∈ outcomes, OutcomePair config outcome) :
    (storeRawReport config.shouldStage discovery (resultsOf outcomes)).Accounts config discovery
      outcomes := by
  have hresults : resultsOf outcomes =
      { storage := outcomes.map Prod.fst
        staging := outcomes.flatMap fun outcome => outcome.2.toList } := foldl_push outcomes {}
  rw [hresults]
  have hraw := raw_counts_storeRawReport config.shouldStage discovery
    { storage := outcomes.map Prod.fst
      staging := outcomes.flatMap fun outcome => outcome.2.toList }
  refine ⟨rfl, rfl, rfl, rfl, rfl, rfl, congrArg RawStorageCounts.candidates hraw,
    congrArg RawStorageCounts.diagnostics hraw, fun status => ?_, ?_, ?_,
    fun counts hcounts status => ?_, fun counts hcounts => ?_,
    ok_storeRawReport_iff config.shouldStage discovery h⟩
  · rw [hraw, of_countRawStorage]
    unfold countRawStatus
    rw [List.countP_map]
    rfl
  · have hsum := sum_countRawStatus (outcomes.map Prod.fst)
    rw [List.length_map] at hsum
    rw [hraw]
    exact hsum
  · show (storeRawCounts _ _ _).staging?.isSome = _
    rw [staging?_storeRawCounts]
    cases config.shouldStage <;> rfl
  · obtain ⟨_, rfl⟩ := staging?_counts_storeRawReport hcounts
    rw [of_countStaging]
    exact countStatus_flatMap outcomes status
  · obtain ⟨hstage, rfl⟩ := staging?_counts_storeRawReport hcounts
    rw [← length_stagingResults hstage h]
    exact sum_countStatus _

/-- What a discovery that ends with a report has done. -/
theorem stored_of_emits {reader : SourceReader pf} {report : StoreRawReport}
    (h : Emits (discoverAndStore reader config) l (.ok report)) :
    ∃ discovery outcomes l₀ l₁, l = l₀ ++ l₁ ∧
      Emits (discoverForStoreRaw reader config) l₀ (.ok discovery) ∧
      StoredInOrder pf config (if discovery.ok then discovery.candidates else []) outcomes l₁ ∧
      report = storeRawReport config.shouldStage discovery (resultsOf outcomes) := by
  unfold discoverAndStore at h
  obtain ⟨discovery, l₀, l₁, rfl, hdiscover, h⟩ := Async.emits_bind_ok.1 h
  obtain ⟨results, l₂, l₃, rfl, hloop, h⟩ := Async.emits_bind_ok.1 h
  obtain ⟨rfl, hreport⟩ := Proc.emits_pure.1 h
  rw [List.append_nil]
  obtain ⟨outcomes, horder, rfl⟩ : ∃ outcomes, StoredInOrder pf config
      (if discovery.ok then discovery.candidates else []) outcomes l₂ ∧
      results = resultsOf outcomes := by
    by_cases hok : discovery.ok = true
    · rw [if_pos hok] at hloop ⊢
      exact emits_storeCandidates.1 hloop
    · rw [if_neg hok] at hloop ⊢
      obtain ⟨rfl, hresults⟩ := Proc.emits_pure.1 hloop
      exact ⟨[], .nil, Except.ok.inj hresults⟩
  exact ⟨discovery, outcomes, l₀, l₂, rfl, hdiscover, horder, Except.ok.inj hreport⟩

/-- **The report is exact**, whatever the services answer.  The candidates of an `ok` discovery are
    tried one after the other and those of a failed one not at all; each count is the number of those
    that ended so, each that was tried is counted once, and the report is `ok` exactly when each of
    them ended well. -/
theorem store_raw_report_exact {reader : SourceReader pf} {report : StoreRawReport}
    (h : Emits (discoverAndStore reader config) l (.ok report)) :
    ∃ discovery outcomes l₀ l₁, l = l₀ ++ l₁ ∧
      Emits (discoverForStoreRaw reader config) l₀ (.ok discovery) ∧
      StoredInOrder pf config (if discovery.ok then discovery.candidates else []) outcomes l₁ ∧
      report.Accounts config discovery outcomes := by
  obtain ⟨discovery, outcomes, l₀, l₁, hl, hdiscover, horder, rfl⟩ := stored_of_emits h
  exact ⟨discovery, outcomes, l₀, l₁, hl, hdiscover, horder,
    accounts_storeRawReport discovery horder.outcomePair⟩

end Report

/-! ## One candidate, stored and staged -/

/-- `store-raw --stage`, for one source. -/
def toyStoreRaw : StoreRawConfig where
  bucket := "bucket"
  shouldStage := true
  sourceUrl := { protocol := "https:", host := "a", pathname := "" }

/-- The command over an empty deployment. -/
def toyStoreRawRun : World (Option Json) × Task (Option Json) StoreRawReport :=
  Proc.exec (toySource "a").serve 20 (emptyWorld, discoverAndStore toyReader toyStoreRaw)

/-- Left alone, it runs to its report. -/
theorem runs_toyStoreRaw :
    (Proc.lts ((toySource "a").services : Backend (Option Json)).Step _).Runs Lts.Alone emptyWorld
      (discoverAndStore toyReader toyStoreRaw) toyStoreRawRun.1 toyStoreRawRun.2 :=
  Proc.runs_exec ((toySource "a").step_services fun _ => ⟨[7], rfl⟩) 20
    (emptyWorld, discoverAndStore toyReader toyStoreRaw)

theorem store_raw_report_exact_one : ∃ l report,
    Emits (discoverAndStore toyReader toyStoreRaw) l (.ok report) ∧ report.ok = true ∧
    ∃ discovery outcomes l₀ l₁, l = l₀ ++ l₁ ∧
      Emits (discoverForStoreRaw toyReader toyStoreRaw) l₀ (.ok discovery) ∧
      StoredInOrder toyPlatform toyStoreRaw (if discovery.ok then discovery.candidates else [])
        outcomes l₁ ∧
      report.Accounts toyStoreRaw discovery outcomes := by
  obtain ⟨report, hdone, hok⟩ : ∃ report, toyStoreRawRun.2 = Proc.pure (.ok report) ∧
      report.ok = true := ⟨_, rfl, rfl⟩
  have hruns := runs_toyStoreRaw
  rw [hdone] at hruns
  obtain ⟨l, hemits, _⟩ :=
    Proc.exists_emits (P := fun _ => True) (fun _ _ _ _ _ => trivial) hruns
  exact ⟨l, report, hemits, hok, store_raw_report_exact hemits⟩

end ReplaysFetcher
