/-
  What a run reports about itself.

  A run keeps two accounts of the same work.  Page by page it tallies what became of the candidates
  and puts the tallies into the checkpoint; at the end it counts the results it has collected.  And
  it passes two verdicts on itself: a status, from how the page loop ended, and `ok`, from the
  results.

  With the log of `RunLog` all of these are functions of one list of pages, so the results here are
  facts about such lists: the exit code is 0 exactly when every page was read and every candidate
  stored and staged (`runOnce_exitCode_exact`), and the tallies in the checkpoint, the counts of the
  summary and the lengths of what was collected agree (`accounts_agree`).
-/
import ReplaysFetcher.Effectful.Conversations
import ReplaysFetcher.RunLog
import ReplaysFetcher.Watch

namespace ReplaysFetcher

open Effectful

/-! ## The results of a page -/

/-- A skipped candidate has no raw result. -/
def SettledCandidate.rawResult? : SettledCandidate → Option StoreRawReplayResult
  | .processed rawResult _ => some rawResult
  | .skipped => none

/-- Nor a staging result. -/
def SettledCandidate.stagingResult? : SettledCandidate → Option IngestStagingResult
  | .processed _ stagingResult => some stagingResult
  | .skipped => none

/-- The results a page collects are its candidates', in order. -/
theorem results_tallyPage (settled : List SettledCandidate) :
    (tallyPage settled).rawStorage = settled.filterMap SettledCandidate.rawResult? ∧
    (tallyPage settled).staging = settled.filterMap SettledCandidate.stagingResult? := by
  have hfold : ∀ (settled : List SettledCandidate) (acc : IngestPageResult),
      (settled.foldl tallyCandidate acc).rawStorage =
        acc.rawStorage ++ settled.filterMap SettledCandidate.rawResult? ∧
      (settled.foldl tallyCandidate acc).staging =
        acc.staging ++ settled.filterMap SettledCandidate.stagingResult? := by
    intro settled
    induction settled with
    | nil => intro acc; exact ⟨(List.append_nil _).symm, (List.append_nil _).symm⟩
    | cons value rest ih =>
      intro acc
      obtain ⟨hraw, hstaging⟩ := ih (tallyCandidate acc value)
      rw [List.foldl_cons, hraw, hstaging]
      cases value with
      | skipped => exact ⟨rfl, rfl⟩
      | processed rawResult stagingResult =>
        exact ⟨List.append_assoc _ [rawResult] _, List.append_assoc _ [stagingResult] _⟩
  exact hfold settled _

/-- Stored (or there already) and staged (or there already). -/
def SettledCandidate.Succeeded : SettledCandidate → Prop
  | .processed rawResult stagingResult =>
    (rawResult.status = .stored ∨ rawResult.status = .skipped) ∧
      (stagingResult.status = .staged ∨ stagingResult.status = .alreadyStaged)
  | .skipped => False

/-! ## The verdicts -/

/-- Dropping repetitions empties no list. -/
theorem uniqueCategories_eq_nil {categories : List RunFailureCategory} :
    uniqueCategories categories = [] ↔ categories = [] := by
  unfold uniqueCategories
  rw [← List.length_eq_zero_iff, List.length_insertionSort, List.length_eq_zero_iff,
    List.dedup_eq_nil]

/-- No category means that all replays are in the store. -/
theorem rawFailureCategories_eq_nil {rawStorage : List StoreRawReplayResult} :
    rawFailureCategories rawStorage = [] ↔
      ∀ rawResult ∈ rawStorage, rawResult.status = .stored ∨ rawResult.status = .skipped := by
  unfold rawFailureCategories
  rw [List.flatMap_eq_nil_iff]
  refine forall₂_congr fun rawResult _ => ?_
  cases rawResult with
  | fetchFailed evidence => simp [StoreRawReplayResult.status]
  | stored evidence => cases h : evidence.status <;> simp [StoreRawReplayResult.status, h]

/-- No category means that all rows are in the table. -/
theorem stagingFailureCategories_eq_nil {staging : List IngestStagingResult} :
    stagingFailureCategories staging = [] ↔ ∀ stagingResult ∈ staging,
      stagingResult.status = .staged ∨ stagingResult.status = .alreadyStaged := by
  unfold stagingFailureCategories
  rw [List.flatMap_eq_nil_iff]
  refine forall₂_congr fun stagingResult _ => ?_
  cases h : stagingResult.status <;> simp

/-- A run is `ok` with its discovery, and without a failure category. -/
@[simp] theorem ok_buildRunSummary (input : BuildRunSummaryInput) :
    (buildRunSummary input).ok = (input.discoveryReport.ok && (collectFailureCategories
      input.discoveryReport input.rawStorage input.staging).isEmpty) := by
  unfold buildRunSummary withRunMetrics
  split <;> rfl

/-- A summary is `ok` when the pages could be read and every result is a success. -/
theorem ok_buildRunSummary_iff {input : BuildRunSummaryInput} :
    (buildRunSummary input).ok = true ↔ input.discoveryReport.ok = true ∧
      (∀ rawResult ∈ input.rawStorage, rawResult.status = .stored ∨ rawResult.status = .skipped) ∧
      ∀ stagingResult ∈ input.staging,
        stagingResult.status = .staged ∨ stagingResult.status = .alreadyStaged := by
  rw [ok_buildRunSummary, Bool.and_eq_true, List.isEmpty_iff, collectFailureCategories,
    uniqueCategories_eq_nil, List.append_eq_nil_iff, List.append_eq_nil_iff,
    rawFailureCategories_eq_nil, stagingFailureCategories_eq_nil]
  constructor
  · rintro ⟨hok, ⟨_, hraw⟩, hstaging⟩
    exact ⟨hok, hraw, hstaging⟩
  · rintro ⟨hok, hraw, hstaging⟩
    exact ⟨hok, ⟨if_pos hok, hraw⟩, hstaging⟩

/-- Zero is for a complete run that is `ok`. -/
theorem runExitCode_eq_zero {ok : Bool} {status : RunStatus} :
    runExitCode ok (some status) = 0 ↔ ok = true ∧ status = .complete := by
  cases status <;> cases ok <;> decide

/-! ## The exit code -/

/-- The loop stops at the first page that could not be read. -/
theorem LoopLog.all_ok {maxPages : Option ℕ} {page : ℕ} {log : List PageLog} {reason : StopReason}
    (h : LoopLog maxPages page log reason) :
    (log.all fun entry => entry.report.ok) = true ↔ reason ≠ .pageFailed := by
  induction h with
  | cap hcap => simp
  | @stop page entry reason hcap hstop =>
    unfold PageLog.stop at hstop
    rw [List.all_cons, List.all_nil, Bool.and_true]
    cases hok : entry.report.ok with
    | false =>
      rw [if_pos hok] at hstop
      cases hstop
      simp
    | true =>
      rw [if_neg (by rw [hok]; decide)] at hstop
      split_ifs at hstop
      · cases hstop
        simp
      · cases hstop
        simp
  | @next page entry entries reason hcap hstop _ ih =>
    have hok : entry.report.ok = true := by
      by_contra hfailed
      unfold PageLog.stop at hstop
      rw [if_pos (eq_false_of_ne_true hfailed)] at hstop
      cases hstop
    rw [List.all_cons, hok, Bool.true_and]
    exact ih

section Verdict

variable {Text : Type} {pf : Platform Text} {config : RunConfig} {l : Conversation Text}
  {result : RunOnceResult} {read : CheckpointReadResult} {log : List PageLog} {reason : StopReason}
  {entry : PageLog}

/-- Every candidate of a page that was read has one result of each kind. -/
theorem PageLog.Faithful.succeeded (h : entry.Faithful pf config l)
    (hok : entry.report.ok = true) :
    List.Forall₂ (fun _ settled => SettledCandidate.Succeeded settled) entry.report.candidates
        entry.settled ↔
      (∀ rawResult ∈ entry.result.rawStorage,
        rawResult.status = .stored ∨ rawResult.status = .skipped) ∧
      ∀ stagingResult ∈ entry.result.staging,
        stagingResult.status = .staged ∨ stagingResult.status = .alreadyStaged := by
  unfold PageLog.result
  rw [(results_tallyPage entry.settled).1, (results_tallyPage entry.settled).2]
  -- along the candidates and their outcomes
  have hall := h.ok hok
  revert hall
  generalize entry.report.candidates = candidates
  generalize entry.settled = settled
  intro hall
  induction hall with
  | nil => simp
  | @cons candidate settled candidates rest hsettled _ ih =>
    obtain ⟨⟨rawResult, stagingResult, rfl⟩, _⟩ := hsettled
    refine List.forall₂_cons.trans ((and_congr_right' ih).trans ?_)
    simp only [List.filterMap_cons, SettledCandidate.rawResult?, SettledCandidate.stagingResult?,
      List.forall_mem_cons]
    show (_ ∧ _) ∧ _ ↔ _
    tauto

/-- **The exit code is exact.**  A run that resolves exits with 0 if and only if no page failed, the
    cap was not hit, and every candidate of every page was stored and staged, now or before. -/
theorem runOnce_exitCode_exact (h : Emits (config.markedRun pf) l (.ok result)) :
    ∃ read log reason, RanWith pf config l result read log reason ∧
      (result.exitCode = 0 ↔ reason ≠ .pageFailed ∧ reason ≠ .cap ∧
        ∀ entry ∈ log, List.Forall₂ (fun _ settled => SettledCandidate.Succeeded settled)
          entry.report.candidates entry.settled) := by
  obtain ⟨read, log, reason, hran⟩ := runOnce_ranWith h
  refine ⟨read, log, reason, hran, ?_⟩
  obtain ⟨context, state, finishedAt, hlogged, hcap, hsummary, hexit⟩ := hran.assembled
  have hstatus : result.summary.status = some (finalStatus state) := by
    rw [hsummary]
    exact status_buildRunSummary _
  have hreport : state.discoveryReport.ok = true ↔ reason ≠ .pageFailed := by
    rw [hlogged.report, ok_reportOf]
    exact hran.loop.all_ok
  have hreached : state.reachedMaxPages = false ↔ reason ≠ .cap := by
    rw [hcap, decide_eq_false_iff_not]
  rw [hexit, hstatus, runExitCode_eq_zero, finalStatus_eq_complete, hreached, hsummary]
  show (buildRunSummary _).ok = true ∧ _ ↔ _
  rw [ok_buildRunSummary_iff]
  dsimp only
  rw [hreport, hlogged.rawStorage, hlogged.staging]
  constructor
  · rintro ⟨⟨hnf, hraw, hstaging⟩, _, hnc⟩
    refine ⟨hnf, hnc, fun entry hentry => ?_⟩
    have hok := List.all_eq_true.1 (hran.loop.all_ok.2 hnf) entry hentry
    exact ((hran.faithful entry hentry).succeeded hok).2
      ⟨fun rawResult hmem => hraw rawResult (List.mem_flatMap.2 ⟨entry, hentry, hmem⟩),
        fun stagingResult hmem => hstaging stagingResult (List.mem_flatMap.2 ⟨entry, hentry, hmem⟩)⟩
  · rintro ⟨hnf, hnc, hall⟩
    have hpages : ∀ entry ∈ log, (∀ rawResult ∈ entry.result.rawStorage,
        rawResult.status = .stored ∨ rawResult.status = .skipped) ∧
        ∀ stagingResult ∈ entry.result.staging,
          stagingResult.status = .staged ∨ stagingResult.status = .alreadyStaged :=
      fun entry hentry => ((hran.faithful entry hentry).succeeded
        (List.all_eq_true.1 (hran.loop.all_ok.2 hnf) entry hentry)).1 (hall entry hentry)
    refine ⟨⟨hnf, fun rawResult hmem => ?_, fun stagingResult hmem => ?_⟩, hnf, hnc⟩
    · obtain ⟨entry, hentry, hmem⟩ := List.mem_flatMap.1 hmem
      exact (hpages entry hentry).1 rawResult hmem
    · obtain ⟨entry, hentry, hmem⟩ := List.mem_flatMap.1 hmem
      exact (hpages entry hentry).2 stagingResult hmem

/-- The run over one page with one candidate. -/
theorem runOnce_exitCode_exact_toy : ∃ l result read log reason,
    RanWith toyPlatform toyConfig l result read log reason ∧ result.exitCode = 0 ∧
      (result.exitCode = 0 ↔ reason ≠ .pageFailed ∧ reason ≠ .cap ∧
        ∀ entry ∈ log, List.Forall₂ (fun _ settled => SettledCandidate.Succeeded settled)
          entry.report.candidates entry.settled) := by
  have hreturned : ∃ result : RunOnceResult,
      (toyRun 60).2 = Proc.pure (.ok result) ∧ result.exitCode = 0 := ⟨_, rfl, rfl⟩
  obtain ⟨result, hreturned, hexit⟩ := hreturned
  obtain ⟨l, hemits, _⟩ := emits_toyRun hreturned
  obtain ⟨read, log, reason, hran, hiff⟩ := runOnce_exitCode_exact hemits
  exact ⟨l, result, read, log, reason, hran, hexit, hiff⟩

end Verdict

/-! ## Counting

  `countRun` counts results by their status, `tallyPage` counts candidates. -/

/-- A raw status is counted by candidates. -/
theorem countRawStatus_tallyPage (settled : List SettledCandidate)
    (status : RawReplayStorageStatus) :
    countRawStatus (tallyPage settled).rawStorage status =
      settled.countP (·.rawStatusIs status) := by
  unfold countRawStatus
  rw [(results_tallyPage settled).1]
  induction settled with
  | nil => rfl
  | cons value rest ih =>
    rw [List.countP_cons, ← ih]
    cases value with
    | skipped => rfl
    | processed rawResult stagingResult => exact List.countP_cons

/-- So is a staging status. -/
theorem countStatus_tallyPage (settled : List SettledCandidate) (status : StagingOutcomeStatus) :
    countStatus (tallyPage settled).staging status =
      settled.countP (·.stagingStatusIs status) := by
  unfold countStatus
  rw [(results_tallyPage settled).2]
  induction settled with
  | nil => rfl
  | cons value rest ih =>
    rw [List.countP_cons, ← ih]
    cases value with
    | skipped => rfl
    | processed rawResult stagingResult => exact List.countP_cons

/-- So are the candidates that the gate skipped. -/
theorem skippedBySourceId_tallyPage (settled : List SettledCandidate) :
    (tallyPage settled).counts.skippedBySourceId = settled.countP (· = .skipped) := by
  have hfold : ∀ (settled : List SettledCandidate) (acc : IngestPageResult),
      (settled.foldl tallyCandidate acc).counts.skippedBySourceId =
        acc.counts.skippedBySourceId + settled.countP (· = .skipped) := by
    intro settled
    induction settled with
    | nil => intro acc; rfl
    | cons value rest ih =>
      intro acc
      rw [List.foldl_cons, ih, List.countP_cons]
      cases value with
      | skipped => simp only [tallyCandidate, decide_true, if_true]; omega
      | processed rawResult stagingResult =>
        cases hr : rawResult.status <;> cases hs : stagingResult.status <;>
          simp [tallyCandidate, tallyRawResult, tallyStagingResult, hr, hs]
  exact (hfold settled _).trans (Nat.zero_add _)

/-- Every candidate of a page was skipped, or has one result of each kind. -/
theorem length_tallyPage (settled : List SettledCandidate) :
    (tallyPage settled).rawStorage.length + settled.countP (· = .skipped) = settled.length ∧
    (tallyPage settled).staging.length = (tallyPage settled).rawStorage.length := by
  rw [(results_tallyPage settled).1, (results_tallyPage settled).2]
  induction settled with
  | nil => exact ⟨rfl, rfl⟩
  | cons value rest ih =>
    obtain ⟨hraw, hstaging⟩ := ih
    rw [List.countP_cons, List.length_cons]
    cases value with
    | skipped =>
      refine ⟨?_, hstaging⟩
      show (rest.filterMap _).length + (rest.countP _ + 1) = _
      omega
    | processed rawResult stagingResult =>
      refine ⟨?_, congrArg (· + 1) hstaging⟩
      show (rest.filterMap _).length + 1 + (rest.countP _ + 0) = _
      omega

/-- Every raw result has one of the four statuses. -/
theorem sum_countRawStatus (rawStorage : List StoreRawReplayResult) :
    countRawStatus rawStorage .stored + countRawStatus rawStorage .skipped +
      countRawStatus rawStorage .conflict + countRawStatus rawStorage .failed =
        rawStorage.length := by
  induction rawStorage with
  | nil => rfl
  | cons rawResult rest ih =>
    unfold countRawStatus at ih ⊢
    simp only [List.countP_cons, List.length_cons]
    cases rawResult.status <;> simp <;> omega

/-- Every staging result has one of the five. -/
theorem sum_countStatus (staging : List IngestStagingResult) :
    countStatus staging .staged + countStatus staging .alreadyStaged +
      countStatus staging .conflict + countStatus staging .failed +
      countStatus staging .notStageable = staging.length := by
  induction staging with
  | nil => rfl
  | cons stagingResult rest ih =>
    unfold countStatus at ih ⊢
    simp only [List.countP_cons, List.length_cons]
    cases stagingResult.status <;> simp <;> omega

/-- The counts of a run add up to the results it has collected. -/
theorem partition_countRun (input : CountRunInput) :
    (countRun input).stored + (countRun input).staged + (countRun input).duplicate +
      (countRun input).conflict + (countRun input).failed + (countRun input).skipped =
        input.rawStorage.length + input.staging.length := by
  have hraw := sum_countRawStatus input.rawStorage
  have hstaging := sum_countStatus input.staging
  show countRawStatus _ _ + countStatus _ _ + countStatus _ _ + (countRawStatus _ _ + countStatus _ _) +
    (countRawStatus _ _ + countStatus _ _) + (countRawStatus _ _ + countStatus _ _) = _
  omega

/-- Sums over the pages map, page by page; the keys of later pages are fresh. -/
theorem sum_pagesAfter (f : CheckpointPage → ℕ) {page : ℕ} (log : List PageLog)
    {pages : JsRecord CheckpointPage} (hfresh : ∀ k, page ≤ k → toString k ∉ pages) :
    ((pagesAfter page log pages).values.map f).sum = (pages.values.map f).sum +
      (log.map fun entry => if entry.fanned then f (runningPage entry.result.counts) else 0).sum := by
  induction log generalizing page pages with
  | nil => rfl
  | cons entry rest ih =>
    show ((pagesAfter (page + 1) rest (entry.enter page pages)).values.map f).sum = _
    rw [List.map_cons, List.sum_cons]
    unfold PageLog.enter
    by_cases hfanned : entry.fanned = true
    · have hnext : ∀ k, page + 1 ≤ k →
          toString k ∉ pages.insert (toString page) (runningPage entry.result.counts) := by
        intro k hk hmem
        rcases Finmap.mem_insert.1 hmem with heq | hmem
        · have := natToString_injective heq
          omega
        · exact hfresh k (by omega) hmem
      rw [if_pos hfanned, if_pos hfanned, ih hnext, JsRecord.values_insert (hfresh page le_rfl),
        Multiset.map_cons, Multiset.sum_cons]
      omega
    · rw [if_neg hfanned, if_neg hfanned, ih fun k hk => hfresh k (by omega), Nat.zero_add]

/-! ## The two accounts -/

/-- The counts of a summary match the results it carries. -/
structure RunSummary.Balanced (summary : RunSummary) : Prop where
  fetched : summary.counts.fetched = summary.rawStorage.length
  staging : summary.rawStorage.length = summary.staging.length
  partition : summary.counts.stored + summary.counts.staged + summary.counts.duplicate +
    summary.counts.conflict + summary.counts.failed + summary.counts.skipped =
      2 * summary.counts.fetched

/-- The counts of a summary are counted from its lists. -/
@[simp] theorem counts_buildRunSummary (input : BuildRunSummaryInput) :
    (buildRunSummary input).counts = countRun
      { discoveryReport := input.discoveryReport
        rawStorage := input.rawStorage
        skippedBySourceId := input.skippedBySourceId.getD 0
        skippedPreDetail := input.discoveryReport.counts.skippedPreDetail
        staging := input.staging } := by
  unfold buildRunSummary withRunMetrics
  split <;> rfl

/-- A summary balances if each raw result has its staging result. -/
theorem balanced_buildRunSummary {input : BuildRunSummaryInput}
    (h : input.staging.length = input.rawStorage.length) : (buildRunSummary input).Balanced := by
  refine ⟨?_, ?_, ?_⟩
  · rw [counts_buildRunSummary, rawStorage_buildRunSummary]
    rfl
  · rw [rawStorage_buildRunSummary, staging_buildRunSummary, h]
  · rw [counts_buildRunSummary, partition_countRun]
    dsimp only
    rw [h]
    exact (two_mul _).symm

section Accounts

variable {Text : Type} {pf : Platform Text} {config : RunConfig} {l : Conversation Text}
  {result : RunOnceResult} {read : CheckpointReadResult} {log : List PageLog} {reason : StopReason}
  {entry : PageLog}

/-- The pages of the last checkpoint the run wrote, none if it wrote none. -/
def writtenPages (l : Conversation Text) : JsRecord CheckpointPage :=
  ((writesOf l).getLast?.map fun input => input.checkpoint.pages).getD ∅

/-- The list requests of a conversation were answered as the real discovery answers them. -/
def RealLists (reader : SourceReader pf) (l : Conversation Text) : Prop :=
  ∀ input r, (⟨.discoverReplays input, r⟩ : Σ e : Effect Text, Reply e) ∈ l →
    ∃ sub : Conversation Text, Emits (discoverReplaysDryRun reader input.dryRunOptions) sub r

/-- Every candidate of a page that was read has an outcome. -/
theorem PageLog.Faithful.length (h : entry.Faithful pf config l) (hsound : entry.report.Sound) :
    entry.settled.length = entry.report.candidates.length := by
  cases hok : entry.report.ok with
  | false =>
    rw [h.failed hok, hsound.failed hok]
    rfl
  | true => exact (h.ok hok).length_eq.symm

/-- A page that was not fanned out has settled nothing. -/
theorem PageLog.Faithful.settled_eq_nil (h : entry.Faithful pf config l)
    (hnot : entry.fanned = false) : entry.settled = [] := by
  unfold PageLog.fanned at hnot
  cases hok : entry.report.ok with
  | false => exact h.failed hok
  | true =>
    rw [hok, Bool.true_and, Bool.not_eq_false', List.isEmpty_iff] at hnot
    have hall := h.ok hok
    rw [hnot] at hall
    exact List.forall₂_nil_left_iff.1 hall

/-- A run without a gate skips no candidate. -/
theorem PageLog.Faithful.countP_skipped (h : entry.Faithful pf config l) :
    entry.settled.countP (· = .skipped) = 0 := by
  rw [List.countP_eq_zero]
  intro settled hmem
  cases hok : entry.report.ok with
  | false =>
    rw [h.failed hok] at hmem
    exact absurd hmem List.not_mem_nil
  | true =>
    obtain ⟨i, hi, rfl⟩ := List.mem_iff_getElem.1 hmem
    have hall := List.forall₂_iff_get.1 (h.ok hok)
    obtain ⟨⟨rawResult, stagingResult, heq⟩, _⟩ := hall.2 i (hall.1 ▸ hi) hi
    rw [List.get_eq_getElem] at heq
    rw [heq]
    simp

/-- What a page adds to a sum of the checkpoint is what it adds to the count of the summary. -/
theorem RanWith.sum_pages (hran : RanWith pf config l result read log reason)
    (hpages : (resumeStateOf read).pages = ∅) (f : CheckpointPage → ℕ)
    (g : List SettledCandidate → ℕ) (hf : ∀ settled, f (runningPage (tallyPage settled).counts) =
      g settled) (hnil : g [] = 0) :
    ((writtenPages l).values.map f).sum = (log.map fun entry => g entry.settled).sum := by
  have hentries : ∀ entry ∈ log, (if entry.fanned then f (runningPage entry.result.counts) else 0) =
      g entry.settled := by
    intro entry hentry
    by_cases hfanned : entry.fanned = true
    · rw [if_pos hfanned]
      exact hf _
    · rw [if_neg hfanned,
        (hran.faithful entry hentry).settled_eq_nil (eq_false_of_ne_true hfanned), hnil]
  have hwritten := hran.written
  rw [hpages] at hwritten
  have hsum : ((pagesAfter (resumeStateOf read).startPage log ∅).values.map f).sum =
      (log.map fun entry => g entry.settled).sum := by
    rw [sum_pagesAfter f log fun _ _ => Finmap.notMem_empty, List.map_congr_left hentries]
    exact Nat.zero_add _
  rw [← hsum]
  unfold writtenPages
  cases hlast : (writesOf l).getLast? with
  | some input => rw [← hwritten.pages input hlast]; rfl
  | none =>
    -- no write, so no page was fanned out
    have hnone : ∀ entry ∈ log, entry.fanned = false := by
      have hany : log.any PageLog.fanned = false := by
        by_contra hany
        exact hwritten.written (eq_true_of_ne_false hany) (List.getLast?_eq_none_iff.1 hlast)
      exact fun entry hentry => eq_false_of_ne_true (List.any_eq_false.1 hany entry hentry)
    have hzero : ∀ entry ∈ log, g entry.settled = 0 := fun entry hentry => by
      rw [(hran.faithful entry hentry).settled_eq_nil (hnone entry hentry), hnil]
    rw [hsum, List.map_congr_left hzero, List.map_const', List.sum_replicate]
    exact (Nat.mul_zero _).symm

/-- The candidates of a run are those of its pages. -/
theorem RanWith.length_candidates (hran : RanWith pf config l result read log reason)
    (hlists : ∀ entry ∈ log, entry.report.Sound) {slug : String} {before : ℕ}
    {resumed : JsRecord CheckpointPage} {state : LoopState}
    (hlogged : Logged slug before resumed log state) :
    state.discoveryReport.candidates.length =
      (log.map fun entry => entry.settled.length).sum := by
  rw [hlogged.report, candidates_reportOf, List.length_flatMap]
  exact congrArg List.sum (List.map_congr_left fun entry hentry =>
    ((hran.faithful entry hentry).length (hlists entry hentry)).symm)

/-- **The two accounts of a run agree.**  The pages of the checkpoint sum up to the counts of the
    summary, if the run began with none. -/
theorem RanWith.aggregatePageCounts_eq (hran : RanWith pf config l result read log reason)
    (hlists : ∀ entry ∈ log, entry.report.Sound) (hpages : (resumeStateOf read).pages = ∅) :
    aggregatePageCounts (writtenPages l) =
      { discovered := result.summary.counts.discovered
        failed := result.summary.counts.failed
        staged := result.summary.counts.staged
        stored := result.summary.counts.stored } := by
  obtain ⟨context, state, finishedAt, hlogged, _, hsummary, _⟩ := hran.assembled
  have hcounts : result.summary.counts = countRun
      { discoveryReport := state.discoveryReport, rawStorage := state.rawStorage
        skippedBySourceId := 0, skippedPreDetail := state.discoveryReport.counts.skippedPreDetail
        staging := state.staging } := by
    rw [hsummary]
    exact counts_buildRunSummary _
  have hraw : ∀ status, countRawStatus state.rawStorage status =
      (log.map fun entry => entry.settled.countP (·.rawStatusIs status)).sum := by
    intro status
    rw [hlogged.rawStorage]
    unfold countRawStatus
    rw [List.countP_flatMap]
    exact congrArg List.sum (List.map_congr_left fun entry _ => countRawStatus_tallyPage _ status)
  have hstaging : ∀ status, countStatus state.staging status =
      (log.map fun entry => entry.settled.countP (·.stagingStatusIs status)).sum := by
    intro status
    rw [hlogged.staging]
    unfold countStatus
    rw [List.countP_flatMap]
    exact congrArg List.sum (List.map_congr_left fun entry _ => countStatus_tallyPage _ status)
  have hdiscovered := hran.length_candidates hlists hlogged
  rw [hcounts]
  unfold aggregatePageCounts countRun
  dsimp only
  rw [hdiscovered, hraw, hraw, hstaging, hstaging]
  have hsum := fun f g => hran.sum_pages hpages f g
  congr 1
  · exact hsum _ _ (fun settled => (tallyPage_spec settled).discovered) rfl
  · rw [hsum _ _ (fun settled => (tallyPage_spec settled).failed) rfl, List.sum_map_add]
  · exact hsum _ _ (fun settled => (tallyPage_spec settled).staged) rfl
  · exact hsum _ _ (fun settled => (tallyPage_spec settled).stored) rfl

/-- The summary of a run is balanced, and every candidate was fetched. -/
theorem RanWith.balanced (hran : RanWith pf config l result read log reason)
    (hlists : ∀ entry ∈ log, entry.report.Sound) :
    result.summary.Balanced ∧ result.summary.counts.discovered = result.summary.counts.fetched := by
  obtain ⟨context, state, finishedAt, hlogged, _, hsummary, _⟩ := hran.assembled
  have hlength : ∀ entry ∈ log, entry.result.rawStorage.length = entry.settled.length ∧
      entry.result.staging.length = entry.settled.length := by
    intro entry hentry
    obtain ⟨hraw, hstaging⟩ := length_tallyPage entry.settled
    have hskipped := (hran.faithful entry hentry).countP_skipped
    unfold PageLog.result
    omega
  have hraw : state.rawStorage.length = (log.map fun entry => entry.settled.length).sum := by
    rw [hlogged.rawStorage, List.length_flatMap]
    exact congrArg List.sum (List.map_congr_left fun entry hentry => (hlength entry hentry).1)
  have hstaging : state.staging.length = (log.map fun entry => entry.settled.length).sum := by
    rw [hlogged.staging, List.length_flatMap]
    exact congrArg List.sum (List.map_congr_left fun entry hentry => (hlength entry hentry).2)
  have hdiscovered := hran.length_candidates hlists hlogged
  rw [hsummary]
  refine ⟨balanced_buildRunSummary (hstaging.trans hraw.symm), ?_⟩
  unfold finalSummary
  rw [counts_buildRunSummary]
  exact hdiscovered.trans hraw.symm

end Accounts

/-! ## Watch cycles -/

section Cycle

variable {Text : Type} {pf : Platform Text}

/-- A page that resolves has tallied one outcome for each candidate, gates or not. -/
theorem safe_ingestPage_tally {W E : Type} {R : E → Type} {env : Env W E R} {rely : W → W → Prop}
    (input : IngestPageInput E R) (w : W) :
    Proc.Safe env rely (fun _ _ => True) (Async.Outcome (fun result _ => ∃ settled,
      settled.length = input.candidates.length ∧ result = tallyPage settled) fun _ _ => True) w
      (ingestPage input) := by
  rw [ingestPage_eq]
  refine Proc.safe_fan (fun _ => True) (fun _ _ _ _ _ _ => trivial) (fun _ _ _ _ => trivial)
    (fun _ _ _ _ => trivial) (fun _ => trivial) (fun _ _ _ _ => trivial) (fun _ _ _ _ _ => trivial)
    (fun i => Proc.safe_any (fun _ _ => trivial) _) (fun vs w _ _ => ?_) trivial
  refine Proc.safe_pure (Async.outcome_stable (fun _ _ _ h _ => h) (fun _ _ _ _ _ => trivial) _) ?_
  cases houtcome : pageOutcome vs with
  | error error => trivial
  | ok result =>
    obtain ⟨values, _, rfl⟩ := pageOutcome_eq_ok.1 houtcome
    exact ⟨List.ofFn values, List.length_ofFn, rfl⟩

/-- **The accounts of a watch cycle agree**: a candidate was fetched, or skipped by its source id. -/
theorem cycle_balanced {reader : SourceReader pf} {config : WatchConfig} {l : Conversation Text}
    {summary : RunSummary} (h : Emits (config.cycle reader) l (.ok summary)) :
    summary.Balanced ∧ summary.counts.discovered =
      summary.counts.fetched + summary.counts.skippedBySourceId := by
  suffices hsafe : Proc.Safe Env.free Lts.Alone (fun _ _ => True)
      (Async.Outcome (fun (summary : RunSummary) (_ : Conversation Text) => summary.Balanced ∧
        summary.counts.discovered = summary.counts.fetched + summary.counts.skippedBySourceId)
        fun _ _ => True) [] (config.cycle reader) by
    have hpost := Proc.Safe.of_run hsafe h
    exact hpost
  have hany : ∀ {α : Type} (p : Task Text α) (l : Conversation Text),
      Proc.Safe Env.free Lts.Alone (fun _ _ => True)
        (Async.Outcome (fun _ _ => True) fun _ _ => True) l p := by
    intro α p l
    refine (Proc.safe_any (fun _ _ => trivial) _).imp ?_
    rintro (error | a) _ _ <;> trivial
  unfold WatchConfig.cycle runCycle
  refine Async.safe_lift_bind (fun _ _ => True) (Proc.safe_any (fun _ _ => trivial) _)
    fun cycleStart l _ => ?_
  refine Async.safe_lift_bind (fun _ _ => True) (Proc.safe_any (fun _ _ => trivial) _)
    fun runId l _ => ?_
  refine Async.safe_lift_bind (fun _ _ => True) (Proc.safe_any (fun _ _ => trivial) _)
    fun _ l _ => ?_
  refine Async.safe_bind (fun _ _ => True) (hany _ l) fun report l _ => ?_
  refine Async.safe_bind _ (safe_ingestPage_tally _ l) ?_
  rintro result l ⟨settled, hlen, rfl⟩
  refine Async.safe_lift_bind (fun _ _ => True) (Proc.safe_any (fun _ _ => trivial) _)
    fun finishedAt l _ => ?_
  refine Async.safe_lift_bind (fun _ _ => True) (Proc.safe_any (fun _ _ => trivial) _)
    fun _ l _ => ?_
  obtain ⟨hraw, hstaging⟩ := length_tallyPage settled
  refine Proc.safe_pure (fun _ _ h _ => h) ⟨balanced_buildRunSummary hstaging, ?_⟩
  unfold watchSummary
  rw [counts_buildRunSummary]
  show report.candidates.length =
    (tallyPage settled).rawStorage.length + (tallyPage settled).counts.skippedBySourceId
  rw [skippedBySourceId_tallyPage, hraw]
  exact hlen.symm

end Cycle

/-- **The two accountings agree.**  For a run over the real discovery, whatever else the services
    answer: the pages map sums up to the counts of the summary (if it began empty), every candidate
    was fetched and staged or refused, and the counts partition the results.  For a watch cycle:
    the same, with the candidates skipped by their source id on top. -/
theorem accounts_agree {Text : Type} {pf : Platform Text} (reader : SourceReader pf) :
    (∀ config (l : Conversation Text) result, Emits (config.markedRun pf) l (.ok result) →
      RealLists reader l → ∃ read log reason, RanWith pf config l result read log reason ∧
        ((resumeStateOf read).pages = ∅ → aggregatePageCounts (writtenPages l) =
          { discovered := result.summary.counts.discovered
            failed := result.summary.counts.failed
            staged := result.summary.counts.staged
            stored := result.summary.counts.stored }) ∧
        result.summary.Balanced ∧
        result.summary.counts.discovered = result.summary.counts.fetched) ∧
    ∀ (config : WatchConfig) (l : Conversation Text) summary,
      Emits (config.cycle reader) l (.ok summary) → summary.Balanced ∧
        summary.counts.discovered = summary.counts.fetched + summary.counts.skippedBySourceId := by
  refine ⟨fun config l result h hreal => ?_, fun config l summary h => cycle_balanced h⟩
  obtain ⟨read, log, reason, hran⟩ := runOnce_ranWith h
  have hlists : ∀ entry ∈ log, entry.report.Sound := by
    intro entry hentry
    have hmem : entry.report ∈ reportsOf l := by
      rw [hran.reports]
      exact List.mem_map_of_mem hentry
    obtain ⟨input, hinput, hasked⟩ := exists_of_mem_reportsOf hmem
    obtain ⟨sub, hsub⟩ := hreal input _ hinput
    have hmax : (@DiscoverInput.dryRunOptions Text input).maxPages.getD 1 = 1 := by
      show input.maxPages.getD 1 = 1
      rw [(hran.asked input hasked).maxPages]
      rfl
    exact Proc.Safe.of_run (safe_discoverReplaysDryRun [] hmax) hsub entry.report rfl
  exact ⟨read, log, reason, hran, hran.aggregatePageCounts_eq hlists, hran.balanced hlists⟩

/-- The replies to the GETs of a conversation. -/
def getRepliesOf {Text : Type} (l : Conversation Text) :
    List (Except JsError (GetObjectOutput Text)) :=
  l.filterMap fun
    | ⟨.getCheckpoint _, reply⟩ => some reply
    | _ => none

/-- A run that found no checkpoint began with an empty pages map. -/
theorem RanWith.pages_eq_empty {Text : Type} {pf : Platform Text} {config : RunConfig}
    {l : Conversation Text} {result : RunOnceResult} {read : CheckpointReadResult}
    {log : List PageLog} {reason : StopReason} {key : String}
    (h : RanWith pf config l result read log reason)
    (hkey : checkpointKey pf config.checkpointOptions (pf.withoutUserinfo config.sourceUrl) = .ok key)
    (hmissing : ∀ reply ∈ getRepliesOf l, readReply pf reply = .ok {}) :
    (resumeStateOf read).pages = ∅ := by
  obtain ⟨sub, hread, hsub⟩ := h.resumed
  have hread' : Emits (readCheckpoint pf config.checkpointOptions
      (pf.withoutUserinfo config.sourceUrl)) sub (.ok read) := hread
  rw [readCheckpoint_eq hkey, Proc.emits_call] at hread'
  obtain ⟨reply, rest, rfl, hrest⟩ := hread'
  obtain ⟨rfl, hreply⟩ := Proc.emits_pure.1 hrest
  have hmem : reply ∈ getRepliesOf l :=
    List.mem_filterMap.2 ⟨_, hsub.subset List.mem_cons_self, rfl⟩
  rw [hmissing reply hmem] at hreply
  obtain rfl := Except.ok.inj hreply
  rfl

/-- The conversation of the toy run. -/
def toyConversation : Conversation (Option Json) := conversation ((toyRecordedRun 60).1.2 ())

/-- One run over one replay. -/
theorem emits_toyConversation : ∃ result : RunOnceResult,
    Emits (toyConfig.markedRun toyPlatform) toyConversation (.ok result) ∧
      result.summary.counts.discovered = 1 := by
  have hreturned : ∃ result : RunOnceResult, (toyRecordedRun 60).2 = Proc.pure (.ok result) ∧
      result.summary.counts.discovered = 1 := ⟨_, rfl, rfl⟩
  obtain ⟨result, hreturned, hone⟩ := hreturned
  have hserve : ∀ w e, (toyListing.services : Backend (Option Json)).Step w e
      (toyListing.serve w e).1 (toyListing.serve w e).2 := toyListing.step_services fun _ => ⟨[7], rfl⟩
  have hruns : (Proc.lts ((toyListing.services : Backend (Option Json)).Step.recorded ()) _).Runs
      Lts.Alone (emptyWorld, fun _ => []) (toyConfig.markedRun toyPlatform)
      (toyRecordedRun 60).1 (toyRecordedRun 60).2 :=
    Proc.runs_exec (recorded_serve hserve) 60
      ((emptyWorld, fun _ => []), toyConfig.markedRun toyPlatform)
  obtain ⟨l, hemits, hl⟩ := Proc.emits_of_recorded (hreturned ▸ hruns)
  obtain rfl : toyConversation = l := hl
  exact ⟨result, hemits, hone⟩

/-- It has found no checkpoint. -/
theorem getRepliesOf_toyConversation :
    (getRepliesOf toyConversation).map (readReply toyPlatform) = [.ok {}] := rfl

/-- The requests for lists in a conversation, and the replies. -/
def listExchangesOf {Text : Type} (l : Conversation Text) :
    List (DiscoverInput × Except JsError DiscoveryReport) :=
  l.filterMap fun
    | ⟨.discoverReplays input, reply⟩ => some (input, reply)
    | _ => none

/-- Its lists are those of the source. -/
theorem listExchangesOf_toyConversation : (listExchangesOf toyConversation).map Prod.snd =
    (listExchangesOf toyConversation).map fun exchange => toyListing.reports exchange.1 := rfl

/-- Its lists are what the discovery makes of the toy source. -/
theorem realLists_toy : RealLists toyReader toyConversation := by
  intro input r hmem
  have hexchange : (input, r) ∈ listExchangesOf toyConversation :=
    List.mem_filterMap.2 ⟨_, hmem, rfl⟩
  obtain rfl : r = toyListing.reports input :=
    List.map_inj_left.1 listExchangesOf_toyConversation _ hexchange
  obtain ⟨result, hemits, _⟩ := emits_toyConversation
  obtain ⟨read, log, reason, hran⟩ := runOnce_ranWith hemits
  have hasked := hran.asked input (List.mem_filterMap.2 ⟨_, hmem, rfl⟩)
  obtain ⟨attempts, maxPages, sourceUrl⟩ := input
  obtain ⟨rfl, rfl, page, rfl⟩ := hasked
  by_cases hpage : page = 1
  · subst hpage
    have hdone : (Proc.exec (toySource "a").serve 5 (emptyWorld, (discoverReplaysDryRun toyReader
        (DiscoverInput.dryRunOptions ⟨none, some 1, toyConfig.sourceUrl⟩) :
          Program (Option Json) (Except JsError DiscoveryReport)))).2 =
        .pure (.ok (okReport [toyCandidate])) := rfl
    exact Proc.exists_emits_exec hdone
  · -- every other page is empty
    have hurl : toyPlatform.toPageUrl toyConfig.sourceUrl page =
        ⟨"https:", "", "", "a", "", "?p=" ++ toString page, ""⟩ := by
      unfold Platform.toPageUrl
      rw [if_neg hpage]
      rfl
    have hsearch : "?p=" ++ toString page ≠ "" := fun h => by
      have := congrArg String.length h
      simp [String.length_append] at this
    rw [hurl]
    generalize "?p=" ++ toString page = search at hsearch ⊢
    have hlist : toyListing.reports ⟨toyConfig.attempts, some 1,
        ⟨"https:", "", "", "a", "", search, ""⟩⟩ = .ok (okReport []) := by
      unfold toyListing
      dsimp only
      rw [if_neg hsearch]
    rw [hlist]
    have hdone : (Proc.exec (toySource "").serve 5 (emptyWorld, (discoverReplaysDryRun toyReader
        (DiscoverInput.dryRunOptions ⟨none, some 1, ⟨"https:", "", "", "a", "", search, ""⟩⟩) :
          Program (Option Json) (Except JsError DiscoveryReport)))).2 =
        .pure (.ok (okReport [])) := rfl
    exact Proc.exists_emits_exec hdone

/-- That run, and a cycle, account for what they have done. -/
theorem accounts_agree_toy :
    (∃ (result : RunOnceResult), ∃ read log reason,
      RanWith toyPlatform toyConfig toyConversation result read log reason ∧
        result.summary.counts.discovered = 1 ∧
        aggregatePageCounts (writtenPages toyConversation) =
          { discovered := result.summary.counts.discovered
            failed := result.summary.counts.failed
            staged := result.summary.counts.staged
            stored := result.summary.counts.stored } ∧
        result.summary.Balanced ∧
        result.summary.counts.discovered = result.summary.counts.fetched) ∧
    ∃ (l : Conversation (Option Json)) (summary : RunSummary),
      Emits (toyWatch.cycle toyReader) l (.ok summary) ∧ summary.Balanced ∧
        summary.counts.discovered = summary.counts.fetched + summary.counts.skippedBySourceId := by
  constructor
  · obtain ⟨result, hemits, hone⟩ := emits_toyConversation
    obtain ⟨read, log, reason, hran, hpages, hbalanced, hcounts⟩ :=
      (accounts_agree toyReader).1 toyConfig toyConversation result hemits realLists_toy
    -- nothing was there to resume from
    have hempty : (resumeStateOf read).pages = ∅ :=
      hran.pages_eq_empty checkpointKey_toyConfig fun reply hreply => by
        have hmem := List.mem_map_of_mem (f := readReply toyPlatform) hreply
        rw [getRepliesOf_toyConversation] at hmem
        exact List.mem_singleton.1 hmem
    exact ⟨result, read, log, reason, hran, hone, hpages hempty, hbalanced, hcounts⟩
  · have hreturned : ∃ summary : RunSummary, (Proc.exec (toySource "a").serve 30
        (emptyWorld, toyWatch.cycle toyReader)).2 = Proc.pure (.ok summary) := ⟨_, rfl⟩
    obtain ⟨summary, hreturned⟩ := hreturned
    obtain ⟨l, hemits⟩ := Proc.exists_emits_exec hreturned
    exact ⟨l, summary, hemits, (accounts_agree toyReader).2 toyWatch l summary hemits⟩

end ReplaysFetcher
