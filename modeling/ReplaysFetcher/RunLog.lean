/-
  One run, page by page.

  A run that resolves has asked for a list of pages and has stopped for one reason.  `PageLog` is
  what it has learned from one page: the report, and what became of each candidate.  `LoopLog` is
  the page loop on such lists, and nothing else: which page comes next, when the cap is hit, when a
  page is the last one.

  `runOnce_ranWith` connects it to the program.  WHATEVER the services answer, the conversation of a
  run that resolved determines such a list: its reports are the replies to the list requests, in
  order, its outcomes are results of the store-then-stage calls inside the conversation, and the
  run's own accounts (pages map, report, raw results, staging results) are functions of the list.
  So a result about what a run reports is a fact about lists of pages.
-/
import ReplaysFetcher.Wiring

namespace ReplaysFetcher

open Effectful

/-! ## The log -/

/-- One page of a run: what was reported, and what became of the candidates. -/
structure PageLog where
  report : DiscoveryReport
  settled : List SettledCandidate

namespace PageLog

/-- The tally of the page. -/
def result (entry : PageLog) : IngestPageResult := tallyPage entry.settled

/-- Was the page fanned out? -/
def fanned (entry : PageLog) : Bool := entry.report.ok && !entry.report.candidates.isEmpty

/-- Why the loop stops after this page, if it does. -/
def stop (entry : PageLog) : Option StopReason :=
  if entry.report.ok = false then some .pageFailed
  else if entry.report.candidates = [] then some .empty
  else if isAllDuplicate entry.result.counts then some .allDuplicate
  else none

end PageLog

/-- Is `page` beyond the cap? -/
def capped (maxPages : Option ℕ) (page : ℕ) : Bool := maxPages.any fun maxPages => maxPages < page

/-- The pages a loop reads from `page` on, and why it stops. -/
inductive LoopLog (maxPages : Option ℕ) : ℕ → List PageLog → StopReason → Prop
  | cap {page : ℕ} (hcap : capped maxPages page = true) : LoopLog maxPages page [] .cap
  | stop {page : ℕ} {entry : PageLog} {reason : StopReason} (hcap : capped maxPages page = false)
      (hstop : entry.stop = some reason) : LoopLog maxPages page [entry] reason
  | next {page : ℕ} {entry : PageLog} {entries : List PageLog} {reason : StopReason}
      (hcap : capped maxPages page = false) (hstop : entry.stop = none)
      (h : LoopLog maxPages (page + 1) entries reason) :
      LoopLog maxPages page (entry :: entries) reason

/-! ## The accounts of a run, as functions of its log -/

/-- The report a run accumulates. -/
def reportOf (slug : String) (log : List PageLog) : DiscoveryReport :=
  log.foldl (fun target entry => appendDiscoveryReport target entry.report)
    (emptyDiscoveryReport slug)

/-- A page that was fanned out is entered into the pages map. -/
def PageLog.enter (entry : PageLog) (page : ℕ) (pages : JsRecord CheckpointPage) :
    JsRecord CheckpointPage :=
  if entry.fanned then pages.insert (toString page) (runningPage entry.result.counts) else pages

/-- The pages map after the pages from `page` on. -/
def pagesAfter : ℕ → List PageLog → JsRecord CheckpointPage → JsRecord CheckpointPage
  | _, [], pages => pages
  | page, entry :: entries, pages => pagesAfter (page + 1) entries (entry.enter page pages)

theorem pagesAfter_concat (page : ℕ) (log : List PageLog) (entry : PageLog)
    (pages : JsRecord CheckpointPage) :
    pagesAfter page (log ++ [entry]) pages =
      entry.enter (page + log.length) (pagesAfter page log pages) := by
  induction log generalizing page pages with
  | nil => rfl
  | cons first rest ih =>
    show pagesAfter (page + 1) (rest ++ [entry]) _ = _
    rw [ih, List.length_cons, show page + 1 + rest.length = page + (rest.length + 1) by omega]
    rfl

/-- A loop state that is what the log says.  `before` is the last page the run was resumed after. -/
structure Logged (slug : String) (before : ℕ) (resumed : JsRecord CheckpointPage)
    (log : List PageLog) (state : LoopState) : Prop where
  report : state.discoveryReport = reportOf slug log
  lastCompletedPage : state.lastCompletedPage = before + log.countP PageLog.fanned
  pages : state.pages = pagesAfter (before + FIRST_PAGE) log resumed
  rawStorage : state.rawStorage = log.flatMap fun entry => entry.result.rawStorage
  staging : state.staging = log.flatMap fun entry => entry.result.staging

/-- One page more. -/
theorem Logged.enter {slug : String} {before : ℕ} {resumed : JsRecord CheckpointPage}
    {log : List PageLog} {state state' : LoopState} (h : Logged slug before resumed log state)
    (entry : PageLog)
    (hreport : state'.discoveryReport = appendDiscoveryReport state.discoveryReport entry.report)
    (hlast : state'.lastCompletedPage = state.lastCompletedPage + if entry.fanned then 1 else 0)
    (hpages : state'.pages = entry.enter (before + FIRST_PAGE + log.length) state.pages)
    (hraw : state'.rawStorage = state.rawStorage ++ entry.result.rawStorage)
    (hstaging : state'.staging = state.staging ++ entry.result.staging) :
    Logged slug before resumed (log ++ [entry]) state' := by
  refine ⟨?_, ?_, ?_, ?_, ?_⟩
  · unfold reportOf
    rw [List.foldl_concat, hreport, h.report]
    rfl
  · rw [hlast, h.lastCompletedPage, List.countP_append, List.countP_singleton, Nat.add_assoc]
  · rw [hpages, h.pages, pagesAfter_concat]
  · rw [hraw, h.rawStorage, List.flatMap_append, List.flatMap_singleton]
  · rw [hstaging, h.staging, List.flatMap_append, List.flatMap_singleton]

/-! ## What is read off the report -/

theorem candidates_reportOf (slug : String) (log : List PageLog) :
    (reportOf slug log).candidates = log.flatMap fun entry => entry.report.candidates := by
  induction log using List.reverseRecOn with
  | nil => rfl
  | append_singleton log entry ih =>
    unfold reportOf at ih ⊢
    rw [List.foldl_concat, List.flatMap_append, List.flatMap_singleton, ← ih]
    rfl

theorem ok_reportOf (slug : String) (log : List PageLog) :
    (reportOf slug log).ok = log.all fun entry => entry.report.ok := by
  induction log using List.reverseRecOn with
  | nil => rfl
  | append_singleton log entry ih =>
    unfold reportOf at ih ⊢
    rw [List.foldl_concat, List.all_append, ← ih]
    show (_ && entry.report.ok) = _
    rw [List.all_cons, List.all_nil, Bool.and_true]

/-! ## What the conversation shows -/

section Conversation

variable {Text : Type}

/-- The reports of the list pages, in order. -/
def reportsOf (l : Conversation Text) : List DiscoveryReport :=
  l.filterMap fun
    | ⟨.discoverReplays _, .ok report⟩ => some report
    | _ => none

/-- The list pages asked for, in order. -/
def askedOf (l : Conversation Text) : List DiscoverInput :=
  l.filterMap fun
    | ⟨.discoverReplays input, _⟩ => some input
    | _ => none

/-- The checkpoint writes the run attempted, in order. -/
def writesOf (l : Conversation Text) : List CheckpointWriteInput :=
  l.filterMap fun
    | ⟨.mark (.writeCall input), _⟩ => some input
    | _ => none

@[simp] theorem reportsOf_append (l l' : Conversation Text) :
    reportsOf (l ++ l') = reportsOf l ++ reportsOf l' := List.filterMap_append

@[simp] theorem askedOf_append (l l' : Conversation Text) :
    askedOf (l ++ l') = askedOf l ++ askedOf l' := List.filterMap_append

@[simp] theorem writesOf_append (l l' : Conversation Text) :
    writesOf (l ++ l') = writesOf l ++ writesOf l' := List.filterMap_append

/-- A report is the reply to a list request. -/
theorem exists_of_mem_reportsOf {report : DiscoveryReport} {l : Conversation Text}
    (h : report ∈ reportsOf l) : ∃ input,
      (⟨.discoverReplays input, .ok report⟩ : Σ e : Effect Text, Reply e) ∈ l ∧
        input ∈ askedOf l := by
  obtain ⟨⟨e, r⟩, hmem, heq⟩ := List.mem_filterMap.1 h
  cases e with
  | discoverReplays input =>
    cases r with
    | error error => cases heq
    | ok report' =>
      cases heq
      exact ⟨input, hmem, List.mem_filterMap.2 ⟨_, hmem, rfl⟩⟩
  | _ => cases heq

/-- Requests of which the log keeps nothing. -/
def OffLog : Effect Text → Prop
  | .discoverReplays _ | .mark _ => False
  | _ => True

theorem reportsOf_offLog {l : Conversation Text} (h : ∀ x ∈ l, OffLog x.1) : reportsOf l = [] := by
  refine List.filterMap_eq_nil_iff.2 fun x hx => ?_
  obtain ⟨e, r⟩ := x
  have he := h _ hx
  cases e <;> first | exact he.elim | rfl

theorem askedOf_offLog {l : Conversation Text} (h : ∀ x ∈ l, OffLog x.1) : askedOf l = [] := by
  refine List.filterMap_eq_nil_iff.2 fun x hx => ?_
  obtain ⟨e, r⟩ := x
  have he := h _ hx
  cases e <;> first | exact he.elim | rfl

theorem writesOf_offLog {l : Conversation Text} (h : ∀ x ∈ l, OffLog x.1) : writesOf l = [] := by
  refine List.filterMap_eq_nil_iff.2 fun x hx => ?_
  obtain ⟨e, r⟩ := x
  have he := h _ hx
  cases e <;> first | exact he.elim | rfl

end Conversation

/-! ## What the log may claim -/

section Faithful

variable {Text : Type} (pf : Platform Text) (config : RunConfig)

/-- Store, then stage, as the run is wired. -/
def RunConfig.settle (candidate : ReplayCandidate) : Task Text SettledCandidate := do
  let rawResult ← storeRawReplay pf config.bucket candidate
  let stagingResult ← stageRawReplay pf rawResult (some config.runId)
  pure (.processed rawResult stagingResult)

/-- The outcome is one that a store-then-stage call of the conversation resolved with. -/
def CandidateSettled (l : Conversation Text) (candidate : ReplayCandidate)
    (settled : SettledCandidate) : Prop :=
  (∃ rawResult stagingResult, settled = .processed rawResult stagingResult) ∧
    ∃ sub, Emits (config.settle pf candidate) sub (.ok settled) ∧ sub.Sublist l

/-- The outcomes of a page that was read are its candidates' own; a page that was not has none. -/
structure PageLog.Faithful (l : Conversation Text) (entry : PageLog) : Prop where
  failed : entry.report.ok = false → entry.settled = []
  ok : entry.report.ok = true →
    List.Forall₂ (CandidateSettled pf config l) entry.report.candidates entry.settled

/-- A list request of the run: one page of its source. -/
structure ListRequest (input : DiscoverInput) : Prop where
  attempts : input.attempts = config.attempts
  maxPages : input.maxPages = some 1
  sourceUrl : ∃ page, input.sourceUrl = pf.toPageUrl config.sourceUrl page

/-- The log agrees with the conversation, up to reports not entered yet. -/
structure Noted (log : List PageLog) (pending : List DiscoveryReport) (l : Conversation Text) :
    Prop where
  reports : reportsOf l = log.map PageLog.report ++ pending
  faithful : ∀ entry ∈ log, entry.Faithful pf config l
  asked : ∀ input ∈ askedOf l, ListRequest pf config input
  answered : (askedOf l).length = (reportsOf l).length

/-- The last checkpoint write carried these pages, and there was one if there had to be. -/
structure Written (pages : JsRecord CheckpointPage) (must : Bool) (l : Conversation Text) : Prop where
  pages : ∀ input, (writesOf l).getLast? = some input → input.checkpoint.pages = pages
  written : must = true → writesOf l ≠ []

/-- Others may talk to the services, but not about what the log keeps. -/
def Elsewhere (l l' : Conversation Text) : Prop :=
  ∃ more, l' = l ++ more ∧ ∀ x ∈ more, OffLog x.1

variable {pf config} {l l' more : Conversation Text} {candidate : ReplayCandidate}
  {settled : SettledCandidate} {entry : PageLog} {log : List PageLog}
  {pending : List DiscoveryReport} {pages : JsRecord CheckpointPage} {must : Bool}

theorem CandidateSettled.mono (h : CandidateSettled pf config l candidate settled) :
    CandidateSettled pf config (l ++ more) candidate settled := by
  obtain ⟨hprocessed, sub, hemits, hsub⟩ := h
  exact ⟨hprocessed, sub, hemits, hsub.trans (List.sublist_append_left _ _)⟩

theorem CandidateSettled.elsewhere (h : CandidateSettled pf config l candidate settled)
    (hr : Elsewhere l l') : CandidateSettled pf config l' candidate settled := by
  obtain ⟨more, rfl, _⟩ := hr
  exact h.mono

theorem PageLog.Faithful.mono (h : entry.Faithful pf config l) :
    entry.Faithful pf config (l ++ more) :=
  ⟨h.failed, fun hok => (h.ok hok).imp fun _ _ h => h.mono⟩

theorem Noted.elsewhere (h : Noted pf config log pending l) (hr : Elsewhere l l') :
    Noted pf config log pending l' := by
  obtain ⟨more, rfl, hmore⟩ := hr
  have hreports : reportsOf (l ++ more) = reportsOf l := by
    rw [reportsOf_append, reportsOf_offLog hmore, List.append_nil]
  have hasked : askedOf (l ++ more) = askedOf l := by
    rw [askedOf_append, askedOf_offLog hmore, List.append_nil]
  refine ⟨?_, fun entry hentry => (h.faithful entry hentry).mono, ?_, ?_⟩
  · rw [hreports]
    exact h.reports
  · rw [hasked]
    exact h.asked
  · rw [hasked, hreports]
    exact h.answered

theorem Written.elsewhere (h : Written pages must l) (hr : Elsewhere l l') :
    Written pages must l' := by
  obtain ⟨more, rfl, hmore⟩ := hr
  have hwrites : writesOf (l ++ more) = writesOf l := by
    rw [writesOf_append, writesOf_offLog hmore, List.append_nil]
  exact ⟨fun input hinput => h.pages input (hwrites ▸ hinput),
    fun hmust => hwrites ▸ h.written hmust⟩

theorem Written.weaken (h : Written pages true l) (must : Bool) : Written pages must l :=
  ⟨h.pages, fun _ => h.written rfl⟩

/-- A report enters the log, with the outcomes of its page. -/
theorem Noted.enter (h : Noted pf config log [entry.report] l)
    (hentry : entry.Faithful pf config l) : Noted pf config (log ++ [entry]) [] l := by
  refine ⟨?_, fun entry' hmem => ?_, h.asked, h.answered⟩
  · rw [h.reports, List.map_append, List.append_nil]
    rfl
  · rcases List.mem_append.1 hmem with hmem | hmem
    · exact h.faithful entry' hmem
    · rw [List.mem_singleton.1 hmem]
      exact hentry

/-- Each outcome is of the one kind a run without a gate has. -/
theorem processed_of_emits (h : Emits (config.settle pf candidate) l (.ok settled)) :
    ∃ rawResult stagingResult, settled = .processed rawResult stagingResult := by
  have hsafe : Proc.Safe Env.free Lts.Alone (fun _ _ => True)
      (Async.Outcome (fun settled (_ : Conversation Text) => ∃ rawResult stagingResult,
        settled = SettledCandidate.processed rawResult stagingResult) fun _ _ => True) []
      (config.settle pf candidate) := by
    unfold RunConfig.settle
    refine Async.safe_bind (fun _ _ => True) ((Proc.safe_any (fun _ _ => trivial) _).imp ?_)
      fun rawResult w _ => ?_
    · rintro (e | a) w _ <;> trivial
    · refine Async.safe_bind (fun _ _ => True) ((Proc.safe_any (fun _ _ => trivial) _).imp ?_)
        fun stagingResult w _ => ?_
      · rintro (e | a) w _ <;> trivial
      · exact Proc.safe_pure (fun _ _ h _ => h) ⟨rawResult, stagingResult, rfl⟩
  exact Proc.Safe.of_run hsafe h

end Faithful

/-! ## The parts of a run -/

section Parts

variable {Text : Type} {pf : Platform Text} {config : RunConfig} {l l' : Conversation Text}

/-- An answer to a request off the log happens elsewhere. -/
theorem elsewhere_of_free {e : Effect Text} {r : Reply e} (he : OffLog e)
    (h : Env.free l e r l') : Elsewhere l l' := by
  refine ⟨_, h, fun x hx => ?_⟩
  rw [List.mem_singleton.1 hx]
  exact he

theorem elsewhere_refl (l : Conversation Text) : Elsewhere l l :=
  ⟨[], (List.append_nil l).symm, fun _ h => absurd h List.not_mem_nil⟩

/-- A program off the log is not noticed. -/
theorem quiet_of_asks {α : Type} {P : Effect Text → Prop} {p : Program Text α}
    (hP : ∀ e, P e → OffLog e) (hp : Proc.Asks P p) :
    Proc.Quiet Env.free Elsewhere Elsewhere p :=
  hp.quiet elsewhere_refl fun e he _ _ _ hr =>
    ⟨elsewhere_of_free (hP e he) hr, elsewhere_of_free (hP e he) hr⟩

theorem offLog_of_incidental {e : Effect Text} (h : IsIncidental e) : OffLog e := by
  cases e <;> first | exact h.elim | trivial

theorem offLog_of_ingest {e : Effect Text} (h : IsIngest e) : OffLog e := by
  cases e <;> first | exact h.elim | trivial

theorem offLog_of_checkpoint {e : Effect Text} (h : IsCheckpoint e) : OffLog e := by
  cases e <;> first | exact h.elim | trivial

theorem sublist_of_elsewhere (l l' : Conversation Text) (h : Elsewhere l l') : l.Sublist l' := by
  obtain ⟨more, rfl, _⟩ := h
  exact List.sublist_append_left _ _

theorem asks_settle (pf : Platform Text) (config : RunConfig) (candidate : ReplayCandidate) :
    Proc.Asks IsIngest
      (config.settle pf candidate : Program Text (Except JsError SettledCandidate)) := by
  unfold RunConfig.settle
  rw [Async.bind_eq]
  refine (asks_storeRawReplay candidate).bind fun r => ?_
  cases r with
  | error error => trivial
  | ok rawResult =>
    rw [Async.onOk_ok, Async.bind_eq]
    refine ((asks_stageRawReplay rawResult _).mono fun _ => ingest_of_storage).bind fun r => ?_
    cases r <;> trivial

/-- The fan-out of a page. -/
theorem safe_ingestPage_settled (state : LoopState) (candidates : List ReplayCandidate)
    {P : Conversation Text → Prop} (hstable : ∀ l l', P l → Elsewhere l l' → P l') (hP : P l) :
    Proc.Safe Env.free Elsewhere (fun _ _ => True)
      (Async.Outcome (fun result l => P l ∧ ∃ settled, result = tallyPage settled ∧
        List.Forall₂ (CandidateSettled pf config l) candidates settled) fun _ _ => True) l
      (ingestPage (ingestInput (config.toInput pf (config.store pf).marked) state candidates)) := by
  rw [ingestPage_eq]
  have htask : ∀ i : Fin candidates.length, Proc.Safe Env.free Elsewhere Elsewhere
      (fun r l => P l ∧ ∃ sub, Emits (config.settle pf (candidates.get i)) sub r ∧ sub.Sublist l) l
      (ingestCandidate (ingestInput (config.toInput pf (config.store pf).marked) state candidates)
        (candidates.get i)) := by
    intro i
    rw [ingestCandidate_ungated _ rfl]
    show Proc.Safe _ _ _ _ l (config.settle pf (candidates.get i))
    have hquiet := quiet_of_asks (fun _ => offLog_of_ingest) (asks_settle pf config (candidates.get i))
    exact ((hquiet P hstable l hP).and (Proc.safe_emits_free sublist_of_elsewhere l _)).weaken
      (fun _ _ h => h) (fun _ _ h => h.1) fun _ _ h => h
  refine Proc.safe_fan P ?_ ?_ ?_ (fun _ => trivial) hstable ?_ htask (fun vs l hP hvs => ?_) hP
  · exact fun _ _ _ _ _ h => h
  · exact fun _ _ _ h => h
  · exact fun _ _ _ _ => trivial
  · exact fun _ => hstable
  · refine Proc.safe_pure (fun _ _ => Async.outcome_stable (fun result l l' h hr => ?_)
      (fun _ _ _ _ _ => trivial) _ _ _) ?_
    · obtain ⟨hP, settled, hresult, hsettled⟩ := h
      exact ⟨hstable _ _ hP hr, settled, hresult, hsettled.imp fun _ _ h => h.elsewhere hr⟩
    · cases houtcome : pageOutcome vs with
      | error error => trivial
      | ok result =>
        obtain ⟨values, hvalues, rfl⟩ := pageOutcome_eq_ok.1 houtcome
        refine ⟨hP, List.ofFn values, rfl, List.forall₂_iff_get.2 ⟨?_, fun i hi hi' => ?_⟩⟩
        · exact (List.length_ofFn (f := values)).symm
        · obtain ⟨_, sub, hemits, hsub⟩ := hvs ⟨i, hi⟩
          rw [hvalues] at hemits
          rw [show (List.ofFn values).get ⟨i, hi'⟩ = values ⟨i, hi⟩ by simp]
          exact ⟨processed_of_emits hemits, sub, hemits, hsub⟩

/-- The wiring of the run. -/
abbrev RunConfig.input (pf : Platform Text) (config : RunConfig) :
    RunOnceInput (Effect Text) Reply :=
  config.toInput pf (config.store pf).marked

variable {log : List PageLog} {pages : JsRecord CheckpointPage} {must : Bool}

/-- What is not noticed elsewhere changes no account. -/
theorem quiet_input : RunSpec.Quiet Env.free Elsewhere (fun (_ _ : Conversation Text) => True)
    (config.input pf) :=
  config.quiet pf _ fun _ he _ _ _ hr => ⟨trivial, elsewhere_of_free (offLog_of_incidental he) hr⟩

/-- A note is not a report. -/
theorem Noted.mark {pending : List DiscoveryReport} (h : Noted pf config log pending l)
    {mark : Mark} {r : Reply (.mark mark : Effect Text)}
    (hr : Env.free l (.mark mark) r l') : Noted pf config log pending l' := by
  rw [show l' = l ++ [⟨.mark mark, r⟩] from hr]
  have hreports : reportsOf (l ++ [(⟨.mark mark, r⟩ : Σ e : Effect Text, Reply e)]) =
      reportsOf l := by
    rw [reportsOf_append]
    exact List.append_nil _
  have hasked : askedOf (l ++ [(⟨.mark mark, r⟩ : Σ e : Effect Text, Reply e)]) = askedOf l := by
    rw [askedOf_append]
    exact List.append_nil _
  refine ⟨?_, fun entry hentry => (h.faithful entry hentry).mono, ?_, ?_⟩
  · rw [hreports]
    exact h.reports
  · rw [hasked]
    exact h.asked
  · rw [hasked, hreports]
    exact h.answered

/-- A checkpoint write, whatever becomes of it. -/
theorem safe_write_noted (write : CheckpointWriteInput) (h : Noted pf config log [] l) :
    Proc.Safe Env.free Elsewhere (fun _ _ => True)
      (fun (_ : Except JsError (Option String)) l =>
        Noted pf config log [] l ∧ Written write.checkpoint.pages true l) l
      ((config.input pf).checkpointStore.write write) := by
  let Q : Conversation Text → Prop := fun l =>
    Noted pf config log [] l ∧ Written write.checkpoint.pages true l
  have hQ : ∀ l l', Q l → Elsewhere l l' → Q l' :=
    fun _ _ h hr => ⟨h.1.elsewhere hr, h.2.elsewhere hr⟩
  show Proc.Safe _ _ _ _ l ((config.store pf).marked.write write)
  unfold CheckpointStore.marked
  refine Async.safe_lift_bind (fun _ => Q) ?_ fun _ l h => ?_
  · refine Proc.safe_call (Noted pf config log []) (fun _ _ h hr => h.elsewhere hr)
      (fun l h r l' hr => ⟨trivial, Proc.safe_pure hQ ⟨h.mark hr, ?_⟩⟩) h
    have hwrites : writesOf l' = writesOf l ++ [write] := by
      rw [show l' = l ++ [⟨.mark (.writeCall write), r⟩] from hr, writesOf_append]
      rfl
    refine ⟨fun input hinput => ?_, fun _ hnil => ?_⟩
    · rw [hwrites, List.getLast?_concat] at hinput
      rw [← Option.some.inj hinput]
    · rw [hwrites] at hnil
      exact absurd hnil (by simp)
  · refine Async.safe_bind (fun _ => Q) ?_ fun etag l h => ?_
    · have hasks : Proc.Asks IsCheckpoint ((config.store pf).write write :
          Program Text (Except JsError (Option String))) := asks_writeCheckpoint write
      refine ((quiet_of_asks (fun _ => offLog_of_checkpoint) hasks Q hQ l h).weaken
        (fun _ _ h => h) (fun _ _ _ => trivial) ?_)
      rintro (error | etag) l h
      · exact h
      · exact h
    · refine Async.safe_lift_bind (fun _ => Q) ?_ fun _ l h => Proc.safe_pure hQ h
      refine Proc.safe_call Q hQ (fun l h r l' hr => ⟨trivial, Proc.safe_pure hQ ⟨h.1.mark hr, ?_⟩⟩) h
      have hwrites : writesOf l' = writesOf l := by
        rw [show l' = l ++ [⟨.mark (.writeAck write), r⟩] from hr, writesOf_append]
        exact List.append_nil _
      exact ⟨fun input hinput => h.2.pages input (hwrites ▸ hinput),
        fun hmust => hwrites ▸ h.2.written hmust⟩

/-- The checkpoint of a page. -/
theorem safe_writePageCheckpoint_noted (page : WritePageCheckpointInput)
    (h : Noted pf config log [] l) :
    Proc.Safe Env.free Elsewhere (fun _ _ => True)
      (Async.Outcome (fun _ l => Noted pf config log [] l ∧ Written page.pages true l)
        fun _ _ => True) l
      (writePageCheckpoint (config.input pf) page) := by
  have hQ : ∀ l l', (Noted pf config log [] l ∧ Written page.pages true l) → Elsewhere l l' →
      Noted pf config log [] l' ∧ Written page.pages true l' :=
    fun _ _ h hr => ⟨h.1.elsewhere hr, h.2.elsewhere hr⟩
  unfold writePageCheckpoint
  refine Async.safe_lift_bind
    (fun checkpoint l => Noted pf config log [] l ∧ checkpoint.pages = page.pages) ?_ ?_
  · refine Proc.safe_quiet_bind quiet_input.now (Noted pf config log [])
      (fun _ _ h hr => h.elsewhere hr) (fun now l h => ?_) h
    exact Proc.safe_pure (fun _ _ h hr => ⟨h.1.elsewhere hr, h.2⟩) ⟨h, rfl⟩
  · rintro checkpoint l ⟨h, hpages⟩
    refine Async.safe_tryCatch
      (fun _ l => Noted pf config log [] l ∧ Written page.pages true l) ?_ fun error l h => ?_
    · refine (safe_write_noted _ h).imp ?_
      rintro (error | etag) l h
      · exact ⟨h.1, hpages ▸ h.2⟩
      · exact ⟨h.1, hpages ▸ h.2⟩
    · exact Async.safe_lift_bind _ (quiet_input.log _ _ hQ l h) fun _ l h => Proc.safe_pure hQ h

/-- The checkpoint of a finished run. -/
theorem safe_writeFinalCheckpoint_noted (context : AssembleContext) (state : LoopState)
    (discoveredLastPage : ℕ) (h : Noted pf config log [] l) :
    Proc.Safe Env.free Elsewhere (fun _ _ => True)
      (Async.Outcome (fun _ l => Noted pf config log [] l ∧ Written state.pages true l)
        fun _ _ => True) l
      (writeFinalCheckpoint (config.input pf) context state discoveredLastPage) := by
  have hQ : ∀ l l', (Noted pf config log [] l ∧ Written state.pages true l) → Elsewhere l l' →
      Noted pf config log [] l' ∧ Written state.pages true l' :=
    fun _ _ h hr => ⟨h.1.elsewhere hr, h.2.elsewhere hr⟩
  unfold writeFinalCheckpoint
  refine Async.safe_lift_bind
    (fun checkpoint l => Noted pf config log [] l ∧ checkpoint.pages = state.pages) ?_ ?_
  · refine Proc.safe_quiet_bind quiet_input.now (Noted pf config log [])
      (fun _ _ h hr => h.elsewhere hr) (fun now l h => ?_) h
    exact Proc.safe_pure (fun _ _ h hr => ⟨h.1.elsewhere hr, h.2⟩) ⟨h, rfl⟩
  · rintro checkpoint l ⟨h, hpages⟩
    refine Async.safe_tryCatch
      (fun _ l => Noted pf config log [] l ∧ Written state.pages true l) ?_ fun error l h => ?_
    · refine Async.safe_bind
        (fun _ l => Noted pf config log [] l ∧ Written state.pages true l) ?_
        fun _ l h => Proc.safe_pure hQ h
      refine (safe_write_noted _ h).imp ?_
      rintro (error | etag) l h
      · exact ⟨h.1, hpages ▸ h.2⟩
      · exact ⟨h.1, hpages ▸ h.2⟩
    · exact Proc.safe_bind_of (quiet_input.log _ _ hQ l h) fun _ l h => Proc.safe_pure hQ h

end Parts

/-! ## The loop -/

section Loop

variable {Text : Type} (pf : Platform Text) (config : RunConfig) (before : ℕ)
  (resumed : JsRecord CheckpointPage)

/-- The loop's own state and the conversation agree with the log. -/
structure InLoop (log : List PageLog) (pending : List DiscoveryReport) (state : LoopState)
    (l : Conversation Text) : Prop where
  logged : Logged (pf.withoutUserinfo config.sourceUrl) before resumed log state
  noted : Noted pf config log pending l
  written : Written state.pages (log.any PageLog.fanned) l

/-- Before a page.  `goOn` is the log of the pages read, waiting for the rest. -/
structure AtTurn (cursor : LoopState × ℕ) (log : List PageLog) (l : Conversation Text) : Prop where
  inLoop : InLoop pf config before resumed log [] cursor.1 l
  page : cursor.2 = before + FIRST_PAGE + log.length
  fanned : log.countP PageLog.fanned = log.length
  goOn : ∀ entries reason, LoopLog config.maxPages cursor.2 entries reason →
    LoopLog config.maxPages (before + FIRST_PAGE) (log ++ entries) reason
  uncapped : cursor.1.reachedMaxPages = false

/-- The loop was left in `state`. -/
def LoopDone (state : LoopState) (l : Conversation Text) : Prop :=
  ∃ log reason, InLoop pf config before resumed log [] state l ∧
    LoopLog config.maxPages (before + FIRST_PAGE) log reason ∧
    state.reachedMaxPages = decide (reason = StopReason.cap)

/-- After a turn. -/
def Turned (x : (LoopState × ℕ) ⊕ LoopState) (l : Conversation Text) : Prop :=
  Sum.elim (fun cursor => ∃ log, AtTurn pf config before resumed cursor log l)
    (LoopDone pf config before resumed · l) x

variable {pf config before resumed} {log : List PageLog} {pending : List DiscoveryReport}
  {state : LoopState} {cursor : LoopState × ℕ} {l l' : Conversation Text}

theorem InLoop.elsewhere (h : InLoop pf config before resumed log pending state l)
    (hr : Elsewhere l l') : InLoop pf config before resumed log pending state l' :=
  ⟨h.logged, h.noted.elsewhere hr, h.written.elsewhere hr⟩

/-- Why the loop stopped is in no account. -/
theorem InLoop.stopped (h : InLoop pf config before resumed log pending state l)
    (reason : StopReason) :
    InLoop pf config before resumed log pending (ReplaysFetcher.stopped reason state) l :=
  ⟨⟨h.logged.report, h.logged.lastCompletedPage, h.logged.pages, h.logged.rawStorage,
    h.logged.staging⟩, h.noted, h.written⟩

/-- Nor is the throttle. -/
theorem InLoop.throttled (h : InLoop pf config before resumed log pending state l) (limit : ℕ)
    (throttle : ThrottleState) :
    InLoop pf config before resumed log pending { state with limit, throttle } l :=
  ⟨⟨h.logged.report, h.logged.lastCompletedPage, h.logged.pages, h.logged.rawStorage,
    h.logged.staging⟩, h.noted, h.written⟩

theorem AtTurn.elsewhere (h : AtTurn pf config before resumed cursor log l)
    (hr : Elsewhere l l') : AtTurn pf config before resumed cursor log l' :=
  ⟨h.inLoop.elsewhere hr, h.page, h.fanned, h.goOn, h.uncapped⟩

theorem LoopDone.elsewhere (h : LoopDone pf config before resumed state l)
    (hr : Elsewhere l l') : LoopDone pf config before resumed state l' := by
  obtain ⟨log, reason, hloop, hrest⟩ := h
  exact ⟨log, reason, hloop.elsewhere hr, hrest⟩

/-- A page that was not fanned out enters the log. -/
theorem InLoop.skip {report : DiscoveryReport}
    (h : InLoop pf config before resumed log [report] state l)
    (hnot : (⟨report, []⟩ : PageLog).fanned = false) :
    InLoop pf config before resumed (log ++ [⟨report, []⟩]) []
      { state with discoveryReport := appendDiscoveryReport state.discoveryReport report } l := by
  refine ⟨h.logged.enter _ rfl (by rw [hnot]; rfl) ?_ (List.append_nil _).symm
    (List.append_nil _).symm, h.noted.enter ?_, ?_⟩
  · unfold PageLog.enter
    rw [hnot]
    rfl
  · refine ⟨fun _ => rfl, fun hok => ?_⟩
    unfold PageLog.fanned at hnot
    rw [hok, Bool.true_and, Bool.not_eq_false', List.isEmpty_iff] at hnot
    rw [hnot]
    exact .nil
  · rw [List.any_append, List.any_cons, List.any_nil, hnot, Bool.or_false, Bool.or_false]
    exact h.written

/-- The state after a page's fan-out, with the outcomes in the log. -/
theorem InLoop.fanOut {report : DiscoveryReport} {settled : List SettledCandidate}
    (h : InLoop pf config before resumed log [report] state l) (hok : report.ok = true)
    (hne : report.candidates ≠ [])
    (hsettled : List.Forall₂ (CandidateSettled pf config l) report.candidates settled)
    (hfanned : log.countP PageLog.fanned = log.length) (now : Date) (throttle : ThrottleState)
    (limit : ℕ) (etag : Option String) :
    Logged (pf.withoutUserinfo config.sourceUrl) before resumed (log ++ [⟨report, settled⟩])
      { recordPage
          { state with
            discoveryReport := appendDiscoveryReport state.discoveryReport report, throttle, limit }
          (before + FIRST_PAGE + log.length) (tallyPage settled) now with
        etag, lastCompletedPage := before + FIRST_PAGE + log.length } ∧
    Noted pf config (log ++ [⟨report, settled⟩]) [] l ∧
    (⟨report, settled⟩ : PageLog).fanned = true := by
  have hentry : (⟨report, settled⟩ : PageLog).fanned = true := by
    unfold PageLog.fanned
    rw [hok, Bool.true_and, Bool.not_eq_true', List.isEmpty_eq_false_iff]
    exact hne
  refine ⟨h.logged.enter _ rfl ?_ ?_ rfl rfl, h.noted.enter ⟨fun hnot => ?_, fun _ => hsettled⟩,
    hentry⟩
  · rw [hentry, if_pos rfl]
    show before + FIRST_PAGE + log.length = state.lastCompletedPage + 1
    rw [h.logged.lastCompletedPage, hfanned]
    show before + 1 + log.length = before + log.length + 1
    omega
  · unfold PageLog.enter
    rw [hentry]
    rfl
  · rw [hok] at hnot
    cases hnot

/-- A page that stops the loop before its fan-out. -/
theorem AtTurn.skipped (h : AtTurn pf config before resumed cursor log l) {report : DiscoveryReport}
    {reason : StopReason} {l' : Conversation Text} {state : LoopState}
    (hcap : capped config.maxPages cursor.2 = false)
    (hstop : (⟨report, []⟩ : PageLog).stop = some reason)
    (hstate : InLoop pf config before resumed (log ++ [⟨report, []⟩]) [] state l') :
    LoopDone pf config before resumed (stopped reason state) l' :=
  ⟨_, reason, hstate.stopped reason, h.goOn _ _ (.stop hcap hstop), rfl⟩

/-- A fanned-out page: the loop stops, or goes on with one page more in the log. -/
theorem safe_completeOkPage_noted {report : DiscoveryReport} {context : AssembleContext}
    (hok : report.ok = true) (hne : report.candidates ≠ [])
    (hfanned : log.countP PageLog.fanned = log.length)
    (hcap : state.reachedMaxPages = false)
    (h : InLoop pf config before resumed log [report] state l) :
    Proc.Safe Env.free Elsewhere (fun _ _ => True)
      (Async.Outcome (fun x l => ∃ settled, x.2 = (tallyPage settled).counts ∧
        InLoop pf config before resumed (log ++ [⟨report, settled⟩]) [] x.1 l ∧
        (⟨report, settled⟩ : PageLog).fanned = true ∧ x.1.reachedMaxPages = false)
        fun _ _ => True) l
      (completeOkPage (config.input pf) context (before + FIRST_PAGE + log.length) report.candidates
        { state with
          discoveryReport := appendDiscoveryReport state.discoveryReport report }) := by
  have hstable : ∀ l l', InLoop pf config before resumed log [report] state l → Elsewhere l l' →
      InLoop pf config before resumed log [report] state l' := fun _ _ h hr => h.elsewhere hr
  unfold completeOkPage
  refine Async.safe_lift_bind (fun _ => InLoop pf config before resumed log [report] state)
    (quiet_input.now _ hstable l h) fun throttledAt l h => ?_
  refine Async.safe_bind _ (safe_ingestPage_settled _ _ hstable h) ?_
  rintro result l ⟨h, settled, rfl, hsettled⟩
  let Q : Conversation Text → Prop := fun l =>
    InLoop pf config before resumed log [report] state l ∧
      List.Forall₂ (CandidateSettled pf config l) report.candidates settled
  have hQ : ∀ l l', Q l → Elsewhere l l' → Q l' :=
    fun _ _ h hr => ⟨h.1.elsewhere hr, h.2.imp fun _ _ h => h.elsewhere hr⟩
  refine Async.safe_lift_bind (fun _ => Q) (quiet_input.now _ hQ l ⟨h, hsettled⟩)
    fun completedAt l h => ?_
  refine Async.safe_lift_bind (fun _ => Q) (quiet_input.log _ _ hQ l h) fun _ l h => ?_
  obtain ⟨h, hsettled⟩ := h
  have hdone := fun etag => h.fanOut hok hne hsettled hfanned completedAt
    (onCleanWindow (throttleOptions (config.input pf)) state.throttle throttledAt)
    (onCleanWindow (throttleOptions (config.input pf)) state.throttle throttledAt).concurrency etag
  refine Async.safe_bind _ (safe_writePageCheckpoint_noted _ (hdone none).2.1) ?_
  rintro etag l ⟨hnoted, hwritten⟩
  have hloop : InLoop pf config before resumed (log ++ [⟨report, settled⟩]) [] _ l :=
    ⟨(hdone etag).1, hnoted, hwritten.weaken _⟩
  refine Proc.safe_pure (fun l l' h hr => ?_) ⟨settled, rfl, hloop, (hdone etag).2.2, hcap⟩
  obtain ⟨settled, hcounts, hloop, hrest⟩ := h
  exact ⟨settled, hcounts, hloop.elsewhere hr, hrest⟩

/-- One turn of the loop. -/
theorem safe_turn {context : AssembleContext} (h : AtTurn pf config before resumed cursor log l) :
    Proc.Safe Env.free Elsewhere (fun _ _ => True)
      (Async.Outcome (Turned pf config before resumed) fun _ _ => True) l
      (pageIteration pf (config.input pf) context cursor) := by
  obtain ⟨state, page⟩ := cursor
  have hpage : page = before + FIRST_PAGE + log.length := h.page
  unfold pageIteration
  dsimp only
  split
  case isTrue hcap =>
    refine Proc.safe_pure (fun _ _ h hr => LoopDone.elsewhere h hr)
      ⟨log, .cap, h.inLoop.stopped .cap, ?_, rfl⟩
    · have hlog := h.goOn [] .cap (.cap hcap)
      rwa [List.append_nil] at hlog
  case isFalse hcap =>
    replace hcap : capped config.maxPages page = false := eq_false_of_ne_true hcap
    have hstable : ∀ l l', AtTurn pf config before resumed (state, page) log l → Elsewhere l l' →
        AtTurn pf config before resumed (state, page) log l' := fun _ _ h hr => h.elsewhere hr
    refine Async.safe_lift_bind (fun _ => AtTurn pf config before resumed (state, page) log)
      (quiet_input.awaitFloor _ hstable l h) fun _ l h => ?_
    -- the list request enters the conversation, its report is pending
    refine Async.safe_bind (fun report l => InLoop pf config before resumed log [report] state l) ?_
      fun report l hloop => ?_
    · refine Proc.safe_call _ hstable (fun l h r l' hr => ⟨trivial, ?_⟩) h
      have hl : l' = l ++ [⟨.discoverReplays (discoverInput pf (config.input pf) page), r⟩] := hr
      refine Proc.safe_pure (fun _ _ => Async.outcome_stable
        (fun report l l' (h : InLoop pf config before resumed log [report] state l) hr =>
          h.elsewhere hr) (fun _ _ _ _ _ => trivial) _ _ _) ?_
      cases r with
      | error error => trivial
      | ok report =>
        have hwrites : writesOf l' = writesOf l := by
          rw [hl, writesOf_append]
          exact List.append_nil _
        refine ⟨h.inLoop.logged, ⟨?_, fun entry hentry => ?_, ?_, ?_⟩,
          fun input hinput => ?_, fun hmust => ?_⟩
        · rw [hl, reportsOf_append, h.inLoop.noted.reports, List.append_nil]
          rfl
        · rw [hl]
          exact (h.inLoop.noted.faithful entry hentry).mono
        · intro input hinput
          rw [hl, askedOf_append] at hinput
          rcases List.mem_append.1 hinput with hinput | hinput
          · exact h.inLoop.noted.asked input hinput
          · rw [List.mem_singleton.1 hinput]
            exact ⟨rfl, rfl, page, rfl⟩
        · rw [hl, askedOf_append, reportsOf_append, List.length_append, List.length_append,
            h.inLoop.noted.answered]
          rfl
        · exact h.inLoop.written.pages input (hwrites ▸ hinput)
        · rw [hwrites]
          exact h.inLoop.written.written hmust
    · by_cases hreport : report.ok = false
      · -- the page could not be read
        have hentry : (⟨report, []⟩ : PageLog).fanned = false := by
          unfold PageLog.fanned
          rw [hreport, Bool.false_and]
        have hstop : (⟨report, []⟩ : PageLog).stop = some .pageFailed := by
          unfold PageLog.stop
          rw [if_pos hreport]
        rw [if_pos hreport]
        have hskip := hloop.skip hentry
        refine Async.safe_lift_bind
          (fun state l => InLoop pf config before resumed (log ++ [⟨report, []⟩]) [] state l) ?_
          fun state' l hstate => ?_
        · unfold applyRateLimitThrottle
          split
          · refine Proc.safe_quiet_bind quiet_input.now _ (fun _ _ h hr => InLoop.elsewhere h hr)
              (fun now l hskip => Proc.safe_pure (fun _ _ h hr => InLoop.elsewhere h hr) ?_) hskip
            exact InLoop.throttled hskip _ _
          · exact Proc.safe_pure (fun _ _ h hr => InLoop.elsewhere h hr) hskip
        · refine Async.safe_lift_bind
            (fun _ l => InLoop pf config before resumed (log ++ [⟨report, []⟩]) [] state' l) ?_
            fun _ l hstate => ?_
          · unfold emitPageFailureEvent
            split
            · exact Proc.safe_pure (fun _ _ h hr => InLoop.elsewhere h hr) hstate
            · exact quiet_input.log _ _ (fun _ _ h hr => InLoop.elsewhere h hr) l hstate
          · exact Proc.safe_pure (fun _ _ h hr => LoopDone.elsewhere h hr)
              (h.skipped hcap hstop hstate)
      · have hok : report.ok = true := eq_true_of_ne_false hreport
        rw [if_neg hreport]
        by_cases hempty : report.candidates = []
        · -- the end of the corpus
          have hentry : (⟨report, []⟩ : PageLog).fanned = false := by
            unfold PageLog.fanned
            rw [hempty, List.isEmpty_nil, Bool.not_true, Bool.and_false]
          have hstop : (⟨report, []⟩ : PageLog).stop = some .empty := by
            unfold PageLog.stop
            rw [if_neg hreport, if_pos hempty]
          rw [if_pos hempty]
          exact Proc.safe_pure (fun _ _ h hr => LoopDone.elsewhere h hr)
            (h.skipped hcap hstop (hloop.skip hentry))
        · rw [if_neg hempty]
          subst hpage
          refine Async.safe_bind _
            (safe_completeOkPage_noted hok hempty h.fanned h.uncapped hloop) ?_
          rintro ⟨state', counts⟩ l ⟨settled, hcounts, hloop', hfanned, huncapped⟩
          dsimp only at hcounts
          subst hcounts
          by_cases hdup : isAllDuplicate (tallyPage settled).counts = true
          · -- nothing new on this page
            have hstop : (⟨report, settled⟩ : PageLog).stop = some .allDuplicate := by
              unfold PageLog.stop
              rw [if_neg hreport, if_neg hempty]
              exact if_pos hdup
            rw [if_pos hdup]
            refine Proc.safe_pure (fun _ _ h hr => LoopDone.elsewhere h hr)
              ⟨_, .allDuplicate, hloop'.stopped .allDuplicate, h.goOn _ _ (.stop hcap hstop), rfl⟩
          · have hstop : (⟨report, settled⟩ : PageLog).stop = none := by
              unfold PageLog.stop
              rw [if_neg hreport, if_neg hempty]
              exact if_neg hdup
            rw [if_neg hdup]
            refine Proc.safe_pure (fun l l' h hr => ?_)
              ⟨log ++ [⟨report, settled⟩], hloop', ?_, ?_, fun entries reason hlog => ?_, huncapped⟩
            · obtain ⟨log, h⟩ := h
              exact ⟨log, h.elsewhere hr⟩
            · rw [List.length_append, List.length_singleton]
              rfl
            · rw [List.countP_append, List.countP_singleton, hfanned, if_pos rfl, h.fanned,
                List.length_append, List.length_singleton]
            · rw [List.append_assoc]
              exact h.goOn _ _ (.next hcap hstop hlog)

end Loop

/-! ## The run -/

section Run

variable {Text : Type}

/-- A run that resolved, explained by its log. -/
structure RanWith (pf : Platform Text) (config : RunConfig) (l : Conversation Text)
    (result : RunOnceResult) (read : CheckpointReadResult) (log : List PageLog)
    (reason : StopReason) : Prop where
  /-- where it resumed is what the checkpoint read said -/
  resumed : ∃ sub, Emits ((config.store pf).read (pf.withoutUserinfo config.sourceUrl)) sub (.ok read) ∧
    sub.Sublist l
  loop : LoopLog config.maxPages (resumeStateOf read).startPage log reason
  reports : reportsOf l = log.map PageLog.report
  faithful : ∀ entry ∈ log, entry.Faithful pf config l
  asked : ∀ input ∈ askedOf l, ListRequest pf config input
  answered : (askedOf l).length = (reportsOf l).length
  written : Written (pagesAfter (resumeStateOf read).startPage log (resumeStateOf read).pages)
    (log.any PageLog.fanned) l
  assembled : ∃ context state finishedAt,
    Logged (pf.withoutUserinfo config.sourceUrl) ((resumeStateOf read).startPage - FIRST_PAGE)
      (resumeStateOf read).pages log state ∧
    state.reachedMaxPages = decide (reason = .cap) ∧
    result.summary = finalSummary config.runId context state finishedAt ∧
    result.exitCode = runExitCode result.summary.ok result.summary.status

variable {pf : Platform Text} {config : RunConfig} {l l' : Conversation Text}

theorem startPage_resumeStateOf (read : CheckpointReadResult) :
    (resumeStateOf read).startPage - FIRST_PAGE + FIRST_PAGE = (resumeStateOf read).startPage := by
  unfold resumeStateOf
  split
  · rfl
  · split
    · rfl
    · rfl

/-- The report of a run, with the log that explains it. -/
theorem safe_assembleResult_noted {context : AssembleContext} {state : LoopState} {before : ℕ}
    {resumed : JsRecord CheckpointPage} (h : LoopDone pf config before resumed state l) :
    Proc.Safe Env.free Elsewhere (fun _ _ => True)
      (Async.Outcome (fun (result : RunOnceResult) l => ∃ log reason finishedAt,
        InLoop pf config before resumed log [] state l ∧
        LoopLog config.maxPages (before + FIRST_PAGE) log reason ∧
        state.reachedMaxPages = decide (reason = StopReason.cap) ∧
        result.summary = finalSummary config.runId context state finishedAt ∧
        result.exitCode = runExitCode result.summary.ok result.summary.status) fun _ _ => True) l
      (assembleResult (config.input pf) context state) := by
  obtain ⟨log, reason, hloop, hlog, hcap⟩ := h
  let Q : Conversation Text → Prop := InLoop pf config before resumed log [] state
  have hQ : ∀ l l', Q l → Elsewhere l l' → Q l' := fun _ _ h hr => h.elsewhere hr
  unfold assembleResult
  refine Async.safe_bind (fun _ => Q) ?_ fun _ l h => ?_
  · split
    · refine (safe_writeFinalCheckpoint_noted context state _ hloop.noted).imp ?_
      rintro (error | u) l h
      · trivial
      · exact ⟨hloop.logged, h.1, h.2.weaken _⟩
    · exact Proc.safe_pure hQ hloop
  · refine Async.safe_lift_bind (fun _ => Q) (quiet_input.now _ hQ l h) fun finishedAt l h => ?_
    refine Async.safe_lift_bind (fun _ => Q) (quiet_input.log _ _ hQ l h) fun _ l h => ?_
    refine Async.safe_bind (fun _ => Q) ((quiet_input.safe_writeEvidence _ hQ h).imp ?_)
      fun _ l h => ?_
    · rintro (error | u) l h
      · exact h.elim
      · exact h
    · refine Proc.safe_pure (fun l l' h hr => ?_) ⟨log, reason, finishedAt, h, hlog, hcap, rfl, rfl⟩
      obtain ⟨log, reason, finishedAt, hloop, hrest⟩ := h
      exact ⟨log, reason, finishedAt, hloop.elsewhere hr, hrest⟩

/-- **A run is explained by its log**, whatever the services answer. -/
theorem runOnce_ranWith {result : RunOnceResult} (h : Emits (config.markedRun pf) l (.ok result)) :
    ∃ read log reason, RanWith pf config l result read log reason := by
  suffices hsafe : Proc.Safe Env.free Elsewhere (fun _ _ => True)
      (Async.Outcome (fun result l => ∃ read log reason, RanWith pf config l result read log reason)
        fun _ _ => True) [] (config.markedRun pf) from
    Proc.Safe.of_run (hsafe.weaken (fun l l' (hr : Lts.Alone l l') => hr ▸ elsewhere_refl l)
      (fun _ _ h => h) fun _ _ h => h) h
  -- before the first list request nothing is on the log
  let Q : Conversation Text → Prop := fun l => reportsOf l = [] ∧ askedOf l = [] ∧ writesOf l = []
  have hQ : ∀ l l', Q l → Elsewhere l l' → Q l' := by
    rintro l l' ⟨hreports, hasked, hwrites⟩ ⟨more, rfl, hmore⟩
    refine ⟨?_, ?_, ?_⟩
    · rw [reportsOf_append, hreports, reportsOf_offLog hmore]
      rfl
    · rw [askedOf_append, hasked, askedOf_offLog hmore]
      rfl
    · rw [writesOf_append, hwrites, writesOf_offLog hmore]
      rfl
  let Read : CheckpointReadResult → Conversation Text → Prop := fun read l => Q l ∧ ∃ sub,
    Emits ((config.store pf).read (pf.withoutUserinfo config.sourceUrl)) sub (.ok read) ∧
      sub.Sublist l
  have hRead : ∀ read l l', Read read l → Elsewhere l l' → Read read l' := by
    rintro read l l' ⟨h, sub, hemits, hsub⟩ hr
    exact ⟨hQ l l' h hr, sub, hemits, hsub.trans (sublist_of_elsewhere l l' hr)⟩
  unfold RunConfig.markedRun runOnce
  refine Async.safe_lift_bind (fun _ => Q) (quiet_input.now _ hQ [] ⟨rfl, rfl, rfl⟩) fun startedAt l h => ?_
  refine Async.safe_lift_bind (fun _ => Q) (quiet_input.log _ _ hQ l h) fun _ l h => ?_
  refine Async.safe_bind (fun resumeState l => ∃ read, resumeState = resumeStateOf read ∧ Read read l)
    ?_ ?_
  · unfold resolveResumeState
    refine Async.safe_bind Read ?_ fun read l h => ?_
    · have hasks : Proc.Asks IsCheckpoint (readCheckpoint pf config.checkpointOptions
          (pf.withoutUserinfo config.sourceUrl) : Program Text (Except JsError CheckpointReadResult)) :=
        asks_readCheckpoint
      have hquiet := quiet_of_asks (fun _ => offLog_of_checkpoint) hasks Q hQ l h
      refine ((hquiet.and (Proc.safe_emits_free sublist_of_elsewhere l _)).weaken
        (fun _ _ h => h) (fun _ _ _ => trivial) ?_)
      rintro (error | read) l ⟨h, hemits⟩
      · trivial
      · exact ⟨h, hemits⟩
    · have hstable : ∀ l l', (∃ read', resumeStateOf read = resumeStateOf read' ∧ Read read' l) →
          Elsewhere l l' → ∃ read', resumeStateOf read = resumeStateOf read' ∧ Read read' l' := by
        rintro l l' ⟨read', hstate, h⟩ hr
        exact ⟨read', hstate, hRead read' l l' h hr⟩
      split
      · exact Proc.safe_pure hstable ⟨read, rfl, h⟩
      · exact Async.safe_lift_bind (fun _ => Read read) (quiet_input.log _ _ (hRead read) l h)
          fun _ l h => Proc.safe_pure hstable ⟨read, rfl, h⟩
  · rintro resumeState l ⟨read, rfl, ⟨hreports, hasked, hwrites⟩, sub, hemits, hsub⟩
    -- the loop and the report, over a conversation that keeps what was read
    have hstart : AtTurn pf config ((resumeStateOf read).startPage - FIRST_PAGE)
        (resumeStateOf read).pages
        (loopStateOf (config.input pf) (pf.withoutUserinfo config.sourceUrl) (resumeStateOf read),
          (resumeStateOf read).startPage - FIRST_PAGE + FIRST_PAGE) [] l := by
      refine ⟨⟨⟨rfl, rfl, rfl, rfl, rfl⟩, ⟨hreports, fun entry h => absurd h List.not_mem_nil,
        fun input h => by rw [hasked] at h; exact absurd h List.not_mem_nil,
        by rw [hreports, hasked]; rfl⟩,
        fun input hinput => ?_, fun hmust => by cases hmust⟩, rfl, rfl, fun _ _ h => h, rfl⟩
      rw [hwrites] at hinput
      cases hinput
    have hrun : Proc.Safe Env.free Elsewhere (fun _ _ => True) (Async.Outcome
        (fun (result : RunOnceResult) l => ∃ state log reason finishedAt,
          InLoop pf config ((resumeStateOf read).startPage - FIRST_PAGE) (resumeStateOf read).pages
            log [] state l ∧
          LoopLog config.maxPages ((resumeStateOf read).startPage - FIRST_PAGE + FIRST_PAGE) log
            reason ∧
          state.reachedMaxPages = decide (reason = StopReason.cap) ∧
          result.summary = finalSummary config.runId
            { slug := pf.withoutUserinfo config.sourceUrl, startedAt := toISOString startedAt }
            state finishedAt ∧
          result.exitCode = runExitCode result.summary.ok result.summary.status) fun _ _ => True) l
        (runFrom pf (config.input pf)
          { slug := pf.withoutUserinfo config.sourceUrl, startedAt := toISOString startedAt }
          (resumeStateOf read)) := by
      unfold runFrom
      refine Async.safe_bind (LoopDone pf config ((resumeStateOf read).startPage - FIRST_PAGE)
        (resumeStateOf read).pages) ?_ fun state l hdone => ?_
      · refine Async.safe_iterate (fun cursor l => ∃ log, AtTurn pf config
          ((resumeStateOf read).startPage - FIRST_PAGE) (resumeStateOf read).pages cursor log l)
          (fun _ => trivial) ?_ ?_ ?_ ⟨[], hstart⟩
        · rintro cursor l l' ⟨log, h⟩ hr
          exact ⟨log, h.elsewhere hr⟩
        · rintro (error | state) l l' h hr
          · trivial
          · exact LoopDone.elsewhere h hr
        · rintro cursor l ⟨log, h⟩
          exact safe_turn h
      · refine (safe_assembleResult_noted hdone).imp ?_
        rintro (error | result) l h
        · trivial
        · obtain ⟨log, reason, finishedAt, h⟩ := h
          exact ⟨state, log, reason, finishedAt, h⟩
    refine (hrun.and (Proc.safe_free_sublist sublist_of_elsewhere l _)).weaken (fun _ _ h => h)
      (fun _ _ _ => trivial) ?_
    rintro (error | result) l' ⟨h, hgrows⟩
    · trivial
    · obtain ⟨state, log, reason, finishedAt, hloop, hlog, hcap, hsummary, hexit⟩ := h
      rw [startPage_resumeStateOf] at hlog
      refine ⟨read, log, reason, ⟨sub, hemits, hsub.trans hgrows⟩, hlog, ?_, hloop.noted.faithful,
        hloop.noted.asked, hloop.noted.answered, ?_,
        _, state, finishedAt, hloop.logged, hcap, hsummary, hexit⟩
      · rw [hloop.noted.reports, List.append_nil]
      · have hwritten := hloop.written
        rw [hloop.logged.pages, startPage_resumeStateOf] at hwritten
        exact hwritten

end Run

end ReplaysFetcher
