/-
  The results a run collects, and what may be said of them when it is over.

  A run and a cycle of the watcher hand out the raw results and the staging results of all their
  candidates.  When a result comes in, something is known of the stores: an object is there, a row
  is there.  The rules of this module carry such facts from the candidate to the summary.

  1. `ResultRule`: an invariant `J` of the world, a fact `A` for each raw result and a fact `B` for
     each staging result, none of which any component can undo.
  2. `safe_ingestPage_results`: if every candidate's task ends with its facts, the page ends with
     the facts of all results it has tallied.
  3. `safe_runOnce_results`, `safe_runCycle_results`, `safe_runWatchLoop_keeps`: nothing else a run
     or a watcher does touches the two lists, so their summaries end with the facts too.
-/
import ReplaysFetcher.RunOnceRules
import ReplaysFetcher.Accounting
import ReplaysFetcher.Watch

namespace ReplaysFetcher

open Effectful

variable {Text : Type} {W E : Type} {R : E → Type}

/-! ## Facts that last -/

/-- What the results of a run tell about the world. -/
structure ResultRule (W : Type) where
  /-- holds all the time -/
  J : W → Prop
  /-- of a raw result -/
  A : StoreRawReplayResult → W → Prop
  /-- of a staging result -/
  B : IngestStagingResult → W → Prop
  /-- of the candidates of a page that could be read -/
  found : List ReplayCandidate → Prop := fun _ => True

namespace ResultRule

variable (rule : ResultRule W) {rely : W → W → Prop}

/-- No step that others may take undoes a fact. -/
structure Lasts (rely : W → W → Prop) : Prop where
  refl : ∀ w, rely w w
  J : ∀ w w', rule.J w → rely w w' → rule.J w'
  A : ∀ result w w', rule.A result w → rely w w' → rule.A result w'
  B : ∀ result w w', rule.B result w → rely w w' → rule.B result w'

/-- The facts of the two lists. -/
structure Told (rawStorage : List StoreRawReplayResult) (staging : List IngestStagingResult)
    (w : W) : Prop where
  always : rule.J w
  raw : ∀ result ∈ rawStorage, rule.A result w
  staged : ∀ result ∈ staging, rule.B result w

/-- The facts of one candidate that was settled. -/
def Settled : SettledCandidate → W → Prop
  | .processed rawResult stagingResult, w => rule.A rawResult w ∧ rule.B stagingResult w
  | .skipped, _ => True

/-- What a task of a page ends with. -/
def Ended (v : Except JsError SettledCandidate) (w : W) : Prop :=
  rule.J w ∧ ∀ settled, v = .ok settled → rule.Settled settled w

variable {rule}

theorem Lasts.told (h : rule.Lasts rely) {rawStorage : List StoreRawReplayResult}
    {staging : List IngestStagingResult} {w w' : W} (hw : rule.Told rawStorage staging w)
    (hr : rely w w') : rule.Told rawStorage staging w' where
  always := h.J _ _ hw.always hr
  raw result hmem := h.A _ _ _ (hw.raw result hmem) hr
  staged result hmem := h.B _ _ _ (hw.staged result hmem) hr

theorem Lasts.ended (h : rule.Lasts rely) {v : Except JsError SettledCandidate} {w w' : W}
    (hw : rule.Ended v w) (hr : rely w w') : rule.Ended v w' := by
  refine ⟨h.J _ _ hw.1 hr, fun settled hsettled => ?_⟩
  have hfacts := hw.2 settled hsettled
  cases settled with
  | processed rawResult stagingResult =>
    exact ⟨h.A _ _ _ hfacts.1 hr, h.B _ _ _ hfacts.2 hr⟩
  | skipped => trivial

theorem told_nil {w : W} (hw : rule.J w) : rule.Told [] [] w :=
  ⟨hw, fun _ hmem => absurd hmem List.not_mem_nil, fun _ hmem => absurd hmem List.not_mem_nil⟩

theorem Told.append {rawStorage more : List StoreRawReplayResult}
    {staging moreStaging : List IngestStagingResult} {w : W} (h : rule.Told rawStorage staging w)
    (h' : rule.Told more moreStaging w) :
    rule.Told (rawStorage ++ more) (staging ++ moreStaging) w where
  always := h.always
  raw result hmem := (List.mem_append.1 hmem).elim (h.raw result) (h'.raw result)
  staged result hmem := (List.mem_append.1 hmem).elim (h.staged result) (h'.staged result)

/-- The tally of a page tells what its candidates do. -/
theorem told_tallyPage {settled : List SettledCandidate} {w : W} (hw : rule.J w)
    (h : ∀ s ∈ settled, rule.Settled s w) :
    rule.Told (tallyPage settled).rawStorage (tallyPage settled).staging w := by
  rw [(results_tallyPage settled).1, (results_tallyPage settled).2]
  refine ⟨hw, fun result hmem => ?_, fun result hmem => ?_⟩
  · obtain ⟨s, hs, hsome⟩ := List.mem_filterMap.1 hmem
    have hfacts := h s hs
    cases s with
    | processed rawResult stagingResult =>
      obtain rfl := Option.some.inj hsome
      exact hfacts.1
    | skipped => cases hsome
  · obtain ⟨s, hs, hsome⟩ := List.mem_filterMap.1 hmem
    have hfacts := h s hs
    cases s with
    | processed rawResult stagingResult =>
      obtain rfl := Option.some.inj hsome
      exact hfacts.2
    | skipped => cases hsome

end ResultRule

/-! ## A page -/

section Page

variable {env : Env W E R} {rely : W → W → Prop} {rule : ResultRule W} {w : W}

/-- **The fan-out**, among any others: the facts of the candidates become the facts of the page. -/
theorem safe_ingestPage_results (hlasts : rule.Lasts rely) {input : IngestPageInput E R}
    (htask : ∀ candidate ∈ input.candidates, ∀ w, rule.J w →
      Proc.Safe env rely rely rule.Ended w (ingestCandidate input candidate)) (hw : rule.J w) :
    Proc.Safe env rely rely
      (Async.Outcome (fun result => rule.Told result.rawStorage result.staging) fun _ => rule.J) w
      (ingestPage input) := by
  have hstable := Async.outcome_stable
    (fun (result : IngestPageResult) w w' (h : rule.Told result.rawStorage result.staging w)
      (hr : rely w w') => hlasts.told h hr)
    (fun (_ : JsError) w w' (h : rule.J w) (hr : rely w w') => hlasts.J w w' h hr)
  rw [ingestPage_eq]
  have htasks : ∀ i, Proc.Safe env rely rely rule.Ended w
      (ingestCandidate input (input.candidates.get i)) :=
    fun i => htask _ (List.get_mem _ i) w hw
  refine Proc.safe_fan rule.J ?_ ?_ ?_ hlasts.refl hlasts.J (fun _ => hlasts.J) htasks
    (fun settled w hw hsettled => ?_) hw
  · exact fun _ _ _ _ _ h => h
  · exact fun _ _ _ h => h
  · exact fun _ _ _ h => h
  refine Proc.safe_pure (hstable _) ?_
  cases houtcome : pageOutcome settled with
  | error error => exact hw
  | ok result =>
    obtain ⟨values, hvalues, rfl⟩ := pageOutcome_eq_ok.1 houtcome
    refine ResultRule.told_tallyPage hw fun s hs => ?_
    obtain ⟨i, rfl⟩ := List.mem_ofFn.1 hs
    exact (hsettled i).2 _ (hvalues i)

end Page

/-! ## A run -/

section Run

variable {env : Env W E R} {rely : W → W → Prop} {rule : ResultRule W} {pf : Platform Text}
  {input : RunOnceInput E R} {context : AssembleContext} {w : W}

/-- What a run depends on, when all that matters is its results: the dependencies that have none are
    not noticed, and a page's fan-out ends with the facts of its results. -/
structure RunResults (env : Env W E R) (rely : W → W → Prop) (rule : ResultRule W)
    (pf : Platform Text) (input : RunOnceInput E R) : Prop where
  lasts : rule.Lasts rely
  quiet : RunSpec.Quiet env rely rely input
  read : ∀ slug, Proc.Quiet env rely rely (input.checkpointStore.read slug)
  write : ∀ write, Proc.Quiet env rely rely (input.checkpointStore.write write)
  discover : ∀ page w, rule.J w → Proc.Safe env rely rely
    (Async.Outcome (fun report w => rule.J w ∧ (report.ok = true → rule.found report.candidates))
      fun _ => rule.J) w (input.discoverReplays (discoverInput pf input page))
  ingest : ∀ state candidates w, rule.found candidates → rule.J w → Proc.Safe env rely rely
    (Async.Outcome (fun result => rule.Told result.rawStorage result.staging) fun _ => rule.J) w
    (ingestPage (ingestInput input state candidates))

/-- The results the loop has collected are told. -/
def ResultRule.InLoop (rule : ResultRule W) (state : LoopState) (w : W) : Prop :=
  rule.Told state.rawStorage state.staging w

theorem RunResults.stable (h : RunResults env rely rule pf input) (state : LoopState) :
    ∀ w w', rule.InLoop state w → rely w w' → rule.InLoop state w' :=
  fun _ _ hw hr => h.lasts.told hw hr

/-- A dependency whose answer is not looked at. -/
theorem RunResults.outcome {α : Type} {p : Async E R JsError α} {P : W → Prop}
    (hp : Proc.Quiet env rely rely p) (hP : ∀ w w', P w → rely w w' → P w')
    (hJ : ∀ w, P w → rule.J w) (hw : P w) :
    Proc.Safe env rely rely (Async.Outcome (fun _ => P) fun _ => rule.J) w p := by
  refine (hp P hP w hw).imp ?_
  rintro (error | a) w hw
  · exact hJ w hw
  · exact hw

theorem RunResults.safe_writePageCheckpoint (h : RunResults env rely rule pf input)
    (page : WritePageCheckpointInput) {state : LoopState} (hw : rule.InLoop state w) :
    Proc.Safe env rely rely (Async.Outcome (fun _ => rule.InLoop state) fun _ => rule.J) w
      (writePageCheckpoint input page) := by
  have hstate := h.stable state
  unfold writePageCheckpoint buildCheckpoint
  refine Async.safe_lift_bind (fun _ => rule.InLoop state) ?_ fun checkpoint w hw => ?_
  · exact Proc.safe_quiet_bind h.quiet.now _ hstate (fun now w hw => Proc.safe_pure hstate hw) hw
  · refine Async.safe_tryCatch (fun _ => rule.InLoop state)
      ((h.write _ _ hstate w hw).imp ?_) fun error w hw => ?_
    · rintro (error | etag) w hw
      · exact hw
      · exact hw
    · exact Async.safe_lift_bind (fun _ => rule.InLoop state) (h.quiet.log _ _ hstate w hw)
        fun _ w hw => Proc.safe_pure hstate hw

/-- A page that was read, once the throttle is set. -/
theorem RunResults.safe_fannedOut (h : RunResults env rely rule pf input) {page : ℕ}
    {candidates : List ReplayCandidate} (hfound : rule.found candidates) {state : LoopState}
    (hw : rule.InLoop state w) :
    Proc.Safe env rely rely (Async.Outcome (fun x => rule.InLoop x.1) fun _ => rule.J) w (do
      let result ← ingestPage (ingestInput input state candidates)
      let completedAt ← (input.now : Proc E R Date)
      let state := recordPage state page result completedAt
      (logLine input (pageCompleteLine state page result.counts) : Proc E R Unit)
      let etag ← writePageCheckpoint input
        { etag := state.etag, lastCompletedPage := page, pages := state.pages, slug := context.slug
          startedAt := context.startedAt }
      pure ({ state with etag, lastCompletedPage := page }, result.counts) :
        Async E R JsError (LoopState × IngestPageCounts)) := by
  -- the facts collected so far last while the page is fanned out
  refine Async.safe_bind (fun result w => rule.Told result.rawStorage result.staging w ∧
      rule.InLoop state w)
    (((h.ingest state candidates w hfound hw.always).kept (h.stable state) (h.stable state) hw).imp ?_) ?_
  · rintro (error | result) w ⟨htold, hkept⟩
    · exact htold
    · exact ⟨htold, hkept⟩
  · rintro result w ⟨htold, hkept⟩
    refine Async.safe_lift_bind (fun _ w => rule.Told (state.rawStorage ++ result.rawStorage)
      (state.staging ++ result.staging) w) ?_ fun completedAt w hw => ?_
    · exact h.quiet.now _ (fun _ _ hw hr => h.lasts.told hw hr) w (hkept.append htold)
    · have hrecorded := h.stable (recordPage state page result completedAt)
      refine Async.safe_lift_bind (fun _ => rule.InLoop (recordPage state page result completedAt))
        (h.quiet.log _ _ hrecorded w hw) fun _ w hw => ?_
      refine Async.safe_bind (fun _ => rule.InLoop (recordPage state page result completedAt))
        (h.safe_writePageCheckpoint _ hw) fun etag w hw => ?_
      exact Proc.safe_pure hrecorded hw

theorem RunResults.safe_completeOkPage (h : RunResults env rely rule pf input) {page : ℕ}
    {candidates : List ReplayCandidate} (hfound : rule.found candidates) {state : LoopState}
    (hw : rule.InLoop state w) :
    Proc.Safe env rely rely (Async.Outcome (fun x => rule.InLoop x.1) fun _ => rule.J) w
      (completeOkPage input context page candidates state) := by
  unfold completeOkPage
  exact Async.safe_lift_bind (fun _ => rule.InLoop state) (h.quiet.now _ (h.stable state) w hw)
    fun throttledAt w hw => h.safe_fannedOut hfound hw

/-- What a turn hands on, to the next one or out of the loop. -/
def ResultRule.turned (rule : ResultRule W) (x : (LoopState × ℕ) ⊕ LoopState) (w : W) : Prop :=
  Sum.elim (fun cursor => rule.InLoop cursor.1 w) (fun state => rule.InLoop state w) x

theorem RunResults.safe_pageIteration (h : RunResults env rely rule pf input)
    {cursor : LoopState × ℕ} (hw : rule.InLoop cursor.1 w) :
    Proc.Safe env rely rely (Async.Outcome rule.turned fun _ => rule.J) w
      (pageIteration pf input context cursor) := by
  obtain ⟨state, page⟩ := cursor
  have hstate := h.stable state
  unfold pageIteration
  dsimp only
  split
  case isTrue => exact Proc.safe_pure hstate hw
  case isFalse =>
    refine Async.safe_lift_bind (fun _ => rule.InLoop state)
      (h.quiet.awaitFloor _ hstate w hw) fun _ w hw => ?_
    refine Async.safe_bind (fun report w => rule.InLoop state w ∧
        (report.ok = true → rule.found report.candidates))
      (((h.discover page w hw.always).kept hstate hstate hw).imp ?_) ?_
    · rintro (error | report) w ⟨hreport, hkept⟩
      · exact hreport
      · exact ⟨hkept, hreport.2⟩
    rintro report w ⟨hw, hfound⟩
    split
    case isTrue =>
      -- a page that failed: the throttle and the log line touch no result
      refine Async.safe_lift_bind (fun throttled => rule.InLoop throttled) ?_ fun throttled w hw => ?_
      · unfold applyRateLimitThrottle
        split
        · exact Proc.safe_quiet_bind h.quiet.now (rule.InLoop state) hstate
            (fun now w hw => Proc.safe_pure hstate hw) hw
        · exact Proc.safe_pure hstate hw
      · refine Async.safe_lift_bind (fun _ => rule.InLoop throttled) ?_
          fun _ w hw => Proc.safe_pure (h.stable throttled) hw
        unfold emitPageFailureEvent
        split
        · exact Proc.safe_pure (h.stable throttled) hw
        · exact h.quiet.log _ _ (h.stable throttled) w hw
    case isFalse hreport =>
      split
      case isTrue => exact Proc.safe_pure hstate hw
      case isFalse =>
        have hok : rule.found report.candidates := hfound (eq_true_of_ne_false hreport)
        have hreported : rule.InLoop { state with
            discoveryReport := appendDiscoveryReport state.discoveryReport report } w :=
          ⟨hw.always, hw.raw, hw.staged⟩
        refine Async.safe_bind (fun x => rule.InLoop x.1) (h.safe_completeOkPage hok hreported) ?_
        rintro ⟨state', counts⟩ w hw
        dsimp only at hw ⊢
        split
        · exact Proc.safe_pure (h.stable state') hw
        · exact Proc.safe_pure (h.stable state') hw

theorem RunResults.safe_runPageLoop (h : RunResults env rely rule pf input) {state : LoopState}
    (hw : rule.InLoop state w) :
    Proc.Safe env rely rely (Async.Outcome rule.InLoop fun _ => rule.J) w
      (runPageLoop pf input context state) := by
  refine Async.safe_iterate (fun cursor => rule.InLoop cursor.1) h.lasts.refl
    (fun cursor => h.stable cursor.1) ?_ (fun cursor w hw => h.safe_pageIteration hw) hw
  rintro (error | state) w w' hw hr
  · exact h.lasts.J _ _ hw hr
  · exact h.stable state _ _ hw hr

/-- **A run** ends with the facts of all the results in its summary. -/
theorem RunResults.safe_runOnce (h : RunResults env rely rule pf input) (hw : rule.J w) :
    Proc.Safe env rely rely
      (Async.Outcome (fun result => rule.Told result.summary.rawStorage result.summary.staging)
        fun _ => rule.J) w (runOnce pf input) := by
  have hJ := h.lasts.J
  unfold runOnce
  refine Async.safe_lift_bind (fun _ => rule.J) (h.quiet.now _ hJ w hw) fun startedAt w hw => ?_
  refine Async.safe_lift_bind (fun _ => rule.J) (h.quiet.log _ _ hJ w hw) fun _ w hw => ?_
  refine Async.safe_bind (fun _ => rule.J) ?_ fun resumeState w hw => ?_
  · unfold resolveResumeState
    refine Async.safe_bind (fun _ => rule.J)
      (RunResults.outcome (h.read _) hJ (fun _ h => h) hw) fun read w hw => ?_
    split
    · exact Proc.safe_pure hJ hw
    · exact Async.safe_lift_bind (fun _ => rule.J) (h.quiet.log _ _ hJ w hw)
        fun _ w hw => Proc.safe_pure hJ hw
  · unfold runFrom
    refine Async.safe_bind rule.InLoop (h.safe_runPageLoop (ResultRule.told_nil hw))
      fun state w hw => ?_
    have hstate := h.stable state
    unfold assembleResult
    refine Async.safe_bind (fun _ => rule.InLoop state) ?_ fun _ w hw => ?_
    · split
      case isTrue =>
        unfold writeFinalCheckpoint buildCheckpoint
        refine Async.safe_lift_bind (fun _ => rule.InLoop state) ?_ fun checkpoint w hw => ?_
        · exact Proc.safe_quiet_bind h.quiet.now _ hstate
            (fun now w hw => Proc.safe_pure hstate hw) hw
        · refine Async.safe_tryCatch (fun _ => rule.InLoop state) ?_ fun error w hw => ?_
          · refine Async.safe_bind (fun _ => rule.InLoop state)
              ((h.write _ _ hstate w hw).imp ?_) fun _ w hw => Proc.safe_pure hstate hw
            rintro (error | etag) w hw
            · exact hw
            · exact hw
          · exact Proc.safe_bind_of (h.quiet.log _ _ hstate w hw) fun _ w hw =>
              Proc.safe_pure hstate hw
      case isFalse => exact Proc.safe_pure hstate hw
    · refine Async.safe_lift_bind (fun _ => rule.InLoop state) (h.quiet.now _ hstate w hw)
        fun finishedAt w hw => ?_
      refine Async.safe_lift_bind (fun _ => rule.InLoop state) (h.quiet.log _ _ hstate w hw)
        fun _ w hw => ?_
      refine Async.safe_bind (fun _ => rule.InLoop state)
        ((h.quiet.safe_writeEvidence _ hstate hw).imp ?_) fun _ w hw => ?_
      · rintro (error | u) w hw
        · exact hw.elim
        · exact hw
      · refine Proc.safe_pure (fun _ _ hw hr => h.lasts.told hw hr) ?_
        -- the summary hands out the two lists of the loop
        show rule.Told (finalSummary _ _ state finishedAt).rawStorage
          (finalSummary _ _ state finishedAt).staging w
        unfold finalSummary
        rw [rawStorage_buildRunSummary, staging_buildRunSummary]
        exact hw

end Run

/-! ## The watcher -/

section Watcher

variable {env : Env W E R} {rely : W → W → Prop} {rule : ResultRule W} {input : WatchLoopInput E R}
  {w : W}

/-- The same for a watcher. -/
structure WatchResults (env : Env W E R) (rely : W → W → Prop) (rule : ResultRule W)
    (input : WatchLoopInput E R) : Prop where
  lasts : rule.Lasts rely
  awaitFloor : Proc.Quiet env rely rely input.awaitFloor
  createRunId : ∀ now, Proc.Quiet env rely rely (input.createRunId now)
  discover : Proc.Quiet env rely rely (input.discoverReplays (buildDiscoverInput input))
  log : ∀ line, Proc.Quiet env rely rely (input.log line)
  now : Proc.Quiet env rely rely input.now
  shouldStop : Proc.Quiet env rely rely input.shouldStop
  sleep : ∀ milliseconds, Proc.Quiet env rely rely (input.sleep milliseconds)
  writeHeartbeat : ∀ path timestamp, Proc.Quiet env rely rely (input.writeHeartbeat path timestamp)
  ingest : ∀ runId candidates w, rule.J w → Proc.Safe env rely rely
    (Async.Outcome (fun result => rule.Told result.rawStorage result.staging) fun _ => rule.J) w
    (ingestPage (watchIngestInput input runId candidates))

/-- **A cycle** ends with the facts of the results in its summary. -/
theorem WatchResults.safe_runCycle (h : WatchResults env rely rule input) (hw : rule.J w) :
    Proc.Safe env rely rely
      (Async.Outcome (fun summary => rule.Told summary.rawStorage summary.staging) fun _ => rule.J)
      w (runCycle input) := by
  have hJ := h.lasts.J
  have hquiet : ∀ {α : Type} {p : Async E R JsError α} {w : W}, Proc.Quiet env rely rely p →
      rule.J w → Proc.Safe env rely rely (Async.Outcome (fun _ => rule.J) fun _ => rule.J) w p :=
    fun hp hw => RunResults.outcome hp hJ (fun _ h => h) hw
  unfold runCycle
  refine Async.safe_bind (fun _ => rule.J) (hquiet h.now hw) fun cycleStart w hw => ?_
  refine Async.safe_bind (fun _ => rule.J) (hquiet (h.createRunId cycleStart) hw)
    fun runId w hw => ?_
  refine Async.safe_bind (fun _ => rule.J) (hquiet h.awaitFloor hw) fun _ w hw => ?_
  refine Async.safe_bind (fun _ => rule.J) (hquiet h.discover hw) fun report w hw => ?_
  refine Async.safe_bind (fun result => rule.Told result.rawStorage result.staging)
    (h.ingest runId report.candidates w hw) fun result w hw => ?_
  have htold : ∀ w w', rule.Told result.rawStorage result.staging w → rely w w' →
      rule.Told result.rawStorage result.staging w' := fun _ _ hw hr => h.lasts.told hw hr
  refine Async.safe_bind (fun _ => rule.Told result.rawStorage result.staging)
    (RunResults.outcome h.now htold (fun _ h => h.always) hw) fun finishedAt w hw => ?_
  refine Async.safe_lift_bind (fun _ => rule.Told result.rawStorage result.staging)
    (h.log _ _ htold w hw) fun _ w hw => ?_
  refine Proc.safe_pure (fun _ _ hw hr => h.lasts.told hw hr) ?_
  show rule.Told (watchSummary runId cycleStart finishedAt report result).rawStorage
    (watchSummary runId cycleStart finishedAt report result).staging w
  unfold watchSummary
  rw [rawStorage_buildRunSummary, staging_buildRunSummary]
  exact hw

/-- The invariant, through a cycle and its heartbeat. -/
theorem WatchResults.safe_cycleWithHeartbeat (h : WatchResults env rely rule input)
    (hw : rule.J w) :
    Proc.Safe env rely rely (fun _ => rule.J) w (cycleWithHeartbeat input) := by
  have hJ := h.lasts.J
  unfold cycleWithHeartbeat
  refine Async.safe_await (h.safe_runCycle hw |>.imp ?_) (fun _ h => h) fun _ w hw => ?_
  · rintro (error | summary) w hw
    · exact hw
    · exact hw.always
  · exact Async.safe_await (h.now _ hJ w hw) (fun _ h => h)
      fun now w hw => h.writeHeartbeat _ _ _ hJ w hw

/-- One turn of the loop: the signal, the cycle, its failure's log line, the signal, the pause. -/
theorem WatchResults.safe_watchIteration (h : WatchResults env rely rule input) (hw : rule.J w) :
    Proc.Safe env rely rely (fun _ => rule.J) w (watchIteration input) := by
  have hJ := h.lasts.J
  unfold watchIteration
  refine Proc.safe_bind_of (h.shouldStop _ hJ w hw) fun stop w hw => ?_
  split
  · exact Proc.safe_pure hJ hw
  · refine Proc.safe_bind_of (h.safe_cycleWithHeartbeat hw) fun outcome w hw => ?_
    have hafter : ∀ w, rule.J w → Proc.Safe env rely rely (fun _ => rule.J) w
        (input.shouldStop.bind fun stop => if stop then .pure (.inr ())
          else (input.sleep input.intervalMs).bind fun _ => .pure (.inl ()) :
            Proc E R (Unit ⊕ Unit)) := by
      intro w hw
      refine Proc.safe_bind_of (h.shouldStop _ hJ w hw) fun stop w hw => ?_
      split
      · exact Proc.safe_pure hJ hw
      · exact Proc.safe_bind_of (h.sleep _ _ hJ w hw) fun _ w hw => Proc.safe_pure hJ hw
    cases outcome with
    | ok _ => exact hafter w hw
    | error error => exact Proc.safe_bind_of (h.log _ _ hJ w hw) fun _ w hw => hafter w hw

/-- **The watcher** keeps the invariant for as long as it runs. -/
theorem WatchResults.safe_runWatchLoop (h : WatchResults env rely rule input) (hw : rule.J w) :
    Proc.Safe env rely rely (fun _ => rule.J) w (runWatchLoop input) := by
  have hJ := h.lasts.J
  unfold runWatchLoop
  refine Proc.safe_loop (fun _ => rule.J) (fun _ => rule.J) h.lasts.refl (fun _ => hJ)
    (fun _ w hw => (h.safe_watchIteration hw).imp ?_) (fun _ w hw => Proc.safe_pure hJ hw) hw
  rintro (_ | _) w hw
  · exact hw
  · exact hw

end Watcher

end ReplaysFetcher
