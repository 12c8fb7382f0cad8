/-
  The proof rule of a run.

  Every result about whole runs follows the same path through `runOnce`: read, discover, fan out,
  write, and at the end write once more.  `RunSpec` names the assertion at each of these points, as
  predicates of what the loop carries from page to page (`Progress`) and of the world, and
  `RunSpec.Holds` is the list of obligations: one for each dependency the run calls.  From them
  `safe_runOnce` gives the run, so a result about runs never looks inside the loop again.

  Dependencies a result does not care about (the clock, the log, the pacer, the evidence) only have
  to be quiet.
-/
import ReplaysFetcher.RunOnce

namespace ReplaysFetcher

open Effectful

/-! ## What the loop carries -/

/-- The part of the loop state a run's future depends on. -/
structure Progress where
  etag : Option String
  lastCompletedPage : ℕ
  pages : JsRecord CheckpointPage

def LoopState.progress (state : LoopState) : Progress where
  etag := state.etag
  lastCompletedPage := state.lastCompletedPage
  pages := state.pages

/-- Where a resumed run starts. -/
def ResumeState.progress (resumeState : ResumeState) : Progress where
  etag := resumeState.etag
  lastCompletedPage := resumeState.startPage - FIRST_PAGE
  pages := resumeState.pages

/-- The next page, to be discovered. -/
def Progress.nextPage (p : Progress) : ℕ := p.lastCompletedPage + FIRST_PAGE

/-- The next page is done: entered, counted, and the cursor moved past it. -/
def Progress.advance (p : Progress) (counts : IngestPageCounts) : Progress where
  etag := p.etag
  lastCompletedPage := p.nextPage
  pages := p.pages.insert (toString p.nextPage) (runningPage counts)

/-- If every page can be read back, so it is with a page more. -/
theorem Progress.valid_advance {p : Progress}
    (h : ∀ key entry, p.pages.lookup key = some entry → key ≠ PROTO_KEY ∧ entry.status ≠ "")
    (counts : IngestPageCounts) (key : String) (entry : CheckpointPage)
    (hentry : (p.advance counts).pages.lookup key = some entry) :
    key ≠ PROTO_KEY ∧ entry.status ≠ "" := by
  unfold Progress.advance at hentry
  dsimp only at hentry
  by_cases hkey : key = toString p.nextPage
  · subst hkey
    rw [Finmap.lookup_insert] at hentry
    obtain rfl := Option.some.inj hentry
    refine ⟨natToString_ne_proto _, ?_⟩
    show "running" ≠ ""
    decide
  · rw [Finmap.lookup_insert_of_ne _ hkey] at hentry
    exact h key entry hentry

def Progress.withEtag (p : Progress) (etag : Option String) : Progress := { p with etag }

/-- The checkpoint of a finished page. -/
def Progress.pageCheckpoint (p : Progress) (runId : String) (context : AssembleContext)
    (now : Date) : Checkpoint :=
  checkpointAt runId
    { lastCompletedPage := p.lastCompletedPage, pages := p.pages, slug := context.slug
      startedAt := context.startedAt, status := .running } now

/-- The checkpoint of a finished run. -/
def Progress.finalCheckpoint (p : Progress) (runId : String) (context : AssembleContext)
    (now : Date) : Checkpoint :=
  checkpointAt runId
    { discoveredLastPage := some p.lastCompletedPage, lastCompletedPage := p.lastCompletedPage
      pages := p.pages, slug := context.slug, startedAt := context.startedAt
      status := .complete } now

/-- A run ends `complete` when no page failed and the cap was not hit. -/
theorem finalStatus_eq_complete {state : LoopState} :
    finalStatus state = .complete ↔
      state.discoveryReport.ok = true ∧ state.reachedMaxPages = false := by
  unfold finalStatus
  rw [deriveRunStatus_eq_complete]
  dsimp only
  unfold deriveDiscoveredLastPage
  constructor
  · rintro ⟨hok, _, hcap⟩
    exact ⟨hok, hcap⟩
  · rintro ⟨hok, hcap⟩
    refine ⟨hok, ?_, hcap⟩
    rw [if_pos hok]

/-! ## The obligations -/

section Spec

variable {Text : Type} {W E : Type} {R : E → Type}

/-- An assertion for each point of a run. -/
structure RunSpec (W : Type) where
  /-- before a page -/
  head : Progress → W → Prop
  /-- the next page was read and has these candidates -/
  found : Progress → List ReplayCandidate → W → Prop
  /-- the next page was fanned out, with these counts; its checkpoint is not written yet -/
  done : Progress → IngestPageCounts → W → Prop
  /-- the loop was left; will the run be `complete`? -/
  left : Progress → Bool → W → Prop
  /-- the run is over but for the report -/
  last : Bool → W → Prop

variable (env : Env W E R) (rely guar : W → W → Prop) (pf : Platform Text)
  (input : RunOnceInput E R) (post : Except JsError RunOnceResult → W → Prop)

/-- The dependencies nobody notices. -/
structure RunSpec.Quiet : Prop where
  awaitFloor : Proc.Quiet env rely guar input.awaitFloor
  now : Proc.Quiet env rely guar input.now
  log : ∀ line, Proc.Quiet env rely guar (logLine input line)
  evidenceStore : ∀ write, input.evidenceStore = some write → ∀ runId summary,
    Proc.Quiet env rely guar (write runId summary)
  writeEvidenceFile : ∀ write, input.writeEvidenceFile = some write → ∀ path summary,
    Proc.Quiet env rely guar (write path summary)

/-- No assertion is disturbed by the others. -/
structure RunSpec.Stable (spec : RunSpec W) : Prop where
  head : ∀ p w w', spec.head p w → rely w w' → spec.head p w'
  found : ∀ p candidates w w', spec.found p candidates w → rely w w' → spec.found p candidates w'
  done : ∀ p counts w w', spec.done p counts w → rely w w' → spec.done p counts w'
  left : ∀ p complete w w', spec.left p complete w → rely w w' → spec.left p complete w'
  last : ∀ complete w w', spec.last complete w → rely w w' → spec.last complete w'
  post : ∀ r w w', post r w → rely w w' → post r w'

/-- The assertion after a page checkpoint was written, or was not. -/
def RunSpec.written (spec : RunSpec W) (p : Progress) (counts : IngestPageCounts) (w : W) : Prop :=
  if isAllDuplicate counts then spec.left p true w else spec.head p w

/-- The assertion after a list page was read. -/
def RunSpec.discovered (spec : RunSpec W) (p : Progress) (report : DiscoveryReport) (w : W) : Prop :=
  if report.ok = false then spec.left p false w
  else if report.candidates = [] then spec.left p true w
  else spec.found p report.candidates w

/-- What each dependency has to do for its part. -/
structure RunSpec.Holds (context : AssembleContext) (spec : RunSpec W) : Prop where
  refl : ∀ w, guar w w
  quiet : RunSpec.Quiet env rely guar input
  stable : RunSpec.Stable rely post spec
  cap : ∀ p w, (input.maxPages.any fun maxPages => maxPages < p.nextPage) = true → spec.head p w →
    spec.left p false w
  discover : ∀ p w, spec.head p w → Proc.Safe env rely guar
    (Async.Outcome (spec.discovered p) fun e w => post (.error e) w) w
    (input.discoverReplays (discoverInput pf input p.nextPage))
  ingest : ∀ p candidates state w, spec.found p candidates w → Proc.Safe env rely guar
    (Async.Outcome (fun result => spec.done p result.counts) fun e w => post (.error e) w) w
    (ingestPage (ingestInput input state candidates))
  writePage : ∀ p counts now w, spec.done p counts w → Proc.Safe env rely guar
    (Async.Outcome (fun etag => spec.written ((p.advance counts).withEtag etag) counts)
      fun _ => spec.written (p.advance counts) counts) w
    (input.checkpointStore.write
      { checkpoint := (p.advance counts).pageCheckpoint input.runId context now
        etag := p.etag, slug := context.slug })
  skipFinal : ∀ p w, spec.left p false w → spec.last false w
  writeFinal : ∀ p now w, spec.left p true w → Proc.Safe env rely guar
    (Async.Outcome (fun _ => spec.last true) fun _ => spec.last true) w
    (input.checkpointStore.write
      { checkpoint := p.finalCheckpoint input.runId context now
        etag := p.etag, slug := context.slug })
  result : ∀ complete w, spec.last complete w → ∀ result : RunOnceResult,
    (result.summary.status = some .complete ↔ complete = true) → post (.ok result) w

end Spec

/-! ## The rule -/

section Rule

variable {Text : Type} {W E : Type} {R : E → Type} {env : Env W E R} {rely guar : W → W → Prop}
  {pf : Platform Text} {input : RunOnceInput E R} {post : Except JsError RunOnceResult → W → Prop}
  {context : AssembleContext} {spec : RunSpec W} {w : W}

/-- The assertion at the head of the loop, of the loop's own state. -/
def RunSpec.atHead (spec : RunSpec W) (cursor : LoopState × ℕ) (w : W) : Prop :=
  cursor.2 = cursor.1.lastCompletedPage + FIRST_PAGE ∧ cursor.1.discoveryReport.ok = true ∧
    cursor.1.reachedMaxPages = false ∧ spec.head cursor.1.progress w

/-- The assertion when the loop was left in `state`. -/
def RunSpec.afterLoop (spec : RunSpec W) (state : LoopState) (w : W) : Prop :=
  ∃ complete, (finalStatus state = .complete ↔ complete = true) ∧
    spec.left state.progress complete w

/-- The assertion after a turn of the loop. -/
def RunSpec.turned (spec : RunSpec W) (x : (LoopState × ℕ) ⊕ LoopState) (w : W) : Prop :=
  Sum.elim (spec.atHead · w) (spec.afterLoop · w) x

theorem RunSpec.Stable.atHead (h : RunSpec.Stable rely post spec) (cursor : LoopState × ℕ) :
    ∀ w w', spec.atHead cursor w → rely w w' → spec.atHead cursor w' :=
  fun _ _ ⟨hpage, hok, hcap, hw⟩ hr => ⟨hpage, hok, hcap, h.head _ _ _ hw hr⟩

theorem RunSpec.Stable.afterLoop (h : RunSpec.Stable rely post spec) (state : LoopState) :
    ∀ w w', spec.afterLoop state w → rely w w' → spec.afterLoop state w' :=
  fun _ _ ⟨complete, hstatus, hw⟩ hr => ⟨complete, hstatus, h.left _ _ _ _ hw hr⟩

theorem RunSpec.Stable.written (h : RunSpec.Stable rely post spec) (p : Progress)
    (counts : IngestPageCounts) :
    ∀ w w', spec.written p counts w → rely w w' → spec.written p counts w' := by
  intro w w' hw hr
  unfold RunSpec.written at hw ⊢
  split at hw
  · rw [if_pos ‹_›]
    exact h.left _ _ _ _ hw hr
  · rw [if_neg ‹_›]
    exact h.head _ _ _ hw hr

theorem RunSpec.Stable.discovered (h : RunSpec.Stable rely post spec) (p : Progress)
    (report : DiscoveryReport) :
    ∀ w w', spec.discovered p report w → rely w w' → spec.discovered p report w' := by
  intro w w' hw hr
  unfold RunSpec.discovered at hw ⊢
  split_ifs at hw ⊢
  · exact h.left _ _ _ _ hw hr
  · exact h.left _ _ _ _ hw hr
  · exact h.found _ _ _ _ hw hr

/-- A page checkpoint: the store's write, whose failure is logged. -/
theorem RunSpec.Holds.safe_writePageCheckpoint
    (h : RunSpec.Holds env rely guar pf input post context spec) {p : Progress}
    {counts : IngestPageCounts} (hw : spec.done p counts w) :
    Proc.Safe env rely guar
      (Async.Outcome (fun etag => spec.written ((p.advance counts).withEtag etag) counts)
        fun e w => post (.error e) w) w
      (writePageCheckpoint input
        { etag := p.etag, lastCompletedPage := p.nextPage
          pages := (p.advance counts).pages, slug := context.slug
          startedAt := context.startedAt }) := by
  have hstable := h.stable.written
  unfold writePageCheckpoint
  refine Async.safe_lift_bind (fun checkpoint w => spec.done p counts w ∧
      ∃ now, checkpoint = (p.advance counts).pageCheckpoint input.runId context now) ?_ ?_
  · refine Proc.safe_quiet_bind h.quiet.now (spec.done p counts) (h.stable.done p counts) ?_ hw
    intro now w hw
    refine Proc.safe_pure ?_ ⟨hw, now, rfl⟩
    rintro w w' ⟨hw, hnow⟩ hr
    exact ⟨h.stable.done _ _ _ _ hw hr, hnow⟩
  · rintro checkpoint w ⟨hw, now, rfl⟩
    refine Async.safe_tryCatch (fun _ => spec.written (p.advance counts) counts)
      ((h.writePage p counts now w hw).imp ?_) ?_
    · rintro (e | etag) w hr
      · exact hr
      · exact hr
    · intro error w hw
      refine Async.safe_lift_bind (fun _ => spec.written (p.advance counts) counts)
        (h.quiet.log _ _ (hstable _ _) w hw) fun _ w hw => ?_
      exact Proc.safe_pure (hstable _ _) hw

/-- A page that was read: fan out, and write. -/
theorem RunSpec.Holds.safe_completeOkPage
    (h : RunSpec.Holds env rely guar pf input post context spec) {state : LoopState}
    {candidates : List ReplayCandidate} (hok : state.discoveryReport.ok = true)
    (hcap : state.reachedMaxPages = false) (hw : spec.found state.progress candidates w) :
    Proc.Safe env rely guar
      (Async.Outcome
        (fun x w => x.1.lastCompletedPage = state.lastCompletedPage + FIRST_PAGE ∧
          x.1.discoveryReport.ok = true ∧ x.1.reachedMaxPages = false ∧
          spec.written x.1.progress x.2 w)
        fun e w => post (.error e) w) w
      (completeOkPage input context (state.lastCompletedPage + FIRST_PAGE) candidates state) := by
  unfold completeOkPage
  refine Async.safe_lift_bind (fun _ => spec.found state.progress candidates)
    (h.quiet.now _ (h.stable.found _ _) w hw) fun throttledAt w hw => ?_
  refine Async.safe_bind (fun result => spec.done state.progress result.counts)
    (h.ingest _ _ _ w hw) fun result w hw => ?_
  refine Async.safe_lift_bind (fun _ => spec.done state.progress result.counts)
    (h.quiet.now _ (h.stable.done _ _) w hw) fun completedAt w hw => ?_
  refine Async.safe_lift_bind (fun _ => spec.done state.progress result.counts)
    (h.quiet.log _ _ (h.stable.done _ _) w hw) fun _ w hw => ?_
  refine Async.safe_bind
    (fun etag => spec.written ((state.progress.advance result.counts).withEtag etag) result.counts)
    (h.safe_writePageCheckpoint hw) fun etag w hw => ?_
  refine Proc.safe_pure ?_ ⟨rfl, hok, hcap, hw⟩
  rintro w w' ⟨hpage, hok, hcap, hw⟩ hr
  exact ⟨hpage, hok, hcap, h.stable.written _ _ _ _ hw hr⟩

/-- A page that could not be read: the loop is left, and the run will not be `complete`. -/
theorem RunSpec.Holds.safe_pageFailed
    (h : RunSpec.Holds env rely guar pf input post context spec) {state : LoopState}
    (report : DiscoveryReport) (page : ℕ) (hnot : state.discoveryReport.ok = false)
    (hw : spec.left state.progress false w) :
    Proc.Safe env rely guar (Async.Outcome spec.turned fun e w => post (.error e) w) w (do
      let state ← (applyRateLimitThrottle input report state : Proc E R LoopState)
      (emitPageFailureEvent input page report : Proc E R Unit)
      pure (.inr (stopped .pageFailed state)) :
        Async E R JsError ((LoopState × ℕ) ⊕ LoopState)) := by
  let mid : LoopState → W → Prop := fun state' w => state'.progress = state.progress ∧
    state'.discoveryReport.ok = false ∧ spec.left state.progress false w
  have hmid : ∀ state' w w', mid state' w → rely w w' → mid state' w' :=
    fun _ _ _ hw hr => ⟨hw.1, hw.2.1, h.stable.left _ _ _ _ hw.2.2 hr⟩
  refine Async.safe_lift_bind mid ?_ fun state' w hw => ?_
  · unfold applyRateLimitThrottle
    split
    · exact Proc.safe_quiet_bind h.quiet.now _ (h.stable.left _ _)
        (fun now w hw => Proc.safe_pure (hmid _) ⟨rfl, hnot, hw⟩) hw
    · exact Proc.safe_pure (hmid _) ⟨rfl, hnot, hw⟩
  · refine Async.safe_lift_bind (fun _ => mid state') ?_ fun _ w hw => ?_
    · unfold emitPageFailureEvent
      split
      · exact Proc.safe_pure (hmid _) hw
      · exact h.quiet.log _ _ (hmid _) w hw
    · obtain ⟨hprogress, hnot', hw⟩ := hw
      refine Proc.safe_pure (h.stable.afterLoop _) ⟨false, ?_, ?_⟩
      · rw [finalStatus_eq_complete]
        refine ⟨fun hc => ?_, fun hc => by cases hc⟩
        have hok : state'.discoveryReport.ok = true := hc.1
        rw [hnot'] at hok
        cases hok
      · show spec.left state'.progress false w
        rw [hprogress]
        exact hw

/-- Leaving the loop on a page that was read makes the run `complete`. -/
theorem RunSpec.Holds.safe_stopped
    (h : RunSpec.Holds env rely guar pf input post context spec) {state : LoopState}
    {reason : StopReason} (hreason : reason ≠ .cap) (hok : state.discoveryReport.ok = true)
    (hw : spec.left state.progress true w) :
    Proc.Safe env rely guar (Async.Outcome spec.turned fun e w => post (.error e) w) w
      (pure (.inr (stopped reason state)) : Async E R JsError ((LoopState × ℕ) ⊕ LoopState)) := by
  refine Proc.safe_pure (h.stable.afterLoop _) ⟨true, ?_, hw⟩
  rw [finalStatus_eq_complete]
  exact ⟨fun _ => rfl, fun _ => ⟨hok, decide_eq_false hreason⟩⟩

/-- One turn of the loop. -/
theorem RunSpec.Holds.safe_pageIteration
    (h : RunSpec.Holds env rely guar pf input post context spec) {cursor : LoopState × ℕ}
    (hw : spec.atHead cursor w) :
    Proc.Safe env rely guar (Async.Outcome spec.turned fun e w => post (.error e) w) w
      (pageIteration pf input context cursor) := by
  obtain ⟨state, page⟩ := cursor
  obtain ⟨hpage, hok, hcap, hw⟩ := hw
  dsimp only at hpage hok hcap hw
  subst hpage
  unfold pageIteration
  dsimp only
  split
  case isTrue hcapped =>
    -- the cap
    refine Proc.safe_pure (h.stable.afterLoop _) ⟨false, ?_, h.cap _ _ hcapped hw⟩
    rw [finalStatus_eq_complete]
    exact ⟨fun hc => absurd hc.2 (by simp [stopped]), fun hc => by cases hc⟩
  case isFalse =>
    refine Async.safe_lift_bind (fun _ => spec.head state.progress)
      (h.quiet.awaitFloor _ (h.stable.head _) w hw) fun _ w hw => ?_
    refine Async.safe_bind (spec.discovered state.progress) (h.discover _ w hw) fun report w hw => ?_
    unfold RunSpec.discovered at hw
    by_cases hreport : report.ok = false
    · rw [if_pos hreport] at hw ⊢
      refine h.safe_pageFailed _ _ ?_ hw
      show (state.discoveryReport.ok && report.ok) = false
      rw [hreport, Bool.and_false]
    · have hreported : (appendDiscoveryReport state.discoveryReport report).ok = true := by
        show (state.discoveryReport.ok && report.ok) = true
        rw [hok, eq_true_of_ne_false hreport]
        rfl
      rw [if_neg hreport] at hw ⊢
      by_cases hempty : report.candidates = []
      · rw [if_pos hempty] at hw ⊢
        exact h.safe_stopped (by decide) hreported hw
      · rw [if_neg hempty] at hw ⊢
        refine Async.safe_bind _ (h.safe_completeOkPage hreported hcap hw) ?_
        rintro ⟨state', counts⟩ w ⟨hpage, hok', hcap', hw⟩
        unfold RunSpec.written at hw
        dsimp only at hpage hok' hcap' hw ⊢
        by_cases hdup : isAllDuplicate counts = true
        · rw [if_pos hdup] at hw ⊢
          exact h.safe_stopped (by decide) hok' hw
        · rw [if_neg hdup] at hw ⊢
          refine Proc.safe_pure (h.stable.atHead _) ⟨?_, hok', hcap', hw⟩
          show state.lastCompletedPage + FIRST_PAGE + 1 = state'.lastCompletedPage + FIRST_PAGE
          rw [hpage]
          rfl

/-- The page loop. -/
theorem RunSpec.Holds.safe_runPageLoop
    (h : RunSpec.Holds env rely guar pf input post context spec) {state : LoopState}
    (hok : state.discoveryReport.ok = true) (hcap : state.reachedMaxPages = false)
    (hw : spec.head state.progress w) :
    Proc.Safe env rely guar (Async.Outcome spec.afterLoop fun e w => post (.error e) w) w
      (runPageLoop pf input context state) := by
  refine Async.safe_iterate spec.atHead h.refl (fun cursor => h.stable.atHead cursor) ?_
    (fun cursor w hw => h.safe_pageIteration hw) ⟨rfl, hok, hcap, hw⟩
  rintro (e | state) w w' hw hr
  · exact h.stable.post _ _ _ hw hr
  · exact h.stable.afterLoop _ _ _ hw hr

/-- One of the two evidence writes: it never rejects. -/
theorem RunSpec.Quiet.safe_writeEvidenceWith
    (h : RunSpec.Quiet env rely guar input)
    {write : Option (Async E R JsError Unit)}
    (hwrite : ∀ p, write = some p → Proc.Quiet env rely guar p) {P : W → Prop}
    (hstable : ∀ w w', P w → rely w w' → P w') (hw : P w) :
    Proc.Safe env rely guar (Async.Outcome (fun _ => P) fun _ _ => False) w
      (writeEvidenceWith input write) := by
  unfold writeEvidenceWith
  split
  · exact Proc.safe_pure (fun _ _ => hstable _ _) hw
  · rename_i p
    refine Async.safe_tryCatch (fun _ => P) ((hwrite p rfl P hstable w hw).imp ?_) fun e w hw => ?_
    · rintro (e | u) w hw
      · exact hw
      · exact hw
    · exact Proc.safe_bind_of (h.log _ P hstable w hw) fun _ w hw =>
        Proc.safe_pure (fun _ _ => hstable _ _) hw

/-- The evidence writes. -/
theorem RunSpec.Quiet.safe_writeEvidence
    (h : RunSpec.Quiet env rely guar input) (summary : RunSummary) {P : W → Prop}
    (hstable : ∀ w w', P w → rely w w' → P w') (hw : P w) :
    Proc.Safe env rely guar (Async.Outcome (fun _ => P) fun _ _ => False) w
      (writeEvidence input summary) := by
  unfold writeEvidence
  refine Async.safe_bind (fun _ => P) ((h.safe_writeEvidenceWith ?_ hstable hw).imp ?_)
    fun _ w hw => h.safe_writeEvidenceWith ?_ hstable hw
  · intro p hp
    split at hp
    · obtain ⟨write, hwrite, rfl⟩ := Option.map_eq_some_iff.1 hp
      exact h.evidenceStore write hwrite _ _
    · cases hp
  · rintro (e | u) w hw
    · exact hw
    · exact hw
  · intro p hp
    split at hp
    · cases hp
      exact h.writeEvidenceFile _ ‹_› _ _
    · cases hp

/-- The report of a run. -/
theorem RunSpec.Holds.safe_assembleResult
    (h : RunSpec.Holds env rely guar pf input post context spec) {state : LoopState}
    (hw : spec.afterLoop state w) :
    Proc.Safe env rely guar post w (assembleResult input context state) := by
  obtain ⟨complete, hstatus, hw⟩ := hw
  unfold assembleResult
  refine Async.safe_bind (fun _ => spec.last complete) ?_ fun _ w hw => ?_
  · -- the final checkpoint is written by a complete run only; a failed write is logged
    cases complete with
    | false =>
      rw [if_neg fun hc => Bool.false_ne_true (hstatus.1 hc)]
      exact Proc.safe_pure (h.stable.last _) (h.skipFinal _ _ hw)
    | true =>
      have hcomplete := hstatus.2 rfl
      rw [if_pos hcomplete]
      have hdiscovered : deriveDiscoveredLastPage state = state.lastCompletedPage := by
        unfold deriveDiscoveredLastPage
        rw [if_pos (finalStatus_eq_complete.1 hcomplete).1]
      unfold writeFinalCheckpoint
      rw [hdiscovered]
      refine Async.safe_lift_bind (fun checkpoint w => spec.left state.progress true w ∧
        ∃ now, checkpoint = state.progress.finalCheckpoint input.runId context now) ?_ ?_
      · refine Proc.safe_quiet_bind h.quiet.now (spec.left state.progress true)
          (h.stable.left _ _) ?_ hw
        intro now w hw
        refine Proc.safe_pure ?_ ⟨hw, now, rfl⟩
        rintro w w' ⟨hw, hnow⟩ hr
        exact ⟨h.stable.left _ _ _ _ hw hr, hnow⟩
      · rintro checkpoint w ⟨hw, now, rfl⟩
        refine Async.safe_tryCatch (fun _ => spec.last true) ?_ fun error w hw => ?_
        · refine Async.safe_bind (fun _ => spec.last true)
            ((h.writeFinal state.progress now w hw).imp ?_) fun _ w hw => ?_
          · rintro (e | etag) w hw
            · exact hw
            · exact hw
          · exact Proc.safe_pure (h.stable.last _) hw
        · exact Proc.safe_bind_of (h.quiet.log _ _ (h.stable.last _) w hw) fun _ w hw =>
            Proc.safe_pure (h.stable.last _) hw
  · -- the summary; the evidence is written last and nothing is done about its failure
    refine Async.safe_lift_bind (fun _ => spec.last complete)
      (h.quiet.now _ (h.stable.last _) w hw) fun finishedAt w hw => ?_
    refine Async.safe_lift_bind (fun _ => spec.last complete)
      (h.quiet.log _ _ (h.stable.last _) w hw) fun _ w hw => ?_
    refine Async.safe_bind (fun _ => spec.last complete)
      ((h.quiet.safe_writeEvidence _ (h.stable.last complete) hw).imp ?_) fun _ w hw => ?_
    · rintro (e | u) w hw
      · exact hw.elim
      · exact hw
    · refine Proc.safe_pure (h.stable.post _) (h.result complete w hw _ ?_)
      unfold finalSummary
      rw [status_buildRunSummary]
      exact ⟨fun hs => hstatus.1 (Option.some.inj hs), fun hc => congrArg some (hstatus.2 hc)⟩

/-- **A run, once it knows where it resumes.** -/
theorem RunSpec.Holds.safe_runFrom
    (h : RunSpec.Holds env rely guar pf input post context spec) {resumeState : ResumeState}
    (hw : spec.head resumeState.progress w) :
    Proc.Safe env rely guar post w (runFrom pf input context resumeState) := by
  unfold runFrom
  refine Async.safe_bind spec.afterLoop (h.safe_runPageLoop rfl rfl hw) fun state w hw => ?_
  exact h.safe_assembleResult hw

/-- **A run.** What is left to say is what the read has to give. -/
theorem safe_runOnce (start : W → Prop) (hstart : ∀ w w', start w → rely w w' → start w')
    (h : ∀ startedAt, RunSpec.Holds env rely guar pf input post
      { slug := pf.withoutUserinfo input.sourceUrl, startedAt := toISOString startedAt } spec)
    (hread : ∀ w, start w → Proc.Safe env rely guar
      (Async.Outcome (fun read => spec.head (resumeStateOf read).progress)
        fun e w => post (.error e) w) w
      (input.checkpointStore.read (pf.withoutUserinfo input.sourceUrl)))
    (hw : start w) : Proc.Safe env rely guar post w (runOnce pf input) := by
  have hquiet := (h 0).quiet
  have hstable := (h 0).stable
  unfold runOnce
  refine Async.safe_lift_bind (fun _ => start) (hquiet.now _ hstart w hw) fun startedAt w hw => ?_
  refine Async.safe_lift_bind (fun _ => start) (hquiet.log _ _ hstart w hw) fun _ w hw => ?_
  refine Async.safe_bind (fun resumeState => spec.head resumeState.progress) ?_
    fun resumeState w hw => (h startedAt).safe_runFrom hw
  unfold resolveResumeState
  refine Async.safe_bind (fun read => spec.head (resumeStateOf read).progress) (hread w hw)
    fun read w hw => ?_
  split
  · exact Proc.safe_pure (hstable.head _) hw
  · exact Async.safe_lift_bind (fun _ => spec.head (resumeStateOf read).progress)
      (hquiet.log _ _ (hstable.head _) w hw) fun _ w hw => Proc.safe_pure (hstable.head _) hw

end Rule

/-! ## Requests -/

section Requests

variable {Text : Type} {E : Type} {R : E → Type} {P : E → Prop} {pf : Platform Text}
  {input : RunOnceInput E R}

/-- Every request a dependency of the run may send is in `P`. -/
structure RunOnceInput.Asks (P : E → Prop) (pf : Platform Text) (input : RunOnceInput E R) :
    Prop where
  awaitFloor : Proc.Asks P input.awaitFloor
  now : Proc.Asks P input.now
  log : ∀ line, Proc.Asks P (logLine input line)
  read : ∀ slug, slug = pf.withoutUserinfo input.sourceUrl →
    Proc.Asks P (input.checkpointStore.read slug)
  write : ∀ checkpoint etag slug, slug = pf.withoutUserinfo input.sourceUrl →
    Proc.Asks P (input.checkpointStore.write { checkpoint, etag, slug })
  discover : ∀ page, Proc.Asks P (input.discoverReplays (discoverInput pf input page))
  ingest : ∀ state candidates, Proc.Asks P (ingestPage (ingestInput input state candidates))
  evidenceStore : ∀ write, input.evidenceStore = some write → ∀ runId summary,
    Proc.Asks P (write runId summary)
  writeEvidenceFile : ∀ write, input.writeEvidenceFile = some write → ∀ path summary,
    Proc.Asks P (write path summary)

/-- The same of all dependencies but discovery. -/
structure RunOnceInput.AsksAround (P : E → Prop) (pf : Platform Text) (input : RunOnceInput E R) :
    Prop where
  awaitFloor : Proc.Asks P input.awaitFloor
  now : Proc.Asks P input.now
  log : ∀ line, Proc.Asks P (logLine input line)
  read : ∀ slug, slug = pf.withoutUserinfo input.sourceUrl →
    Proc.Asks P (input.checkpointStore.read slug)
  write : ∀ checkpoint etag slug, slug = pf.withoutUserinfo input.sourceUrl →
    Proc.Asks P (input.checkpointStore.write { checkpoint, etag, slug })
  ingest : ∀ state candidates, Proc.Asks P (ingestPage (ingestInput input state candidates))
  evidenceStore : ∀ write, input.evidenceStore = some write → ∀ runId summary,
    Proc.Asks P (write runId summary)
  writeEvidenceFile : ∀ write, input.writeEvidenceFile = some write → ∀ path summary,
    Proc.Asks P (write path summary)

theorem RunOnceInput.Asks.around (h : input.Asks P pf) : input.AsksAround P pf where
  awaitFloor := h.awaitFloor
  now := h.now
  log := h.log
  read := h.read
  write := h.write
  ingest := h.ingest
  evidenceStore := h.evidenceStore
  writeEvidenceFile := h.writeEvidenceFile

namespace RunOnceInput.AsksAround

theorem resolveResumeState (h : input.AsksAround P pf) :
    Proc.Asks P (resolveResumeState input (pf.withoutUserinfo input.sourceUrl)) := by
  unfold ReplaysFetcher.resolveResumeState
  refine Async.asks_bind (h.read _ rfl) fun read => ?_
  split
  · trivial
  · exact Async.asks_lift_bind (h.log _) fun _ => trivial

theorem writePageCheckpoint (h : input.AsksAround P pf) {page : WritePageCheckpointInput}
    (hslug : page.slug = pf.withoutUserinfo input.sourceUrl) :
    Proc.Asks P (writePageCheckpoint input page) := by
  unfold ReplaysFetcher.writePageCheckpoint
  refine Async.asks_lift_bind (h.now.bind fun now => trivial) fun checkpoint => ?_
  refine Async.asks_tryCatch (h.write _ _ _ hslug) fun error => ?_
  exact Async.asks_lift_bind (h.log _) fun _ => trivial

theorem applyRateLimitThrottle (h : input.AsksAround P pf) (report : DiscoveryReport)
    (state : LoopState) : Proc.Asks P (applyRateLimitThrottle input report state) := by
  unfold ReplaysFetcher.applyRateLimitThrottle
  split
  · exact h.now.bind fun _ => trivial
  · trivial

theorem emitPageFailureEvent (h : input.AsksAround P pf) (page : ℕ) (report : DiscoveryReport) :
    Proc.Asks P (emitPageFailureEvent input page report) := by
  unfold ReplaysFetcher.emitPageFailureEvent
  split
  · trivial
  · exact h.log _

theorem completeOkPage (h : input.AsksAround P pf) {context : AssembleContext}
    (hslug : context.slug = pf.withoutUserinfo input.sourceUrl) (page : ℕ)
    (candidates : List ReplayCandidate) (state : LoopState) :
    Proc.Asks P (completeOkPage input context page candidates state) := by
  unfold ReplaysFetcher.completeOkPage
  refine Async.asks_lift_bind h.now fun throttledAt => ?_
  refine Async.asks_bind (h.ingest _ _) fun result => ?_
  refine Async.asks_lift_bind h.now fun completedAt => ?_
  refine Async.asks_lift_bind (h.log _) fun _ => ?_
  exact Async.asks_bind (h.writePageCheckpoint hslug) fun etag => trivial

theorem writeEvidence (h : input.AsksAround P pf) (summary : RunSummary) :
    Proc.Asks P (writeEvidence input summary) := by
  have hwith : ∀ write : Option (Async E R JsError Unit),
      (∀ p, write = some p → Proc.Asks P p) → Proc.Asks P (writeEvidenceWith input write) := by
    intro write hwrite
    unfold writeEvidenceWith
    split
    · trivial
    · exact Async.asks_tryCatch (hwrite _ rfl) fun error => (h.log _).bind fun _ => trivial
  unfold ReplaysFetcher.writeEvidence
  refine Async.asks_bind (hwith _ fun p hp => ?_) fun _ => hwith _ fun p hp => ?_
  · split at hp
    · obtain ⟨write, hwrite, rfl⟩ := Option.map_eq_some_iff.1 hp
      exact h.evidenceStore write hwrite _ _
    · cases hp
  · split at hp
    · cases hp
      exact h.writeEvidenceFile _ ‹_› _ _
    · cases hp

theorem assembleResult (h : input.AsksAround P pf) {context : AssembleContext}
    (hslug : context.slug = pf.withoutUserinfo input.sourceUrl) (state : LoopState) :
    Proc.Asks P (assembleResult input context state) := by
  unfold ReplaysFetcher.assembleResult
  refine Async.asks_bind ?_ fun _ => ?_
  · split
    · unfold writeFinalCheckpoint
      refine Async.asks_lift_bind (h.now.bind fun now => trivial) fun checkpoint => ?_
      refine Async.asks_tryCatch ?_ fun error => (h.log _).bind fun _ => trivial
      exact Async.asks_bind (h.write _ _ _ hslug) fun _ => trivial
    · trivial
  · refine Async.asks_lift_bind h.now fun finishedAt => ?_
    refine Async.asks_lift_bind (h.log _) fun _ => ?_
    exact Async.asks_bind (h.writeEvidence _) fun _ => trivial

end RunOnceInput.AsksAround

theorem RunOnceInput.Asks.pageIteration (h : input.Asks P pf) {context : AssembleContext}
    (hslug : context.slug = pf.withoutUserinfo input.sourceUrl) (cursor : LoopState × ℕ) :
    Proc.Asks P (pageIteration pf input context cursor) := by
  unfold ReplaysFetcher.pageIteration
  split
  · trivial
  · refine Async.asks_lift_bind h.awaitFloor fun _ => ?_
    refine Async.asks_bind (h.discover _) fun report => ?_
    by_cases hreport : report.ok = false
    · rw [if_pos hreport]
      refine Async.asks_lift_bind (h.around.applyRateLimitThrottle _ _) fun state => ?_
      exact Async.asks_lift_bind (h.around.emitPageFailureEvent _ _) fun _ => trivial
    · rw [if_neg hreport]
      split
      · trivial
      · refine Async.asks_bind (h.around.completeOkPage hslug _ _ _) fun x => ?_
        obtain ⟨state, counts⟩ := x
        dsimp only
        split <;> trivial

/-- **A run asks what its dependencies ask.** -/
theorem asks_runOnce (h : input.Asks P pf) : Proc.Asks P (runOnce pf input) := by
  unfold runOnce
  refine Async.asks_lift_bind h.now fun startedAt => ?_
  refine Async.asks_lift_bind (h.log _) fun _ => ?_
  refine Async.asks_bind h.around.resolveResumeState fun resumeState => ?_
  unfold runFrom
  exact Async.asks_bind (Async.asks_iterate (h.pageIteration rfl)) (h.around.assembleResult rfl)

end Requests

end ReplaysFetcher
