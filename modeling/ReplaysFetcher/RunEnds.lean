/-
  Runs end.

  `safe_runOnce` says what has happened when a run returns; here is when it does return.  The page
  loop has no bound of its own: it goes on while pages have something new.  So a run ends when each of
  its dependencies does, the limiter lets something through, and the assertion at the head of the
  loop bounds the page.
-/
import ReplaysFetcher.FanOut
import ReplaysFetcher.PageTurns

namespace ReplaysFetcher

open Effectful

section Settles

variable {Text : Type} {W E : Type} {R : E → Type} {env : Env W E R} {pf : Platform Text}
  {input : RunOnceInput E R} {context : AssembleContext} {w : W}

variable (env input) in
/-- Every dependency comes to a result, whatever the world does between two of its requests. -/
structure RunOnceInput.Settles : Prop where
  awaitFloor : Proc.Settles env input.awaitFloor
  now : Proc.Settles env input.now
  log : ∀ line, Proc.Settles env (logLine input line)
  read : ∀ slug, Proc.Settles env (input.checkpointStore.read slug)
  write : ∀ write, Proc.Settles env (input.checkpointStore.write write)
  discover : ∀ page, Proc.Settles env (input.discoverReplays page)
  ingest : ∀ state candidates, 0 < state.limit →
    Proc.Settles env (ingestPage (ingestInput input state candidates))
  evidenceStore : ∀ write, input.evidenceStore = some write → ∀ runId summary,
    Proc.Settles env (write runId summary)
  writeEvidenceFile : ∀ write, input.writeEvidenceFile = some write → ∀ path summary,
    Proc.Settles env (write path summary)

namespace RunOnceInput.Settles

/-- Building a checkpoint reads the clock. -/
theorem buildCheckpoint (h : input.Settles env) (built : BuildCheckpointInput) :
    Proc.Settles env (buildCheckpoint input built) := h.now.bind fun _ => .pure _

/-- A page's checkpoint is built and written; a failed write is logged. -/
theorem writePageCheckpoint (h : input.Settles env) (page : WritePageCheckpointInput) :
    Proc.Settles env (writePageCheckpoint input page) := by
  unfold ReplaysFetcher.writePageCheckpoint
  refine Async.settles_lift_bind (h.buildCheckpoint _) fun checkpoint => ?_
  refine Async.settles_tryCatch (h.write _) fun error => ?_
  exact Async.settles_lift_bind (h.log _) fun _ => .pure _

/-- The controller is told of the page by the clock. -/
theorem applyRateLimitThrottle (h : input.Settles env) (report : DiscoveryReport)
    (state : LoopState) : Proc.Settles env (applyRateLimitThrottle input report state) := by
  unfold ReplaysFetcher.applyRateLimitThrottle
  split
  · exact h.now.bind fun _ => .pure _
  · exact .pure _

/-- A failed page is logged. -/
theorem emitPageFailureEvent (h : input.Settles env) (page : ℕ) (report : DiscoveryReport) :
    Proc.Settles env (emitPageFailureEvent input page report) := by
  unfold ReplaysFetcher.emitPageFailureEvent
  split
  · exact .pure _
  · exact h.log _

/-- A clean page leaves the limiter where it was configured. -/
theorem completeOkPage (h : input.Settles env) (hconcurrency : 0 < input.concurrency)
    {state : LoopState} (hstate : Unthrottled input state) (page : ℕ)
    (candidates : List ReplayCandidate) :
    Proc.Settles env (completeOkPage input context page candidates state) := by
  unfold ReplaysFetcher.completeOkPage
  refine Async.settles_lift_bind h.now fun throttledAt => ?_
  have hlimit : 0 < (onCleanWindow (throttleOptions input) state.throttle throttledAt).concurrency := by
    rw [(onCleanWindow_unthrottled hstate throttledAt).1]
    exact hconcurrency
  refine Async.settles_bind (h.ingest _ _ hlimit) fun result => ?_
  refine Async.settles_lift_bind h.now fun completedAt => ?_
  refine Async.settles_lift_bind (h.log _) fun _ => ?_
  exact Async.settles_bind (h.writePageCheckpoint _) fun etag => .pure _

/-- What follows a page's discovery settles, if its limiter lets a task start. -/
theorem afterDiscovery (h : input.Settles env) (hconcurrency : 0 < input.concurrency)
    {cursor : LoopState × ℕ} (hstate : Unthrottled input cursor.1) (report : DiscoveryReport) :
    Proc.Settles env (afterDiscovery input context cursor report) := by
  unfold ReplaysFetcher.afterDiscovery
  split
  · refine Async.settles_lift_bind (h.applyRateLimitThrottle _ _) fun state => ?_
    exact Async.settles_lift_bind (h.emitPageFailureEvent _ _) fun _ => .pure _
  · split
    · exact .pure _
    · have hdiscovered : Unthrottled input (discoveredState cursor.1 report) :=
        ⟨hstate.limit, hstate.concurrency, hstate.streak⟩
      exact Async.settles_bind (h.completeOkPage hconcurrency hdiscovered _ _) fun _ => .pure _

/-- **One turn of the page loop.** -/
theorem pageIteration (h : input.Settles env) (hconcurrency : 0 < input.concurrency)
    {cursor : LoopState × ℕ} (hstate : Unthrottled input cursor.1) :
    Proc.Settles env (pageIteration pf input context cursor) := by
  rw [pageIteration_eq]
  refine Async.settles_bind ?_ fun turn => .pure _
  unfold pageTurn
  split
  · exact .pure _
  · refine Async.settles_lift_bind h.awaitFloor fun _ => ?_
    exact Async.settles_bind (h.discover _) fun report => h.afterDiscovery hconcurrency hstate report

/-- Writing the evidence settles, whether it is written or not. -/
theorem writeEvidence (h : input.Settles env) (summary : RunSummary) :
    Proc.Settles env (writeEvidence input summary) := by
  have hwith : ∀ write : Option (Async E R JsError Unit),
      (∀ p, write = some p → Proc.Settles env p) →
      Proc.Settles env (writeEvidenceWith input write) := by
    intro write hwrite
    unfold writeEvidenceWith
    split
    · exact .pure _
    · exact Async.settles_tryCatch (hwrite _ rfl) fun error => (h.log _).bind fun _ => .pure _
  unfold ReplaysFetcher.writeEvidence
  refine Async.settles_bind (hwith _ fun p hp => ?_) fun _ => hwith _ fun p hp => ?_
  · split at hp
    · obtain ⟨write, hwrite, rfl⟩ := Option.map_eq_some_iff.1 hp
      exact h.evidenceStore write hwrite _ _
    · cases hp
  · split at hp
    · cases hp
      exact h.writeEvidenceFile _ ‹_› _ _
    · cases hp

/-- So does the end of a run. -/
theorem assembleResult (h : input.Settles env) (state : LoopState) :
    Proc.Settles env (assembleResult input context state) := by
  unfold ReplaysFetcher.assembleResult
  refine Async.settles_bind ?_ fun _ => ?_
  · split
    · unfold writeFinalCheckpoint
      refine Async.settles_lift_bind (h.buildCheckpoint _) fun checkpoint => ?_
      refine Async.settles_tryCatch ?_ fun error => (h.log _).bind fun _ => .pure _
      exact Async.settles_bind (h.write _) fun _ => .pure _
    · exact .pure _
  · refine Async.settles_lift_bind h.now fun finishedAt => ?_
    refine Async.settles_lift_bind (h.log _) fun _ => ?_
    exact Async.settles_bind (h.writeEvidence _) fun _ => .pure _

end RunOnceInput.Settles

/-! ## The loop -/

/-- A turn that goes on goes to the next page, with the limiter as it was. -/
theorem safe_pageIteration_next {cursor : LoopState × ℕ} (hstate : Unthrottled input cursor.1) :
    Proc.Safe env Lts.Alone (fun _ _ => True)
      (Async.Outcome (fun x _ => ∀ next, x = .inl next →
        Unthrottled input next.1 ∧ next.2 = cursor.2 + 1) fun _ _ => True) w
      (pageIteration pf input context cursor) := by
  rw [pageIteration_eq]
  refine Async.safe_bind _ (safe_pageTurn_throttle hstate) fun turn w hturn => ?_
  refine Proc.safe_pure (fun _ _ h _ => h) fun next hnext => ?_
  cases turn with
  | completed report counts state =>
    unfold PageTurn.next at hnext
    split at hnext
    · cases hnext
    · cases hnext
      exact ⟨hturn, rfl⟩
  | capped state => cases hnext
  | failed report state => cases hnext
  | empty report state => cases hnext

variable {guar : W → W → Prop} {post : Except JsError RunOnceResult → W → Prop} {spec : RunSpec W}

/-- The loop, when the assertion at its head bounds the page. -/
theorem RunSpec.Holds.ends_runPageLoop
    (h : RunSpec.Holds env Lts.Alone guar pf input post context spec) (hsettles : input.Settles env)
    (hconcurrency : 0 < input.concurrency) {last : ℕ}
    (hlast : ∀ p w, spec.head p w → p.nextPage ≤ last) {state : LoopState}
    (hstate : Unthrottled input state) (hok : state.discoveryReport.ok = true)
    (hcap : state.reachedMaxPages = false) (hw : spec.head state.progress w) :
    Proc.Ends env (Async.Outcome spec.afterLoop fun e w => post (.error e) w) w
      (runPageLoop pf input context state) := by
  refine Async.ends_iterate (fun cursor w => spec.atHead cursor w ∧ Unthrottled input cursor.1)
    (fun cursor => last + 1 - cursor.2) ?_ ⟨⟨rfl, hok, hcap, hw⟩, hstate⟩
  rintro cursor w ⟨hhead, hcursor⟩
  have hturn := ((h.safe_pageIteration hhead).and (safe_pageIteration_next hcursor)).ends
    ((hsettles.pageIteration hconcurrency hcursor).ends w)
  refine hturn.imp ?_
  rintro (error | next | final) w ⟨hturned, hnext⟩
  · exact hturned
  · -- the next page is still one the assertion allows, so fewer are left
    have hhead' : spec.atHead next w := hturned
    obtain ⟨hcursor', hpage⟩ := hnext next rfl
    have hle : next.1.lastCompletedPage + FIRST_PAGE ≤ last := hlast _ _ hhead'.2.2.2
    have hsame := hhead'.1
    exact ⟨⟨hhead', hcursor'⟩, by omega⟩
  · exact hturned

/-- **A run ends**, as the rule for runs says it does. -/
theorem ends_runOnce (start : W → Prop)
    (h : ∀ startedAt, RunSpec.Holds env Lts.Alone guar pf input post
      { slug := pf.withoutUserinfo input.sourceUrl, startedAt := toISOString startedAt } spec)
    (hread : ∀ w, start w → Proc.Safe env Lts.Alone guar
      (Async.Outcome (fun read => spec.head (resumeStateOf read).progress)
        fun e w => post (.error e) w) w
      (input.checkpointStore.read (pf.withoutUserinfo input.sourceUrl)))
    (hsettles : input.Settles env) (hconcurrency : 0 < input.concurrency) {last : ℕ}
    (hlast : ∀ p w, spec.head p w → p.nextPage ≤ last) (hw : start w) :
    Proc.Ends env post w (runOnce pf input) := by
  have hquiet := (h 0).quiet
  have hhead := (h 0).stable.head
  have halone : ∀ {P : W → Prop}, ∀ w w', P w → Lts.Alone w w' → P w' := fun _ _ hw hr => hr ▸ hw
  unfold runOnce
  refine Async.ends_lift_bind (fun _ => start)
    ((hquiet.now start halone w hw).ends (hsettles.now.ends w)) fun startedAt w hw => ?_
  refine Async.ends_lift_bind (fun _ => start)
    ((hquiet.log _ start halone w hw).ends ((hsettles.log _).ends w)) fun _ w hw => ?_
  refine Async.ends_bind (fun resumeState => spec.head resumeState.progress) ?_
    fun resumeState w hw => ?_
  · unfold resolveResumeState
    refine Async.ends_bind (fun read => spec.head (resumeStateOf read).progress)
      ((hread w hw).ends ((hsettles.read _).ends w)) fun read w hw => ?_
    split
    · exact Proc.ends_pure hw
    · exact Async.ends_lift_bind (fun _ => spec.head (resumeStateOf read).progress)
        ((hquiet.log _ _ (hhead _) w hw).ends ((hsettles.log _).ends w))
        fun _ w hw => Proc.ends_pure hw
  · unfold runFrom
    refine Async.ends_bind (fun state w => (spec.afterLoop) state w)
      ((h startedAt).ends_runPageLoop hsettles hconcurrency hlast
        (unthrottled_loopStateOf _ resumeState) rfl rfl hw) fun state w hw => ?_
    exact ((h startedAt).safe_assembleResult hw).ends ((hsettles.assembleResult state).ends w)

end Settles

/-! ## The invocation -/

section Wired

variable {Text : Type} {pf : Platform Text} {W : Type} {env : Env W (Effect Text) Reply}

/-- So does a read of the checkpoint. -/
theorem settles_readCheckpoint (hanswer : ∀ w e, ∃ r w', env w e r w')
    (options : CheckpointStoreOptions) (slug : String) :
    Proc.Settles env (readCheckpoint pf options slug) := by
  have hperform : ∀ e, Proc.Settles env (Proc.perform e) := fun e =>
    Proc.settles_call (fun w => hanswer w e) fun _ _ _ _ => .pure _
  unfold readCheckpoint
  refine Async.settles_bind ?_ fun key => ?_
  · cases checkpointKey pf options slug <;> exact .pure _
  · refine Async.settles_tryCatch (Async.settles_bind (hperform _) fun output => .pure _) fun error => ?_
    split
    · exact .pure _
    · exact .pure _

/-- The compare-and-swap loop has a bound of its own. -/
theorem settles_casRounds (hanswer : ∀ w e, ∃ r w', env w e r w')
    (options : CheckpointStoreOptions) (slug : String) (remaining : ℕ) (intended : Checkpoint)
    (etag : Option String) :
    Proc.Settles env (casRounds pf options slug remaining intended etag) := by
  have hperform : ∀ e, Proc.Settles env (Proc.perform e) := fun e =>
    Proc.settles_call (fun w => hanswer w e) fun _ _ _ _ => .pure _
  induction remaining generalizing intended etag with
  | zero => exact .pure _
  | succ remaining ih =>
    unfold casRounds
    refine Async.settles_tryCatch ?_ fun error => ?_
    · unfold putCheckpoint
      refine Async.settles_bind ?_ fun key => hperform _
      cases checkpointKey pf options slug <;> exact .pure _
    · split
      · refine Async.settles_lift_bind ?_ fun _ => ?_
        · unfold jitterDelay
          exact Proc.settles_call (fun w => hanswer w _) fun _ r _ _ => hperform (.sleep _)
        · exact Async.settles_bind (settles_readCheckpoint hanswer options slug) fun fresh => ih _ _
      · exact .pure _

/-- **Every dependency of the invocation settles**, when every request gets an answer. -/
theorem RunConfig.settles (hanswer : ∀ w e, ∃ r w', env w e r w') (config : RunConfig) :
    (config.toInput pf (config.store pf)).Settles env := by
  have hperform : ∀ e, Proc.Settles env (Proc.perform e) := fun e =>
    Proc.settles_call (fun w => hanswer w e) fun _ _ _ _ => .pure _
  have hloopFree : ∀ {α : Type} {p : Program Text α}, Proc.LoopFree (fun _ => True) p →
      Proc.Settles env p := fun h => h.settles fun w e _ => hanswer w e
  constructor
  · exact hperform _
  · exact hperform _
  · exact fun line => hperform _
  · exact fun slug => settles_readCheckpoint hanswer _ slug
  · exact fun write => settles_casRounds hanswer _ _ _ _ _
  · exact fun page => hperform _
  · intro state candidates hlimit
    have hsteps : StepsSettle env (ingestInput (config.toInput pf (config.store pf)) state
        candidates) :=
      { gate := fun _ h => by cases h
        store := fun candidate => hloopFree (loopFree_storeRawReplay candidate)
        stage := fun rawResult runId => hloopFree (loopFree_stageRawReplay rawResult runId) }
    rw [ingestPage_eq]
    exact Proc.settles_fan hlimit (fun i => hsteps.candidate _) fun _ => .pure _
  · rintro _ ⟨⟩ runId summary
    exact hperform _
  · rintro _ ⟨⟩ path summary
    exact hperform _

end Wired

end ReplaysFetcher
