/-
  One turn of the page loop, and why it ends the loop (`src/run/run-once-page.ts`).

  The source keeps the reason it stops for in a variable of its own and derives one flag from it at
  the end.  `PageTurn` is what a turn has come to, with that reason; `pageIteration_eq` says that the
  loop's body is such a turn and nothing else.  With it three promises of the loop can be looked at:

  1. "all duplicate" stops on a page without anything new (`allDuplicate_exact_iff`).  The three
     counters it is decided from do not know conflicts, so a page of duplicates and conflicts stops
     the loop as well.
  2. A rate-limited page makes the throttle shrink the limiter (`throttle_never_shrinks`).  The
     controller waits for a second such page, and the loop ends with the first.
-/
import ReplaysFetcher.Accounting
import ReplaysFetcher.Effectful.Runs

namespace ReplaysFetcher

open Effectful

/-! ## Turns -/

/-- What a turn of the page loop has come to. -/
inductive PageTurn
  | capped (state : LoopState)
  | failed (report : DiscoveryReport) (state : LoopState)
  | empty (report : DiscoveryReport) (state : LoopState)
  | completed (report : DiscoveryReport) (counts : IngestPageCounts) (state : LoopState)

namespace PageTurn

def state : PageTurn → LoopState
  | capped state => state
  | failed _ state => state
  | empty _ state => state
  | completed _ _ state => state

/-- `stopReason`, when the loop stops here. -/
def stopReason : PageTurn → Option StopReason
  | capped _ => some .cap
  | failed _ _ => some .pageFailed
  | empty _ _ => some .empty
  | completed _ counts _ => if isAllDuplicate counts then some .allDuplicate else none

/-- `inl` goes on with the next page, `inr` leaves. -/
def next (turn : PageTurn) (page : ℕ) : (LoopState × ℕ) ⊕ LoopState :=
  match turn.stopReason with
  | some reason => .inr (stopped reason turn.state)
  | none => .inl (turn.state, page + 1)

end PageTurn

section Turn

variable {Text : Type} (pf : Platform Text) {E : Type} {R : E → Type} (input : RunOnceInput E R)
  (context : AssembleContext) (cursor : LoopState × ℕ)

/-- The state once the page is discovered. -/
def discoveredState (state : LoopState) (report : DiscoveryReport) : LoopState :=
  { state with discoveryReport := appendDiscoveryReport state.discoveryReport report }

/-- What follows the discovery of a page. -/
def afterDiscovery (report : DiscoveryReport) : Async E R JsError PageTurn :=
  if report.ok = false then do
    let state ← (applyRateLimitThrottle input report (discoveredState cursor.1 report) :
      Proc E R LoopState)
    (emitPageFailureEvent input cursor.2 report : Proc E R Unit)
    pure (.failed report state)
  else if report.candidates = [] then pure (.empty report (discoveredState cursor.1 report))
  else do
    let (state, counts) ← completeOkPage input context cursor.2 report.candidates
      (discoveredState cursor.1 report)
    pure (.completed report counts state)

def pageTurn : Async E R JsError PageTurn :=
  if input.maxPages.any fun maxPages => maxPages < cursor.2 then pure (.capped cursor.1)
  else do
    (input.awaitFloor : Proc E R Unit)
    let report ← input.discoverReplays (discoverInput pf input cursor.2)
    afterDiscovery input context cursor report

/-- **The loop's body is such a turn.** -/
theorem pageIteration_eq : pageIteration pf input context cursor =
    (do
      let turn ← pageTurn pf input context cursor
      pure (turn.next cursor.2) : Async E R JsError ((LoopState × ℕ) ⊕ LoopState)) := by
  unfold pageIteration pageTurn
  split
  · rfl
  · simp only [bind_assoc]
    congr 1
    funext _
    congr 1
    funext report
    unfold afterDiscovery
    split
    · simp only [bind_assoc, pure_bind]
      rfl
    · split
      · rfl
      · simp only [bind_assoc]
        congr 1
        funext x
        obtain ⟨state, counts⟩ := x
        simp only [pure_bind, PageTurn.next, PageTurn.stopReason]
        split
        · rfl
        · rfl

end Turn

/-- Whatever resolves: nothing is known of it. -/
theorem safe_unknown {W E : Type} {R : E → Type} {env : Env W E R} {w : W} {α : Type}
    (p : Async E R JsError α) :
    Proc.Safe env Lts.Alone (fun _ _ => True)
      (Async.Outcome (fun _ _ => True) fun _ _ => True) w p := by
  refine (Proc.safe_any (fun _ _ => trivial) p).imp ?_
  rintro (e | a) w _ <;> trivial

/-! ## All duplicate -/

/-- The bytes were there already, and so was the row. -/
def SettledCandidate.IsDuplicate : SettledCandidate → Prop
  | .processed rawResult stagingResult =>
    rawResult.status = .skipped ∧ stagingResult.status = .alreadyStaged
  | .skipped => False

/-- The candidate moved one of the three counters the decision looks at. -/
def SettledCandidate.Moves : SettledCandidate → Prop
  | .processed rawResult stagingResult =>
    rawResult.status = .stored ∨ rawResult.status = .failed ∨
      stagingResult.status = .staged ∨ stagingResult.status = .failed
  | .skipped => False

/-- Another object is under its key, or another row under its identity. -/
def SettledCandidate.Conflicts : SettledCandidate → Prop
  | .processed rawResult stagingResult =>
    rawResult.status = .conflict ∨ stagingResult.status = .conflict
  | .skipped => False

/-- Which raw statuses and staging statuses go together: only bytes in storage are staged. -/
inductive StatusPair : RawReplayStorageStatus → StagingOutcomeStatus → Prop
  | staged {raw : RawReplayStorageStatus} {staging : StagingOutcomeStatus}
      (hraw : raw = .stored ∨ raw = .skipped) (hstaging : staging ≠ .notStageable) :
      StatusPair raw staging
  | refused {raw : RawReplayStorageStatus} (hraw : raw = .conflict ∨ raw = .failed) :
      StatusPair raw .notStageable

/-- What `storeRawReplay` and `stageRawReplay` can make of a candidate. -/
def SettledCandidate.Producible : SettledCandidate → Prop
  | .processed rawResult stagingResult => StatusPair rawResult.status stagingResult.status
  | .skipped => False

/-- A candidate that moved nothing is a duplicate, or in conflict. -/
theorem SettledCandidate.Producible.unmoved {settled : SettledCandidate} (h : settled.Producible)
    (hunmoved : ¬ settled.Moves) : settled.IsDuplicate ∨ settled.Conflicts := by
  cases settled with
  | skipped => exact h.elim
  | processed rawResult stagingResult =>
    obtain ⟨hstored, hfailed, hstaged, hstagingFailed⟩ :
        rawResult.status ≠ .stored ∧ rawResult.status ≠ .failed ∧
          stagingResult.status ≠ .staged ∧ stagingResult.status ≠ .failed := by
      simpa [Moves] using hunmoved
    generalize hstatus : stagingResult.status = staging at *
    have hpair : StatusPair rawResult.status staging := hstatus ▸ h
    cases hpair with
    | staged hraw hstageable =>
      have hskipped : rawResult.status = .skipped := hraw.resolve_left hstored
      cases staging with
      | alreadyStaged => exact Or.inl ⟨hskipped, hstatus⟩
      | conflict => exact Or.inr (Or.inr hstatus)
      | staged => exact absurd rfl hstaged
      | failed => exact absurd rfl hstagingFailed
      | notStageable => exact absurd rfl hstageable
    | refused hraw => exact Or.inr (Or.inl (hraw.resolve_right hfailed))

theorem SettledCandidate.IsDuplicate.unmoved {settled : SettledCandidate}
    (h : settled.IsDuplicate) : ¬ settled.Moves ∧ ¬ settled.Conflicts := by
  cases settled with
  | skipped => exact h.elim
  | processed rawResult stagingResult =>
    obtain ⟨hraw, hstaging⟩ := h
    unfold Moves Conflicts
    dsimp only
    rw [hraw, hstaging]
    decide

/-- The decision, read off the outcomes of the page. -/
theorem isAllDuplicate_tallyPage (settled : List SettledCandidate) :
    isAllDuplicate (tallyPage settled).counts = true ↔ ∀ s ∈ settled, ¬ s.Moves := by
  have htally := tallyPage_spec settled
  unfold isAllDuplicate
  rw [htally.stored, htally.staged, htally.failed]
  simp only [Bool.and_eq_true, decide_eq_true_eq, Nat.add_eq_zero_iff, List.countP_eq_zero]
  constructor
  · rintro ⟨⟨hstored, hstaged⟩, hfailed, hstagingFailed⟩ s hs
    cases s with
    | skipped => exact id
    | processed rawResult stagingResult =>
      have h1 := hstored _ hs
      have h2 := hstaged _ hs
      have h3 := hfailed _ hs
      have h4 := hstagingFailed _ hs
      simp only [SettledCandidate.rawStatusIs, SettledCandidate.stagingStatusIs,
        decide_eq_true_eq] at h1 h2 h3 h4
      rintro (h | h | h | h)
      · exact h1 h
      · exact h3 h
      · exact h2 h
      · exact h4 h
  · intro h
    refine ⟨⟨fun s hs => ?_, fun s hs => ?_⟩, fun s hs => ?_, fun s hs => ?_⟩ <;>
      have hs := h s hs <;> cases s <;>
      simp_all [SettledCandidate.Moves, SettledCandidate.rawStatusIs,
        SettledCandidate.stagingStatusIs]

/-- When the decision means what it says. -/
theorem isAllDuplicate_exact {settled : List SettledCandidate}
    (hproducible : ∀ s ∈ settled, s.Producible) :
    ((isAllDuplicate (tallyPage settled).counts = true ↔ ∀ s ∈ settled, s.IsDuplicate) ↔
      ((∃ s ∈ settled, s.Conflicts) → ∃ s ∈ settled, s.Moves)) := by
  rw [isAllDuplicate_tallyPage]
  constructor
  · rintro hexact ⟨s, hs, hconflict⟩
    by_contra hnone
    have hunmoved : ∀ s ∈ settled, ¬ s.Moves := fun s hs hmoves => hnone ⟨s, hs, hmoves⟩
    exact (hexact.1 hunmoved s hs).unmoved.2 hconflict
  · intro hmoves
    refine ⟨fun hunmoved s hs => ?_, fun hduplicate s hs => (hduplicate s hs).unmoved.1⟩
    rcases (hproducible s hs).unmoved (hunmoved s hs) with hduplicate | hconflict
    · exact hduplicate
    · obtain ⟨s', hs', hmoved⟩ := hmoves ⟨s, hs, hconflict⟩
      exact absurd hmoved (hunmoved s' hs')

section AllDuplicate

variable {Text : Type} {pf : Platform Text} {config : RunConfig} {l : Conversation Text}
  {context : AssembleContext} {cursor : LoopState × ℕ}

/-- Staging a payload never answers that it is not stageable. -/
theorem safe_stage_status (payload : IngestStagingPayload) (l : Conversation Text) :
    Proc.Safe Env.free Lts.Alone (fun _ _ => True)
      (Async.Outcome (fun result _ => result.status ≠ .notStageable) fun _ _ => True) l
      (stage payload) := by
  have hstable : ∀ (r : Except JsError IngestStagingResult) (l l' : Conversation Text),
      Async.Outcome (fun result _ => result.status ≠ .notStageable) (fun _ _ => True) r l →
      Lts.Alone l l' →
      Async.Outcome (fun result _ => result.status ≠ .notStageable) (fun _ _ => True) r l' := by
    rintro (error | result) _ _ h _
    · trivial
    · exact h
  have herror : ∀ error (l : Conversation Text), StageErrorPost
      (Async.Outcome (fun result _ => result.status ≠ .notStageable) fun _ _ => True)
      (fun _ => True) payload error l := by
    intro error l
    unfold StageErrorPost
    split
    · trivial
    · exact (by decide : StagingOutcomeStatus.failed ≠ .notStageable)
  refine safe_stage (fun _ => True) (fun _ => True) (fun _ => True) (fun _ _ _ _ => trivial)
    (fun _ _ _ _ => trivial) hstable (fun l _ r l' _ => ⟨trivial, ?_⟩)
    (fun l _ r l' _ => ⟨trivial, ?_⟩) (fun l _ => ?_) trivial
  · -- the INSERT
    match r with
    | .ok (some id) => exact (by decide : StagingOutcomeStatus.staged ≠ .notStageable)
    | .ok none => trivial
    | .error error => exact herror error l'
  · -- the lookup by checksum and object key
    match r with
    | .ok (some row) => exact (by decide : StagingOutcomeStatus.alreadyStaged ≠ .notStageable)
    | .ok none => trivial
    | .error error => exact herror error l'
  · -- the two lookups that tell why the INSERT was refused
    refine safe_classifyExistingStaging (fun _ => True) (fun _ => True) (fun _ _ _ _ => trivial)
      (fun _ _ _ _ => trivial) hstable (fun l _ r l' _ => ⟨trivial, ?_⟩)
      (fun l _ r l' _ => ⟨trivial, ?_⟩) trivial
    · match r with
      | .ok (some row) =>
        show (existingResult payload row).status ≠ .notStageable
        unfold existingResult
        split
        · exact (by decide : StagingOutcomeStatus.alreadyStaged ≠ .notStageable)
        · exact (by decide : StagingOutcomeStatus.conflict ≠ .notStageable)
      | .ok none => trivial
      | .error error => trivial
    · match r with
      | .ok (some row) => exact (by decide : StagingOutcomeStatus.conflict ≠ .notStageable)
      | .ok none => exact (by decide : StagingOutcomeStatus.failed ≠ .notStageable)
      | .error error => trivial

theorem safe_stageRawReplay_status (rawResult : StoreRawReplayResult) (runId : Option String)
    (l : Conversation Text) :
    Proc.Safe Env.free Lts.Alone (fun _ _ => True)
      (Async.Outcome (fun result _ => StatusPair rawResult.status result.status)
        fun _ _ => True) l (stageRawReplay pf rawResult runId) := by
  cases rawResult with
  | fetchFailed evidence => exact Proc.safe_pure (fun _ _ h _ => h) (.refused (Or.inr rfl))
  | stored evidence =>
    unfold stageRawReplay toIngestStagingPayload
    dsimp only
    by_cases hstageable : isStageable evidence = true
    · have hraw : evidence.status = .stored ∨ evidence.status = .skipped := by
        simpa [isStageable] using hstageable
      rw [if_pos hstageable]
      refine (safe_stage_status _ l).imp ?_
      rintro (error | result) l h
      · trivial
      · exact .staged hraw h
    · have hraw : evidence.status = .conflict ∨ evidence.status = .failed := by
        cases hstatus : evidence.status <;> simp [isStageable, hstatus] at hstageable ⊢
      rw [if_neg hstageable]
      exact Proc.safe_pure (fun _ _ h _ => h) (.refused hraw)

theorem producible_of_emits {candidate : ReplayCandidate} {settled : SettledCandidate}
    (h : Emits (config.settle pf candidate) l (.ok settled)) : settled.Producible := by
  have hsafe : Proc.Safe Env.free Lts.Alone (fun _ _ => True)
      (Async.Outcome (fun settled (_ : Conversation Text) => SettledCandidate.Producible settled)
        fun _ _ => True) [] (config.settle pf candidate) := by
    unfold RunConfig.settle
    refine Async.safe_bind (fun _ _ => True) (safe_unknown _) fun rawResult l _ => ?_
    refine Async.safe_bind _ (safe_stageRawReplay_status rawResult _ l) fun stagingResult l h => ?_
    exact Proc.safe_pure (fun _ _ h _ => h) h
  have hpost : Async.Outcome (fun settled (_ : Conversation Text) =>
      SettledCandidate.Producible settled) (fun _ _ => True) (.ok settled) l :=
    Proc.Safe.of_run hsafe h
  exact hpost

/-- What a page's fan-out has added to the state. -/
structure PageFanned (pf : Platform Text) (config : RunConfig) (l : Conversation Text)
    (candidates : List ReplayCandidate) (before after : LoopState) (counts : IngestPageCounts)
    (settled : List SettledCandidate) : Prop where
  outcomes : List.Forall₂ (CandidateSettled pf config l) candidates settled
  counts : counts = (tallyPage settled).counts
  rawStorage : after.rawStorage = before.rawStorage ++ (tallyPage settled).rawStorage
  staging : after.staging = before.staging ++ (tallyPage settled).staging

/-- What part of a conversation shows, all of it shows. -/
theorem CandidateSettled.sublist {l l' : Conversation Text} {candidate : ReplayCandidate}
    {settled : SettledCandidate} (h : CandidateSettled pf config l candidate settled)
    (hl : l.Sublist l') : CandidateSettled pf config l' candidate settled := by
  obtain ⟨hprocessed, sub, hemits, hsub⟩ := h
  exact ⟨hprocessed, sub, hemits, hsub.trans hl⟩

/-- It stays true whatever follows. -/
theorem safe_later {α : Type} {candidates : List ReplayCandidate} {settled : List SettledCandidate}
    (p : Program Text α) (h : List.Forall₂ (CandidateSettled pf config l) candidates settled) :
    Proc.Safe Env.free Lts.Alone (fun _ _ => True)
      (fun _ l => List.Forall₂ (CandidateSettled pf config l) candidates settled) l p :=
  (Proc.safe_free_sublist (fun _ _ hl => hl ▸ List.Sublist.refl _) l p).imp fun _ _ hl =>
    h.imp fun _ _ hsettled => hsettled.sublist hl

theorem safe_completeOkPage_pageFanned (page : ℕ) (candidates : List ReplayCandidate)
    (state : LoopState) (l : Conversation Text) :
    Proc.Safe Env.free Lts.Alone (fun _ _ => True)
      (Async.Outcome (fun x l => ∃ settled,
        PageFanned pf config l candidates state x.1 x.2 settled) fun _ _ => True) l
      (completeOkPage (config.input pf) context page candidates state) := by
  unfold completeOkPage
  refine Async.safe_lift_bind (fun _ _ => True) (Proc.safe_any (fun _ _ => trivial) _)
    fun throttledAt l _ => ?_
  refine Async.safe_bind (fun result l => ∃ settled, result = tallyPage settled ∧
    List.Forall₂ (CandidateSettled pf config l) candidates settled) ?_ ?_
  · refine (safe_ingestPage_settled _ candidates (P := fun _ => True) (fun _ _ _ _ => trivial)
      trivial).weaken (fun l _ hl => hl ▸ elsewhere_refl l) (fun _ _ h => h) ?_
    rintro (error | result) l h
    · trivial
    · exact h.2
  rintro result l ⟨settled, rfl, hsettled⟩
  refine Async.safe_lift_bind _ (safe_later _ hsettled) fun completedAt l hsettled => ?_
  refine Async.safe_lift_bind _ (safe_later _ hsettled) fun _ l hsettled => ?_
  refine Async.safe_bind (fun _ l => List.Forall₂ (CandidateSettled pf config l) candidates settled)
    ((safe_later _ hsettled).imp ?_) fun etag l hsettled => ?_
  · rintro (error | etag) l h
    · trivial
    · exact h
  · exact Proc.safe_pure (fun _ _ h hl => hl ▸ h) ⟨settled, hsettled, rfl, rfl, rfl⟩

/-- A completed page has fanned out its candidates. -/
theorem pageFanned_of_emits {report : DiscoveryReport} {counts : IngestPageCounts}
    {state : LoopState}
    (h : Emits (pageTurn pf (config.input pf) context cursor) l
      (.ok (.completed report counts state))) :
    ∃ settled, PageFanned pf config l report.candidates cursor.1 state counts settled := by
  let Post : PageTurn → Conversation Text → Prop := fun turn l =>
    ∀ report counts state, turn = .completed report counts state →
      ∃ settled, PageFanned pf config l report.candidates cursor.1 state counts settled
  suffices hsafe : Proc.Safe Env.free Lts.Alone (fun _ _ => True)
      (Async.Outcome Post fun _ _ => True) [] (pageTurn pf (config.input pf) context cursor) by
    have hpost : Async.Outcome Post (fun _ _ => True) (.ok (.completed report counts state)) l :=
      Proc.Safe.of_run hsafe h
    exact hpost report counts state rfl
  have hother : ∀ turn (l : Conversation Text), (∀ report counts state,
      turn ≠ .completed report counts state) → Proc.Safe Env.free Lts.Alone (fun _ _ => True)
      (Async.Outcome Post fun _ _ => True) l
      (pure turn : Async (Effect Text) Reply JsError PageTurn) :=
    fun turn l hne => Proc.safe_pure (fun _ _ h hl => hl ▸ h)
      fun report counts state heq => absurd heq (hne report counts state)
  unfold pageTurn
  split
  · exact hother _ _ fun _ _ _ h => nomatch h
  · refine Async.safe_lift_bind (fun _ _ => True) (Proc.safe_any (fun _ _ => trivial) _)
      fun _ l _ => ?_
    refine Async.safe_bind (fun _ _ => True) (safe_unknown _) fun report l _ => ?_
    unfold afterDiscovery
    split
    · refine Async.safe_lift_bind (fun _ _ => True) (Proc.safe_any (fun _ _ => trivial) _)
        fun state l _ => ?_
      refine Async.safe_lift_bind (fun _ _ => True) (Proc.safe_any (fun _ _ => trivial) _)
        fun _ l _ => ?_
      exact hother _ _ fun _ _ _ h => nomatch h
    · split
      · exact hother _ _ fun _ _ _ h => nomatch h
      · refine Async.safe_bind _ (safe_completeOkPage_pageFanned _ _ _ l) fun x l hx => ?_
        refine Proc.safe_pure (fun _ _ h hl => hl ▸ h) fun report' counts state heq => ?_
        cases heq
        obtain ⟨settled, hfanned⟩ := hx
        exact ⟨settled, hfanned.outcomes, hfanned.counts, hfanned.rawStorage, hfanned.staging⟩

/-- **All duplicate is exact unless there are conflicts alone.**  For a page that was read and not
    empty, the stop with reason `all_duplicate` says that every candidate was a duplicate, and is
    said when it was, exactly if a conflict never is all that happened: one conflict on the page,
    and something must have been stored, staged or failed. -/
theorem allDuplicate_exact_iff {report : DiscoveryReport} {counts : IngestPageCounts}
    {state : LoopState}
    (h : Emits (pageTurn pf (config.input pf) context cursor) l
      (.ok (.completed report counts state))) :
    ∃ settled, PageFanned pf config l report.candidates cursor.1 state counts settled ∧
      (((PageTurn.completed report counts state).stopReason = some .allDuplicate ↔
          ∀ s ∈ settled, s.IsDuplicate) ↔
        ((∃ s ∈ settled, s.Conflicts) → ∃ s ∈ settled, s.Moves)) := by
  obtain ⟨settled, hfanned⟩ := pageFanned_of_emits h
  refine ⟨settled, hfanned, ?_⟩
  have hproducible : ∀ s ∈ settled, s.Producible := by
    intro s hs
    obtain ⟨i, hi, rfl⟩ := List.mem_iff_getElem.1 hs
    have hlength := hfanned.outcomes.length_eq
    have hpair := (List.forall₂_iff_get.1 hfanned.outcomes).2 i (by omega) hi
    obtain ⟨_, sub, hemits, _⟩ := hpair
    exact producible_of_emits hemits
  rw [← isAllDuplicate_exact hproducible, ← hfanned.counts]
  have hstop : (PageTurn.completed report counts state).stopReason = some .allDuplicate ↔
      isAllDuplicate counts = true := by
    unfold PageTurn.stopReason
    dsimp only
    split
    · rename_i hall
      exact ⟨fun _ => hall, fun _ => rfl⟩
    · rename_i hall
      exact ⟨fun h => (by cases h), fun h => absurd h hall⟩
  rw [hstop]

/-- The promise: the stop with reason `all_duplicate` and a page of duplicates are one thing. -/
def AllDuplicateExact (pf : Platform Text) (config : RunConfig) (context : AssembleContext)
    (cursor : LoopState × ℕ) : Prop :=
  ∀ l report counts state settled,
    Emits (pageTurn pf (config.input pf) context cursor) l
      (.ok (.completed report counts state)) →
    PageFanned pf config l report.candidates cursor.1 state counts settled →
    ((PageTurn.completed report counts state).stopReason = some .allDuplicate ↔
      ∀ s ∈ settled, s.IsDuplicate)

end AllDuplicate

/-- Another object is under every key. -/
def occupiedWorld : World (Option Json) :=
  { emptyWorld with raw := fun _ => some { bytes := [8], sha256 := none } }

def toyContext : AssembleContext := { slug := "//a", startedAt := "" }

def toyCursor : LoopState × ℕ := (loopStateOf (toyConfig.input toyPlatform) toyContext.slug {}, 1)

def toyTurn (w : World (Option Json)) : World (Option Json) × Task (Option Json) PageTurn :=
  Proc.exec toyListing.serve 40 (w, pageTurn toyPlatform (toyConfig.input toyPlatform) toyContext
    toyCursor)

/-- The one candidate of the page is in conflict, and the loop stops as all duplicate. -/
theorem toyTurn_occupied : ∃ report counts state,
    (toyTurn occupiedWorld).2 = Proc.pure (.ok (.completed report counts state)) ∧
      (PageTurn.completed report counts state).stopReason = some .allDuplicate ∧
      state.rawStorage.map StoreRawReplayResult.status = [.conflict] :=
  ⟨_, _, _, rfl, rfl, rfl⟩

theorem allDuplicate_exact_occupied : ∃ l report counts state settled,
    Emits (pageTurn toyPlatform (toyConfig.input toyPlatform) toyContext toyCursor) l
      (.ok (.completed report counts state)) ∧
    PageFanned toyPlatform toyConfig l report.candidates toyCursor.1 state counts settled ∧
      (((PageTurn.completed report counts state).stopReason = some .allDuplicate ↔
          ∀ s ∈ settled, s.IsDuplicate) ↔
        ((∃ s ∈ settled, s.Conflicts) → ∃ s ∈ settled, s.Moves)) := by
  obtain ⟨report, counts, state, hreturned, _⟩ := toyTurn_occupied
  obtain ⟨l, hemits⟩ := Proc.exists_emits_exec hreturned
  obtain ⟨settled, hfanned, hiff⟩ := allDuplicate_exact_iff hemits
  exact ⟨l, report, counts, state, settled, hemits, hfanned, hiff⟩

/-- A page of one conflict ends the run as complete. -/
theorem conflict_taken_for_duplicate :
    ¬ AllDuplicateExact toyPlatform toyConfig toyContext toyCursor := by
  intro hexact
  obtain ⟨report, counts, state, hreturned, hstop, hraw⟩ := toyTurn_occupied
  obtain ⟨l, hemits⟩ := Proc.exists_emits_exec hreturned
  obtain ⟨settled, hfanned⟩ := pageFanned_of_emits hemits
  have hduplicate := (hexact l report counts state settled hemits hfanned).1 hstop
  -- the result of the candidate is among the outcomes
  have hresults : state.rawStorage = settled.filterMap SettledCandidate.rawResult? := by
    rw [hfanned.rawStorage, (results_tallyPage settled).1]
    rfl
  have hmem : RawReplayStorageStatus.conflict ∈
      (settled.filterMap SettledCandidate.rawResult?).map StoreRawReplayResult.status := by
    rw [← hresults, hraw]
    exact List.mem_singleton_self _
  obtain ⟨rawResult, hrawResult, hstatus⟩ := List.mem_map.1 hmem
  obtain ⟨s, hs, hsraw⟩ := List.mem_filterMap.1 hrawResult
  have hs' := hduplicate s hs
  cases s with
  | skipped => cases hsraw
  | processed rawResult' stagingResult =>
    cases hsraw
    rw [hs'.1] at hstatus
    cases hstatus

/-! ## The throttle -/

section Throttle

variable {Text : Type} {pf : Platform Text} {W E : Type} {R : E → Type} {env : Env W E R}
  {input : RunOnceInput E R} {context : AssembleContext} {w : W}

/-- A failed page that the classifier calls rate limited. -/
def IsRateLimited (report : DiscoveryReport) : Prop :=
  ∃ failure, deriveSourceFailure report = some failure ∧ failure.classification = .rateLimited

/-- The limiter lets fewer candidates through than before, or could not let through any fewer. -/
def Shrinks (before after : LoopState) : Prop := after.limit < before.limit ∨ before.limit = 1

variable (env pf input context) in
/-- **The promise**: the limiter shrinks on every rate-limited page of a run from `start`. -/
def ThrottleTakesEffect (start : LoopState) : Prop :=
  ∀ w₀ w cursor, Async.Heads env (pageIteration pf input context) w₀
      (start, start.lastCompletedPage + FIRST_PAGE) w cursor →
    ∀ report state w', IsRateLimited report →
      (Proc.lts env _).Runs Lts.Alone w (pageTurn pf input context cursor) w'
        (.pure (.ok (.failed report state))) →
      Shrinks cursor.1 state

/-- No rate-limited page yet: the limiter is where it was configured. -/
structure Unthrottled (input : RunOnceInput E R) (state : LoopState) : Prop where
  limit : state.limit = input.concurrency
  concurrency : state.throttle.concurrency = input.concurrency
  streak : state.throttle.rateLimitedStreak = 0

theorem unthrottled_loopStateOf (slug : String) (resumeState : ResumeState) :
    Unthrottled input (loopStateOf input slug resumeState) := ⟨rfl, rfl, rfl⟩

/-- Clean pages keep the limiter at its maximum. -/
theorem onCleanWindow_unthrottled {state : LoopState} (h : Unthrottled input state) (nowMs : ℤ) :
    (onCleanWindow (throttleOptions input) state.throttle nowMs).concurrency = input.concurrency ∧
    (onCleanWindow (throttleOptions input) state.throttle nowMs).rateLimitedStreak = 0 := by
  unfold onCleanWindow
  split
  · exact ⟨h.concurrency, rfl⟩
  · refine ⟨?_, rfl⟩
    show min input.concurrency (state.throttle.concurrency + 1) = input.concurrency
    rw [h.concurrency]
    omega

/-- The first rate-limited page only opens the window. -/
theorem onRateLimited_unthrottled {state : LoopState} (h : Unthrottled input state) (nowMs : ℤ) :
    (onRateLimited (throttleOptions input) state.throttle nowMs).concurrency = input.concurrency := by
  have hwindow : state.throttle.rateLimitedStreak + 1 < RATE_LIMITED_WINDOW := by
    rw [h.streak]
    decide
  unfold onRateLimited
  rw [if_pos hwindow]
  exact h.concurrency

/-- What a turn does to the limiter. -/
def TurnThrottle (input : RunOnceInput E R) : PageTurn → Prop
  | .failed _ state => state.limit = input.concurrency
  | .completed _ _ state => Unthrottled input state
  | _ => True

theorem safe_applyRateLimitThrottle {state : LoopState} (h : Unthrottled input state)
    (report : DiscoveryReport) :
    Proc.Safe env Lts.Alone (fun _ _ => True) (fun state' _ => state'.limit = input.concurrency) w
      (applyRateLimitThrottle input report state) := by
  unfold applyRateLimitThrottle
  split
  · refine Proc.safe_bind_of (Proc.safe_any (fun _ _ => trivial) _) fun now w _ => ?_
    exact Proc.safe_pure (fun _ _ h _ => h) (onRateLimited_unthrottled h now)
  · exact Proc.safe_pure (fun _ _ h _ => h) h.limit

theorem safe_completeOkPage_throttle {state : LoopState} (h : Unthrottled input state) (page : ℕ)
    (candidates : List ReplayCandidate) :
    Proc.Safe env Lts.Alone (fun _ _ => True)
      (Async.Outcome (fun x _ => Unthrottled input x.1) fun _ _ => True) w
      (completeOkPage input context page candidates state) := by
  unfold completeOkPage
  refine Async.safe_lift_bind (fun _ _ => True) (Proc.safe_any (fun _ _ => trivial) _)
    fun throttledAt w _ => ?_
  refine Async.safe_bind (fun _ _ => True) (safe_unknown _) fun result w _ => ?_
  refine Async.safe_lift_bind (fun _ _ => True) (Proc.safe_any (fun _ _ => trivial) _)
    fun completedAt w _ => ?_
  refine Async.safe_lift_bind (fun _ _ => True) (Proc.safe_any (fun _ _ => trivial) _)
    fun _ w _ => ?_
  refine Async.safe_bind (fun _ _ => True) (safe_unknown _) fun etag w _ => ?_
  obtain ⟨hconcurrency, hstreak⟩ := onCleanWindow_unthrottled h throttledAt
  exact Proc.safe_pure (fun _ _ h _ => h) ⟨hconcurrency, hconcurrency, hstreak⟩

theorem safe_pageTurn_throttle {cursor : LoopState × ℕ} (h : Unthrottled input cursor.1) :
    Proc.Safe env Lts.Alone (fun _ _ => True)
      (Async.Outcome (fun turn _ => TurnThrottle input turn) fun _ _ => True) w
      (pageTurn pf input context cursor) := by
  unfold pageTurn
  split
  · exact Proc.safe_pure (fun _ _ h _ => h) trivial
  · refine Async.safe_lift_bind (fun _ _ => True) (Proc.safe_any (fun _ _ => trivial) _)
      fun _ w _ => ?_
    refine Async.safe_bind (fun _ _ => True) (safe_unknown _) fun report w _ => ?_
    have hdiscovered : Unthrottled input (discoveredState cursor.1 report) :=
      ⟨h.limit, h.concurrency, h.streak⟩
    unfold afterDiscovery
    split
    · refine Async.safe_lift_bind _ (safe_applyRateLimitThrottle hdiscovered report)
        fun state w hlimit => ?_
      refine Async.safe_lift_bind (fun _ _ => True) (Proc.safe_any (fun _ _ => trivial) _)
        fun _ w _ => ?_
      exact Proc.safe_pure (fun _ _ h _ => h) hlimit
    · split
      · exact Proc.safe_pure (fun _ _ h _ => h) trivial
      · refine Async.safe_bind _ (safe_completeOkPage_throttle hdiscovered _ _) fun x w hx => ?_
        exact Proc.safe_pure (fun _ _ h _ => h) hx

/-- At every head of the loop the limiter is where it was configured. -/
theorem unthrottled_head {start : LoopState} (hstart : Unthrottled input start) {w₀ : W}
    {cursor : LoopState × ℕ}
    (hhead : Async.Heads env (pageIteration pf input context) w₀
      (start, start.lastCompletedPage + FIRST_PAGE) w cursor) : Unthrottled input cursor.1 := by
  refine Async.Heads.invariant (fun cursor _ => Unthrottled input cursor.1) (fun cursor w h => ?_)
    hhead hstart
  rw [pageIteration_eq]
  refine Async.safe_bind _ (safe_pageTurn_throttle h) fun turn w hturn => ?_
  refine Proc.safe_pure (fun _ _ h _ => h) fun cursor' hnext => ?_
  cases turn with
  | completed report counts state =>
    unfold PageTurn.next at hnext
    split at hnext
    · cases hnext
    · cases hnext
      exact hturn
  | capped state => cases hnext
  | failed report state => cases hnext
  | empty report state => cases hnext

theorem limit_rateLimited {start : LoopState} (hstart : Unthrottled input start) {w₀ w' : W}
    {cursor : LoopState × ℕ} {report : DiscoveryReport} {state : LoopState}
    (hhead : Async.Heads env (pageIteration pf input context) w₀
      (start, start.lastCompletedPage + FIRST_PAGE) w cursor)
    (hturn : (Proc.lts env _).Runs Lts.Alone w (pageTurn pf input context cursor) w'
      (.pure (.ok (.failed report state)))) :
    cursor.1.limit = input.concurrency ∧ state.limit = input.concurrency := by
  have hunthrottled := unthrottled_head hstart hhead
  exact ⟨hunthrottled.limit, (safe_pageTurn_throttle hunthrottled).of_run hturn⟩

/-- **The throttle never takes effect**: a run ends with its first rate-limited page, and the
    controller would act on the second. -/
theorem throttle_never_shrinks (hbase : 2 ≤ input.concurrency) {resumeState : ResumeState}
    {w₀ w' : W} {cursor : LoopState × ℕ} {report : DiscoveryReport} {state : LoopState}
    (hhead : Async.Heads env (pageIteration pf input context) w₀
      (loopStateOf input context.slug resumeState,
        (loopStateOf input context.slug resumeState).lastCompletedPage + FIRST_PAGE) w cursor)
    (_hlimited : IsRateLimited report)
    (hturn : (Proc.lts env _).Runs Lts.Alone w (pageTurn pf input context cursor) w'
      (.pure (.ok (.failed report state)))) : ¬ Shrinks cursor.1 state := by
  obtain ⟨hbefore, hafter⟩ :=
    limit_rateLimited (unthrottled_loopStateOf context.slug resumeState) hhead hturn
  unfold Shrinks
  omega

end Throttle

/-! ### A list page answered with 429 -/

/-- The report of a list page that stayed rate limited. -/
def limitedReport : DiscoveryReport where
  candidates := []
  counts := { candidates := 0, diagnostics := 1, discovered := 0, skippedPreDetail := 0 }
  diagnostics := [{ code := .rateLimited, message := "rate limited", severity := .error }]
  ok := false
  sourceUrl := "//a"

def limitedListing : Script where
  reports _ := .ok limitedReport
  bytes _ := .ok [7]

/-- Two candidates at a time. -/
def limitedInput : RunOnceInput (Effect (Option Json)) Reply :=
  { toyConfig with concurrency := 2 : RunConfig }.toInput toyPlatform (toyConfig.store toyPlatform)

/-- Whatever the script answers. -/
def scripted (script : Script) : Env (World (Option Json)) (Effect (Option Json)) Reply :=
  fun w e r w' => (r, w') = script.serve w e

theorem isRateLimited_limitedReport : IsRateLimited limitedReport := ⟨_, rfl, rfl⟩

/-- The first turn of the run ends with the rate-limited page. -/
theorem limitedTurn : ∃ w' state,
    (Proc.lts (scripted limitedListing) _).Runs Lts.Alone emptyWorld
      (pageTurn toyPlatform limitedInput toyContext
        (loopStateOf limitedInput toyContext.slug {}, 1)) w'
      (.pure (.ok (.failed limitedReport state))) := by
  have hruns := @Proc.runs_exec _ _ _ _ limitedListing.serve (scripted limitedListing)
    (fun _ _ => rfl) Lts.Alone 10 (emptyWorld, pageTurn toyPlatform limitedInput
      toyContext (loopStateOf limitedInput toyContext.slug {}, 1))
  exact ⟨_, _, hruns⟩

/-- The first page is clean, and the others stay rate limited. -/
def limitedLater : Script where
  reports input := .ok (if input.sourceUrl.search = "" then okReport [toyCandidate] else limitedReport)
  bytes _ := .ok [7]

/-- Where the loop stands when the clean page is done. -/
def secondHead : World (Option Json) × (LoopState × ℕ) :=
  let start := (loopStateOf limitedInput toyContext.slug {}, 1)
  let round := Proc.exec limitedLater.serve 40
    (emptyWorld, Proc.bind (pageIteration toyPlatform limitedInput toyContext start) fun r =>
      .pure (Async.leave r))
  match round.2.result with
  | some (.inl cursor) => (round.1, cursor)
  | _ => (round.1, start)

theorem heads_secondHead : Async.Heads (scripted limitedLater)
    (pageIteration toyPlatform limitedInput toyContext) emptyWorld
    (loopStateOf limitedInput toyContext.slug {}, 1) secondHead.1 secondHead.2 := by
  have hruns := @Proc.runs_exec _ _ _ _ limitedLater.serve (scripted limitedLater)
    (fun _ _ => rfl) Lts.Alone 40 (emptyWorld, Proc.bind (pageIteration toyPlatform limitedInput
      toyContext (loopStateOf limitedInput toyContext.slug {}, 1)) fun r => .pure (Async.leave r))
  exact .round (.start _ _) hruns

theorem secondTurn : ∃ w' state,
    (Proc.lts (scripted limitedLater) _).Runs Lts.Alone secondHead.1
      (pageTurn toyPlatform limitedInput toyContext secondHead.2) w'
      (.pure (.ok (.failed limitedReport state))) := by
  have hruns := @Proc.runs_exec _ _ _ _ limitedLater.serve (scripted limitedLater)
    (fun _ _ => rfl) Lts.Alone 10 (secondHead.1, pageTurn toyPlatform limitedInput toyContext
      secondHead.2)
  exact ⟨_, _, hruns⟩

theorem throttle_never_shrinks_first :
    (∃ w' state,
      (Proc.lts (scripted limitedListing) _).Runs Lts.Alone emptyWorld
        (pageTurn toyPlatform limitedInput toyContext
          (loopStateOf limitedInput toyContext.slug {}, 1)) w'
        (.pure (.ok (.failed limitedReport state))) ∧
      ¬ Shrinks (loopStateOf limitedInput toyContext.slug {}) state) ∧
    secondHead.2.2 = 2 ∧ ∃ w' state,
      (Proc.lts (scripted limitedLater) _).Runs Lts.Alone secondHead.1
        (pageTurn toyPlatform limitedInput toyContext secondHead.2) w'
        (.pure (.ok (.failed limitedReport state))) ∧
      ¬ Shrinks secondHead.2.1 state := by
  refine ⟨?_, by decide +kernel, ?_⟩
  · obtain ⟨w', state, hturn⟩ := limitedTurn
    exact ⟨w', state, hturn,
      throttle_never_shrinks (by decide) (.start _ _) isRateLimited_limitedReport hturn⟩
  · obtain ⟨w', state, hturn⟩ := secondTurn
    exact ⟨w', state, hturn,
      throttle_never_shrinks (by decide) heads_secondHead isRateLimited_limitedReport hturn⟩

/-- A run over a rate-limited first page breaks the promise. -/
theorem throttle_not_effective : ¬ ThrottleTakesEffect toyPlatform (scripted limitedListing)
    limitedInput toyContext (loopStateOf limitedInput toyContext.slug {}) := by
  intro h
  obtain ⟨w', state, hturn⟩ := limitedTurn
  have hshrinks := h _ _ _ (.start _ _) _ _ _ isRateLimited_limitedReport hturn
  obtain ⟨hbefore, hafter⟩ := limit_rateLimited
    (unthrottled_loopStateOf toyContext.slug {}) (.start _ _) hturn
  have hbase : limitedInput.concurrency = 2 := rfl
  unfold Shrinks at hshrinks
  omega

end ReplaysFetcher
