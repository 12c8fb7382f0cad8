/-
  The fan-out of a page, however it is interleaved (`src/run/ingest-page.ts`).

  The candidates of a page are gated, stored and staged side by side, and the source gathers what
  became of them in the order of the candidates.  Two promises go with that.

  1. The order in which the tasks make their steps does not show (`ingestPage_interleaving`).  A run
     of a fan is a run of each task, the others interfering, so what the page resolves or rejects
     with is a function of what became of each candidate: `PageResult` is that function, written
     down without folds.
  2. What the page counts as new is new (`page_counts_exact_iff`).  The conversation of a fan is the
     conversations of its tasks, shuffled, so the counts of the page are those of its PUTs and its
     INSERTs.  An INSERT decides and adds the row in one step; a PUT comes after a HEAD, and two
     candidates with the same bytes may both have been told that nothing is there.
-/
import ReplaysFetcher.Accounting
import ReplaysFetcher.Reingest
import ReplaysFetcher.Effectful.Conversations
import ReplaysFetcher.Effectful.Termination
import Mathlib.Data.Set.Card

namespace ReplaysFetcher

open Effectful

/-! ## What a page comes to -/

/-- The entries and the counts of a page whose candidates settled so. -/
structure ResultOf (settled : List SettledCandidate) (result : IngestPageResult) : Prop where
  rawStorage : result.rawStorage = settled.filterMap SettledCandidate.rawResult?
  staging : result.staging = settled.filterMap SettledCandidate.stagingResult?
  tally : TallyOf settled result
  skippedBySourceId : result.counts.skippedBySourceId = settled.countP (· = .skipped)

/-- All candidates settled, and the page with their results; or the first one that rejected. -/
inductive PageResult {n : ℕ} (settled : Fin n → Except JsError SettledCandidate) :
    Except JsError IngestPageResult → Prop
  | resolved {values : Fin n → SettledCandidate} {result : IngestPageResult}
      (hall : ∀ i, settled i = .ok (values i)) (hresult : ResultOf (List.ofFn values) result) :
      PageResult settled (.ok result)
  | rejected {i : Fin n} {error : JsError} (herror : settled i = .error error)
      (hfirst : ∀ j < i, ∃ value, settled j = .ok value) : PageResult settled (.error error)

/-- The tally is the result of its candidates. -/
theorem resultOf_tallyPage (settled : List SettledCandidate) :
    ResultOf settled (tallyPage settled) where
  rawStorage := (results_tallyPage settled).1
  staging := (results_tallyPage settled).2
  tally := tallyPage_spec settled
  skippedBySourceId := skippedBySourceId_tallyPage settled

/-- Nothing is left open. -/
theorem ResultOf.eq_tallyPage {settled : List SettledCandidate} {result : IngestPageResult}
    (h : ResultOf settled result) : result = tallyPage settled := by
  have h' := resultOf_tallyPage settled
  obtain ⟨⟨discovered, failed, skippedBySourceId, staged, stored⟩, rawStorage, staging⟩ := result
  have hdiscovered := h.tally.discovered.trans h'.tally.discovered.symm
  have hfailed := h.tally.failed.trans h'.tally.failed.symm
  have hstaged := h.tally.staged.trans h'.tally.staged.symm
  have hstored := h.tally.stored.trans h'.tally.stored.symm
  have hskipped := h.skippedBySourceId.trans h'.skippedBySourceId.symm
  have hraw := h.rawStorage.trans h'.rawStorage.symm
  have hstaging := h.staging.trans h'.staging.symm
  dsimp only at hdiscovered hfailed hstaged hstored hskipped hraw hstaging
  rw [hdiscovered, hfailed, hstaged, hstored, hskipped, hraw, hstaging]

/-- The first rejection in candidate order. -/
theorem fulfilledInOrder_eq_error {n : ℕ} {settled : Fin n → Except JsError SettledCandidate}
    {error : JsError} : fulfilledInOrder (List.ofFn settled) = .error error ↔
      ∃ i, settled i = .error error ∧ ∀ j < i, ∃ value, settled j = .ok value := by
  induction n with
  | zero => exact ⟨fun h => (by cases h), fun ⟨i, _⟩ => i.elim0⟩
  | succ n ih =>
    rw [List.ofFn_succ]
    cases hzero : settled 0 with
    -- the first candidate has failed, and nothing precedes it
    | error first =>
      show Except.error first = _ ↔ _
      constructor
      · rintro ⟨⟩
        exact ⟨0, hzero, fun j hj => absurd hj (Fin.not_lt_zero j)⟩
      · rintro ⟨i, hi, hfirst⟩
        by_cases hi0 : i = 0
        · rw [hi0, hzero] at hi
          cases hi
          rfl
        · obtain ⟨value, hvalue⟩ := hfirst 0 (Fin.pos_of_ne_zero hi0)
          rw [hzero] at hvalue
          cases hvalue
    -- the first one is fine: all that is said is about the others, one place further on
    | ok value =>
      have hrest : fulfilledInOrder (.ok value :: List.ofFn fun i => settled i.succ) =
          .error error ↔ fulfilledInOrder (List.ofFn fun i => settled i.succ) = .error error := by
        show (fulfilledInOrder _).map _ = _ ↔ _
        cases fulfilledInOrder (List.ofFn fun i => settled i.succ) with
        | error e => exact ⟨fun h => (by cases h; rfl), fun h => (by cases h; rfl)⟩
        | ok values => exact ⟨fun h => (by cases h), fun h => (by cases h)⟩
      rw [hrest, ih]
      constructor
      · rintro ⟨i, hi, hfirst⟩
        refine ⟨i.succ, hi, fun j => ?_⟩
        refine Fin.cases (fun _ => ⟨value, hzero⟩) (fun j hj => ?_) j
        exact hfirst j (Fin.succ_lt_succ_iff.1 hj)
      · rintro ⟨i, hi, hfirst⟩
        revert hi hfirst
        refine Fin.cases (fun hi _ => ?_) (fun i hi hfirst => ?_) i
        · rw [hzero] at hi
          cases hi
        · exact ⟨i, hi, fun j hj => hfirst j.succ (Fin.succ_lt_succ_iff.2 hj)⟩

/-- **What the gathered outcomes come to**, without folds. -/
theorem pageResult_iff {n : ℕ} {settled : Fin n → Except JsError SettledCandidate}
    {r : Except JsError IngestPageResult} : PageResult settled r ↔ pageOutcome settled = r := by
  constructor
  · rintro (⟨hall, hresult⟩ | ⟨herror, hfirst⟩)
    · rw [hresult.eq_tallyPage]
      exact pageOutcome_eq_ok.2 ⟨_, hall, rfl⟩
    · unfold pageOutcome
      rw [fulfilledInOrder_eq_error.2 ⟨_, herror, hfirst⟩]
      rfl
  · intro h
    cases r with
    | ok result =>
      obtain ⟨values, hall, rfl⟩ := pageOutcome_eq_ok.1 h
      exact .resolved hall (resultOf_tallyPage _)
    | error error =>
      have hfulfilled : fulfilledInOrder (List.ofFn settled) = .error error := by
        unfold pageOutcome at h
        cases hvalues : fulfilledInOrder (List.ofFn settled) with
        | error error' =>
          rw [hvalues] at h
          cases h
          rfl
        | ok values =>
          rw [hvalues] at h
          cases h
      obtain ⟨i, hi, hfirst⟩ := fulfilledInOrder_eq_error.1 hfulfilled
      exact .rejected hi hfirst

/-! ## What a candidate comes to -/

section Candidate

variable {W E : Type} {R : E → Type} (env : Env W E R) (input : IngestPageInput E R)
  (candidate : ReplayCandidate)

/-- The gate let the candidate through, or there is none. -/
inductive Passed : W → W → Prop
  | ungated {w : W} (hgate : prefetchGate input candidate = none) : Passed w w
  | gated {w w' : W} {gate : Async E R JsError Bool}
      (hgate : prefetchGate input candidate = some gate)
      (hreturns : Proc.Returns env gate w w' (.ok false)) : Passed w w'

/-- What becomes of a candidate, from what the gate, the store and the stage function return. -/
inductive CandidateOutcome (w : W) : W → Except JsError SettledCandidate → Prop
  | skipped {w' : W} {gate : Async E R JsError Bool}
      (hgate : prefetchGate input candidate = some gate)
      (hreturns : Proc.Returns env gate w w' (.ok true)) : CandidateOutcome w w' (.ok .skipped)
  | gateRejected {w' : W} {gate : Async E R JsError Bool} {error : JsError}
      (hgate : prefetchGate input candidate = some gate)
      (hreturns : Proc.Returns env gate w w' (.error error)) : CandidateOutcome w w' (.error error)
  | storeRejected {w₁ w' : W} {error : JsError} (hpassed : Passed env input candidate w w₁)
      (hstore : Proc.Returns env (input.storeRawReplay candidate) w₁ w' (.error error)) :
      CandidateOutcome w w' (.error error)
  | stageRejected {w₁ w₂ w' : W} {rawResult : StoreRawReplayResult} {error : JsError}
      (hpassed : Passed env input candidate w w₁)
      (hstore : Proc.Returns env (input.storeRawReplay candidate) w₁ w₂ (.ok rawResult))
      (hstage : Proc.Returns env (input.stageRawReplay rawResult (some input.runId)) w₂ w'
        (.error error)) : CandidateOutcome w w' (.error error)
  | processed {w₁ w₂ w' : W} {rawResult : StoreRawReplayResult}
      {stagingResult : IngestStagingResult} (hpassed : Passed env input candidate w w₁)
      (hstore : Proc.Returns env (input.storeRawReplay candidate) w₁ w₂ (.ok rawResult))
      (hstage : Proc.Returns env (input.stageRawReplay rawResult (some input.runId)) w₂ w'
        (.ok stagingResult)) :
      CandidateOutcome w w' (.ok (.processed rawResult stagingResult))

variable {env input candidate} {w w' : W}

/-- A leaf has returned what it is. -/
theorem eq_of_returns_pure {α : Type} {a b : α}
    (h : Proc.Returns env (.pure a : Proc E R α) w w' b) : b = a := by
  have heq := Proc.runs_pure h
  cases heq
  rfl

/-- Interference after the end. -/
theorem returns_later {α : Type} {p : Proc E R α} {a : α} {w₁ : W}
    (h : Proc.Returns env p w w₁ a) (w' : W) : Proc.Returns env p w w' a :=
  h.interfere trivial

/-- A candidate that is processed past the gate ends as one of the outcomes. -/
theorem candidateOutcome_process {w₁ : W} {r : Except JsError SettledCandidate}
    (hpassed : Passed env input candidate w w₁)
    (h : Proc.Returns env (processCandidate input candidate) w₁ w' r) :
    CandidateOutcome env input candidate w w' r := by
  unfold processCandidate at h
  rw [Async.bind_eq] at h
  obtain ⟨stored, w₂, hstore, h⟩ := Proc.returned_bind h
  cases stored with
  | error error =>
    rw [eq_of_returns_pure h]
    exact .storeRejected hpassed (returns_later hstore w')
  | ok rawResult =>
    rw [Async.onOk_ok, Async.bind_eq] at h
    obtain ⟨staged, w₃, hstage, h⟩ := Proc.returned_bind h
    cases staged with
    | error error =>
      rw [eq_of_returns_pure h]
      exact .stageRejected hpassed hstore (returns_later hstage w')
    | ok stagingResult =>
      have hvalue : r = .ok (.processed rawResult stagingResult) := eq_of_returns_pure h
      rw [hvalue]
      exact .processed hpassed hstore (returns_later hstage w')

/-- A candidate's task has gone through its steps. -/
theorem candidateOutcome_of_returns {r : Except JsError SettledCandidate}
    (h : Proc.Returns env (ingestCandidate input candidate) w w' r) :
    CandidateOutcome env input candidate w w' r := by
  unfold ingestCandidate at h
  cases hgate : prefetchGate input candidate with
  | none =>
    rw [hgate] at h
    exact candidateOutcome_process (.ungated hgate) h
  | some gate =>
    rw [hgate] at h
    dsimp only at h
    rw [Async.bind_eq] at h
    obtain ⟨answer, w₁, hreturns, h⟩ := Proc.returned_bind h
    cases answer with
    | error error =>
      rw [eq_of_returns_pure h]
      exact .gateRejected hgate (returns_later hreturns w')
    | ok exists' =>
      cases exists' with
      | true =>
        have hvalue : r = .ok .skipped := eq_of_returns_pure h
        rw [hvalue]
        exact .skipped hgate (returns_later hreturns w')
      | false => exact candidateOutcome_process (.gated hgate hreturns) h

end Candidate

/-! ## Every interleaving -/

section Interleaving

variable {W E : Type} {R : E → Type} {env : Env W E R} {input : IngestPageInput E R}

variable (env input) in
/-- The injected functions settle, with a result or a rejection. -/
structure StepsSettle : Prop where
  gate : ∀ exists', input.existsBySourceIdentity = some exists' →
    ∀ sourceSystem sourceReplayId, Proc.Settles env (exists' sourceSystem sourceReplayId)
  store : ∀ candidate, Proc.Settles env (input.storeRawReplay candidate)
  stage : ∀ rawResult runId, Proc.Settles env (input.stageRawReplay rawResult runId)

/-- What follows a value settles, if it does for each value. -/
theorem settles_onOk {α β : Type} {f : α → Async E R JsError β} {r : Except JsError α}
    (hf : ∀ a, Proc.Settles env (f a)) : Proc.Settles env (Async.onOk f r) := by
  cases r with
  | ok a => exact hf a
  | error error => exact .pure _

/-- A candidate's task settles with its steps. -/
theorem StepsSettle.candidate (h : StepsSettle env input) (candidate : ReplayCandidate) :
    Proc.Settles env (ingestCandidate input candidate) := by
  have hprocess : Proc.Settles env (processCandidate input candidate) := by
    unfold processCandidate
    rw [Async.bind_eq]
    refine (h.store candidate).bind fun r => settles_onOk fun rawResult => ?_
    rw [Async.bind_eq]
    exact (h.stage rawResult _).bind fun r => settles_onOk fun stagingResult => .pure _
  unfold ingestCandidate
  cases hgate : prefetchGate input candidate with
  | none => exact hprocess
  | some gate =>
    have hsettles : Proc.Settles env gate := by
      unfold prefetchGate at hgate
      split at hgate
      · rename_i hexists _
        split at hgate
        · cases hgate
          exact h.gate _ hexists _ _
        · cases hgate
      · cases hgate
    dsimp only
    rw [Async.bind_eq]
    refine hsettles.bind fun r => settles_onOk fun exists' => ?_
    cases exists' with
    | true => exact .pure _
    | false => exact hprocess

/-- **The fan-out does not depend on its interleaving.**  Whatever the order of the steps, the page
    settles; by then every candidate has, and what the page resolves or rejects with is the one
    function `PageResult` of what became of the candidates.  So outcomes that are fixed beforehand
    fix the result. -/
theorem ingestPage_interleaving (hlimit : 0 < input.limit) (hsteps : StepsSettle env input) (w : W) :
    Proc.Ends env (fun r w' => ∃ settled : Fin input.candidates.length →
        Except JsError SettledCandidate,
      (∀ i, CandidateOutcome env input (input.candidates.get i) w w' (settled i)) ∧
        ∀ r', PageResult settled r' ↔ r' = r) w (ingestPage input) ∧
    ∀ settled : Fin input.candidates.length → Except JsError SettledCandidate,
      (∀ i w' r, CandidateOutcome env input (input.candidates.get i) w w' r → r = settled i) →
      Proc.Ends env (fun r _ => ∀ r', PageResult settled r' ↔ r' = r) w (ingestPage input) := by
  have hends : Proc.Ends env (fun _ _ => True) w (ingestPage input) := by
    rw [ingestPage_eq]
    exact (Proc.settles_fan hlimit (fun i => hsteps.candidate _) fun vs => .pure _).ends w
  have hall : Proc.Ends env (fun r w' => ∃ settled : Fin input.candidates.length →
        Except JsError SettledCandidate,
      (∀ i, CandidateOutcome env input (input.candidates.get i) w w' (settled i)) ∧
        ∀ r', PageResult settled r' ↔ r' = r) w (ingestPage input) := by
    refine @Lts.Safe.ends _ _ _ _ _ _ _ (fun _ _ => True)
      (fun w' p hruns => ⟨fun _ _ _ => trivial, fun r hr => ?_⟩) hends
    obtain rfl := Proc.result_eq_some.1 hr
    rw [ingestPage_eq] at hruns
    obtain ⟨settled, w₁, hsettled, hpure⟩ := Proc.returned_fan hruns
    refine ⟨settled, fun i => ?_, fun r' => ?_⟩
    · exact candidateOutcome_of_returns (returns_later (hsettled i) w')
    · have hvalue : Proc.pure r = .pure (pageOutcome settled) := Proc.runs_pure hpure
      cases hvalue
      rw [pageResult_iff]
      exact eq_comm
  refine ⟨hall, fun settled hfixed => hall.imp ?_⟩
  rintro r w' ⟨settled', hsettled, hresult⟩
  have hsame : settled' = settled := funext fun i => hfixed i w' _ (hsettled i)
  rw [← hsame]
  exact hresult

end Interleaving

/-! ## The functions a page is wired to -/

section Wired

variable {Text : Type} {pf : Platform Text} {bucket : String}

/-- Storing a candidate has no loop. -/
theorem loopFree_storeRawReplay (candidate : ReplayCandidate) : Proc.LoopFree (fun _ => True)
    (storeRawReplay pf bucket candidate : Program Text (Except JsError StoreRawReplayResult)) := by
  rw [storeRawReplay_eq]
  refine ⟨trivial, fun now => ?_⟩
  dsimp only
  cases bytesUrl pf candidate with
  | error error => trivial
  | ok url =>
    refine ⟨trivial, fun r => ?_⟩
    cases r with
    | error error => trivial
    | ok bytes =>
      refine Proc.LoopFree.bind ?_ fun evidence => trivial
      rw [s3StoreRawReplay_eq]
      refine ⟨trivial, fun head => ?_⟩
      cases head with
      | ok output => trivial
      | error error =>
        dsimp only
        split
        · exact ⟨trivial, fun _ => trivial⟩
        · trivial

/-- Nor have the lookups. -/
theorem loopFree_classifyExistingStaging (payload : IngestStagingPayload) :
    Proc.LoopFree (fun _ => True)
      (classifyExistingStaging payload : Program Text (Except JsError IngestStagingResult)) := by
  rw [classifyExistingStaging_eq]
  refine ⟨trivial, fun r => ?_⟩
  match r with
  | .error error => trivial
  | .ok (some row) => trivial
  | .ok none =>
    refine ⟨trivial, fun r => ?_⟩
    match r with
    | .error error => trivial
    | .ok (some row) => trivial
    | .ok none => trivial

/-- Nor has staging a payload. -/
theorem loopFree_stage (payload : IngestStagingPayload) : Proc.LoopFree (fun _ => True)
    (stage payload : Program Text (Except JsError IngestStagingResult)) := by
  have herror : ∀ error, Proc.LoopFree (fun _ : Effect Text => True) (stageError payload error) := by
    intro error
    unfold stageError
    split
    · exact loopFree_classifyExistingStaging payload
    · trivial
  rw [stage_eq]
  refine ⟨trivial, fun r => ?_⟩
  match r with
  | .error error => exact herror error
  | .ok (some id) => trivial
  | .ok none =>
    refine ⟨trivial, fun r => ?_⟩
    match r with
    | .error error => exact herror error
    | .ok (some row) => trivial
    | .ok none => exact loopFree_classifyExistingStaging payload

/-- Nor has staging a raw result. -/
theorem loopFree_stageRawReplay (rawResult : StoreRawReplayResult) (runId : Option String) :
    Proc.LoopFree (fun _ => True)
      (stageRawReplay pf rawResult runId : Program Text (Except JsError IngestStagingResult)) := by
  cases rawResult with
  | fetchFailed evidence => trivial
  | stored evidence =>
    unfold stageRawReplay
    dsimp only
    split
    · trivial
    · exact loopFree_stage _

/-- The real functions settle, where every request is answered. -/
theorem stepsSettle_watch {W : Type} {env : Env W (Effect Text) Reply}
    (hanswer : ∀ w e, ∃ r w', env w e r w') (reader : SourceReader pf) (config : WatchConfig)
    (runId : String) (candidates : List ReplayCandidate) :
    StepsSettle env (watchIngestInput (config.toInput reader) runId candidates) := by
  have hsettles : ∀ {α : Type} {p : Program Text α}, Proc.LoopFree (fun _ => True) p →
      Proc.Settles env p := fun h => h.settles fun w e _ => hanswer w e
  refine ⟨fun exists' hexists sourceSystem sourceReplayId => ?_, fun candidate => ?_,
    fun rawResult runId => ?_⟩
  · cases hexists
    exact hsettles (p := existsBySourceIdentity sourceSystem sourceReplayId)
      ⟨trivial, fun _ => trivial⟩
  · exact hsettles (loopFree_storeRawReplay candidate)
  · exact hsettles (loopFree_stageRawReplay rawResult runId)

end Wired

/-- Two candidates with the same contents, two at a time. -/
def toyFanOut : IngestPageInput (Effect (Option Json)) Reply :=
  watchIngestInput ({ toyWatch with concurrency := 2 }.toInput toyReader) "run" toyPage

/-- A candidate with this id. -/
def toyCandidateOf (id : String) : ReplayCandidate :=
  { toyCandidate with source := { externalId := some id, url := "a" } }

/-- What the bytes of a candidate come to. -/
def toyStore (id : String) : Except JsError StoreRawReplayResult :=
  if id = "3" ∨ id = "4" then .error (.error ("no bytes for " ++ id))
  else .ok (.fetchFailed
    { fetchedAt := "", message := "", source := (toyCandidateOf id).source
      sourceFilename := toyCandidate.identity.filename })

/-- A function that looks at the clock, and then gives this. -/
def toyAnswer {α : Type} (a : α) : Program (Option Json) α := .call .now fun _ => .pure a

/-- The gate knows the second candidate, and the third and the fourth one reject. -/
def toyRejecting : IngestPageInput (Effect (Option Json)) Reply where
  candidates := ["1", "2", "3", "4"].map toyCandidateOf
  existsBySourceIdentity := some fun _ id => toyAnswer (.ok (id = "2"))
  limit := 2
  prefetchDedup := some true
  runId := "run"
  stageRawReplay _ _ := toyAnswer (.ok { status := .notStageable })
  storeRawReplay candidate := toyAnswer (toyStore (candidate.source.externalId.getD ""))

/-- What becomes of the candidate with this id. -/
def toyRejected (id : String) : Except JsError SettledCandidate :=
  if id = "2" then .ok .skipped
  else (toyStore id).map fun rawResult => .processed rawResult { status := .notStageable }

section Rejecting

variable {W : Type} {env : Env W (Effect (Option Json)) Reply} {w w' : W} {id : String}

/-- A request that is answered by one value settles. -/
theorem settles_toyAnswer (hanswer : ∀ w e, ∃ r w', env w e r w') {α : Type} (a : α) :
    Proc.Settles env (toyAnswer a) := by
  have hloop : Proc.LoopFree (fun _ => True) (toyAnswer a) := ⟨trivial, fun _ => trivial⟩
  exact hloop.settles fun w e _ => hanswer w e

/-- It returns that value. -/
theorem eq_of_returns_toyAnswer {α : Type} {a b : α}
    (h : Proc.Returns env (toyAnswer a) w w' b) : b = a := by
  have hsafe : Proc.Safe env Proc.Anything (fun _ _ => True) (fun b _ => b = a) w (toyAnswer a) :=
    Proc.safe_call (fun _ => True) (fun _ _ _ _ => trivial)
      (fun _ _ _ _ _ => ⟨trivial, Proc.safe_pure (fun _ _ hb _ => hb) rfl⟩) trivial
  exact hsafe.of_run h

/-- The gate of the page knows one id. -/
theorem prefetchGate_toyRejecting (hid : isTrustworthyId (some id) = true) :
    prefetchGate toyRejecting (toyCandidateOf id) = some (toyAnswer (.ok (id = "2"))) := if_pos hid

/-- The candidates that are not known to the gate go on. -/
theorem ne_of_passed (hid : isTrustworthyId (some id) = true)
    (h : Passed env toyRejecting (toyCandidateOf id) w w') : id ≠ "2" := by
  cases h with
  | ungated hgate =>
    rw [prefetchGate_toyRejecting hid] at hgate
    cases hgate
  | gated hgate hreturns =>
    rw [prefetchGate_toyRejecting hid] at hgate
    obtain rfl := Option.some.inj hgate
    have hfalse := Except.ok.inj (eq_of_returns_toyAnswer hreturns)
    exact of_decide_eq_false hfalse.symm

/-- A candidate of the page has one outcome. -/
theorem eq_toyRejected (hid : isTrustworthyId (some id) = true) {r : Except JsError SettledCandidate}
    (h : CandidateOutcome env toyRejecting (toyCandidateOf id) w w' r) : r = toyRejected id := by
  cases h with
  | skipped hgate hreturns =>
    rw [prefetchGate_toyRejecting hid] at hgate
    obtain rfl := Option.some.inj hgate
    have htrue := Except.ok.inj (eq_of_returns_toyAnswer hreturns)
    exact (if_pos (of_decide_eq_true htrue.symm)).symm
  | gateRejected hgate hreturns =>
    rw [prefetchGate_toyRejecting hid] at hgate
    obtain rfl := Option.some.inj hgate
    cases eq_of_returns_toyAnswer hreturns
  | storeRejected hpassed hstore =>
    have herror : _ = toyStore id := eq_of_returns_toyAnswer hstore
    unfold toyRejected
    rw [if_neg (ne_of_passed hid hpassed), ← herror]
    rfl
  | stageRejected _ _ hstage => cases eq_of_returns_toyAnswer hstage
  | processed hpassed hstore hstage =>
    have hraw : _ = toyStore id := eq_of_returns_toyAnswer hstore
    obtain rfl := Except.ok.inj (eq_of_returns_toyAnswer hstage)
    unfold toyRejected
    rw [if_neg (ne_of_passed hid hpassed), ← hraw]
    rfl

end Rejecting

/-- A page of two candidates, and one on which a candidate rejects. -/
theorem ingestPage_interleaving_two :
    Proc.Ends toyServices.Step (fun r w' => ∃ settled : Fin 2 → Except JsError SettledCandidate,
      (∀ i, CandidateOutcome toyServices.Step toyFanOut (toyPage.get i) emptyWorld w' (settled i)) ∧
        ∀ r', PageResult settled r' ↔ r' = r) emptyWorld (ingestPage toyFanOut) ∧
    Proc.Ends toyServices.Step (fun r _ => r = .error (.error "no bytes for 3")) emptyWorld
      (ingestPage toyRejecting) := by
  have hanswer : ∀ w e, ∃ r w', toyServices.Step w e r w' := fun w e => ⟨_, _, step_toyScript w e⟩
  refine ⟨(ingestPage_interleaving (by decide) (stepsSettle_watch hanswer toyReader _ "run" toyPage)
    emptyWorld).1, ?_⟩
  have hsteps : StepsSettle toyServices.Step toyRejecting := by
    refine ⟨fun exists' hexists _ _ => ?_, fun _ => settles_toyAnswer hanswer _,
      fun _ _ => settles_toyAnswer hanswer _⟩
    obtain rfl := Option.some.inj hexists
    exact settles_toyAnswer hanswer _
  have hids : ∀ i : Fin 4, isTrustworthyId (some (["1", "2", "3", "4"].get i)) = true := by decide
  have hends := (ingestPage_interleaving (by decide) hsteps emptyWorld).2
    (fun i : Fin 4 => toyRejected (["1", "2", "3", "4"].get i)) fun i w' r h => by
      rw [show toyRejecting.candidates.get i = toyCandidateOf (["1", "2", "3", "4"].get i) from
        List.getElem_map ..] at h
      exact eq_toyRejected (hids i) h
  refine hends.imp fun r w' hresult => ?_
  rw [← pageResult_iff.1 ((hresult r).2 rfl)]
  rfl

/-! ## New work -/

section NewWork

variable {Text : Type} {pf : Platform Text} {bucket : String} {b : Backend Text}

/-- The page is wired to the real store and stage functions, and to the real gate if it has one. -/
structure WiredPage (pf : Platform Text) (bucket : String)
    (input : IngestPageInput (Effect Text) Reply) : Prop where
  gate : ∀ exists', input.existsBySourceIdentity = some exists' → exists' = existsBySourceIdentity
  stage : input.stageRawReplay = stageRawReplay pf
  store : input.storeRawReplay = storeRawReplay pf bucket

/-- An exchange that wrote an object. -/
def IsPut : (Σ e : Effect Text, Reply e) → Bool
  | ⟨.putObject _ _ _, .ok _⟩ => true
  | _ => false

/-- An exchange that added a row. -/
def IsRow : (Σ e : Effect Text, Reply e) → Bool
  | ⟨.insertStaging _, .ok (some _)⟩ => true
  | _ => false

/-- How many objects and rows a conversation has written. -/
structure Wrote (l : Conversation Text) (objects rows : ℕ) : Prop where
  objects : l.countP IsPut = objects
  rows : l.countP IsRow = rows

/-- Nothing said, nothing written. -/
theorem wrote_nil : Wrote ([] : Conversation Text) 0 0 := ⟨rfl, rfl⟩

/-- What two parts of a conversation have written adds up. -/
theorem Wrote.append {l l' : Conversation Text} {n m n' m' : ℕ} (h : Wrote l n m)
    (h' : Wrote l' n' m') : Wrote (l ++ l') (n + n') (m + m') := by
  constructor
  · rw [List.countP_append, h.objects, h'.objects]
  · rw [List.countP_append, h.rows, h'.rows]

/-- One more exchange in front. -/
theorem Wrote.cons {l : Conversation Text} {n m : ℕ} (h : Wrote l n m)
    (x : Σ e : Effect Text, Reply e) :
    Wrote (x :: l) (n + if IsPut x then 1 else 0) (m + if IsRow x then 1 else 0) := by
  constructor
  · rw [List.countP_cons, h.objects]
  · rw [List.countP_cons, h.rows]

/-- The S3 adapter has written an object if it says `stored`. -/
theorem wrote_s3StoreRawReplay {input : RawReplayStorageInput} {l : Conversation Text}
    {evidence : RawReplayStorageEvidence} (h : Emits (s3StoreRawReplay bucket input) l evidence) :
    Wrote l (if evidence.status = .stored then 1 else 0) 0 := by
  rw [s3StoreRawReplay_eq, Proc.emits_call] at h
  obtain ⟨head, l, rfl, h⟩ := h
  cases head with
  | ok output =>
    obtain ⟨rfl, rfl⟩ := Proc.emits_pure.1 h
    have hstatus : (headEvidence bucket input output).status ≠ .stored := by
      unfold headEvidence
      split
      · exact (by decide : RawReplayStorageStatus.skipped ≠ .stored)
      · exact (by decide : RawReplayStorageStatus.conflict ≠ .stored)
    rw [if_neg hstatus]
    exact wrote_nil.cons _
  | error error =>
    dsimp only at h
    split at h
    · rw [Proc.emits_call] at h
      obtain ⟨put, l, rfl, h⟩ := h
      obtain ⟨rfl, rfl⟩ := Proc.emits_pure.1 h
      cases put with
      | ok u => exact (wrote_nil.cons _).cons _
      | error error => exact (wrote_nil.cons _).cons _
    · obtain ⟨rfl, rfl⟩ := Proc.emits_pure.1 h
      exact wrote_nil.cons _

/-- `storeRawReplay` writes an object when it says so, and never a row. -/
theorem wrote_storeRawReplay {candidate : ReplayCandidate} {l : Conversation Text}
    {rawResult : StoreRawReplayResult}
    (h : Emits (storeRawReplay pf bucket candidate) l (.ok rawResult)) :
    Wrote l (if rawResult.status = .stored then 1 else 0) 0 := by
  have hfailed : ∀ {fetchedAt error}, fetchFailureOutcome candidate fetchedAt error =
      .ok rawResult → rawResult.status ≠ .stored := by
    intro fetchedAt error heq
    cases error <;> cases heq
    exact (by decide : RawReplayStorageStatus.failed ≠ .stored)
  rw [storeRawReplay_eq, Proc.emits_call] at h
  obtain ⟨now, l, rfl, h⟩ := h
  cases hurl : bytesUrl pf candidate with
  | error error =>
    rw [hurl] at h
    obtain ⟨rfl, heq⟩ := Proc.emits_pure.1 h
    rw [if_neg (hfailed heq.symm)]
    exact wrote_nil.cons _
  | ok url =>
    rw [hurl] at h
    dsimp only at h
    rw [Proc.emits_call] at h
    obtain ⟨r, l, rfl, h⟩ := h
    cases r with
    | error error =>
      obtain ⟨rfl, heq⟩ := Proc.emits_pure.1 h
      rw [if_neg (hfailed heq.symm)]
      exact (wrote_nil.cons _).cons _
    | ok bytes =>
      obtain ⟨evidence, l₁, l₂, rfl, hstore, h⟩ := Proc.emits_bind.1 h
      obtain ⟨rfl, heq⟩ := Proc.emits_pure.1 h
      cases heq
      rw [List.append_nil]
      exact ((wrote_s3StoreRawReplay hstore).cons _).cons _

/-- The lookups write nothing. -/
theorem wrote_classifyExistingStaging {payload : IngestStagingPayload} {l : Conversation Text}
    {result : IngestStagingResult}
    (h : Emits (classifyExistingStaging payload) l (.ok result)) :
    Wrote l 0 0 ∧ result.status ≠ .staged := by
  rw [classifyExistingStaging_eq, Proc.emits_call] at h
  obtain ⟨r, l, rfl, h⟩ := h
  match r with
  | .error error => cases (Proc.emits_pure.1 h).2
  | .ok (some row) =>
    obtain ⟨rfl, heq⟩ := Proc.emits_pure.1 h
    cases heq
    refine ⟨wrote_nil.cons _, ?_⟩
    unfold existingResult
    split
    · exact (by decide : StagingOutcomeStatus.alreadyStaged ≠ .staged)
    · exact (by decide : StagingOutcomeStatus.conflict ≠ .staged)
  | .ok none =>
    dsimp only at h
    rw [Proc.emits_call] at h
    obtain ⟨r, l, rfl, h⟩ := h
    match r with
    | .error error => cases (Proc.emits_pure.1 h).2
    | .ok (some row) =>
      obtain ⟨rfl, heq⟩ := Proc.emits_pure.1 h
      cases heq
      exact ⟨(wrote_nil.cons _).cons _, (by decide : StagingOutcomeStatus.conflict ≠ .staged)⟩
    | .ok none =>
      obtain ⟨rfl, heq⟩ := Proc.emits_pure.1 h
      cases heq
      exact ⟨(wrote_nil.cons _).cons _, (by decide : StagingOutcomeStatus.failed ≠ .staged)⟩

/-- Nor does what follows a failed INSERT. -/
theorem wrote_stageError {payload : IngestStagingPayload} {error : JsError} {l : Conversation Text}
    {result : IngestStagingResult} (h : Emits (stageError payload error) l (.ok result)) :
    Wrote l 0 0 ∧ result.status ≠ .staged := by
  unfold stageError at h
  split at h
  · exact wrote_classifyExistingStaging h
  · obtain ⟨rfl, heq⟩ := Proc.emits_pure.1 h
    cases heq
    exact ⟨wrote_nil, (by decide : StagingOutcomeStatus.failed ≠ .staged)⟩

/-- `stage` adds a row when it says so, and never writes an object. -/
theorem wrote_stage {payload : IngestStagingPayload} {l : Conversation Text}
    {result : IngestStagingResult} (h : Emits (stage payload) l (.ok result)) :
    Wrote l 0 (if result.status = .staged then 1 else 0) := by
  rw [stage_eq, Proc.emits_call] at h
  obtain ⟨r, l, rfl, h⟩ := h
  match r with
  | .error error =>
    obtain ⟨hwrote, hstatus⟩ := wrote_stageError h
    rw [if_neg hstatus]
    exact hwrote.cons _
  | .ok (some id) =>
    obtain ⟨rfl, heq⟩ := Proc.emits_pure.1 h
    cases heq
    exact wrote_nil.cons _
  | .ok none =>
    dsimp only at h
    rw [Proc.emits_call] at h
    obtain ⟨r, l, rfl, h⟩ := h
    match r with
    | .error error =>
      obtain ⟨hwrote, hstatus⟩ := wrote_stageError h
      rw [if_neg hstatus]
      exact (hwrote.cons _).cons _
    | .ok (some row) =>
      obtain ⟨rfl, heq⟩ := Proc.emits_pure.1 h
      cases heq
      exact (wrote_nil.cons _).cons _
    | .ok none =>
      obtain ⟨hwrote, hstatus⟩ := wrote_classifyExistingStaging h
      rw [if_neg hstatus]
      exact (hwrote.cons _).cons _

/-- Staging has written a row if it says `staged`. -/
theorem wrote_stageRawReplay {rawResult : StoreRawReplayResult} {runId : Option String}
    {l : Conversation Text} {result : IngestStagingResult}
    (h : Emits (stageRawReplay pf rawResult runId) l (.ok result)) :
    Wrote l 0 (if result.status = .staged then 1 else 0) := by
  cases rawResult with
  | fetchFailed evidence =>
    obtain ⟨rfl, heq⟩ := Proc.emits_pure.1 h
    cases heq
    exact wrote_nil
  | stored evidence =>
    unfold stageRawReplay at h
    dsimp only at h
    split at h
    · obtain ⟨rfl, heq⟩ := Proc.emits_pure.1 h
      cases heq
      exact wrote_nil
    · exact wrote_stage h

variable {input : IngestPageInput (Effect Text) Reply}

/-- What a candidate's task has written is what its outcome says. -/
theorem wrote_ingestCandidate (hwired : WiredPage pf bucket input) {candidate : ReplayCandidate}
    {l : Conversation Text} {settled : SettledCandidate}
    (h : Emits (ingestCandidate input candidate) l (.ok settled)) :
    Wrote l (if settled.rawStatusIs .stored then 1 else 0)
      (if settled.stagingStatusIs .staged then 1 else 0) := by
  have hprocess : ∀ {l : Conversation Text}, Emits (processCandidate input candidate) l
      (.ok settled) → Wrote l (if settled.rawStatusIs .stored then 1 else 0)
        (if settled.stagingStatusIs .staged then 1 else 0) := by
    intro l h
    unfold processCandidate at h
    rw [hwired.store, hwired.stage, Async.emits_bind_ok] at h
    obtain ⟨rawResult, l₁, l₂, rfl, hstore, h⟩ := h
    obtain ⟨stagingResult, l₂, l₃, rfl, hstage, h⟩ := Async.emits_bind_ok.1 h
    obtain ⟨rfl, heq⟩ := Proc.emits_pure.1 h
    cases heq
    rw [List.append_nil]
    have hwrote := (wrote_storeRawReplay hstore).append (wrote_stageRawReplay hstage)
    rw [Nat.add_zero, Nat.zero_add] at hwrote
    simpa [SettledCandidate.rawStatusIs, SettledCandidate.stagingStatusIs] using hwrote
  unfold ingestCandidate at h
  cases hgate : prefetchGate input candidate with
  | none =>
    rw [hgate] at h
    exact hprocess h
  | some gate =>
    rw [hgate] at h
    dsimp only at h
    obtain ⟨exists', l₁, l₂, rfl, hasked, h⟩ := Async.emits_bind_ok.1 h
    have hnothing : Wrote l₁ 0 0 := by
      unfold prefetchGate at hgate
      split at hgate
      · rename_i hexists _
        split at hgate
        · cases hgate
          rw [hwired.gate _ hexists] at hasked
          rw [Proc.emits_perform.1 hasked]
          exact wrote_nil.cons _
        · cases hgate
      · cases hgate
    cases exists' with
    | true =>
      obtain ⟨rfl, heq⟩ := Proc.emits_pure.1 h
      cases heq
      rw [List.append_nil]
      exact hnothing
    | false =>
      have hwrote := hnothing.append (hprocess h)
      rw [Nat.zero_add, Nat.zero_add] at hwrote
      exact hwrote

/-! ### What a page has written -/

/-- A count over a function's values is a sum. -/
theorem countP_ofFn {α : Type} {n : ℕ} (f : Fin n → α) (p : α → Bool) :
    (List.ofFn f).countP p = ∑ i, if p (f i) then 1 else 0 := by
  induction n with
  | zero => rfl
  | succ n ih => rw [List.ofFn_succ, List.countP_cons, ih, Fin.sum_univ_succ, Nat.add_comm]

/-- The counts of a page are those of what it has written, whatever the interleaving. -/
theorem wrote_ingestPage (hwired : WiredPage pf bucket input) {l : Conversation Text}
    {result : IngestPageResult} (h : Emits (ingestPage input) l (.ok result)) :
    Wrote l result.counts.stored result.counts.staged := by
  rw [ingestPage_eq] at h
  obtain ⟨settled, ls, l₁, l₂, rfl, htasks, hshuffled, h⟩ := Proc.emits_fan h
  obtain ⟨rfl, houtcome⟩ := Proc.emits_pure.1 h
  obtain ⟨values, hvalues, rfl⟩ := pageOutcome_eq_ok.1 houtcome.symm
  have htally := tallyPage_spec (List.ofFn values)
  have hwrote : ∀ i, Wrote (ls i) (if (values i).rawStatusIs .stored then 1 else 0)
      (if (values i).stagingStatusIs .staged then 1 else 0) := by
    intro i
    have htask := htasks i
    rw [hvalues i] at htask
    exact wrote_ingestCandidate hwired htask
  rw [List.append_nil]
  constructor
  · rw [Proc.countP_of_shuffled hshuffled, htally.stored, countP_ofFn]
    exact Finset.sum_congr rfl fun i _ => (hwrote i).objects
  · rw [Proc.countP_of_shuffled hshuffled, htally.staged, countP_ofFn]
    exact Finset.sum_congr rfl fun i _ => (hwrote i).rows

/-! ### What there is afterwards -/

/-- The raw object keys that exist in `w'` and did not in `w`. -/
def newKeys (w w' : World Text) : Set String := {key | w.raw key = none ∧ w'.raw key ≠ none}

/-- A key is new if it had no object and has one. -/
theorem mem_newKeys {w w' : World Text} {key : String} :
    key ∈ newKeys w w' ↔ w.raw key = none ∧ w'.raw key ≠ none := Iff.rfl

/-- A PUT under a key nothing was under. -/
def IsFreshPut : FetchEvent Text → Bool
  | ⟨before, .putObject key _ _, .ok _, _⟩ => (before.raw key).isNone
  | _ => false

/-- Since `start`, the stores have grown by what the record shows. -/
structure Grown (b : Backend Text) (start : World Text) (w : RecordedWorld Unit Text) : Prop where
  kept : ∀ key, start.raw key ≠ none → w.1.raw key ≠ none
  finite : (newKeys start w.1).Finite
  keys : (newKeys start w.1).ncard = (w.2 ()).countP IsFreshPut
  rows : w.1.staging.length = start.staging.length + (conversation (w.2 ())).countP IsRow
  answered : ∀ ev ∈ w.2 (), b.Step ev.before ev.request ev.reply ev.after

/-- At the start nothing has grown. -/
theorem grown_start (start : World Text) : Grown b start (start, fun _ => []) := by
  have hnone : newKeys start start = ∅ := by
    ext key
    exact ⟨fun h => h.2 h.1, fun h => h.elim⟩
  refine ⟨fun _ h => h, ?_, ?_, rfl, fun ev hev => (List.not_mem_nil hev).elim⟩
  · rw [hnone]
    exact Set.finite_empty
  · rw [hnone, Set.ncard_empty]
    rfl

/-- Who hears from the raw store and the staging table. -/
theorem raw_staging_of_step {w w' : World Text} {e : Effect Text} {r : Reply e}
    (h : b.Step w e r w') (hput : ∀ key bytes sha256, e ≠ .putObject key bytes sha256)
    (hinsert : ∀ payload, e ≠ .insertStaging payload) :
    w'.raw = w.raw ∧ w'.staging = w.staging := by
  have hsame : ∀ {w'' : World Text}, w'' = w → w''.raw = w.raw ∧ w''.staging = w.staging := by
    rintro _ rfl
    exact ⟨rfl, rfl⟩
  -- three effects change the world, and two of them are excluded
  cases e with
  | putObject key bytes sha256 => exact absurd rfl (hput _ _ _)
  | insertStaging payload => exact absurd rfl (hinsert _)
  | putCheckpoint key body condition =>
    rcases h with ⟨_, etag, _, rfl, _⟩ | ⟨hw, _⟩
    · exact ⟨rfl, rfl⟩
    · exact hsame hw
  | now | sleep _ | random | awaitFloor | log _ | mark _ => exact hsame h
  | putEvidence _ _ | writeEvidenceFile _ _ => exact hsame h
  | createRunId _ | shouldStop | writeHeartbeat _ _ => exact hsame h
  | discoverReplays _ | fetchText _ | fetchBytes _ | headObject _ | getCheckpoint _ => exact hsame h.1
  | findBySourceIdentity _ _ | findByObjectIdentity _ _ | existsBySourceIdentity _ _ =>
    exact hsame h.1

/-- The key of a PUT is new, if nothing was under it. -/
theorem ncard_newKeys_put {start w : World Text} (hkept : ∀ key, start.raw key ≠ none →
    w.raw key ≠ none) (hfinite : (newKeys start w).Finite) (key : String) (object : RawObject) :
    (newKeys start (w.putRaw key object)).Finite ∧
      (newKeys start (w.putRaw key object)).ncard =
        (newKeys start w).ncard + if (w.raw key).isNone then 1 else 0 := by
  have hother : ∀ key', key' ≠ key → (w.putRaw key object).raw key' = w.raw key' :=
    fun key' hne => Function.update_of_ne hne _ _
  have hkey : (w.putRaw key object).raw key = some object := Function.update_self ..
  cases hraw : w.raw key with
  | none =>
    have hstart : start.raw key = none := by
      by_contra hne
      exact hkept key hne hraw
    have hinsert : newKeys start (w.putRaw key object) = insert key (newKeys start w) := by
      ext key'
      by_cases hne : key' = key
      · subst hne
        refine ⟨fun _ => Set.mem_insert _ _, fun _ => ⟨hstart, ?_⟩⟩
        rw [hkey]
        exact Option.some_ne_none _
      · rw [Set.mem_insert_iff, or_iff_right hne]
        rw [mem_newKeys, mem_newKeys, hother key' hne]
    have hnew : key ∉ newKeys start w := fun h => h.2 hraw
    rw [hinsert]
    exact ⟨hfinite.insert key, Set.ncard_insert_of_notMem hnew hfinite⟩
  | some object' =>
    have hsame : newKeys start (w.putRaw key object) = newKeys start w := by
      ext key'
      rw [mem_newKeys, mem_newKeys]
      by_cases hne : key' = key
      · subst hne
        rw [hkey, hraw]
        exact and_congr_right' (iff_of_true (Option.some_ne_none _) (Option.some_ne_none _))
      · rw [hother key' hne]
    rw [hsame]
    exact ⟨hfinite, rfl⟩

/-- One more event that neither writes an object nor adds a row. -/
theorem Grown.same {start : World Text} {w w' : RecordedWorld Unit Text} {e : Effect Text}
    {r : Reply e} (h : Grown b start w) (hr : b.Step.recorded () w e r w')
    (hraw : w'.1.raw = w.1.raw) (hstaging : w'.1.staging = w.1.staging)
    (hfresh : IsFreshPut ⟨w.1, e, r, w'.1⟩ = false) (hrow : IsRow ⟨e, r⟩ = false) :
    Grown b start w' := by
  have hrecord := Env.recorded_self hr
  have hkeys : newKeys start w'.1 = newKeys start w.1 := by
    unfold newKeys
    rw [hraw]
  refine ⟨fun key hkey => ?_, ?_, ?_, ?_, fun ev hev => ?_⟩
  · rw [hraw]
    exact h.kept key hkey
  · rw [hkeys]
    exact h.finite
  · rw [hkeys, hrecord, List.countP_append, List.countP_singleton, hfresh, h.keys]
    rfl
  · rw [hstaging, hrecord, conversation_append, List.countP_append, h.rows]
    show _ = _ + (_ + [_].countP IsRow)
    rw [List.countP_singleton, hrow]
    rfl
  · rw [hrecord] at hev
    rcases List.mem_append.1 hev with hev | hev
    · exact h.answered ev hev
    · rw [List.mem_singleton.1 hev]
      exact hr.1

/-- A step adds to the store and the table what it adds to the record. -/
theorem Grown.step (hraw : b.faults.raw = false) (hstaging : b.faults.staging = false)
    {start : World Text} {w w' : RecordedWorld Unit Text} {e : Effect Text} {r : Reply e}
    (h : Grown b start w) (hr : b.Step.recorded () w e r w') : Grown b start w' := by
  have hrecord := Env.recorded_self hr
  have hanswered : ∀ ev ∈ w'.2 (), b.Step ev.before ev.request ev.reply ev.after := by
    intro ev hev
    rw [hrecord] at hev
    rcases List.mem_append.1 hev with hev | hev
    · exact h.answered ev hev
    · rw [List.mem_singleton.1 hev]
      exact hr.1
  by_cases hput : ∃ key bytes sha256, e = .putObject key bytes sha256
  · obtain ⟨key, bytes, sha256, rfl⟩ := hput
    obtain ⟨hw, hreply⟩ : w'.1 = w.1.putRaw key { bytes, sha256 := some sha256 } ∧ r = .ok () := by
      rcases hr.1 with ⟨hw, hok | ⟨hfault, _⟩⟩ | ⟨hfault, _⟩
      · exact ⟨hw, hok⟩
      · rw [hraw] at hfault
        cases hfault
      · rw [hraw] at hfault
        cases hfault
    subst hreply
    obtain ⟨hfinite, hncard⟩ := ncard_newKeys_put h.kept h.finite key
      { bytes, sha256 := some sha256 }
    rw [← hw] at hfinite hncard
    refine ⟨fun key' hkey' => ?_, hfinite, ?_, ?_, hanswered⟩
    · rw [hw]
      by_cases hne : key' = key
      · subst hne
        rw [show (w.1.putRaw key' _).raw key' = some _ from Function.update_self ..]
        exact Option.some_ne_none _
      · rw [show (w.1.putRaw key _).raw key' = _ from Function.update_of_ne hne _ _]
        exact h.kept key' hkey'
    · rw [hncard, h.keys, hrecord, List.countP_append, List.countP_singleton]
      rfl
    · rw [show w'.1.staging = w.1.staging by rw [hw]; rfl, h.rows, hrecord, conversation_append,
        List.countP_append]
      rfl
  · by_cases hinsert : ∃ payload, e = .insertStaging payload
    · obtain ⟨payload, rfl⟩ := hinsert
      rcases hr.1 with hstep | ⟨hfault, _⟩
      · split at hstep
        · obtain ⟨hw, rfl⟩ := hstep
          exact h.same hr (by rw [hw]) (by rw [hw]) rfl rfl
        · split at hstep
          · obtain ⟨hw, error, _, rfl⟩ := hstep
            exact h.same hr (by rw [hw]) (by rw [hw]) rfl rfl
          · obtain ⟨id, hw, rfl | ⟨hfault, _⟩⟩ := hstep
            · -- a row is added
              have hraw' : w'.1.raw = w.1.raw := by
                rw [hw]
                rfl
              have hkeys : newKeys start w'.1 = newKeys start w.1 := by
                unfold newKeys
                rw [hraw']
              refine ⟨fun key hkey => ?_, ?_, ?_, ?_, hanswered⟩
              · rw [hraw']
                exact h.kept key hkey
              · rw [hkeys]
                exact h.finite
              · rw [hkeys, hrecord, List.countP_append, h.keys]
                rfl
              · rw [show w'.1.staging = w.1.staging ++ [payload.toRow id] by rw [hw]; rfl,
                  List.length_append, h.rows, hrecord, conversation_append, List.countP_append]
                rfl
            · rw [hstaging] at hfault
              cases hfault
      · rw [hstaging] at hfault
        cases hfault
    · obtain ⟨hsame, hsame'⟩ := raw_staging_of_step hr.1
        (fun key bytes sha256 he => hput ⟨key, bytes, sha256, he⟩)
        (fun payload he => hinsert ⟨payload, he⟩)
      refine h.same hr hsame hsame' ?_ ?_
      · cases e with
        | putObject key bytes sha256 => exact absurd ⟨_, _, _, rfl⟩ hput
        | _ => rfl
      · cases e with
        | insertStaging payload => exact absurd ⟨_, rfl⟩ hinsert
        | _ => rfl

/-- So does a run. -/
theorem grown_of_runs (hraw : b.faults.raw = false) (hstaging : b.faults.staging = false)
    {α : Type} {start : World Text} {w' : RecordedWorld Unit Text} {p q : Program Text α}
    (h : (Proc.lts (b.Step.recorded ()) α).Runs Lts.Alone (start, fun _ => []) p w' q) :
    Grown b start w' :=
  Proc.runs_keep (fun _ _ _ _ hgrown hr => hgrown.step hraw hstaging hr) h (grown_start start)

/-- A count of what was said is a count of the record's events. -/
theorem countP_conversation (h : List (FetchEvent Text)) (p : (Σ e : Effect Text, Reply e) → Bool) :
    (conversation h).countP p = h.countP fun ev => p ⟨ev.request, ev.reply⟩ := List.countP_map ..

/-- Counting some and counting all is the same when some are all. -/
theorem countP_eq_countP_iff {α : Type} {p q : α → Bool} (l : List α)
    (himp : ∀ x ∈ l, q x = true → p x = true) :
    l.countP p = l.countP q ↔ ∀ x ∈ l, p x = true → q x = true := by
  induction l with
  | nil => exact ⟨fun _ x hx => (List.not_mem_nil hx).elim, fun _ => rfl⟩
  | cons x rest ih =>
    have hrest : rest.countP q ≤ rest.countP p :=
      List.countP_mono_left fun y hy => himp y (List.mem_cons_of_mem x hy)
    have hx := himp x List.mem_cons_self
    have ih := ih fun y hy => himp y (List.mem_cons_of_mem x hy)
    rw [List.countP_cons, List.countP_cons, List.forall_mem_cons, ← ih]
    cases hp : p x <;> cases hq : q x
    · simp
    · rw [hp] at hx
      exact absurd (hx hq) Bool.false_ne_true
    · simp only [if_true, Bool.false_eq_true, if_false, forall_const, false_and, iff_false]
      omega
    · simp

/-- Every PUT of the record was under a key with nothing under it. -/
def PutsFresh (h : List (FetchEvent Text)) : Prop :=
  ∀ ev ∈ h, ∀ key bytes sha256, ev.request = .putObject key bytes sha256 → ev.before.raw key = none

/-- Whether PUTs are fresh can be told from the record. -/
theorem putsFresh_iff (hraw : b.faults.raw = false) {h : List (FetchEvent Text)}
    (hanswered : ∀ ev ∈ h, b.Step ev.before ev.request ev.reply ev.after) :
    (∀ ev ∈ h, IsPut ⟨ev.request, ev.reply⟩ = true → IsFreshPut ev = true) ↔ PutsFresh h := by
  refine forall₂_congr fun ev hev => ?_
  have hstep := hanswered ev hev
  obtain ⟨before, request, reply, after⟩ := ev
  cases request with
  | putObject key bytes sha256 =>
    have hok : reply = .ok () := by
      rcases hstep with ⟨_, hok | ⟨hfault, _⟩⟩ | ⟨hfault, _⟩
      · exact hok
      · exact absurd hfault (by rw [hraw]; exact Bool.false_ne_true)
      · exact absurd hfault (by rw [hraw]; exact Bool.false_ne_true)
    subst hok
    constructor
    · intro hfresh key' bytes' sha256' heq
      cases heq
      exact Option.isNone_iff_eq_none.1 (hfresh rfl)
    · intro hfresh _
      exact Option.isNone_iff_eq_none.2 (hfresh _ _ _ rfl)
  | _ => exact ⟨fun _ _ _ _ heq => (by cases heq), fun _ hput => (by cases hput)⟩

variable (b input) in
/-- The promise: from `start`, the counts of the page are the new objects and the new rows. -/
def CountsExact (start : World Text) : Prop :=
  ∀ w' result, (Proc.lts (b.Step.recorded ()) _).Runs Lts.Alone (start, fun _ => [])
      (ingestPage input) w' (.pure (.ok result)) →
    result.counts.stored = (newKeys start w'.1).ncard ∧
      w'.1.staging.length = start.staging.length + result.counts.staged

/-- **New rows are counted exactly, new objects when no PUT finds its key taken.**  Healthy stores,
    nobody else writing, any interleaving: `staged` is the number of rows added, and `stored` is the
    number of new keys if and only if every PUT of the page was under a key nothing was under. -/
theorem page_counts_exact_iff (hraw : b.faults.raw = false) (hstaging : b.faults.staging = false)
    (hwired : WiredPage pf bucket input) {start : World Text} {w' : RecordedWorld Unit Text}
    {result : IngestPageResult}
    (hrun : (Proc.lts (b.Step.recorded ()) _).Runs Lts.Alone (start, fun _ => [])
      (ingestPage input) w' (.pure (.ok result))) :
    (result.counts.stored = (newKeys start w'.1).ncard ∧
      w'.1.staging.length = start.staging.length + result.counts.staged) ↔ PutsFresh (w'.2 ()) := by
  have hgrown := grown_of_runs hraw hstaging hrun
  obtain ⟨l, hemits, hl⟩ := Proc.emits_of_recorded hrun
  rw [show l = conversation (w'.2 ()) from hl.symm] at hemits
  have hwrote := wrote_ingestPage hwired hemits
  have hrows : w'.1.staging.length = start.staging.length + result.counts.staged := by
    rw [hgrown.rows, hwrote.rows]
  rw [and_iff_left hrows, hgrown.keys, ← hwrote.objects, countP_conversation]
  refine (countP_eq_countP_iff _ fun ev _ hfresh => ?_).trans (putsFresh_iff hraw hgrown.answered)
  -- a fresh PUT is a PUT
  obtain ⟨before, request, reply, after⟩ := ev
  cases request with
  | putObject key bytes sha256 =>
    cases reply with
    | ok u => rfl
    | error error => cases hfresh
  | _ => cases hfresh

end NewWork

/-! ### Two candidates with the same bytes -/

/-- Two at a time. -/
def toyPair : IngestPageInput (Effect (Option Json)) Reply :=
  { sequentialIngest toyPlatform "bucket" "run" toyPage with limit := 2 }

/-- A page of two candidates, wired as a run does it. -/
theorem wiredPage_toyPair : WiredPage toyPlatform "bucket" toyPair :=
  ⟨fun _ h => (by cases h), rfl, rfl⟩

/-- Both candidates ask before either one writes. -/
def toyRace : RecordedWorld Unit (Option Json) × Task (Option Json) IngestPageResult :=
  Proc.execPicks (recordServe toyScript.serve ()) [0, 0, 0, 1, 1, 1, 0, 0, 0, 0, 0, 0]
    ((emptyWorld, fun _ => []), ingestPage toyPair)

/-- The two of them, in turns. -/
theorem runs_toyRace : (Proc.lts (toyServices.Step.recorded ()) _).Runs Lts.Alone
    (emptyWorld, fun _ => []) (ingestPage toyPair) toyRace.1 toyRace.2 :=
  Proc.runs_execPicks (recorded_serve step_toyScript) [0, 0, 0, 1, 1, 1, 0, 0, 0, 0, 0, 0]
    ((emptyWorld, fun _ => []), ingestPage toyPair)

/-- The counts are exact if and only if no PUT of the race replaces an object. -/
theorem page_counts_exact_race : ∃ result, toyRace.2 = Proc.pure (.ok result) ∧
    ((result.counts.stored = (newKeys emptyWorld toyRace.1.1).ncard ∧
      toyRace.1.1.staging.length = 0 + result.counts.staged) ↔ PutsFresh (toyRace.1.2 ())) := by
  obtain ⟨result, hresult⟩ : ∃ result, toyRace.2 = Proc.pure (.ok result) := ⟨_, rfl⟩
  have hrun := runs_toyRace
  rw [hresult] at hrun
  exact ⟨result, hresult, page_counts_exact_iff rfl rfl wiredPage_toyPair hrun⟩

/-- The page reports two new objects, and there is one. -/
theorem page_counts_not_exact : ¬ CountsExact toyServices toyPair emptyWorld := by
  intro hexact
  obtain ⟨result, hresult, hstored⟩ :
      ∃ result, toyRace.2 = Proc.pure (.ok result) ∧ result.counts.stored = 2 := ⟨_, rfl, rfl⟩
  have hrun := runs_toyRace
  rw [hresult] at hrun
  have hkeys := (grown_of_runs rfl rfl hrun).keys
  have hone : (toyRace.1.2 ()).countP IsFreshPut = 1 := rfl
  have hcounts := (hexact _ _ hrun).1
  rw [hstored, hkeys, hone] at hcounts
  cases hcounts

end ReplaysFetcher
