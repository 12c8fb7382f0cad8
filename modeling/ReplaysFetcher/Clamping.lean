/-
  A source that clamps (`src/run/run-once-page.ts`).

  Past its last page such a source repeats that page instead of sending an empty one.  The page loop has
  no other bound then than its stop on an all-duplicate page, and that stop asks for `failed === 0`.

  1. The functions a run is injected with are requests here (`Injected`), and the conversation so far
     is the world: a candidate that was attempted before is one the conversation shows
     (`Fakes.stored`, `Fakes.staged`).
  2. A page is all duplicate exactly when none of its candidates fails and each was attempted before
     (`isAllDuplicate_iff`).  The tasks of its fan are interleaved, so this rests on one of the
     attempts at a candidate having been the first.
  3. From there a round either leaves the loop or moves on, and which of the two it does is settled
     beforehand (`ends_pageIteration`).  So the loop ends exactly when some page is all duplicate
     (`ends_runPageLoop_iff`); on a clamped source, when no candidate of the repeated page fails, or
     an earlier page already was all duplicate (`clamped_terminates_iff`).
-/
import ReplaysFetcher.PageTurns
import ReplaysFetcher.Effectful.Remembering

namespace ReplaysFetcher

open Effectful

/-! ## Injected functions -/

/-- A call of one of the functions a run is injected with. -/
inductive Injected
  | awaitFloor
  | discoverReplays (input : DiscoverInput)
  | log (line : LogLine)
  | now
  | readCheckpoint (slug : String)
  | stageRawReplay (rawResult : StoreRawReplayResult) (runId : Option String)
  | storeRawReplay (candidate : ReplayCandidate)
  | writeCheckpoint (input : CheckpointWriteInput)

@[reducible] def InjectedReply : Injected → Type
  | .awaitFloor => Unit
  | .discoverReplays _ => Except JsError DiscoveryReport
  | .log _ => Unit
  | .now => Date
  | .readCheckpoint _ => Except JsError CheckpointReadResult
  | .stageRawReplay _ _ => Except JsError IngestStagingResult
  | .storeRawReplay _ => Except JsError StoreRawReplayResult
  | .writeCheckpoint _ => Except JsError (Option String)

def ask (e : Injected) : Proc Injected InjectedReply (InjectedReply e) := Proc.perform e

/-- A run with the functions of its page loop injected, and `maxPages` unset. -/
def inject (input : RunOnceInput Injected InjectedReply) : RunOnceInput Injected InjectedReply :=
  { input with
    awaitFloor := ask .awaitFloor
    checkpointStore :=
      { read := fun slug => ask (.readCheckpoint slug)
        write := fun write => ask (.writeCheckpoint write) }
    discoverReplays := fun discover => ask (.discoverReplays discover)
    log := input.log.map fun _ line => ask (.log line)
    maxPages := none
    now := ask .now
    stageRawReplay := fun rawResult runId => ask (.stageRawReplay rawResult runId)
    storeRawReplay := fun candidate => ask (.storeRawReplay candidate) }

abbrev InjectedConversation : Type := List (Σ e : Injected, InjectedReply e)

/-! ## Fixed behaviours -/

/-- What becomes of a candidate, however often it is attempted. -/
inductive Behaviour
  /-- its bytes cannot be fetched, or not be stored -/
  | storeFails
  | stageFails
  /-- the first attempt does the work, and every later one finds it done -/
  | succeeds
  deriving DecidableEq, Repr

namespace Behaviour

/-- The raw status of an attempt: was there one before? -/
def rawStatus : Behaviour → Bool → RawReplayStorageStatus
  | .storeFails, _ => .failed
  | _, false => .stored
  | _, true => .skipped

/-- The staging status of an attempt. -/
def stagingStatus : Behaviour → Bool → StagingOutcomeStatus
  | .storeFails, _ => .notStageable
  | .stageFails, _ => .failed
  | .succeeds, false => .staged
  | .succeeds, true => .alreadyStaged

end Behaviour

/-- A source, and functions that treat each of its candidates in a fixed way. -/
structure Fakes where
  /-- what a list page yields -/
  candidates : Url → List ReplayCandidate
  behaviour : ReplayCandidate → Behaviour
  /-- whose raw result this is -/
  candidateOf : StoreRawReplayResult → ReplayCandidate
  /-- the store function has a result of every status for every candidate of the source -/
  results : ∀ url, ∀ candidate ∈ candidates url, ∀ status,
    ∃ rawResult, rawResult.status = status ∧ candidateOf rawResult = candidate

namespace Fakes

variable (f : Fakes)

/-- A store call for the candidate. -/
def IsStore (candidate : ReplayCandidate) (x : Σ e : Injected, InjectedReply e) : Prop :=
  x.1 = .storeRawReplay candidate

/-- A stage call for the candidate. -/
def IsStage (candidate : ReplayCandidate) (x : Σ e : Injected, InjectedReply e) : Prop :=
  ∃ rawResult runId, x.1 = .stageRawReplay rawResult runId ∧ f.candidateOf rawResult = candidate

/-- The candidates the store function was called for. -/
def stored (l : InjectedConversation) : Set ReplayCandidate :=
  {candidate | ∃ x ∈ l, IsStore candidate x}

/-- The candidates the stage function was called for. -/
def staged (l : InjectedConversation) : Set ReplayCandidate :=
  {candidate | ∃ x ∈ l, f.IsStage candidate x}

/-- What may be answered after `l`. -/
def Allowed (l : InjectedConversation) : (Σ e : Injected, InjectedReply e) → Prop
  | ⟨.discoverReplays input, r⟩ => ∃ report, r = .ok report ∧ report.ok = true ∧
      report.candidates = f.candidates input.sourceUrl
  | ⟨.storeRawReplay candidate, r⟩ => ∃ rawResult again, r = .ok rawResult ∧
      (again = true ↔ candidate ∈ stored l) ∧
      rawResult.status = (f.behaviour candidate).rawStatus again ∧
      f.candidateOf rawResult = candidate
  | ⟨.stageRawReplay rawResult _, r⟩ => ∃ result again, r = .ok result ∧
      (again = true ↔ f.candidateOf rawResult ∈ f.staged l) ∧
      result.status = (f.behaviour (f.candidateOf rawResult)).stagingStatus again
  | _ => True

/-- The injected functions, as an environment. -/
abbrev env : Env InjectedConversation Injected InjectedReply := Proc.remembering f.Allowed

/-- The work done so far. -/
def work (l : InjectedConversation) : Set ReplayCandidate × Set ReplayCandidate :=
  (stored l, f.staged l)

/-- The work, when these candidates were attempted too. -/
def workWith (work : Set ReplayCandidate × Set ReplayCandidate) (candidates : List ReplayCandidate) :
    Set ReplayCandidate × Set ReplayCandidate :=
  (work.1 ∪ {c | c ∈ candidates}, work.2 ∪ {c | c ∈ candidates})

variable {f} {l l' more : InjectedConversation} {candidate : ReplayCandidate}

theorem mem_stored_append :
    candidate ∈ stored (l ++ more) ↔ candidate ∈ stored l ∨ candidate ∈ stored more := by
  unfold stored
  simp only [Set.mem_ofPred_eq, List.mem_append, or_and_right, exists_or]

theorem mem_staged_append :
    candidate ∈ f.staged (l ++ more) ↔ candidate ∈ f.staged l ∨ candidate ∈ f.staged more := by
  unfold staged
  simp only [Set.mem_ofPred_eq, List.mem_append, or_and_right, exists_or]

theorem work_append_of_other {x : Σ e : Injected, InjectedReply e}
    (hstore : ∀ candidate, ¬ IsStore candidate x) (hstage : ∀ candidate, ¬ f.IsStage candidate x) :
    f.work (l ++ [x]) = f.work l := by
  unfold work
  congr 1
  · ext candidate
    rw [mem_stored_append]
    refine or_iff_left ?_
    rintro ⟨y, hy, h⟩
    rw [List.mem_singleton.1 hy] at h
    exact hstore candidate h
  · ext candidate
    rw [mem_staged_append]
    refine or_iff_left ?_
    rintro ⟨y, hy, h⟩
    rw [List.mem_singleton.1 hy] at h
    exact hstage candidate h

end Fakes

/-! ## One page -/

section Page

variable {f : Fakes} {input : RunOnceInput Injected InjectedReply} {state : LoopState}
  {candidates : List ReplayCandidate} {l l' more : InjectedConversation}

/-- The two calls for a candidate. -/
theorem emits_injectedCandidate {candidate : ReplayCandidate} {r : Except JsError SettledCandidate}
    (h : Emits (ingestCandidate (ingestInput (inject input) state candidates) candidate) l r)
    (hallowed : ∀ x ∈ l, ∃ before, f.Allowed before x) :
    ∃ rawResult result runId, r = .ok (.processed rawResult result) ∧
      l = [⟨.storeRawReplay candidate, .ok rawResult⟩, ⟨.stageRawReplay rawResult runId, .ok result⟩]
    := by
  rw [ingestCandidate_ungated _ rfl] at h
  unfold processCandidate at h
  rw [Async.bind_eq] at h
  obtain ⟨stored, l₁, l₂, rfl, hstore, hafter⟩ := Proc.emits_bind.1 h
  obtain rfl := Proc.emits_perform.1 hstore
  obtain ⟨_, rawResult, _, rfl, _⟩ := hallowed _ (List.mem_append_left _ (List.mem_singleton.2 rfl))
  rw [Async.onOk_ok, Async.bind_eq] at hafter
  obtain ⟨staged, l₃, l₄, rfl, hstage, hpure⟩ := Proc.emits_bind.1 hafter
  obtain rfl := Proc.emits_perform.1 hstage
  obtain ⟨_, result, _, rfl, _⟩ := hallowed _
    (List.mem_append_right _ (List.mem_append_left _ (List.mem_singleton.2 rfl)))
  obtain ⟨rfl, rfl⟩ := Proc.emits_pure.1 hpure
  exact ⟨rawResult, result, _, rfl, rfl⟩

/-- What was said for a page: two calls for each candidate, in some order. -/
structure Attempts (f : Fakes) (l : InjectedConversation) (candidates : List ReplayCandidate)
    (more : InjectedConversation) (raw : Fin candidates.length → StoreRawReplayResult)
    (staging : Fin candidates.length → IngestStagingResult) : Prop where
  told : Proc.Told f.Allowed l more
  only : ∀ x ∈ more, ∃ i runId, x = ⟨.storeRawReplay (candidates.get i), .ok (raw i)⟩ ∨
    x = ⟨.stageRawReplay (raw i) runId, .ok (staging i)⟩
  store : ∀ i, ⟨.storeRawReplay (candidates.get i), .ok (raw i)⟩ ∈ more
  stage : ∀ i, ∃ runId, ⟨.stageRawReplay (raw i) runId, .ok (staging i)⟩ ∈ more

/-- **A page that resolved has made its attempts**, and its counts are theirs. -/
theorem attempts_ingestPage {r : Except JsError IngestPageResult}
    (h : (Proc.lts f.env _).Runs Lts.Alone l
      (ingestPage (ingestInput (inject input) state candidates)) l' (.pure r)) :
    ∃ more raw staging, l' = l ++ more ∧ Attempts f l candidates more raw staging ∧
      r = .ok (tallyPage (List.ofFn fun i => .processed (raw i) (staging i))) := by
  obtain ⟨more, rfl, htold, hemits⟩ := Proc.emits_of_remembering h
  rw [ingestPage_eq] at hemits
  obtain ⟨settled, ls, l₁, l₂, rfl, htasks, hshuffled, hpure⟩ := Proc.emits_fan hemits
  obtain ⟨rfl, rfl⟩ := Proc.emits_pure.1 hpure
  rw [List.append_nil] at htold ⊢
  have hmem : ∀ x, x ∈ l₁ ↔ ∃ i, x ∈ ls i := by
    intro x
    rw [← Multiset.mem_coe, hshuffled, Multiset.mem_sum]
    exact ⟨fun ⟨i, _, hi⟩ => ⟨i, hi⟩, fun ⟨i, hi⟩ => ⟨i, Finset.mem_univ i, hi⟩⟩
  have hcalls := fun i => emits_injectedCandidate (f := f) (htasks i) fun x hx =>
    let ⟨before, _, hallowed⟩ := htold.mem ((hmem x).2 ⟨i, hx⟩)
    ⟨l ++ before, hallowed⟩
  choose raw staging runId hsettled hls using hcalls
  refine ⟨l₁, raw, staging, rfl, ⟨htold, fun x hx => ?_, fun i => ?_, fun i => ⟨runId i, ?_⟩⟩, ?_⟩
  · obtain ⟨i, hi⟩ := (hmem x).1 hx
    rw [hls i] at hi
    exact ⟨i, runId i, (List.mem_cons.1 hi).imp id List.mem_singleton.1⟩
  · rw [hmem]
    refine ⟨i, ?_⟩
    rw [hls i]
    exact List.mem_cons_self
  · rw [hmem]
    refine ⟨i, ?_⟩
    rw [hls i]
    exact List.mem_cons_of_mem _ List.mem_cons_self
  · exact pageOutcome_eq_ok.2 ⟨_, hsettled, rfl⟩

namespace Attempts

variable {raw : Fin candidates.length → StoreRawReplayResult}
  {staging : Fin candidates.length → IngestStagingResult}
  (h : Attempts f l candidates more raw staging)

include h

/-- A raw result is its candidate's. -/
theorem candidateOf (i : Fin candidates.length) : f.candidateOf (raw i) = candidates.get i := by
  obtain ⟨_, _, _, _, hr, _, _, hof⟩ := h.told.mem (h.store i)
  cases hr
  exact hof

theorem stored (candidate : ReplayCandidate) :
    candidate ∈ Fakes.stored more ↔ candidate ∈ candidates := by
  constructor
  · rintro ⟨x, hx, hstore⟩
    obtain ⟨i, runId, rfl | rfl⟩ := h.only x hx
    · cases hstore
      exact List.get_mem _ _
    · cases hstore
  · intro hmem
    obtain ⟨i, rfl⟩ := List.get_of_mem hmem
    exact ⟨_, h.store i, rfl⟩

theorem staged (candidate : ReplayCandidate) :
    candidate ∈ f.staged more ↔ candidate ∈ candidates := by
  constructor
  · rintro ⟨x, hx, rawResult, runId', hstage, rfl⟩
    obtain ⟨i, runId, rfl | rfl⟩ := h.only x hx
    · cases hstage
    · cases hstage
      rw [h.candidateOf i]
      exact List.get_mem _ _
  · intro hmem
    obtain ⟨i, rfl⟩ := List.get_of_mem hmem
    obtain ⟨runId, hstage⟩ := h.stage i
    exact ⟨_, hstage, raw i, runId, rfl, h.candidateOf i⟩

/-- The work after the page. -/
theorem work : f.work (l ++ more) = Fakes.workWith (f.work l) candidates := by
  unfold Fakes.workWith Fakes.work
  congr 1
  · ext candidate
    rw [Fakes.mem_stored_append, h.stored]
    rfl
  · ext candidate
    rw [Fakes.mem_staged_append, h.staged]
    rfl

theorem raw_status (i : Fin candidates.length) : ∃ again,
    (candidates.get i ∈ Fakes.stored l → again = true) ∧
      (raw i).status = (f.behaviour (candidates.get i)).rawStatus again := by
  obtain ⟨before, _, _, again, hr, hagain, hstatus, _⟩ := h.told.mem (h.store i)
  cases hr
  exact ⟨again, fun hmem => hagain.2 (Fakes.mem_stored_append.2 (Or.inl hmem)), hstatus⟩

theorem staging_status (i : Fin candidates.length) : ∃ again,
    (candidates.get i ∈ f.staged l → again = true) ∧
      (staging i).status = (f.behaviour (candidates.get i)).stagingStatus again := by
  obtain ⟨runId, hstage⟩ := h.stage i
  obtain ⟨before, _, _, again, hr, hagain, hstatus⟩ := h.told.mem hstage
  cases hr
  rw [h.candidateOf i] at hagain hstatus
  exact ⟨again, fun hmem => hagain.2 (Fakes.mem_staged_append.2 (Or.inl hmem)), hstatus⟩

/-- A candidate that was not stored before is stored by one of the tasks. -/
theorem first_stored {candidate : ReplayCandidate} (hmem : candidate ∈ candidates)
    (hnew : candidate ∉ Fakes.stored l) :
    ∃ j, (raw j).status = (f.behaviour candidate).rawStatus false := by
  obtain ⟨before, x, hx, hstore, hnone, hallowed⟩ := h.told.first ((h.stored candidate).2 hmem)
  obtain ⟨j, runId, rfl | rfl⟩ := h.only x hx
  · cases hstore
    obtain ⟨_, again, hr, hagain, hstatus, _⟩ := hallowed
    cases hr
    refine ⟨j, ?_⟩
    cases again with
    | false => exact hstatus
    | true =>
      rcases Fakes.mem_stored_append.1 (hagain.1 rfl) with hbefore | ⟨y, hy, hy'⟩
      · exact absurd hbefore hnew
      · exact absurd hy' (hnone y hy)
  · cases hstore

/-- And one that was not staged before is staged by one of them. -/
theorem first_staged {candidate : ReplayCandidate} (hmem : candidate ∈ candidates)
    (hnew : candidate ∉ f.staged l) :
    ∃ j, (staging j).status = (f.behaviour candidate).stagingStatus false := by
  obtain ⟨before, x, hx, hstage, hnone, hallowed⟩ := h.told.first ((h.staged candidate).2 hmem)
  obtain ⟨j, runId, rfl | rfl⟩ := h.only x hx
  · obtain ⟨_, _, heq, _⟩ := hstage
    cases heq
  · obtain ⟨rawResult, runId', heq, rfl⟩ := hstage
    cases heq
    obtain ⟨_, again, hr, hagain, hstatus⟩ := hallowed
    cases hr
    refine ⟨j, ?_⟩
    cases again with
    | false => exact hstatus
    | true =>
      rcases Fakes.mem_staged_append.1 (hagain.1 rfl) with hbefore | ⟨y, hy, hy'⟩
      · exact absurd hbefore hnew
      · exact absurd hy' (hnone y hy)

end Attempts

/-- None of the candidates fails, and each was attempted before. -/
def Fakes.AllDone (f : Fakes) (work : Set ReplayCandidate × Set ReplayCandidate)
    (candidates : List ReplayCandidate) : Prop :=
  ∀ candidate ∈ candidates,
    f.behaviour candidate = .succeeds ∧ candidate ∈ work.1 ∧ candidate ∈ work.2

/-- **When a page is all duplicate.** -/
theorem Attempts.isAllDuplicate_iff {raw : Fin candidates.length → StoreRawReplayResult}
    {staging : Fin candidates.length → IngestStagingResult}
    (h : Attempts f l candidates more raw staging) :
    isAllDuplicate (tallyPage (List.ofFn fun i => .processed (raw i) (staging i))).counts = true ↔
      f.AllDone (f.work l) candidates := by
  rw [isAllDuplicate_tallyPage]
  have hunmoved : (∀ s ∈ List.ofFn (fun i => SettledCandidate.processed (raw i) (staging i)),
      ¬ s.Moves) ↔ ∀ i, (raw i).status ≠ .stored ∧ (raw i).status ≠ .failed ∧
        (staging i).status ≠ .staged ∧ (staging i).status ≠ .failed := by
    rw [List.forall_mem_ofFn_iff]
    refine forall_congr' fun i => ?_
    unfold SettledCandidate.Moves
    simp only [not_or, ne_eq]
  rw [hunmoved]
  constructor
  · intro hquiet candidate hmem
    obtain ⟨i, rfl⟩ := List.get_of_mem hmem
    obtain ⟨_, hnotFailed, _, hnotStagingFailed⟩ := hquiet i
    have hsucceeds : f.behaviour (candidates.get i) = .succeeds := by
      obtain ⟨again, _, hraw⟩ := h.raw_status i
      obtain ⟨again', _, hstaging⟩ := h.staging_status i
      cases hbehaviour : f.behaviour (candidates.get i) with
      | storeFails =>
        rw [hbehaviour] at hraw
        exact absurd hraw hnotFailed
      | stageFails =>
        rw [hbehaviour] at hstaging
        exact absurd hstaging hnotStagingFailed
      | succeeds => rfl
    refine ⟨hsucceeds, ?_, ?_⟩
    · by_contra hnew
      obtain ⟨j, hj⟩ := h.first_stored hmem hnew
      rw [hsucceeds] at hj
      exact (hquiet j).1 hj
    · by_contra hnew
      obtain ⟨j, hj⟩ := h.first_staged hmem hnew
      rw [hsucceeds] at hj
      exact (hquiet j).2.2.1 hj
  · intro hdone i
    obtain ⟨hsucceeds, hstored, hstaged⟩ := hdone _ (List.get_mem candidates i)
    obtain ⟨again, hagain, hraw⟩ := h.raw_status i
    obtain ⟨again', hagain', hstaging⟩ := h.staging_status i
    rw [hsucceeds, hagain hstored] at hraw
    rw [hsucceeds, hagain' hstaged] at hstaging
    rw [hraw, hstaging]
    decide

/-! ### What a page comes to -/

/-- The task of a candidate of the source settles. -/
theorem settles_injectedCandidate {candidate : ReplayCandidate}
    (hlisted : ∃ url, candidate ∈ f.candidates url) : Proc.Settles f.env
      (ingestCandidate (ingestInput (inject input) state candidates) candidate) := by
  classical
  rw [ingestCandidate_ungated _ rfl]
  obtain ⟨url, hurl⟩ := hlisted
  unfold processCandidate
  rw [Async.bind_eq]
  refine Proc.settles_call (e := Injected.storeRawReplay candidate) (fun l => ?_) ?_
  · obtain ⟨rawResult, hstatus, hof⟩ := f.results url candidate hurl
      ((f.behaviour candidate).rawStatus (decide (candidate ∈ Fakes.stored l)))
    exact ⟨.ok rawResult, _, rfl, rawResult, _, rfl, decide_eq_true_iff, hstatus, hof⟩
  · rintro l r _ ⟨_, rawResult, _, rfl, _⟩
    refine Proc.settles_call (e := Injected.stageRawReplay rawResult _) (fun l => ?_) ?_
    · let again : Bool := decide (f.candidateOf rawResult ∈ f.staged l)
      let result : IngestStagingResult :=
        { status := (f.behaviour (f.candidateOf rawResult)).stagingStatus again }
      exact ⟨.ok result, _, rfl, result, again, rfl, decide_eq_true_iff, rfl⟩
    · rintro l r _ ⟨_, result, _, rfl, _⟩
      exact .pure _

/-- **The fan-out of a page of the source ends**, and what it has done is known. -/
theorem ends_injectedPage (hlimit : 0 < state.limit)
    (hlisted : ∀ candidate ∈ candidates, ∃ url, candidate ∈ f.candidates url) :
    Proc.Ends f.env (Async.Outcome
      (fun result l' => f.work l' = Fakes.workWith (f.work l) candidates ∧
        (isAllDuplicate result.counts = true ↔ f.AllDone (f.work l) candidates))
      fun _ _ => False) l (ingestPage (ingestInput (inject input) state candidates)) := by
  have hends : Proc.Ends f.env (fun _ _ => True) l
      (ingestPage (ingestInput (inject input) state candidates)) := by
    rw [ingestPage_eq]
    refine (Proc.settles_fan hlimit (fun i => ?_) fun vs => .pure _).ends l
    exact settles_injectedCandidate (hlisted _ (List.get_mem candidates i))
  refine @Lts.Safe.ends _ _ _ _ _ _ _ (fun _ _ => True)
    (fun l' p hruns => ⟨fun _ _ _ => trivial, fun r hr => ?_⟩) hends
  obtain rfl := Proc.result_eq_some.1 hr
  obtain ⟨more, raw, staging, rfl, hattempts, rfl⟩ := attempts_ingestPage hruns
  exact ⟨hattempts.work, hattempts.isAllDuplicate_iff⟩

end Page

/-! ## One round -/

section Round

variable {f : Fakes} {input : RunOnceInput Injected InjectedReply} {l : InjectedConversation}

/-- A store call, or a stage call. -/
def IsAttempt : Injected → Prop
  | .stageRawReplay _ _ | .storeRawReplay _ => True
  | _ => False

/-- Any other call leaves the work as it is. -/
theorem ends_ask {e : Injected} (hother : ¬ IsAttempt e) (hlive : ∃ r, f.Allowed l ⟨e, r⟩) :
    Proc.Ends f.env (fun r l' => f.work l' = f.work l ∧ f.Allowed l ⟨e, r⟩) l (ask e) := by
  obtain ⟨r, hr⟩ := hlive
  refine Proc.ends_perform ⟨r, _, rfl, hr⟩ ?_
  rintro r' _ ⟨rfl, hr'⟩
  refine ⟨Fakes.work_append_of_other ?_ ?_, hr'⟩
  · intro candidate (heq : e = .storeRawReplay candidate)
    rw [heq] at hother
    exact hother trivial
  · rintro candidate ⟨rawResult, runId, heq, _⟩
    rw [show e = .stageRawReplay rawResult runId from heq] at hother
    exact hother trivial

theorem ends_injectedNow : Proc.Ends f.env (fun _ l' => f.work l' = f.work l) l (inject input).now :=
  (ends_ask (e := .now) id ⟨(0 : ℤ), trivial⟩).imp fun _ _ h => h.1

theorem ends_injectedLog (line : LogLine) :
    Proc.Ends f.env (fun _ l' => f.work l' = f.work l) l (logLine (inject input) line) := by
  unfold logLine inject
  cases input.log with
  | none => exact Proc.ends_pure rfl
  | some log => exact (ends_ask (e := .log line) id ⟨(), trivial⟩).imp fun _ _ h => h.1

/-- A page checkpoint is no attempt either, whether its write succeeds or not. -/
theorem ends_injectedCheckpoint (page : WritePageCheckpointInput) :
    Proc.Ends f.env (Async.Outcome (fun _ l' => f.work l' = f.work l) fun _ _ => False) l
      (writePageCheckpoint (inject input) page) := by
  unfold writePageCheckpoint
  refine Async.ends_lift_bind (fun _ l' => f.work l' = f.work l)
    (Proc.ends_bind ends_injectedNow fun now l' hl' => Proc.ends_pure hl') fun checkpoint l' hl' => ?_
  refine Async.ends_tryCatch (fun _ l' => f.work l' = f.work l) ?_ fun error l' hl' => ?_
  · refine (ends_ask (e := .writeCheckpoint _) id ⟨.ok none, trivial⟩).imp ?_
    rintro (error | etag) l'' ⟨h, _⟩
    · exact h.trans hl'
    · exact h.trans hl'
  · refine Async.ends_lift_bind (fun _ l' => f.work l' = f.work l)
      ((ends_injectedLog _).imp fun _ _ h => h.trans hl') fun _ l' hl' => ?_
    exact Proc.ends_pure hl'

/-- The candidates of a list page. -/
def Fakes.page (f : Fakes) {Text : Type} (pf : Platform Text) (sourceUrl : Url) (page : ℕ) :
    List ReplayCandidate :=
  f.candidates (pf.toPageUrl sourceUrl page)

variable {Text : Type} {pf : Platform Text} {context : AssembleContext}

/-- A page of candidates is fanned out and checkpointed. -/
theorem ends_injectedOkPage (hconcurrency : 0 < input.concurrency) {state : LoopState}
    (hstate : Unthrottled (inject input) state) (page : ℕ) {candidates : List ReplayCandidate}
    (hlisted : ∀ candidate ∈ candidates, ∃ url, candidate ∈ f.candidates url) :
    Proc.Ends f.env (Async.Outcome
      (fun x l' => Unthrottled (inject input) x.1 ∧ f.work l' = Fakes.workWith (f.work l) candidates ∧
        (isAllDuplicate x.2 = true ↔ f.AllDone (f.work l) candidates))
      fun _ _ => False) l (completeOkPage (inject input) context page candidates state) := by
  unfold completeOkPage
  refine Async.ends_lift_bind _ ends_injectedNow fun throttledAt l₁ hl₁ => ?_
  obtain ⟨hlimit, hstreak⟩ := onCleanWindow_unthrottled hstate throttledAt
  refine Async.ends_bind_resolved (ends_injectedPage (hlimit.symm ▸ hconcurrency) hlisted)
    fun result l₂ hl₂ => ?_
  rw [hl₁] at hl₂
  obtain ⟨hwork, hduplicate⟩ := hl₂
  refine Async.ends_lift_bind _ ends_injectedNow fun completedAt l₃ hl₃ => ?_
  refine Async.ends_lift_bind _ (ends_injectedLog _) fun _ l₄ hl₄ => ?_
  refine Async.ends_bind_resolved (ends_injectedCheckpoint _) fun etag l₅ hl₅ => ?_
  refine Proc.ends_pure ⟨⟨hlimit, hlimit, hstreak⟩, ?_, hduplicate⟩
  rw [hl₅, hl₄, hl₃, hwork]

/-- What a round comes to: on to the next page, or out of the loop. -/
def Fakes.Turned (f : Fakes) (input : RunOnceInput Injected InjectedReply)
    (l : InjectedConversation) (candidates : List ReplayCandidate) (page : ℕ) :
    (LoopState × ℕ) ⊕ LoopState → InjectedConversation → Prop
  | .inl cursor, l' => ¬ f.AllDone (f.work l) candidates ∧ cursor.2 = page + 1 ∧
      Unthrottled (inject input) cursor.1 ∧ f.work l' = Fakes.workWith (f.work l) candidates
  | .inr _, _ => f.AllDone (f.work l) candidates

/-- **A round ends, and which way it goes is settled beforehand**: out of the loop exactly when
    everything on its page was done. -/
theorem ends_pageIteration (hconcurrency : 0 < input.concurrency) {cursor : LoopState × ℕ}
    (hstate : Unthrottled (inject input) cursor.1)
    (hnonempty : f.page pf input.sourceUrl cursor.2 ≠ []) :
    Proc.Ends f.env (Async.Outcome
      (f.Turned input l (f.page pf input.sourceUrl cursor.2) cursor.2) fun _ _ => False) l
      (pageIteration pf (inject input) context cursor) := by
  unfold pageIteration
  rw [if_neg (by exact Bool.false_ne_true)]
  refine Async.ends_lift_bind (fun _ l' => f.work l' = f.work l)
    ((ends_ask (e := .awaitFloor) id ⟨(), trivial⟩).imp fun _ _ h => h.1) fun _ l₁ hl₁ => ?_
  refine Async.ends_bind (fun report l' => f.work l' = f.work l ∧ report.ok = true ∧
    report.candidates = f.page pf input.sourceUrl cursor.2) ?_ fun report l₂ hl₂ => ?_
  · refine (ends_ask (e := .discoverReplays (discoverInput pf (inject input) cursor.2)) id ?_).imp ?_
    · exact ⟨.ok { emptyDiscoveryReport "" with candidates := f.page pf input.sourceUrl cursor.2 },
        _, rfl, rfl, rfl⟩
    · rintro r l' ⟨hwork, report, rfl, hok, hcandidates⟩
      exact ⟨hwork.trans hl₁, hok, hcandidates⟩
  · obtain ⟨hwork, hok, hcandidates⟩ := hl₂
    rw [if_neg (by rw [hok]; exact Bool.noConfusion), if_neg (by rw [hcandidates]; exact hnonempty),
      hcandidates]
    have hdiscovered : Unthrottled (inject input) (discoveredState cursor.1 report) :=
      ⟨hstate.limit, hstate.concurrency, hstate.streak⟩
    refine Async.ends_bind_resolved (ends_injectedOkPage (f := f) hconcurrency hdiscovered cursor.2
      fun c hc => ⟨_, hc⟩) fun x l₃ hl₃ => ?_
    rw [hwork] at hl₃
    obtain ⟨hstate', hafter, hduplicate⟩ := hl₃
    obtain ⟨state', counts⟩ := x
    dsimp only at hstate' hduplicate ⊢
    split
    · rename_i hdup
      exact Proc.ends_pure (hduplicate.1 hdup)
    · rename_i hdup
      exact Proc.ends_pure ⟨fun hdone => hdup (hduplicate.2 hdone), rfl, hstate', hafter⟩

end Round

/-! ## The loop -/

section Loop

variable {f : Fakes} {input : RunOnceInput Injected InjectedReply} {l₀ : InjectedConversation}
  {Text : Type} {pf : Platform Text} {context : AssembleContext} {start : ℕ}

/-- The candidates of the pages from `start` on, up to `page`. -/
def Fakes.listed (f : Fakes) (pf : Platform Text) (sourceUrl : Url) (start page : ℕ) :
    Set ReplayCandidate :=
  {candidate | ∃ earlier, start ≤ earlier ∧ earlier < page ∧ candidate ∈ f.page pf sourceUrl earlier}

/-- The work done when a loop that was begun after `l₀` comes to `page`. -/
def Fakes.workAt (f : Fakes) (pf : Platform Text) (sourceUrl : Url) (l₀ : InjectedConversation)
    (start page : ℕ) : Set ReplayCandidate × Set ReplayCandidate :=
  ((f.work l₀).1 ∪ f.listed pf sourceUrl start page, (f.work l₀).2 ∪ f.listed pf sourceUrl start page)

/-- No candidate of the page fails, and each was attempted before the loop came to it. -/
def Fakes.Spent (f : Fakes) (pf : Platform Text) (sourceUrl : Url) (l₀ : InjectedConversation)
    (start page : ℕ) : Prop :=
  f.AllDone (f.workAt pf sourceUrl l₀ start page) (f.page pf sourceUrl page)

theorem workAt_start (sourceUrl : Url) : f.workAt pf sourceUrl l₀ start start = f.work l₀ := by
  have hempty : f.listed pf sourceUrl start start = ∅ := by
    ext candidate
    refine iff_of_false ?_ id
    rintro ⟨earlier, hle, hlt, _⟩
    omega
  unfold Fakes.workAt
  rw [hempty, Set.union_empty, Set.union_empty]

theorem workAt_succ {sourceUrl : Url} {page : ℕ} (hpage : start ≤ page) :
    f.workAt pf sourceUrl l₀ start (page + 1) =
      Fakes.workWith (f.workAt pf sourceUrl l₀ start page) (f.page pf sourceUrl page) := by
  have hlisted : f.listed pf sourceUrl start (page + 1) =
      f.listed pf sourceUrl start page ∪ {c | c ∈ f.page pf sourceUrl page} := by
    ext candidate
    constructor
    · rintro ⟨earlier, hle, hlt, hmem⟩
      rcases Nat.lt_succ_iff_lt_or_eq.1 hlt with hlt | rfl
      · exact Or.inl ⟨earlier, hle, hlt, hmem⟩
      · exact Or.inr hmem
    · rintro (⟨earlier, hle, hlt, hmem⟩ | hmem)
      · exact ⟨earlier, hle, by omega, hmem⟩
      · exact ⟨page, hpage, by omega, hmem⟩
  unfold Fakes.workAt Fakes.workWith
  rw [hlisted, Set.union_assoc, Set.union_assoc]

/-- What is known whenever the loop is at a page. -/
structure AtPage (f : Fakes) (input : RunOnceInput Injected InjectedReply) (pf : Platform Text)
    (l₀ : InjectedConversation) (start : ℕ) (cursor : LoopState × ℕ) (l : InjectedConversation) :
    Prop where
  page : start ≤ cursor.2
  unthrottled : Unthrottled (inject input) cursor.1
  work : f.work l = f.workAt pf input.sourceUrl l₀ start cursor.2

theorem AtPage.next {cursor cursor' : LoopState × ℕ} {l l' : InjectedConversation}
    (h : AtPage f input pf l₀ start cursor l)
    (hturned : f.Turned input l (f.page pf input.sourceUrl cursor.2) cursor.2 (.inl cursor') l') :
    AtPage f input pf l₀ start cursor' l' ∧ cursor'.2 = cursor.2 + 1 ∧
      ¬ f.Spent pf input.sourceUrl l₀ start cursor.2 := by
  obtain ⟨hnot, hpage, hstate, hwork⟩ := hturned
  refine ⟨⟨?_, hstate, ?_⟩, hpage, ?_⟩
  · rw [hpage]
    exact Nat.le_succ_of_le h.page
  · rw [hwork, h.work, hpage, workAt_succ h.page]
  · unfold Fakes.Spent
    rw [← h.work]
    exact hnot

/-- **When the loop ends.** -/
theorem ends_pageLoop_iff (hconcurrency : 0 < input.concurrency)
    (hnonempty : ∀ page, start ≤ page → f.page pf input.sourceUrl page ≠ []) {state : LoopState}
    (hstate : Unthrottled (inject input) state) :
    Proc.Ends f.env (fun _ _ => True) l₀
        (Async.iterate (pageIteration pf (inject input) context) (state, start)) ↔
      ∃ page, start ≤ page ∧ f.Spent pf input.sourceUrl l₀ start page := by
  have hstart : AtPage f input pf l₀ start (state, start) l₀ :=
    ⟨le_rfl, hstate, (workAt_start _).symm⟩
  constructor
  · -- while no page is spent, every round goes on
    intro hends
    by_contra hnone
    have hsafe : Proc.Safe f.env Lts.Alone (fun _ _ => True) (fun _ _ => False) l₀
        (Async.iterate (pageIteration pf (inject input) context) (state, start)) := by
      refine Async.safe_iterate (AtPage f input pf l₀ start) (fun _ => trivial)
        (fun _ _ _ h hr => hr ▸ h) (fun _ _ _ h _ => h) (fun cursor l h => ?_) hstart
      refine (ends_pageIteration hconcurrency h.unthrottled (hnonempty _ h.page)).safe.imp ?_
      rintro (error | cursor' | state') l' hturned
      · exact hturned
      · exact (h.next hturned).1
      · refine hnone ⟨cursor.2, h.page, ?_⟩
        unfold Fakes.Spent
        rw [← h.work]
        exact hturned
    obtain ⟨_, _, _, hruns, hresult, _⟩ := hends.exists_run
    rw [Proc.result_eq_some.1 hresult] at hruns
    exact hsafe.of_run hruns
  · -- the pages before the spent one are left to be taken
    rintro ⟨last, hlast, hspent⟩
    refine Async.ends_iterate (fun cursor l => AtPage f input pf l₀ start cursor l ∧ cursor.2 ≤ last)
      (fun cursor => last - cursor.2) (fun cursor l ⟨h, hle⟩ => ?_) ⟨hstart, hlast⟩
    refine (ends_pageIteration hconcurrency h.unthrottled (hnonempty _ h.page)).imp ?_
    rintro (error | cursor' | state') l' hturned
    · exact trivial
    · obtain ⟨hnext, hpage, hnot⟩ := h.next hturned
      have hne : cursor.2 ≠ last := by
        rintro rfl
        exact hnot hspent
      exact ⟨⟨hnext, by omega⟩, by omega⟩
    · exact trivial

/-- `last` pages, none of them empty, and from then on the last one again. -/
structure Fakes.Clamped (f : Fakes) (pf : Platform Text) (sourceUrl : Url) (last : ℕ) : Prop where
  first : FIRST_PAGE ≤ last
  nonempty : ∀ page, FIRST_PAGE ≤ page → page ≤ last → f.page pf sourceUrl page ≠ []
  repeats : ∀ page, last ≤ page → f.page pf sourceUrl page = f.page pf sourceUrl last

theorem Fakes.Clamped.nonempty_from {sourceUrl : Url} {last : ℕ}
    (h : f.Clamped pf sourceUrl last) {page : ℕ} (hpage : FIRST_PAGE ≤ page) :
    f.page pf sourceUrl page ≠ [] := by
  by_cases hle : page ≤ last
  · exact h.nonempty page hpage hle
  · rw [h.repeats page (by omega)]
    exact h.nonempty last h.first le_rfl

/-- A spent page is one before the last, or the last one has no candidate that fails. -/
theorem Fakes.Clamped.spent_iff {sourceUrl : Url} {last : ℕ} (h : f.Clamped pf sourceUrl last) :
    (∃ page, start ≤ page ∧ f.Spent pf sourceUrl l₀ start page) ↔
      (∀ candidate ∈ f.page pf sourceUrl last, f.behaviour candidate = .succeeds) ∨
        ∃ page, start ≤ page ∧ page < last ∧ f.Spent pf sourceUrl l₀ start page := by
  constructor
  · rintro ⟨page, hpage, hspent⟩
    by_cases hlt : page < last
    · exact Or.inr ⟨page, hpage, hlt, hspent⟩
    · refine Or.inl fun candidate hmem => (hspent candidate ?_).1
      rw [h.repeats page (by omega)]
      exact hmem
  · rintro (hsucceeds | ⟨page, hpage, _, hspent⟩)
    · -- the second time round, everything on it was attempted before
      refine ⟨max start last + 1, by omega, fun candidate hmem => ?_⟩
      rw [h.repeats _ (by omega)] at hmem
      have hlisted : candidate ∈ f.listed pf sourceUrl start (max start last + 1) := by
        refine ⟨max start last, by omega, by omega, ?_⟩
        rw [h.repeats _ (by omega)]
        exact hmem
      exact ⟨hsucceeds candidate hmem, Or.inr hlisted, Or.inr hlisted⟩
    · exact ⟨page, hpage, hspent⟩

/-- **The page loop over a clamped source** ends exactly when no candidate of the repeated page
    fails, or when it meets a spent page before. -/
theorem clamped_loop_ends_iff (hconcurrency : 0 < input.concurrency) {last : ℕ}
    (hclamped : f.Clamped pf input.sourceUrl last) (l₀ : InjectedConversation)
    (context : AssembleContext) (resumeState : ResumeState) :
    Proc.Ends f.env (fun _ _ => True) l₀ (runPageLoop pf (inject input) context
        (loopStateOf (inject input) context.slug resumeState)) ↔
      (∀ candidate ∈ f.page pf input.sourceUrl last, f.behaviour candidate = .succeeds) ∨
        ∃ page, resumeState.startPage - FIRST_PAGE + FIRST_PAGE ≤ page ∧ page < last ∧
          f.Spent pf input.sourceUrl l₀ (resumeState.startPage - FIRST_PAGE + FIRST_PAGE) page := by
  rw [← hclamped.spent_iff]
  exact ends_pageLoop_iff hconcurrency
    (fun page hpage => hclamped.nonempty_from ((Nat.le_add_left _ _).trans hpage))
    (unthrottled_loopStateOf context.slug resumeState)

end Loop

/-! ### One page for ever -/

/-- A source with one candidate, on every page. -/
def repeating (behaviour : Behaviour) : Fakes where
  candidates _ := [toyCandidate]
  behaviour _ := behaviour
  candidateOf _ := toyCandidate
  results _ _ hmem status :=
    ⟨.stored { bucket := "", checksum := "", objectKey := "", byteSize := 0, fetchedAt := "",
               source := toyCandidate.source, sourceFilename := "", status := status },
      rfl, (List.mem_singleton.1 hmem).symm⟩

def repeatingInput : RunOnceInput Injected InjectedReply where
  awaitFloor := ask .awaitFloor
  checkpointStore := ⟨fun slug => ask (.readCheckpoint slug), fun write => ask (.writeCheckpoint write)⟩
  concurrency := 1
  discoverReplays discover := ask (.discoverReplays discover)
  now := ask .now
  requestSpacingMs := 0
  runId := "run"
  sourceUrl := toyConfig.sourceUrl
  stageRawReplay rawResult runId := ask (.stageRawReplay rawResult runId)
  storeRawReplay candidate := ask (.storeRawReplay candidate)

theorem clamped_repeating (behaviour : Behaviour) :
    (repeating behaviour).Clamped toyPlatform toyConfig.sourceUrl 1 where
  first := le_rfl
  nonempty _ _ _ := List.cons_ne_nil _ _
  repeats _ _ := rfl

/-- A candidate that succeeds: the second round ends the loop. -/
theorem clamped_loop_ends_repeating : Proc.Ends (repeating .succeeds).env (fun _ _ => True) []
    (runPageLoop toyPlatform (inject repeatingInput) toyContext
      (loopStateOf (inject repeatingInput) toyContext.slug {})) :=
  (clamped_loop_ends_iff Nat.one_pos (clamped_repeating .succeeds) [] toyContext {}).2
    (Or.inl fun _ _ => rfl)

/-- **One that always fails keeps the loop going for ever.** -/
theorem clamped_loop_endless : (repeating .storeFails).Clamped toyPlatform toyConfig.sourceUrl 1 ∧
    ¬ Proc.Ends (repeating .storeFails).env (fun _ _ => True) []
      (runPageLoop toyPlatform (inject repeatingInput) toyContext
        (loopStateOf (inject repeatingInput) toyContext.slug {})) := by
  refine ⟨clamped_repeating .storeFails, fun hends => ?_⟩
  have hpages : ∀ page, 1 ≤ page →
      (repeating .storeFails).page toyPlatform repeatingInput.sourceUrl page ≠ [] :=
    fun _ _ => List.cons_ne_nil _ _
  have hspent := (ends_pageLoop_iff Nat.one_pos hpages
    (unthrottled_loopStateOf toyContext.slug {})).1 hends
  obtain ⟨page, _, hdone⟩ := hspent
  have hsucceeds := (hdone toyCandidate (List.mem_singleton.2 rfl)).1
  cases hsucceeds

end ReplaysFetcher
