/-
  The store-then-stage fan-out over one page (`src/run/ingest-page.ts`).

  Every candidate is one task of a fan under the shared limiter: the optional pre-fetch gate, then
  store, then stage.  The results are gathered in candidate order whatever order they arrive in, a
  rejection is rethrown, and the outcomes are tallied.

  The module is generic in the requests: `storeRawReplay`, `stageRawReplay` and the existence check
  are injected, here as in the source.
-/
import ReplaysFetcher.Staging

namespace ReplaysFetcher

open Effectful

/-- What a page's tally counts. -/
structure IngestPageCounts where
  discovered : ℕ
  failed : ℕ
  skippedBySourceId : ℕ
  staged : ℕ
  stored : ℕ
  deriving DecidableEq, Repr

/-- What a page resolves with; skipped candidates leave no result. -/
structure IngestPageResult where
  counts : IngestPageCounts
  rawStorage : List StoreRawReplayResult
  staging : List IngestStagingResult
  deriving DecidableEq, Repr

/-- What a page is called with: its candidates, and the two functions that ingest one. -/
structure IngestPageInput (E : Type) (R : E → Type) where
  candidates : List ReplayCandidate
  existsBySourceIdentity : Option (String → String → Async E R JsError Bool) := none
  /-- the concurrency of the injected limiter -/
  limit : ℕ
  prefetchDedup : Option Bool := none
  runId : String
  sourceSystem : Option String := none
  stageRawReplay : StoreRawReplayResult → Option String → Async E R JsError IngestStagingResult
  storeRawReplay : ReplayCandidate → Async E R JsError StoreRawReplayResult

/-- What became of one candidate. -/
inductive SettledCandidate
  | processed (rawResult : StoreRawReplayResult) (stagingResult : IngestStagingResult)
  | skipped
  deriving DecidableEq, Repr

/-- The white space and line terminators that `String.prototype.trim` removes. -/
def isJsWhitespace (c : Char) : Bool :=
  c.toNat ∈ [0x9, 0xA, 0xB, 0xC, 0xD, 0x20, 0xA0, 0x1680, 0x2028, 0x2029, 0x202F, 0x205F, 0x3000,
    0xFEFF] || (0x2000 ≤ c.toNat && c.toNat ≤ 0x200A)

/-- `id !== undefined && id.trim().length > 0` -/
def isTrustworthyId (id : Option String) : Bool :=
  match id with
  | none => false
  | some text => text.toList.any fun c => !isJsWhitespace c

/-- A page starts with its candidates counted, and nothing else. -/
def newPageCounts (discovered : ℕ) : IngestPageCounts where
  discovered := discovered
  failed := 0
  skippedBySourceId := 0
  staged := 0
  stored := 0

/-- A stored or a failed replay is counted; the other statuses are not. -/
def tallyRawResult (counts : IngestPageCounts) (result : StoreRawReplayResult) : IngestPageCounts :=
  match result.status with
  | .stored => { counts with stored := counts.stored + 1 }
  | .failed => { counts with failed := counts.failed + 1 }
  | _ => counts

/-- A staged or a failed row is counted; the other statuses are not. -/
def tallyStagingResult (counts : IngestPageCounts) (result : IngestStagingResult) :
    IngestPageCounts :=
  match result.status with
  | .staged => { counts with staged := counts.staged + 1 }
  | .failed => { counts with failed := counts.failed + 1 }
  | _ => counts

/-- One turn of the tallying loop. -/
def tallyCandidate (acc : IngestPageResult) : SettledCandidate → IngestPageResult
  | .skipped =>
    { acc with counts :=
        { acc.counts with skippedBySourceId := acc.counts.skippedBySourceId + 1 } }
  | .processed rawResult stagingResult =>
    { counts := tallyStagingResult (tallyRawResult acc.counts rawResult) stagingResult
      rawStorage := acc.rawStorage ++ [rawResult]
      staging := acc.staging ++ [stagingResult] }

/-- The counts and the results, in candidate order. -/
def tallyPage (settled : List SettledCandidate) : IngestPageResult :=
  settled.foldl tallyCandidate
    { counts := newPageCounts settled.length, rawStorage := [], staging := [] }

/-- `rethrowProgrammerError`, then `fulfilledInOrder`: the first rejection in candidate order, or all
    the values. -/
def fulfilledInOrder : List (Except JsError SettledCandidate) →
    Except JsError (List SettledCandidate)
  | [] => .ok []
  | .error error :: _ => .error error
  | .ok value :: rest => (fulfilledInOrder rest).map (value :: ·)

section Ingest

variable {E : Type} {R : E → Type} (input : IngestPageInput E R)

/-- Store, then stage. -/
def processCandidate (candidate : ReplayCandidate) : Async E R JsError SettledCandidate := do
  let rawResult ← input.storeRawReplay candidate
  let stagingResult ← input.stageRawReplay rawResult (some input.runId)
  pure (.processed rawResult stagingResult)

/-- The pre-fetch gate, when the caller opted in and the id can be trusted. -/
def prefetchGate (candidate : ReplayCandidate) : Option (Async E R JsError Bool) :=
  match input.prefetchDedup, input.existsBySourceIdentity, candidate.source.externalId with
  | some true, some existsBySourceIdentity, some externalId =>
    if isTrustworthyId (some externalId) then
      some (existsBySourceIdentity (input.sourceSystem.getD defaultSourceSystem) externalId)
    else none
  | _, _, _ => none

/-- One task of the limiter: the gate, if there is one, then the candidate. -/
def ingestCandidate (candidate : ReplayCandidate) : Async E R JsError SettledCandidate :=
  match prefetchGate input candidate with
  | none => processCandidate input candidate
  | some gate => do
    let exists' ← gate
    if exists' then pure .skipped else processCandidate input candidate

/-- Without an existence check there is no gate. -/
theorem ingestCandidate_ungated (h : input.existsBySourceIdentity = none)
    (candidate : ReplayCandidate) :
    ingestCandidate input candidate = processCandidate input candidate := by
  have hgate : prefetchGate input candidate = none := by
    unfold prefetchGate
    rw [h]
    split
    · rename_i heq _
      cases heq
    · rfl
  unfold ingestCandidate
  rw [hgate]

/-- All candidates at once, as many in flight as the limiter lets; then the tally. -/
def ingestPage : Async E R JsError IngestPageResult := do
  let settled ← (Proc.gather input.limit fun i : Fin input.candidates.length =>
    ingestCandidate input (input.candidates.get i) :
      Proc E R (Fin input.candidates.length → Except JsError SettledCandidate))
  match fulfilledInOrder (List.ofFn settled) with
  | .error error => throw error
  | .ok values => pure (tallyPage values)

/-- What a page resolves or rejects with, once its tasks are in. -/
def pageOutcome {n : ℕ} (settled : Fin n → Except JsError SettledCandidate) :
    Except JsError IngestPageResult :=
  (fulfilledInOrder (List.ofFn settled)).map tallyPage

/-- A page is one fan. -/
theorem ingestPage_eq : (ingestPage input : Proc E R (Except JsError IngestPageResult)) =
    .fan input.limit (fun i : Fin input.candidates.length =>
      ingestCandidate input (input.candidates.get i)) fun settled => .pure (pageOutcome settled) := by
  unfold ingestPage
  rw [Async.lift_bind_eq, Proc.gather_bind']
  congr 1
  funext settled
  unfold pageOutcome
  cases fulfilledInOrder (List.ofFn settled) <;> rfl

variable {input}

/-- A page asks what its functions ask. -/
theorem asks_ingestPage_of {P : E → Prop}
    (hstore : ∀ candidate, Proc.Asks P (input.storeRawReplay candidate))
    (hstage : ∀ rawResult runId, Proc.Asks P (input.stageRawReplay rawResult runId))
    (hgate : ∀ gate, input.existsBySourceIdentity = some gate →
      ∀ sourceSystem id, Proc.Asks P (gate sourceSystem id)) :
    Proc.Asks P (ingestPage input : Proc E R (Except JsError IngestPageResult)) := by
  have hprocess : ∀ candidate, Proc.Asks P (processCandidate input candidate :
      Proc E R (Except JsError SettledCandidate)) := by
    intro candidate
    unfold processCandidate
    refine Async.asks_bind (hstore candidate) fun rawResult => ?_
    exact Async.asks_bind (hstage rawResult _) fun _ => trivial
  rw [ingestPage_eq]
  refine ⟨fun i => ?_, fun _ => trivial⟩
  show Proc.Asks P (ingestCandidate input (input.candidates.get i))
  unfold ingestCandidate
  split
  · exact hprocess _
  · rename_i gate hsome
    refine Async.asks_bind ?_ fun exists' => ?_
    · -- the gate is the existence check, asked for a trusted id
      unfold prefetchGate at hsome
      split at hsome
      · rename_i exists' _ _ hexists _
        split at hsome
        · cases hsome
          exact hgate _ hexists _ _
        · cases hsome
      · cases hsome
    · split
      · trivial
      · exact hprocess _

end Ingest

/-! ## What the tally says -/

/-- Did the candidate's raw result, or its staging result, have this status? -/
def SettledCandidate.rawStatusIs (status : RawReplayStorageStatus) : SettledCandidate → Bool
  | .processed rawResult _ => rawResult.status = status
  | .skipped => false

/-- A skipped candidate has neither. -/
def SettledCandidate.stagingStatusIs (status : StagingOutcomeStatus) : SettledCandidate → Bool
  | .processed _ stagingResult => stagingResult.status = status
  | .skipped => false

/-- The values come out if all tasks have resolved. -/
theorem fulfilledInOrder_eq_ok {settled : List (Except JsError SettledCandidate)}
    {values : List SettledCandidate} :
    fulfilledInOrder settled = .ok values ↔ settled = values.map .ok := by
  induction settled generalizing values with
  | nil => cases values <;> simp [fulfilledInOrder]
  | cons first rest ih =>
    cases first with
    | error error => cases values <;> simp [fulfilledInOrder]
    | ok value =>
      cases hrest : fulfilledInOrder rest with
      | error error =>
        have hne : ∀ vs : List SettledCandidate, rest ≠ vs.map Except.ok := fun vs h => by
          rw [ih.2 h] at hrest
          cases hrest
        cases values <;> simp [fulfilledInOrder, hrest, Except.map, hne]
      | ok vs =>
        have hvs : rest = vs.map Except.ok := ih.1 hrest
        have hok : fulfilledInOrder (.ok value :: rest) = .ok (value :: vs) := by
          rw [fulfilledInOrder, hrest]
          rfl
        rw [hok]
        constructor
        · intro h
          cases h
          rw [hvs, List.map_cons]
        · intro h
          rw [hvs, ← List.map_cons] at h
          exact congrArg _ (List.map_injective_iff.2 (fun _ _ h => Except.ok.inj h) h)

/-- A page resolves when all its tasks have. -/
theorem pageOutcome_eq_ok {n : ℕ} {settled : Fin n → Except JsError SettledCandidate}
    {result : IngestPageResult} : pageOutcome settled = .ok result ↔
      ∃ values : Fin n → SettledCandidate, (∀ i, settled i = .ok (values i)) ∧
        result = tallyPage (List.ofFn values) := by
  constructor
  · intro h
    unfold pageOutcome at h
    cases hvalues : fulfilledInOrder (List.ofFn settled) with
    | error error =>
      rw [hvalues] at h
      cases h
    | ok values =>
      rw [hvalues] at h
      have hlist := fulfilledInOrder_eq_ok.1 hvalues
      have hlen : values.length = n := by
        have := congrArg List.length hlist
        simpa using this.symm
      -- as many values as tasks, so the list is a function of the task's index
      subst hlen
      refine ⟨fun i => values.get i, fun i => ?_, ?_⟩
      · have hi := congrArg (fun l => l[i.val]?) hlist
        simpa using hi
      · rw [List.ofFn_get]
        cases h
        rfl
  · rintro ⟨values, hvalues, rfl⟩
    have hlist : List.ofFn settled = (List.ofFn values).map .ok := by
      rw [List.map_ofFn]
      exact congrArg List.ofFn (funext hvalues)
    unfold pageOutcome
    rw [fulfilledInOrder_eq_ok.2 hlist]
    rfl

/-- The tally, field by field. -/
structure TallyOf (settled : List SettledCandidate) (result : IngestPageResult) : Prop where
  discovered : result.counts.discovered = settled.length
  stored : result.counts.stored = settled.countP (·.rawStatusIs .stored)
  staged : result.counts.staged = settled.countP (·.stagingStatusIs .staged)
  failed : result.counts.failed = settled.countP (·.rawStatusIs .failed) +
    settled.countP (·.stagingStatusIs .failed)

/-- **Each count is the number of candidates of its kind.** -/
theorem tallyPage_spec (settled : List SettledCandidate) : TallyOf settled (tallyPage settled) := by
  -- each turn of the loop adds what its candidate counts for
  have hfold : ∀ (settled : List SettledCandidate) (acc : IngestPageResult),
      (settled.foldl tallyCandidate acc).counts.discovered = acc.counts.discovered ∧
      (settled.foldl tallyCandidate acc).counts.stored =
        acc.counts.stored + settled.countP (·.rawStatusIs .stored) ∧
      (settled.foldl tallyCandidate acc).counts.staged =
        acc.counts.staged + settled.countP (·.stagingStatusIs .staged) ∧
      (settled.foldl tallyCandidate acc).counts.failed =
        acc.counts.failed + (settled.countP (·.rawStatusIs .failed) +
          settled.countP (·.stagingStatusIs .failed)) := by
    intro settled
    induction settled with
    | nil => intro acc; simp
    | cons value rest ih =>
      intro acc
      obtain ⟨h1, h2, h3, h4⟩ := ih (tallyCandidate acc value)
      simp only [List.foldl_cons, List.countP_cons, h1, h2, h3, h4]
      cases value with
      | skipped =>
        simp [tallyCandidate, SettledCandidate.rawStatusIs, SettledCandidate.stagingStatusIs]
      | processed rawResult stagingResult =>
        cases hr : rawResult.status <;> cases hs : stagingResult.status <;>
          simp [tallyCandidate, tallyRawResult, tallyStagingResult, SettledCandidate.rawStatusIs,
            SettledCandidate.stagingStatusIs, hr, hs] <;> omega
  obtain ⟨h1, h2, h3, h4⟩ := hfold settled
    { counts := newPageCounts settled.length, rawStorage := [], staging := [] }
  exact
    { discovered := h1
      stored := h2.trans (Nat.zero_add _)
      staged := h3.trans (Nat.zero_add _)
      failed := h4.trans (Nat.zero_add _) }

end ReplaysFetcher
