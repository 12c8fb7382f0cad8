/-
  Staging rows (`src/staging/payload.ts`, `src/staging/postgres-staging-repository.ts`,
  `src/staging/stage-raw-replay.ts`).

  Stored evidence becomes a payload, the payload one INSERT.  A row the INSERT did not add is looked
  up, to say whether it is this very replay (`already_staged`) or another one in its place
  (`conflict`).
-/
import ReplaysFetcher.RawStorage

namespace ReplaysFetcher

open Effectful

/-! ## Payloads -/

/-- The source system of all rows. -/
def defaultSourceSystem : String := "sg-zone"

section Payload

variable {Text : Type} (pf : Platform Text)

/-- The object is in the store. -/
def isStageable (evidence : RawReplayStorageEvidence) : Bool :=
  evidence.status = .stored || evidence.status = .skipped

/-- The URL without its userinfo; what is no URL stays as it is. -/
def sanitizeSourceUrl (sourceUrl : String) : String :=
  match pf.parseUrl sourceUrl with
  | some url => pf.withoutUserinfo url
  | none => sourceUrl

/-- The external id, or else a digest of the URL, the filename and the checksum. -/
def toSourceReplayId (evidence : RawReplayStorageEvidence) : String :=
  match evidence.source.externalId with
  | some externalId => externalId
  | none =>
    "derived:" ++ calculateSha256 pf (pf.encode
      (evidence.source.url ++ "\n" ++ evidence.sourceFilename ++ "\n" ++ evidence.checksum))

/-- An external id is taken as it is. -/
theorem toSourceReplayId_of_some {evidence : RawReplayStorageEvidence} {externalId : String}
    (h : evidence.source.externalId = some externalId) :
    toSourceReplayId pf evidence = externalId := by
  unfold toSourceReplayId
  rw [h]

/-- The leading `YYYY_MM_DD__HH_MM_SS__` of a filename. -/
def filenameTimestamp (filename : String) : Option UtcDateComponents :=
  match filename.toList with
  | y1 :: y2 :: y3 :: y4 :: '_' :: m1 :: m2 :: '_' :: d1 :: d2 :: '_' :: '_' ::
      h1 :: h2 :: '_' :: i1 :: i2 :: '_' :: s1 :: s2 :: '_' :: '_' :: _ => do
    let year ← digitsValue (String.ofList [y1, y2, y3, y4])
    let month ← digitsValue (String.ofList [m1, m2])
    let day ← digitsValue (String.ofList [d1, d2])
    let hour ← digitsValue (String.ofList [h1, h2])
    let minute ← digitsValue (String.ofList [i1, i2])
    let second ← digitsValue (String.ofList [s1, s2])
    some { day := day, hour := hour, minute := minute, month := month, second := some (second : ℤ),
           year := year }
  | _ => none

/-- The instant in a filename, unless it is none. -/
def replayTimestampFromFilename (filename : String) : Option String :=
  (filenameTimestamp filename).bind componentsToUtcIso

/-- `toPayload`, with `basePayload` written out. -/
def toPayload (evidence : RawReplayStorageEvidence) (sourceSystem : String)
    (runId : Option String) : IngestStagingPayload where
  checksum := evidence.checksum
  objectKey := evidence.objectKey
  promotionEvidence :=
    { bucket := evidence.bucket
      byteSize := evidence.byteSize
      checksum := evidence.checksum
      discoveredAt := evidence.discoveredAt
      fetchedAt := evidence.fetchedAt
      objectKey := evidence.objectKey
      rawStorageStatus := evidence.status
      runId := runId
      sourceExternalId := evidence.source.externalId
      sourceFilename := evidence.sourceFilename
      sourceUrl := sanitizeSourceUrl pf evidence.source.url }
  replayTimestamp :=
    ((evidence.source.externalId.bind epochToUtcIso).or
      (replayTimestampFromFilename evidence.sourceFilename)).or evidence.discoveredAt
  sizeBytes := evidence.byteSize
  sourceReplayId := toSourceReplayId pf evidence
  sourceSystem := sourceSystem
  status := .pending

/-- The texts of the union. -/
def RawReplayStorageStatus.text : RawReplayStorageStatus → String
  | .stored => "stored"
  | .skipped => "skipped"
  | .conflict => "conflict"
  | .failed => "failed"

/-- Why a payload is not staged. -/
def notStageableReason (status : RawReplayStorageStatus) : String :=
  "Raw storage status " ++ status.text ++ " is not stageable"

/-- `toIngestStagingPayload`; an error is the reason it is not stageable. -/
def toIngestStagingPayload (evidence : RawReplayStorageEvidence) (runId : Option String := none)
    (sourceSystem : Option String := none) : Except String IngestStagingPayload :=
  if isStageable evidence then
    .ok (toPayload pf evidence (sourceSystem.getD defaultSourceSystem) runId)
  else .error (notStageableReason evidence.status)

end Payload

/-! ## The repository -/

section Repository

variable {Text : Type}

/-- The row is about the same object. -/
def matchesPayload (row : StagingRow) (payload : IngestStagingPayload) : Bool :=
  row.checksum = payload.checksum && row.objectKey = payload.objectKey

/-- The row as a result shows it. -/
def toExisting (row : StagingRow) : ExistingStagingEvidence where
  checksum := row.checksum
  objectKey := row.objectKey
  sourceReplayId := row.sourceReplayId
  sourceSystem := row.sourceSystem
  status := row.status

/-- The INSERT, which does nothing where the object has a row. -/
def insertStaging (payload : IngestStagingPayload) : Task Text (Option String) :=
  Proc.perform (Effect.insertStaging payload)

/-- The row of this replay. -/
def findBySourceIdentity (payload : IngestStagingPayload) : Task Text (Option StagingRow) :=
  Proc.perform (Effect.findBySourceIdentity payload.sourceSystem payload.sourceReplayId)

/-- The row of this object. -/
def findByObjectIdentity (payload : IngestStagingPayload) : Task Text (Option StagingRow) :=
  Proc.perform (Effect.findByObjectIdentity payload.checksum payload.objectKey)

/-- `existsBySourceIdentity`, the check of the gates. -/
def existsBySourceIdentity (sourceSystem sourceReplayId : String) : Task Text Bool :=
  Proc.perform (Effect.existsBySourceIdentity sourceSystem sourceReplayId)

/-- The row is new. -/
def stagedResult (payload : IngestStagingPayload) (stagingId : String) : IngestStagingResult :=
  { payload := some payload, stagingId := some stagingId, status := .staged }

/-- The row was there. -/
def alreadyStagedResult (payload : IngestStagingPayload) (row : StagingRow) : IngestStagingResult :=
  { existing := some (toExisting row), payload := some payload, stagingId := some row.id
    status := .alreadyStaged }

/-- Another row is in the way. -/
def conflictResult (payload : IngestStagingPayload) (row : StagingRow) (reason : String) :
    IngestStagingResult :=
  { existing := some (toExisting row), payload := some payload, reason := some reason
    status := .conflict }

/-- There is no row, and none could be made. -/
def failedResult (payload : IngestStagingPayload) (reason : String) : IngestStagingResult :=
  { payload := some payload, reason := some reason, status := .failed }

/-- After a refused INSERT: the row of the replay decides, then the row of the object. -/
def classifyExistingStaging (payload : IngestStagingPayload) : Task Text IngestStagingResult := do
  let existingBySource ← findBySourceIdentity payload
  match existingBySource with
  | some row =>
    if matchesPayload row payload then pure (alreadyStagedResult payload row)
    else pure (conflictResult payload row "source_identity_conflict")
  | none => do
    let existingByObject ← findByObjectIdentity payload
    match existingByObject with
    | some row => pure (conflictResult payload row "raw_object_identity_conflict")
    | none => pure (failedResult payload "unique_violation_without_existing_staging")

/-- The body of `stage`'s `try`.  Its last `return classifyExistingStaging(…)` hands out a promise
    that is not awaited inside the `try`, so a rejection of it is not caught there: it is what
    `inr` stands for. -/
def stageAttempt (payload : IngestStagingPayload) :
    Task Text (IngestStagingResult ⊕ Unit) := do
  let inserted ← insertStaging payload
  match inserted with
  | some id => pure (.inl (stagedResult payload id))
  | none => do
    let existing ← findByObjectIdentity payload
    match existing with
    | some row => pure (.inl (alreadyStagedResult payload row))
    | none => pure (.inr ())

/-- `stage(payload)` -/
def stage (payload : IngestStagingPayload) : Task Text IngestStagingResult := do
  let attempt ← tryCatch (stageAttempt payload) fun error =>
    if isUniqueViolation error then pure (.inr ())
    else pure (.inl (failedResult payload "staging_write_failed"))
  match attempt with
  | .inl result => pure result
  | .inr _ => classifyExistingStaging payload

/-- `createPostgresStagingRepository(client).stage` behind `stageRawReplay`. -/
def stageRawReplay (pf : Platform Text) (rawResult : StoreRawReplayResult)
    (runId : Option String) : Task Text IngestStagingResult :=
  match rawResult with
  | .fetchFailed _ =>
    pure { reason := some (notStageableReason .failed), status := .notStageable }
  | .stored evidence =>
    match toIngestStagingPayload pf evidence runId with
    | .error reason => pure { reason := some reason, status := .notStageable }
    | .ok payload => stage payload

end Repository

/-! ## The program as a tree -/

section Tree

variable {Text : Type}

/-- The answer of a lookup that found a row under the source identity. -/
def existingResult (payload : IngestStagingPayload) (row : StagingRow) : IngestStagingResult :=
  if matchesPayload row payload then alreadyStagedResult payload row
  else conflictResult payload row "source_identity_conflict"

/-- Two lookups at most. -/
theorem classifyExistingStaging_eq (payload : IngestStagingPayload) :
    (classifyExistingStaging payload : Program Text (Except JsError IngestStagingResult)) =
      .call (.findBySourceIdentity payload.sourceSystem payload.sourceReplayId) fun r =>
        match r with
        | .error error => .pure (.error error)
        | .ok (some row) => .pure (.ok (existingResult payload row))
        | .ok none => .call (.findByObjectIdentity payload.checksum payload.objectKey) fun r =>
          match r with
          | .error error => .pure (.error error)
          | .ok (some row) =>
            .pure (.ok (conflictResult payload row "raw_object_identity_conflict"))
          | .ok none =>
            .pure (.ok (failedResult payload "unique_violation_without_existing_staging")) := by
  unfold classifyExistingStaging
  rw [Async.bind_eq]
  show Proc.call (Effect.findBySourceIdentity _ _) _ = _
  congr 1
  funext r
  match r with
  | .error error => rfl
  | .ok (some row) =>
    simp only [Proc.pure_bind', Async.onOk_ok, existingResult]
    split <;> rfl
  | .ok none =>
    simp only [Proc.pure_bind', Async.onOk_ok, Async.bind_eq]
    show Proc.call (Effect.findByObjectIdentity _ _) _ = _
    congr 1
    funext r
    match r with
    | .error error => rfl
    | .ok (some row) => rfl
    | .ok none => rfl

/-- What follows an error inside the `try` of `stage`. -/
def stageError (payload : IngestStagingPayload) (error : JsError) :
    Program Text (Except JsError IngestStagingResult) :=
  if isUniqueViolation error then classifyExistingStaging payload
  else .pure (.ok (failedResult payload "staging_write_failed"))

/-- The INSERT, a lookup where it did nothing, and the classification. -/
theorem stage_eq (payload : IngestStagingPayload) :
    (stage payload : Program Text (Except JsError IngestStagingResult)) =
      .call (.insertStaging payload) fun r =>
        match r with
        | .error error => stageError payload error
        | .ok (some id) => .pure (.ok (stagedResult payload id))
        | .ok none => .call (.findByObjectIdentity payload.checksum payload.objectKey) fun r =>
          match r with
          | .error error => stageError payload error
          | .ok (some row) => .pure (.ok (alreadyStagedResult payload row))
          | .ok none => classifyExistingStaging payload := by
  -- the `try` is pushed inwards: each lookup has its own `catch`
  unfold stage
  rw [Async.bind_eq, Async.tryCatch_eq]
  unfold stageAttempt
  rw [Async.bind_eq]
  show Proc.call (Effect.insertStaging payload) _ = _
  congr 1
  funext r
  match r with
  | .error error =>
    simp only [Proc.pure_bind', Async.onOk_error, Async.onError_error, stageError]
    split <;> rfl
  | .ok (some id) => rfl
  | .ok none =>
    simp only [Proc.pure_bind', Async.onOk_ok, Async.bind_eq]
    show Proc.call (Effect.findByObjectIdentity _ _) _ = _
    congr 1
    funext r
    match r with
    | .error error =>
      simp only [Proc.pure_bind', Async.onOk_error, Async.onError_error, stageError]
      split <;> rfl
    | .ok (some row) => rfl
    | .ok none => rfl

end Tree

/-! ## Rules -/

section Rules

variable {W Text : Type} {env : Env W (Effect Text) Reply} {rely guar : W → W → Prop} {w : W}

/-- The outcome of a lookup: found, not found, or an error. -/
def LookupPost (found : StagingRow → W → Prop) (missing : W → Prop) (failed : JsError → W → Prop)
    (r : Except JsError (Option StagingRow)) (w : W) : Prop :=
  match r with
  | .ok (some row) => found row w
  | .ok none => missing w
  | .error error => failed error w

/-- Classification of a row that is in the way: `B` holds before it, `C` between its lookups. -/
theorem safe_classifyExistingStaging {post : Except JsError IngestStagingResult → W → Prop}
    {payload : IngestStagingPayload} (B C : W → Prop) (hB : ∀ w w', B w → rely w w' → B w')
    (hC : ∀ w w', C w → rely w w' → C w') (hpost : ∀ r w w', post r w → rely w w' → post r w')
    (hsource : ∀ w, B w → ∀ r w',
      env w (.findBySourceIdentity payload.sourceSystem payload.sourceReplayId) r w' →
      guar w w' ∧ LookupPost (fun row w => post (.ok (existingResult payload row)) w) C
        (fun error w => post (.error error) w) r w')
    (hobject : ∀ w, C w → ∀ r w',
      env w (.findByObjectIdentity payload.checksum payload.objectKey) r w' →
      guar w w' ∧ LookupPost
        (fun row w => post (.ok (conflictResult payload row "raw_object_identity_conflict")) w)
        (fun w => post (.ok (failedResult payload "unique_violation_without_existing_staging")) w)
        (fun error w => post (.error error) w) r w')
    (h : B w) : Proc.Safe env rely guar post w (classifyExistingStaging payload) := by
  rw [classifyExistingStaging_eq]
  refine Proc.safe_call B hB ?_ h
  intro w h r w' hr
  obtain ⟨hg, hnext⟩ := hsource w h r w' hr
  refine ⟨hg, ?_⟩
  match r with
  | .error error => exact Proc.safe_pure (hpost _) hnext
  | .ok (some row) => exact Proc.safe_pure (hpost _) hnext
  | .ok none =>
    refine Proc.safe_call C hC ?_ hnext
    intro w h r w' hr
    obtain ⟨hg, hnext⟩ := hobject w h r w' hr
    refine ⟨hg, ?_⟩
    match r with
    | .error error => exact Proc.safe_pure (hpost _) hnext
    | .ok (some row) => exact Proc.safe_pure (hpost _) hnext
    | .ok none => exact Proc.safe_pure (hpost _) hnext

/-- The outcome of an error inside the `try` of `stage`: `B` when it leads to the classification. -/
def StageErrorPost (post : Except JsError IngestStagingResult → W → Prop) (B : W → Prop)
    (payload : IngestStagingPayload) (error : JsError) (w : W) : Prop :=
  if isUniqueViolation error then B w
  else post (.ok (failedResult payload "staging_write_failed")) w

/-- Staging: `P` holds before the INSERT, `A` after one that hit the arbiter, and `B` before the
    classification, which is safe by `hclassify`. -/
theorem safe_stage {post : Except JsError IngestStagingResult → W → Prop}
    {payload : IngestStagingPayload} (P A B : W → Prop) (hP : ∀ w w', P w → rely w w' → P w')
    (hA : ∀ w w', A w → rely w w' → A w') (hpost : ∀ r w w', post r w → rely w w' → post r w')
    (hinsert : ∀ w, P w → ∀ (r : Except JsError (Option String)) w',
      env w (.insertStaging payload) r w' → guar w w' ∧
        match r with
        | .ok (some id) => post (.ok (stagedResult payload id)) w'
        | .ok none => A w'
        | .error error => StageErrorPost post B payload error w')
    (hobject : ∀ w, A w → ∀ r w',
      env w (.findByObjectIdentity payload.checksum payload.objectKey) r w' →
      guar w w' ∧ LookupPost (fun row w => post (.ok (alreadyStagedResult payload row)) w) B
        (StageErrorPost post B payload) r w')
    (hclassify : ∀ w, B w → Proc.Safe env rely guar post w (classifyExistingStaging payload))
    (h : P w) : Proc.Safe env rely guar post w (stage payload) := by
  -- a refused INSERT is a question and not yet an answer
  have herror : ∀ error w, StageErrorPost post B payload error w →
      Proc.Safe env rely guar post w (stageError payload error) := by
    intro error w hnext
    unfold StageErrorPost at hnext
    unfold stageError
    split
    · rename_i hunique
      rw [if_pos hunique] at hnext
      exact hclassify w hnext
    · rename_i hunique
      rw [if_neg hunique] at hnext
      exact Proc.safe_pure (hpost _) hnext
  rw [stage_eq]
  refine Proc.safe_call P hP ?_ h
  intro w h r w' hr
  obtain ⟨hg, hnext⟩ := hinsert w h r w' hr
  refine ⟨hg, ?_⟩
  match r with
  | .error error => exact herror error w' hnext
  | .ok (some id) => exact Proc.safe_pure (hpost _) hnext
  | .ok none =>
    refine Proc.safe_call A hA ?_ hnext
    intro w h r w' hr
    obtain ⟨hg, hnext⟩ := hobject w h r w' hr
    refine ⟨hg, ?_⟩
    match r with
    | .error error => exact herror error w' hnext
    | .ok (some row) => exact Proc.safe_pure (hpost _) hnext
    | .ok none => exact hclassify w' hnext

end Rules

end ReplaysFetcher
