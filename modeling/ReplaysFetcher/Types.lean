/-
  The records the fetcher passes around (`src/types/`, `src/errors/`, `src/source/retry.ts`).

  Field names are the source's.  An optional property is an `Option` field, a union of string
  literals an inductive type, an array a `List`, a byte buffer a `List UInt8`.  Numbers that only
  ever count are `Nat`.
-/
import Mathlib.Data.Int.Notation
import Mathlib.Data.Nat.Notation

namespace ReplaysFetcher

/-- The contents of a `Uint8Array`. -/
abbrev Bytes : Type := List UInt8

/-! ## Errors -/

/-- What a read of the source is for. -/
inductive SourceReadPhase
  | bytes | detail | list
  deriving DecidableEq, Repr

/-- The codes of a failed text read. -/
inductive SourceFetchCode
  | rateLimited | sourceTransient | sourceUnavailable
  deriving DecidableEq, Repr

/-- The texts of the union. -/
def SourceFetchCode.text : SourceFetchCode → String
  | .rateLimited => "rate_limited"
  | .sourceTransient => "source_transient"
  | .sourceUnavailable => "source_unavailable"

/-- The `details` of a `SourceFetchError`. -/
structure SourceFetchDetails where
  attempts : Option ℕ := none
  causeCode : Option String := none
  causeMessage : Option String := none
  cfChallenge : Bool
  httpStatus : Option ℕ := none
  page : Option ℕ := none
  phase : SourceReadPhase
  retryAfter : Option String := none
  url : String
  deriving DecidableEq, Repr

/-- What the text clients reject with, without its `cause`. -/
structure SourceFetchError where
  code : SourceFetchCode
  message : String
  details : Option SourceFetchDetails := none
  deriving DecidableEq, Repr

/-- What a rejected promise may carry: the classes the code tells apart, and everything else. -/
inductive JsError
  | s3Service (name : String) (httpStatusCode : Option ℕ)
  | replayByteFetch (code message : String)
  | sourceFetch (failure : SourceFetchError)
  | checkpointConflict (attempts page : ℕ) (slug : String)
  | database (code : Option String)
  | error (message : String)
  deriving DecidableEq, Repr

/-- The own `code` property of an error, for the check `"code" in error`. -/
def JsError.code : JsError → Option String
  | .s3Service _ _ => none
  | .replayByteFetch code _ => some code
  | .sourceFetch failure => some failure.code.text
  | .checkpointConflict _ _ _ => some "checkpoint-conflict"
  | .database code => code
  | .error _ => none

/-! ## Candidates -/

/-- What a replay is told apart by. -/
structure ReplayCandidate.Identity where
  filename : String
  deriving DecidableEq, Repr

/-- What a listing says of a replay. -/
structure ReplayCandidate.Metadata where
  discoveredAt : Option String := none
  missionText : Option String := none
  serverId : Option ℤ := none
  world : Option String := none
  deriving DecidableEq, Repr

/-- Where a replay comes from. -/
structure ReplayCandidate.Source where
  externalId : Option String := none
  page : Option ℕ := none
  rawUrl : Option String := none
  url : String
  deriving DecidableEq, Repr

/-- A replay that may be stored. -/
structure ReplayCandidate where
  identity : ReplayCandidate.Identity
  metadata : Option ReplayCandidate.Metadata := none
  source : ReplayCandidate.Source
  deriving DecidableEq, Repr

/-! ## Discovery reports -/

/-- How bad a diagnostic is. -/
inductive DiagnosticSeverity
  | info | warning | error
  deriving DecidableEq, Repr

/-- The codes of the diagnostics. -/
inductive DiagnosticCode
  | malformedRow | missingFilename | duplicateFilename | changedMetadata
  | sourceUnavailable | sourceTransient | rateLimited
  deriving DecidableEq, Repr

/-- One finding of a discovery. -/
structure DiscoveryDiagnostic where
  attempts : Option ℕ := none
  candidateIndex : Option ℕ := none
  causeCode : Option String := none
  causeMessage : Option String := none
  cfChallenge : Option Bool := none
  code : DiagnosticCode
  externalId : Option String := none
  httpStatus : Option ℕ := none
  message : String
  page : Option ℕ := none
  phase : Option SourceReadPhase := none
  severity : DiagnosticSeverity
  sourceUrl : Option String := none
  deriving DecidableEq, Repr

/-- The counts of a discovery report. -/
structure DiscoveryReport.Counts where
  candidates : ℕ
  diagnostics : ℕ
  discovered : ℕ
  skippedPreDetail : ℕ
  deriving DecidableEq, Repr

/-- `DiscoveryReport` and `MutableDiscoveryReport`. -/
structure DiscoveryReport where
  candidates : List ReplayCandidate
  counts : DiscoveryReport.Counts
  diagnostics : List DiscoveryDiagnostic
  ok : Bool
  sourceUrl : String
  deriving DecidableEq, Repr

/-! ## Raw storage results -/

/-- What became of a raw object. -/
inductive RawReplayStorageStatus
  | stored | skipped | conflict | failed
  deriving DecidableEq, Repr

/-- Why a raw object was not stored. -/
inductive StorageFailureCategory
  | objectConflict | s3Error
  deriving DecidableEq, Repr

/-- What is known of a raw object, whatever became of it. -/
structure RawReplayStorageEvidence where
  bucket : String
  checksum : String
  objectKey : String
  byteSize : ℕ
  discoveredAt : Option String := none
  failureCategory : Option StorageFailureCategory := none
  fetchedAt : String
  source : ReplayCandidate.Source
  sourceFilename : String
  status : RawReplayStorageStatus
  deriving DecidableEq, Repr

/-- The evidence of a failed byte fetch: `failureCategory` is always `fetch_failed` and `status`
    always `failed`. -/
structure RawReplayFetchFailureEvidence where
  fetchedAt : String
  message : String
  source : ReplayCandidate.Source
  sourceFilename : String
  deriving DecidableEq, Repr

/-- What `storeRawReplay` resolves with. -/
inductive StoreRawReplayResult
  | fetchFailed (evidence : RawReplayFetchFailureEvidence)
  | stored (evidence : RawReplayStorageEvidence)
  deriving DecidableEq, Repr

/-- A replay that could not be fetched has failed. -/
def StoreRawReplayResult.status : StoreRawReplayResult → RawReplayStorageStatus
  | .fetchFailed _ => .failed
  | .stored evidence => evidence.status

/-! ## Staging -/

/-- The one status a payload is staged with. -/
inductive IngestStagingStatus
  | pending
  deriving DecidableEq, Repr

/-- What became of a payload. -/
inductive StagingOutcomeStatus
  | alreadyStaged | conflict | failed | notStageable | staged
  deriving DecidableEq, Repr

/-- Where a staged replay comes from, for those who promote it. -/
structure PromotionEvidence where
  bucket : String
  byteSize : ℕ
  checksum : String
  discoveredAt : Option String := none
  fetchedAt : String
  objectKey : String
  rawStorageStatus : RawReplayStorageStatus
  runId : Option String := none
  sourceExternalId : Option String := none
  sourceFilename : String
  sourceUrl : String
  deriving DecidableEq, Repr

/-- The payload of one staging INSERT; `conflictDetails` is always the empty record. -/
structure IngestStagingPayload where
  checksum : String
  objectKey : String
  promotionEvidence : PromotionEvidence
  replayTimestamp : Option String := none
  sizeBytes : ℕ
  sourceReplayId : String
  sourceSystem : String
  status : IngestStagingStatus
  deriving DecidableEq, Repr

/-- The row that was in the way. -/
structure ExistingStagingEvidence where
  checksum : String
  objectKey : String
  sourceReplayId : String
  sourceSystem : String
  status : String
  deriving DecidableEq, Repr

/-- What `stageRawReplay` resolves with. -/
structure IngestStagingResult where
  existing : Option ExistingStagingEvidence := none
  payload : Option IngestStagingPayload := none
  reason : Option String := none
  stagingId : Option String := none
  status : StagingOutcomeStatus
  deriving DecidableEq, Repr

/-! ## Runs -/

/-- The kinds of a failed source read. -/
inductive SourceFailureClassification
  | permanent | rateLimited | transient
  deriving DecidableEq, Repr

/-- The failed source read of a run, in identifiers only. -/
structure RunSourceFailure where
  attempts : Option ℕ := none
  classification : SourceFailureClassification
  code : DiagnosticCode
  phase : Option SourceReadPhase := none
  deriving DecidableEq, Repr

/-- `RunStatus`; `partiallyDone` is the source's `"partial"`. -/
inductive RunStatus
  | complete | failed | partiallyDone | resumable | truncated
  deriving DecidableEq, Repr

end ReplaysFetcher
