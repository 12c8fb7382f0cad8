/-
  Raw replay storage (`src/storage/store-raw-replay.ts`, `src/storage/s3-raw-storage.ts`,
  `src/storage/object-key.ts`, `src/storage/checksum.ts`).

  A replay is stored under its SHA-256: fetch the bytes, HEAD the key they hash to, and PUT only
  when nothing is there.  An object that is there is trusted (`skipped`) when its length and its
  checksum metadata agree, and left alone (`conflict`) when they do not.
-/
import ReplaysFetcher.CheckpointStore

namespace ReplaysFetcher

open Effectful

variable {Text : Type} (pf : Platform Text)

/-- The digest of the bytes, in hexadecimal. -/
def calculateSha256 (bytes : Bytes) : String := pf.sha256Hex bytes

/-- The key of a digest; anything else is refused. -/
def toRawReplayObjectKey (sha256 : String) : Except JsError String :=
  if isSha256Hex sha256 then .ok ("raw/sha256/" ++ sha256 ++ ".ocap")
  else .error (.error "SHA-256 checksum must be 64 lowercase hex characters")

/-- What the S3 adapter is called with. -/
structure RawReplayStorageInput where
  bytes : Bytes
  candidate : ReplayCandidate
  checksum : String
  fetchedAt : String
  objectKey : String

/-- `toBaseEvidence`, with the status that completes it. -/
def toEvidence (bucket : String) (input : RawReplayStorageInput) (status : RawReplayStorageStatus)
    (failureCategory : Option StorageFailureCategory := none) : RawReplayStorageEvidence where
  bucket := bucket
  byteSize := input.bytes.length
  checksum := input.checksum
  discoveredAt := input.candidate.metadata.bind (·.discoveredAt)
  failureCategory := failureCategory
  fetchedAt := input.fetchedAt
  objectKey := input.objectKey
  source := input.candidate.source
  sourceFilename := input.candidate.identity.filename
  status := status

/-- The HEAD of a key. -/
def headObjectRequest (key : String) : Program Text (Except JsError HeadObjectOutput) :=
  Proc.perform (Effect.headObject key)

/-- The PUT of an object, with its digest in the metadata. -/
def putObjectRequest (key : String) (bytes : Bytes) (sha256 : String) :
    Program Text (Except JsError Unit) :=
  Proc.perform (Effect.putObject key bytes sha256)

/-- `createS3RawReplayStorage(options).storeRawReplay`: it never rejects. -/
def s3StoreRawReplay (bucket : String) (input : RawReplayStorageInput) :
    Program Text RawReplayStorageEvidence :=
  (headObjectRequest input.objectKey).bind fun head =>
    match head with
    | .ok output =>
      if output.contentLength = some input.bytes.length ∧ output.sha256 = some input.checksum then
        .pure (toEvidence bucket input .skipped)
      else
        .pure (toEvidence bucket input .conflict (some .objectConflict))
    | .error error =>
      if isNotFound error then
        (putObjectRequest input.objectKey input.bytes input.checksum).bind fun put =>
          match put with
          | .ok _ => .pure (toEvidence bucket input .stored)
          | .error _ => .pure (toEvidence bucket input .failed (some .s3Error))
      else
        .pure (toEvidence bucket input .failed (some .s3Error))

/-- One read of the byte client, with its retries. -/
def fetchBytesRequest (url : Url) : Task Text Bytes := Proc.perform (Effect.fetchBytes url)

/-- `new Date()` -/
def nowRequest : Program Text Date := Proc.perform Effect.now

/-- The handler of `storeRawReplay`: only a failed byte fetch is an outcome, anything else is
    rethrown. -/
def fetchFailure (candidate : ReplayCandidate) (fetchedAt : String) (error : JsError) :
    Task Text StoreRawReplayResult :=
  match error with
  | .replayByteFetch _ message =>
    pure (.fetchFailed
      { fetchedAt, message, source := candidate.source
        sourceFilename := candidate.identity.filename })
  | error => throw error

/-- The URL a candidate's bytes are fetched from. -/
def bytesUrl (candidate : ReplayCandidate) : Except JsError Url :=
  newUrl pf (candidate.source.rawUrl.getD candidate.source.url)

/-- Fetch, hash, store; the clock is read before anything can fail. -/
def storeRawReplay (bucket : String) (candidate : ReplayCandidate) :
    Task Text StoreRawReplayResult := do
  let now ← (nowRequest : Program Text Date)
  tryCatch
    (do
      let url ← ofExcept (bytesUrl pf candidate)
      let bytes ← fetchBytesRequest url
      let objectKey ← ofExcept (toRawReplayObjectKey (calculateSha256 pf bytes))
      let evidence ← (s3StoreRawReplay bucket
        { bytes, candidate, checksum := calculateSha256 pf bytes, fetchedAt := toISOString now,
          objectKey } : Program Text RawReplayStorageEvidence)
      pure (.stored evidence))
    (fetchFailure candidate (toISOString now))

/-- The key of the raw object with this checksum. -/
def rawKey (sha256 : String) : String := "raw/sha256/" ++ sha256 ++ ".ocap"

/-- A digest is always a valid checksum. -/
@[simp] theorem toRawReplayObjectKey_sha256 (bytes : Bytes) :
    toRawReplayObjectKey (calculateSha256 pf bytes) = .ok (rawKey (calculateSha256 pf bytes)) := by
  unfold toRawReplayObjectKey calculateSha256
  rw [if_pos (pf.sha256Hex_hex bytes)]
  rfl

/-! ## The program as a tree -/

/-- What a failed try of `storeRawReplay` resolves or rejects with. -/
def fetchFailureOutcome (candidate : ReplayCandidate) (fetchedAt : String) :
    JsError → Except JsError StoreRawReplayResult
  | .replayByteFetch _ message =>
    .ok (.fetchFailed
      { fetchedAt, message, source := candidate.source
        sourceFilename := candidate.identity.filename })
  | error => .error error

/-- The handler answers at once. -/
theorem fetchFailure_eq (candidate : ReplayCandidate) (fetchedAt : String) (error : JsError) :
    (fetchFailure candidate fetchedAt error : Program Text (Except JsError StoreRawReplayResult)) =
      Proc.pure (fetchFailureOutcome candidate fetchedAt error) := by
  cases error <;> rfl

/-- The input of the S3 adapter for these bytes. -/
def storageInput (candidate : ReplayCandidate) (now : Date) (bytes : Bytes) :
    RawReplayStorageInput where
  bytes := bytes
  candidate := candidate
  checksum := pf.sha256Hex bytes
  fetchedAt := toISOString now
  objectKey := rawKey (pf.sha256Hex bytes)

/-- `storeRawReplay` is: the clock, the bytes, and the S3 adapter on what they hash to. -/
theorem storeRawReplay_eq (bucket : String) (candidate : ReplayCandidate) :
    (storeRawReplay pf bucket candidate : Program Text (Except JsError StoreRawReplayResult)) =
      .call .now fun now =>
        match bytesUrl pf candidate with
        | .error error => .pure (fetchFailureOutcome candidate (toISOString now) error)
        | .ok url => .call (.fetchBytes url) fun r =>
          match r with
          | .error error => .pure (fetchFailureOutcome candidate (toISOString now) error)
          | .ok bytes => (s3StoreRawReplay bucket (storageInput pf candidate now bytes)).bind
            fun evidence => .pure (.ok (.stored evidence)) := by
  unfold storeRawReplay
  rw [Async.lift_bind_eq]
  show Proc.call Effect.now _ = _
  congr 1
  funext now
  rw [Proc.pure_bind', Async.tryCatch_eq, Async.bind_eq]
  unfold ofExcept
  cases hurl : bytesUrl pf candidate with
  | error error =>
    simp only [Proc.pure_bind', Async.onOk_error, Async.onError_error, fetchFailure_eq]
  | ok url =>
    rw [Proc.pure_bind', Async.onOk_ok, Async.bind_eq]
    show Proc.call (Effect.fetchBytes url) _ = _
    congr 1
    funext r
    cases r with
    | error error =>
      simp only [Proc.pure_bind', Async.onOk_error, Async.onError_error, fetchFailure_eq]
    | ok bytes =>
      dsimp only
      rw [Proc.pure_bind', Async.onOk_ok, Async.bind_eq, toRawReplayObjectKey_sha256,
        Proc.pure_bind', Async.onOk_ok, Async.lift_bind_eq, Proc.bind_assoc']
      rfl

/-- The evidence of a HEAD that found an object. -/
def headEvidence (bucket : String) (input : RawReplayStorageInput) (output : HeadObjectOutput) :
    RawReplayStorageEvidence :=
  if output.contentLength = some input.bytes.length ∧ output.sha256 = some input.checksum then
    toEvidence bucket input .skipped
  else
    toEvidence bucket input .conflict (some .objectConflict)

/-- The evidence of a PUT. -/
def putEvidence (bucket : String) (input : RawReplayStorageInput) :
    Except JsError Unit → RawReplayStorageEvidence
  | .ok _ => toEvidence bucket input .stored
  | .error _ => toEvidence bucket input .failed (some .s3Error)

/-- The adapter is a HEAD and, where nothing is, a PUT. -/
theorem s3StoreRawReplay_eq (bucket : String) (input : RawReplayStorageInput) :
    (s3StoreRawReplay bucket input : Program Text RawReplayStorageEvidence) =
      .call (.headObject input.objectKey) fun head =>
        match head with
        | .ok output => .pure (headEvidence bucket input output)
        | .error error =>
          if isNotFound error then
            .call (.putObject input.objectKey input.bytes input.checksum) fun put =>
              .pure (putEvidence bucket input put)
          else .pure (toEvidence bucket input .failed (some .s3Error)) := by
  unfold s3StoreRawReplay
  show Proc.call (Effect.headObject input.objectKey) _ = _
  congr 1
  funext head
  cases head with
  | ok output =>
    simp only [Proc.pure_bind', headEvidence]
    split <;> rfl
  | error error =>
    simp only [Proc.pure_bind']
    split
    · show Proc.call (Effect.putObject _ _ _) _ = _
      congr 1
      funext put
      cases put <;> rfl
    · rfl

/-! ## Rules -/

section Rules

variable {W : Type} {env : Env W (Effect Text) Reply} {rely guar : W → W → Prop} {w : W}
  {pf : Platform Text} {bucket : String}

/-- The S3 adapter: `F` holds before the HEAD, and `N` between a HEAD that found nothing and the
    PUT. -/
theorem safe_s3StoreRawReplay {post : RawReplayStorageEvidence → W → Prop}
    {input : RawReplayStorageInput} (F N : W → Prop) (hF : ∀ w w', F w → rely w w' → F w')
    (hN : ∀ w w', N w → rely w w' → N w')
    (hpost : ∀ evidence w w', post evidence w → rely w w' → post evidence w')
    (hhead : ∀ w, F w → ∀ (r : Except JsError HeadObjectOutput) w',
      env w (.headObject input.objectKey) r w' → guar w w' ∧
        (∀ output, r = .ok output → post (headEvidence bucket input output) w') ∧
        ∀ error, r = .error error → if isNotFound error then N w'
          else post (toEvidence bucket input .failed (some .s3Error)) w')
    (hput : ∀ w, N w → ∀ (r : Except JsError Unit) w',
      env w (.putObject input.objectKey input.bytes input.checksum) r w' →
        guar w w' ∧ post (putEvidence bucket input r) w')
    (h : F w) : Proc.Safe env rely guar post w (s3StoreRawReplay bucket input) := by
  rw [s3StoreRawReplay_eq]
  refine Proc.safe_call F hF ?_ h
  intro w h r w' hr
  obtain ⟨hg, hok, herror⟩ := hhead w h r w' hr
  refine ⟨hg, ?_⟩
  cases r with
  | ok output => exact Proc.safe_pure (hpost _) (hok output rfl)
  | error error =>
    have hnext := herror error rfl
    dsimp only
    split at hnext
    · rename_i hfound
      rw [if_pos hfound]
      refine Proc.safe_call N hN ?_ hnext
      intro w h r w' hr
      exact ⟨(hput w h r w' hr).1, Proc.safe_pure (hpost _) (hput w h r w' hr).2⟩
    · rename_i hfound
      rw [if_neg hfound]
      exact Proc.safe_pure (hpost _) hnext

/-- The store of one replay: `P` holds before the clock is read, `Q` before the bytes are, and
    `F` when the adapter is called. -/
theorem safe_storeRawReplay {post : Except JsError StoreRawReplayResult → W → Prop}
    {candidate : ReplayCandidate} (P Q : W → Prop) (F : Bytes → W → Prop)
    (hP : ∀ w w', P w → rely w w' → P w') (hQ : ∀ w w', Q w → rely w w' → Q w')
    (hpost : ∀ r w w', post r w → rely w w' → post r w')
    (hnow : ∀ w, P w → ∀ r w', env w .now r w' → guar w w' ∧ Q w')
    (hurl : ∀ error, bytesUrl pf candidate = .error error → ∀ (now : Date) w, Q w →
      post (fetchFailureOutcome candidate (toISOString now) error) w)
    (hfetch : ∀ url, bytesUrl pf candidate = .ok url → ∀ w, Q w →
      ∀ (r : Except JsError Bytes) w', env w (.fetchBytes url) r w' → guar w w' ∧
        (∀ bytes, r = .ok bytes → F bytes w') ∧ ∀ error, r = .error error → ∀ now : Date,
          post (fetchFailureOutcome candidate (toISOString now) error) w')
    (hstore : ∀ (now : Date) bytes w, F bytes w → Proc.Safe env rely guar
      (fun evidence w => post (.ok (.stored evidence)) w) w
      (s3StoreRawReplay bucket (storageInput pf candidate now bytes)))
    (h : P w) : Proc.Safe env rely guar post w (storeRawReplay pf bucket candidate) := by
  rw [storeRawReplay_eq]
  refine Proc.safe_call P hP (fun w h now w' hr => ⟨(hnow w h now w' hr).1, ?_⟩) h
  have hq := (hnow w h now w' hr).2
  cases hb : bytesUrl pf candidate with
  | error error => exact Proc.safe_pure (hpost _) (hurl error hb now w' hq)
  | ok url =>
    refine Proc.safe_call Q hQ ?_ hq
    intro w h r w' hr
    obtain ⟨hg, hok, herror⟩ := hfetch url hb w h r w' hr
    refine ⟨hg, ?_⟩
    cases r with
    | error error => exact Proc.safe_pure (hpost _) (herror error rfl now)
    | ok bytes =>
      exact Proc.safe_bind_of (hstore now bytes w' (hok bytes rfl)) fun evidence w h =>
        Proc.safe_pure (hpost _) h

end Rules

/-- A key tells the digest. -/
theorem rawKey_injective : Function.Injective rawKey := by
  intro a b h
  have hlist := congrArg String.toList h
  simp only [rawKey, String.toList_append, List.append_assoc] at hlist
  exact String.toList_injective (List.append_cancel_right (List.append_cancel_left hlist))

end ReplaysFetcher
