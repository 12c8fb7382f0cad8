/-
  The requests the fetcher sends, and the services that answer them.

  `Effect` is the signature of every program of this development: the clock and timers, the log,
  the source, the S3 commands, the SQL statements.  `World` is what the services hold: the versions
  of every checkpoint object, the raw objects, the staging rows.

  `Backend.Step` says what each service may answer.  It is the documented behaviour of S3 and
  PostgreSQL, and the only place where it is written down:
  * a conditional PUT is atomic, and 412/409 is answered only when the condition is false;
  * GET and HEAD see the current object;
  * `INSERT … ON CONFLICT (checksum, object_key) DO NOTHING` looks at the arbiter first, and any
    other unique violation is error 23505.
  `Faults` says which transient failures are allowed on top: a request refused, or carried out with
  its reply lost.

  The marks are notes a wrapper around a dependency leaves in the record of a run; no service sees
  them.
-/
import ReplaysFetcher.Effectful.Exec
import ReplaysFetcher.Effectful.Async
import ReplaysFetcher.Effectful.Record
import ReplaysFetcher.Checkpoint
import ReplaysFetcher.Summary
import ReplaysFetcher.Time

namespace ReplaysFetcher

open Effectful

/-! ## Errors the adapters recognise -/

/-- S3 says that there is no such object, by name or by status. -/
def isNotFound : JsError → Bool
  | .s3Service name httpStatusCode => name = "NotFound" || httpStatusCode = some 404
  | _ => false

/-- S3 says that the condition of a PUT failed, or that another write was under way. -/
def isPreconditionFailed : JsError → Bool
  | .s3Service name httpStatusCode =>
    name = "PreconditionFailed" || name = "ConditionalRequestConflict" ||
      httpStatusCode = some 412 || httpStatusCode = some 409
  | _ => false

/-- PostgreSQL's `unique_violation`. -/
def uniqueViolationCode : String := "23505"

/-- An INSERT ran into a unique constraint other than its arbiter. -/
def isUniqueViolation (error : JsError) : Bool := error.code = some uniqueViolationCode

/-! ## Requests -/

/-- The condition headers of a checkpoint PUT. -/
inductive PutCondition
  | always
  | ifNoneMatch
  | ifMatch (etag : String)
  deriving DecidableEq, Repr

/-- What a caller passes to `write`: the ETag is the one it last saw. -/
structure CheckpointWriteInput where
  checkpoint : Checkpoint
  etag : Option String := none
  slug : String

/-- What a run passes to the injected `discoverReplays`. -/
structure DiscoverInput where
  attempts : Option ℕ := none
  maxPages : Option ℕ := none
  sourceUrl : Url
  deriving DecidableEq, Repr

/-- The fields of a HEAD reply that are read. -/
structure HeadObjectOutput where
  contentLength : Option ℕ := none
  sha256 : Option String := none
  deriving DecidableEq, Repr

/-- The fields of a GET reply that are read; the body is its text. -/
structure GetObjectOutput (Text : Type) where
  body : Option Text := none
  etag : Option String := none

/-- A row of the staging table, as the lookups select it. -/
structure StagingRow where
  id : String
  checksum : String
  objectKey : String
  sourceReplayId : String
  sourceSystem : String
  status : String
  deriving DecidableEq, Repr

/-- The two events that a failed list read is logged as. -/
inductive PageFailureEvent
  | pageFailed | sourceUnavailable
  deriving DecidableEq, Repr

/-- The log lines of a run. -/
inductive LogLine
  | runStart (runId sourceUrl : String)
  | checkpointMissing (slug : String)
  | completeResumed (explicitResume : Bool) (slug : String)
  | pageComplete (page : ℕ) (counts : PageCounts) (pagesPerMinute candidatesPerMinute : ℚ)
  | pageFailure (event : PageFailureEvent) (page : ℕ) (failure : RunSourceFailure)
  | checkpointWriteFailed (err : JsError) (page : ℕ) (slug : String)
  | finalCheckpointWriteFailed (err : JsError) (slug : String)
  | runComplete (runId : String) (status : RunStatus) (counts : RunSummaryCounts)
  | runPartial (runId : String) (status : RunStatus) (counts : RunSummaryCounts)
  | evidenceWriteFailed (err : JsError) (runId : String)
  | watchCycleComplete (summary : CompactRunSummary)
  | watchCycleFailed (error : JsError)

/-- Notes around a checkpoint write. -/
inductive Mark
  | writeCall (input : CheckpointWriteInput)
  | writeAck (input : CheckpointWriteInput)

/-- One request, or one thing that the code asks its process for. -/
inductive Effect (Text : Type)
  | now
  | sleep (milliseconds : ℕ)
  | random
  | awaitFloor
  | log (line : LogLine)
  | mark (mark : Mark)
  | discoverReplays (input : DiscoverInput)
  | fetchText (url : Url)
  | fetchBytes (url : Url)
  | headObject (key : String)
  | putObject (key : String) (bytes : Bytes) (sha256 : String)
  | getCheckpoint (key : String)
  | putCheckpoint (key : String) (body : Text) (condition : PutCondition)
  | putEvidence (runId : String) (summary : RunSummary)
  | writeEvidenceFile (path : String) (summary : RunSummary)
  | insertStaging (payload : IngestStagingPayload)
  | findBySourceIdentity (sourceSystem sourceReplayId : String)
  | findByObjectIdentity (checksum objectKey : String)
  | existsBySourceIdentity (sourceSystem sourceReplayId : String)
  | createRunId (now : Date)
  | shouldStop
  | writeHeartbeat (path timestamp : String)

/-- The replies.  `insertStaging` answers the id of the RETURNING row, a lookup its first row. -/
@[reducible] def Reply {Text : Type} : Effect Text → Type
  | .now => Date
  | .sleep _ => Unit
  | .random => ℚ
  | .awaitFloor => Unit
  | .log _ => Unit
  | .mark _ => Unit
  | .discoverReplays _ => Except JsError DiscoveryReport
  | .fetchText _ => Except JsError String
  | .fetchBytes _ => Except JsError Bytes
  | .headObject _ => Except JsError HeadObjectOutput
  | .putObject _ _ _ => Except JsError Unit
  | .getCheckpoint _ => Except JsError (GetObjectOutput Text)
  | .putCheckpoint _ _ _ => Except JsError (Option String)
  | .putEvidence _ _ => Except JsError Unit
  | .writeEvidenceFile _ _ => Except JsError Unit
  | .insertStaging _ => Except JsError (Option String)
  | .findBySourceIdentity _ _ => Except JsError (Option StagingRow)
  | .findByObjectIdentity _ _ => Except JsError (Option StagingRow)
  | .existsBySourceIdentity _ _ => Except JsError Bool
  | .createRunId _ => String
  | .shouldStop => Bool
  | .writeHeartbeat _ _ => Except JsError Unit

/-- The programs of this development. -/
abbrev Program (Text : Type) (α : Type) : Type 1 := Proc (Effect Text) Reply α

/-- The programs that may reject. -/
abbrev Task (Text : Type) (α : Type) : Type 1 := Async (Effect Text) Reply JsError α

/-! ## Services -/

/-- A stored replay, with the digest in its metadata. -/
structure RawObject where
  bytes : Bytes
  sha256 : Option String
  deriving DecidableEq, Repr

/-- One committed version of a checkpoint object. -/
structure Version (Text : Type) where
  body : Text
  etag : String

/-- What the services hold. -/
structure World (Text : Type) where
  /-- The versions of each checkpoint object, the current one first. -/
  checkpoints : String → List (Version Text)
  raw : String → Option RawObject
  staging : List StagingRow

namespace World

variable {Text : Type} (w : World Text)

/-- The version that a GET sees. -/
def current (key : String) : Option (Version Text) := (w.checkpoints key).head?

/-- A PUT that is carried out: the version becomes the current one. -/
def pushVersion (key : String) (version : Version Text) : World Text :=
  { w with checkpoints := Function.update w.checkpoints key (version :: w.checkpoints key) }

/-- Earlier versions stay behind the new one. -/
@[simp] theorem checkpoints_pushVersion (key : String) (version : Version Text) :
    (w.pushVersion key version).checkpoints key = version :: w.checkpoints key :=
  Function.update_self ..

/-- The version that was put is the current one. -/
@[simp] theorem current_pushVersion (key : String) (version : Version Text) :
    (w.pushVersion key version).current key = some version := by
  unfold current
  rw [checkpoints_pushVersion]
  rfl

/-- A PUT of a raw object replaces what its key held. -/
def putRaw (key : String) (object : RawObject) : World Text :=
  { w with raw := Function.update w.raw key (some object) }

/-- An INSERT that is carried out. -/
def addRow (row : StagingRow) : World Text := { w with staging := w.staging ++ [row] }

/-- The row of a source identity, if there is one. -/
def rowBySource? (sourceSystem sourceReplayId : String) : Option StagingRow :=
  w.staging.find? fun row => row.sourceSystem = sourceSystem && row.sourceReplayId = sourceReplayId

/-- The row of an object identity, if there is one. -/
def rowByObject? (checksum objectKey : String) : Option StagingRow :=
  w.staging.find? fun row => row.checksum = checksum && row.objectKey = objectKey

end World

/-- The row an INSERT of `payload` adds. -/
def IngestStagingPayload.toRow (payload : IngestStagingPayload) (id : String) : StagingRow where
  id := id
  checksum := payload.checksum
  objectKey := payload.objectKey
  sourceReplayId := payload.sourceReplayId
  sourceSystem := payload.sourceSystem
  status := "pending"

/-- Is the condition of a PUT true of the current version? -/
def PutCondition.holds {Text : Type} (current : Option (Version Text)) : PutCondition → Prop
  | .always => True
  | .ifNoneMatch => current = none
  | .ifMatch etag => ∃ version, current = some version ∧ version.etag = etag

/-- The transient failures that may occur. -/
structure Faults where
  /-- byte reads may fail -/
  bytes : Bool := false
  /-- raw storage requests may fail, a PUT also after it was carried out -/
  raw : Bool := false
  /-- staging statements may fail, an INSERT also after it was carried out -/
  staging : Bool := false
  /-- a checkpoint GET may fail -/
  checkpointGet : Bool := false
  /-- a checkpoint PUT may fail without being carried out -/
  checkpointPut : Bool := false
  /-- a checkpoint PUT may be carried out and then report an error -/
  checkpointLostAck : Bool := false

/-- The services of one deployment. -/
structure Backend (Text : Type) where
  faults : Faults := {}
  /-- what `discoverReplays` may report -/
  reports : DiscoverInput → Except JsError DiscoveryReport → Prop
  /-- what the source may serve as text -/
  pageText : Url → Except JsError String → Prop
  /-- what the source may serve as bytes -/
  served : Url → Bytes → Prop
  /-- the ETags a version with this body may get -/
  tag : Text → String → Prop

/-- A request to the services, with its reply. -/
abbrev FetchEvent (Text : Type) : Type := Event (World Text) (Effect Text) Reply

/-- The services, with what each component has asked them. -/
abbrev RecordedWorld (ι Text : Type) : Type := Recorded ι (World Text) (Effect Text) Reply

/-- What a component has asked, and was told. -/
abbrev Conversation (Text : Type) : Type := List (Σ e : Effect Text, Reply e)

namespace Backend

variable {Text : Type} (b : Backend Text)

/-- HEAD: the object's length and digest, or `NotFound`; or the request fails. -/
def StepHead (w : World Text) (key : String) (r : Except JsError HeadObjectOutput) : Prop :=
  (match w.raw key with
    | some object => r = .ok { contentLength := some object.bytes.length, sha256 := object.sha256 }
    | none => ∃ e, isNotFound e ∧ r = .error e) ∨
  (b.faults.raw ∧ ∃ e, isNotFound e = false ∧ r = .error e)

/-- PUT of a raw object: carried out, acknowledged or not; or it fails before that. -/
def StepPutObject (w : World Text) (key : String) (bytes : Bytes) (sha256 : String)
    (r : Except JsError Unit) (w' : World Text) : Prop :=
  (w' = w.putRaw key { bytes, sha256 := some sha256 } ∧
    (r = .ok () ∨ b.faults.raw ∧ ∃ e, r = .error e)) ∨
  (b.faults.raw ∧ w' = w ∧ ∃ e, r = .error e)

/-- GET of a checkpoint: the current version, or `NotFound`; or the request fails. -/
def StepGetCheckpoint (w : World Text) (key : String)
    (r : Except JsError (GetObjectOutput Text)) : Prop :=
  (match w.current key with
    | some version => r = .ok { body := some version.body, etag := some version.etag }
    | none => ∃ e, isNotFound e ∧ r = .error e) ∨
  (b.faults.checkpointGet ∧ ∃ e, isNotFound e = false ∧ r = .error e)

/-- PUT of a checkpoint: carried out only under its condition, and refused only against it. -/
def StepPutCheckpoint (w : World Text) (key : String) (body : Text) (condition : PutCondition)
    (r : Except JsError (Option String)) (w' : World Text) : Prop :=
  (condition.holds (w.current key) ∧ ∃ etag, b.tag body etag ∧
    w' = w.pushVersion key { body, etag } ∧
    (r = .ok (some etag) ∨
      b.faults.checkpointLostAck ∧ ∃ e, isPreconditionFailed e = false ∧ r = .error e)) ∨
  (w' = w ∧ ∃ e, r = .error e ∧
    ((isPreconditionFailed e ∧ ¬ condition.holds (w.current key)) ∨
      (b.faults.checkpointPut ∧ isPreconditionFailed e = false)))

/-- INSERT: the arbiter first, then the other unique constraint, then a new row. -/
def StepInsert (w : World Text) (payload : IngestStagingPayload)
    (r : Except JsError (Option String)) (w' : World Text) : Prop :=
  (if (w.rowByObject? payload.checksum payload.objectKey).isSome then w' = w ∧ r = .ok none
    else if (w.rowBySource? payload.sourceSystem payload.sourceReplayId).isSome then
      w' = w ∧ ∃ e, isUniqueViolation e ∧ r = .error e
    else ∃ id, w' = w.addRow (payload.toRow id) ∧
      (r = .ok (some id) ∨ b.faults.staging ∧ ∃ e, isUniqueViolation e = false ∧ r = .error e)) ∨
  (b.faults.staging ∧ w' = w ∧ ∃ e, isUniqueViolation e = false ∧ r = .error e)

/-- The answer of a SELECT, or a database error. -/
def StepSelect {α : Type} (answer : α) (r : Except JsError α) : Prop :=
  r = .ok answer ∨ (b.faults.staging ∧ ∃ e, isUniqueViolation e = false ∧ r = .error e)

/-- What the services may answer, and what they hold afterwards. -/
def Step : Env (World Text) (Effect Text) Reply
  | w, .now, _, w' => w' = w
  | w, .sleep _, _, w' => w' = w
  | w, .random, _, w' => w' = w
  | w, .awaitFloor, _, w' => w' = w
  | w, .log _, _, w' => w' = w
  | w, .mark _, _, w' => w' = w
  | w, .discoverReplays input, r, w' => w' = w ∧ b.reports input r
  | w, .fetchText url, r, w' => w' = w ∧ b.pageText url r
  | w, .fetchBytes url, r, w' => w' = w ∧
    ((∃ bytes, b.served url bytes ∧ r = .ok bytes) ∨
      (b.faults.bytes ∧ ∃ code message, r = .error (.replayByteFetch code message)))
  | w, .headObject key, r, w' => w' = w ∧ b.StepHead w key r
  | w, .putObject key bytes sha256, r, w' => b.StepPutObject w key bytes sha256 r w'
  | w, .getCheckpoint key, r, w' => w' = w ∧ b.StepGetCheckpoint w key r
  | w, .putCheckpoint key body condition, r, w' => b.StepPutCheckpoint w key body condition r w'
  | w, .putEvidence _ _, _, w' => w' = w
  | w, .writeEvidenceFile _ _, _, w' => w' = w
  | w, .insertStaging payload, r, w' => b.StepInsert w payload r w'
  | w, .findBySourceIdentity sourceSystem sourceReplayId, r, w' =>
    w' = w ∧ b.StepSelect (w.rowBySource? sourceSystem sourceReplayId) r
  | w, .findByObjectIdentity checksum objectKey, r, w' =>
    w' = w ∧ b.StepSelect (w.rowByObject? checksum objectKey) r
  | w, .existsBySourceIdentity sourceSystem sourceReplayId, r, w' =>
    w' = w ∧ b.StepSelect (w.rowBySource? sourceSystem sourceReplayId).isSome r
  | w, .createRunId _, _, w' => w' = w
  | w, .shouldStop, _, w' => w' = w
  | w, .writeHeartbeat _ _, _, w' => w' = w

/-- No request deletes a staging row. -/
theorem staging_prefix {b : Backend Text} {w w' : World Text} {e : Effect Text} {r : Reply e}
    (h : b.Step w e r w') : w.staging <+: w'.staging := by
  have hsame : ∀ {w'' : World Text}, w'' = w → w.staging <+: w''.staging := by
    rintro _ rfl
    exact List.prefix_refl _
  cases e with
  | putObject key bytes sha256 =>
    rcases h with ⟨rfl, _⟩ | ⟨_, hw, _⟩
    · exact List.prefix_refl _
    · exact hsame hw
  | putCheckpoint key body condition =>
    rcases h with ⟨_, etag, _, rfl, _⟩ | ⟨hw, _⟩
    · exact List.prefix_refl _
    · exact hsame hw
  | insertStaging payload =>
    rcases h with h | ⟨_, hw, _⟩
    · -- the INSERT was carried out up to a unique constraint
      split at h
      · exact hsame h.1
      · split at h
        · exact hsame h.1
        · -- a new row stands behind the others
          obtain ⟨id, rfl, _⟩ := h
          exact List.prefix_append _ _
    · exact hsame hw
  | now | sleep _ | random | awaitFloor | log _ | mark _ => exact hsame h
  | putEvidence _ _ | writeEvidenceFile _ _ => exact hsame h
  | createRunId _ | shouldStop | writeHeartbeat _ _ => exact hsame h
  | discoverReplays _ | fetchText _ | fetchBytes _ | headObject _ | getCheckpoint _ => exact hsame h.1
  | findBySourceIdentity _ _ | findByObjectIdentity _ _ | existsBySourceIdentity _ _ =>
    exact hsame h.1

end Backend

/-! ## A server to compute with

  One particular behaviour of the services: nothing fails but what the script says, ETags and row
  ids are numbered. -/

/-- What the source serves, and what a run discovers. -/
structure Script where
  reports : DiscoverInput → Except JsError DiscoveryReport
  pageText : Url → Except JsError String := fun _ => .ok ""
  bytes : Url → Except JsError Bytes

namespace Script

variable {Text : Type} (script : Script)

/-- Is the condition of a PUT true?  `PutCondition.holds`, computed. -/
def conditionHolds (current : Option (Version Text)) : PutCondition → Bool
  | .always => true
  | .ifNoneMatch => current.isNone
  | .ifMatch etag => current.any fun version => version.etag = etag

/-- The reply to a request, and what the services hold then. -/
def serve (w : World Text) : (e : Effect Text) → Reply e × World Text
  | .now => ((0 : ℤ), w)
  | .sleep _ => ((), w)
  | .random => ((0 : ℚ), w)
  | .awaitFloor => ((), w)
  | .log _ => ((), w)
  | .mark _ => ((), w)
  | .discoverReplays input => (script.reports input, w)
  | .fetchText url => (script.pageText url, w)
  | .fetchBytes url => (script.bytes url, w)
  | .headObject key =>
    match w.raw key with
    | some object =>
      (.ok { contentLength := some object.bytes.length, sha256 := object.sha256 }, w)
    | none => (.error (.s3Service "NotFound" (some 404)), w)
  | .putObject key bytes sha256 => (.ok (), w.putRaw key { bytes, sha256 := some sha256 })
  | .getCheckpoint key =>
    match w.current key with
    | some version => (.ok { body := some version.body, etag := some version.etag }, w)
    | none => (.error (.s3Service "NotFound" (some 404)), w)
  | .putCheckpoint key body condition =>
    if conditionHolds (w.current key) condition then
      (.ok (some (toString (w.checkpoints key).length)),
        w.pushVersion key { body, etag := toString (w.checkpoints key).length })
    else (.error (.s3Service "PreconditionFailed" (some 412)), w)
  | .putEvidence _ _ => (.ok (), w)
  | .writeEvidenceFile _ _ => (.ok (), w)
  | .insertStaging payload =>
    if (w.rowByObject? payload.checksum payload.objectKey).isSome then (.ok none, w)
    else if (w.rowBySource? payload.sourceSystem payload.sourceReplayId).isSome then
      (.error (.database (some "23505")), w)
    else (.ok (some (toString w.staging.length)),
      w.addRow (payload.toRow (toString w.staging.length)))
  | .findBySourceIdentity sourceSystem sourceReplayId =>
    (.ok (w.rowBySource? sourceSystem sourceReplayId), w)
  | .findByObjectIdentity checksum objectKey => (.ok (w.rowByObject? checksum objectKey), w)
  | .existsBySourceIdentity sourceSystem sourceReplayId =>
    (.ok (w.rowBySource? sourceSystem sourceReplayId).isSome, w)
  | .createRunId _ => ("run", w)
  | .shouldStop => (false, w)
  | .writeHeartbeat _ _ => (.ok (), w)

/-- The computed condition is the condition. -/
theorem conditionHolds_iff {current : Option (Version Text)} {condition : PutCondition} :
    conditionHolds current condition = true ↔ condition.holds current := by
  cases condition <;> cases current <;> simp [conditionHolds, PutCondition.holds]

/-- The script's behaviour is one the services may show. -/
theorem step_serve {b : Backend Text} (hreports : ∀ input, b.reports input (script.reports input))
    (htext : ∀ url, b.pageText url (script.pageText url))
    (hbytes : ∀ url, (∃ bytes, b.served url bytes ∧ script.bytes url = .ok bytes) ∨
      (b.faults.bytes ∧ ∃ code message, script.bytes url = .error (.replayByteFetch code message)))
    (htag : ∀ body etag, b.tag body etag) (w : World Text) (e : Effect Text) :
    b.Step w e (script.serve w e).1 (script.serve w e).2 := by
  cases e with
  | now | sleep _ | random | awaitFloor | log _ | mark _ => exact rfl
  | putEvidence _ _ | writeEvidenceFile _ _ => exact rfl
  | createRunId _ | shouldStop | writeHeartbeat _ _ => exact rfl
  | discoverReplays input => exact ⟨rfl, hreports input⟩
  | fetchText url => exact ⟨rfl, htext url⟩
  | fetchBytes url => exact ⟨rfl, hbytes url⟩
  | headObject key =>
    cases h : w.raw key with
    | none =>
      refine ⟨by simp only [serve, h], Or.inl ?_⟩
      simp only [serve, h]
      exact ⟨_, by decide, rfl⟩
    | some object =>
      refine ⟨by simp only [serve, h], Or.inl ?_⟩
      simp only [serve, h]
  | putObject key bytes sha256 => exact Or.inl ⟨rfl, Or.inl rfl⟩
  | getCheckpoint key =>
    cases h : w.current key with
    | none =>
      refine ⟨by simp only [serve, h], Or.inl ?_⟩
      simp only [serve, h]
      exact ⟨_, by decide, rfl⟩
    | some version =>
      refine ⟨by simp only [serve, h], Or.inl ?_⟩
      simp only [serve, h]
  | putCheckpoint key body condition =>
    by_cases h : conditionHolds (w.current key) condition = true
    · refine Or.inl ⟨conditionHolds_iff.1 h, toString (w.checkpoints key).length, htag _ _, ?_⟩
      simp only [serve, h, if_true]
      exact ⟨trivial, Or.inl trivial⟩
    · -- 412, and the condition is false
      refine Or.inr ?_
      simp only [serve, h]
      exact ⟨rfl, _, rfl, Or.inl ⟨by decide, fun hc => h (conditionHolds_iff.2 hc)⟩⟩
  | insertStaging payload =>
    refine Or.inl ?_
    by_cases hobject : (w.rowByObject? payload.checksum payload.objectKey).isSome
    · -- the arbiter has the pair: no row, no error
      simp only [serve, hobject, if_true]
      exact ⟨trivial, trivial⟩
    · by_cases hsource : (w.rowBySource? payload.sourceSystem payload.sourceReplayId).isSome
      · -- another row has the source identity
        simp only [serve, hobject, hsource, if_true]
        exact ⟨rfl, _, by decide, rfl⟩
      · simp only [serve, hobject, hsource]
        exact ⟨_, rfl, Or.inl rfl⟩
  | findBySourceIdentity _ _ => exact ⟨rfl, Or.inl rfl⟩
  | findByObjectIdentity _ _ => exact ⟨rfl, Or.inl rfl⟩
  | existsBySourceIdentity _ _ => exact ⟨rfl, Or.inl rfl⟩

end Script

/-! ## One replay on one source -/

/-- A candidate with an id. -/
def toyCandidate : ReplayCandidate where
  identity := { filename := "a.ocap" }
  source := { externalId := some "1", url := "a" }

/-- A source that serves one byte, whatever is asked. -/
def toyScript : Script where
  reports _ := .error (.error "no list")
  bytes _ := .ok [7]

/-- The services that behave as `toyScript` does. -/
def toyServices : Backend (Option Json) where
  reports _ r := r = .error (.error "no list")
  pageText _ r := r = .ok ""
  served _ bytes := bytes = [7]
  tag _ _ := True

/-- The script's replies are theirs. -/
theorem step_toyScript (w : World (Option Json)) (e : Effect (Option Json)) :
    toyServices.Step w e (toyScript.serve w e).1 (toyScript.serve w e).2 :=
  toyScript.step_serve (fun _ => rfl) (fun _ => rfl) (fun _ => Or.inl ⟨[7], rfl, rfl⟩)
    (fun _ _ => trivial) w e

/-- Nothing is stored and nothing staged. -/
def emptyWorld : World (Option Json) where
  checkpoints _ := []
  raw _ := none
  staging := []

end ReplaysFetcher
