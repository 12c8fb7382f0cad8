/-
  A run wired to its services (`src/commands/run-once.ts`).

  `runOnce` is written against injected dependencies; here they are the requests of `Effect`, the S3
  raw storage and the PostgreSQL staging repository.  The checkpoint store stays a parameter, so that
  it can be the store itself or the store with its notes in the record.
-/
import ReplaysFetcher.RunOnceRules

namespace ReplaysFetcher

open Effectful

/-- What one invocation is configured with.  A run id is never empty. -/
structure RunConfig where
  attempts : Option ℕ := none
  bucket : String
  checkpointOptions : CheckpointStoreOptions
  concurrency : ℕ
  emitEvidence : Option Bool := none
  evidenceFile : Option String := none
  maxPages : Option ℕ := none
  requestSpacingMs : ℕ
  resume : Option Bool := none
  runId : String
  runId_ne_empty : runId ≠ ""
  sourceUrl : Url

section Wiring

variable {Text : Type} (pf : Platform Text) (config : RunConfig)

/-- What `run-once` passes to the run, with a checkpoint store of its own. -/
def RunConfig.toInput (store : CheckpointStore (Effect Text) Reply) :
    RunOnceInput (Effect Text) Reply where
  attempts := config.attempts
  awaitFloor := Proc.perform Effect.awaitFloor
  checkpointStore := store
  concurrency := config.concurrency
  discoverReplays input := Proc.perform (Effect.discoverReplays input)
  emitEvidence := config.emitEvidence
  evidenceFile := config.evidenceFile
  evidenceStore := some fun runId summary => Proc.perform (Effect.putEvidence runId summary)
  log := some fun line => Proc.perform (Effect.log line)
  maxPages := config.maxPages
  now := nowRequest
  requestSpacingMs := config.requestSpacingMs
  resume := config.resume
  runId := config.runId
  sourceUrl := config.sourceUrl
  stageRawReplay := stageRawReplay pf
  storeRawReplay := storeRawReplay pf config.bucket
  writeEvidenceFile := some fun path summary => Proc.perform (Effect.writeEvidenceFile path summary)

/-- The checkpoint store of the invocation. -/
def RunConfig.store : CheckpointStore (Effect Text) Reply :=
  createS3CheckpointStore pf config.checkpointOptions

/-- The invocation. -/
def RunConfig.run : Task Text RunOnceResult := runOnce pf (config.toInput pf (config.store pf))

/-- The invocation, with a note in the record around each checkpoint write. -/
def RunConfig.markedRun : Task Text RunOnceResult :=
  runOnce pf (config.toInput pf (config.store pf).marked)

/-- What the invocation writes is valid when every page has a number and a status. -/
theorem RunConfig.valid_checkpointAt {built : BuildCheckpointInput} (startedAt : Date)
    (hslug : built.slug = pf.withoutUserinfo config.sourceUrl)
    (hstarted : built.startedAt = toISOString startedAt)
    (hpages : ∀ key entry, built.pages.lookup key = some entry →
      key ≠ PROTO_KEY ∧ entry.status ≠ "") (now : Date) :
    (checkpointAt config.runId built now).Valid where
  createdAt := by
    show built.startedAt ≠ ""
    rw [hstarted]
    exact toISOString_ne_empty _
  pages := hpages
  runId := config.runId_ne_empty
  sourceUrl := by
    show built.slug ≠ ""
    rw [hslug]
    exact pf.urlToString_ne_empty _
  updatedAt := toISOString_ne_empty _

end Wiring

/-! ## Which requests which part sends -/

section Requests

variable {Text : Type}

/-- The clock, the pacer, the log and the evidence. -/
def IsIncidental : Effect Text → Prop
  | .now | .awaitFloor | .log _ | .putEvidence _ _ | .writeEvidenceFile _ _ => True
  | _ => False

/-- No request to the checkpoint object, and no note about one. -/
def OffCheckpoint : Effect Text → Prop
  | .getCheckpoint _ | .putCheckpoint _ _ _ | .mark _ => False
  | _ => True

/-- What the fan-out of a page sends: clock, bytes, raw objects, staging rows. -/
def IsIngest : Effect Text → Prop
  | .now | .fetchBytes _ | .headObject _ | .putObject _ _ _ | .insertStaging _
  | .findBySourceIdentity _ _ | .findByObjectIdentity _ _ | .existsBySourceIdentity _ _ => True
  | _ => False

/-- What the S3 adapter and the staging repository send. -/
def IsStorage : Effect Text → Prop
  | .headObject _ | .putObject _ _ _ | .insertStaging _ | .findBySourceIdentity _ _
  | .findByObjectIdentity _ _ => True
  | _ => False

/-- What the checkpoint store sends. -/
def IsCheckpoint : Effect Text → Prop
  | .random | .sleep _ | .getCheckpoint _ | .putCheckpoint _ _ _ => True
  | _ => False

/-- What is asked on the side does not touch a checkpoint. -/
theorem offCheckpoint_of_incidental {e : Effect Text} (h : IsIncidental e) : OffCheckpoint e := by
  cases e <;> first | exact h.elim | trivial

/-- Storing and staging is ingesting. -/
theorem ingest_of_storage {e : Effect Text} (h : IsStorage e) : IsIngest e := by
  cases e <;> first | exact h.elim | trivial

/-- Ingesting does not touch a checkpoint. -/
theorem offCheckpoint_of_ingest {e : Effect Text} (h : IsIngest e) : OffCheckpoint e := by
  cases e <;> first | exact h.elim | trivial

/-- The dependencies that only send incidental requests are quiet if these are. -/
theorem RunConfig.quiet {W : Type} {env : Env W (Effect Text) Reply} {rely guar : W → W → Prop}
    (pf : Platform Text) (config : RunConfig) (store : CheckpointStore (Effect Text) Reply)
    (h : ∀ e, IsIncidental e → ∀ w r w', env w e r w' → guar w w' ∧ rely w w') :
    RunSpec.Quiet env rely guar (config.toInput pf store) where
  awaitFloor := Proc.quiet_perform (h _ trivial)
  now := Proc.quiet_perform (h _ trivial)
  log line := Proc.quiet_perform (h (.log line) trivial)
  evidenceStore := by
    rintro _ ⟨⟩ runId summary
    exact Proc.quiet_perform (h (.putEvidence runId summary) trivial)
  writeEvidenceFile := by
    rintro _ ⟨⟩ path summary
    exact Proc.quiet_perform (h (.writeEvidenceFile path summary) trivial)

variable {pf : Platform Text} {bucket : String}

/-- The S3 adapter asks the store. -/
theorem asks_s3StoreRawReplay (input : RawReplayStorageInput) :
    Proc.Asks IsStorage
      (s3StoreRawReplay bucket input : Program Text RawReplayStorageEvidence) := by
  rw [s3StoreRawReplay_eq]
  refine ⟨trivial, fun head => ?_⟩
  cases head with
  | ok output => trivial
  | error error =>
    dsimp only
    split
    · exact ⟨trivial, fun _ => trivial⟩
    · trivial

/-- Storing a candidate asks the source for its bytes, too. -/
theorem asks_storeRawReplay (candidate : ReplayCandidate) :
    Proc.Asks IsIngest
      (storeRawReplay pf bucket candidate : Program Text (Except JsError StoreRawReplayResult)) := by
  rw [storeRawReplay_eq]
  refine ⟨trivial, fun now => ?_⟩
  split
  · trivial
  · refine ⟨trivial, fun r => ?_⟩
    cases r with
    | error error => trivial
    | ok bytes => exact ((asks_s3StoreRawReplay _).mono fun _ => ingest_of_storage).bind fun _ => trivial

/-- The lookups ask the table. -/
theorem asks_classifyExistingStaging (payload : IngestStagingPayload) :
    Proc.Asks IsStorage
      (classifyExistingStaging payload : Program Text (Except JsError IngestStagingResult)) := by
  rw [classifyExistingStaging_eq]
  refine ⟨trivial, fun r => ?_⟩
  match r with
  | .error error => trivial
  | .ok (some row) => trivial
  | .ok none =>
    refine ⟨trivial, fun r => ?_⟩
    match r with
    | .error error => trivial
    | .ok (some row) => trivial
    | .ok none => trivial

/-- So does staging a payload. -/
theorem asks_stage (payload : IngestStagingPayload) :
    Proc.Asks IsStorage (stage payload : Program Text (Except JsError IngestStagingResult)) := by
  have herror : ∀ error, Proc.Asks IsStorage (stageError payload error :
      Program Text (Except JsError IngestStagingResult)) := by
    intro error
    unfold stageError
    split
    · exact asks_classifyExistingStaging payload
    · trivial
  rw [stage_eq]
  refine ⟨trivial, fun r => ?_⟩
  match r with
  | .error error => exact herror error
  | .ok (some id) => trivial
  | .ok none =>
    refine ⟨trivial, fun r => ?_⟩
    match r with
    | .error error => exact herror error
    | .ok (some row) => trivial
    | .ok none => exact asks_classifyExistingStaging payload

/-- So does staging a raw result. -/
theorem asks_stageRawReplay (rawResult : StoreRawReplayResult) (runId : Option String) :
    Proc.Asks IsStorage (stageRawReplay pf rawResult runId :
      Program Text (Except JsError IngestStagingResult)) := by
  unfold stageRawReplay
  split
  · trivial
  · split
    · trivial
    · exact asks_stage _

/-- The fan-out of a run. -/
theorem asks_ingestPage (input : IngestPageInput (Effect Text) Reply)
    (hstore : input.storeRawReplay = storeRawReplay pf bucket)
    (hstage : input.stageRawReplay = stageRawReplay pf)
    (hgate : input.existsBySourceIdentity = none) :
    Proc.Asks IsIngest
      (ingestPage input : Program Text (Except JsError IngestPageResult)) := by
  refine asks_ingestPage_of (fun candidate => ?_) (fun rawResult runId => ?_) fun gate hsome => ?_
  · rw [hstore]
    exact asks_storeRawReplay candidate
  · rw [hstage]
    exact (asks_stageRawReplay rawResult runId).mono fun _ => ingest_of_storage
  · rw [hgate] at hsome
    cases hsome

variable {options : CheckpointStoreOptions} {slug : String}

/-- A read asks for the checkpoint. -/
theorem asks_readCheckpoint : Proc.Asks IsCheckpoint (readCheckpoint pf options slug :
    Program Text (Except JsError CheckpointReadResult)) := by
  cases hkey : checkpointKey pf options slug with
  | ok key =>
    rw [readCheckpoint_eq hkey]
    exact ⟨trivial, fun _ => trivial⟩
  | error error =>
    unfold readCheckpoint
    rw [Async.bind_eq, hkey]
    trivial

/-- Without a key every PUT fails before it is sent, and not with a failed condition. -/
theorem casRounds_error {error : JsError} (hkey : checkpointKey pf options slug = .error error)
    (hpre : isPreconditionFailed error = false) (n : ℕ) (intended : Checkpoint)
    (etag : Option String) : casRounds pf options slug (n + 1) intended etag = throw error := by
  have hput : putCheckpoint pf options { checkpoint := intended, etag, slug } = throw error := by
    unfold putCheckpoint
    rw [hkey]
    rfl
  rw [casRounds, hput]
  show (if isPreconditionFailed error then _ else _ : Task Text (Option String)) = _
  rw [hpre]
  rfl

/-- The key is refused by plain errors only. -/
theorem isPreconditionFailed_of_key {error : JsError}
    (hkey : checkpointKey pf options slug = .error error) : isPreconditionFailed error = false := by
  unfold checkpointKey newUrl at hkey
  cases hurl : pf.parseUrl slug with
  | none =>
    rw [hurl] at hkey
    cases hkey
    rfl
  | some url =>
    rw [hurl] at hkey
    replace hkey : toCheckpointObjectKey options.keyPrefix url = .error error := hkey
    unfold toCheckpointObjectKey at hkey
    split_ifs at hkey <;> cases hkey <;> rfl

/-- A write asks for the checkpoint, the timer and the dice. -/
theorem asks_writeCheckpoint (input : CheckpointWriteInput) :
    Proc.Asks IsCheckpoint (writeCheckpoint pf options input :
      Program Text (Except JsError (Option String))) := by
  cases hkey : checkpointKey pf options input.slug with
  | error error =>
    unfold writeCheckpoint
    rw [show MAX_CAS_ROUNDS = 4 + 1 from rfl,
      casRounds_error hkey (isPreconditionFailed_of_key hkey)]
    trivial
  | ok key =>
    have hrounds : ∀ n intended etag, Proc.Asks IsCheckpoint (casRounds pf options input.slug n
        intended etag : Program Text (Except JsError (Option String))) := by
      intro n
      induction n with
      | zero => exact fun _ _ => trivial
      | succ n ih =>
        intro intended etag
        rw [casRounds_succ hkey]
        refine ⟨trivial, fun r => ?_⟩
        cases r with
        | ok etag => trivial
        | error error =>
          dsimp only
          split
          · refine ⟨trivial, fun r => ⟨trivial, fun _ => ⟨trivial, fun r => ?_⟩⟩⟩
            dsimp only
            split
            · exact ih _ _
            · trivial
          · trivial
    exact hrounds _ _ _

end Requests

/-! ## A run to compute with -/

/-- The report of a page that was read. -/
def okReport (candidates : List ReplayCandidate) : DiscoveryReport where
  candidates := candidates
  counts :=
    { candidates := candidates.length, diagnostics := 0, discovered := candidates.length
      skippedPreDetail := 0 }
  diagnostics := []
  ok := true
  sourceUrl := "//a"

/-- The services of a script in which every byte read succeeds. -/
def Script.services {Text : Type} (script : Script) : Backend Text where
  reports input r := r = script.reports input
  pageText url r := r = script.pageText url
  served url bytes := script.bytes url = .ok bytes
  tag _ _ := True

/-- The script's replies are those of its services. -/
theorem Script.step_services {Text : Type} {script : Script}
    (hbytes : ∀ url, ∃ bytes, script.bytes url = .ok bytes) (w : World Text) (e : Effect Text) :
    (script.services : Backend Text).Step w e (script.serve w e).1 (script.serve w e).2 :=
  script.step_serve (fun _ => rfl) (fun _ => rfl)
    (fun url => Or.inl ((hbytes url).imp fun _ h => ⟨h, h⟩)) (fun _ _ => trivial) w e

/-- One page with one candidate, then nothing. -/
def toyListing : Script where
  reports input := .ok (okReport (if input.sourceUrl.search = "" then [toyCandidate] else []))
  bytes _ := .ok [7]

/-- A run over the source `a`. -/
def toyConfig : RunConfig where
  bucket := "bucket"
  checkpointOptions := toyOptions
  concurrency := 1
  requestSpacingMs := 0
  runId := "run"
  runId_ne_empty := by decide
  sourceUrl := { protocol := "https:", host := "a", pathname := "" }

/-- Its checkpoint has the key of that source. -/
theorem checkpointKey_toyConfig : checkpointKey toyPlatform toyConfig.checkpointOptions
    (toyPlatform.withoutUserinfo toyConfig.sourceUrl) = .ok toyKey := rfl

/-- `n` steps of a run over an empty deployment. -/
def toyRecordedRun (n : ℕ) :
    RecordedWorld Unit (Option Json) × Task (Option Json) RunOnceResult :=
  Proc.exec (recordServe toyListing.serve ()) n
    ((emptyWorld, fun _ => []), toyConfig.markedRun toyPlatform)

/-- `n` steps of the same run, without the record. -/
def toyRun (n : ℕ) : World (Option Json) × Task (Option Json) RunOnceResult :=
  Proc.exec toyListing.serve n (emptyWorld, toyConfig.markedRun toyPlatform)

/-- The conversation it held; the lists were the script's. -/
theorem emits_toyRun {n : ℕ} {r : Except JsError RunOnceResult}
    (h : (toyRun n).2 = Proc.pure r) : ∃ l, Emits (toyConfig.markedRun toyPlatform) l r ∧
      ∀ x ∈ l, ∀ input reply, x = ⟨.discoverReplays input, reply⟩ →
        reply = toyListing.reports input := by
  let services : Backend (Option Json) := toyListing.services
  have hserve : ∀ w e, services.Step w e (toyListing.serve w e).1 (toyListing.serve w e).2 :=
    toyListing.step_services fun _ => ⟨[7], rfl⟩
  have hruns : (Proc.lts services.Step _).Runs Lts.Alone emptyWorld
      (toyConfig.markedRun toyPlatform) (toyRun n).1 (toyRun n).2 :=
    Proc.runs_exec hserve n (emptyWorld, toyConfig.markedRun toyPlatform)
  refine Proc.exists_emits (fun w e r w' hstep => ?_) (h ▸ hruns)
  intro input reply heq
  cases heq
  exact hstep.2

end ReplaysFetcher
