/-
  The S3 checkpoint store: read, and conditional write with a bounded compare-and-swap loop
  (`src/checkpoint/s3-checkpoint-store.ts`, `src/checkpoint/object-key.ts`,
  `fullJitterDelay` of `src/source/backoff.ts`).

  `writeCheckpoint` tries to PUT what the caller intends under the ETag the caller holds.  When the
  condition fails it re-reads the object, merges, takes over the ETag it read, and tries again.  The
  loop is `casRounds`; the pair (intended checkpoint, ETag) is its whole state, so a result about a
  write is an invariant of this pair (`safe_casRounds`).
-/
import ReplaysFetcher.Effect
import Mathlib.Data.Rat.Floor

namespace ReplaysFetcher

open Effectful

/-! ## Object keys -/

/-- The characters a slug keeps. -/
def isSafeSlugChar (c : Char) : Bool :=
  ('a' ≤ c && c ≤ 'z') || ('0' ≤ c && c ≤ '9') || c = '.' || c = '_' || c = '-'

/-- Every run of characters outside `[a-z0-9._-]` becomes one dash; `inRun` says that the run at the
    head has its dash already. -/
def dashUnsafeRuns (inRun : Bool) : List Char → List Char
  | [] => []
  | c :: cs =>
    if isSafeSlugChar c then c :: dashUnsafeRuns false cs
    else if inRun then dashUnsafeRuns true cs
    else '-' :: dashUnsafeRuns true cs

/-- `.replace(/^-+|-+$/g, "")` -/
def trimDashes (cs : List Char) : List Char :=
  ((cs.dropWhile (· = '-')).reverse.dropWhile (· = '-')).reverse

/-- The host and the path of a source, made safe for a key; the query and the scheme are left out.
    -/
def toSourceSlug (sourceUrl : Url) : String :=
  String.ofList (trimDashes (dashUnsafeRuns false
    ((sourceUrl.host ++ sourceUrl.pathname).toList.map Char.toLower)))

/-- `s3SafeKeyPattern.test(key)` -/
def isS3SafeKey (key : String) : Bool :=
  key ≠ "" && key.toList.all fun c => isSafeSlugChar c || c = '/'

/-- The key of a source's object; a prefix or a slug that gives no safe key is refused. -/
def toCheckpointObjectKey (keyPrefix : String) (sourceUrl : Url) : Except JsError String :=
  if keyPrefix = "" then
    .error (.error "Checkpoint object-key prefix must not be empty")
  else if toSourceSlug sourceUrl = "" then
    .error (.error "Checkpoint source slug must not be empty")
  else if isS3SafeKey (keyPrefix ++ "/" ++ toSourceSlug sourceUrl ++ "/latest.json") then
    .ok (keyPrefix ++ "/" ++ toSourceSlug sourceUrl ++ "/latest.json")
  else
    .error (.error "Checkpoint object key must match the S3-safe pattern [a-z0-9._/-]")

/-! ## The store -/

/-- What a read resolves with; without a checkpoint it has no ETag either. -/
structure CheckpointReadResult where
  checkpoint : Option Checkpoint := none
  etag : Option String := none

/-- `S3CheckpointStore`; a write resolves with the new ETag. -/
structure CheckpointStore (E : Type) (R : E → Type) where
  read : String → Async E R JsError CheckpointReadResult
  write : CheckpointWriteInput → Async E R JsError (Option String)

/-- `S3CheckpointStoreOptions`, without the client and the bucket. -/
structure CheckpointStoreOptions where
  conditionalWrites : Bool
  keyPrefix : String

/-- How many PUTs a write sends before it gives up. -/
def MAX_CAS_ROUNDS : ℕ := 5

/-- `If-Match` on a known ETag, else `If-None-Match: *`; no header when writes are unconditional. -/
def conditionalHeader (etag : Option String) (conditionalWrites : Bool) : PutCondition :=
  if conditionalWrites then
    match etag with
    | none => .ifNoneMatch
    | some etag => .ifMatch etag
  else .always

/-- A share of the doubled base delay, which is capped at 30 s. -/
def fullJitterDelay (round : ℕ) (random : ℚ) : ℕ := ⌊random * min (500 * 2 ^ round) 30000⌋.toNat

section Store

variable {Text : Type} (pf : Platform Text) (options : CheckpointStoreOptions)

/-- `new URL(text)` -/
def newUrl (text : String) : Except JsError Url :=
  match pf.parseUrl text with
  | some url => .ok url
  | none => .error (.error "Invalid URL")

/-- `toCheckpointObjectKey(options.prefix, new URL(slug))` -/
def checkpointKey (slug : String) : Except JsError String :=
  (newUrl pf slug).bind (toCheckpointObjectKey options.keyPrefix)

/-- A computation that may throw, in a program. -/
def ofExcept {α : Type} (r : Except JsError α) : Task Text α := Proc.pure r

/-- The GET of a read. -/
def getCheckpointRequest (key : String) : Task Text (GetObjectOutput Text) :=
  Proc.perform (Effect.getCheckpoint key)

/-- The PUT of one round. -/
def putCheckpointRequest (key : String) (body : Text) (condition : PutCondition) :
    Task Text (Option String) :=
  Proc.perform (Effect.putCheckpoint key body condition)

/-- One PUT of a checkpoint, under the condition of its ETag. -/
def putCheckpoint (input : CheckpointWriteInput) : Task Text (Option String) := do
  let key ← ofExcept (checkpointKey pf options input.slug)
  putCheckpointRequest key (stringifyCheckpoint pf input.checkpoint)
    (conditionalHeader input.etag options.conditionalWrites)

/-- What a read makes of a GET output: a missing or corrupt body is "no checkpoint", and then the
    ETag is dropped with it. -/
def readOutput (output : GetObjectOutput Text) : CheckpointReadResult :=
  match output.body with
  | none => {}
  | some raw =>
    match parseCheckpoint pf raw with
    | none => {}
    | some checkpoint => { checkpoint := some checkpoint, etag := output.etag }

/-- A missing object reads as no checkpoint; any other failure of the GET is thrown. -/
def readCheckpoint (slug : String) : Task Text CheckpointReadResult := do
  let key ← ofExcept (checkpointKey pf options slug)
  tryCatch
    (do
      let output ← getCheckpointRequest key
      pure (readOutput pf output))
    (fun error => if isNotFound error then pure {} else throw error)

/-- `await delay(fullJitterDelay(round, random))` -/
def jitterDelay (round : ℕ) : Program Text Unit :=
  .call .random fun r => .call (.sleep (fullJitterDelay round r)) .pure

/-- What is intended after a re-read. -/
def mergeFresh (intended : Checkpoint) (fresh : CheckpointReadResult) : Checkpoint :=
  match fresh.checkpoint with
  | none => intended
  | some remote => mergeCheckpoints intended remote

/-- The compare-and-swap loop, `remaining` rounds from its end. -/
def casRounds (slug : String) : ℕ → Checkpoint → Option String → Task Text (Option String)
  | 0, intended, _ =>
    throw (.checkpointConflict MAX_CAS_ROUNDS intended.lastCompletedPage slug)
  | remaining + 1, intended, etag =>
    tryCatch (putCheckpoint pf options { checkpoint := intended, etag, slug }) fun error =>
      if isPreconditionFailed error then do
        (jitterDelay (MAX_CAS_ROUNDS - (remaining + 1)) : Program Text Unit)
        let fresh ← readCheckpoint pf options slug
        casRounds slug remaining (mergeFresh intended fresh) fresh.etag
      else throw error

/-- A write starts with all its rounds, from what the caller intends and holds. -/
def writeCheckpoint (input : CheckpointWriteInput) : Task Text (Option String) :=
  casRounds pf options input.slug MAX_CAS_ROUNDS input.checkpoint input.etag

/-- The store that the commands wire in. -/
def createS3CheckpointStore : CheckpointStore (Effect Text) Reply where
  read := readCheckpoint pf options
  write := writeCheckpoint pf options

end Store

/-! ## The programs as trees

  With the object key known, each operation is its requests and nothing else. -/

section Trees

variable {Text : Type} {pf : Platform Text} {options : CheckpointStoreOptions} {slug key : String}

/-- What a read makes of the reply to its GET. -/
def readReply (pf : Platform Text) :
    Except JsError (GetObjectOutput Text) → Except JsError CheckpointReadResult
  | .ok output => .ok (readOutput pf output)
  | .error error => if isNotFound error then .ok {} else .error error

/-- A read is one GET. -/
theorem readCheckpoint_eq (hkey : checkpointKey pf options slug = .ok key) :
    readCheckpoint pf options slug =
      Proc.call (.getCheckpoint key) fun r => .pure (readReply pf r) := by
  unfold readCheckpoint
  rw [Async.bind_eq, hkey]
  change Proc.bind (Proc.call _ _) _ = _
  simp only [Proc.call_bind']
  congr 1
  funext r
  cases r with
  | ok output => rfl
  | error error =>
    -- `NotFound` is the one error that a read turns into a result
    change (if isNotFound error then _ else _ : Task Text CheckpointReadResult) = _
    by_cases h : isNotFound error <;> simp only [readReply, h, if_true] <;> rfl

/-- A round's PUT is one request. -/
theorem putCheckpoint_eq (hkey : checkpointKey pf options slug = .ok key) (checkpoint : Checkpoint)
    (etag : Option String) :
    (putCheckpoint pf options { checkpoint, etag, slug } :
        Program Text (Except JsError (Option String))) =
      .call (.putCheckpoint key (stringifyCheckpoint pf checkpoint)
        (conditionalHeader etag options.conditionalWrites)) fun r => .pure r := by
  unfold putCheckpoint
  rw [Async.bind_eq, hkey]
  rfl

/-- What follows a refused PUT. -/
def casRetry (pf : Platform Text) (options : CheckpointStoreOptions) (slug key : String)
    (remaining : ℕ) (intended : Checkpoint) : Program Text (Except JsError (Option String)) :=
  .call .random fun r =>
    .call (.sleep (fullJitterDelay (MAX_CAS_ROUNDS - (remaining + 1)) r)) fun _ =>
      .call (.getCheckpoint key) fun r =>
        match readReply pf r with
        | .ok fresh => casRounds pf options slug remaining (mergeFresh intended fresh) fresh.etag
        | .error error => .pure (.error error)

/-- A round is its PUT, and after a refused one what `casRetry` sends. -/
theorem casRounds_succ (hkey : checkpointKey pf options slug = .ok key) (remaining : ℕ)
    (intended : Checkpoint) (etag : Option String) :
    (casRounds pf options slug (remaining + 1) intended etag :
        Program Text (Except JsError (Option String))) =
      .call (.putCheckpoint key (stringifyCheckpoint pf intended)
          (conditionalHeader etag options.conditionalWrites)) fun r =>
        match r with
        | .ok etag => .pure (.ok etag)
        | .error error =>
          if isPreconditionFailed error then casRetry pf options slug key remaining intended
          else .pure (.error error) := by
  rw [casRounds, Async.tryCatch_eq, putCheckpoint_eq hkey, Proc.call_bind']
  congr 1
  funext r
  cases r with
  | ok etag => rfl
  | error error =>
    -- only a failed condition leads to another round
    change (if isPreconditionFailed error then _ else _ : Task Text (Option String)) = _
    by_cases h : isPreconditionFailed error
    · simp only [h, if_true]
      rw [Async.lift_bind_eq]
      unfold casRetry
      change Proc.call Effect.random _ = _
      congr 1
      funext r
      change Proc.call _ _ = _
      congr 1
      funext u
      change (readCheckpoint pf options slug >>= _ : Task Text (Option String)) = _
      rw [Async.bind_eq, readCheckpoint_eq hkey]
      change Proc.call _ _ = _
      congr 1
      funext r
      cases hr : readReply pf r <;> simp only [Proc.pure_bind', hr, Async.onOk]
    · simp only [h]
      rfl

end Trees

/-! ## Rules -/

section Rules

variable {W Text : Type} {pf : Platform Text} {options : CheckpointStoreOptions} {slug key : String}
  {env : Env W (Effect Text) Reply} {rely guar : W → W → Prop} {w : W}

/-- A read is safe when every reply to its GET leads to the postcondition. -/
theorem safe_readCheckpoint {post : Except JsError CheckpointReadResult → W → Prop}
    (hkey : checkpointKey pf options slug = .ok key) (P : W → Prop)
    (hstable : ∀ w w', P w → rely w w' → P w')
    (hpost : ∀ r w w', post r w → rely w w' → post r w')
    (hget : ∀ w, P w → ∀ r w', env w (.getCheckpoint key) r w' →
      guar w w' ∧ post (readReply pf r) w')
    (hP : P w) : Proc.Safe env rely guar post w (readCheckpoint pf options slug) := by
  rw [readCheckpoint_eq hkey]
  exact Proc.safe_call P hstable (fun w hP r w' hr =>
    ⟨(hget w hP r w' hr).1, Proc.safe_pure (hpost _) (hget w hP r w' hr).2⟩) hP

/-- The compare-and-swap loop.  `I n` holds before a PUT with `n` rounds to go, `J n` between a
    refused PUT and the re-read that follows it. -/
theorem safe_casRounds {post : Except JsError (Option String) → W → Prop}
    (hkey : checkpointKey pf options slug = .ok key)
    (I : ℕ → Checkpoint → Option String → W → Prop) (J : ℕ → Checkpoint → W → Prop)
    (hI : ∀ n c etag w w', I n c etag w → rely w w' → I n c etag w')
    (hJ : ∀ n c w w', J n c w → rely w w' → J n c w')
    (hpost : ∀ r w w', post r w → rely w w' → post r w')
    (hrandom : ∀ w r w', env w .random r w' → guar w w' ∧ rely w w')
    (hsleep : ∀ ms w r w', env w (.sleep ms) r w' → guar w w' ∧ rely w w')
    (hput : ∀ n c etag w, I (n + 1) c etag w → ∀ (r : Except JsError (Option String)) w',
      env w (.putCheckpoint key (stringifyCheckpoint pf c)
        (conditionalHeader etag options.conditionalWrites)) r w' →
      guar w w' ∧ (∀ etag', r = .ok etag' → post (.ok etag') w') ∧
        ∀ error, r = .error error →
          if isPreconditionFailed error then J n c w' else post (.error error) w')
    (hget : ∀ n c w, J n c w → ∀ r w', env w (.getCheckpoint key) r w' →
      guar w w' ∧ (∀ fresh, readReply pf r = .ok fresh → I n (mergeFresh c fresh) fresh.etag w') ∧
        ∀ error, readReply pf r = .error error → post (.error error) w')
    (hend : ∀ c etag w, I 0 c etag w →
      post (.error (.checkpointConflict MAX_CAS_ROUNDS c.lastCompletedPage slug)) w)
    (n : ℕ) (c : Checkpoint) (etag : Option String) (h : I n c etag w) :
    Proc.Safe env rely guar post w (casRounds pf options slug n c etag) := by
  induction n generalizing c etag w with
  -- no round is left: the conflict is thrown
  | zero => exact Proc.safe_pure (hpost _) (hend c etag w h)
  | succ n ih =>
    rw [casRounds_succ hkey]
    refine Proc.safe_call (I (n + 1) c etag) (hI _ _ _) (fun w h r w' hr => ?_) h
    obtain ⟨hg, hok, herror⟩ := hput n c etag w h r w' hr
    refine ⟨hg, ?_⟩
    cases r with
    | ok etag' => exact Proc.safe_pure (hpost _) (hok etag' rfl)
    | error error =>
      have herr := herror error rfl
      change Proc.Safe env rely guar post w' (if isPreconditionFailed error then _ else _)
      split at herr
      case isFalse hpre =>
        rw [if_neg hpre]
        exact Proc.safe_pure (hpost _) herr
      case isTrue hpre =>
        rw [if_pos hpre]
        -- back off, re-read, and go round again with what the re-read gave
        refine Proc.safe_call (J n c) (hJ _ _) (fun w h r w' hr =>
          ⟨(hrandom w r w' hr).1, ?_⟩) herr
        refine Proc.safe_call (J n c) (hJ _ _) (fun w h r w' hr =>
          ⟨(hsleep _ w r w' hr).1, ?_⟩) (hJ _ _ _ _ h (hrandom w r w' hr).2)
        refine Proc.safe_call (J n c) (hJ _ _) (fun w h r w' hr => ?_)
          (hJ _ _ _ _ h (hsleep _ w r w' hr).2)
        obtain ⟨hg, hok, herror⟩ := hget n c w h r w' hr
        refine ⟨hg, ?_⟩
        cases hread : readReply pf r with
        | ok fresh => exact ih _ _ (hok fresh hread)
        | error error => exact Proc.safe_pure (hpost _) (herror error hread)

end Rules

/-! ## A store to compute with -/

/-- Conditional writes under the default prefix. -/
def toyOptions : CheckpointStoreOptions := { conditionalWrites := true, keyPrefix := "checkpoints" }

/-- The key of `//a` under these options. -/
def toyKey : String := "checkpoints/a/latest.json"

/-- That is the key. -/
theorem checkpointKey_toy : checkpointKey toyPlatform toyOptions "//a" = .ok toyKey := rfl

/-- A checkpoint of `//a` without pages. -/
def toyCheckpoint (lastCompletedPage : ℕ) : Checkpoint where
  counts := { discovered := 0, failed := 0, staged := 0, stored := 0 }
  createdAt := "2026-06-01T00:00:00.000Z"
  discoveredLastPage := lastCompletedPage
  lastCompletedPage := lastCompletedPage
  pages := ∅
  runId := "run"
  sourceUrl := "//a"
  status := .running
  updatedAt := "2026-06-01T00:00:00.000Z"

/-- It has the shape the schema asks for. -/
theorem valid_toyCheckpoint (lastCompletedPage : ℕ) : (toyCheckpoint lastCompletedPage).Valid where
  createdAt := by simp [toyCheckpoint]
  pages := fun _ _ h => by cases h
  runId := by simp [toyCheckpoint]
  sourceUrl := by simp [toyCheckpoint]
  updatedAt := by simp [toyCheckpoint]

/-- Its numbers are safe if its page is. -/
theorem safe_toyCheckpoint {lastCompletedPage : ℕ} (h : IsSafe lastCompletedPage) :
    (toyCheckpoint lastCompletedPage).Safe where
  counts := by
    have hzero : IsSafe 0 := by decide
    exact ⟨hzero, hzero, hzero, hzero⟩
  discoveredLastPage := h
  lastCompletedPage := h
  lastSourceFailure := fun _ h => by cases h
  pages := fun _ _ h => by cases h

/-! ## Notes in the record -/

/-- The same store, leaving a note in the record before each write and after each acknowledged
    one. -/
def CheckpointStore.marked {Text : Type} (store : CheckpointStore (Effect Text) Reply) :
    CheckpointStore (Effect Text) Reply where
  read := store.read
  write input := do
    (Proc.perform (Effect.mark (.writeCall input)) : Program Text Unit)
    let etag ← store.write input
    (Proc.perform (Effect.mark (.writeAck input)) : Program Text Unit)
    pure etag

end ReplaysFetcher
