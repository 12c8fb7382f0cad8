/-
  The clients of the source (`src/source/retry.ts`, `src/source/backoff.ts`,
  `src/discovery/source-client.ts`, `src/storage/replay-byte-client.ts`).

  One text client and one byte client, each over two transports: `fetch`, or `ssh` running a command
  on another host.  A client makes one read after the other until one resolves, one fails for good,
  or the tries are used up; between two reads it waits.  An external abort may come before a read,
  during it, or during a wait.

  The clients speak a signature of their own, `TransportEffect`: the rest of the development sees
  only what they resolve or reject with.
-/
import ReplaysFetcher.Failure
import ReplaysFetcher.CheckpointStore
import ReplaysFetcher.Data.Base64

namespace ReplaysFetcher

open Effectful

/-! ## Requests -/

/-- What a read asks of its transport. -/
inductive TransportEffect
  | throwIfAborted
  | fetch (url : Url)
  | execFile (file : String) (arguments : List String)
  /-- a pause, which an abort ends -/
  | sleep (milliseconds : ℕ)
  | random
  | now

/-- The replies; each may be a rejection. -/
@[reducible] def TransportReply : TransportEffect → Type
  | .throwIfAborted => Except RuntimeError Unit
  | .fetch _ => Except RuntimeError Response
  | .execFile _ _ => Except RuntimeError String
  | .sleep _ => Except RuntimeError Unit
  | .random => ℚ
  | .now => Date

/-- A part of a client that may throw `ε`. -/
abbrev Read (ε α : Type) : Type 1 := Async TransportEffect TransportReply ε α

/-- What a client has asked of the transport, and was told. -/
abbrev Exchanges : Type := List (Σ e : TransportEffect, TransportReply e)

/-- What the direct clients need besides a platform: text decoding and dates. -/
structure Codec where
  /-- `response.text()`, of a body -/
  decodeText : Bytes → String
  /-- `Date.parse`; `none` is `NaN` -/
  parseDate : String → Option Date

/-- `SourceConfig`, as far as the clients read it.  The timeout aborts a read: it is among the
    replies to `fetch` and `execFile`. -/
structure SourceConfig where
  sourceSshCommand : String
  sourceSshHost : Option String := none

/-- A request that may fail. -/
def request (e : TransportEffect) {α : Type} (h : TransportReply e = Except RuntimeError α) :
    Read ReadError α :=
  .call e fun r => .pure ((h ▸ r : Except RuntimeError α).mapError .runtime)

/-- `signal.throwIfAborted()` -/
def throwIfAborted : Read ReadError Unit := request .throwIfAborted rfl

/-! ## Retries -/

/-- A server may make a read wait no longer than this. -/
def retryAfterCapMs : ℕ := 30000

/-- `value.trim()` -/
def trimJs (value : String) : String :=
  String.ofList ((value.toList.dropWhile isJsWhitespace).reverse.dropWhile isJsWhitespace).reverse

/-- A number of seconds, or a date, which is compared with the clock. -/
def parseRetryAfter (codec : Codec) (value : String) :
    Proc TransportEffect TransportReply (Option ℕ) :=
  match digitsValue (trimJs value) with
  | some seconds => .pure (some (seconds * 1000))
  | none =>
    match codec.parseDate (trimJs value) with
    | none => .pure none
    | some dateMs => .call .now fun now => .pure (some (dateMs - now).toNat)

/-- The `Retry-After` header kept in the details of a failed read. -/
def ReadError.retryAfter? : ReadError → Option String
  | .sourceFetch failure => failure.details.bind (·.retryAfter)
  | .replayByteFetch failure => failure.details.bind (·.retryAfter)
  | _ => none

/-- `directRetryAfter`, of either client: only its own class of errors is looked into, and a client
    meets no other. -/
def directRetryAfter (codec : Codec) (error : ReadError) :
    Proc TransportEffect TransportReply (Option ℕ) :=
  match error.retryAfter? with
  | none => .pure none
  | some value => parseRetryAfter codec value

/-- What passes is tried again. -/
def isRetryable (classification : FailureClassification) : Bool :=
  classification.kind = .transient || classification.kind = .rateLimited

/-- `RetrySourceReadOptions`, wired by `runWithRetry`. -/
structure RetrySourceReadOptions (α : Type) where
  attempts : ℕ
  classify : ReadError → FailureClassification
  read : Read ReadError α
  retryAfterMs : ReadError → Proc TransportEffect TransportReply (Option ℕ) := fun _ => .pure none

section Retry

variable {α : Type} (options : RetrySourceReadOptions α)

/-- The server's wait, if it is rate limiting and names one, or else a jittered one. -/
def resolveDelay (error : ReadError) (round : ℕ) : Proc TransportEffect TransportReply ℕ :=
  .call .random fun random =>
    if (options.classify error).kind = .rateLimited then
      (options.retryAfterMs error).bind fun retryAfter =>
        .pure (min (max (fullJitterDelay round random) (retryAfter.getD 0)) retryAfterCapMs)
    else .pure (fullJitterDelay round random)

/-- A pause that an abort ends. -/
def abortableSleep (delayMs : ℕ) : Read ReadError Unit := do
  throwIfAborted
  request (.sleep delayMs) rfl

/-- The `catch` of a round: give up, or wait for the next one. -/
def retryRound (round : ℕ) (error : ReadError) : Read ReadError (ℕ ⊕ α) :=
  if !isRetryable (options.classify error) || round ≥ options.attempts then throw error
  else do
    let delayMs ← (resolveDelay options error round : Proc TransportEffect TransportReply ℕ)
    abortableSleep delayMs
    pure (.inl (round + 1))

/-- One round of `withRetry`. -/
def readRound (round : ℕ) : Read ReadError (ℕ ⊕ α) := do
  throwIfAborted
  tryCatch (do
    let value ← options.read
    pure (.inr value)) (retryRound options round)

/-- Try until a read succeeds, or is not to be tried again. -/
def withRetry : Read ReadError α := Async.iterate (readRound options) 0

/-- `runWithRetry(…).catch((error) => { throw … })` -/
def retryOrThrow {ε : Type} (toError : ReadError → ε) : Read ε α :=
  Proc.bind (withRetry options) fun r => .pure (r.mapError toError)

end Retry

/-! ## The direct transport -/

section Direct

variable {Text : Type} (pf : Platform Text) (codec : Codec) (url : Url)

/-- `fetch(url, init)` -/
def fetchRequest : Read ReadError Response := request (.fetch url) rfl

/-- Reading the body. -/
def readBody (response : Response) : Read ReadError Bytes :=
  Proc.pure (response.body.mapError .runtime)

/-- The `read` of `createDirectSourceClient`. -/
def directReadText (phase : SourceReadPhase) : Read ReadError String := do
  let response ← fetchRequest url
  if !response.ok then throw (.sourceFetch (buildDirectHttpError pf phase response url))
  else do
    let body ← readBody response
    if detectCloudflareChallenge response (codec.decodeText body) then throw .challenge
    else pure (codec.decodeText body)

/-- The `read` of `createDirectReplayByteClient`. -/
def directReadBytes : Read ReadError Bytes := do
  let response ← fetchRequest url
  if !response.ok then throw (.replayByteFetch (Bytes.buildDirectHttpError pf response url))
  else readBody response

/-- `createDirectSourceClient(config).fetchText` -/
def directFetchText (options : SourceFetchOptions) : Read SourceFetchError String :=
  retryOrThrow
    { attempts := options.attempts.getD 0
      classify := classifyDirect
      read := directReadText pf codec url (resolvePhase options)
      retryAfterMs := directRetryAfter codec } fun error => toDirectFetchError pf error options url

/-- `createDirectReplayByteClient(config).fetchBytes` -/
def directFetchBytes (options : SourceFetchOptions) : Read ReplayByteFetchError Bytes :=
  retryOrThrow
    { attempts := options.attempts.getD 0
      classify := Bytes.classifyDirect
      read := directReadBytes pf url
      retryAfterMs := directRetryAfter codec } fun error => toDirectByteError pf error options url

end Direct

/-! ## The SSH transport -/

section Ssh

variable {Text : Type} (pf : Platform Text) (config : SourceConfig) (url : Url)

/-- The URL, as it is handed to the remote script. -/
def encodedUrl : String := String.ofList (Base64.encode (pf.encode (pf.urlToString url)))

/-- The script of the text client. -/
def sshTextScript : String :=
  config.sourceSshCommand ++ " -- \"$(printf %s \"$1\" | base64 -d)\""

/-- The script of the byte client. -/
def sshByteScript : String :=
  config.sourceSshCommand ++ " -- \"$(printf %s \"$1\" | base64 -d)\" | base64"

/-- The arguments of `ssh` after the host. -/
def sshTextArguments : List String :=
  ["sh", "-c", sshTextScript config, "replays-fetcher-source", encodedUrl pf url]

/-- The arguments of a byte read, after the host. -/
def sshByteArguments : List String :=
  ["sh", "-c", sshByteScript config, "replays-fetcher-byte-source", encodedUrl pf url]

/-- A text read over SSH is the output of the remote command. -/
def sshReadText (host : String) : Read ReadError String :=
  request (.execFile "ssh" (host :: sshTextArguments pf config url)) rfl

/-- A byte read over SSH decodes that output. -/
def sshReadBytes (host : String) : Read ReadError Bytes := do
  let stdout ← (request (.execFile "ssh" (host :: sshByteArguments pf config url)) rfl :
    Read ReadError String)
  pure (Base64.decode stdout.toList)

/-- `createSshSourceClient(config).fetchText` -/
def sshFetchText (options : SourceFetchOptions) : Read SourceFetchError String :=
  match config.sourceSshHost with
  | none => throw { code := .sourceUnavailable, message := "SSH source host is not configured" }
  | some host =>
    retryOrThrow
      { attempts := options.attempts.getD 0
        classify := classifySsh
        read := sshReadText pf config url host } fun error =>
      toSshFetchError pf error options url

/-- `createSshReplayByteClient(config).fetchBytes` -/
def sshFetchBytes (options : SourceFetchOptions) : Read ReplayByteFetchError Bytes :=
  match config.sourceSshHost with
  | none => throw { code := .fetchFailed, message := "SSH source host is not configured" }
  | some host =>
    retryOrThrow
      { attempts := options.attempts.getD 0
        classify := classifySsh
        read := sshReadBytes pf config url host } fun error =>
      toSshByteError pf error options url

end Ssh

end ReplaysFetcher
