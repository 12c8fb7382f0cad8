/-
  Failures of the source (`src/source/classify-failure.ts`, `src/discovery/source-client-error.ts`,
  `src/storage/replay-byte-client-error.ts`).

  What a read throws is classified into three kinds by one function, `classifyFailure`: a Cloudflare
  challenge first, then the HTTP status, then the cause.  The two clients wrap it, each with its own
  error class; both build that class in two places, for a response that is not ok and for the error
  a read finally fails with.
-/
import ReplaysFetcher.Time
import ReplaysFetcher.Ingest

namespace ReplaysFetcher

/-! ## What may be thrown -/

/-- A value thrown by the runtime: an `Error`, an `AggregateError`, or something else. -/
inductive RuntimeError
  | error (name message : String) (code : Option String) (cause : Option RuntimeError)
  | aggregate (message : String) (code : Option String) (cause : Option RuntimeError)
      (errors : List RuntimeError)
  | other

namespace RuntimeError

/-- `readErrorCode`: the `code`, when it is a string. -/
def code? : RuntimeError → Option String
  | .error _ _ code _ => code
  | .aggregate _ code _ _ => code
  | .other => none

/-- `error.cause`, when it is defined. -/
def cause? : RuntimeError → Option RuntimeError
  | .error _ _ _ cause => cause
  | .aggregate _ _ cause _ => cause
  | .other => none

end RuntimeError

/-- The codes of a `ReplayByteFetchError`. -/
inductive ByteFetchCode
  | fetchFailed | rateLimited
  deriving DecidableEq, Repr

/-- The codes as they are thrown. -/
def ByteFetchCode.text : ByteFetchCode → String
  | .fetchFailed => "fetch_failed"
  | .rateLimited => "rate_limited"

/-- What a byte read finally rejects with. -/
structure ReplayByteFetchError where
  code : ByteFetchCode
  message : String
  details : Option SourceFetchDetails := none
  deriving DecidableEq, Repr

/-- The error as the callers of the byte client see it. -/
def ReplayByteFetchError.toJsError (failure : ReplayByteFetchError) : JsError :=
  .replayByteFetch failure.code.text failure.message

/-- What one read of a client may throw. -/
inductive ReadError
  | sourceFetch (failure : SourceFetchError)
  | replayByteFetch (failure : ReplayByteFetchError)
  /-- `CloudflareChallengeError` -/
  | challenge
  | runtime (error : RuntimeError)

/-- The error as `unwrapCause` sees it; it looks at the name, the message and the code. -/
def ReadError.toRuntime : ReadError → RuntimeError
  | .sourceFetch failure => .error "SourceFetchError" failure.message (some failure.code.text) none
  | .replayByteFetch failure =>
    .error "ReplayByteFetchError" failure.message (some failure.code.text) none
  | .challenge => .error "Error" "Source returned a Cloudflare challenge" none none
  | .runtime error => error

/-! ## The classifier -/

/-- What the classifier answers; the retry loop tries again on the last two. -/
inductive FailureKind
  | permanent | rateLimited | transient
  deriving DecidableEq, Repr

/-- What is known of a failure: a field left out is `undefined`. -/
structure ClassifyInput where
  cfChallenge : Bool := false
  error : Option RuntimeError := none
  httpStatus : Option ℕ := none
  malformedBody : Bool := false

/-- The kind, with what the error's details report of the cause. -/
structure FailureClassification where
  causeCode : Option String := none
  causeMessage : Option String := none
  cfChallenge : Bool
  httpStatus : Option ℕ := none
  kind : FailureKind
  deriving DecidableEq, Repr

/-- What is read off the innermost error. -/
structure UnwrappedCause where
  code : Option String := none
  message : Option String := none
  name : Option String := none
  deriving DecidableEq, Repr

/-- How much of a cause's message is kept. -/
def causeMessageMaxLength : ℕ := 200

/-- The socket and resolver codes that pass. -/
def transientNetworkCodes : List String :=
  ["ECONNRESET", "ECONNREFUSED", "ENOTFOUND", "EAI_AGAIN", "ETIMEDOUT", "EPIPE", "EHOSTUNREACH",
    "ENETUNREACH"]

/-- The TLS codes that pass, beside the prefixes below. -/
def transientTlsCodes : List String := ["EPROTO"]

/-- What an aborted or timed-out `fetch` is named. -/
def transientErrorNames : List String := ["AbortError", "TimeoutError"]

/-- Client errors that say "try again". -/
def retryableClientErrorStatuses : List ℕ := [408, 425]

/-- The first inner error with a code, or else the first one. -/
def selectAggregateInner (errors : List RuntimeError) : Option RuntimeError :=
  (errors.find? fun inner => inner.code?.isSome).or errors.head?

/-- The characters of a text within its first UTF-16 units. -/
def takeUnits : ℕ → List Char → List Char
  | _, [] => []
  | units, c :: cs =>
    let size := if c.toNat < 0x10000 then 1 else 2
    if size ≤ units then c :: takeUnits (units - size) cs else []

/-- `text.slice(0, units)`; of a character that is cut in two nothing is left. -/
def sliceUnits (units : ℕ) (text : String) : String := String.ofList (takeUnits units text.toList)

/-- The name, the message and the code of an error; the message is cut short. -/
def describeCause : RuntimeError → UnwrappedCause
  | .error name message code _ =>
    { code, message := some (sliceUnits causeMessageMaxLength message), name := some name }
  | .aggregate message code _ _ =>
    { code, message := some (sliceUnits causeMessageMaxLength message)
      name := some "AggregateError" }
  | .other => {}

/-- The cause of the error, if it has one, and of an `AggregateError` one inner error. -/
def unwrapCause (error : Option RuntimeError) : UnwrappedCause :=
  match error with
  | none => {}
  | some error =>
    match error.cause?.getD error with
    | .aggregate _ _ _ errors =>
      match selectAggregateInner errors with
      | some inner => describeCause inner
      | none => {}
    | current => describeCause current

/-- `UND_ERR_`, `ERR_TLS_` and `CERT_` are prefixes of undici and of Node's TLS. -/
def isTransientCauseCode (code : String) : Bool :=
  code ∈ transientNetworkCodes || code ∈ transientTlsCodes || code.startsWith "UND_ERR_" ||
    code.startsWith "ERR_TLS_" || code.startsWith "CERT_"

/-- What the status alone decides; neither a success nor a redirect decides anything. -/
def classifyByStatus (status : ℕ) : Option FailureKind :=
  if status = 429 then some .rateLimited
  else if status ∈ retryableClientErrorStatuses then some .transient
  else if status ≥ 500 ∧ status < 600 then some .transient
  else if status ≥ 400 ∧ status < 500 then some .permanent
  else none

/-- The order of the tests: the challenge, the status, the body, the cause's code, its name. -/
def resolveKind (input : ClassifyInput) (cause : UnwrappedCause) : FailureKind :=
  if input.cfChallenge then .transient
  else
    match input.httpStatus.bind classifyByStatus with
    | some byStatus => byStatus
    | none =>
      if input.malformedBody then .permanent
      else if cause.code.any isTransientCauseCode then .transient
      else if cause.name.any fun name => name ∈ transientErrorNames then .transient
      else .permanent

/-- The classification of a failure. -/
def classifyFailure (input : ClassifyInput) : FailureClassification :=
  let cause := unwrapCause input.error
  { causeCode := cause.code, causeMessage := cause.message, cfChallenge := input.cfChallenge
    httpStatus := input.httpStatus, kind := resolveKind input cause }

example : (classifyFailure { cfChallenge := true, httpStatus := some 403 }).kind = .transient := rfl

/-! ## HTTP responses -/

/-- A response of `fetch`: header names in lower case, and the body, unless reading it fails. -/
structure Response where
  status : ℕ
  headers : List (String × String) := []
  body : Except RuntimeError Bytes

namespace Response

/-- `response.ok` -/
def ok (response : Response) : Bool := 200 ≤ response.status && response.status ≤ 299

/-- `headers.get(name)` -/
def header? (response : Response) (name : String) : Option String :=
  (response.headers.find? fun header => header.1 = name).map Prod.snd

end Response

/-- What a Cloudflare challenge page has in its body. -/
def cfBodyMarkers : List String :=
  ["just a moment", "cf-challenge", "challenge-platform", "/cdn-cgi/challenge"]

/-- `text.includes(part)` -/
def includesText (text part : String) : Bool := decide (part.toList <:+: text.toList)

/-- `text.toLowerCase()`, of the ASCII letters: no other lower case turns a text into one that
    includes a marker. -/
def toLowerCase (text : String) : String := String.ofList (text.toList.map Char.toLower)

/-- A challenge needs both: Cloudflare's header, and a marker in the body. -/
def detectCloudflareChallenge (response : Response) (bodyText : String) : Bool :=
  (response.header? "cf-ray").isSome &&
    cfBodyMarkers.any fun marker => includesText (toLowerCase bodyText) marker

/-! ## The errors of the two clients

  The byte client's functions of the same names are in the namespace `Bytes`. -/

/-- The code of the list client's error, by kind. -/
def toFetchCode : FailureKind → SourceFetchCode
  | .rateLimited => .rateLimited
  | .transient => .sourceTransient
  | .permanent => .sourceUnavailable

/-- The code of the byte client's error: it knows no transient one. -/
def toByteCode : FailureKind → ByteFetchCode
  | .rateLimited => .rateLimited
  | .transient | .permanent => .fetchFailed

/-- `SourceFetchOptions`, without its test seams; a byte read has no `phase`. -/
structure SourceFetchOptions where
  attempts : Option ℕ := none
  page : Option ℕ := none
  phase : Option SourceReadPhase := none
  deriving DecidableEq, Repr

/-- A read without a phase is a list read. -/
def resolvePhase (options : SourceFetchOptions) : SourceReadPhase := options.phase.getD .list

/-- The attempts of a read: the retries asked for, and the first one. -/
def totalTries (options : SourceFetchOptions) : ℕ := options.attempts.getD 0 + 1

section Errors

variable {Text : Type} (pf : Platform Text)

/-- The details of an error a read finally fails with. -/
def failureDetails (classification : FailureClassification) (options : SourceFetchOptions)
    (phase : SourceReadPhase) (url : Url) : SourceFetchDetails where
  attempts := some (totalTries options)
  causeCode := classification.causeCode
  causeMessage := classification.causeMessage
  cfChallenge := classification.cfChallenge
  httpStatus := classification.httpStatus
  page := options.page
  phase := phase
  url := pf.urlToString url

/-- The error of a text read, with its classification in the details. -/
def buildSourceFetchError (classification : FailureClassification) (fallbackMessage : String)
    (options : SourceFetchOptions) (phase : SourceReadPhase) (url : Url) : SourceFetchError where
  code := toFetchCode classification.kind
  message := fallbackMessage
  details := some (failureDetails pf classification options phase url)

/-- The error of a byte read, whose phase is always `bytes`. -/
def buildByteFetchError (classification : FailureClassification) (fallbackMessage : String)
    (options : SourceFetchOptions) (url : Url) : ReplayByteFetchError where
  code := toByteCode classification.kind
  message := fallbackMessage
  details := some (failureDetails pf classification options .bytes url)

/-- The details of a response that is not ok. -/
def httpErrorDetails (phase : SourceReadPhase) (response : Response) (url : Url) :
    SourceFetchDetails where
  cfChallenge := false
  httpStatus := some response.status
  phase := phase
  retryAfter := response.header? "retry-after"
  url := pf.urlToString url

/-- A response of the list client that is not ok. -/
def buildDirectHttpError (phase : SourceReadPhase) (response : Response) (url : Url) :
    SourceFetchError where
  code := toFetchCode (classifyFailure { httpStatus := some response.status }).kind
  message := "Source request failed with status " ++ toString response.status
  details := some (httpErrorDetails pf phase response url)

/-- A response of the byte client that is not ok. -/
def Bytes.buildDirectHttpError (response : Response) (url : Url) : ReplayByteFetchError where
  code := toByteCode (classifyFailure { httpStatus := some response.status }).kind
  message := "Replay byte request failed with status " ++ toString response.status
  details := some (httpErrorDetails pf .bytes response url)

/-- `reclassifyDirect` -/
def reclassifyDirect (failure : SourceFetchError) : FailureClassification :=
  classifyFailure
    { cfChallenge := failure.details.any (·.cfChallenge)
      httpStatus := failure.details.bind (·.httpStatus) }

/-- The byte client never detects a challenge, so only the status is carried over. -/
def Bytes.reclassifyDirect (failure : ReplayByteFetchError) : FailureClassification :=
  classifyFailure { httpStatus := failure.details.bind (·.httpStatus) }

/-- What the retry loop of a direct text read classifies. -/
def classifyDirect (error : ReadError) : FailureClassification :=
  match error with
  | .sourceFetch failure => reclassifyDirect failure
  | .challenge => classifyFailure { cfChallenge := true, error := some error.toRuntime }
  | error => classifyFailure { error := some error.toRuntime }

/-- What the retry loop of a direct byte read classifies. -/
def Bytes.classifyDirect (error : ReadError) : FailureClassification :=
  match error with
  | .replayByteFetch failure => Bytes.reclassifyDirect failure
  | error => classifyFailure { error := some error.toRuntime }

/-- `classifySsh`, of either client. -/
def classifySsh (error : ReadError) : FailureClassification :=
  classifyFailure { error := some error.toRuntime }

/-- The three errors that a direct text read may end with. -/
def toDirectFetchError (error : ReadError) (options : SourceFetchOptions) (url : Url) :
    SourceFetchError :=
  match error with
  | .challenge =>
    buildSourceFetchError pf (classifyFailure { cfChallenge := true })
      "Source returned a Cloudflare challenge" options (resolvePhase options) url
  | .sourceFetch failure =>
    buildSourceFetchError pf (reclassifyDirect failure) failure.message options
      (resolvePhase options) url
  | error =>
    buildSourceFetchError pf (classifyFailure { error := some error.toRuntime })
      "Source request failed" options (resolvePhase options) url

/-- The errors that a direct byte read may end with. -/
def toDirectByteError (error : ReadError) (options : SourceFetchOptions) (url : Url) :
    ReplayByteFetchError :=
  match error with
  | .replayByteFetch failure =>
    buildByteFetchError pf (Bytes.reclassifyDirect failure) failure.message options url
  | error =>
    buildByteFetchError pf (classifyFailure { error := some error.toRuntime })
      "Replay byte request failed" options url

/-- A text read over SSH has one error. -/
def toSshFetchError (error : ReadError) (options : SourceFetchOptions) (url : Url) :
    SourceFetchError :=
  buildSourceFetchError pf (classifySsh error) "SSH source request failed" options
    (resolvePhase options) url

/-- So has a byte read over SSH. -/
def toSshByteError (error : ReadError) (options : SourceFetchOptions) (url : Url) :
    ReplayByteFetchError :=
  buildByteFetchError pf (classifySsh error) "SSH replay byte request failed" options url

end Errors

end ReplaysFetcher
