/-
  What the userinfo of the source URL reaches (`src/run/watch-loop.ts`, `src/run/summary.ts`,
  `src/discovery/discover-diagnostics.ts`).

  The checkpoint key and the staging evidence are made of a URL that is stripped of its userinfo.
  The report of a discovery is not: it carries `sourceUrl.toString()`, a watch cycle takes that into
  its summary, and `toCompactSummary` into the record it logs.

  1. `Responses` is a fixed sequence of replies: which reply comes does not depend on what is asked
     with, so two programs can be run against the same one, in the same order of steps.
  2. `Artifact` is what a program leaves behind; `runArtifacts` and `cycleArtifacts` collect it.
  3. `quiet` is the shortest such sequence: the list read fails, and the cycle logs its record.
  4. `credentials_leave_no_trace_iff`: two userinfo parts leave the same artifacts iff they are one.
-/
import ReplaysFetcher.Html
import ReplaysFetcher.ReadRetries

namespace ReplaysFetcher

open Effectful

/-! ## Userinfo -/

/-- The part of a URL before the host. -/
structure Userinfo where
  username : String
  password : String
  deriving DecidableEq, Repr

/-- The same URL with another user information. -/
def Url.withUserinfo (url : Url) (userinfo : Userinfo) : Url :=
  { url with username := userinfo.username, password := userinfo.password }

/-- The same run, for such a source. -/
def RunConfig.withUserinfo (config : RunConfig) (userinfo : Userinfo) : RunConfig :=
  { config with sourceUrl := config.sourceUrl.withUserinfo userinfo }

/-- The same watcher, for such a source. -/
def WatchConfig.withUserinfo (config : WatchConfig) (userinfo : Userinfo) : WatchConfig :=
  { config with sourceUrl := config.sourceUrl.withUserinfo userinfo }

/-! ## A fixed sequence of replies -/

/-- The reply to the `n`th request, for each kind of request it may be. -/
structure Responses (Text : Type) where
  text : ℕ → Except JsError String
  bytes : ℕ → Except JsError Bytes
  now : ℕ → Date
  random : ℕ → ℚ
  discoverReplays : ℕ → Except JsError DiscoveryReport
  headObject : ℕ → Except JsError HeadObjectOutput
  putObject : ℕ → Except JsError Unit
  getCheckpoint : ℕ → Except JsError (GetObjectOutput Text)
  putCheckpoint : ℕ → Except JsError (Option String)
  putEvidence : ℕ → Except JsError Unit
  writeEvidenceFile : ℕ → Except JsError Unit
  insertStaging : ℕ → Except JsError (Option String)
  findBySourceIdentity : ℕ → Except JsError (Option StagingRow)
  findByObjectIdentity : ℕ → Except JsError (Option StagingRow)
  existsBySourceIdentity : ℕ → Except JsError Bool
  createRunId : ℕ → String
  shouldStop : ℕ → Bool
  writeHeartbeat : ℕ → Except JsError Unit

section Responses

variable {Text : Type}

/-- The reply to the n-th request. -/
def Responses.reply (responses : Responses Text) (n : ℕ) :
    (e : Effect Text) → Reply e
  | .now => responses.now n
  | .sleep _ => ()
  | .random => responses.random n
  | .awaitFloor => ()
  | .log _ => ()
  | .mark _ => ()
  | .discoverReplays _ => responses.discoverReplays n
  | .fetchText _ => responses.text n
  | .fetchBytes _ => responses.bytes n
  | .headObject _ => responses.headObject n
  | .putObject _ _ _ => responses.putObject n
  | .getCheckpoint _ => responses.getCheckpoint n
  | .putCheckpoint _ _ _ => responses.putCheckpoint n
  | .putEvidence _ _ => responses.putEvidence n
  | .writeEvidenceFile _ _ => responses.writeEvidenceFile n
  | .insertStaging _ => responses.insertStaging n
  | .findBySourceIdentity _ _ => responses.findBySourceIdentity n
  | .findByObjectIdentity _ _ => responses.findByObjectIdentity n
  | .existsBySourceIdentity _ _ => responses.existsBySourceIdentity n
  | .createRunId _ => responses.createRunId n
  | .shouldStop => responses.shouldStop n
  | .writeHeartbeat _ _ => responses.writeHeartbeat n

/-- The requests are counted, and each is answered by what is next. -/
def Responses.serve (responses : Responses Text) (n : ℕ) :
    (e : SourcedEffect Text) → SourcedReply e × ℕ
  | .text _ _ => (responses.text n, n + 1)
  | .bytes _ _ => (responses.bytes n, n + 1)
  | .other e => (responses.reply n e, n + 1)

/-! ## What a program leaves behind -/

/-- What leaves the process. -/
inductive Artifact (Text : Type)
  | checkpoint (body : Text)
  | staging (payload : IngestStagingPayload)
  | evidence (summary : RunSummary)
  | stdout (summary : CompactRunSummary)
  | cycleRecord (summary : CompactRunSummary)

/-- The artifact a request writes. -/
def SourcedEffect.artifact? : SourcedEffect Text → Option (Artifact Text)
  | .other (.putCheckpoint _ body _) => some (.checkpoint body)
  | .other (.insertStaging payload) => some (.staging payload)
  | .other (.putEvidence _ summary) => some (.evidence summary)
  | .other (.writeEvidenceFile _ summary) => some (.evidence summary)
  | .other (.log (.watchCycleComplete summary)) => some (.cycleRecord summary)
  | _ => none

/-- What a program has written after the steps `picks`, and what is printed once it resolves. -/
def artifactsOf {α : Type} (printed : α → List (Artifact Text)) (responses : Responses Text)
    (picks : List ℕ) (p : Async (SourcedEffect Text) SourcedReply JsError α) :
    List (Artifact Text) :=
  let reached := Proc.execPicks (recordServe responses.serve ()) picks ((0, fun _ => []), p)
  (conversation (reached.1.2 ())).filterMap (fun said => said.1.artifact?) ++
    match reached.2.result with
    | some (.ok a) => printed a
    | _ => []

variable {pf : Platform Text} (parser : PageParser pf)

/-- A run prints its compact summary. -/
def runArtifacts (config : RunConfig) (responses : Responses Text) (picks : List ℕ) :
    List (Artifact Text) :=
  artifactsOf (fun result => [.stdout (toCompactSummary result.summary)]) responses picks
    (runOnce pf (config.sourcedInput parser.reader))

/-- What one cycle of a watcher leaves. -/
def cycleArtifacts (config : WatchConfig) (responses : Responses Text) (picks : List ℕ) :
    List (Artifact Text) :=
  artifactsOf (fun _ => []) responses picks (runCycle (config.sourcedInput parser.reader))

/-- The promise: whatever is replied, and in whatever order the steps are taken, the two userinfo
    parts leave the same artifacts. -/
structure CredentialsLeaveNoTrace (run : RunConfig) (watch : WatchConfig) (u v : Userinfo) :
    Prop where
  run : ∀ responses picks, runArtifacts parser (run.withUserinfo u) responses picks =
    runArtifacts parser (run.withUserinfo v) responses picks
  cycle : ∀ responses picks, cycleArtifacts parser (watch.withUserinfo u) responses picks =
    cycleArtifacts parser (watch.withUserinfo v) responses picks

end Responses

/-! ## A cycle that finds nothing -/

/-- Every read fails. -/
def quiet (Text : Type) : Responses Text where
  text _ := .error (.sourceFetch { code := .sourceUnavailable, message := "" })
  bytes _ := .error (.error "")
  now _ := 0
  random _ := 0
  discoverReplays _ := .error (.error "")
  headObject _ := .error (.error "")
  putObject _ := .error (.error "")
  getCheckpoint _ := .error (.error "")
  putCheckpoint _ := .error (.error "")
  putEvidence _ := .error (.error "")
  writeEvidenceFile _ := .error (.error "")
  insertStaging _ := .error (.error "")
  findBySourceIdentity _ := .error (.error "")
  findByObjectIdentity _ := .error (.error "")
  existsBySourceIdentity _ := .error (.error "")
  createRunId _ := ""
  shouldStop _ := false
  writeHeartbeat _ := .ok ()

/-- The source URLs of the records. -/
def recordedUrls {Text : Type} (artifacts : List (Artifact Text)) : List (Option String) :=
  artifacts.filterMap fun artifact => match artifact with
    | .cycleRecord summary => some summary.sourceUrl
    | _ => none

section Promise

variable {Text : Type} {pf : Platform Text} {parser : PageParser pf} {run : RunConfig}
  {watch : WatchConfig} {u v : Userinfo}

/-- The record of a cycle that finds nothing carries the whole source URL. -/
theorem recordedUrls_quiet (config : WatchConfig) :
    recordedUrls (cycleArtifacts parser config (quiet Text) (List.replicate 20 0)) =
      [some (pf.urlToString config.sourceUrl)] := by
  obtain ⟨attempts, bucket, concurrency, heartbeatPath, intervalMs, requestSpacingMs, sourceUrl⟩ :=
    config
  cases concurrency with
  | zero => rfl
  | succ limit => rfl

/-- **Credentials leave a trace whenever they differ.**  For every source URL and every two userinfo
    parts, written differently when they are different, the runs and the watch cycles leave the same
    artifacts, against every sequence of replies and in every order of steps, iff the two are
    one. -/
theorem credentials_leave_no_trace_iff
    (hwritten : u ≠ v → pf.urlToString (watch.sourceUrl.withUserinfo u) ≠
      pf.urlToString (watch.sourceUrl.withUserinfo v)) :
    CredentialsLeaveNoTrace parser run watch u v ↔ u = v := by
  constructor
  · intro hsame
    by_contra hne
    have hcycle := congrArg recordedUrls (hsame.cycle (quiet Text) (List.replicate 20 0))
    rw [recordedUrls_quiet, recordedUrls_quiet] at hcycle
    -- the two records carry the two URLs
    have hurls : pf.urlToString (watch.sourceUrl.withUserinfo u) =
        pf.urlToString (watch.sourceUrl.withUserinfo v) :=
      Option.some.inj (List.head_eq_of_cons_eq hcycle)
    exact hwritten hne hurls
  · rintro rfl
    exact ⟨fun _ _ => rfl, fun _ _ => rfl⟩

end Promise

/-- A platform that writes the username of a URL. -/
def userPlatform : Platform (Option Json) where
  __ := toyPlatform
  parse_stringify := parse_stringify_toyPlatform
  sha256Hex_hex := isSha256Hex_toyDigest
  urlToString url := "//" ++ (url.username ++ url.host)
  urlToString_ne_empty url h := by
    have hlen := congrArg String.length h
    simp [String.length_append] at hlen

/-- Links are paths, and no page is a fixture. -/
def userParser : PageParser userPlatform where
  resolve href base := some { base with pathname := href }
  resolvePath path base := { base with pathname := path }
  parseFixture _ := none
  parse_urlToString _ _ _ _ := rfl

/-- A user. -/
def alice : Userinfo := { username := "alice", password := "" }

/-- Another user. -/
def bob : Userinfo := { username := "bob", password := "" }

/-- The two users show in the text of a URL. -/
theorem alice_written : alice ≠ bob →
    userPlatform.urlToString (toyWatch.sourceUrl.withUserinfo alice) ≠
      userPlatform.urlToString (toyWatch.sourceUrl.withUserinfo bob) := by
  decide

theorem credentials_leave_no_trace_alice :
    CredentialsLeaveNoTrace userParser toyConfig toyWatch alice bob ↔ alice = bob :=
  credentials_leave_no_trace_iff alice_written

/-- The record of the cycle names the user. -/
theorem credentials_leave_a_trace :
    ¬ CredentialsLeaveNoTrace userParser toyConfig toyWatch alice bob := by
  intro hsame
  have hcycle := congrArg recordedUrls (hsame.cycle (quiet _) (List.replicate 20 0))
  rw [recordedUrls_quiet, recordedUrls_quiet] at hcycle
  revert hcycle
  decide

end ReplaysFetcher
