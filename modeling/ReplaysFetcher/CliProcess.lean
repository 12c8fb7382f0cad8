/-
  A command and its process.

  `Process` is what a command does to the process it runs in: what it has printed, the exit code, the
  signal handlers, the S3 client and the connection pool.  A client that is used while it is not
  open, opened twice or closed twice is noted (`misused`).

  The services answer whatever they like; so do the constructors of the clients, the logger and the
  probes.

  1. `Serves` says what is asked of the services, in terms of their own world: which facts the
     programs keep, what is so of a document when it is printed, and of a watcher that has ended.
  2. One lemma for each command follows its text (`Ended` is what it leaves behind), and
     `safe_entryPoint` is what a whole process does.
-/
import ReplaysFetcher.Cli
import ReplaysFetcher.RowIntegrity
import ReplaysFetcher.WatchTrace

namespace ReplaysFetcher.Cli

open Effectful Config

/-! ## The process -/

inductive ClientState
  | absent | opened | closed
  deriving DecidableEq, Repr

structure Process where
  stdout : List Document := []
  /-- `process.exitCode`; 0 while it is not set -/
  exitCode : Option ℕ := none
  s3Client : ClientState := .absent
  pool : ClientState := .absent
  listeners : List Signal := []
  fatal : Option JsError := none
  /-- a client has been used out of its time -/
  misused : Bool := false

/-- The requests that go through the S3 client. -/
def usesS3 {Text : Type} : Effect Text → Bool
  | .headObject _ | .putObject _ _ _ | .getCheckpoint _ | .putCheckpoint _ _ _ | .putEvidence _ _ => true
  | _ => false

/-- The requests that go through the pool. -/
def usesPool {Text : Type} : Effect Text → Bool
  | .insertStaging _ | .findBySourceIdentity _ _ | .findByObjectIdentity _ _
  | .existsBySourceIdentity _ _ => true
  | _ => false

namespace Process

/-- A request that is only right if `right` is. -/
def expect (process : Process) (right : Prop) [Decidable right] : Process :=
  { process with misused := process.misused || ¬ right }

/-- The process, behind a request to the services. -/
def served {Text : Type} (process : Process) (e : Effect Text) : Process :=
  process.expect ((usesS3 e = true → process.s3Client = .opened) ∧
    (usesPool e = true → process.pool = .opened))

/-- The process, behind a request of its own. -/
def after (process : Process) : (e : CliEffect) → CliReply e → Process
  | .createS3Client _, .ok _ =>
    { process.expect (process.s3Client = .absent) with s3Client := .opened }
  | .createPgPool _, .ok _ => { process.expect (process.pool = .absent) with pool := .opened }
  | .headBucket _, _ => process.expect (process.s3Client = .opened)
  | .query _, _ => process.expect (process.pool = .opened)
  | .destroyS3Client, _ =>
    { process.expect (process.s3Client = .opened) with s3Client := .closed }
  | .endPool, _ => { process.expect (process.pool = .opened) with pool := .closed }
  | .once signal, _ => { process with listeners := signal :: process.listeners }
  | .removeListener signal, _ => { process with listeners := process.listeners.erase signal }
  | .writeJson document, _ => { process with stdout := process.stdout ++ [document] }
  | .setExitCode exitCode, _ => { process with exitCode := some exitCode }
  | .captureFatal error, _ => { process with fatal := some error }
  | _, _ => process

@[simp] theorem expect_of {process : Process} {right : Prop} [Decidable right] (h : right) :
    process.expect right = process := by
  unfold expect
  simp [h]

end Process

/-- A process beside its services. -/
def processEnv {W Text : Type} (services : Env W (Effect Text) Reply) :
    Env (W × Process) (Effect Text ⊕ CliEffect) (Sum.elim Reply CliReply)
  | v, .inl e, r, v' => services v.1 e r v'.1 ∧ v'.2 = v.2.served e
  | v, .inr e, r, v' => v'.1 = v.1 ∧ v'.2 = v.2.after e r

/-- A process that has these clients and has said nothing. -/
def having (s3Client pool : ClientState) : Process := { s3Client := s3Client, pool := pool }

/-- The process of a command that has just opened its clients. -/
def equipped (shouldStage : Bool) : Process :=
  having .opened (if shouldStage then .opened else .absent)

/-! ## What a command leaves behind -/

/-- The exit code that a document stands for. -/
def Document.exitCode : Document → ℕ
  | .run summary => runExitCode summary.ok summary.status
  | document => if document.ok then 0 else 2

/-- The documents of a command. -/
def Document.Answers : Document → CommandLine → Prop
  | .run _, .runOnce _ => True
  | .configInvalid summary, .runOnce _ => summary.ok = false
  | .configInvalid summary, .watch => summary.ok = false
  | .check _ _ _, .check => True
  | .checkConfigInvalid _, .check => True
  | .contractCheck _, .contractCheck => True
  | .contractCheckConfigInvalid _, .contractCheck => True
  | .discovery _, .discover options => options.dryRun = true ∧ options.storeRaw = false
  | .storeRaw report, .discover options =>
    options.storeRaw = true ∧ options.dryRun = false ∧ report.staging.isSome = options.stage
  | .refused _ _, .discover _ => True
  | _, _ => False

/-- What becomes of the clients. -/
def ClientsLeft (process : Process) : CommandLine → Except JsError Unit → Prop
  | .watch, _ => (process.s3Client = .closed ↔ process.pool = .closed) ∧ process.pool ≠ .opened
  | .check, outcome =>
    process.s3Client ≠ .closed ∧ (outcome = .ok () → process.pool ≠ .opened)
  | .contractCheck, _ => process.s3Client = .absent ∧ process.pool = .absent
  | .discover options, _ => process.s3Client ≠ .closed ∧ process.pool ≠ .closed ∧
      (options.storeRaw = false → process.s3Client = .absent) ∧
      (options.stage = false → process.pool = .absent)
  | .runOnce _, _ => process.s3Client ≠ .closed ∧ process.pool ≠ .closed

/-- What a command leaves behind; `stopped` says that a watcher was told to stop. -/
structure Ended (stopped : Prop) (command : CommandLine) (outcome : Except JsError Unit)
    (process : Process) : Prop where
  fatal : process.fatal = none
  misused : process.misused = false
  listeners : process.listeners = []
  printed : process.stdout.length ≤ 1
  answers : ∀ document ∈ process.stdout, document.Answers command
  /-- it has printed a document, but for a watcher that was told to stop -/
  resolved : outcome = .ok () →
    (∃ document, process.stdout = [document] ∧ process.exitCode.getD 0 = document.exitCode) ∨
    (command = .watch ∧ process.stdout = [] ∧ process.exitCode = some 0 ∧ stopped)
  /-- an error leaves the exit code alone; only a run can have printed by then -/
  rejected : outcome ≠ .ok () → process.exitCode = none ∧
    (process.stdout = [] ∨ ∃ options, command = .runOnce options)
  clients : ClientsLeft process command outcome

theorem Ended.imp {stopped stopped' : Prop} {command : CommandLine} {outcome : Except JsError Unit}
    {process : Process} (h : Ended stopped command outcome process) (hstopped : stopped → stopped') :
    Ended stopped' command outcome process where
  fatal := h.fatal
  misused := h.misused
  listeners := h.listeners
  printed := h.printed
  answers := h.answers
  resolved hok := (h.resolved hok).imp_right fun ⟨hwatch, hsilent, hcode, hs⟩ =>
    ⟨hwatch, hsilent, hcode, hstopped hs⟩
  rejected := h.rejected
  clients := h.clients

/-! ## What the services are relied on for -/

/-- A document that does not come from the services. -/
def Document.Idle : Document → Prop
  | .run _ | .discovery _ | .storeRaw _ => False
  | _ => True

/-- What the others keep beside these services, and what a request to the process needs. -/
structure Keeps {W Text : Type} (services : Env W (Effect Text) Reply) (rely guar : W → W → Prop)
    (Inv : W → Prop) (Told : Document → W → Prop) : Prop where
  refl : ∀ w, guar w w
  stable : ∀ w w', Inv w → rely w w' → Inv w'
  lasts : ∀ document w w', Told document w → rely w w' → Told document w'

/-- What the commands rely on: the programs of the services keep `Inv`, what they end with is `Told`
    when it is printed, and a watcher ends when it is `Stopped`. -/
structure Serves {W Text : Type} {pf : Platform Text} (reader : SourceReader pf)
    (services : Env W (Effect Text) Reply) (rely guar : W → W → Prop) (Inv : W → Prop)
    (Told : Document → W → Prop) (Stopped : W → Prop) : Prop extends
    Keeps services rely guar Inv Told where
  stays : ∀ w w', Stopped w → rely w w' → Stopped w'
  idle : ∀ document w, document.Idle → Inv w → Told document w
  now : ∀ w, Inv w → Proc.Safe services rely guar (fun _ => Inv) w nowRequest
  run : ∀ (config : RunConfig) w, Inv w → Proc.Safe services rely guar
    (Async.Outcome
      (fun result w => Inv w ∧ Told (.run (toCompactSummary result.summary)) w) fun _ => Inv) w
    (config.run pf)
  watch : ∀ (config : WatchConfig) w, Inv w →
    Proc.Safe services rely guar (fun _ w => Inv w ∧ Stopped w) w (config.loop reader)
  discovery : ∀ (input : DiscoverInput) w, Inv w → Proc.Safe services rely guar
    (Async.Outcome (fun report w => Inv w ∧ Told (.discovery report) w) fun _ => Inv) w
    (discoverReplaysDryRun reader input.dryRunOptions)
  storeRaw : ∀ (config : StoreRawConfig) w, Inv w → Proc.Safe services rely guar
    (Async.Outcome (fun report w => Inv w ∧ Told (.storeRaw report) w) fun _ => Inv) w
    (discoverAndStore reader config)

section Rules

variable {W Text : Type} {pf : Platform Text} {reader : SourceReader pf}
  {services : Env W (Effect Text) Reply} {rely guar : W → W → Prop} {Inv : W → Prop}
  {Told : Document → W → Prop} {Stopped : W → Prop} {v : W × Process} {process : Process}

/-- The others leave the process alone. -/
def during (rely : W → W → Prop) (v v' : W × Process) : Prop := rely v.1 v'.1 ∧ v'.2 = v.2

/-- No step uses a client out of its time. -/
def alongside (guar : W → W → Prop) (v v' : W × Process) : Prop :=
  guar v.1 v'.1 ∧ (v.2.misused = false → v'.2.misused = false)

/-- The process is just this, and what it has printed is so. -/
structure Holding (Inv : W → Prop) (Told : Document → W → Prop) (process : Process)
    (v : W × Process) : Prop where
  same : v.2 = process
  inv : Inv v.1
  told : ∀ document ∈ process.stdout, Told document v.1

/-- A part of a command, beside its services. -/
abbrev Within (services : Env W (Effect Text) Reply) (rely guar : W → W → Prop) {α : Type}
    (post : α → W × Process → Prop) (v : W × Process) (p : CliProgram Text α) : Prop :=
  Proc.Safe (processEnv services) (during rely) (alongside guar) post v p

/-- A program of the services, with the clients it needs. -/
theorem safe_service {α : Type} {p : Program Text α} {P : Effect Text → Prop}
    {mid : α → W → Prop} (hserved : ∀ e, P e → process.served e = process) (hasks : Proc.Asks P p)
    (hsilent : process.stdout = []) (hinv : ∀ a w, mid a w → Inv w) (hv : Holding Inv Told process v)
    (hp : Proc.Safe services rely guar mid v.1 p) :
    Within services rely guar (fun a v => Holding Inv Told process v ∧ mid a v.1) v (service p) := by
  refine Proc.safe_inl ?_
  have hseen := @Proc.safe_seen W (Effect Text) Reply α (W × Process) Prod.fst services
    (processEnv services).left rely guar (during rely)
    (fun v v' => v.2.misused = false → v'.2.misused = false) (fun v => v.2 = process) P mid v p
    ?_ (fun _ hm => hm) (fun v v' hv hr => ⟨hr.1, hr.2.trans hv⟩) hasks hv.same hp
  · refine hseen.imp fun a v ha => ⟨⟨ha.2, hinv a _ ha.1, fun document hmem => ?_⟩, ha.1⟩
    rw [hsilent] at hmem
    exact absurd hmem List.not_mem_nil
  · rintro v e r v' hv he ⟨hs, hafter⟩
    have hsame : v'.2 = process := by rw [hafter, hv, hserved e he]
    exact ⟨hs, hsame, fun hm => by rw [hsame, ← hv]; exact hm⟩

theorem Holding.imp {Inv' : W → Prop} (hv : Holding Inv Told process v) (h : Inv v.1 → Inv' v.1) :
    Holding Inv' Told process v := ⟨hv.same, h hv.inv, hv.told⟩

section Keeps

variable (h : Keeps services rely guar Inv Told)

include h

theorem Keeps.holding (w w' : W × Process) (hv : Holding Inv Told process w)
    (hr : during rely w w') : Holding Inv Told process w' :=
  ⟨hr.2.trans hv.same, h.stable _ _ hv.inv hr.1,
    fun document hmem => h.lasts document _ _ (hv.told document hmem) hr.1⟩

/-- Nothing more is to be done. -/
theorem Keeps.safe_done {α : Type} {a : α} {post : α → W × Process → Prop}
    (hpost : ∀ v, Holding Inv Told process v → post a v) (hv : Holding Inv Told process v) :
    Within services rely guar post v (.pure a) :=
  have hsafe : Within services rely guar (fun _ => Holding Inv Told process) v (.pure a) :=
    Proc.safe_pure h.holding hv
  hsafe.pure_imp hpost

/-- A request to the process that prints nothing. -/
theorem Keeps.safe_ask {e : CliEffect} (hprints : ∀ r, (process.after e r).stdout = process.stdout)
    (hwell : process.misused = false → ∀ r, (process.after e r).misused = false)
    (hv : Holding Inv Told process v) :
    Within services rely guar (fun r => Holding Inv Told (process.after e r)) v (ask e) := by
  refine Proc.safe_call (Holding Inv Told process) h.holding (fun v hv r v' henv => ?_) hv
  obtain ⟨hworld, hafter⟩ : v'.1 = v.1 ∧ v'.2 = v.2.after e r := henv
  rw [hv.same] at hafter
  refine ⟨⟨hworld ▸ h.refl _, fun hm => ?_⟩, ?_⟩
  · rw [hafter]
    exact hwell (hv.same ▸ hm) r
  · refine Proc.safe_pure h.holding ⟨hafter, hworld ▸ hv.inv, fun document hmem => ?_⟩
    rw [hworld]
    exact hv.told document (hprints r ▸ hmem)

/-- A document is printed. -/
theorem Keeps.safe_writeJson {document : Document} (htold : Told document v.1)
    (hv : Holding Inv Told process v) :
    Within services rely guar
      (fun _ => Holding Inv Told { process with stdout := process.stdout ++ [document] }) v
      (writeJson document) := by
  refine Proc.safe_call (fun v => Holding Inv Told process v ∧ Told document v.1)
    (fun w w' hw hr => ⟨h.holding w w' hw.1 hr, h.lasts document _ _ hw.2 hr.1⟩)
    (fun v hv r v' henv => ?_) ⟨hv, htold⟩
  obtain ⟨hworld, hafter⟩ : v'.1 = v.1 ∧ v'.2 = v.2.after (.writeJson document) r := henv
  rw [hv.1.same] at hafter
  refine ⟨⟨hworld ▸ h.refl _, fun hm => ?_⟩, ?_⟩
  · rw [hafter]
    exact hv.1.same ▸ hm
  · refine Proc.safe_pure h.holding ⟨hafter, hworld ▸ hv.1.inv, fun other hmem => ?_⟩
    rw [hworld]
    rcases List.mem_append.1 hmem with hmem | hmem
    · exact hv.1.told other hmem
    · rw [List.mem_singleton.1 hmem]
      exact hv.2

theorem Keeps.safe_computed {α : Type} {value : Except JsError α} (hv : Holding Inv Told process v) :
    Within services rely guar (Async.Outcome (fun _ => Holding Inv Told process) fun _ =>
      Holding Inv Told process) v (computed value : CliTask Text α) :=
  h.safe_done (fun _ hv => by cases value <;> exact hv) hv

/-! ### The teardown of a watcher -/

/-- The process of a watcher that listens. -/
def listening (exitCode : Option ℕ) : Process :=
  { equipped true with listeners := [.sigint, .sigterm], exitCode := exitCode }

/-- A leg of a teardown: what it closes is closed whether or not it says so. -/
theorem Keeps.safe_closing {message : String} {closed : Process}
    {close : CliProgram Text (Except JsError Unit)}
    (hclose : Within services rely guar (fun _ => Holding Inv Told closed) v close) :
    Within services rely guar (fun _ => Holding Inv Told closed) v
      (closing close message : CliProgram Text Unit) := by
  unfold closing
  refine Proc.safe_bind_of hclose fun r v hv => ?_
  cases r with
  | ok u => exact h.safe_done (fun _ hv => hv) hv
  | error error => exact h.safe_ask (e := .warn message) (fun _ => rfl) (fun hm _ => hm) hv

/-- The `finally` of a watcher: both clients are closed, it no longer listens, and it does not throw. -/
theorem Keeps.safe_watchTeardown {exitCode : Option ℕ} (hv : Holding Inv Told (listening exitCode) v) :
    Within services rely guar (Async.Outcome (fun _ => Holding Inv Told
      { having .closed .closed with exitCode := exitCode }) fun _ _ => False) v
      (watchTeardown : CliTask Text Unit) := by
  have hdestroy := h.safe_ask (e := .destroyS3Client) (fun _ => rfl) (fun hm _ => hm) hv
  unfold watchTeardown
  refine Async.safe_lift_bind (fun _ => Holding Inv Told
    { having .closed .closed with listeners := [.sigint, .sigterm], exitCode := exitCode }) ?_
    fun _ v hv => ?_
  · unfold dispose
    refine Proc.safe_bind_of (h.safe_closing hdestroy) fun _ v hv => ?_
    have hend := h.safe_ask (e := .endPool) (fun _ => rfl) (fun hm _ => hm) hv
    refine Proc.safe_bind_of (h.safe_closing hend) fun _ v hv => ?_
    exact h.safe_done (fun _ hv => hv) hv
  · have hterm := h.safe_ask (e := .removeListener .sigterm) (fun _ => rfl) (fun hm _ => hm) hv
    refine Async.safe_lift_bind _ hterm fun _ v hv => ?_
    have hint := h.safe_ask (e := .removeListener .sigint) (fun _ => rfl) (fun hm _ => hm) hv
    exact Async.safe_lift hint

end Keeps

section Serves

variable (h : Serves reader services rely guar Inv Told Stopped)

include h

/-- What is kept once the watcher is stopped. -/
theorem Serves.stopping : Keeps services rely guar (fun w => Inv w ∧ Stopped w) Told where
  refl := h.refl
  stable w w' hw hr := ⟨h.stable w w' hw.1 hr, h.stays w w' hw.2 hr⟩
  lasts := h.lasts

/-- A watcher that was stopped at `w₀` is stopped from then on. -/
theorem Serves.since (w₀ : W) :
    Keeps services rely guar (fun w => Inv w ∧ (Stopped w₀ → Stopped w)) Told where
  refl := h.refl
  stable w w' hw hr := ⟨h.stable w w' hw.1 hr, fun hstopped => h.stays w w' (hw.2 hstopped) hr⟩
  lasts := h.lasts

/-! ## One command after the other -/

/-- A command has left its process as it should. -/
def Good (Inv : W → Prop) (Told : Document → W → Prop) (Stopped : W → Prop) (command : CommandLine)
    (outcome : Except JsError Unit) (v : W × Process) : Prop :=
  Ended (Stopped v.1) command outcome v.2 ∧ Inv v.1 ∧ ∀ document ∈ v.2.stdout, Told document v.1

/-- What a process is once it has reported an error. -/
def Process.settled (process : Process) : Except JsError Unit → Process
  | .ok _ => process
  | .error error => { process with fatal := some error, exitCode := some 1 }

/-- A process is done with its command. -/
def Exited (Inv : W → Prop) (Told : Document → W → Prop) (Stopped : W → Prop) (command : CommandLine)
    (v : W × Process) : Prop :=
  ∃ outcome process, Ended (Stopped v.1) command outcome process ∧
    Holding Inv Told (process.settled outcome) v

omit h in
theorem good_of {command : CommandLine} {outcome : Except JsError Unit}
    (hended : Ended (Stopped v.1) command outcome process) (hv : Holding Inv Told process v) :
    Good Inv Told Stopped command outcome v := by
  unfold Good
  rw [hv.same]
  exact ⟨hended, hv.inv, hv.told⟩

/-- The exit code is set, and that is all. -/
theorem Serves.safe_setExitCode {exitCode : ℕ} {command : CommandLine}
    (hended : ∀ {stopped : Prop}, Ended stopped command (.ok ())
      { process with exitCode := some exitCode })
    (hv : Holding Inv Told process v) :
    Within services rely guar (Good Inv Told Stopped command) v
      (ExceptT.lift (setExitCode exitCode) : CliTask Text Unit) := by
  have hset := h.safe_ask (e := .setExitCode exitCode) (fun _ => rfl) (fun hm _ => hm) hv
  exact Async.safe_lift (hset.imp fun _ _ hv => good_of hended hv)

theorem Serves.safe_refuse {document : Document} {command : CommandLine} (hidle : document.Idle)
    (hended : ∀ {stopped : Prop}, Ended stopped command (.ok ())
      { stdout := [document], exitCode := some 2 })
    (hv : Holding Inv Told {} v) :
    Within services rely guar (Good Inv Told Stopped command) v (refuse document : CliTask Text Unit) := by
  unfold refuse
  refine Async.safe_lift_bind _ (h.safe_writeJson (h.idle _ _ hidle hv.inv) hv) fun _ v hv => ?_
  exact h.safe_setExitCode hended hv

theorem Serves.safe_currentTime (hsilent : process.stdout = []) (hv : Holding Inv Told process v) :
    Within services rely guar (fun _ => Holding Inv Told process) v
      (currentTime : CliProgram Text Date) := by
  have hasks : Proc.Asks (fun e : Effect Text => e = .now) nowRequest := ⟨rfl, fun _ => trivial⟩
  have hserved : ∀ e : Effect Text, e = .now → process.served e = process := by
    rintro _ rfl
    exact Process.expect_of ⟨nofun, nofun⟩
  have hnow : Within services rely guar (fun _ v => Holding Inv Told process v ∧ Inv v.1) v
      (currentTime : CliProgram Text Date) :=
    safe_service hserved hasks hsilent (fun _ _ hw => hw) hv (h.now _ hv.inv)
  exact hnow.imp fun _ _ hv => hv.1

/-- The time and the run id. -/
theorem Serves.safe_started {α : Type} {post : Except JsError α → W × Process → Prop}
    {f : Date → String → CliTask Text α} (hsilent : process.stdout = [])
    (hf : ∀ startedAt uuid v, Holding Inv Told process v →
      Within services rely guar post v (f startedAt uuid)) (hv : Holding Inv Told process v) :
    Within services rely guar post v (do
      let startedAt ← (currentTime : CliProgram Text Date)
      let uuid ← (ask .randomUUID : CliProgram Text String)
      f startedAt uuid) := by
  refine Async.safe_lift_bind _ (h.safe_currentTime hsilent hv) fun startedAt v hv => ?_
  have huuid := h.safe_ask (e := .randomUUID) (fun _ => rfl) (fun hm _ => hm) hv
  exact Async.safe_lift_bind _ huuid fun uuid v hv => hf startedAt uuid v hv

omit h in
theorem ended_error {stopped : Prop} {command : CommandLine} {error : JsError}
    (hfatal : process.fatal = none) (hmisused : process.misused = false)
    (hlisteners : process.listeners = []) (hprinted : process.stdout.length ≤ 1)
    (hanswers : ∀ document ∈ process.stdout, document.Answers command)
    (hcode : process.exitCode = none)
    (hsilent : process.stdout = [] ∨ ∃ options, command = .runOnce options)
    (hclients : ClientsLeft process command (.error error)) :
    Ended stopped command (.error error) process where
  fatal := hfatal
  misused := hmisused
  listeners := hlisteners
  printed := hprinted
  answers := hanswers
  resolved := nofun
  rejected _ := ⟨hcode, hsilent⟩
  clients := hclients

omit h in
/-- A command that has printed its document. -/
theorem ended_printed (document : Document) {stopped : Prop} {command : CommandLine}
    (hfatal : process.fatal = none) (hmisused : process.misused = false) (hlisteners : process.listeners = [])
    (hanswers : document.Answers command) (hprinted : process.stdout = [document])
    (hcode : process.exitCode.getD 0 = document.exitCode)
    (hclients : ClientsLeft process command (.ok ())) : Ended stopped command (.ok ()) process where
  fatal := hfatal
  misused := hmisused
  listeners := hlisteners
  printed := by simp [hprinted]
  answers := by simp [hprinted, hanswers]
  resolved _ := Or.inl ⟨document, hprinted, hcode⟩
  rejected := fun hne => absurd rfl hne
  clients := hclients

/-- A configuration is loaded, or its issues are told. -/
theorem Serves.safe_configured {α β : Type} {post : Except JsError β → W × Process → Prop}
    {loaded : Except ConfigError α} {f : List String ⊕ α → CliTask Text β}
    (herror : ∀ error v, Holding Inv Told process v → post (.error error) v)
    (hf : ∀ x v, Holding Inv Told process v → Within services rely guar post v (f x))
    (hv : Holding Inv Told process v) :
    Within services rely guar post v (computed (configResult loaded) >>= f : CliTask Text β) := by
  refine Async.safe_bind (fun _ => Holding Inv Told process) ((h.safe_computed hv).imp ?_) hf
  rintro (error | x) v hv
  · exact herror error v hv
  · exact hv

theorem Serves.safe_configInvalid {command : CommandLine} {startedAt : Date} {uuid : String}
    {issues : List String}
    (hanswers : ∀ summary, summary.ok = false → (Document.configInvalid summary).Answers command)
    (hclients : ∀ process : Process, process.s3Client = .absent → process.pool = .absent →
      ClientsLeft process command (.ok ())) (hv : Holding Inv Told {} v) :
    Within services rely guar (Good Inv Told Stopped command) v
      (configInvalid startedAt uuid issues : CliTask Text Unit) := by
  unfold configInvalid
  refine Async.safe_lift_bind _ (h.safe_currentTime rfl hv) fun finishedAt v hv => ?_
  refine Async.safe_lift_bind _ (h.safe_writeJson (h.idle _ _ trivial hv.inv) hv) fun _ v hv => ?_
  exact h.safe_setExitCode (ended_printed (.configInvalid _) rfl rfl rfl (hanswers _ rfl) rfl rfl
    (hclients _ rfl rfl)) hv

/-! ### The clients -/

omit h in
theorem ended_having (s3Client pool : ClientState) {stopped : Prop} {command : CommandLine}
    {error : JsError} (hclients : ClientsLeft (having s3Client pool) command (.error error)) :
    Ended stopped command (.error error) (having s3Client pool) :=
  ended_error rfl rfl rfl (Nat.zero_le _) (fun _ hmem => absurd hmem List.not_mem_nil) rfl (Or.inl rfl)
    hclients

theorem Serves.safe_createS3Client {config : S3Config} (hv : Holding Inv Told (having .absent .absent) v) :
    Within services rely guar (Async.Outcome (fun _ => Holding Inv Told (having .opened .absent))
      fun _ => Holding Inv Told (having .absent .absent)) v
      (createS3Client config : CliTask Text Unit) := by
  have hask := h.safe_ask (e := .createS3Client config) (by rintro (_ | _) <;> rfl)
    (by rintro _ (_ | _) <;> rfl) hv
  refine hask.imp ?_
  rintro (error | u) v hv
  · exact hv
  · exact hv

theorem Serves.safe_createPgPool {databaseUrl : String}
    (hv : Holding Inv Told (having .opened .absent) v) :
    Within services rely guar (Async.Outcome (fun _ => Holding Inv Told (having .opened .opened))
      fun _ => Holding Inv Told (having .opened .absent)) v
      (createPgPool databaseUrl : CliTask Text Unit) := by
  have hask := h.safe_ask (e := .createPgPool databaseUrl) (by rintro (_ | _) <;> rfl)
    (by rintro _ (_ | _) <;> rfl) hv
  refine hask.imp ?_
  rintro (error | u) v hv
  · exact hv
  · exact hv

/-- A command that opens its clients: an error leaves those that were open before it. -/
theorem Serves.safe_equipped {config : AppConfig} {shouldStage : Bool} {command : CommandLine}
    {f : Unit → CliTask Text Unit}
    (hclients : ∀ error, ∀ s3Client, s3Client ≠ .closed →
      ClientsLeft (having s3Client .absent) command (.error error))
    (hf : ∀ v, Holding Inv Told (equipped shouldStage) v →
      Within services rely guar (Good Inv Told Stopped command) v (f ()))
    (hv : Holding Inv Told (having .absent .absent) v) :
    Within services rely guar (Good Inv Told Stopped command) v
      (createStoreRawResources config shouldStage >>= f : CliTask Text Unit) := by
  refine Async.safe_bind (fun _ => Holding Inv Told (equipped shouldStage)) ?_ fun _ v hv => hf v hv
  unfold createStoreRawResources
  refine Async.safe_bind (fun _ => Holding Inv Told (having .opened .absent))
    ((h.safe_createS3Client hv).imp ?_) fun _ v hv => ?_
  · rintro (error | u) v hv
    · exact good_of (ended_having .absent .absent (hclients error _ nofun)) hv
    · exact hv
  cases shouldStage with
  | false => exact h.safe_done (fun _ hv => hv) hv
  | true =>
    refine (h.safe_createPgPool hv).imp ?_
    rintro (error | u) v hv
    · exact good_of (ended_having .opened .absent (hclients error _ nofun)) hv
    · exact hv

/-- The source URL. -/
theorem Serves.safe_newUrl {sourceUrl : String} {command : CommandLine} {f : Url → CliTask Text Unit}
    (herror : ∀ {stopped : Prop} error, Ended stopped command (.error error) process)
    (hf : ∀ url v, Holding Inv Told process v →
      Within services rely guar (Good Inv Told Stopped command) v (f url))
    (hv : Holding Inv Told process v) :
    Within services rely guar (Good Inv Told Stopped command) v
      (computed (newUrl pf sourceUrl) >>= f : CliTask Text Unit) := by
  refine Async.safe_bind (fun _ => Holding Inv Told process) ((h.safe_computed hv).imp ?_) hf
  rintro (error | url) v hv
  · exact good_of (herror error) hv
  · exact hv

/-- A document is printed, and its `ok` decides on the exit code. -/
theorem Serves.safe_reported (s3Client pool : ClientState) {document : Document}
    {command : CommandLine} (htold : Told document v.1)
    (hanswers : document.Answers command)
    (hcode : document.exitCode = if document.ok then 0 else 2)
    (hclients : ∀ process : Process, process.s3Client = s3Client → process.pool = pool →
      ClientsLeft process command (.ok ()))
    (hv : Holding Inv Told (having s3Client pool) v) :
    Within services rely guar (Good Inv Told Stopped command) v (do
      (writeJson document : CliProgram Text Unit)
      (exitUnless document.ok : CliProgram Text Unit) : CliTask Text Unit) := by
  refine Async.safe_lift_bind _ (h.safe_writeJson htold hv) fun _ v hv => ?_
  have hended : ∀ {stopped : Prop} (exitCode : Option ℕ), exitCode.getD 0 = document.exitCode →
      Ended stopped command (.ok ())
        { having s3Client pool with stdout := [document], exitCode := exitCode } :=
    fun _ hcode => ended_printed document rfl rfl rfl hanswers rfl hcode (hclients _ rfl rfl)
  unfold exitUnless
  split
  case isTrue hok =>
    rw [if_pos hok] at hcode
    exact Async.safe_lift (h.safe_done (fun _ hv => good_of (hended none hcode.symm) hv) hv)
  case isFalse hok =>
    rw [if_neg hok] at hcode
    exact h.safe_setExitCode (hended (some 2) hcode.symm) hv

omit h in
/-- A program of the services that ends with a report. -/
theorem safe_reporting {α : Type} {p : Task Text α} {P : Effect Text → Prop}
    {told : α → Document} {command : CommandLine} {f : α → CliTask Text Unit}
    (hserved : ∀ e, P e → process.served e = process) (hasks : Proc.Asks P p)
    (hsilent : process.stdout = [])
    (herror : ∀ {stopped : Prop} error, Ended stopped command (.error error) process)
    (hp : Proc.Safe services rely guar
      (Async.Outcome (fun a w => Inv w ∧ Told (told a) w) fun _ => Inv) v.1 p)
    (hf : ∀ a v, Holding Inv Told process v → Told (told a) v.1 → (∃ l, Emits p l (.ok a)) →
      Within services rely guar (Good Inv Told Stopped command) v (f a))
    (hv : Holding Inv Told process v) :
    Within services rely guar (Good Inv Told Stopped command) v
      ((service p : CliTask Text α) >>= f : CliTask Text Unit) := by
  have hreport : Within services rely guar (fun r v => Holding Inv Told process v ∧
      Async.Outcome (fun a w => Inv w ∧ Told (told a) w) (fun _ => Inv) r v.1 ∧ ∃ l, Emits p l r) v
      (service p) := by
    refine safe_service hserved hasks hsilent ?_ hv hp.spoken
    rintro (error | a) w ⟨hw, _⟩
    · exact hw
    · exact hw.1
  refine Async.safe_bind (fun a v => Holding Inv Told process v ∧ Told (told a) v.1 ∧
    ∃ l, Emits p l (.ok a)) (hreport.imp ?_) fun a v hv => hf a v hv.1 hv.2.1 hv.2.2
  rintro (error | a) v ⟨hv, hmid, hemits⟩
  · exact good_of (herror error) hv
  · exact ⟨hv, hmid.2, hemits⟩

/-! ### `run-once` -/

omit h in
/-- The exit code of a run is that of its summary, which has a status. -/
theorem summary_of_emits {E : Type} {R : E → Type} {input : RunOnceInput E R}
    {l : List (Σ e : E, R e)} {result : RunOnceResult}
    (hemits : Emits (runOnce pf input) l (.ok result)) :
    result.exitCode = runExitCode result.summary.ok result.summary.status ∧
      ∃ built status, result.summary = buildRunSummary built ∧ built.status = some status := by
  unfold runOnce at hemits
  obtain ⟨_, _, _, _, _, hemits⟩ := Async.emits_bind_ok.1 hemits
  obtain ⟨_, _, _, _, _, hemits⟩ := Async.emits_bind_ok.1 hemits
  obtain ⟨_, _, _, _, _, hemits⟩ := Async.emits_bind_ok.1 hemits
  unfold runFrom at hemits
  obtain ⟨_, _, _, _, _, hemits⟩ := Async.emits_bind_ok.1 hemits
  unfold assembleResult at hemits
  obtain ⟨_, _, _, _, _, hemits⟩ := Async.emits_bind_ok.1 hemits
  obtain ⟨_, _, _, _, _, hemits⟩ := Async.emits_bind_ok.1 hemits
  obtain ⟨_, _, _, _, _, hemits⟩ := Async.emits_bind_ok.1 hemits
  obtain ⟨_, _, _, _, _, hemits⟩ := Async.emits_bind_ok.1 hemits
  obtain ⟨_, hresult⟩ := Proc.emits_pure.1 hemits
  obtain rfl := Except.ok.inj hresult
  exact ⟨rfl, _, _, rfl, rfl⟩

theorem Serves.safe_runOnceWith {options : RunOnceOptions} {startedAt : Date} {uuid : String}
    {config : AppConfig} (hv : Holding Inv Told (having .absent .absent) v) :
    Within services rely guar (Good Inv Told Stopped (.runOnce options)) v
      (runOnceWith pf options startedAt uuid config) := by
  -- an error leaves the clients that are open
  have herror : ∀ {stopped : Prop} s3Client pool (error : JsError), s3Client ≠ .closed →
      pool ≠ .closed → Ended stopped (.runOnce options) (.error error) (having s3Client pool) :=
    fun _ _ _ hs3 hpool => ended_having _ _ ⟨hs3, hpool⟩
  unfold runOnceWith
  refine h.safe_equipped (fun _ _ hs3 => ⟨hs3, nofun⟩) (fun v hv => ?_) hv
  refine h.safe_newUrl (fun _ => herror .opened .opened _ nofun nofun) (fun sourceUrl v hv => ?_) hv
  refine safe_reporting (fun e (_ : True) => Process.expect_of ⟨fun _ => rfl, fun _ => rfl⟩)
    (Proc.asks_any _) rfl (fun _ => herror .opened .opened _ nofun nofun)
    (h.run (runConfigOf config options startedAt uuid sourceUrl) v.1 hv.inv)
    (fun result v hv htold hemits => ?_) hv
  refine Async.safe_lift_bind _ (h.safe_writeJson htold hv) fun _ v hv => ?_
  have hanswers : ∀ document ∈ [Document.run (toCompactSummary result.summary)],
      document.Answers (.runOnce options) := by
    intro document hmem
    rw [List.mem_singleton.1 hmem]
    trivial
  have hprinted : ∀ {stopped : Prop} error, Ended stopped (.runOnce options) (.error error)
      { equipped true with stdout := [.run (toCompactSummary result.summary)] } :=
    fun _ => ended_error rfl rfl rfl Nat.le.refl hanswers rfl (Or.inr ⟨options, rfl⟩) ⟨nofun, nofun⟩
  have hended : ∀ {stopped : Prop}, Ended stopped (.runOnce options) (.ok ())
      { equipped true with
        stdout := [.run (toCompactSummary result.summary)], exitCode := some result.exitCode } := by
    obtain ⟨l, hl⟩ := hemits
    exact ended_printed (.run _) rfl rfl rfl trivial rfl (summary_of_emits hl).1 ⟨nofun, nofun⟩
  -- the logger may reject behind the document
  have hflush := h.safe_ask (e := .flushLogger) (fun _ => rfl) (fun hm _ => hm) hv
  refine Async.safe_bind (fun _ => Holding Inv Told
    { equipped true with stdout := [.run (toCompactSummary result.summary)] }) (hflush.imp ?_)
    fun _ v hv => h.safe_setExitCode hended hv
  rintro (error | u) v hv
  · exact good_of (hprinted error) hv
  · exact hv

theorem Serves.safe_runOnceCommand {env : TextReader pf} {environment : ConfigSource}
    {options : RunOnceOptions} (hv : Holding Inv Told (having .absent .absent) v) :
    Within services rely guar (Good Inv Told Stopped (.runOnce options)) v
      (runOnceCommand env environment options) := by
  unfold runOnceCommand
  refine h.safe_started rfl (fun startedAt uuid v hv => ?_) hv
  refine h.safe_configured (fun _ _ hv => good_of (ended_having .absent .absent ⟨nofun, nofun⟩) hv)
    (fun result v hv => ?_) hv
  cases result with
  | inl issues =>
    exact h.safe_configInvalid (fun _ hok => hok)
      (fun _ hs3 hpool => ⟨hs3 ▸ nofun, hpool ▸ nofun⟩) hv
  | inr config => exact h.safe_runOnceWith hv

/-! ### `watch` -/

omit h in
/-- A watcher that ends gives 0. -/
theorem loop_gives {config : WatchConfig} {l : List (Σ e : Effect Text, Reply e)} {n : ℕ}
    (hemits : Emits (config.loop reader) l n) : n = 0 := by
  unfold WatchConfig.loop runWatchLoop at hemits
  obtain ⟨_, _, _, _, _, hemits⟩ := Proc.emits_bind.1 hemits
  exact (Proc.emits_pure.1 hemits).2

omit h in
/-- A watcher ends only when it is told to stop. -/
theorem told_to_stop {config : WatchConfig} {l : List (Σ e : Effect Text, Reply e)} {n : ℕ}
    (hemits : Emits (config.loop reader) l n) : ⟨.shouldStop, true⟩ ∈ l := by
  have hseam : ∀ {s : List (Σ e : Effect Text, Reply e)},
      Emits (config.toInput reader).shouldStop s true → ⟨.shouldStop, true⟩ ∈ s := by
    intro s hs
    rw [Proc.emits_perform.1 hs]
    exact List.mem_singleton.2 rfl
  have hloop : config.loop reader =
      .loop (fun _ => watchIteration (config.toInput reader)) () fun _ => .pure 0 := rfl
  rw [hloop, Proc.emits_loop] at hemits
  obtain ⟨_, l₁, l₂, l₃, _, rfl, _, hlast, _⟩ := hemits
  refine List.mem_append_left _ (List.mem_append_right _ ?_)
  rcases emits_round_off.1 hlast with hstop | ⟨_, s, c, s', rfl, _, _, hstop⟩
  · exact hseam hstop
  · exact List.mem_append_right _ (List.mem_append_right _ (hseam hstop))

/-- The `try` of a watcher: it listens until it is stopped, and gives no exit code when it rejects. -/
theorem Serves.safe_watchLoop {config : AppConfig} (hv : Holding Inv Told (listening none) v) :
    Within services rely guar (Async.Outcome
      (fun _ => Holding (fun w => Inv w ∧ Stopped w) Told (listening (some 0))) fun _ =>
      Holding Inv Told (listening none)) v (watchLoop reader config) := by
  unfold watchLoop
  refine Async.safe_bind (fun _ => Holding Inv Told (listening none)) ?_ fun sourceUrl v hv => ?_
  · refine (h.safe_computed hv).imp ?_
    rintro (error | url) v hv
    · exact hv
    · exact hv
  have hloop : Within services rely guar (fun n v =>
      Holding (fun w => Inv w ∧ Stopped w) Told (listening none) v ∧ n = 0) v
      (service ((watchConfigOf config sourceUrl).loop reader)) := by
    have hserved : ∀ e : Effect Text, True → (listening none).served e = listening none :=
      fun e _ => Process.expect_of ⟨fun _ => rfl, fun _ => rfl⟩
    have hrun := (h.watch (watchConfigOf config sourceUrl) v.1 hv.inv).spoken
    refine (safe_service hserved (Proc.asks_any _) rfl (fun _ _ hw => hw.1.1) hv hrun).imp ?_
    rintro n v ⟨hv, hstopped, l, hl⟩
    exact ⟨hv.imp fun _ => hstopped, loop_gives hl⟩
  refine Async.safe_lift_bind _ hloop fun n v hv => ?_
  obtain ⟨hv, rfl⟩ := hv
  have hflush := h.stopping.safe_ask (e := .flushLogger) (fun _ => rfl) (fun hm _ => hm) hv
  refine Async.safe_bind (fun _ => Holding (fun w => Inv w ∧ Stopped w) Told (listening none))
    (hflush.imp ?_) fun _ v hv => ?_
  · rintro (error | u) v hv
    · exact hv.imp And.left
    · exact hv
  have hset := h.stopping.safe_ask (e := .setExitCode 0) (fun _ => rfl) (fun hm _ => hm) hv
  exact Async.safe_lift hset

theorem Serves.safe_watchWith {config : AppConfig} (hv : Holding Inv Told (having .absent .absent) v) :
    Within services rely guar (Good Inv Told Stopped .watch) v (watchWith reader config) := by
  unfold watchWith
  refine h.safe_equipped (fun _ s3Client hs3 => ⟨⟨fun hc => absurd hc hs3, nofun⟩, nofun⟩)
    (fun v hv => ?_) hv
  have hterm := h.safe_ask (e := .once .sigterm) (fun _ => rfl) (fun hm _ => hm) hv
  refine Async.safe_lift_bind _ hterm fun _ v hv => ?_
  have hint := h.safe_ask (e := .once .sigint) (fun _ => rfl) (fun hm _ => hm) hv
  refine Async.safe_lift_bind _ hint fun _ v hv => ?_
  refine Async.safe_ensure _ (h.safe_watchLoop hv) fun outcome v hv => ?_
  cases outcome with
  | error error =>
    have hended : ∀ {stopped : Prop}, Ended stopped .watch (.error error) (having .closed .closed) :=
      ended_having _ _ ⟨Iff.rfl, nofun⟩
    refine (h.safe_watchTeardown hv).imp ?_
    rintro (_ | u) v hv
    · exact hv.elim
    · exact good_of hended hv
  | ok u =>
    have hended : ∀ {stopped : Prop}, stopped →
        Ended stopped .watch (.ok ()) { having .closed .closed with exitCode := some 0 } :=
      fun hstopped =>
      { fatal := rfl
        misused := rfl
        listeners := rfl
        printed := Nat.zero_le _
        answers := fun _ hmem => absurd hmem List.not_mem_nil
        resolved := fun _ => Or.inr ⟨rfl, rfl, rfl, hstopped⟩
        rejected := fun hne => absurd rfl hne
        clients := ⟨Iff.rfl, nofun⟩ }
    refine (h.stopping.safe_watchTeardown hv).imp ?_
    rintro (_ | u) v hv
    · exact hv.elim
    · exact good_of (hended hv.inv.2) (hv.imp And.left)

theorem Serves.safe_watchCommand {env : TextReader pf} {environment : ConfigSource}
    (hv : Holding Inv Told (having .absent .absent) v) :
    Within services rely guar (Good Inv Told Stopped .watch) v (watchCommand reader env environment) := by
  unfold watchCommand
  refine h.safe_started rfl (fun startedAt uuid v hv => ?_) hv
  refine h.safe_configured
    (fun _ _ hv => good_of (ended_having .absent .absent ⟨⟨nofun, nofun⟩, nofun⟩) hv)
    (fun result v hv => ?_) hv
  cases result with
  | inl issues =>
    refine h.safe_configInvalid (fun _ hok => hok)
      (fun _ hs3 hpool => ⟨⟨fun hc => ?_, fun hc => ?_⟩, hpool ▸ nofun⟩) hv
    · rw [hs3] at hc
      cases hc
    · rw [hpool] at hc
      cases hc
  | inr config => exact h.safe_watchWith hv

/-! ### `check` -/

theorem Serves.safe_checkSourceConnectivity {sourceUrl : Url} (hv : Holding Inv Told process v) :
    Within services rely guar (Async.Outcome (fun _ => Holding Inv Told process) fun _ =>
      Holding Inv Told process) v (checkSourceConnectivity sourceUrl : CliTask Text ConnectivityCheck) := by
  unfold checkSourceConnectivity
  have hfetch := h.safe_ask (e := .fetchText sourceUrl) (fun _ => rfl) (fun hm _ => hm) hv
  refine Proc.safe_bind_of hfetch fun r v hv => ?_
  match r with
  | .ok _ => exact h.safe_done (fun _ hv => hv) hv
  | .error (.sourceFetch _ _) => exact h.safe_done (fun _ hv => hv) hv
  | .error (.other _) => exact h.safe_done (fun _ hv => hv) hv

theorem Serves.safe_checkS3Connectivity {bucket : String} (hv : Holding Inv Told (equipped true) v) :
    Within services rely guar (fun _ => Holding Inv Told (equipped true)) v
      (checkS3Connectivity bucket : CliProgram Text ConnectivityCheck) := by
  unfold checkS3Connectivity
  have hhead := h.safe_ask (e := .headBucket bucket) (fun _ => rfl) (fun hm _ => hm) hv
  refine Proc.safe_bind_of hhead fun r v hv => ?_
  match r with
  | .ok _ => exact h.safe_done (fun _ hv => hv) hv
  | .error _ => exact h.safe_done (fun _ hv => hv) hv

theorem Serves.safe_checkPostgresConnectivity (hv : Holding Inv Told (equipped true) v) :
    Within services rely guar (fun _ => Holding Inv Told (equipped true)) v
      (checkPostgresConnectivity : CliProgram Text ConnectivityCheck) := by
  unfold checkPostgresConnectivity
  have hbasic := h.safe_ask (e := .query basicReadSql) (fun _ => rfl) (fun hm _ => hm) hv
  refine Proc.safe_bind_of hbasic fun r v hv => ?_
  match r with
  | .error _ => exact h.safe_done (fun _ hv => hv) hv
  | .ok _ =>
    have hstaging := h.safe_ask (e := .query stagingReadSql) (fun _ => rfl) (fun hm _ => hm) hv
    refine Proc.safe_bind_of hstaging fun r v hv => ?_
    match r with
    | .ok _ => exact h.safe_done (fun _ hv => hv) hv
    | .error _ => exact h.safe_done (fun _ hv => hv) hv

/-- The pool is closed behind the staging probe, whatever `end` says. -/
theorem Serves.safe_runStagingCheck (hv : Holding Inv Told (equipped true) v) :
    Within services rely guar (Async.Outcome (fun _ => Holding Inv Told (having .opened .closed)) fun _ =>
      Holding Inv Told (having .opened .closed)) v (runStagingCheck : CliTask Text ConnectivityCheck) := by
  unfold runStagingCheck
  refine Async.safe_ensure (fun _ => Holding Inv Told (equipped true))
    (Async.safe_lift (h.safe_checkPostgresConnectivity hv)) fun r v hv => ?_
  have hend := h.safe_ask (e := .endPool) (fun _ => rfl) (fun hm _ => hm) hv
  refine hend.imp ?_
  rintro (error | u) v hv
  · exact hv
  · cases r <;> exact hv

theorem Serves.safe_checkWith {config : AppConfig} (hv : Holding Inv Told (having .absent .absent) v) :
    Within services rely guar (Good Inv Told Stopped .check) v (checkWith pf config) := by
  -- an error leaves the clients that are open
  have herror : ∀ {stopped : Prop} s3Client pool (error : JsError), s3Client ≠ .closed →
      Ended stopped .check (.error error) (having s3Client pool) :=
    fun _ _ _ hs3 => ended_having _ _ ⟨hs3, nofun⟩
  unfold checkWith
  refine Async.safe_bind (fun _ => Holding Inv Told (having .opened .absent))
    ((h.safe_createS3Client hv).imp ?_) fun _ v hv => ?_
  · rintro (error | u) v hv
    · exact good_of (herror .absent .absent error nofun) hv
    · exact hv
  refine Async.safe_bind (fun _ => Holding Inv Told (equipped true))
    ((h.safe_createPgPool hv).imp ?_) fun _ v hv => ?_
  · rintro (error | u) v hv
    · exact good_of (herror .opened .absent error nofun) hv
    · exact hv
  refine h.safe_newUrl (fun _ => herror .opened .opened _ nofun) (fun sourceUrl v hv => ?_) hv
  refine Async.safe_bind (fun _ => Holding Inv Told (equipped true))
    ((h.safe_checkSourceConnectivity hv).imp ?_) fun sourceConnectivity v hv => ?_
  · rintro (error | u) v hv
    · exact good_of (herror .opened .opened error nofun) hv
    · exact hv
  refine Async.safe_lift_bind _ (h.safe_checkS3Connectivity hv) fun s3Connectivity v hv => ?_
  refine Async.safe_bind (fun _ => Holding Inv Told (having .opened .closed))
    ((h.safe_runStagingCheck hv).imp ?_) fun stagingConnectivity v hv => ?_
  · rintro (error | u) v hv
    · exact good_of (herror .opened .closed error nofun) hv
    · exact hv
  exact h.safe_reported .opened .closed (h.idle (.check _ _ _) _ trivial hv.inv) trivial rfl
    (fun _ hs3 hpool => ⟨hs3 ▸ nofun, fun _ => hpool ▸ nofun⟩) hv

theorem Serves.safe_checkCommand {env : TextReader pf} {environment : ConfigSource}
    (hv : Holding Inv Told (having .absent .absent) v) :
    Within services rely guar (Good Inv Told Stopped .check) v (checkCommand env environment) := by
  unfold checkCommand
  refine h.safe_configured (fun _ _ hv => good_of (ended_having .absent .absent ⟨nofun, nofun⟩) hv)
    (fun result v hv => ?_) hv
  cases result with
  | inl issues =>
    exact h.safe_refuse trivial
      (ended_printed (.checkConfigInvalid _) rfl rfl rfl trivial rfl rfl ⟨nofun, fun _ => nofun⟩) hv
  | inr config => exact h.safe_checkWith hv

/-! ### `contract-check` -/

/-- A program that only reads the source leaves its process alone. -/
theorem Serves.safe_reading {α : Type} {p : CliProgram Text α}
    (hasks : Proc.Asks (fun e => ∃ url, e = .inr (.fetchText url)) p)
    (hv : Holding Inv Told process v) :
    Within services rely guar (fun _ => Holding Inv Told process) v p := by
  refine Lts.Safe.coinduct (fun v q => Proc.Asks (fun e => ∃ url, e = .inr (.fetchText url)) q ∧
    Holding Inv Told process v) ?_ ?_ ?_ ⟨hasks, hv⟩
  · rintro v q v' q' ⟨hq, hv⟩ hs
    obtain ⟨hq', rfl | ⟨_, r, ⟨url, rfl⟩, hworld, hafter⟩⟩ := hq.step hs
    · exact ⟨⟨h.refl _, fun hm => hm⟩, Or.inl ⟨hq', hv⟩⟩
    · obtain rfl : v' = v := Prod.ext hworld hafter
      exact ⟨⟨h.refl _, fun hm => hm⟩, Or.inl ⟨hq', hv⟩⟩
  · exact fun v q v' hv hr => Or.inl ⟨hv.1, h.holding v v' hv.2 hr⟩
  · exact fun _ _ _ hv _ => hv.2

theorem Serves.safe_contractCheckWith {isJson : String → Bool} {config : Config.SourceConfig}
    (hv : Holding Inv Told (having .absent .absent) v) :
    Within services rely guar (Good Inv Told Stopped .contractCheck) v
      (contractCheckWith reader isJson config) := by
  unfold contractCheckWith
  refine h.safe_newUrl (fun _ => ended_having _ _ ⟨rfl, rfl⟩) (fun sourceUrl v hv => ?_) hv
  have hcheck : Within services rely guar (fun _ => Holding Inv Told (having .absent .absent)) v
      (runContractCheck reader.toHtmlReader isJson
        (fun url => (ask (.fetchText url) : CliProgram Text (Except ProbeFailure String))) sourceUrl) :=
    h.safe_reading (asks_runContractCheck fun url => ⟨⟨url, rfl⟩, fun _ => trivial⟩) hv
  refine Async.safe_bind (fun _ => Holding Inv Told (having .absent .absent)) (hcheck.imp ?_)
    fun result v hv => ?_
  · rintro (error | result) v hv
    · exact good_of (ended_having .absent .absent ⟨rfl, rfl⟩) hv
    · exact hv
  exact h.safe_reported .absent .absent (h.idle (.contractCheck result) _ trivial hv.inv) trivial rfl
    (fun _ hs3 hpool => ⟨hs3, hpool⟩) hv

theorem Serves.safe_contractCheckCommand {env : TextReader pf} {isJson : String → Bool}
    {environment : ConfigSource} (hv : Holding Inv Told (having .absent .absent) v) :
    Within services rely guar (Good Inv Told Stopped .contractCheck) v
      (contractCheckCommand reader env isJson environment) := by
  unfold contractCheckCommand
  refine h.safe_configured (fun _ _ hv => good_of (ended_having .absent .absent ⟨rfl, rfl⟩) hv)
    (fun result v hv => ?_) hv
  cases result with
  | inl issues =>
    exact h.safe_refuse trivial
      (ended_printed (.contractCheckConfigInvalid _) rfl rfl rfl trivial rfl rfl ⟨rfl, rfl⟩) hv
  | inr config => exact h.safe_contractCheckWith hv

/-! ### `discover` -/

theorem Serves.safe_dryRunWith {options : DiscoverOptions} {config : Config.SourceConfig}
    (hmode : options.dryRun = true ∧ options.storeRaw = false)
    (hv : Holding Inv Told (having .absent .absent) v) :
    Within services rely guar (Good Inv Told Stopped (.discover options)) v (dryRunWith reader config) := by
  have hended : ∀ {stopped : Prop} error,
      Ended stopped (.discover options) (.error error) (having .absent .absent) :=
    fun _ => ended_having _ _ ⟨nofun, nofun, fun _ => rfl, fun _ => rfl⟩
  have hserved : ∀ e : Effect Text, usesS3 e = false ∧ usesPool e = false →
      (having .absent .absent).served e = having .absent .absent := by
    rintro e ⟨hs3, hpool⟩
    refine Process.expect_of ⟨fun hc => ?_, fun hc => ?_⟩
    · rw [hs3] at hc
      cases hc
    · rw [hpool] at hc
      cases hc
  unfold dryRunWith
  refine h.safe_started rfl (fun _ _ v hv => ?_) hv
  refine h.safe_newUrl hended (fun sourceUrl v hv => ?_) hv
  refine safe_reporting hserved (asks_discoverReplaysDryRun
    (fun _ _ => ⟨⟨rfl, rfl⟩, fun _ => trivial⟩) (fun _ => ⟨⟨rfl, rfl⟩, fun _ => trivial⟩)
    fun gate hgate => by cases hgate) rfl hended (h.discovery _ _ hv.inv)
    (fun report v hv htold _ => ?_) hv
  exact h.safe_reported .absent .absent htold hmode rfl
    (fun _ hs3 hpool => ⟨hs3 ▸ nofun, hpool ▸ nofun, fun _ => hs3, fun _ => hpool⟩) hv

omit h in
/-- Without `--stage` a store-raw discovery does not ask for the pool. -/
theorem asks_discoverAndStore_unstaged {config : StoreRawConfig} (hstage : config.shouldStage = false) :
    Proc.Asks (fun e : Effect Text => usesPool e = false) (discoverAndStore reader config) := by
  have hdiscover : Proc.Asks (fun e : Effect Text => usesPool e = false)
      (discoverForStoreRaw reader config : Program Text (Except JsError DiscoveryReport)) := by
    unfold discoverForStoreRaw
    refine Async.asks_lift_bind ⟨rfl, fun _ => trivial⟩ fun now => ?_
    refine Async.asks_lift_bind ⟨rfl, fun _ => trivial⟩ fun _ => ?_
    exact asks_discoverReplaysDryRun (fun _ _ => ⟨rfl, fun _ => trivial⟩)
      (fun _ => ⟨rfl, fun _ => trivial⟩) fun gate hgate => by cases hgate
  have hstore : ∀ candidate, Proc.Asks (fun e : Effect Text => usesPool e = false)
      (storeRawReplay pf config.bucket candidate) := by
    intro candidate
    rw [storeRawReplay_eq]
    refine ⟨rfl, fun now => ?_⟩
    split
    · trivial
    · refine ⟨rfl, fun r => ?_⟩
      cases r with
      | error error => trivial
      | ok bytes =>
        dsimp only
        rw [s3StoreRawReplay_eq]
        refine ⟨rfl, fun head => ?_⟩
        cases head with
        | ok output => trivial
        | error error =>
          dsimp only
          split
          · exact ⟨rfl, fun _ => trivial⟩
          · trivial
  have hloop : ∀ candidates results, Proc.Asks (fun e : Effect Text => usesPool e = false)
      (storeCandidates pf config candidates results) := by
    intro candidates
    induction candidates with
    | nil => exact fun _ => trivial
    | cons candidate rest ih =>
      intro results
      unfold storeCandidates
      refine Async.asks_bind ?_ fun outcome => ih _
      unfold storeCandidate
      rw [hstage]
      exact Async.asks_bind (hstore candidate) fun _ => trivial
  unfold discoverAndStore
  refine Async.asks_bind hdiscover fun report => Async.asks_bind ?_ fun _ => trivial
  split
  · exact hloop _ _
  · trivial

theorem Serves.safe_storeRawWith {options : DiscoverOptions} {config : AppConfig}
    (hraw : options.storeRaw = true) (hdry : options.dryRun = false)
    (hv : Holding Inv Told (having .absent .absent) v) :
    Within services rely guar (Good Inv Told Stopped (.discover options)) v
      (storeRawWith reader options.stage config) := by
  have hstage : options.stage = false → (equipped options.stage).pool = .absent := by
    intro hfalse
    rw [hfalse]
    rfl
  have hpool : (equipped options.stage).pool ≠ .closed := by
    cases options.stage <;> nofun
  have hraw' : options.storeRaw = false → ∀ s3Client : ClientState, s3Client = .absent := by
    intro hfalse
    rw [hraw] at hfalse
    cases hfalse
  have hended : ∀ {stopped : Prop} error,
      Ended stopped (.discover options) (.error error) (equipped options.stage) :=
    fun _ => ended_having _ _ ⟨nofun, hpool, fun hfalse => hraw' hfalse _, hstage⟩
  unfold storeRawWith
  refine h.safe_equipped (fun _ _ hs3 => ⟨hs3, nofun, fun hfalse => hraw' hfalse _, fun _ => rfl⟩)
    (fun v hv => ?_) hv
  refine h.safe_newUrl hended (fun sourceUrl v hv => ?_) hv
  have hreported : ∀ report v, Holding Inv Told (equipped options.stage) v →
      Told (.storeRaw report) v.1 → report.staging.isSome = options.stage →
      Within services rely guar (Good Inv Told Stopped (.discover options)) v (do
        (writeJson (.storeRaw report) : CliProgram Text Unit)
        (exitUnless report.ok : CliProgram Text Unit) : CliTask Text Unit) :=
    fun report v hv htold hsome => h.safe_reported .opened _ htold ⟨hraw, hdry, hsome⟩ rfl
      (fun _ hs3' hpool' => ⟨hs3' ▸ nofun, hpool' ▸ hpool, fun hfalse => hraw' hfalse _,
        fun hfalse => hpool'.trans (hstage hfalse)⟩) hv
  have hstaging : ∀ report, (∃ l, Emits (discoverAndStore reader
      (storeRawConfigOf config options.stage sourceUrl)) l (.ok report)) →
      report.staging.isSome = options.stage := by
    rintro report ⟨l, hl⟩
    obtain ⟨_, _, _, _, _, _, _, rfl⟩ := stored_of_emits hl
    show Option.isSome (if options.stage = true then some _ else none) = options.stage
    cases options.stage <;> rfl
  cases hshould : options.stage with
  | true =>
    rw [hshould] at hv hended hreported hstaging
    exact safe_reporting (fun e (_ : True) => Process.expect_of ⟨fun _ => rfl, fun _ => rfl⟩)
      (Proc.asks_any _) rfl hended (h.storeRaw _ _ hv.inv)
      (fun report v hv htold hemits => hreported report v hv htold (hstaging report hemits)) hv
  | false =>
    rw [hshould] at hv hended hreported hstaging
    have hserved : ∀ e : Effect Text, usesPool e = false → (equipped false).served e = equipped false := by
      intro e hpool
      refine Process.expect_of ⟨fun _ => rfl, fun hc => ?_⟩
      rw [hpool] at hc
      cases hc
    exact safe_reporting hserved (asks_discoverAndStore_unstaged rfl) rfl hended
      (h.storeRaw _ _ hv.inv)
      (fun report v hv htold hemits => hreported report v hv htold (hstaging report hemits)) hv

theorem Serves.safe_discoverCommand {env : TextReader pf} {environment : ConfigSource}
    {options : DiscoverOptions} (hv : Holding Inv Told (having .absent .absent) v) :
    Within services rely guar (Good Inv Told Stopped (.discover options)) v
      (discoverCommand reader env environment options) := by
  have hidle : ∀ outcome exitCode stdout, ClientsLeft
      { having .absent .absent with stdout := stdout, exitCode := exitCode } (.discover options) outcome :=
    fun _ _ _ => ⟨nofun, nofun, fun _ => rfl, fun _ => rfl⟩
  have hrefuse : ∀ {error issues} v, Holding Inv Told (having .absent .absent) v →
      Within services rely guar (Good Inv Told Stopped (.discover options)) v
        (refuse (.refused error issues) : CliTask Text Unit) :=
    fun v hv => h.safe_refuse trivial
      (ended_printed (.refused _ _) rfl rfl rfl trivial rfl rfl (hidle _ _ _)) hv
  unfold discoverCommand
  split
  · exact hrefuse v hv
  rename_i hboth
  split
  · exact hrefuse v hv
  split
  · rename_i hraw
    have hdry : options.dryRun = false := by
      rw [Bool.eq_false_iff]
      exact fun hdry => hboth ⟨hdry, hraw⟩
    unfold runStoreRawDiscovery
    refine h.safe_configured (fun _ _ hv => good_of (ended_having .absent .absent (hidle _ _ _)) hv)
      (fun result v hv => ?_) hv
    cases result with
    | inl issues => exact hrefuse v hv
    | inr config => exact h.safe_storeRawWith hraw hdry hv
  rename_i hraw
  split
  · exact hrefuse v hv
  · rename_i hdry
    have hmode : options.dryRun = true ∧ options.storeRaw = false :=
      ⟨not_not.1 hdry, Bool.eq_false_iff.2 hraw⟩
    unfold runDryRunDiscovery
    refine h.safe_configured (fun _ _ hv => good_of (ended_having .absent .absent (hidle _ _ _)) hv)
      (fun result v hv => ?_) hv
    cases result with
    | inl issues => exact hrefuse v hv
    | inr config => exact h.safe_dryRunWith hmode hv

/-! ### The entry point -/

/-- **One command**: from a fresh process it leaves behind what it should. -/
theorem Serves.safe_action {env : TextReader pf} {isJson : String → Bool} {environment : ConfigSource}
    (command : CommandLine) (hv : Holding Inv Told (having .absent .absent) v) :
    Within services rely guar (Good Inv Told Stopped command) v
      (action reader env isJson environment command) := by
  cases command with
  | check => exact h.safe_checkCommand hv
  | contractCheck => exact h.safe_contractCheckCommand hv
  | discover options => exact h.safe_discoverCommand hv
  | runOnce options => exact h.safe_runOnceCommand hv
  | watch => exact h.safe_watchCommand hv

/-- **A whole process**: what its command leaves behind, and what is made of an error. -/
theorem Serves.safe_entryPoint {env : TextReader pf} {isJson : String → Bool} {environment : ConfigSource}
    (command : CommandLine) {w : W} (hw : Inv w) :
    Within services rely guar (fun _ => Exited Inv Told Stopped command) (w, {})
      (entryPoint reader env isJson environment command) := by
  unfold entryPoint
  have hstart : Holding Inv Told (having .absent .absent) (w, {}) :=
    ⟨rfl, hw, fun _ hmem => absurd hmem List.not_mem_nil⟩
  refine Proc.safe_bind_of (h.safe_action command hstart) fun outcome v hgood => ?_
  obtain ⟨process, hended, hv⟩ : ∃ process, Ended (Stopped v.1) command outcome process ∧
      Holding (fun w => Inv w ∧ (Stopped v.1 → Stopped w)) Told process v :=
    ⟨v.2, hgood.1, rfl, ⟨hgood.2.1, fun hstopped => hstopped⟩, hgood.2.2⟩
  -- what is left to do does not ask the services, so the watcher stays stopped
  have hk := h.since v.1
  have hsettle : Within services rely guar
      (fun _ => Holding (fun w => Inv w ∧ (Stopped v.1 → Stopped w)) Told (process.settled outcome)) v
      (settle outcome : CliProgram Text Unit) := by
    cases outcome with
    | ok u => exact hk.safe_done (fun _ hv => hv) hv
    | error error =>
      have hfatal := hk.safe_ask (e := .captureFatal error) (fun _ => rfl) (fun hm _ => hm) hv
      refine Proc.safe_bind_of hfatal fun _ v hv => ?_
      exact hk.safe_ask (e := .setExitCode 1) (fun _ => rfl) (fun hm _ => hm) hv
  refine Proc.safe_bind_of hsettle fun _ v' hv' => ?_
  have hflush := hk.safe_ask (e := .flushSentry) (fun _ => rfl) (fun hm _ => hm) hv'
  refine Proc.safe_bind_of hflush fun _ v' hv' => ?_
  exact hk.safe_done
    (fun _ hv => ⟨outcome, process, hended.imp hv.inv.2, hv.imp And.left⟩) hv'

end Serves

end Rules

end ReplaysFetcher.Cli
