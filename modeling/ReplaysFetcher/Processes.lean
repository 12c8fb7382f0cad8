/-
  Processes.

  What a process leaves behind, whatever its services, its clients and its logger answer
  (`exit_code_agrees`, `clients_in_order`), and what the exit code 0 means for the stores when many
  processes share them (`exit_zero_delivers`).

  What a process has asked of the services is on its record (`Env.recorded`).  A fact about an end,
  such as that the watcher was told to stop, or which run a printed summary belongs to, is a fact
  about that record.
-/
import ReplaysFetcher.CliProcess

namespace ReplaysFetcher.Cli

open Effectful Config

/-! ## A calm process to compute with -/

def toyTexts : TextReader toyPlatform where
  toNumber text := (digitsValue text).elim .nan fun n => .finite n
  url := some
  message _ := "Invalid input"
  parse_url _ _ _ := rfl

/-- The replies of a process for which nothing goes wrong. -/
def calmReply : (e : CliEffect) → CliReply e
  | .randomUUID => "uuid"
  | .createS3Client _ => .ok ()
  | .createPgPool _ => .ok ()
  | .fetchText _ => .ok "a"
  | .headBucket _ => .ok ()
  | .query _ => .ok ()
  | .destroyS3Client => .ok ()
  | .endPool => .ok ()
  | .once _ => ()
  | .removeListener _ => ()
  | .writeJson _ => ()
  | .setExitCode _ => ()
  | .flushLogger => .ok ()
  | .warn _ => ()
  | .captureFatal _ => ()
  | .flushSentry => true

/-- The deployment, in which a watcher is told to stop at once. -/
def stopServe (w : World (Option Json)) : (e : Effect (Option Json)) → Reply e × World (Option Json)
  | .shouldStop => (true, w)
  | e => toyDeployment.serve w e

theorem step_stopServe (w : World (Option Json)) (e : Effect (Option Json)) :
    (toyDeployment.services : Backend (Option Json)).Step w e (stopServe w e).1 (stopServe w e).2 := by
  have hstep := toyDeployment.step_services (fun _ => ⟨[7], rfl⟩) w e
  cases e with
  | shouldStop => rfl
  | _ => exact hstep

/-- A calm process beside a server. -/
def calmServe {W : Type} (serve : W → (e : Effect (Option Json)) → Reply e × W) (v : W × Process) :
    (e : Effect (Option Json) ⊕ CliEffect) → Sum.elim Reply CliReply e × (W × Process)
  | .inl e => ((serve v.1 e).1, (serve v.1 e).2, v.2.served e)
  | .inr e => (calmReply e, v.1, v.2.after e (calmReply e))

theorem processEnv_calmServe {W : Type} {services : Env W (Effect (Option Json)) Reply}
    {serve : W → (e : Effect (Option Json)) → Reply e × W}
    (h : ∀ w e, services w e (serve w e).1 (serve w e).2) (v : W × Process)
    (e : Effect (Option Json) ⊕ CliEffect) :
    processEnv services v e (calmServe serve v e).1 (calmServe serve v e).2 := by
  cases e with
  | inl e => exact ⟨h v.1 e, rfl⟩
  | inr e => exact ⟨rfl, rfl⟩

def toyEntryPoint (command : CommandLine) : CliProgram (Option Json) Unit :=
  entryPoint toyReader toyTexts (fun _ => true) (KeyBuilding.environment "LOG_LEVEL" "info") command

/-- A process on its own, to its end. -/
def calmProcess (command : CommandLine) :
    (RecordedWorld Unit (Option Json) × Process) × CliProgram (Option Json) Unit :=
  Proc.exec (calmServe (recordServe stopServe ())) 80
    (((emptyWorld, fun _ => []), {}), toyEntryPoint command)

theorem runs_calmProcess (command : CommandLine) :
    (Proc.lts (processEnv ((toyDeployment.services : Backend (Option Json)).Step.recorded ())) Unit).Runs
      (during (Recorded.during () Lts.Alone)) ((emptyWorld, fun _ => []), {}) (toyEntryPoint command)
      ((calmProcess command).1.1, (calmProcess command).1.2) (calmProcess command).2 :=
  Proc.runs_exec (processEnv_calmServe (recorded_serve step_stopServe)) 80
    (((emptyWorld, fun _ => []), {}), toyEntryPoint command)

section Alone

variable {W Text : Type} {pf : Platform Text} {reader : SourceReader pf} {env : TextReader pf}
  {isJson : String → Bool} {environment : ConfigSource} {command : CommandLine}
  {services : Env W (Effect Text) Reply} {rely : W → W → Prop} {w w' : W} {process : Process}
  {program : CliProgram Text Unit}

/-- Nothing is relied on. -/
theorem serves_anything : Serves reader services rely (fun _ _ => True) (fun _ => True)
    (fun _ _ => True) (fun _ => True) where
  refl _ := trivial
  stable _ _ _ _ := trivial
  lasts _ _ _ _ _ := trivial
  stays _ _ _ _ := trivial
  idle _ _ _ _ := trivial
  now w _ := (Proc.safe_any (fun _ _ => trivial) _).imp fun _ _ _ => trivial
  run config w _ := (Proc.safe_any (fun _ _ => trivial) _).imp fun r w _ => by
    cases r <;> trivial
  watch config w _ := (Proc.safe_any (fun _ _ => trivial) _).imp fun _ _ _ => ⟨trivial, trivial⟩
  discovery input w _ := (Proc.safe_any (fun _ _ => trivial) _).imp fun r w _ => by
    cases r <;> trivial
  storeRaw config w _ := (Proc.safe_any (fun _ _ => trivial) _).imp fun r w _ => by
    cases r <;> trivial

/-- Nothing is relied on, and a watcher that has ended was told to stop. -/
theorem serves_recorded {ι : Type} [DecidableEq ι] (i : ι) :
    Serves reader (services.recorded i) (Recorded.during i rely) (fun _ _ => True) (fun _ => True)
      (fun _ _ => True) (fun w => ⟨.shouldStop, true⟩ ∈ conversation (w.2 i)) := by
  have hany : Serves reader (services.recorded i) (Recorded.during i rely) (fun _ _ => True)
      (fun _ => True) (fun _ _ => True) (fun _ => True) := serves_anything
  refine { hany with stays := fun w w' hw hr => ?_, watch := fun config w _ => ?_ }
  · rw [hr.2]
    exact hw
  · have hloop : Proc.Safe services rely (fun _ _ => True) (fun _ _ => True) w.1
        (config.loop reader) := Proc.safe_any (fun _ _ => trivial) _
    refine hloop.recorded.weaken (fun _ _ hr => hr) (fun _ _ _ => trivial) ?_
    rintro n w' ⟨-, l, hl, hsaid⟩
    rw [hsaid]
    exact ⟨trivial, List.mem_append_right _ (told_to_stop hl)⟩

/-- A document gives 0 or 2. -/
theorem Document.exitCode_ne_one (document : Document) : document.exitCode ≠ 1 := by
  have hcode : ∀ ok : Bool, (if ok then 0 else 2) ≠ 1 := by decide
  cases document with
  | run summary =>
    show runExitCode summary.ok summary.status ≠ 1
    unfold runExitCode
    split
    · exact hcode _
    · exact hcode _
    · decide
  | checkConfigInvalid _ | contractCheckConfigInvalid _ | refused _ _ => exact hcode false
  | _ => exact hcode _

/-- **The exit code says what was printed.**  A process that ends has printed at most one document,
    one of its command.  It gives 1 exactly when it has reported an error, and then only a run may
    have printed; else it gives the code of its document, and only a watcher ends with nothing
    printed: it was told to stop, and gives 0. -/
theorem exit_code_agrees {ι : Type} [DecidableEq ι] {i : ι} {w' : Recorded ι W (Effect Text) Reply}
    (hruns : (Proc.lts (processEnv (services.recorded i)) Unit).Runs
      (during (Recorded.during i rely)) ((w, fun _ => []), {})
      (entryPoint reader env isJson environment command) (w', process) (.pure ())) :
    (∀ document ∈ process.stdout, document.Answers command) ∧ process.stdout.length ≤ 1 ∧
    (process.exitCode.getD 0 = 1 ↔ process.fatal.isSome = true) ∧
    (process.fatal = none →
      (∃ document, process.stdout = [document] ∧ process.exitCode.getD 0 = document.exitCode) ∨
      (command = .watch ∧ process.stdout = [] ∧ process.exitCode.getD 0 = 0 ∧
        ⟨.shouldStop, true⟩ ∈ conversation (w'.2 i))) ∧
    (process.fatal.isSome = true → process.stdout = [] ∨ ∃ options, command = .runOnce options) := by
  have hsafe : Within (services.recorded i) (Recorded.during i rely) (fun _ _ => True)
      (fun _ => Exited (fun _ => True) (fun _ _ => True)
        (fun w => ⟨.shouldStop, true⟩ ∈ conversation (w.2 i)) command)
      ((w, fun _ => []), {}) (entryPoint reader env isJson environment command) :=
    (serves_recorded i).safe_entryPoint command trivial
  obtain ⟨outcome, before, hended, hv⟩ := hsafe.of_run hruns
  obtain rfl : process = before.settled outcome := hv.same
  cases outcome with
  | error error =>
    have hrejected := hended.rejected nofun
    exact ⟨hended.answers, hended.printed, ⟨fun _ => rfl, fun _ => rfl⟩, nofun, fun _ => hrejected.2⟩
  | ok u =>
    have hfatal : before.fatal = none := hended.fatal
    show (∀ document ∈ before.stdout, document.Answers command) ∧ before.stdout.length ≤ 1 ∧
      (before.exitCode.getD 0 = 1 ↔ before.fatal.isSome = true) ∧
      (before.fatal = none → (∃ document : Document, before.stdout = [document] ∧
          before.exitCode.getD 0 = document.exitCode) ∨
        (command = .watch ∧ before.stdout = [] ∧ before.exitCode.getD 0 = 0 ∧
          ⟨.shouldStop, true⟩ ∈ conversation (w'.2 i))) ∧
      (before.fatal.isSome = true → before.stdout = [] ∨ ∃ options, command = .runOnce options)
    rw [hfatal]
    refine ⟨hended.answers, hended.printed, ⟨fun hone => ?_, nofun⟩, fun _ => ?_, nofun⟩
    · rcases hended.resolved rfl with ⟨document, _, hcode⟩ | ⟨_, _, hcode, _⟩
      · rw [hone] at hcode
        exact absurd hcode.symm document.exitCode_ne_one
      · rw [hcode] at hone
        cases hone
    · rcases hended.resolved rfl with hprinted | ⟨hwatch, hsilent, hcode, hstopped⟩
      · exact Or.inl hprinted
      · exact Or.inr ⟨hwatch, hsilent, by rw [hcode]; rfl, hstopped⟩

/-- A run on its own, to its end, and a watcher that is told to stop. -/
theorem exit_code_agrees_run :
    (∃ document : Document, document.Answers (.runOnce {}) ∧
      (calmProcess (.runOnce {})).1.2.stdout = [document] ∧ document.exitCode = 0) ∧
    (calmProcess .watch).1.2.stdout = [] ∧
      ⟨.shouldStop, true⟩ ∈ conversation ((calmProcess .watch).1.1.2 ()) := by
  have hruns := runs_calmProcess (.runOnce {})
  obtain ⟨hdone, hfatal, hcode⟩ : (calmProcess (.runOnce {})).2 = Proc.pure () ∧
      (calmProcess (.runOnce {})).1.2.fatal = none ∧
      (calmProcess (.runOnce {})).1.2.exitCode = some 0 := ⟨rfl, by decide +kernel, by decide +kernel⟩
  rw [hdone] at hruns
  have hwatches := runs_calmProcess .watch
  obtain ⟨hended, hcalm, hsilent⟩ : (calmProcess .watch).2 = Proc.pure () ∧
      (calmProcess .watch).1.2.fatal = none ∧
      (calmProcess .watch).1.2.stdout.length = 0 := ⟨rfl, by decide +kernel, by decide +kernel⟩
  rw [hended] at hwatches
  obtain ⟨hanswers, _, _, hresolved, _⟩ := exit_code_agrees hruns
  obtain ⟨_, _, _, hstopped, _⟩ := exit_code_agrees hwatches
  constructor
  · rcases hresolved hfatal with ⟨document, hprinted, hsame⟩ | ⟨hwatch, _⟩
    · rw [hcode] at hsame
      refine ⟨document, hanswers document ?_, hprinted, hsame.symm⟩
      rw [hprinted]
      exact List.mem_singleton.2 rfl
    · cases hwatch
  · rcases hstopped hcalm with ⟨document, hprinted, _⟩ | ⟨_, hnothing, _, hmem⟩
    · rw [hprinted] at hsilent
      cases hsilent
    · exact ⟨hnothing, hmem⟩

/-- **No client is used out of its time**: in every state of a process no client has been used while
    it was not open, opened twice or closed twice.  Once the process has ended it listens to no
    signal, and its clients are left as its command leaves them. -/
theorem clients_in_order (hruns : (Proc.lts (processEnv services) Unit).Runs (during rely) (w, {})
      (entryPoint reader env isJson environment command) (w', process) program) :
    process.misused = false ∧ (program = .pure () → process.listeners = [] ∧
      ∃ outcome, (outcome = .ok () ↔ process.fatal = none) ∧ ClientsLeft process command outcome) := by
  have hsafe : Within services rely (fun _ _ => True)
      (fun _ => Exited (fun _ => True) (fun _ _ => True) (fun _ => True) command) (w, {})
      (entryPoint reader env isJson environment command) :=
    serves_anything.safe_entryPoint command trivial
  refine ⟨?_, ?_⟩
  · have halways := hsafe.always (I := fun v => v.2.misused = false) (fun _ _ hv hg => hg.2 hv)
      (fun _ _ hv hr => hr.2 ▸ hv) rfl hruns
    exact halways
  · rintro rfl
    obtain ⟨outcome, before, hended, hv⟩ := hsafe.of_run hruns
    obtain rfl : process = before.settled outcome := hv.same
    have hclients := hended.clients
    cases outcome with
    | ok u => exact ⟨hended.listeners, .ok u, ⟨fun _ => hended.fatal, fun _ => rfl⟩, hclients⟩
    | error error =>
      refine ⟨hended.listeners, .error error, ⟨nofun, nofun⟩, ?_⟩
      cases command <;> exact hclients

/-- A watcher on its own, to its end: it has opened both clients, and closed them. -/
theorem clients_in_order_watch : (calmProcess .watch).1.2.misused = false ∧
    (calmProcess .watch).1.2.listeners = [] ∧
    (calmProcess .watch).1.2.s3Client = .closed ∧ (calmProcess .watch).1.2.pool = .closed ∧
    ∃ outcome, ClientsLeft (calmProcess .watch).1.2 .watch outcome := by
  have hdone : (calmProcess .watch).2 = Proc.pure () := rfl
  obtain ⟨hs3, hpool⟩ : (calmProcess .watch).1.2.s3Client = .closed ∧
      (calmProcess .watch).1.2.pool = .closed := by decide +kernel
  obtain ⟨hmisused, hended⟩ := clients_in_order (runs_calmProcess .watch)
  obtain ⟨hlisteners, outcome, _, hclients⟩ := hended hdone
  exact ⟨hmisused, hlisteners, hs3, hpool, outcome, hclients⟩

end Alone

/-! ## Among other processes -/

/-- Process `i`, among others over the same services. -/
def processesEnv {ι W Text : Type} (services : Env W (Effect Text) Reply) (i : ι) :
    Env (W × (ι → Process)) (Effect Text ⊕ CliEffect) (Sum.elim Reply CliReply) :=
  fun v e r v' => processEnv services (v.1, v.2 i) e r (v'.1, v'.2 i) ∧ ∀ j, j ≠ i → v'.2 j = v.2 j

section Among

variable {ι W Text : Type} {pf : Platform Text} {services : ι → Env W (Effect Text) Reply}
  {w w' : W} {processes : ι → Process} {programs : ι → CliProgram Text Unit}

/-- A process does not notice the others, but for what they do to the services. -/
theorem safe_among {reader : SourceReader pf} {env : TextReader pf} {isJson : String → Bool}
    {environment : ConfigSource} {rely guar : W → W → Prop} {Inv : W → Prop}
    {Told : Document → W → Prop} {Stopped : W → Prop} (i : ι)
    (h : Serves reader (services i) rely guar Inv Told Stopped) (command : CommandLine) (hw : Inv w) :
    Proc.Safe (processesEnv (services i) i) (fun v v' => rely v.1 v'.1 ∧ v'.2 i = v.2 i)
      (fun v v' => guar v.1 v'.1 ∧ ∀ j, j ≠ i → v'.2 j = v.2 j)
      (fun _ v => Exited Inv Told Stopped command (v.1, v.2 i)) (w, fun _ => {})
      (entryPoint reader env isJson environment command) := by
  let view : W × (ι → Process) → W × Process := fun v => (v.1, v.2 i)
  have hown : Within (services i) rely guar (fun _ => Exited Inv Told Stopped command)
      (view (w, fun _ => {})) (entryPoint reader env isJson environment command) :=
    h.safe_entryPoint command hw
  have hseen : Proc.Safe (processesEnv (services i) i) (fun v v' => rely v.1 v'.1 ∧ v'.2 i = v.2 i)
      (fun v v' => alongside guar (view v) (view v') ∧ ∀ j, j ≠ i → v'.2 j = v.2 j)
      (fun _ v => Exited Inv Told Stopped command (view v) ∧ True) (w, fun _ => {})
      (entryPoint reader env isJson environment command) :=
    Proc.safe_seen (P := fun _ => True) (A := fun _ => True)
      (fun _ _ _ _ _ _ henv => ⟨henv.1, trivial, henv.2⟩) (fun _ _ _ => rfl)
      (fun _ _ _ hr => ⟨hr, trivial⟩) (Proc.asks_any _) trivial hown
  exact hseen.weaken (fun _ _ hr => hr) (fun _ _ hg => ⟨hg.1.1, hg.2⟩) fun _ _ hv => hv.1

variable [DecidableEq ι]

/-- What is so of a process that has ended among others. -/
theorem exited_of_pool {readers : ι → SourceReader pf} {envs : ι → TextReader pf}
    {isJsons : ι → String → Bool} {environments : ι → ConfigSource} {commands : ι → CommandLine}
    {rely guar : ι → W → W → Prop} {Inv : W → Prop} {Told : ι → Document → W → Prop}
    {Stopped : ι → W → Prop}
    (h : ∀ i, Serves (readers i) (services i) (rely i) (guar i) Inv (Told i) (Stopped i))
    (hmeet : ∀ i j, i ≠ j → ∀ w w', guar i w w' → rely j w w') (hw : Inv w)
    (hruns : Lts.PoolRuns (fun i => Proc.lts (processesEnv (services i) i) Unit) (w, fun _ => {})
      (fun i => entryPoint (readers i) (envs i) (isJsons i) (environments i) (commands i))
      (w', processes) programs) {i : ι} (hdone : programs i = .pure ()) :
    Exited Inv (Told i) (Stopped i) (commands i) (w', processes i) := by
  have hsafe : ∀ i, Proc.Safe (processesEnv (services i) i)
      (fun v v' => rely i v.1 v'.1 ∧ v'.2 i = v.2 i)
      (fun v v' => guar i v.1 v'.1 ∧ ∀ j, j ≠ i → v'.2 j = v.2 j)
      (fun _ v => Exited Inv (Told i) (Stopped i) (commands i) (v.1, v.2 i)) (w, fun _ => {})
      (entryPoint (readers i) (envs i) (isJsons i) (environments i) (commands i)) :=
    fun i => safe_among i (h i) (commands i) hw
  have hend : Proc.Safe (processesEnv (services i) i)
      (fun v v' => rely i v.1 v'.1 ∧ v'.2 i = v.2 i)
      (fun v v' => guar i v.1 v'.1 ∧ ∀ j, j ≠ i → v'.2 j = v.2 j)
      (fun _ v => Exited Inv (Told i) (Stopped i) (commands i) (v.1, v.2 i)) (w', processes)
      (programs i) := by
    refine Lts.PoolRuns.safe ?_ hsafe hruns i
    exact fun i j hij v v' hg => ⟨hmeet j i (Ne.symm hij) _ _ hg.1, hg.2 i hij⟩
  rw [hdone] at hend
  exact hend.of_pure

end Among

/-! ## The exit code 0 -/

/-- A document with a conversation behind it, which is the last on the record of process `i`, and what
    is so of its results in the stores. -/
def Document.Witnessed {ι Text : Type} {pf : Platform Text} (reader : SourceReader pf) (i : ι) :
    Document → RecordedWorld ι Text → Prop
  | .run summary, w => ∃ (config : RunConfig) (said : List (Σ e : Effect Text, Reply e))
      (result : RunOnceResult), said <:+ conversation (w.2 i) ∧
      Emits (config.run pf) said (.ok result) ∧ summary = toCompactSummary result.summary ∧
      (integrityRule pf).Told result.summary.rawStorage result.summary.staging w.1
  | .storeRaw report, w => (∃ (config : StoreRawConfig) (said : List (Σ e : Effect Text, Reply e)),
      said <:+ conversation (w.2 i) ∧ Emits (discoverAndStore reader config) said (.ok report)) ∧
      (integrityRule pf).Told report.storage (report.staging.getD []) w.1
  | _, _ => True

section Delivery

variable {ι Text : Type} [DecidableEq ι] {pf : Platform Text} {b : Backend Text}

theorem serves_backend (reader : SourceReader pf) (i : ι) :
    Serves reader (b.Step.recorded i) (Recorded.during i (Retains pf))
      (Recorded.alongside i (Retains pf)) (fun w => Consistent pf w.1) (Document.Witnessed reader i)
      (fun _ => True) where
  refl w := ⟨Retains.refl w.1, fun _ _ => rfl⟩
  stable _ _ hw hr := hr.1.consistent hw
  stays _ _ _ _ := trivial
  lasts document w w' hw hr := by
    cases document with
    | run summary =>
      obtain ⟨config, said, result, hsaid, hemits, hsummary, htold⟩ := hw
      exact ⟨config, said, result, hr.2 ▸ hsaid, hemits, hsummary,
        lasts_integrityRule.told htold hr.1⟩
    | storeRaw report =>
      obtain ⟨⟨config, said, hsaid, hemits⟩, htold⟩ := hw
      exact ⟨⟨config, said, hr.2 ▸ hsaid, hemits⟩, lasts_integrityRule.told htold hr.1⟩
    | _ => trivial
  idle document w hidle _ := by
    cases document with
    | run summary => exact hidle.elim
    | storeRaw report => exact hidle.elim
    | _ => trivial
  now w hw := by
    have hquiet : Proc.Quiet b.Step (Retains pf) (Retains pf) (nowRequest : Program Text Date) :=
      quiet_request (e := .now) trivial
    have hnow := (hquiet _ (fun _ _ hw hr => hr.consistent hw) w.1 hw).recorded (i := i) (w := w)
    exact hnow.imp fun _ _ hw => hw.1
  run config w hw := by
    refine (((runResults_config config).safe_runOnce hw).recorded (i := i) (w := w)).imp ?_
    rintro (error | result) w' ⟨hw', said, hsaid, hrecord⟩
    · exact hw'
    · have htold : (integrityRule pf).Told result.summary.rawStorage result.summary.staging w'.1 := hw'
      exact ⟨htold.always, config, said, result, ⟨_, hrecord.symm⟩, hsaid, rfl, htold⟩
  watch config w hw :=
    ((watchResults_config reader config).safe_runWatchLoop hw).recorded (i := i) (w := w)
      |>.imp fun _ _ hw => ⟨hw.1, trivial⟩
  discovery input w hw := by
    have hasks : Proc.Asks OffStorage (discoverReplaysDryRun reader input.dryRunOptions :
        Program Text (Except JsError DiscoveryReport)) :=
      asks_discoverReplaysDryRun (fun _ _ => ⟨trivial, fun _ => trivial⟩)
        (fun _ => ⟨trivial, fun _ => trivial⟩) fun gate hgate => by cases hgate
    have hquiet := quiet_of_offStorage (b := b) hasks _ (fun _ _ hw hr => hr.consistent hw) w.1 hw
    refine (hquiet.recorded (i := i) (w := w)).imp ?_
    rintro (error | report) w' ⟨hw', _⟩
    · exact hw'
    · exact ⟨hw', trivial⟩
  storeRaw config w hw := by
    refine ((safe_discoverAndStore reader config hw).recorded (i := i) (w := w)).imp ?_
    rintro (error | report) w' ⟨hw', said, hsaid, hrecord⟩
    · exact hw'
    · have htold : (integrityRule pf).Told report.storage (report.staging.getD []) w'.1 := hw'
      exact ⟨htold.always, ⟨config, said, ⟨_, hrecord.symm⟩, hsaid⟩, htold⟩

omit [DecidableEq ι] in
/-- A process that gives 0 has printed something good. -/
theorem printed_of_zero {reader : SourceReader pf} {i : ι} {command : CommandLine} {process : Process}
    {w : RecordedWorld ι Text}
    (h : Exited (fun w => Consistent pf w.1) (Document.Witnessed reader i) (fun _ => True) command
      (w, process)) (hzero : process.exitCode.getD 0 = 0) :
    (∃ document, document.Answers command ∧ process.stdout = [document] ∧ document.exitCode = 0 ∧
      document.Witnessed reader i w) ∨ command = .watch := by
  obtain ⟨outcome, before, hended, hv⟩ := h
  obtain rfl : process = before.settled outcome := hv.same
  cases outcome with
  | error error => cases hzero
  | ok u =>
    rcases hended.resolved rfl with ⟨document, hprinted, hcode⟩ | ⟨hwatch, _⟩
    · have hmem : document ∈ before.stdout := by
        rw [hprinted]
        exact List.mem_singleton.2 rfl
      exact Or.inl ⟨document, hended.answers document hmem, hprinted, hcode.symm.trans hzero,
        hv.told document hmem⟩
    · exact Or.inr hwatch

omit [DecidableEq ι] in
/-- A run whose summary stands for 0 is complete, and each of its results is in the stores. -/
theorem delivered_of_runExitCode {config : RunConfig} {said : List (Σ e : Effect Text, Reply e)}
    {result : RunOnceResult} {w : World Text} (hemits : Emits (config.run pf) said (.ok result))
    (htold : (integrityRule pf).Told result.summary.rawStorage result.summary.staging w)
    (hcode : runExitCode result.summary.ok result.summary.status = 0) :
    result.summary.status = some .complete ∧
      (∀ rawResult ∈ result.summary.rawStorage, ∃ evidence, rawResult = .stored evidence ∧
        Backed pf evidence.checksum evidence.objectKey w) ∧
      ∀ stagingResult ∈ result.summary.staging, ∃ payload, stagingResult.payload = some payload ∧
        Backed pf payload.checksum payload.objectKey w ∧
        ∃ row ∈ w.staging, row.checksum = payload.checksum ∧ row.objectKey = payload.objectKey := by
  obtain ⟨_, built, status, hbuilt, hstatus⟩ := summary_of_emits hemits
  rw [hbuilt, status_buildRunSummary, hstatus, runExitCode_eq_zero, ok_buildRunSummary_iff] at hcode
  obtain ⟨⟨_, hstored, hstaged⟩, rfl⟩ := hcode
  refine ⟨?_, fun rawResult hmem => ?_, fun stagingResult hmem => ?_⟩
  · rw [hbuilt, status_buildRunSummary, hstatus]
  · refine (htold.raw rawResult hmem).2 (hstored rawResult ?_)
    rwa [hbuilt, rawStorage_buildRunSummary] at hmem
  · refine (htold.staged stagingResult hmem).2 (hstaged stagingResult ?_)
    rwa [hbuilt, staging_buildRunSummary] at hmem

omit [DecidableEq ι] in
/-- A store-raw report lists staging results exactly when it was made with `--stage`. -/
theorem isSome_staging_of_emits {reader : SourceReader pf} {config : StoreRawConfig}
    {said : List (Σ e : Effect Text, Reply e)} {report : StoreRawReport}
    (hemits : Emits (discoverAndStore reader config) said (.ok report)) :
    report.staging.isSome = config.shouldStage := by
  obtain ⟨_, _, _, _, _, _, _, rfl⟩ := stored_of_emits hemits
  show (if config.shouldStage then some _ else none).isSome = _
  cases config.shouldStage <;> rfl

/-- **The exit code 0 can be acted on.**  However many processes share the stores and wherever each of
    them is stopped: when a run has ended with 0, the last it has asked for is a complete run, it has
    printed the summary of that run, and every result of it is in the stores; when a store-raw
    discovery with `--stage` has ended with 0, it has printed the report of what it asked for last,
    and every candidate there has a row that names its payload's object, which is there too. -/
theorem exit_zero_delivers {readers : ι → SourceReader pf} {envs : ι → TextReader pf}
    {isJsons : ι → String → Bool} {environments : ι → ConfigSource} {commands : ι → CommandLine}
    {w : World Text} {w' : RecordedWorld ι Text} {processes : ι → Process}
    {programs : ι → CliProgram Text Unit} (hw : Consistent pf w)
    (hruns : Lts.PoolRuns (fun i => Proc.lts (processesEnv (b.Step.recorded i) i) Unit)
      ((w, fun _ => []), fun _ => {})
      (fun i => entryPoint (readers i) (envs i) (isJsons i) (environments i) (commands i))
      (w', processes) programs)
    {i : ι} (hdone : programs i = .pure ()) (hzero : (processes i).exitCode.getD 0 = 0) :
    (∀ options, commands i = .runOnce options → ∃ (config : RunConfig) (said : _)
      (result : RunOnceResult), said <:+ conversation (w'.2 i) ∧
      Emits (config.run pf) said (.ok result) ∧
      (processes i).stdout = [.run (toCompactSummary result.summary)] ∧
      result.summary.status = some .complete ∧
      (∀ rawResult ∈ result.summary.rawStorage, ∃ evidence, rawResult = .stored evidence ∧
        Backed pf evidence.checksum evidence.objectKey w'.1) ∧
      ∀ stagingResult ∈ result.summary.staging, ∃ payload, stagingResult.payload = some payload ∧
        Backed pf payload.checksum payload.objectKey w'.1 ∧
        ∃ row ∈ w'.1.staging, row.checksum = payload.checksum ∧ row.objectKey = payload.objectKey) ∧
    ∀ options, commands i = .discover options → options.storeRaw = true → options.stage = true →
      ∃ (config : StoreRawConfig) (said : _) (report : StoreRawReport)
        (stagingResults : List IngestStagingResult), said <:+ conversation (w'.2 i) ∧
        Emits (discoverAndStore (readers i) config) said (.ok report) ∧
        (processes i).stdout = [.storeRaw report] ∧ report.staging = some stagingResults ∧
        List.Forall₂ (Delivered pf w'.1) report.candidates stagingResults := by
  have hexited := exited_of_pool (fun i => serves_backend (b := b) (readers i) i)
    (fun i j hij _ _ hg => ⟨hg.1, hg.2 j hij.symm⟩) hw hruns hdone
  rcases printed_of_zero hexited hzero with ⟨document, hanswers, hprinted, hcode, htold⟩ | hwatch
  · refine ⟨fun options hcommand => ?_, fun options hcommand hraw hstage => ?_⟩
    · -- `run-once`: the exit code is that of the summary, which is complete and without a failed result
      rw [hcommand] at hanswers
      cases document with
      | run summary =>
        obtain ⟨config, said, result, hsaid, hemits, rfl, htold⟩ := htold
        obtain ⟨hcomplete, hraw, hstaged⟩ := delivered_of_runExitCode hemits htold hcode
        exact ⟨config, said, result, hsaid, hemits, hprinted, hcomplete, hraw, hstaged⟩
      | configInvalid summary =>
        have hok : summary.ok = false := hanswers
        have hcode' : (if summary.ok then 0 else 2) = 0 := hcode
        rw [hok] at hcode'
        cases hcode'
      | _ => exact hanswers.elim
    · -- `discover --store-raw --stage`: the exit code is `report.ok`
      rw [hcommand] at hanswers
      cases document with
      | storeRaw report =>
        obtain ⟨_, _, hsome⟩ := hanswers
        obtain ⟨⟨config, said, hsaid, hemits⟩, htold⟩ := htold
        have hok : report.ok = true := by
          by_contra hok
          have hcode' : (if report.ok then 0 else 2) = 0 := hcode
          rw [if_neg hok] at hcode'
          cases hcode'
        have hshould : config.shouldStage = true :=
          (isSome_staging_of_emits hemits).symm.trans (hsome.trans hstage)
        obtain ⟨stagingResults, hstaging, hall⟩ := delivered_of_emits hemits htold hshould hok
        exact ⟨config, said, report, stagingResults, hsaid, hemits, hprinted, hstaging, hall⟩
      | discovery report =>
        obtain ⟨_, hnot⟩ := hanswers
        rw [hraw] at hnot
        cases hnot
      | refused error issues => cases hcode
      | _ => exact hanswers.elim
  · -- a watcher that was told to stop prints nothing
    rw [hwatch]
    exact ⟨fun _ h => (by cases h), fun _ h => (by cases h)⟩

end Delivery

/-! ## A discovery and a run over the same stores -/

/-- The stores with their records, and the two processes. -/
abbrev ToyState : Type := RecordedWorld Bool (Option Json) × (Bool → Process)

def processServe (i : Bool) (v : ToyState) (e : Effect (Option Json) ⊕ CliEffect) :
    Sum.elim Reply CliReply e × ToyState :=
  let answer := calmServe (recordServe stopServe i) (v.1, v.2 i) e
  (answer.1, answer.2.1, Function.update v.2 i answer.2.2)

theorem processesEnv_serve (i : Bool) (v : ToyState) (e : Effect (Option Json) ⊕ CliEffect) :
    processesEnv ((toyDeployment.services : Backend (Option Json)).Step.recorded i) i v e
      (processServe i v e).1 (processServe i v e).2 := by
  refine ⟨?_, fun j hj => Function.update_of_ne hj ..⟩
  have hown : (processServe i v e).2.2 i =
      (calmServe (recordServe stopServe i) (v.1, v.2 i) e).2.2 := Function.update_self ..
  rw [hown]
  exact processEnv_calmServe (recorded_serve step_stopServe) (v.1, v.2 i) e

def toyCommand (isRun : Bool) : CommandLine :=
  if isRun then .runOnce {} else .discover { stage := true, storeRaw := true }

/-- `n` steps of one of them. -/
def toyProcess (n : ℕ) (v : ToyState) (isRun : Bool) : ToyState × CliProgram (Option Json) Unit :=
  Proc.exec (processServe isRun) n (v, toyEntryPoint (toyCommand isRun))

/-- The discovery runs to its end, and then the run does. -/
def toyProcesses : ToyState × CliProgram (Option Json) Unit :=
  toyProcess 60 (toyProcess 40 ((emptyWorld, fun _ => []), fun _ => {}) false).1 true

theorem result_toyProcesses :
    (toyProcess 40 ((emptyWorld, fun _ => []), fun _ => {}) false).2.result.isSome = true ∧
      toyProcesses.2.result.isSome = true := by
  decide +kernel

/-- A program that has its result is over. -/
theorem over_of_result {program : CliProgram (Option Json) Unit} (h : program.result.isSome = true) :
    program = .pure () := by
  obtain ⟨u, hu⟩ := Option.isSome_iff_exists.1 h
  exact Proc.result_eq_some.1 hu

theorem poolRuns_toyProcesses : ∃ programs : Bool → CliProgram (Option Json) Unit,
    Lts.PoolRuns (fun i => Proc.lts
        (processesEnv ((toyDeployment.services : Backend (Option Json)).Step.recorded i) i) Unit)
      ((emptyWorld, fun _ => []), fun _ => {}) (fun i => toyEntryPoint (toyCommand i))
      toyProcesses.1 programs ∧ programs true = .pure () ∧ programs false = .pure () := by
  have hsteps : ∀ (n : ℕ) (v : ToyState) (i : Bool), (Proc.lts (processesEnv
        ((toyDeployment.services : Backend (Option Json)).Step.recorded i) i) Unit).Runs
      Lts.Alone v (toyEntryPoint (toyCommand i)) (toyProcess n v i).1 (toyProcess n v i).2 :=
    fun n v i => Proc.runs_exec (processesEnv_serve i) n (v, toyEntryPoint (toyCommand i))
  let L : Bool → Lts ToyState (CliProgram (Option Json) Unit) Unit := fun i => Proc.lts
    (processesEnv ((toyDeployment.services : Backend (Option Json)).Step.recorded i) i) Unit
  let v : ToyState := ((emptyWorld, fun _ => []), fun _ => {})
  have hdiscovery : Lts.PoolRuns L v (fun i => toyEntryPoint (toyCommand i)) _ _ :=
    Lts.PoolRuns.of_runs false (hsteps 40 v false)
  have hrun : Lts.PoolRuns L (toyProcess 40 v false).1
      (Function.update (fun i => toyEntryPoint (toyCommand i)) false (toyProcess 40 v false).2) _ _ :=
    Lts.PoolRuns.of_runs true (hsteps 60 (toyProcess 40 v false).1 true)
  refine ⟨_, hdiscovery.trans hrun, ?_, ?_⟩
  · rw [Function.update_self]
    exact over_of_result result_toyProcesses.2
  · rw [Function.update_of_ne (by decide), Function.update_self]
    exact over_of_result result_toyProcesses.1

/-- Both end with 0, and there is one row. -/
theorem done_toyProcesses : (toyProcesses.1.2 true).exitCode = some 0 ∧
    (toyProcesses.1.2 false).exitCode = none ∧ toyProcesses.1.1.1.staging.length = 1 := by
  decide +kernel

theorem exit_zero_delivers_two : toyProcesses.1.1.1.staging.length = 1 ∧
    (∃ (config : RunConfig) (said : _) (result : RunOnceResult),
      said <:+ conversation (toyProcesses.1.1.2 true) ∧
      Emits (config.run toyPlatform) said (.ok result) ∧
      (toyProcesses.1.2 true).stdout = [.run (toCompactSummary result.summary)] ∧
      result.summary.status = some .complete ∧
      (∀ rawResult ∈ result.summary.rawStorage, ∃ evidence, rawResult = .stored evidence ∧
        Backed toyPlatform evidence.checksum evidence.objectKey toyProcesses.1.1.1) ∧
      ∀ stagingResult ∈ result.summary.staging, ∃ payload, stagingResult.payload = some payload ∧
        Backed toyPlatform payload.checksum payload.objectKey toyProcesses.1.1.1 ∧
        ∃ row ∈ toyProcesses.1.1.1.staging,
          row.checksum = payload.checksum ∧ row.objectKey = payload.objectKey) ∧
    ∃ (config : StoreRawConfig) (said : _) (report : StoreRawReport)
      (stagingResults : List IngestStagingResult),
      said <:+ conversation (toyProcesses.1.1.2 false) ∧
      Emits (discoverAndStore toyReader config) said (.ok report) ∧
      (toyProcesses.1.2 false).stdout = [.storeRaw report] ∧ report.staging = some stagingResults ∧
      List.Forall₂ (Delivered toyPlatform toyProcesses.1.1.1) report.candidates stagingResults := by
  obtain ⟨programs, hruns, hrun, hdiscovery⟩ := poolRuns_toyProcesses
  rw [← Prod.mk.eta (p := toyProcesses.1)] at hruns
  obtain ⟨hrunCode, hdiscoveryCode, hrows⟩ := done_toyProcesses
  have hone : (toyProcesses.1.2 true).exitCode.getD 0 = 0 := by rw [hrunCode]; rfl
  have htwo : (toyProcesses.1.2 false).exitCode.getD 0 = 0 := by rw [hdiscoveryCode]; rfl
  exact ⟨hrows, (exit_zero_delivers consistent_emptyWorld hruns hrun hone).1 {} rfl,
    (exit_zero_delivers consistent_emptyWorld hruns hdiscovery htwo).2
      { stage := true, storeRaw := true } rfl rfl rfl⟩

end ReplaysFetcher.Cli
