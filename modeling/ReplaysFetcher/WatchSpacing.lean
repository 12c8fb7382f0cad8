/-
  The spacing of a watcher's requests (`src/source/pacing.ts`, `src/discovery/discover.ts`,
  `src/run/watch-loop.ts`).

  A watcher is to start no two source requests less than `requestSpacingMs` apart.  Two mechanisms
  see to that:
  * within a cycle, discovery sleeps `requestSpacingMs` before every request but its first;
  * between cycles, the pacer sleeps what remains of `requestSpacingMs` since the last dispatch.

  The crux is the seam.  What the pacer calls the last dispatch is the clock reading at its own
  call, one per cycle, taken BEFORE it sleeps; neither its sleep nor the detail requests that follow
  move it.  So the first request of a cycle may start right after the last one of the cycle before,
  and what keeps them apart is the idle sleep of the loop alone.  Hence the exact condition
  `requestSpacingMs ≤ intervalMs` (`watch_spacing_iff`): under it the pacer is not needed, and
  without it three failing cycles are too close.

  `Timeline` is the world of these runs: the time, the starts of the source requests, and the
  variable of the pacer.  Every request may take any time, and time may pass between them.
-/
import ReplaysFetcher.WatchTrace
import ReplaysFetcher.Wiring

namespace ReplaysFetcher

open Effectful

/-! ## The pacer -/

/-- The requests of a watcher, next to the variable of its pacer. -/
inductive PacedEffect (Text : Type)
  | call (e : Effect Text)
  | lastRequestAt
  | setLastRequestAt (dispatchAt : Date)

/-- The replies; the variable is read and set at once. -/
@[reducible] def PacedReply {Text : Type} : PacedEffect Text → Type
  | .call e => Reply e
  | .lastRequestAt => Option Date
  | .setLastRequestAt _ => Unit

/-- A floor that is over. -/
def noFloorRemaining : ℤ := 0

/-- `spacingMs - (dispatchAt - lastRequestAt)`; `none` is `NaN`. -/
def remainingFloor (spacingMs : ℕ) (dispatchAt : Date) (lastRequestAt : Option Date) : Option ℤ :=
  lastRequestAt.map fun last => spacingMs - (dispatchAt - last)

/-- `awaitFloor` of `createPacer`.  A comparison with `NaN` is false. -/
def Pacer.awaitFloor {Text : Type} (spacingMs : ℕ) : Proc (PacedEffect Text) PacedReply Unit :=
  (Proc.perform (PacedEffect.call Effect.now)).bind fun (dispatchAt : Date) =>
    (Proc.perform PacedEffect.lastRequestAt).bind fun (lastRequestAt : Option Date) =>
      (Proc.perform (PacedEffect.setLastRequestAt dispatchAt)).bind fun _ =>
        match remainingFloor spacingMs dispatchAt lastRequestAt with
        | none => .pure ()
        | some remaining =>
          if remaining > noFloorRemaining then
            Proc.perform (PacedEffect.call (Effect.sleep remaining.toNat))
          else .pure ()

/-- A watcher with the production pacer. -/
def WatchConfig.pacedInput {Text : Type} {pf : Platform Text} (reader : SourceReader pf)
    (config : WatchConfig) : WatchLoopInput (PacedEffect Text) PacedReply :=
  config.wired reader (fun e => Proc.perform (PacedEffect.call e))
    (fun url _ => Proc.perform (PacedEffect.call (Effect.fetchText url)))
    (Pacer.awaitFloor config.requestSpacingMs)

/-! ## Time -/

/-- What a watcher's requests are timed by. -/
structure Timeline where
  /-- the time, as the time value of a `Date` -/
  time : ℤ
  /-- when the source requests were started, in order -/
  starts : List ℤ := []
  lastRequestAt : Option ℤ := none

namespace Timeline

/-- Nothing but time passes. -/
structure Passes (w w' : Timeline) : Prop where
  time : w.time ≤ w'.time
  starts : w'.starts = w.starts
  lastRequestAt : w'.lastRequestAt = w.lastRequestAt

/-- A clock is read while the request for it lasts, a sleep is not too short, and the replies of the
    services are any. -/
def Step {Text : Type} : Env Timeline (PacedEffect Text) PacedReply
  | w, .call .now, (now : ℤ), w' => w.time ≤ now ∧ now ≤ w'.time ∧ w.Passes w'
  | w, .call (.sleep milliseconds), _, w' => w.time + milliseconds ≤ w'.time ∧ w.Passes w'
  | w, .call (.fetchText _), _, w' => Passes { w with starts := w.starts ++ [w.time] } w'
  | w, .call _, _, w' => w.Passes w'
  | w, .lastRequestAt, last, w' => last = w.lastRequestAt ∧ w.Passes w'
  | w, .setLastRequestAt dispatchAt, _, w' => Passes { w with lastRequestAt := some dispatchAt } w'

/-- Consecutive source requests start at least `spacing` apart. -/
def Spaced (spacing : ℕ) (w : Timeline) : Prop :=
  List.IsChain (fun a b : ℤ => a + spacing ≤ b) w.starts

/-- No source request is started. -/
structure Calm (w w' : Timeline) : Prop where
  time : w.time ≤ w'.time
  starts : w'.starts = w.starts

/-- The last source request, if there is one, was started at least so long ago. -/
def Elapsed (milliseconds : ℕ) (w : Timeline) : Prop :=
  ∀ last ∈ w.starts.getLast?, last + milliseconds ≤ w.time

variable {w w' : Timeline} {milliseconds spacing : ℕ}

/-- Where nothing but time passes, no request is started. -/
theorem Passes.calm (h : w.Passes w') : Calm w w' := ⟨h.time, h.starts⟩

/-- Nor does that bring the last request nearer. -/
theorem Elapsed.calm (h : Elapsed milliseconds w) (hcalm : Calm w w') :
    Elapsed milliseconds w' := by
  intro last hlast
  rw [hcalm.starts] at hlast
  exact (h last hlast).trans hcalm.time

/-- The last request was never later than now. -/
theorem Elapsed.weaken (h : Elapsed milliseconds w) : Elapsed 0 w := by
  intro last hlast
  have hle := h last hlast
  push_cast at hle ⊢
  omega

/-- A sleep puts the last request so far back. -/
theorem Elapsed.sleep (h : Elapsed 0 w) (hcalm : Calm w w')
    (hslept : w.time + milliseconds ≤ w'.time) : Elapsed milliseconds w' := by
  intro last hlast
  rw [hcalm.starts] at hlast
  have hle := h last hlast
  push_cast at hle
  omega

/-- Where no request is started, the spacing is kept. -/
theorem Spaced.calm (h : Spaced spacing w) (hcalm : Calm w w') : Spaced spacing w' := by
  unfold Spaced
  rw [hcalm.starts]
  exact h

/-- **One more request** keeps the spacing when the last one is long enough ago. -/
theorem Spaced.start (h : Spaced spacing w) (helapsed : Elapsed spacing w) :
    Spaced spacing { w with starts := w.starts ++ [w.time] } := by
  refine List.isChain_append.2 ⟨h, List.isChain_singleton _, fun last hlast next hnext => ?_⟩
  obtain rfl : w.time = next := by simpa using hnext
  exact helapsed last hlast

/-- A request that is started now is the last one. -/
theorem elapsed_start : Elapsed 0 { w with starts := w.starts ++ [w.time] } := by
  intro last hlast
  obtain rfl : w.time = last := by simpa using hlast
  push_cast
  omega

end Timeline

/-! ## Spaced enough -/

section Spaced

variable {Text : Type} {spacing : ℕ} {w : Timeline} {α : Type}

/-- Every source request of the program starts long enough after the one before, whatever else
    happens in between; `P` holds at its end. -/
abbrev KeepsSpacing (spacing : ℕ) (P : Timeline → Prop) (w : Timeline)
    (p : Proc (PacedEffect Text) PacedReply α) : Prop :=
  Proc.Safe Timeline.Step Timeline.Calm (fun w w' => w.Spaced spacing → w'.Spaced spacing)
    (fun _ => P) w p

/-- Anything but a source request. -/
def OffSource (e : PacedEffect Text) : Prop := ∀ url, e ≠ .call (.fetchText url)

/-- Other requests than the source's are calm. -/
theorem calm_of_offSource {e : PacedEffect Text} (he : OffSource e) {r : PacedReply e}
    {w' : Timeline} (h : Timeline.Step w e r w') : Timeline.Calm w w' := by
  cases e with
  | lastRequestAt => exact h.2.calm
  | setLastRequestAt dispatchAt => exact ⟨h.time, h.starts⟩
  | call e =>
    cases e with
    | fetchText url => exact absurd rfl (he url)
    | now => exact h.2.2.calm
    | sleep milliseconds => exact h.2.calm
    | _ => exact Timeline.Passes.calm h

/-- Programs without source requests keep what is known of the last one. -/
theorem keepsSpacing_of_offSource {p : Proc (PacedEffect Text) PacedReply α}
    (hp : Proc.Asks OffSource p) {milliseconds : ℕ} (h : w.Elapsed milliseconds) :
    KeepsSpacing spacing (·.Elapsed milliseconds) w p := by
  have hquiet : Proc.Quiet Timeline.Step Timeline.Calm
      (fun w w' => w.Spaced spacing → w'.Spaced spacing) p := by
    refine hp.quiet (fun w h => h) fun e he w r w' hstep => ?_
    have hcalm := calm_of_offSource he hstep
    exact ⟨fun hspaced => hspaced.calm hcalm, hcalm⟩
  exact hquiet (·.Elapsed milliseconds) (fun _ _ h hcalm => h.calm hcalm) w h

/-- What is known of the last request may be handed on. -/
theorem keepsSpacing_pure {a : α} {milliseconds : ℕ} (h : w.Elapsed milliseconds) :
    KeepsSpacing spacing (·.Elapsed milliseconds) w
      (.pure a : Proc (PacedEffect Text) PacedReply α) :=
  Proc.safe_pure (fun _ _ h hcalm => h.calm hcalm) h

/-- A sleep. -/
theorem keepsSpacing_sleep {milliseconds : ℕ} (h : w.Elapsed 0) :
    KeepsSpacing spacing (·.Elapsed milliseconds) w
      (Proc.perform (PacedEffect.call (Effect.sleep milliseconds)) :
        Proc (PacedEffect Text) PacedReply Unit) := by
  refine Proc.safe_call (·.Elapsed 0) (fun _ _ h hcalm => h.calm hcalm) ?_ h
  rintro w h ⟨⟩ w' ⟨hslept, hpasses⟩
  exact ⟨fun hspaced => hspaced.calm hpasses.calm, keepsSpacing_pure (h.sleep hpasses.calm hslept)⟩

/-- A source request. -/
theorem keepsSpacing_read {url : Url} (h : w.Elapsed spacing) :
    KeepsSpacing spacing (·.Elapsed 0) w
      (Proc.perform (PacedEffect.call (Effect.fetchText url)) :
        Async (PacedEffect Text) PacedReply JsError String) := by
  refine Proc.safe_call (·.Elapsed spacing) (fun _ _ h hcalm => h.calm hcalm) ?_ h
  intro w h r w' hpasses
  have hcalm := Timeline.Passes.calm hpasses
  refine ⟨fun hspaced => (hspaced.start h).calm hcalm, keepsSpacing_pure ?_⟩
  exact Timeline.elapsed_start.calm hcalm

/-! ## One discovery -/

/-- The options of a discovery of one page that sleeps `spacing` before every request but the
    first. -/
structure PacedOptions (spacing : ℕ)
    (options : DiscoverReplaysDryRunOptions (PacedEffect Text) PacedReply) : Prop where
  fetchText : options.fetchText =
    fun url _ => Proc.perform (PacedEffect.call (Effect.fetchText url))
  sleep : options.sleep =
    fun milliseconds => Proc.perform (PacedEffect.call (Effect.sleep milliseconds))
  delay : options.requestDelayMs = some spacing
  gate : ∀ gate, options.existsBySourceIdentity = some gate →
    ∀ sourceSystem id, Proc.Asks OffSource (gate sourceSystem id)
  maxPages : options.maxPages.getD 1 = 1

variable {options : DiscoverReplaysDryRunOptions (PacedEffect Text) PacedReply}

/-- The first request of a cycle is far enough from the last one of the cycle before. -/
theorem PacedOptions.first (hpaced : PacedOptions spacing options) (url : Url)
    (readOptions : SourceReadOptions) (h : w.Elapsed spacing) :
    KeepsSpacing spacing (·.Elapsed 0) w (pacedFetchText options true url readOptions) := by
  unfold pacedFetchText
  rw [hpaced.fetchText]
  exact keepsSpacing_read h

/-- **Every other request of a discovery** waits long enough. -/
theorem PacedOptions.later (hpaced : PacedOptions spacing options) (url : Url)
    (readOptions : SourceReadOptions) (h : w.Elapsed 0) :
    KeepsSpacing spacing (·.Elapsed 0) w (pacedFetchText options false url readOptions) := by
  unfold pacedFetchText
  rw [hpaced.fetchText, hpaced.sleep, hpaced.delay]
  by_cases hpos : spacing = 0
  · subst hpos
    exact keepsSpacing_read h
  · have hwaits : (!false && decide ((some spacing).getD defaultRequestDelayMs > 0)) = true := by
      rw [Bool.not_false, Bool.true_and, Option.getD_some]
      exact decide_eq_true (Nat.pos_of_ne_zero hpos)
    rw [if_pos hwaits]
    refine Async.safe_lift_bind (fun _ => (·.Elapsed spacing)) (keepsSpacing_sleep h) ?_
    exact fun _ _ h => keepsSpacing_read h

variable {pf : Platform Text} {reader : SourceReader pf}

/-- A row's detail read waits for the spacing. -/
theorem PacedOptions.row (hpaced : PacedOptions spacing options) (page : ℕ) (sourceText : String)
    (acc : RowLoop) (row : ReplayRow) (h : w.Elapsed 0) :
    KeepsSpacing spacing (·.Elapsed 0) w (discoverRow reader.toHtmlReader
      (discoverPageInput reader options page sourceText) acc row) := by
  unfold discoverRow
  split
  · exact keepsSpacing_pure h
  · have hgate : Proc.Asks OffSource (shouldSkipPreDetail row.source.externalId
        options.existsBySourceIdentity options.sourceSystem :
          Proc (PacedEffect Text) PacedReply (Except JsError Bool)) := by
      unfold shouldSkipPreDetail
      split
      · rename_i gate sourceSystem id hsome _ _
        split
        · exact hpaced.gate gate hsome _ _
        · trivial
      · trivial
    refine Async.safe_await (keepsSpacing_of_offSource hgate h) (fun _ h => h) fun skip w h => ?_
    split
    · exact keepsSpacing_pure h
    · refine Async.safe_await ?_ (fun _ h => h) fun candidate w h => keepsSpacing_pure h
      unfold discoverRowCandidate
      refine Async.safe_await (keepsSpacing_pure h) (fun _ h => h) fun detailUrl w h => ?_
      refine Async.safe_await (hpaced.later detailUrl _ h) (fun _ h => h) fun detailHtml w h => ?_
      exact keepsSpacing_pure h

/-- So do the rows of a page. -/
theorem PacedOptions.rows (hpaced : PacedOptions spacing options) (page : ℕ) (sourceText : String)
    (rows : List ReplayRow) (acc : RowLoop) (h : w.Elapsed 0) :
    KeepsSpacing spacing (·.Elapsed 0) w (discoverRows reader.toHtmlReader
      (discoverPageInput reader options page sourceText) acc rows) := by
  induction rows generalizing acc w with
  | nil => exact keepsSpacing_pure h
  | cons row rows ih =>
    refine Async.safe_await (hpaced.row page sourceText acc row h) (fun _ h => h) ?_
    exact fun acc w h => ih acc h

/-- So does a whole page, from its list read on. -/
theorem PacedOptions.page (hpaced : PacedOptions spacing options) (h : w.Elapsed spacing) :
    KeepsSpacing spacing (·.Elapsed 0) w (discoverPage reader options 1) := by
  unfold discoverPage
  refine Async.safe_await (hpaced.first _ _ h) (fun _ h => h) fun sourceText w h => ?_
  refine Async.safe_await ?_ (fun _ h => h) fun found w h => keepsSpacing_pure h
  unfold discoverPageCandidates
  split
  · exact keepsSpacing_pure h
  · refine Async.safe_await (hpaced.rows 1 sourceText _ _ h) (fun _ h => h) ?_
    exact fun acc w h => keepsSpacing_pure h

/-- **A discovery** that starts late enough keeps the spacing, however it ends. -/
theorem PacedOptions.discovery (hpaced : PacedOptions spacing options) (h : w.Elapsed spacing) :
    KeepsSpacing spacing (·.Elapsed 0) w (discoverReplaysDryRun reader options) := by
  unfold discoverReplaysDryRun
  rw [hpaced.maxPages]
  show KeepsSpacing _ _ _ (Proc.bind (Proc.bind (discoverPage reader options 1) _) _)
  rw [Proc.bind_assoc']
  refine Proc.safe_bind_of (hpaced.page h) fun r w h => ?_
  cases r with
  | ok yielded => exact keepsSpacing_pure h
  | error error => exact keepsSpacing_pure h

/-! ## The loop -/

variable {config : WatchConfig}

/-- One other request. -/
theorem offSource_call {e : Effect Text} (he : ∀ url, e ≠ .fetchText url) :
    Proc.Asks OffSource
      (Proc.perform (PacedEffect.call e) : Proc (PacedEffect Text) PacedReply (Reply e)) := by
  refine ⟨fun url heq => ?_, fun _ => trivial⟩
  cases heq
  exact he url rfl

/-- What discovery is given by `config.pacedInput`. -/
def WatchConfig.dryRunOptions (config : WatchConfig) :
    DiscoverReplaysDryRunOptions (PacedEffect Text) PacedReply where
  attempts := config.attempts
  existsBySourceIdentity := some fun sourceSystem sourceReplayId =>
    Proc.perform (PacedEffect.call (Effect.existsBySourceIdentity sourceSystem sourceReplayId))
  fetchText url _ := Proc.perform (PacedEffect.call (Effect.fetchText url))
  maxPages := some WATCH_PAGE
  requestDelayMs := some config.requestSpacingMs
  sleep milliseconds := Proc.perform (PacedEffect.call (Effect.sleep milliseconds))
  sourceSystem := some defaultSourceSystem
  sourceUrl := config.sourceUrl

/-- A watcher's discovery is paced with its spacing. -/
theorem WatchConfig.pacedOptions (config : WatchConfig) :
    PacedOptions config.requestSpacingMs
      (config.dryRunOptions : DiscoverReplaysDryRunOptions (PacedEffect Text) PacedReply) := by
  refine { fetchText := rfl, sleep := rfl, delay := rfl, gate := ?_, maxPages := rfl }
  rintro _ ⟨⟩ sourceSystem id
  exact offSource_call fun url heq => by cases heq

/-- Ingesting a page reads no text from the source. -/
theorem offSource_ingestPage (runId : String) (candidates : List ReplayCandidate) :
    Proc.Asks OffSource (ingestPage (watchIngestInput (config.pacedInput reader) runId candidates) :
      Proc (PacedEffect Text) PacedReply (Except JsError IngestPageResult)) := by
  have hingest : ∀ e : Effect Text, IsIngest e → Proc.Asks OffSource
      (Proc.perform (PacedEffect.call e) : Proc (PacedEffect Text) PacedReply (Reply e)) := by
    intro e he
    refine offSource_call fun url heq => ?_
    rw [heq] at he
    exact he
  refine asks_ingestPage_of (fun candidate => ?_) (fun rawResult runId => ?_) fun gate hsome => ?_
  · exact (asks_storeRawReplay candidate).handle hingest
  · exact ((asks_stageRawReplay rawResult runId).mono fun _ => ingest_of_storage).handle hingest
  · cases hsome
    exact fun sourceSystem id => offSource_call fun url heq => by cases heq

/-- The pacer's floor reads none either. -/
theorem offSource_awaitFloor :
    Proc.Asks OffSource (Pacer.awaitFloor spacing : Proc (PacedEffect Text) PacedReply Unit) := by
  unfold Pacer.awaitFloor
  refine ⟨fun url heq => (by cases heq), fun dispatchAt => ?_⟩
  refine ⟨fun url heq => (by cases heq), fun last => ?_⟩
  refine ⟨fun url heq => (by cases heq), fun _ => ?_⟩
  split
  · trivial
  · split
    · exact offSource_call fun url heq => by cases heq
    · trivial

/-- Nor does a lifted program of other requests. -/
theorem offSource_lift {p : Proc (PacedEffect Text) PacedReply α} (hp : Proc.Asks OffSource p) :
    Proc.Asks OffSource (ExceptT.lift p : Proc (PacedEffect Text) PacedReply (Except JsError α)) :=
  Proc.Asks.bind hp fun _ => trivial

/-- **One cycle**: when the last request is long enough ago at its start, the spacing is kept. -/
theorem keepsSpacing_runCycle (h : w.Elapsed config.requestSpacingMs) :
    KeepsSpacing config.requestSpacingMs (·.Elapsed 0) w (runCycle (config.pacedInput reader)) := by
  have hoff : ∀ {β : Type} {milliseconds : ℕ} {w : Timeline}
      {p : Async (PacedEffect Text) PacedReply JsError β}, Proc.Asks OffSource p →
      w.Elapsed milliseconds →
      KeepsSpacing config.requestSpacingMs (·.Elapsed milliseconds) w p :=
    fun hp h => keepsSpacing_of_offSource hp h
  unfold runCycle
  refine Async.safe_await (hoff ?_ h) (fun _ h => h.weaken) fun cycleStart w h => ?_
  · exact offSource_lift (offSource_call fun url heq => by cases heq)
  refine Async.safe_await (hoff ?_ h) (fun _ h => h.weaken) fun runId w h => ?_
  · exact offSource_lift (offSource_call fun url heq => by cases heq)
  refine Async.safe_await (hoff (offSource_lift offSource_awaitFloor) h) (fun _ h => h.weaken)
    fun _ w h => ?_
  -- now the first request of the cycle
  refine Async.safe_await (config.pacedOptions.discovery h) (fun _ h => h) fun report w h => ?_
  refine Async.safe_await (hoff (offSource_ingestPage runId _) h) (fun _ h => h)
    fun result w h => ?_
  refine Async.safe_await (hoff ?_ h) (fun _ h => h) fun finishedAt w h => ?_
  · exact offSource_lift (offSource_call fun url heq => by cases heq)
  refine Async.safe_lift_bind (fun _ => (·.Elapsed 0)) (keepsSpacing_of_offSource ?_ h) ?_
  · exact offSource_call fun url heq => by cases heq
  · exact fun _ w h => keepsSpacing_pure h

/-- A cycle keeps the spacing, if the last request is that far back. -/
theorem keepsSpacing_tryCycle (h : w.Elapsed config.requestSpacingMs) :
    KeepsSpacing config.requestSpacingMs (·.Elapsed 0) w (tryCycle (config.pacedInput reader)) := by
  unfold tryCycle cycleWithHeartbeat
  refine @Proc.safe_bind_of _ _ _ _ _ _ _ _ _ (fun _ => (·.Elapsed 0)) _ _ _ ?_
    fun outcome w h => ?_
  · refine Async.safe_await (keepsSpacing_runCycle h) (fun _ h => h) fun summary w h => ?_
    refine Async.safe_await (keepsSpacing_of_offSource ?_ h) (fun _ h => h) fun now w h => ?_
    · exact offSource_lift (offSource_call fun url heq => by cases heq)
    · refine keepsSpacing_of_offSource ?_ h
      exact offSource_call fun url heq => by cases heq
  · cases outcome with
    | ok u => exact keepsSpacing_pure h
    | error error =>
      refine keepsSpacing_of_offSource ?_ h
      exact offSource_call fun url heq => by cases heq

/-- **One round**: the idle sleep makes up for all that the pacer does not see. -/
theorem keepsSpacing_round (hinterval : config.requestSpacingMs ≤ config.intervalMs)
    (h : w.Elapsed config.requestSpacingMs) :
    Proc.Safe Timeline.Step Timeline.Calm
      (fun w w' => w.Spaced config.requestSpacingMs → w'.Spaced config.requestSpacingMs)
      (fun x w => Sum.elim (fun _ => w.Elapsed config.requestSpacingMs) (fun _ => True) x) w
      (watchIteration (config.pacedInput reader)) := by
  have hstop : ∀ {w : Timeline} {milliseconds : ℕ}, w.Elapsed milliseconds →
      KeepsSpacing config.requestSpacingMs (·.Elapsed milliseconds) w
        (config.pacedInput reader).shouldStop :=
    fun h => keepsSpacing_of_offSource (offSource_call fun url heq => by cases heq) h
  rw [watchIteration_eq]
  refine Proc.safe_bind_of (hstop h) fun stop w h => ?_
  split
  · exact Proc.safe_pure (fun _ _ h _ => h) trivial
  · refine Proc.safe_bind_of (keepsSpacing_tryCycle h) fun _ w h => ?_
    refine Proc.safe_bind_of (hstop h) fun stop w h => ?_
    split
    · exact Proc.safe_pure (fun _ _ h _ => h) trivial
    · refine Proc.safe_bind_of (keepsSpacing_sleep h) fun _ w h => ?_
      refine Proc.safe_pure (fun _ _ h hcalm => h.calm hcalm) ?_
      -- the sleep was as long as the interval, which is long enough
      intro last hlast
      have hle := h last hlast
      have hcast : (config.requestSpacingMs : ℤ) ≤ config.intervalMs := by exact_mod_cast hinterval
      exact (Int.add_le_add_left hcast last).trans hle

/-- Cycles keep it when the interval between them is long enough. -/
theorem keepsSpacing_loop (hinterval : config.requestSpacingMs ≤ config.intervalMs)
    (h : w.Elapsed config.requestSpacingMs) :
    KeepsSpacing config.requestSpacingMs (fun _ => True) w
      (runWatchLoop (config.pacedInput reader)) := by
  unfold runWatchLoop
  rw [Proc.iterate_bind']
  refine Proc.safe_loop (fun _ => (·.Elapsed config.requestSpacingMs)) (fun _ _ => True)
    (fun _ h => h) (fun _ _ _ h hcalm => h.calm hcalm) ?_ ?_ h
  · exact fun _ w h => keepsSpacing_round hinterval h
  · exact fun _ w _ => Proc.safe_pure (fun _ _ h _ => h) trivial

end Spaced

/-! ## Too close

  Three cycles whose list read fails at once.  The pacer holds the second list read back until
  `requestSpacingMs`, and forgets that it has: the third one, an interval later, is let through. -/

section TooClose

variable {Text : Type} {pf : Platform Text} {reader : SourceReader pf} {config : WatchConfig}
  {spacing : ℕ} {w : Timeline}

/-- How long the pacer sleeps. -/
def Timeline.pause (spacing : ℕ) (w : Timeline) : ℕ :=
  ((remainingFloor spacing w.time w.lastRequestAt).getD noFloorRemaining).toNat

/-- After a cycle that takes no longer than it has to and reads the list only. -/
def Timeline.afterList (spacing : ℕ) (w : Timeline) : Timeline where
  time := w.time + w.pause spacing
  starts := w.starts ++ [w.time + w.pause spacing]
  lastRequestAt := some w.time

/-- After the idle sleep, too. -/
def Timeline.afterRound (config : WatchConfig) (w : Timeline) : Timeline :=
  { w.afterList config.requestSpacingMs with
    time := w.time + w.pause config.requestSpacingMs + config.intervalMs }

/-- No time needs to pass. -/
theorem passes_refl : w.Passes w := ⟨le_refl _, rfl, rfl⟩

/-- Or some time passes. -/
theorem passes_later {milliseconds : ℕ} :
    w.Passes { w with time := w.time + milliseconds } :=
  ⟨Int.le_add_of_nonneg_right (Int.natCast_nonneg _), rfl, rfl⟩

/-- A sleep may be exact. -/
theorem may_sleep {milliseconds : ℕ} :
    Proc.May Timeline.Step (fun _ w' => w' = { w with time := w.time + milliseconds }) w
      (Proc.perform (PacedEffect.call (Effect.sleep milliseconds)) :
        Proc (PacedEffect Text) PacedReply Unit) :=
  Proc.may_perform () ⟨le_refl _, passes_later⟩ rfl

/-- The floor may sleep for exactly what is left of it. -/
theorem may_awaitFloor :
    Proc.May Timeline.Step
      (fun _ w' => w' = { w with time := w.time + w.pause spacing, lastRequestAt := some w.time }) w
      (Pacer.awaitFloor spacing : Proc (PacedEffect Text) PacedReply Unit) := by
  have hnow : Timeline.Step w (PacedEffect.call (Effect.now : Effect Text)) w.time w :=
    ⟨le_refl _, le_refl _, passes_refl⟩
  have hset : Timeline.Step w (PacedEffect.setLastRequestAt w.time : PacedEffect Text) ()
      { w with lastRequestAt := some w.time } := passes_refl
  unfold Pacer.awaitFloor
  refine Proc.may_call w.time hnow ?_
  refine Proc.may_call w.lastRequestAt ⟨rfl, passes_refl⟩ ?_
  refine Proc.may_call () hset ?_
  unfold Timeline.pause
  cases hremaining : remainingFloor spacing w.time w.lastRequestAt with
  | none => exact Proc.may_pure (by simp [noFloorRemaining])
  | some remaining =>
    dsimp only
    split
    · exact may_sleep
    · rename_i hnone
      refine Proc.may_pure ?_
      have hzero : remaining.toNat = 0 := by
        unfold noFloorRemaining at hnone
        omega
      simp [hzero]

/-- The source is down. -/
def sourceDown : JsError :=
  .sourceFetch { code := .sourceUnavailable, message := "Source is unavailable" }

/-- A discovery whose list read fails. -/
theorem may_failingDiscovery {options : DiscoverReplaysDryRunOptions (PacedEffect Text) PacedReply}
    (hpaced : PacedOptions spacing options) :
    Proc.May Timeline.Step
      (Async.Outcome (fun report w' => report.candidates = [] ∧
        w' = { w with starts := w.starts ++ [w.time] }) fun _ _ => False) w
      (discoverReplaysDryRun reader options :
        Proc (PacedEffect Text) PacedReply (Except JsError DiscoveryReport)) := by
  have hread : Proc.May Timeline.Step
      (fun (r : Except JsError String) w' =>
        r = .error sourceDown ∧ w' = { w with starts := w.starts ++ [w.time] }) w
      (Proc.perform (PacedEffect.call (Effect.fetchText (pf.toPageUrl options.sourceUrl 1))) :
        Proc (PacedEffect Text) PacedReply (Except JsError String)) :=
    Proc.may_perform (e := PacedEffect.call (Effect.fetchText _)) (Except.error sourceDown)
      passes_refl ⟨rfl, rfl⟩
  unfold discoverReplaysDryRun
  rw [hpaced.maxPages]
  show Proc.May _ _ _ (Proc.bind (Proc.bind (discoverPage reader options 1) _) _)
  rw [Proc.bind_assoc']
  refine Proc.may_bind
    (fun r w' => r = .error sourceDown ∧ w' = { w with starts := w.starts ++ [w.time] }) ?_ ?_
  · unfold discoverPage pacedFetchText
    rw [hpaced.fetchText, Async.bind_eq]
    refine Proc.may_bind _ hread ?_
    rintro r w' ⟨rfl, rfl⟩
    exact Proc.may_pure ⟨rfl, rfl⟩
  · rintro r w' ⟨rfl, rfl⟩
    exact Proc.may_pure ⟨rfl, rfl⟩

/-- A page without candidates. -/
theorem may_emptyPage {input : IngestPageInput (PacedEffect Text) PacedReply}
    (hempty : input.candidates = []) :
    Proc.May Timeline.Step (Async.Outcome (fun _ w' => w' = w) fun _ _ => False) w
      (ingestPage input : Async (PacedEffect Text) PacedReply JsError IngestPageResult) := by
  rw [ingestPage_eq]
  have hnone : ∀ i : Fin input.candidates.length, False := by
    rw [hempty]
    exact fun i => i.elim0
  refine Proc.may_fan_done (fun i => (hnone i).elim) (fun i => (hnone i).elim) ?_
  have hnil : List.ofFn (fun i : Fin input.candidates.length =>
      ((hnone i).elim : Except JsError SettledCandidate)) = [] :=
    List.eq_nil_of_length_eq_zero (by rw [List.length_ofFn, hempty]; rfl)
  unfold pageOutcome
  rw [hnil]
  exact Proc.may_pure rfl

/-- A request that takes no time. -/
theorem may_quick {e : Effect Text} (r : Reply e) (hr : Timeline.Step w (.call e) r w) :
    Proc.May Timeline.Step (fun _ w' => w' = w) w
      (Proc.perform (PacedEffect.call e) : Proc (PacedEffect Text) PacedReply (Reply e)) :=
  Proc.may_perform r hr rfl

/-- The clock may be read at once. -/
theorem may_now : Proc.May Timeline.Step (fun _ w' => w' = w) w
    (Proc.perform (PacedEffect.call Effect.now) : Proc (PacedEffect Text) PacedReply Date) :=
  may_quick (e := .now) w.time ⟨le_refl _, le_refl _, passes_refl⟩

/-- A cycle whose list read fails. -/
theorem may_failingCycle :
    Proc.May Timeline.Step
      (Async.Outcome (fun _ w' => w' = w.afterList config.requestSpacingMs) fun _ _ => False) w
      (runCycle (config.pacedInput reader)) := by
  unfold runCycle
  refine Async.may_lift_bind _ may_now ?_
  rintro cycleStart _ rfl
  refine Async.may_lift_bind _ (may_quick (e := .createRunId cycleStart) "run" passes_refl) ?_
  rintro runId _ rfl
  refine Async.may_lift_bind _ may_awaitFloor ?_
  rintro _ _ rfl
  refine Async.may_bind _ (may_failingDiscovery config.pacedOptions) ?_
  rintro report _ ⟨hempty, rfl⟩
  refine Async.may_bind _ (may_emptyPage hempty) ?_
  rintro result _ rfl
  refine Async.may_lift_bind _ may_now ?_
  rintro finishedAt _ rfl
  refine Async.may_lift_bind _ (may_quick (e := .log _) () passes_refl) ?_
  rintro _ _ rfl
  exact Proc.may_pure rfl

/-- **A round whose list read fails**: it leaves the list read and the idle sleep behind. -/
theorem may_failingRound :
    Proc.May Timeline.Step
      (fun x w' => x = .inl () ∧ w' = w.afterRound config) w
      (watchIteration (config.pacedInput reader)) := by
  have hgo : ∀ {w : Timeline}, Proc.May Timeline.Step (fun stop w' => stop = false ∧ w' = w) w
      (config.pacedInput reader).shouldStop :=
    Proc.may_perform (e := PacedEffect.call .shouldStop) false passes_refl ⟨rfl, rfl⟩
  rw [watchIteration_eq]
  refine Proc.may_bind _ hgo ?_
  rintro _ w ⟨rfl, rfl⟩
  refine Proc.may_bind (fun _ w' => w' = w.afterList config.requestSpacingMs) ?_ ?_
  · unfold tryCycle cycleWithHeartbeat
    refine Proc.may_bind (Async.Outcome (fun _ w' => w' = w.afterList config.requestSpacingMs)
      fun _ _ => False) ?_ fun outcome w' h => ?_
    · refine Async.may_bind _ may_failingCycle ?_
      rintro summary _ rfl
      refine Async.may_lift_bind _ may_now ?_
      rintro now _ rfl
      exact Proc.may_perform (e := PacedEffect.call (.writeHeartbeat _ _)) (Except.ok ())
        passes_refl rfl
    · cases outcome with
      | ok u => exact Proc.may_pure h
      | error error => exact h.elim
  · rintro _ _ rfl
    refine Proc.may_bind _ hgo ?_
    rintro _ _ ⟨rfl, rfl⟩
    refine Proc.may_bind _ may_sleep ?_
    rintro _ _ rfl
    exact Proc.may_pure ⟨rfl, rfl⟩

/-- A head with a failing round more. -/
theorem heads_failingRound {start : Timeline}
    (hheads : Proc.Heads Timeline.Step (fun _ => watchIteration (config.pacedInput reader)) start ()
      w ()) :
    Proc.Heads Timeline.Step (fun _ => watchIteration (config.pacedInput reader)) start ()
      (w.afterRound config) () := by
  obtain ⟨_, _, hruns, rfl, rfl⟩ := @may_failingRound Text pf reader config w
  exact hheads.round hruns

/-- The starts of three such rounds: the pacer holds the second read back, but not the third. -/
theorem starts_threeRounds (hinterval : config.intervalMs < config.requestSpacingMs) :
    (((({ time := 0 } : Timeline).afterRound config).afterRound config).afterRound config).starts =
      [0, (config.requestSpacingMs : ℤ), config.requestSpacingMs + config.intervalMs] := by
  have hfirst : ({ time := 0 } : Timeline).afterRound config =
      { time := config.intervalMs, starts := [0], lastRequestAt := some 0 } := by
    simp [Timeline.afterRound, Timeline.afterList, Timeline.pause, remainingFloor, noFloorRemaining]
  have hpause : Timeline.pause config.requestSpacingMs
      { time := config.intervalMs, starts := [0], lastRequestAt := some 0 } =
        config.requestSpacingMs - config.intervalMs := by
    simp [Timeline.pause, remainingFloor]
  have hsecond : Timeline.afterRound config
      { time := config.intervalMs, starts := [0], lastRequestAt := some 0 } =
        { time := config.requestSpacingMs + config.intervalMs
          starts := [0, (config.requestSpacingMs : ℤ)]
          lastRequestAt := some (config.intervalMs : ℤ) } := by
    have hstart : (config.intervalMs : ℤ) +
        ((config.requestSpacingMs - config.intervalMs : ℕ) : ℤ) = config.requestSpacingMs := by
      omega
    unfold Timeline.afterRound Timeline.afterList
    rw [hpause]
    simp only [hstart, List.cons_append, List.nil_append]
  rw [hfirst, hsecond]
  simp [Timeline.afterRound, Timeline.afterList, Timeline.pause, remainingFloor]

/-- **Three cycles** whose list reads fail are too close. -/
theorem exists_tooClose (hinterval : config.intervalMs < config.requestSpacingMs) :
    ∃ w p, (Proc.lts Timeline.Step ℕ).Runs Timeline.Passes { time := 0 }
      (runWatchLoop (config.pacedInput reader)) w p ∧ ¬ w.Spaced config.requestSpacingMs := by
  have hstart : Proc.Heads Timeline.Step (fun _ => watchIteration (config.pacedInput reader))
      { time := 0 } () { time := 0 } () := .start _ _
  have hthree := heads_failingRound (heads_failingRound (heads_failingRound hstart))
  have hruns := hthree.runs fun _ => Proc.pure 0
  refine ⟨_, _, hruns.mono fun w w' h => ?_, fun hspaced => ?_⟩
  · obtain rfl : w' = w := h
    exact passes_refl
  · unfold Timeline.Spaced at hspaced
    rw [starts_threeRounds hinterval, List.isChain_cons_cons, List.isChain_cons_cons] at hspaced
    have hlast := hspaced.2.1
    omega

end TooClose

/-! ## The condition -/

/-- **The watcher's requests are spaced iff the idle sleep is.**  Every run of the watch loop with
    the production pacer, whatever the source and the services answer and however long anything
    takes, starts consecutive source requests at least `requestSpacingMs` apart, if and only if
    `requestSpacingMs ≤ intervalMs`. -/
theorem watch_spacing_iff {Text : Type} {pf : Platform Text} (reader : SourceReader pf)
    (config : WatchConfig) :
    (∀ time w p, (Proc.lts Timeline.Step ℕ).Runs Timeline.Passes { time := time }
      (runWatchLoop (config.pacedInput reader)) w p → w.Spaced config.requestSpacingMs) ↔
    config.requestSpacingMs ≤ config.intervalMs := by
  constructor
  · intro hspaced
    by_contra hinterval
    obtain ⟨w, p, hruns, htoo⟩ := @exists_tooClose Text pf reader config (not_le.1 hinterval)
    exact htoo (hspaced 0 w p hruns)
  · intro hinterval time w p hruns
    have hsafe : KeepsSpacing config.requestSpacingMs (fun _ => True) { time := time }
        (runWatchLoop (config.pacedInput reader)) :=
      keepsSpacing_loop hinterval fun _ hnone => by cases hnone
    have hcalm : ∀ w w', Timeline.Passes w w' → Timeline.Calm w w' := fun _ _ h => h.calm
    exact (hsafe.weaken hcalm (fun _ _ h => h) fun _ _ h => h).always
      (fun _ _ hspaced hkeep => hkeep hspaced) (fun _ _ hspaced h => hspaced.calm h.calm)
      List.isChain_nil hruns

/-- A watcher that polls without a pause, as it does by default. -/
def eagerWatch : WatchConfig := { toyWatch with requestSpacingMs := 1000 }

/-- The default interval is 0: the third list read starts together with the second one. -/
theorem watch_not_spaced :
    ¬ ∀ time w p, (Proc.lts Timeline.Step ℕ).Runs Timeline.Passes { time := time }
      (runWatchLoop (eagerWatch.pacedInput toyReader)) w p → w.Spaced 1000 := by
  intro hspaced
  obtain ⟨w, p, hruns, htoo⟩ := @exists_tooClose _ _ toyReader eagerWatch (by decide)
  exact htoo (hspaced 0 w p hruns)

end ReplaysFetcher
