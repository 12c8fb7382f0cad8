/-
  Two sources, one bucket.

  A checkpoint object belongs to a source by its KEY alone: the `sourceUrl` in its body is never
  compared with the source of the run that reads it.  The key is a slug of host and path in which
  every run of characters outside `[a-z0-9._-]` is one dash and the query does not occur.

  1. **One run** (`asks_ownKey`).  No checkpoint request of a run is for another key than its own, so
     runs with different keys never meet, under any interleaving (`isolated_of_keys`).
  2. **Two runs with one key** (`may_emptyRun`).  They do meet: over an empty source the first leaves
     a complete checkpoint, and the second replaces it.
  3. **The names decide** (`checkpoint_isolation_iff`).  Two sources have one key when their hosts and
     paths are the same but for case, for what a dash stands for, and for the two ends.
-/
import ReplaysFetcher.Resume
import ReplaysFetcher.SelfHealing
import ReplaysFetcher.Slugs
import ReplaysFetcher.Effectful.Reach

namespace ReplaysFetcher

open Effectful

variable {Text : Type}

/-! ## What isolation is -/

/-- The event carried out a PUT of the object at `key`. -/
def Replaced (key : String) (ev : FetchEvent Text) : Prop :=
  (∃ body condition, ev.request = .putCheckpoint key body condition) ∧
    ev.after.checkpoints key ≠ ev.before.checkpoints key

/-- The event read the object at `key`, or replaced it. -/
def Touched (key : String) (ev : FetchEvent Text) : Prop :=
  ev.request = .getCheckpoint key ∨ Replaced key ev

/-- What the first event read or replaced is what the second one had written. -/
def TouchedVersionOf (key : String) (ev ev' : FetchEvent Text) : Prop :=
  Touched key ev ∧ Replaced key ev' ∧ ev.before.checkpoints key = ev'.after.checkpoints key

/-- **Isolation.** However many runs of the two sources there are, and however they are interleaved
    or killed: no run of one reads or replaces a checkpoint that a run of the other has written. -/
def Isolated (pf : Platform Text) (options : CheckpointStoreOptions) (a b : Url) : Prop :=
  ∀ (ι : Type) [DecidableEq ι] (services : Backend Text) (configs : ι → RunConfig)
    (w₀ : World Text) (w : RecordedWorld ι Text) (ps : ι → Task Text RunOnceResult),
    (∀ i, (configs i).checkpointOptions = options) →
    Lts.PoolRuns (fun i => Proc.lts (services.Step.recorded i) (Except JsError RunOnceResult))
      (w₀, fun _ => []) (fun i => (configs i).run pf) w ps →
    ∀ i j, (configs i).sourceUrl = a → (configs j).sourceUrl = b →
      ∀ key, ∀ ev ∈ w.2 i, ∀ ev' ∈ w.2 j,
        ¬ TouchedVersionOf key ev ev' ∧ ¬ TouchedVersionOf key ev' ev

/-! ## Every run keeps to its key -/

section OwnKey

/-- A checkpoint request is for the run's own key. -/
def OwnKey (pf : Platform Text) (config : RunConfig) (e : Effect Text) : Prop :=
  ∀ key, (e = .getCheckpoint key ∨ ∃ body condition, e = .putCheckpoint key body condition) →
    checkpointKey pf config.checkpointOptions (pf.withoutUserinfo config.sourceUrl) = .ok key

variable {pf : Platform Text} {config : RunConfig} {key : String}

theorem ownKey_of_offCheckpoint {e : Effect Text} (h : OffCheckpoint e) : OwnKey pf config e := by
  rintro key (rfl | ⟨body, condition, rfl⟩)
  · exact h.elim
  · exact h.elim

theorem ownKey_of_request (hkey : checkpointKey pf config.checkpointOptions
    (pf.withoutUserinfo config.sourceUrl) = .ok key) {e : Effect Text}
    (h : IsCheckpointRequest key e) : OwnKey pf config e := by
  rintro key' (rfl | ⟨body, condition, rfl⟩)
  · obtain rfl : key' = key := h
    exact hkey
  · obtain rfl : key' = key := h
    exact hkey

/-- **A run's requests**: every checkpoint request is for the run's own key. -/
theorem asks_ownKey : Proc.Asks (OwnKey pf config) (config.run pf) := by
  have hincidental : ∀ e : Effect Text, IsIncidental e → OwnKey pf config e :=
    fun e he => ownKey_of_offCheckpoint (offCheckpoint_of_incidental he)
  refine asks_runOnce ?_
  refine { awaitFloor := ?_, now := ?_, log := ?_, read := ?_, write := ?_, discover := ?_,
           ingest := ?_, evidenceStore := ?_, writeEvidenceFile := ?_ }
  · exact ⟨hincidental _ trivial, fun _ => trivial⟩
  · exact ⟨hincidental _ trivial, fun _ => trivial⟩
  · exact fun line => ⟨hincidental _ trivial, fun _ => trivial⟩
  · -- a read: of the key, or of nothing when the source has none
    rintro slug rfl
    show Proc.Asks _ (readCheckpoint pf config.checkpointOptions _)
    cases hkey : checkpointKey pf config.checkpointOptions (pf.withoutUserinfo config.sourceUrl) with
    | ok key =>
      rw [show (config.toInput pf (config.store pf)).sourceUrl = config.sourceUrl from rfl,
        readCheckpoint_eq hkey]
      exact ⟨ownKey_of_request hkey rfl, fun _ => trivial⟩
    | error error =>
      unfold readCheckpoint
      rw [Async.bind_eq, show (config.toInput pf (config.store pf)).sourceUrl = config.sourceUrl
        from rfl, hkey]
      trivial
  · -- a write: every round of it names the same key
    rintro checkpoint etag slug rfl
    show Proc.Asks _ (writeCheckpoint pf config.checkpointOptions _)
    cases hkey : checkpointKey pf config.checkpointOptions (pf.withoutUserinfo config.sourceUrl) with
    | ok key =>
      unfold writeCheckpoint
      exact (loopFree_casRounds hkey _ _ _).asks.mono fun e he => ownKey_of_request hkey he
    | error error =>
      show Proc.Asks _ (casRounds pf config.checkpointOptions (pf.withoutUserinfo config.sourceUrl)
        (4 + 1) checkpoint etag)
      rw [casRounds_error hkey (isPreconditionFailed_of_key hkey)]
      trivial
  · exact fun page => ⟨ownKey_of_offCheckpoint trivial, fun _ => trivial⟩
  · -- a page reads and writes no checkpoint
    intro state candidates
    have hasks : Proc.Asks IsIngest
        (ingestPage (ingestInput (config.toInput pf (config.store pf)) state candidates)) :=
      asks_ingestPage _ rfl rfl rfl
    exact hasks.mono fun e he => ownKey_of_offCheckpoint (offCheckpoint_of_ingest he)
  · rintro _ ⟨⟩ runId summary
    exact ⟨hincidental _ trivial, fun _ => trivial⟩
  · rintro _ ⟨⟩ path summary
    exact ⟨hincidental _ trivial, fun _ => trivial⟩

/-- Sources with different keys are isolated. -/
theorem isolated_of_keys {options : CheckpointStoreOptions} {a b : Url}
    (hkeys : ∀ key, checkpointKey pf options (pf.withoutUserinfo a) = .ok key →
      checkpointKey pf options (pf.withoutUserinfo b) ≠ .ok key) : Isolated pf options a b := by
  intro ι _ services configs w₀ w ps hoptions hruns i j ha hb key ev hev ev' hev'
  have hrecord := Proc.pool_asks (P := fun i => OwnKey pf (configs i)) (fun i => asks_ownKey)
    (fun _ ev hev => absurd hev List.not_mem_nil) hruns
  have htouched : ∀ {ev : FetchEvent Text}, Touched key ev →
      ev.request = .getCheckpoint key ∨ ∃ body condition, ev.request = .putCheckpoint key body condition
    | _, Or.inl hget => Or.inl hget
    | _, Or.inr hput => Or.inr hput.1
  have hkey : Touched key ev → Touched key ev' → False := by
    intro h h'
    have hown := (hrecord i).2 ev hev key (htouched h)
    have hown' := (hrecord j).2 ev' hev' key (htouched h')
    rw [hoptions, ha] at hown
    rw [hoptions, hb] at hown'
    exact hkeys key hown hown'
  exact ⟨fun h => hkey h.1 (Or.inr h.2.1), fun h => hkey (Or.inr h.2.1) h.1⟩

end OwnKey

/-! ## Two runs with one key -/

section OneKey

/-- A source without replays, and services that never fail. -/
def emptySource : Backend Text where
  reports _ r := r = .ok (okReport [])
  pageText _ _ := False
  served _ _ := False
  tag _ _ := True

/-- A deployment that was never used. -/
def unusedWorld : World Text where
  checkpoints _ := []
  raw _ := none
  staging := []

/-- A run of a source, with nothing special about it. -/
def plainConfig (options : CheckpointStoreOptions) (sourceUrl : Url) : RunConfig where
  bucket := "bucket"
  checkpointOptions := options
  concurrency := 1
  requestSpacingMs := 0
  runId := "run"
  runId_ne_empty := toyConfig.runId_ne_empty
  sourceUrl := sourceUrl

variable {ι : Type} [DecidableEq ι] {i : ι} {pf : Platform Text} {options : CheckpointStoreOptions}
  {sourceUrl : Url} {key : String} {w₀ w : RecordedWorld ι Text}

/-- The run has touched no checkpoint since `w₀`, and no other component's record. -/
structure Since (i : ι) (w₀ w : RecordedWorld ι Text) : Prop where
  checkpoints : w.1.checkpoints = w₀.1.checkpoints
  others : ∀ j, j ≠ i → w.2 j = w₀.2 j

/-- The run has put a new version on top of what was there. -/
structure Superseded (pf : Platform Text) (i : ι) (key : String) (w₀ w : RecordedWorld ι Text) :
    Prop where
  others : ∀ j, j ≠ i → w.2 j = w₀.2 j
  readable : ∃ version c, w.1.current key = some version ∧
    parseCheckpoint pf version.body = some c ∧ c.status = .complete
  replaced : ∃ ev ∈ w.2 i, Replaced key ev ∧ ev.before.checkpoints key = w₀.1.checkpoints key ∧
    ev.after.checkpoints key = w.1.checkpoints key

theorem Since.step {e : Effect Text} {r : Reply e} {w' : RecordedWorld ι Text} (h : Since i w₀ w)
    (hr : emptySource.Step.recorded i w e r w') (hw : w'.1.checkpoints = w.1.checkpoints) :
    Since i w₀ w' := by
  refine ⟨hw.trans h.checkpoints, fun j hj => ?_⟩
  rw [Env.recorded_other hr hj]
  exact h.others j hj

theorem Superseded.step {e : Effect Text} {r : Reply e} {w' : RecordedWorld ι Text}
    (h : Superseded pf i key w₀ w) (hr : emptySource.Step.recorded i w e r w')
    (hw : w'.1 = w.1) : Superseded pf i key w₀ w' := by
  obtain ⟨ev, hev, hreplaced⟩ := h.replaced
  refine ⟨fun j hj => ?_, ?_, ev, ?_, ?_⟩
  · rw [Env.recorded_other hr hj]
    exact h.others j hj
  · rw [hw]
    exact h.readable
  · rw [Env.recorded_self hr]
    exact List.mem_append_left _ hev
  · rw [hw]
    exact hreplaced

/-- An incidental request, answered as one likes. -/
theorem may_incidental {P : RecordedWorld ι Text → Prop} {e : Effect Text} (he : IsIncidental e)
    (r : Reply e) (hP : ∀ w', emptySource.Step.recorded i w e r w' → w'.1 = w.1 → P w') :
    Proc.May (emptySource.Step.recorded i) (fun _ => P) w (Proc.perform e) := by
  let w' : RecordedWorld ι Text :=
    (w.1, Function.update w.2 i (w.2 i ++ [⟨w.1, e, r, w.1⟩]))
  have hstep : emptySource.Step.recorded i w e r w' := by
    refine ⟨?_, rfl⟩
    cases e <;> first | exact he.elim | rfl
  exact Proc.may_perform r hstep (hP w' hstep rfl)

/-- A run here starts at the first page: nothing is stored, or a complete checkpoint is. -/
def Fresh (pf : Platform Text) (key : String) (w : World Text) : Prop :=
  w.current key = none ∨ ∃ version c, w.current key = some version ∧
    parseCheckpoint pf version.body = some c ∧ c.status = .complete

theorem Fresh.start {w : World Text} (h : Fresh pf key w) (conditionalWrites : Bool) :
    ∃ etag, resumeStateOf (storedRead pf key w) = startFresh etag ∧
      (conditionalHeader etag conditionalWrites).holds (w.current key) := by
  unfold storedRead
  rcases h with hnone | ⟨version, c, hcurrent, hparse, hcomplete⟩
  · refine ⟨none, ?_, holds_conditionalHeader_none hnone _⟩
    rw [hnone]
    rfl
  · refine ⟨some version.etag, ?_, holds_conditionalHeader_some hcurrent _⟩
    rw [hcurrent]
    unfold readOutput
    dsimp only
    rw [hparse]
    exact if_pos hcomplete

/-- The read of a run. -/
theorem may_read (hkey : checkpointKey pf options (pf.withoutUserinfo sourceUrl) = .ok key)
    (hw : Since i w₀ w) : Proc.May (emptySource.Step.recorded i)
      (Async.Outcome (fun read w => Since i w₀ w ∧ read = storedRead pf key w₀.1) fun _ _ => False) w
      (readCheckpoint pf options (pf.withoutUserinfo sourceUrl)) := by
  rw [readCheckpoint_eq hkey]
  have hcurrent : w.1.current key = w₀.1.current key := by
    unfold World.current
    rw [hw.checkpoints]
  have hread : ∀ r, emptySource.StepGetCheckpoint w.1 key r →
      readReply pf r = .ok (storedRead pf key w₀.1) → Proc.May (emptySource.Step.recorded i)
        (Async.Outcome (fun read w => Since i w₀ w ∧ read = storedRead pf key w₀.1)
          fun _ _ => False) w (Proc.call (.getCheckpoint key) fun r => .pure (readReply pf r)) := by
    intro r hr hreply
    have hstep : emptySource.Step.recorded i w (.getCheckpoint key) r
        (w.1, Function.update w.2 i (w.2 i ++ [⟨w.1, .getCheckpoint key, r, w.1⟩])) :=
      ⟨⟨rfl, hr⟩, rfl⟩
    refine Proc.may_call r hstep (Proc.may_pure ?_)
    rw [hreply]
    exact ⟨hw.step hstep rfl, rfl⟩
  unfold storedRead at hread ⊢
  unfold Backend.StepGetCheckpoint at hread
  rw [← hcurrent] at hread ⊢
  cases hversion : w.1.current key with
  | some version =>
    rw [hversion] at hread
    exact hread _ (Or.inl rfl) rfl
  | none =>
    rw [hversion] at hread
    exact hread (.error (.s3Service "NotFound" none)) (Or.inl ⟨_, rfl, rfl⟩) rfl

/-- The page loop: the first page is empty. -/
theorem may_runPageLoop {context : AssembleContext} {state : LoopState}
    (hok : state.discoveryReport.ok = true) (hw : Since i w₀ w) :
    Proc.May (emptySource.Step.recorded i)
      (Async.Outcome (fun final w => Since i w₀ w ∧ finalStatus final = .complete ∧
        final.progress = state.progress) fun _ _ => False) w
      (runPageLoop pf ((plainConfig options sourceUrl).toInput pf
        ((plainConfig options sourceUrl).store pf)) context state) := by
  let input := (plainConfig options sourceUrl).toInput pf ((plainConfig options sourceUrl).store pf)
  unfold runPageLoop
  refine Async.may_iterate ?_
  unfold pageIteration
  rw [if_neg (show ¬ (input.maxPages.any _) = true from Bool.false_ne_true)]
  have hfloor : Proc.May (emptySource.Step.recorded i) (fun _ => Since i w₀) w
      (Proc.perform Effect.awaitFloor : Program Text Unit) :=
    may_incidental (e := .awaitFloor) trivial () fun w' hr hw' =>
      hw.step hr (congrArg World.checkpoints hw')
  refine Async.may_lift_bind _ hfloor fun _ w hw => ?_
  refine Async.may_bind (fun report w => Since i w₀ w ∧ report = okReport []) ?_ ?_
  · let request : Effect Text :=
      .discoverReplays (discoverInput pf input (state.lastCompletedPage + FIRST_PAGE))
    have hstep : emptySource.Step.recorded i w request (.ok (okReport []))
        (w.1, Function.update w.2 i (w.2 i ++ [⟨w.1, request, .ok (okReport []), w.1⟩])) :=
      ⟨⟨rfl, rfl⟩, rfl⟩
    exact Proc.may_call _ hstep (Proc.may_pure ⟨hw.step hstep rfl, rfl⟩)
  · rintro report w ⟨hw, rfl⟩
    refine Proc.may_pure ⟨hw, finalStatus_eq_complete.2 ⟨?_, rfl⟩, rfl⟩
    show (state.discoveryReport.ok && true) = true
    rw [hok]
    rfl

/-- A checkpoint of no page has nothing but zeros. -/
theorem safe_unstarted {runId : String} {built : BuildCheckpointInput} {now : Date}
    (hpages : built.pages = ∅) (hlast : built.lastCompletedPage = 0)
    (hdiscovered : built.discoveredLastPage = some 0) : (checkpointAt runId built now).Safe := by
  have hzero : IsSafe 0 := by decide
  refine ⟨?_, ?_, ?_, fun failure hfailure => ?_, fun key page hpage => ?_⟩
  · show (aggregatePageCounts built.pages).Safe
    rw [hpages]
    exact ⟨hzero, hzero, hzero, hzero⟩
  · show IsSafe (built.discoveredLastPage.getD built.lastCompletedPage)
    rw [hdiscovered]
    exact hzero
  · show IsSafe built.lastCompletedPage
    rw [hlast]
    exact hzero
  · cases hfailure
  · rw [show (checkpointAt runId built now).pages = built.pages from rfl, hpages,
      Finmap.lookup_empty] at hpage
    cases hpage

/-- The last write of a run that starts at the first page. -/
theorem may_writeFinal (hkey : checkpointKey pf options (pf.withoutUserinfo sourceUrl) = .ok key)
    {checkpoint : Checkpoint} (hvalid : checkpoint.Valid) (hsafe : checkpoint.Safe)
    (hcomplete : checkpoint.status = .complete) {etag : Option String}
    (hetag : (conditionalHeader etag options.conditionalWrites).holds (w₀.1.current key))
    (hw : Since i w₀ w) : Proc.May (emptySource.Step.recorded i)
      (Async.Outcome (fun _ => Superseded pf i key w₀) fun _ _ => False) w
      (writeCheckpoint pf options
        { checkpoint, etag, slug := pf.withoutUserinfo sourceUrl }) := by
  unfold writeCheckpoint
  rw [show MAX_CAS_ROUNDS = 4 + 1 from rfl, casRounds_succ hkey]
  let version : Version Text := { body := stringifyCheckpoint pf checkpoint, etag := "" }
  let request : Effect Text :=
    .putCheckpoint key version.body (conditionalHeader etag options.conditionalWrites)
  let ev : FetchEvent Text := ⟨w.1, request, .ok (some ""), w.1.pushVersion key version⟩
  have hcurrent : w.1.current key = w₀.1.current key := by
    unfold World.current
    rw [hw.checkpoints]
  have hstep : emptySource.Step.recorded i w request (.ok (some ""))
      (w.1.pushVersion key version, Function.update w.2 i (w.2 i ++ [ev])) := by
    refine ⟨Or.inl ⟨?_, "", trivial, rfl, Or.inl rfl⟩, rfl⟩
    rw [hcurrent]
    exact hetag
  refine Proc.may_call (.ok (some "")) hstep (Proc.may_pure ?_)
  refine ⟨fun j hj => ?_, ⟨version, _, World.current_pushVersion ..,
    parseCheckpoint_stringify pf hvalid hsafe, hcomplete⟩, ev, ?_, ⟨⟨_, _, rfl⟩, ?_⟩, ?_, rfl⟩
  · rw [Env.recorded_other hstep hj]
    exact hw.others j hj
  · rw [Env.recorded_self hstep]
    exact List.mem_append_right _ (List.mem_singleton.2 rfl)
  · show (w.1.pushVersion key version).checkpoints key ≠ w.1.checkpoints key
    rw [World.checkpoints_pushVersion]
    exact List.cons_ne_self _ _
  · show w.1.checkpoints key = _
    rw [hw.checkpoints]

section Requests

variable {P : RecordedWorld ι Text → Prop}

/-- An incidental request that keeps what holds. -/
theorem may_keep {e : Effect Text} (he : IsIncidental e) (r : Reply e)
    (hP : ∀ w (e : Effect Text) (r : Reply e) w', P w → emptySource.Step.recorded i w e r w' →
      w'.1 = w.1 → P w') (hw : P w) :
    Proc.May (emptySource.Step.recorded i) (fun _ => P) w (Proc.perform e) :=
  may_incidental he r fun w' hr hw' => hP w e r w' hw hr hw'

end Requests

/-- The report of a run that ends `complete`. -/
theorem may_assembleResult (hkey : checkpointKey pf options (pf.withoutUserinfo sourceUrl) = .ok key)
    {startedAt : Date} {state : LoopState} (hstatus : finalStatus state = .complete)
    (hetag : (conditionalHeader state.etag options.conditionalWrites).holds (w₀.1.current key))
    (hpages : state.pages = ∅) (hlast : state.lastCompletedPage = 0) (hw : Since i w₀ w) :
    Proc.May (emptySource.Step.recorded i) (fun _ => Superseded pf i key w₀) w
      (assembleResult ((plainConfig options sourceUrl).toInput pf
        ((plainConfig options sourceUrl).store pf))
        { slug := pf.withoutUserinfo sourceUrl, startedAt := toISOString startedAt } state) := by
  have hsince : ∀ w (e : Effect Text) (r : Reply e) w', Since i w₀ w →
      emptySource.Step.recorded i w e r w' → w'.1 = w.1 → Since i w₀ w' :=
    fun w e r w' h hr hw' => h.step hr (congrArg World.checkpoints hw')
  have hsuperseded : ∀ w (e : Effect Text) (r : Reply e) w', Superseded pf i key w₀ w →
      emptySource.Step.recorded i w e r w' → w'.1 = w.1 → Superseded pf i key w₀ w' :=
    fun w e r w' h hr hw' => h.step hr hw'
  unfold assembleResult
  rw [if_pos hstatus]
  refine Async.may_bind (fun _ => Superseded pf i key w₀) ?_ fun _ w hw => ?_
  · unfold writeFinalCheckpoint
    let final : Date → Checkpoint := fun now => checkpointAt (plainConfig options sourceUrl).runId
      { discoveredLastPage := some (deriveDiscoveredLastPage state)
        lastCompletedPage := state.lastCompletedPage, pages := state.pages
        slug := pf.withoutUserinfo sourceUrl, startedAt := toISOString startedAt
        status := .complete } now
    have hvalid : ∀ now, (final now).Valid := by
      refine RunConfig.valid_checkpointAt pf (plainConfig options sourceUrl) startedAt ?_ ?_ ?_
      · rfl
      · rfl
      · intro key entry hentry
        rw [hpages, Finmap.lookup_empty] at hentry
        cases hentry
    have hsafe : ∀ now, (final now).Safe := by
      refine fun now => safe_unstarted hpages hlast (congrArg some ?_)
      unfold deriveDiscoveredLastPage
      rw [if_pos (finalStatus_eq_complete.1 hstatus).1, hlast]
    refine Async.may_lift_bind (fun checkpoint w => Since i w₀ w ∧ ∃ now, checkpoint = final now)
      (Proc.may_bind _ (may_keep (e := .now) trivial 0 hsince hw) fun now w hw =>
        Proc.may_pure ⟨hw, now, rfl⟩) ?_
    rintro checkpoint w ⟨hw, now, rfl⟩
    refine Async.may_tryCatch (fun _ => Superseded pf i key w₀) ?_ fun _ _ h => h
    exact Async.may_bind _ (may_writeFinal hkey (hvalid now) (hsafe now) rfl hetag hw) fun _ w hw =>
      Proc.may_pure hw
  · refine Async.may_lift_bind _ (may_keep (e := .now) trivial 0 hsuperseded hw) fun finishedAt w hw => ?_
    refine Async.may_lift_bind _ (may_keep (e := .log _) trivial () hsuperseded hw) fun _ w hw => ?_
    exact Proc.may_pure hw

/-- **A run over an empty source** may put a complete checkpoint on top of what is stored. -/
theorem may_emptyRun (hkey : checkpointKey pf options (pf.withoutUserinfo sourceUrl) = .ok key)
    (hfresh : Fresh pf key w.1) : Proc.May (emptySource.Step.recorded i)
      (fun _ => Superseded pf i key w) w ((plainConfig options sourceUrl).run pf) := by
  let input := (plainConfig options sourceUrl).toInput pf ((plainConfig options sourceUrl).store pf)
  have hsince : ∀ w₁ (e : Effect Text) (r : Reply e) w', Since i w w₁ →
      emptySource.Step.recorded i w₁ e r w' → w'.1 = w₁.1 → Since i w w' :=
    fun w e r w' h hr hw' => h.step hr (congrArg World.checkpoints hw')
  obtain ⟨etag, hstart, hetag⟩ := hfresh.start options.conditionalWrites
  have hbegin : Since i w w := ⟨rfl, fun _ _ => rfl⟩
  unfold RunConfig.run runOnce
  refine Async.may_lift_bind _ (may_keep (e := .now) trivial 0 hsince hbegin) fun startedAt w₁ hw₁ => ?_
  refine Async.may_lift_bind _ (may_keep (e := .log _) trivial () hsince hw₁) fun _ w₂ hw₂ => ?_
  refine Async.may_bind (fun resumeState w' => Since i w w' ∧ resumeState = startFresh etag)
    ?_ ?_
  · unfold resolveResumeState
    refine Async.may_bind _ (may_read hkey hw₂) ?_
    rintro read w₃ ⟨hw₃, rfl⟩
    split
    · exact Proc.may_pure ⟨hw₃, hstart⟩
    · exact Async.may_lift_bind _ (may_keep (e := .log _) trivial () hsince hw₃) fun _ w₄ hw₄ =>
        Proc.may_pure ⟨hw₄, hstart⟩
  · rintro resumeState w₃ ⟨hw₃, rfl⟩
    unfold runFrom
    refine Async.may_bind _ (may_runPageLoop rfl hw₃) ?_
    rintro state w₄ ⟨hw₄, hstatus, hprogress⟩
    have hsame : state.etag = etag := congrArg Progress.etag hprogress
    refine may_assembleResult hkey hstatus ?_ (congrArg Progress.pages hprogress)
      (congrArg Progress.lastCompletedPage hprogress) hw₄
    rw [hsame]
    exact hetag

end OneKey

/-! ## The names decide -/

section Result

variable {pf : Platform Text} {options : CheckpointStoreOptions} {a b : Url} {key : String}

/-- Sources with one key are not isolated. -/
theorem not_isolated_of_key (ha : checkpointKey pf options (pf.withoutUserinfo a) = .ok key)
    (hb : checkpointKey pf options (pf.withoutUserinfo b) = .ok key) :
    ¬ Isolated pf options a b := by
  intro h
  let configs : Bool → RunConfig := fun side => plainConfig options (if side then b else a)
  -- the first source's run, and then the second one's
  obtain ⟨w₁, r₁, hruns₁, hfirst⟩ := may_emptyRun (i := false)
    (w := ((unusedWorld, fun _ => []) : RecordedWorld Bool Text)) ha (Or.inl rfl)
  obtain ⟨w₂, r₂, hruns₂, hsecond⟩ := may_emptyRun (i := true) (w := w₁) hb (Or.inr hfirst.readable)
  let programs : Bool → Async (Effect Text) Reply JsError RunOnceResult :=
    fun i => (configs i).run pf
  have hbegun : (Proc.lts (emptySource.Step.recorded false) (Except JsError RunOnceResult)).Runs
    Lts.Alone (unusedWorld, fun _ => []) (programs false) w₁ (.pure r₁) := hruns₁
  have hpool₁ := Lts.PoolRuns.of_runs
    (L := fun i => Proc.lts (emptySource.Step.recorded i) (Except JsError RunOnceResult)) false hbegun
  have hnext : Function.update (fun i => (configs i).run pf) false (Proc.pure r₁) true =
      (configs true).run pf := Function.update_of_ne (by decide) _ _
  have hpool₂ := Lts.PoolRuns.of_runs
    (L := fun i => Proc.lts (emptySource.Step.recorded i) (Except JsError RunOnceResult)) true
    (hnext.symm ▸ hruns₂)
  obtain ⟨ev, hev, hreplaced, _, hafter⟩ := hfirst.replaced
  obtain ⟨ev', hev', hreplaced', hbefore', _⟩ := hsecond.replaced
  have hmem : ev ∈ w₂.2 false := by
    rw [hsecond.others false (by decide)]
    exact hev
  refine (h Bool emptySource configs unusedWorld w₂ _ (fun _ => rfl) (hpool₁.trans hpool₂) false true
    rfl rfl key ev hmem ev' hev').2 ⟨Or.inr hreplaced', hreplaced, ?_⟩
  rw [hbefore', hafter]

theorem checkpointKey_eq_ok {slug : String} : checkpointKey pf options slug = .ok key ↔
    ∃ url, pf.parseUrl slug = some url ∧ toCheckpointObjectKey options.keyPrefix url = .ok key := by
  unfold checkpointKey newUrl
  cases hparse : pf.parseUrl slug with
  | none =>
    refine iff_of_false (fun h => by cases h) ?_
    rintro ⟨url, hurl, _⟩
    cases hurl
  | some url =>
    constructor
    · exact fun hkey => ⟨url, rfl, hkey⟩
    · rintro ⟨url', hurl, hkey⟩
      cases hurl
      exact hkey

/-- The two sources, read again without their userinfo, have one name: in lower case, their host and
    path are the same between their first and their last character in `[a-z0-9._]`, but for what
    stands for a dash. -/
def OneName (pf : Platform Text) (a b : Url) : Prop :=
  ∃ a' b', pf.parseUrl (pf.withoutUserinfo a) = some a' ∧
    pf.parseUrl (pf.withoutUserinfo b) = some b' ∧ SameName a'.slugText b'.slugText

/-- Two sources have one key exactly when the prefix is safe and they have one name. -/
theorem same_checkpointKey_iff :
    (∃ key, checkpointKey pf options (pf.withoutUserinfo a) = .ok key ∧
      checkpointKey pf options (pf.withoutUserinfo b) = .ok key) ↔
      SafePrefix options.keyPrefix ∧ OneName pf a b := by
  simp only [checkpointKey_eq_ok]
  constructor
  · rintro ⟨key, ⟨a', ha, hkey⟩, b', hb, hkey'⟩
    obtain ⟨hsafe, hname⟩ := (same_key_iff options.keyPrefix a' b').1 ⟨key, hkey, hkey'⟩
    exact ⟨hsafe, a', b', ha, hb, hname⟩
  · rintro ⟨hsafe, a', b', ha, hb, hname⟩
    obtain ⟨key, hkey, hkey'⟩ := (same_key_iff options.keyPrefix a' b').2 ⟨hsafe, hname⟩
    exact ⟨key, ⟨a', ha, hkey⟩, b', hb, hkey'⟩

/-- **The names decide.** Under a safe prefix two sources are isolated exactly when they do not have
    one name; under any other prefix no run touches a checkpoint. -/
theorem checkpoint_isolation_iff :
    Isolated pf options a b ↔ (SafePrefix options.keyPrefix → ¬ OneName pf a b) := by
  rw [← not_and, ← same_checkpointKey_iff]
  constructor
  · rintro h ⟨key, ha, hb⟩
    exact not_isolated_of_key ha hb h
  · intro hdiffer
    exact isolated_of_keys fun key ha hb => hdiffer ⟨key, ha, hb⟩

end Result

/-! ## Two paths with one name -/

/-- The part of the text before `c`, and the rest from `c` on. -/
def splitBefore (c : Char) : List Char → List Char × List Char
  | [] => ([], [])
  | d :: ds => if d = c then ([], d :: ds) else (d :: (splitBefore c ds).1, (splitBefore c ds).2)

/-- A platform that writes and reads `https` URLs in full. -/
def webPlatform : Platform (Option Json) where
  __ := toyPlatform
  parseUrl text :=
    match text.toList with
    | 'h' :: 't' :: 't' :: 'p' :: 's' :: ':' :: '/' :: '/' :: rest =>
      let (host, rest) := splitBefore '/' rest
      let (path, search) := splitBefore '?' rest
      some { protocol := "https:", host := String.ofList host, pathname := String.ofList path
             search := String.ofList search }
    | _ => none
  urlToString url := "https://" ++ url.host ++ url.pathname ++ url.search
  urlToString_ne_empty url h := by
    have hlen := congrArg String.length h
    simp [String.length_append] at hlen

/-- `https://sg.zone/a/b` -/
def nestedPath : Url := { protocol := "https:", host := "sg.zone", pathname := "/a/b" }

/-- `https://sg.zone/a-b` -/
def dashedPath : Url := { protocol := "https:", host := "sg.zone", pathname := "/a-b" }

/-- The two paths share the object `checkpoints/sg.zone-a-b/latest.json`. -/
theorem paths_not_isolated :
    nestedPath.pathname ≠ dashedPath.pathname ∧
      ¬ Isolated webPlatform toyOptions nestedPath dashedPath := by
  have hnested : checkpointKey webPlatform toyOptions (webPlatform.withoutUserinfo nestedPath) =
      .ok "checkpoints/sg.zone-a-b/latest.json" := rfl
  have hdashed : checkpointKey webPlatform toyOptions (webPlatform.withoutUserinfo dashedPath) =
      .ok "checkpoints/sg.zone-a-b/latest.json" := rfl
  exact ⟨by decide, not_isolated_of_key hnested hdashed⟩

end ReplaysFetcher
