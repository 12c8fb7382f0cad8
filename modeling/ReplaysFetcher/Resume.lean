/-
  Where a run resumes.

  A run starts after the last page of the checkpoint it has read, and compares the cap on pages with
  ABSOLUTE page numbers.  So the cap does not bound what one run reads: it bounds what ALL runs
  read, up to a run that ends `complete`.

  1. A run that starts from a checkpoint at the cap reads no list page, reports `truncated`, and
     leaves the checkpoint as it was (`safe_cappedRun`); any other run asks for a list page
     (`safe_belowCap`).
  2. A run that reports `truncated` has brought the checkpoint to the cap, if its checkpoint writes
     are carried out (`safe_truncatedRun`): `truncatedSpec` says that past the cap the stored
     checkpoint is the run's own.

  Together: what a `truncated` run leaves is never read by the runs after it.
-/
import ReplaysFetcher.RunLog
import ReplaysFetcher.CheckpointHistory

namespace ReplaysFetcher

open Effectful

variable {Text : Type}

/-! ## The cap -/

/-- A checkpoint that has reached the cap is stored under the key. -/
def AtCap (pf : Platform Text) (key : String) (cap : ℕ) (w : World Text) : Prop :=
  ∃ version c, w.current key = some version ∧ parseCheckpoint pf version.body = some c ∧
    c.status ≠ .complete ∧ cap ≤ c.lastCompletedPage

/-- A run would not resume beyond the cap: there is no checkpoint, or it is complete, or its last
    page is below the cap. -/
def BelowCap (pf : Platform Text) (key : String) (cap : ℕ) (w : World Text) : Prop :=
  ∀ version c, w.current key = some version → parseCheckpoint pf version.body = some c →
    c.status ≠ .complete → c.lastCompletedPage < cap

/-- Below the cap, or at it. -/
theorem not_belowCap {pf : Platform Text} {key : String} {cap : ℕ} {w : World Text} :
    ¬ BelowCap pf key cap w ↔ AtCap pf key cap w := by
  unfold BelowCap AtCap
  push Not
  constructor
  · rintro ⟨version, c, hcurrent, hparse, hne, hle⟩
    exact ⟨version, c, hcurrent, hparse, hne, hle⟩
  · rintro ⟨version, c, hcurrent, hparse, hne, hle⟩
    exact ⟨version, c, hcurrent, hparse, hne, hle⟩

/-- What a read of the key finds. -/
def storedRead (pf : Platform Text) (key : String) (w : World Text) : CheckpointReadResult :=
  match w.current key with
  | some version => readOutput pf { body := some version.body, etag := some version.etag }
  | none => {}

/-- Where a run resumes that finds a checkpoint below the cap. -/
theorem capped_startPage {pf : Platform Text} {key : String} {cap : ℕ} {w : World Text}
    (hcap : 1 ≤ cap) :
    capped (some cap) (resumeStateOf (storedRead pf key w)).startPage = false ↔
      BelowCap pf key cap w := by
  show decide (cap < _) = false ↔ _
  rw [decide_eq_false_iff_not, not_lt]
  unfold BelowCap storedRead
  cases w.current key with
  | none => exact ⟨fun _ _ _ h => (by cases h), fun _ => hcap⟩
  | some version =>
    unfold readOutput
    dsimp only
    cases hparse : parseCheckpoint pf version.body with
    | none =>
      refine ⟨fun _ version' c hversion hparse' => ?_, fun _ => hcap⟩
      obtain rfl := Option.some.inj hversion
      rw [hparse] at hparse'
      cases hparse'
    | some checkpoint =>
      unfold resumeStateOf
      dsimp only
      by_cases hcomplete : checkpoint.status = .complete
      · rw [if_pos hcomplete]
        refine ⟨fun _ version' c hversion hparse' hne => ?_, fun _ => hcap⟩
        obtain rfl := Option.some.inj hversion
        obtain rfl := Option.some.inj (hparse.symm.trans hparse')
        exact absurd hcomplete hne
      · rw [if_neg hcomplete]
        show checkpoint.lastCompletedPage + 1 ≤ cap ↔ _
        constructor
        · rintro hle version' c hversion hparse' _
          obtain rfl := Option.some.inj hversion
          obtain rfl := Option.some.inj (hparse.symm.trans hparse')
          omega
        · intro h
          have := h version checkpoint rfl hparse hcomplete
          omega

/-- The record shows a request for a list page. -/
def Listed (record : List (FetchEvent Text)) : Prop := askedOf (conversation record) ≠ []

/-- Steps that leave the checkpoints alone and ask for no list page. -/
def Unlisted (w w' : RecordedWorld Unit Text) : Prop :=
  w'.1.checkpoints = w.1.checkpoints ∧ ∃ more, w'.2 () = w.2 () ++ more ∧
    ∀ ev ∈ more, ∀ input, ev.request ≠ .discoverReplays input

/-- The runs of one source, under one cap. -/
def IsCappedRunOf (pf : Platform Text) (sourceUrl : Url) (key : String) (cap : ℕ)
    (p : Task Text RunOnceResult) : Prop :=
  ∃ config : RunConfig, config.sourceUrl = sourceUrl ∧ config.maxPages = some cap ∧
    checkpointKey pf config.checkpointOptions (pf.withoutUserinfo sourceUrl) = .ok key ∧
    p = config.markedRun pf

section Steps

variable {pf : Platform Text} {b : Backend Text} {config : RunConfig} {key : String} {cap : ℕ}
  {w w' : RecordedWorld Unit Text}

/-- Doing nothing lists nothing. -/
theorem unlisted_refl (w : RecordedWorld Unit Text) : Unlisted w w :=
  ⟨rfl, [], (List.append_nil _).symm, fun _ h => absurd h List.not_mem_nil⟩

/-- The checkpoints stay as they are. -/
theorem Unlisted.current (h : Unlisted w w') (key : String) : w'.1.current key = w.1.current key := by
  unfold World.current
  rw [h.1]

/-- And so does what is read of them. -/
theorem Unlisted.storedRead (h : Unlisted w w') (key : String) :
    ReplaysFetcher.storedRead pf key w'.1 = ReplaysFetcher.storedRead pf key w.1 := by
  unfold ReplaysFetcher.storedRead
  rw [h.current]

/-- At the cap, still. -/
theorem AtCap.unlisted (h : AtCap pf key cap w.1) (hr : Unlisted w w') : AtCap pf key cap w'.1 := by
  unfold AtCap at h ⊢
  rwa [hr.current]

/-- Below the cap, still. -/
theorem BelowCap.unlisted (h : BelowCap pf key cap w.1) (hr : Unlisted w w') :
    BelowCap pf key cap w'.1 := by
  unfold BelowCap at h ⊢
  rwa [hr.current]

/-- No list was asked for in between. -/
theorem Unlisted.askedOf_eq (h : Unlisted w w') :
    askedOf (conversation (w'.2 ())) = askedOf (conversation (w.2 ())) := by
  obtain ⟨_, more, hmore, hnone⟩ := h
  have hnil : askedOf (conversation more) = [] := by
    refine List.filterMap_eq_nil_iff.2 fun x hx => ?_
    obtain ⟨ev, hev, rfl⟩ := List.mem_map.1 hx
    have hreq := hnone ev hev
    obtain ⟨before, request, reply, after⟩ := ev
    cases request with
    | discoverReplays input => exact absurd rfl (hreq input)
    | _ => rfl
  rw [hmore, conversation_append, askedOf_append, hnil, List.append_nil]

/-- And none was reported. -/
theorem Unlisted.reportsOf_eq (h : Unlisted w w') :
    reportsOf (conversation (w'.2 ())) = reportsOf (conversation (w.2 ())) := by
  obtain ⟨_, more, hmore, hnone⟩ := h
  have hnil : reportsOf (conversation more) = [] := by
    refine List.filterMap_eq_nil_iff.2 fun x hx => ?_
    obtain ⟨ev, hev, rfl⟩ := List.mem_map.1 hx
    have hreq := hnone ev hev
    obtain ⟨before, request, reply, after⟩ := ev
    cases request with
    | discoverReplays input => exact absurd rfl (hreq input)
    | _ => rfl
  rw [hmore, conversation_append, reportsOf_append, hnil, List.append_nil]

/-- Another request than a list, which writes no checkpoint. -/
theorem unlisted_of_recorded {e : Effect Text} {r : Reply e} (h : b.Step.recorded () w e r w')
    (hw : w'.1.checkpoints = w.1.checkpoints) (he : ∀ input, e ≠ .discoverReplays input) :
    Unlisted w w' := by
  refine ⟨hw, _, Env.recorded_self h, fun ev hev => ?_⟩
  rw [List.mem_singleton.1 hev]
  exact he

/-- The incidental requests of a run. -/
theorem unlisted_of_incidental {e : Effect Text} {r : Reply e} (he : IsIncidental e)
    (h : b.Step.recorded () w e r w') : Unlisted w w' := by
  have hstep : w'.1 = w.1 := by
    cases e <;> first | exact he.elim | exact h.1
  refine unlisted_of_recorded h (congrArg World.checkpoints hstep) fun input heq => ?_
  rw [heq] at he
  exact he

/-- The incidental dependencies of a run are unnoticed. -/
theorem quiet_unlisted {guar : RecordedWorld Unit Text → RecordedWorld Unit Text → Prop}
    (hguar : ∀ w w', Unlisted w w' → guar w w') :
    RunSpec.Quiet (b.Step.recorded ()) Unlisted guar
      (config.toInput pf (config.store pf).marked) := by
  refine config.quiet pf _ fun e he w r w' hr => ?_
  have hunlisted := unlisted_of_incidental he hr
  exact ⟨hguar w w' hunlisted, hunlisted⟩

/-- The checkpoint read at the start of a run. -/
theorem safe_resumes {guar : RecordedWorld Unit Text → RecordedWorld Unit Text → Prop}
    (hguar : ∀ w w', Unlisted w w' → guar w w')
    (hkey : checkpointKey pf config.checkpointOptions
      (pf.withoutUserinfo config.sourceUrl) = .ok key)
    {P : RecordedWorld Unit Text → Prop} (hP : ∀ w w', P w → Unlisted w w' → P w') (hw : P w) :
    Proc.Safe (b.Step.recorded ()) Unlisted guar
      (Async.Outcome (fun read w => P w ∧ read = storedRead pf key w.1) fun _ _ => True) w
      (readCheckpoint pf config.checkpointOptions (pf.withoutUserinfo config.sourceUrl)) := by
  rw [readCheckpoint_eq hkey]
  refine Proc.safe_call P hP (fun w hw r w' hr => ?_) hw
  have hunlisted : Unlisted w w' :=
    unlisted_of_recorded hr (congrArg World.checkpoints hr.1.1) fun input h => by cases h
  refine ⟨hguar w w' hunlisted, Proc.safe_pure (Async.outcome_stable ?_
    (fun _ _ _ _ _ => trivial) _) ?_⟩
  · rintro read w w' ⟨hw, hread⟩ hr
    refine ⟨hP w w' hw hr, ?_⟩
    rw [hread, hr.storedRead]
  · rcases hr.1.2 with hget | ⟨_, error, hfound, rfl⟩
    · cases hversion : w.1.current key with
      | some version =>
        rw [hversion] at hget
        dsimp only at hget
        subst hget
        refine ⟨hP w w' hw hunlisted, ?_⟩
        rw [hunlisted.storedRead]
        unfold storedRead
        rw [hversion]
      | none =>
        rw [hversion] at hget
        obtain ⟨error, hfound, rfl⟩ := hget
        simp only [readReply, hfound, if_true]
        refine ⟨hP w w' hw hunlisted, ?_⟩
        rw [hunlisted.storedRead]
        unfold storedRead
        rw [hversion]
    · simp only [readReply, hfound]
      trivial

/-- A run is what it does after its read, from the state the stored checkpoint gives. -/
theorem safe_markedRun_from {guar : RecordedWorld Unit Text → RecordedWorld Unit Text → Prop}
    (hguar : ∀ w w', Unlisted w w' → guar w w')
    (hkey : checkpointKey pf config.checkpointOptions
      (pf.withoutUserinfo config.sourceUrl) = .ok key)
    {P : RecordedWorld Unit Text → Prop} (hP : ∀ w w', P w → Unlisted w w' → P w')
    {post : RunOnceResult → RecordedWorld Unit Text → Prop}
    (hfrom : ∀ context resumeState w, P w → resumeState = resumeStateOf (storedRead pf key w.1) →
      Proc.Safe (b.Step.recorded ()) Unlisted guar (Async.Outcome post fun _ _ => True) w
        (runFrom pf (config.toInput pf (config.store pf).marked) context resumeState))
    (hw : P w) :
    Proc.Safe (b.Step.recorded ()) Unlisted guar (Async.Outcome post fun _ _ => True) w
      (config.markedRun pf) := by
  have hquiet : RunSpec.Quiet (b.Step.recorded ()) Unlisted guar
      (config.toInput pf (config.store pf).marked) := quiet_unlisted hguar
  unfold RunConfig.markedRun runOnce
  refine Async.safe_lift_bind (fun _ => P) (hquiet.now _ hP w hw) fun startedAt w hw => ?_
  refine Async.safe_lift_bind (fun _ => P) (hquiet.log _ _ hP w hw) fun _ w hw => ?_
  let Q : ResumeState → RecordedWorld Unit Text → Prop := fun resumeState w =>
    P w ∧ resumeState = resumeStateOf (storedRead pf key w.1)
  have hQ : ∀ resumeState w w', Q resumeState w → Unlisted w w' → Q resumeState w' := by
    rintro resumeState w w' ⟨hw, rfl⟩ hr
    exact ⟨hP w w' hw hr, by rw [hr.storedRead]⟩
  refine Async.safe_bind Q ?_ fun resumeState w hw => hfrom _ _ w hw.1 hw.2
  unfold resolveResumeState
  refine Async.safe_bind (fun read => Q (resumeStateOf read))
    ((safe_resumes hguar hkey hP hw).imp ?_) fun read w hw => ?_
  · rintro (error | read) w h
    · trivial
    · exact ⟨h.1, by rw [h.2]⟩
  · split
    · exact Proc.safe_pure (hQ _) hw
    · exact Async.safe_lift_bind (fun _ => Q (resumeStateOf read))
        (hquiet.log _ _ (hQ _) w hw) fun _ w hw => Proc.safe_pure (hQ _) hw

end Steps

/-! ## Runs at the cap -/

section AtTheCap

variable {pf : Platform Text} {b : Backend Text} {config : RunConfig} {key : String} {cap : ℕ}
  {w : RecordedWorld Unit Text}

/-- What a run does that resumes beyond the cap: its first turn leaves the loop. -/
theorem safe_runFrom_capped {context : AssembleContext} {resumeState : ResumeState}
    (hcap : capped config.maxPages resumeState.startPage = true)
    (hstart : resumeState.startPage - FIRST_PAGE + FIRST_PAGE = resumeState.startPage) :
    Proc.Safe (b.Step.recorded ()) Unlisted Unlisted
      (Async.Outcome (fun result _ => result.summary.status = some .truncated) fun _ _ => True) w
      (runFrom pf (config.toInput pf (config.store pf).marked) context resumeState) := by
  let input := config.toInput pf (config.store pf).marked
  have hquiet : RunSpec.Quiet (b.Step.recorded ()) Unlisted Unlisted input :=
    quiet_unlisted fun _ _ h => h
  let state := loopStateOf input context.slug resumeState
  unfold runFrom
  refine Async.safe_bind (fun final _ => final = stopped .cap state) ?_ ?_
  · refine Async.safe_iterate (fun cursor _ => cursor = (state, resumeState.startPage))
      unlisted_refl (fun _ _ _ h _ => h)
      (Async.outcome_stable (fun _ _ _ h _ => h) fun _ _ _ _ _ => trivial) ?_
      (congrArg (Prod.mk state) hstart)
    rintro cursor w rfl
    unfold pageIteration
    have hleave : (input.maxPages.any fun maxPages =>
        decide (maxPages < (state, resumeState.startPage).2)) = true := hcap
    rw [if_pos hleave]
    exact Proc.safe_pure (fun _ _ h _ => h) rfl
  · rintro final w rfl
    have hstatus : finalStatus (stopped .cap state) = .truncated := by
      unfold finalStatus deriveRunStatus
      rw [if_pos ⟨rfl, le_rfl⟩]
      rfl
    unfold assembleResult
    rw [if_neg (by rw [hstatus]; decide)]
    refine Async.safe_bind (fun _ _ => True) (Proc.safe_pure (fun _ _ h _ => h) trivial)
      fun _ w _ => ?_
    refine Async.safe_lift_bind (fun _ _ => True)
      (hquiet.now _ (fun _ _ h _ => h) w trivial) fun finishedAt w _ => ?_
    refine Async.safe_lift_bind (fun _ _ => True)
      (hquiet.log _ _ (fun _ _ h _ => h) w trivial) fun _ w _ => ?_
    have hevidence := hquiet.safe_writeEvidence
      (finalSummary input.runId context (stopped .cap state) finishedAt)
      (P := fun _ => True) (fun _ _ h _ => h) (w := w) trivial
    refine Async.safe_bind (fun _ _ => True) (hevidence.imp ?_) fun _ w _ => ?_
    · rintro (error | u) w _ <;> trivial
    · refine Proc.safe_pure (fun _ _ h _ => h) ?_
      show (finalSummary _ _ _ _).status = _
      unfold finalSummary
      rw [status_buildRunSummary, hstatus]

/-- **A run from a checkpoint at the cap** asks for no list page, and reports `truncated`. -/
theorem safe_cappedRun (hcap : 1 ≤ cap) (hmax : config.maxPages = some cap)
    (hkey : checkpointKey pf config.checkpointOptions
      (pf.withoutUserinfo config.sourceUrl) = .ok key) (hw : AtCap pf key cap w.1) :
    Proc.Safe (b.Step.recorded ()) Unlisted Unlisted
      (Async.Outcome (fun result _ => result.summary.status = some .truncated) fun _ _ => True) w
      (config.markedRun pf) := by
  refine safe_markedRun_from (fun _ _ h => h) hkey (P := fun w => AtCap pf key cap w.1)
    (fun _ _ h hr => h.unlisted hr) ?_ hw
  rintro context resumeState w hw rfl
  refine safe_runFrom_capped ?_ (startPage_resumeStateOf _)
  rw [hmax, ← Bool.not_eq_false, capped_startPage hcap]
  exact not_belowCap.2 hw

end AtTheCap

/-! ## Runs below the cap -/

section BelowTheCap

variable {pf : Platform Text} {b : Backend Text} {config : RunConfig} {key : String} {cap : ℕ}
  {w w' : RecordedWorld Unit Text}

/-- A request for a list page. -/
theorem listed_of_step {input : DiscoverInput} {r : Except JsError DiscoveryReport}
    (h : b.Step.recorded () w (.discoverReplays input) r w') : Listed (w'.2 ()) := by
  unfold Listed
  rw [Env.recorded_self h, conversation_append, askedOf_append]
  exact List.append_ne_nil_of_right_ne_nil _ (List.cons_ne_nil _ _)

/-- A page that was listed has been listed. -/
theorem Listed.append {record : List (FetchEvent Text)} (h : Listed record)
    (more : List (FetchEvent Text)) : Listed (record ++ more) := by
  unfold Listed at h ⊢
  rw [conversation_append, askedOf_append]
  exact List.append_ne_nil_of_left_ne_nil h _

/-- Whatever happens after it. -/
theorem Listed.unlisted (h : Listed (w.2 ())) (hr : Unlisted w w') : Listed (w'.2 ()) := by
  obtain ⟨_, more, hmore, _⟩ := hr
  rw [hmore]
  exact h.append more

/-- Once a list page has been asked for, nothing matters. -/
theorem safe_listed {α : Type} (hw : Listed (w.2 ())) (p : Task Text α) :
    Proc.Safe (b.Step.recorded ()) Unlisted (fun _ _ => True) (fun _ w => Listed (w.2 ())) w p := by
  have hgrows : ∀ w w' : RecordedWorld Unit Text, Unlisted w w' → ∃ more, w'.2 () = w.2 () ++ more := by
    rintro w w' ⟨_, more, hmore, _⟩
    exact ⟨more, hmore⟩
  exact Proc.safe_recorded (P := Listed) (fun _ more h => h.append more) hgrows hw p

/-- **A run from a checkpoint below the cap** asks for a list page. -/
theorem safe_belowCap (hcap : 1 ≤ cap) (hmax : config.maxPages = some cap)
    (hkey : checkpointKey pf config.checkpointOptions
      (pf.withoutUserinfo config.sourceUrl) = .ok key) (hw : BelowCap pf key cap w.1) :
    Proc.Safe (b.Step.recorded ()) Unlisted (fun _ _ => True)
      (Async.Outcome (fun _ w => Listed (w.2 ())) fun _ _ => True) w (config.markedRun pf) := by
  refine safe_markedRun_from (fun _ _ _ => trivial) hkey (P := fun w => BelowCap pf key cap w.1)
    (fun _ _ h hr => h.unlisted hr) ?_ hw
  rintro context resumeState w hw rfl
  let input := config.toInput pf (config.store pf).marked
  let start := (resumeStateOf (storedRead pf key w.1)).startPage
  have hopen : ¬ (input.maxPages.any fun maxPages => decide (maxPages < start)) = true := by
    show ¬ capped config.maxPages start = true
    rw [hmax, Bool.not_eq_true, capped_startPage hcap]
    exact hw
  have hquiet : RunSpec.Quiet (b.Step.recorded ()) Unlisted (fun _ _ => True) input :=
    quiet_unlisted fun _ _ _ => trivial
  unfold runFrom
  refine Async.safe_bind (fun _ w => Listed (w.2 ())) ?_ fun final w hw =>
    (safe_listed hw _).imp ?_
  · -- the first turn asks, and the later ones find that it has
    refine Async.safe_iterate (fun cursor w => cursor.2 = start ∨ Listed (w.2 ()))
      (fun _ => trivial) (fun _ _ _ h hr => h.imp_right fun h => h.unlisted hr)
      (Async.outcome_stable (fun _ _ _ h hr => Listed.unlisted h hr) fun _ _ _ _ _ => trivial) ?_
      (Or.inl (startPage_resumeStateOf _))
    rintro ⟨state, page⟩ w (hpage | hlisted)
    · dsimp only at hpage
      subst hpage
      unfold pageIteration
      rw [if_neg hopen]
      refine Async.safe_lift_bind (fun _ _ => True)
        (hquiet.awaitFloor _ (fun _ _ h _ => h) w trivial) fun _ w _ => ?_
      refine Async.safe_bind (fun _ w => Listed (w.2 ())) ?_ fun report w hlisted =>
        (safe_listed hlisted _).imp ?_
      · refine Proc.safe_call (fun _ => True) (fun _ _ h _ => h) (fun w _ r w' hr => ?_) trivial
        refine ⟨trivial, Proc.safe_pure (Async.outcome_stable
          (fun _ _ _ h hr => Listed.unlisted h hr) (fun _ _ _ _ _ => trivial) r) ?_⟩
        cases r with
        | error error => trivial
        | ok report => exact listed_of_step hr
      · rintro (error | x) w hlisted
        · trivial
        · cases x with
          | inl cursor => exact Or.inr hlisted
          | inr state => exact hlisted
    · refine (safe_listed hlisted _).imp ?_
      rintro (error | x) w hlisted
      · trivial
      · cases x with
        | inl cursor => exact Or.inr hlisted
        | inr state => exact hlisted
  · rintro (error | result) w hlisted
    · trivial
    · exact hlisted

end BelowTheCap

/-! ## Runs that report `truncated` -/

section Truncated

/-- A checkpoint PUT is carried out, and acknowledged, unless its condition is false. -/
structure ReliablePuts (b : Backend Text) : Prop where
  carriedOut : b.faults.checkpointPut = false
  acknowledged : b.faults.checkpointLostAck = false

/-- The run's next checkpoint will be stored. -/
structure Ready (key : String) (conditionalWrites : Bool) (p : Progress)
    (w : RecordedWorld Unit Text) : Prop where
  etag : (conditionalHeader p.etag conditionalWrites).holds (w.1.current key)
  pages : ∀ key entry, p.pages.lookup key = some entry → key ≠ PROTO_KEY ∧ entry.status ≠ ""

/-- A version is stored under the key, and if it is a checkpoint it has reached the cap. -/
def WrittenAtCap (pf : Platform Text) (key : String) (cap : ℕ) (w : World Text) : Prop :=
  ∃ version, w.current key = some version ∧ ∀ c, parseCheckpoint pf version.body = some c →
    c.status ≠ .complete ∧ cap ≤ c.lastCompletedPage

/-- Every list page so far was read; then the stored checkpoint is at the cap. -/
def AtCapIfRead (pf : Platform Text) (key : String) (cap : ℕ) (w : RecordedWorld Unit Text) : Prop :=
  (∀ report ∈ reportsOf (conversation (w.2 ())), report.ok = true) → WrittenAtCap pf key cap w.1

/-- The assertions of a run: past the cap the stored checkpoint is the run's own. -/
def truncatedSpec (pf : Platform Text) (config : RunConfig) (key : String) (cap : ℕ) :
    RunSpec (RecordedWorld Unit Text) where
  head p w := Ready key config.checkpointOptions.conditionalWrites p w ∧
    (cap ≤ p.lastCompletedPage → WrittenAtCap pf key cap w.1)
  found p _ := Ready key config.checkpointOptions.conditionalWrites p
  done p counts := Ready key config.checkpointOptions.conditionalWrites (p.advance counts)
  left _ complete w := complete = false → AtCapIfRead pf key cap w
  last complete w := complete = false → AtCapIfRead pf key cap w

/-- What a run leaves. -/
def LeavesAtCap (pf : Platform Text) (key : String) (cap : ℕ) :
    Except JsError RunOnceResult → RecordedWorld Unit Text → Prop :=
  Async.Outcome (fun result w => result.summary.status ≠ some .complete → AtCapIfRead pf key cap w)
    fun _ _ => True

variable {pf : Platform Text} {b : Backend Text} {config : RunConfig} {key : String} {cap : ℕ}
  {w w' : RecordedWorld Unit Text} {p : Progress} {conditionalWrites : Bool}

/-- A checkpoint at the cap stays written. -/
theorem WrittenAtCap.unlisted (h : WrittenAtCap pf key cap w.1) (hr : Unlisted w w') :
    WrittenAtCap pf key cap w'.1 := by
  unfold WrittenAtCap at h ⊢
  rwa [hr.current]

/-- The current one is. -/
theorem AtCap.written {w : World Text} (h : AtCap pf key cap w) : WrittenAtCap pf key cap w := by
  obtain ⟨version, c, hcurrent, hparse, hne, hle⟩ := h
  refine ⟨version, hcurrent, fun c' hparse' => ?_⟩
  obtain rfl : c = c' := Option.some.inj (hparse.symm.trans hparse')
  exact ⟨hne, hle⟩

/-- What a write is ready for does not change. -/
theorem Ready.unlisted (h : Ready key conditionalWrites p w) (hr : Unlisted w w') :
    Ready key conditionalWrites p w' :=
  ⟨by rw [hr.current]; exact h.etag, h.pages⟩

/-- Nor what a read would find. -/
theorem AtCapIfRead.unlisted (h : AtCapIfRead pf key cap w) (hr : Unlisted w w') :
    AtCapIfRead pf key cap w' := by
  unfold AtCapIfRead at h ⊢
  rw [hr.reportsOf_eq]
  exact fun hread => (h hread).unlisted hr

/-- A page more has a number and a status. -/
theorem Ready.advance (h : Ready key conditionalWrites p w) (counts : IngestPageCounts) :
    Ready key conditionalWrites (p.advance counts) w :=
  ⟨h.etag, Progress.valid_advance h.pages counts⟩

/-- The specification of a capped run survives such steps. -/
theorem stable_truncatedSpec : RunSpec.Stable Unlisted (LeavesAtCap pf key cap)
    (truncatedSpec pf config key cap) where
  head _ _ _ h hr := ⟨h.1.unlisted hr, fun hle => (h.2 hle).unlisted hr⟩
  found _ _ _ _ h hr := Ready.unlisted h hr
  done _ _ _ _ h hr := Ready.unlisted h hr
  left _ _ _ _ h hr hnot := (h hnot).unlisted hr
  last _ _ _ h hr hnot := (h hnot).unlisted hr
  post r w w' h hr := by
    cases r with
    | error error => trivial
    | ok result => exact fun hnot => (h hnot).unlisted hr

/-- The checkpoint of a page is read back as it was written. -/
theorem Ready.valid (h : Ready key conditionalWrites p w) (startedAt now : Date) :
    (p.pageCheckpoint config.runId
      { slug := pf.withoutUserinfo config.sourceUrl, startedAt := toISOString startedAt }
      now).Valid := by
  unfold Progress.pageCheckpoint
  refine RunConfig.valid_checkpointAt pf config startedAt ?_ ?_ h.pages now
  · rfl
  · rfl

/-- A PUT under the ETag the run holds. -/
theorem Ready.put (hb : ReliablePuts b) (h : Ready key conditionalWrites p w) {body : Text}
    {r : Except JsError (Option String)}
    (hr : b.Step.recorded () w (.putCheckpoint key body (conditionalHeader p.etag conditionalWrites))
      r w') : ∃ etag, r = .ok (some etag) ∧ w'.1.current key = some { body, etag } := by
  rcases hr.1 with ⟨_, etag, _, hw, hreply⟩ | ⟨_, error, _, ⟨_, hnot⟩ | ⟨hput, _⟩⟩
  · have hcurrent : w'.1.current key = some { body, etag } := by
      rw [hw, World.current_pushVersion]
    rcases hreply with hreply | ⟨hack, _⟩
    · exact ⟨etag, hreply, hcurrent⟩
    · rw [hb.acknowledged] at hack
      cases hack
  · exact absurd h.etag hnot
  · rw [hb.carriedOut] at hput
    cases hput

variable (cap) in
/-- The checkpoint of a page is stored. -/
theorem safe_writePage_ready (hb : ReliablePuts b)
    (hkey : checkpointKey pf config.checkpointOptions
      (pf.withoutUserinfo config.sourceUrl) = .ok key)
    (hw : Ready key config.checkpointOptions.conditionalWrites p w) {checkpoint : Checkpoint}
    (hvalid : checkpoint.Valid) (hrunning : checkpoint.status = .running)
    (hlast : checkpoint.lastCompletedPage = p.lastCompletedPage) :
    Proc.Safe (b.Step.recorded ()) Unlisted (fun _ _ => True)
      (Async.Outcome (fun etag => (truncatedSpec pf config key cap).head (p.withEtag etag))
        fun _ _ => False) w
      ((config.store pf).marked.write
        { checkpoint, etag := p.etag, slug := pf.withoutUserinfo config.sourceUrl }) := by
  let Q : Progress → RecordedWorld Unit Text → Prop :=
    Ready key config.checkpointOptions.conditionalWrites
  have hQ : ∀ p w w', Q p w → Unlisted w w' → Q p w' := fun _ _ _ h hr => h.unlisted hr
  have hmark : ∀ {mark : Mark} {r : Unit} {w w' : RecordedWorld Unit Text},
      b.Step.recorded () w (.mark mark) r w' → Unlisted w w' := by
    intro mark r w w' hr
    exact unlisted_of_recorded hr (by rw [hr.1]) fun input h => by cases h
  let head := (truncatedSpec pf config key cap).head
  have hhead : ∀ p w w', head p w → Unlisted w w' → head p w' := stable_truncatedSpec.head
  unfold CheckpointStore.marked
  refine Async.safe_lift_bind (fun _ => Q p) ?_ fun _ w hw => ?_
  · exact Proc.safe_call (Q p) (hQ p) (fun w hw r w' hr =>
      ⟨trivial, Proc.safe_pure (hQ p) (hQ p _ _ hw (hmark hr))⟩) hw
  · refine Async.safe_bind (fun etag => head (p.withEtag etag)) ?_ fun etag w hw => ?_
    · show Proc.Safe _ _ _ _ w (writeCheckpoint pf config.checkpointOptions _)
      unfold writeCheckpoint
      rw [show MAX_CAS_ROUNDS = 4 + 1 from rfl, casRounds_succ hkey]
      refine Proc.safe_call (Q p) (hQ p) (fun w hw r w' hr => ⟨trivial, ?_⟩) hw
      obtain ⟨etag, rfl, hcurrent⟩ := Ready.put hb hw hr
      refine Proc.safe_pure (fun _ _ h hr => hhead _ _ _ h hr) ⟨⟨?_, hw.pages⟩, fun hle => ?_⟩
      · exact holds_conditionalHeader_some (w := w'.1) hcurrent _
      · refine ⟨_, hcurrent, fun c hparse => ?_⟩
        obtain ⟨rfl, _⟩ := (parseCheckpoint_stringify_eq pf hvalid).1 hparse
        constructor
        · show checkpoint.status ≠ _
          rw [hrunning]
          decide
        · show cap ≤ checkpoint.lastCompletedPage
          rw [hlast]
          exact hle
    · exact Async.safe_lift_bind (fun _ => head (p.withEtag etag))
        (Proc.safe_call (head (p.withEtag etag)) (hhead _) (fun w hw r w' hr =>
          ⟨trivial, Proc.safe_pure (hhead _) (hhead _ _ _ hw (hmark hr))⟩) hw)
        fun _ w hw => Proc.safe_pure (hhead _) hw

/-- **The obligations of a run.** -/
theorem holds_truncatedSpec (hb : ReliablePuts b) (hmax : config.maxPages = some cap)
    (hkey : checkpointKey pf config.checkpointOptions
      (pf.withoutUserinfo config.sourceUrl) = .ok key) (startedAt : Date) :
    RunSpec.Holds (b.Step.recorded ()) Unlisted (fun _ _ => True) pf
      (config.toInput pf (config.store pf).marked) (LeavesAtCap pf key cap)
      { slug := pf.withoutUserinfo config.sourceUrl, startedAt := toISOString startedAt }
      (truncatedSpec pf config key cap) where
  refl _ := trivial
  quiet := quiet_unlisted fun _ _ _ => trivial
  stable := stable_truncatedSpec
  cap p w hcapped h _ _ := by
    have hleave : (config.maxPages.any fun maxPages => decide (maxPages < p.nextPage)) = true :=
      hcapped
    rw [hmax] at hleave
    have hlt : cap < p.lastCompletedPage + 1 := of_decide_eq_true hleave
    exact h.2 (by omega)
  discover p w h := by
    refine Proc.safe_call (Ready key config.checkpointOptions.conditionalWrites p)
      (fun _ _ h hr => h.unlisted hr) (fun w hw r w' hr => ?_) h.1
    have hready : Ready key config.checkpointOptions.conditionalWrites p w' := by
      refine ⟨?_, hw.pages⟩
      have hstep : w'.1 = w.1 := hr.1.1
      rw [hstep]
      exact hw.etag
    refine ⟨trivial, Proc.safe_pure (fun _ _ => Async.outcome_stable
      (stable_truncatedSpec.discovered p) (fun _ _ _ _ _ => trivial) r _ _) ?_⟩
    cases r with
    | error error => trivial
    | ok report =>
      show RunSpec.discovered _ _ _ _
      unfold RunSpec.discovered
      by_cases hreport : report.ok = false
      · -- a page that could not be read is in the record
        rw [if_pos hreport]
        intro _ hread
        have hmem : report ∈ reportsOf (conversation (w'.2 ())) := by
          rw [Env.recorded_self hr, conversation_append, reportsOf_append]
          exact List.mem_append_right _ (List.mem_singleton.2 rfl)
        have hok := hread report hmem
        rw [hreport] at hok
        cases hok
      · rw [if_neg hreport]
        split
        · exact fun h => by cases h
        · exact hready
  ingest p candidates state w h := by
    let input := ingestInput (config.toInput pf (config.store pf).marked) state candidates
    have hasks : Proc.Asks IsIngest (ingestPage input) := asks_ingestPage input rfl rfl rfl
    have hquiet : Proc.Quiet (b.Step.recorded ()) Unlisted (fun _ _ => True) (ingestPage input) := by
      refine hasks.quiet (fun _ => trivial) fun e he w r w' hr => ⟨trivial, ?_⟩
      refine unlisted_of_recorded hr ?_ fun input heq => ?_
      · exact Backend.checkpoints_of_offCheckpoint (offCheckpoint_of_ingest he) hr.1
      · rw [heq] at he
        exact he
    refine (hquiet _ (fun _ _ h hr => Ready.unlisted h hr) w h).imp ?_
    rintro (error | result) w hw
    · trivial
    · exact Ready.advance hw _
  writePage p counts now w h := by
    have hvalid : ((p.advance counts).pageCheckpoint config.runId
        { slug := pf.withoutUserinfo config.sourceUrl, startedAt := toISOString startedAt }
        now).Valid := Ready.valid h startedAt now
    have hwrite := safe_writePage_ready cap hb hkey h hvalid rfl rfl
    refine hwrite.imp ?_
    rintro (error | etag) w hw
    · exact hw.elim
    · show RunSpec.written _ _ _ _
      unfold RunSpec.written
      split
      · exact fun h => by cases h
      · exact hw
  skipFinal _ _ h := h
  writeFinal p now w h := by
    refine (Proc.safe_any (fun _ _ => trivial) _).imp ?_
    rintro (error | etag) w _ <;> exact fun h => by cases h
  result complete w h result hstatus hnot := by
    refine h ?_
    cases complete with
    | true => exact absurd (hstatus.2 rfl) hnot
    | false => rfl

/-- What is stored under the key, if anything, is a checkpoint. -/
def Readable (pf : Platform Text) (key : String) (w : World Text) : Prop :=
  ∀ version, w.current key = some version → ∃ c, parseCheckpoint pf version.body = some c

/-- Where a run starts, it is ready to write. -/
theorem ready_start (hcap : 1 ≤ cap) (hread : Readable pf key w.1) :
    Ready key conditionalWrites (resumeStateOf (storedRead pf key w.1)).progress w ∧
      (cap ≤ (resumeStateOf (storedRead pf key w.1)).progress.lastCompletedPage →
        WrittenAtCap pf key cap w.1) := by
  have hnone : ∀ (key : String) (entry : CheckpointPage),
      Finmap.lookup key (∅ : JsRecord CheckpointPage) = some entry →
        key ≠ PROTO_KEY ∧ entry.status ≠ "" := by
    intro key entry h
    rw [Finmap.lookup_empty] at h
    cases h
  unfold storedRead
  cases hcurrent : w.1.current key with
  | none =>
    refine ⟨⟨holds_conditionalHeader_none hcurrent _, hnone⟩, fun hle => ?_⟩
    have hzero : cap ≤ 0 := hle
    omega
  | some version =>
    obtain ⟨c, hparse⟩ := hread version hcurrent
    have hetag := holds_conditionalHeader_some hcurrent conditionalWrites
    unfold readOutput
    dsimp only
    rw [hparse]
    unfold resumeStateOf
    dsimp only
    by_cases hcomplete : c.status = .complete
    · rw [if_pos hcomplete]
      refine ⟨⟨hetag, hnone⟩, fun hle => ?_⟩
      have hzero : cap ≤ 0 := hle
      omega
    · rw [if_neg hcomplete]
      exact ⟨⟨hetag, (valid_of_parseCheckpoint hparse).pages⟩,
        fun hle => AtCap.written ⟨version, c, hcurrent, hparse, hcomplete, hle⟩⟩

/-- **A run that reports `truncated`** has brought the checkpoint to the cap. -/
theorem safe_truncatedRun (hb : ReliablePuts b) (hcap : 1 ≤ cap) (hmax : config.maxPages = some cap)
    (hkey : checkpointKey pf config.checkpointOptions
      (pf.withoutUserinfo config.sourceUrl) = .ok key) (hread : Readable pf key w.1) :
    Proc.Safe (b.Step.recorded ()) Unlisted (fun _ _ => True) (LeavesAtCap pf key cap) w
      (config.markedRun pf) := by
  refine safe_runOnce (fun w => Readable pf key w.1)
    (fun w w' h hr => ?_) (holds_truncatedSpec hb hmax hkey) (fun w hw => ?_) hread
  · intro version hversion
    exact h version (hr.current key ▸ hversion)
  · refine (safe_resumes (fun _ _ _ => trivial) hkey (P := fun w => Readable pf key w.1)
      (fun w w' h hr version hversion => h version (hr.current key ▸ hversion)) hw).imp ?_
    rintro (error | read) w h
    · trivial
    · obtain ⟨hread, rfl⟩ := h
      exact ready_start hcap hread

end Truncated

/-! ## One run after the other -/

section Chain

variable {pf : Platform Text} {b : Backend Text} {config : RunConfig} {key : String} {cap : ℕ}
  {result : RunOnceResult}

/-- What a run nobody disturbs ends in. -/
theorem of_run_alone {guar : RecordedWorld Unit Text → RecordedWorld Unit Text → Prop} {α : Type}
    {post : α → RecordedWorld Unit Text → Prop} {p : Program Text α}
    {w w' : RecordedWorld Unit Text} {a : α}
    (hsafe : Proc.Safe (b.Step.recorded ()) Unlisted guar post w p)
    (hrun : (Proc.lts (b.Step.recorded ()) α).Runs Lts.Alone w p w' (.pure a)) : post a w' := by
  have halone : Proc.Safe (b.Step.recorded ()) Lts.Alone guar post w p :=
    hsafe.weaken (fun w w' (hr : Lts.Alone w w') => hr ▸ unlisted_refl w) (fun _ _ h => h)
      fun _ _ h => h
  exact Proc.Safe.of_run halone hrun

/-- A run that reports `truncated` could read every page it asked for. -/
theorem truncated_all_read {l : Conversation Text} (h : Emits (config.markedRun pf) l (.ok result))
    (hstatus : result.summary.status = some .truncated) :
    ∀ report ∈ reportsOf l, report.ok = true := by
  obtain ⟨read, log, reason, hran⟩ := runOnce_ranWith h
  obtain ⟨context, state, finishedAt, hlogged, _, hsummary, _⟩ := hran.assembled
  have hfinal : finalStatus state = .truncated := by
    rw [hsummary] at hstatus
    unfold finalSummary at hstatus
    rw [status_buildRunSummary] at hstatus
    exact Option.some.inj hstatus
  have hok : state.discoveryReport.ok = true := by
    by_contra hnot
    unfold finalStatus deriveRunStatus at hfinal
    rw [if_neg (fun h => hnot h.1)] at hfinal
    split_ifs at hfinal
  rw [hlogged.report, ok_reportOf] at hok
  intro report hreport
  rw [hran.reports] at hreport
  obtain ⟨entry, hentry, rfl⟩ := List.mem_map.1 hreport
  exact List.all_eq_true.1 hok entry hentry

/-- What a run that reports `truncated` leaves. -/
theorem atCap_of_truncated (hb : ReliablePuts b) (hcap : 1 ≤ cap) (hmax : config.maxPages = some cap)
    (hkey : checkpointKey pf config.checkpointOptions
      (pf.withoutUserinfo config.sourceUrl) = .ok key)
    {w : World Text} {w' : RecordedWorld Unit Text} (hread : Readable pf key w)
    (hleft : Readable pf key w'.1)
    (hrun : (Proc.lts (b.Step.recorded ()) (Except JsError RunOnceResult)).Runs Lts.Alone
      (w, fun _ => []) (config.markedRun pf) w' (.pure (.ok result)))
    (hstatus : result.summary.status = some .truncated) : AtCap pf key cap w'.1 := by
  have hsafe := safe_truncatedRun (w := (w, fun _ => [])) hb hcap hmax hkey hread
  have hleaves : LeavesAtCap pf key cap (.ok result) w' := of_run_alone hsafe hrun
  obtain ⟨l, hemits, hl⟩ := Proc.emits_of_recorded hrun
  have hwritten : WrittenAtCap pf key cap w'.1 := by
    refine hleaves ?_ ?_
    · rw [hstatus]
      decide
    · rw [hl]
      exact truncated_all_read hemits hstatus
  obtain ⟨version, hcurrent, hcap'⟩ := hwritten
  obtain ⟨c, hparse⟩ := hleft version hcurrent
  obtain ⟨hne, hle⟩ := hcap' c hparse
  exact ⟨version, c, hcurrent, hparse, hne, hle⟩

/-- What follows a checkpoint at the cap: no run asks for a page again. -/
theorem history_atCap (hcap : 1 ≤ cap) {sourceUrl : Url} {w w' : RecordedWorld Unit Text}
    (h : Lts.History (Proc.lts (b.Step.recorded ()) (Except JsError RunOnceResult))
      (IsCappedRunOf pf sourceUrl key cap) w w')
    (hw : AtCap pf key cap w.1) (hnone : ¬ Listed (w.2 ())) :
    AtCap pf key cap w'.1 ∧ ¬ Listed (w'.2 ()) := by
  refine Lts.History.invariant
    (I := fun w => AtCap pf key cap w.1 ∧ ¬ Listed (w.2 ())) ?_ ⟨hw, hnone⟩ h
  rintro _ ⟨config, rfl, hmax, hkey, rfl⟩ w ⟨hw, _⟩
  refine (safe_cappedRun hcap hmax hkey hw).weaken (fun w w' (hr : Lts.Alone w w') => ?_)
    (fun w w' hr ⟨hw, hnone⟩ => ?_) fun _ _ _ => trivial
  · exact hr ▸ unlisted_refl w
  · refine ⟨hw.unlisted hr, ?_⟩
    unfold Listed at hnone ⊢
    rwa [hr.askedOf_eq]

/-- **Progress under a cap.** A run asks for a list page exactly when the checkpoint it starts from
    is below the cap.  A run that reports `truncated` leaves one that is not, if it can be read at all:
    no run after it, under the same cap, asks for a page, and each that resolves reports `truncated`
    again. -/
theorem cappedRun_progress_iff (hcap : 1 ≤ cap) (hmax : config.maxPages = some cap)
    (hkey : checkpointKey pf config.checkpointOptions
      (pf.withoutUserinfo config.sourceUrl) = .ok key)
    {w : World Text} {w' : RecordedWorld Unit Text}
    (hrun : (Proc.lts (b.Step.recorded ()) (Except JsError RunOnceResult)).Runs Lts.Alone
      (w, fun _ => []) (config.markedRun pf) w' (.pure (.ok result))) :
    (Listed (w'.2 ()) ↔ BelowCap pf key cap w) ∧
    (ReliablePuts b → Readable pf key w → Readable pf key w'.1 →
      result.summary.status = some .truncated →
      ∀ w'', Lts.History (Proc.lts (b.Step.recorded ()) (Except JsError RunOnceResult))
          (IsCappedRunOf pf config.sourceUrl key cap) (w'.1, fun _ => []) w'' →
        ¬ Listed (w''.2 ()) ∧
        ∀ p, IsCappedRunOf pf config.sourceUrl key cap p → ∀ w₃ result',
          (Proc.lts (b.Step.recorded ()) (Except JsError RunOnceResult)).Runs Lts.Alone w'' p w₃
            (.pure (.ok result')) → result'.summary.status = some .truncated) := by
  have hnone : ¬ Listed ([] : List (FetchEvent Text)) := fun h => h rfl
  constructor
  · by_cases hbelow : BelowCap pf key cap w
    · have hsafe := safe_belowCap (b := b) (w := (w, fun _ => [])) hcap hmax hkey hbelow
      have hlisted := of_run_alone hsafe hrun
      exact ⟨fun _ => hbelow, fun _ => hlisted⟩
    · have hat := not_belowCap.1 hbelow
      have hstart : IsCappedRunOf pf config.sourceUrl key cap (config.markedRun pf) :=
        ⟨config, rfl, hmax, hkey, rfl⟩
      have hafter := history_atCap hcap (.run (.nil (w, fun _ => [])) hstart hrun) hat hnone
      exact ⟨fun hlisted => absurd hlisted hafter.2, fun h => absurd h hbelow⟩
  · intro hb hread hleft hstatus w'' hhistory
    have hat := atCap_of_truncated hb hcap hmax hkey hread hleft hrun hstatus
    obtain ⟨hat', hnone'⟩ := history_atCap hcap hhistory hat hnone
    refine ⟨hnone', ?_⟩
    rintro _ ⟨config', hsource, hmax', hkey', rfl⟩ w₃ result' hrun'
    rw [← hsource] at hkey'
    have hpost := of_run_alone (safe_cappedRun hcap hmax' hkey' hat') hrun'
    exact hpost

end Chain

/-! ## Two runs under a cap of one page -/

/-- The toy run, with a cap of one page. -/
def toyCappedConfig : RunConfig := { toyConfig with maxPages := some 1 }

/-- A run under the cap, from a world. -/
def toyCappedRun (w : World (Option Json)) :
    RecordedWorld Unit (Option Json) × Task (Option Json) RunOnceResult :=
  Proc.exec (recordServe toyListing.serve ()) 60
    ((w, fun _ => []), toyCappedConfig.markedRun toyPlatform)

/-- What the first run leaves. -/
def toyTruncated : World (Option Json) := (toyCappedRun emptyWorld).1.1

/-- Left alone, it runs to its end. -/
theorem runs_toyCappedRun (w : World (Option Json)) :
    (Proc.lts ((toyListing.services : Backend (Option Json)).Step.recorded ())
      (Except JsError RunOnceResult)).Runs Lts.Alone (w, fun _ => [])
      (toyCappedConfig.markedRun toyPlatform) (toyCappedRun w).1 (toyCappedRun w).2 :=
  Proc.runs_exec (recorded_serve (toyListing.step_services fun _ => ⟨[7], rfl⟩)) 60
    ((w, fun _ => []), toyCappedConfig.markedRun toyPlatform)

/-- It ends truncated. -/
theorem toyCappedRun_truncated : ∃ result : RunOnceResult,
    (toyCappedRun emptyWorld).2 = Proc.pure (.ok result) ∧
      result.summary.status = some .truncated := ⟨_, rfl, rfl⟩

/-- It can be run again. -/
theorem toyCappedRun_again : ∃ result : RunOnceResult,
    (toyCappedRun toyTruncated).2 = Proc.pure (.ok result) := ⟨_, rfl⟩

/-- It is a capped run of its source. -/
theorem isCappedRunOf_toy : IsCappedRunOf toyPlatform toyCappedConfig.sourceUrl toyKey 1
    (toyCappedConfig.markedRun toyPlatform) :=
  ⟨toyCappedConfig, rfl, rfl, checkpointKey_toyConfig, rfl⟩

/-- What it leaves can be read. -/
theorem readable_toyTruncated : Readable toyPlatform toyKey toyTruncated := by
  intro version hversion
  refine Option.isSome_iff_exists.1 ?_
  have hall : ∀ version ∈ toyTruncated.current toyKey,
      (parseCheckpoint toyPlatform version.body).isSome = true := by decide +kernel
  exact hall version hversion

/-- The first run has brought the checkpoint to the cap. -/
theorem atCap_toyTruncated : AtCap toyPlatform toyKey 1 toyTruncated := by
  obtain ⟨result, hreturned, hstatus⟩ := toyCappedRun_truncated
  have hrun := runs_toyCappedRun emptyWorld
  rw [hreturned] at hrun
  have hread : Readable toyPlatform toyKey emptyWorld := fun version hversion => by cases hversion
  have hmax : toyCappedConfig.maxPages = some 1 := rfl
  exact atCap_of_truncated ⟨rfl, rfl⟩ (le_refl 1) hmax
    checkpointKey_toyConfig hread readable_toyTruncated hrun hstatus

/-- The first run lists a page, and after it none does. -/
theorem cappedRun_progress_iff_toy :
    (Listed ((toyCappedRun emptyWorld).1.2 ()) ↔ BelowCap toyPlatform toyKey 1 emptyWorld) ∧
    ∃ w', ¬ Listed (w'.2 ()) ∧
      Lts.History (Proc.lts ((toyListing.services : Backend (Option Json)).Step.recorded ())
        (Except JsError RunOnceResult))
        (IsCappedRunOf toyPlatform toyCappedConfig.sourceUrl toyKey 1)
        ((toyCappedRun emptyWorld).1.1, fun _ => []) w' := by
  obtain ⟨result, hreturned, hstatus⟩ := toyCappedRun_truncated
  have hrun := runs_toyCappedRun emptyWorld
  rw [hreturned] at hrun
  have hread : Readable toyPlatform toyKey emptyWorld := fun version hversion => by cases hversion
  have hmax : toyCappedConfig.maxPages = some 1 := rfl
  obtain ⟨hiff, hafter⟩ := cappedRun_progress_iff (le_refl 1) hmax
    checkpointKey_toyConfig hrun
  have hsecond := Lts.History.run (.nil ((toyCappedRun emptyWorld).1.1, fun _ => []))
    isCappedRunOf_toy (runs_toyCappedRun (toyCappedRun emptyWorld).1.1)
  exact ⟨hiff, _, (hafter ⟨rfl, rfl⟩ hread readable_toyTruncated hstatus _ hsecond).1, hsecond⟩

/-- The second run has a checkpoint to go on from, and asks for nothing. -/
theorem cappedRun_stuck : ¬ ∀ (w : World (Option Json)) (w' : RecordedWorld Unit (Option Json))
    (result : RunOnceResult),
    (∃ version c, w.current toyKey = some version ∧
      parseCheckpoint toyPlatform version.body = some c ∧ c.status ≠ .complete) →
    (Proc.lts ((toyListing.services : Backend (Option Json)).Step.recorded ())
      (Except JsError RunOnceResult)).Runs Lts.Alone (w, fun _ => [])
      (toyCappedConfig.markedRun toyPlatform) w' (.pure (.ok result)) → Listed (w'.2 ()) := by
  intro h
  obtain ⟨result, hreturned⟩ := toyCappedRun_again
  have hrun := runs_toyCappedRun toyTruncated
  have hsecond := Lts.History.run (.nil (toyTruncated, fun _ => [])) isCappedRunOf_toy hrun
  rw [hreturned] at hrun
  obtain ⟨version, c, hcurrent, hparse, hne, _⟩ := id atCap_toyTruncated
  have hlisted := h toyTruncated _ result ⟨version, c, hcurrent, hparse, hne⟩ hrun
  exact (history_atCap (le_refl 1) hsecond atCap_toyTruncated fun h => h rfl).2 hlisted

end ReplaysFetcher
