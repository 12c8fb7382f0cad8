/-
  No blind overwrite: the checkpoint store under concurrent writers.

  Any number of `write` calls run against one object, each with its own checkpoint and its own idea
  of the ETag, interleaved arbitrarily.  What a writer knows is a function of its own conversation:
  `viewOf` replays the GETs it has seen and says what it intends to store now and under which ETag.
  The result is about every PUT that lands:

  * it carries exactly what the writer intends by then, and it created the object or replaced the
    very version whose ETag the writer was holding;
  * after a re-read, that version is the one re-read, and the landed body is the merge with it, so
    nothing of the version it replaces is lost.

  The crux is that the ETag is only as good as what it identifies.  A writer that re-read body `x`
  under ETag `e` lands when the CURRENT version carries `e`; that the current body is `x` is where
  the assumption on ETags is used, and the only place.
-/
import ReplaysFetcher.CheckpointStore

namespace ReplaysFetcher

open Effectful

/-! ## What a writer knows -/

/-- What it intends, and which version it means to replace. -/
structure CasView where
  intended : Checkpoint
  etag : Option String
  /-- what was intended before the last re-read -/
  before : Option Checkpoint := none

section View

variable {Text : Type} (pf : Platform Text)

/-- A re-read replaces the ETag and merges what it found. -/
def CasView.next (view : CasView) (ev : FetchEvent Text) : CasView :=
  match ev with
  | { request := .getCheckpoint _, reply, .. } =>
    match readReply pf reply with
    | .ok fresh =>
      { intended := mergeFresh view.intended fresh, etag := fresh.etag
        before := some view.intended }
    | .error _ => view
  | _ => view

/-- What it knows after a conversation. -/
def viewOf (input : CheckpointWriteInput) (history : List (FetchEvent Text)) : CasView :=
  history.foldl (CasView.next pf) { intended := input.checkpoint, etag := input.etag }

/-- One event more. -/
@[simp] theorem viewOf_append (input : CheckpointWriteInput) (history : List (FetchEvent Text))
    (ev : FetchEvent Text) :
    viewOf pf input (history ++ [ev]) = (viewOf pf input history).next pf ev :=
  List.foldl_concat ..

end View

/-! ## What is required of a conversation -/

section Audit

variable {Text : Type}

/-- The event added a version to the object. -/
def Lands (key : String) (ev : FetchEvent Text) : Prop :=
  ∃ version, ev.after.checkpoints key = version :: ev.before.checkpoints key

/-- The event is a PUT of a checkpoint, carried out or not. -/
def isPut (ev : FetchEvent Text) : Bool :=
  match ev.request with
  | .putCheckpoint _ _ _ => true
  | _ => false

/-- The landed PUT stored what the writer intended, over the version the writer held. -/
structure LandsWell (pf : Platform Text) (key : String) (view : CasView) (ev : FetchEvent Text) :
    Prop where
  body : ∃ etag, ev.after.checkpoints key =
    { body := stringifyCheckpoint pf view.intended, etag } :: ev.before.checkpoints key
  created : view.etag = none → ev.before.current key = none
  replaced : ∀ etag, view.etag = some etag →
    ∃ version, ev.before.current key = some version ∧ version.etag = etag
  merged : ∀ intended, view.before = some intended →
    ∀ version, ev.before.current key = some version →
      ∃ remote, parseCheckpoint pf version.body = some remote ∧
        view.intended = mergeCheckpoints intended remote ∧
        remote.lastCompletedPage ≤ view.intended.lastCompletedPage ∧
        ∀ page ∈ remote.pages, page ∈ view.intended.pages

/-- Every landed PUT of the conversation landed well, and there were few enough of them. -/
structure Audit (pf : Platform Text) (key : String) (input : CheckpointWriteInput)
    (history : List (FetchEvent Text)) : Prop where
  landed : ∀ pre ev post, history = pre ++ ev :: post → Lands key ev →
    LandsWell pf key (viewOf pf input pre) ev
  rounds : history.countP isPut ≤ MAX_CAS_ROUNDS

/-- A write that resolved landed exactly once; one that rejected did not land, unless an
    acknowledgement was lost. -/
structure Settled (key : String) (lostAck : Bool) (result : Except JsError (Option String))
    (history : List (FetchEvent Text)) : Prop where
  ok : ∀ etag, result = .ok etag → ∃ pre ev post, history = pre ++ ev :: post ∧ Lands key ev ∧
    ∀ other ∈ pre ++ post, ¬ Lands key other
  error : ∀ e, result = .error e → lostAck = false → ∀ ev ∈ history, ¬ Lands key ev

/-- An event that changes nothing has not landed. -/
theorem not_lands_of_eq {key : String} {ev : FetchEvent Text} (h : ev.after = ev.before) :
    ¬ Lands key ev := by
  rintro ⟨version, hv⟩
  rw [h] at hv
  exact absurd (congrArg List.length hv) (by simp)

/-- Where nothing has landed, nothing has after such an event. -/
theorem unlanded_append {key : String} {history : List (FetchEvent Text)} {ev : FetchEvent Text}
    (h : ∀ other ∈ history, ¬ Lands key other) (hev : ¬ Lands key ev) :
    ∀ other ∈ history ++ [ev], ¬ Lands key other := by
  intro other hother
  rcases List.mem_append.1 hother with hmem | hmem
  · exact h other hmem
  · exact List.mem_singleton.1 hmem ▸ hev

/-- One event more is audited where it lands, and counted where it is a PUT. -/
theorem Audit.append {pf : Platform Text} {key : String} {input : CheckpointWriteInput}
    {history : List (FetchEvent Text)} {ev : FetchEvent Text} (h : Audit pf key input history)
    (hev : Lands key ev → LandsWell pf key (viewOf pf input history) ev)
    (hrounds : (history ++ [ev]).countP isPut ≤ MAX_CAS_ROUNDS) :
    Audit pf key input (history ++ [ev]) := by
  refine ⟨fun pre ev' post heq hlands => ?_, hrounds⟩
  rcases List.eq_nil_or_concat post with rfl | ⟨post', last, rfl⟩
  · obtain ⟨rfl, hlast⟩ := List.append_inj' heq rfl
    obtain rfl : ev = ev' := by simpa using hlast
    exact hev hlands
  · have heq' : history ++ [ev] = (pre ++ ev' :: post') ++ [last] := by simpa using heq
    obtain ⟨rfl, _⟩ := List.append_inj' heq' rfl
    exact h.landed pre ev' post' rfl hlands

end Audit

/-! ## One writer among others -/

section Writer

variable {ι Text : Type} (pf : Platform Text) (b : Backend Text) (key : String)
  (i : ι) (input : CheckpointWriteInput)

/-- Every version of the object carries an ETag its body may get. -/
def Tagged (w : World Text) : Prop := ∀ version ∈ w.checkpoints key, b.tag version.body version.etag

/-- An event that changes neither the object nor the writer's view of it. -/
structure Silent (ev : FetchEvent Text) : Prop where
  lands : ¬ Lands key ev
  put : isPut ev = false
  view : ∀ view : CasView, view.next pf ev = view

/-- The others change the object as they like and leave this writer's record alone; a timer of its
    own may fire. -/
def CasRely (w w' : RecordedWorld ι Text) : Prop :=
  (Tagged b key w.1 → Tagged b key w'.1) ∧
    (w'.2 i = w.2 i ∨ ∃ ev, Silent pf key ev ∧ w'.2 i = w.2 i ++ [ev])

/-- A writer's steps keep the tags and its audit, and touch nobody else's record. -/
def CasGuar (w w' : RecordedWorld ι Text) : Prop :=
  (Tagged b key w.1 → Tagged b key w'.1) ∧ (∀ j, j ≠ i → w'.2 j = w.2 j) ∧
    (Audit pf key input (w.2 i) → Audit pf key input (w'.2 i))

/-- What holds of a writer in the loop: nothing has landed, and its view is what the loop carries. -/
structure Writing (rounds : ℕ) (intended : Checkpoint)
    (w : RecordedWorld ι Text) : Prop where
  tagged : Tagged b key w.1
  audit : Audit pf key input (w.2 i)
  unlanded : ∀ ev ∈ w.2 i, ¬ Lands key ev
  budget : (w.2 i).countP isPut + rounds = MAX_CAS_ROUNDS
  intends : (viewOf pf input (w.2 i)).intended = intended

/-- Before a PUT: the ETag held is the view's, and after a re-read it identifies a body whose merge
    is what is intended. -/
structure BeforePut (rounds : ℕ) (intended : Checkpoint) (etag : Option String)
    (w : RecordedWorld ι Text) : Prop
    extends Writing pf b key i input rounds intended w where
  holds : (viewOf pf input (w.2 i)).etag = etag
  fresh : ∀ before, (viewOf pf input (w.2 i)).before = some before → ∀ e, etag = some e →
    ∃ body remote, b.tag body e ∧ parseCheckpoint pf body = some remote ∧
      intended = mergeCheckpoints before remote

variable {pf b key i input} {rounds : ℕ} {intended : Checkpoint} {etag : Option String}
  {w w' : RecordedWorld ι Text}

/-- A silent event needs no audit. -/
theorem Audit.silent {history : List (FetchEvent Text)} {ev : FetchEvent Text}
    (h : Audit pf key input history) (hev : Silent pf key ev) :
    Audit pf key input (history ++ [ev]) := by
  refine h.append (fun hl => absurd hl hev.lands) ?_
  rw [List.countP_append, List.countP_singleton, hev.put]
  exact h.rounds

/-- What others do leaves the writer's own conversation alone. -/
theorem Writing.rely (h : Writing pf b key i input rounds intended w)
    (hr : CasRely pf b key i w w') : Writing pf b key i input rounds intended w' := by
  obtain ⟨htag, heq | ⟨ev, hev, heq⟩⟩ := hr
  · exact ⟨htag h.tagged, heq ▸ h.audit, heq ▸ h.unlanded, heq ▸ h.budget, heq ▸ h.intends⟩
  · refine ⟨htag h.tagged, ?_, ?_, ?_, ?_⟩ <;> rw [heq]
    · exact h.audit.silent hev
    · exact unlanded_append h.unlanded hev.lands
    · rw [List.countP_append, List.countP_singleton, hev.put]
      exact h.budget
    · rw [viewOf_append, hev.view]
      exact h.intends

/-- Nor do they touch what it holds before a PUT. -/
theorem BeforePut.rely (h : BeforePut pf b key i input rounds intended etag w)
    (hr : CasRely pf b key i w w') : BeforePut pf b key i input rounds intended etag w' := by
  have hview : viewOf pf input (w'.2 i) = viewOf pf input (w.2 i) := by
    obtain ⟨_, heq | ⟨ev, hev, heq⟩⟩ := hr
    · rw [heq]
    · rw [heq, viewOf_append, hev.view]
  exact ⟨h.toWriting.rely hr, hview ▸ h.holds, hview ▸ h.fresh⟩

/-- The condition sent with a PUT says which version it replaces. -/
theorem holds_conditionalHeader {current : Option (Version Text)} {etag : Option String} :
    (conditionalHeader etag true).holds current ↔
      (etag = none → current = none) ∧
        ∀ e, etag = some e → ∃ version, current = some version ∧ version.etag = e := by
  cases etag <;> simp [conditionalHeader, PutCondition.holds]

/-- **A landed PUT lands well.** -/
theorem BeforePut.landsWell (h : BeforePut pf b key i input (rounds + 1) intended etag w)
    (htag : ∀ body body' e, b.tag body e → b.tag body' e → body = body')
    (hholds : (conditionalHeader etag true).holds (w.1.current key)) {reply : Except _ _} {e : String}
    (after : World Text)
    (hafter : after = w.1.pushVersion key { body := stringifyCheckpoint pf intended, etag := e }) :
    LandsWell pf key (viewOf pf input (w.2 i))
      { before := w.1
        request := .putCheckpoint key (stringifyCheckpoint pf intended) (conditionalHeader etag true)
        reply := reply, after := after } := by
  obtain ⟨hnone, hsome⟩ := holds_conditionalHeader.1 hholds
  rw [← h.holds] at hnone hsome
  refine ⟨⟨e, ?_⟩, hnone, hsome, fun before hbefore version hversion => ?_⟩
  · subst hafter
    rw [h.intends]
    exact Function.update_self ..
  · -- the writer holds an ETag, since there is a version to replace
    have hheld : ∃ e, (viewOf pf input (w.2 i)).etag = some e := by
      cases hv : (viewOf pf input (w.2 i)).etag with
      | none =>
        have hcurrent := hnone hv
        rw [hversion] at hcurrent
        cases hcurrent
      | some e => exact ⟨e, rfl⟩
    obtain ⟨e', he'⟩ := hheld
    obtain ⟨version', hversion', hetag⟩ := hsome e' he'
    obtain rfl : version = version' := Option.some.inj (hversion.symm.trans hversion')
    obtain ⟨body, remote, hb, hparse, hmerge⟩ := h.fresh before hbefore e' (h.holds ▸ he')
    have hmem : version ∈ w.1.checkpoints key := List.mem_of_mem_head? hversion
    have hbody : version.body = body := htag _ _ e' (hetag ▸ h.tagged version hmem) hb
    refine ⟨remote, hbody ▸ hparse, h.intends.trans hmerge, ?_, fun page hpage => ?_⟩
    · rw [h.intends, hmerge]
      exact le_max_right _ _
    · rw [h.intends, hmerge]
      exact mem_pages_merge.2 (Or.inr hpage)

end Writer

/-! ## The result -/

section Result

variable {ι Text : Type} [DecidableEq ι] {pf : Platform Text} {options : CheckpointStoreOptions}
  {b : Backend Text} {key : String}

/-- A new version keeps the object tagged. -/
theorem tagged_pushVersion {w : World Text} (h : Tagged b key w) {body : Text} {etag : String}
    (htag : b.tag body etag) : Tagged b key (w.pushVersion key { body, etag }) := by
  intro version hversion
  rw [World.checkpoints_pushVersion] at hversion
  rcases List.mem_cons.1 hversion with rfl | hmem
  · exact htag
  · exact h version hmem

/-- A request that only waits is silent. -/
theorem casRely_of_timer {i : ι} {input : CheckpointWriteInput} {e : Effect Text} {r : Reply e}
    {w w' : RecordedWorld ι Text} (h : b.Step.recorded i w e r w')
    (hw : w'.1 = w.1) (hput : isPut (⟨w.1, e, r, w'.1⟩ : FetchEvent Text) = false)
    (hview : ∀ view : CasView, view.next pf ⟨w.1, e, r, w'.1⟩ = view) :
    CasGuar pf b key i input w w' ∧ CasRely pf b key i w w' := by
  have hsilent : Silent pf key ⟨w.1, e, r, w'.1⟩ :=
    ⟨not_lands_of_eq hw, hput, hview⟩
  refine ⟨⟨fun ht => hw ▸ ht, fun j hj => Env.recorded_other h hj, fun haudit => ?_⟩,
    fun ht => hw ▸ ht, Or.inr ⟨_, hsilent, Env.recorded_self h⟩⟩
  rw [Env.recorded_self h]
  exact haudit.silent hsilent

/-- What a PUT of a writer does to the world and to its record. -/
theorem BeforePut.put {i : ι} {input : CheckpointWriteInput} {n : ℕ} {intended : Checkpoint}
    {etag : Option String} {w w' : RecordedWorld ι Text}
    (h : BeforePut pf b key i input (n + 1) intended etag w)
    (htag : ∀ body body' e, b.tag body e → b.tag body' e → body = body')
    {r : Except JsError (Option String)}
    (hr : b.Step.recorded i w (.putCheckpoint key (stringifyCheckpoint pf intended)
      (conditionalHeader etag true)) r w') :
    CasGuar pf b key i input w w' ∧
      (∀ etag', r = .ok etag' →
        Audit pf key input (w'.2 i) ∧ Settled key b.faults.checkpointLostAck r (w'.2 i)) ∧
      ∀ error, r = .error error →
        if isPreconditionFailed error then Writing pf b key i input n intended w'
        else Audit pf key input (w'.2 i) ∧ Settled key b.faults.checkpointLostAck r (w'.2 i) := by
  let ev : FetchEvent Text :=
    { before := w.1
      request := .putCheckpoint key (stringifyCheckpoint pf intended) (conditionalHeader etag true)
      reply := r, after := w'.1 }
  have hself : w'.2 i = w.2 i ++ [ev] := Env.recorded_self hr
  have hput : isPut ev = true := rfl
  have hother : ∀ j, j ≠ i → w'.2 j = w.2 j := fun j hj => Env.recorded_other hr hj
  -- one more PUT is on record, and it is within the budget
  have hcount : (w'.2 i).countP isPut + n = MAX_CAS_ROUNDS := by
    have hrounds := h.budget
    rw [hself, List.countP_append, List.countP_singleton, if_pos hput]
    omega
  have hle : (w.2 i ++ [ev]).countP isPut ≤ MAX_CAS_ROUNDS := by
    rw [← hself]
    omega
  rcases hr.1 with ⟨hholds, e, he, hafter, hreply⟩ | ⟨hafter, error, hreply, _⟩
  · -- the PUT landed
    have hwell : LandsWell pf key (viewOf pf input (w.2 i)) ev := h.landsWell htag hholds w'.1 hafter
    have haudit : Audit pf key input (w'.2 i) := by
      rw [hself]
      exact h.audit.append (fun _ => hwell) hle
    have hlands : Lands key ev := by
      obtain ⟨e', hbody⟩ := hwell.body
      exact ⟨_, hbody⟩
    refine ⟨⟨fun ht => hafter ▸ tagged_pushVersion ht he, hother, fun _ => haudit⟩,
      fun etag' hok => ⟨haudit, ?_, fun e herr => ?_⟩, fun error herr => ?_⟩
    · intro _ _
      refine ⟨w.2 i, _, [], hself, hlands, fun other hmem => ?_⟩
      rw [List.append_nil] at hmem
      exact h.unlanded other hmem
    · rw [hok] at herr
      cases herr
    · rcases hreply with hok | ⟨hlost, e', hpre, he'⟩
      · rw [hok] at herr
        cases herr
      · rw [herr] at he'
        cases he'
        rw [if_neg (by rw [hpre]; exact Bool.false_ne_true)]
        refine ⟨haudit, fun etag' hok => ?_, fun e _ hfalse => ?_⟩
        · rw [herr] at hok
          cases hok
        · rw [hlost] at hfalse
          cases hfalse
  · -- the PUT was refused
    have hnot : ¬ Lands key ev := not_lands_of_eq hafter
    have haudit : Audit pf key input (w'.2 i) := by
      rw [hself]
      exact h.audit.append (fun hl => absurd hl hnot) hle
    have hnone : ∀ ev ∈ w'.2 i, ¬ Lands key ev := by
      rw [hself]
      exact unlanded_append h.unlanded hnot
    refine ⟨⟨fun ht => hafter ▸ ht, hother, fun _ => haudit⟩,
      fun etag' hok => absurd (hok.symm.trans hreply) (by simp), fun e herr => ?_⟩
    split
    · refine ⟨hafter ▸ h.tagged, haudit, hnone, hcount, ?_⟩
      rw [hself, viewOf_append]
      exact h.intends
    · exact ⟨haudit, fun _ hok => absurd (hok.symm.trans hreply) (by simp), fun _ _ _ => hnone⟩

/-- A read that keeps an ETag found a body there, and accepted it. -/
theorem accepted_of_readReply {w : World Text} {r : Except JsError (GetObjectOutput Text)}
    (hr : b.StepGetCheckpoint w key r) {fresh : CheckpointReadResult}
    (hfresh : readReply pf r = .ok fresh) {e : String} (he : fresh.etag = some e) :
    ∃ version remote, w.current key = some version ∧ parseCheckpoint pf version.body = some remote ∧
      fresh = { checkpoint := some remote, etag := some version.etag } := by
  rcases hr with hcurrent | ⟨_, error, hfound, rfl⟩
  · cases hv : w.current key with
    | none =>
      rw [hv] at hcurrent
      obtain ⟨error, hfound, rfl⟩ := hcurrent
      simp only [readReply, hfound, if_true] at hfresh
      cases hfresh
      cases he
    | some version =>
      simp only [hv] at hcurrent
      subst hcurrent
      cases hparse : parseCheckpoint pf version.body with
      | none =>
        simp only [readReply, readOutput, hparse] at hfresh
        cases hfresh
        cases he
      | some remote =>
        simp only [readReply, readOutput, hparse] at hfresh
        exact ⟨version, remote, rfl, hparse, (Except.ok.inj hfresh).symm⟩
  · simp only [readReply, hfound] at hfresh
    cases hfresh

/-- What a re-read of a writer does to its view. -/
theorem Writing.get {i : ι} {input : CheckpointWriteInput} {n : ℕ} {intended : Checkpoint}
    {w w' : RecordedWorld ι Text}
    (h : Writing pf b key i input n intended w) {r : Except JsError (GetObjectOutput Text)}
    (hr : b.Step.recorded i w (.getCheckpoint key) r w') :
    CasGuar pf b key i input w w' ∧
      (∀ fresh, readReply pf r = .ok fresh →
        BeforePut pf b key i input n (mergeFresh intended fresh) fresh.etag w') ∧
      ∀ error, readReply pf r = .error error → Audit pf key input (w'.2 i) ∧
        Settled key b.faults.checkpointLostAck (.error error) (w'.2 i) := by
  have hself := Env.recorded_self hr
  obtain ⟨hafter, hget⟩ := hr.1
  have hnot : ¬ Lands key (⟨w.1, .getCheckpoint key, r, w'.1⟩ : FetchEvent Text) :=
    not_lands_of_eq hafter
  have hcount : (w'.2 i).countP isPut = (w.2 i).countP isPut := by
    rw [hself, List.countP_append]
    rfl
  have hnone : ∀ ev ∈ w'.2 i, ¬ Lands key ev := by
    rw [hself]
    exact unlanded_append h.unlanded hnot
  have hkeep : Audit pf key input (w.2 i) → Audit pf key input (w'.2 i) := by
    intro haudit
    have hrounds := haudit.rounds
    rw [← hcount, hself] at hrounds
    rw [hself]
    exact haudit.append (fun hl => absurd hl hnot) hrounds
  refine ⟨⟨fun ht => hafter ▸ ht, fun j hj => Env.recorded_other hr hj, hkeep⟩,
    fun fresh hfresh => ?_, fun error _ =>
      ⟨hkeep h.audit, fun _ hok => (by cases hok), fun _ _ _ => hnone⟩⟩
  have hview : viewOf pf input (w'.2 i) =
      { intended := mergeFresh intended fresh, etag := fresh.etag, before := some intended } := by
    rw [hself, viewOf_append, ← h.intends]
    simp only [CasView.next, hfresh]
  refine ⟨⟨hafter ▸ h.tagged, hkeep h.audit, hnone, hcount ▸ h.budget, by rw [hview]⟩, by rw [hview],
    fun before hbefore e he => ?_⟩
  rw [hview] at hbefore
  obtain rfl : intended = before := Option.some.inj hbefore
  obtain ⟨version, remote, hversion, hparse, rfl⟩ := accepted_of_readReply hget hfresh he
  cases he
  exact ⟨version.body, remote, h.tagged version (List.mem_of_mem_head? hversion), hparse, rfl⟩

/-- A silent event settles nothing. -/
theorem Settled.silent {lostAck : Bool} {r : Except JsError (Option String)}
    {history : List (FetchEvent Text)} {ev : FetchEvent Text} (h : Settled key lostAck r history)
    (hev : Silent pf key ev) : Settled key lostAck r (history ++ [ev]) := by
  refine ⟨fun etag hok => ?_, fun e herr hlost ev' hmem => ?_⟩
  · obtain ⟨pre, landed, post, rfl, hlands, hothers⟩ := h.ok etag hok
    refine ⟨pre, landed, post ++ [ev], by simp, hlands, fun other hmem => ?_⟩
    rw [← List.append_assoc] at hmem
    rcases List.mem_append.1 hmem with hmem | hmem
    · exact hothers other hmem
    · exact List.mem_singleton.1 hmem ▸ hev.lands
  · rcases List.mem_append.1 hmem with hmem | hmem
    · exact h.error e herr hlost ev' hmem
    · exact List.mem_singleton.1 hmem ▸ hev.lands

/-- **One writer.** Whatever the others do to the object, a writer's own PUTs land well. -/
theorem safe_writeCheckpoint {i : ι} {input : CheckpointWriteInput}
    (hcond : options.conditionalWrites = true)
    (hkey : checkpointKey pf options input.slug = .ok key)
    (htag : ∀ body body' e, b.tag body e → b.tag body' e → body = body')
    {w : RecordedWorld ι Text} (hw : Tagged b key w.1) (hi : w.2 i = []) :
    Proc.Safe (b.Step.recorded i) (CasRely pf b key i) (CasGuar pf b key i input)
      (fun r w => Audit pf key input (w.2 i) ∧ Settled key b.faults.checkpointLostAck r (w.2 i)) w
      (writeCheckpoint pf options input) := by
  have hpost : ∀ (r : Except JsError (Option String))
      (w w' : RecordedWorld ι Text),
      (Audit pf key input (w.2 i) ∧ Settled key b.faults.checkpointLostAck r (w.2 i)) →
      CasRely pf b key i w w' →
      Audit pf key input (w'.2 i) ∧ Settled key b.faults.checkpointLostAck r (w'.2 i) := by
    rintro r w w' ⟨haudit, hsettled⟩ ⟨_, heq | ⟨ev, hev, heq⟩⟩
    · rw [heq]
      exact ⟨haudit, hsettled⟩
    · rw [heq]
      exact ⟨haudit.silent hev, hsettled.silent hev⟩
  refine safe_casRounds hkey (BeforePut pf b key i input) (Writing pf b key i input)
    (fun _ _ _ _ _ h hr => h.rely hr) (fun _ _ _ _ h hr => h.rely hr) hpost
    (fun w r w' hr => casRely_of_timer hr hr.1 rfl fun _ => rfl)
    (fun ms w r w' hr => casRely_of_timer hr hr.1 rfl fun _ => rfl)
    (fun n c etag w h r w' hr => ?_) (fun n c w h r w' hr => h.get hr)
    (fun c etag w h => ⟨h.audit, fun _ hok => (by cases hok), fun _ _ _ => h.unlanded⟩)
    MAX_CAS_ROUNDS input.checkpoint input.etag ?_
  · rw [hcond] at hr
    obtain ⟨hg, hok, herror⟩ := h.put htag hr
    refine ⟨hg, fun etag' heq => heq ▸ hok etag' heq, fun error heq => ?_⟩
    have herr := herror error heq
    subst heq
    exact herr
  · have hnil : Audit pf key input ([] : List (FetchEvent Text)) :=
      ⟨fun pre ev post h => absurd h (by simp), Nat.zero_le _⟩
    refine ⟨⟨hw, hi ▸ hnil, hi ▸ fun ev hev => absurd hev List.not_mem_nil, ?_, ?_⟩, ?_, ?_⟩ <;>
      rw [hi]
    · rfl
    · rfl
    · rfl
    · rintro before ⟨⟩

/-- **No blind overwrite.** Any number of writes of one object, interleaved arbitrarily: every PUT
    that lands stores what its writer intends by then, over exactly the version whose ETag the
    writer was holding, merged with that version if it was re-read. -/
theorem write_never_overwrites_blindly (inputs : ι → CheckpointWriteInput)
    (hcond : options.conditionalWrites = true)
    (hkey : ∀ i, checkpointKey pf options (inputs i).slug = .ok key)
    (htag : ∀ body body' e, b.tag body e → b.tag body' e → body = body')
    {w₀ : World Text} (hw : Tagged b key w₀)
    {w : RecordedWorld ι Text}
    {ps : ι → Program Text (Except JsError (Option String))}
    (hr : Lts.PoolRuns (fun i => Proc.lts (b.Step.recorded i) _) (w₀, fun _ => [])
      (fun i => writeCheckpoint pf options (inputs i)) w ps) (i : ι) :
    Audit pf key (inputs i) (w.2 i) ∧
      ∀ r, ps i = .pure r → Settled key b.faults.checkpointLostAck r (w.2 i) := by
  have hown : ∀ i j, i ≠ j → ∀ w w', CasGuar pf b key j (inputs j) w w' →
      CasRely pf b key i w w' := fun i j hij w w' h => ⟨h.1, Or.inl (h.2.1 i hij)⟩
  have hsafe := fun i => safe_writeCheckpoint (i := i) hcond (hkey i) htag
    (w := (w₀, fun _ => [])) hw rfl
  refine ⟨?_, fun r hp => ?_⟩
  · refine hr.invariant hown hsafe (I := fun w => ∀ j, Audit pf key (inputs j) (w.2 j))
      (fun j w w' hg hall k => ?_) (fun j => ⟨fun pre ev post h => absurd h (by simp), Nat.zero_le _⟩) i
    by_cases hkj : k = j
    · exact hkj ▸ hg.2.2 (hall j)
    · exact hg.2.1 k hkj ▸ hall k
  · have hdone := hr.safe hown hsafe i
    rw [hp] at hdone
    exact (Proc.Safe.of_pure hdone).2

/-- Two writers of one object: `false` has seen one page, `true` two. -/
def toyWriter (i : Bool) : CheckpointWriteInput :=
  { checkpoint := toyCheckpoint (if i then 2 else 1), slug := "//a" }

/-- What the first writer stores. -/
def toyBody : Option Json := stringifyCheckpoint toyPlatform (toyCheckpoint 1)

/-- What the second writer stores over the first one's version. -/
def toyMerged : Option Json :=
  stringifyCheckpoint toyPlatform (mergeCheckpoints (toyCheckpoint 2) (toyCheckpoint 1).onSchema)

/-- Each of the two texts has its ETag. -/
def toyTag (text : Option Json) : Option String :=
  if text = toyBody then some "0" else if text = toyMerged then some "1" else none

/-- A backend that tags these texts, and may fail to store any. -/
def toyTagged : Backend (Option Json) where
  reports _ _ := True
  pageText _ _ := True
  served _ _ := True
  tag text etag := toyTag text = some etag
  faults := { checkpointPut := true }

/-- The two ETags tell their texts apart. -/
theorem toyTag_injective {text text' : Option Json} {etag : String} (h : toyTag text = some etag)
    (h' : toyTag text' = some etag) : text = text' := by
  have hcases : ∀ {text : Option Json}, toyTag text = some etag →
      (text = toyBody ∧ etag = "0") ∨ (text = toyMerged ∧ etag = "1") := by
    intro text h
    unfold toyTag at h
    split at h
    · rename_i hbody
      exact Or.inl ⟨hbody, (Option.some.inj h).symm⟩
    · split at h
      · rename_i hmerged
        exact Or.inr ⟨hmerged, (Option.some.inj h).symm⟩
      · cases h
  rcases hcases h with ⟨htext, rfl⟩ | ⟨htext, rfl⟩ <;>
    rcases hcases h' with ⟨htext', hetag⟩ | ⟨htext', hetag⟩
  · rw [htext, htext']
  · exact absurd hetag (by decide)
  · exact absurd hetag (by decide)
  · rw [htext, htext']

/-- A server of that backend. -/
def taggedServe (w : World (Option Json)) :
    (e : Effect (Option Json)) → Reply e × World (Option Json)
  | .putCheckpoint key body condition =>
    if Script.conditionHolds (w.current key) condition then
      match toyTag body with
      | some etag => (.ok (some etag), w.pushVersion key { body, etag })
      | none => (.error (.error "no tag"), w)
    else (.error (.s3Service "PreconditionFailed" (some 412)), w)
  | e => toyScript.serve w e

/-- Its replies are those of the backend. -/
theorem step_taggedServe (w : World (Option Json)) (e : Effect (Option Json)) :
    toyTagged.Step w e (taggedServe w e).1 (taggedServe w e).2 := by
  -- where nothing is tagged, any tags do
  have hany : ({ toyTagged with tag := fun _ _ => True } : Backend (Option Json)).Step w e
      (toyScript.serve w e).1 (toyScript.serve w e).2 :=
    toyScript.step_serve (fun _ => trivial) (fun _ => trivial)
      (fun _ => Or.inl ⟨[7], trivial, rfl⟩) (fun _ _ => trivial) w e
  cases e with
  | putCheckpoint key body condition =>
    show toyTagged.StepPutCheckpoint w key body condition _ _
    by_cases hholds : Script.conditionHolds (w.current key) condition = true
    · cases htag : toyTag body with
      | some etag =>
        refine Or.inl ⟨Script.conditionHolds_iff.1 hholds, etag, htag, ?_, Or.inl ?_⟩
        · simp only [taggedServe, hholds, htag, if_true]
        · simp only [taggedServe, hholds, htag, if_true]
      | none =>
        refine Or.inr ⟨?_, .error "no tag", ?_, Or.inr ⟨rfl, rfl⟩⟩
        · simp only [taggedServe, hholds, htag, if_true]
        · simp only [taggedServe, hholds, htag, if_true]
    · refine Or.inr ⟨?_, .s3Service "PreconditionFailed" (some 412), ?_, Or.inl ⟨rfl, ?_⟩⟩
      · simp only [taggedServe, hholds]
        rfl
      · simp only [taggedServe, hholds]
        rfl
      · exact fun h => hholds (Script.conditionHolds_iff.2 h)
  | _ => exact hany

/-- The first writer's PUT lands; the second one's is refused, and lands merged. -/
def toyWritten : RecordedWorld Bool (Option Json) ×
    (Bool → Program (Option Json) (Except JsError (Option String))) :=
  Proc.execTurns (recordServe taggedServe) [(false, 10), (true, 10)]
    ((emptyWorld, fun _ => []), fun i => writeCheckpoint toyPlatform toyOptions (toyWriter i))

/-- Those turns are a run of the two writers. -/
theorem poolRuns_toyWritten : Lts.PoolRuns (fun i => Proc.lts (toyTagged.Step.recorded i) _)
    (emptyWorld, fun _ => []) (fun i => writeCheckpoint toyPlatform toyOptions (toyWriter i))
    toyWritten.1 toyWritten.2 :=
  Proc.poolRuns_execTurns (fun _ => recorded_serve step_taggedServe) _
    ((emptyWorld, fun _ => []), fun i => writeCheckpoint toyPlatform toyOptions (toyWriter i))

/-- One of them is refused once, merges, and lands over the other. -/
theorem write_never_overwrites_blindly_two :
    (toyWritten.1.2 true).countP isPut = 2 ∧
    (toyWritten.1.1.checkpoints toyKey).map Version.body = [toyMerged, toyBody] ∧
    (Audit toyPlatform toyKey (toyWriter false) (toyWritten.1.2 false) ∧
      Settled toyKey false (.ok (some "0")) (toyWritten.1.2 false)) ∧
    Audit toyPlatform toyKey (toyWriter true) (toyWritten.1.2 true) ∧
      Settled toyKey false (.ok (some "1")) (toyWritten.1.2 true) := by
  have hcond : toyOptions.conditionalWrites = true := rfl
  have hkey : ∀ i, checkpointKey toyPlatform toyOptions (toyWriter i).slug = .ok toyKey :=
    fun _ => checkpointKey_toy
  have hempty : Tagged toyTagged toyKey emptyWorld := fun v hv => absurd hv List.not_mem_nil
  have hfirst := write_never_overwrites_blindly toyWriter hcond hkey
    (fun _ _ _ h h' => toyTag_injective h h') hempty poolRuns_toyWritten false
  have hsecond := write_never_overwrites_blindly toyWriter hcond hkey
    (fun _ _ _ h h' => toyTag_injective h h') hempty poolRuns_toyWritten true
  exact ⟨rfl, rfl, ⟨hfirst.1, hfirst.2 _ rfl⟩, hsecond.1, hsecond.2 _ rfl⟩

end Result

end ReplaysFetcher
