/-
  Reads that time out (`src/source/classify-failure.ts`, `src/discovery/source-client.ts`,
  `src/storage/replay-byte-client.ts`).

  Every round of a read has `sourceTimeoutMs`.  On the direct transport a timer aborts the `fetch`,
  which rejects with an `AbortError`; over SSH `execFile` kills the child and rejects with a plain
  `Error` whose code is `null`.  The classifier knows the first by its name, "must stay retryable",
  and has nothing to know the second by.

  1. Every client ends, whatever it is told (`ends_retryOrThrow`): a round that goes on uses up a try.
  2. A client whose every round ends in an error of one kind is retried to the end iff that kind is
     transient (`timeoutRetried_iff`).
  3. On the direct transport the kind is transient, over SSH it is permanent
     (`timeout_retryable_iff`).
-/
import ReplaysFetcher.Classification

namespace ReplaysFetcher

open Effectful

/-! ## What a source says that is too slow -/

/-- A `fetch` that was aborted rejects so; its `code` is a number. -/
def IsAbortError (error : RuntimeError) : Prop :=
  ∃ message, error = .error "AbortError" message none none

/-- **Every round times out**, before the headers or while the body is read; `execFile` has killed
    its child.  Nobody else aborts. -/
def TimingOut : (e : TransportEffect) → TransportReply e → Prop
  | .fetch _, .error error => IsAbortError error
  | .fetch _, .ok response =>
    response.ok = true ∧ ∃ error, response.body = .error error ∧ IsAbortError error
  | .execFile _ _, r => ∃ message, r = .error (.error "Error" message none none)
  | .throwIfAborted, r => r = .ok ()
  | .sleep _, r => r = .ok ()
  | .random, _ => True
  | .now, _ => True

theorem exists_timingOut (e : TransportEffect) : ∃ r, TimingOut e r := by
  cases e with
  | fetch url => exact ⟨.error (.error "AbortError" "" none none), "", rfl⟩
  | execFile file arguments => exact ⟨.error (.error "Error" "" none none), "", rfl⟩
  | throwIfAborted => exact ⟨.ok (), rfl⟩
  | sleep milliseconds => exact ⟨.ok (), rfl⟩
  | random => exact ⟨(0 : ℚ), trivial⟩
  | now => exact ⟨(0 : ℤ), trivial⟩

/-- The whole conversation with such a source. -/
def TimedOut (l : Exchanges) : Prop := ∀ x ∈ l, TimingOut x.1 x.2

theorem TimedOut.notAborted {l : Exchanges} (h : TimedOut l) : NotAborted l := by
  rintro ⟨e, r⟩ hx
  have hr := h _ hx
  cases e with
  | throwIfAborted =>
    rw [show r = .ok () from hr]
    rfl
  | sleep milliseconds =>
    rw [show r = .ok () from hr]
    rfl
  | _ => rfl

/-! ## Clients end -/

section Ends

variable {α ε : Type} {options : RetrySourceReadOptions α} {e : TransportEffect}
  {answer : TransportReply e → Except ReadError α} {toError : ReadError → ε}
  {allowed : (e : TransportEffect) → TransportReply e → Prop}

theorem loopFree_directRetryAfter (codec : Codec) (error : ReadError) :
    Proc.LoopFree (fun e => e = .now) (directRetryAfter codec error) := by
  unfold directRetryAfter
  split
  · trivial
  · unfold parseRetryAfter
    split
    · trivial
    · split
      · trivial
      · exact ⟨rfl, fun _ => trivial⟩

theorem loopFree_abortableSleep (delayMs : ℕ) :
    Proc.LoopFree (fun _ => True) (abortableSleep delayMs) :=
  Async.loopFree_bind ⟨trivial, fun _ => trivial⟩ fun _ => ⟨trivial, fun _ => trivial⟩

theorem loopFree_retryRound
    (hdelay : ∀ error, Proc.LoopFree (fun e => e = .now) (options.retryAfterMs error)) (round : ℕ)
    (error : ReadError) : Proc.LoopFree (fun _ => True) (retryRound options round error) := by
  unfold retryRound
  split
  · trivial
  · refine Async.loopFree_lift_bind ⟨trivial, fun random => ?_⟩ fun delayMs =>
      Async.loopFree_bind (loopFree_abortableSleep delayMs) fun _ => trivial
    split
    · exact ((hdelay error).mono fun _ _ => trivial).bind fun _ => trivial
    · trivial

theorem loopFree_readRound (hread : IsRequest options.read e answer)
    (hdelay : ∀ error, Proc.LoopFree (fun e => e = .now) (options.retryAfterMs error)) (round : ℕ) :
    Proc.LoopFree (fun _ => True) (readRound options round) := by
  unfold readRound
  refine Async.loopFree_bind ⟨trivial, fun _ => trivial⟩ fun _ => ?_
  refine Async.loopFree_tryCatch (Async.loopFree_bind ?_ fun _ => trivial)
    (loopFree_retryRound hdelay round)
  rw [hread.eq]
  exact ⟨trivial, fun _ => trivial⟩

/-- A round that goes on has a try left, and uses it up. -/
theorem gives_readRound (round : ℕ) : Proc.Gives allowed (Async.Settled (Sum.elim
    (fun next => next = round + 1 ∧ round < options.attempts) fun _ => True) fun _ => True)
    (readRound options round) := by
  unfold readRound
  refine Async.gives_bind (fun _ => True) (Async.gives_any _) fun _ _ => ?_
  refine Async.gives_tryCatch (fun _ => True) ?_ fun error _ => ?_
  · exact Async.gives_bind (fun _ => True) (Async.gives_any _) fun _ _ => Proc.gives_pure trivial
  · unfold retryRound
    split
    · exact Proc.gives_pure trivial
    · rename_i hgoOn
      rw [Bool.or_eq_true, decide_eq_true_eq, not_or, Nat.not_le] at hgoOn
      refine Async.gives_lift_bind (fun _ => True) (Proc.gives_any _) fun delayMs _ => ?_
      refine Async.gives_bind (fun _ => True) (Async.gives_any _) fun _ _ => Proc.gives_pure ?_
      exact ⟨rfl, hgoOn.2⟩

/-- **Every client ends.** -/
theorem ends_retryOrThrow (hanswer : ∀ e, ∃ r, allowed e r)
    (hread : IsRequest options.read e answer)
    (hdelay : ∀ error, Proc.LoopFree (fun e => e = .now) (options.retryAfterMs error)) :
    Proc.Ends (Proc.replying allowed) (fun _ _ => True) () (retryOrThrow options toError) := by
  have hloop : Proc.Ends (Proc.replying allowed) (fun _ _ => True) () (withRetry options) := by
    refine Async.ends_iterate_of_gives (fun _ => True) (fun round => options.attempts - round) hanswer
      (loopFree_readRound hread hdelay) (fun round _ => (gives_readRound round).imp ?_) trivial
    rintro (error | next | value) hr
    · exact trivial
    · obtain ⟨rfl, hlt⟩ := hr
      exact ⟨trivial, by omega⟩
    · exact trivial
  exact Proc.ends_bind hloop fun r _ _ => Proc.ends_pure trivial

end Ends

/-! ## Retried to the end -/

/-- **A read is retried to the end** when it times out: the client ends, it has made all its rounds,
    and the error it ends with is classified as transient. -/
structure TimeoutRetried {α ε : Type} (client : Read ε α) (shape : ReadShape α) (attempts : ℕ) :
    Prop where
  ends : Proc.Ends (Proc.replying TimingOut) (fun _ _ => True) () client
  rounds : ∀ l r, Emits client l r → TimedOut l → (reads l).length = attempts + 1
  transient : ∀ l r, Emits client l r → TimedOut l → ∃ failure error, r = .error failure ∧
    shape.StoppedOn attempts l error ∧ (shape.classify error).kind = .transient

/-- What a read that times out is turned into is of this kind. -/
def ReadShape.TimesOutAs {α : Type} (shape : ReadShape α) (kind : FailureKind) : Prop :=
  ∀ reply, TimingOut shape.request reply →
    ∃ error, shape.answer reply = .error error ∧ (shape.classify error).kind = kind

section Retried

variable {α ε : Type} {shape : ReadShape α} {options : RetrySourceReadOptions α}
  {toError : ReadError → ε} {kind : FailureKind} {l : Exchanges} {r : Except ε α}

/-- Such a client rejects, with an error of that kind. -/
theorem stoppedOn_of_timedOut (hread : IsRequest options.read shape.request shape.answer)
    (hclassify : options.classify = shape.classify)
    (hdelay : ∀ error, Proc.LoopFree (fun e => e = .now) (options.retryAfterMs error))
    (h : Emits (retryOrThrow options toError) l r) (htimedOut : TimedOut l)
    (hkind : shape.TimesOutAs kind) : ∃ failure error, r = .error failure ∧
      shape.StoppedOn options.attempts l error ∧ (shape.classify error).kind = kind := by
  obtain ⟨outcome, rfl, hends⟩ := endsWithLast_of_emits hread (fun error => (hdelay error).asks) h
  obtain ⟨⟨reply, hlast, hanswer⟩, hgaveUp⟩ := hends htimedOut.notAborted
  have hmem : (⟨shape.request, reply⟩ : Σ e : TransportEffect, TransportReply e) ∈ l :=
    (List.mem_filter.1 (List.mem_of_getLast? hlast)).1
  obtain ⟨error, herror, hthis⟩ := hkind reply (htimedOut _ hmem)
  obtain rfl : outcome = .error error := hanswer.symm.trans herror
  refine ⟨toError error, error, rfl, ⟨⟨reply, hlast, hanswer⟩, ?_⟩, hthis⟩
  rw [← hclassify]
  exact hgaveUp error rfl

/-- The error a client stops on is that of its last reply. -/
theorem ReadShape.StoppedOn.unique {attempts : ℕ} {error error' : ReadError}
    (h : shape.StoppedOn attempts l error) (h' : shape.StoppedOn attempts l error') :
    error = error' := by
  obtain ⟨reply, hlast, hanswer⟩ := h.last
  obtain ⟨reply', hlast', hanswer'⟩ := h'.last
  obtain rfl : reply = reply' := by
    have hsame := hlast.symm.trans hlast'
    cases hsame
    rfl
  exact Except.error.inj (hanswer.symm.trans hanswer')

/-- **It is retried to the end iff that kind is transient.** -/
theorem timeoutRetried_iff (hread : IsRequest options.read shape.request shape.answer)
    (hclassify : options.classify = shape.classify)
    (hdelay : ∀ error, Proc.LoopFree (fun e => e = .now) (options.retryAfterMs error))
    (hkind : shape.TimesOutAs kind) :
    TimeoutRetried (retryOrThrow options toError) shape options.attempts ↔ kind = .transient := by
  have hends : Proc.Ends (Proc.replying TimingOut) (fun _ _ => True) ()
      (retryOrThrow options toError) := ends_retryOrThrow exists_timingOut hread hdelay
  constructor
  · intro h
    -- one conversation decides it
    obtain ⟨w, q, r, hruns, hresult, _⟩ := hends.exists_run
    rw [Proc.result_eq_some.1 hresult] at hruns
    obtain ⟨l, hemits, htimedOut⟩ :=
      Proc.exists_emits (P := fun x => TimingOut x.1 x.2) (fun _ _ _ _ hr => hr) hruns
    obtain ⟨_, error, _, hstopped, hthis⟩ :=
      stoppedOn_of_timedOut hread hclassify hdelay hemits htimedOut hkind
    obtain ⟨_, error', _, hstopped', htransient⟩ := h.transient l r hemits htimedOut
    rw [← hthis, hstopped.unique hstopped', htransient]
  · rintro rfl
    refine ⟨hends, fun l r hemits htimedOut => ?_, fun l r hemits htimedOut => ?_⟩
    · obtain ⟨_, error, _, hstopped, htransient⟩ :=
        stoppedOn_of_timedOut hread hclassify hdelay hemits htimedOut hkind
      have hretryable : isRetryable (shape.classify error) = true :=
        isRetryable_of_transient htransient
      rcases hstopped.gaveUp with hfinal | hused
      · rw [hretryable] at hfinal
        cases hfinal
      · exact hused
    · exact stoppedOn_of_timedOut hread hclassify hdelay hemits htimedOut hkind

end Retried

/-! ## The two transports -/

def SourceTransport.isDirect : SourceTransport → Bool
  | .direct _ => true
  | .ssh _ _ _ => false

/-- How the error of a timed-out read is classified. -/
def SourceTransport.timeoutKind : SourceTransport → FailureKind
  | .direct _ => .transient
  | .ssh _ _ _ => .permanent

theorem timeoutKind_eq_transient {transport : SourceTransport} :
    transport.timeoutKind = .transient ↔ transport.isDirect = true := by
  cases transport with
  | direct codec => exact ⟨fun _ => rfl, fun _ => rfl⟩
  | ssh config host hhost => exact ⟨fun h => (by cases h), fun h => (by cases h)⟩

/-- An aborted `fetch` is known by its name. -/
theorem kind_of_abortError {error : RuntimeError} (h : IsAbortError error) :
    (classifyFailure { error := some error }).kind = .transient := by
  obtain ⟨message, rfl⟩ := h
  rfl

section Transports

variable {Text : Type} (pf : Platform Text) (transport : SourceTransport) (url : Url)

theorem textShape_timesOutAs (phase : SourceReadPhase) :
    (transport.textShape pf url phase).TimesOutAs transport.timeoutKind := by
  intro reply htimingOut
  cases transport with
  | direct codec =>
    cases reply with
    | error error => exact ⟨.runtime error, rfl, kind_of_abortError htimingOut⟩
    | ok response =>
      obtain ⟨hok, error, hbody, habort⟩ := htimingOut
      refine ⟨.runtime error, ?_, kind_of_abortError habort⟩
      show directTextAnswer pf codec url phase (.ok response) = _
      unfold directTextAnswer
      simp [hok, hbody]
  | ssh config host hhost =>
    obtain ⟨message, rfl⟩ := htimingOut
    exact ⟨.runtime (.error "Error" message none none), rfl, rfl⟩

theorem bytesShape_timesOutAs :
    (transport.bytesShape pf url).TimesOutAs transport.timeoutKind := by
  intro reply htimingOut
  cases transport with
  | direct codec =>
    cases reply with
    | error error => exact ⟨.runtime error, rfl, kind_of_abortError htimingOut⟩
    | ok response =>
      obtain ⟨hok, error, hbody, habort⟩ := htimingOut
      refine ⟨.runtime error, ?_, kind_of_abortError habort⟩
      show directBytesAnswer pf url (.ok response) = _
      unfold directBytesAnswer
      simp [hok, hbody, Except.mapError]
  | ssh config host hhost =>
    obtain ⟨message, rfl⟩ := htimingOut
    exact ⟨.runtime (.error "Error" message none none), rfl, rfl⟩

/-- Text reads: retried to the end or not. -/
theorem textRetried_iff (options : SourceFetchOptions) :
    TimeoutRetried (transport.fetchText pf url options)
      (transport.textShape pf url (resolvePhase options)) (options.attempts.getD 0) ↔
      transport.isDirect = true := by
  rw [← timeoutKind_eq_transient]
  have hkind := textShape_timesOutAs pf transport url (resolvePhase options)
  cases transport with
  | direct codec =>
    exact timeoutRetried_iff (directReadText_eq pf codec url _) rfl
      (loopFree_directRetryAfter codec) hkind
  | ssh config host hhost =>
    unfold SourceTransport.fetchText sshFetchText
    dsimp only
    rw [hhost]
    refine timeoutRetried_iff (sshReadText_eq pf url config host) rfl ?_ hkind
    exact fun _ => trivial

/-- Byte reads: the same. -/
theorem bytesRetried_iff (options : SourceFetchOptions) :
    TimeoutRetried (transport.fetchBytes pf url options) (transport.bytesShape pf url)
      (options.attempts.getD 0) ↔ transport.isDirect = true := by
  rw [← timeoutKind_eq_transient]
  have hkind := bytesShape_timesOutAs pf transport url
  cases transport with
  | direct codec =>
    exact timeoutRetried_iff (directReadBytes_eq pf url) rfl (loopFree_directRetryAfter codec) hkind
  | ssh config host hhost =>
    unfold SourceTransport.fetchBytes sshFetchBytes
    dsimp only
    rw [hhost]
    refine timeoutRetried_iff (sshReadBytes_eq pf config url host) rfl ?_ hkind
    exact fun _ => trivial

/-- A run whose list or detail read ended so stays resumable. -/
def LeavesRunsResumable (options : SourceReadOptions) : Prop :=
  ∀ l failure, Emits (transport.fetchText pf url options.toFetchOptions) l (.error failure) →
    TimedOut l → ∀ (reader : SourceReader pf) (config : RunConfig)
      (conversation : SourcedConversation Text) (r : Except JsError RunOnceResult),
      Emits (runOnce pf (config.sourcedInput reader)) conversation r →
      ⟨.text url options, .error (.sourceFetch failure)⟩ ∈ conversation →
      ∃ result, r = .ok result ∧ result.summary.status = some .resumable

/-- What is expected of a list or detail read that times out. -/
structure TextTimeoutRetried (options : SourceReadOptions) : Prop where
  retried : TimeoutRetried (transport.fetchText pf url options.toFetchOptions)
    (transport.textShape pf url options.phase) (options.attempts.getD 0)
  resumable : LeavesRunsResumable pf transport url options

/-- **Which timed-out reads are retried**: those on the direct transport, list, detail or bytes. -/
theorem timeout_retryable_iff :
    (∀ options : SourceReadOptions, TextTimeoutRetried pf transport url options ↔
      transport.isDirect = true) ∧
    ∀ options : SourceFetchOptions, TimeoutRetried (transport.fetchBytes pf url options)
      (transport.bytesShape pf url) (options.attempts.getD 0) ↔ transport.isDirect = true := by
  refine ⟨fun options => ⟨fun h => ?_, fun h => ?_⟩, bytesRetried_iff pf transport url⟩
  · exact (textRetried_iff pf transport url options.toFetchOptions).1 h.retried
  · have hretried := (textRetried_iff pf transport url options.toFetchOptions).2 h
    refine ⟨hretried, fun l failure hread htimedOut reader config conversation r hrun hmem => ?_⟩
    obtain ⟨failure', error, hfailure, hstopped, htransient⟩ :=
      hretried.transient l _ hread htimedOut
    obtain rfl := Except.error.inj hfailure
    obtain ⟨error', hstopped', hcode⟩ := code_of_fetchText htimedOut.notAborted hread
    obtain rfl := hstopped.unique hstopped'
    have hfate := (runPassesOn reader config).runOnce conversation r hrun
      ⟨_, hmem, url, options, rfl⟩
    cases r with
    | ok result =>
      refine ⟨result, rfl, hfate.2.resumable (Or.inl ?_)⟩
      rw [hcode, kind_toFetchCode]
      exact htransient
    | error error => exact hfate.elim

end Transports

/-! ## A host that does not answer -/

/-- A source behind a host. -/
def toySsh : SourceTransport :=
  .ssh { sourceSshCommand := "curl -sf", sourceSshHost := some "host" } "host" rfl

/-- **A list read over SSH is given up**, with two tries left. -/
theorem ssh_timeout_not_retried : ¬ TextTimeoutRetried toyPlatform toySsh
    { protocol := "https:", host := "a", pathname := "" }
    { attempts := some 2, page := 1, phase := .list } := by
  intro h
  have hdirect := (textRetried_iff toyPlatform toySsh _ _).1 h.retried
  cases hdirect

end ReplaysFetcher
