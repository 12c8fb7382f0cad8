/-
  The retry loop (`src/source/retry.ts`, `src/source/backoff.ts`).

  `Transport.lean` reads through this loop and looks at the outcome.  Here the loop is taken by
  itself: any error, any classifier, any value, every call it makes a request of its own, and the
  arithmetic of the delays in doubles.

  1. **Delays.**  A `Retry-After` header is text from outside.  Whatever it says, and however doubles
     are rounded, a delay is a number between 0 and 30000, and the cap makes it exact: it is what the
     header says, or the cap (`resolved_between`, `resolved_rateLimited`).
  2. **The rule.**  One rule for the whole loop (`ends_withRetry`): what has to hold when, and that
     it ends because the rounds are counted.
  3. **The specification.**  Without an abort (`ends_meets`), and after one (`ends_aborted`).

  The loop of `Transport.lean` is this one, with the requests answered by the clients
  (`handle_withRetry`).
-/
import ReplaysFetcher.Transport
import ReplaysFetcher.Data.JsNumber
import ReplaysFetcher.Effectful.Termination
import ReplaysFetcher.Effectful.Conversations

namespace ReplaysFetcher.RetryLoop

open Effectful

/-! ## The loop -/

structure RetryAttemptEvent where
  attempt : ℕ
  causeCode : Option String
  delayMs : JsNumber
  httpStatus : Option ℕ
  page : Option ℕ
  phase : SourceReadPhase
  deriving DecidableEq

/-- What the loop calls. -/
inductive RetryEffect
  /-- `options.signal.throwIfAborted()` -/
  | throwIfAborted
  | read
  | random
  | now
  | onRetry (event : RetryAttemptEvent)
  /-- the race of a sleep and an abort -/
  | sleep (delayMs : JsNumber)

@[reducible] def RetryReply (ε α : Type) : RetryEffect → Type
  | .throwIfAborted => Except ε Unit
  | .read => Except ε α
  | .random => ℚ
  | .now => Date
  | .onRetry _ => Unit
  | .sleep _ => Except ε Unit

/-- What has been called, with the replies. -/
abbrev Calls (ε α : Type) : Type := List (Σ e : RetryEffect, RetryReply ε α e)

structure RetrySourceReadOptions (ε α : Type) where
  attempts : ℕ
  classify : ε → FailureClassification
  page : Option ℕ := none
  phase : SourceReadPhase
  /-- without the callback there is nothing to say -/
  retryAfterMs : ε → Proc RetryEffect (RetryReply ε α) (Option JsNumber) := fun _ => .pure none

def baseDelayMs : ℚ := 500
def capDelayMs : ℚ := 30000
def secondsToMs : ℚ := 1000
def retryAfterCapMs : ℚ := capDelayMs

section Loop

variable (fl : JsNumber.Rounding) {ε α : Type}

/-- `fullJitterDelay`, with the default bounds: nobody gives others. -/
def fullJitterDelay (round : ℕ) (random : ℚ) : JsNumber :=
  let exponential := JsNumber.mul fl (.finite baseDelayMs) (fl.round (2 ^ round))
  let capped := JsNumber.min exponential (.finite capDelayMs)
  JsNumber.floor (JsNumber.mul fl (.finite random) capped)

/-- `parseDate` is `Date.parse`, with `none` for `NaN`. -/
def parseRetryAfter (parseDate : String → Option Date) (value : Option String) :
    Proc RetryEffect (RetryReply ε α) (Option JsNumber) :=
  match value with
  | none => .pure none
  | some value =>
    match digitsValue (trimJs value) with
    | some seconds => .pure (some (JsNumber.mul fl (fl.round seconds) (.finite secondsToMs)))
    | none =>
      match parseDate (trimJs value) with
      | none => .pure none
      | some dateMs => .call .now fun now =>
        .pure (some (JsNumber.max (.finite 0) (JsNumber.sub fl (.finite dateMs) (.finite now))))

variable (options : RetrySourceReadOptions ε α)

def buildRetryEvent (round : ℕ) (error : ε) (delayMs : JsNumber) : RetryAttemptEvent where
  attempt := round + 1
  causeCode := (options.classify error).causeCode
  delayMs := delayMs
  httpStatus := (options.classify error).httpStatus
  page := options.page
  phase := options.phase

def resolveDelay (round : ℕ) (error : ε) : Proc RetryEffect (RetryReply ε α) JsNumber :=
  .call .random fun random =>
    if (options.classify error).kind ≠ .rateLimited then .pure (fullJitterDelay fl round random)
    else (options.retryAfterMs error).bind fun retryAfter =>
      .pure (JsNumber.min
        (JsNumber.max (fullJitterDelay fl round random) (retryAfter.getD (.finite 0)))
        (.finite retryAfterCapMs))

def throwIfAborted : Async RetryEffect (RetryReply ε α) ε Unit :=
  Proc.perform RetryEffect.throwIfAborted

def abortableSleep (delayMs : JsNumber) : Async RetryEffect (RetryReply ε α) ε Unit := do
  throwIfAborted
  (Proc.perform (RetryEffect.sleep delayMs) : Proc RetryEffect (RetryReply ε α) (Except ε Unit))

/-- The `catch` of a round. -/
def retryRound (round : ℕ) (error : ε) : Async RetryEffect (RetryReply ε α) ε (ℕ ⊕ α) :=
  if !isRetryable (options.classify error) || round ≥ options.attempts then throw error
  else do
    let delayMs ← (resolveDelay fl options round error : Proc RetryEffect (RetryReply ε α) JsNumber)
    (Proc.perform (RetryEffect.onRetry (buildRetryEvent options round error delayMs)) :
      Proc RetryEffect (RetryReply ε α) Unit)
    abortableSleep delayMs
    pure (.inl (round + 1))

/-- The body of the loop. -/
def readRound (round : ℕ) : Async RetryEffect (RetryReply ε α) ε (ℕ ⊕ α) := do
  throwIfAborted
  tryCatch (do
    let value ← (Proc.perform RetryEffect.read : Proc RetryEffect (RetryReply ε α) (Except ε α))
    pure (.inr value)) (retryRound fl options round)

def withRetry : Async RetryEffect (RetryReply ε α) ε α := Async.iterate (readRound fl options) 0

end Loop

/-! ## Delays -/

section Delays

variable (fl : JsNumber.Rounding)

/-- What the cap makes of the exponential is exact. -/
theorem capped_exponential (round : ℕ) :
    JsNumber.min (JsNumber.mul fl (.finite baseDelayMs) (fl.round (2 ^ round)))
      (.finite capDelayMs) = .finite (min (baseDelayMs * 2 ^ round) capDelayMs) := by
  unfold baseDelayMs capDelayMs
  by_cases hsmall : round ≤ 5
  · have hpow : 2 ^ round ≤ 2 ^ 5 := Nat.pow_le_pow_right (by norm_num) hsmall
    have hexponent : fl.round (2 ^ round) = .finite (2 ^ round) := by
      have hround := JsNumber.round_natCast fl (n := 2 ^ round) (by omega)
      exact_mod_cast hround
    have hproduct : fl.round (500 * 2 ^ round) = .finite (500 * 2 ^ round) := by
      have hround := JsNumber.round_natCast fl (n := 500 * 2 ^ round) (by omega)
      exact_mod_cast hround
    rw [hexponent, JsNumber.mul_finite, hproduct, JsNumber.min_finite]
  · -- from here on the exponential is past the cap, or infinite
    have hpow : 2 ^ 6 ≤ 2 ^ round := Nat.pow_le_pow_right (by norm_num) (by omega)
    have hpow' : (64 : ℚ) ≤ 2 ^ round := by exact_mod_cast hpow
    have hexponent : .finite ((64 : ℤ) : ℚ) ≤ fl.round (2 ^ round) :=
      JsNumber.round_from fl (by norm_num) (by exact_mod_cast hpow')
    have hproduct : .finite 32000 ≤ JsNumber.mul fl (.finite 500) (fl.round (2 ^ round)) := by
      have hmul := (@JsNumber.le_mul fl 500 64 _ (by norm_num) (by norm_num) hexponent).1
      norm_num at hmul
      exact hmul
    rw [JsNumber.min_of_le (JsNumber.le_of_le (by norm_num) hproduct), min_eq_right (by linarith)]

/-- **A backoff is between nothing and the cap.** -/
theorem fullJitterDelay_between (round : ℕ) {random : ℚ} (h : random ∈ Set.Ico (0 : ℚ) 1) :
    ∃ q, fullJitterDelay fl round random = .finite q ∧ 0 ≤ q ∧ q ≤ 30000 := by
  unfold fullJitterDelay
  dsimp only
  rw [capped_exponential, JsNumber.mul_finite]
  have hcap : 0 ≤ min (baseDelayMs * 2 ^ round) capDelayMs ∧
      min (baseDelayMs * 2 ^ round) capDelayMs ≤ 30000 :=
    ⟨le_min (by unfold baseDelayMs; positivity) (by unfold capDelayMs; norm_num), min_le_right _ _⟩
  obtain ⟨r, hround, hlo, hhi⟩ := @JsNumber.round_between fl 0 30000 _
    (by norm_num) (by norm_num) (by push_cast; exact mul_nonneg h.1 hcap.1)
    (by push_cast; nlinarith [h.1, h.2, hcap.1, hcap.2])
  rw [hround, JsNumber.floor_finite]
  refine ⟨_, rfl, ?_, ?_⟩
  · exact_mod_cast Int.floor_nonneg.2 (by exact_mod_cast hlo)
  · exact (Int.floor_le r).trans (by exact_mod_cast hhi)

variable (parseDate : String → Option Date)

/-- What a header asks for: so many seconds, or to wait until a date.  Anything else asks for
    nothing. -/
def retryAfterDelay (header : Option String) (now : Date) : ℚ :=
  match header with
  | none => 0
  | some value =>
    match digitsValue (trimJs value) with
    | some seconds => seconds * 1000
    | none =>
      match parseDate (trimJs value) with
      | none => 0
      | some dateMs => max 0 (dateMs - now)

/-- What `parseRetryAfter` makes of it, when it is told that it is `now`. -/
def retryAfterNumber (header : Option String) (now : Date) : Option JsNumber :=
  match header with
  | none => none
  | some value =>
    match digitsValue (trimJs value) with
    | some seconds => some (JsNumber.mul fl (fl.round seconds) (.finite secondsToMs))
    | none =>
      match parseDate (trimJs value) with
      | none => none
      | some dateMs =>
        some (JsNumber.max (.finite 0) (JsNumber.sub fl (.finite dateMs) (.finite now)))

/-- `Math.min(Math.max(backoff, retryAfter ?? 0), retryAfterCapMs)` -/
def cappedDelay (backoff : JsNumber) (retryAfter : Option JsNumber) : JsNumber :=
  JsNumber.min (JsNumber.max backoff (retryAfter.getD (.finite 0))) (.finite retryAfterCapMs)

/-- Past the cap nothing matters. -/
theorem cappedDelay_of_le {b : ℚ} {x : JsNumber} (h : .finite 30000 ≤ x) :
    cappedDelay (.finite b) (some x) = .finite 30000 :=
  JsNumber.min_of_le (JsNumber.le_max_of_right JsNumber.noConfusion h)

theorem cappedDelay_finite (b q : ℚ) :
    cappedDelay (.finite b) (some (.finite q)) = .finite (min (max b q) 30000) := by
  show JsNumber.min (JsNumber.max (.finite b) (.finite q)) (.finite 30000) = _
  rw [JsNumber.max_finite, JsNumber.min_finite]

/-- **Seconds.** -/
theorem cappedDelay_seconds (b : ℚ) (seconds : ℕ) :
    cappedDelay (.finite b) (some (JsNumber.mul fl (fl.round seconds) (.finite secondsToMs))) =
      .finite (min (max b (seconds * 1000)) 30000) := by
  unfold secondsToMs
  by_cases hsmall : seconds ≤ 30
  · have hproduct : fl.round ((seconds : ℚ) * 1000) = .finite (seconds * 1000) := by
      have hround := @JsNumber.round_natCast fl (seconds * 1000) (by omega)
      exact_mod_cast hround
    rw [JsNumber.round_natCast fl (by omega), JsNumber.mul_finite, hproduct, cappedDelay_finite]
  · have hmany : (30 : ℚ) ≤ seconds := by exact_mod_cast (by omega : 30 ≤ seconds)
    have hround : .finite ((30 : ℤ) : ℚ) ≤ fl.round seconds :=
      JsNumber.round_from fl (by norm_num) (by exact_mod_cast hmany)
    have hproduct : .finite 30000 ≤ JsNumber.mul fl (fl.round seconds) (.finite 1000) := by
      have hmul := (@JsNumber.le_mul fl 1000 30 _ (by norm_num) (by norm_num) hround).2
      norm_num at hmul
      exact hmul
    rw [cappedDelay_of_le hproduct, min_eq_right (le_max_of_le_right (by linarith))]

/-- **Dates.** -/
theorem cappedDelay_date (b : ℚ) (dateMs now : Date) :
    cappedDelay (.finite b)
        (some (JsNumber.max (.finite 0) (JsNumber.sub fl (.finite dateMs) (.finite now)))) =
      .finite (min (max b (max 0 (dateMs - now))) 30000) := by
  have hdifference : JsNumber.sub fl (.finite dateMs) (.finite now) =
      fl.round ((dateMs - now : ℤ) : ℚ) := by
    rw [JsNumber.sub_finite, Int.cast_sub]
  have hcast : ((dateMs : ℚ) - now) = ((dateMs - now : ℤ) : ℚ) := (Int.cast_sub ..).symm
  obtain ⟨d, hd⟩ : ∃ d : ℤ, dateMs - now = d := ⟨_, rfl⟩
  rw [hdifference, hcast, hd]
  by_cases hsafe : |d| ≤ 2 ^ 53
  · rw [fl.safe d hsafe, JsNumber.max_finite, cappedDelay_finite]
  · rcases le_or_gt d 0 with hpast | hfuture
    · -- long past
      have hround : fl.round d ≤ .finite 0 := by
        have hto := @JsNumber.round_to fl 0 d (by norm_num) (by exact_mod_cast hpast)
        exact_mod_cast hto
      rw [JsNumber.max_of_le hround, cappedDelay_finite,
        max_eq_left (by exact_mod_cast hpast : (d : ℚ) ≤ 0)]
    · -- far away
      have hfar : 30000 ≤ d := by
        rw [abs_of_pos hfuture] at hsafe
        omega
      have hround : .finite 30000 ≤ fl.round d := by
        have hfrom := @JsNumber.round_from fl 30000 d (by norm_num) (by exact_mod_cast hfar)
        exact_mod_cast hfrom
      rw [cappedDelay_of_le (JsNumber.le_max_of_right JsNumber.noConfusion hround),
        min_eq_right (le_max_of_le_right (le_max_of_le_right (by exact_mod_cast hfar)))]

/-- **The cap makes the delay exact**, whatever the header says. -/
theorem cappedDelay_retryAfter (b : ℚ) (header : Option String) (now : Date) :
    cappedDelay (.finite b) (retryAfterNumber fl parseDate header now) =
      .finite (min (max b (retryAfterDelay parseDate header now)) 30000) := by
  have hnone : cappedDelay (.finite b) none = .finite (min (max b 0) 30000) :=
    cappedDelay_finite b 0
  unfold retryAfterNumber retryAfterDelay
  split
  · exact hnone
  · split
    · exact cappedDelay_seconds fl b _
    · split
      · exact hnone
      · exact cappedDelay_date fl b _ now

end Delays

/-! ## The rule -/

section Rule

variable {fl : JsNumber.Rounding} {ε α W : Type} {env : Env W RetryEffect (RetryReply ε α)}
  {options : RetrySourceReadOptions ε α} {post : Except ε α → W → Prop}

/-- What holds where in round `k` of the loop: at its top, after the check of the signal, when the
    read has failed, when the delay is known, after `onRetry`, and when the sleep begins. -/
structure RoundProof (fl : JsNumber.Rounding) (env : Env W RetryEffect (RetryReply ε α))
    (options : RetrySourceReadOptions ε α) (post : Except ε α → W → Prop) where
  top : ℕ → W → Prop
  checked : ℕ → W → Prop
  failed : ℕ → ε → W → Prop
  delayed : ℕ → ε → JsNumber → W → Prop
  told : ℕ → JsNumber → W → Prop
  resting : ℕ → JsNumber → W → Prop
  cancelled : ∀ {k w e w'}, top k w → env w .throwIfAborted (.error e) w' → post (.error e) w'
  check : ∀ {k w w'}, top k w → env w .throwIfAborted (.ok ()) w' → checked k w'
  succeed : ∀ {k w a w'}, checked k w → env w .read (.ok a) w' → post (.ok a) w'
  fail : ∀ {k w e w'}, checked k w → env w .read (.error e) w' → failed k e w'
  giveUp : ∀ {k e w}, failed k e w →
    (isRetryable (options.classify e) = false ∨ options.attempts ≤ k) → post (.error e) w
  delay : ∀ {k e w}, failed k e w → isRetryable (options.classify e) = true → k < options.attempts →
    Proc.Ends env (delayed k e) w (resolveDelay fl options k e)
  tell : ∀ {k e d w w'}, delayed k e d w →
    env w (.onRetry (buildRetryEvent options k e d)) () w' → told k d w'
  cancelledTold : ∀ {k d w e w'}, told k d w → env w .throwIfAborted (.error e) w' →
    post (.error e) w'
  recheck : ∀ {k d w w'}, told k d w → env w .throwIfAborted (.ok ()) w' → resting k d w'
  cancelledSleep : ∀ {k d w e w'}, resting k d w → env w (.sleep d) (.error e) w' →
    post (.error e) w'
  wake : ∀ {k d w w'}, resting k d w → env w (.sleep d) (.ok ()) w' → top (k + 1) w'

/-- What a round comes to: the next one, while tries are left, or the end. -/
def RoundProof.After (proof : RoundProof fl env options post) (k : ℕ) :
    ℕ ⊕ Except ε α → W → Prop
  | .inl k', w => proof.top k' w ∧ k' = k + 1 ∧ k < options.attempts
  | .inr r, w => post r w

/-- The `catch` of a round. -/
theorem RoundProof.ends_retryRound (proof : RoundProof fl env options post)
    (hanswer : ∀ w e, ∃ r w', env w e r w') {k : ℕ} {e : ε} {w : W} (h : proof.failed k e w) :
    Proc.Ends env (fun r w' => proof.After k (Async.leave r) w') w
      (retryRound fl options k e) := by
  unfold retryRound
  split
  · rename_i hstop
    refine Proc.ends_pure (proof.giveUp h ?_)
    rcases Bool.or_eq_true_iff.1 hstop with hpermanent | hused
    · exact Or.inl (by simpa using hpermanent)
    · exact Or.inr (of_decide_eq_true hused)
  · rename_i hgo
    obtain ⟨hretryable, hleft⟩ : isRetryable (options.classify e) = true ∧ k < options.attempts := by
      simpa using hgo
    rw [Async.lift_bind_eq]
    refine Proc.ends_bind (proof.delay h hretryable hleft) fun d w hdelayed => ?_
    refine Proc.ends_call (hanswer w _) fun _ w hevent => ?_
    have htold := proof.tell hdelayed hevent
    refine Proc.ends_call (hanswer w _) fun r w hcheck => ?_
    cases r with
    | error reason => exact Proc.ends_pure (proof.cancelledTold htold hcheck)
    | ok _ =>
      have hresting := proof.recheck htold hcheck
      refine Proc.ends_call (hanswer w _) fun r w hsleep => ?_
      cases r with
      | error reason => exact Proc.ends_pure (proof.cancelledSleep hresting hsleep)
      | ok _ => exact Proc.ends_pure ⟨proof.wake hresting hsleep, rfl, hleft⟩

/-- **The rule of the loop.**  It ends, for a round is gone through only while tries are left. -/
theorem RoundProof.ends (proof : RoundProof fl env options post)
    (hanswer : ∀ w e, ∃ r w', env w e r w') {w : W} (h : proof.top 0 w) :
    Proc.Ends env post w (withRetry fl options) := by
  unfold withRetry Async.iterate Proc.iterate
  refine Proc.ends_loop proof.top post (fun k => options.attempts + 1 - k) ?_
    (fun r w hpost => Proc.ends_pure hpost) h
  intro k w htop
  have hround : Proc.Ends env (fun r w' => proof.After k (Async.leave r) w') w
      (readRound fl options k) := by
    refine Proc.ends_call (hanswer w _) fun r w hcheck => ?_
    cases r with
    | error reason => exact Proc.ends_pure (proof.cancelled htop hcheck)
    | ok _ =>
      have hchecked := proof.check htop hcheck
      refine Proc.ends_call (hanswer w _) fun r w hread => ?_
      cases r with
      | ok a => exact Proc.ends_pure (proof.succeed hchecked hread)
      | error e => exact proof.ends_retryRound hanswer (proof.fail hchecked hread)
  refine Proc.ends_bind hround fun r w hafter => Proc.ends_pure ?_
  cases hleave : Async.leave r with
  | inl k' =>
    rw [hleave] at hafter
    obtain ⟨htop', rfl, hleft⟩ := hafter
    exact ⟨htop', by omega⟩
  | inr r' =>
    rw [hleave] at hafter
    exact hafter

end Rule

/-! ## Without an abort -/

/-- The calls that are specified: reads, and what is between them. -/
def RetryEffect.isMark : RetryEffect → Bool
  | .read | .onRetry _ | .sleep _ => true
  | _ => false

def RetryEffect.isRead : RetryEffect → Bool
  | .read => true
  | _ => false

section Calls

variable {ε α : Type}

/-- The reads, `onRetry`s and sleeps, in their order. -/
def marks (l : Calls ε α) : List RetryEffect := (l.map Sigma.fst).filter RetryEffect.isMark

/-- The number of reads. -/
def reads (l : Calls ε α) : ℕ := (l.map Sigma.fst).countP RetryEffect.isRead

@[simp] theorem marks_concat (l : Calls ε α) (e : RetryEffect) (r : RetryReply ε α e) :
    marks (l ++ [⟨e, r⟩]) = marks l ++ if e.isMark then [e] else [] := by
  unfold marks
  rw [List.map_append, List.filter_append, List.map_singleton, List.filter_singleton]
  cases e.isMark <;> rfl

@[simp] theorem reads_concat (l : Calls ε α) (e : RetryEffect) (r : RetryReply ε α e) :
    reads (l ++ [⟨e, r⟩]) = reads l + if e.isRead then 1 else 0 := by
  unfold reads
  rw [List.map_append, List.countP_append, List.map_singleton, List.countP_singleton]

/-- Nothing marked has been called. -/
structure Unmarked (l l' : Calls ε α) : Prop where
  reads : reads l' = reads l
  marks : marks l' = marks l

theorem Unmarked.refl (l : Calls ε α) : Unmarked l l := ⟨rfl, rfl⟩

theorem Unmarked.trans {l l' l'' : Calls ε α} (h : Unmarked l l') (h' : Unmarked l' l'') :
    Unmarked l l'' := ⟨h'.reads.trans h.reads, h'.marks.trans h.marks⟩

theorem Unmarked.concat (l : Calls ε α) {e : RetryEffect} {r : RetryReply ε α e}
    (he : e.isMark = false) : Unmarked l (l ++ [⟨e, r⟩]) := by
  constructor
  · have hread : e.isRead = false := by
      cases e with
      | read => cases he
      | _ => rfl
    rw [reads_concat, hread]
    rfl
  · rw [marks_concat, he]
    exact List.append_nil _

end Calls

/-- Everything a call meets: its options, the header it keeps with an error, the reads it will make,
    and what the random source and the clock say after `n` of them. -/
structure Scenario (ε α : Type) where
  fl : JsNumber.Rounding
  /-- `Date.parse`; `none` is `NaN` -/
  parseDate : String → Option Date
  options : RetrySourceReadOptions ε α
  header : ε → Option String
  outcomes : ℕ → Except ε α
  randoms : ℕ → Set.Ico (0 : ℚ) 1
  clock : ℕ → Date

namespace Scenario

variable {ε α : Type} (s : Scenario ε α)

/-- The options, with the callback that reads the header. -/
def honouring : RetrySourceReadOptions ε α :=
  { s.options with retryAfterMs := fun error => parseRetryAfter s.fl s.parseDate (s.header error) }

/-- The replies, and the signal never aborts. -/
def answer (l : Calls ε α) : (e : RetryEffect) → RetryReply ε α e
  | .throwIfAborted => .ok ()
  | .read => s.outcomes (reads l)
  | .random => (s.randoms (reads l)).1
  | .now => s.clock (reads l)
  | .onRetry _ => ()
  | .sleep _ => .ok ()

def answering : Env (Calls ε α) RetryEffect (RetryReply ε α) := fun l e r l' =>
  r = s.answer l e ∧ l' = l ++ [⟨e, r⟩]

/-- An outcome there is no further read after. -/
def Stops : Except ε α → Prop
  | .ok _ => True
  | .error e => isRetryable (s.options.classify e) = false

/-- The backoff after the failed read `k`, counted from zero. -/
def backoffAt (k : ℕ) : JsNumber := fullJitterDelay s.fl k (s.randoms (k + 1)).1

/-- The delay after it. -/
def delayAt (k : ℕ) (e : ε) : JsNumber :=
  if (s.options.classify e).kind ≠ .rateLimited then s.backoffAt k
  else cappedDelay (s.backoffAt k)
    (retryAfterNumber s.fl s.parseDate (s.header e) (s.clock (k + 1)))

/-- A read, and the pause after it. -/
def roundMarks (k : ℕ) : List RetryEffect :=
  match s.outcomes k with
  | .ok _ => [.read]
  | .error e =>
    [.read, .onRetry (buildRetryEvent s.options k e (s.delayAt k e)), .sleep (s.delayAt k e)]

/-- A delay as it should be: a number up to the cap, and after a rate limit the backoff or what the
    header says, whichever is more. -/
def DelayRight (k : ℕ) (e : ε) : Prop :=
  ∃ q, s.delayAt k e = .finite q ∧ 0 ≤ q ∧ q ≤ 30000 ∧
    ((s.options.classify e).kind = .rateLimited →
      ∃ b, s.backoffAt k = .finite b ∧
        q = min (max b (retryAfterDelay s.parseDate (s.header e) (s.clock (k + 1)))) 30000)

/-- **The specification**, of a call that has come to `r`.  The last read is number `k`, counted from
    zero. -/
structure Meets (r : Except ε α) (l : Calls ε α) (k : ℕ) : Prop where
  /-- the first success, the first permanent failure, or the last try, whichever is first -/
  last : IsLeast {i | s.Stops (s.outcomes i) ∨ i = s.options.attempts} k
  count : reads l = k + 1
  result : r = s.outcomes k
  /-- `onRetry` and the sleep before each further read -/
  order : marks l = (List.range k).flatMap s.roundMarks ++ [.read]
  delays : ∀ i < k, ∃ e, s.outcomes i = .error e ∧ s.DelayRight i e

/-- **Every delay is right.** -/
theorem delayRight (k : ℕ) (e : ε) : s.DelayRight k e := by
  obtain ⟨b, hb, hlo, hhi⟩ := fullJitterDelay_between s.fl k (s.randoms (k + 1)).2
  have hbackoff : s.backoffAt k = .finite b := hb
  unfold DelayRight delayAt
  rw [hbackoff]
  split
  · rename_i hkind
    exact ⟨b, rfl, hlo, hhi, fun hrate => absurd hrate hkind⟩
  · refine ⟨_, cappedDelay_retryAfter s.fl s.parseDate b (s.header e) _, ?_, min_le_right _ _, ?_⟩
    · exact le_min (hlo.trans (le_max_left _ _)) (by norm_num)
    · exact fun _ => ⟨b, rfl, rfl⟩

theorem exists_answer (l : Calls ε α) (e : RetryEffect) : ∃ r l', s.answering l e r l' :=
  ⟨_, _, rfl, rfl⟩

/-- The header is read as it says. -/
theorem ends_parseRetryAfter {value : Option String} {k : ℕ} {l : Calls ε α}
    (hreads : reads l = k + 1) :
    Proc.Ends s.answering
      (fun retryAfter l' =>
        retryAfter = retryAfterNumber s.fl s.parseDate value (s.clock (k + 1)) ∧ Unmarked l l') l
      (parseRetryAfter s.fl s.parseDate value) := by
  unfold parseRetryAfter retryAfterNumber
  split
  · exact Proc.ends_pure ⟨rfl, .refl l⟩
  · split
    · exact Proc.ends_pure ⟨rfl, .refl l⟩
    · split
      · exact Proc.ends_pure ⟨rfl, .refl l⟩
      · refine Proc.ends_call (s.exists_answer _ _) ?_
        rintro now l' ⟨rfl, rfl⟩
        refine Proc.ends_pure ⟨?_, .concat l rfl⟩
        show some (JsNumber.max _ (JsNumber.sub s.fl _ (.finite (s.clock (reads l))))) = _
        rw [hreads]

/-- The program of the delay computes the delay. -/
theorem ends_resolveDelay {k : ℕ} {e : ε} {l : Calls ε α} (hreads : reads l = k + 1) :
    Proc.Ends s.answering (fun d l' => d = s.delayAt k e ∧ Unmarked l l') l
      (resolveDelay s.fl s.honouring k e) := by
  refine Proc.ends_call (s.exists_answer l _) ?_
  rintro random l' ⟨rfl, rfl⟩
  have hrandom : Unmarked l (l ++ [⟨.random, s.answer l .random⟩]) := .concat l rfl
  have hbackoff : fullJitterDelay s.fl k (s.randoms (reads l)).1 = s.backoffAt k := by
    rw [hreads]
    rfl
  unfold delayAt
  show Proc.Ends _ _ _ (if (s.options.classify e).kind ≠ .rateLimited then
    .pure (fullJitterDelay s.fl k (s.randoms (reads l)).1) else _)
  rw [hbackoff]
  split
  · exact Proc.ends_pure ⟨rfl, hrandom⟩
  · refine Proc.ends_bind (s.ends_parseRetryAfter (hrandom.reads.trans hreads)) ?_
    rintro retryAfter l' ⟨rfl, hmore⟩
    refine Proc.ends_pure ⟨?_, hrandom.trans hmore⟩
    show cappedDelay (fullJitterDelay s.fl k (s.randoms (reads l)).1) _ = _
    rw [hbackoff]

/-- The first `k` reads have failed, and each has been told and slept after. -/
structure Failed (k : ℕ) : Prop where
  left : k ≤ s.options.attempts
  failed : ∀ i < k, ¬ s.Stops (s.outcomes i)

/-- What they have left. -/
structure Marked (k : ℕ) (l : Calls ε α) (more : List RetryEffect) : Prop extends s.Failed k where
  marks : marks l = (List.range k).flatMap s.roundMarks ++ more

theorem Marked.unmarked {k : ℕ} {l l' : Calls ε α} {more : List RetryEffect}
    (h : s.Marked k l more) (h' : Unmarked l l') : s.Marked k l' more :=
  ⟨h.toFailed, h'.marks.trans h.marks⟩

variable {s}

/-- A read that is the last one. -/
theorem meets_last {k : ℕ} {l : Calls ε α} (h : s.Marked k l [.read]) (hreads : reads l = k + 1)
    (hlast : s.Stops (s.outcomes k) ∨ s.options.attempts ≤ k) : s.Meets (s.outcomes k) l k := by
  refine ⟨⟨hlast.imp_right fun hused => le_antisymm h.left hused, fun i hi => ?_⟩, hreads, rfl,
    h.marks, fun i hi => ?_⟩
  · by_contra hlt
    rcases hi with hstops | rfl
    · exact h.failed i (Nat.lt_of_not_le hlt) hstops
    · exact hlt h.left
  · cases houtcome : s.outcomes i with
    | ok a => exact absurd (by rw [houtcome]; trivial) (h.failed i hi)
    | error e => exact ⟨e, rfl, s.delayRight i e⟩

variable (s)

/-- A failed read that is not the last one, and its delay. -/
structure Pausing (k : ℕ) (e : ε) (d : JsNumber) (l : Calls ε α) (more : List RetryEffect) :
    Prop where
  marked : s.Marked k l more
  reads : reads l = k + 1
  outcome : s.outcomes k = .error e
  delay : d = s.delayAt k e
  retryable : isRetryable (s.options.classify e) = true
  left : k < s.options.attempts

theorem Pausing.unmarked {k : ℕ} {e : ε} {d : JsNumber} {l l' : Calls ε α}
    {more : List RetryEffect} (h : s.Pausing k e d l more) (h' : Unmarked l l') :
    s.Pausing k e d l' more :=
  { h with marked := h.marked.unmarked s h', reads := h'.reads.trans h.reads }

/-- After the sleep the next round begins. -/
theorem Pausing.next {k : ℕ} {e : ε} {d : JsNumber} {l : Calls ε α}
    (h : s.Pausing k e d l [.read, .onRetry (buildRetryEvent s.options k e d)]) :
    s.Marked (k + 1) (l ++ [⟨.sleep d, .ok ()⟩]) [] := by
  refine ⟨⟨h.left, fun i hi => ?_⟩, ?_⟩
  · rcases Nat.lt_succ_iff_lt_or_eq.1 hi with hlt | rfl
    · exact h.marked.failed i hlt
    · rw [h.outcome]
      intro hstops
      exact Bool.false_ne_true (hstops.symm.trans h.retryable)
  · rw [marks_concat, h.marked.marks, List.range_succ, List.flatMap_append, List.flatMap_singleton]
    unfold roundMarks
    rw [h.outcome, h.delay, List.append_assoc, List.append_nil]
    rfl

/-- The proof of the specification. -/
def proof : RoundProof s.fl s.answering s.honouring (fun r l => ∃ k, s.Meets r l k) where
  top k l := s.Marked k l [] ∧ reads l = k
  checked k l := s.Marked k l [] ∧ reads l = k
  failed k e l := s.Marked k l [.read] ∧ reads l = k + 1 ∧ s.outcomes k = .error e
  delayed k e d l := s.Pausing k e d l [.read]
  told k d l := ∃ e, s.Pausing k e d l [.read, .onRetry (buildRetryEvent s.options k e d)]
  resting k d l := ∃ e, s.Pausing k e d l [.read, .onRetry (buildRetryEvent s.options k e d)]
  cancelled _ hcheck := absurd hcheck.1 (by simp [answer])
  check := by
    rintro k l l' ⟨hmarked, hreads⟩ ⟨-, rfl⟩
    have hsame : Unmarked l (l ++ [⟨.throwIfAborted, .ok ()⟩]) := .concat l rfl
    exact ⟨hmarked.unmarked s hsame, hsame.reads.trans hreads⟩
  succeed := by
    rintro k l a l' ⟨hmarked, rfl⟩ ⟨houtcome, rfl⟩
    have houtcome' : .ok a = s.outcomes (reads l) := houtcome
    have hread : s.Marked (reads l) (l ++ [⟨.read, .ok a⟩]) [.read] :=
      ⟨hmarked.toFailed, by rw [marks_concat, hmarked.marks, List.append_nil]; rfl⟩
    have hmeets := meets_last hread (reads_concat ..) (Or.inl (by rw [← houtcome']; trivial))
    rw [← houtcome'] at hmeets
    exact ⟨_, hmeets⟩
  fail := by
    rintro k l e l' ⟨hmarked, rfl⟩ ⟨houtcome, rfl⟩
    exact ⟨⟨hmarked.toFailed, by rw [marks_concat, hmarked.marks, List.append_nil]; rfl⟩,
      reads_concat .., houtcome.symm⟩
  giveUp := by
    rintro k e l ⟨hmarked, hreads, houtcome⟩ hlast
    refine ⟨k, ?_⟩
    rw [← houtcome]
    refine meets_last hmarked hreads (hlast.imp_left fun hpermanent => ?_)
    rw [houtcome]
    exact hpermanent
  delay := by
    rintro k e l ⟨hmarked, hreads, houtcome⟩ hretryable hleft
    refine (s.ends_resolveDelay hreads).imp ?_
    rintro d l' ⟨hd, hsame⟩
    exact ⟨hmarked.unmarked s hsame, hsame.reads.trans hreads, houtcome, hd, hretryable, hleft⟩
  tell := by
    rintro k e d l l' h ⟨-, rfl⟩
    refine ⟨e, { h with marked := ⟨h.marked.toFailed, ?_⟩, reads := ?_ }⟩
    · rw [marks_concat, h.marked.marks, List.append_assoc]
      rfl
    · rw [reads_concat, h.reads]
      rfl
  cancelledTold _ hcheck := absurd hcheck.1 (by simp [answer])
  recheck := by
    rintro k d l l' ⟨e, h⟩ ⟨-, rfl⟩
    exact ⟨e, h.unmarked s (.concat l rfl)⟩
  cancelledSleep _ hsleep := absurd hsleep.1 (by simp [answer])
  wake := by
    rintro k d l l' ⟨e, h⟩ ⟨-, rfl⟩
    refine ⟨h.next s, ?_⟩
    rw [reads_concat, h.reads]
    rfl

/-- **Without an abort** the call comes to an end, and as specified. -/
theorem ends_meets :
    Proc.Ends s.answering (fun r l => ∃ k, s.Meets r l k) [] (withRetry s.fl s.honouring) :=
  s.proof.ends s.exists_answer ⟨⟨⟨Nat.zero_le _, fun _ hi => absurd hi (Nat.not_lt_zero _)⟩, rfl⟩, rfl⟩

end Scenario

/-! ## After an abort -/

section Aborted

variable {ε α : Type}

/-- The signal has been let through. -/
def LetThrough (l : Calls ε α) : Prop := ∃ before, l = before ++ [⟨.throwIfAborted, .ok ()⟩]

/-- Right before every read the signal has been let through. -/
def Guarded (l : Calls ε α) : Prop :=
  ∀ before r after, l = before ++ ⟨.read, r⟩ :: after → LetThrough before

theorem guarded_concat {l : Calls ε α} {e : RetryEffect} {r : RetryReply ε α e} (h : Guarded l)
    (hread : e = .read → LetThrough l) : Guarded (l ++ [⟨e, r⟩]) := by
  intro before r' after hsplit
  rcases List.eq_nil_or_concat after with rfl | ⟨after, x, rfl⟩
  · obtain ⟨rfl, hlast⟩ := List.append_inj' hsplit rfl
    cases hlast
    exact hread rfl
  · rw [List.concat_eq_append] at hsplit
    refine h before r' after ?_
    have hsplit' : l ++ [⟨e, r⟩] = (before ++ ⟨.read, r'⟩ :: after) ++ [x] := by
      rw [hsplit, List.append_assoc]
      rfl
    exact (List.append_inj' hsplit' rfl).1

theorem Guarded.of_append {l more : Calls ε α} (h : Guarded (l ++ more)) : Guarded l := by
  intro before r after hsplit
  refine h before r (after ++ more) ?_
  rw [hsplit, List.append_assoc]
  rfl

/-- From here on the signal is aborted. -/
def Aborted (l : Calls ε α) : Prop := ∀ r, ⟨.throwIfAborted, r⟩ ∈ l → ∃ e, r = .error e

/-- No read starts but, maybe, the one in flight. -/
theorem Guarded.no_read {l l₁ l₂ : Calls ε α} (h : Guarded l) (hl : l = l₁ ++ l₂)
    (habort : Aborted l₂) (r : RetryReply ε α .read) : ⟨.read, r⟩ ∉ l₂.tail := by
  intro hmem
  cases l₂ with
  | nil => exact absurd hmem List.not_mem_nil
  | cons x rest =>
    obtain ⟨before, after, rfl⟩ := List.append_of_mem hmem
    have hsplit : l = (l₁ ++ x :: before) ++ ⟨.read, r⟩ :: after := by
      rw [hl, List.append_assoc]
      rfl
    obtain ⟨earlier, hlet⟩ := h _ r after hsplit
    -- the check before it is among what comes after the abort
    have hlast : (x :: before).getLast (List.cons_ne_nil _ _) = ⟨.throwIfAborted, .ok ()⟩ := by
      have hwhole := congrArg List.getLast? hlet
      rw [List.getLast?_append_of_ne_nil _ (List.cons_ne_nil _ _), List.getLast?_concat,
        List.getLast?_eq_some_getLast (List.cons_ne_nil _ _)] at hwhole
      exact Option.some.inj hwhole
    have hcheck : ⟨.throwIfAborted, .ok ()⟩ ∈ x :: (before ++ ⟨.read, r⟩ :: after) := by
      have hin := List.getLast_mem (List.cons_ne_nil x before)
      rw [hlast] at hin
      exact List.mem_append_left _ hin
    obtain ⟨e, he⟩ := habort _ hcheck
    cases he

/-- What a settled call has come to, as far as the signal goes. -/
def Settled (r : Except ε α) (l : Calls ε α) : Prop :=
  Guarded l ∧ ∀ a, r = .ok a → ∃ before, LetThrough before ∧ l = before ++ [⟨.read, .ok a⟩]

/-- A call that was cut off while it was under way rejects, or the read in flight succeeds. -/
theorem Settled.aborted {r : Except ε α} {l l₁ l₂ : Calls ε α} (h : Settled r l)
    (hl : l = l₁ ++ l₂) (hnot : l₂ ≠ []) (habort : Aborted l₂) :
    (∃ e, r = .error e) ∨ ∃ a, r = .ok a ∧ l₂ = [⟨.read, .ok a⟩] := by
  cases r with
  | error e => exact Or.inl ⟨e, rfl⟩
  | ok a =>
    obtain ⟨before, ⟨earlier, rfl⟩, hread⟩ := h.2 a rfl
    refine Or.inr ⟨a, rfl, ?_⟩
    rcases List.eq_nil_or_concat l₂ with rfl | ⟨rest, x, rfl⟩
    · exact absurd rfl hnot
    · rw [List.concat_eq_append] at hl habort ⊢
      rw [hread, ← List.append_assoc] at hl
      obtain ⟨hbefore, hlast⟩ := List.append_inj' hl rfl
      cases hlast
      rcases List.eq_nil_or_concat rest with rfl | ⟨rest, y, rfl⟩
      · rfl
      · -- the check before the read comes after the abort
        rw [List.concat_eq_append] at hbefore habort
        rw [← List.append_assoc] at hbefore
        obtain ⟨-, hcheck⟩ := List.append_inj' hbefore rfl
        cases hcheck
        obtain ⟨e, he⟩ := habort (.ok ()) (by simp)
        cases he

end Aborted

namespace Scenario

variable {ε α : Type} (s : Scenario ε α)

/-- Anything may be answered, and something is. -/
theorem exists_free (s : Scenario ε α) (l : Calls ε α) (e : RetryEffect) :
    ∃ r l', Env.free l e r l' :=
  ⟨s.answer l e, _, rfl⟩

/-- The delay asks for no read. -/
theorem guarded_resolveDelay {k : ℕ} {e : ε} {l : Calls ε α} (h : Guarded l) :
    Proc.Ends Env.free (fun _ l' => Guarded l') l (resolveDelay s.fl s.honouring k e) := by
  have hparse : ∀ l : Calls ε α, Guarded l → Proc.Ends Env.free (fun _ l' => Guarded l') l
      (parseRetryAfter s.fl s.parseDate (s.header e)) := by
    intro l h
    unfold parseRetryAfter
    split
    · exact Proc.ends_pure h
    · split
      · exact Proc.ends_pure h
      · split
        · exact Proc.ends_pure h
        · refine Proc.ends_call (s.exists_free l _) ?_
          rintro now l' rfl
          exact Proc.ends_pure (guarded_concat h nofun)
  refine Proc.ends_call (s.exists_free l _) ?_
  rintro random l' rfl
  have hrandom : Guarded (l ++ [⟨.random, random⟩]) := guarded_concat h nofun
  split
  · exact Proc.ends_pure hrandom
  · exact Proc.ends_bind (hparse _ hrandom) fun _ _ h => Proc.ends_pure h

/-- The proof about the signal, whatever is answered. -/
def signalProof : RoundProof s.fl Env.free s.honouring Settled where
  top _ l := Guarded l
  checked _ l := Guarded l ∧ LetThrough l
  failed _ _ l := Guarded l
  delayed _ _ _ l := Guarded l
  told _ _ l := Guarded l
  resting _ _ l := Guarded l
  cancelled := by
    rintro _ l e _ h rfl
    exact ⟨guarded_concat h nofun, nofun⟩
  check := by
    rintro _ l _ h rfl
    exact ⟨guarded_concat h nofun, l, rfl⟩
  succeed := by
    rintro _ l a _ ⟨h, hlet⟩ rfl
    refine ⟨guarded_concat h fun _ => hlet, ?_⟩
    rintro a' ⟨rfl⟩
    exact ⟨l, hlet, rfl⟩
  fail := by
    rintro _ l e _ ⟨h, hlet⟩ rfl
    exact guarded_concat h fun _ => hlet
  giveUp h _ := ⟨h, nofun⟩
  delay h _ _ := s.guarded_resolveDelay h
  tell := by
    rintro _ _ _ l _ h rfl
    exact guarded_concat h nofun
  cancelledTold := by
    rintro _ _ l e _ h rfl
    exact ⟨guarded_concat h nofun, nofun⟩
  recheck := by
    rintro _ _ l _ h rfl
    exact guarded_concat h nofun
  cancelledSleep := by
    rintro _ _ l e _ h rfl
    exact ⟨guarded_concat h nofun, nofun⟩
  wake := by
    rintro _ _ l _ h rfl
    exact guarded_concat h nofun

theorem ends_settled : Proc.Ends Env.free Settled [] (withRetry s.fl s.honouring) := by
  refine s.signalProof.ends s.exists_free ?_
  intro before r after hsplit
  exact absurd hsplit.symm (List.append_ne_nil_of_right_ne_nil _ (List.cons_ne_nil _ _))

/-- However far a call has got, its reads are guarded. -/
theorem guarded_runs {l : Calls ε α} {q : Proc RetryEffect (RetryReply ε α) (Except ε α)}
    (h : (Proc.lts Env.free _).Runs Lts.Alone [] (withRetry s.fl s.honouring) l q) :
    Guarded l := by
  -- it will settle
  obtain ⟨l', q', r, hrun, hresult, hsettled⟩ := (s.ends_settled.runs h).exists_run
  rw [Proc.result_eq_some.1 hresult] at hrun
  obtain ⟨more, rfl, -⟩ := Proc.emits_of_runs hrun
  exact hsettled.1.of_append

/-- **`withRetry` meets its specification.**  Without an abort it settles as specified, whatever the
    reads come to, the headers say and the random source yields.  And whatever it is answered: once
    the signal is aborted no further read starts; and the call settles, with a rejection unless the
    read in flight succeeds. -/
theorem withRetry_spec :
    Proc.Ends s.answering (fun r l => ∃ k, s.Meets r l k) [] (withRetry s.fl s.honouring) ∧
    (∀ l q, (Proc.lts Env.free _).Runs Lts.Alone [] (withRetry s.fl s.honouring) l q →
      ∀ l₁ l₂, l = l₁ ++ l₂ → Aborted l₂ → ∀ r, ⟨.read, r⟩ ∉ l₂.tail) ∧
    Proc.Ends Env.free (fun r l => ∀ l₁ l₂, l = l₁ ++ l₂ → l₂ ≠ [] → Aborted l₂ →
      (∃ e, r = .error e) ∨ ∃ a, r = .ok a ∧ l₂ = [⟨.read, .ok a⟩]) []
      (withRetry s.fl s.honouring) := by
  refine ⟨s.ends_meets, fun l q h l₁ l₂ hl habort r => ?_, ?_⟩
  · exact (s.guarded_runs h).no_read hl habort r
  · exact s.ends_settled.imp fun r l h l₁ l₂ hl hnot habort => h.aborted hl hnot habort

end Scenario

/-! ## The loop of the clients -/

section Clients

variable {α : Type} (codec : Codec) (header : ReadError → Option String)

/-- Whole milliseconds. -/
def toMs : JsNumber → ℕ
  | .finite q => ⌊q⌋.toNat
  | _ => 0

@[simp] theorem toMs_intCast (n : ℤ) : toMs (.finite n) = n.toNat := by
  show ⌊(n : ℚ)⌋.toNat = n.toNat
  rw [Int.floor_intCast]

/-- How a client answers: nobody listens to its retries. -/
def answerWith (read : Read ReadError α) :
    (e : RetryEffect) → Proc TransportEffect TransportReply (RetryReply ReadError α e)
  | .throwIfAborted => ReplaysFetcher.throwIfAborted
  | .read => read
  | .random => Proc.perform TransportEffect.random
  | .now => Proc.perform TransportEffect.now
  | .onRetry _ => .pure ()
  | .sleep delayMs => request (.sleep (toMs delayMs)) rfl

/-- The callback of a client that keeps a header with its errors. -/
def readHeader (error : ReadError) : Proc TransportEffect TransportReply (Option ℕ) :=
  match header error with
  | none => .pure none
  | some value => ReplaysFetcher.parseRetryAfter codec value

theorem readHeader_direct : readHeader codec ReadError.retryAfter? = directRetryAfter codec := rfl

theorem readHeader_none : readHeader codec (fun _ => none) = fun _ => .pure none := rfl

/-- The same options here. -/
def wired (options : ReplaysFetcher.RetrySourceReadOptions α) (page : Option ℕ)
    (phase : SourceReadPhase) : RetrySourceReadOptions ReadError α where
  attempts := options.attempts
  classify := options.classify
  page := page
  phase := phase
  retryAfterMs error := parseRetryAfter .exact codec.parseDate (header error)

/-- A backoff without rounding is the one in whole milliseconds. -/
theorem fullJitterDelay_exact (round : ℕ) (random : ℚ) :
    ∃ n : ℤ, fullJitterDelay .exact round random = .finite n ∧
      ReplaysFetcher.fullJitterDelay round random = n.toNat := by
  refine ⟨⌊random * min (500 * 2 ^ round) 30000⌋, ?_, rfl⟩
  unfold fullJitterDelay
  dsimp only
  rw [capped_exponential]
  rfl

theorem toMs_cappedDelay (b q : ℤ) :
    toMs (cappedDelay (.finite b) (some (.finite q))) = min (max b.toNat q.toNat) 30000 := by
  rw [cappedDelay_finite]
  have hcast : min (max (b : ℚ) q) 30000 = ((min (max b q) 30000 : ℤ) : ℚ) := by push_cast; rfl
  rw [hcast, toMs_intCast]
  omega

variable {codec header} {read : Read ReadError α} {options : ReplaysFetcher.RetrySourceReadOptions α}
  {page : Option ℕ} {phase : SourceReadPhase}

/-- Without rounding a header is read in whole milliseconds. -/
theorem handle_parseRetryAfter (error : ReadError) :
    Proc.handle (answerWith read)
        (parseRetryAfter .exact codec.parseDate (header error) :
          Proc RetryEffect (RetryReply ReadError α) (Option JsNumber)) =
      (readHeader codec header error).bind fun retryAfter =>
        .pure (retryAfter.map fun n => .finite n) := by
  unfold parseRetryAfter readHeader ReplaysFetcher.parseRetryAfter
  cases header error with
  | none => rfl
  | some value =>
    dsimp only
    cases digitsValue (trimJs value) with
    | some seconds =>
      show Proc.pure (some (JsNumber.finite ((seconds : ℚ) * 1000))) = Proc.pure _
      rw [Option.map_some]
      push_cast
      rfl
    | none =>
      dsimp only
      cases codec.parseDate (trimJs value) with
      | none => rfl
      | some dateMs =>
        refine congrArg (Proc.call TransportEffect.now) (funext fun now => ?_)
        show Proc.pure (some (JsNumber.max (.finite 0) (.finite ((dateMs : ℚ) - now)))) =
          Proc.pure (some (.finite (((dateMs - now).toNat : ℕ) : ℚ)))
        rw [JsNumber.max_finite]
        have hcast : max (0 : ℚ) ((dateMs : ℚ) - now) = (((dateMs - now).toNat : ℕ) : ℚ) := by
          rw [max_comm]
          exact_mod_cast (Int.toNat_eq_max (dateMs - now)).symm
        rw [hcast]

/-- The delays are the same. -/
theorem handle_resolveDelay (hcallback : options.retryAfterMs = readHeader codec header)
    (round : ℕ) (error : ReadError) :
    (Proc.handle (answerWith read)
        (resolveDelay .exact (wired codec header options page phase) round error)).bind
      (fun d => .pure (toMs d)) = ReplaysFetcher.resolveDelay options error round := by
  refine congrArg (Proc.call TransportEffect.random) (funext fun random => ?_)
  obtain ⟨b, hbackoff, hwhole⟩ := fullJitterDelay_exact round random
  show (Proc.handle (answerWith read) (if (options.classify error).kind ≠ .rateLimited then
      .pure (fullJitterDelay .exact round random)
    else (parseRetryAfter .exact codec.parseDate (header error)).bind fun retryAfter =>
      .pure (cappedDelay (fullJitterDelay .exact round random) retryAfter))).bind
    (fun d => .pure (toMs d)) = _
  rw [hwhole, hbackoff, hcallback]
  by_cases hkind : (options.classify error).kind = .rateLimited
  · rw [if_neg (not_not.2 hkind), if_pos hkind, Proc.handle_bind, handle_parseRetryAfter,
      Proc.bind_assoc', Proc.bind_assoc']
    refine congrArg _ (funext fun retryAfter => ?_)
    cases retryAfter with
    | none =>
      show Proc.pure (toMs (cappedDelay (.finite b) (some (.finite ((0 : ℤ) : ℚ))))) = _
      rw [toMs_cappedDelay]
      rfl
    | some n =>
      show Proc.pure (toMs (cappedDelay (.finite b) (some (.finite ((n : ℤ) : ℚ))))) = _
      rw [toMs_cappedDelay]
      rfl
  · rw [if_pos hkind, if_neg hkind]
    show Proc.pure (toMs (.finite b)) = _
    rw [toMs_intCast]

/-- What comes after a failed read is the same. -/
theorem handle_retryRound (hcallback : options.retryAfterMs = readHeader codec header) (round : ℕ)
    (error : ReadError) :
    Proc.handle (answerWith options.read)
        (retryRound .exact (wired codec header options page phase) round error) =
      ReplaysFetcher.retryRound options round error := by
  unfold retryRound ReplaysFetcher.retryRound
  show Proc.handle _ (if (!isRetryable (options.classify error) || round ≥ options.attempts) = true
    then _ else _) = _
  split
  · rfl
  · rw [Async.lift_bind_eq, Async.lift_bind_eq, Proc.handle_bind,
      ← handle_resolveDelay hcallback round error, Proc.bind_assoc']
    -- the rest sees the delay in whole milliseconds
    refine congrArg _ (funext fun delayMs => ?_)
    refine congrArg (Proc.call TransportEffect.throwIfAborted) (funext fun r => ?_)
    cases r with
    | error reason => rfl
    | ok _ =>
      refine congrArg (Proc.call (TransportEffect.sleep (toMs delayMs))) (funext fun r => ?_)
      cases r with
      | error reason => rfl
      | ok _ => rfl

/-- The rounds are the same. -/
theorem handle_readRound (hcallback : options.retryAfterMs = readHeader codec header) (round : ℕ) :
    Proc.handle (answerWith options.read)
        (readRound .exact (wired codec header options page phase) round) =
      ReplaysFetcher.readRound options round := by
  refine congrArg (Proc.bind ReplaysFetcher.throwIfAborted) (funext fun r => ?_)
  cases r with
  | error reason => rfl
  | ok _ =>
    show Proc.bind options.read _ = Proc.bind
      (Proc.bind options.read (Async.onOk fun value => pure (Sum.inr value)))
      (Async.onError (ReplaysFetcher.retryRound options round))
    rw [Proc.bind_assoc']
    refine congrArg _ (funext fun r => ?_)
    cases r with
    | ok value => rfl
    | error error => exact handle_retryRound hcallback round error

/-- **The loop of the clients is this one**, for either client and either transport. -/
theorem handle_withRetry (hcallback : options.retryAfterMs = readHeader codec header) :
    Proc.handle (answerWith options.read)
        (withRetry .exact (wired codec header options page phase)) =
      ReplaysFetcher.withRetry options := by
  show Proc.loop (fun round => Proc.handle (answerWith options.read)
    (Proc.bind (readRound .exact (wired codec header options page phase) round) _)) 0 _ = _
  simp only [Proc.handle_bind, handle_readRound hcallback]
  rfl

end Clients

end ReplaysFetcher.RetryLoop
