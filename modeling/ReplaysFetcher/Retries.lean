/-
  What a client ends with.

  `withRetry` reads again and again, so a property of a client seems to be one of every round.  It is
  one of the LAST read: unless the caller aborts, a client resolves or rejects with what its last
  read gave, and it has given up only on an error that is not retryable, or when its tries were used
  up (`safe_withRetry`).  A claim about a client is then a claim about one reply to one request.
-/
import ReplaysFetcher.Transport
import ReplaysFetcher.Effectful.Reach

namespace ReplaysFetcher

open Effectful

/-! ## What a client was told -/

/-- A request to the source itself. -/
def isRead : TransportEffect → Bool
  | .fetch _ | .execFile _ _ => true
  | _ => false

/-- The reads of a conversation, with their replies. -/
def reads (exchanges : Exchanges) : Exchanges := exchanges.filter fun x => isRead x.1

/-- The caller aborted here. -/
def isAbort : (Σ e : TransportEffect, TransportReply e) → Bool
  | ⟨.throwIfAborted, .error _⟩ => true
  | ⟨.sleep _, .error _⟩ => true
  | _ => false

def NotAborted (exchanges : Exchanges) : Prop := ∀ x ∈ exchanges, isAbort x = false

/-- Nothing was read and nothing aborted. -/
def Uneventful (l l' : Exchanges) : Prop :=
  reads l' = reads l ∧ (NotAborted l' ↔ NotAborted l)

theorem Uneventful.refl (l : Exchanges) : Uneventful l l := ⟨rfl, Iff.rfl⟩

theorem notAborted_append {l : Exchanges} {x : Σ e : TransportEffect, TransportReply e} :
    NotAborted (l ++ [x]) ↔ NotAborted l ∧ isAbort x = false := by
  constructor
  · intro h
    exact ⟨fun y hy => h y (List.mem_append_left _ hy),
      h x (List.mem_append_right _ (List.mem_singleton_self x))⟩
  · rintro ⟨h, hx⟩ y hy
    rcases List.mem_append.1 hy with hy | hy
    · exact h y hy
    · rw [List.mem_singleton.1 hy]
      exact hx

theorem reads_append (l : Exchanges) (x : Σ e : TransportEffect, TransportReply e) :
    reads (l ++ [x]) = reads l ++ if isRead x.1 then [x] else [] := by
  unfold reads
  rw [List.filter_append]
  cases h : isRead x.1 <;> simp [h]

/-- One exchange that is neither a read nor an abort. -/
theorem uneventful_append {l : Exchanges} {x : Σ e : TransportEffect, TransportReply e}
    (hread : isRead x.1 = false) (habort : isAbort x = false) : Uneventful l (l ++ [x]) := by
  refine ⟨?_, ?_⟩
  · rw [reads_append, hread]
    exact List.append_nil _
  · rw [notAborted_append, habort]
    exact and_iff_left rfl

/-! ## The retry loop -/

section Retry

variable {α : Type} {options : RetrySourceReadOptions α} {e : TransportEffect}
  {answer : TransportReply e → Except ReadError α} {l : Exchanges}

/-- The read is the one request `e`, and what is made of its reply. -/
structure IsRequest (read : Read ReadError α) (e : TransportEffect)
    (answer : TransportReply e → Except ReadError α) : Prop where
  isRead : isRead e = true
  eq : read = .call e fun r => .pure (answer r)

/-- **What a client ends with**, unless it is aborted: the outcome of its last read, which it has
    given up only for good or after all its tries. -/
def EndsWithLast (options : RetrySourceReadOptions α) (e : TransportEffect)
    (answer : TransportReply e → Except ReadError α) (r : Except ReadError α) (l : Exchanges) : Prop :=
  NotAborted l → (∃ reply, (reads l).getLast? = some ⟨e, reply⟩ ∧ answer reply = r) ∧
    ∀ error, r = .error error →
      isRetryable (options.classify error) = false ∨ (reads l).length = options.attempts + 1

/-- Before round `round`. -/
def BeforeRound (options : RetrySourceReadOptions α) (round : ℕ) (l : Exchanges) : Prop :=
  NotAborted l → (reads l).length = round ∧ round ≤ options.attempts

theorem endsWithLast_stable (r : Except ReadError α) (l l' : Exchanges)
    (h : EndsWithLast options e answer r l) (hr : Uneventful l l') : EndsWithLast options e answer r l' := by
  intro hnot
  rw [hr.1]
  exact h (hr.2.1 hnot)

theorem beforeRound_stable (round : ℕ) (l l' : Exchanges) (h : BeforeRound options round l)
    (hr : Uneventful l l') : BeforeRound options round l' := by
  intro hnot
  rw [hr.1]
  exact h (hr.2.1 hnot)

/-- The signal: an abort ends everything. -/
theorem safe_throwIfAborted {β : Type} {P : Exchanges → Prop} {post : Except ReadError β → Exchanges → Prop}
    {f : Unit → Read ReadError β} (hP : ∀ l l', P l → Uneventful l l' → P l')
    (hpost : ∀ r l l', post r l → Uneventful l l' → post r l')
    (habort : ∀ error l, ¬ NotAborted l → post (.error error) l)
    (hf : ∀ l, P l → Proc.Safe Env.free Uneventful (fun _ _ => True) post l (f ())) (h : P l) :
    Proc.Safe Env.free Uneventful (fun _ _ => True) post l (throwIfAborted >>= f : Read ReadError β) := by
  rw [Async.bind_eq]
  refine Proc.safe_call P hP (fun l h r l' hl => ⟨trivial, ?_⟩) h
  subst hl
  cases r with
  | ok _ => exact hf _ (hP _ _ h (uneventful_append rfl rfl))
  | error error =>
    refine Proc.safe_pure (hpost _) (habort _ _ fun hnot => ?_)
    have hlast := (notAborted_append.1 hnot).2
    cases hlast

/-- A wait: it ends, or an abort ends everything. -/
theorem safe_abortableSleep {β : Type} {P : Exchanges → Prop}
    {post : Except ReadError β → Exchanges → Prop} {f : Unit → Read ReadError β} (delayMs : ℕ)
    (hP : ∀ l l', P l → Uneventful l l' → P l')
    (hpost : ∀ r l l', post r l → Uneventful l l' → post r l')
    (habort : ∀ error l, ¬ NotAborted l → post (.error error) l)
    (hf : ∀ l, P l → Proc.Safe Env.free Uneventful (fun _ _ => True) post l (f ())) (h : P l) :
    Proc.Safe Env.free Uneventful (fun _ _ => True) post l
      (abortableSleep delayMs >>= f : Read ReadError β) := by
  refine Async.safe_bind (fun _ => P) ?_ fun _ l h => hf l h
  have hstable : ∀ (r : Except ReadError Unit) l l', Async.Outcome (fun _ => P)
      (fun error l => post (.error error) l) r l → Uneventful l l' →
      Async.Outcome (fun _ => P) (fun error l => post (.error error) l) r l' :=
    Async.outcome_stable (fun _ => hP) fun _ => hpost _
  refine safe_throwIfAborted hP hstable habort (fun l h => ?_) h
  refine Proc.safe_call P hP (fun l h r l' hl => ⟨trivial, ?_⟩) h
  subst hl
  cases r with
  | ok _ => exact Proc.safe_pure (hstable _) (hP _ _ h (uneventful_append rfl rfl))
  | error error =>
    refine Proc.safe_pure (hstable _) (habort _ _ fun hnot => ?_)
    have hlast := (notAborted_append.1 hnot).2
    cases hlast

/-- How long to wait is nobody's business. -/
theorem safe_resolveDelay {P : Exchanges → Prop} (hP : ∀ l l', P l → Uneventful l l' → P l')
    (hdelay : ∀ error, Proc.Asks (fun e => e = .now) (options.retryAfterMs error))
    (error : ReadError) (round : ℕ) (h : P l) :
    Proc.Safe Env.free Uneventful (fun _ _ => True) (fun _ => P) l (resolveDelay options error round) := by
  have hasks : Proc.Asks (fun e => e = .random ∨ e = .now) (resolveDelay options error round) := by
    refine ⟨Or.inl rfl, fun random => ?_⟩
    split
    · exact ((hdelay error).mono fun _ => Or.inr).bind fun _ => trivial
    · trivial
  refine hasks.quiet (fun _ => trivial) (fun e he l r l' hl => ⟨trivial, ?_⟩) P hP l h
  subst hl
  rcases he with rfl | rfl
  · exact uneventful_append rfl rfl
  · exact uneventful_append rfl rfl

/-- **The retry loop.** -/
theorem safe_withRetry (hread : IsRequest options.read e answer)
    (hdelay : ∀ error, Proc.Asks (fun e => e = .now) (options.retryAfterMs error)) :
    Proc.Safe Env.free Uneventful (fun _ _ => True) (EndsWithLast options e answer) []
      (withRetry options) := by
  have hinit : BeforeRound options 0 [] := fun _ => ⟨rfl, Nat.zero_le _⟩
  have habort : ∀ error l, ¬ NotAborted l →
      EndsWithLast options e answer (.error error) l := fun _ _ hnot h => absurd h hnot
  refine Async.safe_iterate (BeforeRound options) (fun _ => trivial) beforeRound_stable
    endsWithLast_stable (fun round l hbefore => ?_) hinit
  -- what one round may end with
  let Ended : Except ReadError (ℕ ⊕ α) → Exchanges → Prop :=
    Async.Outcome (fun x l => Sum.elim (BeforeRound options · l)
      (fun value => EndsWithLast options e answer (.ok value) l) x)
      fun error l => EndsWithLast options e answer (.error error) l
  have hended : ∀ r l l', Ended r l → Uneventful l l' → Ended r l' := by
    refine Async.outcome_stable (fun x l l' h hr => ?_) fun error => endsWithLast_stable _
    cases x with
    | inl round => exact beforeRound_stable round l l' h hr
    | inr value => exact endsWithLast_stable _ l l' h hr
  refine safe_throwIfAborted (beforeRound_stable round) hended habort (fun l hbefore => ?_) hbefore
  rw [hread.eq, Async.tryCatch_eq, Async.bind_eq]
  refine Proc.safe_call (BeforeRound options round) (beforeRound_stable round)
    (fun l hbefore reply l' hl => ⟨trivial, ?_⟩) hbefore
  subst hl
  -- this read is the last one, and there are `round + 1` of them
  have hreads : reads (l ++ [⟨e, reply⟩]) = reads l ++ [⟨e, reply⟩] := by
    rw [reads_append, if_pos hread.isRead]
  have hlast : (reads (l ++ [⟨e, reply⟩])).getLast? = some ⟨e, reply⟩ := by
    rw [hreads]
    exact List.getLast?_concat
  have hcount : NotAborted (l ++ [⟨e, reply⟩]) →
      (reads (l ++ [⟨e, reply⟩])).length = round + 1 ∧ round ≤ options.attempts := by
    intro hnot
    obtain ⟨hlength, hround⟩ := hbefore (notAborted_append.1 hnot).1
    refine ⟨?_, hround⟩
    rw [hreads, List.length_append, hlength]
    rfl
  show Proc.Safe _ _ _ Ended _ (Proc.bind (Proc.bind (.pure (answer reply)) _) _)
  rw [Proc.pure_bind']
  cases hanswer : answer reply with
  | ok value =>
    refine Proc.safe_pure (hended _) fun hnot => ⟨⟨reply, hlast, hanswer⟩, ?_⟩
    rintro error ⟨⟩
  | error error =>
    show Proc.Safe _ _ _ Ended _ (retryRound options round error)
    unfold retryRound
    split
    · rename_i hgiveUp
      refine Proc.safe_pure (hended _) fun hnot => ⟨⟨reply, hlast, hanswer⟩, ?_⟩
      rintro _ ⟨⟩
      rw [Bool.or_eq_true, Bool.not_eq_true', decide_eq_true_eq] at hgiveUp
      obtain ⟨hlength, hround⟩ := hcount hnot
      rcases hgiveUp with hfinal | hused
      · exact Or.inl hfinal
      · exact Or.inr (by omega)
    · rename_i hgoOn
      rw [Bool.or_eq_true, decide_eq_true_eq, not_or] at hgoOn
      have hnext : BeforeRound options (round + 1) (l ++ [⟨e, reply⟩]) := by
        intro hnot
        obtain ⟨hlength, _⟩ := hcount hnot
        have hmore := hgoOn.2
        exact ⟨hlength, by omega⟩
      refine Async.safe_lift_bind _
        (safe_resolveDelay (beforeRound_stable (round + 1)) hdelay error round hnext)
        fun delayMs l h => ?_
      refine safe_abortableSleep delayMs (beforeRound_stable (round + 1)) hended habort
        (fun l h => Proc.safe_pure (hended _) h) h

/-- The conversation of a single try. -/
def firstTry (e : TransportEffect) (reply : TransportReply e) : Exchanges :=
  [⟨.throwIfAborted, .ok ()⟩, ⟨e, reply⟩]

theorem notAborted_firstTry (he : isRead e = true) (reply : TransportReply e) :
    NotAborted (firstTry e reply) := by
  intro x hx
  rcases List.mem_cons.1 hx with rfl | hx
  · rfl
  · rw [List.mem_singleton.1 hx]
    cases e <;> first | rfl | cases he

theorem getLast_firstTry (he : isRead e = true) (reply : TransportReply e) :
    (reads (firstTry e reply)).getLast? = some ⟨e, reply⟩ := by
  have hreads : reads (firstTry e reply) = [⟨e, reply⟩] :=
    (reads_append [⟨.throwIfAborted, .ok ()⟩] ⟨e, reply⟩).trans (if_pos he)
  rw [hreads]
  rfl

/-- A client ends with its first response when that is a success, or when it may not retry. -/
theorem may_withRetry_once (hread : IsRequest options.read e answer) (reply : TransportReply e)
    (hlast : (∃ value, answer reply = .ok value) ∨ options.attempts = 0) :
    Proc.May Env.free (fun r l => r = answer reply ∧ l = firstTry e reply) [] (withRetry options) := by
  unfold withRetry Async.iterate Proc.iterate
  refine Proc.may_loop ?_
  -- the round leaves the loop with its outcome
  have hround : Proc.May Env.free (fun r l => r = (answer reply).map .inr ∧ l = firstTry e reply) []
      (readRound options 0) := by
    unfold readRound
    rw [Async.bind_eq]
    refine Proc.may_call (.ok ()) rfl ?_
    rw [hread.eq]
    show Proc.May _ _ _ (tryCatch _ (retryRound options 0) : Read ReadError (ℕ ⊕ α))
    rw [Async.tryCatch_eq, Async.bind_eq]
    refine Proc.may_call reply rfl ?_
    show Proc.May _ _ _ (Proc.bind (Proc.bind (.pure (answer reply)) _) _)
    rw [Proc.pure_bind']
    cases hanswer : answer reply with
    | ok value => exact Proc.may_pure ⟨rfl, rfl⟩
    | error error =>
      show Proc.May _ _ _ (retryRound options 0 error)
      have hattempts : options.attempts = 0 := by
        rcases hlast with ⟨value, hvalue⟩ | hattempts
        · rw [hanswer] at hvalue
          cases hvalue
        · exact hattempts
      unfold retryRound
      rw [hattempts, if_pos (by rw [decide_eq_true (Nat.le_refl 0), Bool.or_true])]
      exact Proc.may_pure ⟨rfl, rfl⟩
  refine Proc.may_bind _ hround ?_
  rintro r l ⟨rfl, rfl⟩
  cases hanswer : answer reply with
  | ok value => exact Proc.may_pure (Proc.may_pure ⟨rfl, rfl⟩)
  | error error => exact Proc.may_pure (Proc.may_pure ⟨rfl, rfl⟩)

variable {ε : Type} {toError : ReadError → ε} {r : Except ε α}

/-- Every conversation of a client. -/
theorem endsWithLast_of_emits (hread : IsRequest options.read e answer)
    (hdelay : ∀ error, Proc.Asks (fun e => e = .now) (options.retryAfterMs error))
    (h : Emits (retryOrThrow options toError) l r) :
    ∃ outcome, r = outcome.mapError toError ∧ EndsWithLast options e answer outcome l := by
  have hsafe : Proc.Safe Env.free Uneventful (fun _ _ => True) (fun r l => ∃ outcome,
      r = outcome.mapError toError ∧ EndsWithLast options e answer outcome l) []
      (retryOrThrow options toError) := by
    refine Proc.safe_bind_of (safe_withRetry hread hdelay) fun outcome l h =>
      Proc.safe_pure ?_ ⟨outcome, rfl, h⟩
    rintro l l' ⟨outcome, heq, h⟩ hr
    exact ⟨outcome, heq, endsWithLast_stable _ _ _ h hr⟩
  exact hsafe.of_run (h.mono fun l l' (hr : l' = l) => hr ▸ Uneventful.refl l)

/-- The conversation of a client that tries once. -/
theorem emits_firstTry (hread : IsRequest options.read e answer) (toError : ReadError → ε)
    (reply : TransportReply e)
    (hlast : (∃ value, answer reply = .ok value) ∨ options.attempts = 0) :
    Emits (retryOrThrow options toError) (firstTry e reply) ((answer reply).mapError toError) := by
  have hmay : Proc.May Env.free
      (fun r l => r = (answer reply).mapError toError ∧ l = firstTry e reply) []
      (retryOrThrow options toError) := by
    refine Proc.may_bind _ (may_withRetry_once hread reply hlast) ?_
    rintro r l ⟨rfl, rfl⟩
    exact Proc.may_pure ⟨rfl, rfl⟩
  obtain ⟨l, r, hruns, rfl, rfl⟩ := hmay
  exact hruns

end Retry

end ReplaysFetcher
