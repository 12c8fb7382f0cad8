/-
  What a watcher says (`src/run/watch-loop.ts`).

  The watch loop promises more than its result, which is always exit code 0: it promises an ORDER.
  So its correctness is a statement about conversations.  `WatchStopped` is the language of the loop,
  written down rule by rule:

  * a round observes the stop signal (not set), tries a cycle, observes the signal again (not set)
    and sleeps once;
  * a `try` is a cycle followed by one heartbeat write, and anything that throws in it is logged;
  * the loop is over with the first observation that finds the signal set.

  `watchLoop_conversations` says that the loop can hold exactly these conversations, and that in the
  middle it is in the middle of one of them.  A round does not depend on how its `try` has ended,
  which is all there is to "a failed cycle does not stop the watcher".
-/
import ReplaysFetcher.Watch
import ReplaysFetcher.Effectful.Conversations

namespace ReplaysFetcher

open Effectful

/-- How the `try` of a round ended. -/
inductive CycleEnd
  /-- with the heartbeat written -/
  | alive
  /-- the heartbeat write was attempted and rejected -/
  | beatFailed
  /-- the clock read for the heartbeat's body threw -/
  | clockFailed
  /-- the cycle threw -/
  | failed
  deriving DecidableEq, Repr

section Language

variable {E : Type} {R : E → Type} (input : WatchLoopInput E R)

/-! ## The language -/

/-- What the `try` says, how it ends, and what it throws. -/
inductive TryEnds : CycleEnd → Except JsError Unit → List (Σ e : E, R e) → Prop
  | alive {c n b : List (Σ e : E, R e)} {summary : RunSummary} {now : Date}
      (hcycle : Emits (runCycle input) c (.ok summary)) (hclock : Emits input.now n (.ok now))
      (hbeat : Emits (input.writeHeartbeat input.heartbeatPath (toISOString now)) b (.ok ())) :
      TryEnds .alive (.ok ()) (c ++ (n ++ b))
  | beatFailed {c n b : List (Σ e : E, R e)} {summary : RunSummary} {now : Date} {error : JsError}
      (hcycle : Emits (runCycle input) c (.ok summary)) (hclock : Emits input.now n (.ok now))
      (hbeat : Emits (input.writeHeartbeat input.heartbeatPath (toISOString now)) b
        (.error error)) : TryEnds .beatFailed (.error error) (c ++ (n ++ b))
  | clockFailed {c n : List (Σ e : E, R e)} {summary : RunSummary} {error : JsError}
      (hcycle : Emits (runCycle input) c (.ok summary))
      (hclock : Emits input.now n (.error error)) : TryEnds .clockFailed (.error error) (c ++ n)
  | failed {c : List (Σ e : E, R e)} {error : JsError}
      (hcycle : Emits (runCycle input) c (.error error)) : TryEnds .failed (.error error) c

/-- What the `try` says with its `catch`. -/
inductive Tried : CycleEnd → List (Σ e : E, R e) → Prop
  | quiet {how : CycleEnd} {t : List (Σ e : E, R e)} (htry : TryEnds input how (.ok ()) t) :
      Tried how t
  | logged {how : CycleEnd} {t g : List (Σ e : E, R e)} {error : JsError}
      (htry : TryEnds input how (.error error) t)
      (hlog : Emits (input.log (.watchCycleFailed error)) g ()) : Tried how (t ++ g)

/-- In the middle of a `try` or its `catch`. -/
inductive Trying : List (Σ e : E, R e) → Prop
  | cycle {c : List (Σ e : E, R e)} (hcycle : Proc.Midway (runCycle input) c) : Trying c
  | clock {c n : List (Σ e : E, R e)} {summary : RunSummary}
      (hcycle : Emits (runCycle input) c (.ok summary)) (hclock : Proc.Midway input.now n) :
      Trying (c ++ n)
  | beat {c n b : List (Σ e : E, R e)} {summary : RunSummary} {now : Date}
      (hcycle : Emits (runCycle input) c (.ok summary)) (hclock : Emits input.now n (.ok now))
      (hbeat : Proc.Midway (input.writeHeartbeat input.heartbeatPath (toISOString now)) b) :
      Trying (c ++ (n ++ b))
  | log {how : CycleEnd} {t g : List (Σ e : E, R e)} {error : JsError}
      (htry : TryEnds input how (.error error) t)
      (hlog : Proc.Midway (input.log (.watchCycleFailed error)) g) : Trying (t ++ g)

/-- The rounds that went on, with how each `try` ended. -/
inductive WatchRounds : List CycleEnd → List (Σ e : E, R e) → Prop
  | start : WatchRounds [] []
  | round {ends : List CycleEnd} {how : CycleEnd} {l s c s' z : List (Σ e : E, R e)}
      (hbefore : WatchRounds ends l) (hgo : Emits input.shouldStop s false)
      (htried : Tried input how c) (hgo' : Emits input.shouldStop s' false)
      (hsleep : Emits (input.sleep input.intervalMs) z ()) :
      WatchRounds (ends ++ [how]) (l ++ (s ++ (c ++ (s' ++ z))))

/-- The whole conversation of a loop that is over. -/
inductive WatchStopped : List CycleEnd → List (Σ e : E, R e) → Prop
  | atTop {ends : List CycleEnd} {l s : List (Σ e : E, R e)} (hbefore : WatchRounds input ends l)
      (hstop : Emits input.shouldStop s true) : WatchStopped ends (l ++ s)
  | afterCycle {ends : List CycleEnd} {how : CycleEnd} {l s c s' : List (Σ e : E, R e)}
      (hbefore : WatchRounds input ends l) (hgo : Emits input.shouldStop s false)
      (htried : Tried input how c) (hstop : Emits input.shouldStop s' true) :
      WatchStopped (ends ++ [how]) (l ++ (s ++ (c ++ s')))

/-- The conversation of a loop that is not. -/
inductive WatchRunning : List (Σ e : E, R e) → Prop
  | between {ends : List CycleEnd} {l : List (Σ e : E, R e)} (hbefore : WatchRounds input ends l) :
      WatchRunning l
  | observing {ends : List CycleEnd} {l s : List (Σ e : E, R e)}
      (hbefore : WatchRounds input ends l) (hobserve : Proc.Midway input.shouldStop s) :
      WatchRunning (l ++ s)
  | trying {ends : List CycleEnd} {l s c : List (Σ e : E, R e)}
      (hbefore : WatchRounds input ends l) (hgo : Emits input.shouldStop s false)
      (htrying : Trying input c) : WatchRunning (l ++ (s ++ c))
  | observingAgain {ends : List CycleEnd} {how : CycleEnd} {l s c s' : List (Σ e : E, R e)}
      (hbefore : WatchRounds input ends l) (hgo : Emits input.shouldStop s false)
      (htried : Tried input how c) (hobserve : Proc.Midway input.shouldStop s') :
      WatchRunning (l ++ (s ++ (c ++ s')))
  | sleeping {ends : List CycleEnd} {how : CycleEnd} {l s c s' z : List (Σ e : E, R e)}
      (hbefore : WatchRounds input ends l) (hgo : Emits input.shouldStop s false)
      (htried : Tried input how c) (hgo' : Emits input.shouldStop s' false)
      (hsleep : Proc.Midway (input.sleep input.intervalMs) z) :
      WatchRunning (l ++ (s ++ (c ++ (s' ++ z))))

end Language

/-! ## One round -/

section Round

variable {E : Type} {R : E → Type} {input : WatchLoopInput E R} {l : List (Σ e : E, R e)}

/-- The complete conversations of the `try`. -/
theorem emits_cycleWithHeartbeat {r : Except JsError Unit} :
    Emits (cycleWithHeartbeat input) l r ↔ ∃ how, TryEnds input how r l := by
  unfold cycleWithHeartbeat
  constructor
  · -- the cycle, then the clock, then the beat: the first that fails ends it
    intro h
    cases r with
    | ok u =>
      obtain ⟨summary, c, l₁, rfl, hcycle, h⟩ := Async.emits_bind_ok.1 h
      obtain ⟨now, n, b, rfl, hclock, hbeat⟩ := Async.emits_bind_ok.1 h
      exact ⟨_, .alive hcycle hclock hbeat⟩
    | error error =>
      rcases Async.emits_bind_error.1 h with hcycle | ⟨summary, c, l₁, rfl, hcycle, h⟩
      · exact ⟨_, .failed hcycle⟩
      · rcases Async.emits_bind_error.1 h with hclock | ⟨now, n, b, rfl, hclock, hbeat⟩
        · exact ⟨_, .clockFailed hcycle hclock⟩
        · exact ⟨_, .beatFailed hcycle hclock hbeat⟩
  · rintro ⟨how, htry⟩
    cases htry with
    | alive hcycle hclock hbeat =>
      exact Async.emits_bind_ok.2 ⟨_, _, _, rfl, hcycle,
        Async.emits_bind_ok.2 ⟨_, _, _, rfl, hclock, hbeat⟩⟩
    | beatFailed hcycle hclock hbeat =>
      exact Async.emits_bind_error.2 (Or.inr ⟨_, _, _, rfl, hcycle,
        Async.emits_bind_error.2 (Or.inr ⟨_, _, _, rfl, hclock, hbeat⟩)⟩)
    | clockFailed hcycle hclock =>
      exact Async.emits_bind_error.2 (Or.inr ⟨_, _, _, rfl, hcycle,
        Async.emits_bind_error.2 (Or.inl hclock)⟩)
    | failed hcycle => exact Async.emits_bind_error.2 (Or.inl hcycle)

variable (input) in
/-- The `try` with its `catch`. -/
def tryCycle : Proc E R Unit :=
  Proc.bind (cycleWithHeartbeat input) fun (outcome : Except JsError Unit) =>
    match outcome with
    | .ok _ => .pure ()
    | .error error => input.log (.watchCycleFailed error)

theorem watchIteration_eq : watchIteration input = input.shouldStop.bind fun stop =>
    if stop then .pure (.inr ())
    else (tryCycle input).bind fun _ => input.shouldStop.bind fun stop =>
      if stop then .pure (.inr ())
      else (input.sleep input.intervalMs).bind fun _ => .pure (.inl ()) := by
  unfold watchIteration tryCycle
  congr 1
  funext stop
  split
  · rfl
  · exact (Proc.bind_assoc' _ _ _).symm

theorem emits_tryCycle {u : Unit} : Emits (tryCycle input) l u ↔ ∃ how, Tried input how l := by
  unfold tryCycle
  rw [Proc.emits_bind]
  constructor
  · rintro ⟨r, t, g, rfl, htry, h⟩
    obtain ⟨how, htry⟩ := emits_cycleWithHeartbeat.1 htry
    cases r with
    | ok v =>
      obtain ⟨rfl, _⟩ := Proc.emits_pure.1 h
      rw [List.append_nil]
      exact ⟨how, .quiet htry⟩
    | error error => exact ⟨how, .logged htry h⟩
  · rintro ⟨how, htried⟩
    cases htried with
    | quiet htry =>
      exact ⟨.ok (), l, [], (List.append_nil l).symm, emits_cycleWithHeartbeat.2 ⟨how, htry⟩,
        Proc.emits_pure.2 ⟨rfl, rfl⟩⟩
    | logged htry hlog =>
      exact ⟨_, _, _, rfl, emits_cycleWithHeartbeat.2 ⟨how, htry⟩, hlog⟩

theorem trying_of_midway (h : Proc.Midway (tryCycle input) l) : Trying input l := by
  unfold tryCycle at h
  rcases Proc.midway_bind h with h | ⟨r, t, g, rfl, htry, hlog⟩
  · unfold cycleWithHeartbeat at h
    rcases Async.midway_bind h with hcycle | ⟨summary, c, l₁, rfl, hcycle, h⟩
    · exact .cycle hcycle
    · rcases Async.midway_bind h with hclock | ⟨now, n, b, rfl, hclock, hbeat⟩
      · exact .clock hcycle hclock
      · exact .beat hcycle hclock hbeat
  · obtain ⟨how, htry⟩ := emits_cycleWithHeartbeat.1 htry
    cases r with
    | ok u => exact absurd hlog Proc.not_midway_pure
    | error error => exact .log htry hlog

/-- A round that goes on. -/
theorem emits_round_on : Emits (watchIteration input) l (.inl ()) ↔ ∃ how s c s' z,
    l = s ++ (c ++ (s' ++ z)) ∧ Emits input.shouldStop s false ∧ Tried input how c ∧
      Emits input.shouldStop s' false ∧ Emits (input.sleep input.intervalMs) z () := by
  rw [watchIteration_eq]
  constructor
  · intro h
    obtain ⟨stop, s, l₁, rfl, hgo, h⟩ := Proc.emits_bind.1 h
    cases stop with
    | true => cases (Proc.emits_pure.1 h).2
    | false =>
      obtain ⟨u, c, l₂, rfl, htry, h⟩ := Proc.emits_bind.1 h
      obtain ⟨how, htried⟩ := emits_tryCycle.1 htry
      obtain ⟨stop, s', l₃, rfl, hgo', h⟩ := Proc.emits_bind.1 h
      cases stop with
      | true => cases (Proc.emits_pure.1 h).2
      | false =>
        obtain ⟨v, z, l₄, rfl, hsleep, h⟩ := Proc.emits_bind.1 h
        obtain ⟨rfl, _⟩ := Proc.emits_pure.1 h
        rw [List.append_nil]
        exact ⟨how, s, c, s', z, rfl, hgo, htried, hgo', hsleep⟩
  · rintro ⟨how, s, c, s', z, rfl, hgo, htried, hgo', hsleep⟩
    refine Proc.emits_bind.2 ⟨false, s, _, rfl, hgo, ?_⟩
    refine Proc.emits_bind.2 ⟨(), c, _, rfl, emits_tryCycle.2 ⟨how, htried⟩, ?_⟩
    refine Proc.emits_bind.2 ⟨false, s', _, rfl, hgo', ?_⟩
    exact Proc.emits_bind.2 ⟨(), z, [], (List.append_nil z).symm, hsleep,
      Proc.emits_pure.2 ⟨rfl, rfl⟩⟩

/-- A round that leaves. -/
theorem emits_round_off : Emits (watchIteration input) l (.inr ()) ↔
    Emits input.shouldStop l true ∨ ∃ how s c s', l = s ++ (c ++ s') ∧
      Emits input.shouldStop s false ∧ Tried input how c ∧ Emits input.shouldStop s' true := by
  rw [watchIteration_eq]
  constructor
  · intro h
    obtain ⟨stop, s, l₁, rfl, hobserved, h⟩ := Proc.emits_bind.1 h
    cases stop with
    | true =>
      obtain ⟨rfl, _⟩ := Proc.emits_pure.1 h
      rw [List.append_nil]
      exact Or.inl hobserved
    | false =>
      obtain ⟨u, c, l₂, rfl, htry, h⟩ := Proc.emits_bind.1 h
      obtain ⟨how, htried⟩ := emits_tryCycle.1 htry
      obtain ⟨stop, s', l₃, rfl, hobserved', h⟩ := Proc.emits_bind.1 h
      cases stop with
      | true =>
        obtain ⟨rfl, _⟩ := Proc.emits_pure.1 h
        rw [List.append_nil]
        exact Or.inr ⟨how, s, c, s', rfl, hobserved, htried, hobserved'⟩
      | false =>
        obtain ⟨v, z, l₄, rfl, _, h⟩ := Proc.emits_bind.1 h
        cases (Proc.emits_pure.1 h).2
  · rintro (hstop | ⟨how, s, c, s', rfl, hgo, htried, hstop⟩)
    · exact Proc.emits_bind.2 ⟨true, l, [], (List.append_nil l).symm, hstop,
        Proc.emits_pure.2 ⟨rfl, rfl⟩⟩
    · refine Proc.emits_bind.2 ⟨false, s, _, rfl, hgo, ?_⟩
      refine Proc.emits_bind.2 ⟨(), c, _, rfl, emits_tryCycle.2 ⟨how, htried⟩, ?_⟩
      exact Proc.emits_bind.2 ⟨true, s', [], (List.append_nil s').symm, hstop,
        Proc.emits_pure.2 ⟨rfl, rfl⟩⟩

/-- A round in the middle. -/
theorem running_of_midway {ends : List CycleEnd} {before : List (Σ e : E, R e)}
    (hbefore : WatchRounds input ends before) (h : Proc.Midway (watchIteration input) l) :
    WatchRunning input (before ++ l) := by
  -- midway through one of the four parts, and past the ones before it
  rw [watchIteration_eq] at h
  rcases Proc.midway_bind h with hobserve | ⟨stop, s, l₁, rfl, hgo, h⟩
  · exact .observing hbefore hobserve
  · cases stop with
    | true => exact absurd h Proc.not_midway_pure
    | false =>
      rcases Proc.midway_bind h with htrying | ⟨u, c, l₂, rfl, htry, h⟩
      · exact .trying hbefore hgo (trying_of_midway htrying)
      · obtain ⟨how, htried⟩ := emits_tryCycle.1 htry
        rcases Proc.midway_bind h with hobserve | ⟨stop, s', l₃, rfl, hgo', h⟩
        · exact .observingAgain hbefore hgo htried hobserve
        · cases stop with
          | true => exact absurd h Proc.not_midway_pure
          | false =>
            rcases Proc.midway_bind h with hsleep | ⟨v, z, l₄, rfl, _, h⟩
            · exact .sleeping hbefore hgo htried hgo' hsleep
            · exact absurd h Proc.not_midway_pure

/-! ## The loop -/

theorem watchRounds_iff : Proc.Rounds (fun _ => watchIteration input) () l () ↔
    ∃ ends, WatchRounds input ends l := by
  constructor
  · intro h
    generalize hs : () = s at h
    clear hs
    induction h with
    | start => exact ⟨[], .start⟩
    | round _ hround ih =>
      obtain ⟨ends, hbefore⟩ := ih
      obtain ⟨how, s, c, s', z, rfl, hgo, htried, hgo', hsleep⟩ := emits_round_on.1 hround
      exact ⟨_, .round hbefore hgo htried hgo' hsleep⟩
  · rintro ⟨ends, h⟩
    induction h with
    | start => exact .start
    | round _ hgo htried hgo' hsleep ih =>
      exact ih.round (emits_round_on.2 ⟨_, _, _, _, _, rfl, hgo, htried, hgo', hsleep⟩)

/-- **The conversations of the watch loop.**  It can hold exactly those of `WatchStopped`, and
    resolves with exit code 0 after each; and wherever a run of it is, it is past such a
    conversation, or in the middle of one, with no observation of the stop signal that found it
    set. -/
theorem watchLoop_conversations :
    (∀ l code, Emits (runWatchLoop input) l code ↔
      code = 0 ∧ ∃ ends, WatchStopped input ends l) ∧
    ∀ l q, (Proc.lts Env.free ℕ).Runs Lts.Alone [] (runWatchLoop input) l q →
      (q = .pure 0 ∧ ∃ ends, WatchStopped input ends l) ∨
        (q.result = none ∧ WatchRunning input l) := by
  have hloop : runWatchLoop input =
      .loop (fun _ => watchIteration input) () fun _ => .pure 0 := rfl
  have hemits : ∀ l code, Emits (runWatchLoop input) l code ↔
      code = 0 ∧ ∃ ends, WatchStopped input ends l := by
    intro l code
    rw [hloop, Proc.emits_loop]
    constructor
    · rintro ⟨_, l₁, l₂, l₃, _, rfl, hrounds, hlast, h⟩
      obtain ⟨rfl, rfl⟩ := Proc.emits_pure.1 h
      obtain ⟨ends, hbefore⟩ := watchRounds_iff.1 hrounds
      rw [List.append_nil]
      refine ⟨rfl, ?_⟩
      rcases emits_round_off.1 hlast with hstop | ⟨how, s, c, s', rfl, hgo, htried, hstop⟩
      · exact ⟨_, .atTop hbefore hstop⟩
      · exact ⟨_, .afterCycle hbefore hgo htried hstop⟩
    · rintro ⟨rfl, ends, h⟩
      have hdone : Emits (.pure 0 : Proc E R ℕ) [] 0 := Proc.emits_pure.2 ⟨rfl, rfl⟩
      cases h with
      | atTop hbefore hstop =>
        exact ⟨(), _, _, [], (), (List.append_nil _).symm, watchRounds_iff.2 ⟨_, hbefore⟩,
          emits_round_off.2 (Or.inl hstop), hdone⟩
      | afterCycle hbefore hgo htried hstop =>
        exact ⟨(), _, _, [], (), (List.append_nil _).symm, watchRounds_iff.2 ⟨_, hbefore⟩,
          emits_round_off.2 (Or.inr ⟨_, _, _, _, rfl, hgo, htried, hstop⟩), hdone⟩
  refine ⟨hemits, fun l q hruns => ?_⟩
  cases hresult : q.result with
  | some code =>
    obtain rfl := Proc.result_eq_some.1 hresult
    obtain ⟨rfl, hstopped⟩ := (hemits l code).1 hruns
    exact Or.inl ⟨rfl, hstopped⟩
  | none =>
    refine Or.inr ⟨rfl, ?_⟩
    have hmidway : Proc.Midway (runWatchLoop input) l := ⟨q, hruns, hresult⟩
    rw [hloop] at hmidway
    obtain ⟨_, l₁, l₂, rfl, hrounds, hrest⟩ := Proc.midway_loop hmidway
    obtain ⟨ends, hbefore⟩ := watchRounds_iff.1 hrounds
    rcases hrest with rfl | hround | ⟨l₃, l₄, _, rfl, _, h⟩
    · rw [List.append_nil]
      exact .between hbefore
    · exact running_of_midway hbefore hround
    · exact absurd h Proc.not_midway_pure

end Round

end ReplaysFetcher
