/-
  The throttle controller over integers (`src/source/throttle.ts`).

  `RunOnce` has the controller as a run builds it, over natural numbers.  Here its options are any
  integers, as the type of the source has it, and the signals come in any order:

  1. **Bounds** (`Valid`).  The concurrency stays between the floor and `max`, both streaks stay
     below their windows, and the pacing floor only rises.
  2. **Convergence** (`cleanRun_eq`, `limitedRun_eq`).  A state under signals of one kind is known
     exactly: a streak of `k` and `n` more signals make `(k + n) / window` whole windows, so a
     partial window can only make the controller faster.
  3. **Alternation** (`Fresh`).  A signal of one kind forgets the streak of the other, so signals
     that alternate never fill a window.
-/
import ReplaysFetcher.RunOnce
import Mathlib.Data.Nat.Log
import Mathlib.Data.List.Chain

namespace ReplaysFetcher

namespace Throttle

/-! ## The controller -/

/-- `ThrottleControllerOptions`, any integers. -/
structure Options where
  baseConcurrency : ℤ
  baseSpacingMs : ℤ
  max : ℤ
  min : ℤ

/-- `Math.max(CONCURRENCY_FLOOR, options.min)` -/
def Options.floor (options : Options) : ℤ := Max.max CONCURRENCY_FLOOR options.min

/-- The controller's variables; the base values are what it starts from. -/
structure State where
  concurrency : ℤ
  pacingFloorMs : ℤ
  rateLimitedStreak : ℕ := 0
  cleanStreak : ℕ := 0
  lastSignalAtMs : Option ℤ := none
  deriving DecidableEq, Repr

/-- `createThrottleController` -/
def create (options : Options) : State where
  concurrency := options.baseConcurrency
  pacingFloorMs := options.baseSpacingMs

/-- `Math.floor(concurrency * MD_FACTOR)` is the quotient by two, rounded down. -/
def onRateLimited (options : Options) (s : State) (nowMs : ℤ) : State :=
  if s.rateLimitedStreak + 1 < RATE_LIMITED_WINDOW then
    { s with lastSignalAtMs := some nowMs, cleanStreak := 0
             rateLimitedStreak := s.rateLimitedStreak + 1 }
  else
    { s with lastSignalAtMs := some nowMs, cleanStreak := 0, rateLimitedStreak := 0
             concurrency := Max.max options.floor (s.concurrency / 2)
             pacingFloorMs := s.pacingFloorMs + PACING_FLOOR_STEP_MS }

/-- A window of clean pages adds one to the concurrency, up to `max`. -/
def onCleanWindow (options : Options) (s : State) (nowMs : ℤ) : State :=
  if s.cleanStreak + 1 < CLEAN_WINDOW then
    { s with lastSignalAtMs := some nowMs, rateLimitedStreak := 0, cleanStreak := s.cleanStreak + 1 }
  else
    { s with lastSignalAtMs := some nowMs, rateLimitedStreak := 0, cleanStreak := 0
             concurrency := Min.min options.max (s.concurrency + 1) }

/-- The calls a controller receives. -/
inductive Signal
  | rateLimited
  | clean
  deriving DecidableEq, Repr

/-- One call, at a time. -/
def step (options : Options) (s : State) (call : Signal × ℤ) : State :=
  match call.1 with
  | .rateLimited => onRateLimited options s call.2
  | .clean => onCleanWindow options s call.2

/-- The calls, one after the other. -/
def run (options : Options) (s : State) (calls : List (Signal × ℤ)) : State :=
  calls.foldl (step options) s

variable {options : Options} {s : State}

/-- No call changes nothing. -/
@[simp] theorem run_nil : run options s [] = s := rfl

/-- The first call is made first. -/
@[simp] theorem run_cons (call : Signal × ℤ) (calls : List (Signal × ℤ)) :
    run options s (call :: calls) = run options (step options s call) calls := rfl

/-- A run goes on where another one ended. -/
@[simp] theorem run_append (calls calls' : List (Signal × ℤ)) :
    run options s (calls ++ calls') = run options (run options s calls) calls' :=
  List.foldl_append

/-! ## The controller of a run -/

/-- The options and the state of a run's controller, as integers. -/
def ofOptions (options : ThrottleControllerOptions) : Options where
  baseConcurrency := options.baseConcurrency
  baseSpacingMs := options.baseSpacingMs
  max := options.max
  min := options.min

/-- A run's state, as integers. -/
def ofState (s : ThrottleState) : State where
  concurrency := s.concurrency
  pacingFloorMs := s.pacingFloorMs
  rateLimitedStreak := s.rateLimitedStreak
  cleanStreak := s.cleanStreak
  lastSignalAtMs := s.lastSignalAtMs

/-- The controller of a run starts as this one does. -/
theorem create_ofOptions (options : ThrottleControllerOptions) :
    create (ofOptions options) = ofState (createThrottleController options) := rfl

/-- The controller of a run is this one. -/
theorem onRateLimited_ofState (options : ThrottleControllerOptions) (s : ThrottleState) (nowMs : ℤ) :
    onRateLimited (ofOptions options) (ofState s) nowMs =
      ofState (ReplaysFetcher.onRateLimited options s nowMs) := by
  unfold onRateLimited ReplaysFetcher.onRateLimited
  by_cases hpartial : s.rateLimitedStreak + 1 < RATE_LIMITED_WINDOW
  · have hpartial' : (ofState s).rateLimitedStreak + 1 < RATE_LIMITED_WINDOW := hpartial
    rw [if_pos hpartial, if_pos hpartial']
    rfl
  · have hpartial' : ¬ (ofState s).rateLimitedStreak + 1 < RATE_LIMITED_WINDOW := hpartial
    rw [if_neg hpartial, if_neg hpartial']
    simp only [ofState, ofOptions, Options.floor, State.mk.injEq, and_true]
    push_cast
    exact ⟨rfl, rfl⟩

/-- And so it does on a clean window. -/
theorem onCleanWindow_ofState (options : ThrottleControllerOptions) (s : ThrottleState) (nowMs : ℤ) :
    onCleanWindow (ofOptions options) (ofState s) nowMs =
      ofState (ReplaysFetcher.onCleanWindow options s nowMs) := by
  unfold onCleanWindow ReplaysFetcher.onCleanWindow
  by_cases hpartial : s.cleanStreak + 1 < CLEAN_WINDOW
  · have hpartial' : (ofState s).cleanStreak + 1 < CLEAN_WINDOW := hpartial
    rw [if_pos hpartial, if_pos hpartial']
    rfl
  · have hpartial' : ¬ (ofState s).cleanStreak + 1 < CLEAN_WINDOW := hpartial
    rw [if_neg hpartial, if_neg hpartial']
    simp only [ofState, ofOptions, State.mk.injEq, and_true]
    push_cast
    rfl

/-! ## Bounds -/

/-- What holds of every state the controller gets into. -/
structure Valid (options : Options) (s : State) : Prop where
  floor_le : options.floor ≤ s.concurrency
  le_max : s.concurrency ≤ options.max
  rateLimitedStreak : s.rateLimitedStreak < RATE_LIMITED_WINDOW
  cleanStreak : s.cleanStreak < CLEAN_WINDOW

/-- A window is not empty. -/
theorem rateLimitedWindow_pos : 0 < RATE_LIMITED_WINDOW := by decide

/-- Neither is the other one. -/
theorem cleanWindow_pos : 0 < CLEAN_WINDOW := by decide

/-- The floor is at least one, whatever `min` is. -/
theorem one_le_floor (options : Options) : 1 ≤ options.floor := le_max_left _ _

/-- A controller is valid at the start if its base concurrency is between the bounds. -/
theorem valid_create (hfloor : options.floor ≤ options.baseConcurrency)
    (hmax : options.baseConcurrency ≤ options.max) : Valid options (create options) where
  floor_le := hfloor
  le_max := hmax
  rateLimitedStreak := rateLimitedWindow_pos
  cleanStreak := cleanWindow_pos

/-- Halving stops at the floor, and goes no higher than it was. -/
theorem Valid.onRateLimited (h : Valid options s) (nowMs : ℤ) :
    Valid options (onRateLimited options s nowMs) := by
  unfold Throttle.onRateLimited
  split
  case isTrue hpartial => exact ⟨h.floor_le, h.le_max, hpartial, cleanWindow_pos⟩
  case isFalse =>
    have hone := one_le_floor options
    have hlow := h.floor_le
    have hhigh := h.le_max
    refine ⟨le_max_left _ _, ?_, rateLimitedWindow_pos, cleanWindow_pos⟩
    show Max.max options.floor (s.concurrency / 2) ≤ options.max
    omega

/-- Adding one stops at `max`, and goes no lower than it was. -/
theorem Valid.onCleanWindow (h : Valid options s) (nowMs : ℤ) :
    Valid options (onCleanWindow options s nowMs) := by
  unfold Throttle.onCleanWindow
  split
  case isTrue hpartial => exact ⟨h.floor_le, h.le_max, rateLimitedWindow_pos, hpartial⟩
  case isFalse =>
    have hlow := h.floor_le
    have hhigh := h.le_max
    refine ⟨?_, min_le_left _ _, rateLimitedWindow_pos, cleanWindow_pos⟩
    show options.floor ≤ Min.min options.max (s.concurrency + 1)
    omega

/-- Each call keeps the bounds. -/
theorem Valid.step (h : Valid options s) (call : Signal × ℤ) : Valid options (step options s call) := by
  obtain ⟨signal, nowMs⟩ := call
  cases signal with
  | rateLimited => exact h.onRateLimited nowMs
  | clean => exact h.onCleanWindow nowMs

/-- So do all calls. -/
theorem Valid.run (h : Valid options s) (calls : List (Signal × ℤ)) :
    Valid options (run options s calls) := by
  induction calls generalizing s with
  | nil => exact h
  | cons call calls ih => exact ih (h.step call)

/-- The pacing floor never falls. -/
theorem pacingFloorMs_le_step (call : Signal × ℤ) :
    s.pacingFloorMs ≤ (step options s call).pacingFloorMs := by
  obtain ⟨signal, nowMs⟩ := call
  cases signal with
  | rateLimited =>
    show s.pacingFloorMs ≤ (onRateLimited options s nowMs).pacingFloorMs
    unfold onRateLimited
    split
    · exact le_rfl
    · exact Int.le_add_of_nonneg_right (by decide)
  | clean =>
    show s.pacingFloorMs ≤ (onCleanWindow options s nowMs).pacingFloorMs
    unfold onCleanWindow
    split <;> exact le_rfl

/-- Nor does it over any calls. -/
theorem pacingFloorMs_le_run (calls : List (Signal × ℤ)) :
    s.pacingFloorMs ≤ (run options s calls).pacingFloorMs := by
  induction calls generalizing s with
  | nil => exact le_rfl
  | cons call calls ih => exact (pacingFloorMs_le_step call).trans ih

/-! ## Convergence -/

/-- Calls of one kind only. -/
def Only (signal : Signal) (calls : List (Signal × ℤ)) : Prop := ∀ call ∈ calls, call.1 = signal

/-- **Clean signals**: every whole window adds one, up to `max`. -/
theorem cleanRun_eq (h : Valid options s) {calls : List (Signal × ℤ)} (hclean : Only .clean calls) :
    (run options s calls).concurrency =
      Min.min options.max (s.concurrency + (s.cleanStreak + calls.length) / CLEAN_WINDOW) := by
  induction calls generalizing s with
  | nil =>
    have hstreak := h.cleanStreak
    have hmax := h.le_max
    have hzero : ((s.cleanStreak : ℤ) + ([] : List (Signal × ℤ)).length) / CLEAN_WINDOW = 0 := by
      unfold CLEAN_WINDOW at hstreak ⊢
      simp only [List.length_nil]
      omega
    rw [hzero, run_nil]
    omega
  | cons call calls ih =>
    obtain ⟨signal, nowMs⟩ := call
    obtain rfl : signal = .clean := hclean _ List.mem_cons_self
    have hstep := h.onCleanWindow nowMs
    have hrest := ih hstep fun call hcall => hclean call (List.mem_cons_of_mem _ hcall)
    rw [run_cons]
    show (run options (onCleanWindow options s nowMs) calls).concurrency = _
    rw [hrest, List.length_cons]
    have hmax := h.le_max
    have hstreak := h.cleanStreak
    unfold onCleanWindow
    unfold CLEAN_WINDOW at hstreak ⊢
    split
    case isTrue =>
      show Min.min options.max (s.concurrency + (((s.cleanStreak + 1 : ℕ) : ℤ) + _) / _) = _
      push_cast
      omega
    case isFalse hfull =>
      show Min.min options.max (Min.min options.max (s.concurrency + 1) + (((0 : ℕ) : ℤ) + _) / _) = _
      push_cast
      omega

/-- Halving `n` times, and never below one. -/
theorem halve_halve (c : ℤ) (n : ℕ) :
    Max.max 1 (Max.max 1 (c / 2) / 2 ^ n) = Max.max 1 (c / 2 ^ (n + 1)) := by
  have hpow : (0 : ℤ) < 2 ^ n := by positivity
  rw [pow_succ', ← Int.ediv_ediv_of_nonneg (by decide)]
  rcases le_total (c / 2) 1 with hle | hle
  · have hone : (1 : ℤ) / 2 ^ n ≤ 1 := Int.ediv_le_self _ (by decide)
    have hsmall : c / 2 / 2 ^ n ≤ 1 / 2 ^ n := Int.ediv_le_ediv hpow hle
    rw [max_eq_left hle, max_eq_left hone, max_eq_left (hsmall.trans hone)]
  · rw [max_eq_right hle]

/-- **Rate-limited signals** over a floor of one: every whole window halves. -/
theorem limitedRun_eq (h : Valid options s) (hone : options.floor = 1)
    {calls : List (Signal × ℤ)} (hlimited : Only .rateLimited calls) :
    (run options s calls).concurrency = Max.max 1
      (s.concurrency / 2 ^ ((s.rateLimitedStreak + calls.length) / RATE_LIMITED_WINDOW)) := by
  induction calls generalizing s with
  | nil =>
    have hstreak := h.rateLimitedStreak
    have hfloor := h.floor_le
    have hzero : (s.rateLimitedStreak + ([] : List (Signal × ℤ)).length) / RATE_LIMITED_WINDOW = 0 := by
      rw [List.length_nil, Nat.add_zero]
      exact Nat.div_eq_of_lt hstreak
    rw [hzero, run_nil, pow_zero, Int.ediv_one]
    omega
  | cons call calls ih =>
    obtain ⟨signal, nowMs⟩ := call
    obtain rfl : signal = .rateLimited := hlimited _ List.mem_cons_self
    have hstep := h.onRateLimited nowMs
    have hrest := ih hstep fun call hcall => hlimited call (List.mem_cons_of_mem _ hcall)
    rw [run_cons]
    show (run options (onRateLimited options s nowMs) calls).concurrency = _
    rw [hrest, List.length_cons]
    have hstreak := h.rateLimitedStreak
    unfold onRateLimited
    unfold RATE_LIMITED_WINDOW at hstreak ⊢
    split
    case isTrue =>
      have hwindows : (s.rateLimitedStreak + 1 + calls.length) / 2 =
          (s.rateLimitedStreak + (calls.length + 1)) / 2 := by omega
      show Max.max 1 (s.concurrency / 2 ^ ((s.rateLimitedStreak + 1 + calls.length) / 2)) = _
      rw [hwindows]
    case isFalse hfull =>
      have hwindows : (s.rateLimitedStreak + (calls.length + 1)) / 2 = calls.length / 2 + 1 := by
        omega
      show Max.max 1 (Max.max options.floor (s.concurrency / 2) / 2 ^ ((0 + calls.length) / 2)) = _
      rw [hwindows, hone, Nat.zero_add]
      exact halve_halve _ _

/-- As many halvings as the logarithm bring any concurrency down to one. -/
theorem halve_log2 {c : ℤ} {n : ℕ} (hn : Nat.log 2 c.toNat ≤ n) : Max.max 1 (c / 2 ^ n) = 1 := by
  refine max_eq_left ?_
  have hlt : c.toNat < 2 ^ (Nat.log 2 c.toNat + 1) := Nat.lt_pow_succ_log_self (by decide) _
  have hpow : 2 ^ (Nat.log 2 c.toNat + 1) ≤ 2 ^ (n + 1) := Nat.pow_le_pow_right (by decide) (by omega)
  have hc : c < 2 * 2 ^ n := by
    have hnat : c.toNat < 2 * 2 ^ n := by
      rw [← pow_succ']
      exact hlt.trans_le hpow
    have hcast : (c.toNat : ℤ) < 2 * 2 ^ n := by exact_mod_cast hnat
    omega
  have hquotient : c / 2 ^ n < 2 := Int.ediv_lt_of_lt_mul (by positivity) hc
  omega

/-! ## Alternation -/

/-- The streak of this kind of signal is at its beginning. -/
def Fresh (s : State) : Signal → Prop
  | .rateLimited => s.rateLimitedStreak = 0
  | .clean => s.cleanStreak = 0

/-- **A signal discards the partial window of the other kind.** -/
theorem fresh_step {signal other : Signal} (hother : signal ≠ other) (nowMs : ℤ) :
    Fresh (step options s (signal, nowMs)) other := by
  cases signal with
  | rateLimited =>
    cases other with
    | rateLimited => exact absurd rfl hother
    | clean =>
      show (onRateLimited options s nowMs).cleanStreak = 0
      unfold onRateLimited
      split <;> rfl
  | clean =>
    cases other with
    | rateLimited =>
      show (onCleanWindow options s nowMs).rateLimitedStreak = 0
      unfold onCleanWindow
      split <;> rfl
    | clean => exact absurd rfl hother

/-- The first signal of a window changes nothing. -/
theorem concurrency_step_fresh {signal : Signal} (h : Fresh s signal) (nowMs : ℤ) :
    (step options s (signal, nowMs)).concurrency = s.concurrency := by
  cases signal with
  | rateLimited =>
    have hpartial : s.rateLimitedStreak + 1 < RATE_LIMITED_WINDOW := by
      rw [show s.rateLimitedStreak = 0 from h]
      decide
    show (onRateLimited options s nowMs).concurrency = s.concurrency
    unfold onRateLimited
    rw [if_pos hpartial]
  | clean =>
    have hpartial : s.cleanStreak + 1 < CLEAN_WINDOW := by
      rw [show s.cleanStreak = 0 from h]
      decide
    show (onCleanWindow options s nowMs).concurrency = s.concurrency
    unfold onCleanWindow
    rw [if_pos hpartial]

/-- No two calls in a row are of one kind. -/
def Alternates (calls : List (Signal × ℤ)) : Prop :=
  calls.IsChain fun call next => call.1 ≠ next.1

/-- **Signals that alternate never change the concurrency.** -/
theorem concurrency_alternating {calls : List (Signal × ℤ)} (hcalls : Alternates calls)
    (h : ∀ call ∈ calls.head?, Fresh s call.1) :
    (run options s calls).concurrency = s.concurrency := by
  induction calls generalizing s with
  | nil => rfl
  | cons call calls ih =>
    obtain ⟨signal, nowMs⟩ := call
    obtain ⟨hnext, hrest⟩ := List.isChain_cons.1 hcalls
    have hfirst : (step options s (signal, nowMs)).concurrency = s.concurrency :=
      concurrency_step_fresh (h _ rfl) nowMs
    rw [run_cons, ← hfirst]
    exact ih hrest fun next hhead => fresh_step (hnext next hhead) nowMs

/-! ## The result -/

/-- **The controller** stays between its floor and `max`, and only ever paces more; from wherever
    signals have brought it, clean signals bring it to `max` and rate-limited ones to one; and
    signals that alternate never move it. -/
theorem controller_spec (options : Options) (hfloor : options.floor ≤ options.baseConcurrency)
    (hmax : options.baseConcurrency ≤ options.max) :
    (∀ calls, options.floor ≤ (run options (create options) calls).concurrency ∧
      (run options (create options) calls).concurrency ≤ options.max) ∧
    (∀ calls later, (run options (create options) calls).pacingFloorMs ≤
      (run options (create options) (calls ++ later)).pacingFloorMs) ∧
    (∀ calls later, Only .clean later →
      (later.length : ℤ) = 3 * (options.max - (run options (create options) calls).concurrency) →
      (run options (create options) (calls ++ later)).concurrency = options.max) ∧
    (options.floor = 1 → ∀ calls later, Only .rateLimited later →
      later.length = 2 * Nat.log 2 (run options (create options) calls).concurrency.toNat →
      (run options (create options) (calls ++ later)).concurrency = 1) ∧
    (∀ calls signal other nowMs, signal ≠ other →
      Fresh (run options (create options) (calls ++ [(signal, nowMs)])) other) ∧
    ∀ calls, Alternates calls →
      (run options (create options) calls).concurrency = options.baseConcurrency := by
  have hvalid : ∀ calls, Valid options (run options (create options) calls) :=
    (valid_create hfloor hmax).run
  refine ⟨fun calls => ⟨(hvalid calls).floor_le, (hvalid calls).le_max⟩, fun calls later => ?_,
    fun calls later hclean hlength => ?_, fun hone calls later hlimited hlength => ?_,
    fun calls signal other nowMs hother => ?_, fun calls hcalls => ?_⟩
  · rw [run_append]
    exact pacingFloorMs_le_run later
  · -- the windows alone are enough, whatever the streak was
    rw [run_append, cleanRun_eq (hvalid calls) hclean, hlength]
    have hle := (hvalid calls).le_max
    unfold CLEAN_WINDOW
    omega
  · rw [run_append, limitedRun_eq (hvalid calls) hone hlimited, hlength]
    refine halve_log2 ?_
    unfold RATE_LIMITED_WINDOW
    omega
  · rw [run_append]
    exact fresh_step hother nowMs
  · refine concurrency_alternating hcalls fun call _ => ?_
    cases call.1 <;> rfl

/-- A controller over two to eight, started at four. -/
def toyThrottle : Options := { baseConcurrency := 4, baseSpacingMs := 250, max := 8, min := 2 }

theorem controller_spec_toy : (run toyThrottle (create toyThrottle)
    (List.replicate 12 (.clean, 0))).concurrency = 8 :=
  (controller_spec toyThrottle (by decide) (by decide)).2.2.1 [] (List.replicate 12 (.clean, 0))
    (fun _ hcall => congrArg Prod.fst (List.eq_of_mem_replicate hcall)) rfl

end Throttle

end ReplaysFetcher
