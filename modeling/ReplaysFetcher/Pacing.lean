/-
  The floor of a pacer (`src/source/pacing.ts`).

  Callers await the floor one after the other.  A call reads the clock, sleeps what remains of
  `spacingMs` since the LAST DISPATCH, and returns.  What the caller sees of a call is when it
  returned; what the pacer remembers of it is when it was dispatched, and the two differ by as much
  as the call has slept.  So a call that slept moves its caller but not its dispatch, and the next
  call may return right after it.

  1. Times are in an ordered ring `T`: the clock may be a whole number of milliseconds or not.
  2. A `Call` is what the environment has a say in: how long the caller idles, and how late the call
     returns.  `PacerState.awaitFloor` is the rest.
  3. One call: it returns in time iff its caller idles long enough, or it is late by as much as the
     previous call took (`spaced_awaitFloor_iff`).  A sequence of calls: `pacer_floor_iff`.  Where no
     call is late, no two of them in a row may idle for less than `spacingMs`
     (`allInTime_exact_iff`).
  4. At whole milliseconds this is the pacer of the watcher (`safe_awaitFloor`).
-/
import ReplaysFetcher.WatchSpacing
import Mathlib.Algebra.Order.Ring.Defs
import Mathlib.Tactic.Linarith

namespace ReplaysFetcher

open Effectful

/-! ## The pacer -/

section Pacer

variable {T : Type} [CommRing T] [LinearOrder T] [IsStrictOrderedRing T]

/-- Between two calls: when the last one returned, and the variable of the pacer. -/
structure PacerState (T : Type) where
  time : T
  lastRequestAt : Option T

/-- `createPacer(options)`, at the time `start`. -/
def createPacer (start : T) : PacerState T := { time := start, lastRequestAt := none }

/-- One call of `awaitFloor`, as far as the pacer has no say in it. -/
structure Call (T : Type) [CommRing T] [LinearOrder T] where
  /-- since the last call returned -/
  idle : T
  /-- over what the call had to sleep -/
  late : T
  idle_nonneg : 0 ≤ idle
  late_nonneg : 0 ≤ late

variable (spacingMs : T)

/-- What a call sleeps: the rest of the floor, if there is any.  A comparison with `NaN` is false. -/
def pauseOf (dispatchAt : T) (lastRequestAt : Option T) : T :=
  match lastRequestAt.map fun last => spacingMs - (dispatchAt - last) with
  | none => 0
  | some remaining => if remaining > 0 then remaining else 0

def PacerState.awaitFloor (s : PacerState T) (call : Call T) : PacerState T :=
  let dispatchAt := s.time + call.idle
  { time := dispatchAt + pauseOf spacingMs dispatchAt s.lastRequestAt + call.late
    lastRequestAt := some dispatchAt }

/-- When the calls return. -/
def completions : PacerState T → List (Call T) → List T
  | _, [] => []
  | s, call :: calls =>
    (s.awaitFloor spacingMs call).time :: completions (s.awaitFloor spacingMs call) calls

/-! ## In time -/

/-- Two consecutive instants are at least `spacingMs` apart. -/
def FloorKept (instants : List T) : Prop :=
  instants.IsChain fun earlier later => spacingMs ≤ later - earlier

/-- How long a call takes from its dispatch to its return, when the previous one took `took`. -/
def tookAfter (took : T) (call : Call T) : T :=
  max 0 (spacingMs - (took + call.idle)) + call.late

/-- The call idles long enough, its own lateness counted, or it is late by as much as the previous
    call took. -/
def InTime (took : T) (call : Call T) : Prop :=
  spacingMs ≤ call.idle + call.late ∨ took ≤ call.late

/-- The calls after one that took `took`. -/
def AllInTimeAfter : T → List (Call T) → Prop
  | _, [] => True
  | took, call :: calls =>
    InTime spacingMs took call ∧ AllInTimeAfter (tookAfter spacingMs took call) calls

/-- Every call after the first is in time.  The first sleeps for nothing. -/
def AllInTime : List (Call T) → Prop
  | [] => True
  | first :: calls => AllInTimeAfter spacingMs first.late calls

variable {spacingMs} {s : PacerState T} {call : Call T}

omit [IsStrictOrderedRing T] in
theorem awaitFloor_time {last : T} (hlast : s.lastRequestAt = some last) :
    (s.awaitFloor spacingMs call).time =
      s.time + call.idle + tookAfter spacingMs (s.time - last) call := by
  have hsince : spacingMs - (s.time + call.idle - last) =
      spacingMs - (s.time - last + call.idle) := by ring
  unfold PacerState.awaitFloor pauseOf tookAfter
  dsimp only
  rw [hlast, Option.map_some, hsince]
  dsimp only
  split
  · rename_i hsleep
    rw [max_eq_right hsleep.le]
    ring
  · rename_i hnone
    rw [max_eq_left (not_lt.1 hnone)]
    ring

/-- **One call**: it returns `spacingMs` after the one before it iff it is in time. -/
theorem spaced_awaitFloor_iff {last : T} (hlast : s.lastRequestAt = some last) :
    spacingMs ≤ (s.awaitFloor spacingMs call).time - s.time ↔
      InTime spacingMs (s.time - last) call := by
  rw [awaitFloor_time hlast]
  unfold tookAfter InTime
  rcases le_total (spacingMs - (s.time - last + call.idle)) 0 with hnone | hsleep
  · rw [max_eq_left hnone]
    constructor
    · intro h
      exact Or.inl (by linarith)
    · rintro (h | h)
      · linarith
      · linarith
  · -- the call has slept: it returns `spacingMs` after the last dispatch
    rw [max_eq_right hsleep]
    constructor
    · intro h
      exact Or.inr (by linarith)
    · rintro (h | h)
      · linarith
      · linarith

/-- The calls after a first one. -/
theorem floorKept_iff {last : T} (hlast : s.lastRequestAt = some last) (calls : List (Call T)) :
    FloorKept spacingMs (s.time :: completions spacingMs s calls) ↔
      AllInTimeAfter spacingMs (s.time - last) calls := by
  induction calls generalizing s last with
  | nil => exact iff_of_true (List.isChain_singleton _) trivial
  | cons call calls ih =>
    have htook : (s.awaitFloor spacingMs call).time - (s.time + call.idle) =
        tookAfter spacingMs (s.time - last) call := by
      rw [awaitFloor_time hlast]
      ring
    show List.IsChain _ (s.time :: (s.awaitFloor spacingMs call).time :: _) ↔ _
    rw [List.isChain_cons_cons, spaced_awaitFloor_iff hlast]
    refine and_congr_right fun _ => ?_
    rw [← htook]
    exact ih rfl

/-- **The floor is kept exactly by calls in time.**  For every spacing and every sequence of calls on
    one pacer, consecutive calls return at least `spacingMs` apart iff every call after the first is
    in time. -/
theorem pacer_floor_iff (spacingMs start : T) (calls : List (Call T)) :
    FloorKept spacingMs (completions spacingMs (createPacer start) calls) ↔
      AllInTime spacingMs calls := by
  cases calls with
  | nil => exact iff_of_true .nil trivial
  | cons first calls =>
    have htook : ((createPacer start).awaitFloor spacingMs first).time - (start + first.idle) =
        first.late := by
      show start + first.idle + 0 + first.late - (start + first.idle) = first.late
      ring
    show _ ↔ AllInTimeAfter spacingMs first.late calls
    rw [← htook]
    exact floorKept_iff rfl calls

/-- **With exact sleeps**: no two consecutive calls after the first idle for less than
    `spacingMs`. -/
theorem allInTime_exact_iff {first : Call T} {calls : List (Call T)} (hfirst : first.late = 0)
    (hexact : ∀ call ∈ calls, call.late = 0) : AllInTime spacingMs (first :: calls) ↔
      calls.IsChain fun earlier later => spacingMs ≤ earlier.idle ∨ spacingMs ≤ later.idle := by
  -- a call in time has slept for what its own idling left, whatever the one before it took
  have hslept : ∀ {took : T} {earlier : Call T}, earlier.late = 0 → 0 ≤ took →
      InTime spacingMs took earlier →
      tookAfter spacingMs took earlier = max 0 (spacingMs - earlier.idle) := by
    intro took earlier hlate htook hin
    unfold tookAfter
    unfold InTime at hin
    rw [hlate, add_zero] at hin ⊢
    rcases hin with hidle | hzero
    · rw [max_eq_left (by linarith), max_eq_left (by linarith)]
    · rw [le_antisymm hzero htook, zero_add]
  have hafter : ∀ {took : T} {earlier : Call T} {calls : List (Call T)}, earlier.late = 0 →
      0 ≤ took → InTime spacingMs took earlier → (∀ call ∈ calls, call.late = 0) →
      (AllInTimeAfter spacingMs (tookAfter spacingMs took earlier) calls ↔
        (earlier :: calls).IsChain fun earlier later =>
          spacingMs ≤ earlier.idle ∨ spacingMs ≤ later.idle) := by
    intro took earlier calls hlate htook hin hexact
    induction calls generalizing took earlier with
    | nil => exact iff_of_true trivial (List.isChain_singleton _)
    | cons later calls ih =>
      have hlater := hexact later List.mem_cons_self
      have hpair : InTime spacingMs (tookAfter spacingMs took earlier) later ↔
          spacingMs ≤ earlier.idle ∨ spacingMs ≤ later.idle := by
        rw [hslept hlate htook hin]
        unfold InTime
        rw [hlater, add_zero, max_le_iff, sub_nonpos, and_iff_right le_rfl, or_comm]
      have hnonneg : 0 ≤ tookAfter spacingMs took earlier := by
        rw [hslept hlate htook hin]
        exact le_max_left _ _
      rw [List.isChain_cons_cons, ← hpair]
      exact and_congr_right fun hin' =>
        ih hlater hnonneg hin' fun call hcall => hexact call (List.mem_cons_of_mem _ hcall)
  cases calls with
  | nil => exact iff_of_true trivial .nil
  | cons second calls =>
    have hsecond := hexact second List.mem_cons_self
    have hin : InTime spacingMs first.late second := Or.inr (hfirst.trans_le second.late_nonneg)
    refine (and_iff_right hin).trans ?_
    exact hafter hsecond first.late_nonneg hin fun call hcall =>
      hexact call (List.mem_cons_of_mem _ hcall)

end Pacer

/-! ## The pacer of the watcher -/

/-- What a timeline says of its pacer. -/
def Timeline.pacer (w : Timeline) : PacerState ℤ :=
  { time := w.time, lastRequestAt := w.lastRequestAt }

/-- What has to be known of a run for it to be a call. -/
theorem exists_call {w w' : Timeline} {spacingMs dispatchAt : ℤ} (hidle : w.time ≤ dispatchAt)
    (hlast : w'.lastRequestAt = some dispatchAt)
    (hslept : dispatchAt + pauseOf spacingMs dispatchAt w.lastRequestAt ≤ w'.time) :
    ∃ call : Call ℤ, w'.pacer = w.pacer.awaitFloor spacingMs call := by
  have hdispatch : w.time + (dispatchAt - w.time) = dispatchAt := by omega
  refine ⟨{ idle := dispatchAt - w.time
            late := w'.time - (dispatchAt + pauseOf spacingMs dispatchAt w.lastRequestAt)
            idle_nonneg := by omega
            late_nonneg := by omega }, ?_⟩
  unfold Timeline.pacer PacerState.awaitFloor
  dsimp only
  rw [hdispatch, hlast]
  congr 1
  omega

/-- **Every run of the watcher's pacer is such a call**, at whole milliseconds. -/
theorem safe_awaitFloor {Text : Type} {spacingMs : ℕ} (w : Timeline) :
    Proc.Safe Timeline.Step Lts.Alone (fun _ _ => True)
      (fun _ w' => ∃ call : Call ℤ, w'.pacer = w.pacer.awaitFloor (spacingMs : ℤ) call) w
      (Pacer.awaitFloor spacingMs : Proc (PacedEffect Text) PacedReply Unit) := by
  have halone : ∀ {P : Timeline → Prop} (w w' : Timeline), P w → Lts.Alone w w' → P w' :=
    fun _ _ h hl => hl ▸ h
  unfold Pacer.awaitFloor
  -- the clock is read, then the variable, and then it is set
  refine Proc.safe_call (· = w) halone
    (fun w h₀ dispatchAt w₁ hnow => ⟨trivial, ?_⟩) rfl
  subst h₀
  obtain ⟨hidle, hto, hpasses₁⟩ := hnow
  refine Proc.safe_call (· = w₁) halone (fun w₁ h₁ last w₂ hread => ⟨trivial, ?_⟩) rfl
  subst h₁
  obtain ⟨rfl, hpasses₂⟩ := hread
  refine Proc.safe_call (· = w₂) halone (fun w₂ h₂ _ w₃ hset => ⟨trivial, ?_⟩) rfl
  subst h₂
  have hlast : w₃.lastRequestAt = some dispatchAt := hset.lastRequestAt
  have htime : (show ℤ from dispatchAt) ≤ w₃.time := (hto.trans hpasses₂.time).trans hset.time
  rw [hpasses₁.lastRequestAt]
  cases hremaining : remainingFloor spacingMs dispatchAt w.lastRequestAt with
  | none =>
    refine Proc.safe_pure halone (exists_call hidle hlast ?_)
    unfold pauseOf
    rw [show w.lastRequestAt.map _ = none from hremaining]
    exact (add_zero _).trans_le htime
  | some remaining =>
    have hpause : pauseOf (spacingMs : ℤ) dispatchAt w.lastRequestAt =
        if remaining > 0 then remaining else 0 := by
      unfold pauseOf
      rw [show w.lastRequestAt.map _ = some remaining from hremaining]
    dsimp only
    unfold noFloorRemaining
    split
    · rename_i hpositive
      refine Proc.safe_call (· = w₃) halone (fun w₃ h₃ _ w₄ hsleep => ⟨trivial, ?_⟩) rfl
      subst h₃
      refine Proc.safe_pure halone (exists_call hidle (hsleep.2.lastRequestAt.trans hlast) ?_)
      have hslept := hsleep.1
      rw [hpause, if_pos hpositive]
      -- the sleep began no earlier than the clock was read
      have hbegan : (show ℤ from dispatchAt) ≤ w₃.time := htime
      rw [Int.toNat_of_nonneg hpositive.le] at hslept
      exact (add_le_add_left hbegan remaining).trans hslept
    · rename_i hnone
      refine Proc.safe_pure halone (exists_call hidle hlast ?_)
      rw [hpause, if_neg hnone]
      exact (add_zero _).trans_le htime

/-- A call right after the last one, and exactly as long as it must be. -/
def promptCall : Call ℤ where
  idle := 0
  late := 0
  idle_nonneg := le_rfl
  late_nonneg := le_rfl

theorem pacer_floor_iff_prompt :
    FloorKept (250 : ℤ) (completions 250 (createPacer 0) [promptCall, promptCall, promptCall]) ↔
      AllInTime 250 [promptCall, promptCall, promptCall] :=
  pacer_floor_iff 250 0 _

/-- Of three prompt calls the second and the third return at once. -/
theorem pacer_floor_not_kept : ¬ ∀ spacingMs : ℤ, 0 ≤ spacingMs → ∀ (start : ℤ) calls,
    FloorKept spacingMs (completions spacingMs (createPacer start) calls) := by
  intro hkept
  have hchain := hkept 250 (by decide) 0 [promptCall, promptCall, promptCall]
  have hlast : (250 : ℤ) ≤ 250 - 250 := (List.isChain_cons_cons.1
    (List.isChain_cons_cons.1 hchain).2).1
  omega

end ReplaysFetcher
