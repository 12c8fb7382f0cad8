/-
  Running programs.

  `exec serve n` performs `n` steps of a program against a server that is a FUNCTION, always
  advancing the first task in flight.  It computes, so a concrete run can be exhibited by
  evaluation, and `runs_exec` turns it into a run of the relational semantics: it is how an
  existential statement about runs gets its example.
-/
import ReplaysFetcher.Effectful.Record

namespace Effectful

namespace Proc

variable {W E : Type} {R : E → Type} {α τ : Type}

/-- The results of a fan whose tasks are all done. -/
def allResults {n : Nat} (tasks : Fin n → Proc E R τ) : Option (Fin n → τ) :=
  if h : ∀ i, (tasks i).result.isSome then some fun i => (tasks i).result.get (h i) else none

/-- All tasks have finished, each with its result. -/
theorem of_allResults {n : Nat} {tasks : Fin n → Proc E R τ} {vs : Fin n → τ}
    (h : allResults tasks = some vs) (i : Fin n) : tasks i = .pure (vs i) := by
  unfold allResults at h
  split at h
  case isTrue hall =>
    obtain rfl := Option.some.inj h
    exact result_eq_some.1 (Option.some_get _).symm
  case isFalse => cases h

/-- One step against a server that is a function; `none` when nothing is left to do. -/
def exec1 (serve : W → (e : E) → R e × W) :
    {α : Type} → Proc E R α → W → Option (W × Proc E R α)
  | _, .pure _, _ => none
  | _, .call e k, w => some ((serve w e).2, k (serve w e).1)
  | _, .fan limit tasks k, w =>
    match inFlight limit tasks with
    | i :: _ =>
      (exec1 serve (tasks i) w).map fun x => (x.1, .fan limit (Function.update tasks i x.2) k)
    | [] => (allResults tasks).map fun vs => (w, k vs)
  | _, .loop body s k, w => some (w, (body s).bind (again body k))

/-- `n` steps, or as many as there are. -/
def exec (serve : W → (e : E) → R e × W) : Nat → W × Proc E R α → W × Proc E R α
  | 0, x => x
  | n + 1, x =>
    match exec1 serve x.2 x.1 with
    | some x' => exec serve n x'
    | none => x

/-- The computed step is a step. -/
theorem step_exec1 {serve : W → (e : E) → R e × W} {env : Env W E R}
    (hserve : ∀ w e, env w e (serve w e).1 (serve w e).2) {p : Proc E R α} {w : W}
    {x : W × Proc E R α} (h : exec1 serve p w = some x) : Step env p w x.1 x.2 := by
  induction p with
  | pure a => cases h
  | call e k =>
    obtain rfl := Option.some.inj h
    exact ⟨_, hserve w e, rfl⟩
  | fan limit tasks k iht =>
    unfold exec1 at h
    split at h
    case h_1 i rest hfl =>
      obtain ⟨y, hy, rfl⟩ := Option.map_eq_some_iff.1 h
      exact Or.inl ⟨i, hfl ▸ List.mem_cons_self, y.2, iht i hy, rfl⟩
    case h_2 =>
      obtain ⟨vs, hvs, rfl⟩ := Option.map_eq_some_iff.1 h
      exact Or.inr ⟨vs, of_allResults hvs, rfl, rfl⟩
  | loop body s k =>
    obtain rfl := Option.some.inj h
    exact ⟨rfl, rfl⟩

/-- What `exec` does is a run of the program. -/
theorem runs_exec {serve : W → (e : E) → R e × W} {env : Env W E R}
    (hserve : ∀ w e, env w e (serve w e).1 (serve w e).2) {rely : W → W → Prop} (n : Nat)
    (x : W × Proc E R α) :
    (lts env α).Runs rely x.1 x.2 (exec serve n x).1 (exec serve n x).2 := by
  induction n generalizing x with
  | zero => exact .refl _ _
  | succ n ih =>
    unfold exec
    split
    case h_1 x' hx => exact .head (step_exec1 hserve hx) (ih x')
    case h_2 => exact .refl _ _

/-! ## Picking the task that moves -/

/-- One step, the task in flight at `pick` moving. -/
def exec1At (serve : W → (e : E) → R e × W) (pick : Nat) :
    {α : Type} → Proc E R α → W → Option (W × Proc E R α)
  | _, .fan limit tasks k, w =>
    match (inFlight limit tasks)[pick]? with
    | some i =>
      (exec1 serve (tasks i) w).map fun x => (x.1, .fan limit (Function.update tasks i x.2) k)
    | none => (allResults tasks).map fun vs => (w, k vs)
  | _, p, w => exec1 serve p w

/-- A step for each pick, or as many as there are. -/
def execPicks (serve : W → (e : E) → R e × W) : List Nat → W × Proc E R α → W × Proc E R α
  | [], x => x
  | pick :: picks, x =>
    match exec1At serve pick x.2 x.1 with
    | some x' => execPicks serve picks x'
    | none => x

/-- So is the one that picks its task. -/
theorem step_exec1At {serve : W → (e : E) → R e × W} {env : Env W E R}
    (hserve : ∀ w e, env w e (serve w e).1 (serve w e).2) {pick : Nat} {p : Proc E R α} {w : W}
    {x : W × Proc E R α} (h : exec1At serve pick p w = some x) : Step env p w x.1 x.2 := by
  cases p with
  | fan limit tasks k =>
    dsimp only [exec1At] at h
    cases hpick : (inFlight limit tasks)[pick]? with
    | some i =>
      rw [hpick] at h
      obtain ⟨y, hy, rfl⟩ := Option.map_eq_some_iff.1 h
      exact Or.inl ⟨i, List.mem_of_getElem? hpick, y.2, step_exec1 hserve hy, rfl⟩
    | none =>
      rw [hpick] at h
      obtain ⟨vs, hvs, rfl⟩ := Option.map_eq_some_iff.1 h
      exact Or.inr ⟨vs, of_allResults hvs, rfl, rfl⟩
  | pure a => exact step_exec1 hserve h
  | call e k => exact step_exec1 hserve h
  | loop body s k => exact step_exec1 hserve h

/-- The steps picked are a run. -/
theorem runs_execPicks {serve : W → (e : E) → R e × W} {env : Env W E R}
    (hserve : ∀ w e, env w e (serve w e).1 (serve w e).2) {rely : W → W → Prop} (picks : List Nat)
    (x : W × Proc E R α) : (lts env α).Runs rely x.1 x.2 (execPicks serve picks x).1
      (execPicks serve picks x).2 := by
  induction picks generalizing x with
  | nil => exact .refl _ _
  | cons pick picks ih =>
    unfold execPicks
    split
    case h_1 x' hx => exact .head (step_exec1At hserve hx) (ih x')
    case h_2 => exact .refl _ _

/-! ## Several programs, in turns -/

/-- Each turn is a program and the number of its steps. -/
def execTurns {ι : Type} [DecidableEq ι] (serve : ι → W → (e : E) → R e × W) :
    List (ι × Nat) → W × (ι → Proc E R α) → W × (ι → Proc E R α)
  | [], x => x
  | (i, n) :: turns, x =>
    let turn := exec (serve i) n (x.1, x.2 i)
    execTurns serve turns (turn.1, Function.update x.2 i turn.2)

/-- The turns taken are a run of the pool. -/
theorem poolRuns_execTurns {ι : Type} [DecidableEq ι] {serve : ι → W → (e : E) → R e × W}
    {env : ι → Env W E R} (hserve : ∀ i w e, env i w e (serve i w e).1 (serve i w e).2)
    (turns : List (ι × Nat)) (x : W × (ι → Proc E R α)) :
    Lts.PoolRuns (fun i => lts (env i) α) x.1 x.2 (execTurns serve turns x).1
      (execTurns serve turns x).2 := by
  induction turns generalizing x with
  | nil => exact .refl _ _
  | cons turn turns ih =>
    obtain ⟨i, n⟩ := turn
    have hturn := Lts.PoolRuns.of_runs (L := fun i => lts (env i) α) i
      (runs_exec (hserve i) n (x.1, x.2 i))
    exact hturn.trans (ih ((exec (serve i) n (x.1, x.2 i)).1, _))

/-- An execution that has finished held a conversation. -/
theorem exists_emits_exec {serve : W → (e : E) → R e × W} {n : Nat} {w : W} {p : Proc E R α} {a : α}
    (h : (exec serve n (w, p)).2 = .pure a) : ∃ l, Emits p l a := by
  have hruns : (lts (fun w e r w' => serve w e = (r, w')) α).Runs Lts.Alone w p
      (exec serve n (w, p)).1 (exec serve n (w, p)).2 := runs_exec (fun _ _ => rfl) n (w, p)
  rw [h] at hruns
  obtain ⟨l, hl, _⟩ := exists_emits (P := fun _ => True) (fun _ _ _ _ _ => trivial) hruns
  exact ⟨l, hl⟩

end Proc

end Effectful
