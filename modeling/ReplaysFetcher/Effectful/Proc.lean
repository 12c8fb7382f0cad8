/-
  Effectful programs as trees.

  A promise chain that talks to the outside world is a TREE: a leaf holds the result, a node holds
  one request `e : E` and a continuation for every reply `r : R e` the world may give.  Two more
  nodes cover what such chains do besides awaiting one reply after the other:

  * `fan limit tasks k`: start `tasks`, at most `limit` in flight, started in index order, and go on
    with all their results once the last one is in (a limiter under a gather-all);
  * `loop body s k`: a `while` loop.  `body s` ends in `inl s'` (once more, from `s'`) or in `inr b`
    (leave with `b`).  It is unfolded by a silent step, so a loop may run forever although every
    tree is finite.

  Cutting a run after any number of steps is a crash, so nothing has to be added for kills.

  Nothing here says what a request does.  That is the business of an environment
  `env : Env W E R`, the relation "in world `w` request `e` may be answered `r` and leave `w'`".
  An environment is a relation, not a function: failures, lost acknowledgements and arbitrary
  clocks are all extra pairs in it, and a theorem about every `env` step is a theorem about every
  failure schedule.
-/
import Mathlib.Logic.Function.Basic
import Mathlib.Data.Fin.Basic
import Mathlib.Data.List.FinRange

namespace Effectful

/-- A program that performs requests `E`, is answered by `R`, and returns a value. -/
inductive Proc (E : Type) (R : E → Type) : Type → Type 1
  | pure {α : Type} (a : α) : Proc E R α
  | call {α : Type} (e : E) (k : R e → Proc E R α) : Proc E R α
  | fan {α τ : Type} {n : Nat} (limit : Nat) (tasks : Fin n → Proc E R τ)
      (k : (Fin n → τ) → Proc E R α) : Proc E R α
  | loop {α σ β : Type} (body : σ → Proc E R (σ ⊕ β)) (s : σ) (k : β → Proc E R α) : Proc E R α

/-- What a world may answer: `env w e r w'` when request `e` in `w` may be answered by `r`,
    leaving the world `w'`. -/
abbrev Env (W E : Type) (R : E → Type) : Type := W → (e : E) → R e → W → Prop

/-- The same world, asked only what `allowed` lets through. -/
def Env.restrict {W E : Type} {R : E → Type} (env : Env W E R) (allowed : W → E → Prop) :
    Env W E R :=
  fun w e r w' => allowed w e ∧ env w e r w'

namespace Proc

variable {E : Type} {R : E → Type} {α β γ σ τ : Type}

/-- The second program goes on with the result of the first. -/
def bind : {α : Type} → Proc E R α → (α → Proc E R β) → Proc E R β
  | _, .pure a, f => f a
  | _, .call e k, f => .call e (fun r => (k r).bind f)
  | _, .fan limit tasks k, f => .fan limit tasks (fun vs => (k vs).bind f)
  | _, .loop body s k, f => .loop body s (fun b => (k b).bind f)

/-- The program, with every request answered by a program of another signature. -/
def handle {E' : Type} {R' : E' → Type} (handler : (e : E) → Proc E' R' (R e)) :
    {α : Type} → Proc E R α → Proc E' R' α
  | _, .pure a => .pure a
  | _, .call e k => (handler e).bind fun r => (k r).handle handler
  | _, .fan limit tasks k =>
    .fan limit (fun i => (tasks i).handle handler) fun vs => (k vs).handle handler
  | _, .loop body s k => .loop (fun s => (body s).handle handler) s fun b => (k b).handle handler

instance : Monad (Proc E R) where
  pure := .pure
  bind := .bind

/-- The program that performs one request and returns the reply. -/
def perform (e : E) : Proc E R (R e) := .call e .pure

/-- All of `tasks`, at most `limit` at a time. -/
def gather {n : Nat} (limit : Nat) (tasks : Fin n → Proc E R τ) : Proc E R (Fin n → τ) :=
  .fan limit tasks .pure

/-- Repeat `body` until it leaves. -/
def iterate (body : σ → Proc E R (σ ⊕ β)) (s : σ) : Proc E R β := .loop body s .pure

/-- A finished program hands its result on. -/
@[simp] theorem pure_bind' (a : α) (f : α → Proc E R β) : (Proc.pure a).bind f = f a := rfl

/-- A request stays in front. -/
@[simp] theorem call_bind' (e : E) (k : R e → Proc E R α) (f : α → Proc E R β) :
    (Proc.call e k).bind f = .call e (fun r => (k r).bind f) := rfl

/-- One request, and what is made of its reply. -/
@[simp] theorem perform_bind' (e : E) (f : R e → Proc E R β) :
    (perform e).bind f = .call e f := rfl

/-- A fan, and what is made of its results. -/
@[simp] theorem gather_bind' {n : Nat} (limit : Nat) (tasks : Fin n → Proc E R τ)
    (f : (Fin n → τ) → Proc E R β) : (gather limit tasks).bind f = .fan limit tasks f := rfl

/-- A loop, and what is made of its last value. -/
@[simp] theorem iterate_bind' (body : σ → Proc E R (σ ⊕ α)) (s : σ) (f : α → Proc E R β) :
    (iterate body s).bind f = .loop body s f := rfl

/-- `>>=` is `bind`. -/
theorem bind_eq (p : Proc E R α) (f : α → Proc E R β) : (p >>= f) = p.bind f := rfl

/-- The monad's `pure` is the tree's leaf. -/
theorem pure_eq (a : α) : (Pure.pure a : Proc E R α) = .pure a := rfl

/-- Nothing to do after a program leaves it as it is. -/
theorem bind_pure' (p : Proc E R α) : p.bind .pure = p := by
  induction p with
  | pure a => rfl
  | call e k ih => exact congrArg (Proc.call e) (funext ih)
  | fan limit tasks k _ ih => exact congrArg (Proc.fan limit tasks) (funext ih)
  | loop body s k _ ih => exact congrArg (Proc.loop body s) (funext ih)

/-- Only the order of what follows matters. -/
theorem bind_assoc' (p : Proc E R α) (f : α → Proc E R β) (g : β → Proc E R γ) :
    (p.bind f).bind g = p.bind (fun a => (f a).bind g) := by
  induction p with
  | pure a => rfl
  | call e k ih => exact congrArg (Proc.call e) (funext fun r => ih r f)
  | fan limit tasks k _ ih => exact congrArg (Proc.fan limit tasks) (funext fun vs => ih vs f)
  | loop body s k _ ih => exact congrArg (Proc.loop body s) (funext fun b => ih b f)

/-- Answering by programs goes through a composition. -/
theorem handle_bind {E' : Type} {R' : E' → Type} (handler : (e : E) → Proc E' R' (R e))
    (p : Proc E R α) (f : α → Proc E R β) :
    (p.bind f).handle handler = (p.handle handler).bind fun a => (f a).handle handler := by
  induction p with
  | pure a => rfl
  | call e k ih =>
    show (handler e).bind _ = ((handler e).bind _).bind _
    rw [bind_assoc']
    exact congrArg _ (funext fun r => ih r f)
  | fan limit tasks k _ ih => exact congrArg (Proc.fan limit _) (funext fun vs => ih vs f)
  | loop body s k _ ih => exact congrArg (Proc.loop _ s) (funext fun b => ih b f)

instance : LawfulMonad (Proc E R) :=
  LawfulMonad.mk' (Proc E R) bind_pure' (fun _ _ => rfl) bind_assoc'

/-- The value of a finished program. -/
def result : Proc E R α → Option α
  | .pure a => some a
  | _ => none

/-- A leaf has its value as the result. -/
@[simp] theorem result_pure (a : α) : (Proc.pure a : Proc E R α).result = some a := rfl

/-- A program with a result is a leaf. -/
theorem result_eq_some {p : Proc E R α} {a : α} : p.result = some a ↔ p = .pure a := by
  cases p <;> simp [result]

/-- What follows one round of a loop. -/
def again (body : σ → Proc E R (σ ⊕ β)) (k : β → Proc E R α) : σ ⊕ β → Proc E R α
  | .inl s => .loop body s k
  | .inr b => k b

/-- The tasks a limiter has in flight: the first `limit` unfinished ones. -/
def inFlight {n : Nat} (limit : Nat) (tasks : Fin n → Proc E R τ) : List (Fin n) :=
  ((List.finRange n).filter fun i => (tasks i).result.isNone).take limit

/-! ## Steps -/

section Step

variable {W : Type} {env : Env W E R}

/-- One step: a request answered, a task of a fan advanced, a fan joined, a loop unfolded. -/
def Step (env : Env W E R) : {α : Type} → Proc E R α → W → W → Proc E R α → Prop
  | _, .pure _, _, _, _ => False
  | _, .call e k, w, w', q => ∃ r, env w e r w' ∧ q = k r
  | _, .fan limit tasks k, w, w', q =>
    (∃ i ∈ inFlight limit tasks, ∃ t, Step env (tasks i) w w' t ∧
      q = .fan limit (Function.update tasks i t) k) ∨
    ∃ vs, (∀ i, tasks i = .pure (vs i)) ∧ w' = w ∧ q = k vs
  | _, .loop body s k, w, w', q => w' = w ∧ q = (body s).bind (again body k)

/-- A finished program takes no step. -/
@[simp] theorem step_pure {w w' : W} {a : α} {q : Proc E R α} :
    Step env (.pure a) w w' q ↔ False := Iff.rfl

/-- A request steps when it is answered. -/
@[simp] theorem step_call {w w' : W} {e : E} {k : R e → Proc E R α} {q : Proc E R α} :
    Step env (.call e k) w w' q ↔ ∃ r, env w e r w' ∧ q = k r := Iff.rfl

/-- A fan steps by one of its running tasks, or is joined. -/
theorem step_fan {w w' : W} {n limit : Nat} {tasks : Fin n → Proc E R τ}
    {k : (Fin n → τ) → Proc E R α} {q : Proc E R α} :
    Step env (.fan limit tasks k) w w' q ↔
      (∃ i ∈ inFlight limit tasks, ∃ t, Step env (tasks i) w w' t ∧
        q = .fan limit (Function.update tasks i t) k) ∨
      ∃ vs, (∀ i, tasks i = .pure (vs i)) ∧ w' = w ∧ q = k vs := Iff.rfl

/-- A loop is unfolded without a request. -/
@[simp] theorem step_loop {w w' : W} {body : σ → Proc E R (σ ⊕ β)} {s : σ} {k : β → Proc E R α}
    {q : Proc E R α} :
    Step env (.loop body s k) w w' q ↔ w' = w ∧ q = (body s).bind (again body k) := Iff.rfl

/-- A step of a sequential composition is a step of its first part, or the first part is done. -/
theorem step_bind {w w' : W} {p : Proc E R α} {f : α → Proc E R β} {q : Proc E R β}
    (h : Step env (p.bind f) w w' q) :
    (∃ a, p = .pure a ∧ Step env (f a) w w' q) ∨ ∃ p', Step env p w w' p' ∧ q = p'.bind f := by
  cases p with
  | pure a => exact Or.inl ⟨a, rfl, h⟩
  | call e k =>
    obtain ⟨r, hr, rfl⟩ := h
    exact Or.inr ⟨k r, ⟨r, hr, rfl⟩, rfl⟩
  | fan limit tasks k =>
    rcases h with ⟨i, hi, t, ht, rfl⟩ | ⟨vs, hvs, rfl, rfl⟩
    · exact Or.inr ⟨_, Or.inl ⟨i, hi, t, ht, rfl⟩, rfl⟩
    · exact Or.inr ⟨k vs, Or.inr ⟨vs, hvs, rfl, rfl⟩, rfl⟩
  | loop body s k =>
    obtain ⟨rfl, rfl⟩ := h
    refine Or.inr ⟨_, ⟨rfl, rfl⟩, ?_⟩
    -- unfolding the loop first or composing first gives the same tree
    rw [bind_assoc']
    congr 1
    funext x
    cases x <;> rfl

/-- Running the first part of a sequential composition. -/
theorem Step.bind {w w' : W} {p p' : Proc E R α} (h : Step env p w w' p') (f : α → Proc E R β) :
    Step env (p.bind f) w w' (p'.bind f) := by
  cases p with
  | pure a => exact h.elim
  | call e k =>
    obtain ⟨r, hr, rfl⟩ := h
    exact ⟨r, hr, rfl⟩
  | fan limit tasks k =>
    rcases h with ⟨i, hi, t, ht, rfl⟩ | ⟨vs, hvs, rfl, rfl⟩
    · exact Or.inl ⟨i, hi, t, ht, rfl⟩
    · exact Or.inr ⟨vs, hvs, rfl, rfl⟩
  | loop body s k =>
    obtain ⟨rfl, rfl⟩ := h
    refine ⟨rfl, ?_⟩
    rw [bind_assoc']
    congr 1
    funext x
    cases x <;> rfl

/-- **A step is silent, or one request is answered**, and the same step can be made in every other
    world, there where the same reply is given. -/
theorem Step.anywhere {α : Type} {p q : Proc E R α} {w w' : W} (h : Step env p w w' q) :
    (w' = w ∧ ∀ {V : Type} (env' : Env V E R) (v : V), Step env' p v v q) ∨
      ∃ e r, env w e r w' ∧
        ∀ {V : Type} (env' : Env V E R) (v v' : V), env' v e r v' → Step env' p v v' q := by
  induction p with
  | pure a => exact h.elim
  | call e k =>
    obtain ⟨r, hr, rfl⟩ := h
    exact Or.inr ⟨e, r, hr, fun env' v v' hr' => ⟨r, hr', rfl⟩⟩
  | fan limit tasks k iht =>
    rcases h with ⟨i, hi, t, ht, rfl⟩ | ⟨vs, hvs, rfl, rfl⟩
    · -- the task's own step decides, by induction
      rcases iht i ht with ⟨rfl, hs⟩ | ⟨e, r, hr, hs⟩
      · exact Or.inl ⟨rfl, fun env' v => Or.inl ⟨i, hi, t, hs env' v, rfl⟩⟩
      · refine Or.inr ⟨e, r, hr, fun env' v v' hr' => ?_⟩
        exact Or.inl ⟨i, hi, t, hs env' v v' hr', rfl⟩
    · exact Or.inl ⟨rfl, fun env' v => Or.inr ⟨vs, hvs, rfl, rfl⟩⟩
  | loop body s k =>
    obtain ⟨rfl, rfl⟩ := h
    exact Or.inl ⟨rfl, fun env' v => ⟨rfl, rfl⟩⟩

/-- A step leaves the world as it is, or is a step of the environment. -/
theorem Step.world {α : Type} {p q : Proc E R α} {w w' : W} (h : Step env p w w' q) :
    w' = w ∨ ∃ e r, env w e r w' := by
  rcases h.anywhere with ⟨hw, _⟩ | ⟨e, r, hr, _⟩
  · exact Or.inl hw
  · exact Or.inr ⟨e, r, hr⟩

/-- Steps of a smaller environment are steps of a larger one. -/
theorem Step.mono {env' : Env W E R} (henv : ∀ w e r w', env w e r w' → env' w e r w')
    {α : Type} {p q : Proc E R α} {w w' : W} (h : Step env p w w' q) : Step env' p w w' q := by
  rcases h.anywhere with ⟨rfl, hs⟩ | ⟨e, r, hr, hs⟩
  · exact hs env' w'
  · exact hs env' w w' (henv _ _ _ _ hr)

end Step

end Proc

end Effectful
