/-
  Counted steps.

  `Leads serve n x y` says that `n` steps of `exec` take the state `x` to `y`.  Unlike the evaluation
  of `exec` it has rules: steps compose (`Leads.trans`), those of the first part of a program are
  steps of the whole (`Leads.bind`), and those of the first task are steps of its fan
  (`Leads.first`).  So a run of a program that is not closed can be followed step by step.

  `Reaches` forgets the program that is left over: what counts is the world reached.
-/
import ReplaysFetcher.Effectful.Async
import ReplaysFetcher.Effectful.Exec

namespace Effectful

namespace Proc

variable {W E : Type} {R : E → Type} {α β σ τ : Type}

/-- `n` steps lead from the one state to the other. -/
inductive Leads (serve : W → (e : E) → R e × W) :
    Nat → W × Proc E R α → W × Proc E R α → Prop
  | refl (x : W × Proc E R α) : Leads serve 0 x x
  | head {n : Nat} {w : W} {p : Proc E R α} {x y : W × Proc E R α}
      (h : exec1 serve p w = some x) (hrest : Leads serve n x y) : Leads serve (n + 1) (w, p) y

variable {serve : W → (e : E) → R e × W} {w w' : W} {n m : Nat}

/-! ## Following `exec` -/

/-- `exec` takes the steps. -/
theorem exec_of_leads {x y : W × Proc E R α} (h : Leads serve n x y) : exec serve n x = y := by
  induction h with
  | refl x => rfl
  | head h _ ih =>
    unfold exec
    dsimp only
    rw [h]
    exact ih

/-- To pick the first task in flight is the step that needs no pick. -/
theorem exec1At_zero (p : Proc E R α) (w : W) : exec1At serve 0 p w = exec1 serve p w := by
  cases p with
  | fan limit tasks k =>
    dsimp only [exec1At]
    conv_rhs => unfold exec1
    cases inFlight limit tasks <;> rfl
  | pure a => rfl
  | call e k => rfl
  | loop body s k => rfl

/-- So it is for any number of steps. -/
theorem execPicks_replicate (n : Nat) (x : W × Proc E R α) :
    execPicks serve (List.replicate n 0) x = exec serve n x := by
  induction n generalizing x with
  | zero => rfl
  | succ n ih =>
    rw [List.replicate_succ]
    unfold execPicks exec
    rw [exec1At_zero]
    cases exec1 serve x.2 x.1 with
    | none => rfl
    | some x' => exact ih x'

/-! ## Rules -/

/-- Steps, and then steps. -/
theorem Leads.trans {x y z : W × Proc E R α} (h : Leads serve n x y) (h' : Leads serve m y z) :
    Leads serve (m + n) x z := by
  induction h with
  | refl x => exact h'
  | head h _ ih => exact .head h (ih h')

/-- A request is answered in one step. -/
theorem leads_call {e : E} {k : R e → Proc E R α} :
    Leads serve 1 (w, .call e k) ((serve w e).2, k (serve w e).1) :=
  .head rfl (.refl _)

/-- A loop is entered in one step. -/
theorem leads_loop {body : σ → Proc E R (σ ⊕ β)} {s : σ} {k : β → Proc E R α} :
    Leads serve 1 (w, .loop body s k) (w, (body s).bind (again body k)) :=
  .head rfl (.refl _)

/-- A step of the first part of a program is a step of the program. -/
theorem exec1_bind {p : Proc E R α} {f : α → Proc E R β} {x : W × Proc E R α}
    (h : exec1 serve p w = some x) : exec1 serve (p.bind f) w = some (x.1, x.2.bind f) := by
  cases p with
  | pure a => cases h
  | call e k =>
    obtain rfl := Option.some.inj h
    rfl
  | fan limit tasks k =>
    show exec1 serve (.fan limit tasks fun vs => (k vs).bind f) w = _
    unfold exec1 at h ⊢
    split at h
    case h_1 i rest hfl =>
      obtain ⟨y, hy, rfl⟩ := Option.map_eq_some_iff.1 h
      rw [hy]
      rfl
    case h_2 hfl =>
      obtain ⟨vs, hvs, rfl⟩ := Option.map_eq_some_iff.1 h
      rw [hvs]
      rfl
  | loop body s k =>
    obtain rfl := Option.some.inj h
    show some (w, (body s).bind (again body fun b => (k b).bind f)) =
      some (w, ((body s).bind (again body k)).bind f)
    rw [bind_assoc']
    -- what is done again ends in the rest of the program as well
    congr 3
    funext x
    cases x <;> rfl

/-- So are all its steps. -/
theorem Leads.bind {p q : Proc E R α} (h : Leads serve n (w, p) (w', q)) (f : α → Proc E R β) :
    Leads serve n (w, p.bind f) (w', q.bind f) := by
  generalize hx : (w, p) = x at h
  generalize hy : (w', q) = y at h
  induction h generalizing w p with
  | refl x =>
    obtain ⟨rfl, rfl⟩ := Prod.mk.inj (hx.trans hy.symm)
    exact .refl _
  | head h _ ih =>
    obtain ⟨rfl, rfl⟩ := Prod.mk.inj hx
    exact .head (exec1_bind h) (ih rfl hy)

/-- What takes a step has no result yet. -/
theorem result_isNone_of_exec1 {p : Proc E R α} {x : W × Proc E R α}
    (h : exec1 serve p w = some x) : p.result.isNone = true := by
  cases p with
  | pure a => cases h
  | call e k => rfl
  | fan limit tasks k => rfl
  | loop body s k => rfl

/-- The first task of a fan goes first, as long as it is not done. -/
theorem exec1_first {l limit : Nat} {tasks : Fin (l + 1) → Proc E R τ}
    {k : (Fin (l + 1) → τ) → Proc E R α} (hlimit : 0 < limit) {x : W × Proc E R τ}
    (h : exec1 serve (tasks 0) w = some x) :
    exec1 serve (.fan limit tasks k) w =
      some (x.1, .fan limit (Function.update tasks 0 x.2) k) := by
  obtain ⟨rest, hflight⟩ : ∃ rest, inFlight limit tasks = 0 :: rest := by
    obtain ⟨l, rfl⟩ := Nat.exists_eq_add_of_lt hlimit
    unfold inFlight
    rw [List.finRange_succ, List.filter_cons, if_pos (result_isNone_of_exec1 h)]
    exact ⟨_, rfl⟩
  unfold exec1
  rw [hflight]
  dsimp only
  rw [h]
  rfl

/-- So its steps are steps of the fan. -/
theorem Leads.first {l limit : Nat} {tasks : Fin (l + 1) → Proc E R τ} {t : Proc E R τ}
    {k : (Fin (l + 1) → τ) → Proc E R α} (hlimit : 0 < limit)
    (h : Leads serve n (w, tasks 0) (w', t)) :
    Leads serve n (w, .fan limit tasks k) (w', .fan limit (Function.update tasks 0 t) k) := by
  generalize hx : (w, tasks 0) = x at h
  generalize hy : (w', t) = y at h
  induction h generalizing w tasks with
  | refl x =>
    obtain ⟨rfl, rfl⟩ := Prod.mk.inj (hx.trans hy.symm)
    rw [Function.update_eq_self]
    exact .refl _
  | @head n w p x y h _ ih =>
    obtain ⟨rfl, rfl⟩ := Prod.mk.inj hx
    have htask : (x.1, Function.update tasks 0 x.2 0) = x := by rw [Function.update_self]
    have hrest : Leads serve n (x.1, .fan limit (Function.update tasks 0 x.2) k)
        (w', .fan limit (Function.update (Function.update tasks 0 x.2) 0 t) k) := ih htask hy
    rw [Function.update_idem] at hrest
    exact .head (exec1_first hlimit h) hrest

/-! ## Where the steps lead -/

/-- `n` steps lead to a world where `post` holds. -/
def Reaches (serve : W → (e : E) → R e × W) (n : Nat) (post : W → Prop) (w : W)
    (p : Proc E R α) : Prop :=
  ∃ w' q, Leads serve n (w, p) (w', q) ∧ post w'

variable {post : W → Prop}

/-- The steps lead there. -/
theorem Leads.reaches_there {p q : Proc E R α} (h : Leads serve n (w, p) (w', q))
    (hpost : post w') : Reaches serve n post w p :=
  ⟨w', q, h, hpost⟩

/-- The steps lead to where others lead there. -/
theorem Leads.reaches {p q : Proc E R α} (h : Leads serve n (w, p) (w', q))
    (h' : Reaches serve m post w' q) : Reaches serve (m + n) post w p := by
  obtain ⟨w'', q', hq, hpost⟩ := h'
  exact ⟨w'', q', h.trans hq, hpost⟩

/-- The first part of a program leads there, and so does the program. -/
theorem Reaches.bind {p : Proc E R α} (h : Reaches serve n post w p) (f : α → Proc E R β) :
    Reaches serve n post w (p.bind f) := by
  obtain ⟨w', q, hq, hpost⟩ := h
  exact ⟨w', _, hq.bind f, hpost⟩

/-- The first task leads there, and so does its fan. -/
theorem Reaches.first {l limit : Nat} {tasks : Fin (l + 1) → Proc E R τ}
    {k : (Fin (l + 1) → τ) → Proc E R α} (hlimit : 0 < limit)
    (h : Reaches serve n post w (tasks 0)) : Reaches serve n post w (.fan limit tasks k) := by
  obtain ⟨w', q, hq, hpost⟩ := h
  exact ⟨w', _, hq.first hlimit, hpost⟩

end Proc

/-! ## Programs that may throw -/

namespace Async

variable {W E : Type} {R : E → Type} {ε α β : Type} {serve : W → (e : E) → R e × W} {w w' : W}
  {n m : Nat} {post : W → Prop}

/-- What is awaited resolves, and the program goes on with its value. -/
theorem leads_bind {p : Async E R ε α} {f : α → Async E R ε β} {a : α}
    (hp : Proc.Leads serve n (w, p) (w', .pure (.ok a))) :
    Proc.Leads serve n (w, (p >>= f : Async E R ε β)) (w', f a) := by
  rw [bind_eq]
  exact hp.bind (onOk f)

/-- So it does with what cannot throw. -/
theorem leads_lift_bind {p : Proc E R α} {f : α → Async E R ε β} {a : α}
    (hp : Proc.Leads serve n (w, p) (w', .pure a)) :
    Proc.Leads serve n (w, ((p : Async E R ε α) >>= f : Async E R ε β)) (w', f a) := by
  rw [lift_bind_eq]
  exact hp.bind f

/-- What is awaited leads there. -/
theorem reaches_bind {p : Async E R ε α} {f : α → Async E R ε β}
    (hp : Proc.Reaches serve n post w p) :
    Proc.Reaches serve n post w (p >>= f : Async E R ε β) := by
  rw [bind_eq]
  exact hp.bind _

/-- What is awaited resolves, and the rest leads there. -/
theorem reaches_bind_of {p : Async E R ε α} {f : α → Async E R ε β} {a : α}
    (hp : Proc.Leads serve n (w, p) (w', .pure (.ok a)))
    (hf : Proc.Reaches serve m post w' (f a)) :
    Proc.Reaches serve (m + n) post w (p >>= f : Async E R ε β) :=
  (leads_bind hp).reaches hf

/-- So it does after what cannot throw. -/
theorem reaches_lift_bind_of {p : Proc E R α} {f : α → Async E R ε β} {a : α}
    (hp : Proc.Leads serve n (w, p) (w', .pure a)) (hf : Proc.Reaches serve m post w' (f a)) :
    Proc.Reaches serve (m + n) post w ((p : Async E R ε α) >>= f : Async E R ε β) :=
  (leads_lift_bind hp).reaches hf

end Async

end Effectful
