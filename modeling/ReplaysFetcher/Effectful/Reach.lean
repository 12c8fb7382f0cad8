/-
  Runs that are possible.

  `May env post w p` says that, left alone, SOME run of `p` from `w` returns and satisfies `post`.
  It is the existential counterpart of `Safe`: a law about every run is refuted by a `May` proof,
  and the rules follow the program just as those of `Safe` do.  A reply is now chosen, where `Safe`
  has to accept every one.
-/
import ReplaysFetcher.Effectful.Async

namespace Effectful

namespace Lts

variable {W α β : Type} {S : Type _} {L : Lts W S α} {w w' : W} {s s' : S}

/-- One step is a run. -/
theorem Runs.one {rely : W → W → Prop} (h : L.Step s w w' s') : L.Runs rely w s w' s' :=
  (Runs.refl w s).step h

end Lts

namespace Proc

variable {W E : Type} {R : E → Type} {α β σ τ : Type} {env : Env W E R} {w : W}

/-- Left alone, the program may return a value with `post`. -/
def May (env : Env W E R) (post : α → W → Prop) (w : W) (p : Proc E R α) : Prop :=
  ∃ w' a, (lts env α).Runs Lts.Alone w p w' (.pure a) ∧ post a w'

variable {post : α → W → Prop} {p : Proc E R α}

/-- What follows from the postcondition may be reached, too. -/
theorem May.imp {post' : α → W → Prop} (h : May env post w p) (hpost : ∀ a w, post a w → post' a w) :
    May env post' w p := by
  obtain ⟨w', a, hruns, ha⟩ := h
  exact ⟨w', a, hruns, hpost a w' ha⟩

/-- Some steps, and then a possible run. -/
theorem May.of_runs {w' : W} {q : Proc E R α} (hr : (lts env α).Runs Lts.Alone w p w' q)
    (h : May env post w' q) : May env post w p := by
  obtain ⟨w₂, a, hruns, ha⟩ := h
  exact ⟨w₂, a, hr.trans hruns, ha⟩

/-- A finished program is there. -/
theorem may_pure {a : α} (h : post a w) : May env post w (.pure a) := ⟨w, a, .refl _ _, h⟩

/-- A request, and the reply it gets. -/
theorem may_call {e : E} {k : R e → Proc E R α} {w' : W} (r : R e) (hr : env w e r w')
    (h : May env post w' (k r)) : May env post w (.call e k) := by
  have hstep : Step env (.call e k) w w' (k r) := ⟨r, hr, rfl⟩
  exact May.of_runs (.one hstep) h

/-- A request may be answered in this way. -/
theorem may_perform {e : E} {post : R e → W → Prop} {w' : W} (r : R e) (hr : env w e r w')
    (h : post r w') : May env post w (perform e) :=
  may_call r hr (may_pure h)

/-- Runs of the first part are runs of the composition. -/
theorem runs_bind {rely : W → W → Prop} {q : Proc E R α} {w' : W} (h : (lts env α).Runs rely w p w' q)
    (f : α → Proc E R β) : (lts env β).Runs rely w (p.bind f) w' (q.bind f) := by
  induction h with
  | refl => exact .refl _ _
  | step _ hs ih => exact ih.step (Step.bind hs f)
  | interfere _ hr ih => exact ih.interfere hr

/-- First the one part, then the other. -/
theorem may_bind (mid : α → W → Prop) {post : β → W → Prop} {f : α → Proc E R β}
    (hp : May env mid w p) (hf : ∀ a w, mid a w → May env post w (f a)) :
    May env post w (p.bind f) := by
  obtain ⟨w', a, hruns, ha⟩ := hp
  exact May.of_runs (runs_bind hruns f) (hf a w' ha)

/-- One round of a loop, and what follows it. -/
theorem may_loop {body : σ → Proc E R (σ ⊕ β)} {s : σ} {k : β → Proc E R α}
    (h : May env (fun x w => match x with
      | .inl s' => May env post w (.loop body s' k)
      | .inr b => May env post w (k b)) w (body s)) : May env post w (.loop body s k) := by
  have hstep : Step env (.loop body s k) w w ((body s).bind (again body k)) := ⟨rfl, rfl⟩
  refine May.of_runs (.one hstep) (may_bind _ h fun x w hx => ?_)
  cases x with
  | inl s' => exact hx
  | inr b => exact hx

/-- A fan whose tasks have nothing to do. -/
theorem may_fan_done {n limit : Nat} {tasks : Fin n → Proc E R τ} {k : (Fin n → τ) → Proc E R α}
    (vs : Fin n → τ) (hvs : ∀ i, tasks i = .pure (vs i)) (h : May env post w (k vs)) :
    May env post w (.fan limit tasks k) := by
  have hstep : Step env (.fan limit tasks k) w w (k vs) := Or.inr ⟨vs, hvs, rfl, rfl⟩
  exact May.of_runs (.one hstep) h

end Proc

namespace Async

variable {W E : Type} {R : E → Type} {ε α β σ : Type} {env : Env W E R} {w : W}
  {post : Except ε β → W → Prop}

/-- `await p`, for a `p` that may resolve. -/
theorem may_bind (mid : α → W → Prop) {p : Async E R ε α} {f : α → Async E R ε β}
    (hp : Proc.May env (Outcome mid fun _ _ => False) w p)
    (hf : ∀ a w, mid a w → Proc.May env post w (f a)) :
    Proc.May env post w (p >>= f : Async E R ε β) := by
  rw [bind_eq]
  refine Proc.may_bind _ hp fun r w hr => ?_
  cases r with
  | ok a => exact hf a w hr
  | error e => exact hr.elim

/-- The same, in a program that may reject. -/
theorem may_lift_bind (mid : α → W → Prop) {p : Proc E R α} {f : α → Async E R ε β}
    (hp : Proc.May env mid w p) (hf : ∀ a w, mid a w → Proc.May env post w (f a)) :
    Proc.May env post w ((p : Async E R ε α) >>= f : Async E R ε β) := by
  rw [lift_bind_eq]
  exact Proc.may_bind mid hp hf

/-- `try p catch f`, for a `p` that may resolve. -/
theorem may_tryCatch (mid : β → W → Prop) {p : Async E R ε β} {f : ε → Async E R ε β}
    (hp : Proc.May env (Outcome mid fun _ _ => False) w p)
    (hpost : ∀ b w, mid b w → post (.ok b) w) :
    Proc.May env post w (tryCatch p f : Async E R ε β) := by
  rw [tryCatch_eq]
  refine Proc.may_bind _ hp fun r w hr => ?_
  cases r with
  | ok b => exact Proc.may_pure (hpost b w hr)
  | error e => exact hr.elim

/-- A loop whose first round may leave it. -/
theorem may_iterate {body : σ → Async E R ε (σ ⊕ β)} {s : σ}
    (h : Proc.May env (Outcome (fun x w => match x with
      | .inl s' => Proc.May env post w (iterate body s')
      | .inr b => post (.ok b) w) fun _ _ => False) w (body s)) :
    Proc.May env post w (iterate body s) := by
  refine Proc.may_loop (Proc.may_bind _ h fun r w hr => ?_)
  match r with
  | .ok (.inl s') => exact Proc.may_pure hr
  | .ok (.inr b) => exact Proc.may_pure (Proc.may_pure hr)
  | .error e => exact hr.elim

end Async

end Effectful
