/-
  Runs, taken apart.

  The rules of `Effectful.Rules` never look at a run.  Where a result speaks of the rounds of a
  loop, or of what each task of a fan has done, the run itself has to be taken apart, along the
  constructors of the program:

  * a run of a composition is a run of its first part, or goes on with the second (`runs_bind_cases`);
  * a run of a loop is in some round, at a head that earlier rounds have led to (`Heads`,
    `runs_loop`);
  * a run of a fan is a run of each of its tasks, the others interfering, and comes to its
    continuation only when every task has returned (`runs_fan`).
-/
import ReplaysFetcher.Effectful.Reach
import ReplaysFetcher.Effectful.Record

namespace Effectful

namespace Proc

variable {W E : Type} {R : E → Type} {α β σ τ : Type} {env : Env W E R} {rely : W → W → Prop}
  {w w' : W}

/-- The rely of a program nothing is known about the others of. -/
def Anything : W → W → Prop := fun _ _ => True

/-- Started in `w`, amid anything else, the program has returned `a` by `w'`. -/
abbrev Returns (env : Env W E R) (p : Proc E R α) (w w' : W) (a : α) : Prop :=
  (lts env α).Runs Anything w p w' (.pure a)

/-! ## Compositions -/

theorem runs_pure {a : α} {q : Proc E R α} (h : (lts env α).Runs rely w (.pure a) w' q) :
    q = .pure a := by
  suffices hall : ∀ p : Proc E R α, (lts env α).Runs rely w p w' q → p = .pure a → q = p from
    hall _ h rfl
  clear h
  intro p h hp
  induction h with
  | refl => rfl
  | step _ hs ih =>
    rw [ih hp, hp] at hs
    exact (step_pure.1 hs).elim
  | interfere _ _ ih => exact ih hp

theorem runs_bind_cases {p : Proc E R α} {f : α → Proc E R β} {q : Proc E R β}
    (h : (lts env β).Runs rely w (p.bind f) w' q) :
    (∃ p', (lts env α).Runs rely w p w' p' ∧ q = p'.bind f) ∨
      ∃ a w₁, (lts env α).Runs rely w p w₁ (.pure a) ∧ (lts env β).Runs rely w₁ (f a) w' q := by
  generalize hr : p.bind f = r at h
  induction h with
  | refl => exact Or.inl ⟨p, .refl _ _, hr.symm⟩
  | @step w₁ w₂ _ s₁ s₂ _ hs ih =>
    rcases ih hr with ⟨p', hp, rfl⟩ | ⟨a, w₀, hp, hf⟩
    · rcases step_bind hs with ⟨a, rfl, hs'⟩ | ⟨p'', hs', rfl⟩
      · exact Or.inr ⟨a, w₁, hp, Lts.Runs.one hs'⟩
      · exact Or.inl ⟨p'', hp.step hs', rfl⟩
    · exact Or.inr ⟨a, w₀, hp, hf.step hs⟩
  | interfere _ hr' ih =>
    rcases ih hr with ⟨p', hp, rfl⟩ | ⟨a, w₀, hp, hf⟩
    · exact Or.inl ⟨p', hp.interfere hr', rfl⟩
    · exact Or.inr ⟨a, w₀, hp, hf.interfere hr'⟩

/-- A composition that has returned has been through both parts. -/
theorem returned_bind {p : Proc E R α} {f : α → Proc E R β} {b : β}
    (h : (lts env β).Runs rely w (p.bind f) w' (.pure b)) :
    ∃ a w₁, (lts env α).Runs rely w p w₁ (.pure a) ∧
      (lts env β).Runs rely w₁ (f a) w' (.pure b) := by
  rcases runs_bind_cases h with ⟨p', hp, heq⟩ | hsecond
  · cases p' with
    | pure a =>
      refine ⟨a, w', hp, ?_⟩
      rw [heq]
      exact .refl _ _
    | call e k => cases heq
    | fan limit tasks k => cases heq
    | loop body s k => cases heq
  · exact hsecond

theorem returned_call {e : E} {k : R e → Proc E R α} {a : α}
    (h : (lts env α).Runs Lts.Alone w (.call e k) w' (.pure a)) :
    ∃ r w₁, env w e r w₁ ∧ (lts env α).Runs Lts.Alone w₁ (k r) w' (.pure a) := by
  have hsplit : (lts env α).Runs Lts.Alone w ((perform e).bind k) w' (.pure a) := h
  obtain ⟨r, w₁, hperform, hk⟩ := returned_bind hsplit
  have hsafe : Safe env Lts.Alone (fun _ _ => True) (fun r w₁ => env w e r w₁) w (perform e) := by
    refine safe_call (fun w₀ => w₀ = w) (fun _ _ h hr => hr.trans h) ?_ rfl
    rintro w₀ rfl r w₁ hr
    exact ⟨trivial, safe_pure (fun _ _ h hr => hr ▸ h) hr⟩
  exact ⟨r, w₁, hsafe.of_run hperform, hk⟩

/-! ## Loops -/

/-- The heads of a loop: rounds that go on lead from one to the next. -/
inductive Heads (env : Env W E R) (body : σ → Proc E R (σ ⊕ β)) : W → σ → W → σ → Prop
  | start (w : W) (s : σ) : Heads env body w s w s
  | round {w w₁ w₂ : W} {s s₁ s₂ : σ} (hbefore : Heads env body w s w₁ s₁)
      (hround : (lts env (σ ⊕ β)).Runs Lts.Alone w₁ (body s₁) w₂ (.pure (.inl s₂))) :
      Heads env body w s w₂ s₂

variable {body : σ → Proc E R (σ ⊕ β)} {k : β → Proc E R α} {s s' : σ}

/-- What holds at the first head, and after a round when it held before, holds at every head. -/
theorem Heads.invariant (Inv : σ → W → Prop)
    (hround : ∀ s w s' w', Inv s w →
      (lts env (σ ⊕ β)).Runs Lts.Alone w (body s) w' (.pure (.inl s')) → Inv s' w')
    (h : Heads env body w s w' s') (hstart : Inv s w) : Inv s' w' := by
  induction h with
  | start => exact hstart
  | round _ hr ih => exact hround _ _ _ _ (ih hstart) hr

/-- The heads are on the runs of the loop. -/
theorem Heads.runs (h : Heads env body w s w' s') (k : β → Proc E R α) :
    (lts env α).Runs Lts.Alone w (.loop body s k) w' (.loop body s' k) := by
  induction h with
  | start => exact .refl _ _
  | @round w₁ w₂ _ s₁ s₂ _ hr ih =>
    have hunfold : Step env (.loop body s₁ k) w₁ w₁ ((body s₁).bind (again body k)) := ⟨rfl, rfl⟩
    exact (ih.step hunfold).trans (runs_bind hr (again body k))

/-- **Where a run of a loop is**: at a head, in the round after one, or past the last round. -/
theorem runs_loop {q : Proc E R α} (h : (lts env α).Runs Lts.Alone w (.loop body s k) w' q) :
    ∃ w₁ s₁, Heads env body w s w₁ s₁ ∧
      ((w' = w₁ ∧ q = .loop body s₁ k) ∨
        (∃ p, (lts env (σ ⊕ β)).Runs Lts.Alone w₁ (body s₁) w' p ∧ q = p.bind (again body k)) ∨
        ∃ w₂ b, (lts env (σ ⊕ β)).Runs Lts.Alone w₁ (body s₁) w₂ (.pure (.inr b)) ∧
          (lts env α).Runs Lts.Alone w₂ (k b) w' q) := by
  generalize hp : Proc.loop body s k = p at h
  induction h with
  | refl => exact ⟨_, s, .start _ _, Or.inl ⟨rfl, hp.symm⟩⟩
  | @step w₁ w₂ _ q₁ q₂ _ hs ih =>
    obtain ⟨w₀, s₀, hheads, ⟨rfl, rfl⟩ | ⟨p, hround, rfl⟩ | ⟨w₃, b, hround, hk⟩⟩ := ih hp
    · -- the loop is unfolded
      obtain ⟨rfl, rfl⟩ := hs
      exact ⟨_, s₀, hheads, Or.inr (Or.inl ⟨body s₀, .refl _ _, rfl⟩)⟩
    · rcases step_bind hs with ⟨x, rfl, hs'⟩ | ⟨p', hs', rfl⟩
      · -- the round is over
        cases x with
        | inl s₁ =>
          obtain ⟨rfl, rfl⟩ := hs'
          exact ⟨_, s₁, hheads.round hround, Or.inr (Or.inl ⟨body s₁, .refl _ _, rfl⟩)⟩
        | inr b => exact ⟨w₀, s₀, hheads, Or.inr (Or.inr ⟨w₁, b, hround, Lts.Runs.one hs'⟩)⟩
      · exact ⟨w₀, s₀, hheads, Or.inr (Or.inl ⟨p', hround.step hs', rfl⟩)⟩
    · exact ⟨w₀, s₀, hheads, Or.inr (Or.inr ⟨w₃, b, hround, hk.step hs⟩)⟩
  | interfere _ hr ih =>
    cases hr
    exact ih hp

/-- A loop that has returned has left its last round. -/
theorem returned_loop {a : α} (h : (lts env α).Runs Lts.Alone w (.loop body s k) w' (.pure a)) :
    ∃ w₁ s₁ w₂ b, Heads env body w s w₁ s₁ ∧
      (lts env (σ ⊕ β)).Runs Lts.Alone w₁ (body s₁) w₂ (.pure (.inr b)) ∧
      (lts env α).Runs Lts.Alone w₂ (k b) w' (.pure a) := by
  obtain ⟨w₁, s₁, hheads, ⟨_, heq⟩ | ⟨p, hround, heq⟩ | ⟨w₂, b, hround, hk⟩⟩ := runs_loop h
  · cases heq
  · cases p with
    | pure x =>
      cases x with
      | inl s₂ => cases heq
      | inr b =>
        refine ⟨w₁, s₁, w', b, hheads, hround, ?_⟩
        rw [heq]
        exact .refl _ _
    | call e k => cases heq
    | fan limit tasks k => cases heq
    | loop body s k => cases heq
  · exact ⟨w₁, s₁, w₂, b, hheads, hround, hk⟩

/-! ## Fans -/

section Fan

variable {n limit : Nat} {tasks : Fin n → Proc E R τ} {k : (Fin n → τ) → Proc E R α}

/-- When one task moves, the others see it as interference. -/
theorem runs_update {tasks' : Fin n → Proc E R τ} {w₁ w₂ : W} {i : Fin n} {t : Proc E R τ}
    (hruns : ∀ j, (lts env τ).Runs Anything w (tasks j) w₁ (tasks' j))
    (ht : Step env (tasks' i) w₁ w₂ t) (j : Fin n) :
    (lts env τ).Runs Anything w (tasks j) w₂ (Function.update tasks' i t j) := by
  by_cases hij : j = i
  · subst hij
    rw [Function.update_self]
    exact (hruns j).step ht
  · rw [Function.update_of_ne hij]
    exact (hruns j).interfere trivial

/-- **A run of a fan is a run of each of its tasks**, and past the tasks every one of them has
    returned. -/
theorem runs_fan {q : Proc E R α} (h : (lts env α).Runs Lts.Alone w (.fan limit tasks k) w' q) :
    (∃ tasks' : Fin n → Proc E R τ, q = .fan limit tasks' k ∧
      ∀ i, (lts env τ).Runs Anything w (tasks i) w' (tasks' i)) ∨
    ∃ vs w₁, (∀ i, (lts env τ).Runs Anything w (tasks i) w₁ (.pure (vs i))) ∧
      (lts env α).Runs Lts.Alone w₁ (k vs) w' q := by
  generalize hp : Proc.fan limit tasks k = p at h
  induction h with
  | refl => exact Or.inl ⟨tasks, hp.symm, fun i => .refl _ _⟩
  | @step w₁ w₂ _ q₁ q₂ _ hs ih =>
    rcases ih hp with ⟨tasks', rfl, hruns⟩ | ⟨vs, w₀, hruns, hk⟩
    · rcases hs with ⟨i, _, t, ht, rfl⟩ | ⟨vs, hvs, rfl, rfl⟩
      · exact Or.inl ⟨_, rfl, runs_update hruns ht⟩
      · refine Or.inr ⟨vs, _, fun i => ?_, .refl _ _⟩
        rw [← hvs i]
        exact hruns i
    · exact Or.inr ⟨vs, w₀, hruns, hk.step hs⟩
  | interfere _ hr ih =>
    cases hr
    exact ih hp

theorem returned_fan {a : α} (h : (lts env α).Runs Lts.Alone w (.fan limit tasks k) w' (.pure a)) :
    ∃ vs w₁, (∀ i, (lts env τ).Runs Anything w (tasks i) w₁ (.pure (vs i))) ∧
      (lts env α).Runs Lts.Alone w₁ (k vs) w' (.pure a) := by
  rcases runs_fan h with ⟨_, heq, _⟩ | hreturned
  · cases heq
  · exact hreturned

end Fan

end Proc

namespace Async

variable {W E : Type} {R : E → Type} {ε α β σ : Type} {env : Env W E R} {w w' : W}

/-- The heads of a loop whose rounds may reject. -/
abbrev Heads (env : Env W E R) (body : σ → Async E R ε (σ ⊕ β)) : W → σ → W → σ → Prop :=
  Proc.Heads env fun s => Proc.bind (body s) fun r => .pure (leave r)

variable {body : σ → Async E R ε (σ ⊕ β)} {s s' : σ}

theorem Heads.invariant (Inv : σ → W → Prop)
    (hround : ∀ s w, Inv s w → Proc.Safe env Lts.Alone (fun _ _ => True)
      (Outcome (fun x w' => ∀ s', x = .inl s' → Inv s' w') fun _ _ => True) w (body s))
    (h : Heads env body w s w' s') (hstart : Inv s w) : Inv s' w' := by
  refine Proc.Heads.invariant Inv (fun s w s' w' hs hruns => ?_) h hstart
  obtain ⟨r, w₁, hbody, hleave⟩ := Proc.returned_bind hruns
  have hpost := (hround s w hs).of_run hbody
  have hsame : w' = w₁ := by
    have hstay : Proc.Safe env Lts.Alone (fun _ _ => True) (fun _ w' => w' = w₁) w₁
        (.pure (leave r) : Proc E R (σ ⊕ Except ε β)) :=
      Proc.safe_pure (fun _ _ h hr => hr.trans h) rfl
    exact hstay.of_run hleave
  have hvalue := Proc.runs_pure hleave
  rw [hsame]
  match r with
  | .ok (.inl s₁) =>
    cases hvalue
    exact hpost _ rfl
  | .ok (.inr b) => cases hvalue
  | .error e => cases hvalue

end Async

end Effectful
