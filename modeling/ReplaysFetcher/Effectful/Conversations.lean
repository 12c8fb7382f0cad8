/-
  What a program may say.

  With every reply possible (`Env.free`) a program is known by its conversations: `Emits p l a`, the
  complete ones, with what it returned after them, and `Midway p l`, those it may be in the middle of.
  Both can be read off the program, constructor by constructor: a composition says what its first
  part says and then what the second does, a loop what its rounds say one after the other.

  So where a result is about the ORDER in which things are asked for, it is a statement about lists,
  and no run has to be looked at.
-/
import ReplaysFetcher.Effectful.Runs
import Mathlib.Algebra.BigOperators.Fin
import Mathlib.Algebra.Order.Group.Multiset

namespace Effectful

namespace Proc

variable {W E : Type} {R : E → Type} {α β σ τ : Type} {env : Env W E R} {w w' : W}
  {l l' : List (Σ e : E, R e)}

/-- The program may be in the middle of this conversation: something is left to be done. -/
def Midway (p : Proc E R α) (l : List (Σ e : E, R e)) : Prop :=
  ∃ q, (lts Env.free α).Runs Lts.Alone [] p l q ∧ q.result = none

/-! ## Runs and the conversation before them -/

/-- What was said before does not matter to a step. -/
theorem Step.shift {p q : Proc E R α} (h : Step Env.free p l l' q) :
    ∃ more, l' = l ++ more ∧ ∀ before, Step Env.free p before (before ++ more) q := by
  rcases h.anywhere with ⟨rfl, hs⟩ | ⟨e, r, hr, hs⟩
  · refine ⟨[], (List.append_nil _).symm, fun before => ?_⟩
    rw [List.append_nil]
    exact hs Env.free before
  · exact ⟨[⟨e, r⟩], hr, fun before => hs Env.free before _ rfl⟩

/-- Nor to a run. -/
theorem runs_shift {p q : Proc E R α} (h : (lts Env.free α).Runs Lts.Alone l p l' q) :
    ∃ more, l' = l ++ more ∧
      ∀ before, (lts Env.free α).Runs Lts.Alone before p (before ++ more) q := by
  induction h with
  | refl =>
    refine ⟨[], (List.append_nil _).symm, fun before => ?_⟩
    rw [List.append_nil]
    exact .refl _ _
  | step _ hs ih =>
    obtain ⟨more, rfl, hruns⟩ := ih
    obtain ⟨one, rfl, hstep⟩ := Step.shift hs
    refine ⟨more ++ one, List.append_assoc _ _ _, fun before => ?_⟩
    rw [← List.append_assoc]
    exact (hruns before).step (hstep _)
  | interfere _ hr ih =>
    cases hr
    exact ih

/-- A run that has returned held a conversation, whatever was said before. -/
theorem emits_of_runs {p : Proc E R α} {a : α}
    (h : (lts Env.free α).Runs Lts.Alone l p l' (.pure a)) : ∃ more, l' = l ++ more ∧ Emits p more a := by
  obtain ⟨more, rfl, hruns⟩ := runs_shift h
  exact ⟨more, rfl, hruns []⟩

theorem midway_of_runs {p q : Proc E R α} (h : (lts Env.free α).Runs Lts.Alone l p l' q)
    (hq : q.result = none) : ∃ more, l' = l ++ more ∧ Midway p more := by
  obtain ⟨more, rfl, hruns⟩ := runs_shift h
  exact ⟨more, rfl, q, hruns [], hq⟩

theorem runs_of_emits {p : Proc E R α} {a : α} (h : Emits p l a) (before : List (Σ e : E, R e)) :
    (lts Env.free α).Runs Lts.Alone before p (before ++ l) (.pure a) := by
  obtain ⟨more, hl, hruns⟩ := runs_shift h
  rw [List.nil_append] at hl
  rw [hl]
  exact hruns before

/-! ## Complete conversations -/

@[simp] theorem emits_pure {a b : α} : Emits (.pure a : Proc E R α) l b ↔ l = [] ∧ b = a := by
  constructor
  · intro h
    have hstay : Safe Env.free Lts.Alone (fun _ _ => True)
        (fun b l => (l : List (Σ e : E, R e)) = [] ∧ b = a) [] (.pure a : Proc E R α) :=
      safe_pure (fun _ _ h hr => ⟨hr.trans h.1, h.2⟩) ⟨rfl, rfl⟩
    exact hstay.of_run h
  · rintro ⟨rfl, rfl⟩
    exact .refl _ _

theorem emits_bind {p : Proc E R α} {f : α → Proc E R β} {b : β} :
    Emits (p.bind f) l b ↔ ∃ a l₁ l₂, l = l₁ ++ l₂ ∧ Emits p l₁ a ∧ Emits (f a) l₂ b := by
  constructor
  · intro h
    obtain ⟨a, l₁, hp, hruns⟩ := returned_bind h
    obtain ⟨l₂, rfl, hf⟩ := emits_of_runs hruns
    exact ⟨a, l₁, l₂, rfl, hp, hf⟩
  · rintro ⟨a, l₁, l₂, rfl, hp, hf⟩
    exact (runs_bind hp f).trans (runs_of_emits hf l₁)

theorem emits_call {e : E} {k : R e → Proc E R α} {a : α} :
    Emits (.call e k) l a ↔ ∃ r l', l = ⟨e, r⟩ :: l' ∧ Emits (k r) l' a := by
  constructor
  · intro h
    obtain ⟨r, l₁, hr, hruns⟩ := returned_call h
    obtain ⟨l', rfl, hk⟩ := emits_of_runs hruns
    rw [show l₁ = [⟨e, r⟩] from hr]
    exact ⟨r, l', rfl, hk⟩
  · rintro ⟨r, l', rfl, hk⟩
    have hstep : Step Env.free (.call e k) [] [⟨e, r⟩] (k r) := ⟨r, rfl, rfl⟩
    exact (Lts.Runs.one hstep).trans (runs_of_emits hk [⟨e, r⟩])

@[simp] theorem emits_perform {e : E} {r : R e} :
    Emits (perform e) l r ↔ l = [⟨e, r⟩] := by
  unfold perform
  rw [emits_call]
  constructor
  · rintro ⟨r', l', rfl, h⟩
    obtain ⟨rfl, rfl⟩ := emits_pure.1 h
    rfl
  · rintro rfl
    exact ⟨r, [], rfl, emits_pure.2 ⟨rfl, rfl⟩⟩

/-! ## What is said in rounds -/

/-- The rounds of a loop that has gone on, from state to state. -/
inductive Rounds (body : σ → Proc E R (σ ⊕ β)) (s : σ) : List (Σ e : E, R e) → σ → Prop
  | start : Rounds body s [] s
  | round {l l' : List (Σ e : E, R e)} {s₁ s₂ : σ} (hbefore : Rounds body s l s₁)
      (hround : Emits (body s₁) l' (.inl s₂)) : Rounds body s (l ++ l') s₂

variable {body : σ → Proc E R (σ ⊕ β)} {k : β → Proc E R α} {s s' : σ}

theorem rounds_of_heads (h : Heads Env.free body [] s l s') : Rounds body s l s' := by
  induction h with
  | start => exact .start
  | round _ hround ih =>
    obtain ⟨more, rfl, hemits⟩ := emits_of_runs hround
    exact ih.round hemits

theorem Rounds.heads (h : Rounds body s l s') : Heads Env.free body [] s l s' := by
  induction h with
  | start => exact .start _ _
  | round _ hround ih => exact ih.round (runs_of_emits hround _)

/-- **A loop that has returned** has been through rounds that went on, and one that left. -/
theorem emits_loop {a : α} : Emits (.loop body s k) l a ↔ ∃ s' l₁ l₂ l₃ b,
    l = l₁ ++ l₂ ++ l₃ ∧ Rounds body s l₁ s' ∧ Emits (body s') l₂ (.inr b) ∧ Emits (k b) l₃ a := by
  constructor
  · intro h
    obtain ⟨l₁, s', l', b, hheads, hlast, hafter⟩ := returned_loop h
    obtain ⟨l₂, rfl, hround⟩ := emits_of_runs hlast
    obtain ⟨l₃, rfl, hk⟩ := emits_of_runs hafter
    exact ⟨s', l₁, l₂, l₃, b, rfl, rounds_of_heads hheads, hround, hk⟩
  · rintro ⟨s', l₁, l₂, l₃, b, rfl, hrounds, hround, hk⟩
    have hunfold : Step Env.free (.loop body s' k) l₁ l₁ ((body s').bind (again body k)) := ⟨rfl, rfl⟩
    have hbody := runs_bind (runs_of_emits hround l₁) (again body k)
    exact (((hrounds.heads.runs k).step hunfold).trans hbody).trans (runs_of_emits hk _)

/-! ## In the middle -/

/-- A composition in the middle of its conversation is in its first part, or in its second. -/
theorem midway_bind {p : Proc E R α} {f : α → Proc E R β} (h : Midway (p.bind f) l) :
    Midway p l ∨ ∃ a l₁ l₂, l = l₁ ++ l₂ ∧ Emits p l₁ a ∧ Midway (f a) l₂ := by
  obtain ⟨q, hruns, hq⟩ := h
  rcases runs_bind_cases hruns with ⟨p', hp, rfl⟩ | ⟨a, l₁, hp, hf⟩
  · cases hresult : p'.result with
    | none => exact Or.inl ⟨p', hp, hresult⟩
    | some a =>
      -- the first part is done, and the second has not begun
      obtain rfl := result_eq_some.1 hresult
      exact Or.inr ⟨a, l, [], (List.append_nil l).symm, hp, f a, .refl _ _, hq⟩
  · obtain ⟨l₂, rfl, hmidway⟩ := midway_of_runs hf hq
    exact Or.inr ⟨a, l₁, l₂, rfl, hp, hmidway⟩

/-- **A loop in the middle of its conversation** is between two rounds, in one, or past the last. -/
theorem midway_loop (h : Midway (.loop body s k) l) : ∃ s' l₁ l₂, l = l₁ ++ l₂ ∧
    Rounds body s l₁ s' ∧ (l₂ = [] ∨ Midway (body s') l₂ ∨
      ∃ l₃ l₄ b, l₂ = l₃ ++ l₄ ∧ Emits (body s') l₃ (.inr b) ∧ Midway (k b) l₄) := by
  obtain ⟨q, hruns, hq⟩ := h
  obtain ⟨l₁, s', hheads, ⟨rfl, _⟩ | ⟨p, hround, rfl⟩ | ⟨l₃, b, hround, hk⟩⟩ := runs_loop hruns
  · exact ⟨s', l, [], (List.append_nil l).symm, rounds_of_heads hheads, Or.inl rfl⟩
  · cases hresult : p.result with
    | none =>
      obtain ⟨l₂, rfl, hmidway⟩ := midway_of_runs hround hresult
      exact ⟨s', l₁, l₂, rfl, rounds_of_heads hheads, Or.inr (Or.inl hmidway)⟩
    | some x =>
      obtain rfl := result_eq_some.1 hresult
      cases x with
      | inl s₂ =>
        exact ⟨s₂, l, [], (List.append_nil l).symm, rounds_of_heads (hheads.round hround),
          Or.inl rfl⟩
      | inr b =>
        obtain ⟨l₂, rfl, hemits⟩ := emits_of_runs hround
        exact ⟨s', l₁, l₂, rfl, rounds_of_heads hheads, Or.inr (Or.inr
          ⟨l₂, [], b, (List.append_nil _).symm, hemits, k b, .refl _ _, hq⟩)⟩
  · obtain ⟨l₂, rfl, hemits⟩ := emits_of_runs hround
    obtain ⟨l₄, rfl, hmidway⟩ := midway_of_runs hk hq
    exact ⟨s', l₁, l₂ ++ l₄, (List.append_assoc _ _ _), rounds_of_heads hheads,
      Or.inr (Or.inr ⟨l₂, l₄, b, rfl, hemits, hmidway⟩)⟩

theorem not_midway_pure {a : α} : ¬ Midway (.pure a : Proc E R α) l := by
  rintro ⟨q, hruns, hq⟩
  rw [runs_pure hruns] at hq
  cases hq

/-! ## What is said side by side -/

/-- One more exchange of one task. -/
theorem sum_conversations_update {n : Nat} (ls : Fin n → List (Σ e : E, R e)) (i : Fin n)
    (x : Σ e : E, R e) :
    ∑ j, (Function.update ls i (ls i ++ [x]) j : Multiset (Σ e : E, R e)) =
      ∑ j, (ls j : Multiset (Σ e : E, R e)) + ↑[x] := by
  rw [← Finset.add_sum_erase Finset.univ _ (Finset.mem_univ i),
    ← Finset.add_sum_erase Finset.univ (fun j => (ls j : Multiset (Σ e : E, R e)))
      (Finset.mem_univ i)]
  have hothers : ∑ j ∈ Finset.univ.erase i,
      (Function.update ls i (ls i ++ [x]) j : Multiset (Σ e : E, R e)) =
        ∑ j ∈ Finset.univ.erase i, (ls j : Multiset (Σ e : E, R e)) := by
    refine Finset.sum_congr rfl fun j hj => ?_
    rw [Function.update_of_ne (Finset.ne_of_mem_erase hj)]
  rw [hothers, Function.update_self, ← Multiset.coe_add, add_right_comm]

/-- **A fan says what its tasks say, shuffled**, and then what follows it. -/
theorem emits_fan {n limit : Nat} {tasks : Fin n → Proc E R τ} {k : (Fin n → τ) → Proc E R α} {a : α}
    (h : Emits (.fan limit tasks k) l a) :
    ∃ (vs : Fin n → τ) (ls : Fin n → List (Σ e : E, R e)) (l₁ l₂ : List (Σ e : E, R e)),
      l = l₁ ++ l₂ ∧ (∀ i, Emits (tasks i) (ls i) (vs i)) ∧
      (l₁ : Multiset (Σ e : E, R e)) = ∑ i, (ls i : Multiset (Σ e : E, R e)) ∧
      Emits (k vs) l₂ a := by
  suffices hall : ∀ p q, (lts Env.free α).Runs Lts.Alone [] p l q → .fan limit tasks k = p →
      (∃ (tasks' : Fin n → Proc E R τ) (ls : Fin n → List (Σ e : E, R e)),
        q = .fan limit tasks' k ∧
        (∀ i, (lts Env.free τ).Runs Lts.Alone [] (tasks i) (ls i) (tasks' i)) ∧
        (l : Multiset (Σ e : E, R e)) = ∑ i, (ls i : Multiset (Σ e : E, R e))) ∨
      ∃ (vs : Fin n → τ) (ls : Fin n → List (Σ e : E, R e)) (l₁ : List (Σ e : E, R e)),
        (∀ i, Emits (tasks i) (ls i) (vs i)) ∧
        (l₁ : Multiset (Σ e : E, R e)) = ∑ i, (ls i : Multiset (Σ e : E, R e)) ∧
        (lts Env.free α).Runs Lts.Alone l₁ (k vs) l q by
    rcases hall _ _ h rfl with ⟨_, _, heq, _⟩ | ⟨vs, ls, l₁, htasks, hsum, hk⟩
    · cases heq
    · obtain ⟨l₂, rfl, hemits⟩ := emits_of_runs hk
      exact ⟨vs, ls, l₁, l₂, rfl, htasks, hsum, hemits⟩
  clear h
  intro p q h hp
  induction h with
  | refl => exact Or.inl ⟨tasks, fun _ => [], hp.symm, fun i => .refl _ _, by simp⟩
  | step _ hs ih =>
    rcases ih hp with ⟨tasks', ls, rfl, hruns, hsum⟩ | ⟨vs, ls, l₁, htasks, hsum, hk⟩
    · rcases hs with ⟨i, _, t, ht, rfl⟩ | ⟨vs, hvs, rfl, rfl⟩
      · -- task `i` moves
        refine Or.inl ?_
        rcases ht.anywhere with ⟨rfl, hfree⟩ | ⟨e, r, hr, hfree⟩
        · refine ⟨_, ls, rfl, fun j => ?_, hsum⟩
          by_cases hij : j = i
          · subst hij
            rw [Function.update_self]
            exact (hruns j).step (hfree Env.free _)
          · rw [Function.update_of_ne hij]
            exact hruns j
        · refine ⟨_, Function.update ls i (ls i ++ [⟨e, r⟩]), rfl, fun j => ?_, ?_⟩
          · by_cases hij : j = i
            · subst hij
              rw [Function.update_self, Function.update_self]
              exact (hruns j).step (hfree Env.free _ _ rfl)
            · rw [Function.update_of_ne hij, Function.update_of_ne hij]
              exact hruns j
          · rw [sum_conversations_update, ← hsum, hr, Multiset.coe_add]
      · -- all tasks are in
        refine Or.inr ⟨vs, ls, _, fun i => ?_, hsum, .refl _ _⟩
        have hrun := hruns i
        rw [hvs i] at hrun
        exact hrun
    · exact Or.inr ⟨vs, ls, l₁, htasks, hsum, hk.step hs⟩
  | interfere _ hr ih =>
    cases hr
    exact ih hp

/-- Counting what is said side by side. -/
theorem countP_of_shuffled {n : Nat} {ls : Fin n → List (Σ e : E, R e)}
    (h : (l : Multiset (Σ e : E, R e)) = ∑ i, (ls i : Multiset (Σ e : E, R e)))
    (p : (Σ e : E, R e) → Bool) : l.countP p = ∑ i, (ls i).countP p := by
  have hcount := congrArg (Multiset.countPAddMonoidHom fun x => p x = true) h
  rw [map_sum] at hcount
  simpa using hcount

end Proc

namespace Async

variable {E : Type} {R : E → Type} {ε α β : Type} {l : List (Σ e : E, R e)}

/-- A resolved `await` chain: both parts have resolved. -/
theorem emits_bind_ok {p : Async E R ε α} {f : α → Async E R ε β} {b : β} :
    Emits (p >>= f : Async E R ε β) l (.ok b) ↔
      ∃ a l₁ l₂, l = l₁ ++ l₂ ∧ Emits p l₁ (.ok a) ∧ Emits (f a) l₂ (.ok b) := by
  rw [bind_eq, Proc.emits_bind]
  constructor
  · rintro ⟨r, l₁, l₂, rfl, hp, hf⟩
    cases r with
    | ok a => exact ⟨a, l₁, l₂, rfl, hp, hf⟩
    | error e =>
      rw [onOk_error, Proc.emits_pure] at hf
      cases hf.2
  · rintro ⟨a, l₁, l₂, rfl, hp, hf⟩
    exact ⟨.ok a, l₁, l₂, rfl, hp, hf⟩

/-- A rejected one: the first part has rejected, or it has resolved and the second has rejected. -/
theorem emits_bind_error {p : Async E R ε α} {f : α → Async E R ε β} {e : ε} :
    Emits (p >>= f : Async E R ε β) l (.error e) ↔ Emits p l (.error e) ∨
      ∃ a l₁ l₂, l = l₁ ++ l₂ ∧ Emits p l₁ (.ok a) ∧ Emits (f a) l₂ (.error e) := by
  rw [bind_eq, Proc.emits_bind]
  constructor
  · rintro ⟨r, l₁, l₂, rfl, hp, hf⟩
    cases r with
    | ok a => exact Or.inr ⟨a, l₁, l₂, rfl, hp, hf⟩
    | error e' =>
      rw [onOk_error, Proc.emits_pure] at hf
      obtain ⟨rfl, he⟩ := hf
      cases he
      rw [List.append_nil]
      exact Or.inl hp
  · rintro (hp | ⟨a, l₁, l₂, rfl, hp, hf⟩)
    · exact ⟨.error e, l, [], (List.append_nil l).symm, hp, Proc.emits_pure.2 ⟨rfl, rfl⟩⟩
    · exact ⟨.ok a, l₁, l₂, rfl, hp, hf⟩

/-- The rounds of a loop that may reject. -/
abbrev Rounds {σ : Type} (body : σ → Async E R ε (σ ⊕ β)) :
    σ → List (Σ e : E, R e) → σ → Prop :=
  Proc.Rounds fun s => Proc.bind (body s) fun r => .pure (leave r)

/-- What holds at the start, and after a round when it held before, holds of what has been said in
    the rounds so far. -/
theorem Rounds.invariant {σ : Type} {body : σ → Async E R ε (σ ⊕ β)} {s s' : σ}
    (Inv : σ → List (Σ e : E, R e) → Prop)
    (hround : ∀ s l l' s', Inv s l → Emits (body s) l' (.ok (.inl s')) → Inv s' (l ++ l'))
    (h : Rounds body s l s') (hstart : Inv s []) : Inv s' l := by
  induction h with
  | start => exact hstart
  | round _ hbody ih =>
    obtain ⟨r, l₁, l₂, rfl, hemits, hleave⟩ := Proc.emits_bind.1 hbody
    obtain ⟨rfl, hr⟩ := Proc.emits_pure.1 hleave
    rw [List.append_nil]
    match r with
    | .ok (.inl s'') =>
      cases hr
      exact hround _ _ _ _ ih hemits
    | .ok (.inr b) => cases hr
    | .error e => cases hr

/-- A loop that has resolved: rounds that went on, and one that left. -/
theorem emits_iterate {σ : Type} {body : σ → Async E R ε (σ ⊕ β)} {s : σ} {b : β} :
    Emits (iterate body s : Async E R ε β) l (.ok b) ↔ ∃ s' l₁ l₂,
      l = l₁ ++ l₂ ∧ Rounds body s l₁ s' ∧ Emits (body s') l₂ (.ok (.inr b)) := by
  unfold iterate Proc.iterate
  rw [Proc.emits_loop]
  constructor
  · rintro ⟨s', l₁, l₂, l₃, r, rfl, hrounds, hlast, hpure⟩
    obtain ⟨rfl, rfl⟩ := Proc.emits_pure.1 hpure
    obtain ⟨x, l₄, l₅, rfl, hbody, hleave⟩ := Proc.emits_bind.1 hlast
    obtain ⟨rfl, hx⟩ := Proc.emits_pure.1 hleave
    match x with
    | .ok (.inr b') =>
      cases hx
      exact ⟨s', l₁, l₄, by simp, hrounds, hbody⟩
    | .ok (.inl s'') => cases hx
    | .error e => cases hx
  · rintro ⟨s', l₁, l₂, rfl, hrounds, hbody⟩
    refine ⟨s', l₁, l₂, [], .ok b, (List.append_nil _).symm, hrounds, ?_,
      Proc.emits_pure.2 ⟨rfl, rfl⟩⟩
    exact Proc.emits_bind.2 ⟨_, l₂, [], (List.append_nil l₂).symm, hbody,
      Proc.emits_pure.2 ⟨rfl, rfl⟩⟩

/-- In the middle of an `await` chain. -/
theorem midway_bind {p : Async E R ε α} {f : α → Async E R ε β}
    (h : Proc.Midway (p >>= f : Async E R ε β) l) : Proc.Midway p l ∨
      ∃ a l₁ l₂, l = l₁ ++ l₂ ∧ Emits p l₁ (.ok a) ∧ Proc.Midway (f a) l₂ := by
  rw [bind_eq] at h
  rcases Proc.midway_bind h with hp | ⟨r, l₁, l₂, rfl, hp, hf⟩
  · exact Or.inl hp
  · cases r with
    | ok a => exact Or.inr ⟨a, l₁, l₂, rfl, hp, hf⟩
    | error e => exact absurd hf Proc.not_midway_pure

end Async

end Effectful
