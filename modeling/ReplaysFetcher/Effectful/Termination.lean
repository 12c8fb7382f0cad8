/-
  Runs that end.

  `L.Ends post w s` says: left alone, every run from `s` reaches a result, and the world then
  satisfies `post`.  It is total correctness where `Safe` is partial correctness, and the two meet
  in `Safe.ends`: what is safe and ends, ends in the postcondition.  So a program is verified with
  the rules of `Effectful.Rules`, and only its ending is left to show:

  * a program that `Settles` comes to a result whatever the world does between its steps, and a fan
    settles when its tasks do, however they are scheduled; `LoopFree` programs do when every request
    gets an answer;
  * a loop ends when a measure of its state goes down in every round (`ends_loop`).

  `Ends` also gives an example run (`Ends.exists_run`), so a program that can only ever end badly,
  or never, is refuted by a `Safe` proof.
-/
import ReplaysFetcher.Effectful.Async
import Mathlib.Data.DFinsupp.WellFounded

namespace Effectful

universe u

namespace Lts

variable {W α : Type} {S : Type u} {L : Lts W S α} {post : α → W → Prop} {w w' : W} {s s' : S}

/-- Left alone, every run from here ends, and it ends in `post`. -/
inductive Ends (L : Lts W S α) (post : α → W → Prop) : W → S → Prop
  | done {w : W} {s : S} {a : α} (hresult : L.result s = some a) (hpost : post a w) : Ends L post w s
  | step {w : W} {s : S} (hlive : ∃ w' s', L.Step s w w' s')
      (hnext : ∀ w' s', L.Step s w w' s' → Ends L post w' s') : Ends L post w s

/-- What follows from the postcondition holds at the end too. -/
theorem Ends.imp {post' : α → W → Prop} (h : L.Ends post w s)
    (himp : ∀ a w', post a w' → post' a w') : L.Ends post' w s := by
  induction h with
  | done hresult hpost => exact .done hresult (himp _ _ hpost)
  | step hlive _ ih => exact .step hlive ih

/-- What ends has a run to its end. -/
theorem Ends.exists_run (h : L.Ends post w s) :
    ∃ w' s' a, L.Runs Alone w s w' s' ∧ L.result s' = some a ∧ post a w' := by
  induction h with
  | done hresult hpost => exact ⟨_, _, _, .refl _ _, hresult, hpost⟩
  | step hlive _ ih =>
    obtain ⟨w₁, s₁, hs⟩ := hlive
    obtain ⟨w₂, s₂, a, hr, ha, hpost⟩ := ih w₁ s₁ hs
    exact ⟨w₂, s₂, a, hr.head hs, ha, hpost⟩

/-- What is safe and ends, ends in the postcondition. -/
theorem Safe.ends {guar : W → W → Prop} (hsafe : L.Safe Alone guar post w s)
    (h : L.Ends (fun _ _ => True) w s) : L.Ends post w s := by
  induction h with
  | done hresult _ => exact .done hresult (hsafe.finished hresult)
  | step hlive _ ih => exact .step hlive fun w' s' hs => ih w' s' hs (hsafe.step hs)

end Lts

namespace Proc

variable {W E : Type} {R : E → Type} {α β σ τ : Type} {env : Env W E R} {P : E → Prop} {w : W}

/-- `Ends` of a program in an environment. -/
abbrev Ends (env : Env W E R) (post : α → W → Prop) (w : W) (p : Proc E R α) : Prop :=
  (lts env α).Ends post w p

/-- A finished program ends where it is. -/
theorem ends_pure {post : α → W → Prop} {a : α} (h : post a w) : Ends env post w (.pure a) :=
  .done rfl h

/-- A request that gets an answer ends if every answer leads to an end. -/
theorem ends_call {post : α → W → Prop} {e : E} {k : R e → Proc E R α}
    (hlive : ∃ r w', env w e r w') (hnext : ∀ r w', env w e r w' → Ends env post w' (k r)) :
    Ends env post w (.call e k) := by
  obtain ⟨r, w', hr⟩ := hlive
  refine .step ⟨w', k r, r, hr, rfl⟩ ?_
  rintro w' q ⟨r, hr, rfl⟩
  exact hnext r w' hr

/-- One request, and its reply is the result. -/
theorem ends_perform {e : E} {post : R e → W → Prop} (hlive : ∃ r w', env w e r w')
    (hpost : ∀ r w', env w e r w' → post r w') : Ends env post w (perform e) :=
  ends_call hlive fun r w' hr => ends_pure (hpost r w' hr)

/-- Every run of what ends is on its way there. -/
theorem Ends.runs {post : α → W → Prop} {p q : Proc E R α} {w' : W} (h : Ends env post w p)
    (hr : (lts env α).Runs Lts.Alone w p w' q) : Ends env post w' q := by
  induction hr with
  | refl => exact h
  | step _ hs ih =>
    cases ih h with
    | done hresult _ =>
      rw [result_eq_some.1 hresult] at hs
      exact hs.elim
    | step _ hnext => exact hnext _ _ hs
  | interfere _ hr ih =>
    cases hr
    exact ih h

/-- A run that returns has the postcondition. -/
theorem Ends.returned {post : α → W → Prop} {p : Proc E R α} {w' : W} {a : α}
    (h : Ends env post w p) (hr : (lts env α).Runs Lts.Alone w p w' (.pure a)) : post a w' := by
  cases h.runs hr with
  | done hresult hpost =>
    cases hresult
    exact hpost
  | step hlive _ =>
    obtain ⟨_, _, hs⟩ := hlive
    exact hs.elim

/-- What ends in `post` never returns anything else. -/
theorem Ends.safe {post : α → W → Prop} {p : Proc E R α} (h : Ends env post w p) :
    Safe env Lts.Alone (fun _ _ => True) post w p := by
  refine fun w' q hr => ⟨fun _ _ _ => trivial, fun a ha => ?_⟩
  obtain rfl := result_eq_some.1 ha
  exact h.returned hr

/-- An environment with more replies has more runs. -/
theorem runs_mono {env' : Env W E R} (henv : ∀ w e r w', env w e r w' → env' w e r w')
    {rely : W → W → Prop} {p q : Proc E R α} {w' : W} (h : (lts env α).Runs rely w p w' q) :
    (lts env' α).Runs rely w p w' q := by
  induction h with
  | refl => exact .refl _ _
  | step _ hs ih => exact ih.step (Step.mono henv hs)
  | interfere _ hr ih => exact ih.interfere hr

/-! ## Composition -/

/-- The second part starts where the first one ended. -/
theorem ends_bind {mid : α → W → Prop} {post : β → W → Prop} {p : Proc E R α}
    {f : α → Proc E R β} (hp : Ends env mid w p) (hf : ∀ a w, mid a w → Ends env post w (f a)) :
    Ends env post w (p.bind f) := by
  generalize hs : p = s at hp
  induction hp generalizing p with
  | done hresult hpost =>
    subst hs
    have hpure := result_eq_some.1 hresult
    rw [hpure]
    exact hf _ _ hpost
  | @step w s hlive _ ih =>
    subst hs
    -- an unfinished first part: the composition takes its steps
    have hcases : ∀ w' q, Step env (p.bind f) w w' q →
        ∃ p', Step env p w w' p' ∧ q = p'.bind f := by
      intro w' q hstep
      rcases step_bind hstep with ⟨a, rfl, _⟩ | hp'
      · obtain ⟨w₁, q₁, h₁⟩ := hlive
        exact absurd h₁ not_false
      · exact hp'
    obtain ⟨w₁, p₁, h₁⟩ := hlive
    refine .step ⟨w₁, p₁.bind f, Step.bind h₁ f⟩ ?_
    intro w' q hstep
    obtain ⟨p', hp', rfl⟩ := hcases w' q hstep
    exact ih w' p' hp' rfl

/-- A loop whose every round ends, and brings a measure down or leaves, ends. -/
theorem ends_loop {body : σ → Proc E R (σ ⊕ β)} {k : β → Proc E R α} {post : α → W → Prop}
    (Inv : σ → W → Prop) (mid : β → W → Prop) (measure : σ → ℕ)
    (hbody : ∀ s w, Inv s w → Ends env
      (fun x w' => Sum.elim (fun s' => Inv s' w' ∧ measure s' < measure s) (mid · w') x) w (body s))
    (hk : ∀ b w, mid b w → Ends env post w (k b)) {s : σ} (h : Inv s w) :
    Ends env post w (.loop body s k) := by
  induction hm : measure s using Nat.strong_induction_on generalizing s w with
  | _ m ih =>
    subst hm
    refine .step ⟨w, (body s).bind (again body k), rfl, rfl⟩ ?_
    rintro w' q ⟨rfl, rfl⟩
    refine ends_bind (hbody s _ h) ?_
    intro x w' hx
    cases x with
    | inl s' => exact ih _ hx.2 hx.1 rfl
    | inr b => exact hk b w' hx

/-! ## Loop-free programs -/

/-- No loops, every request in `P`, and no limiter of zero. -/
def LoopFree (P : E → Prop) : {α : Type} → Proc E R α → Prop
  | _, .pure _ => True
  | _, .call e k => P e ∧ ∀ r, LoopFree P (k r)
  | _, .fan limit tasks k => 0 < limit ∧ (∀ i, LoopFree P (tasks i)) ∧ ∀ vs, LoopFree P (k vs)
  | _, .loop _ _ _ => False

/-- Two parts without loops have none together. -/
theorem LoopFree.bind {p : Proc E R α} {f : α → Proc E R β} (hp : LoopFree P p)
    (hf : ∀ a, LoopFree P (f a)) : LoopFree P (p.bind f) := by
  induction p with
  | pure a => exact hf a
  | call e k ih => exact ⟨hp.1, fun r => ih r (hp.2 r) hf⟩
  | fan limit tasks k _ ih => exact ⟨hp.1, hp.2.1, fun vs => ih vs (hp.2.2 vs) hf⟩
  | loop body s k => exact hp.elim

/-- The requests may be described more widely. -/
theorem LoopFree.mono {Q : E → Prop} (hPQ : ∀ e, P e → Q e) {p : Proc E R α} (hp : LoopFree P p) :
    LoopFree Q p := by
  induction p with
  | pure a => trivial
  | call e k ih => exact ⟨hPQ e hp.1, fun r => ih r (hp.2 r)⟩
  | fan limit tasks k iht ih =>
    exact ⟨hp.1, fun i => iht i (hp.2.1 i), fun vs => ih vs (hp.2.2 vs)⟩
  | loop body s k => exact hp.elim

/-- A program without loops asks what its requests are. -/
theorem LoopFree.asks {p : Proc E R α} (hp : LoopFree P p) : Asks P p := by
  induction p with
  | pure a => trivial
  | call e k ih => exact ⟨hp.1, fun r => ih r (hp.2 r)⟩
  | fan limit tasks k iht ih => exact ⟨fun i => iht i (hp.2.1 i), fun vs => ih vs (hp.2.2 vs)⟩
  | loop body s k => exact hp.elim

/-- While some task is unfinished, a limiter that lets anything through has one in flight. -/
theorem exists_mem_inFlight {n limit : ℕ} {tasks : Fin n → Proc E R τ} (hlimit : 0 < limit)
    {i : Fin n} (hi : (tasks i).result = none) : ∃ j, j ∈ inFlight limit tasks := by
  have hmem : i ∈ (List.finRange n).filter fun i => (tasks i).result.isNone := by
    rw [List.mem_filter]
    exact ⟨List.mem_finRange i, by rw [hi]; rfl⟩
  have hlen : 0 < (inFlight limit tasks).length := by
    have hpos := List.length_pos_of_mem hmem
    unfold inFlight
    rw [List.length_take]
    omega
  exact ⟨_, List.getElem_mem hlen⟩

/-- `q` is what one step, in some world, makes of `p`. -/
def Next (env : Env W E R) (q p : Proc E R α) : Prop := ∃ w w', Step env p w w' q

/-- A fan of tasks that cannot go on forever cannot go on forever: each step brings one component
    of the family of tasks down and leaves the others. -/
theorem acc_fan {n limit : ℕ} {k : (Fin n → τ) → Proc E R α} (hk : ∀ vs, Acc (Next env) (k vs))
    (tasks : Fin n → {p : Proc E R τ // Acc (Next env) p}) :
    Acc (Next env) (.fan limit (fun i => (tasks i).1) k) := by
  have hdown : ∀ _ : Fin n, WellFounded
      (InvImage (Next env) (Subtype.val : {p : Proc E R τ // Acc (Next env) p} → Proc E R τ)) :=
    fun _ => ⟨fun x => InvImage.accessible _ x.2⟩
  have hlex := Pi.Lex.wellFounded (fun i j : Fin n => i < j) hdown
  induction tasks using hlex.induction with
  | _ tasks ih =>
    constructor
    rintro q ⟨w, w', ⟨i, _, t, ht, rfl⟩ | ⟨vs, _, _, rfl⟩⟩
    · have hacc : Acc (Next env) t := (tasks i).2.inv ⟨w, w', ht⟩
      have hsmaller := ih (Function.update tasks i ⟨t, hacc⟩) ?_
      · have hval : (fun j => (Function.update tasks i ⟨t, hacc⟩ j).1) =
            Function.update (fun j => (tasks j).1) i t := by
          funext j
          by_cases hij : j = i
          · subst hij
            rw [Function.update_self, Function.update_self]
          · rw [Function.update_of_ne hij, Function.update_of_ne hij]
        rw [← hval]
        exact hsmaller
      · refine ⟨i, fun j hj => Function.update_of_ne hj.ne _ _, ?_⟩
        rw [Function.update_self]
        exact ⟨w, w', ht⟩
    · exact hk vs

/-! ## Programs that settle -/

/-- Comes to a result, whatever the world does between two of its steps. -/
inductive Settles (env : Env W E R) : Proc E R α → Prop
  | pure (a : α) : Settles env (.pure a)
  | step {p : Proc E R α} (hlive : ∀ w, ∃ w' q, Step env p w w' q)
      (hnext : ∀ w w' q, Step env p w w' q → Settles env q) : Settles env p

/-- What cannot go on forever settles, if it never gets stuck. -/
theorem settles_of_acc (I : Proc E R α → Prop)
    (hstep : ∀ p w w' q, I p → Step env p w w' q → I q)
    (hlive : ∀ p, I p → p.result = none → ∀ w, ∃ w' q, Step env p w w' q) {p : Proc E R α}
    (hacc : Acc (Next env) p) (hp : I p) : Settles env p := by
  induction hacc with
  | intro p _ ih =>
    cases hresult : p.result with
    | some a =>
      rw [result_eq_some.1 hresult]
      exact .pure a
    | none => exact .step (hlive p hp hresult) fun w w' q hs => ih q ⟨w, w', hs⟩ (hstep p w w' q hp hs)

/-- What settles cannot go on forever. -/
theorem Settles.acc {p : Proc E R α} (h : Settles env p) : Acc (Next env) p := by
  induction h with
  | pure a => exact ⟨_, fun q ⟨_, _, hs⟩ => hs.elim⟩
  | step _ _ ih => exact ⟨_, fun q ⟨w, w', hs⟩ => ih w w' q hs⟩

/-- What settles still does after a step. -/
theorem Settles.next {p q : Proc E R α} {w w' : W} (h : Settles env p) (hs : Step env p w w' q) :
    Settles env q := by
  cases h with
  | pure a => exact hs.elim
  | step _ hnext => exact hnext w w' q hs

/-- What settles is never stuck. -/
theorem Settles.live {p : Proc E R α} (h : Settles env p) (hresult : p.result = none) (w : W) :
    ∃ w' q, Step env p w w' q := by
  cases h with
  | pure a => cases hresult
  | step hlive _ => exact hlive w

/-- Two parts that settle do so one after the other. -/
theorem Settles.bind {p : Proc E R α} {f : α → Proc E R β} (hp : Settles env p)
    (hf : ∀ a, Settles env (f a)) : Settles env (p.bind f) := by
  induction hp with
  | pure a => exact hf a
  | @step p hlive hnext ih =>
    refine .step (fun w => ?_) fun w w' q hs => ?_
    · obtain ⟨w', q, hs⟩ := hlive w
      exact ⟨w', q.bind f, hs.bind f⟩
    · rcases step_bind hs with ⟨a, rfl, _⟩ | ⟨p', hs', rfl⟩
      · obtain ⟨_, _, hs'⟩ := hlive w
        exact hs'.elim
      · exact ih w w' p' hs'

/-- A fan whose tasks settle goes on while one of them is unfinished. -/
theorem live_fan {n limit : ℕ} {tasks : Fin n → Proc E R τ} {k : (Fin n → τ) → Proc E R α}
    (hlimit : 0 < limit)
    (htasks : ∀ i, (tasks i).result = none → ∀ w, ∃ w' q, Step env (tasks i) w w' q) (w : W) :
    ∃ w' q, Step env (.fan limit tasks k) w w' q := by
  by_cases hall : ∀ i, ∃ v, tasks i = .pure v
  · choose vs hvs using hall
    exact ⟨w, k vs, Or.inr ⟨vs, hvs, rfl, rfl⟩⟩
  · obtain ⟨i, hi⟩ := not_forall.1 hall
    have hnone : (tasks i).result = none := by
      rw [Option.eq_none_iff_forall_not_mem]
      intro v hv
      exact hi ⟨v, result_eq_some.1 hv⟩
    obtain ⟨j, hj⟩ := exists_mem_inFlight hlimit hnone
    obtain ⟨w', t, ht⟩ := htasks j (result_of_mem_inFlight hj) w
    exact ⟨w', _, Or.inl ⟨j, hj, t, ht, rfl⟩⟩

/-- **Fans settle** when their tasks do, under every schedule. -/
theorem settles_fan {n limit : ℕ} {tasks : Fin n → Proc E R τ} {k : (Fin n → τ) → Proc E R α}
    (hlimit : 0 < limit) (htasks : ∀ i, Settles env (tasks i)) (hk : ∀ vs, Settles env (k vs)) :
    Settles env (.fan limit tasks k) := by
  have hacc : Acc (Next env) (.fan limit tasks k) :=
    acc_fan (fun vs => (hk vs).acc) fun i => ⟨tasks i, (htasks i).acc⟩
  refine settles_of_acc (fun q => Settles env q ∨ ∃ tasks' : Fin n → Proc E R τ,
    q = .fan limit tasks' k ∧ ∀ i, Settles env (tasks' i)) ?_ ?_ hacc (Or.inr ⟨tasks, rfl, htasks⟩)
  · rintro p w w' q (hp | ⟨tasks', rfl, htasks'⟩) hs
    · exact Or.inl (hp.next hs)
    · rcases hs with ⟨i, _, t, ht, rfl⟩ | ⟨vs, _, _, rfl⟩
      · refine Or.inr ⟨_, rfl, fun j => ?_⟩
        by_cases hij : j = i
        · subst hij
          rw [Function.update_self]
          exact (htasks' j).next ht
        · rw [Function.update_of_ne hij]
          exact htasks' j
      · exact Or.inl (hk vs)
  · rintro p (hp | ⟨tasks', rfl, htasks'⟩) hresult w
    · exact hp.live hresult w
    · exact live_fan hlimit (fun i hi => (htasks' i).live hi) w

/-- What settles ends, wherever it starts. -/
theorem Settles.ends {p : Proc E R α} (h : Settles env p) (w : W) :
    Ends env (fun _ _ => True) w p := by
  induction h generalizing w with
  | pure a => exact ends_pure trivial
  | step hlive _ ih => exact .step (hlive w) fun w' q hs => ih w w' q hs w'

/-- A request that is answered in every world settles if every answer leads there. -/
theorem settles_call {e : E} {k : R e → Proc E R α} (hlive : ∀ w, ∃ r w', env w e r w')
    (hnext : ∀ w r w', env w e r w' → Settles env (k r)) : Settles env (.call e k) := by
  refine .step (fun w => ?_) ?_
  · obtain ⟨r, w', hr⟩ := hlive w
    exact ⟨w', k r, r, hr, rfl⟩
  · rintro w w' q ⟨r, hr, rfl⟩
    exact hnext w r w' hr

/-- **Loop-free programs settle** when every request gets an answer. -/
theorem LoopFree.settles (hanswer : ∀ w e, P e → ∃ r w', env w e r w') {p : Proc E R α}
    (hp : LoopFree P p) : Settles env p := by
  induction p with
  | pure a => exact .pure a
  | call e k ih => exact settles_call (fun w => hanswer w e hp.1) fun _ r _ _ => ih r (hp.2 r)
  | fan limit tasks k iht ihk =>
    exact settles_fan hp.1 (fun i => iht i (hp.2.1 i)) fun vs => ihk vs (hp.2.2 vs)
  | loop body s k => exact hp.elim

/-- **Loop-free programs end**, under every schedule of their fans. -/
theorem LoopFree.ends (hanswer : ∀ w e, P e → ∃ r w', env w e r w') {p : Proc E R α}
    (hp : LoopFree P p) (w : W) : Ends env (fun _ _ => True) w p :=
  (hp.settles hanswer).ends w

end Proc

namespace Async

section Ends

variable {W E : Type} {R : E → Type} {ε α β : Type} {env : Env W E R} {w : W}
  {post : Except ε β → W → Prop}

/-- After a value the next part must end, after an error the whole has ended. -/
theorem ends_bind (ok : α → W → Prop) {p : Async E R ε α} {f : α → Async E R ε β}
    (hp : Proc.Ends env (Outcome ok fun e w => post (.error e) w) w p)
    (hf : ∀ a w, ok a w → Proc.Ends env post w (f a)) :
    Proc.Ends env post w (p >>= f : Async E R ε β) := by
  rw [bind_eq]
  refine Proc.ends_bind hp fun r w hr => ?_
  cases r with
  | ok a => exact hf a w hr
  | error e => exact Proc.ends_pure hr

/-- `await p`, for a `p` that resolves. -/
theorem ends_bind_resolved {ok : α → W → Prop} {p : Async E R ε α} {f : α → Async E R ε β}
    (hp : Proc.Ends env (Outcome ok fun _ _ => False) w p)
    (hf : ∀ a w, ok a w → Proc.Ends env post w (f a)) :
    Proc.Ends env post w (p >>= f : Async E R ε β) := by
  refine ends_bind ok (hp.imp fun r w hr => ?_) hf
  cases r with
  | ok a => exact hr
  | error e => exact hr.elim

/-- The same, with a first part that cannot reject. -/
theorem ends_lift_bind (mid : α → W → Prop) {p : Proc E R α} {f : α → Async E R ε β}
    (hp : Proc.Ends env mid w p) (hf : ∀ a w, mid a w → Proc.Ends env post w (f a)) :
    Proc.Ends env post w ((p : Async E R ε α) >>= f : Async E R ε β) := by
  rw [lift_bind_eq]
  exact Proc.ends_bind hp hf

/-- After an error the handler must end, after a value the whole has ended. -/
theorem ends_tryCatch (err : ε → W → Prop) {p : Async E R ε β} {f : ε → Async E R ε β}
    (hp : Proc.Ends env (Outcome (fun b w => post (.ok b) w) err) w p)
    (hf : ∀ e w, err e w → Proc.Ends env post w (f e)) :
    Proc.Ends env post w (tryCatch p f : Async E R ε β) := by
  rw [tryCatch_eq]
  refine Proc.ends_bind hp fun r w hr => ?_
  cases r with
  | ok b => exact Proc.ends_pure hr
  | error e => exact hf e w hr

/-- A loop ends whose every round ends, and rejects, leaves, or brings a measure down. -/
theorem ends_iterate {σ : Type} {body : σ → Async E R ε (σ ⊕ β)} {s : σ} (Inv : σ → W → Prop)
    (measure : σ → ℕ)
    (hbody : ∀ s w, Inv s w → Proc.Ends env (Outcome
      (fun x w' => Sum.elim (fun s' => Inv s' w' ∧ measure s' < measure s)
        (fun b => post (.ok b) w') x) fun e w' => post (.error e) w') w (body s))
    (h : Inv s w) : Proc.Ends env post w (iterate body s) := by
  unfold iterate Proc.iterate
  refine Proc.ends_loop Inv post measure (fun s w hs => ?_) (fun r w hr => Proc.ends_pure hr) h
  refine Proc.ends_bind (hbody s w hs) fun r w' hr => ?_
  match r with
  | .ok (.inl s') => exact Proc.ends_pure hr
  | .ok (.inr b) => exact Proc.ends_pure hr
  | .error e => exact Proc.ends_pure hr

end Ends

variable {E : Type} {R : E → Type} {ε α β : Type} {P : E → Prop}

/-! What is composed of programs that settle, settles. -/

section Settles

variable {W : Type} {env : Env W E R}

/-- A composition of two parts that settle. -/
theorem settles_bind {p : Async E R ε α} {f : α → Async E R ε β} (hp : Proc.Settles env p)
    (hf : ∀ a, Proc.Settles env (f a)) : Proc.Settles env (p >>= f : Async E R ε β) := by
  rw [bind_eq]
  refine hp.bind fun r => ?_
  cases r with
  | ok a => exact hf a
  | error e => exact .pure _

/-- The same, with a first part that cannot reject. -/
theorem settles_lift_bind {p : Proc E R α} {f : α → Async E R ε β} (hp : Proc.Settles env p)
    (hf : ∀ a, Proc.Settles env (f a)) :
    Proc.Settles env ((p : Async E R ε α) >>= f : Async E R ε β) := by
  rw [lift_bind_eq]
  exact hp.bind hf

/-- A handled program settles with its handler. -/
theorem settles_tryCatch {p : Async E R ε α} {f : ε → Async E R ε α} (hp : Proc.Settles env p)
    (hf : ∀ e, Proc.Settles env (f e)) : Proc.Settles env (tryCatch p f : Async E R ε α) := by
  rw [tryCatch_eq]
  refine hp.bind fun r => ?_
  cases r with
  | ok a => exact .pure _
  | error e => exact hf e

end Settles

/-- A composition of two parts without loops. -/
theorem loopFree_bind {p : Async E R ε α} {f : α → Async E R ε β} (hp : Proc.LoopFree P p)
    (hf : ∀ a, Proc.LoopFree P (f a)) : Proc.LoopFree P (p >>= f : Async E R ε β) := by
  rw [bind_eq]
  refine hp.bind fun r => ?_
  cases r with
  | ok a => exact hf a
  | error e => trivial

/-- The same, with a first part that cannot reject. -/
theorem loopFree_lift_bind {p : Proc E R α} {f : α → Async E R ε β} (hp : Proc.LoopFree P p)
    (hf : ∀ a, Proc.LoopFree P (f a)) :
    Proc.LoopFree P ((p : Async E R ε α) >>= f : Async E R ε β) := by
  rw [lift_bind_eq]
  exact hp.bind hf

/-- A handled program has no loop if its handler has none. -/
theorem loopFree_tryCatch {p : Async E R ε α} {f : ε → Async E R ε α} (hp : Proc.LoopFree P p)
    (hf : ∀ e, Proc.LoopFree P (f e)) : Proc.LoopFree P (tryCatch p f : Async E R ε α) := by
  rw [tryCatch_eq]
  refine hp.bind fun r => ?_
  cases r with
  | ok a => trivial
  | error e => exact hf e

end Async

end Effectful
