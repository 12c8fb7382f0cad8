/-
  Programs among more requests.

  `inl p` is the program `p` over the requests `E ⊕ F`: it sends those of `E` and none of `F`.  It
  takes the steps `p` takes where only the left requests are answered (`step_inl`), so what is safe
  for `p` there is safe for `inl p` (`safe_inl`).

  The world of the larger signature holds more than `p` knows.  `safe_seen` carries a fact about `p`
  to every world that `p` sees only a part of; what the rest of that world keeps it may show for the
  requests that `p` sends.

  `ensure p q` is `try p finally q`.
-/
import ReplaysFetcher.Effectful.Termination

namespace Effectful

variable {W E F : Type} {R : E → Type} {S : F → Type} {α β : Type}

/-- What an environment answers to the requests on the left. -/
def Env.left (env : Env W (E ⊕ F) (Sum.elim R S)) : Env W E R :=
  fun w e r w' => env w (Sum.inl e) r w'

namespace Proc

/-- The program, among more requests. -/
def inl (p : Proc E R α) : Proc (E ⊕ F) (Sum.elim R S) α :=
  p.handle fun e => perform (E := E ⊕ F) (R := Sum.elim R S) (Sum.inl e)

@[simp] theorem inl_pure (a : α) : (inl (.pure a : Proc E R α) : Proc (E ⊕ F) (Sum.elim R S) α) = .pure a :=
  rfl

theorem inl_bind (p : Proc E R α) (f : α → Proc E R β) :
    (inl (p.bind f) : Proc (E ⊕ F) (Sum.elim R S) β) = (inl p).bind fun a => inl (f a) :=
  handle_bind _ p f

@[simp] theorem result_inl (p : Proc E R α) :
    (inl p : Proc (E ⊕ F) (Sum.elim R S) α).result = p.result := by
  cases p <;> rfl

section Step

variable {env : Env W (E ⊕ F) (Sum.elim R S)} {w w' : W}

/-- **The steps of `inl p`** are those of `p`. -/
theorem step_inl {p : Proc E R α} {q : Proc (E ⊕ F) (Sum.elim R S) α} :
    Step env (inl p) w w' q ↔ ∃ p', q = inl p' ∧ Step env.left p w w' p' := by
  induction p with
  | pure a =>
    constructor
    · exact fun h => h.elim
    · rintro ⟨_, _, h⟩
      exact h.elim
  | call e k =>
    constructor
    · rintro ⟨r, hr, rfl⟩
      exact ⟨k r, rfl, r, hr, rfl⟩
    · rintro ⟨_, rfl, r, hr, rfl⟩
      exact ⟨r, hr, rfl⟩
  | @fan α τ n limit tasks k iht _ =>
    -- the same tasks are in flight, and stepping one of them commutes with the injection
    have hflight : inFlight limit (fun i => (inl (tasks i) : Proc (E ⊕ F) (Sum.elim R S) τ)) =
        inFlight limit tasks := by
      unfold inFlight
      simp only [result_inl]
    have hupdate : ∀ i (t : Proc E R τ),
        Function.update (fun i => (inl (tasks i) : Proc (E ⊕ F) (Sum.elim R S) τ)) i (inl t) =
          fun j => inl (Function.update tasks i t j) := by
      intro i t
      funext j
      by_cases hij : j = i
      · subst hij
        rw [Function.update_self, Function.update_self]
      · rw [Function.update_of_ne hij, Function.update_of_ne hij]
    constructor
    · rintro (⟨i, hi, t, ht, rfl⟩ | ⟨vs, hvs, rfl, rfl⟩)
      · obtain ⟨t', rfl, ht'⟩ := (iht i).1 ht
        refine ⟨.fan limit (Function.update tasks i t') k, ?_, Or.inl ⟨i, hflight ▸ hi, t', ht', rfl⟩⟩
        show Proc.fan limit _ _ = Proc.fan limit _ _
        exact congrArg (Proc.fan limit · _) (hupdate i t')
      · refine ⟨k vs, rfl, Or.inr ⟨vs, fun i => ?_, rfl, rfl⟩⟩
        have hdone : (inl (tasks i) : Proc (E ⊕ F) (Sum.elim R S) τ).result = some (vs i) :=
          result_eq_some.2 (hvs i)
        rw [result_inl] at hdone
        exact result_eq_some.1 hdone
    · rintro ⟨_, rfl, ⟨i, hi, t, ht, rfl⟩ | ⟨vs, hvs, rfl, rfl⟩⟩
      · refine Or.inl ⟨i, hflight.symm ▸ hi, inl t, (iht i).2 ⟨t, rfl, ht⟩, ?_⟩
        show Proc.fan limit _ _ = Proc.fan limit _ _
        exact congrArg (Proc.fan limit · _) (hupdate i t).symm
      · refine Or.inr ⟨vs, fun i => ?_, rfl, rfl⟩
        show inl (tasks i) = _
        rw [hvs i]
        rfl
  | loop body s k =>
    -- a round is injected as a whole
    have hunfold : (inl (body s) : Proc (E ⊕ F) (Sum.elim R S) _).bind
        (again (fun s => inl (body s)) fun b => inl (k b)) = inl ((body s).bind (again body k)) := by
      rw [inl_bind]
      congr 1
      funext x
      cases x <;> rfl
    constructor
    · rintro ⟨rfl, rfl⟩
      exact ⟨_, hunfold, rfl, rfl⟩
    · rintro ⟨_, rfl, rfl, rfl⟩
      exact ⟨rfl, hunfold.symm⟩

/-- What is safe on the left is safe among more requests. -/
theorem safe_inl {rely guar : W → W → Prop} {post : α → W → Prop} {p : Proc E R α}
    (h : Safe env.left rely guar post w p) : Safe env rely guar post w (inl p) := by
  refine Lts.Safe.coinduct
    (fun w q => ∃ p, q = inl p ∧ Safe env.left rely guar post w p) ?_ ?_ ?_ ⟨p, rfl, h⟩
  · rintro w q w' q' ⟨p, rfl, hp⟩ hs
    obtain ⟨p', rfl, hs'⟩ := step_inl.1 hs
    exact ⟨Lts.Safe.guarantee hp hs', Or.inl ⟨p', rfl, Lts.Safe.step hp hs'⟩⟩
  · rintro w q w' ⟨p, rfl, hp⟩ hr
    exact Or.inl ⟨p, rfl, hp.interfere hr⟩
  · rintro w q a ⟨p, rfl, hp⟩ ha
    rw [lts_result, result_inl] at ha
    exact Lts.Safe.finished hp ha

end Step

/-- A step of a program that asks `P` is silent, or one request in `P` is answered. -/
theorem Asks.anywhere {P : E → Prop} {env : Env W E R} {w w' : W} {p q : Proc E R α}
    (hp : Asks P p) (h : Step env p w w' q) :
    (w' = w ∧ ∀ {V : Type} (env' : Env V E R) (v : V), Step env' p v v q) ∨
      ∃ e r, P e ∧ env w e r w' ∧
        ∀ {V : Type} (env' : Env V E R) (v v' : V), env' v e r v' → Step env' p v v' q := by
  rcases h.anywhere with hsilent | ⟨e, r, hr, hs⟩
  · exact Or.inl hsilent
  · refine Or.inr ⟨e, r, ?_, hr, hs⟩
    -- the same step where this reply is all that happens
    have hs' := hs (fun (before : Bool) e' r' after => before = false ∧ after = true ∧
      (⟨e', r'⟩ : Σ e : E, R e) = ⟨e, r⟩) false true ⟨rfl, rfl, rfl⟩
    rcases (hp.step hs').2 with hsame | ⟨e', r', he', _, _, hrequest⟩
    · cases hsame
    · cases hrequest
      exact he'

/-- A fact about `p` in the part of the world it sees, where the rest keeps `A`. -/
theorem safe_seen {V : Type} {view : V → W} {env : Env W E R} {env' : Env V E R}
    {rely guar : W → W → Prop} {rely' keeps : V → V → Prop} {A : V → Prop} {P : E → Prop}
    {post : α → W → Prop} {v : V} {p : Proc E R α}
    (henv : ∀ v e r v', A v → P e → env' v e r v' →
      env (view v) e r (view v') ∧ A v' ∧ keeps v v')
    (hrefl : ∀ v, keeps v v)
    (hrely : ∀ v v', A v → rely' v v' → rely (view v) (view v') ∧ A v')
    (hasks : Asks P p) (hA : A v) (h : Safe env rely guar post (view v) p) :
    Safe env' rely' (fun v v' => guar (view v) (view v') ∧ keeps v v')
      (fun a v => post a (view v) ∧ A v) v p := by
  refine Lts.Safe.coinduct
    (fun v q => Asks P q ∧ A v ∧ Safe env rely guar post (view v) q) ?_ ?_ ?_ ⟨hasks, hA, h⟩
  · rintro v q v' q' ⟨hq, hv, hsafe⟩ hs
    have hseen : Step env q (view v) (view v') q' ∧ A v' ∧ keeps v v' := by
      rcases hq.anywhere hs with ⟨rfl, hs'⟩ | ⟨e, r, he, hr, hs'⟩
      · exact ⟨hs' env (view v'), hv, hrefl v'⟩
      · obtain ⟨henv', hA', hkeeps⟩ := henv v e r v' hv he hr
        exact ⟨hs' env _ _ henv', hA', hkeeps⟩
    exact ⟨⟨Lts.Safe.guarantee hsafe hseen.1, hseen.2.2⟩,
      Or.inl ⟨(hq.step hs).1, hseen.2.1, Lts.Safe.step hsafe hseen.1⟩⟩
  · exact fun v q v' hq hr => Or.inl ⟨hq.1, (hrely v v' hq.2.1 hr).2,
      hq.2.2.interfere (hrely v v' hq.2.1 hr).1⟩
  · exact fun v q a hq ha => ⟨Lts.Safe.finished hq.2.2 ha, hq.2.1⟩

end Proc

namespace Async

variable {ε : Type}

/-- A program that cannot reject, at the end of one that may. -/
theorem safe_lift {env : Env W E R} {rely guar : W → W → Prop} {post : Except ε α → W → Prop} {w : W}
    {p : Proc E R α} (hp : Proc.Safe env rely guar (fun a => post (.ok a)) w p) :
    Proc.Safe env rely guar post w (ExceptT.lift p : Async E R ε α) :=
  Proc.safe_bind hp fun _ _ ha => ha.pure_imp fun _ h => h

/-- `try p finally q`: `q` runs however `p` ends, and a rejection of `q` is what is left of both. -/
def ensure (p : Async E R ε α) (q : Async E R ε Unit) : Async E R ε α :=
  Proc.bind p fun r => Proc.bind q fun
    | .ok _ => .pure r
    | .error error => .pure (.error error)

/-- `try p finally q`: `q` starts where `p` ended, with what `p` ended with. -/
theorem safe_ensure {env : Env W E R} {rely guar : W → W → Prop} {post : Except ε α → W → Prop} {w : W}
    (mid : Except ε α → W → Prop) {p : Async E R ε α} {q : Async E R ε Unit}
    (hp : Proc.Safe env rely guar mid w p)
    (hq : ∀ r w, mid r w → Proc.Safe env rely guar
      (Outcome (fun _ => post r) fun error => post (.error error)) w q) :
    Proc.Safe env rely guar post w (ensure p q) := by
  refine Proc.safe_bind_of hp fun r w hr => Proc.safe_bind (hq r w hr) fun s w hs => ?_
  cases s with
  | ok u => exact hs.pure_imp fun _ h => h
  | error error => exact hs.pure_imp fun _ h => h

end Async

end Effectful
