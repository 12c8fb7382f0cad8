/-
  Proof rules for effectful programs.

  One rule per constructor of `Proc` (`safe_pure`, `safe_call`, `safe_fan`, `safe_loop`) and one
  for composition (`safe_bind`).  With them a program is verified by following its text: no proof
  about a program ever inspects a run of it.

  `safe_fan` is the parallel rule: each task has its own rely and guarantee, and the others'
  guarantees are part of its rely.  `safe_fan_one` is the special case of a limiter of one, where
  the tasks run one after the other and a chain of assertions `Q 0, Q 1, …` links them.

  `Quiet` programs (clocks, timers, log lines) are those whose steps nobody's assertions notice.
-/
import ReplaysFetcher.Effectful.RelyGuarantee

namespace Effectful

namespace Proc

variable {W E : Type} {R : E → Type} {α β σ τ : Type}

/-- The transition system of a program in an environment. -/
def lts (env : Env W E R) (α : Type) : Lts W (Proc E R α) α where
  Step p w w' p' := Step env p w w' p'
  result := result

variable {env : Env W E R} {rely guar : W → W → Prop} {post : α → W → Prop} {w w' : W}

@[simp] theorem lts_step {p p' : Proc E R α} :
    (lts env α).Step p w w' p' ↔ Step env p w w' p' := Iff.rfl

@[simp] theorem lts_result (p : Proc E R α) : (lts env α).result p = p.result := rfl

/-- `Safe` of a program in an environment. -/
abbrev Safe (env : Env W E R) (rely guar : W → W → Prop) (post : α → W → Prop) (w : W)
    (p : Proc E R α) : Prop :=
  (lts env α).Safe rely guar post w p

/-- What every exchange keeps, a run keeps. -/
theorem runs_keep {I : W → Prop} (henv : ∀ w e r w', I w → env w e r w' → I w') {w' : W}
    {p p' : Proc E R α} (h : (lts env α).Runs Lts.Alone w p w' p') (hw : I w) : I w' := by
  induction h with
  | refl => exact hw
  | step _ hs ih =>
    rcases Step.world hs with rfl | ⟨e, r, hr⟩
    · exact ih
    · exact henv _ _ _ _ ih hr
  | interfere _ hr ih =>
    cases hr
    exact ih

theorem Safe.of_pure {a : α} (h : Safe env rely guar post w (.pure a)) : post a w :=
  Lts.Safe.finished h rfl

theorem Safe.of_run {p : Proc E R α} {a : α} (h : Safe env rely guar post w p)
    (hr : (lts env α).Runs rely w p w' (.pure a)) : post a w' :=
  Lts.Safe.finished (Lts.Safe.runs h hr) rfl

/-- Nothing is asked of the steps or of the result. -/
theorem safe_any (hguar : ∀ w w', guar w w') (p : Proc E R α) :
    Safe env rely guar (fun _ _ => True) w p :=
  fun _ _ _ => ⟨fun _ _ _ => hguar _ _, fun _ _ => trivial⟩

/-- A finished program is safe when its postcondition is stable. -/
theorem safe_pure {a : α} (hstable : ∀ w w', post a w → rely w w' → post a w') (hpost : post a w) :
    Safe env rely guar post w (.pure a) := by
  refine Lts.Safe.coinduct (fun w p => p = .pure a ∧ post a w) ?_ ?_ ?_ ⟨rfl, hpost⟩
  · rintro w p w' p' ⟨rfl, _⟩ hs
    exact hs.elim
  · rintro w p w' ⟨rfl, hp⟩ hr
    exact Or.inl ⟨rfl, hstable _ _ hp hr⟩
  · rintro w p b ⟨rfl, hp⟩ hb
    obtain rfl : a = b := Option.some.inj hb
    exact hp

/-- A finished program cannot step, so its postcondition may be replaced by any weaker one. -/
theorem Safe.pure_imp {a : α} {b : β} {post' : β → W → Prop}
    (h : Safe env rely guar post w (.pure a)) (himp : ∀ w, post a w → post' b w) :
    Safe env rely guar post' w (.pure b) := by
  refine Lts.Safe.coinduct
    (fun w p => p = .pure b ∧ Safe env rely guar post w (.pure a)) ?_ ?_ ?_ ⟨rfl, h⟩
  · rintro w p w' p' ⟨rfl, _⟩ hs
    exact hs.elim
  · rintro w p w' ⟨rfl, hp⟩ hr
    exact Or.inl ⟨rfl, hp.interfere hr⟩
  · rintro w p c ⟨rfl, hp⟩ hc
    obtain rfl : b = c := Option.some.inj hc
    exact himp w hp.of_pure

/-- A request, under an assertion `P` that interference keeps. -/
theorem safe_call {e : E} {k : R e → Proc E R α} (P : W → Prop)
    (hstable : ∀ w w', P w → rely w w' → P w')
    (h : ∀ w, P w → ∀ r w', env w e r w' → guar w w' ∧ Safe env rely guar post w' (k r))
    (hP : P w) : Safe env rely guar post w (.call e k) := by
  refine Lts.Safe.coinduct (fun w p => p = .call e k ∧ P w) ?_ ?_ ?_ ⟨rfl, hP⟩
  · rintro w p w' p' ⟨rfl, hp⟩ ⟨r, hr, rfl⟩
    exact ⟨(h w hp r w' hr).1, Or.inr (h w hp r w' hr).2⟩
  · rintro w p w' ⟨rfl, hp⟩ hr
    exact Or.inl ⟨rfl, hstable _ _ hp hr⟩
  · rintro w p b ⟨rfl, _⟩ hb
    cases hb

/-- Sequential composition.  The second part may use that the first part's postcondition, once
    reached, is stable: that is what `Safe … (.pure a)` says. -/
theorem safe_bind {mid : α → W → Prop} {post : β → W → Prop} {p : Proc E R α}
    {f : α → Proc E R β} (hp : Safe env rely guar mid w p)
    (hf : ∀ a w, Safe env rely guar mid w (.pure a) → Safe env rely guar post w (f a)) :
    Safe env rely guar post w (p.bind f) := by
  refine Lts.Safe.coinduct
    (fun w q => ∃ p, q = p.bind f ∧ Safe env rely guar mid w p) ?_ ?_ ?_ ⟨p, rfl, hp⟩
  · rintro w q w' q' ⟨p, rfl, hp⟩ hs
    rcases step_bind hs with ⟨a, rfl, hs'⟩ | ⟨p', hs', rfl⟩
    · have hfa := hf a w hp
      exact ⟨Lts.Safe.guarantee hfa hs', Or.inr (Lts.Safe.step hfa hs')⟩
    · exact ⟨Lts.Safe.guarantee hp hs', Or.inl ⟨p', rfl, Lts.Safe.step hp hs'⟩⟩
  · rintro w q w' ⟨p, rfl, hp⟩ hr
    exact Or.inl ⟨p, rfl, hp.interfere hr⟩
  · rintro w q b ⟨p, rfl, hp⟩ hb
    cases p with
    | pure a => exact Lts.Safe.finished (hf a w hp) hb
    | call e k => cases hb
    | fan limit tasks k => cases hb
    | loop body s k => cases hb

/-- Sequential composition, when the stability of `mid` is not needed. -/
theorem safe_bind_of {mid : α → W → Prop} {post : β → W → Prop} {p : Proc E R α}
    {f : α → Proc E R β} (hp : Safe env rely guar mid w p)
    (hf : ∀ a w, mid a w → Safe env rely guar post w (f a)) :
    Safe env rely guar post w (p.bind f) :=
  safe_bind hp fun a w h => hf a w h.of_pure

/-! ## Loops -/

/-- A loop keeps the invariant `Inv` that holds whenever its body is entered. -/
theorem safe_loop {body : σ → Proc E R (σ ⊕ β)} {k : β → Proc E R α} {s : σ}
    (Inv : σ → W → Prop) (mid : β → W → Prop) (hrefl : ∀ w, guar w w)
    (hstable : ∀ s w w', Inv s w → rely w w' → Inv s w')
    (hbody : ∀ s w, Inv s w →
      Safe env rely guar (fun x w => Sum.elim (Inv · w) (mid · w) x) w (body s))
    (hk : ∀ b w, mid b w → Safe env rely guar post w (k b)) (h : Inv s w) :
    Safe env rely guar post w (.loop body s k) := by
  -- the set: about to start a round with the invariant, or safely within one
  refine Lts.Safe.coinduct
    (fun w q => (∃ s, q = .loop body s k ∧ Inv s w) ∨
      ∃ p, q = p.bind (again body k) ∧
        Safe env rely guar (fun x w => Sum.elim (Inv · w) (mid · w) x) w p)
    ?_ ?_ ?_ (Or.inl ⟨s, rfl, h⟩)
  · -- a step
    rintro w q w' q' (⟨s, rfl, hs⟩ | ⟨p, rfl, hp⟩) hstep
    · obtain ⟨rfl, rfl⟩ := hstep
      exact ⟨hrefl _, Or.inl (Or.inr ⟨body s, rfl, hbody s _ hs⟩)⟩
    · rcases step_bind hstep with ⟨x, rfl, hs'⟩ | ⟨p', hs', rfl⟩
      · cases x with
        | inl s =>
          obtain ⟨rfl, rfl⟩ := hs'
          exact ⟨hrefl _, Or.inl (Or.inr ⟨body s, rfl, hbody s _ hp.of_pure⟩)⟩
        | inr b =>
          have hb := hk b w hp.of_pure
          exact ⟨Lts.Safe.guarantee hb hs', Or.inr (Lts.Safe.step hb hs')⟩
      · exact ⟨Lts.Safe.guarantee hp hs', Or.inl (Or.inr ⟨p', rfl, Lts.Safe.step hp hs'⟩)⟩
  · -- an interference
    rintro w q w' (⟨s, rfl, hs⟩ | ⟨p, rfl, hp⟩) hr
    · exact Or.inl (Or.inl ⟨s, rfl, hstable _ _ _ hs hr⟩)
    · exact Or.inl (Or.inr ⟨p, rfl, hp.interfere hr⟩)
  · -- a result: a round that leaves the loop goes on in `k` and does not end there
    rintro w q a (⟨s, rfl, hs⟩ | ⟨p, rfl, hp⟩) ha
    · cases ha
    · cases p with
      | pure x =>
        cases x with
        | inl s => cases ha
        | inr b => exact Lts.Safe.finished (hk b w hp.of_pure) ha
      | call e k => cases ha
      | fan limit tasks k => cases ha
      | loop body s k => cases ha

/-! ## Fans -/

section Fan

variable {n limit : Nat} {tasks : Fin n → Proc E R τ} {k : (Fin n → τ) → Proc E R α}

/-- The parallel rule.  `J` is a fact about the world that every task keeps, available at the
    join also when there are no tasks. -/
theorem safe_fan {relyT guarT : Fin n → W → W → Prop} {postT : Fin n → τ → W → Prop}
    (J : W → Prop) (hown : ∀ i j, i ≠ j → ∀ w w', guarT j w w' → relyT i w w')
    (hrely : ∀ i w w', rely w w' → relyT i w w') (hguar : ∀ i w w', guarT i w w' → guar w w')
    (hrefl : ∀ w, guar w w) (hJrely : ∀ w w', J w → rely w w' → J w')
    (hJguar : ∀ i w w', J w → guarT i w w' → J w')
    (ht : ∀ i, Safe env (relyT i) (guarT i) (postT i) w (tasks i))
    (hk : ∀ vs w, J w → (∀ i, postT i (vs i) w) → Safe env rely guar post w (k vs)) (hJ : J w) :
    Safe env rely guar post w (.fan limit tasks k) := by
  refine Lts.Safe.coinduct
    (fun w q => J w ∧ ∃ tasks, q = .fan limit tasks k ∧
      ∀ i, Safe env (relyT i) (guarT i) (postT i) w (tasks i)) ?_ ?_ ?_ ⟨hJ, tasks, rfl, ht⟩
  · rintro w q w' q' ⟨hJ, tasks, rfl, ht⟩ (⟨i, _, t, hs, rfl⟩ | ⟨vs, hvs, rfl, rfl⟩)
    · have hg : guarT i w w' := Lts.Safe.guarantee (ht i) hs
      refine ⟨hguar i _ _ hg, Or.inl ⟨hJguar i _ _ hJ hg, _, rfl, fun j => ?_⟩⟩
      by_cases hij : j = i
      · subst hij
        rw [Function.update_self]
        exact Lts.Safe.step (ht j) hs
      · rw [Function.update_of_ne hij]
        exact (ht j).interfere (hown j i hij _ _ hg)
    · exact ⟨hrefl _, Or.inr (hk vs _ hJ fun i => (hvs i ▸ ht i).of_pure)⟩
  · rintro w q w' ⟨hJ, tasks, rfl, ht⟩ hr
    exact Or.inl ⟨hJrely _ _ hJ hr, tasks, rfl, fun i => (ht i).interfere (hrely i _ _ hr)⟩
  · rintro w q a ⟨_, tasks, rfl, _⟩ ha
    cases ha

/-- Only unfinished tasks are in flight. -/
theorem result_of_mem_inFlight {i : Fin n} (h : i ∈ inFlight limit tasks) :
    (tasks i).result = none := by
  have hi := (List.mem_filter.1 (List.mem_of_mem_take h)).2
  exact Option.isNone_iff_eq_none.1 hi

/-- Under a limiter of one, only the first unfinished task is in flight. -/
theorem eq_of_mem_inFlight_one {i m : Fin n} (hbefore : ∀ j < m, (tasks j).result.isSome)
    (hm : (tasks m).result = none) (h : i ∈ inFlight 1 tasks) : i = m := by
  unfold inFlight at h
  have hfind : ((List.finRange n).filter fun i => (tasks i).result.isNone).head? = some m := by
    rw [List.head?_filter, List.find?_eq_some_iff_append]
    refine ⟨by simp [hm], (List.finRange n).take m, (List.finRange n).drop (m + 1), ?_, ?_⟩
    · have hlen : (m : Nat) < (List.finRange n).length := by simp
      have hget : (List.finRange n)[(m : Nat)] = m := by simp
      calc List.finRange n
          = (List.finRange n).take m ++ (List.finRange n).drop m := (List.take_append_drop _ _).symm
        _ = _ := by rw [List.drop_eq_getElem_cons hlen, hget]
    · intro j hj
      obtain ⟨p, hp, rfl⟩ := List.getElem_of_mem hj
      have hpm : p < m := by
        rw [List.length_take] at hp
        omega
      have hlen : p < (List.finRange n).length := by
        rw [List.length_finRange]
        omega
      have hsome := hbefore ((List.finRange n).get ⟨p, hlen⟩) (by simpa [Fin.lt_def] using hpm)
      simpa [Option.isSome_iff_ne_none] using hsome
  rw [List.take_one, hfind] at h
  simpa using h

/-- From the point where the first `m` tasks are done, skip the tasks that have nothing to do. -/
theorem skip_finished {Q : Nat → W → Prop} {V : Fin n → τ → Prop}
    (ht : ∀ (i : Fin n) w, Q i w →
      Safe env rely guar (fun v w => Q (i + 1) w ∧ V i v) w (tasks i))
    {tasks' : Fin n → Proc E R τ} (m : Nat) (hm : m ≤ n) (hQ : Q m w)
    (hdone : ∀ i : Fin n, i < m → ∃ v, tasks' i = .pure v ∧ V i v)
    (hrest : ∀ i : Fin n, m ≤ i → tasks' i = tasks i) :
    ∃ m' ≤ n, (∀ i : Fin n, i < m' → ∃ v, tasks' i = .pure v ∧ V i v) ∧
      (∀ i : Fin n, m' ≤ i → tasks' i = tasks i) ∧ Q m' w ∧
      ∀ i : Fin n, i.val = m' → (tasks' i).result = none := by
  induction hgap : n - m generalizing m with
  | zero =>
    exact ⟨m, hm, hdone, hrest, hQ, fun i hi => by omega⟩
  | succ gap ih =>
    let i : Fin n := ⟨m, by omega⟩
    cases hres : (tasks' i).result with
    | none =>
      refine ⟨m, hm, hdone, hrest, hQ, fun j hj => ?_⟩
      obtain rfl : j = i := Fin.ext hj
      exact hres
    | some v =>
      have hv : tasks' i = .pure v := result_eq_some.1 hres
      have hsafe := ht i w hQ
      rw [← hrest i (le_refl _), hv] at hsafe
      obtain ⟨hQ', hV⟩ := hsafe.of_pure
      refine ih (m + 1) (by omega) hQ' (fun j hj => ?_) (fun j hj => hrest j (by omega)) (by omega)
      rcases Nat.lt_succ_iff_lt_or_eq.1 hj with hlt | heq
      · exact hdone j hlt
      · obtain rfl : j = i := Fin.ext heq
        exact ⟨v, hv, hV⟩

/-- A limiter of one runs the tasks one after the other. -/
theorem safe_fan_one (Q : Nat → W → Prop) (V : Fin n → τ → Prop) (hrefl : ∀ w, guar w w)
    (hstable : ∀ m w w', Q m w → rely w w' → Q m w')
    (ht : ∀ (i : Fin n) w, Q i w →
      Safe env rely guar (fun v w => Q (i + 1) w ∧ V i v) w (tasks i))
    (hk : ∀ vs w, Q n w → (∀ i, V i (vs i)) → Safe env rely guar post w (k vs)) (hQ : Q 0 w) :
    Safe env rely guar post w (.fan 1 tasks k) := by
  -- `m` tasks are done, the next one is under way, the others have not started
  refine Lts.Safe.coinduct
    (fun w q => ∃ tasks' m, m ≤ n ∧ q = .fan 1 tasks' k ∧
      (∀ i : Fin n, i < m → ∃ v, tasks' i = .pure v ∧ V i v) ∧
      (∀ i : Fin n, m < i → tasks' i = tasks i) ∧
      (∀ i : Fin n, i.val = m → (tasks' i).result = none ∧
        Safe env rely guar (fun v w => Q (i + 1) w ∧ V i v) w (tasks' i)) ∧
      (m = n → Q n w)) ?_ ?_ ?_ ?_
  · rintro w q w' q' ⟨tasks', m, hm, rfl, hdone, hrest, hcur, hend⟩
      (⟨i, hi, t, hs, rfl⟩ | ⟨vs, hvs, rfl, rfl⟩)
    · have hlt : m < n := by
        by_contra hge
        obtain ⟨v, hv, _⟩ := hdone i (by omega)
        have := result_of_mem_inFlight hi
        rw [hv] at this
        cases this
      let c : Fin n := ⟨m, hlt⟩
      obtain ⟨hnone, hsafe⟩ := hcur c rfl
      obtain rfl : i = c := by
        refine eq_of_mem_inFlight_one (fun j hj => ?_) hnone hi
        obtain ⟨v, hv, _⟩ := hdone j hj
        simp [hv]
      have hsafe' : Safe env rely guar (fun v w => Q (m + 1) w ∧ V c v) w' t :=
        Lts.Safe.step hsafe hs
      refine ⟨Lts.Safe.guarantee hsafe hs, Or.inl ?_⟩
      have hbelow : ∀ j : Fin n, j < m → Function.update tasks' c t j = tasks' j :=
        fun j hj => Function.update_of_ne (by rintro rfl; exact absurd hj (lt_irrefl _)) _ _
      have habove : ∀ j : Fin n, m < j → Function.update tasks' c t j = tasks' j :=
        fun j hj => Function.update_of_ne (by rintro rfl; exact absurd hj (lt_irrefl _)) _ _
      cases hres : t.result with
      | none =>
        refine ⟨_, m, hm, rfl, fun j hj => hbelow j hj ▸ hdone j hj,
          fun j hj => habove j hj ▸ hrest j hj, fun j hj => ?_, fun h => absurd h (by omega)⟩
        obtain rfl : j = c := Fin.ext hj
        rw [Function.update_self]
        exact ⟨hres, hsafe'⟩
      | some v =>
        obtain rfl := result_eq_some.1 hres
        obtain ⟨hQ', hV⟩ := hsafe'.of_pure
        have hdone' : ∀ j : Fin n, j < m + 1 →
            ∃ v', Function.update tasks' c (.pure v) j = .pure v' ∧ V j v' := fun j hj => by
          rcases Nat.lt_succ_iff_lt_or_eq.1 hj with hjm | hjm
          · exact hbelow j hjm ▸ hdone j hjm
          · obtain rfl : j = c := Fin.ext hjm
            exact ⟨v, Function.update_self .., hV⟩
        obtain ⟨m', hm', hd, hr, hQm, hn⟩ := skip_finished ht (m + 1) hlt hQ' hdone'
          (fun j hj => (habove j (by omega)).trans (hrest j (by omega)))
        refine ⟨_, m', hm', rfl, hd, fun j hj => hr j hj.le, fun j hj => ⟨hn j hj, ?_⟩,
          fun h => h ▸ hQm⟩
        subst hj
        rw [hr j (le_refl _)]
        exact ht j _ hQm
    · refine ⟨hrefl _, Or.inr ?_⟩
      have hmn : m = n := by
        by_contra hne
        have hcm := (hcur ⟨m, by omega⟩ rfl).1
        rw [hvs] at hcm
        cases hcm
      refine hk vs _ (hend hmn) fun i => ?_
      obtain ⟨v, hv, hV⟩ := hdone i (by omega)
      rw [hvs] at hv
      cases hv
      exact hV
  · rintro w q w' ⟨tasks', m, hm, rfl, hdone, hrest, hcur, hend⟩ hr
    exact Or.inl ⟨tasks', m, hm, rfl, hdone, hrest,
      fun i hi => ⟨(hcur i hi).1, (hcur i hi).2.interfere hr⟩, fun h => hstable _ _ _ (hend h) hr⟩
  · rintro w q a ⟨tasks', m, _, rfl, _⟩ ha
    cases ha
  · obtain ⟨m, hm, hd, hr, hQm, hn⟩ := skip_finished ht 0 (Nat.zero_le n) hQ
      (fun i hi => absurd hi (Nat.not_lt_zero _)) (fun _ _ => rfl)
    refine ⟨tasks, m, hm, rfl, hd, fun i hi => hr i hi.le, fun i hi => ⟨hn i hi, ?_⟩,
      fun h => h ▸ hQm⟩
    subst hi
    exact ht i _ hQm

end Fan

/-! ## Quiet programs -/

/-- A program whose steps no assertion of the component, and nobody else, notices. -/
def Quiet (env : Env W E R) (rely guar : W → W → Prop) (p : Proc E R α) : Prop :=
  ∀ P : W → Prop, (∀ w w', P w → rely w w' → P w') → ∀ w, P w →
    Safe env rely guar (fun _ w => P w) w p

theorem quiet_perform {e : E} (h : ∀ w r w', env w e r w' → guar w w' ∧ rely w w') :
    Quiet env rely guar (perform e) := fun P hstable _ hP =>
  safe_call P hstable (fun _ hP r _ hr =>
    ⟨(h _ r _ hr).1, safe_pure hstable (hstable _ _ hP (h _ r _ hr).2)⟩) hP

theorem Quiet.bind {p : Proc E R α} {f : α → Proc E R β} (hp : Quiet env rely guar p)
    (hf : ∀ a, Quiet env rely guar (f a)) : Quiet env rely guar (p.bind f) :=
  fun P hstable w hP => safe_bind_of (hp P hstable w hP) fun a w hP => hf a P hstable w hP

/-- Every request the program may send is in `P`. -/
def Asks (P : E → Prop) : {α : Type} → Proc E R α → Prop
  | _, .pure _ => True
  | _, .call e k => P e ∧ ∀ r, Asks P (k r)
  | _, .fan _ tasks k => (∀ i, Asks P (tasks i)) ∧ ∀ vs, Asks P (k vs)
  | _, .loop body _ k => (∀ s, Asks P (body s)) ∧ ∀ b, Asks P (k b)

theorem Asks.bind {P : E → Prop} {p : Proc E R α} {f : α → Proc E R β} (hp : Asks P p)
    (hf : ∀ a, Asks P (f a)) : Asks P (p.bind f) := by
  induction p with
  | pure a => exact hf a
  | call e k ih => exact ⟨hp.1, fun r => ih r (hp.2 r) hf⟩
  | fan limit tasks k _ ih => exact ⟨hp.1, fun vs => ih vs (hp.2 vs) hf⟩
  | loop body s k _ ih => exact ⟨hp.1, fun b => ih b (hp.2 b) hf⟩

theorem Asks.mono {P Q : E → Prop} (hPQ : ∀ e, P e → Q e) {p : Proc E R α} (hp : Asks P p) :
    Asks Q p := by
  induction p with
  | pure a => trivial
  | call e k ih => exact ⟨hPQ e hp.1, fun r => ih r (hp.2 r)⟩
  | fan limit tasks k iht ih => exact ⟨fun i => iht i (hp.1 i), fun vs => ih vs (hp.2 vs)⟩
  | loop body s k ihb ih => exact ⟨fun s => ihb s (hp.1 s), fun b => ih b (hp.2 b)⟩

/-- Requests that are answered by programs: what these ask is asked. -/
theorem Asks.handle {E' : Type} {R' : E' → Type} {P : E → Prop} {Q : E' → Prop}
    {handler : (e : E) → Proc E' R' (R e)} {p : Proc E R α} (hp : Asks P p)
    (hhandler : ∀ e, P e → Asks Q (handler e)) : Asks Q (p.handle handler) := by
  induction p with
  | pure a => trivial
  | call e k ih => exact (hhandler e hp.1).bind fun r => ih r (hp.2 r)
  | fan limit tasks k iht ih => exact ⟨fun i => iht i (hp.1 i), fun vs => ih vs (hp.2 vs)⟩
  | loop body s k ihb ih => exact ⟨fun s => ihb s (hp.1 s), fun b => ih b (hp.2 b)⟩

/-- A step of such a program is silent, or answers a request in `P`; what is left is such a
    program. -/
theorem Asks.step {P : E → Prop} {p q : Proc E R α} (hp : Asks P p) (h : Step env p w w' q) :
    Asks P q ∧ (w' = w ∨ ∃ e r, P e ∧ env w e r w') := by
  induction p with
  | pure a => exact h.elim
  | call e k =>
    obtain ⟨r, hr, rfl⟩ := h
    exact ⟨hp.2 r, Or.inr ⟨e, r, hp.1, hr⟩⟩
  | fan limit tasks k iht =>
    rcases h with ⟨i, _, t, ht, rfl⟩ | ⟨vs, _, hw, rfl⟩
    · obtain ⟨hstep, hworld⟩ := iht i (hp.1 i) ht
      refine ⟨⟨fun j => ?_, hp.2⟩, hworld⟩
      by_cases hij : j = i
      · subst hij
        rw [Function.update_self]
        exact hstep
      · rw [Function.update_of_ne hij]
        exact hp.1 j
    · exact ⟨hp.2 vs, Or.inl hw⟩
  | loop body s k =>
    obtain ⟨hw, rfl⟩ := h
    refine ⟨(hp.1 s).bind fun x => ?_, Or.inl hw⟩
    cases x with
    | inl s => exact hp
    | inr b => exact hp.2 b

theorem asks_any (p : Proc E R α) : Asks (fun _ => True) p := by
  induction p with
  | pure a => trivial
  | call e k ih => exact ⟨trivial, ih⟩
  | fan limit tasks k iht ih => exact ⟨iht, ih⟩
  | loop body s k ihb ih => exact ⟨ihb, ih⟩

/-- A program that sends only unnoticed requests is unnoticed. -/
theorem Asks.quiet {P : E → Prop} {p : Proc E R α} (hp : Asks P p) (hrefl : ∀ w, guar w w)
    (h : ∀ e, P e → ∀ w r w', env w e r w' → guar w w' ∧ rely w w') :
    Quiet env rely guar p := by
  intro A hstable w hA
  refine Lts.Safe.coinduct (fun w q => Asks P q ∧ A w) ?_ ?_ ?_ ⟨hp, hA⟩
  · rintro w q w' q' ⟨hq, hA⟩ hs
    obtain ⟨hq', rfl | ⟨e, r, he, hr⟩⟩ := hq.step hs
    · exact ⟨hrefl _, Or.inl ⟨hq', hA⟩⟩
    · obtain ⟨hguar, hrely⟩ := h e he _ _ _ hr
      exact ⟨hguar, Or.inl ⟨hq', hstable _ _ hA hrely⟩⟩
  · rintro w q w' ⟨hq, hA⟩ hr
    exact Or.inl ⟨hq, hstable _ _ hA hr⟩
  · rintro w q a ⟨_, hA⟩ _
    exact hA

/-- What held before a quiet program holds after it. -/
theorem safe_quiet_bind {p : Proc E R α} {f : α → Proc E R β} {post : β → W → Prop}
    (hq : Quiet env rely guar p) (P : W → Prop) (hstable : ∀ w w', P w → rely w w' → P w')
    (hf : ∀ a w, P w → Safe env rely guar post w (f a)) (hP : P w) :
    Safe env rely guar post w (p.bind f) :=
  safe_bind_of (hq P hstable w hP) hf

end Proc

end Effectful
