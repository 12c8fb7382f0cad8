/-
  Rely/guarantee reasoning over transition systems.

  `L.Safe rely guar post w s` says: let `s` run from `w` while others change the world by `rely`
  steps at any moment.  Then every step of `s` itself is a `guar` step, and whenever `s` has
  finished with `a`, the world satisfies `post a`.

  One predicate covers the four shapes of statement a development needs:
  * CRASH SAFETY — `guar := fun _ w' => I w'`: cut the run anywhere, `I` holds;
  * RESULTS      — `post`, stable under `rely` by construction;
  * INTERLEAVING — `PoolRuns.safe`: components whose guarantees imply each other's relies keep
    their `Safe` under every schedule;
  * HISTORIES    — `History.invariant`: crashed or finished runs one after another.

  `Safe` is defined from runs, so it needs no adequacy theorem; the rules make it usable without
  ever mentioning a run.  All of them come from `Safe.coinduct`.
-/
import ReplaysFetcher.Effectful.Proc

namespace Effectful

universe u

/-- A transition system over a shared world `W` with private states `S`; `result` marks the
    finished ones. -/
structure Lts (W : Type) (S : Type u) (α : Type) where
  Step : S → W → W → S → Prop
  result : S → Option α

namespace Lts

variable {W α β : Type} {S : Type u}

/-- The rely of a component nobody interferes with. -/
def Alone : W → W → Prop := fun w w' => w' = w

/-- Runs of one component, interleaved with `rely` steps of the others. -/
inductive Runs (L : Lts W S α) (rely : W → W → Prop) : W → S → W → S → Prop
  | refl (w : W) (s : S) : Runs L rely w s w s
  | step {w w₁ w₂ : W} {s s₁ s₂ : S} :
      Runs L rely w s w₁ s₁ → L.Step s₁ w₁ w₂ s₂ → Runs L rely w s w₂ s₂
  | interfere {w w₁ w₂ : W} {s s₁ : S} :
      Runs L rely w s w₁ s₁ → rely w₁ w₂ → Runs L rely w s w₂ s₁

variable {L : Lts W S α} {rely guar : W → W → Prop} {post : α → W → Prop} {w w₁ w₂ w' : W}
  {s s₁ s₂ s' : S}

/-- Runs may be joined. -/
theorem Runs.trans (h : L.Runs rely w s w₁ s₁) (h' : L.Runs rely w₁ s₁ w₂ s₂) :
    L.Runs rely w s w₂ s₂ := by
  induction h' with
  | refl => exact h
  | step _ hs ih => exact (ih h).step hs
  | interfere _ hr ih => exact (ih h).interfere hr

/-- And begun one step earlier. -/
theorem Runs.head (hs : L.Step s w w₁ s₁) (h : L.Runs rely w₁ s₁ w₂ s₂) : L.Runs rely w s w₂ s₂ :=
  ((Runs.refl w s).step hs).trans h

/-- Others that do more make more runs. -/
theorem Runs.mono {rely' : W → W → Prop} (hr : ∀ w w', rely' w w' → rely w w')
    (h : L.Runs rely' w s w' s') : L.Runs rely w s w' s' := by
  induction h with
  | refl => exact .refl _ _
  | step _ hs ih => exact ih.step hs
  | interfere _ hi ih => exact ih.interfere (hr _ _ hi)

/-- Every own step is a `guar` step and every result satisfies `post`, under interference. -/
def Safe (L : Lts W S α) (rely guar : W → W → Prop) (post : α → W → Prop) (w : W) (s : S) : Prop :=
  ∀ ⦃w' : W⦄ ⦃s' : S⦄, L.Runs rely w s w' s' →
    (∀ w'' s'', L.Step s' w' w'' s'' → guar w' w'') ∧ ∀ a, L.result s' = some a → post a w'

/-- A step of what is safe keeps the guarantee. -/
theorem Safe.guarantee (h : L.Safe rely guar post w s) (hs : L.Step s w w' s') : guar w w' :=
  (h (.refl w s)).1 w' s' hs

/-- Its result satisfies the postcondition. -/
theorem Safe.finished {a : α} (h : L.Safe rely guar post w s) (ha : L.result s = some a) :
    post a w :=
  (h (.refl w s)).2 a ha

/-- It is safe wherever it has come to. -/
theorem Safe.runs (h : L.Safe rely guar post w s) (hr : L.Runs rely w s w' s') :
    L.Safe rely guar post w' s' :=
  fun _ _ hr' => h (hr.trans hr')

/-- So after a step. -/
theorem Safe.step (h : L.Safe rely guar post w s) (hs : L.Step s w w' s') :
    L.Safe rely guar post w' s' :=
  h.runs ((Runs.refl w s).step hs)

/-- And after what others have done. -/
theorem Safe.interfere (h : L.Safe rely guar post w s) (hr : rely w w') :
    L.Safe rely guar post w' s :=
  h.runs ((Runs.refl w s).interfere hr)

/-- To be safe it is enough to keep an invariant, or to pass to a state known to be safe. -/
theorem Safe.coinduct (I : W → S → Prop)
    (hstep : ∀ w s w' s', I w s → L.Step s w w' s' →
      guar w w' ∧ (I w' s' ∨ L.Safe rely guar post w' s'))
    (hrely : ∀ w s w', I w s → rely w w' → I w' s ∨ L.Safe rely guar post w' s)
    (hpost : ∀ w s a, I w s → L.result s = some a → post a w)
    (h : I w s) : L.Safe rely guar post w s := by
  intro w' s' hr
  have key : I w' s' ∨ L.Safe rely guar post w' s' := by
    induction hr with
    | refl => exact Or.inl h
    | step _ hs ih =>
      rcases ih h with hi | hsafe
      · exact (hstep _ _ _ _ hi hs).2
      · exact Or.inr (hsafe.step hs)
    | interfere _ hr ih =>
      rcases ih h with hi | hsafe
      · exact hrely _ _ _ hi hr
      · exact Or.inr (hsafe.interfere hr)
  rcases key with hi | hsafe
  · exact ⟨fun w'' s'' hs => (hstep _ _ _ _ hi hs).1, fun a ha => hpost _ _ a hi ha⟩
  · exact hsafe (.refl w' s')

/-- Less interference, a larger guarantee, a weaker postcondition. -/
theorem Safe.weaken {rely' guar' : W → W → Prop} {post' : α → W → Prop}
    (h : L.Safe rely guar post w s) (hr : ∀ w w', rely' w w' → rely w w')
    (hg : ∀ w w', guar w w' → guar' w w') (hp : ∀ a w, post a w → post' a w) :
    L.Safe rely' guar' post' w s := by
  intro w' s' hrun
  have h' := h (hrun.mono hr)
  exact ⟨fun w'' s'' hs => hg _ _ (h'.1 w'' s'' hs), fun a ha => hp a _ (h'.2 a ha)⟩

/-- A postcondition may be weakened. -/
theorem Safe.imp {post' : α → W → Prop} (h : L.Safe rely guar post w s)
    (hp : ∀ a w, post a w → post' a w) : L.Safe rely guar post' w s :=
  h.weaken (fun _ _ h => h) (fun _ _ h => h) hp

/-- Two safety facts about one state hold together. -/
theorem Safe.and {guar' : W → W → Prop} {post' : α → W → Prop} (h : L.Safe rely guar post w s)
    (h' : L.Safe rely guar' post' w s) :
    L.Safe rely (fun w w' => guar w w' ∧ guar' w w') (fun a w => post a w ∧ post' a w) w s :=
  fun _ _ hr => ⟨fun w'' s'' hs => ⟨(h hr).1 w'' s'' hs, (h' hr).1 w'' s'' hs⟩,
    fun a ha => ⟨(h hr).2 a ha, (h' hr).2 a ha⟩⟩

/-- What every own step and every interference keep holds all along a run. -/
theorem Safe.always {I : W → Prop} (h : L.Safe rely guar post w s)
    (hguar : ∀ w w', I w → guar w w' → I w') (hrely : ∀ w w', I w → rely w w' → I w') (hw : I w)
    (hr : L.Runs rely w s w' s') : I w' := by
  induction hr with
  | refl => exact hw
  | step hr hs ih => exact hguar _ _ (ih h) ((h hr).1 _ _ hs)
  | interfere _ hi ih => exact hrely _ _ (ih h) hi

/-- What nobody's step undoes holds at the end as well. -/
theorem Safe.kept {I : W → Prop} (h : L.Safe rely guar post w s)
    (hguar : ∀ w w', I w → guar w w' → I w') (hrely : ∀ w w', I w → rely w w' → I w') (hw : I w) :
    L.Safe rely guar (fun a w => post a w ∧ I w) w s :=
  fun _ _ hr => ⟨(h hr).1, fun a ha => ⟨(h hr).2 a ha, h.always hguar hrely hw hr⟩⟩

/-! ## Pools: components interleaved by an arbitrary schedule -/

section Pool

variable {ι : Type} [DecidableEq ι]

/-- Runs of a family of components over one world; each step is a step of one of them. -/
inductive PoolRuns (L : ι → Lts W S α) : W → (ι → S) → W → (ι → S) → Prop
  | refl (w : W) (ss : ι → S) : PoolRuns L w ss w ss
  | step {w w₁ w₂ : W} {ss ss₁ : ι → S} {s₂ : S} (i : ι) :
      PoolRuns L w ss w₁ ss₁ → (L i).Step (ss₁ i) w₁ w₂ s₂ →
      PoolRuns L w ss w₂ (Function.update ss₁ i s₂)

variable {L : ι → Lts W S α} {rely guar : ι → W → W → Prop} {post : ι → α → W → Prop}
  {ss ss' ss'' : ι → S}

/-- Runs of a pool may be joined. -/
theorem PoolRuns.trans (h : PoolRuns L w ss w₁ ss') (h' : PoolRuns L w₁ ss' w₂ ss'') :
    PoolRuns L w ss w₂ ss'' := by
  induction h' with
  | refl => exact h
  | step i _ hs ih => exact (ih h).step i hs

/-- A component may run on its own for a while. -/
theorem PoolRuns.of_runs (i : ι) (h : (L i).Runs Alone w (ss i) w' s') :
    PoolRuns L w ss w' (Function.update ss i s') := by
  generalize hs : ss i = s at h
  induction h with
  | refl =>
    subst hs
    rw [Function.update_eq_self]
    exact .refl _ _
  | @step w₁ w₂ s s₁ s₂ _ hstep ih =>
    have hown : Function.update ss i s₁ i = s₁ := Function.update_self ..
    have hnext := (ih hs).step i (hown.symm ▸ hstep)
    rwa [Function.update_idem] at hnext
  | interfere _ hr ih =>
    cases hr
    exact ih hs

/-- Components whose guarantees meet each other's relies stay safe under every schedule. -/
theorem PoolRuns.safe (hown : ∀ i j, i ≠ j → ∀ w w', guar j w w' → rely i w w')
    (hsafe : ∀ i, (L i).Safe (rely i) (guar i) (post i) w (ss i)) (hr : PoolRuns L w ss w' ss') :
    ∀ i, (L i).Safe (rely i) (guar i) (post i) w' (ss' i) := by
  induction hr with
  | refl => exact hsafe
  | step j _ hs ih =>
    intro i
    have hall := ih hsafe
    by_cases hij : i = j
    · subst hij
      rw [Function.update_self]
      exact (hall i).step hs
    · rw [Function.update_of_ne hij]
      exact (hall i).interfere (hown i j hij _ _ ((hall j).guarantee hs))

/-- What every component's steps keep holds under every schedule. -/
theorem PoolRuns.invariant {I : W → Prop}
    (hown : ∀ i j, i ≠ j → ∀ w w', guar j w w' → rely i w w')
    (hsafe : ∀ i, (L i).Safe (rely i) (guar i) (post i) w (ss i))
    (hI : ∀ i w w', guar i w w' → I w → I w') (hw : I w) (hr : PoolRuns L w ss w' ss') : I w' := by
  induction hr with
  | refl => exact hw
  | step j hr hs ih =>
    exact hI j _ _ ((hr.safe hown hsafe j).guarantee hs) (ih hsafe)

end Pool

/-! ## Histories: runs one after another, each finished or killed -/

/-- `History L start w w'`: a sequence of runs, each begun in a state satisfying `start` and cut at
    an arbitrary point, takes the world from `w` to `w'`. -/
inductive History (L : Lts W S α) (start : S → Prop) : W → W → Prop
  | nil (w : W) : History L start w w
  | run {w w₁ w₂ : W} {s s₂ : S} :
      History L start w w₁ → start s → L.Runs Alone w₁ s w₂ s₂ → History L start w w₂

/-- An invariant that every run keeps at each of its steps holds after every history. -/
theorem History.invariant {start : S → Prop} {I : W → Prop}
    (hsafe : ∀ s, start s → ∀ w, I w →
      L.Safe Alone (fun w w' => I w → I w') (fun _ _ => True) w s)
    (hw : I w) (h : L.History start w w') : I w' := by
  induction h with
  | nil => exact hw
  | run _ hst hr ih =>
    exact (hsafe _ hst _ ih).always (fun _ _ hI hg => hg hI) (fun _ _ h he => he ▸ h) ih hr

end Lts

end Effectful
