/-
  Recorded runs.

  Properties such as "no write without a read before it" are about the CONVERSATION a component
  has had, not only about the present world.  `Env.recorded i` is an environment whose world
  carries, for each component, the list of its events so far; component `i` runs in it and its
  events go to list `i`.  A statement about histories is then a statement about this larger world,
  and the rules of `Effectful.Rules` apply unchanged.

  `Emits p l a` says that `p` can hold exactly the conversation `l` and return `a`, whatever world
  answered it.  `safe_emits` ties the two together: whatever runs in a recorded world and returns
  `a` has left behind, inside the record, a conversation that it `Emits` with `a`.  Where nobody else
  writes on the record, that conversation is all it has added (`Safe.recorded`).
-/
import ReplaysFetcher.Effectful.Rules

namespace Effectful

/-- A request with its reply and the worlds around it. -/
structure Event (W E : Type) (R : E → Type) where
  before : W
  request : E
  reply : R request
  after : W

/-- The worlds of `Env.recorded`: the world, and every component's events, oldest first. -/
abbrev Recorded (ι W E : Type) (R : E → Type) : Type := W × (ι → List (Event W E R))

variable {ι W E : Type} {R : E → Type} {α : Type} [DecidableEq ι]

/-- The environment of component `i` in a recorded world. -/
def Env.recorded (env : Env W E R) (i : ι) : Env (Recorded ι W E R) E R :=
  fun w e r w' => env w.1 e r w'.1 ∧
    w'.2 = Function.update w.2 i (w.2 i ++ [⟨w.1, e, r, w'.1⟩])

theorem Env.recorded_self {env : Env W E R} {i : ι} {w w' : Recorded ι W E R} {e : E} {r : R e}
    (h : env.recorded i w e r w') : w'.2 i = w.2 i ++ [⟨w.1, e, r, w'.1⟩] := by
  rw [h.2, Function.update_self]

theorem Env.recorded_other {env : Env W E R} {i j : ι} {w w' : Recorded ι W E R} {e : E} {r : R e}
    (h : env.recorded i w e r w') (hij : j ≠ i) : w'.2 j = w.2 j := by
  rw [h.2, Function.update_of_ne hij]

/-- Others are at work, but not on the record of component `i`. -/
def Recorded.during (i : ι) (rely : W → W → Prop) (w w' : Recorded ι W E R) : Prop :=
  rely w.1 w'.1 ∧ w'.2 i = w.2 i

/-- Component `i` writes on no other record. -/
def Recorded.alongside (i : ι) (guar : W → W → Prop) (w w' : Recorded ι W E R) : Prop :=
  guar w.1 w'.1 ∧ ∀ j, j ≠ i → w'.2 j = w.2 j

/-- A server that keeps the record of component `i`. -/
def recordServe (serve : W → (e : E) → R e × W) (i : ι) (w : Recorded ι W E R) (e : E) :
    R e × Recorded ι W E R :=
  ((serve w.1 e).1, (serve w.1 e).2,
    Function.update w.2 i (w.2 i ++ [⟨w.1, e, (serve w.1 e).1, (serve w.1 e).2⟩]))

theorem recorded_serve {env : Env W E R} {serve : W → (e : E) → R e × W} {i : ι}
    (h : ∀ w e, env w e (serve w e).1 (serve w e).2) (w : Recorded ι W E R) (e : E) :
    env.recorded i w e (recordServe serve i w e).1 (recordServe serve i w e).2 :=
  ⟨h w.1 e, rfl⟩

/-- The environment that answers anything and only writes the conversation down. -/
def Env.free : Env (List (Σ e : E, R e)) E R := fun l e r l' => l' = l ++ [⟨e, r⟩]

/-- `p` can hold the conversation `l` and return `a`. -/
def Emits (p : Proc E R α) (l : List (Σ e : E, R e)) (a : α) : Prop :=
  (Proc.lts Env.free α).Runs Lts.Alone [] p l (.pure a)

/-- The conversation in a list of events. -/
def conversation (h : List (Event W E R)) : List (Σ e : E, R e) :=
  h.map fun ev => ⟨ev.request, ev.reply⟩

@[simp] theorem conversation_append (h h' : List (Event W E R)) :
    conversation (h ++ h') = conversation h ++ conversation h' := List.map_append

namespace Proc

/-- A step in a recorded world either leaves the record alone, and is silent, or adds one event. -/
theorem Step.of_recorded {env : Env W E R} {i : ι} {p q : Proc E R α} {w w' : Recorded ι W E R}
    (h : Step (env.recorded i) p w w' q) (l : List (Σ e : E, R e)) :
    (w' = w ∧ Step Env.free p l l q) ∨
      ∃ ev, w'.2 i = w.2 i ++ [ev] ∧ Step Env.free p l (l ++ [⟨ev.request, ev.reply⟩]) q := by
  rcases h.anywhere with ⟨hw, hs⟩ | ⟨e, r, hr, hs⟩
  · exact Or.inl ⟨hw, hs Env.free l⟩
  · exact Or.inr ⟨⟨w.1, e, r, w'.1⟩, Env.recorded_self hr, hs Env.free l _ rfl⟩

/-- Whatever returns in a recorded world has left a conversation of its own in the record, in
    order, if everybody else only adds to that record. -/
theorem safe_emits {env : Env W E R} {i : ι} {rely : Recorded ι W E R → Recorded ι W E R → Prop}
    (hrely : ∀ w w', rely w w' → (w.2 i).Sublist (w'.2 i)) (w : Recorded ι W E R)
    (p : Proc E R α) :
    Safe (env.recorded i) rely (fun _ _ => True)
      (fun a w => ∃ l, Emits p l a ∧ l.Sublist (conversation (w.2 i))) w p := by
  refine Lts.Safe.coinduct
    (fun w q => ∃ l, (lts Env.free α).Runs Lts.Alone [] p l q ∧ l.Sublist (conversation (w.2 i)))
    ?_ ?_ ?_ ⟨[], .refl _ _, List.nil_sublist _⟩
  · rintro w q w' q' ⟨l, hrun, hl⟩ hs
    refine ⟨trivial, Or.inl ?_⟩
    rcases hs.of_recorded l with ⟨rfl, hs'⟩ | ⟨ev, hev, hs'⟩
    · exact ⟨l, hrun.step hs', hl⟩
    · refine ⟨_, hrun.step hs', ?_⟩
      rw [hev, conversation_append]
      exact hl.append (List.Sublist.refl _)
  · rintro w q w' ⟨l, hrun, hl⟩ hr
    exact Or.inl ⟨l, hrun, hl.trans ((hrely _ _ hr).map _)⟩
  · rintro w q a ⟨l, hrun, hl⟩ ha
    obtain rfl := result_eq_some.1 ha
    exact ⟨l, hrun, hl⟩

/-- The record of a component holds only what its program may ask, under every schedule. -/
theorem pool_asks {env : Env W E R} {P : ι → E → Prop} {w w' : Recorded ι W E R}
    {ps ps' : ι → Proc E R α} (hps : ∀ i, Asks (P i) (ps i)) (hw : ∀ i, ∀ ev ∈ w.2 i, P i ev.request)
    (h : Lts.PoolRuns (fun i => lts (env.recorded i) α) w ps w' ps') :
    ∀ i, Asks (P i) (ps' i) ∧ ∀ ev ∈ w'.2 i, P i ev.request := by
  induction h with
  | refl => exact fun i => ⟨hps i, hw i⟩
  | @step w₁ w₂ ss ss₁ q j _ hs ih =>
    intro i
    obtain ⟨hasks, hrecord⟩ := ih hps i
    have hstep := (ih hps j).1.step hs
    by_cases hij : i = j
    · subst hij
      rw [Function.update_self]
      refine ⟨hstep.1, fun ev hev => ?_⟩
      rcases hstep.2 with hsame | ⟨e, r, he, hr⟩
      · rw [hsame] at hev
        exact hrecord ev hev
      · rw [Env.recorded_self hr] at hev
        rcases List.mem_append.1 hev with hev | hev
        · exact hrecord ev hev
        · rw [List.mem_singleton.1 hev]
          exact he
    · rw [Function.update_of_ne hij]
      refine ⟨hasks, fun ev hev => ?_⟩
      rcases hstep.2 with hsame | ⟨e, r, he, hr⟩
      · rw [hsame] at hev
        exact hrecord ev hev
      · rw [Env.recorded_other hr hij] at hev
        exact hrecord ev hev

/-- What the record shows it goes on showing. -/
theorem safe_recorded {env : Env W E R} {i : ι} {rely : Recorded ι W E R → Recorded ι W E R → Prop}
    {P : List (Event W E R) → Prop} (hP : ∀ l more, P l → P (l ++ more))
    (hrely : ∀ w w', rely w w' → ∃ more, w'.2 i = w.2 i ++ more) {w : Recorded ι W E R}
    (hw : P (w.2 i)) (p : Proc E R α) :
    Safe (env.recorded i) rely (fun _ _ => True) (fun _ w => P (w.2 i)) w p := by
  refine Lts.Safe.coinduct (fun w _ => P (w.2 i)) ?_ ?_ ?_ hw
  · rintro w q w' q' hw hs
    refine ⟨trivial, Or.inl ?_⟩
    rcases hs.of_recorded [] with ⟨rfl, _⟩ | ⟨ev, hev, _⟩
    · exact hw
    · rw [hev]
      exact hP _ _ hw
  · intro w q w' hw hr
    obtain ⟨more, hmore⟩ := hrely w w' hr
    rw [hmore]
    exact Or.inl (hP _ _ hw)
  · exact fun _ _ _ hw _ => hw

/-- What a program that returns has added to its record is a conversation of its own, if nobody else
    touches that record. -/
theorem safe_emits_after {env : Env W E R} {i : ι}
    {rely : Recorded ι W E R → Recorded ι W E R → Prop}
    (hrely : ∀ w w', rely w w' → w'.2 i = w.2 i) (w : Recorded ι W E R) (p : Proc E R α) :
    Safe (env.recorded i) rely (fun _ _ => True)
      (fun a w' => ∃ l, Emits p l a ∧ conversation (w'.2 i) = conversation (w.2 i) ++ l) w p := by
  refine Lts.Safe.coinduct (fun w' q => ∃ l, (lts Env.free α).Runs Lts.Alone [] p l q ∧
    conversation (w'.2 i) = conversation (w.2 i) ++ l) ?_ ?_ ?_
    ⟨[], .refl _ _, (List.append_nil _).symm⟩
  · rintro w₁ q w₂ q' ⟨l, hrun, hl⟩ hs
    refine ⟨trivial, Or.inl ?_⟩
    rcases hs.of_recorded l with ⟨rfl, hs'⟩ | ⟨ev, hev, hs'⟩
    · exact ⟨l, hrun.step hs', hl⟩
    · refine ⟨_, hrun.step hs', ?_⟩
      rw [hev, conversation_append, hl, List.append_assoc]
      rfl
  · rintro w₁ q w₂ ⟨l, hrun, hl⟩ hr
    exact Or.inl ⟨l, hrun, by rw [hrely _ _ hr, hl]⟩
  · rintro w₁ q a ⟨l, hrun, hl⟩ ha
    obtain rfl := result_eq_some.1 ha
    exact ⟨l, hrun, hl⟩

/-- What a program that returned has added to its record is a conversation of its own. -/
theorem emits_of_recorded {env : Env W E R} {i : ι} {p : Proc E R α} {w w' : Recorded ι W E R}
    {a : α} (h : (lts (env.recorded i) α).Runs Lts.Alone w p w' (.pure a)) :
    ∃ l, Emits p l a ∧ conversation (w'.2 i) = conversation (w.2 i) ++ l := by
  have hsafe : Safe (env.recorded i) Lts.Alone (fun _ _ => True)
      (fun a w' => ∃ l, Emits p l a ∧ conversation (w'.2 i) = conversation (w.2 i) ++ l) w p :=
    safe_emits_after (fun _ _ (hr : Lts.Alone _ _) => by rw [hr]) w p
  exact hsafe.of_run h

/-- **What is safe is safe on the record**, and has said there what it says. -/
theorem Safe.recorded {env : Env W E R} {i : ι} {rely guar : W → W → Prop} {post : α → W → Prop}
    {w : Recorded ι W E R} {p : Proc E R α} (h : Safe env rely guar post w.1 p) :
    Safe (env.recorded i) (Recorded.during i rely) (Recorded.alongside i guar)
      (fun a w' => post a w'.1 ∧
        ∃ l, Emits p l a ∧ conversation (w'.2 i) = conversation (w.2 i) ++ l) w p := by
  have hseen : Safe (env.recorded i) (Recorded.during i rely) (Recorded.alongside i guar)
      (fun a w' => post a w'.1) w p := by
    refine Lts.Safe.coinduct (fun w q => Safe env rely guar post w.1 q) ?_ ?_ ?_ h
    · rintro w q w' q' hq hs
      rcases Step.anywhere hs with ⟨rfl, hs'⟩ | ⟨e, r, hr, hs'⟩
      · have hs := hs' env w'.1
        exact ⟨⟨Lts.Safe.guarantee hq hs, fun _ _ => rfl⟩, Or.inl (Lts.Safe.step hq hs)⟩
      · have hs := hs' env _ _ hr.1
        exact ⟨⟨Lts.Safe.guarantee hq hs, fun _ hj => Env.recorded_other hr hj⟩,
          Or.inl (Lts.Safe.step hq hs)⟩
    · exact fun w q w' hq hr => Or.inl (hq.interfere hr.1)
    · exact fun w q a hq ha => Lts.Safe.finished hq ha
  exact (hseen.and (safe_emits_after (fun _ _ hr => hr.2) w p)).weaken (fun _ _ hr => hr)
    (fun _ _ hg => hg.1) fun _ _ ha => ha

/-- A step does not depend on the conversation before it. -/
theorem Step.of_free {p q : Proc E R α} {l l' : List (Σ e : E, R e)} (h : Step Env.free p l l' q)
    (m : List (Σ e : E, R e)) :
    (l' = l ∧ Step Env.free p m m q) ∨
      ∃ x, l' = l ++ [x] ∧ Step Env.free p m (m ++ [x]) q := by
  rcases h.anywhere with ⟨hl, hs⟩ | ⟨e, r, hr, hs⟩
  · exact Or.inl ⟨hl, hs Env.free m⟩
  · exact Or.inr ⟨⟨e, r⟩, hr, hs Env.free m _ rfl⟩

/-- A step in any environment is a step of the conversation. -/
theorem Step.to_free {W : Type} {env : Env W E R} {p q : Proc E R α} {w w' : W}
    (h : Step env p w w' q) (l : List (Σ e : E, R e)) :
    Step Env.free p l l q ∨ ∃ e r, env w e r w' ∧ Step Env.free p l (l ++ [⟨e, r⟩]) q := by
  rcases h.anywhere with ⟨_, hs⟩ | ⟨e, r, hr, hs⟩
  · exact Or.inl (hs Env.free l)
  · exact Or.inr ⟨e, r, hr, hs Env.free l _ rfl⟩

/-- A run that returned held a conversation, in which the environment gave every reply. -/
theorem exists_emits {W : Type} {env : Env W E R} {P : (Σ e : E, R e) → Prop}
    (henv : ∀ w e r w', env w e r w' → P ⟨e, r⟩) {p : Proc E R α} {w w' : W} {a : α}
    (h : (lts env α).Runs Lts.Alone w p w' (.pure a)) : ∃ l, Emits p l a ∧ ∀ x ∈ l, P x := by
  generalize hq : (Proc.pure a : Proc E R α) = q at h
  suffices hall : ∃ l, (lts Env.free α).Runs Lts.Alone [] p l q ∧ ∀ x ∈ l, P x by
    rwa [← hq] at hall
  clear hq
  induction h with
  | refl => exact ⟨[], .refl _ _, fun x hx => absurd hx List.not_mem_nil⟩
  | step _ hs ih =>
    obtain ⟨l, hrun, hl⟩ := ih
    rcases Step.to_free hs l with hs' | ⟨e, r, hr, hs'⟩
    · exact ⟨l, hrun.step hs', hl⟩
    · refine ⟨_, hrun.step hs', fun x hx => ?_⟩
      rcases List.mem_append.1 hx with hx | hx
      · exact hl x hx
      · rw [List.mem_singleton.1 hx]
        exact henv _ _ _ _ hr
  | interfere _ _ ih => exact ih

/-- Every run left alone can be recorded. -/
theorem exists_recorded {env : Env W E R} (i : ι) {p q : Proc E R α} {w w' : W}
    (h : (lts env α).Runs Lts.Alone w p w' q) (records : ι → List (Event W E R)) :
    ∃ records', (lts (env.recorded i) α).Runs Lts.Alone (w, records) p (w', records') q := by
  induction h with
  | refl => exact ⟨records, .refl _ _⟩
  | @step w₁ w₂ _ _ _ _ hs ih =>
    obtain ⟨records', hrun⟩ := ih
    rcases hs.anywhere with ⟨rfl, hs'⟩ | ⟨e, r, hr, hs'⟩
    · exact ⟨records', hrun.step (hs' _ _)⟩
    · have hrecorded : env.recorded i (w₁, records') e r
          (w₂, Function.update records' i (records' i ++ [⟨w₁, e, r, w₂⟩])) := ⟨hr, rfl⟩
      exact ⟨_, hrun.step (hs' _ _ _ hrecorded)⟩
  | interfere _ hr ih =>
    obtain ⟨records', hrun⟩ := ih
    exact ⟨records', hr ▸ hrun⟩

/-- Whatever returns has held a conversation, whoever else is at work. -/
theorem safe_conversation {W : Type} {env : Env W E R} {rely : W → W → Prop} (w : W)
    (p : Proc E R α) : Safe env rely (fun _ _ => True) (fun a _ => ∃ l, Emits p l a) w p := by
  refine Lts.Safe.coinduct (fun _ q => ∃ l, (lts Env.free α).Runs Lts.Alone [] p l q) ?_ ?_ ?_
    ⟨[], .refl _ _⟩
  · rintro w q w' q' ⟨l, hrun⟩ hs
    refine ⟨trivial, Or.inl ?_⟩
    rcases Step.to_free hs l with hs' | ⟨e, r, _, hs'⟩
    · exact ⟨l, hrun.step hs'⟩
    · exact ⟨_, hrun.step hs'⟩
  · exact fun w q w' hrun _ => Or.inl hrun
  · rintro w q a ⟨l, hrun⟩ ha
    obtain rfl := result_eq_some.1 ha
    exact ⟨l, hrun⟩

/-- A fact about the results, and about what has been said for them. -/
theorem Safe.spoken {W : Type} {env : Env W E R} {rely guar : W → W → Prop} {post : α → W → Prop}
    {w : W} {p : Proc E R α} (h : Safe env rely guar post w p) :
    Safe env rely guar (fun a w => post a w ∧ ∃ l, Emits p l a) w p :=
  (Lts.Safe.and h (safe_conversation w p)).weaken (fun _ _ h => h) (fun _ _ h => h.1) fun _ _ h => h

/-- A part of a program has held a conversation of its own, inside the whole one. -/
theorem safe_emits_free {rely : List (Σ e : E, R e) → List (Σ e : E, R e) → Prop}
    (hrely : ∀ l l', rely l l' → l.Sublist l') (l : List (Σ e : E, R e)) (p : Proc E R α) :
    Safe Env.free rely (fun _ _ => True) (fun a l => ∃ sub, Emits p sub a ∧ sub.Sublist l) l p := by
  refine Lts.Safe.coinduct
    (fun l q => ∃ sub, (lts Env.free α).Runs Lts.Alone [] p sub q ∧ sub.Sublist l)
    ?_ ?_ ?_ ⟨[], .refl _ _, List.nil_sublist _⟩
  · rintro l q l' q' ⟨sub, hrun, hsub⟩ hs
    refine ⟨trivial, Or.inl ?_⟩
    rcases Step.of_free hs sub with ⟨rfl, hs'⟩ | ⟨x, rfl, hs'⟩
    · exact ⟨sub, hrun.step hs', hsub⟩
    · exact ⟨_, hrun.step hs', hsub.append (List.Sublist.refl _)⟩
  · rintro l q l' ⟨sub, hrun, hsub⟩ hr
    exact Or.inl ⟨sub, hrun, hsub.trans (hrely _ _ hr)⟩
  · rintro l q a ⟨sub, hrun, hsub⟩ ha
    obtain rfl := result_eq_some.1 ha
    exact ⟨sub, hrun, hsub⟩

/-- A conversation only grows. -/
theorem safe_free_sublist {rely : List (Σ e : E, R e) → List (Σ e : E, R e) → Prop}
    (hrely : ∀ l l', rely l l' → l.Sublist l') (l : List (Σ e : E, R e)) (p : Proc E R α) :
    Safe Env.free rely (fun _ _ => True) (fun _ l' => l.Sublist l') l p := by
  refine Lts.Safe.coinduct (fun l' _ => l.Sublist l') ?_ ?_ ?_ (List.Sublist.refl l)
  · rintro l' q l'' q' hl hs
    refine ⟨trivial, Or.inl ?_⟩
    rcases Step.of_free hs l' with ⟨rfl, _⟩ | ⟨x, rfl, _⟩
    · exact hl
    · exact hl.trans (List.sublist_append_left _ _)
  · exact fun l' q l'' hl hr => Or.inl (hl.trans (hrely _ _ hr))
  · exact fun l' q a hl _ => hl

end Proc

end Effectful
