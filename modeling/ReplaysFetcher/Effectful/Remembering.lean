/-
  Services that remember.

  What a service answers may depend on everything it was asked before.  In `remembering allowed` the
  world is the conversation so far, and `allowed l x` says that the exchange `x` may follow `l`.

  A run of a program before such services is a conversation of the program in which every reply was
  allowed where it was given (`Told`, `emits_of_remembering`).  So "the first time" and "every later
  time" are statements about lists: of all exchanges of a kind, one was the first (`Told.first`).
-/
import ReplaysFetcher.Effectful.Conversations
import ReplaysFetcher.Effectful.Termination

namespace Effectful

namespace Proc

variable {E : Type} {R : E → Type} {α : Type}
  {allowed : List (Σ e : E, R e) → (Σ e : E, R e) → Prop} {l l' more : List (Σ e : E, R e)}

/-- The services whose replies follow from what was said before. -/
def remembering (allowed : List (Σ e : E, R e) → (Σ e : E, R e) → Prop) :
    Env (List (Σ e : E, R e)) E R :=
  fun l e r l' => l' = l ++ [⟨e, r⟩] ∧ allowed l ⟨e, r⟩

/-- After `l`, every exchange was allowed where it stands. -/
def Told (allowed : List (Σ e : E, R e) → (Σ e : E, R e) → Prop)
    (l more : List (Σ e : E, R e)) : Prop :=
  ∀ before x after, more = before ++ x :: after → allowed (l ++ before) x

/-- Nothing was said. -/
theorem told_nil : Told allowed l [] := by
  intro before x after h
  exact absurd h.symm (List.append_ne_nil_of_right_ne_nil _ (List.cons_ne_nil _ _))

/-- One more reply that was allowed. -/
theorem Told.concat {x : Σ e : E, R e} (h : Told allowed l more) (hx : allowed (l ++ more) x) :
    Told allowed l (more ++ [x]) := by
  intro before y after hsplit
  rcases List.eq_nil_or_concat after with rfl | ⟨after, z, rfl⟩
  · obtain ⟨rfl, hy⟩ := List.append_inj' hsplit rfl
    cases hy
    exact hx
  · rw [List.concat_eq_append, ← List.cons_append, ← List.append_assoc] at hsplit
    exact h before y after (List.append_inj' hsplit rfl).1

/-- An exchange was allowed after some part of what was said. -/
theorem Told.mem {x : Σ e : E, R e} (h : Told allowed l more) (hx : x ∈ more) :
    ∃ before, before <+: more ∧ allowed (l ++ before) x := by
  obtain ⟨before, after, hsplit⟩ := List.append_of_mem hx
  exact ⟨before, ⟨_, hsplit.symm⟩, h before x after hsplit⟩

/-- **Of all exchanges of a kind, one was the first.** -/
theorem Told.first {P : (Σ e : E, R e) → Prop} (h : Told allowed l more) (hP : ∃ x ∈ more, P x) :
    ∃ before, ∃ x ∈ more, P x ∧ (∀ y ∈ before, ¬ P y) ∧ allowed (l ++ before) x := by
  classical
  obtain ⟨x, hx⟩ : ∃ x, more.find? (fun x => decide (P x)) = some x := by
    rw [← Option.isSome_iff_exists, List.find?_isSome]
    obtain ⟨x, hmem, hx⟩ := hP
    exact ⟨x, hmem, decide_eq_true hx⟩
  obtain ⟨hPx, before, after, hsplit, hnone⟩ := List.find?_eq_some_iff_append.1 hx
  refine ⟨before, x, List.mem_of_find?_eq_some hx, of_decide_eq_true hPx, fun y hy => ?_,
    h before x after hsplit⟩
  have hnot := hnone y hy
  simpa using hnot

/-- What the services let happen, the program and they have said. -/
theorem runs_remembering {p q : Proc E R α}
    (h : (lts (remembering allowed) α).Runs Lts.Alone l p l' q) :
    ∃ more, l' = l ++ more ∧ Told allowed l more ∧
      (lts Env.free α).Runs Lts.Alone [] p more q := by
  induction h with
  | refl => exact ⟨[], (List.append_nil _).symm, told_nil, .refl _ _⟩
  | step _ hs ih =>
    obtain ⟨more, rfl, htold, hruns⟩ := ih
    rcases Step.anywhere hs with ⟨rfl, hfree⟩ | ⟨e, r, ⟨rfl, hallowed⟩, hfree⟩
    · exact ⟨more, rfl, htold, hruns.step (hfree Env.free more)⟩
    · refine ⟨more ++ [⟨e, r⟩], List.append_assoc _ _ _, htold.concat hallowed, ?_⟩
      exact hruns.step (hfree Env.free more _ rfl)
  | interfere _ hr ih =>
    cases hr
    exact ih

/-- A run of the remembering world is a conversation. -/
theorem emits_of_remembering {p : Proc E R α} {a : α}
    (h : (lts (remembering allowed) α).Runs Lts.Alone l p l' (.pure a)) :
    ∃ more, l' = l ++ more ∧ Told allowed l more ∧ Emits p more a :=
  runs_remembering h

end Proc

end Effectful
