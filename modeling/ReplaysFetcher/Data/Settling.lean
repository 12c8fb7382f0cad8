/-
  Actions that settle.

  A list of actions on a state is replayed from the start whenever it was interrupted.  This is
  harmless when each action SETTLES: done twice it changes nothing, and once it changes nothing, no
  other action of the list makes it change anything again.  Then a state reached by part of the
  list is a fixed point of that part, so replaying the list only does the rest
  (`Settling.replay`), and replaying it once more does nothing (`Settling.replay_all`).
-/
import Mathlib.Dynamics.FixedPoints.Basic

namespace Settling

open Function

variable {S : Type} {acts done rest : List (S → S)} {a : S → S} {s : S}

/-- All the actions, one after the other. -/
def runAll (acts : List (S → S)) (s : S) : S := acts.foldl (fun s a => a s) s

/-- No action. -/
@[simp] theorem runAll_nil (s : S) : runAll [] s = s := rfl

/-- The first action comes first. -/
@[simp] theorem runAll_cons (a : S → S) (acts : List (S → S)) (s : S) :
    runAll (a :: acts) s = runAll acts (a s) := rfl

/-- Actions go on from where others ended. -/
@[simp] theorem runAll_append (acts acts' : List (S → S)) (s : S) :
    runAll (acts ++ acts') s = runAll acts' (runAll acts s) := List.foldl_append

/-- Each action does all it ever does at once, and no other action undoes that. -/
structure Settles (acts : List (S → S)) : Prop where
  idem : ∀ a ∈ acts, ∀ s, IsFixedPt a (a s)
  keeps : ∀ a ∈ acts, ∀ b ∈ acts, ∀ s, IsFixedPt a s → IsFixedPt a (b s)

/-- A state that all actions leave alone stays. -/
theorem runAll_of_fixed (h : ∀ a ∈ acts, IsFixedPt a s) : runAll acts s = s := by
  induction acts with
  | nil => rfl
  | cons a acts ih =>
    have ha : a s = s := h a List.mem_cons_self
    rw [runAll_cons, ha]
    exact ih fun b hb => h b (List.mem_cons_of_mem a hb)

/-- A settled action stays settled. -/
theorem Settles.fixed_runAll (h : Settles acts) (ha : a ∈ acts) (hdone : ∀ b ∈ done, b ∈ acts)
    (hs : IsFixedPt a s) : IsFixedPt a (runAll done s) := by
  induction done generalizing s with
  | nil => exact hs
  | cons b done ih =>
    rw [runAll_cons]
    refine ih (fun c hc => hdone c (List.mem_cons_of_mem b hc)) ?_
    exact h.keeps a ha b (hdone b List.mem_cons_self) s hs

/-- What has been done is settled. -/
theorem Settles.settled (h : Settles acts) (hdone : ∀ b ∈ done, b ∈ acts) (ha : a ∈ done) :
    IsFixedPt a (runAll done s) := by
  induction done generalizing s with
  | nil => cases ha
  | cons b done ih =>
    have hrest : ∀ c ∈ done, c ∈ acts := fun c hc => hdone c (List.mem_cons_of_mem b hc)
    rw [runAll_cons]
    rcases List.mem_cons.1 ha with rfl | ha
    · have hmem : a ∈ acts := hdone a List.mem_cons_self
      exact h.fixed_runAll hmem hrest (h.idem a hmem s)
    · exact ih hrest ha

/-- **Replay.** After part of the list, the whole list does what it would have done at once. -/
theorem Settles.replay (h : Settles (done ++ rest)) (s : S) :
    runAll (done ++ rest) (runAll done s) = runAll (done ++ rest) s := by
  have hdone : ∀ a ∈ done, IsFixedPt a (runAll done s) := fun a ha =>
    h.settled (fun b hb => List.mem_append_left rest hb) ha
  rw [runAll_append, runAll_append, runAll_of_fixed hdone]

/-- After the whole list nothing is left to do, by any of its actions. -/
theorem Settles.replay_all (h : Settles acts) (s : S) :
    (∀ a ∈ acts, IsFixedPt a (runAll acts s)) ∧ runAll acts (runAll acts s) = runAll acts s := by
  have hall : ∀ a ∈ acts, IsFixedPt a (runAll acts s) := fun a ha => h.settled (fun _ hb => hb) ha
  exact ⟨hall, runAll_of_fixed hall⟩

end Settling
