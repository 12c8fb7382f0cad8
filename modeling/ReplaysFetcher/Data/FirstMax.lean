/-
  The first of the greatest.

  Of two things the one with the higher rank is taken, and the left one on a tie.  Unlike a maximum
  in an order this is not commutative, for two different things may have one rank; it is idempotent
  and associative, and its rank is the maximum of the ranks (`rank_firstMax`).
-/
import Mathlib.Order.MinMax

namespace FirstMax

variable {α ρ : Type} [LinearOrder ρ] (rank : α → ρ)

/-- The one of the higher rank; the first one, if they are even. -/
def firstMax (a b : α) : α := if rank b ≤ rank a then a else b

variable {rank} {a b c : α}

/-- The first one wins a tie. -/
theorem firstMax_left (h : rank b ≤ rank a) : firstMax rank a b = a := if_pos h

/-- The second one has to be strictly higher. -/
theorem firstMax_right (h : rank a < rank b) : firstMax rank a b = b := if_neg (not_le.2 h)

/-- Against itself nothing wins but itself. -/
@[simp] theorem firstMax_self (a : α) : firstMax rank a a = a := firstMax_left le_rfl

/-- The rank of the winner is the higher rank. -/
theorem rank_firstMax (rank : α → ρ) {a b : α} :
    rank (firstMax rank a b) = max (rank a) (rank b) := by
  -- a tie is the first one's, so the cases are `≤` and `<`
  rcases le_or_gt (rank b) (rank a) with h | h
  · rw [firstMax_left h, max_eq_left h]
  · rw [firstMax_right h, max_eq_right h.le]

/-- In a longer comparison the first of the highest wins, however it is bracketed. -/
theorem firstMax_assoc :
    firstMax rank (firstMax rank a b) c = firstMax rank a (firstMax rank b c) := by
  rcases le_or_gt (rank b) (rank a) with hba | hab
  · rw [firstMax_left hba]
    rcases le_or_gt (rank c) (rank b) with hcb | hbc
    · rw [firstMax_left hcb, firstMax_left hba, firstMax_left (hcb.trans hba)]
    · rw [firstMax_right hbc]
  · rw [firstMax_right hab]
    -- `a` is below `b`, and so below the greater of `b` and `c`
    have hlt : rank a < rank (firstMax rank b c) := by
      rw [rank_firstMax rank]
      exact lt_max_iff.2 (Or.inl hab)
    rw [firstMax_right hlt]

/-- A function that sees only the rank and the value of the first argument sees no difference. -/
theorem map_firstMax {β : Type} {f : α → β} {a' : α} (hrank : rank a = rank a') (hf : f a = f a') :
    f (firstMax rank a c) = f (firstMax rank a' c) := by
  unfold firstMax
  rw [hrank]
  -- the same side wins in both
  split
  · exact hf
  · rfl

/-- What agrees in the rank and under `f` may stand in for the other. -/
theorem map_firstMax_right {β : Type} {f : α → β} {c' : α} (hrank : rank c = rank c')
    (hf : f c = f c') : f (firstMax rank a c) = f (firstMax rank a c') := by
  unfold firstMax
  rw [hrank]
  split
  · rfl
  · exact hf

end FirstMax
