/-
  Numbering through blocks, one after the other, of whatever lengths.

  The blocks are indexed by the integers, and each begins where the one before it has ended.  A place
  is a block and an offset within it, and its number is the start of the block plus the offset.

  1. **Order** (`number_lt_iff`).  The numbers are ordered as the places are: by the block, and
     within a block by the offset.
  2. **Completeness** (`exists_place`).  Every integer is the number of a place.

  So a place and its number determine each other, with nothing known about the lengths but that they
  are positive.
-/
import Mathlib.Data.Int.LeastGreatest
import Mathlib.Data.Int.Notation
import Mathlib.Tactic.Common

namespace Blocks

/-- The blocks that start at `start` and are `length` long follow one another. -/
structure Consecutive (start length : ℤ → ℤ) : Prop where
  next : ∀ k, start (k + 1) = start k + length k
  pos : ∀ k, 0 < length k

/-- The offset is within the block. -/
def Within (length : ℤ → ℤ) (k offset : ℤ) : Prop := 0 ≤ offset ∧ offset < length k

namespace Consecutive

variable {start length : ℤ → ℤ} {k k' offset offset' : ℤ}

/-- A later block starts where this one has ended, or later. -/
theorem start_add_length_le (h : Consecutive start length) (hk : k < k') :
    start k + length k ≤ start k' := by
  obtain ⟨n, rfl⟩ := Int.le.dest (Int.add_one_le_of_lt hk)
  induction n with
  | zero =>
    have hnext := h.next k
    rw [Int.natCast_zero, add_zero, hnext]
  | succ n ih =>
    have hstep := h.next (k + 1 + n)
    have hpos := h.pos (k + 1 + n)
    have hle := ih (by omega)
    rw [Int.natCast_succ, ← add_assoc, hstep]
    omega

/-- **Order**: by the block, and within a block by the offset. -/
theorem number_lt_iff (h : Consecutive start length) (hwithin : Within length k offset)
    (hwithin' : Within length k' offset') :
    start k + offset < start k' + offset' ↔ k < k' ∨ k = k' ∧ offset < offset' := by
  obtain ⟨hnonneg, hlt⟩ := hwithin
  obtain ⟨hnonneg', hlt'⟩ := hwithin'
  rcases lt_trichotomy k k' with hk | rfl | hk
  · have hstart := h.start_add_length_le hk
    exact ⟨fun _ => Or.inl hk, fun _ => by omega⟩
  · exact ⟨fun hlt => Or.inr ⟨rfl, by omega⟩, fun hor => by omega⟩
  · have hstart := h.start_add_length_le hk
    exact ⟨fun hlt => by omega, fun hor => by omega⟩

/-- **Completeness**: every integer is the number of a place. -/
theorem exists_place (h : Consecutive start length) (number : ℤ) :
    ∃ k offset, Within length k offset ∧ start k + offset = number := by
  -- a block moves the start by one at least, so that some start lies on either side
  have hgrows : ∀ n : ℕ, start 0 + n ≤ start n ∧ start (-n) ≤ start 0 - n := by
    intro n
    induction n with
    | zero => simp
    | succ n ih =>
      have hup := h.next n
      have hdown := h.next (-(n : ℤ) - 1)
      have hup' := h.pos n
      have hdown' := h.pos (-(n : ℤ) - 1)
      rw [sub_add_cancel] at hdown
      rw [Int.natCast_succ, neg_add']
      omega
  have hbounded : ∃ b : ℤ, ∀ k : ℤ, start k ≤ number → k ≤ b := by
    refine ⟨(number - start 0).toNat, fun k hk => ?_⟩
    by_contra hlt
    have hup := (hgrows (number - start 0).toNat).1
    have hlater := h.start_add_length_le (not_le.1 hlt)
    have hpos := h.pos (number - start 0).toNat
    omega
  have hsome : ∃ k : ℤ, start k ≤ number := by
    refine ⟨-((start 0 - number).toNat : ℤ), ?_⟩
    have hdown := (hgrows (start 0 - number).toNat).2
    omega
  obtain ⟨k, hk, hgreatest⟩ := Int.exists_greatest_of_bdd hbounded hsome
  refine ⟨k, number - start k, ⟨by omega, ?_⟩, by omega⟩
  by_contra hlong
  have hnext := h.next k
  have hle := hgreatest (k + 1) (by omega)
  omega

end Consecutive

end Blocks
