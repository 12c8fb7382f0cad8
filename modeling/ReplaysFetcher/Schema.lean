/-
  The checks of the validator (`zod`), as far as the schemas of `src/config.ts` and
  `src/checkpoint/checkpoint.ts` use them.

  A schema is a type check followed by more checks.  A value of another type has an issue and is gone;
  a value that fails one of the other checks has an issue and is looked at further (`Verdict.flawed`).
  Where only acceptance matters, the issues drop out: `integer_eq_value` and `nonEmpty_eq_value` say
  which values pass.
-/
import ReplaysFetcher.Types
import ReplaysFetcher.Data.Verdict
import Mathlib.Algebra.Order.Ring.Int
import Mathlib.Algebra.Order.Group.Abs
import Mathlib.Data.Rat.Lemmas

namespace ReplaysFetcher.Schema

/-! ## Issues -/

/-- What is wrong with a value. -/
inductive Problem
  | invalidType (expected : String)
  | invalidFormat (format : String)
  | invalidValue (options : List String)
  | tooSmall (minimum : ℤ)
  | tooBig (maximum : ℤ)
  | custom (message : String)
  deriving DecidableEq

/-- An issue, and where it was found. -/
structure Issue where
  path : List String
  problem : Problem
  deriving DecidableEq

/-- What a schema makes of a value. -/
abbrev Checked : Type → Type := Verdict JsError Issue

/-- Issues at the value itself. -/
def found (problems : List Problem) : List Issue :=
  problems.map fun problem => { path := [], problem }

/-- The checks of a value, all of them. -/
def withChecks {α : Type} (checks : List (α → Option Problem)) (v : Checked α) : Checked α :=
  v.refine fun a => found (checks.filterMap fun check => check a)

/-! ## Texts and numbers -/

/-- `text.length`, in UTF-16 code units -/
def jsLength (text : String) : ℕ :=
  (text.toList.map fun c => if c.toNat < 0x10000 then 1 else 2).sum

/-- `.min(n)`, of a string -/
def minLength (n : ℕ) (text : String) : Option Problem :=
  if jsLength text < n then some (.tooSmall n) else none

/-- `.max(n)`, of a string -/
def maxLength (n : ℕ) (text : String) : Option Problem :=
  if n < jsLength text then some (.tooBig n) else none

/-- `.min(n)`, of a number -/
def minValue (n : ℤ) (value : ℤ) : Option Problem := if value < n then some (.tooSmall n) else none

/-- `.max(n)`, of a number -/
def maxValue (n : ℤ) (value : ℤ) : Option Problem := if n < value then some (.tooBig n) else none

/-- `Number.MAX_SAFE_INTEGER` -/
def MAX_SAFE_INTEGER : ℤ := 9007199254740991

/-- `z.number().int()`, with more checks, of a finite number.  An integer that is not safe is looked
    at further; what is no integer is not. -/
def integer (checks : List (ℤ → Option Problem)) (q : ℚ) : Checked ℤ :=
  if q.den ≠ 1 then .issues (found [.invalidType "int"])
  else withChecks ([maxValue MAX_SAFE_INTEGER, minValue (-MAX_SAFE_INTEGER)] ++ checks)
    (.value q.num)

/-! ## What passes -/

/-- What passes has its value, and no check objects. -/
theorem withChecks_eq_value {α : Type} {checks : List (α → Option Problem)} {v : Checked α} {a : α} :
    withChecks checks v = .value a ↔ v = .value a ∧ ∀ check ∈ checks, check a = none := by
  unfold withChecks found
  rw [Verdict.refine_eq_value, List.map_eq_nil_iff, List.filterMap_eq_nil_iff]

/-- The same, without its value. -/
theorem withChecks_accepts {α : Type} {checks : List (α → Option Problem)} {v : Checked α} :
    (withChecks checks v).Accepts ↔ ∃ a, v = .value a ∧ ∀ check ∈ checks, check a = none := by
  unfold Verdict.Accepts
  simp only [withChecks_eq_value]

/-- Checks do not throw. -/
@[simp] theorem throws_withChecks {α : Type} {checks : List (α → Option Problem)} {v : Checked α} :
    (withChecks checks v).Throws ↔ v.Throws :=
  Verdict.throws_refine

/-- The lower bound itself is fine. -/
theorem minValue_eq_none {lo n : ℤ} : minValue lo n = none ↔ lo ≤ n := by
  unfold minValue
  simp

/-- So is the upper one. -/
theorem maxValue_eq_none {hi n : ℤ} : maxValue hi n = none ↔ n ≤ hi := by
  unfold maxValue
  simp

/-- **Which numbers pass**: the safe integers that the other checks let pass. -/
theorem integer_eq_value {checks : List (ℤ → Option Problem)} {q : ℚ} {n : ℤ} :
    integer checks q = .value n ↔
      q = n ∧ |n| ≤ MAX_SAFE_INTEGER ∧ ∀ check ∈ checks, check n = none := by
  unfold integer
  by_cases hden : q.den = 1
  · have hq : (q.num : ℚ) = q := (Rat.den_eq_one_iff q).1 hden
    have hnum : q.num = n ↔ q = n := by
      constructor
      · intro h
        rw [← hq, h]
      · intro h
        rw [h, Rat.num_intCast]
    rw [if_neg (not_not.2 hden), withChecks_eq_value, Verdict.value.injEq, hnum, abs_le]
    simp only [List.cons_append, List.nil_append, List.mem_cons, forall_eq_or_imp, maxValue_eq_none,
      minValue_eq_none]
    exact and_congr_right fun _ => ⟨fun h => ⟨⟨h.2.1, h.1⟩, h.2.2⟩, fun h => ⟨h.1.2, h.1.1, h.2⟩⟩
  · rw [if_pos hden]
    refine iff_of_false (fun h => by cases h) ?_
    rintro ⟨rfl, _⟩
    exact hden (Rat.den_intCast n)

/-- Checking a number does not throw. -/
theorem not_throws_integer (checks : List (ℤ → Option Problem)) (q : ℚ) :
    ¬ (integer checks q).Throws := by
  unfold integer
  split
  · exact Verdict.not_throws_issues _
  · rw [throws_withChecks]
    exact Verdict.not_throws_value _

/-- Only the empty text has no length. -/
theorem jsLength_eq_zero {text : String} : jsLength text = 0 ↔ text = "" := by
  unfold jsLength
  rw [← String.toList_eq_nil_iff]
  cases text.toList with
  | nil => simp
  | cons c cs =>
    refine iff_of_false (fun h => ?_) (List.cons_ne_nil c cs)
    rw [List.map_cons, List.sum_cons] at h
    split at h
    · omega
    · omega

/-- **Which texts pass** `z.string().min(1)`. -/
theorem nonEmpty_eq_value {text s : String} :
    withChecks [minLength 1] (.value text) = .value s ↔ text = s ∧ s ≠ "" := by
  rw [withChecks_eq_value, Verdict.value.injEq]
  unfold minLength
  simp [jsLength_eq_zero]

end ReplaysFetcher.Schema
