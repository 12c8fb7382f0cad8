/-
  Numbers of JavaScript: doubles, as far as bounds on them go.

  A double is `NaN`, one of the two infinities, or a rational.  An operation is the exact one, and
  then a rounding.  Which rounding is left open: `Rounding` asks that it keeps the order and leaves
  the safe integers alone.  That is enough to bound a computation, and to say where its result is
  exact: on safe integers, and wherever a cap cuts off what is not.
-/
import Mathlib.Algebra.Order.Floor.Defs
import Mathlib.Data.Rat.Floor
import Mathlib.Data.Sign.Basic
import Mathlib.Tactic.Linarith
import Mathlib.Tactic.NormNum

/-- A double; of the two zeros there is one. -/
inductive JsNumber
  | nan
  | negInfinity
  | finite (q : ℚ)
  | infinity
  deriving DecidableEq, Repr

namespace JsNumber

/-! ## Order -/

/-- `x <= y`: `NaN` is comparable to nothing. -/
def Le : JsNumber → JsNumber → Prop
  | nan, _ => False
  | _, nan => False
  | negInfinity, _ => True
  | _, infinity => True
  | finite p, finite q => p ≤ q
  | _, _ => False

instance : LE JsNumber := ⟨Le⟩

instance : DecidableRel (α := JsNumber) (· ≤ ·) := fun x y =>
  match x, y with
  | nan, _ => isFalse id
  | negInfinity, nan => isFalse id
  | finite _, nan => isFalse id
  | infinity, nan => isFalse id
  | negInfinity, negInfinity => isTrue trivial
  | negInfinity, finite _ => isTrue trivial
  | negInfinity, infinity => isTrue trivial
  | finite _, infinity => isTrue trivial
  | infinity, infinity => isTrue trivial
  | finite p, finite q => inferInstanceAs (Decidable (p ≤ q))
  | finite _, negInfinity => isFalse id
  | infinity, negInfinity => isFalse id
  | infinity, finite _ => isFalse id

/-- Rationals are compared as such. -/
@[simp] theorem finite_le_finite {p q : ℚ} : finite p ≤ finite q ↔ p ≤ q := Iff.rfl

/-- Between two rationals there are rationals only. -/
theorem exists_finite {lo hi : ℚ} {x : JsNumber} (hlo : finite lo ≤ x) (hhi : x ≤ finite hi) :
    ∃ q, x = finite q ∧ lo ≤ q ∧ q ≤ hi := by
  cases x with
  | nan => exact hlo.elim
  | negInfinity => exact hlo.elim
  | finite q => exact ⟨q, rfl, hlo, hhi⟩
  | infinity => exact hhi.elim

/-- From a rational on: a rational, or infinity. -/
theorem finite_or_infinity {lo : ℚ} {x : JsNumber} (h : finite lo ≤ x) :
    x = infinity ∨ ∃ q, x = finite q ∧ lo ≤ q := by
  cases x with
  | nan => exact h.elim
  | negInfinity => exact h.elim
  | finite q => exact Or.inr ⟨q, rfl, h⟩
  | infinity => exact Or.inl rfl

/-- A lower rational bound is a bound too. -/
theorem le_of_le {p q : ℚ} {x : JsNumber} (hpq : p ≤ q) (hx : finite q ≤ x) : finite p ≤ x := by
  rcases finite_or_infinity hx with rfl | ⟨r, rfl, hr⟩
  · trivial
  · exact hpq.trans hr

/-! ## `Math.min`, `Math.max`, `Math.floor` -/

/-- `Math.min(x, y)` -/
protected def min (x y : JsNumber) : JsNumber :=
  if x = nan ∨ y = nan then nan else if x ≤ y then x else y

/-- `Math.max(x, y)` -/
protected def max (x y : JsNumber) : JsNumber :=
  if x = nan ∨ y = nan then nan else if x ≤ y then y else x

/-- `Math.floor(x)` -/
def floor : JsNumber → JsNumber
  | finite q => finite ⌊q⌋
  | x => x

/-- `Math.min` of two rationals. -/
@[simp] theorem min_finite (p q : ℚ) :
    JsNumber.min (finite p) (finite q) = finite (Min.min p q) := by
  unfold JsNumber.min
  rw [if_neg (by simp)]
  by_cases h : p ≤ q
  · rw [if_pos (finite_le_finite.2 h), min_eq_left h]
  · rw [if_neg (mt finite_le_finite.1 h), min_eq_right (le_of_not_ge h)]

/-- `Math.max` of two rationals. -/
@[simp] theorem max_finite (p q : ℚ) :
    JsNumber.max (finite p) (finite q) = finite (Max.max p q) := by
  unfold JsNumber.max
  rw [if_neg (by simp)]
  by_cases h : p ≤ q
  · rw [if_pos (finite_le_finite.2 h), max_eq_right h]
  · rw [if_neg (mt finite_le_finite.1 h), max_eq_left (le_of_not_ge h)]

/-- A rational is below infinity. -/
@[simp] theorem min_infinity_finite (q : ℚ) : JsNumber.min infinity (finite q) = finite q := rfl

/-- Infinity is above a rational. -/
@[simp] theorem max_finite_infinity (q : ℚ) : JsNumber.max (finite q) infinity = infinity := rfl

/-- `Math.floor` of a rational. -/
@[simp] theorem floor_finite (q : ℚ) : floor (finite q) = finite ⌊q⌋ := rfl

/-- **A cap cuts off.** -/
theorem min_of_le {cap : ℚ} {x : JsNumber} (h : finite cap ≤ x) :
    JsNumber.min x (finite cap) = finite cap := by
  rcases finite_or_infinity h with rfl | ⟨q, rfl, hq⟩
  · rfl
  · rw [min_finite, min_eq_right hq]

/-- What is not above a number does not raise it. -/
theorem max_of_le {q : ℚ} {x : JsNumber} (h : x ≤ finite q) :
    JsNumber.max (finite q) x = finite q := by
  cases x with
  | nan => exact h.elim
  | negInfinity => rfl
  | finite p => rw [max_finite, max_eq_left (finite_le_finite.1 h)]
  | infinity => exact h.elim

/-- A bound of one argument bounds the greater one, unless the other is `NaN`. -/
theorem le_max_of_right {q : ℚ} {x y : JsNumber} (hx : x ≠ nan) (hy : finite q ≤ y) :
    finite q ≤ JsNumber.max x y := by
  rcases finite_or_infinity hy with rfl | ⟨p, rfl, hp⟩
  · cases x <;> first | exact absurd rfl hx | trivial
  · cases x with
    | nan => exact absurd rfl hx
    | negInfinity => exact hp
    | finite r =>
      rw [max_finite]
      exact hp.trans (le_max_right r p)
    | infinity => trivial

/-! ## Rounding -/

/-- How an exact result becomes a double. -/
structure Rounding where
  round : ℚ → JsNumber
  mono : ∀ p q, p ≤ q → round p ≤ round q
  /-- `Number.MAX_SAFE_INTEGER` and one more -/
  safe : ∀ n : ℤ, |n| ≤ 2 ^ 53 → round n = finite n

/-- No rounding at all. -/
def Rounding.exact : Rounding where
  round := finite
  mono _ _ h := h
  safe _ _ := rfl

variable (fl : Rounding)

/-- What is rounded between safe integers stays between them. -/
theorem round_between {lo hi : ℤ} {q : ℚ} (hlo : |lo| ≤ 2 ^ 53) (hhi : |hi| ≤ 2 ^ 53)
    (hloq : (lo : ℚ) ≤ q) (hqhi : q ≤ hi) :
    ∃ r, fl.round q = finite r ∧ (lo : ℚ) ≤ r ∧ r ≤ hi := by
  have hfrom := fl.mono _ _ hloq
  have hto := fl.mono _ _ hqhi
  rw [fl.safe lo hlo] at hfrom
  rw [fl.safe hi hhi] at hto
  exact exists_finite hfrom hto

/-- A safe integer below the exact result is below the rounded one. -/
theorem round_from {lo : ℤ} {q : ℚ} (hlo : |lo| ≤ 2 ^ 53) (hloq : (lo : ℚ) ≤ q) :
    finite lo ≤ fl.round q := by
  have hfrom := fl.mono _ _ hloq
  rwa [fl.safe lo hlo] at hfrom

/-- A safe integer above the exact result is above the rounded one. -/
theorem round_to {hi : ℤ} {q : ℚ} (hhi : |hi| ≤ 2 ^ 53) (hqhi : q ≤ hi) :
    fl.round q ≤ finite hi := by
  have hto := fl.mono _ _ hqhi
  rwa [fl.safe hi hhi] at hto

/-- A safe natural number is its own rounding. -/
theorem round_natCast {n : ℕ} (h : n ≤ 2 ^ 53) : fl.round n = finite n := by
  have hsafe := fl.safe n (by rw [abs_of_nonneg (Int.natCast_nonneg n)]; exact_mod_cast h)
  exact_mod_cast hsafe

/-- The sign of what is not `NaN`. -/
def sign : JsNumber → SignType
  | nan => 0
  | negInfinity => -1
  | finite q => SignType.sign q
  | infinity => 1

/-- `x * y`: infinity times zero is `NaN`. -/
def mul : JsNumber → JsNumber → JsNumber
  | finite p, finite q => fl.round (p * q)
  | x, y =>
    if x = nan ∨ y = nan then nan
    else if sign x * sign y = 1 then infinity
    else if sign x * sign y = -1 then negInfinity
    else nan

/-- `x - y`: infinity minus itself is `NaN`. -/
def sub : JsNumber → JsNumber → JsNumber
  | finite p, finite q => fl.round (p - q)
  | nan, _ => nan
  | _, nan => nan
  | infinity, infinity => nan
  | negInfinity, negInfinity => nan
  | infinity, _ => infinity
  | _, negInfinity => infinity
  | negInfinity, _ => negInfinity
  | finite _, infinity => negInfinity

/-- A product of rationals is the rounded product. -/
@[simp] theorem mul_finite (p q : ℚ) : mul fl (finite p) (finite q) = fl.round (p * q) := rfl

/-- A difference of rationals is the rounded difference. -/
@[simp] theorem sub_finite (p q : ℚ) : sub fl (finite p) (finite q) = fl.round (p - q) := rfl

/-- A product of what is at least a safe integer. -/
theorem le_mul {c lo : ℤ} {x : JsNumber} (hc : 0 < c) (hsafe : |c * lo| ≤ 2 ^ 53)
    (hx : finite lo ≤ x) :
    finite (c * lo : ℤ) ≤ mul fl (finite c) x ∧ finite (c * lo : ℤ) ≤ mul fl x (finite c) := by
  have hpos : (0 : ℚ) < c := by exact_mod_cast hc
  rcases finite_or_infinity hx with rfl | ⟨q, rfl, hq⟩
  · have hsign : SignType.sign (c : ℚ) = 1 := sign_eq_one_iff.2 hpos
    constructor
    · simp [mul, sign, hsign]
      trivial
    · simp [mul, sign, hsign]
      trivial
  · rw [mul_finite, mul_finite]
    constructor
    · refine round_from fl hsafe ?_
      push_cast
      exact mul_le_mul_of_nonneg_left hq hpos.le
    · refine round_from fl hsafe ?_
      push_cast
      rw [mul_comm]
      exact mul_le_mul_of_nonneg_right hq hpos.le

end JsNumber
