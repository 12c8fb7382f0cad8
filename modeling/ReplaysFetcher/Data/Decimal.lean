/-
  Decimals of a fixed width, and texts made of them.

  1. **One decimal** (`digits`).  A number with zeros before it: its length is the width, its value
     is the number, and two of the same width are ordered as their values are.
  2. **A text of decimals** (`render`, `read`).  A shape gives the width of each decimal and what
     stands after it.  The text is read back as the numbers it was made of (`read_render`), and the
     texts of one shape are ordered as their numbers are, the first ones first
     (`render_lt_render_iff`).
-/
import Mathlib.Algebra.Group.Nat.Defs
import Mathlib.Data.List.Basic
import Mathlib.Data.List.Lex
import Mathlib.Data.Nat.Notation
import Mathlib.Tactic.Common

namespace Decimal

/-! ## One decimal -/

/-- The digits of a number, with zeros before them. -/
def digits (width n : ℕ) : List Char :=
  List.replicate (width - (Nat.toDigits 10 n).length) '0' ++ Nat.toDigits 10 n

/-- The value of some digits. -/
def value (text : List Char) : ℕ := Nat.ofDigitChars 10 text 0

/-- A number that fits has just its width. -/
theorem length_digits {width n : ℕ} (hwidth : 0 < width) (h : n < 10 ^ width) :
    (digits width n).length = width := by
  have hle := (Nat.length_toDigits_le_iff (by decide) hwidth).2 h
  unfold digits
  rw [List.length_append, List.length_replicate]
  omega

/-- It is written with digits. -/
theorem isDigit_of_mem_digits {width n : ℕ} {c : Char} (h : c ∈ digits width n) :
    c.isDigit = true := by
  rcases List.mem_append.1 h with hzero | hdigit
  · obtain rfl := List.eq_of_mem_replicate hzero
    rfl
  · exact Nat.isDigit_of_mem_toDigits (by decide) (by decide) hdigit

/-- It is read back. -/
@[simp] theorem value_digits (width n : ℕ) : value (digits width n) = n := by
  unfold value digits
  rw [Nat.ofDigitChars_append, Nat.ofDigitChars_replicate_zero, Nat.mul_zero,
    Nat.ofDigitChars_ten_toDigits]

/-- The first digit counts for the most. -/
theorem value_cons (c : Char) (text : List Char) :
    value (c :: text) = 10 ^ text.length * (c.toNat - '0'.toNat) + value text := by
  unfold value
  rw [Nat.ofDigitChars_cons, Nat.ofDigitChars_eq_ofDigitChars_zero, Nat.mul_zero, Nat.zero_add]

/-- The codes of the digits. -/
theorem toNat_of_isDigit {c : Char} (h : c.isDigit = true) : 48 ≤ c.toNat ∧ c.toNat ≤ 57 :=
  Char.isDigit_iff_toNat.1 h

/-- A text of digits is below the power of its length. -/
theorem value_lt {text : List Char} (h : ∀ c ∈ text, c.isDigit = true) :
    value text < 10 ^ text.length := by
  induction text with
  | nil => exact Nat.one_pos
  | cons c text ih =>
    obtain ⟨hc, hrest⟩ := List.forall_mem_cons.1 h
    have hbounds := toNat_of_isDigit hc
    have hzero : '0'.toNat = 48 := rfl
    have hdigit : c.toNat - '0'.toNat ≤ 9 := by omega
    have hmul := Nat.mul_le_mul_left (10 ^ text.length) hdigit
    have hlt := ih hrest
    rw [value_cons, List.length_cons, Nat.pow_succ]
    omega

/-- Digits of one length are ordered as their values are. -/
theorem lt_iff_value_lt {text text' : List Char} (h : ∀ c ∈ text, c.isDigit = true)
    (h' : ∀ c ∈ text', c.isDigit = true) (hlength : text.length = text'.length) :
    text < text' ↔ value text < value text' := by
  induction text generalizing text' with
  | nil =>
    obtain rfl := List.eq_nil_of_length_eq_zero hlength.symm
    exact iff_of_false (List.not_lt_nil _) (Nat.lt_irrefl _)
  | cons c text ih =>
    cases text' with
    | nil => cases hlength
    | cons c' text' =>
      obtain ⟨hc, hrest⟩ := List.forall_mem_cons.1 h
      obtain ⟨hc', hrest'⟩ := List.forall_mem_cons.1 h'
      have hlength := Nat.succ_inj.1 hlength
      have hlt := value_lt hrest
      have hlt' := value_lt hrest'
      rw [hlength] at hlt
      rw [List.cons_lt_cons_iff, ih hrest hrest' hlength, value_cons, value_cons, hlength,
        Char.lt_def, UInt32.lt_iff_toNat_lt]
      show c.toNat < c'.toNat ∨ c = c' ∧ _ ↔ _
      have hbounds := toNat_of_isDigit hc
      have hbounds' := toNat_of_isDigit hc'
      have hzero : '0'.toNat = 48 := rfl
      rcases lt_trichotomy c.toNat c'.toNat with hless | hsame | hmore
      · -- a smaller first digit outweighs all the others
        have hmul := Nat.mul_le_mul_left (10 ^ text'.length)
          (show c.toNat - '0'.toNat + 1 ≤ c'.toNat - '0'.toNat by omega)
        rw [Nat.mul_add, Nat.mul_one] at hmul
        exact iff_of_true (Or.inl hless) (by omega)
      · obtain rfl := Char.toNat_inj.1 hsame
        rw [Nat.add_lt_add_iff_left]
        simp
      · have hmul := Nat.mul_le_mul_left (10 ^ text'.length)
          (show c'.toNat - '0'.toNat + 1 ≤ c.toNat - '0'.toNat by omega)
        rw [Nat.mul_add, Nat.mul_one] at hmul
        refine iff_of_false ?_ (by omega)
        rintro (hless | ⟨rfl, _⟩) <;> omega

/-- Texts are ordered by their first parts, where these are of one length. -/
theorem append_lt_append_iff {a a' b b' : List Char} (hlength : a.length = a'.length) :
    a ++ b < a' ++ b' ↔ a < a' ∨ a = a' ∧ b < b' := by
  induction a generalizing a' with
  | nil =>
    obtain rfl := List.eq_nil_of_length_eq_zero hlength.symm
    simp
  | cons c a ih =>
    cases a' with
    | nil => cases hlength
    | cons c' a' =>
      rw [List.cons_append, List.cons_append, List.cons_lt_cons_iff, List.cons_lt_cons_iff,
        ih (Nat.succ_inj.1 hlength), List.cons.injEq]
      tauto

/-! ## A text of decimals -/

/-- Each decimal's width, and what stands after it. -/
abbrev Shape : Type := List (ℕ × List Char)

/-- There is a number for each decimal, and each is small enough. -/
def Fits (shape : Shape) (values : List ℕ) : Prop :=
  List.Forall₂ (fun field value => 0 < field.1 ∧ value < 10 ^ field.1) shape values

/-- The values by their widths, each with what stands after it. -/
def render : Shape → List ℕ → List Char
  | (width, after) :: shape, value :: values =>
    digits width value ++ (after ++ render shape values)
  | _, _ => []

/-- The numbers of a text of this shape. -/
def read : Shape → List Char → Option (List ℕ)
  | [], text => if text = [] then some [] else none
  | (width, after) :: shape, text =>
    let field := text.take width
    if field.length = width ∧ field.all Char.isDigit ∧ after <+: text.drop width then
      (read shape ((text.drop width).drop after.length)).map (value field :: ·)
    else none

variable {shape : Shape} {values values' : List ℕ}

/-- **A text is read back** as what it was made of. -/
theorem read_render (h : Fits shape values) : read shape (render shape values) = some values := by
  induction h with
  | nil => rfl
  | @cons field value shape values hfield _ ih =>
    obtain ⟨width, after⟩ := field
    have hlength : (digits width value).length = width := length_digits hfield.1 hfield.2
    have htake : (render ((width, after) :: shape) (value :: values)).take width =
        digits width value := by
      rw [render, List.take_append_of_le_length (Nat.le_of_eq hlength.symm),
        List.take_of_length_le (Nat.le_of_eq hlength)]
    have hdrop : (render ((width, after) :: shape) (value :: values)).drop width =
        after ++ render shape values := by
      rw [render, List.drop_append_of_le_length (Nat.le_of_eq hlength.symm),
        List.drop_of_length_le (Nat.le_of_eq hlength), List.nil_append]
    have hall : (digits width value).all Char.isDigit = true := by
      rw [List.all_eq_true]
      exact fun c => isDigit_of_mem_digits
    rw [read, htake, hdrop, if_pos ⟨hlength, hall, List.prefix_append _ _⟩,
      List.drop_left, ih, value_digits]
    rfl

/-- **The texts of one shape are ordered as their numbers are.** -/
theorem render_lt_render_iff (h : Fits shape values) (h' : Fits shape values') :
    render shape values < render shape values' ↔ values < values' := by
  induction h generalizing values' with
  | nil =>
    cases h'
    exact iff_of_false (List.not_lt_nil _) (List.not_lt_nil _)
  | @cons field value shape values hfield _ ih =>
    cases h' with
    | @cons _ value' _ values' hfield' hrest' =>
      obtain ⟨width, after⟩ := field
      have hlength := length_digits hfield.1 hfield.2
      have hlength' := length_digits hfield'.1 hfield'.2
      have hsame : (digits width value).length = (digits width value').length :=
        hlength.trans hlength'.symm
      have hfirst : digits width value < digits width value' ↔ value < value' := by
        rw [lt_iff_value_lt (fun _ => isDigit_of_mem_digits) (fun _ => isDigit_of_mem_digits) hsame,
          value_digits, value_digits]
      have hequal : digits width value = digits width value' ↔ value = value' := by
        constructor
        · intro heq
          have hvalues := congrArg Decimal.value heq
          rwa [value_digits, value_digits] at hvalues
        · rintro rfl
          rfl
      rw [render, render, append_lt_append_iff hsame, append_lt_append_iff rfl, hfirst, hequal,
        ih hrest', List.cons_lt_cons_iff]
      have hafter : ¬ after < after := List.lt_irrefl after
      tauto

end Decimal
