/-
  Verdicts of a validation that collects what it finds.

  Reading a record field by field ends in one of four ways.  A field throws, and that ends the
  validation at once.  Or there is a value, with or without issues: a value with issues (`flawed`) is
  not accepted, but the checks that come after still look at it.  Or the issues leave no value to look
  at.

  The two questions about a record are answered field by field: whether it is accepted (`accepts_seq`),
  and whether it throws (`throws_seq`).
-/
import Mathlib.Data.List.Basic

/-- What a check comes to: it throws, it finds issues and has no value, it finds issues and goes on
    with a value, or it accepts one. -/
inductive Verdict (ε ι α : Type)
  | threw (error : ε)
  | issues (found : List ι)
  | flawed (found : List ι) (a : α)
  | value (a : α)

namespace Verdict

variable {ε ι α β : Type}

/-- The value is mapped, if there is one. -/
def map (f : α → β) : Verdict ε ι α → Verdict ε ι β
  | threw error => threw error
  | issues found => issues found
  | flawed found a => flawed found (f a)
  | value a => value (f a)

/-- More issues than those that were found before. -/
def withIssues (found : List ι) : Verdict ε ι α → Verdict ε ι α
  | threw error => threw error
  | issues more => issues (found ++ more)
  | flawed more a => flawed (found ++ more) a
  | value a => flawed found a

/-- The value is lost. -/
def withoutValue (found : List ι) : Verdict ε ι α → Verdict ε ι β
  | threw error => threw error
  | issues more => issues (found ++ more)
  | flawed more _ => issues (found ++ more)
  | value _ => issues found

/-- One field after the other; the issues of both. -/
def seq : Verdict ε ι (α → β) → Verdict ε ι α → Verdict ε ι β
  | threw error, _ => threw error
  | issues found, v => v.withoutValue found
  | flawed found f, v => (v.map f).withIssues found
  | value f, v => v.map f

instance : Applicative (Verdict ε ι) where
  pure := value
  seq f v := seq f (v ())

/-- The issues, told in another way. -/
def mapIssues {κ : Type} (f : ι → κ) : Verdict ε ι α → Verdict ε κ α
  | threw error => threw error
  | issues found => issues (found.map f)
  | flawed found a => flawed (found.map f) a
  | value a => value a

/-- A check of the value, if there is one; the issues it finds. -/
def refine (check : α → List ι) : Verdict ε ι α → Verdict ε ι α
  | value a => if check a = [] then value a else flawed (check a) a
  | flawed found a => flawed (found ++ check a) a
  | v => v

/-- The value, when nothing was found. -/
def accepted : Verdict ε ι α → Option α
  | value a => some a
  | _ => none

/-! ## Accepting -/

/-- A value without issues. -/
def Accepts (v : Verdict ε ι α) : Prop := ∃ a, v = value a

/-- A field has thrown. -/
def Throws (v : Verdict ε ι α) : Prop := ∃ error, v = threw error

variable {f : Verdict ε ι (α → β)} {v : Verdict ε ι α}

/-- Only a value is accepted. -/
theorem accepted_eq_some {a : α} : v.accepted = some a ↔ v = value a := by
  cases v <;> simp [accepted]

/-- Two checks side by side accept exactly if both do. -/
theorem seq_eq_value {b : β} : f <*> v = value b ↔ ∃ g a, f = value g ∧ v = value a ∧ g a = b := by
  show seq f v = value b ↔ _
  cases f <;> cases v <;> simp [seq, map, withIssues, withoutValue]

/-- Mapping changes the value, and not whether there is one. -/
theorem map_eq_value {g : α → β} {b : β} : g <$> v = value b ↔ ∃ a, v = value a ∧ g a = b := by
  show seq (value g) v = value b ↔ _
  cases v <;> simp [seq, map]

/-- A value is accepted. -/
@[simp] theorem accepts_value (a : α) : Accepts (value a : Verdict ε ι α) := ⟨a, rfl⟩

/-- Issues are not. -/
@[simp] theorem not_accepts_issues (found : List ι) : ¬ Accepts (issues found : Verdict ε ι α) := by
  rintro ⟨a, ha⟩
  cases ha

/-- Nor are issues with a value to go on with. -/
@[simp] theorem not_accepts_flawed (found : List ι) (a : α) :
    ¬ Accepts (flawed found a : Verdict ε ι α) := by
  rintro ⟨b, hb⟩
  cases hb

/-- Nor is what was thrown. -/
@[simp] theorem not_accepts_threw (error : ε) : ¬ Accepts (threw error : Verdict ε ι α) := by
  rintro ⟨a, ha⟩
  cases ha

/-- **Two fields are accepted exactly when each is.** -/
@[simp] theorem accepts_seq : Accepts (f <*> v) ↔ Accepts f ∧ Accepts v := by
  constructor
  · -- a value comes of a function and an argument
    rintro ⟨b, hb⟩
    obtain ⟨g, a, hf, hv, _⟩ := seq_eq_value.1 hb
    exact ⟨⟨g, hf⟩, a, hv⟩
  · rintro ⟨⟨g, hf⟩, a, hv⟩
    exact ⟨g a, seq_eq_value.2 ⟨g, a, hf, hv, rfl⟩⟩

/-- Mapping a value accepts no more and no less. -/
@[simp] theorem accepts_map {g : α → β} : Accepts (g <$> v) ↔ Accepts v := by
  constructor
  · rintro ⟨b, hb⟩
    obtain ⟨a, hv, _⟩ := map_eq_value.1 hb
    exact ⟨a, hv⟩
  · rintro ⟨a, hv⟩
    exact ⟨g a, map_eq_value.2 ⟨a, hv, rfl⟩⟩

/-- Nor does renaming the issues. -/
@[simp] theorem accepts_mapIssues {κ : Type} {g : ι → κ} : Accepts (v.mapIssues g) ↔ Accepts v := by
  cases v <;> simp [mapIssues]

/-- The value does not feel it. -/
theorem mapIssues_eq_value {κ : Type} {g : ι → κ} {a : α} :
    v.mapIssues g = value a ↔ v = value a := by
  cases v <;> simp [mapIssues]

/-- **A check lets a value pass exactly when it finds nothing.** -/
theorem refine_eq_value {check : α → List ι} {a : α} :
    v.refine check = value a ↔ v = value a ∧ check a = [] := by
  cases v with
  | threw error => simp [refine]
  | issues found => simp [refine]
  | flawed found b => simp [refine]
  | value b =>
    rw [refine]
    split
    · -- the check has found nothing
      rename_i h
      constructor
      · intro hb
        cases hb
        exact ⟨rfl, h⟩
      · exact fun hb => hb.1
    · -- the check has found something
      rename_i h
      constructor
      · intro hb
        cases hb
      · rintro ⟨hb, ha⟩
        cases hb
        exact absurd ha h

/-! ## Throwing -/

/-- What was thrown is thrown. -/
@[simp] theorem throws_threw (error : ε) : Throws (threw error : Verdict ε ι α) := ⟨error, rfl⟩

/-- Issues are reported. -/
@[simp] theorem not_throws_issues (found : List ι) : ¬ Throws (issues found : Verdict ε ι α) := by
  rintro ⟨error, h⟩
  cases h

/-- So are issues with a value. -/
@[simp] theorem not_throws_flawed (found : List ι) (a : α) :
    ¬ Throws (flawed found a : Verdict ε ι α) := by
  rintro ⟨error, h⟩
  cases h

/-- A value is returned. -/
@[simp] theorem not_throws_value (a : α) : ¬ Throws (value a : Verdict ε ι α) := by
  rintro ⟨error, h⟩
  cases h

/-- **A record throws exactly when a field does**, whatever the other fields are. -/
@[simp] theorem throws_seq : Throws (f <*> v) ↔ Throws f ∨ Throws v := by
  show Throws (seq f v) ↔ _
  -- issues do not stop the next field, so a throw of either is a throw
  cases f <;> cases v <;> simp [seq, map, withIssues, withoutValue]

/-- Mapping a value throws nothing. -/
@[simp] theorem throws_map {g : α → β} : Throws (g <$> v) ↔ Throws v := by
  show Throws (seq (value g) v) ↔ _
  cases v <;> simp [seq, map]

/-- Nor does renaming the issues. -/
@[simp] theorem throws_mapIssues {κ : Type} {g : ι → κ} : Throws (v.mapIssues g) ↔ Throws v := by
  cases v <;> simp [mapIssues]

/-- Nor does a further check. -/
@[simp] theorem throws_refine {check : α → List ι} : Throws (v.refine check) ↔ Throws v := by
  cases v with
  | threw error => simp [refine]
  | issues found => simp [refine]
  | flawed found a => simp [refine]
  | value a =>
    rw [refine]
    split <;> simp

end Verdict
