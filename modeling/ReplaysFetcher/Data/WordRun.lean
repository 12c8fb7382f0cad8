/-
  Searching for a word and the run of a class after it, as in `/\/replays\/([^/?#]+)/`.

  1. **What the search keeps** (`exec_wordRun`).  The engine's group is `runAfter`: the run after the
     first place where the word is spelled and the run is not empty.
  2. **Passing over text** (`runAfter_skip`, `runAfter_cons`).  Nothing is found where the word's
     first class has no member, so a search goes from one candidate to the next.
  3. **When nothing is found** (`runAfter_eq_none_iff`).
-/
import ReplaysFetcher.Data.Substitution
import Mathlib.Data.List.Forall2

namespace WordRun

open Regex Substitution

variable {α γ : Type} [DecidableEq α] [DecidableEq γ]

/-- The word, one class after the other, and then one or more characters of a class. -/
def wordRun (word : List (α → Bool)) (cls : α → Bool) (group : γ) : Pattern α γ :=
  word.map (fun letter => one letter none) ++ [some1 cls (some group)]

/-- The text begins with the word. -/
def begins : List (α → Bool) → List α → Bool
  | [], _ => true
  | _ :: _, [] => false
  | letter :: word, x :: xs => letter x && begins word xs

/-- The run after the first place where the word is followed by one. -/
def runAfter (word : List (α → Bool)) (cls : α → Bool) : List α → Option (List α)
  | [] => none
  | x :: xs =>
    if begins word (x :: xs) && ((x :: xs).drop word.length).head?.any cls then
      some (((x :: xs).drop word.length).takeWhile cls)
    else runAfter word cls xs

variable {word : List (α → Bool)} {cls : α → Bool} {group : γ} {text rest front : List α}

/-! ## What the search keeps -/

omit [DecidableEq α] in
/-- A greedy run takes all it can first. -/
theorem lengths_some1 (cls : α → Bool) (rest : List α) :
    lengths cls 1 none true rest = [] ∧ rest.head?.any cls = false ∨
      rest.head?.any cls = true ∧
        ∃ more, lengths cls 1 none true rest = (rest.takeWhile cls).length :: more := by
  cases rest with
  | nil => exact Or.inl ⟨rfl, rfl⟩
  | cons x xs =>
    cases hx : cls x with
    | false =>
      refine Or.inl ⟨?_, hx⟩
      unfold lengths
      simp [hx]
    | true =>
      refine Or.inr ⟨hx, ?_⟩
      unfold lengths
      rw [List.range_succ, List.filter_append, if_pos rfl, List.reverse_append]
      simp [hx]

/-- The word, letter by letter, and then the run. -/
theorem run_wordRun (word : List (α → Bool)) (cls : α → Bool) (group : γ) (c : Cursor α γ) :
    (run (wordRun word cls group) c).map Cursor.groups =
      if begins word c.rest && (c.rest.drop word.length).head?.any cls then
        some ((group, (c.rest.drop word.length).takeWhile cls) :: c.groups)
      else none := by
  induction word generalizing c with
  | nil =>
    show (run [some1 cls (some group)] c).map _ = _
    rw [some1, run]
    rcases lengths_some1 cls c.rest with ⟨hnone, hhead⟩ | ⟨hhead, more, hmore⟩
    · rw [hnone]
      simp [hhead]
    · have htake : c.rest.take (c.rest.takeWhile cls).length = c.rest.takeWhile cls :=
        (List.prefix_iff_eq_take.1 (List.takeWhile_prefix cls)).symm
      rw [hmore, List.findSome?_cons]
      simp [run, hhead, begins, Cursor.capture, Cursor.advance, htake]
  | cons letter word ih =>
    show (run (one letter none :: wordRun word cls group) c).map _ = _
    rw [one, run, lengths_one]
    cases hrest : c.rest with
    | nil => simp [begins]
    | cons x xs =>
      cases hx : letter x with
      | false => simp [begins, hx]
      | true =>
        have hnext := ih ((c.capture none 1).advance 1)
        simp only [Cursor.capture, Cursor.advance, hrest, List.drop_one, List.tail_cons] at hnext
        simp only [List.head?_cons, Option.any_some, hx, if_true, List.findSome?_cons,
          List.findSome?_nil, Cursor.capture, Cursor.advance, hrest, begins, Bool.true_and,
          List.length_cons, List.drop_succ_cons, List.drop_zero]
        rw [← hnext]
        generalize run (wordRun word cls group) _ = result
        cases result with
        | none => rfl
        | some c' => rfl

/-- At a place the pattern matches the word and the run after it. -/
theorem matchAt_wordRun (word : List (α → Bool)) (cls : α → Bool) (group : γ) (before : Option α)
    (text : List α) :
    (matchAt (wordRun word cls group) before text).map (fun found => found.group? group) =
      if begins word text && (text.drop word.length).head?.any cls then
        some (some ((text.drop word.length).takeWhile cls))
      else none := by
  have hrun := run_wordRun word cls group { before, rest := text }
  unfold matchAt
  cases hfound : run (wordRun word cls group) { before, rest := text } with
  | none =>
    rw [hfound] at hrun
    split at hrun
    · cases hrun
    · rename_i hnot
      rw [if_neg hnot]
      rfl
  | some c =>
    rw [hfound] at hrun
    split at hrun
    · rename_i hyes
      have hgroups := Option.some.inj hrun
      rw [if_pos hyes]
      simp [Match.group?, hgroups]
    · cases hrun

/-- **What the search keeps** is the run after the first place. -/
theorem exec_wordRun (word : List (α → Bool)) (cls : α → Bool) (group : γ) (before : Option α)
    (text : List α) :
    (exec (wordRun word cls group) before text).bind (fun found => found.group? group) =
      runAfter word cls text := by
  induction text generalizing before with
  | nil =>
    have hat := matchAt_wordRun word cls group before []
    rw [List.drop_nil] at hat
    simp only [List.head?_nil, Option.any_none, Bool.and_false] at hat
    rw [exec, Option.map_eq_none_iff.1 hat]
    rfl
  | cons x xs ih =>
    have hat := matchAt_wordRun word cls group before (x :: xs)
    rw [exec, runAfter]
    split at hat
    · rename_i hyes
      obtain ⟨found, hfound, hgroup⟩ := Option.map_eq_some_iff.1 hat
      rw [if_pos hyes, hfound]
      exact hgroup
    · rename_i hnot
      rw [if_neg hnot, Option.map_eq_none_iff.1 hat, ← ih (some x)]
      cases exec (wordRun word cls group) (some x) xs with
      | none => rfl
      | some found => rfl

/-! ## Passing over text -/

omit [DecidableEq α] in
/-- A character that does not begin the word is passed over. -/
theorem runAfter_cons {x : α} {xs : List α} (h : begins word (x :: xs) = false) :
    runAfter word cls (x :: xs) = runAfter word cls xs := by
  rw [runAfter, h]
  rfl

omit [DecidableEq α] in
/-- So is a word with no run after it. -/
theorem runAfter_of_empty (h : (text.drop word.length).head?.any cls = false) :
    runAfter word cls text = runAfter word cls text.tail := by
  cases text with
  | nil => rfl
  | cons x xs =>
    rw [runAfter, h, Bool.and_false]
    rfl

omit [DecidableEq α] in
/-- A word with a run after it ends the search. -/
theorem runAfter_found (h : begins word text = true)
    (hrun : (text.drop word.length).head?.any cls = true) :
    runAfter word cls text = some ((text.drop word.length).takeWhile cls) := by
  cases text with
  | nil =>
    rw [List.drop_nil] at hrun
    cases hrun
  | cons x xs =>
    rw [runAfter, h, hrun]
    rfl

omit [DecidableEq α] in
/-- Where the first letter of the word is not, no match begins. -/
theorem runAfter_skip {letter : α → Bool} {tail : List (α → Bool)}
    (h : ∀ x ∈ front, letter x = false) :
    runAfter (letter :: tail) cls (front ++ rest) = runAfter (letter :: tail) cls rest := by
  induction front with
  | nil => rfl
  | cons x front ih =>
    obtain ⟨hx, hfront⟩ := List.forall_mem_cons.1 h
    have hnot : begins (letter :: tail) (x :: (front ++ rest)) = false := by
      simp [begins, hx]
    rw [List.cons_append, runAfter_cons hnot, ih hfront]

/-! ## When nothing is found -/

omit [DecidableEq α] in
/-- A text begins with the word when it has characters for its letters. -/
theorem begins_iff : begins word text = true ↔
    ∃ spelled rest, text = spelled ++ rest ∧ List.Forall₂ (fun letter x => letter x = true) word
      spelled := by
  induction word generalizing text with
  | nil => exact iff_of_true rfl ⟨[], text, rfl, .nil⟩
  | cons letter word ih =>
    cases text with
    | nil =>
      refine iff_of_false (by simp [begins]) ?_
      rintro ⟨spelled, rest, htext, hspelled⟩
      obtain ⟨rfl, _⟩ := List.append_eq_nil_iff.1 htext.symm
      cases hspelled
    | cons x xs =>
      rw [begins, Bool.and_eq_true, ih]
      constructor
      · rintro ⟨hx, spelled, rest, rfl, hspelled⟩
        exact ⟨x :: spelled, rest, rfl, .cons hx hspelled⟩
      · rintro ⟨spelled, rest, htext, hspelled⟩
        cases hspelled with
        | cons hx hspelled =>
          obtain ⟨rfl, rfl⟩ := List.cons_eq_cons.1 htext
          exact ⟨hx, _, _, rfl, hspelled⟩

omit [DecidableEq α] in
/-- **Nothing is found** exactly when the word, wherever it is spelled, has no run after it. -/
theorem runAfter_eq_none_iff : runAfter word cls text = none ↔
    ∀ front spelled x back, text = front ++ (spelled ++ x :: back) →
      List.Forall₂ (fun letter c => letter c = true) word spelled → cls x = false := by
  induction text with
  | nil =>
    refine iff_of_true rfl ?_
    intro front spelled x back htext hspelled
    simp at htext
  | cons y ys ih =>
    constructor
    · intro h front spelled x back htext hspelled
      rw [runAfter] at h
      split at h
      · cases h
      · rename_i hnot
        cases front with
        | nil =>
          -- the word is spelled right here
          have hbegins : begins word (y :: ys) = true := begins_iff.2 ⟨spelled, _, htext, hspelled⟩
          have hdrop : (y :: ys).drop word.length = x :: back := by
            rw [htext, List.nil_append, hspelled.length_eq, List.drop_left]
          rw [hbegins, hdrop, Bool.true_and] at hnot
          exact Bool.eq_false_iff.2 hnot
        | cons z front =>
          obtain ⟨_, hys⟩ := List.cons_eq_cons.1 htext
          exact ih.1 h front spelled x back hys hspelled
    · intro h
      have hnot : (begins word (y :: ys) && ((y :: ys).drop word.length).head?.any cls) = false := by
        rw [Bool.eq_false_iff]
        intro hyes
        obtain ⟨hbegins, hany⟩ := (Bool.and_eq_true _ _).mp hyes
        obtain ⟨spelled, rest, htext, hspelled⟩ := begins_iff.1 hbegins
        have hdrop : (y :: ys).drop word.length = rest := by
          rw [htext, hspelled.length_eq, List.drop_left]
        rw [hdrop] at hany
        cases rest with
        | nil => cases hany
        | cons x back =>
          have hfalse := h [] spelled x back htext hspelled
          rw [List.head?_cons, Option.any_some, hfalse] at hany
          cases hany
      rw [runAfter, hnot]
      refine ih.2 fun front spelled x back htext hspelled => ?_
      exact h (y :: front) spelled x back (by rw [htext]; rfl) hspelled

end WordRun
