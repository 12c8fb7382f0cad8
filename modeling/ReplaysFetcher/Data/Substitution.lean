/-
  Substituting words in a text, and undoing a code with it.

  1. **The engine on a word** (`replaceAll_literal`).  A pattern that is a word matches where the
     word begins, and replacing all matches is `substitute`: from the left, and never inside of what
     has just been put out.
  2. **When nothing changes** (`substituteAll_eq_self_iff`).  Words that are replaced by something
     shorter, one after the other, leave a text as it is exactly when it has none of them.
  3. **Codes** (`Names`).  Some letters are written as a name between a mark and a closing letter,
     as `<` is written `&lt;`.  Substituting the word of a letter takes that letter out of the code.

  The crux is the mark.  While the mark itself is coded, a mark in the coded text is the beginning
  of a word, and a substitution undoes exactly what the code has done (`substitute_encode_of_coded`).
  Once the mark is written as itself, a word that was there BEFORE the text was coded is substituted
  as well (`substitute_encode_of_plain`).
-/
import ReplaysFetcher.Data.Regex
import Mathlib.Data.List.Infix
import Mathlib.Tactic.Common

namespace Substitution

/-- What holds of every member of a list is decided along the list, not over all letters. -/
instance (priority := 2000) decidableMembers {α : Type} (p : α → Prop) [DecidablePred p]
    (text : List α) : Decidable (∀ x ∈ text, p x) := List.decidableBAll p text

variable {α γ : Type} [DecidableEq α] [DecidableEq γ]

/-! ## Substituting a word -/

/-- The text with a word replaced wherever it begins, from the left. -/
def substitute (word image : List α) : List α → List α
  | [] => []
  | x :: xs =>
    if word <+: x :: xs then image ++ substitute word image (xs.drop (word.length - 1))
    else x :: substitute word image xs
  termination_by text => text.length
  decreasing_by
    · simp only [List.length_drop, List.length_cons]
      omega
    · simp

variable {word image text : List α}

@[simp] theorem substitute_nil : substitute word image [] = [] := by rw [substitute]

theorem substitute_of_not_starts {x : α} {xs : List α} (h : ¬ word <+: x :: xs) :
    substitute word image (x :: xs) = x :: substitute word image xs := by
  rw [substitute, if_neg h]

theorem substitute_append (hword : word ≠ []) (rest : List α) :
    substitute word image (word ++ rest) = image ++ substitute word image rest := by
  cases word with
  | nil => exact absurd rfl hword
  | cons x xs =>
    have h : x :: xs <+: x :: (xs ++ rest) := ⟨rest, rfl⟩
    rw [List.cons_append, substitute, if_pos h]
    simp

/-- Nothing is replaced before the place where the word can begin. -/
theorem substitute_skip {mark : α} {tail block rest : List α} (h : mark ∉ block) :
    substitute (mark :: tail) image (block ++ rest) =
      block ++ substitute (mark :: tail) image rest := by
  induction block with
  | nil => rfl
  | cons x xs ih =>
    rw [List.mem_cons, not_or] at h
    have hx : ¬ mark :: tail <+: x :: (xs ++ rest) := by
      intro hstarts
      exact h.1 (List.cons_prefix_cons.1 hstarts).1
    rw [List.cons_append, substitute_of_not_starts hx, ih h.2]
    rfl

/-- Reading a text from the left: a word is read as a whole. -/
theorem reading_induction {P : List α → Prop} (hword : word ≠ []) (nothing : P [])
    (whole : ∀ rest, P rest → P (word ++ rest))
    (letter : ∀ x xs, ¬ word <+: x :: xs → P xs → P (x :: xs)) (text : List α) : P text := by
  induction hn : text.length using Nat.strong_induction_on generalizing text with
  | _ n ih =>
    cases text with
    | nil => exact nothing
    | cons x xs =>
      rw [List.length_cons] at hn
      by_cases hx : word <+: x :: xs
      · obtain ⟨rest, hrest⟩ := hx
        have hpos := List.length_pos_iff.2 hword
        have hlength := congrArg List.length hrest
        rw [List.length_append, List.length_cons] at hlength
        rw [← hrest]
        exact whole rest (ih rest.length (by omega) rest rfl)
      · exact letter x xs hx (ih xs.length (by omega) xs rfl)

/-- What is put out was there, or is the image's. -/
theorem mem_of_mem_substitute (hword : word ≠ []) {x : α} (h : x ∈ substitute word image text) :
    x ∈ text ∨ x ∈ image := by
  induction text using reading_induction hword with
  | nothing =>
    rw [substitute_nil] at h
    exact absurd h List.not_mem_nil
  | whole rest ih =>
    rw [substitute_append hword] at h
    rcases List.mem_append.1 h with h | h
    · exact Or.inr h
    · rcases ih h with h | h
      · exact Or.inl (List.mem_append_right _ h)
      · exact Or.inr h
  | letter y ys hnot ih =>
    rw [substitute_of_not_starts hnot] at h
    rcases List.mem_cons.1 h with rfl | h
    · exact Or.inl List.mem_cons_self
    · rcases ih h with h | h
      · exact Or.inl (List.mem_cons_of_mem _ h)
      · exact Or.inr h

/-- A letter that the word does not have separates what is before from what is after. -/
theorem substitute_separator {separator : α} (hword : word ≠ []) (h : separator ∉ word)
    (before after : List α) :
    substitute word image (before ++ separator :: after) =
      substitute word image before ++ separator :: substitute word image after := by
  induction before using reading_induction hword with
  | nothing =>
    have hnot : ¬ word <+: separator :: after := by
      cases word with
      | nil => exact absurd rfl hword
      | cons x xs =>
        intro hstarts
        exact h ((List.cons_prefix_cons.1 hstarts).1 ▸ List.mem_cons_self)
    rw [substitute_nil]
    exact substitute_of_not_starts hnot
  | whole rest ih =>
    rw [List.append_assoc, substitute_append hword, ih, substitute_append hword, List.append_assoc]
  | letter x xs hnot ih =>
    have hlong : ¬ word <+: x :: (xs ++ separator :: after) := by
      intro hstarts
      rcases List.prefix_or_prefix_of_prefix hstarts
        (show x :: xs <+: x :: (xs ++ separator :: after) from ⟨separator :: after, rfl⟩) with
        hshort | hover
      · exact hnot hshort
      · -- the word would reach over the separator
        obtain ⟨tail, rfl⟩ := hover
        cases tail with
        | nil => exact hnot (by simp)
        | cons y tail =>
          obtain ⟨back, hback⟩ := hstarts
          rw [List.append_assoc] at hback
          have htail := List.append_cancel_left
            (show (x :: xs) ++ (y :: tail ++ back) = (x :: xs) ++ separator :: after from hback)
          obtain rfl := (List.cons_eq_cons.1 htail).1
          exact h (List.mem_append_right _ List.mem_cons_self)
    rw [List.cons_append, substitute_of_not_starts hlong, ih, substitute_of_not_starts hnot]
    rfl

/-! ## The engine on a word -/

/-- The pattern of a word. -/
def literal (word : List α) : Regex.Pattern α γ := word.map fun c => Regex.one (· = c) none

omit [DecidableEq α] in
/-- One character of a class is the next one. -/
theorem lengths_one (cls : α → Bool) (rest : List α) :
    Regex.lengths cls 1 (some 1) true rest = if rest.head?.any cls then [1] else [] := by
  have hpossible : ∀ k : ℕ, ((List.range (k + 1)).filter fun n => decide (1 ≤ n) &&
      (some 1).all (n ≤ ·)) = if k = 0 then [] else [1] := by
    intro k
    induction k with
    | zero => rfl
    | succ k ih =>
      rw [List.range_succ, List.filter_append, ih]
      rcases Nat.eq_zero_or_pos k with rfl | hk
      · rfl
      · have hmore : ¬ k + 1 ≤ 1 := by omega
        have hne : k ≠ 0 := by omega
        simp [hmore, hne]
  unfold Regex.lengths
  rw [hpossible]
  cases rest with
  | nil => rfl
  | cons x xs =>
    cases hx : cls x with
    | true => simp [hx]
    | false => simp [hx]

/-- A word is spelled here exactly when the text begins with it. -/
theorem run_literal (word : List α) (c : Regex.Cursor α γ) :
    (Regex.run (literal word) c).map (fun c' => (c'.rest, c'.groups)) =
      if word <+: c.rest then some (c.rest.drop word.length, c.groups) else none := by
  induction word generalizing c with
  | nil => simp [literal, Regex.run]
  | cons x xs ih =>
    show (Regex.run (Regex.one (· = x) none :: literal xs) c).map _ = _
    rw [Regex.one, Regex.run, lengths_one]
    cases hrest : c.rest with
    | nil => simp
    | cons y ys =>
      by_cases hy : y = x
      · subst hy
        have hnext := ih ((c.capture none 1).advance 1)
        simp only [Regex.Cursor.capture, Regex.Cursor.advance, hrest, List.drop_one,
          List.tail_cons] at hnext
        simp only [List.head?_cons, Option.any_some, decide_true, if_true, List.findSome?_cons,
          List.findSome?_nil, Regex.Cursor.capture, Regex.Cursor.advance, hrest,
          List.prefix_cons_inj, List.length_cons, List.drop_succ_cons, List.drop_zero]
        rw [← hnext]
        generalize Regex.run (literal xs : Regex.Pattern α γ) _ = result
        cases result with
        | none => rfl
        | some c' => rfl
      · have hne : ¬ x :: xs <+: y :: ys := by
          intro hstarts
          exact hy (List.cons_prefix_cons.1 hstarts).1.symm
        simp [hy, hne]

theorem matchAt_literal (word : List α) (before : Option α) (text : List α) :
    Regex.matchAt (γ := γ) (literal word) before text =
      if word <+: text then
        some { before := [], text := word, after := text.drop word.length, groups := [] }
      else none := by
  have hrun := run_literal (γ := γ) word { before, rest := text }
  unfold Regex.matchAt
  by_cases h : word <+: text
  · rw [if_pos h] at hrun ⊢
    obtain ⟨c, hc, hpair⟩ := Option.map_eq_some_iff.1 hrun
    obtain ⟨hrest, hgroups⟩ := Prod.mk.inj hpair
    obtain ⟨rest, rfl⟩ := h
    rw [hc, Option.map_some, hrest, hgroups]
    simp
  · rw [if_neg h] at hrun ⊢
    rw [Option.map_eq_none_iff.1 hrun]
    rfl

/-- The first match of a word is where a substitution puts out its first image. -/
theorem substitute_of_exec (hword : word ≠ []) {before : Option α} {m : Regex.Match α γ}
    (h : Regex.exec (literal word) before text = some m) :
    substitute word image text = m.before ++ image ++ substitute word image m.after ∧
      m.after.length < text.length := by
  have hat : ∀ {before : Option α} {text : List α} {m : Regex.Match α γ},
      Regex.matchAt (literal word) before text = some m →
      substitute word image text = m.before ++ image ++ substitute word image m.after ∧
        m.after.length < text.length := by
    intro before text m h
    rw [matchAt_literal] at h
    split at h
    · rename_i hstarts
      obtain ⟨rest, rfl⟩ := hstarts
      cases h
      have hpos := List.length_pos_iff.2 hword
      refine ⟨?_, ?_⟩
      · rw [substitute_append hword]
        simp
      · simp
        omega
    · cases h
  induction text generalizing before m with
  | nil => exact hat h
  | cons x xs ih =>
    rw [Regex.exec] at h
    split at h
    · rename_i m' hm
      cases h
      exact hat hm
    · rename_i hnone
      obtain ⟨m', hexec, rfl⟩ := Option.map_eq_some_iff.1 h
      have hx : ¬ word <+: x :: xs := by
        intro hstarts
        rw [matchAt_literal, if_pos hstarts] at hnone
        cases hnone
      obtain ⟨hrest, hlt⟩ := ih hexec
      refine ⟨?_, Nat.lt_succ_of_lt hlt⟩
      rw [substitute_of_not_starts hx, hrest]
      rfl

theorem substitute_of_exec_none {before : Option α}
    (h : Regex.exec (γ := γ) (literal word) before text = none) :
    substitute word image text = text := by
  induction text generalizing before with
  | nil => rw [substitute_nil]
  | cons x xs ih =>
    rw [Regex.exec] at h
    split at h
    · cases h
    · rename_i hnone
      have hx : ¬ word <+: x :: xs := by
        intro hstarts
        rw [matchAt_literal, if_pos hstarts] at hnone
        cases hnone
      rw [substitute_of_not_starts hx, ih (Option.map_eq_none_iff.1 h)]

/-- **Replacing all matches of a word is substituting it.** -/
theorem replaceAll_literal (hword : word ≠ []) (image text : List α) :
    Regex.replaceAll (γ := γ) (literal word) image text = substitute word image text := by
  have hmatches : ∀ (fuel : ℕ) (before : Option α) (text : List α), text.length < fuel →
      ((Regex.matches' (γ := γ) (literal word) fuel before text).flatMap fun m =>
        m.before ++ image) ++
        ((Regex.matches' (γ := γ) (literal word) fuel before text).getLast?.elim text fun m =>
          m.after) = substitute word image text := by
    intro fuel
    induction fuel with
    | zero =>
      intro before text h
      omega
    | succ fuel ih =>
      intro before text h
      rw [Regex.matches']
      cases hexec : Regex.exec (γ := γ) (literal word) before text with
      | none => simp [substitute_of_exec_none hexec]
      | some m =>
        have hstep : substitute word image text =
            m.before ++ image ++ substitute word image m.after ∧ m.after.length < text.length :=
          substitute_of_exec hword hexec
        obtain ⟨hrest, hlt⟩ := hstep
        have hnext := ih ((m.before ++ m.text).getLast?.or before) m.after (by omega)
        -- the last match of the rest, or else this one
        rw [hrest, ← hnext, List.flatMap_cons, List.getLast?_cons, Option.elim_some,
          List.append_assoc]
        congr 1
        cases (Regex.matches' (γ := γ) (literal word) fuel _ m.after).getLast? with
        | none => rfl
        | some last => rfl
  exact hmatches _ _ _ (Nat.lt_succ_self _)

/-! ## When nothing changes -/

/-- Substitute one word after the other. -/
def substituteAll (words : List (List α × List α)) (text : List α) : List α :=
  words.foldl (fun text pair => substitute pair.1 pair.2 text) text

omit [DecidableEq α] in
theorem infix_cons_of_not_starts {x : α} {xs : List α} (h : ¬ word <+: x :: xs) :
    word <:+: x :: xs ↔ word <:+: xs := by
  rw [List.infix_cons_iff]
  exact or_iff_right h

theorem substitute_of_not_has (h : ¬ word <:+: text) : substitute word image text = text := by
  induction text with
  | nil => rw [substitute_nil]
  | cons x xs ih =>
    have hx : ¬ word <+: x :: xs := fun hstarts => h hstarts.isInfix
    rw [infix_cons_of_not_starts hx] at h
    rw [substitute_of_not_starts hx, ih h]

/-- A shorter image does not lengthen a text, and shortens one that has the word. -/
theorem length_substitute (himage : image.length < word.length) (text : List α) :
    (substitute word image text).length ≤ text.length ∧
      (word <:+: text → (substitute word image text).length < text.length) := by
  have hword : word ≠ [] := List.ne_nil_of_length_pos (Nat.zero_lt_of_lt himage)
  induction text using reading_induction hword with
  | nothing =>
    rw [substitute_nil]
    exact ⟨Nat.le_refl _, fun h => absurd (List.infix_nil.1 h) hword⟩
  | whole rest ih =>
    rw [substitute_append hword, List.length_append, List.length_append]
    exact ⟨by omega, fun _ => by omega⟩
  | letter x xs hx ih =>
    rw [substitute_of_not_starts hx, infix_cons_of_not_starts hx]
    exact ⟨Nat.succ_le_succ ih.1, fun h => Nat.succ_lt_succ (ih.2 h)⟩

theorem length_substituteAll_le {words : List (List α × List α)}
    (hwords : ∀ pair ∈ words, pair.2.length < pair.1.length) (text : List α) :
    (substituteAll words text).length ≤ text.length := by
  induction words generalizing text with
  | nil => exact Nat.le_refl _
  | cons pair words ih =>
    obtain ⟨hpair, hrest⟩ := List.forall_mem_cons.1 hwords
    exact Nat.le_trans (ih hrest _) (length_substitute hpair text).1

/-- **Nothing changes exactly where no word occurs**, whatever an earlier substitution may have put
    together: what has become shorter does not become longer again. -/
theorem substituteAll_eq_self_iff {words : List (List α × List α)}
    (hwords : ∀ pair ∈ words, pair.2.length < pair.1.length) (text : List α) :
    substituteAll words text = text ↔ ∀ pair ∈ words, ¬ pair.1 <:+: text := by
  induction words with
  | nil => simp [substituteAll]
  | cons pair words ih =>
    obtain ⟨hpair, hrest⟩ := List.forall_mem_cons.1 hwords
    show substituteAll words (substitute pair.1 pair.2 text) = text ↔ _
    rw [List.forall_mem_cons]
    by_cases hinfix : pair.1 <:+: text
    · constructor
      · intro h
        have hlt := (length_substitute hpair text).2 hinfix
        have hshort := length_substituteAll_le hrest (substitute pair.1 pair.2 text)
        rw [h] at hshort
        omega
      · intro h
        exact absurd hinfix h.1
    · rw [substitute_of_not_has hinfix]
      exact (ih hrest).trans (and_iff_right hinfix).symm

/-- What begins after a substitution, and has no letter that was put in, began before. -/
theorem prefix_of_prefix_substitute {y : α} {letters : List α} (hy : y ∉ letters)
    (h : letters <+: substitute word [y] text) : letters <+: text := by
  induction letters generalizing text with
  | nil => exact List.nil_prefix
  | cons l ls ih =>
    rw [List.mem_cons, not_or] at hy
    cases text with
    | nil => rwa [substitute_nil] at h
    | cons x xs =>
      rw [substitute] at h
      split at h
      · exact absurd (List.cons_prefix_cons.1 h).1.symm hy.1
      · obtain ⟨hhead, htail⟩ := List.cons_prefix_cons.1 h
        rw [hhead]
        exact List.prefix_cons_inj x |>.2 (ih hy.2 htail)

/-- A substitution brings about no word that has none of the letters put in. -/
theorem infix_of_infix_substitute {y : α} {letters : List α} (hword : word ≠ []) (hy : y ∉ letters)
    (h : letters <:+: substitute word [y] text) : letters <:+: text := by
  induction text using reading_induction hword with
  | nothing => rwa [substitute_nil] at h
  | whole rest ih =>
    rw [substitute_append hword, List.singleton_append] at h
    rcases List.infix_cons_iff.1 h with hstarts | hinfix
    · cases letters with
      | nil => exact List.nil_infix
      | cons l ls => exact absurd (List.cons_prefix_cons.1 hstarts).1 (List.ne_of_not_mem_cons hy).symm
    · exact (ih hinfix).trans (List.suffix_append word rest).isInfix
  | letter x xs hx ih =>
    by_cases hbegins : letters <+: substitute word [y] (x :: xs)
    · exact (prefix_of_prefix_substitute hy hbegins).isInfix
    · rw [substitute_of_not_starts hx] at h hbegins
      have hrest := (List.infix_cons_iff.1 h).resolve_left hbegins
      exact (ih hrest).trans (List.suffix_cons x xs).isInfix

/-- A substitution leaves none of its words, if the letter put in is not one of theirs. -/
theorem not_infix_substitute {y : α} (hword : word ≠ []) (hy : y ∉ word) :
    ¬ word <:+: substitute word [y] text := by
  induction text using reading_induction hword with
  | nothing =>
    rw [substitute_nil]
    exact fun h => hword (List.infix_nil.1 h)
  | whole rest ih =>
    rw [substitute_append hword, List.singleton_append]
    intro h
    rcases List.infix_cons_iff.1 h with hstarts | hinfix
    · cases word with
      | nil => exact hword rfl
      | cons l ls => exact List.ne_of_not_mem_cons hy (List.cons_prefix_cons.1 hstarts).1.symm
    · exact ih hinfix
  | letter x xs hx ih =>
    intro h
    by_cases hbegins : word <+: substitute word [y] (x :: xs)
    · exact hx (prefix_of_prefix_substitute hy hbegins)
    · rw [substitute_of_not_starts hx] at h hbegins
      exact ih ((List.infix_cons_iff.1 h).resolve_left hbegins)

/-- **No word is left** by words that are substituted one after the other, each by a letter that
    none of them has. -/
theorem not_infix_substituteAll {words : List (List α × List α)} {letters : List α}
    (hwords : ∀ pair ∈ words, pair.1 ≠ [] ∧ pair.2.length = 1 ∧ ∀ y ∈ pair.2, y ∉ letters)
    (text : List α) (h : letters ∈ words.map Prod.fst ∨ ¬ letters <:+: text) :
    ¬ letters <:+: substituteAll words text := by
  induction words generalizing text with
  | nil => exact h.resolve_left List.not_mem_nil
  | cons pair words ih =>
    obtain ⟨⟨hword, hone, himage⟩, hrest⟩ := List.forall_mem_cons.1 hwords
    obtain ⟨word, image⟩ := pair
    obtain ⟨y, rfl⟩ := List.length_eq_one_iff.1 hone
    have hy : y ∉ letters := himage y List.mem_cons_self
    show ¬ letters <:+: substituteAll words (substitute word [y] text)
    refine ih hrest _ ?_
    rcases h with hmem | hnot
    · rcases List.mem_cons.1 hmem with rfl | hmem
      · exact Or.inr (not_infix_substitute hword hy)
      · exact Or.inl hmem
    · exact Or.inr fun hinfix => hnot (infix_of_infix_substitute hword hy hinfix)

/-! ## Codes -/

/-- Names for some letters, to be written between a mark and a closing letter. -/
structure Names (α : Type) where
  mark : α
  closing : α
  name : α → Option (List α)
  /-- what a word is made of after its mark is written as itself -/
  plain : ∀ c n, name c = some n → ∀ x ∈ n ++ [closing], x ≠ mark ∧ name x = none
  closing_not_mem : ∀ c n, name c = some n → closing ∉ n
  injective : ∀ c d n, name c = some n → name d = some n → c = d

namespace Names

variable (names : Names α)

/-- The word of a name. -/
def spelling (n : List α) : List α := names.mark :: (n ++ [names.closing])

def code (c : α) : List α := (names.name c).elim [c] names.spelling

/-- The text with every letter that has a name written as its word, in one pass. -/
def encode (text : List α) : List α := text.flatMap names.code

/-- The same names but for one letter. -/
def erase (x : α) : Names α where
  mark := names.mark
  closing := names.closing
  name c := if c = x then none else names.name c
  plain c n hname y hy := by
    split at hname
    · cases hname
    · refine ⟨(names.plain c n hname y hy).1, ?_⟩
      split
      · rfl
      · exact (names.plain c n hname y hy).2
  closing_not_mem c n hname := by
    split at hname
    · cases hname
    · exact names.closing_not_mem c n hname
  injective c d n hc hd := by
    split at hc
    · cases hc
    · split at hd
      · cases hd
      · exact names.injective c d n hc hd

variable {names : Names α} {x c : α} {n : List α}

omit [DecidableEq α] in
theorem code_of_name (h : names.name c = some n) : names.code c = names.spelling n := by
  rw [code, h]
  rfl

omit [DecidableEq α] in
theorem code_of_none (h : names.name c = none) : names.code c = [c] := by
  rw [code, h]
  rfl

theorem code_erase_self : (names.erase x).code x = [x] := code_of_none (if_pos rfl)

theorem code_erase_of_ne (h : c ≠ x) : (names.erase x).code c = names.code c := by
  show ((if c = x then none else names.name c).elim [c] names.spelling) = _
  rw [if_neg h]
  rfl

omit [DecidableEq α] in
/-- A word that begins another word, and what comes after it, is that word. -/
theorem spelling_starts {c d : α} {m : List α} {rest : List α} (hc : names.name c = some n)
    (hd : names.name d = some m) (h : names.spelling n <+: names.spelling m ++ rest) : c = d := by
  have htail : n ++ [names.closing] <+: m ++ names.closing :: rest := by
    have happended : n ++ [names.closing] <+: (m ++ [names.closing]) ++ rest :=
      (List.cons_prefix_cons.1 h).2
    rwa [List.append_assoc, List.singleton_append] at happended
  -- the closing letter is where the two names end
  have hsame : ∀ {n m : List α}, names.closing ∉ n → names.closing ∉ m →
      n ++ [names.closing] <+: m ++ names.closing :: rest → n = m := by
    intro n
    induction n with
    | nil =>
      intro m _ hm h
      cases m with
      | nil => rfl
      | cons y ys =>
        have hhead := (List.cons_prefix_cons.1 h).1
        exact absurd (hhead ▸ List.mem_cons_self) hm
    | cons y ys ih =>
      intro m hn hm h
      rw [List.mem_cons, not_or] at hn
      cases m with
      | nil => exact absurd (List.cons_prefix_cons.1 h).1.symm hn.1
      | cons z zs =>
        rw [List.mem_cons, not_or] at hm
        obtain ⟨hhead, htail⟩ := List.cons_prefix_cons.1 h
        rw [hhead, ih hn.2 hm.2 htail]
  have hnm := hsame (names.closing_not_mem c n hc) (names.closing_not_mem d m hd) htail
  exact names.injective c d n hc (hnm ▸ hd)

/-- The word of a letter is not begun by the word of another letter, nor inside of it. -/
theorem substitute_code_append {d : α} {m image rest : List α} (hx : names.name x = some n)
    (hd : names.name d = some m) (hne : d ≠ x) :
    substitute (names.spelling n) image (names.code d ++ rest) =
      names.code d ++ substitute (names.spelling n) image rest := by
  have hnot : ¬ names.spelling n <+: names.mark :: ((m ++ [names.closing]) ++ rest) := by
    intro hstarts
    exact hne (spelling_starts hx hd hstarts).symm
  have hskip : names.mark ∉ m ++ [names.closing] := by
    intro hmem
    exact (names.plain d m hd _ hmem).1 rfl
  rw [code_of_name hd]
  show substitute (names.spelling n) image (names.mark :: ((m ++ [names.closing]) ++ rest)) = _
  rw [substitute_of_not_starts hnot, spelling, substitute_skip hskip]
  rfl

/-- A letter that is neither coded nor the mark is no beginning of a word. -/
theorem substitute_code_plain {d : α} {image rest : List α} (hd : names.name d = none)
    (hmark : d ≠ names.mark) :
    substitute (names.spelling n) image (names.code d ++ rest) =
      names.code d ++ substitute (names.spelling n) image rest := by
  have hnot : ¬ names.spelling n <+: d :: rest := by
    intro hstarts
    exact hmark (List.cons_prefix_cons.1 hstarts).1.symm
  rw [code_of_none hd]
  exact substitute_of_not_starts hnot

/-- **While the mark is coded**, substituting the word of a letter undoes the code of that letter
    and nothing else. -/
theorem substitute_encode_of_coded (hx : names.name x = some n)
    (hmark : names.name names.mark ≠ none) (text : List α) :
    substitute (names.spelling n) [x] (names.encode text) = (names.erase x).encode text := by
  have hword : names.spelling n ≠ [] := List.cons_ne_nil _ _
  induction text with
  | nil => exact substitute_nil
  | cons d text ih =>
    show substitute _ _ (names.code d ++ names.encode text) =
      (names.erase x).code d ++ (names.erase x).encode text
    by_cases hdx : d = x
    · subst hdx
      rw [code_of_name hx, substitute_append hword, ih, code_erase_self]
    · rw [code_erase_of_ne hdx, ← ih]
      cases hd : names.name d with
      | some m => exact substitute_code_append hx hd hdx
      | none =>
        refine substitute_code_plain hd ?_
        rintro rfl
        exact hmark hd

omit [DecidableEq α] in
/-- The rest of a word is in the coded text exactly when it was there before. -/
theorem plain_prefix_encode {letters : List α}
    (hletters : ∀ y ∈ letters, y ≠ names.mark ∧ names.name y = none) (text : List α) :
    letters <+: names.encode text ↔ letters <+: text := by
  induction letters generalizing text with
  | nil => simp
  | cons y ys ih =>
    obtain ⟨⟨hmark, hplain⟩, hrest⟩ := List.forall_mem_cons.1 hletters
    cases text with
    | nil => exact Iff.rfl
    | cons d text =>
      show y :: ys <+: names.code d ++ names.encode text ↔ _
      cases hd : names.name d with
      | some m =>
        rw [code_of_name hd]
        constructor
        · intro h
          exact absurd (List.cons_prefix_cons.1 h).1 hmark
        · intro h
          rw [(List.cons_prefix_cons.1 h).1, hd] at hplain
          cases hplain
      | none =>
        rw [code_of_none hd, List.singleton_append, List.cons_prefix_cons, List.cons_prefix_cons,
          ih hrest]

omit [DecidableEq α] in
theorem encode_plain {letters : List α} (hletters : ∀ y ∈ letters, names.name y = none) :
    names.encode letters = letters := by
  induction letters with
  | nil => rfl
  | cons y ys ih =>
    obtain ⟨hplain, hrest⟩ := List.forall_mem_cons.1 hletters
    show names.code y ++ names.encode ys = _
    rw [code_of_none hplain, ih hrest]
    rfl

omit [DecidableEq α] in
theorem encode_append (first second : List α) :
    names.encode (first ++ second) = names.encode first ++ names.encode second :=
  List.flatMap_append

/-- **Once the mark is written as itself**, substituting the word of a letter undoes the code of
    that letter, and besides substitutes the words that were in the text. -/
theorem substitute_encode_of_plain (hx : names.name x = some n)
    (hmark : names.name names.mark = none) (text : List α) :
    substitute (names.spelling n) [x] (names.encode text) =
      (names.erase x).encode (substitute (names.spelling n) [x] text) := by
  have hword : names.spelling n ≠ [] := List.cons_ne_nil _ _
  have hletters := names.plain x n hx
  induction text using reading_induction hword with
  | nothing =>
    show substitute _ _ [] = _
    rw [substitute_nil]
    rfl
  | whole rest ih =>
    -- the word was there before: here, and in the coded text
    have hcoded : names.encode (names.spelling n ++ rest) =
        names.spelling n ++ names.encode rest := by
      have hmarkCode : names.code names.mark = [names.mark] := code_of_none hmark
      show names.code names.mark ++ names.encode ((n ++ [names.closing]) ++ rest) = _
      rw [hmarkCode, encode_append, encode_plain fun y hy => (hletters y hy).2]
      rfl
    rw [hcoded, substitute_append hword, substitute_append hword, ih, encode_append]
    congr 1
    exact (List.append_nil _).symm.trans (congrArg (· ++ []) code_erase_self.symm)
  | letter d text hbegins ih =>
    rw [substitute_of_not_starts hbegins]
    show substitute _ _ (names.code d ++ names.encode text) =
      (names.erase x).code d ++ (names.erase x).encode _
    rw [← ih]
    by_cases hdx : d = x
    · subst hdx
      rw [code_of_name hx, substitute_append hword, code_erase_self]
    · rw [code_erase_of_ne hdx]
      cases hd : names.name d with
      | some m => exact substitute_code_append hx hd hdx
      | none =>
        by_cases hdm : d = names.mark
        · -- a mark, but no word: what is coded cannot make one of it
          have hnot : ¬ names.spelling n <+: d :: names.encode text := by
            intro hstarts
            obtain ⟨hhead, htail⟩ := List.cons_prefix_cons.1 hstarts
            rw [plain_prefix_encode hletters] at htail
            exact hbegins (List.cons_prefix_cons.2 ⟨hhead, htail⟩)
          rw [code_of_none hd]
          exact substitute_of_not_starts hnot
        · exact substitute_code_plain hd hdm

/-- The same names but for those of some words. -/
def eraseAll (names : Names α) (words : List (List α × α)) : Names α :=
  words.foldl (fun names word => names.erase word.2) names

/-- The words of some letters. -/
def spellings (names : Names α) (words : List (List α × α)) : List (List α × List α) :=
  words.map fun word => (names.spelling word.1, [word.2])

/-- **One word after the other**, once the mark is written as itself: the code of these letters is
    undone, and besides their words are substituted in the text. -/
theorem substituteAll_encode {words : List (List α × α)}
    (hwords : ∀ word ∈ words, names.name word.2 = some word.1)
    (hnodup : (words.map Prod.snd).Nodup) (hmark : names.name names.mark = none) (text : List α) :
    substituteAll (names.spellings words) (names.encode text) =
      (names.eraseAll words).encode (substituteAll (names.spellings words) text) := by
  induction words generalizing names text with
  | nil => rfl
  | cons word words ih =>
    obtain ⟨hword, hrest⟩ := List.forall_mem_cons.1 hwords
    obtain ⟨hnew, hnodup⟩ := List.nodup_cons.1 hnodup
    have hmark' : (names.erase word.2).name names.mark = none := by
      show (if names.mark = word.2 then none else names.name names.mark) = none
      rw [hmark, ite_self]
    have hrest' : ∀ other ∈ words, (names.erase word.2).name other.2 = some other.1 := by
      intro other hmem
      have hne : other.2 ≠ word.2 := by
        intro heq
        exact hnew (heq ▸ List.mem_map_of_mem hmem)
      exact (if_neg hne).trans (hrest other hmem)
    show substituteAll (names.spellings words)
      (substitute (names.spelling word.1) [word.2] (names.encode text)) = _
    rw [substitute_encode_of_plain hword hmark]
    exact ih hrest' hnodup hmark' (substitute (names.spelling word.1) [word.2] text)

end Names

end Substitution
