/-
  Regular expressions with backtracking.

  A pattern is a list of nodes, matched one after the other: so many characters of a class, greedy
  or lazy, with a group that keeps them or without; what a group has kept, once more; a word
  boundary; the two ends of the text.  There are no alternatives and no repeated groups.

  1. **The engine** (`run`).  A node tries what it can take in order of preference, the longest
     first when it is greedy and the shortest first when it is lazy, and the first choice with which
     the rest of the pattern succeeds is taken.  `exec` is the first match from the left, `matchAll`
     is one match after the other.
  2. **The language** (`Spells`, `Occurs`).  What a pattern describes, with no order of preference.

  The crux is that order decides WHICH match is found and never WHETHER one is: `run_isSome_iff`,
  and with it `exec_isSome_iff` and `matchAll_eq_nil_iff`.
-/
import Mathlib.Data.List.Basic
import Mathlib.Data.Nat.Notation

namespace Regex

/-! ## Patterns -/

inductive Node (α γ : Type)
  /-- at least `min` and at most `max` characters of a class -/
  | chars (cls : α → Bool) (min : ℕ) (max : Option ℕ) (greedy : Bool) (group : Option γ)
  | backref (group : γ)
  | boundary (isWord : α → Bool)
  | start
  | stop

abbrev Pattern (α γ : Type) : Type := List (Node α γ)

section Nodes

variable {α γ : Type}

/-- One character of a class. -/
def one (cls : α → Bool) (group : Option γ) : Node α γ := .chars cls 1 (some 1) true group

def exactly (count : ℕ) (cls : α → Bool) (group : Option γ) : Node α γ :=
  .chars cls count (some count) true group

/-- `*` -/
def many (cls : α → Bool) (group : Option γ) : Node α γ := .chars cls 0 none true group

/-- `*?` -/
def few (cls : α → Bool) (group : Option γ) : Node α γ := .chars cls 0 none false group

/-- `+` -/
def some1 (cls : α → Bool) (group : Option γ) : Node α γ := .chars cls 1 none true group

end Nodes

variable {α γ : Type}

/-! ## Cursors -/

/-- A place in a text, with what the groups have kept so far. -/
structure Cursor (α γ : Type) where
  /-- the character before, unless this is the start of the text -/
  before : Option α := none
  rest : List α
  groups : List (γ × List α) := []

namespace Cursor

def advance (c : Cursor α γ) (n : ℕ) : Cursor α γ :=
  { c with before := (c.rest.take n).getLast?.or c.before, rest := c.rest.drop n }

def capture (c : Cursor α γ) (group : Option γ) (n : ℕ) : Cursor α γ :=
  match group with
  | none => c
  | some group => { c with groups := (group, c.rest.take n) :: c.groups }

def atBoundary (isWord : α → Bool) (c : Cursor α γ) : Bool :=
  c.before.any isWord != c.rest.head?.any isWord

/-- What a group has kept; a group that has not been reached has kept nothing. -/
def kept [DecidableEq γ] (c : Cursor α γ) (group : γ) : List α := (c.groups.lookup group).getD []

end Cursor

/-! ## The engine -/

/-- How many characters a node may take here, in its order of preference. -/
def lengths (cls : α → Bool) (min : ℕ) (max : Option ℕ) (greedy : Bool) (rest : List α) : List ℕ :=
  let possible := (List.range ((rest.takeWhile cls).length + 1)).filter fun n =>
    min ≤ n && max.all (n ≤ ·)
  if greedy then possible.reverse else possible

variable [DecidableEq α] [DecidableEq γ]

/-- The pattern from this place on, and where it ends. -/
def run : Pattern α γ → Cursor α γ → Option (Cursor α γ)
  | [], c => some c
  | .chars cls min max greedy group :: pattern, c =>
    (lengths cls min max greedy c.rest).findSome? fun n =>
      run pattern ((c.capture group n).advance n)
  | .backref group :: pattern, c =>
    if (c.kept group).isPrefixOf c.rest then run pattern (c.advance (c.kept group).length) else none
  | .boundary isWord :: pattern, c => if c.atBoundary isWord then run pattern c else none
  | .start :: pattern, c => if c.before.isNone then run pattern c else none
  | .stop :: pattern, c => if c.rest.isEmpty then run pattern c else none

/-- A match in a text. -/
structure Match (α γ : Type) where
  before : List α
  text : List α
  after : List α
  groups : List (γ × List α)

/-- What a group has kept. -/
def Match.group? (m : Match α γ) (group : γ) : Option (List α) := m.groups.lookup group

/-- A match that begins right here. -/
def matchAt (pattern : Pattern α γ) (before : Option α) (text : List α) : Option (Match α γ) :=
  (run pattern { before, rest := text }).map fun c =>
    { before := [], text := text.take (text.length - c.rest.length), after := c.rest
      groups := c.groups }

/-- **The first match** from the left. -/
def exec (pattern : Pattern α γ) : Option α → List α → Option (Match α γ)
  | before, [] => matchAt pattern before []
  | before, x :: xs =>
    match matchAt pattern before (x :: xs) with
    | some m => some m
    | none => (exec pattern (some x) xs).map fun m => { m with before := x :: m.before }

/-- One match after the other, at most `fuel` of them; for a pattern that takes a character. -/
def matches' (pattern : Pattern α γ) : ℕ → Option α → List α → List (Match α γ)
  | 0, _, _ => []
  | fuel + 1, before, text =>
    match exec pattern before text with
    | none => []
    | some m => m :: matches' pattern fuel ((m.before ++ m.text).getLast?.or before) m.after

/-- **All matches**: there are no more of them than there are characters. -/
def matchAll (pattern : Pattern α γ) (text : List α) : List (Match α γ) :=
  matches' pattern (text.length + 1) none text

/-- The text with every match replaced. -/
def replaceAll (pattern : Pattern α γ) (replacement text : List α) : List α :=
  let found := matchAll pattern text
  (found.flatMap fun m => m.before ++ replacement) ++
    (found.getLast?.elim text fun m => m.after)

/-! ## The language -/

/-- The pattern describes what lies between two places. -/
inductive Spells : Pattern α γ → Cursor α γ → Cursor α γ → Prop
  | nil (c : Cursor α γ) : Spells [] c c
  | chars {cls : α → Bool} {min : ℕ} {max : Option ℕ} {greedy : Bool} {group : Option γ}
      {pattern : Pattern α γ} {c c' : Cursor α γ} (n : ℕ)
      (hcls : n ≤ (c.rest.takeWhile cls).length) (hmin : min ≤ n) (hmax : ∀ m ∈ max, n ≤ m)
      (hrest : Spells pattern ((c.capture group n).advance n) c') :
      Spells (.chars cls min max greedy group :: pattern) c c'
  | backref {group : γ} {pattern : Pattern α γ} {c c' : Cursor α γ}
      (hkept : c.kept group <+: c.rest)
      (hrest : Spells pattern (c.advance (c.kept group).length) c') :
      Spells (.backref group :: pattern) c c'
  | boundary {isWord : α → Bool} {pattern : Pattern α γ} {c c' : Cursor α γ}
      (hboundary : c.atBoundary isWord = true) (hrest : Spells pattern c c') :
      Spells (.boundary isWord :: pattern) c c'
  | start {pattern : Pattern α γ} {c c' : Cursor α γ} (hstart : c.before = none)
      (hrest : Spells pattern c c') : Spells (.start :: pattern) c c'
  | stop {pattern : Pattern α γ} {c c' : Cursor α γ} (hstop : c.rest = [])
      (hrest : Spells pattern c c') : Spells (.stop :: pattern) c c'

/-- Some part of the text is described by the pattern. -/
def Occurs (pattern : Pattern α γ) (before : Option α) (text : List α) : Prop :=
  ∃ skipped rest c', text = skipped ++ rest ∧
    Spells pattern { before := skipped.getLast?.or before, rest } c'

omit [DecidableEq α] [DecidableEq γ] in
theorem mem_lengths {cls : α → Bool} {min : ℕ} {max : Option ℕ} {greedy : Bool} {rest : List α}
    {n : ℕ} : n ∈ lengths cls min max greedy rest ↔
      n ≤ (rest.takeWhile cls).length ∧ min ≤ n ∧ ∀ m ∈ max, n ≤ m := by
  have hpossible : n ∈ lengths cls min max greedy rest ↔
      n ∈ (List.range ((rest.takeWhile cls).length + 1)).filter fun n =>
        min ≤ n && max.all (n ≤ ·) := by
    unfold lengths
    cases greedy with
    | true => exact List.mem_reverse
    | false => exact Iff.rfl
  rw [hpossible, List.mem_filter, List.mem_range, Nat.lt_succ_iff]
  cases max <;> simp

variable {pattern : Pattern α γ} {c c' : Cursor α γ}

/-- What the engine finds is described. -/
theorem spells_of_run (h : run pattern c = some c') : Spells pattern c c' := by
  -- along the pattern; a node that is passed is spelled by what the rest starts from
  induction pattern generalizing c with
  | nil =>
    cases h
    exact .nil _
  | cons node pattern ih =>
    cases node with
    | chars cls min max greedy group =>
      obtain ⟨n, hn, hrun⟩ := List.exists_of_findSome?_eq_some h
      obtain ⟨hcls, hmin, hmax⟩ := mem_lengths.1 hn
      exact .chars n hcls hmin hmax (ih hrun)
    | backref group =>
      rw [run] at h
      split at h
      · rename_i hkept
        exact .backref (List.isPrefixOf_iff_prefix.1 hkept) (ih h)
      · cases h
    | boundary isWord =>
      rw [run] at h
      split at h
      · rename_i hboundary
        exact .boundary hboundary (ih h)
      · cases h
    | start =>
      rw [run] at h
      split at h
      · rename_i hstart
        exact .start (Option.isNone_iff_eq_none.1 hstart) (ih h)
      · cases h
    | stop =>
      rw [run] at h
      split at h
      · rename_i hstop
        exact .stop (List.isEmpty_iff.1 hstop) (ih h)
      · cases h

/-- What is described, the engine finds, or something it prefers. -/
theorem run_of_spells (h : Spells pattern c c') : (run pattern c).isSome := by
  induction h with
  | nil c => rfl
  | chars n hcls hmin hmax _ ih =>
    rw [run, List.findSome?_isSome_iff]
    exact ⟨n, mem_lengths.2 ⟨hcls, hmin, hmax⟩, ih⟩
  | backref hkept _ ih =>
    rw [run, if_pos (List.isPrefixOf_iff_prefix.2 hkept)]
    exact ih
  | boundary hboundary _ ih =>
    rw [run, if_pos hboundary]
    exact ih
  | start hstart _ ih =>
    rw [run, if_pos (Option.isNone_iff_eq_none.2 hstart)]
    exact ih
  | stop hstop _ ih =>
    rw [run, if_pos (List.isEmpty_iff.2 hstop)]
    exact ih

/-- The group a node keeps its characters as. -/
def Node.group? : Node α γ → Option γ
  | .chars _ _ _ _ group => group
  | _ => none

omit [DecidableEq α] in
/-- What is described keeps every group of the pattern. -/
theorem Spells.kept (h : Spells pattern c c') {group : γ}
    (hgroup : (∃ node ∈ pattern, node.group? = some group) ∨ (c.groups.lookup group).isSome) :
    (c'.groups.lookup group).isSome := by
  -- a node without a group keeps nothing
  have hskip : ∀ {node : Node α γ} {pattern : Pattern α γ} {c : Cursor α γ},
      node.group? = none →
      (∃ node' ∈ node :: pattern, node'.group? = some group) ∨ (c.groups.lookup group).isSome →
      (∃ node' ∈ pattern, node'.group? = some group) ∨ (c.groups.lookup group).isSome := by
    rintro node pattern c hnone (⟨node', hmem, hnode⟩ | hkept)
    · rcases List.mem_cons.1 hmem with rfl | hmem
      · rw [hnone] at hnode
        cases hnode
      · exact Or.inl ⟨node', hmem, hnode⟩
    · exact Or.inr hkept
  induction h with
  | nil c =>
    rcases hgroup with ⟨node, hnode, _⟩ | hkept
    · exact absurd hnode List.not_mem_nil
    · exact hkept
  | @chars cls min max greedy own pattern c c' n _ _ _ _ ih =>
    refine ih ?_
    rcases hgroup with ⟨node, hmem, hnode⟩ | hkept
    · rcases List.mem_cons.1 hmem with rfl | hmem
      · obtain rfl : own = some group := hnode
        exact Or.inr (by simp [Cursor.capture, Cursor.advance])
      · exact Or.inl ⟨node, hmem, hnode⟩
    · refine Or.inr ?_
      cases own with
      | none => exact hkept
      | some own =>
        show (((own, c.rest.take n) :: c.groups).lookup group).isSome
        rw [List.lookup_cons]
        split
        · rfl
        · exact hkept
  | backref _ _ ih => exact ih (hskip rfl hgroup)
  | boundary _ _ ih => exact ih (hskip rfl hgroup)
  | start _ _ ih => exact ih (hskip rfl hgroup)
  | stop _ _ ih => exact ih (hskip rfl hgroup)

/-- **The engine fails exactly where nothing is described.** -/
theorem run_isSome_iff : (run pattern c).isSome ↔ ∃ c', Spells pattern c c' := by
  constructor
  · intro h
    obtain ⟨c', hrun⟩ := Option.isSome_iff_exists.1 h
    exact ⟨c', spells_of_run hrun⟩
  · rintro ⟨c', h⟩
    exact run_of_spells h

theorem matchAt_isSome {before : Option α} {text : List α} :
    (matchAt pattern before text).isSome ↔ ∃ c', Spells pattern { before, rest := text } c' := by
  unfold matchAt
  rw [Option.isSome_map]
  exact run_isSome_iff

omit [DecidableEq α] in
theorem or_getLast?_cons (x : α) (skipped : List α) (before : Option α) :
    (x :: skipped).getLast?.or before = skipped.getLast?.or (some x) := by
  rw [List.getLast?_cons]
  cases skipped.getLast? <;> rfl

omit [DecidableEq α] in
/-- An occurrence begins here, or after the first character. -/
theorem occurs_cons {before : Option α} {x : α} {xs : List α} :
    Occurs pattern before (x :: xs) ↔
      (∃ c', Spells pattern { before, rest := x :: xs } c') ∨ Occurs pattern (some x) xs := by
  constructor
  · rintro ⟨skipped, rest, c', htext, h⟩
    cases skipped with
    | nil =>
      obtain rfl : x :: xs = rest := htext
      exact Or.inl ⟨c', h⟩
    | cons y ys =>
      obtain ⟨rfl, rfl⟩ := List.cons_eq_cons.1 htext
      rw [or_getLast?_cons] at h
      exact Or.inr ⟨ys, rest, c', rfl, h⟩
  · rintro (⟨c', h⟩ | ⟨skipped, rest, c', rfl, h⟩)
    · exact ⟨[], x :: xs, c', rfl, h⟩
    · rw [← or_getLast?_cons x skipped before] at h
      exact ⟨x :: skipped, rest, c', rfl, h⟩

/-- **A search finds a match exactly where there is an occurrence.** -/
theorem exec_isSome_iff {before : Option α} {text : List α} :
    (exec pattern before text).isSome ↔ Occurs pattern before text := by
  induction text generalizing before with
  | nil =>
    rw [exec, matchAt_isSome]
    constructor
    · rintro ⟨c', h⟩
      exact ⟨[], [], c', rfl, h⟩
    · rintro ⟨skipped, rest, c', htext, h⟩
      obtain ⟨rfl, rfl⟩ := List.append_eq_nil_iff.1 htext.symm
      exact ⟨c', h⟩
  | cons x xs ih =>
    rw [occurs_cons, ← matchAt_isSome, ← ih, exec]
    cases matchAt pattern before (x :: xs) with
    | none => simp
    | some m => simp

/-- A match has kept every group of the pattern. -/
theorem group?_isSome_of_exec {before : Option α} {text : List α} {m : Match α γ} {group : γ}
    (hgroup : ∃ node ∈ pattern, node.group? = some group)
    (h : exec pattern before text = some m) : (m.group? group).isSome := by
  have hat : ∀ {before : Option α} {text : List α} {m : Match α γ},
      matchAt pattern before text = some m → (m.group? group).isSome := by
    intro before text m h
    obtain ⟨c', hrun, rfl⟩ := Option.map_eq_some_iff.1 h
    exact (spells_of_run hrun).kept (Or.inl hgroup)
  induction text generalizing before m with
  | nil => exact hat h
  | cons x xs ih =>
    rw [exec] at h
    split at h
    · rename_i m' hm
      cases h
      exact hat hm
    · obtain ⟨m', hexec, rfl⟩ := Option.map_eq_some_iff.1 h
      show (m'.group? group).isSome
      exact ih hexec

/-- What a node may keep as a group is of a length that `P` allows the group. -/
def Node.KeepsLengths (P : γ → ℕ → Prop) : Node α γ → Prop
  | .chars _ min max _ (some group) => ∀ n, min ≤ n → (∀ m ∈ max, n ≤ m) → P group n
  | _ => True

omit [DecidableEq α] in
/-- What is kept is as long as the nodes of the pattern want it. -/
theorem Spells.group_length {P : γ → ℕ → Prop} (h : Spells pattern c c')
    (hnodes : ∀ node ∈ pattern, node.KeepsLengths P)
    (hkept : ∀ entry ∈ c.groups, P entry.1 entry.2.length) :
    ∀ entry ∈ c'.groups, P entry.1 entry.2.length := by
  induction h with
  | nil c => exact hkept
  | @chars cls min max greedy own pattern c c' n hcls hmin hmax _ ih =>
    obtain ⟨hnode, hrest⟩ := List.forall_mem_cons.1 hnodes
    refine ih hrest ?_
    cases own with
    | none => exact hkept
    | some own =>
      intro entry hentry
      rcases List.mem_cons.1 hentry with rfl | hentry
      · have hlength : (c.rest.take n).length = n :=
          List.length_take_of_le (Nat.le_trans hcls (List.takeWhile_prefix cls).length_le)
        show P own (c.rest.take n).length
        rw [hlength]
        exact hnode n hmin hmax
      · exact hkept entry hentry
  | backref _ _ ih => exact ih (List.forall_mem_cons.1 hnodes).2 hkept
  | boundary _ _ ih => exact ih (List.forall_mem_cons.1 hnodes).2 hkept
  | start _ _ ih => exact ih (List.forall_mem_cons.1 hnodes).2 hkept
  | stop _ _ ih => exact ih (List.forall_mem_cons.1 hnodes).2 hkept

/-- The groups of a match are as long as the nodes of the pattern want them. -/
theorem group_length_of_exec {P : γ → ℕ → Prop} {before : Option α} {text : List α}
    {m : Match α γ} (hnodes : ∀ node ∈ pattern, node.KeepsLengths P)
    (h : exec pattern before text = some m) : ∀ entry ∈ m.groups, P entry.1 entry.2.length := by
  have hat : ∀ {before : Option α} {text : List α} {m : Match α γ},
      matchAt pattern before text = some m → ∀ entry ∈ m.groups, P entry.1 entry.2.length := by
    intro before text m h
    obtain ⟨c', hrun, rfl⟩ := Option.map_eq_some_iff.1 h
    exact (spells_of_run hrun).group_length hnodes fun _ hmem => absurd hmem List.not_mem_nil
  induction text generalizing before m with
  | nil => exact hat h
  | cons x xs ih =>
    rw [exec] at h
    split at h
    · rename_i m' hm
      cases h
      exact hat hm
    · obtain ⟨m', hexec, rfl⟩ := Option.map_eq_some_iff.1 h
      show ∀ entry ∈ m'.groups, P entry.1 entry.2.length
      exact ih hexec

/-- **There are no matches exactly where there is no occurrence.** -/
theorem matchAll_eq_nil_iff {text : List α} :
    matchAll pattern text = [] ↔ ¬ Occurs pattern none text := by
  rw [← exec_isSome_iff]
  unfold matchAll matches'
  cases exec pattern none text with
  | none => simp
  | some m => simp

end Regex
