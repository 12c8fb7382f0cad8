/-
  Slugs, and the keys made of them (`src/checkpoint/object-key.ts`).

  A slug is made of a text by two regular expressions: every run of characters outside `[a-z0-9._-]`
  becomes one dash, and the dashes at both ends are dropped.

  1. **What is left** (`slugOf_eq_empty_iff`).  Only what is neither a dash nor replaced by one keeps
     a slug from being empty.
  2. **Which keys exist** (`toCheckpointObjectKey_isOk_iff`).  A slug is always safe, so the prefix
     decides, and whether there is a slug.
  3. **Which texts share a slug** (`sameName_iff`).  Those that are the same between their first and
     their last character that is left, but for what stands for a dash there: a dash itself, or a
     whole run of characters outside the class (`SameDashed`).  The crux is one way of reading a text
     (`read_dashUnsafeRuns`): its head is either left as it is, or a piece of it stands for one dash.
-/
import ReplaysFetcher.CheckpointStore
import Mathlib.Data.List.TakeWhile

namespace ReplaysFetcher

/-! ## Slugs -/

/-- A character that stays in a slug, wherever it stands. -/
def IsSlugChar (c : Char) : Prop := isSafeSlugChar c = true ∧ c ≠ '-'

/-- Only dashes are trimmed to nothing. -/
theorem trimDashes_eq_nil_iff (cs : List Char) : trimDashes cs = [] ↔ ∀ c ∈ cs, c = '-' := by
  unfold trimDashes
  rw [List.reverse_eq_nil_iff, List.dropWhile_eq_nil_iff]
  constructor
  · intro h c hc
    by_contra hne
    -- a character that is not dropped from the left is not dropped from the right
    have hkept : c ∈ cs.dropWhile (· = '-') := by
      rw [← List.takeWhile_append_dropWhile (p := (· = '-')) (l := cs)] at hc
      rcases List.mem_append.1 hc with htake | hdrop
      · have hdash := List.mem_takeWhile_imp htake
        exact absurd (of_decide_eq_true hdash) hne
      · exact hdrop
    exact hne (of_decide_eq_true (h c (List.mem_reverse.2 hkept)))
  · intro h c hc
    have hmem := (List.dropWhile_sublist _).subset (List.mem_reverse.1 hc)
    exact decide_eq_true (h c hmem)

/-- What is left was there. -/
theorem mem_trimDashes {cs : List Char} {c : Char} (h : c ∈ trimDashes cs) : c ∈ cs := by
  unfold trimDashes at h
  have hmem := (List.dropWhile_sublist _).subset (List.mem_reverse.1 h)
  exact (List.dropWhile_sublist _).subset (List.mem_reverse.1 hmem)

/-- What comes out is safe: a dash, or a character of the text. -/
theorem mem_dashUnsafeRuns {cs : List Char} {c : Char} (inRun : Bool)
    (h : c ∈ dashUnsafeRuns inRun cs) : isSafeSlugChar c = true ∧ (c = '-' ∨ c ∈ cs) := by
  induction cs generalizing inRun with
  | nil => cases h
  | cons d cs ih =>
    have hlater : ∀ inRun, c ∈ dashUnsafeRuns inRun cs →
        isSafeSlugChar c = true ∧ (c = '-' ∨ c ∈ d :: cs) := by
      intro inRun h
      obtain ⟨hsafe, hmem⟩ := ih inRun h
      exact ⟨hsafe, hmem.imp_right (List.mem_cons_of_mem d)⟩
    rw [dashUnsafeRuns] at h
    split at h
    · rename_i hd
      rcases List.mem_cons.1 h with rfl | h
      · exact ⟨hd, Or.inr List.mem_cons_self⟩
      · exact hlater false h
    · split at h
      · exact hlater true h
      · rcases List.mem_cons.1 h with rfl | h
        · exact ⟨by decide, Or.inl rfl⟩
        · exact hlater true h

/-- A safe character of the text comes out. -/
theorem mem_dashUnsafeRuns_of_safe {cs : List Char} {c : Char} (inRun : Bool)
    (hsafe : isSafeSlugChar c = true) (h : c ∈ cs) : c ∈ dashUnsafeRuns inRun cs := by
  induction cs generalizing inRun with
  | nil => cases h
  | cons d cs ih =>
    rw [dashUnsafeRuns]
    rcases List.mem_cons.1 h with rfl | h
    · rw [if_pos hsafe]
      exact List.mem_cons_self
    · split
      · exact List.mem_cons_of_mem d (ih false h)
      · split
        · exact ih true h
        · exact List.mem_cons_of_mem '-' (ih true h)

/-- Nothing is left exactly of a text in which nothing stays. -/
theorem trimDashes_dashUnsafeRuns_eq_nil_iff (cs : List Char) :
    trimDashes (dashUnsafeRuns false cs) = [] ↔ ∀ c ∈ cs, ¬ IsSlugChar c := by
  rw [trimDashes_eq_nil_iff]
  constructor
  · rintro h c hc ⟨hsafe, hne⟩
    exact hne (h c (mem_dashUnsafeRuns_of_safe false hsafe hc))
  · intro h c hc
    by_contra hne
    obtain ⟨hsafe, hmem⟩ := mem_dashUnsafeRuns false hc
    exact h c (hmem.resolve_left hne) ⟨hsafe, hne⟩

/-- The slug of a text. -/
def slugOf (text : String) : String :=
  String.ofList (trimDashes (dashUnsafeRuns false (text.toList.map Char.toLower)))

/-- **A slug is empty** exactly when the text has nothing that stays in it. -/
theorem slugOf_eq_empty_iff (text : String) :
    slugOf text = "" ↔ ∀ c ∈ text.toList, ¬ IsSlugChar c.toLower := by
  have hempty : slugOf text = "" ↔
      trimDashes (dashUnsafeRuns false (text.toList.map Char.toLower)) = [] := by
    unfold slugOf
    rw [← String.toList_inj, String.toList_ofList]
    rfl
  rw [hempty, trimDashes_dashUnsafeRuns_eq_nil_iff, List.forall_mem_map]

/-- A slug has safe characters only. -/
theorem safe_of_mem_slugOf {text : String} {c : Char} (h : c ∈ (slugOf text).toList) :
    isSafeSlugChar c = true := by
  unfold slugOf at h
  rw [String.toList_ofList] at h
  exact (mem_dashUnsafeRuns false (mem_trimDashes h)).1

/-! ## Keys -/

/-- A prefix that a key can have. -/
def SafePrefix (keyPrefix : String) : Prop :=
  keyPrefix ≠ "" ∧ ∀ c ∈ keyPrefix.toList, isSafeSlugChar c = true ∨ c = '/'

/-- **A key is safe exactly when its prefix is**, whatever the slug was made of. -/
theorem isS3SafeKey_iff {keyPrefix text name : String} (hstarts : keyPrefix ≠ "")
    (hname : ∀ c ∈ name.toList, isSafeSlugChar c = true ∨ c = '/') :
    isS3SafeKey (keyPrefix ++ "/" ++ slugOf text ++ name) = true ↔ SafePrefix keyPrefix := by
  have hne : keyPrefix ++ "/" ++ slugOf text ++ name ≠ "" := by
    intro h
    have hlength := congrArg String.length h
    simp only [String.length_append] at hlength
    have hslash : "/".length = 1 := rfl
    have hzero : "".length = 0 := rfl
    omega
  unfold isS3SafeKey
  rw [Bool.and_eq_true, List.all_eq_true]
  simp only [String.toList_append, List.mem_append, Bool.or_eq_true, decide_eq_true_eq]
  constructor
  · intro h
    exact ⟨hstarts, fun c hc => h.2 c (Or.inl (Or.inl (Or.inl hc)))⟩
  · intro h
    refine ⟨hne, ?_⟩
    rintro c (((hc | hc) | hc) | hc)
    · exact h.2 c hc
    · obtain rfl := List.mem_singleton.1 hc
      exact Or.inr rfl
    · exact Or.inl (safe_of_mem_slugOf hc)
    · exact hname c hc

/-- The two functions that build keys have the same guards. -/
theorem guarded_isOk_iff {keyPrefix slug key empty noSlug unsafeKey : String} :
    (∃ built, (if keyPrefix = "" then .error (.error empty)
      else if slug = "" then .error (.error noSlug)
      else if isS3SafeKey key then .ok key
      else .error (.error unsafeKey) : Except JsError String) = .ok built) ↔
      keyPrefix ≠ "" ∧ slug ≠ "" ∧ isS3SafeKey key = true := by
  constructor
  · rintro ⟨built, hbuilt⟩
    split at hbuilt
    · cases hbuilt
    · rename_i hstarts
      split at hbuilt
      · cases hbuilt
      · rename_i hslug
        split at hbuilt
        · rename_i hsafe
          exact ⟨hstarts, hslug, hsafe⟩
        · cases hbuilt
  · rintro ⟨hstarts, hslug, hsafe⟩
    rw [if_neg hstarts, if_neg hslug, if_pos hsafe]
    exact ⟨key, rfl⟩

/-- A key is built exactly from a safe prefix and a source that has a slug. -/
theorem toCheckpointObjectKey_isOk_iff (keyPrefix : String) (url : Url) :
    (∃ key, toCheckpointObjectKey keyPrefix url = .ok key) ↔
      SafePrefix keyPrefix ∧ toSourceSlug url ≠ "" := by
  unfold toCheckpointObjectKey
  rw [guarded_isOk_iff]
  have hname : ∀ c ∈ "/latest.json".toList, isSafeSlugChar c = true ∨ c = '/' := by
    simp [isSafeSlugChar]
  constructor
  · rintro ⟨hstarts, hslug, hsafe⟩
    exact ⟨(isS3SafeKey_iff hstarts hname).1 hsafe, hslug⟩
  · rintro ⟨hsafe, hslug⟩
    exact ⟨hsafe.1, hslug, (isS3SafeKey_iff hsafe.1 hname).2 hsafe⟩


/-! ## Texts with one slug -/

/-- `piece` stands for one dash before `rest`: it is a dash, or a run of characters outside
    `[a-z0-9._-]` that does not go on in `rest`. -/
def StandsForDash (piece rest : List Char) : Prop :=
  piece = ['-'] ∨
    (piece ≠ [] ∧ (∀ c ∈ piece, isSafeSlugChar c = false) ∧
      ∀ c ∈ rest.head?, isSafeSlugChar c = true)

/-- The texts are the same, but for the pieces that stand for a dash in each. -/
inductive SameDashed : List Char → List Char → Prop
  | nil : SameDashed [] []
  | keep {c : Char} {s t : List Char} : IsSlugChar c → SameDashed s t → SameDashed (c :: s) (c :: t)
  | dash {p q s t : List Char} :
      StandsForDash p s → StandsForDash q t → SameDashed s t → SameDashed (p ++ s) (q ++ t)

/-- `core` is the text from its first to its last character that stays in a slug. -/
structure IsCore (text core : List Char) : Prop where
  around : ∃ before after, text = before ++ core ++ after ∧
    (∀ c ∈ before, ¬ IsSlugChar c) ∧ ∀ c ∈ after, ¬ IsSlugChar c
  first : ∃ c ∈ core.head?, IsSlugChar c
  last : ∃ c ∈ core.getLast?, IsSlugChar c

/-- **One name for two texts**: dashes and what becomes a dash do not count at their ends, and
    between them only as dashes. -/
def SameName (a b : List Char) : Prop :=
  ∃ core core', IsCore a core ∧ IsCore b core' ∧ SameDashed core core'

instance (c : Char) : Decidable (IsSlugChar c) := by
  unfold IsSlugChar
  infer_instance

section Reading

variable {s t piece rest text core : List Char} {c : Char}

/-- The rest of a run adds nothing to its dash. -/
theorem dashUnsafeRuns_run (hrun : ∀ c ∈ piece, isSafeSlugChar c = false)
    (hrest : ∀ c ∈ rest.head?, isSafeSlugChar c = true) :
    dashUnsafeRuns true (piece ++ rest) = dashUnsafeRuns false rest := by
  induction piece with
  | nil =>
    cases rest with
    | nil => rfl
    | cons d rest =>
      have hd : isSafeSlugChar d = true := hrest d rfl
      rw [List.nil_append, dashUnsafeRuns, dashUnsafeRuns, if_pos hd, if_pos hd]
  | cons d piece ih =>
    have hd : ¬ isSafeSlugChar d = true := by
      rw [hrun d List.mem_cons_self]
      exact Bool.false_ne_true
    rw [List.cons_append, dashUnsafeRuns, if_neg hd, if_pos rfl]
    exact ih fun c hc => hrun c (List.mem_cons_of_mem d hc)

/-- A dash stands for something. -/
theorem StandsForDash.ne_nil (h : StandsForDash piece rest) : piece ≠ [] := by
  rcases h with rfl | ⟨hne, _⟩
  · exact List.cons_ne_nil _ _
  · exact hne

/-- What stands for a dash becomes one. -/
theorem StandsForDash.dashUnsafeRuns_append (h : StandsForDash piece rest) :
    dashUnsafeRuns false (piece ++ rest) = '-' :: dashUnsafeRuns false rest := by
  rcases h with rfl | ⟨hne, hrun, hrest⟩
  · rfl
  · cases piece with
    | nil => exact absurd rfl hne
    | cons d piece =>
      have hd : ¬ isSafeSlugChar d = true := by
        rw [hrun d List.mem_cons_self]
        exact Bool.false_ne_true
      rw [List.cons_append, dashUnsafeRuns, if_neg hd, if_neg Bool.false_ne_true,
        dashUnsafeRuns_run (fun c hc => hrun c (List.mem_cons_of_mem d hc)) hrest]

/-- A letter, a digit, a dot or an underscore stays. -/
theorem IsSlugChar.dashUnsafeRuns_cons (h : IsSlugChar c) (inRun : Bool) (rest : List Char) :
    dashUnsafeRuns inRun (c :: rest) = c :: dashUnsafeRuns false rest := by
  rw [dashUnsafeRuns, if_pos h.1]

/-- **Reading a text**: its first character is left as it is, or a piece of it stands for a dash. -/
theorem read_dashUnsafeRuns (hne : text ≠ []) :
    (∃ c rest, text = c :: rest ∧ IsSlugChar c) ∨
      ∃ piece rest, text = piece ++ rest ∧ StandsForDash piece rest := by
  cases text with
  | nil => exact absurd rfl hne
  | cons c rest =>
    by_cases hsafe : isSafeSlugChar c = true
    · by_cases hdash : c = '-'
      · exact Or.inr ⟨['-'], rest, by rw [hdash]; rfl, Or.inl rfl⟩
      · exact Or.inl ⟨c, rest, rfl, hsafe, hdash⟩
    · -- the whole run that begins here
      let isUnsafe : Char → Bool := fun c => !isSafeSlugChar c
      refine Or.inr ⟨(c :: rest).takeWhile isUnsafe, (c :: rest).dropWhile isUnsafe,
        List.takeWhile_append_dropWhile.symm, Or.inr ⟨?_, ?_, ?_⟩⟩
      · rw [List.takeWhile_cons_of_pos (by simpa [isUnsafe] using hsafe)]
        exact List.cons_ne_nil _ _
      · intro d hd
        simpa [isUnsafe] using List.mem_takeWhile_imp hd
      · intro d hd
        have hstop := List.head?_dropWhile_not isUnsafe (c :: rest)
        rw [Option.mem_def.1 hd] at hstop
        simpa [isUnsafe] using hstop

/-- Texts are the same but for the pieces that stand for a dash exactly when each run is one dash in
    both. -/
theorem sameDashed_iff : SameDashed s t ↔ dashUnsafeRuns false s = dashUnsafeRuns false t := by
  constructor
  · intro h
    induction h with
    | nil => rfl
    | keep hc _ ih => rw [hc.dashUnsafeRuns_cons, hc.dashUnsafeRuns_cons, ih]
    | dash hp hq _ ih => rw [hp.dashUnsafeRuns_append, hq.dashUnsafeRuns_append, ih]
  · intro h
    induction hn : s.length using Nat.strong_induction_on generalizing s t with
    | h n ih =>
    by_cases hs : s = []
    · by_cases ht : t = []
      · rw [hs, ht]
        exact .nil
      · rcases read_dashUnsafeRuns ht with ⟨d, t', rfl, hd⟩ | ⟨q, t', rfl, hq⟩
        · rw [hs, hd.dashUnsafeRuns_cons] at h
          cases h
        · rw [hs, hq.dashUnsafeRuns_append] at h
          cases h
    · have ht : t ≠ [] := by
        rintro rfl
        rcases read_dashUnsafeRuns hs with ⟨c, s', rfl, hc⟩ | ⟨p, s', rfl, hp⟩
        · rw [hc.dashUnsafeRuns_cons] at h
          cases h
        · rw [hp.dashUnsafeRuns_append] at h
          cases h
      rcases read_dashUnsafeRuns hs with ⟨c, s', rfl, hc⟩ | ⟨p, s', rfl, hp⟩ <;>
        rcases read_dashUnsafeRuns ht with ⟨d, t', rfl, hd⟩ | ⟨q, t', rfl, hq⟩
      · -- both are left as they are
        rw [hc.dashUnsafeRuns_cons, hd.dashUnsafeRuns_cons, List.cons.injEq] at h
        obtain ⟨rfl, h⟩ := h
        exact .keep hc (ih s'.length (by rw [← hn, List.length_cons]; omega) h rfl)
      · rw [hc.dashUnsafeRuns_cons, hq.dashUnsafeRuns_append, List.cons.injEq] at h
        exact absurd h.1 hc.2
      · rw [hp.dashUnsafeRuns_append, hd.dashUnsafeRuns_cons, List.cons.injEq] at h
        exact absurd h.1.symm hd.2
      · -- both stand for a dash
        rw [hp.dashUnsafeRuns_append, hq.dashUnsafeRuns_append, List.cons.injEq] at h
        have hlength := List.length_pos_of_ne_nil hp.ne_nil
        exact .dash hp hq (ih s'.length (by rw [← hn, List.length_append]; omega) h.2 rfl)

/-! ## The two ends -/

/-- The text falls apart at a safe character. -/
theorem dashUnsafeRuns_append_cons (hc : isSafeSlugChar c = true) (inRun : Bool)
    (before after : List Char) : dashUnsafeRuns inRun (before ++ c :: after) =
      dashUnsafeRuns inRun before ++ c :: dashUnsafeRuns false after := by
  induction before generalizing inRun with
  | nil =>
    show dashUnsafeRuns inRun (c :: after) = c :: dashUnsafeRuns false after
    rw [dashUnsafeRuns, if_pos hc]
  | cons d before ih =>
    rw [List.cons_append, dashUnsafeRuns, dashUnsafeRuns]
    split
    · rw [ih, List.cons_append]
    · split
      · rw [ih]
      · rw [ih, List.cons_append]

/-- Where nothing stays in a slug, there are only dashes. -/
theorem eq_dash_of_mem (h : ∀ c ∈ text, ¬ IsSlugChar c) (inRun : Bool) :
    ∀ c ∈ dashUnsafeRuns inRun text, c = '-' := by
  intro c hc
  obtain ⟨hsafe, hdash | hmem⟩ := mem_dashUnsafeRuns inRun hc
  · exact hdash
  · by_contra hne
    exact h c hmem ⟨hsafe, hne⟩

/-- Dashes in front are dropped, up to the first other character. -/
theorem dropWhile_dashes {dashes : List Char} (hdashes : ∀ c ∈ dashes, c = '-')
    (hfirst : ∃ c ∈ text.head?, c ≠ '-') : (dashes ++ text).dropWhile (· = '-') = text := by
  obtain ⟨c, hc, hne⟩ := hfirst
  rw [List.dropWhile_append_of_pos fun d hd => decide_eq_true (hdashes d hd)]
  cases text with
  | nil => cases hc
  | cons d text =>
    obtain rfl : d = c := Option.some.inj hc
    exact List.dropWhile_cons_of_neg (by simpa using hne)

/-- Dashes at both ends are trimmed. -/
theorem trimDashes_append {left right : List Char} (hleft : ∀ c ∈ left, c = '-')
    (hright : ∀ c ∈ right, c = '-') (hfirst : ∃ c ∈ text.head?, c ≠ '-')
    (hlast : ∃ c ∈ text.getLast?, c ≠ '-') : trimDashes (left ++ text ++ right) = text := by
  have hhead : ∃ c ∈ (text ++ right).head?, c ≠ '-' := by
    obtain ⟨c, hc, hne⟩ := hfirst
    cases text with
    | nil => cases hc
    | cons d text => exact ⟨c, hc, hne⟩
  unfold trimDashes
  rw [List.append_assoc, dropWhile_dashes hleft hhead, List.reverse_append,
    dropWhile_dashes (fun c hc => hright c (List.mem_reverse.1 hc)), List.reverse_reverse]
  rw [List.head?_reverse]
  exact hlast

/-- What is around the core goes away with the trimming. -/
theorem IsCore.trimDashes_eq (h : IsCore text core) :
    trimDashes (dashUnsafeRuns false text) = dashUnsafeRuns false core := by
  obtain ⟨before, after, rfl, hbefore, hafter⟩ := h.around
  obtain ⟨c, hfirst, hc⟩ := h.first
  obtain ⟨e, hlast, he⟩ := h.last
  obtain ⟨middle, rfl⟩ := List.head?_eq_some_iff.1 hfirst
  obtain ⟨init, hinit⟩ := List.getLast?_eq_some_iff.1 hlast
  -- the runs of the three parts are replaced one by one
  have hright : dashUnsafeRuns false (before ++ c :: middle ++ after) =
      dashUnsafeRuns false (before ++ c :: middle) ++ dashUnsafeRuns false after := by
    rw [hinit, ← List.append_assoc, List.append_assoc, List.singleton_append,
      dashUnsafeRuns_append_cons he.1, dashUnsafeRuns_append_cons he.1, List.append_assoc]
    rfl
  rw [hright, dashUnsafeRuns_append_cons hc.1, ← hc.dashUnsafeRuns_cons false]
  refine trimDashes_append (eq_dash_of_mem hbefore _) (eq_dash_of_mem hafter _) ?_ ?_
  · rw [hc.dashUnsafeRuns_cons]
    exact ⟨c, rfl, hc.2⟩
  · rw [hinit, dashUnsafeRuns_append_cons he.1]
    exact ⟨e, List.getLast?_concat, he.2⟩

/-- A text has a core if something of it stays in a slug. -/
theorem exists_isCore (h : ∃ c ∈ text, IsSlugChar c) : ∃ core, IsCore text core := by
  obtain ⟨c, hmem, hc⟩ := h
  -- the last character that stays, and then the first one
  have hlast : (text.reverse.find? fun c => decide (IsSlugChar c)).isSome = true :=
    List.find?_isSome.2 ⟨c, List.mem_reverse.2 hmem, decide_eq_true hc⟩
  obtain ⟨e, he⟩ := Option.isSome_iff_exists.1 hlast
  obtain ⟨heSlug, after, left, htext, hafter⟩ := List.find?_eq_some_iff_append.1 he
  have hfirst : ((left.reverse ++ [e]).find? fun c => decide (IsSlugChar c)).isSome = true :=
    List.find?_isSome.2 ⟨e, List.mem_append_right _ (List.mem_singleton.2 rfl), heSlug⟩
  obtain ⟨b, hb⟩ := Option.isSome_iff_exists.1 hfirst
  obtain ⟨hbSlug, before, middle, hsplit, hbefore⟩ := List.find?_eq_some_iff_append.1 hb
  refine ⟨b :: middle, ⟨before, after.reverse, ?_, ?_, ?_⟩, ⟨b, rfl, of_decide_eq_true hbSlug⟩, e, ?_,
    of_decide_eq_true heSlug⟩
  · rw [← hsplit, ← List.reverse_inj, htext]
    simp
  · intro d hd
    simpa using hbefore d hd
  · intro d hd
    simpa using hafter d (List.mem_reverse.1 hd)
  · have hends := congrArg List.getLast? hsplit
    rw [List.getLast?_concat, List.getLast?_append_of_ne_nil _ (List.cons_ne_nil _ _)] at hends
    exact hends.symm

/-- **Two texts have one slug** exactly when they have one name. -/
theorem sameName_iff {a b : List Char} : SameName a b ↔
    trimDashes (dashUnsafeRuns false a) = trimDashes (dashUnsafeRuns false b) ∧
      trimDashes (dashUnsafeRuns false a) ≠ [] := by
  have hcore : ∀ {text : List Char}, trimDashes (dashUnsafeRuns false text) ≠ [] →
      ∃ core, IsCore text core := by
    intro text hne
    refine exists_isCore ?_
    by_contra hnone
    exact hne ((trimDashes_dashUnsafeRuns_eq_nil_iff text).2 fun c hc hslug => hnone ⟨c, hc, hslug⟩)
  constructor
  · rintro ⟨core, core', ha, hb, hsame⟩
    rw [ha.trimDashes_eq, hb.trimDashes_eq]
    refine ⟨sameDashed_iff.1 hsame, ?_⟩
    obtain ⟨c, hfirst, hc⟩ := ha.first
    obtain ⟨middle, rfl⟩ := List.head?_eq_some_iff.1 hfirst
    rw [hc.dashUnsafeRuns_cons]
    exact List.cons_ne_nil _ _
  · rintro ⟨hslugs, hne⟩
    obtain ⟨core, ha⟩ := hcore hne
    obtain ⟨core', hb⟩ := hcore (hslugs ▸ hne)
    refine ⟨core, core', ha, hb, sameDashed_iff.2 ?_⟩
    rw [← ha.trimDashes_eq, ← hb.trimDashes_eq, hslugs]

end Reading

/-! ## Sources with one key -/

/-- What the slug of a source is made of: its host and its path, in lower case. -/
def Url.slugText (url : Url) : List Char := (url.host ++ url.pathname).toList.map Char.toLower

/-- A usable prefix gives two sources the same key exactly when they have the same slug. -/
theorem toCheckpointObjectKey_eq_iff {keyPrefix key : String} {a b : Url}
    (ha : toCheckpointObjectKey keyPrefix a = .ok key) :
    toCheckpointObjectKey keyPrefix b = .ok key ↔ toSourceSlug b = toSourceSlug a := by
  constructor
  · intro hb
    unfold toCheckpointObjectKey at ha hb
    split_ifs at ha hb
    have hkeys := (Except.ok.inj hb).trans (Except.ok.inj ha).symm
    have hlists := congrArg String.toList hkeys
    simp only [String.toList_append] at hlists
    exact String.toList_inj.1 (List.append_cancel_left (List.append_cancel_right hlists))
  · intro hslug
    unfold toCheckpointObjectKey at ha ⊢
    rw [hslug]
    exact ha

/-- **Two sources have one key** exactly when the prefix is safe and they have one name. -/
theorem same_key_iff (keyPrefix : String) (a b : Url) :
    (∃ key, toCheckpointObjectKey keyPrefix a = .ok key ∧ toCheckpointObjectKey keyPrefix b = .ok key) ↔
      SafePrefix keyPrefix ∧ SameName a.slugText b.slugText := by
  have hslug : ∀ url : Url, toSourceSlug url =
      String.ofList (trimDashes (dashUnsafeRuns false url.slugText)) := fun _ => rfl
  have hempty : toSourceSlug a ≠ "" ↔ trimDashes (dashUnsafeRuns false a.slugText) ≠ [] := by
    rw [hslug, ne_eq, ← String.toList_inj, String.toList_ofList]
    rfl
  have hsame : SameName a.slugText b.slugText ↔
      toSourceSlug b = toSourceSlug a ∧ toSourceSlug a ≠ "" := by
    rw [sameName_iff, hempty, hslug, hslug, String.ofList_inj, eq_comm]
  constructor
  · rintro ⟨key, ha, hb⟩
    obtain ⟨hsafe, hne⟩ := (toCheckpointObjectKey_isOk_iff _ _).1 ⟨key, ha⟩
    exact ⟨hsafe, hsame.2 ⟨(toCheckpointObjectKey_eq_iff ha).1 hb, hne⟩⟩
  · rintro ⟨hsafe, hname⟩
    obtain ⟨heq, hne⟩ := hsame.1 hname
    obtain ⟨key, ha⟩ := (toCheckpointObjectKey_isOk_iff _ _).2 ⟨hsafe, hne⟩
    exact ⟨key, ha, (toCheckpointObjectKey_eq_iff ha).2 heq⟩

end ReplaysFetcher
