/-
  What a merge of checkpoints keeps (`src/checkpoint/checkpoint.ts`).

  `mergeCheckpoints` takes its fields from three places: maxima of both sides, a union in which the
  remote entry overrides, and the side with the higher progress, where progress is the last
  completed page first and the rank of the status second.

  1. `pickHigherProgress` is the first of the greatest, by progress (`pickHigherProgress_eq`), so the
     fields of the winner are associative although they are not commutative.
  2. What a reader resumes from is a join: `joined` maps a merge to a supremum, which is why CAS
     rounds may come in any order (`merge_algebra`).
  3. The counts are the winner's and the pages are not: `merge_totalled` says when they still agree.
-/
import ReplaysFetcher.RunOnce
import ReplaysFetcher.Data.FirstMax
import Mathlib.Data.Prod.Lex
import Mathlib.Order.BoundedOrder.Lattice
import Mathlib.Data.Finset.Lattice.Basic
import Mathlib.Algebra.BigOperators.Group.Finset.Piecewise

namespace ReplaysFetcher

open FirstMax

/-! ## Progress -/

/-- The last completed page, then the rank of the status. -/
def Checkpoint.progress (c : Checkpoint) : ℕ ×ₗ ℕ :=
  toLex (c.lastCompletedPage, statusRank c.status)

/-- The ranks tell the statuses apart. -/
theorem statusRank_injective : Function.Injective statusRank := by
  intro s t h
  cases s <;> cases t <;> first | rfl | cases h

section Merge

variable {a b c : Checkpoint}

/-- Pages decide first, then ranks. -/
theorem progress_le_iff : a.progress ≤ b.progress ↔ a.lastCompletedPage < b.lastCompletedPage ∨
    a.lastCompletedPage = b.lastCompletedPage ∧ statusRank a.status ≤ statusRank b.status :=
  Prod.Lex.toLex_le_toLex

/-- The side a merge takes its own fields from. -/
theorem pickHigherProgress_eq (a b : Checkpoint) :
    pickHigherProgress a b = firstMax Checkpoint.progress a b := by
  unfold pickHigherProgress
  split_ifs with hgt hlt hrank
  · exact (firstMax_left (progress_le_iff.2 (Or.inl hgt))).symm
  · refine (firstMax_right (not_le.1 fun hle => ?_)).symm
    rcases progress_le_iff.1 hle with h | ⟨h, _⟩ <;> omega
  · exact (firstMax_left (progress_le_iff.2 (Or.inr ⟨by omega, hrank⟩))).symm
  · refine (firstMax_right (not_le.1 fun hle => ?_)).symm
    rcases progress_le_iff.1 hle with h | ⟨_, h⟩ <;> omega

/-- The fields a merge takes from one side. -/
structure WinnerFields where
  counts : PageCounts
  lastSourceFailure : Option RunSourceFailure
  runId : String
  sourceUrl : String
  status : CheckpointStatus
  updatedAt : String

/-- These fields of a checkpoint. -/
def Checkpoint.winnerFields (c : Checkpoint) : WinnerFields where
  counts := c.counts
  lastSourceFailure := c.lastSourceFailure
  runId := c.runId
  sourceUrl := c.sourceUrl
  status := c.status
  updatedAt := c.updatedAt

/-- They are all of the side with the higher progress. -/
theorem winnerFields_merge : (mergeCheckpoints a b).winnerFields =
    (firstMax Checkpoint.progress a b).winnerFields := by
  rw [← pickHigherProgress_eq]
  rfl

/-- A checkpoint is made of the winner's fields and of four others. -/
theorem Checkpoint.ext_of_winnerFields (hwinner : a.winnerFields = b.winnerFields)
    (hcreated : a.createdAt = b.createdAt) (hdiscovered : a.discoveredLastPage = b.discoveredLastPage)
    (hlast : a.lastCompletedPage = b.lastCompletedPage) (hpages : a.pages = b.pages) : a = b := by
  cases a
  cases b
  cases hcreated
  cases hdiscovered
  cases hlast
  cases hpages
  cases hwinner
  rfl

/-- **The progress of a merge is the greater progress.** -/
theorem progress_merge : (mergeCheckpoints a b).progress = max a.progress b.progress := by
  have hstatus : (mergeCheckpoints a b).status = (firstMax Checkpoint.progress a b).status :=
    congrArg WinnerFields.status winnerFields_merge
  have hlast : (mergeCheckpoints a b).lastCompletedPage =
      (firstMax Checkpoint.progress a b).lastCompletedPage := by
    rw [lastCompletedPage_merge]
    rcases le_or_gt b.progress a.progress with h | h
    · rw [firstMax_left h, max_eq_left]
      rcases progress_le_iff.1 h with h | ⟨h, _⟩ <;> omega
    · rw [firstMax_right h, max_eq_right]
      rcases progress_le_iff.1 h.le with h | ⟨h, _⟩ <;> omega
  rw [← rank_firstMax Checkpoint.progress]
  show toLex (_, statusRank _) = toLex (_, statusRank _)
  rw [hstatus, hlast]

/-- A merge has the pages of both sides. -/
theorem keys_merge : (mergeCheckpoints a b).pages.keys = a.pages.keys ∪ b.pages.keys := by
  ext key
  rw [Finset.mem_union, Finmap.mem_keys, Finmap.mem_keys, Finmap.mem_keys]
  exact mem_pages_merge

/-- A checkpoint merged with itself is itself. -/
theorem merge_self (a : Checkpoint) : mergeCheckpoints a a = a := by
  refine Checkpoint.ext_of_winnerFields ?_ rfl (max_self _) (max_self _) ?_
  · rw [winnerFields_merge, firstMax_self]
  · exact JsRecord.spread_eq_left fun _ _ h => h

/-- A spread is associative: on a common key the rightmost record wins. -/
theorem spread_assoc {V : Type} (r s t : JsRecord V) :
    JsRecord.spread (JsRecord.spread r s) t = JsRecord.spread r (JsRecord.spread s t) := by
  refine Finmap.ext_lookup fun key => ?_
  simp only [JsRecord.lookup_spread, Option.or_assoc]

/-- Merges may be bracketed in any way. -/
theorem merge_assoc : mergeCheckpoints (mergeCheckpoints a b) c =
    mergeCheckpoints a (mergeCheckpoints b c) := by
  refine Checkpoint.ext_of_winnerFields ?_ rfl (max_assoc _ _ _) (max_assoc _ _ _)
    (spread_assoc _ _ _)
  have hleft : (mergeCheckpoints a b).progress = (firstMax Checkpoint.progress a b).progress := by
    rw [progress_merge, rank_firstMax Checkpoint.progress]
  have hright : (mergeCheckpoints b c).progress = (firstMax Checkpoint.progress b c).progress := by
    rw [progress_merge, rank_firstMax Checkpoint.progress]
  calc (mergeCheckpoints (mergeCheckpoints a b) c).winnerFields
      = (firstMax Checkpoint.progress (mergeCheckpoints a b) c).winnerFields := winnerFields_merge
    _ = (firstMax Checkpoint.progress (firstMax Checkpoint.progress a b) c).winnerFields :=
        map_firstMax hleft winnerFields_merge
    _ = (firstMax Checkpoint.progress a (firstMax Checkpoint.progress b c)).winnerFields := by
        rw [firstMax_assoc]
    _ = (firstMax Checkpoint.progress a (mergeCheckpoints b c)).winnerFields :=
        (map_firstMax_right hright winnerFields_merge).symm
    _ = (mergeCheckpoints a (mergeCheckpoints b c)).winnerFields := winnerFields_merge.symm

end Merge

/-! ## Any order -/

/-- What two checkpoints of the same progress have in common. -/
structure SameProgress (a b : Checkpoint) : Prop where
  lastCompletedPage : a.lastCompletedPage = b.lastCompletedPage
  status : a.status = b.status
  discoveredLastPage : a.discoveredLastPage = b.discoveredLastPage
  keys : a.pages.keys = b.pages.keys

/-- The part of a checkpoint that merges to a join. -/
def Checkpoint.joined (c : Checkpoint) : (ℕ ×ₗ ℕ) × ℕ × Finset String :=
  (c.progress, c.discoveredLastPage, c.pages.keys)

/-- That part of a merge is a supremum. -/
theorem joined_merge {a b : Checkpoint} :
    (mergeCheckpoints a b).joined = a.joined ⊔ b.joined :=
  Prod.ext progress_merge (Prod.ext rfl keys_merge)

/-- Having it in common is having the same progress. -/
theorem sameProgress_iff {a b : Checkpoint} : SameProgress a b ↔ a.joined = b.joined := by
  constructor
  · intro h
    unfold Checkpoint.joined Checkpoint.progress
    rw [h.lastCompletedPage, h.status, h.discoveredLastPage, h.keys]
  · intro h
    have hprogress := toLex.injective (congrArg Prod.fst h)
    exact ⟨congrArg Prod.fst hprogress, statusRank_injective (congrArg Prod.snd hprogress),
      congrArg (fun j => j.2.1) h, congrArg (fun j => j.2.2) h⟩

/-- Folded, the joins are one supremum. -/
theorem joined_foldl (a : Checkpoint) (rounds : List Checkpoint) :
    (rounds.foldl mergeCheckpoints a).joined =
      ((a :: rounds).map Checkpoint.joined).foldl (· ⊔ ·) ⊥ := by
  rw [List.map_cons, List.foldl_cons, bot_sup_eq]
  induction rounds generalizing a with
  | nil => rfl
  | cons b rounds ih => rw [List.foldl_cons, ih, joined_merge, List.map_cons, List.foldl_cons]

/-- The algebra of merging. -/
structure MergeAlgebra : Prop where
  greatest : ∀ a b, (mergeCheckpoints a b).progress = max a.progress b.progress ∧
    (mergeCheckpoints a b).discoveredLastPage = max a.discoveredLastPage b.discoveredLastPage ∧
    (mergeCheckpoints a b).pages.keys = a.pages.keys ∪ b.pages.keys
  idempotent : ∀ a, mergeCheckpoints a a = a
  associative : ∀ a b c, mergeCheckpoints (mergeCheckpoints a b) c =
    mergeCheckpoints a (mergeCheckpoints b c)
  commutative : ∀ a b, SameProgress (mergeCheckpoints a b) (mergeCheckpoints b a)
  /-- The same checkpoints, folded in any order. -/
  folds : ∀ a rounds b rounds', (a :: rounds).Perm (b :: rounds') →
    SameProgress (rounds.foldl mergeCheckpoints a) (rounds'.foldl mergeCheckpoints b)

/-- **Merging is a join of progress.** -/
theorem merge_algebra : MergeAlgebra where
  greatest a b := ⟨progress_merge, rfl, keys_merge⟩
  idempotent := merge_self
  associative a b c := merge_assoc
  commutative a b := by
    rw [sameProgress_iff, joined_merge, joined_merge, sup_comm]
  folds a rounds b rounds' h := by
    rw [sameProgress_iff, joined_foldl, joined_foldl]
    exact (h.map Checkpoint.joined).foldl_eq ⊥

/-! ## Totals -/

/-- The counts are the sums over the pages, as `buildCheckpoint` makes them. -/
def Checkpoint.Totalled (c : Checkpoint) : Prop := c.counts = aggregatePageCounts c.pages

/-- The sums over the pages with these keys. -/
def countsOver (pages : JsRecord CheckpointPage) (keys : Finset String) : PageCounts where
  discovered := ∑ key ∈ keys, (pages.lookup key).elim 0 fun page => page.counts.discovered
  failed := ∑ key ∈ keys, (pages.lookup key).elim 0 fun page => page.counts.failed
  staged := ∑ key ∈ keys, (pages.lookup key).elim 0 fun page => page.counts.staged
  stored := ∑ key ∈ keys, (pages.lookup key).elim 0 fun page => page.counts.stored

/-- The fields of the counts, to state things once. -/
inductive CountField
  | discovered | failed | staged | stored

/-- A field of the counts. -/
def PageCounts.get (counts : PageCounts) : CountField → ℕ
  | .discovered => counts.discovered
  | .failed => counts.failed
  | .staged => counts.staged
  | .stored => counts.stored

section Totals

variable {a b : Checkpoint}

/-- Counts are equal field by field. -/
theorem PageCounts.eq_iff {counts counts' : PageCounts} :
    counts = counts' ↔ ∀ field, counts.get field = counts'.get field := by
  constructor
  · rintro rfl _
    rfl
  · intro h
    cases counts
    cases counts'
    cases show _ = _ from h .discovered
    cases show _ = _ from h .failed
    cases show _ = _ from h .staged
    cases show _ = _ from h .stored
    rfl

/-- The totals are the sums over all pages. -/
theorem aggregatePageCounts_eq (pages : JsRecord CheckpointPage) :
    aggregatePageCounts pages = countsOver pages pages.keys := by
  unfold aggregatePageCounts countsOver
  simp only [JsRecord.sum_values]

/-- One field of the totals. -/
theorem get_countsOver (pages : JsRecord CheckpointPage) (keys : Finset String)
    (field : CountField) : (countsOver pages keys).get field =
      ∑ key ∈ keys, (pages.lookup key).elim 0 fun page => page.counts.get field := by
  cases field <;> rfl

/-- A union sums to the right record and what only the left one has. -/
theorem get_countsOver_spread (l r : JsRecord CheckpointPage) (field : CountField) :
    (countsOver (JsRecord.spread l r) (l.keys ∪ r.keys)).get field =
      (countsOver r r.keys).get field + (countsOver l (l.keys \ r.keys)).get field := by
  simp only [get_countsOver]
  rw [← Finset.sdiff_union_self_eq_union, Finset.sum_union Finset.sdiff_disjoint, add_comm]
  refine congrArg₂ _ (Finset.sum_congr rfl fun key hkey => ?_)
    (Finset.sum_congr rfl fun key hkey => ?_)
  · obtain ⟨page, hpage⟩ := Finmap.mem_iff.1 (Finmap.mem_keys.1 hkey)
    rw [JsRecord.lookup_spread, hpage, Option.some_or]
  · have hnone : r.lookup key = none :=
      Finmap.lookup_eq_none.2 fun h => (Finset.mem_sdiff.1 hkey).2 (Finmap.mem_keys.2 h)
    rw [JsRecord.lookup_spread, hnone, Option.none_or]

/-- A record sums to what it has in common with another one, and the rest. -/
theorem get_countsOver_split (l r : JsRecord CheckpointPage) (field : CountField) :
    (countsOver l l.keys).get field = (countsOver l (l.keys ∩ r.keys)).get field +
      (countsOver l (l.keys \ r.keys)).get field := by
  simp only [get_countsOver]
  rw [← Finset.sum_inter_add_sum_sdiff l.keys r.keys]

/-- The totals of a merge: the remote pages, and what only the local side has. -/
theorem aggregatePageCounts_merge (field : CountField) :
    (aggregatePageCounts (mergeCheckpoints a b).pages).get field =
      (countsOver b.pages b.pages.keys).get field +
        (countsOver a.pages (a.pages.keys \ b.pages.keys)).get field := by
  rw [aggregatePageCounts_eq, keys_merge]
  exact get_countsOver_spread a.pages b.pages field

/-- When the totals of a merge are those of its pages: if the local side wins, the remote pages come
    to as much as the local entries they override; if the remote side wins, the pages that only the
    local side has come to nothing. -/
def TotalsAgree (a b : Checkpoint) : Prop :=
  if b.progress ≤ a.progress then
    countsOver b.pages b.pages.keys = countsOver a.pages (a.pages.keys ∩ b.pages.keys)
  else ∀ field, (countsOver a.pages (a.pages.keys \ b.pages.keys)).get field = 0

/-- **The totals of a merge are the winner's.**  They are those of the merged pages exactly when the
    pages which the other side adds or overrides make no difference. -/
theorem merge_totalled (ha : a.Totalled) (hb : b.Totalled) :
    (mergeCheckpoints a b).counts = aggregatePageCounts (pickHigherProgress a b).pages ∧
      ((mergeCheckpoints a b).Totalled ↔ TotalsAgree a b) := by
  have hcounts : (mergeCheckpoints a b).counts = (pickHigherProgress a b).counts := rfl
  have hwinner : (pickHigherProgress a b).counts =
      aggregatePageCounts (pickHigherProgress a b).pages := by
    rcases pickHigherProgress_cases a b with h | h <;> rw [h] <;> assumption
  refine ⟨hcounts.trans hwinner, ?_⟩
  unfold Checkpoint.Totalled TotalsAgree
  rw [hcounts, hwinner, pickHigherProgress_eq, PageCounts.eq_iff]
  split
  · -- the local side wins
    rename_i hlocal
    rw [firstMax_left hlocal, PageCounts.eq_iff]
    refine forall_congr' fun field => ?_
    rw [aggregatePageCounts_merge, aggregatePageCounts_eq,
      get_countsOver_split a.pages b.pages field]
    constructor <;> intro h <;> omega
  · -- the remote side wins
    rename_i hremote
    rw [firstMax_right (not_le.1 hremote)]
    refine forall_congr' fun field => ?_
    rw [aggregatePageCounts_merge, aggregatePageCounts_eq]
    constructor <;> intro h <;> omega

end Totals

/-- A checkpoint of one finished page. -/
def onePage (page : ℕ) (counts : PageCounts) : Checkpoint :=
  { toyCheckpoint page with
    counts
    pages := JsRecord.ofEntries [(toString page, { counts, status := "running" })] }

/-- Its counts are those of its page. -/
theorem totalled_onePage (page : ℕ) (counts : PageCounts) : (onePage page counts).Totalled := by
  show counts = aggregatePageCounts _
  have hvalues : (JsRecord.ofEntries [(toString page,
      ({ counts, status := "running" } : CheckpointPage))]).values =
      {({ counts, status := "running" } : CheckpointPage)} := rfl
  unfold aggregatePageCounts
  rw [show (onePage page counts).pages.values = _ from hvalues]
  simp

/-- One replay, stored and staged. -/
def toyCounts : PageCounts := { discovered := 1, failed := 0, staged := 1, stored := 1 }

/-- Two runs over the same page. -/
theorem merge_totalled_same_page :
    (mergeCheckpoints (onePage 1 toyCounts) (onePage 1 toyCounts)).counts = aggregatePageCounts
        (pickHigherProgress (onePage 1 toyCounts) (onePage 1 toyCounts)).pages ∧
      ((mergeCheckpoints (onePage 1 toyCounts) (onePage 1 toyCounts)).Totalled ↔
        TotalsAgree (onePage 1 toyCounts) (onePage 1 toyCounts)) :=
  merge_totalled (totalled_onePage 1 toyCounts) (totalled_onePage 1 toyCounts)

/-- Two pages, counted once. -/
theorem merge_not_totalled : ¬ ∀ a b : Checkpoint, a.Totalled → b.Totalled →
    (mergeCheckpoints a b).Totalled := by
  intro hall
  have htotalled := hall _ _ (totalled_onePage 1 toyCounts) (totalled_onePage 2 toyCounts)
  have hstored := congrArg PageCounts.stored htotalled
  revert hstored
  decide

end ReplaysFetcher
