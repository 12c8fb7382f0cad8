/-
  Re-ingest after a crash.

  A page is ingested with a concurrency of one, the run is killed between two of its requests, and
  the page is ingested again from the start.  The stores end up as if nothing had happened.

  1. The program refines a list of actions on the stores (`safe_ingestPage_alone`): it is their
     composition, and cut anywhere it has done a prefix of them.
  2. The actions settle (`settles_actions`), so replaying the whole list after a prefix of it gives
     what the whole list gives (`Settling.replay`), and replaying it once more does nothing.

  Nothing is assumed about the candidates: ids and contents may repeat, rows may be in each other's
  way, and contents may collide with what is stored.
-/
import ReplaysFetcher.Sequential

namespace ReplaysFetcher

open Effectful Function

variable {Text : Type} {pf : Platform Text} {b : Backend Text} {contents : Url → Bytes}
  {w w' : World Text} {s : Stores} {bucket runId : String} {candidates : List ReplayCandidate}

/-! ## A page as a list of actions -/

/-- The actions of the first `m` candidates. -/
theorem actions_take_succ (m : Fin candidates.length) :
    (candidates.take (m + 1)).flatMap (actions pf contents) =
      (candidates.take m).flatMap (actions pf contents) ++
        actions pf contents (candidates.get m) := by
  have htake : candidates.take (m + 1) = candidates.take m ++ [candidates.get m] := by
    rw [List.take_succ_eq_append_getElem m.isLt]
    rfl
  rw [htake, List.flatMap_append, List.flatMap_singleton]

/-- What one candidate may leave behind is what a prefix of the page's actions leaves behind. -/
theorem exists_prefix_actions (m : Fin candidates.length)
    (h : w'.stores = Settling.runAll ((candidates.take m).flatMap (actions pf contents)) s ∨
      ∃ a ∈ actions pf contents (candidates.get m),
        w'.stores = a (Settling.runAll ((candidates.take m).flatMap (actions pf contents)) s)) :
    ∃ done rest, candidates.flatMap (actions pf contents) = done ++ rest ∧
      w'.stores = Settling.runAll done s := by
  have hsplit : candidates.flatMap (actions pf contents) =
      (candidates.take m).flatMap (actions pf contents) ++
        (candidates.drop m).flatMap (actions pf contents) := by
    rw [← List.flatMap_append, List.take_append_drop]
  have hnext : candidates.flatMap (actions pf contents) =
      (candidates.take m).flatMap (actions pf contents) ++ (actions pf contents (candidates.get m) ++
        (candidates.drop (m + 1)).flatMap (actions pf contents)) := by
    rw [← List.append_assoc, ← actions_take_succ, ← List.flatMap_append, List.take_append_drop]
  rcases h with h | ⟨a, ha, h⟩
  · exact ⟨_, _, hsplit, h⟩
  · -- after the first action the candidate's prefix is one long, after the second it is all of it
    unfold actions at ha
    split at ha
    · cases ha
    · rename_i bytes hbytes
      have hactions : actions pf contents (candidates.get m) =
          [storeBytes pf bytes, ingestBytes pf (candidates.get m) bytes] := by
        unfold actions
        rw [hbytes]
      rcases List.mem_pair.1 ha with rfl | rfl
      · refine ⟨(candidates.take m).flatMap (actions pf contents) ++ [storeBytes pf bytes],
          ingestBytes pf (candidates.get m) bytes ::
            (candidates.drop (m + 1)).flatMap (actions pf contents), ?_, ?_⟩
        · rw [hnext, hactions]
          simp
        · rw [Settling.runAll_append]
          exact h
      · refine ⟨(candidates.take m).flatMap (actions pf contents) ++
          actions pf contents (candidates.get m),
          (candidates.drop (m + 1)).flatMap (actions pf contents), ?_, ?_⟩
        · rw [List.append_assoc]
          exact hnext
        · rw [Settling.runAll_append, runAll_actions hbytes]
          exact h

/-- **A page.** Left alone, it does its actions in order, and wherever it is cut it has done a
    prefix of them.  When there was nothing left to do it counts nothing. -/
theorem safe_ingestPage_alone (hb : HealthyStores b contents) (hw : w.stores = s) :
    Proc.Safe b.Step Lts.Alone
      (fun w w' => (∃ done rest, candidates.flatMap (actions pf contents) = done ++ rest ∧
        w.stores = Settling.runAll done s) → ∃ done rest,
          candidates.flatMap (actions pf contents) = done ++ rest ∧
            w'.stores = Settling.runAll done s)
      (fun r w' => w'.stores = Settling.runAll (candidates.flatMap (actions pf contents)) s ∧
        ((∀ a ∈ candidates.flatMap (actions pf contents), IsFixedPt a s) →
          ∀ result, r = .ok result → result.counts.stored = 0 ∧ result.counts.staged = 0)) w
      (ingestPage (sequentialIngest pf bucket runId candidates)) := by
  rw [ingestPage_eq]
  refine Proc.safe_fan_one
    (fun m w => w.stores = Settling.runAll ((candidates.take m).flatMap (actions pf contents)) s)
    (fun _ v => (∀ a ∈ candidates.flatMap (actions pf contents), IsFixedPt a s) → NothingNew v)
    (fun _ h => h) (fun _ _ _ h hr => by cases hr; exact h) ?_ ?_ hw
  · intro i w hQ
    have hone : Proc.Safe _ _ _ _ _ (processCandidate _ (candidates.get i)) :=
      safe_processCandidate_alone hb (sequentialIngest pf bucket runId candidates) rfl rfl hQ
    have hactions : (candidates.take (i + 1)).flatMap (actions pf contents) =
        (candidates.take i).flatMap (actions pf contents) ++
          actions pf contents (candidates.get i) := actions_take_succ i
    refine hone.weaken (fun _ _ h => h) (fun _ w' h _ => exists_prefix_actions i h) ?_
    rintro v w' ⟨hstores, hnothing⟩
    refine ⟨?_, fun hall => hnothing fun a ha => ?_⟩
    · rw [hactions, Settling.runAll_append]
      exact hstores
    · -- when everything is settled, the earlier candidates have changed nothing
      have hsame : Settling.runAll ((candidates.take i).flatMap (actions pf contents)) s = s := by
        refine Settling.runAll_of_fixed fun a ha => hall a ?_
        obtain ⟨candidate, hmem, ha⟩ := List.mem_flatMap.1 ha
        exact List.mem_flatMap.2 ⟨candidate, List.mem_of_mem_take hmem, ha⟩
      rw [hsame]
      exact hall a (List.mem_flatMap.2 ⟨_, List.get_mem candidates i, ha⟩)
  · intro vs w hQ hV
    refine Proc.safe_pure (fun _ _ h hr => by cases hr; exact h) ⟨?_, fun hall result hresult => ?_⟩
    · rwa [show (sequentialIngest pf bucket runId candidates).candidates.length =
        candidates.length from rfl, List.take_length] at hQ
    · obtain ⟨values, hvalues, rfl⟩ := pageOutcome_eq_ok.1 hresult
      have hspec := tallyPage_spec (List.ofFn values)
      rw [hspec.stored, hspec.staged, List.countP_eq_zero, List.countP_eq_zero]
      constructor
      · intro value hvalue
        obtain ⟨i, rfl⟩ := List.mem_ofFn.1 hvalue
        rw [(hV i hall _ (hvalues i)).1]
        exact Bool.false_ne_true
      · intro value hvalue
        obtain ⟨i, rfl⟩ := List.mem_ofFn.1 hvalue
        rw [(hV i hall _ (hvalues i)).2]
        exact Bool.false_ne_true

/-! ## The result -/

theorem staging_prefix_of_runs {α : Type} {p p' : Program Text α}
    (h : (Proc.lts b.Step α).Runs Lts.Alone w p w' p') : w.staging <+: w'.staging :=
  Proc.runs_keep (I := fun w' => w.staging <+: w'.staging)
    (fun _ _ _ _ hstarts hr => hstarts.trans (Backend.staging_prefix hr)) h (List.prefix_refl _)

/-- Stores that did not change hold the very same rows. -/
theorem eq_of_stores_eq {α : Type} {p p' : Program Text α}
    (h : (Proc.lts b.Step α).Runs Lts.Alone w p w' p') (hstores : w'.stores = w.stores) :
    w'.raw = w.raw ∧ w'.staging = w.staging := by
  refine ⟨congrArg Stores.raw hstores, ?_⟩
  have hlen := congrArg (fun s : Stores => s.rows.length) hstores
  unfold World.stores at hlen
  simp only [List.length_map] at hlen
  exact ((staging_prefix_of_runs h).eq_of_length hlen.symm).symm

/-- **Crash-safe re-ingest.** A page ingested after a crash of its first ingest leaves the stores of
    one uninterrupted ingest, and ingested once more it adds nothing and counts nothing. -/
theorem reingest_after_crash (hb : HealthyStores b contents) {w₀ w₁ w₂ w₃ w : World Text}
    {runId₁ runId₂ runId₃ : String} {p : Program Text (Except JsError IngestPageResult)}
    {r r₂ r₃ : Except JsError IngestPageResult}
    -- one uninterrupted ingest
    (honce : (Proc.lts b.Step _).Runs Lts.Alone w₀
      (ingestPage (sequentialIngest pf bucket runId candidates)) w (.pure r))
    -- an ingest killed anywhere, and another one in full
    (hcrash : (Proc.lts b.Step _).Runs Lts.Alone w₀
      (ingestPage (sequentialIngest pf bucket runId₁ candidates)) w₁ p)
    (hagain : (Proc.lts b.Step _).Runs Lts.Alone w₁
      (ingestPage (sequentialIngest pf bucket runId₂ candidates)) w₂ (.pure r₂))
    -- and one more
    (hmore : (Proc.lts b.Step _).Runs Lts.Alone w₂
      (ingestPage (sequentialIngest pf bucket runId₃ candidates)) w₃ (.pure r₃)) :
    w₂.stores = w.stores ∧ (w₃.raw = w₂.raw ∧ w₃.staging = w₂.staging) ∧
      ∀ result, r₃ = .ok result → result.counts.stored = 0 ∧ result.counts.staged = 0 := by
  have hsettles := settles_actions pf contents candidates
  -- what the uninterrupted ingest does
  have hw := (Proc.Safe.of_run (safe_ingestPage_alone hb rfl) honce).1
  -- what the killed one has done
  obtain ⟨done, rest, hacts, hw₁⟩ := (safe_ingestPage_alone hb rfl).always
    (fun _ _ h hg => hg h) (fun _ _ h hr => by cases hr; exact h) ⟨[], _, rfl, rfl⟩ hcrash
  have hw₂ := (Proc.Safe.of_run (safe_ingestPage_alone hb rfl) hagain).1
  have hsame : w₂.stores = w.stores := by
    rw [hw₂, hw₁, hw]
    rw [hacts] at hsettles ⊢
    exact hsettles.replay w₀.stores
  -- the last one finds everything settled
  obtain ⟨hw₃, hnothing⟩ := Proc.Safe.of_run (safe_ingestPage_alone hb rfl) hmore
  obtain ⟨hfixed, hagain₃⟩ := hsettles.replay_all w₀.stores
  have hstores : w₂.stores = Settling.runAll (candidates.flatMap (actions pf contents)) w₀.stores :=
    hsame.trans hw
  refine ⟨hsame, eq_of_stores_eq hmore ?_, ?_⟩
  · rw [hw₃, hstores, hagain₃]
  · rw [hstores] at hnothing
    exact hnothing hfixed

/-! ## A crash between the PUT and the INSERT -/

/-- Two candidates with the same contents. -/
def toyPage : List ReplayCandidate :=
  [toyCandidate, { toyCandidate with source := { externalId := some "2", url := "a" } }]

/-- `n` steps of an ingest. -/
def toyIngest (n : ℕ) (w : World (Option Json)) :
    World (Option Json) × Program (Option Json) (Except JsError IngestPageResult) :=
  Proc.exec toyScript.serve n (w, ingestPage (sequentialIngest toyPlatform "bucket" "run" toyPage))

theorem runs_toyIngest (n : ℕ) (w : World (Option Json)) :
    (Proc.lts toyServices.Step _).Runs Lts.Alone w
      (ingestPage (sequentialIngest toyPlatform "bucket" "run" toyPage))
      (toyIngest n w).1 (toyIngest n w).2 :=
  Proc.runs_exec step_toyScript n (w, ingestPage (sequentialIngest toyPlatform "bucket" "run" toyPage))

theorem healthyStores_toyServices : HealthyStores toyServices fun _ => [7] :=
  ⟨rfl, rfl, rfl, fun _ _ => Iff.rfl⟩

theorem reingest_after_crash_two :
    (toyIngest 12 (toyIngest 4 emptyWorld).1).1.stores = (toyIngest 12 emptyWorld).1.stores ∧
    (∃ result, (toyIngest 12 (toyIngest 12 (toyIngest 4 emptyWorld).1).1).2 = .pure (.ok result) ∧
      result.counts.stored = 0 ∧ result.counts.staged = 0) := by
  obtain ⟨r, hr⟩ : ∃ r, (toyIngest 12 emptyWorld).2 = .pure r := ⟨_, rfl⟩
  obtain ⟨r₂, hr₂⟩ : ∃ r, (toyIngest 12 (toyIngest 4 emptyWorld).1).2 = .pure r := ⟨_, rfl⟩
  obtain ⟨result, hr₃⟩ : ∃ result,
      (toyIngest 12 (toyIngest 12 (toyIngest 4 emptyWorld).1).1).2 = .pure (.ok result) := ⟨_, rfl⟩
  have honce := runs_toyIngest 12 emptyWorld
  have hagain := runs_toyIngest 12 (toyIngest 4 emptyWorld).1
  have hmore := runs_toyIngest 12 (toyIngest 12 (toyIngest 4 emptyWorld).1).1
  rw [hr] at honce
  rw [hr₂] at hagain
  rw [hr₃] at hmore
  obtain ⟨hsame, _, hcounts⟩ := reingest_after_crash healthyStores_toyServices honce
    (runs_toyIngest 4 emptyWorld) hagain hmore
  exact ⟨hsame, result, hr₃, hcounts result rfl⟩

end ReplaysFetcher
