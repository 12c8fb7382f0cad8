/-
  What `stage` answers (`src/staging/postgres-staging-repository.ts`).

  1. ON A TABLE (`stage_exact_iff`).  The idempotency contract tells four cases apart by two
     questions: is there a row under the payload's source identity, and is there one with its
     object?  `stage` asks the second one first: an INSERT that hits the arbiter is taken for the
     same replay again, whatever identity the row that is there has.  So the answer is the
     contract's exactly when a row with the payload's object has the payload's identity too.
  2. ON A FAILING DATABASE (`stage_operational_iff`).  What fails inside the `try` is answered
     `failed`.  The two lookups of `classifyExistingStaging` run outside of it: when one of them
     raises, `stage` rejects.
-/
import ReplaysFetcher.Ingest
import ReplaysFetcher.Effectful.Termination

namespace ReplaysFetcher

open Effectful

variable {Text : Type}

/-! ## The idempotency contract -/

/-- Does the row have the payload's source identity? -/
def StagingRow.sameSource (row : StagingRow) (payload : IngestStagingPayload) : Bool :=
  row.sourceSystem = payload.sourceSystem && row.sourceReplayId = payload.sourceReplayId

/-- The two unique keys of `ingest_staging_records`. -/
structure KeysUnique (rows : List StagingRow) : Prop where
  source : (rows.map fun row => (row.sourceSystem, row.sourceReplayId)).Nodup
  object : (rows.map fun row => (row.checksum, row.objectKey)).Nodup

/-- **The contract**, case by case: what the answer says about the table before and after. -/
structure Classified (payload : IngestStagingPayload) (rows : List StagingRow)
    (result : IngestStagingResult) (rows' : List StagingRow) : Prop where
  staged : result.status = .staged ↔ ∃ id, rows' = rows ++ [payload.toRow id]
  alreadyStaged : result.status = .alreadyStaged ↔
    ∃ row ∈ rows, row.sameSource payload = true ∧ matchesPayload row payload = true
  sourceConflict : result.status = .conflict ∧ result.reason = some "source_identity_conflict" ↔
    ∃ row ∈ rows, row.sameSource payload = true ∧ matchesPayload row payload = false
  objectConflict : result.status = .conflict ∧ result.reason = some "raw_object_identity_conflict" ↔
    (∀ row ∈ rows, row.sameSource payload = false) ∧ ∃ row ∈ rows, matchesPayload row payload = true

/-- `stage` ends, and its answer is the contract's. -/
def StagesExactly (b : Backend Text) (payload : IngestStagingPayload) (w : World Text) : Prop :=
  Proc.Ends b.Step
    (fun r w' => ∃ result, r = .ok result ∧ Classified payload w.staging result w'.staging) w
    (stage payload)

/-- A row with the payload's object has the payload's identity. -/
def ObjectUnderSource (payload : IngestStagingPayload) (rows : List StagingRow) : Prop :=
  ∀ row ∈ rows, matchesPayload row payload = true → row.sameSource payload = true

theorem KeysUnique.eq_of_sameSource {rows : List StagingRow} (h : KeysUnique rows)
    {payload : IngestStagingPayload} {row row' : StagingRow} (hrow : row ∈ rows) (hrow' : row' ∈ rows)
    (hs : row.sameSource payload = true) (hs' : row'.sameSource payload = true) : row = row' := by
  unfold StagingRow.sameSource at hs hs'
  rw [Bool.and_eq_true, decide_eq_true_iff, decide_eq_true_iff] at hs hs'
  refine List.inj_on_of_nodup_map h.source hrow hrow' ?_
  rw [Prod.mk.injEq]
  exact ⟨hs.1.trans hs'.1.symm, hs.2.trans hs'.2.symm⟩

theorem KeysUnique.eq_of_matches {rows : List StagingRow} (h : KeysUnique rows)
    {payload : IngestStagingPayload} {row row' : StagingRow} (hrow : row ∈ rows) (hrow' : row' ∈ rows)
    (hm : matchesPayload row payload = true) (hm' : matchesPayload row' payload = true) :
    row = row' := by
  unfold matchesPayload at hm hm'
  rw [Bool.and_eq_true, decide_eq_true_iff, decide_eq_true_iff] at hm hm'
  refine List.inj_on_of_nodup_map h.object hrow hrow' ?_
  rw [Prod.mk.injEq]
  exact ⟨hm.1.trans hm'.1.symm, hm.2.trans hm'.2.symm⟩

theorem World.rowBySource?_eq (w : World Text) (payload : IngestStagingPayload) :
    w.rowBySource? payload.sourceSystem payload.sourceReplayId =
      w.staging.find? fun row => row.sameSource payload := rfl

theorem World.rowByObject?_eq (w : World Text) (payload : IngestStagingPayload) :
    w.rowByObject? payload.checksum payload.objectKey =
      w.staging.find? fun row => matchesPayload row payload := rfl

/-! ## The code on a table -/

/-- What `stage` does: the object first, then the identity. -/
def StageOutcome (payload : IngestStagingPayload) (w : World Text) (result : IngestStagingResult)
    (w' : World Text) : Prop :=
  match w.rowByObject? payload.checksum payload.objectKey,
    w.rowBySource? payload.sourceSystem payload.sourceReplayId with
  | some row, _ => result = alreadyStagedResult payload row ∧ w' = w
  | none, some row => result = conflictResult payload row "source_identity_conflict" ∧ w' = w
  | none, none => ∃ id, result = stagedResult payload id ∧ w' = w.addRow (payload.toRow id)

section Table

variable {b : Backend Text} {payload : IngestStagingPayload} {w : World Text}

/-- A SELECT on a database that is up. -/
theorem stepSelect_up {α : Type} {answer : α} {r : Except JsError α}
    (hup : b.faults.staging = false) (h : b.StepSelect answer r) : r = .ok answer := by
  rcases h with h | ⟨hfault, _⟩
  · exact h
  · rw [hup] at hfault
    cases hfault

/-- The classification, asked about a row that has the identity but not the object. -/
theorem ends_classify_source (hup : b.faults.staging = false) {row : StagingRow}
    (hrow : w.rowBySource? payload.sourceSystem payload.sourceReplayId = some row)
    (hmatch : matchesPayload row payload = false) :
    Proc.Ends b.Step (fun r w' => r = .ok (conflictResult payload row "source_identity_conflict") ∧
      w' = w) w (classifyExistingStaging payload) := by
  rw [classifyExistingStaging_eq]
  refine Proc.ends_call ⟨.ok _, w, rfl, Or.inl rfl⟩ ?_
  rintro r w' ⟨rfl, hselect⟩
  rw [stepSelect_up hup hselect, hrow]
  refine Proc.ends_pure ⟨?_, rfl⟩
  unfold existingResult
  rw [if_neg (by rw [hmatch]; exact Bool.false_ne_true)]

theorem ends_stage (hup : b.faults.staging = false) (payload : IngestStagingPayload) (w : World Text) :
    Proc.Ends b.Step (fun r w' => ∃ result, r = .ok result ∧ StageOutcome payload w result w') w
      (stage payload) := by
  rw [stage_eq]
  unfold StageOutcome
  cases hobject : w.rowByObject? payload.checksum payload.objectKey with
  | some row =>
    -- the arbiter has a row: the INSERT adds none, and the lookup finds it
    refine Proc.ends_call ⟨.ok none, w, Or.inl ?_⟩ ?_
    · rw [hobject]
      exact ⟨rfl, rfl⟩
    rintro r w' (hinsert | ⟨hfault, _⟩)
    · rw [hobject] at hinsert
      obtain ⟨rfl, rfl⟩ := hinsert
      refine Proc.ends_call ⟨.ok _, w', rfl, Or.inl rfl⟩ ?_
      rintro r w'' ⟨rfl, hselect⟩
      rw [stepSelect_up hup hselect, hobject]
      exact Proc.ends_pure ⟨_, rfl, rfl, rfl⟩
    · rw [hup] at hfault
      cases hfault
  | none =>
    cases hsource : w.rowBySource? payload.sourceSystem payload.sourceReplayId with
    | some row =>
      have hmatch : matchesPayload row payload = false := by
        rw [World.rowByObject?_eq, List.find?_eq_none] at hobject
        rw [World.rowBySource?_eq] at hsource
        exact Bool.eq_false_iff.2 (hobject row (List.mem_of_find?_eq_some hsource))
      refine Proc.ends_call ⟨.error (.database (some "23505")), w, Or.inl ?_⟩ ?_
      · rw [hobject, hsource]
        exact ⟨rfl, _, by decide, rfl⟩
      rintro r w' (hinsert | ⟨hfault, _⟩)
      · rw [hobject, hsource] at hinsert
        obtain ⟨rfl, error, hunique, rfl⟩ := hinsert
        show Proc.Ends b.Step _ w' (stageError payload error)
        unfold stageError
        rw [if_pos hunique]
        refine (ends_classify_source hup hsource hmatch).imp ?_
        rintro r w'' ⟨rfl, rfl⟩
        exact ⟨_, rfl, rfl, rfl⟩
      · rw [hup] at hfault
        cases hfault
    | none =>
      refine Proc.ends_call ⟨.ok (some ""), w.addRow (payload.toRow ""), Or.inl ?_⟩ ?_
      · rw [hobject, hsource]
        exact ⟨"", rfl, Or.inl rfl⟩
      rintro r w' (hinsert | ⟨hfault, _⟩)
      · rw [hobject, hsource] at hinsert
        obtain ⟨id, rfl, rfl | ⟨hfault, _⟩⟩ := hinsert
        · exact Proc.ends_pure ⟨_, rfl, id, rfl, rfl⟩
        · rw [hup] at hfault
          cases hfault
      · rw [hup] at hfault
        cases hfault

/-- Where a row with the object has the identity, the code's answer is the contract's. -/
theorem StageOutcome.classified {w' : World Text} {result : IngestStagingResult}
    (hunique : KeysUnique w.staging) (hunder : ObjectUnderSource payload w.staging)
    (h : StageOutcome payload w result w') : Classified payload w.staging result w'.staging := by
  have hnoRow : ¬ ∃ id, w.staging = w.staging ++ [payload.toRow id] := by
    rintro ⟨id, heq⟩
    exact absurd (List.self_eq_append_right.1 heq) (List.cons_ne_nil _ _)
  unfold StageOutcome at h
  rw [World.rowByObject?_eq, World.rowBySource?_eq] at h
  cases hobject : w.staging.find? fun row => matchesPayload row payload with
  | some row =>
    rw [hobject] at h
    obtain ⟨rfl, rfl⟩ := h
    have hmem := List.mem_of_find?_eq_some hobject
    have hmatch : matchesPayload row payload = true :=
      List.find?_some (p := fun row => matchesPayload row payload) hobject
    have hsame := hunder row hmem hmatch
    refine ⟨⟨fun h => (by cases h), fun h => (hnoRow h).elim⟩,
      ⟨fun _ => ⟨row, hmem, hsame, hmatch⟩, fun _ => rfl⟩,
      ⟨fun h => (by cases h.1), ?_⟩, ⟨fun h => (by cases h.1), ?_⟩⟩
    · rintro ⟨row', hmem', hsame', hmatch'⟩
      rw [hunique.eq_of_sameSource hmem' hmem hsame' hsame, hmatch] at hmatch'
      cases hmatch'
    · rintro ⟨hnone, _⟩
      rw [hnone row hmem] at hsame
      cases hsame
  | none =>
    rw [hobject] at h
    have hnoObject : ∀ row ∈ w.staging, matchesPayload row payload = false := fun row hrow =>
      Bool.eq_false_iff.2 (List.find?_eq_none.1 hobject row hrow)
    cases hsource : w.staging.find? fun row => row.sameSource payload with
    | some row =>
      rw [hsource] at h
      obtain ⟨rfl, rfl⟩ := h
      have hmem := List.mem_of_find?_eq_some hsource
      have hsame : row.sameSource payload = true :=
        List.find?_some (p := fun row : StagingRow => row.sameSource payload) hsource
      refine ⟨⟨fun h => (by cases h), fun h => (hnoRow h).elim⟩, ⟨fun h => (by cases h), ?_⟩,
        ⟨fun _ => ⟨row, hmem, hsame, hnoObject row hmem⟩, fun _ => ⟨rfl, rfl⟩⟩, ?_, ?_⟩
      · rintro ⟨row', hmem', _, hmatch'⟩
        rw [hnoObject row' hmem'] at hmatch'
        cases hmatch'
      · rintro ⟨_, hreason⟩
        exact absurd (Option.some.inj hreason) (by decide)
      · rintro ⟨hnone, _⟩
        rw [hnone row hmem] at hsame
        cases hsame
    | none =>
      rw [hsource] at h
      obtain ⟨id, rfl, rfl⟩ := h
      have hnoSource : ∀ row ∈ w.staging, row.sameSource payload = false := fun row hrow =>
        Bool.eq_false_iff.2 (List.find?_eq_none.1 hsource row hrow)
      refine ⟨⟨fun _ => ⟨id, rfl⟩, fun _ => rfl⟩, ⟨fun h => (by cases h), ?_⟩,
        ⟨fun h => (by cases h.1), ?_⟩, ⟨fun h => (by cases h.1), ?_⟩⟩
      · rintro ⟨row, hmem, hsame, _⟩
        rw [hnoSource row hmem] at hsame
        cases hsame
      · rintro ⟨row, hmem, hsame, _⟩
        rw [hnoSource row hmem] at hsame
        cases hsame
      · rintro ⟨_, row, hmem, hmatch⟩
        rw [hnoObject row hmem] at hmatch
        cases hmatch

/-- An object under another identity is answered `already_staged`, which the contract has for the
    payload's own identity. -/
theorem objectUnderSource_of_exact (hup : b.faults.staging = false) (hunique : KeysUnique w.staging)
    (h : StagesExactly b payload w) : ObjectUnderSource payload w.staging := by
  intro row hmem hmatch
  obtain ⟨w', q, r, hruns, hresult, result, rfl, hclassified⟩ := h.exists_run
  rw [Proc.result_eq_some.1 hresult] at hruns
  obtain ⟨result', heq, houtcome⟩ := (ends_stage hup payload w).returned hruns
  cases heq
  unfold StageOutcome at houtcome
  rw [World.rowByObject?_eq] at houtcome
  cases hobject : w.staging.find? fun row => matchesPayload row payload with
  | none =>
    rw [List.find?_eq_none] at hobject
    exact absurd hmatch (hobject row hmem)
  | some found =>
    rw [hobject] at houtcome
    obtain ⟨rfl, rfl⟩ := houtcome
    obtain ⟨row', hmem', hsame', hmatch'⟩ := hclassified.alreadyStaged.1 rfl
    rw [hunique.eq_of_matches hmem hmem' hmatch hmatch']
    exact hsame'

/-- **Staging follows the contract** exactly on the tables whose row with the payload's object, if
    there is one, has the payload's source identity. -/
theorem stage_exact_iff (hup : b.faults.staging = false) (hunique : KeysUnique w.staging) :
    StagesExactly b payload w ↔ ObjectUnderSource payload w.staging := by
  constructor
  · intro hexact
    exact objectUnderSource_of_exact hup hunique hexact
  · intro hunder
    refine (ends_stage hup payload w).imp ?_
    rintro r w' ⟨result, rfl, houtcome⟩
    exact ⟨result, rfl, houtcome.classified hunique hunder⟩

end Table

/-! ## The same bytes under another id -/

/-- The payload of `toyCandidate`, under a source id of choice. -/
def payloadOf (sourceReplayId : String) : IngestStagingPayload where
  checksum := toyDigest [7]
  objectKey := rawKey (toyDigest [7])
  promotionEvidence :=
    { bucket := "bucket", byteSize := 1, checksum := toyDigest [7], fetchedAt := ""
      objectKey := rawKey (toyDigest [7]), rawStorageStatus := .skipped, sourceFilename := "a.ocap"
      sourceUrl := "a" }
  sizeBytes := 1
  sourceReplayId := sourceReplayId
  sourceSystem := defaultSourceSystem
  status := .pending

/-- A table with one row, under id `1`. -/
def oneRowWorld : World (Option Json) := emptyWorld.addRow ((payloadOf "1").toRow "row")

theorem keysUnique_oneRow : KeysUnique oneRowWorld.staging :=
  ⟨List.nodup_singleton _, List.nodup_singleton _⟩

/-- The replay staged under id `1` is staged again as it was. -/
theorem stage_exact_again : StagesExactly toyServices (payloadOf "1") oneRowWorld := by
  refine (stage_exact_iff rfl keysUnique_oneRow).2 ?_
  intro row hrow hmatch
  rw [List.mem_singleton.1 hrow]
  rfl

/-- Under id `2` the same bytes are no conflict to `stage`. -/
theorem stage_not_exact : ¬ StagesExactly toyServices (payloadOf "2") oneRowWorld := by
  intro h
  have hunder := objectUnderSource_of_exact rfl keysUnique_oneRow h
  have hsame := hunder _ (List.mem_singleton.2 rfl) (by decide +kernel)
  exact absurd hsame (by decide +kernel)

/-! ## The code on a failing database -/

/-- How the statements of `stage` turn out, at each place where it sends one. -/
structure QueryOutcomes where
  insert : Except JsError (Option String)
  /-- the lookup after an INSERT that returned no row -/
  existing : Except JsError (Option StagingRow)
  /-- the two lookups of `classifyExistingStaging` -/
  bySource : Except JsError (Option StagingRow)
  byObject : Except JsError (Option StagingRow)

/-- What has been sent so far. -/
structure Issued where
  /-- has `classifyExistingStaging` begun? -/
  classifying : Bool := false
  raised : List JsError := []

def Issued.note {α : Type} (issued : Issued) : Except JsError α → Issued
  | .ok _ => issued
  | .error error => { issued with raised := issued.raised ++ [error] }

/-- A database whose statements turn out so. -/
def QueryOutcomes.serve (outcomes : QueryOutcomes) : Env Issued (Effect Text) Reply
  | issued, .insertStaging _, r, issued' => r = outcomes.insert ∧ issued' = issued.note r
  | issued, .findBySourceIdentity _ _, r, issued' =>
    r = outcomes.bySource ∧ issued' = { issued.note r with classifying := true }
  | issued, .findByObjectIdentity _ _, r, issued' =>
    r = (if issued.classifying then outcomes.byObject else outcomes.existing) ∧
      issued' = issued.note r
  | _, _, _, _ => False

/-- Resolved, and as `failed` when a statement has failed for an operational reason. -/
def Operational (r : Except JsError IngestStagingResult) (issued : Issued) : Prop :=
  ∃ result, r = .ok result ∧
    ((∃ error ∈ issued.raised, isUniqueViolation error = false) → result.status = .failed)

def StaysOperational (outcomes : QueryOutcomes) (payload : IngestStagingPayload) : Prop :=
  Proc.Ends outcomes.serve Operational {} (stage payload : Program Text _)

/-- The outcomes that lead to `classifyExistingStaging`. -/
def QueryOutcomes.Classifies (outcomes : QueryOutcomes) : Prop :=
  (∃ error, outcomes.insert = .error error ∧ isUniqueViolation error = true) ∨
  outcomes.insert = .ok none ∧ (outcomes.existing = .ok none ∨
    ∃ error, outcomes.existing = .error error ∧ isUniqueViolation error = true)

/-- The lookups of `classifyExistingStaging` that are sent do not raise. -/
def QueryOutcomes.LookupsAnswered (outcomes : QueryOutcomes) : Prop :=
  (∃ row?, outcomes.bySource = .ok row?) ∧
    (outcomes.bySource = .ok none → ∃ row?, outcomes.byObject = .ok row?)

section Outcomes

variable {outcomes : QueryOutcomes} {payload : IngestStagingPayload} {issued : Issued}

/-- Handled when `ok`, rejected when not. -/
def HandledIff (ok : Prop) (r : Except JsError IngestStagingResult) (issued : Issued) : Prop :=
  (ok ∧ Operational r issued) ∨ (¬ ok ∧ ∃ error, r = .error error)

theorem operational_ok {result : IngestStagingResult}
    (hraised : ∀ error ∈ issued.raised, isUniqueViolation error = true) :
    Operational (.ok result) issued := by
  refine ⟨result, rfl, ?_⟩
  rintro ⟨error, hmem, hviolation⟩
  rw [hraised error hmem] at hviolation
  cases hviolation

theorem ends_classify_outcomes
    (hraised : ∀ error ∈ issued.raised, isUniqueViolation error = true) :
    Proc.Ends outcomes.serve (HandledIff outcomes.LookupsAnswered) issued
      (classifyExistingStaging payload : Program Text _) := by
  rw [classifyExistingStaging_eq]
  refine Proc.ends_call ⟨_, _, rfl, rfl⟩ ?_
  rintro r _ ⟨rfl, rfl⟩
  cases hsource : outcomes.bySource with
  | error error =>
    refine Proc.ends_pure (Or.inr ⟨?_, error, rfl⟩)
    rintro ⟨⟨_, hrow⟩, _⟩
    rw [hsource] at hrow
    cases hrow
  | ok row? =>
    cases row? with
    | some row =>
      refine Proc.ends_pure (Or.inl ⟨⟨⟨_, hsource⟩, fun h => ?_⟩, operational_ok hraised⟩)
      rw [hsource] at h
      cases h
    | none =>
      refine Proc.ends_call ⟨_, _, rfl, rfl⟩ ?_
      rintro r _ ⟨hr, rfl⟩
      obtain rfl : r = outcomes.byObject := hr
      cases hobject : outcomes.byObject with
      | error error =>
        refine Proc.ends_pure (Or.inr ⟨?_, error, rfl⟩)
        rintro ⟨_, hnone⟩
        obtain ⟨_, hrow⟩ := hnone hsource
        rw [hobject] at hrow
        cases hrow
      | ok row? =>
        have hanswered : outcomes.LookupsAnswered := ⟨⟨_, hsource⟩, fun _ => ⟨_, hobject⟩⟩
        cases row? with
        | some row => exact Proc.ends_pure (Or.inl ⟨hanswered, operational_ok hraised⟩)
        | none => exact Proc.ends_pure (Or.inl ⟨hanswered, operational_ok hraised⟩)

/-- An error inside the `try`. -/
theorem ends_stageError {error : JsError} (hraised : issued.raised = [error])
    (hclassifies : outcomes.Classifies ↔ isUniqueViolation error = true) :
    Proc.Ends outcomes.serve (HandledIff (outcomes.Classifies → outcomes.LookupsAnswered)) issued
      (stageError payload error : Program Text _) := by
  unfold stageError
  by_cases hunique : isUniqueViolation error = true
  · rw [if_pos hunique]
    refine (ends_classify_outcomes ?_).imp ?_
    · rw [hraised]
      intro error' hmem
      rwa [List.mem_singleton.1 hmem]
    · intro r issued' h
      rcases h with ⟨hanswered, h⟩ | ⟨hraises, h⟩
      · exact Or.inl ⟨fun _ => hanswered, h⟩
      · exact Or.inr ⟨fun hall => hraises (hall (hclassifies.2 hunique)), h⟩
  · rw [if_neg hunique]
    refine Proc.ends_pure (Or.inl ⟨fun h => absurd (hclassifies.1 h) hunique, _, rfl, fun _ => rfl⟩)

theorem ends_stage_outcomes :
    Proc.Ends outcomes.serve (HandledIff (outcomes.Classifies → outcomes.LookupsAnswered)) {}
      (stage payload : Program Text _) := by
  rw [stage_eq]
  refine Proc.ends_call ⟨_, _, rfl, rfl⟩ ?_
  rintro r _ ⟨rfl, rfl⟩
  cases hinsert : outcomes.insert with
  | error error =>
    refine ends_stageError rfl ?_
    unfold QueryOutcomes.Classifies
    rw [hinsert]
    constructor
    · rintro (⟨_, heq, hunique⟩ | ⟨heq, _⟩)
      · cases heq
        exact hunique
      · cases heq
    · intro hunique
      exact Or.inl ⟨error, rfl, hunique⟩
  | ok id? =>
    cases id? with
    | some id =>
      refine Proc.ends_pure (Or.inl ⟨?_, operational_ok fun _ h => (List.not_mem_nil h).elim⟩)
      unfold QueryOutcomes.Classifies
      rw [hinsert]
      rintro (⟨_, heq, _⟩ | ⟨heq, _⟩)
      · cases heq
      · cases heq
    | none =>
      refine Proc.ends_call ⟨_, _, rfl, rfl⟩ ?_
      rintro r _ ⟨hr, rfl⟩
      -- the classification has not begun: this is the lookup inside the `try`
      obtain rfl : r = outcomes.existing := hr
      cases hexisting : outcomes.existing with
      | error error =>
        refine ends_stageError rfl ?_
        unfold QueryOutcomes.Classifies
        rw [hinsert, hexisting]
        constructor
        · rintro (⟨_, heq, _⟩ | ⟨_, heq | ⟨_, heq, hunique⟩⟩)
          · cases heq
          · cases heq
          · cases heq
            exact hunique
        · intro hunique
          exact Or.inr ⟨rfl, Or.inr ⟨error, rfl, hunique⟩⟩
      | ok row? =>
        cases row? with
        | some row =>
          refine Proc.ends_pure (Or.inl ⟨?_, operational_ok fun _ h => (List.not_mem_nil h).elim⟩)
          unfold QueryOutcomes.Classifies
          rw [hinsert, hexisting]
          rintro (⟨_, heq, _⟩ | ⟨_, heq | ⟨_, heq, _⟩⟩)
          · cases heq
          · cases heq
          · cases heq
        | none =>
          have hclassifies : outcomes.Classifies := Or.inr ⟨hinsert, Or.inl hexisting⟩
          refine (ends_classify_outcomes fun _ h => (List.not_mem_nil h).elim).imp ?_
          intro r issued' h
          rcases h with ⟨hanswered, h⟩ | ⟨hraises, h⟩
          · exact Or.inl ⟨fun _ => hanswered, h⟩
          · exact Or.inr ⟨fun hall => hraises (hall hclassifies), h⟩

/-- A lookup of `classifyExistingStaging` that raises makes `stage` reject. -/
theorem lookupsAnswered_of_operational
    (h : @StaysOperational Text outcomes payload) (hclassifies : outcomes.Classifies) :
    outcomes.LookupsAnswered := by
  obtain ⟨issued, q, r, hruns, hresult, result, rfl, _⟩ := h.exists_run
  rw [Proc.result_eq_some.1 hresult] at hruns
  rcases ends_stage_outcomes.returned hruns with ⟨hanswered, _⟩ | ⟨_, error, heq⟩
  · exact hanswered hclassifies
  · cases heq

/-- **A failing database is reported** exactly when no lookup of `classifyExistingStaging` that is
    sent raises. -/
theorem stage_operational_iff : @StaysOperational Text outcomes payload ↔
    (outcomes.Classifies → outcomes.LookupsAnswered) := by
  constructor
  · intro h hclassifies
    exact lookupsAnswered_of_operational h hclassifies
  · intro hanswered
    refine ends_stage_outcomes.imp ?_
    rintro r issued (⟨_, h⟩ | ⟨hraises, _⟩)
    · exact h
    · exact absurd hanswered hraises

end Outcomes

/-- The INSERT hits a unique key, and then the connection is gone. -/
def lostConnection : QueryOutcomes where
  insert := .error (.database (some "23505"))
  existing := .ok none
  bySource := .error (.database none)
  byObject := .ok none

theorem stage_not_operational :
    ¬ @StaysOperational (Option Json) lostConnection (payloadOf "1") := by
  intro h
  have hclassifies : lostConnection.Classifies := Or.inl ⟨_, rfl, by decide⟩
  obtain ⟨⟨_, hrow⟩, _⟩ := lookupsAnswered_of_operational h hclassifies
  cases hrow

end ReplaysFetcher
