/-
  Rows and objects belong together.

  server-2 reads a staging row and fetches the object the row names.  Three programs write rows: a
  run, the watcher, and the store-raw discovery.  Any number of them may be at work on one bucket
  and one table, over different sources, each killed anywhere, every service failing in every way
  `Faults` knows, and the sources serving other bytes at every read.

  1. `Consistent`: every row names the object of its own checksum, that object exists, and its
     contents hash to the checksum.  Nobody has to agree about contents for this, so digests may
     even collide.
  2. A PUT writes contents under their own digest, so it keeps 1 even where it replaces an object.
     An INSERT is only sent behind evidence that the object is there, and objects never disappear.
  3. `Stowed` and `InTable` are what a result that came in tells about the stores.  They last, and
     `RunResults` carries them to the summary: what a run reports is still there when it reports it,
     and ever after.
-/
import ReplaysFetcher.ContentAddressing
import ReplaysFetcher.FanOut
import ReplaysFetcher.RunResults
import ReplaysFetcher.StoreRaw

namespace ReplaysFetcher

open Effectful

variable {Text : Type}

/-! ## Rows with their objects -/

/-- The object of this checksum is there, under this key, with these contents. -/
structure Backed (pf : Platform Text) (checksum objectKey : String) (w : World Text) : Prop where
  key : objectKey = rawKey checksum
  object : ∃ object, w.raw objectKey = some object ∧ pf.sha256Hex object.bytes = checksum ∧
    object.sha256 = some checksum

/-- Objects lie under their digests, and rows name objects that are there. -/
structure Consistent (pf : Platform Text) (w : World Text) : Prop where
  addressed : ContentAddressed pf Set.univ w
  rows : ∀ row ∈ w.staging, Backed pf row.checksum row.objectKey w

/-- What everybody may rely on, and has to keep. -/
structure Retains (pf : Platform Text) (w w' : World Text) : Prop where
  rows : w.staging <+: w'.staging
  objects : ∀ key, (w.raw key).isSome = true → (w'.raw key).isSome = true
  consistent : Consistent pf w → Consistent pf w'

section Consistent

variable {pf : Platform Text} {w w' : World Text} {checksum objectKey : String}

theorem Retains.refl (w : World Text) : Retains pf w w :=
  ⟨List.prefix_refl _, fun _ h => h, fun h => h⟩

/-- Objects and rows are all that counts. -/
theorem Consistent.of_eq (h : Consistent pf w) (hraw : w'.raw = w.raw)
    (hstaging : w'.staging = w.staging) : Consistent pf w' := by
  constructor
  · intro sha256 object hobject
    rw [hraw] at hobject
    exact h.addressed sha256 object hobject
  · intro row hrow
    rw [hstaging] at hrow
    obtain ⟨hkey, hobject⟩ := h.rows row hrow
    exact ⟨hkey, by rwa [hraw]⟩

theorem retains_of_eq (hraw : w'.raw = w.raw) (hstaging : w'.staging = w.staging) :
    Retains pf w w' :=
  ⟨by rw [hstaging], fun _ h => by rwa [hraw], fun h => h.of_eq hraw hstaging⟩

/-- An object that is there under the key of a digest backs that digest. -/
theorem ContentAddressed.backed (h : ContentAddressed pf Set.univ w) (hkey : objectKey = rawKey checksum)
    (hsome : (w.raw objectKey).isSome = true) : Backed pf checksum objectKey w := by
  obtain ⟨object, hobject⟩ := Option.isSome_iff_exists.1 hsome
  subst hkey
  obtain ⟨_, hdigest, hmetadata⟩ := h checksum object hobject
  exact ⟨rfl, object, hobject, hdigest, hmetadata⟩

/-- **Objects do not go away**, so what is backed stays backed. -/
theorem Backed.kept (h : Backed pf checksum objectKey w) (hw : Consistent pf w)
    (hr : Retains pf w w') : Backed pf checksum objectKey w' := by
  obtain ⟨object, hobject, _⟩ := h.object
  refine (hr.consistent hw).addressed.backed h.key (hr.objects _ ?_)
  rw [hobject]
  rfl

/-- **A PUT under the digest of its bytes.** It may replace an object, by contents of the same
    digest. -/
theorem retains_putRaw (bytes : Bytes) : Retains pf w
    (w.putRaw (rawKey (pf.sha256Hex bytes)) { bytes, sha256 := some (pf.sha256Hex bytes) }) := by
  have hobjects : ∀ key, (w.raw key).isSome = true →
      ((w.putRaw (rawKey (pf.sha256Hex bytes))
        { bytes, sha256 := some (pf.sha256Hex bytes) }).raw key).isSome = true := by
    intro key hsome
    unfold World.putRaw
    by_cases hkey : key = rawKey (pf.sha256Hex bytes)
    · subst hkey
      simp
    · simpa [Function.update_of_ne hkey] using hsome
  refine ⟨List.prefix_refl _, hobjects, fun h => ?_⟩
  have haddressed : ContentAddressed pf Set.univ (w.putRaw (rawKey (pf.sha256Hex bytes))
      { bytes, sha256 := some (pf.sha256Hex bytes) }) := by
    intro sha256 object hobject
    rw [putRaw_rawKey] at hobject
    split at hobject
    · rename_i heq
      obtain rfl := Option.some.inj hobject
      exact ⟨trivial, heq.symm, by rw [heq]⟩
    · exact h.addressed sha256 object hobject
  refine ⟨haddressed, fun row hrow => ?_⟩
  obtain ⟨hkey, object, hobject, _⟩ := h.rows row hrow
  exact haddressed.backed hkey (hobjects _ (by rw [hobject]; rfl))

theorem Backed.addRow (h : Backed pf checksum objectKey w) (row : StagingRow) :
    Backed pf checksum objectKey (w.addRow row) := ⟨h.key, h.object⟩

/-- **An INSERT of a row whose object is there.** -/
theorem retains_addRow {row : StagingRow} (hbacked : Backed pf row.checksum row.objectKey w) :
    Retains pf w (w.addRow row) := by
  refine ⟨List.prefix_append _ _, fun _ h => h, fun h => ⟨h.addressed, fun other hother => ?_⟩⟩
  rcases List.mem_append.1 hother with hother | hother
  · exact (h.rows other hother).addRow row
  · obtain rfl := List.mem_singleton.1 hother
    exact hbacked.addRow _

/-- Every other request leaves objects and rows alone. -/
def OffStorage : Effect Text → Prop
  | .putObject _ _ _ | .insertStaging _ => False
  | _ => True

theorem retains_of_step {b : Backend Text} {e : Effect Text} (he : OffStorage e) {r : Reply e}
    (h : b.Step w e r w') : Retains pf w w' := by
  obtain ⟨hraw, hstaging⟩ := raw_staging_of_step h
    (fun key bytes sha256 heq => by subst heq; exact he) (fun payload heq => by subst heq; exact he)
  exact retains_of_eq hraw hstaging

/-- Programs that send no PUT and no INSERT are not noticed. -/
theorem quiet_of_offStorage {b : Backend Text} {α : Type} {p : Program Text α}
    (h : Proc.Asks OffStorage p) : Proc.Quiet b.Step (Retains pf) (Retains pf) p :=
  h.quiet Retains.refl fun _ he _ _ _ hr => ⟨retains_of_step he hr, retains_of_step he hr⟩

end Consistent

/-! ## What a result tells -/

/-- A raw result that counts as a success tells that its object is there. -/
def Stowed (pf : Platform Text) (result : StoreRawReplayResult) (w : World Text) : Prop :=
  result.status = .stored ∨ result.status = .skipped →
    ∃ evidence, result = .stored evidence ∧ Backed pf evidence.checksum evidence.objectKey w

/-- A staging result that counts as a success tells that a row for its object is there, and the
    object behind it. -/
def InTable (pf : Platform Text) (result : IngestStagingResult) (w : World Text) : Prop :=
  result.status = .staged ∨ result.status = .alreadyStaged →
    ∃ payload, result.payload = some payload ∧ Backed pf payload.checksum payload.objectKey w ∧
      ∃ row ∈ w.staging, row.checksum = payload.checksum ∧ row.objectKey = payload.objectKey

section Results

variable {pf : Platform Text} {w w' : World Text}

theorem Stowed.kept {result : StoreRawReplayResult} (h : Stowed pf result w)
    (hw : Consistent pf w) (hr : Retains pf w w') : Stowed pf result w' := by
  intro hstatus
  obtain ⟨evidence, hresult, hbacked⟩ := h hstatus
  exact ⟨evidence, hresult, hbacked.kept hw hr⟩

theorem InTable.kept {result : IngestStagingResult} (h : InTable pf result w)
    (hw : Consistent pf w) (hr : Retains pf w w') : InTable pf result w' := by
  intro hstatus
  obtain ⟨payload, hpayload, hbacked, row, hrow, hsame⟩ := h hstatus
  exact ⟨payload, hpayload, hbacked.kept hw hr, row, hr.rows.subset hrow, hsame⟩

/-- A result that is no success tells nothing. -/
theorem stowed_of_ne {result : StoreRawReplayResult} (hstored : result.status ≠ .stored)
    (hskipped : result.status ≠ .skipped) : Stowed pf result w :=
  fun hstatus => (hstatus.elim hstored hskipped).elim

theorem inTable_of_ne {result : IngestStagingResult} (hstaged : result.status ≠ .staged)
    (halready : result.status ≠ .alreadyStaged) : InTable pf result w :=
  fun hstatus => (hstatus.elim hstaged halready).elim

/-- The facts of a run's results. -/
def integrityRule (pf : Platform Text) : ResultRule (World Text) where
  J := Consistent pf
  A result w := Consistent pf w ∧ Stowed pf result w
  B result w := Consistent pf w ∧ InTable pf result w

theorem lasts_integrityRule : (integrityRule pf).Lasts (Retains pf) where
  refl := Retains.refl
  J _ _ h hr := hr.consistent h
  A _ _ _ h hr := ⟨hr.consistent h.1, h.2.kept h.1 hr⟩
  B _ _ _ h hr := ⟨hr.consistent h.1, h.2.kept h.1 hr⟩

end Results

/-! ## One candidate -/

section Candidate

variable {pf : Platform Text} {b : Backend Text} {w w' : World Text} {bucket : String}
  {candidate : ReplayCandidate}

/-- The S3 adapter. -/
theorem safe_s3StoreRawReplay_stowed (now : Date) (bytes : Bytes) (hw : Consistent pf w) :
    Proc.Safe b.Step (Retains pf) (Retains pf)
      (fun evidence w => Consistent pf w ∧ Stowed pf (.stored evidence) w) w
      (s3StoreRawReplay bucket (storageInput pf candidate now bytes)) := by
  refine safe_s3StoreRawReplay (Consistent pf) (Consistent pf) (fun _ _ h hr => hr.consistent h)
    (fun _ _ h hr => hr.consistent h) (fun _ _ _ h hr => ⟨hr.consistent h.1, h.2.kept h.1 hr⟩)
    ?_ ?_ hw
  · rintro w hw r w' ⟨rfl, hreply⟩
    refine ⟨Retains.refl _, fun output hok => ⟨hw, ?_⟩, fun error herror => ?_⟩
    · -- HEAD has seen an object, and what lies under this key is this digest's
      have hsome : (w'.raw (rawKey (pf.sha256Hex bytes))).isSome = true := by
        subst hok
        rcases hreply with hreply | ⟨_, _, _, hreply⟩
        · cases hobject : w'.raw (rawKey (pf.sha256Hex bytes)) with
          | some object => rfl
          | none =>
            rw [show (storageInput pf candidate now bytes).objectKey =
              rawKey (pf.sha256Hex bytes) from rfl, hobject] at hreply
            obtain ⟨_, _, hreply⟩ := hreply
            cases hreply
        · cases hreply
      refine fun _ => ⟨_, rfl, ?_⟩
      unfold headEvidence
      split <;> exact hw.addressed.backed rfl hsome
    · split
      · exact hw
      · exact ⟨hw, fun hstatus => by rcases hstatus with h | h <;> cases h⟩
  · intro w hw r w' hr
    have hkeeps : Retains pf w w' := by
      rcases hr with ⟨rfl, _⟩ | ⟨_, hsame, _⟩
      · exact retains_putRaw bytes
      · subst hsame
        exact Retains.refl _
    refine ⟨hkeeps, hkeeps.consistent hw, ?_⟩
    cases r with
    | error error => exact fun hstatus => by rcases hstatus with h | h <;> cases h
    | ok u =>
      rcases hr with ⟨rfl, _⟩ | ⟨_, _, _, herror⟩
      · refine fun _ => ⟨_, rfl, (hkeeps.consistent hw).addressed.backed rfl ?_⟩
        show ((w.putRaw _ _).raw (rawKey (pf.sha256Hex bytes))).isSome = true
        rw [show (storageInput pf candidate now bytes).objectKey =
          rawKey (pf.sha256Hex bytes) from rfl, putRaw_rawKey, if_pos rfl]
        rfl
      · cases herror

/-- **Storing one candidate**: a success tells that the object is there. -/
theorem safe_storeRawReplay_stowed (hw : Consistent pf w) :
    Proc.Safe b.Step (Retains pf) (Retains pf)
      (Async.Outcome (fun result w => Consistent pf w ∧ Stowed pf result w)
        fun _ => Consistent pf) w (storeRawReplay pf bucket candidate) := by
  have hfailure : ∀ (now : Date) error (w : World Text), Consistent pf w →
      Async.Outcome (fun result w => Consistent pf w ∧ Stowed pf result w)
        (fun _ => Consistent pf) (fetchFailureOutcome candidate (toISOString now) error) w := by
    intro now error w hw
    cases error with
    | replayByteFetch code message =>
      exact ⟨hw, stowed_of_ne nofun nofun⟩
    | _ => exact hw
  refine safe_storeRawReplay (Consistent pf) (Consistent pf) (fun _ => Consistent pf)
    (fun _ _ h hr => hr.consistent h) (fun _ _ h hr => hr.consistent h)
    (Async.outcome_stable (fun _ _ _ h hr => ⟨hr.consistent h.1, h.2.kept h.1 hr⟩)
      fun _ _ _ h hr => hr.consistent h) ?_ ?_ ?_ ?_ hw
  · rintro w hw now w' rfl
    exact ⟨Retains.refl _, hw⟩
  · exact fun error _ now w hw => hfailure now error w hw
  · rintro url hurl w hw r w' ⟨rfl, hreply⟩
    exact ⟨Retains.refl _, fun _ _ => hw, fun error _ now => hfailure now error _ hw⟩
  · exact fun now bytes w hw => safe_s3StoreRawReplay_stowed now bytes hw

/-- The staging facts of a result, while the payload's object is there. -/
theorem inTable_of_row {payload : IngestStagingPayload} {result : IngestStagingResult}
    {row : StagingRow} (hpayload : result.payload = some payload)
    (hbacked : Backed pf payload.checksum payload.objectKey w) (hrow : row ∈ w.staging)
    (hsame : row.checksum = payload.checksum ∧ row.objectKey = payload.objectKey) :
    InTable pf result w :=
  fun _ => ⟨payload, hpayload, hbacked, row, hrow, hsame⟩

/-- A row that was looked up by the object it names. -/
theorem mem_rowByObject? {checksum objectKey : String} {row : StagingRow}
    (h : w.rowByObject? checksum objectKey = some row) :
    row ∈ w.staging ∧ row.checksum = checksum ∧ row.objectKey = objectKey := by
  have hcond := List.find?_some h
  simp only [Bool.and_eq_true, decide_eq_true_eq] at hcond
  exact ⟨List.mem_of_find?_eq_some h, hcond⟩

/-- What is known before and after a statement of `stage`. -/
def Staging (pf : Platform Text) (payload : IngestStagingPayload) (w : World Text) : Prop :=
  Consistent pf w ∧ Backed pf payload.checksum payload.objectKey w

theorem Staging.kept {payload : IngestStagingPayload} (h : Staging pf payload w)
    (hr : Retains pf w w') : Staging pf payload w' :=
  ⟨hr.consistent h.1, h.2.kept h.1 hr⟩

/-- The postcondition of `stage`. -/
def StagedWell (pf : Platform Text) : Except JsError IngestStagingResult → World Text → Prop :=
  Async.Outcome (fun result w => Consistent pf w ∧ InTable pf result w) fun _ => Consistent pf

theorem stageError_inTable {payload : IngestStagingPayload} (hw : Staging pf payload w)
    (error : JsError) :
    StageErrorPost (StagedWell pf) (Staging pf payload) payload error w := by
  unfold StageErrorPost
  split
  · exact hw
  · exact ⟨hw.1, inTable_of_ne nofun nofun⟩

/-- **Staging one payload** whose object is there: the row that is added names it, and a success
    tells that such a row is there. -/
theorem safe_stage_inTable {payload : IngestStagingPayload} (hw : Staging pf payload w) :
    Proc.Safe b.Step (Retains pf) (Retains pf) (StagedWell pf) w (stage payload) := by
  have hstable : ∀ w w', Staging pf payload w → Retains pf w w' → Staging pf payload w' :=
    fun _ _ h hr => h.kept hr
  have hpost : ∀ r w w', StagedWell pf r w → Retains pf w w' → StagedWell pf r w' :=
    Async.outcome_stable (fun _ _ _ h hr => ⟨hr.consistent h.1, h.2.kept h.1 hr⟩)
      fun _ _ _ h hr => hr.consistent h
  refine safe_stage (Staging pf payload) (Staging pf payload) (Staging pf payload) hstable hstable
    hpost ?_ ?_ ?_ hw
  · rintro w hw r w' (hinsert | ⟨_, rfl, error, _, rfl⟩)
    · split at hinsert
      · obtain ⟨rfl, rfl⟩ := hinsert
        exact ⟨Retains.refl _, hw⟩
      · split at hinsert
        · obtain ⟨rfl, error, _, rfl⟩ := hinsert
          exact ⟨Retains.refl _, stageError_inTable hw error⟩
        · obtain ⟨id, rfl, hreply⟩ := hinsert
          -- the row was added, whatever the reply says
          have hkeeps : Retains pf w (w.addRow (payload.toRow id)) := retains_addRow hw.2
          refine ⟨hkeeps, ?_⟩
          rcases hreply with rfl | ⟨_, error, _, rfl⟩
          · exact ⟨hkeeps.consistent hw.1, inTable_of_row rfl (hw.kept hkeeps).2
              (List.mem_append_right _ (List.mem_singleton.2 rfl)) ⟨rfl, rfl⟩⟩
          · exact stageError_inTable (hw.kept hkeeps) error
    · exact ⟨Retains.refl _, stageError_inTable hw error⟩
  · rintro w hw r w' ⟨rfl, rfl | ⟨_, error, _, rfl⟩⟩
    · refine ⟨Retains.refl _, ?_⟩
      cases hfind : w'.rowByObject? payload.checksum payload.objectKey with
      | none => exact hw
      | some row =>
        obtain ⟨hrow, hsame⟩ := mem_rowByObject? hfind
        exact ⟨hw.1, inTable_of_row rfl hw.2 hrow hsame⟩
    · exact ⟨Retains.refl _, stageError_inTable hw error⟩
  · intro w hw
    refine safe_classifyExistingStaging (Staging pf payload) (Staging pf payload) hstable hstable
      hpost ?_ ?_ hw
    · rintro w hw r w' ⟨rfl, rfl | ⟨_, error, _, rfl⟩⟩
      · refine ⟨Retains.refl _, ?_⟩
        cases hfind : w'.rowBySource? payload.sourceSystem payload.sourceReplayId with
        | none => exact hw
        | some row =>
          refine ⟨hw.1, ?_⟩
          unfold existingResult
          split
          · rename_i hmatches
            unfold matchesPayload at hmatches
            rw [Bool.and_eq_true, decide_eq_true_eq, decide_eq_true_eq] at hmatches
            exact inTable_of_row rfl hw.2 (List.mem_of_find?_eq_some hfind) hmatches
          · exact inTable_of_ne nofun nofun
      · exact ⟨Retains.refl _, hw.1⟩
    · rintro w hw r w' ⟨rfl, rfl | ⟨_, error, _, rfl⟩⟩
      · refine ⟨Retains.refl _, ?_⟩
        cases hfind : w'.rowByObject? payload.checksum payload.objectKey with
        | none => exact ⟨hw.1, inTable_of_ne nofun nofun⟩
        | some row => exact ⟨hw.1, inTable_of_ne nofun nofun⟩
      · exact ⟨Retains.refl _, hw.1⟩

/-- Staging what the store resolved with. -/
theorem safe_stageRawReplay_inTable {result : StoreRawReplayResult} {runId : Option String}
    (hw : Consistent pf w) (hstowed : Stowed pf result w) :
    Proc.Safe b.Step (Retains pf) (Retains pf) (StagedWell pf) w
      (stageRawReplay pf result runId) := by
  have hpost : ∀ r w w', StagedWell pf r w → Retains pf w w' → StagedWell pf r w' :=
    Async.outcome_stable (fun _ _ _ h hr => ⟨hr.consistent h.1, h.2.kept h.1 hr⟩)
      fun _ _ _ h hr => hr.consistent h
  cases result with
  | fetchFailed evidence =>
    exact Proc.safe_pure (hpost _) ⟨hw, inTable_of_ne nofun nofun⟩
  | stored evidence =>
    unfold stageRawReplay toIngestStagingPayload
    dsimp only
    split
    · rename_i heq
      exact Proc.safe_pure (hpost _) ⟨hw, inTable_of_ne nofun nofun⟩
    · rename_i payload heq
      split at heq
      · rename_i hstageable
        obtain rfl := Except.ok.inj heq
        -- only a success of the store is stageable, and it has told where its object is
        have hstatus : evidence.status = .stored ∨ evidence.status = .skipped := by
          simpa [isStageable] using hstageable
        obtain ⟨_, hsame, hbacked⟩ := hstowed hstatus
        obtain rfl := StoreRawReplayResult.stored.inj hsame
        exact safe_stage_inTable ⟨hw, hbacked⟩
      · cases heq

/-- Store, then stage: the results tell what they say. -/
theorem safe_processCandidate_integrity {input : IngestPageInput (Effect Text) Reply}
    (hstore : input.storeRawReplay = storeRawReplay pf bucket)
    (hstage : input.stageRawReplay = stageRawReplay pf) (hw : Consistent pf w) :
    Proc.Safe b.Step (Retains pf) (Retains pf) (integrityRule pf).Ended w
      (processCandidate input candidate) := by
  have hlasts := @lasts_integrityRule Text pf
  unfold processCandidate
  rw [hstore, hstage]
  refine Async.safe_bind (fun result w => Consistent pf w ∧ Stowed pf result w)
    (safe_storeRawReplay_stowed hw |>.imp ?_) ?_
  · rintro (error | result) w h
    · exact ⟨h, fun settled hsettled => by cases hsettled⟩
    · exact h
  · rintro result w ⟨hw, hstowed⟩
    -- the object found by the store is still there when the row is in
    refine Async.safe_bind (fun stagingResult w => (Consistent pf w ∧ InTable pf stagingResult w) ∧
        Consistent pf w ∧ Stowed pf result w)
      (((safe_stageRawReplay_inTable hw hstowed).kept (hlasts.A result) (hlasts.A result)
        ⟨hw, hstowed⟩).imp ?_) ?_
    · rintro (error | stagingResult) w ⟨h, hresult⟩
      · exact ⟨h, fun settled hsettled => by cases hsettled⟩
      · exact ⟨h, hresult⟩
    · rintro stagingResult w ⟨hstaged, hresult⟩
      refine Proc.safe_pure (fun _ _ h hr => hlasts.ended h hr) ⟨hresult.1, ?_⟩
      intro settled hsettled
      obtain rfl := Except.ok.inj hsettled
      exact ⟨hresult, hstaged⟩

/-- The same behind the gate of the watcher, or without one. -/
theorem safe_ingestCandidate_integrity {input : IngestPageInput (Effect Text) Reply}
    (hstore : input.storeRawReplay = storeRawReplay pf bucket)
    (hstage : input.stageRawReplay = stageRawReplay pf)
    (hgate : ∀ gate, input.existsBySourceIdentity = some gate →
      ∀ sourceSystem id, Proc.Asks OffStorage (gate sourceSystem id)) (hw : Consistent pf w) :
    Proc.Safe b.Step (Retains pf) (Retains pf) (integrityRule pf).Ended w
      (ingestCandidate input candidate) := by
  have hlasts := @lasts_integrityRule Text pf
  unfold ingestCandidate
  split
  · exact safe_processCandidate_integrity hstore hstage hw
  · rename_i gate hsome
    have hasks : Proc.Asks OffStorage gate := by
      unfold prefetchGate at hsome
      split at hsome
      · rename_i exists' _ _ hexists _
        split at hsome
        · cases hsome
          exact hgate _ hexists _ _
        · cases hsome
      · cases hsome
    refine Async.safe_bind (fun _ => Consistent pf)
      ((quiet_of_offStorage hasks _ hlasts.J w hw).imp ?_) fun found w hw => ?_
    · rintro (error | found) w hw
      · exact ⟨hw, fun settled hsettled => by cases hsettled⟩
      · exact hw
    · split
      · refine Proc.safe_pure (fun _ _ h hr => hlasts.ended h hr) ⟨hw, fun settled hsettled => ?_⟩
        obtain rfl := Except.ok.inj hsettled
        trivial
      · exact safe_processCandidate_integrity hstore hstage hw

end Candidate

/-! ## The three programs -/

section Programs

variable {pf : Platform Text} {b : Backend Text} {w : World Text}

/-- What a discovery over one page asks: what its source, its timer and its gate ask. -/
theorem asks_discoverReplaysDryRun {reader : SourceReader pf} {P : Effect Text → Prop}
    {options : DiscoverReplaysDryRunOptions (Effect Text) Reply}
    (hfetch : ∀ url readOptions, Proc.Asks P (options.fetchText url readOptions))
    (hsleep : ∀ milliseconds, Proc.Asks P (options.sleep milliseconds))
    (hgate : ∀ gate, options.existsBySourceIdentity = some gate →
      ∀ sourceSystem id, Proc.Asks P (gate sourceSystem id)) :
    Proc.Asks P (discoverReplaysDryRun reader options :
      Program Text (Except JsError DiscoveryReport)) := by
  have hpaced : ∀ first url readOptions,
      Proc.Asks P (pacedFetchText options first url readOptions) := by
    intro first url readOptions
    unfold pacedFetchText
    dsimp only
    split
    · exact Async.asks_lift_bind (hsleep _) fun _ => hfetch _ _
    · exact hfetch _ _
  -- one row: the gate, the detail page
  have hrow : ∀ input : DiscoverPageInput (Effect Text) Reply,
      (∀ url, Proc.Asks P (input.fetchText url)) →
      (∀ gate, input.existsBySourceIdentity = some gate →
        ∀ sourceSystem id, Proc.Asks P (gate sourceSystem id)) →
      ∀ acc row, Proc.Asks P (discoverRow reader.toHtmlReader input acc row) := by
    intro input hfetch hgate acc row
    unfold discoverRow
    split
    · trivial
    · refine Async.asks_bind ?_ fun skip => ?_
      · unfold shouldSkipPreDetail
        split
        · rename_i hexists _ _
          split
          · exact hgate _ hexists _ _
          · trivial
        · trivial
      · split
        · trivial
        · refine Async.asks_bind ?_ fun _ => trivial
          unfold discoverRowCandidate
          exact Async.asks_bind trivial fun url => Async.asks_bind (hfetch url) fun _ => trivial
  have hpage : ∀ page, Proc.Asks P (discoverPage reader options page) := by
    intro page
    unfold discoverPage
    refine Async.asks_bind (hpaced _ _ _) fun sourceText => Async.asks_bind ?_ fun _ => trivial
    unfold discoverPageCandidates
    split
    · trivial
    · refine Async.asks_bind ?_ fun _ => trivial
      have hrows : ∀ rows acc, Proc.Asks P (discoverRows reader.toHtmlReader
          (discoverPageInput reader options page sourceText) acc rows) := by
        intro rows
        induction rows with
        | nil => exact fun _ => trivial
        | cons row rows ih =>
          exact fun acc => Async.asks_bind (hrow _ (fun url => hpaced _ _ _) hgate acc row)
            fun acc => ih acc
      exact hrows _ _
  have hpages : ∀ remaining page found,
      Proc.Asks P (dryRunPages (discoverPage reader options) remaining page found) := by
    intro remaining
    induction remaining with
    | zero => exact fun _ _ => trivial
    | succ remaining ih =>
      intro page found
      refine (hpage page).bind fun r => ?_
      cases r with
      | ok yielded => exact ih _ _
      | error error => trivial
  exact (hpages _ _ _).bind fun _ => trivial

theorem offStorage_of_checkpoint {e : Effect Text} (h : IsCheckpoint e) : OffStorage e := by
  cases e <;> first | exact h.elim | trivial

theorem offStorage_of_incidental {e : Effect Text} (h : IsIncidental e) : OffStorage e := by
  cases e <;> first | exact h.elim | trivial

theorem quiet_request {e : Effect Text} (he : OffStorage e) :
    Proc.Quiet b.Step (Retains pf) (Retains pf) (Proc.perform e) :=
  Proc.quiet_perform fun _ _ _ h => ⟨retains_of_step he h, retains_of_step he h⟩

theorem quiet_lifted {e : Effect Text} (he : OffStorage e) :
    Proc.Quiet b.Step (Retains pf) (Retains pf)
      (ExceptT.lift (Proc.perform e) : Task Text (Reply e)) := by
  show Proc.Quiet _ _ _ (Proc.call e fun r => Proc.pure (Except.ok r))
  exact quiet_of_offStorage ⟨he, fun _ => trivial⟩

theorem runResults_config (config : RunConfig) : RunResults b.Step (Retains pf) (integrityRule pf) pf
    (config.toInput pf (config.store pf)) where
  lasts := lasts_integrityRule
  quiet := config.quiet pf _ fun _ he _ _ _ h =>
    ⟨retains_of_step (offStorage_of_incidental he) h, retains_of_step (offStorage_of_incidental he) h⟩
  read slug := by
    have hasks : Proc.Asks IsCheckpoint (readCheckpoint pf config.checkpointOptions slug :
        Program Text (Except JsError CheckpointReadResult)) := asks_readCheckpoint
    exact quiet_of_offStorage (hasks.mono fun _ => offStorage_of_checkpoint)
  write write := by
    have hasks : Proc.Asks IsCheckpoint (writeCheckpoint pf config.checkpointOptions write :
        Program Text (Except JsError (Option String))) := asks_writeCheckpoint write
    exact quiet_of_offStorage (hasks.mono fun _ => offStorage_of_checkpoint)
  discover page w hw := by
    have hquiet : Proc.Quiet b.Step (Retains pf) (Retains pf)
        (Proc.perform (Effect.discoverReplays (discoverInput pf
          (config.toInput pf (config.store pf)) page))) := quiet_request trivial
    refine (hquiet (integrityRule pf).J (lasts_integrityRule).J w hw).imp ?_
    rintro (error | report) w hw
    · exact hw
    · exact ⟨hw, fun _ => trivial⟩
  ingest state candidates w _ hw := safe_ingestPage_results lasts_integrityRule
    (fun candidate _ w hw => safe_ingestCandidate_integrity rfl rfl (fun gate hgate => by cases hgate)
      hw) hw

theorem watchResults_config (reader : SourceReader pf) (config : WatchConfig) :
    WatchResults b.Step (Retains pf) (integrityRule pf) (config.toInput reader) where
  lasts := lasts_integrityRule
  awaitFloor := quiet_lifted trivial
  createRunId now := quiet_lifted trivial
  discover := quiet_of_offStorage (asks_discoverReplaysDryRun
    (fun _ _ => ⟨trivial, fun _ => trivial⟩) (fun _ => ⟨trivial, fun _ => trivial⟩)
    fun gate hgate _ _ => by
      obtain rfl := Option.some.inj hgate
      exact ⟨trivial, fun _ => trivial⟩)
  log line := quiet_request trivial
  now := quiet_lifted trivial
  shouldStop := quiet_request trivial
  sleep milliseconds := quiet_request trivial
  writeHeartbeat path timestamp := quiet_request trivial
  ingest runId candidates w hw := safe_ingestPage_results lasts_integrityRule
    (fun candidate _ w hw => safe_ingestCandidate_integrity rfl rfl (fun gate hgate _ _ => by
      obtain rfl := Option.some.inj hgate
      exact ⟨trivial, fun _ => trivial⟩) hw) hw

/-- The store-raw loop, from the results it has. -/
theorem safe_storeCandidates {config : StoreRawConfig} {candidates : List ReplayCandidate}
    {results : StoreRawResults} (hw : (integrityRule pf).Told results.storage results.staging w) :
    Proc.Safe b.Step (Retains pf) (Retains pf)
      (Async.Outcome (fun final => (integrityRule pf).Told final.storage final.staging)
        fun _ => Consistent pf) w (storeCandidates pf config candidates results) := by
  have hlasts := @lasts_integrityRule Text pf
  have htold : ∀ (results : StoreRawResults) (w w' : World Text),
      (integrityRule pf).Told results.storage results.staging w → Retains pf w w' →
      (integrityRule pf).Told results.storage results.staging w' := fun _ _ _ hw hr => hlasts.told hw hr
  induction candidates generalizing results w with
  | nil => exact Proc.safe_pure (htold results) hw
  | cons candidate rest ih =>
    unfold storeCandidates
    refine Async.safe_bind (fun outcome w =>
      (integrityRule pf).Told (results.push outcome).storage (results.push outcome).staging w) ?_
      fun outcome w hw => ih hw
    unfold storeCandidate
    refine Async.safe_bind (fun result w => (Consistent pf w ∧ Stowed pf result w) ∧
        (integrityRule pf).Told results.storage results.staging w)
      (((safe_storeRawReplay_stowed hw.always).kept (htold results) (htold results) hw).imp ?_) ?_
    · rintro (error | result) w h
      · exact h.1
      · exact h
    · rintro result w ⟨hresult, hw⟩
      -- the store's result is in the list before its staging is tried
      have hpushed : (integrityRule pf).Told (results.storage ++ [result]) results.staging w := by
        have hone : (integrityRule pf).Told [result] [] w :=
          ⟨hresult.1, fun _ hmem => List.mem_singleton.1 hmem ▸ hresult,
            fun _ hmem => absurd hmem List.not_mem_nil⟩
        simpa using hw.append hone
      split
      case isTrue =>
        refine Async.safe_bind (fun stagingResult w =>
            (Consistent pf w ∧ InTable pf stagingResult w) ∧
              (integrityRule pf).Told (results.storage ++ [result]) results.staging w)
          (((safe_stageRawReplay_inTable hresult.1 hresult.2).kept
            (fun _ _ hw hr => hlasts.told hw hr) (fun _ _ hw hr => hlasts.told hw hr)
            hpushed).imp ?_) ?_
        · rintro (error | stagingResult) w h
          · exact h.1
          · exact h
        · rintro stagingResult w ⟨hstaged, hw⟩
          refine Proc.safe_pure (fun _ _ hw hr => hlasts.told hw hr) ?_
          have hone : (integrityRule pf).Told [] [stagingResult] w :=
            ⟨hstaged.1, fun _ hmem => absurd hmem List.not_mem_nil,
              fun _ hmem => List.mem_singleton.1 hmem ▸ hstaged⟩
          have happended := hw.append hone
          rwa [List.append_nil] at happended
      case isFalse =>
        refine Proc.safe_pure (fun _ _ hw hr => hlasts.told hw hr) ?_
        show (integrityRule pf).Told (results.storage ++ [result]) (results.staging ++ []) w
        rwa [List.append_nil]

/-- **The store-raw discovery** ends with the facts of the results in its report. -/
theorem safe_discoverAndStore (reader : SourceReader pf) (config : StoreRawConfig)
    (hw : Consistent pf w) :
    Proc.Safe b.Step (Retains pf) (Retains pf)
      (Async.Outcome
        (fun report => (integrityRule pf).Told report.storage (report.staging.getD []))
        fun _ => Consistent pf) w (discoverAndStore reader config) := by
  have hlasts := @lasts_integrityRule Text pf
  have hdiscover : Proc.Asks OffStorage (discoverForStoreRaw reader config :
      Program Text (Except JsError DiscoveryReport)) := by
    unfold discoverForStoreRaw
    refine Async.asks_lift_bind ⟨trivial, fun _ => trivial⟩ fun now => ?_
    refine Async.asks_lift_bind ⟨trivial, fun _ => trivial⟩ fun _ => ?_
    exact asks_discoverReplaysDryRun (fun _ _ => ⟨trivial, fun _ => trivial⟩)
      (fun _ => ⟨trivial, fun _ => trivial⟩) fun gate hgate => by cases hgate
  unfold discoverAndStore
  refine Async.safe_bind (fun _ => Consistent pf)
    ((quiet_of_offStorage hdiscover _ hlasts.J w hw).imp ?_) fun report w hw => ?_
  · rintro (error | report) w hw
    · exact hw
    · exact hw
  refine Async.safe_bind
    (fun (results : StoreRawResults) => (integrityRule pf).Told results.storage results.staging) ?_
    fun results w hw => ?_
  · split
    · exact safe_storeCandidates (ResultRule.told_nil hw)
    · exact Proc.safe_pure (fun _ _ hw hr => hlasts.told hw hr) (ResultRule.told_nil hw)
  · refine Proc.safe_pure (fun _ _ hw hr => hlasts.told hw hr) ?_
    refine ⟨hw.always, hw.raw, fun result hmem => hw.staged result ?_⟩
    -- without `--stage` no staging result is reported
    unfold storeRawReport at hmem
    dsimp only at hmem
    split at hmem
    · exact hmem
    · cases hmem

end Programs

/-! ## Jobs -/

/-- The invocations that write to the stores. -/
inductive Job
  | run (config : RunConfig)
  | watch (config : WatchConfig)
  | storeRaw (config : StoreRawConfig)

/-- What they end with. -/
inductive JobResult
  | run (result : Except JsError RunOnceResult)
  | watch (exitCode : ℕ)
  | storeRaw (report : Except JsError StoreRawReport)

def Job.program {pf : Platform Text} (reader : SourceReader pf) : Job → Program Text JobResult
  | .run config => Proc.bind (config.run pf) fun result => .pure (.run result)
  | .watch config => (config.loop reader).bind fun exitCode => .pure (.watch exitCode)
  | .storeRaw config => Proc.bind (discoverAndStore reader config) fun report => .pure (.storeRaw report)

/-- The raw results a job hands out. -/
def JobResult.rawStorage : JobResult → List StoreRawReplayResult
  | .run (.ok result) => result.summary.rawStorage
  | .storeRaw (.ok report) => report.storage
  | _ => []

/-- The staging results it hands out. -/
def JobResult.staging : JobResult → List IngestStagingResult
  | .run (.ok result) => result.summary.staging
  | .storeRaw (.ok report) => report.staging.getD []
  | _ => []

section Jobs

variable {pf : Platform Text} {b : Backend Text} {w w' : World Text}

/-- A job keeps what the others may rely on, and ends with the facts of its results. -/
theorem safe_job (reader : SourceReader pf) (job : Job) (hw : Consistent pf w) :
    Proc.Safe b.Step (Retains pf) (Retains pf)
      (fun result => (integrityRule pf).Told result.rawStorage result.staging) w
      (job.program reader) := by
  have hlasts := @lasts_integrityRule Text pf
  have hstable : ∀ (result : JobResult) (w w' : World Text),
      (integrityRule pf).Told result.rawStorage result.staging w → Retains pf w w' →
      (integrityRule pf).Told result.rawStorage result.staging w' := fun _ _ _ hw hr => hlasts.told hw hr
  cases job with
  | run config =>
    refine Proc.safe_bind_of ((runResults_config config).safe_runOnce hw) ?_
    rintro (error | result) w hw
    · exact Proc.safe_pure (hstable _) (ResultRule.told_nil hw)
    · exact Proc.safe_pure (hstable _) hw
  | watch config =>
    exact Proc.safe_bind_of ((watchResults_config reader config).safe_runWatchLoop hw)
      fun exitCode w hw => Proc.safe_pure (hstable _) (ResultRule.told_nil hw)
  | storeRaw config =>
    refine Proc.safe_bind_of (safe_discoverAndStore reader config hw) ?_
    rintro (error | report) w hw
    · exact Proc.safe_pure (hstable _) (ResultRule.told_nil hw)
    · exact Proc.safe_pure (hstable _) hw

variable {ι : Type} [DecidableEq ι] {readers : ι → SourceReader pf} {jobs : ι → Job}
  {programs : ι → Program Text JobResult}

/-- **Rows name stored objects.**  However many runs, watchers and store-raw discoveries are at work
    and wherever each of them is stopped, every row names the object of its own checksum, and that
    object is there with contents of that checksum. -/
theorem rows_name_stored_objects (hw : Consistent pf w)
    (hruns : Lts.PoolRuns (fun _ => Proc.lts b.Step JobResult) w
      (fun i => (jobs i).program (readers i)) w' programs) :
    ∀ row ∈ w'.staging, row.objectKey = rawKey row.checksum ∧
      ∃ object, w'.raw row.objectKey = some object ∧ pf.sha256Hex object.bytes = row.checksum := by
  have hsafe : ∀ i, Proc.Safe b.Step (Retains pf) (Retains pf)
      (fun result => (integrityRule pf).Told result.rawStorage result.staging) w
      ((jobs i).program (readers i)) := fun i => safe_job (readers i) (jobs i) hw
  have hconsistent : Consistent pf w' := by
    refine Lts.PoolRuns.invariant ?_ hsafe ?_ hw hruns
    · exact fun _ _ _ _ _ h => h
    · exact fun _ _ _ h hw => h.consistent hw
  intro row hrow
  obtain ⟨hkey, object, hobject, hdigest, _⟩ := hconsistent.rows row hrow
  exact ⟨hkey, object, hobject, hdigest⟩

/-- The facts of a job that has ended, among the others. -/
theorem told_of_ended (hw : Consistent pf w)
    (hruns : Lts.PoolRuns (fun _ => Proc.lts b.Step JobResult) w
      (fun i => (jobs i).program (readers i)) w' programs) {i : ι} {result : JobResult}
    (hdone : programs i = .pure result) :
    (integrityRule pf).Told result.rawStorage result.staging w' := by
  have hsafe : ∀ i, Proc.Safe b.Step (Retains pf) (Retains pf)
      (fun result => (integrityRule pf).Told result.rawStorage result.staging) w
      ((jobs i).program (readers i)) := fun i => safe_job (readers i) (jobs i) hw
  have hend : Proc.Safe b.Step (Retains pf) (Retains pf)
      (fun result => (integrityRule pf).Told result.rawStorage result.staging) w' (programs i) := by
    refine Lts.PoolRuns.safe ?_ hsafe hruns i
    exact fun _ _ _ _ _ h => h
  rw [hdone] at hend
  exact hend.of_pure

/-- **What a job reports is so**, and stays so.  A raw result that counts as a success has its object
    in the bucket, and a staging result that counts as a success has a row in the table that names
    the object of its payload, whatever the other jobs have done since. -/
theorem reported_results_last (hw : Consistent pf w)
    (hruns : Lts.PoolRuns (fun _ => Proc.lts b.Step JobResult) w
      (fun i => (jobs i).program (readers i)) w' programs) {i : ι} {result : JobResult}
    (hdone : programs i = .pure result) :
    (∀ rawResult ∈ result.rawStorage,
      rawResult.status = .stored ∨ rawResult.status = .skipped → ∃ evidence object,
        rawResult = .stored evidence ∧ w'.raw evidence.objectKey = some object ∧
        pf.sha256Hex object.bytes = evidence.checksum) ∧
    ∀ stagingResult ∈ result.staging,
      stagingResult.status = .staged ∨ stagingResult.status = .alreadyStaged →
        ∃ payload object, ∃ row ∈ w'.staging, stagingResult.payload = some payload ∧
        row.checksum = payload.checksum ∧ row.objectKey = payload.objectKey ∧
        w'.raw row.objectKey = some object ∧ pf.sha256Hex object.bytes = row.checksum := by
  have htold := told_of_ended hw hruns hdone
  constructor
  · intro rawResult hmem hstatus
    obtain ⟨evidence, hresult, _, object, hobject, hdigest, _⟩ := (htold.raw rawResult hmem).2 hstatus
    exact ⟨evidence, object, hresult, hobject, hdigest⟩
  · intro stagingResult hmem hstatus
    obtain ⟨payload, hpayload, ⟨_, object, hobject, hdigest, _⟩, row, hrow, hchecksum, hkey⟩ :=
      (htold.staged stagingResult hmem).2 hstatus
    exact ⟨payload, object, row, hrow, hpayload, hchecksum, hkey, by rw [hkey, hobject],
      by rw [hchecksum, hdigest]⟩

end Jobs

/-! ## The report of a store-raw discovery -/

section Report

variable {pf : Platform Text} {b : Backend Text} {w w' : World Text} {config : StoreRawConfig}
  {candidate : ReplayCandidate} {l : Conversation Text}

/-- Stored evidence names the file of its candidate. -/
theorem safe_storeRawReplay_filename (pf : Platform Text) (bucket : String)
    (candidate : ReplayCandidate) (l : Conversation Text) :
    Proc.Safe Env.free Lts.Alone (fun _ _ => True)
      (Async.Outcome (fun result _ => ∀ evidence, result = .stored evidence →
        evidence.sourceFilename = candidate.identity.filename) fun _ _ => True) l
      (storeRawReplay pf bucket candidate) := by
  let named : Except JsError StoreRawReplayResult → Conversation Text → Prop :=
    Async.Outcome (fun result _ => ∀ evidence, result = .stored evidence →
      evidence.sourceFilename = candidate.identity.filename) fun _ _ => True
  have hnamed : ∀ r l l', named r l → Lts.Alone l l' → named r l' := fun _ _ _ h hr => hr ▸ h
  have hfailed : ∀ (now : Date) error (l : Conversation Text),
      named (fetchFailureOutcome candidate (toISOString now) error) l := by
    intro now error l
    cases error with
    | replayByteFetch code message => exact fun evidence heq => by cases heq
    | _ => trivial
  refine safe_storeRawReplay (fun _ => True) (fun _ => True) (fun _ _ => True)
    (fun _ _ _ _ => trivial) (fun _ _ _ _ => trivial) hnamed (fun _ _ _ _ _ => ⟨trivial, trivial⟩)
    (fun error _ now l _ => hfailed now error l)
    (fun _ _ _ _ _ _ _ => ⟨trivial, fun _ _ => trivial, fun error _ now => hfailed now error _⟩)
    (fun now bytes l _ => ?_) trivial
  refine safe_s3StoreRawReplay (fun _ => True) (fun _ => True) (fun _ _ _ _ => trivial)
    (fun _ _ _ _ => trivial) (fun _ _ _ h hr => hr ▸ h) ?_ ?_ trivial
  · intro l _ r l' _
    refine ⟨trivial, fun output _ => ?_, fun error _ => ?_⟩
    · rintro evidence ⟨⟩
      unfold headEvidence
      split <;> rfl
    · split
      · trivial
      · rintro evidence ⟨⟩
        rfl
  · intro l _ r l' _
    refine ⟨trivial, ?_⟩
    rintro evidence ⟨⟩
    cases r <;> rfl

/-- Every answer of `stage` carries the payload it was asked to stage. -/
theorem safe_stage_payload (payload : IngestStagingPayload) (l : Conversation Text) :
    Proc.Safe Env.free Lts.Alone (fun _ _ => True)
      (Async.Outcome (fun result _ => result.payload = some payload) fun _ _ => True) l
      (stage payload) := by
  let carried : Except JsError IngestStagingResult → Conversation Text → Prop :=
    Async.Outcome (fun result _ => result.payload = some payload) fun _ _ => True
  have hcarried : ∀ r l l', carried r l → Lts.Alone l l' → carried r l' := fun _ _ _ h hr => hr ▸ h
  have herror : ∀ error (l : Conversation Text),
      StageErrorPost carried (fun _ => True) payload error l := by
    intro error l
    unfold StageErrorPost
    split
    · trivial
    · exact rfl
  refine safe_stage (fun _ => True) (fun _ => True) (fun _ => True) (fun _ _ _ _ => trivial)
    (fun _ _ _ _ => trivial) hcarried (fun l _ r l' _ => ⟨trivial, ?_⟩)
    (fun l _ r l' _ => ⟨trivial, ?_⟩) (fun l _ => ?_) trivial
  · -- the INSERT
    match r with
    | .ok (some id) => exact rfl
    | .ok none => trivial
    | .error error => exact herror error l'
  · -- the lookup by checksum and object key
    match r with
    | .ok (some row) => exact rfl
    | .ok none => trivial
    | .error error => exact herror error l'
  · -- the two lookups that tell why the INSERT was refused
    refine safe_classifyExistingStaging (fun _ => True) (fun _ => True) (fun _ _ _ _ => trivial)
      (fun _ _ _ _ => trivial) hcarried (fun l _ r l' _ => ⟨trivial, ?_⟩)
      (fun l _ r l' _ => ⟨trivial, ?_⟩) trivial
    · match r with
      | .ok (some row) =>
        show (existingResult payload row).payload = some payload
        unfold existingResult
        split <;> rfl
      | .ok none => trivial
      | .error error => trivial
    · match r with
      | .ok (some row) => exact rfl
      | .ok none => exact rfl
      | .error error => trivial

/-- What was staged of a candidate carries its filename. -/
theorem filename_of_emits {result : StoreRawReplayResult} {stagingResult : IngestStagingResult}
    {payload : IngestStagingPayload}
    (h : Emits (storeCandidate pf config candidate) l (.ok (result, some stagingResult)))
    (hpayload : stagingResult.payload = some payload) :
    payload.promotionEvidence.sourceFilename = candidate.identity.filename := by
  unfold storeCandidate at h
  obtain ⟨result', l₁, l₂, rfl, hstore, h⟩ := Async.emits_bind_ok.1 h
  have hfilename : Async.Outcome (fun result (_ : Conversation Text) => ∀ evidence,
      result = .stored evidence → evidence.sourceFilename = candidate.identity.filename)
      (fun (_ : JsError) _ => True) (.ok result') l₁ :=
    Proc.Safe.of_run (safe_storeRawReplay_filename pf config.bucket candidate []) hstore
  split at h
  · obtain ⟨stagingResult', l₃, l₄, rfl, hstaging, h⟩ := Async.emits_bind_ok.1 h
    obtain ⟨_, hpair⟩ := Proc.emits_pure.1 h
    obtain ⟨rfl, hsome⟩ := Prod.mk.inj (Except.ok.inj hpair)
    obtain rfl := Option.some.inj hsome
    unfold stageRawReplay toIngestStagingPayload at hstaging
    cases result with
    | fetchFailed evidence =>
      obtain ⟨_, hresult⟩ := Proc.emits_pure.1 hstaging
      rw [Except.ok.inj hresult] at hpayload
      cases hpayload
    | stored evidence =>
      dsimp only at hstaging
      split at hstaging
      · obtain ⟨_, hresult⟩ := Proc.emits_pure.1 hstaging
        rw [Except.ok.inj hresult] at hpayload
        cases hpayload
      · rename_i staged hstaged
        split at hstaged
        · obtain rfl := Except.ok.inj hstaged
          have hcarried : Async.Outcome (fun result (_ : Conversation Text) => result.payload = some _)
              (fun (_ : JsError) _ => True) (.ok stagingResult) l₃ :=
            Proc.Safe.of_run (safe_stage_payload _ []) hstaging
          obtain rfl := Option.some.inj (hpayload.symm.trans hcarried)
          exact hfilename evidence rfl
        · cases hstaged
  · obtain ⟨_, hpair⟩ := Proc.emits_pure.1 h
    cases Except.ok.inj hpair

/-- The candidate has a row that names its object, and the object is there. -/
def Delivered (pf : Platform Text) (w : World Text) (candidate : ReplayCandidate)
    (stagingResult : IngestStagingResult) : Prop :=
  ∃ payload object, ∃ row ∈ w.staging, stagingResult.payload = some payload ∧
    payload.promotionEvidence.sourceFilename = candidate.identity.filename ∧
    row.checksum = payload.checksum ∧ row.objectKey = payload.objectKey ∧
    w.raw row.objectKey = some object ∧ pf.sha256Hex object.bytes = row.checksum

/-- Outcomes that ended well, with their facts, are deliveries. -/
theorem StoredInOrder.delivered {candidates : List ReplayCandidate} {outcomes : List StoreRawOutcome}
    (h : StoredInOrder pf config candidates outcomes l) (hstage : config.shouldStage = true)
    (hwell : ∀ outcome ∈ outcomes, EndedWell outcome)
    (htold : ∀ stagingResult ∈ outcomes.flatMap fun outcome => outcome.2.toList,
      InTable pf stagingResult w) :
    List.Forall₂ (Delivered pf w) candidates
      (outcomes.flatMap fun outcome => outcome.2.toList) := by
  induction h with
  | nil => exact .nil
  | @cons candidate candidates outcome outcomes l l' hstore hrest ih =>
    have hpair := outcomePair_of_emits hstore
    unfold OutcomePair at hpair
    rw [if_pos hstage] at hpair
    obtain ⟨stagingResult, hsome, _⟩ := hpair
    obtain ⟨result, staging⟩ := outcome
    dsimp only at hsome
    subst hsome
    rw [List.flatMap_cons] at htold ⊢
    refine .cons ?_ (ih (fun outcome hmem => hwell outcome (List.mem_cons_of_mem _ hmem))
      fun stagingResult hmem => htold stagingResult (List.mem_append_right _ hmem))
    have hended := (hwell _ List.mem_cons_self).2 stagingResult rfl
    obtain ⟨payload, hpayload, ⟨_, object, hobject, hdigest, _⟩, row, hrow, hchecksum, hkey⟩ :=
      htold stagingResult (List.mem_append_left _ (List.mem_singleton.2 rfl)) hended
    exact ⟨payload, object, row, hrow, hpayload, filename_of_emits hstore hpayload, hchecksum, hkey,
      by rw [hkey, hobject], by rw [hchecksum, hdigest]⟩

/-- An `ok` report whose results are so is delivered. -/
theorem delivered_of_emits {reader : SourceReader pf} {report : StoreRawReport}
    (hemits : Emits (discoverAndStore reader config) l (.ok report))
    (htold : (integrityRule pf).Told report.storage (report.staging.getD []) w)
    (hstage : config.shouldStage = true) (hok : report.ok = true) :
    ∃ stagingResults, report.staging = some stagingResults ∧
      List.Forall₂ (Delivered pf w) report.candidates stagingResults := by
  obtain ⟨discovery, outcomes, l₀, l₁, rfl, _, horder, rfl⟩ := stored_of_emits hemits
  have haccounts := accounts_storeRawReport discovery horder.outcomePair
  obtain ⟨hdiscovered, hwell⟩ := haccounts.ok.1 hok
  have hstaging := haccounts.staging
  rw [if_pos hstage] at hstaging
  refine ⟨_, hstaging, ?_⟩
  rw [if_pos hdiscovered] at horder
  rw [haccounts.candidates]
  refine horder.delivered hstage hwell fun stagingResult hmem => (htold.staged stagingResult ?_).2
  rw [hstaging]
  exact hmem

/-- **A store-raw report that is `ok` can be acted on.**  With `--stage`, every candidate it lists
    has a row in the table, whose object is in the bucket; and both are there for good, whatever
    other jobs are at work. -/
theorem ok_report_is_delivered {ι : Type} [DecidableEq ι] {readers : ι → SourceReader pf}
    {jobs : ι → Job} {programs : ι → Program Text JobResult} (hw : Consistent pf w)
    (hruns : Lts.PoolRuns (fun _ => Proc.lts b.Step JobResult) w
      (fun i => (jobs i).program (readers i)) w' programs)
    {i : ι} (hjob : jobs i = .storeRaw config) (hstage : config.shouldStage = true)
    {report : StoreRawReport} (hdone : programs i = .pure (.storeRaw (.ok report)))
    (hok : report.ok = true) :
    ∃ stagingResults, report.staging = some stagingResults ∧
      List.Forall₂ (Delivered pf w') report.candidates stagingResults := by
  have htold := told_of_ended hw hruns hdone
  -- what the job has said, whatever the others did
  have hsafe : ∀ i, Proc.Safe b.Step (fun _ _ => True) (fun _ _ => True)
      (fun result _ => ∃ l, Emits ((jobs i).program (readers i)) l result) w
      ((jobs i).program (readers i)) := fun i => Proc.safe_conversation w _
  have hend : Proc.Safe b.Step (fun _ _ => True) (fun _ _ => True)
      (fun result _ => ∃ l, Emits ((jobs i).program (readers i)) l result) w' (programs i) := by
    refine Lts.PoolRuns.safe ?_ hsafe hruns i
    exact fun _ _ _ _ _ _ => trivial
  rw [hdone] at hend
  obtain ⟨l, hemits⟩ := hend.of_pure
  rw [hjob] at hemits
  obtain ⟨r, l₁, l₂, rfl, hemits, hresult⟩ := Proc.emits_bind.1 hemits
  obtain ⟨_, hsame⟩ := Proc.emits_pure.1 hresult
  obtain rfl := JobResult.storeRaw.inj hsame
  exact delivered_of_emits hemits htold hstage hok

end Report

/-! ## A run killed behind its PUT, and a store-raw discovery -/

/-- A source that lists one candidate, to a run and to a discovery of its own. -/
def toyDeployment : Script where
  reports := toyListing.reports
  pageText _ := .ok "a"
  bytes _ := .ok [7]

def toyJob (started : Bool) : Job := if started then .run toyConfig else .storeRaw toyStoreRaw

/-- `n` steps of one of the jobs. -/
def toyJobFrom (n : ℕ) (w : World (Option Json)) (started : Bool) :
    World (Option Json) × Program (Option Json) JobResult :=
  Proc.exec toyDeployment.serve n (w, (toyJob started).program toyReader)

/-- The run is stopped behind its PUT; then the discovery runs to its end. -/
def toyJobsDone : World (Option Json) × Program (Option Json) JobResult :=
  toyJobFrom 30 (toyJobFrom 12 emptyWorld true).1 false

theorem runs_toyJobFrom (n : ℕ) (w : World (Option Json)) (started : Bool) :
    (Proc.lts (toyDeployment.services : Backend (Option Json)).Step _).Runs Lts.Alone w
      ((toyJob started).program toyReader) (toyJobFrom n w started).1 (toyJobFrom n w started).2 :=
  Proc.runs_exec (toyDeployment.step_services fun _ => ⟨[7], rfl⟩) n (w, _)

theorem poolRuns_toyJobs : ∃ programs : Bool → Program (Option Json) JobResult,
    Lts.PoolRuns (fun _ => Proc.lts (toyDeployment.services : Backend (Option Json)).Step JobResult)
      emptyWorld (fun i => (toyJob i).program toyReader) toyJobsDone.1 programs ∧
    programs false = toyJobsDone.2 := by
  have hfirst : Lts.PoolRuns (fun _ : Bool => Proc.lts (toyDeployment.services :
      Backend (Option Json)).Step JobResult) emptyWorld (fun i => (toyJob i).program toyReader) _ _ :=
    Lts.PoolRuns.of_runs true (runs_toyJobFrom 12 emptyWorld true)
  have hsecond : Lts.PoolRuns (fun _ : Bool => Proc.lts (toyDeployment.services :
      Backend (Option Json)).Step JobResult) (toyJobFrom 12 emptyWorld true).1
      (Function.update (fun i => (toyJob i).program toyReader) true
        (toyJobFrom 12 emptyWorld true).2) _ _ :=
    Lts.PoolRuns.of_runs false (runs_toyJobFrom 30 (toyJobFrom 12 emptyWorld true).1 false)
  exact ⟨_, hfirst.trans hsecond, Function.update_self ..⟩

theorem consistent_emptyWorld : Consistent toyPlatform emptyWorld where
  addressed _ _ h := by cases h
  rows _ h := by cases h

theorem rows_name_stored_objects_two : toyJobsDone.1.staging.length = 1 ∧
    ∀ row ∈ toyJobsDone.1.staging, row.objectKey = rawKey row.checksum ∧
      ∃ object, toyJobsDone.1.raw row.objectKey = some object ∧
        toyPlatform.sha256Hex object.bytes = row.checksum := by
  obtain ⟨programs, hruns, _⟩ := poolRuns_toyJobs
  exact ⟨rfl, rows_name_stored_objects consistent_emptyWorld hruns⟩

theorem reported_results_last_two : ∃ result, toyJobsDone.2 = Proc.pure result ∧
    (∃ rawResult ∈ result.rawStorage, rawResult.status = .skipped) ∧
    (∃ stagingResult ∈ result.staging, stagingResult.status = .staged) ∧
    (∀ rawResult ∈ result.rawStorage,
      rawResult.status = .stored ∨ rawResult.status = .skipped → ∃ evidence object,
        rawResult = .stored evidence ∧ toyJobsDone.1.raw evidence.objectKey = some object ∧
        toyPlatform.sha256Hex object.bytes = evidence.checksum) ∧
    ∀ stagingResult ∈ result.staging,
      stagingResult.status = .staged ∨ stagingResult.status = .alreadyStaged →
        ∃ payload object, ∃ row ∈ toyJobsDone.1.staging, stagingResult.payload = some payload ∧
        row.checksum = payload.checksum ∧ row.objectKey = payload.objectKey ∧
        toyJobsDone.1.raw row.objectKey = some object ∧
        toyPlatform.sha256Hex object.bytes = row.checksum := by
  obtain ⟨result, hdone, hraw, hstaging⟩ : ∃ result, toyJobsDone.2 = Proc.pure result ∧
      (∃ rawResult ∈ result.rawStorage, rawResult.status = .skipped) ∧
      ∃ stagingResult ∈ result.staging, stagingResult.status = .staged :=
    ⟨_, rfl, ⟨_, List.mem_cons_self, rfl⟩, ⟨_, List.mem_cons_self, rfl⟩⟩
  obtain ⟨programs, hruns, hlast⟩ := poolRuns_toyJobs
  exact ⟨result, hdone, hraw, hstaging,
    reported_results_last consistent_emptyWorld hruns (hlast.trans hdone)⟩

theorem ok_report_is_delivered_two : ∃ report stagingResults,
    toyJobsDone.2 = Proc.pure (.storeRaw (.ok report)) ∧ report.candidates.length = 1 ∧
    report.staging = some stagingResults ∧
    List.Forall₂ (Delivered toyPlatform toyJobsDone.1) report.candidates stagingResults := by
  obtain ⟨report, hdone, hok, hlength⟩ : ∃ report,
      toyJobsDone.2 = Proc.pure (.storeRaw (.ok report)) ∧ report.ok = true ∧
      report.candidates.length = 1 := ⟨_, rfl, rfl, rfl⟩
  obtain ⟨programs, hruns, hlast⟩ := poolRuns_toyJobs
  obtain ⟨stagingResults, hstaging, hdelivered⟩ :=
    @ok_report_is_delivered _ _ _ _ _ toyStoreRaw _ _ _ _ _ consistent_emptyWorld hruns false rfl rfl
      report (hlast.trans hdone) hok
  exact ⟨report, stagingResults, hdone, hlength, hstaging, hdelivered⟩

end ReplaysFetcher
