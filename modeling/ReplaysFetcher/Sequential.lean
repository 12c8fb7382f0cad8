/-
  What ingesting one candidate after the other does to the stores.

  With a concurrency of one, a healthy raw store and a healthy staging table, nothing is left to
  chance: a candidate's store-then-stage is a FUNCTION of the raw objects and the row identities.
  `storeBytes` and `ingestBytes` are this function, cut at the point between the PUT and the
  INSERT, and `safe_ingestCandidate` ties them to the program: it ends with `ingestBytes` done, and
  wherever it is cut, the stores are as before, after `storeBytes`, or after `ingestBytes`.

  Row ids are chosen by the database, so rows are compared by what identifies them.
-/
import ReplaysFetcher.Ingest
import ReplaysFetcher.Data.Settling

namespace ReplaysFetcher

open Effectful Function

variable {Text : Type}

/-! ## The stores -/

/-- What identifies a row: its source identity and its object identity. -/
structure RowIdentity where
  sourceSystem : String
  sourceReplayId : String
  checksum : String
  objectKey : String
  deriving DecidableEq, Repr

def StagingRow.identity (row : StagingRow) : RowIdentity where
  sourceSystem := row.sourceSystem
  sourceReplayId := row.sourceReplayId
  checksum := row.checksum
  objectKey := row.objectKey

def IngestStagingPayload.identity (payload : IngestStagingPayload) : RowIdentity where
  sourceSystem := payload.sourceSystem
  sourceReplayId := payload.sourceReplayId
  checksum := payload.checksum
  objectKey := payload.objectKey

/-- The raw objects and the row identities. -/
structure Stores where
  raw : String → Option RawObject
  rows : List RowIdentity

def World.stores (w : World Text) : Stores where
  raw := w.raw
  rows := w.staging.map StagingRow.identity

/-- The same source identity. -/
def RowIdentity.sameSource (a b : RowIdentity) : Bool :=
  a.sourceSystem = b.sourceSystem && a.sourceReplayId = b.sourceReplayId

/-- The same object identity. -/
def RowIdentity.sameObject (a b : RowIdentity) : Bool :=
  a.checksum = b.checksum && a.objectKey = b.objectKey

/-! ## One candidate, as a function -/

section Actions

variable (pf : Platform Text)

/-- The id a candidate with these contents is staged under. -/
def replayId (candidate : ReplayCandidate) (bytes : Bytes) : String :=
  toSourceReplayId pf (toEvidence "" (storageInput pf candidate 0 bytes) .stored)

/-- The row a candidate with these contents is staged as. -/
def rowIdentity (candidate : ReplayCandidate) (bytes : Bytes) : RowIdentity where
  sourceSystem := defaultSourceSystem
  sourceReplayId := replayId pf candidate bytes
  checksum := pf.sha256Hex bytes
  objectKey := rawKey (pf.sha256Hex bytes)

/-- The object a PUT of these bytes writes. -/
def rawObject (bytes : Bytes) : RawObject := { bytes, sha256 := some (pf.sha256Hex bytes) }

/-- HEAD, and PUT when nothing is there. -/
def storeBytes (bytes : Bytes) (s : Stores) : Stores :=
  if (s.raw (rawKey (pf.sha256Hex bytes))).isSome then s
  else { s with raw := update s.raw (rawKey (pf.sha256Hex bytes)) (some (rawObject pf bytes)) }

/-- Is there an object that a HEAD takes for these bytes? -/
def trusted (bytes : Bytes) (s : Stores) : Bool :=
  (s.raw (rawKey (pf.sha256Hex bytes))).any fun object =>
    object.bytes.length = bytes.length && object.sha256 = some (pf.sha256Hex bytes)

/-- Is there a row the INSERT of `row` would collide with? -/
def Stores.occupied (s : Stores) (row : RowIdentity) : Bool :=
  s.rows.any fun other => other.sameObject row || other.sameSource row

/-- The INSERT, for an object that is trusted. -/
def stageBytes (candidate : ReplayCandidate) (bytes : Bytes) (s : Stores) : Stores :=
  if trusted pf bytes s && !s.occupied (rowIdentity pf candidate bytes) then
    { s with rows := s.rows ++ [rowIdentity pf candidate bytes] }
  else s

/-- Store, then stage. -/
def ingestBytes (candidate : ReplayCandidate) (bytes : Bytes) (s : Stores) : Stores :=
  stageBytes pf candidate bytes (storeBytes pf bytes s)

/-- The contents a candidate's bytes are fetched as, on a source that serves `contents`. -/
def candidateBytes (contents : Url → Bytes) (candidate : ReplayCandidate) : Option Bytes :=
  (bytesUrl pf candidate).toOption.map contents

/-- The stores after the PUT and after the INSERT of one candidate, as actions. -/
def actions (contents : Url → Bytes) (candidate : ReplayCandidate) :
    List (Stores → Stores) :=
  match candidateBytes pf contents candidate with
  | none => []
  | some bytes => [storeBytes pf bytes, ingestBytes pf candidate bytes]

end Actions

/-! ## The actions settle -/

section Settle

variable {pf : Platform Text} {s s' : Stores} {candidate : ReplayCandidate} {bytes : Bytes}

/-- `s'` has all the objects and rows of `s`. -/
structure Stores.Grows (s s' : Stores) : Prop where
  raw : ∀ key object, s.raw key = some object → s'.raw key = some object
  rows : ∀ row ∈ s.rows, row ∈ s'.rows

theorem Stores.Grows.refl (s : Stores) : s.Grows s := ⟨fun _ _ h => h, fun _ h => h⟩

theorem Stores.Grows.occupied (h : s.Grows s') {row : RowIdentity} (hs : s.occupied row = true) :
    s'.occupied row = true := by
  unfold Stores.occupied at hs ⊢
  rw [List.any_eq_true] at hs ⊢
  obtain ⟨other, hmem, hsame⟩ := hs
  exact ⟨other, h.rows other hmem, hsame⟩

@[simp] theorem rows_storeBytes : (storeBytes pf bytes s).rows = s.rows := by
  unfold storeBytes
  split <;> rfl

@[simp] theorem raw_stageBytes : (stageBytes pf candidate bytes s).raw = s.raw := by
  unfold stageBytes
  split <;> rfl

theorem grows_storeBytes : s.Grows (storeBytes pf bytes s) := by
  refine ⟨fun key object hobject => ?_, fun row hrow => by rwa [rows_storeBytes]⟩
  unfold storeBytes
  split
  · exact hobject
  · rename_i hnone
    have hne : key ≠ rawKey (pf.sha256Hex bytes) := by
      rintro rfl
      rw [hobject] at hnone
      exact hnone rfl
    exact (update_of_ne hne _ _).trans hobject

theorem grows_stageBytes : s.Grows (stageBytes pf candidate bytes s) := by
  refine ⟨fun key object hobject => by rwa [raw_stageBytes], fun row hrow => ?_⟩
  unfold stageBytes
  split
  · exact List.mem_append_left _ hrow
  · exact hrow

theorem grows_ingestBytes : s.Grows (ingestBytes pf candidate bytes s) := by
  have hstore : s.Grows (storeBytes pf bytes s) := grows_storeBytes
  have hstage : (storeBytes pf bytes s).Grows (ingestBytes pf candidate bytes s) := grows_stageBytes
  exact ⟨fun key object h => hstage.raw key object (hstore.raw key object h),
    fun row h => hstage.rows row (hstore.rows row h)⟩

theorem isSome_storeBytes :
    ((storeBytes pf bytes s).raw (rawKey (pf.sha256Hex bytes))).isSome = true := by
  unfold storeBytes
  split
  · assumption
  · show (update s.raw (rawKey (pf.sha256Hex bytes)) _ _).isSome = true
    rw [update_self]
    rfl

/-- Storing has nothing to do exactly when there is an object. -/
theorem storeBytes_fixed_iff :
    IsFixedPt (storeBytes pf bytes) s ↔ (s.raw (rawKey (pf.sha256Hex bytes))).isSome = true := by
  constructor
  · intro h
    have hsome : ((storeBytes pf bytes s).raw (rawKey (pf.sha256Hex bytes))).isSome = true :=
      isSome_storeBytes
    rwa [h] at hsome
  · intro h
    exact if_pos h

/-- Staging has nothing to do when nothing is trusted or the row would collide. -/
theorem stageBytes_fixed_iff : IsFixedPt (stageBytes pf candidate bytes) s ↔
    (trusted pf bytes s = true → s.occupied (rowIdentity pf candidate bytes) = true) := by
  unfold IsFixedPt stageBytes
  constructor
  · intro h htrusted
    by_contra hfree
    have hcond : (trusted pf bytes s && !s.occupied (rowIdentity pf candidate bytes)) = true := by
      rw [htrusted, eq_false_of_ne_true hfree]
      rfl
    rw [if_pos hcond] at h
    have hlen := congrArg (fun s : Stores => s.rows.length) h
    simp at hlen
  · intro h
    rw [if_neg]
    intro hcond
    rw [Bool.and_eq_true, Bool.not_eq_true'] at hcond
    rw [h hcond.1] at hcond
    cases hcond.2

/-- Ingesting has nothing to do exactly when neither of its parts has. -/
theorem ingestBytes_fixed_iff : IsFixedPt (ingestBytes pf candidate bytes) s ↔
    IsFixedPt (storeBytes pf bytes) s ∧ IsFixedPt (stageBytes pf candidate bytes) s := by
  constructor
  · intro h
    have hstore : IsFixedPt (storeBytes pf bytes) s := by
      rw [storeBytes_fixed_iff]
      have hraw : (storeBytes pf bytes s).raw = s.raw := by
        have hboth : (stageBytes pf candidate bytes (storeBytes pf bytes s)).raw = s.raw :=
          congrArg Stores.raw h
        rwa [raw_stageBytes] at hboth
      have hsome : ((storeBytes pf bytes s).raw (rawKey (pf.sha256Hex bytes))).isSome = true :=
        isSome_storeBytes
      rwa [hraw] at hsome
    refine ⟨hstore, ?_⟩
    have hboth : stageBytes pf candidate bytes (storeBytes pf bytes s) = s := h
    rwa [hstore] at hboth
  · rintro ⟨hstore, hstage⟩
    show stageBytes pf candidate bytes (storeBytes pf bytes s) = s
    rw [hstore]
    exact hstage

/-- An object, once there, is trusted or not for good. -/
theorem Stores.Grows.trusted (h : s.Grows s')
    (hsome : (s.raw (rawKey (pf.sha256Hex bytes))).isSome = true) :
    trusted pf bytes s' = trusted pf bytes s := by
  obtain ⟨object, hobject⟩ := Option.isSome_iff_exists.1 hsome
  unfold ReplaysFetcher.trusted
  rw [hobject, h.raw _ _ hobject]

/-- What has nothing left to do in `s` has nothing left to do in larger stores. -/
theorem Stores.Grows.storeBytes_fixed (h : s.Grows s') (hs : IsFixedPt (storeBytes pf bytes) s) :
    IsFixedPt (storeBytes pf bytes) s' := by
  rw [storeBytes_fixed_iff] at hs ⊢
  obtain ⟨object, hobject⟩ := Option.isSome_iff_exists.1 hs
  rw [h.raw _ _ hobject]
  rfl

theorem Stores.Grows.ingestBytes_fixed (h : s.Grows s')
    (hs : IsFixedPt (ingestBytes pf candidate bytes) s) :
    IsFixedPt (ingestBytes pf candidate bytes) s' := by
  rw [ingestBytes_fixed_iff] at hs ⊢
  refine ⟨h.storeBytes_fixed hs.1, ?_⟩
  rw [stageBytes_fixed_iff]
  intro htrusted
  rw [h.trusted (storeBytes_fixed_iff.1 hs.1)] at htrusted
  exact h.occupied (stageBytes_fixed_iff.1 hs.2 htrusted)

/-- Once a candidate is ingested there is nothing left to do for it. -/
theorem ingestBytes_idem : IsFixedPt (ingestBytes pf candidate bytes)
    (ingestBytes pf candidate bytes s) := by
  have hstore : IsFixedPt (storeBytes pf bytes) (storeBytes pf bytes s) :=
    storeBytes_fixed_iff.2 isSome_storeBytes
  rw [ingestBytes_fixed_iff]
  refine ⟨grows_stageBytes.storeBytes_fixed hstore, ?_⟩
  rw [stageBytes_fixed_iff]
  intro htrusted
  by_cases hcond : (trusted pf bytes (storeBytes pf bytes s) &&
      !(storeBytes pf bytes s).occupied (rowIdentity pf candidate bytes)) = true
  · -- the row was added, and it occupies its own place
    have hself : (rowIdentity pf candidate bytes).sameObject (rowIdentity pf candidate bytes) = true :=
      by simp [RowIdentity.sameObject]
    show (stageBytes pf candidate bytes (storeBytes pf bytes s)).occupied _ = true
    unfold stageBytes
    rw [if_pos hcond]
    exact List.any_eq_true.2 ⟨_, List.mem_append_right _ (List.mem_singleton.2 rfl), by simp [hself]⟩
  · have hsame : ingestBytes pf candidate bytes s = storeBytes pf bytes s := if_neg hcond
    rw [hsame] at htrusted ⊢
    by_contra hfree
    rw [eq_false_of_ne_true hfree, htrusted] at hcond
    exact hcond rfl

theorem mem_actions {contents : Url → Bytes} {a : Stores → Stores}
    (h : a ∈ actions pf contents candidate) :
    ∃ bytes, a = storeBytes pf bytes ∨ a = ingestBytes pf candidate bytes := by
  unfold actions at h
  split at h
  · cases h
  · rename_i bytes _
    exact ⟨bytes, by simpa using h⟩

/-- **The actions of any candidates settle.** -/
theorem settles_actions (pf : Platform Text) (contents : Url → Bytes)
    (candidates : List ReplayCandidate) :
    Settling.Settles (candidates.flatMap (actions pf contents)) := by
  have hgrows : ∀ a ∈ candidates.flatMap (actions pf contents), ∀ s : Stores, s.Grows (a s) := by
    intro a ha s
    obtain ⟨candidate, _, ha⟩ := List.mem_flatMap.1 ha
    obtain ⟨bytes, rfl | rfl⟩ := mem_actions ha
    · exact grows_storeBytes
    · exact grows_ingestBytes
  refine ⟨fun a ha s => ?_, fun a ha b hb s hs => ?_⟩
  · obtain ⟨candidate, _, ha⟩ := List.mem_flatMap.1 ha
    obtain ⟨bytes, rfl | rfl⟩ := mem_actions ha
    · exact storeBytes_fixed_iff.2 isSome_storeBytes
    · exact ingestBytes_idem
  · obtain ⟨candidate, _, ha⟩ := List.mem_flatMap.1 ha
    obtain ⟨bytes, rfl | rfl⟩ := mem_actions ha
    · exact (hgrows b hb s).storeBytes_fixed hs
    · exact (hgrows b hb s).ingestBytes_fixed hs

end Settle

/-! ## The program does what the function says -/

/-- Byte reads, raw storage and staging never fail, and every URL has contents that do not
    change. -/
structure HealthyStores (b : Backend Text) (contents : Url → Bytes) : Prop where
  bytes : b.faults.bytes = false
  raw : b.faults.raw = false
  staging : b.faults.staging = false
  served : ∀ url bytes, b.served url bytes ↔ bytes = contents url

section Program

variable {pf : Platform Text} {b : Backend Text} {contents : Url → Bytes} {w w' : World Text}
  {s : Stores} {candidate : ReplayCandidate} {bytes : Bytes} {bucket : String}

/-- A lookup by source or object identity, in terms of row identities. -/
theorem occupied_stores (payload : IngestStagingPayload) :
    w.stores.occupied payload.identity =
      ((w.rowByObject? payload.checksum payload.objectKey).isSome ||
        (w.rowBySource? payload.sourceSystem payload.sourceReplayId).isSome) := by
  have hor : ∀ (rows : List StagingRow) (f g : StagingRow → Bool),
      rows.any (fun row => f row || g row) = (rows.any f || rows.any g) := by
    intro rows f g
    induction rows with
    | nil => rfl
    | cons row rows ih =>
      rw [List.any_cons, List.any_cons, List.any_cons, ih]
      cases f row <;> cases g row <;> simp
  unfold World.rowByObject? World.rowBySource? Stores.occupied World.stores
  rw [List.isSome_find?, List.isSome_find?, ← hor, List.any_map]
  rfl

/-- What the S3 adapter reports, for stores that were `s` before. -/
structure StoreOutcome (pf : Platform Text) (bucket : String) (candidate : ReplayCandidate)
    (bytes : Bytes) (s : Stores) (evidence : RawReplayStorageEvidence) : Prop where
  shape : ∃ now status failureCategory,
    evidence = toEvidence bucket (storageInput pf candidate now bytes) status failureCategory
  stageable : isStageable evidence = trusted pf bytes (storeBytes pf bytes s)
  stored : evidence.status = .stored → s.raw (rawKey (pf.sha256Hex bytes)) = none

theorem storeOutcome_head {now : Date} {object : RawObject}
    (hobject : s.raw (rawKey (pf.sha256Hex bytes)) = some object) :
    StoreOutcome pf bucket candidate bytes s (headEvidence bucket (storageInput pf candidate now bytes)
      { contentLength := some object.bytes.length, sha256 := object.sha256 }) := by
  have hfixed : storeBytes pf bytes s = s := storeBytes_fixed_iff.2 (by rw [hobject]; rfl)
  have htrusted : trusted pf bytes s = true ↔
      some object.bytes.length = some bytes.length ∧ object.sha256 = some (pf.sha256Hex bytes) := by
    unfold trusted
    rw [hobject]
    simp
  unfold headEvidence
  split
  · rename_i hmatches
    refine ⟨⟨now, _, _, rfl⟩, ?_, fun h => by cases h⟩
    rw [hfixed, htrusted.2 hmatches]
    rfl
  · rename_i hdiffers
    refine ⟨⟨now, _, _, rfl⟩, ?_, fun h => by cases h⟩
    rw [hfixed, eq_false_of_ne_true fun h => hdiffers (htrusted.1 h)]
    rfl

theorem storeOutcome_put {now : Date} (hnone : s.raw (rawKey (pf.sha256Hex bytes)) = none) :
    StoreOutcome pf bucket candidate bytes s
      (putEvidence bucket (storageInput pf candidate now bytes) (.ok ())) := by
  refine ⟨⟨now, _, _, rfl⟩, ?_, fun _ => hnone⟩
  have hstored : (storeBytes pf bytes s).raw (rawKey (pf.sha256Hex bytes)) =
      some (rawObject pf bytes) := by
    unfold storeBytes
    rw [hnone]
    exact update_self ..
  unfold trusted
  rw [hstored]
  simp [rawObject, isStageable, putEvidence, toEvidence]

/-- The S3 adapter alone, on a healthy store. -/
theorem safe_s3StoreRawReplay_alone (hb : HealthyStores b contents) (now : Date)
    (hw : w.stores = s) :
    Proc.Safe b.Step Lts.Alone
      (fun _ w' => w'.stores = s ∨ w'.stores = storeBytes pf bytes s)
      (fun evidence w' => w'.stores = storeBytes pf bytes s ∧
        StoreOutcome pf bucket candidate bytes s evidence) w
      (s3StoreRawReplay bucket (storageInput pf candidate now bytes)) := by
  refine safe_s3StoreRawReplay (fun w => w.stores = s)
    (fun w => w.stores = s ∧ s.raw (rawKey (pf.sha256Hex bytes)) = none)
    (fun _ _ h hr => by cases hr; exact h) (fun _ _ h hr => by cases hr; exact h)
    (fun _ _ _ h hr => by cases hr; exact h) ?_ ?_ hw
  · intro w hw r w' hr
    obtain ⟨rfl, hhead | ⟨hfault, _⟩⟩ := hr
    · refine ⟨Or.inl hw, ?_⟩
      have hraw : w'.raw (rawKey (pf.sha256Hex bytes)) = s.raw (rawKey (pf.sha256Hex bytes)) := by
        rw [← hw]
        rfl
      rw [show (storageInput pf candidate now bytes).objectKey = rawKey (pf.sha256Hex bytes) from rfl,
        hraw] at hhead
      cases hobject : s.raw (rawKey (pf.sha256Hex bytes)) with
      | none =>
        rw [hobject] at hhead
        obtain ⟨e, he, rfl⟩ := hhead
        refine ⟨fun output hok => (by cases hok), fun error herror => ?_⟩
        cases herror
        rw [if_pos he]
        exact ⟨hw, rfl⟩
      | some object =>
        rw [hobject] at hhead
        dsimp only at hhead
        subst hhead
        refine ⟨fun output hok => ?_, fun error herror => (by cases herror)⟩
        cases hok
        have hfixed : storeBytes pf bytes s = s := storeBytes_fixed_iff.2 (by rw [hobject]; rfl)
        rw [hfixed]
        refine ⟨hw, storeOutcome_head hobject⟩
    · rw [hb.raw] at hfault
      cases hfault
  · rintro w ⟨hw, hnone⟩ r w' hr
    have hraw : w.raw (rawKey (pf.sha256Hex bytes)) = none := by
      rw [← hnone, ← hw]
      rfl
    rcases hr with ⟨rfl, rfl | ⟨hfault, _⟩⟩ | ⟨hfault, _⟩
    · have hstores : (w.putRaw (rawKey (pf.sha256Hex bytes)) (rawObject pf bytes)).stores =
          storeBytes pf bytes s := by
        unfold storeBytes
        rw [hnone, ← hw]
        rfl
      exact ⟨Or.inr hstores, hstores, storeOutcome_put hnone⟩
    · rw [hb.raw] at hfault
      cases hfault
    · rw [hb.raw] at hfault
      cases hfault

/-- The store of one candidate, alone. -/
theorem safe_storeRawReplay_alone (hb : HealthyStores b contents) (hw : w.stores = s) :
    Proc.Safe b.Step Lts.Alone
      (fun _ w' => w'.stores = s ∨ ∃ bytes, candidateBytes pf contents candidate = some bytes ∧
        w'.stores = storeBytes pf bytes s)
      (fun r w' => match candidateBytes pf contents candidate with
        | none => w'.stores = s ∧ ∀ result, r ≠ .ok result
        | some bytes => w'.stores = storeBytes pf bytes s ∧ ∃ evidence,
          r = .ok (.stored evidence) ∧ StoreOutcome pf bucket candidate bytes s evidence) w
      (storeRawReplay pf bucket candidate) := by
  refine safe_storeRawReplay (fun w => w.stores = s) (fun w => w.stores = s)
    (fun bytes w => candidateBytes pf contents candidate = some bytes ∧ w.stores = s)
    (fun _ _ h hr => by cases hr; exact h) (fun _ _ h hr => by cases hr; exact h)
    (fun _ _ _ h hr => by cases hr; exact h) ?_ ?_ ?_ ?_ hw
  · rintro w hw now w' rfl
    exact ⟨Or.inl hw, hw⟩
  · intro error hurl now w hw
    have hnone : candidateBytes pf contents candidate = none := by
      unfold candidateBytes
      rw [hurl]
      rfl
    rw [hnone]
    refine ⟨hw, ?_⟩
    intro result hresult
    -- a URL that does not parse rejects with a plain error
    unfold bytesUrl newUrl at hurl
    split at hurl
    · cases hurl
    · cases hurl
      cases hresult
  · rintro url hurl w hw r w' ⟨rfl, ⟨bytes, hbytes, rfl⟩ | ⟨hfault, _⟩⟩
    · refine ⟨Or.inl hw, fun bytes' hok => ?_, fun error herror => by cases herror⟩
      cases hok
      rw [hb.served] at hbytes
      refine ⟨?_, hw⟩
      unfold candidateBytes
      rw [hurl, hbytes]
      rfl
    · rw [hb.bytes] at hfault
      cases hfault
  · rintro now bytes w ⟨hbytes, hw⟩
    rw [hbytes]
    refine (safe_s3StoreRawReplay_alone hb now hw).weaken (fun _ _ h => h) ?_ ?_
    · rintro _ w' (h | h)
      · exact Or.inl h
      · exact Or.inr ⟨bytes, rfl, h⟩
    · rintro evidence w' ⟨hstores, houtcome⟩
      exact ⟨hstores, evidence, rfl, houtcome⟩

/-- The stores after an INSERT of `row`. -/
def insertRow (row : RowIdentity) (s : Stores) : Stores :=
  if s.occupied row then s else { s with rows := s.rows ++ [row] }

/-- Staging one payload, alone: the row is there afterwards, and reported as staged only if it was
    not there before. -/
theorem safe_stage_alone (hb : HealthyStores b contents) (payload : IngestStagingPayload)
    (hw : w.stores = s) :
    Proc.Safe b.Step Lts.Alone
      (fun _ w' => w'.stores = s ∨ w'.stores = insertRow payload.identity s)
      (fun r w' => w'.stores = insertRow payload.identity s ∧
        ∀ result, r = .ok result → result.status = .staged →
          s.occupied payload.identity = false) w (stage payload) := by
  -- once the row is known to be there, lookups change nothing and never say `staged`
  let Found : World Text → Prop := fun w => w.stores = s ∧ s.occupied payload.identity = true
  let post : Except JsError IngestStagingResult → World Text → Prop := fun r w' =>
    w'.stores = insertRow payload.identity s ∧
      ∀ result, r = .ok result → result.status = .staged → s.occupied payload.identity = false
  have hfound : ∀ w r, Found w → (∀ result, r = .ok result → result.status ≠ .staged) → post r w := by
    rintro w r ⟨hw, hoccupied⟩ hr
    refine ⟨?_, fun result hresult hstaged => absurd hstaged (hr result hresult)⟩
    rw [insertRow, if_pos hoccupied]
    exact hw
  have herror : ∀ w (error : JsError), Found w → post (.error error) w :=
    fun w error h => hfound w _ h fun result hresult => by cases hresult
  have hstable : ∀ w w', Found w → Lts.Alone w w' → Found w' := fun _ _ h hr => by cases hr; exact h
  have hposts : ∀ r w w', post r w → Lts.Alone w w' → post r w' :=
    fun _ _ _ h hr => by cases hr; exact h
  show Proc.Safe b.Step Lts.Alone _ post w (stage payload)
  refine safe_stage (fun w => w.stores = s) Found Found
    (fun _ _ h hr => by cases hr; exact h) hstable hposts ?_ ?_ ?_ hw
  · rintro w hw r w' (hinsert | ⟨hfault, _⟩)
    · have hoccupied := occupied_stores (w := w) payload
      rw [hw] at hoccupied
      split at hinsert
      · rename_i hobject
        obtain ⟨rfl, rfl⟩ := hinsert
        rw [hobject] at hoccupied
        exact ⟨Or.inl hw, hw, hoccupied⟩
      · rename_i hobject
        split at hinsert
        · rename_i hsource
          obtain ⟨rfl, e, hunique, rfl⟩ := hinsert
          rw [hsource, Bool.or_true] at hoccupied
          refine ⟨Or.inl hw, ?_⟩
          show StageErrorPost _ _ _ _ _
          unfold StageErrorPost
          rw [if_pos hunique]
          exact ⟨hw, hoccupied⟩
        · rename_i hsource
          obtain ⟨id, rfl, rfl | ⟨hfault, _⟩⟩ := hinsert
          · have hfree : s.occupied payload.identity = false := by
              rw [hoccupied, eq_false_of_ne_true hobject, eq_false_of_ne_true hsource]
              rfl
            have hadded : (w.addRow (payload.toRow id)).stores = insertRow payload.identity s := by
              unfold insertRow
              rw [hfree, ← hw]
              unfold World.stores World.addRow
              simp only [List.map_append, List.map_cons, List.map_nil]
              rfl
            exact ⟨Or.inr hadded, hadded, fun _ _ _ => hfree⟩
          · rw [hb.staging] at hfault
            cases hfault
    · rw [hb.staging] at hfault
      cases hfault
  · rintro w h r w' ⟨rfl, rfl | ⟨hfault, _⟩⟩
    · refine ⟨Or.inl h.1, ?_⟩
      unfold LookupPost
      split
      · exact hfound _ _ h fun result hresult => by cases hresult; exact fun hs => by cases hs
      · exact h
      · rename_i hnot
        cases hnot
    · rw [hb.staging] at hfault
      cases hfault
  · intro w h
    refine safe_classifyExistingStaging Found Found hstable hstable hposts ?_ ?_ h
    · rintro w h r w' ⟨rfl, rfl | ⟨hfault, _⟩⟩
      · refine ⟨Or.inl h.1, ?_⟩
        unfold LookupPost
        split
        · refine hfound _ _ h fun result hresult => ?_
          cases hresult
          unfold existingResult
          split
          · exact fun hs => by cases hs
          · exact fun hs => by cases hs
        · exact h
        · rename_i hnot
          cases hnot
      · rw [hb.staging] at hfault
        cases hfault
    · rintro w h r w' ⟨rfl, rfl | ⟨hfault, _⟩⟩
      · refine ⟨Or.inl h.1, ?_⟩
        unfold LookupPost
        split
        · exact hfound _ _ h fun result hresult => by cases hresult; exact fun hs => by cases hs
        · exact hfound _ _ h fun result hresult => by cases hresult; exact fun hs => by cases hs
        · rename_i hnot
          cases hnot
      · rw [hb.staging] at hfault
        cases hfault

/-- Nothing was stored and nothing was staged. -/
def NothingNew (v : Except JsError SettledCandidate) : Prop :=
  ∀ settled, v = .ok settled →
    settled.rawStatusIs .stored = false ∧ settled.stagingStatusIs .staged = false

theorem runAll_actions (hbytes : candidateBytes pf contents candidate = some bytes) :
    Settling.runAll (actions pf contents candidate) s = ingestBytes pf candidate bytes s := by
  have hidem : storeBytes pf bytes (storeBytes pf bytes s) = storeBytes pf bytes s :=
    storeBytes_fixed_iff.2 isSome_storeBytes
  unfold actions
  rw [hbytes]
  show ingestBytes pf candidate bytes (storeBytes pf bytes s) = _
  unfold ingestBytes
  rw [hidem]

/-- The row of stored evidence is the row of the candidate and its contents. -/
theorem identity_toPayload (now : Date) (status : RawReplayStorageStatus)
    (failureCategory : Option StorageFailureCategory) (runId : Option String) :
    (toPayload pf (toEvidence bucket (storageInput pf candidate now bytes) status failureCategory)
      defaultSourceSystem runId).identity = rowIdentity pf candidate bytes := rfl

/-- The staging of what the S3 adapter reported, alone. -/
theorem safe_stageRawReplay_alone (hb : HealthyStores b contents) {runId : Option String}
    {evidence : RawReplayStorageEvidence}
    (hevidence : StoreOutcome pf bucket candidate bytes s evidence)
    (hw : w.stores = storeBytes pf bytes s) :
    Proc.Safe b.Step Lts.Alone
      (fun _ w' => w'.stores = storeBytes pf bytes s ∨ w'.stores = ingestBytes pf candidate bytes s)
      (fun r w' => w'.stores = ingestBytes pf candidate bytes s ∧
        ∀ result, r = .ok result → result.status = .staged →
          (storeBytes pf bytes s).occupied (rowIdentity pf candidate bytes) = false ∧
            trusted pf bytes (storeBytes pf bytes s) = true) w
      (stageRawReplay pf (.stored evidence) runId) := by
  obtain ⟨now, status, failureCategory, hshape⟩ := hevidence.shape
  unfold stageRawReplay toIngestStagingPayload
  cases htrusted : trusted pf bytes (storeBytes pf bytes s) with
  | true =>
    have hrow : ingestBytes pf candidate bytes s =
        insertRow (rowIdentity pf candidate bytes) (storeBytes pf bytes s) := by
      unfold ingestBytes stageBytes insertRow
      rw [htrusted, Bool.true_and]
      cases (storeBytes pf bytes s).occupied (rowIdentity pf candidate bytes) <;> rfl
    dsimp only
    rw [if_pos (hevidence.stageable.trans htrusted), hrow]
    subst hshape
    have hstage := safe_stage_alone hb (toPayload pf
      (toEvidence bucket (storageInput pf candidate now bytes) status failureCategory)
      defaultSourceSystem runId) hw
    rw [identity_toPayload] at hstage
    exact hstage.imp fun r w' h => ⟨h.1, fun result hr hs => ⟨h.2 result hr hs, rfl⟩⟩
  | false =>
    have hrow : ingestBytes pf candidate bytes s = storeBytes pf bytes s := by
      unfold ingestBytes stageBytes
      rw [htrusted]
      rfl
    dsimp only
    rw [if_neg (by rw [hevidence.stageable, htrusted]; exact Bool.false_ne_true), hrow]
    refine Proc.safe_pure (fun _ _ h hr => by cases hr; exact h) ⟨hw, ?_⟩
    intro result hresult hstaged
    cases hresult
    cases hstaged

/-- Store-then-stage wired to the real adapters, one candidate at a time and without the gate. -/
def sequentialIngest (pf : Platform Text) (bucket runId : String)
    (candidates : List ReplayCandidate) : IngestPageInput (Effect Text) Reply where
  candidates := candidates
  limit := 1
  runId := runId
  stageRawReplay := stageRawReplay pf
  storeRawReplay := storeRawReplay pf bucket

/-- **One candidate.** Left alone, its store-then-stage does what its actions do, and wherever it is
    cut, the stores are as they were or as one of its actions leaves them. -/
theorem safe_processCandidate_alone (hb : HealthyStores b contents)
    (input : IngestPageInput (Effect Text) Reply)
    (hstore : input.storeRawReplay = storeRawReplay pf bucket)
    (hstage : input.stageRawReplay = stageRawReplay pf) (hw : w.stores = s) :
    Proc.Safe b.Step Lts.Alone
      (fun _ w' => w'.stores = s ∨ ∃ a ∈ actions pf contents candidate, w'.stores = a s)
      (fun v w' => w'.stores = Settling.runAll (actions pf contents candidate) s ∧
        ((∀ a ∈ actions pf contents candidate, IsFixedPt a s) → NothingNew v)) w
      (processCandidate input candidate) := by
  unfold processCandidate
  rw [hstore, hstage]
  cases hbytes : candidateBytes pf contents candidate with
  | none =>
    -- a URL that does not parse: nothing is done
    have hactions : actions pf contents candidate = [] := by
      unfold actions
      rw [hbytes]
    rw [hactions]
    refine Async.safe_bind (fun _ _ => False)
      ((safe_storeRawReplay_alone hb hw).weaken (fun _ _ h => h) ?_ ?_) (fun _ _ h => h.elim)
    · rintro _ w' (h | ⟨bytes, hsome, _⟩)
      · exact Or.inl h
      · rw [hbytes] at hsome
        cases hsome
    · intro r w' h
      rw [hbytes] at h
      cases r with
      | ok result => exact absurd rfl (h.2 result)
      | error error => exact ⟨h.1, fun _ settled hs => by cases hs⟩
  | some bytes =>
    have hmem : storeBytes pf bytes ∈ actions pf contents candidate ∧
        ingestBytes pf candidate bytes ∈ actions pf contents candidate := by
      unfold actions
      rw [hbytes]
      simp
    rw [runAll_actions hbytes]
    -- the store
    refine Async.safe_bind (fun result w' => w'.stores = storeBytes pf bytes s ∧
        ∃ evidence, result = .stored evidence ∧ StoreOutcome pf bucket candidate bytes s evidence)
      ((safe_storeRawReplay_alone hb hw).weaken (fun _ _ h => h) ?_ ?_) ?_
    · rintro _ w' (h | ⟨bytes', hsome, h⟩)
      · exact Or.inl h
      · rw [hbytes] at hsome
        cases hsome
        exact Or.inr ⟨_, hmem.1, h⟩
    · intro r w' h
      rw [hbytes] at h
      obtain ⟨hstores, evidence, rfl, houtcome⟩ := h
      exact ⟨hstores, evidence, rfl, houtcome⟩
    · rintro _ w' ⟨hstores, evidence, rfl, houtcome⟩
      -- the staging
      refine Async.safe_bind (fun result w' => w'.stores = ingestBytes pf candidate bytes s ∧
          (result.status = .staged →
            (storeBytes pf bytes s).occupied (rowIdentity pf candidate bytes) = false ∧
              trusted pf bytes (storeBytes pf bytes s) = true))
        ((safe_stageRawReplay_alone hb houtcome hstores).weaken (fun _ _ h => h) ?_ ?_) ?_
      · rintro _ w' (h | h)
        · exact Or.inr ⟨_, hmem.1, h⟩
        · exact Or.inr ⟨_, hmem.2, h⟩
      · rintro r w' ⟨hstores, hstaged⟩
        cases r with
        | ok result => exact ⟨hstores, hstaged result rfl⟩
        | error error => exact ⟨hstores, fun _ settled hs => by cases hs⟩
      · rintro result w' ⟨hstores, hstaged⟩
        refine Proc.safe_pure (fun _ _ h hr => by cases hr; exact h) ⟨hstores, fun hfixed => ?_⟩
        intro settled hs
        cases hs
        have hingest := ingestBytes_fixed_iff.1 (hfixed _ hmem.2)
        constructor
        · -- `stored` would mean there was no object
          refine decide_eq_false fun hstored => ?_
          have hsome := storeBytes_fixed_iff.1 hingest.1
          rw [houtcome.stored hstored] at hsome
          cases hsome
        · -- `staged` would mean the row was free
          refine decide_eq_false fun hstatus => ?_
          obtain ⟨hfree, htrusted⟩ := hstaged hstatus
          rw [hingest.1] at hfree htrusted
          rw [stageBytes_fixed_iff.1 hingest.2 htrusted] at hfree
          cases hfree

end Program

end ReplaysFetcher
