/-
  The checkpoint: its shape, its schema and its merge (`src/checkpoint/checkpoint.ts`).

  A page's counts are a copy of what `ingestPage` counted, and that includes one number the schema
  does not know (`skippedBySourceId`): it is written out and dropped again when the body is read.
  `Checkpoint.onSchema` is a checkpoint without it, so `c.onSchema` is `c` on every schema field.

  A stored body is UNTRUSTED.  `parseCheckpoint` accepts exactly the JSON objects the schema
  describes, whatever else they carry, and answers `none` for everything else; the schema is
  `Checkpoint.ofJson`, one reader per schema node, with the checks of `Schema`.  What it asks beyond
  the types is in two parts.  `Checkpoint.Valid` is what a run always writes (non-empty strings, no
  page `__proto__`).  `Checkpoint.Safe` is the range of its numbers: the validator takes no integer
  above 2^53 - 1.  So the two directions read

      c.Valid  →  (ofJson c.toJson = some c.onSchema  ↔  c.Safe)        ofJson j = some c  →  c.Valid.
-/
import ReplaysFetcher.Platform
import ReplaysFetcher.Schema
import ReplaysFetcher.Data.JsRecord
import Mathlib.Tactic.FinCases

namespace ReplaysFetcher

open Schema

/-! ## The records -/

/-- `CheckpointStatus`; `partiallyDone` is the source's `"partial"`. -/
inductive CheckpointStatus
  | complete | failed | partiallyDone | resumable | running
  deriving DecidableEq, Repr

/-- The counts of a page entry that the schema keeps. -/
structure PageCounts where
  discovered : ℕ
  failed : ℕ
  staged : ℕ
  stored : ℕ
  deriving DecidableEq, Repr

/-- `CheckpointPage`; `skippedBySourceId` is the property of its `counts` outside the schema. -/
structure CheckpointPage where
  counts : PageCounts
  skippedBySourceId : Option ℕ := none
  status : String
  deriving DecidableEq, Repr

/-- The entry as it is read back: the schema drops what it does not name. -/
def CheckpointPage.onSchema (page : CheckpointPage) : CheckpointPage :=
  { page with skippedBySourceId := none }

/-- `Checkpoint`; its `lastSourceFailure` has the shape of the run's `RunSourceFailure`. -/
structure Checkpoint where
  counts : PageCounts
  createdAt : String
  discoveredLastPage : ℕ
  lastCompletedPage : ℕ
  lastSourceFailure : Option RunSourceFailure := none
  pages : JsRecord CheckpointPage
  runId : String
  sourceUrl : String
  status : CheckpointStatus
  updatedAt : String
  deriving DecidableEq

/-- The schema fields of a checkpoint. -/
def Checkpoint.onSchema (c : Checkpoint) : Checkpoint :=
  { c with pages := c.pages.map CheckpointPage.onSchema }

/-- The key of an object's prototype, which the validator does not copy. -/
def PROTO_KEY : String := "__proto__"

/-- What the schema asks beyond the types and the range of numbers: every `.min(1)`, and no page that
    would not be copied. -/
structure Checkpoint.Valid (c : Checkpoint) : Prop where
  createdAt : c.createdAt ≠ ""
  pages : ∀ key page, c.pages.lookup key = some page → key ≠ PROTO_KEY ∧ page.status ≠ ""
  runId : c.runId ≠ ""
  sourceUrl : c.sourceUrl ≠ ""
  updatedAt : c.updatedAt ≠ ""

/-- Not above `Number.MAX_SAFE_INTEGER` -/
def IsSafe (n : ℕ) : Prop := (n : ℤ) ≤ MAX_SAFE_INTEGER

instance : DecidablePred IsSafe := fun n => inferInstanceAs (Decidable ((n : ℤ) ≤ MAX_SAFE_INTEGER))

/-- Every count is a safe integer. -/
structure PageCounts.Safe (counts : PageCounts) : Prop where
  discovered : IsSafe counts.discovered
  failed : IsSafe counts.failed
  staged : IsSafe counts.staged
  stored : IsSafe counts.stored

/-- The numbers of the schema are safe integers. -/
structure Checkpoint.Safe (c : Checkpoint) : Prop where
  counts : c.counts.Safe
  discoveredLastPage : IsSafe c.discoveredLastPage
  lastCompletedPage : IsSafe c.lastCompletedPage
  lastSourceFailure : ∀ failure, c.lastSourceFailure = some failure →
    ∀ attempts, failure.attempts = some attempts → IsSafe attempts
  pages : ∀ key page, c.pages.lookup key = some page → page.counts.Safe

/-! ## Enumerations as strings -/

/-- The texts of the union, as they are stored. -/
def CheckpointStatus.text : CheckpointStatus → String
  | .complete => "complete"
  | .failed => "failed"
  | .partiallyDone => "partial"
  | .resumable => "resumable"
  | .running => "running"

/-- The texts of the union, as they are stored. -/
def SourceFailureClassification.text : SourceFailureClassification → String
  | .permanent => "permanent"
  | .rateLimited => "rate_limited"
  | .transient => "transient"

/-- The texts of the union, as they are stored. -/
def DiagnosticCode.text : DiagnosticCode → String
  | .malformedRow => "malformed_row"
  | .missingFilename => "missing_filename"
  | .duplicateFilename => "duplicate_filename"
  | .changedMetadata => "changed_metadata"
  | .sourceUnavailable => "source_unavailable"
  | .sourceTransient => "source_transient"
  | .rateLimited => "rate_limited"

/-- The texts of the union, as they are stored. -/
def SourceReadPhase.text : SourceReadPhase → String
  | .bytes => "bytes"
  | .detail => "detail"
  | .list => "list"

/-- `z.enum(values)`, for the enumeration whose members are written `text`. -/
def enumOfJson {α : Type} (values : List α) (text : α → String) : Json → Option α
  | .str s => values.find? fun a => text a = s
  | _ => none

/-! ## The schema -/

/-- `z.number().int().nonnegative()` -/
def natOfJson : Json → Option ℕ
  | .num q => (integer [minValue 0] q).accepted.map Int.toNat
  | _ => none

/-- `z.string().min(1)` -/
def nonEmptyOfJson : Json → Option String
  | .str s => (withChecks [minLength 1] (.value s)).accepted
  | _ => none

/-- A `.optional()` member: absent, or accepted. -/
def optionalOfJson {α : Type} (accept : Json → Option α) : Option Json → Option (Option α)
  | none => some none
  | some j => (accept j).map some

/-- Four counts, each a safe integer; other fields are dropped. -/
def pageCountsOfJson (j : Json) : Option PageCounts := do
  let discovered ← (j.get "discovered").bind natOfJson
  let failed ← (j.get "failed").bind natOfJson
  let staged ← (j.get "staged").bind natOfJson
  let stored ← (j.get "stored").bind natOfJson
  some { discovered, failed, staged, stored }

/-- A page entry: its counts and its status. -/
def pageOfJson (j : Json) : Option CheckpointPage := do
  let counts ← (j.get "counts").bind pageCountsOfJson
  let status ← (j.get "status").bind nonEmptyOfJson
  some { counts, status }

/-- An entry of a record, under its key. -/
def pageEntryOfJson (field : String × Json) : Option (String × CheckpointPage) :=
  (pageOfJson field.2).map (Prod.mk field.1)

/-- `z.record(z.string(), pageSchema)`; it passes over a key `__proto__`. -/
def pagesOfJson : Json → Option (JsRecord CheckpointPage)
  | .obj fields =>
    ((fields.filter fun field => field.1 ≠ PROTO_KEY).mapM pageEntryOfJson).map JsRecord.ofEntries
  | _ => none

/-- The failed read, with the attempts and the phase where they are given. -/
def sourceFailureOfJson (j : Json) : Option RunSourceFailure := do
  let attempts ← optionalOfJson natOfJson (j.get "attempts")
  let classification ← (j.get "classification").bind
    (enumOfJson [.permanent, .rateLimited, .transient] SourceFailureClassification.text)
  let code ← (j.get "code").bind
    (enumOfJson [.malformedRow, .missingFilename, .duplicateFilename, .changedMetadata,
      .sourceUnavailable, .sourceTransient, .rateLimited] DiagnosticCode.text)
  let phase ← optionalOfJson (enumOfJson [.bytes, .detail, .list] SourceReadPhase.text)
    (j.get "phase")
  some { attempts, classification, code, phase }

/-- `checkpointSchema.safeParse` -/
def Checkpoint.ofJson (j : Json) : Option Checkpoint := do
  let counts ← (j.get "counts").bind pageCountsOfJson
  let createdAt ← (j.get "createdAt").bind nonEmptyOfJson
  let discoveredLastPage ← (j.get "discoveredLastPage").bind natOfJson
  let lastCompletedPage ← (j.get "lastCompletedPage").bind natOfJson
  let lastSourceFailure ← optionalOfJson sourceFailureOfJson (j.get "lastSourceFailure")
  let pages ← (j.get "pages").bind pagesOfJson
  let runId ← (j.get "runId").bind nonEmptyOfJson
  let sourceUrl ← (j.get "sourceUrl").bind nonEmptyOfJson
  let status ← (j.get "status").bind
    (enumOfJson [.complete, .failed, .partiallyDone, .resumable, .running] CheckpointStatus.text)
  let updatedAt ← (j.get "updatedAt").bind nonEmptyOfJson
  some { counts, createdAt, discoveredLastPage, lastCompletedPage, lastSourceFailure, pages, runId,
         sourceUrl, status, updatedAt }

/-- `parseCheckpoint(raw)`: nothing, unless the text is JSON and the value fits the schema. -/
def parseCheckpoint {Text : Type} (pf : Platform Text) (raw : Text) : Option Checkpoint :=
  (pf.parse raw).bind Checkpoint.ofJson

/-! ## The value `JSON.stringify` writes -/

/-- A count in JSON. -/
def natToJson (n : ℕ) : Json := .num n

/-- An optional member: left out when it is `undefined`. -/
def optionalField (key : String) (value : Option Json) : List (String × Json) :=
  value.toList.map (Prod.mk key)

/-- A counts object, with the property outside the schema when it is there. -/
def PageCounts.toJson (counts : PageCounts) (skippedBySourceId : Option ℕ := none) : Json :=
  .obj ([("discovered", natToJson counts.discovered), ("failed", natToJson counts.failed)] ++
    optionalField "skippedBySourceId" (skippedBySourceId.map natToJson) ++
    [("staged", natToJson counts.staged), ("stored", natToJson counts.stored)])

/-- A page entry as it is stored, with the count that the schema does not know. -/
def CheckpointPage.toJson (page : CheckpointPage) : Json :=
  .obj [("counts", page.counts.toJson page.skippedBySourceId), ("status", .str page.status)]

/-- The pages map as it is stored. -/
def pagesToJson (pages : JsRecord CheckpointPage) : Json :=
  .obj (pages.sortedEntries.map fun entry => (entry.1, entry.2.toJson))

/-- The failed read as it is stored; what is not given is no field. -/
def sourceFailureToJson (failure : RunSourceFailure) : Json :=
  .obj (optionalField "attempts" (failure.attempts.map natToJson) ++
    [("classification", .str failure.classification.text), ("code", .str failure.code.text)] ++
    optionalField "phase" (failure.phase.map fun phase => .str phase.text))

/-- The checkpoint as it is stored. -/
def Checkpoint.toJson (c : Checkpoint) : Json :=
  .obj ([("counts", c.counts.toJson), ("createdAt", .str c.createdAt),
      ("discoveredLastPage", natToJson c.discoveredLastPage),
      ("lastCompletedPage", natToJson c.lastCompletedPage)] ++
    optionalField "lastSourceFailure" (c.lastSourceFailure.map sourceFailureToJson) ++
    [("pages", pagesToJson c.pages), ("runId", .str c.runId), ("sourceUrl", .str c.sourceUrl),
      ("status", .str c.status.text), ("updatedAt", .str c.updatedAt)])

/-- `JSON.stringify(checkpoint)` -/
def stringifyCheckpoint {Text : Type} (pf : Platform Text) (c : Checkpoint) : Text :=
  pf.stringify c.toJson

/-! ## What is written is read back -/

/-- **A number is read back unless it is too large.** -/
@[simp] theorem natOfJson_natToJson {n m : ℕ} :
    natOfJson (natToJson n) = some m ↔ n = m ∧ IsSafe n := by
  unfold natOfJson natToJson IsSafe
  simp only [Option.map_eq_some_iff, Verdict.accepted_eq_some, integer_eq_value, List.mem_singleton,
    forall_eq, minValue_eq_none]
  constructor
  · -- the rational that was written is the natural number it is read as
    rintro ⟨k, ⟨hk, hsafe, _⟩, rfl⟩
    have heq : k = (n : ℤ) := by exact_mod_cast hk.symm
    subst heq
    exact ⟨Int.toNat_natCast n |>.symm, (le_abs_self _).trans hsafe⟩
  · rintro ⟨rfl, hsafe⟩
    refine ⟨n, ⟨by simp, ?_, Int.natCast_nonneg n⟩, Int.toNat_natCast n⟩
    rwa [abs_of_nonneg (Int.natCast_nonneg n)]

/-- A text passes unless it is empty. -/
@[simp] theorem nonEmptyOfJson_str {s t : String} :
    nonEmptyOfJson (.str s) = some t ↔ s = t ∧ t ≠ "" := by
  unfold nonEmptyOfJson
  rw [Verdict.accepted_eq_some, nonEmpty_eq_value]

/-- A stored status is read back. -/
@[simp] theorem status_ofJson_text (status : CheckpointStatus) :
    enumOfJson [.complete, .failed, .partiallyDone, .resumable, .running] CheckpointStatus.text
      (.str status.text) = some status := by
  cases status <;> decide

/-- A stored classification is read back. -/
@[simp] theorem classification_ofJson_text (c : SourceFailureClassification) :
    enumOfJson [.permanent, .rateLimited, .transient] SourceFailureClassification.text
      (.str c.text) = some c := by
  cases c <;> decide

/-- A stored code is read back. -/
@[simp] theorem code_ofJson_text (code : DiagnosticCode) :
    enumOfJson [.malformedRow, .missingFilename, .duplicateFilename, .changedMetadata,
      .sourceUnavailable, .sourceTransient, .rateLimited] DiagnosticCode.text
      (.str code.text) = some code := by
  cases code <;> decide

/-- A stored phase is read back. -/
@[simp] theorem phase_ofJson_text (phase : SourceReadPhase) :
    enumOfJson [.bytes, .detail, .list] SourceReadPhase.text (.str phase.text) = some phase := by
  cases phase <;> decide

/-- Stored counts are read back exactly when they are safe. -/
theorem pageCountsOfJson_toJson {counts counts' : PageCounts} {skippedBySourceId : Option ℕ} :
    pageCountsOfJson (counts.toJson skippedBySourceId) = some counts' ↔
      counts = counts' ∧ counts.Safe := by
  -- the property outside the schema stands under none of the four names
  have hfields : pageCountsOfJson (counts.toJson skippedBySourceId) = (do
      let discovered ← natOfJson (natToJson counts.discovered)
      let failed ← natOfJson (natToJson counts.failed)
      let staged ← natOfJson (natToJson counts.staged)
      let stored ← natOfJson (natToJson counts.stored)
      some { discovered, failed, staged, stored }) := by
    cases skippedBySourceId <;> simp [pageCountsOfJson, PageCounts.toJson, optionalField, Json.get]
  rw [hfields]
  simp only [Option.bind_eq_bind, Option.bind_eq_some_iff, natOfJson_natToJson]
  constructor
  · rintro ⟨_, ⟨rfl, hdiscovered⟩, _, ⟨rfl, hfailed⟩, _, ⟨rfl, hstaged⟩, _, ⟨rfl, hstored⟩, heq⟩
    exact ⟨Option.some.inj heq, hdiscovered, hfailed, hstaged, hstored⟩
  · rintro ⟨rfl, hsafe⟩
    exact ⟨_, ⟨rfl, hsafe.discovered⟩, _, ⟨rfl, hsafe.failed⟩, _, ⟨rfl, hsafe.staged⟩, _,
      ⟨rfl, hsafe.stored⟩, rfl⟩

/-- A stored entry is read back, less what the schema drops, exactly when its counts are safe. -/
theorem pageOfJson_toJson {page page' : CheckpointPage} (h : page.status ≠ "") :
    pageOfJson page.toJson = some page' ↔ page.onSchema = page' ∧ page.counts.Safe := by
  have hfields : pageOfJson page.toJson = (do
      let counts ← pageCountsOfJson (page.counts.toJson page.skippedBySourceId)
      let status ← nonEmptyOfJson (.str page.status)
      some { counts, status }) := by
    simp [pageOfJson, CheckpointPage.toJson, Json.get]
  rw [hfields]
  simp only [Option.bind_eq_bind, Option.bind_eq_some_iff, pageCountsOfJson_toJson,
    nonEmptyOfJson_str]
  constructor
  · rintro ⟨_, ⟨rfl, hsafe⟩, _, ⟨rfl, _⟩, heq⟩
    exact ⟨Option.some.inj heq, hsafe⟩
  · rintro ⟨rfl, hsafe⟩
    exact ⟨_, ⟨rfl, hsafe⟩, _, ⟨rfl, h⟩, rfl⟩

/-- The entries of a record are read back one by one. -/
theorem mapM_pageEntryOfJson {l : List (String × CheckpointPage)}
    {l' : List (String × CheckpointPage)} (hl : ∀ entry ∈ l, entry.2.status ≠ "") :
    (l.map fun entry => (entry.1, entry.2.toJson)).mapM pageEntryOfJson = some l' ↔
      (l.map fun entry => (entry.1, entry.2.onSchema)) = l' ∧
        ∀ entry ∈ l, entry.2.counts.Safe := by
  -- entry by entry; the whole is nothing as soon as one entry is
  induction l generalizing l' with
  | nil =>
    show some [] = some l' ↔ _
    simp
  | cons entry l ih =>
    have hentry := fun page' => @pageOfJson_toJson entry.2 page' (hl entry List.mem_cons_self)
    have hrest := fun l' => @ih l' fun e he => hl e (List.mem_cons_of_mem _ he)
    rw [List.map_cons, List.mapM_cons]
    simp only [Option.bind_eq_bind, Option.bind_eq_some_iff, Option.pure_def, hrest,
      pageEntryOfJson, Option.map_eq_some_iff, hentry, List.mem_cons, forall_eq_or_imp]
    constructor
    · rintro ⟨_, ⟨_, ⟨rfl, hsafe⟩, rfl⟩, _, ⟨rfl, hall⟩, heq⟩
      exact ⟨Option.some.inj heq, hsafe, hall⟩
    · rintro ⟨rfl, hsafe, hall⟩
      exact ⟨_, ⟨_, ⟨rfl, hsafe⟩, rfl⟩, _, ⟨rfl, hall⟩, rfl⟩

/-- A stored map is read back entry by entry. -/
theorem pagesOfJson_pagesToJson {pages pages' : JsRecord CheckpointPage}
    (h : ∀ key page, pages.lookup key = some page → key ≠ PROTO_KEY ∧ page.status ≠ "") :
    pagesOfJson (pagesToJson pages) = some pages' ↔ pages.map CheckpointPage.onSchema = pages' ∧
      ∀ key page, pages.lookup key = some page → page.counts.Safe := by
  have hentry : ∀ entry ∈ pages.sortedEntries, pages.lookup entry.1 = some entry.2 :=
    fun entry hmem => JsRecord.mem_sortedEntries.1 hmem
  -- no page goes by the name the validator passes over
  have hkept : (pages.sortedEntries.map fun entry => (entry.1, entry.2.toJson)).filter
      (fun field => field.1 ≠ PROTO_KEY) =
        pages.sortedEntries.map fun entry => (entry.1, entry.2.toJson) := by
    rw [List.filter_eq_self]
    intro field hfield
    obtain ⟨entry, hmem, rfl⟩ := List.mem_map.1 hfield
    exact decide_eq_true (h _ _ (hentry entry hmem)).1
  unfold pagesOfJson pagesToJson
  dsimp only
  rw [hkept, Option.map_eq_some_iff]
  simp only [mapM_pageEntryOfJson fun entry hmem => (h _ _ (hentry entry hmem)).2]
  constructor
  · rintro ⟨_, ⟨rfl, hsafe⟩, rfl⟩
    exact ⟨rfl, fun key page hpage => hsafe (key, page) (JsRecord.mem_sortedEntries.2 hpage)⟩
  · rintro ⟨rfl, hsafe⟩
    exact ⟨_, ⟨rfl, fun entry hmem => hsafe _ _ (hentry entry hmem)⟩, rfl⟩

/-- A stored failure is read back exactly when its attempts are safe. -/
theorem sourceFailureOfJson_toJson {failure failure' : RunSourceFailure} :
    sourceFailureOfJson (sourceFailureToJson failure) = some failure' ↔
      failure = failure' ∧ ∀ attempts, failure.attempts = some attempts → IsSafe attempts := by
  obtain ⟨attempts, classification, code, phase⟩ := failure
  -- the four shapes: each of the two optional members is there or not
  cases attempts <;> cases phase <;>
    simp [sourceFailureOfJson, sourceFailureToJson, optionalField, optionalOfJson, Json.get,
      Option.bind_eq_some_iff, and_comm]

/-- An optional member is read back when it is there, and is absent when it is not. -/
theorem optionalOfJson_map {α : Type} {accept : Json → Option α} {toJson : α → Json}
    {value value' : Option α} {P : α → Prop}
    (h : ∀ a a', accept (toJson a) = some a' ↔ a = a' ∧ P a) :
    optionalOfJson accept (value.map toJson) = some value' ↔
      value = value' ∧ ∀ a, value = some a → P a := by
  cases value with
  | none => simp [optionalOfJson]
  | some a =>
    simp only [optionalOfJson, Option.map_some, Option.map_eq_some_iff, h, Option.some.injEq]
    constructor
    · rintro ⟨_, ⟨rfl, hP⟩, rfl⟩
      exact ⟨rfl, fun a' heq => heq ▸ hP⟩
    · rintro ⟨rfl, hP⟩
      exact ⟨a, ⟨rfl, hP a rfl⟩, rfl⟩

/-- **Round trip.** A valid checkpoint is read back exactly when its numbers are safe, and then as it
    was written, on every schema field. -/
theorem Checkpoint.ofJson_toJson {c c' : Checkpoint} (h : c.Valid) :
    Checkpoint.ofJson c.toJson = some c' ↔ c.onSchema = c' ∧ c.Safe := by
  have hfields : Checkpoint.ofJson c.toJson = (do
      let counts ← pageCountsOfJson c.counts.toJson
      let createdAt ← nonEmptyOfJson (.str c.createdAt)
      let discoveredLastPage ← natOfJson (natToJson c.discoveredLastPage)
      let lastCompletedPage ← natOfJson (natToJson c.lastCompletedPage)
      let lastSourceFailure ← optionalOfJson sourceFailureOfJson
        (c.lastSourceFailure.map sourceFailureToJson)
      let pages ← pagesOfJson (pagesToJson c.pages)
      let runId ← nonEmptyOfJson (.str c.runId)
      let sourceUrl ← nonEmptyOfJson (.str c.sourceUrl)
      let status ← some c.status
      let updatedAt ← nonEmptyOfJson (.str c.updatedAt)
      some { counts, createdAt, discoveredLastPage, lastCompletedPage, lastSourceFailure, pages,
             runId, sourceUrl, status, updatedAt }) := by
    obtain ⟨counts, createdAt, discoveredLastPage, lastCompletedPage, lastSourceFailure, pages,
      runId, sourceUrl, status, updatedAt⟩ := c
    cases lastSourceFailure <;> simp [Checkpoint.ofJson, Checkpoint.toJson, optionalField, Json.get]
  rw [hfields]
  simp only [Option.bind_eq_bind, Option.bind_eq_some_iff, natOfJson_natToJson, nonEmptyOfJson_str,
    pageCountsOfJson_toJson, pagesOfJson_pagesToJson h.pages,
    optionalOfJson_map fun _ _ => sourceFailureOfJson_toJson]
  constructor
  · rintro ⟨_, ⟨rfl, hcounts⟩, _, ⟨rfl, _⟩, _, ⟨rfl, hdiscovered⟩, _, ⟨rfl, hlast⟩, _, ⟨rfl, hfailure⟩,
      _, ⟨rfl, hpages⟩, _, ⟨rfl, _⟩, _, ⟨rfl, _⟩, _, hstatus, _, ⟨rfl, _⟩, heq⟩
    cases hstatus
    exact ⟨Option.some.inj heq, hcounts, hdiscovered, hlast, hfailure, hpages⟩
  · rintro ⟨rfl, hsafe⟩
    exact ⟨_, ⟨rfl, hsafe.counts⟩, _, ⟨rfl, h.createdAt⟩, _, ⟨rfl, hsafe.discoveredLastPage⟩, _,
      ⟨rfl, hsafe.lastCompletedPage⟩, _, ⟨rfl, hsafe.lastSourceFailure⟩, _, ⟨rfl, hsafe.pages⟩, _,
      ⟨rfl, h.runId⟩, _, ⟨rfl, h.sourceUrl⟩, _, rfl, _, ⟨rfl, h.updatedAt⟩, rfl⟩

/-! ## What is written is canonical -/

/-- An optional field is there exactly when it has a value. -/
theorem mem_optionalField {key : String} {value : Option Json} {field : String × Json} :
    field ∈ optionalField key value ↔ ∃ j, value = some j ∧ field = (key, j) := by
  cases value <;> simp [optionalField]

/-- An optional member among others that are in order is in order, there or not. -/
theorem keys_optionalField_sublist (before after : List String) (key : String)
    (value : Option Json) :
    (before ++ (optionalField key value).map Prod.fst ++ after).Sublist (before ++ [key] ++ after) := by
  have hone : ((optionalField key value).map Prod.fst).Sublist [key] := by
    cases value <;> simp [optionalField]
  exact ((List.Sublist.refl before).append hone).append (List.Sublist.refl after)

/-- No key twice. -/
theorem PageCounts.canonical_toJson (counts : PageCounts) (skippedBySourceId : Option ℕ) :
    (counts.toJson skippedBySourceId).Canonical := by
  refine Json.canonical_obj _ rfl ?_ fun field hfield => ?_
  · simp only [List.map_append, List.map_cons, List.map_nil]
    have hall : List.Pairwise (· < ·) ["discovered", "failed", "skippedBySourceId", "staged",
        "stored"] := by decide
    exact hall.sublist (keys_optionalField_sublist ["discovered", "failed"] ["staged", "stored"]
      "skippedBySourceId" _)
  · simp only [List.mem_append, mem_optionalField, List.mem_cons, List.not_mem_nil, or_false]
      at hfield
    rcases hfield with ((rfl | rfl) | ⟨j, hj, rfl⟩) | rfl | rfl
    · exact .num _
    · exact .num _
    · obtain ⟨n, _, rfl⟩ := Option.map_eq_some_iff.1 hj
      exact .num _
    · exact .num _
    · exact .num _

/-- No key twice, here and below. -/
theorem CheckpointPage.canonical_toJson (page : CheckpointPage) : page.toJson.Canonical := by
  refine Json.canonical_obj ["counts", "status"] rfl (by decide) ?_
  simp only [List.mem_cons, List.not_mem_nil, or_false]
  rintro _ (rfl | rfl)
  · exact page.counts.canonical_toJson _
  · exact .str _

/-- The keys of a record are no two alike. -/
theorem canonical_pagesToJson (pages : JsRecord CheckpointPage) :
    (pagesToJson pages).Canonical := by
  refine Json.canonical_obj pages.sortedKeys ?_ pages.sortedKeys_pairwise fun field hfield => ?_
  · rw [List.map_map]
    exact JsRecord.map_fst_sortedEntries pages
  · obtain ⟨entry, _, rfl⟩ := List.mem_map.1 hfield
    exact entry.2.canonical_toJson

/-- No key twice, with any of the optional fields. -/
theorem canonical_sourceFailureToJson (failure : RunSourceFailure) :
    (sourceFailureToJson failure).Canonical := by
  refine Json.canonical_obj _ rfl ?_ fun field hfield => ?_
  · simp only [List.map_append, List.map_cons, List.map_nil]
    have hphase := keys_optionalField_sublist ["attempts", "classification", "code"] [] "phase"
      (failure.phase.map fun phase => .str phase.text)
    have hattempts := keys_optionalField_sublist []
      (["classification", "code"] ++ (optionalField "phase"
        (failure.phase.map fun phase => .str phase.text)).map Prod.fst) "attempts"
      (failure.attempts.map natToJson)
    have hall : List.Pairwise (· < ·) ["attempts", "classification", "code", "phase"] := by decide
    refine hall.sublist ?_
    simpa using hattempts.trans (by simpa using hphase)
  · simp only [List.mem_append, mem_optionalField, List.mem_cons, List.not_mem_nil, or_false]
      at hfield
    rcases hfield with (⟨j, hj, rfl⟩ | rfl | rfl) | ⟨j, hj, rfl⟩
    · obtain ⟨n, _, rfl⟩ := Option.map_eq_some_iff.1 hj
      exact .num _
    · exact .str _
    · exact .str _
    · obtain ⟨phase, _, rfl⟩ := Option.map_eq_some_iff.1 hj
      exact .str _

/-- **What is stored is canonical**, so that its text is read back as it was. -/
theorem Checkpoint.canonical_toJson (c : Checkpoint) : c.toJson.Canonical := by
  refine Json.canonical_obj _ rfl ?_ fun field hfield => ?_
  · simp only [List.map_append, List.map_cons, List.map_nil]
    have hall : List.Pairwise (· < ·) ["counts", "createdAt", "discoveredLastPage",
        "lastCompletedPage", "lastSourceFailure", "pages", "runId", "sourceUrl", "status",
        "updatedAt"] := by decide
    exact hall.sublist (keys_optionalField_sublist
      ["counts", "createdAt", "discoveredLastPage", "lastCompletedPage"]
      ["pages", "runId", "sourceUrl", "status", "updatedAt"] "lastSourceFailure" _)
  · simp only [List.mem_append, mem_optionalField, List.mem_cons, List.not_mem_nil, or_false]
      at hfield
    rcases hfield with ((rfl | rfl | rfl | rfl) | ⟨j, hj, rfl⟩) | rfl | rfl | rfl | rfl | rfl
    · exact c.counts.canonical_toJson _
    · exact .str _
    · exact .num _
    · exact .num _
    · obtain ⟨failure, _, rfl⟩ := Option.map_eq_some_iff.1 hj
      exact canonical_sourceFailureToJson failure
    · exact canonical_pagesToJson c.pages
    all_goals exact .str _

/-- The text of a valid checkpoint is accepted exactly when its numbers are safe, and then it is read
    back as it was written, on every schema field. -/
theorem parseCheckpoint_stringify_eq {Text : Type} (pf : Platform Text) {c c' : Checkpoint}
    (h : c.Valid) :
    parseCheckpoint pf (stringifyCheckpoint pf c) = some c' ↔ c.onSchema = c' ∧ c.Safe := by
  unfold parseCheckpoint stringifyCheckpoint
  rw [pf.parse_stringify _ c.canonical_toJson, Option.bind_some]
  exact Checkpoint.ofJson_toJson h

/-- **The round trip**: a valid and safe checkpoint is read back as the schema has it. -/
theorem parseCheckpoint_stringify {Text : Type} (pf : Platform Text) {c : Checkpoint}
    (h : c.Valid) (hsafe : c.Safe) :
    parseCheckpoint pf (stringifyCheckpoint pf c) = some c.onSchema :=
  (parseCheckpoint_stringify_eq pf h).2 ⟨rfl, hsafe⟩

/-- The text of a valid checkpoint is accepted exactly when its numbers are safe. -/
theorem isSome_parseCheckpoint_stringify {Text : Type} (pf : Platform Text) {c : Checkpoint}
    (h : c.Valid) :
    (parseCheckpoint pf (stringifyCheckpoint pf c)).isSome = true ↔ c.Safe := by
  rw [Option.isSome_iff_exists]
  simp only [parseCheckpoint_stringify_eq pf h, exists_eq_left']

/-! ## What is accepted is valid -/

/-- What has passed is not empty. -/
theorem ne_empty_of_nonEmptyOfJson {j : Json} {s : String} (h : nonEmptyOfJson j = some s) :
    s ≠ "" := by
  cases j with
  | str text => exact (nonEmptyOfJson_str.1 h).2
  | _ => cases h

/-- An accepted entry has a status. -/
theorem status_ne_empty_of_pageOfJson {j : Json} {page : CheckpointPage}
    (h : pageOfJson j = some page) : page.status ≠ "" := by
  simp only [pageOfJson, Option.bind_eq_bind, Option.bind_eq_some_iff] at h
  obtain ⟨_, _, status, ⟨_, _, hstatus⟩, hpage⟩ := h
  cases hpage
  exact ne_empty_of_nonEmptyOfJson hstatus

/-- The entries that are read are those of the fields, and their statuses are texts. -/
theorem mem_of_mapM_pageEntryOfJson {fields : List (String × Json)}
    {entries : List (String × CheckpointPage)} (h : fields.mapM pageEntryOfJson = some entries) :
    ∀ entry ∈ entries, entry.1 ∈ fields.map Prod.fst ∧ entry.2.status ≠ "" := by
  induction fields generalizing entries with
  | nil =>
    cases h
    exact fun _ hentry => absurd hentry List.not_mem_nil
  | cons field fields ih =>
    simp only [List.mapM_cons, Option.bind_eq_bind, Option.bind_eq_some_iff] at h
    obtain ⟨first, hfirst, rest, hrest, heq⟩ := h
    cases heq
    intro entry hentry
    rcases List.mem_cons.1 hentry with rfl | hmem
    · obtain ⟨page, hpage, rfl⟩ := Option.map_eq_some_iff.1 hfirst
      exact ⟨List.mem_cons_self, status_ne_empty_of_pageOfJson hpage⟩
    · obtain ⟨hkey, hstatus⟩ := ih hrest entry hmem
      exact ⟨List.mem_cons_of_mem _ hkey, hstatus⟩

/-- Every entry of an accepted map is valid. -/
theorem valid_of_pagesOfJson {j : Json} {pages : JsRecord CheckpointPage}
    (h : pagesOfJson j = some pages) (key : String) (page : CheckpointPage)
    (hpage : pages.lookup key = some page) : key ≠ PROTO_KEY ∧ page.status ≠ "" := by
  cases j with
  | obj fields =>
    obtain ⟨entries, hentries, rfl⟩ := Option.map_eq_some_iff.1 h
    rw [JsRecord.lookup_ofEntries] at hpage
    obtain ⟨entry, hmem, heq⟩ := List.mem_map.1 (List.of_mem_dlookup hpage)
    cases heq
    obtain ⟨hkey, hstatus⟩ := mem_of_mapM_pageEntryOfJson hentries _ hmem
    obtain ⟨field, hfield, hname⟩ := List.mem_map.1 hkey
    exact ⟨hname ▸ of_decide_eq_true (List.mem_filter.1 hfield).2, hstatus⟩
  | _ => cases h

/-- What the schema accepts is valid. -/
theorem Checkpoint.valid_of_ofJson {j : Json} {c : Checkpoint}
    (h : Checkpoint.ofJson j = some c) : c.Valid := by
  simp only [Checkpoint.ofJson, Option.bind_eq_bind, Option.bind_eq_some_iff] at h
  obtain ⟨_, _, createdAt, ⟨_, _, hcreated⟩, _, _, _, _, _, _, pages, ⟨_, _, hpages⟩, runId,
    ⟨_, _, hrun⟩, sourceUrl, ⟨_, _, hsource⟩, _, _, updatedAt, ⟨_, _, hupdated⟩, heq⟩ := h
  cases heq
  exact
    { createdAt := ne_empty_of_nonEmptyOfJson hcreated
      pages := valid_of_pagesOfJson hpages
      runId := ne_empty_of_nonEmptyOfJson hrun
      sourceUrl := ne_empty_of_nonEmptyOfJson hsource
      updatedAt := ne_empty_of_nonEmptyOfJson hupdated }

/-- What `parseCheckpoint` accepts is well formed. -/
theorem valid_of_parseCheckpoint {Text : Type} {pf : Platform Text} {raw : Text} {c : Checkpoint}
    (h : parseCheckpoint pf raw = some c) : c.Valid := by
  obtain ⟨_, _, hj⟩ := Option.bind_eq_some_iff.1 h
  exact Checkpoint.valid_of_ofJson hj

/-- What is off the schema has no part in it. -/
@[simp] theorem Checkpoint.safe_onSchema {c : Checkpoint} : c.onSchema.Safe ↔ c.Safe := by
  constructor
  · intro h
    refine ⟨h.counts, h.discoveredLastPage, h.lastCompletedPage, h.lastSourceFailure, ?_⟩
    intro key page hpage
    refine h.pages key page.onSchema ?_
    show (c.pages.map CheckpointPage.onSchema).lookup key = _
    rw [JsRecord.lookup_map, hpage]
    rfl
  · intro h
    refine ⟨h.counts, h.discoveredLastPage, h.lastCompletedPage, h.lastSourceFailure, ?_⟩
    intro key page hpage
    replace hpage : (c.pages.map CheckpointPage.onSchema).lookup key = some page := hpage
    rw [JsRecord.lookup_map] at hpage
    obtain ⟨page', hpage', rfl⟩ := Option.map_eq_some_iff.1 hpage
    exact h.pages key page' hpage'

/-! ## Resuming and merging -/

def FIRST_PAGE : ℕ := 1
def NO_PAGE_COMPLETED : ℕ := 0

/-- Where a run would go on from a checkpoint: behind its last completed page. -/
def resumeStartPage (checkpoint : Option Checkpoint) : ℕ :=
  match checkpoint with
  | none => FIRST_PAGE
  | some c => if c.lastCompletedPage = NO_PAGE_COMPLETED then FIRST_PAGE
    else c.lastCompletedPage + FIRST_PAGE

/-- `statusRanks` -/
def statusRank : CheckpointStatus → ℕ
  | .complete => 5
  | .failed => 4
  | .partiallyDone => 3
  | .resumable => 2
  | .running => 1

/-- The checkpoint that is further, or of the more determined status; the local one on a tie. -/
def pickHigherProgress (localCheckpoint remote : Checkpoint) : Checkpoint :=
  if localCheckpoint.lastCompletedPage > remote.lastCompletedPage then localCheckpoint
  else if localCheckpoint.lastCompletedPage < remote.lastCompletedPage then remote
  -- equal progress: the more determined status wins, the local side on a tie
  else if statusRank localCheckpoint.status ≥ statusRank remote.status then localCheckpoint
  else remote

/-- The one of the higher progress, with the pages of both; where both know a page, as the remote
    one has it. -/
def mergeCheckpoints (localCheckpoint remote : Checkpoint) : Checkpoint :=
  let winner := pickHigherProgress localCheckpoint remote
  { counts := winner.counts
    createdAt := localCheckpoint.createdAt
    discoveredLastPage := max localCheckpoint.discoveredLastPage remote.discoveredLastPage
    lastCompletedPage := max localCheckpoint.lastCompletedPage remote.lastCompletedPage
    lastSourceFailure := winner.lastSourceFailure
    pages := JsRecord.spread localCheckpoint.pages remote.pages
    runId := winner.runId
    sourceUrl := winner.sourceUrl
    status := winner.status
    updatedAt := winner.updatedAt }

section Merge

variable {l r : Checkpoint}

/-- A merge is as far as the further one. -/
@[simp] theorem lastCompletedPage_merge :
    (mergeCheckpoints l r).lastCompletedPage = max l.lastCompletedPage r.lastCompletedPage := rfl

/-- A merge has the pages of both. -/
theorem mem_pages_merge {key : String} :
    key ∈ (mergeCheckpoints l r).pages ↔ key ∈ l.pages ∨ key ∈ r.pages :=
  JsRecord.mem_spread

/-- It is one of the two. -/
theorem pickHigherProgress_cases (l r : Checkpoint) :
    pickHigherProgress l r = l ∨ pickHigherProgress l r = r := by
  unfold pickHigherProgress
  split_ifs <;> simp

/-- A merge of valid checkpoints is valid. -/
theorem Checkpoint.Valid.merge (hl : l.Valid) (hr : r.Valid) : (mergeCheckpoints l r).Valid := by
  have hwinner : (pickHigherProgress l r).Valid := by
    rcases pickHigherProgress_cases l r with h | h <;> rw [h] <;> assumption
  refine ⟨hl.createdAt, fun key page h => ?_, hwinner.runId, hwinner.sourceUrl, hwinner.updatedAt⟩
  have hlookup := (JsRecord.lookup_spread l.pages r.pages key).symm.trans h
  rcases Option.or_eq_some_iff.1 hlookup with h | ⟨_, h⟩
  · exact hr.pages key page h
  · exact hl.pages key page h

/-- Merging with an earlier stage of the same work changes no schema field. -/
theorem onSchema_merge_eq_left (hlast : r.lastCompletedPage ≤ l.lastCompletedPage)
    (hstatus : r.lastCompletedPage = l.lastCompletedPage → statusRank r.status ≤ statusRank l.status)
    (hdiscovered : r.discoveredLastPage ≤ l.discoveredLastPage)
    (hpages : ∀ key page, r.pages.lookup key = some page →
      (l.pages.lookup key).map CheckpointPage.onSchema = some page.onSchema) :
    (mergeCheckpoints l r).onSchema = l.onSchema := by
  have hwinner : pickHigherProgress l r = l := by
    unfold pickHigherProgress
    split_ifs with h1 h2 h3
    · rfl
    · omega
    · rfl
    · exact absurd (hstatus (by omega)) (by omega)
  have hspread : (JsRecord.spread l.pages r.pages).map CheckpointPage.onSchema =
      l.pages.map CheckpointPage.onSchema := by
    refine Finmap.ext_lookup fun key => ?_
    rw [JsRecord.lookup_map, JsRecord.lookup_map, JsRecord.lookup_spread]
    cases h : r.pages.lookup key with
    | none => rw [Option.none_or]
    | some page => rw [Option.some_or, hpages key page h, Option.map_some]
  unfold mergeCheckpoints Checkpoint.onSchema
  simp only [hwinner, max_eq_left hlast, max_eq_left hdiscovered, hspread]

end Merge

/-! ## Page keys -/

/-- A page number is not the key of a prototype. -/
theorem natToString_ne_proto (n : ℕ) : toString n ≠ PROTO_KEY := by
  intro h
  have hmem : '_' ∈ Nat.toDigits 10 n := by
    have hlist := congrArg String.toList h
    rw [show (toString n).toList = Nat.toDigits 10 n from Nat.toList_repr] at hlist
    rw [hlist]
    decide
  exact absurd (Nat.isDigit_of_mem_toDigits (by decide) (by decide) hmem) (by decide)

/-- Different pages have different keys. -/
theorem natToString_injective : Function.Injective (toString : ℕ → String) := by
  intro m n h
  have hdigits : Nat.toDigits 10 m = Nat.toDigits 10 n := by
    have hlist := congrArg String.toList h
    rwa [show (toString m).toList = Nat.toDigits 10 m from Nat.toList_repr,
      show (toString n).toList = Nat.toDigits 10 n from Nat.toList_repr] at hlist
  have hvalue := congrArg (fun cs => Nat.ofDigitChars 10 cs 0) hdigits
  rwa [Nat.ofDigitChars_toDigits (by decide) (by decide),
    Nat.ofDigitChars_toDigits (by decide) (by decide)] at hvalue

end ReplaysFetcher
