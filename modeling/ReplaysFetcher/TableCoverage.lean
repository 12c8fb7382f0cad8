/-
  The checkpoint never runs ahead of the staging table.

  Any number of runs work on one source at the same time, over one bucket and one table; each may be
  killed anywhere, every service may fail in every way `Faults` knows, and the checkpoint may be
  written blindly.  The source alone is required to hold still: whenever a page can be read it lists
  the same candidates, and a candidate's bytes never change.

  Then a page number that a checkpoint counts as completed can be trusted by everybody who reads the
  checkpoint: its entry admits a failure, or every candidate of the page has its row.

  1. `Stocked`: raw objects and rows are those of the listing.  This is what turns the answers of
     `stage` into facts: a row in the way of a candidate IS the candidate's row.
  2. `Accounted`: the pages map of a checkpoint, or of a run, is right about the table.  Rows are
     never deleted, so it stays right; and a merge takes every entry from one side or the other, so
     it needs no agreement between the writers.
  3. `Grounded` says 1 of the world and 2 of every version ever stored.  Every step of every run
     keeps it, whatever the others do.
-/
import ReplaysFetcher.CheckpointHistory
import ReplaysFetcher.ContentAddressing
import ReplaysFetcher.Sequential

namespace ReplaysFetcher

open Effectful

variable {Text : Type}

/-! ## A source that holds still -/

/-- What a source lists, page by page, and the contents of each replay. -/
structure Listing where
  page : ℕ → List ReplayCandidate
  content : ReplayCandidate → Bytes

namespace Listing

variable (listing : Listing)

/-- The candidate is on one of the source's pages. -/
def Lists (candidate : ReplayCandidate) : Prop := ∃ page, candidate ∈ listing.page page

/-- The bytes of all replays of the source. -/
def corpus : Set Bytes := {bytes | ∃ candidate, listing.Lists candidate ∧
  listing.content candidate = bytes}

/-- The row a candidate is staged as. -/
def row (pf : Platform Text) (candidate : ReplayCandidate) : RowIdentity :=
  rowIdentity pf candidate (listing.content candidate)

/-- Digests tell the contents apart, and so do the ids the candidates are staged under: one replay
    may be listed twice, but two replays never share an id. -/
structure Separated (pf : Platform Text) : Prop where
  digest : Set.InjOn pf.sha256Hex listing.corpus
  identity : ∀ candidate other, listing.Lists candidate → listing.Lists other →
    (replayId pf candidate (listing.content candidate) = replayId pf other (listing.content other) ↔
      listing.content candidate = listing.content other)

/-- Whenever a page of the source can be read, it lists these candidates, and whenever a candidate's
    bytes can be read, they are these. -/
structure Serves (b : Backend Text) (pf : Platform Text) (sourceUrl : Url) : Prop where
  listed : ∀ input page report, input.sourceUrl = pf.toPageUrl sourceUrl page →
    b.reports input (.ok report) → report.ok = true → report.candidates = listing.page page
  served : ∀ candidate, listing.Lists candidate → ∀ url, bytesUrl pf candidate = .ok url →
    ∀ bytes, b.served url bytes → bytes = listing.content candidate

end Listing

/-! ## What a checkpoint says about the table -/

section Accounts

variable (pf : Platform Text) (listing : Listing)

/-- Raw objects and rows are those of the listing. -/
structure Stocked (w : World Text) : Prop where
  addressed : ContentAddressed pf listing.corpus w
  rows : ∀ row ∈ w.staging, ∃ candidate, listing.Lists candidate ∧
    row.identity = listing.row pf candidate

/-- The candidate has its row. -/
def Covered (candidate : ReplayCandidate) (w : World Text) : Prop :=
  ∃ row ∈ w.staging, row.identity = listing.row pf candidate

/-- Each candidate of the page has its row. -/
def PageCovered (page : ℕ) (w : World Text) : Prop :=
  ∀ candidate ∈ listing.page page, Covered pf listing candidate w

/-- Every page up to `last` has an entry, and a page whose entry admits no failure is covered. -/
structure Accounted (last : ℕ) (pages : JsRecord CheckpointPage) (w : World Text) : Prop where
  entries : ∀ page, 1 ≤ page → page ≤ last → toString page ∈ pages
  valid : ∀ key entry, pages.lookup key = some entry → key ≠ PROTO_KEY ∧ entry.status ≠ ""
  covered : ∀ page entry, pages.lookup (toString page) = some entry → entry.counts.failed = 0 →
    PageCovered pf listing page w

/-- The stores are those of the listing, and every stored checkpoint is right about the table. -/
structure Grounded (w : World Text) : Prop where
  stocked : Stocked pf listing w
  accounted : ∀ key, ∀ version ∈ w.checkpoints key, ∀ c, parseCheckpoint pf version.body = some c →
    Accounted pf listing c.lastCompletedPage c.pages w

/-- What everybody may rely on, and has to keep. -/
structure Upholds (w w' : World Text) : Prop where
  rows : w.staging <+: w'.staging
  grounded : Grounded pf listing w → Grounded pf listing w'

end Accounts

section Accounted

variable {pf : Platform Text} {listing : Listing} {w w' : World Text} {last : ℕ}
  {pages : JsRecord CheckpointPage} {candidate : ReplayCandidate} {page : ℕ}

/-- Rows that were added leave a covered candidate covered. -/
theorem Covered.mono (h : Covered pf listing candidate w) (hrows : w.staging <+: w'.staging) :
    Covered pf listing candidate w' := by
  obtain ⟨row, hmem, hrow⟩ := h
  exact ⟨row, hrows.subset hmem, hrow⟩

/-- And an accounted page accounted. -/
theorem Accounted.mono (h : Accounted pf listing last pages w) (hrows : w.staging <+: w'.staging) :
    Accounted pf listing last pages w' :=
  ⟨h.entries, h.valid, fun page entry hentry hfailed candidate hmem =>
    (h.covered page entry hentry hfailed candidate hmem).mono hrows⟩

/-- No page, nothing to account for. -/
theorem Accounted.empty : Accounted pf listing 0 ∅ w := by
  refine ⟨fun page hpos hle => by omega, fun key entry h => ?_, fun page entry h => ?_⟩
  · rw [Finmap.lookup_empty] at h
    cases h
  · rw [Finmap.lookup_empty] at h
    cases h

/-- Writing and parsing a checkpoint leaves its pages accounted. -/
theorem Accounted.onSchema (h : Accounted pf listing last pages w) :
    Accounted pf listing last (pages.map CheckpointPage.onSchema) w := by
  refine ⟨fun page hpos hle => ?_, fun key entry hentry => ?_, fun page entry hentry => ?_⟩
  · rw [JsRecord.mem_map]
    exact h.entries page hpos hle
  · rw [JsRecord.lookup_map] at hentry
    obtain ⟨entry', hentry', rfl⟩ := Option.map_eq_some_iff.1 hentry
    exact h.valid key entry' hentry'
  · rw [JsRecord.lookup_map] at hentry
    obtain ⟨entry', hentry', rfl⟩ := Option.map_eq_some_iff.1 hentry
    exact h.covered page entry' hentry'

/-- A merge is right when both sides are. -/
theorem Accounted.merge {l r : Checkpoint} (hl : Accounted pf listing l.lastCompletedPage l.pages w)
    (hr : Accounted pf listing r.lastCompletedPage r.pages w) :
    Accounted pf listing (mergeCheckpoints l r).lastCompletedPage (mergeCheckpoints l r).pages w := by
  have hlookup : ∀ key entry, (mergeCheckpoints l r).pages.lookup key = some entry →
      r.pages.lookup key = some entry ∨ l.pages.lookup key = some entry := by
    intro key entry h
    have h := (JsRecord.lookup_spread l.pages r.pages key).symm.trans h
    rcases Option.or_eq_some_iff.1 h with h | ⟨_, h⟩
    · exact Or.inl h
    · exact Or.inr h
  refine ⟨fun page hpos hle => ?_, fun key entry hentry => ?_, fun page entry hentry => ?_⟩
  · rw [mem_pages_merge]
    rcases le_max_iff.1 hle with hle | hle
    · exact Or.inl (hl.entries page hpos hle)
    · exact Or.inr (hr.entries page hpos hle)
  · rcases hlookup key entry hentry with h | h
    · exact hr.valid key entry h
    · exact hl.valid key entry h
  · rcases hlookup _ entry hentry with h | h
    · exact hr.covered page entry h
    · exact hl.covered page entry h

/-- One page more. -/
theorem Accounted.advance {p : Progress} {counts : IngestPageCounts}
    (h : Accounted pf listing p.lastCompletedPage p.pages w)
    (hnext : counts.failed = 0 → PageCovered pf listing p.nextPage w) :
    Accounted pf listing (p.advance counts).lastCompletedPage (p.advance counts).pages w := by
  refine ⟨fun page hpos hle => ?_, Progress.valid_advance h.valid counts,
    fun page entry hentry hfailed => ?_⟩
  · show toString page ∈ p.pages.insert (toString p.nextPage) _
    rw [Finmap.mem_insert]
    rcases Nat.lt_or_ge p.lastCompletedPage page with hlt | hge
    · exact Or.inl (congrArg toString (le_antisymm hle hlt))
    · exact Or.inr (h.entries page hpos hge)
  · have hlookup : (p.pages.insert (toString p.nextPage) (runningPage counts)).lookup
        (toString page) = some entry := hentry
    by_cases hkey : toString page = toString p.nextPage
    · obtain rfl := natToString_injective hkey
      rw [Finmap.lookup_insert] at hlookup
      obtain rfl := Option.some.inj hlookup
      exact hnext hfailed
    · rw [Finmap.lookup_insert_of_ne _ hkey] at hlookup
      exact h.covered page entry hlookup hfailed

/-- Doing nothing upholds everything. -/
theorem Upholds.refl (w : World Text) : Upholds pf listing w w := ⟨List.prefix_refl _, id⟩

/-- A step that touches neither store keeps everything. -/
theorem upholds_of_eq (h : w' = w) : Upholds pf listing w w' := by
  rw [h]
  exact Upholds.refl w

/-- What is accounted stays so. -/
theorem Upholds.accounted (h : Upholds pf listing w w')
    (hw : Grounded pf listing w ∧ Accounted pf listing last pages w) :
    Grounded pf listing w' ∧ Accounted pf listing last pages w' :=
  ⟨h.grounded hw.1, hw.2.mono h.rows⟩

/-- What is covered stays so. -/
theorem Upholds.covered (h : Upholds pf listing w w')
    (hw : Grounded pf listing w ∧ Covered pf listing candidate w) :
    Grounded pf listing w' ∧ Covered pf listing candidate w' :=
  ⟨h.grounded hw.1, hw.2.mono h.rows⟩

/-! ## The steps that write -/

/-- Contents of the listing, put under their digest. -/
theorem upholds_putRaw (hlisting : listing.Separated pf) {bytes : Bytes}
    (hbytes : bytes ∈ listing.corpus) :
    Upholds pf listing w (w.putRaw (rawKey (pf.sha256Hex bytes))
      { bytes, sha256 := some (pf.sha256Hex bytes) }) :=
  ⟨List.prefix_refl _, fun h =>
    ⟨⟨(h.stocked.addressed.putRaw hlisting.digest hbytes).1, h.stocked.rows⟩,
      fun key version hversion c hparse =>
        (h.accounted key version hversion c hparse).mono (List.prefix_refl _)⟩⟩

/-- The row of a listed candidate, added. -/
theorem upholds_addRow {row : StagingRow} (hmem : listing.Lists candidate)
    (hrow : row.identity = listing.row pf candidate) : Upholds pf listing w (w.addRow row) := by
  have hrows : w.staging <+: (w.addRow row).staging := List.prefix_append _ _
  refine ⟨hrows, fun h => ⟨⟨h.stocked.addressed, fun other hother => ?_⟩, ?_⟩⟩
  · rcases List.mem_append.1 hother with hother | hother
    · exact h.stocked.rows other hother
    · obtain rfl := List.mem_singleton.1 hother
      exact ⟨candidate, hmem, hrow⟩
  · exact fun key version hversion c hparse => (h.accounted key version hversion c hparse).mono hrows

/-- A checkpoint that is right about the table, stored. -/
theorem upholds_pushVersion {key etag : String} {c : Checkpoint} (hvalid : c.Valid)
    (hc : Accounted pf listing c.lastCompletedPage c.pages w) :
    Upholds pf listing w (w.pushVersion key { body := stringifyCheckpoint pf c, etag }) := by
  refine ⟨List.prefix_refl _, fun h => ⟨⟨h.stocked.addressed, h.stocked.rows⟩, ?_⟩⟩
  intro key' version hversion c' hparse
  have hcases : version = { body := stringifyCheckpoint pf c, etag } ∨
      version ∈ w.checkpoints key' := by
    by_cases hkey : key' = key
    · subst hkey
      rw [World.checkpoints_pushVersion] at hversion
      exact List.mem_cons.1 hversion
    · refine Or.inr ?_
      have hother : (w.pushVersion key { body := stringifyCheckpoint pf c, etag }).checkpoints key' =
          w.checkpoints key' := Function.update_of_ne hkey _ _
      rwa [hother] at hversion
  rcases hcases with rfl | hold
  · -- what was written is read back, on every schema field
    obtain ⟨rfl, _⟩ := (parseCheckpoint_stringify_eq pf hvalid).1 hparse
    exact hc.onSchema.mono (List.prefix_refl _)
  · exact (h.accounted key' version hold c' hparse).mono (List.prefix_refl _)

/-- A row in the way of a listed candidate is the candidate's row. -/
theorem Stocked.covered_of_object (hlisting : listing.Separated pf) (h : Stocked pf listing w)
    (hmem : listing.Lists candidate) {row : StagingRow} (hrow : row ∈ w.staging)
    (hchecksum : row.checksum = (listing.row pf candidate).checksum) :
    Covered pf listing candidate w := by
  obtain ⟨other, hother, hidentity⟩ := h.rows row hrow
  have hdigest : pf.sha256Hex (listing.content other) = pf.sha256Hex (listing.content candidate) :=
    (congrArg RowIdentity.checksum hidentity).symm.trans hchecksum
  have hcontent : listing.content other = listing.content candidate :=
    hlisting.digest ⟨other, hother, rfl⟩ ⟨candidate, hmem, rfl⟩ hdigest
  have hid := (hlisting.identity other candidate hother hmem).2 hcontent
  refine ⟨row, hrow, hidentity.trans ?_⟩
  unfold Listing.row rowIdentity
  rw [hid, hcontent]

/-- A row with the candidate's source identity is the candidate's row. -/
theorem Stocked.covered_of_source (hlisting : listing.Separated pf) (h : Stocked pf listing w)
    (hmem : listing.Lists candidate) {row : StagingRow} (hrow : row ∈ w.staging)
    (hsource : row.sourceReplayId = (listing.row pf candidate).sourceReplayId) :
    Covered pf listing candidate w := by
  obtain ⟨other, hother, hidentity⟩ := h.rows row hrow
  have hid : replayId pf other (listing.content other) =
      replayId pf candidate (listing.content candidate) :=
    (congrArg RowIdentity.sourceReplayId hidentity).symm.trans hsource
  have hcontent := (hlisting.identity other candidate hother hmem).1 hid
  refine h.covered_of_object hlisting hmem hrow ?_
  rw [show row.checksum = (listing.row pf other).checksum from
    congrArg RowIdentity.checksum hidentity]
  unfold Listing.row rowIdentity
  rw [hcontent]

end Accounted

/-! ## One candidate -/

section Candidate

variable {pf : Platform Text} {listing : Listing} {b : Backend Text} {sourceUrl : Url}
  {w w' : World Text} {candidate : ReplayCandidate} {bucket : String}

/-- Evidence of the candidate's own contents, that can be staged. -/
def StoredContent (pf : Platform Text) (listing : Listing) (bucket : String)
    (candidate : ReplayCandidate) (evidence : RawReplayStorageEvidence) : Prop :=
  ∃ now status failureCategory, evidence =
    toEvidence bucket (storageInput pf candidate now (listing.content candidate)) status
      failureCategory

/-- A store either fails, or leaves evidence of the candidate's contents. -/
def StoreAccounts (pf : Platform Text) (listing : Listing) (bucket : String)
    (candidate : ReplayCandidate) (result : StoreRawReplayResult) : Prop :=
  result.status = .failed ∨ ∃ evidence, result = .stored evidence ∧ isStageable evidence = true ∧
    StoredContent pf listing bucket candidate evidence

/-- The S3 adapter: an object that is there is the candidate's own. -/
theorem safe_s3StoreRawReplay_accounts (hlisting : listing.Separated pf)
    (hmem : listing.Lists candidate) (now : Date) (hw : Grounded pf listing w) :
    Proc.Safe b.Step (Upholds pf listing) (Upholds pf listing)
      (fun evidence w => Grounded pf listing w ∧
        StoreAccounts pf listing bucket candidate (.stored evidence)) w
      (s3StoreRawReplay bucket (storageInput pf candidate now (listing.content candidate))) := by
  have hbytes : listing.content candidate ∈ listing.corpus := ⟨candidate, hmem, rfl⟩
  refine safe_s3StoreRawReplay (Grounded pf listing) (Grounded pf listing)
    (fun _ _ h hr => hr.grounded h) (fun _ _ h hr => hr.grounded h)
    (fun _ _ _ h hr => ⟨hr.grounded h.1, h.2⟩) ?_ ?_ hw
  · rintro w hw r w' ⟨rfl, hreply⟩
    refine ⟨Upholds.refl _, fun output hok => ⟨hw, ?_⟩, fun error herror => ?_⟩
    · subst hok
      rcases hreply with hreply | ⟨_, _, _, hreply⟩
      · rw [show (storageInput pf candidate now (listing.content candidate)).objectKey =
          rawKey (pf.sha256Hex (listing.content candidate)) from rfl] at hreply
        cases hobject : w'.raw (rawKey (pf.sha256Hex (listing.content candidate))) with
        | none =>
          rw [hobject] at hreply
          obtain ⟨_, _, hreply⟩ := hreply
          cases hreply
        | some object =>
          -- the object has this digest, so it has these bytes, and HEAD says so
          rw [hobject] at hreply
          obtain rfl := Except.ok.inj hreply
          have hsame := hw.stocked.addressed.bytes_eq hlisting.digest hbytes hobject
          obtain ⟨_, _, hmetadata⟩ := hw.stocked.addressed _ _ hobject
          refine Or.inr ⟨_, rfl, ?_, now, .skipped, none, ?_⟩ <;> unfold headEvidence <;>
            rw [if_pos ⟨by rw [hsame]; rfl, hmetadata⟩]
          rfl
      · cases hreply
    · split
      · exact hw
      · exact ⟨hw, Or.inl rfl⟩
  · intro w hw r w' hr
    have hkeeps : Upholds pf listing w w' := by
      rcases hr with ⟨rfl, _⟩ | ⟨_, hsame, _⟩
      · exact upholds_putRaw hlisting hbytes
      · exact upholds_of_eq hsame
    refine ⟨hkeeps, hkeeps.grounded hw, ?_⟩
    cases r with
    | ok u => exact Or.inr ⟨_, rfl, rfl, now, .stored, none, rfl⟩
    | error error => exact Or.inl rfl

/-- The store of one candidate. -/
theorem safe_storeRawReplay_accounts (hlisting : listing.Separated pf)
    (hserves : listing.Serves b pf sourceUrl) (hmem : listing.Lists candidate)
    (hw : Grounded pf listing w) :
    Proc.Safe b.Step (Upholds pf listing) (Upholds pf listing)
      (fun r w => Grounded pf listing w ∧
        ∀ result, r = .ok result → StoreAccounts pf listing bucket candidate result) w
      (storeRawReplay pf bucket candidate) := by
  have hfailure : ∀ (now : Date) error result,
      fetchFailureOutcome candidate (toISOString now) error = .ok result →
      StoreAccounts pf listing bucket candidate result := by
    intro now error result hresult
    cases error with
    | replayByteFetch code message =>
      obtain rfl := Except.ok.inj hresult
      exact Or.inl rfl
    | _ => cases hresult
  refine safe_storeRawReplay (Grounded pf listing) (Grounded pf listing)
    (fun bytes w => Grounded pf listing w ∧ bytes = listing.content candidate)
    (fun _ _ h hr => hr.grounded h) (fun _ _ h hr => hr.grounded h)
    (fun _ _ _ h hr => ⟨hr.grounded h.1, h.2⟩) ?_ ?_ ?_ ?_ hw
  · rintro w hw now w' rfl
    exact ⟨Upholds.refl _, hw⟩
  · intro error _ now w hw
    exact ⟨hw, hfailure now error⟩
  · rintro url hurl w hw r w' ⟨rfl, hreply⟩
    refine ⟨Upholds.refl _, fun bytes hok => ⟨hw, ?_⟩, fun error herror now => ⟨hw, ?_⟩⟩
    · rcases hreply with ⟨bytes', hbytes, hreply⟩ | ⟨_, _, _, hreply⟩
      · obtain rfl := Except.ok.inj (hok.symm.trans hreply)
        exact hserves.served candidate hmem url hurl bytes hbytes
      · rw [hok] at hreply
        cases hreply
    · exact hfailure now error
  · rintro now bytes w ⟨hw, rfl⟩
    refine (safe_s3StoreRawReplay_accounts hlisting hmem now hw).imp ?_
    rintro evidence w ⟨hw, haccounts⟩
    refine ⟨hw, fun result hresult => ?_⟩
    obtain rfl := Except.ok.inj hresult
    exact haccounts

/-- A staging either fails, or the candidate has its row. -/
def StageAccounts (pf : Platform Text) (listing : Listing) (candidate : ReplayCandidate)
    (r : Except JsError IngestStagingResult) (w : World Text) : Prop :=
  Grounded pf listing w ∧ ∀ result, r = .ok result →
    result.status = .failed ∨ Covered pf listing candidate w

/-- What others do leaves an account of a staging true. -/
theorem StageAccounts.keeps {r : Except JsError IngestStagingResult}
    (h : StageAccounts pf listing candidate r w) (hr : Upholds pf listing w w') :
    StageAccounts pf listing candidate r w' :=
  ⟨hr.grounded h.1, fun result hresult => (h.2 result hresult).imp_right fun h => h.mono hr.rows⟩

/-- A candidate with a row is accounted for, whatever the result. -/
theorem stageAccounts_covered {r : Except JsError IngestStagingResult}
    (hw : Grounded pf listing w) (h : Covered pf listing candidate w) :
    StageAccounts pf listing candidate r w := ⟨hw, fun _ _ => Or.inr h⟩

/-- An error promises nothing. -/
theorem stageAccounts_error (hw : Grounded pf listing w) (error : JsError) :
    StageAccounts pf listing candidate (.error error) w :=
  ⟨hw, fun result hresult => by cases hresult⟩

/-- Nor does a failed result. -/
theorem stageAccounts_failed (hw : Grounded pf listing w) (payload : IngestStagingPayload)
    (reason : String) : StageAccounts pf listing candidate (.ok (failedResult payload reason)) w := by
  refine ⟨hw, fun result hresult => Or.inl ?_⟩
  obtain rfl := Except.ok.inj hresult
  rfl

/-- What follows a failed INSERT is accounted for. -/
theorem stageError_accounts (hw : Grounded pf listing w) (payload : IngestStagingPayload)
    (error : JsError) :
    StageErrorPost (StageAccounts pf listing candidate) (Grounded pf listing) payload error w := by
  unfold StageErrorPost
  split
  · exact hw
  · exact stageAccounts_failed hw payload _

/-- A row found under the source identity, or under the object identity, of a listed candidate. -/
theorem Grounded.covered_of_find (hlisting : listing.Separated pf) (hw : Grounded pf listing w)
    (hmem : listing.Lists candidate) {payload : IngestStagingPayload} {row : StagingRow}
    (hpayload : payload.identity = listing.row pf candidate)
    (hfind : w.rowBySource? payload.sourceSystem payload.sourceReplayId = some row ∨
      w.rowByObject? payload.checksum payload.objectKey = some row) :
    Covered pf listing candidate w := by
  rcases hfind with hfind | hfind
  · have hcond := List.find?_some hfind
    simp only [Bool.and_eq_true, decide_eq_true_eq] at hcond
    refine hw.stocked.covered_of_source hlisting hmem (List.mem_of_find?_eq_some hfind) ?_
    exact hcond.2.trans (congrArg RowIdentity.sourceReplayId hpayload)
  · have hcond := List.find?_some hfind
    simp only [Bool.and_eq_true, decide_eq_true_eq] at hcond
    refine hw.stocked.covered_of_object hlisting hmem (List.mem_of_find?_eq_some hfind) ?_
    exact hcond.1.trans (congrArg RowIdentity.checksum hpayload)

/-- The answer of a lookup: what was found covers the candidate. -/
theorem lookup_accounts {answer : Option StagingRow} {r : Except JsError (Option StagingRow)}
    {found : StagingRow → World Text → Prop} {missing : World Text → Prop}
    {failed : JsError → World Text → Prop} (hfound : ∀ row, answer = some row → found row w)
    (hmissing : missing w) (hfailed : ∀ error, failed error w) (hr : b.StepSelect answer r) :
    LookupPost found missing failed r w := by
  rcases hr with rfl | ⟨_, error, _, rfl⟩
  · cases answer with
    | none => exact hmissing
    | some row => exact hfound row rfl
  · exact hfailed error

/-- **Staging one candidate**: whatever the database answers, it fails or the row is there. -/
theorem safe_stage_accounts (hlisting : listing.Separated pf) (hmem : listing.Lists candidate)
    {payload : IngestStagingPayload} (hpayload : payload.identity = listing.row pf candidate)
    (hw : Grounded pf listing w) :
    Proc.Safe b.Step (Upholds pf listing) (Upholds pf listing) (StageAccounts pf listing candidate) w
      (stage payload) := by
  have hstable : ∀ w w', Grounded pf listing w → Upholds pf listing w w' → Grounded pf listing w' :=
    fun _ _ h hr => hr.grounded h
  have hpost : ∀ r w w', StageAccounts pf listing candidate r w → Upholds pf listing w w' →
      StageAccounts pf listing candidate r w' := fun _ _ _ h hr => h.keeps hr
  refine safe_stage (Grounded pf listing) (Grounded pf listing) (Grounded pf listing) hstable hstable
    hpost ?_ ?_ ?_ hw
  · rintro w hw r w' (hinsert | ⟨_, rfl, error, _, rfl⟩)
    · split at hinsert
      · obtain ⟨rfl, rfl⟩ := hinsert
        exact ⟨Upholds.refl _, hw⟩
      · split at hinsert
        · obtain ⟨rfl, error, _, rfl⟩ := hinsert
          exact ⟨Upholds.refl _, stageError_accounts hw payload error⟩
        · obtain ⟨id, rfl, hreply⟩ := hinsert
          -- the row was added, whatever the reply says
          have hrow : (payload.toRow id).identity = listing.row pf candidate := hpayload
          have hkeeps := upholds_addRow (w := w) hmem hrow
          refine ⟨hkeeps, ?_⟩
          rcases hreply with rfl | ⟨_, error, _, rfl⟩
          · exact stageAccounts_covered (hkeeps.grounded hw)
              ⟨_, List.mem_append_right _ (List.mem_singleton.2 rfl), hrow⟩
          · exact stageError_accounts (hkeeps.grounded hw) payload error
    · exact ⟨Upholds.refl _, stageError_accounts hw payload error⟩
  · rintro w hw r w' ⟨rfl, hreply⟩
    refine ⟨Upholds.refl _, lookup_accounts ?_ hw (stageError_accounts hw payload) hreply⟩
    exact fun row hfind => stageAccounts_covered hw
      (hw.covered_of_find hlisting hmem hpayload (Or.inr hfind))
  · intro w hw
    refine safe_classifyExistingStaging (Grounded pf listing) (Grounded pf listing) hstable hstable
      hpost ?_ ?_ hw
    · rintro w hw r w' ⟨rfl, hreply⟩
      refine ⟨Upholds.refl _, lookup_accounts ?_ hw (stageAccounts_error hw) hreply⟩
      exact fun row hfind => stageAccounts_covered hw
        (hw.covered_of_find hlisting hmem hpayload (Or.inl hfind))
    · rintro w hw r w' ⟨rfl, hreply⟩
      refine ⟨Upholds.refl _, lookup_accounts ?_ (stageAccounts_failed hw payload _)
        (stageAccounts_error hw) hreply⟩
      exact fun row hfind => stageAccounts_covered hw
        (hw.covered_of_find hlisting hmem hpayload (Or.inr hfind))

/-- What a candidate's store and staging came to: a failure of one of them, or its row. -/
def CandidateAccounts (pf : Platform Text) (listing : Listing) (candidate : ReplayCandidate)
    (rawStatus : RawReplayStorageStatus) (stagingStatus : StagingOutcomeStatus) (w : World Text) :
    Prop :=
  rawStatus = .failed ∨ stagingStatus = .failed ∨ Covered pf listing candidate w

/-- What others do leaves a candidate's account true. -/
theorem CandidateAccounts.keeps {rawStatus : RawReplayStorageStatus}
    {stagingStatus : StagingOutcomeStatus}
    (h : CandidateAccounts pf listing candidate rawStatus stagingStatus w)
    (hr : Upholds pf listing w w') :
    CandidateAccounts pf listing candidate rawStatus stagingStatus w' :=
  h.imp_right fun h => h.imp_right fun h => h.mono hr.rows

/-- Staging what the store resolved with. -/
theorem safe_stageRawReplay_accounts (hlisting : listing.Separated pf)
    (hmem : listing.Lists candidate) {result : StoreRawReplayResult} {runId : Option String}
    (haccounts : StoreAccounts pf listing bucket candidate result) (hw : Grounded pf listing w) :
    Proc.Safe b.Step (Upholds pf listing) (Upholds pf listing)
      (Async.Outcome (fun stagingResult w => Grounded pf listing w ∧
        CandidateAccounts pf listing candidate result.status stagingResult.status w)
        fun _ => Grounded pf listing) w
      (stageRawReplay pf result runId) := by
  have hstable := Async.outcome_stable
    (fun (stagingResult : IngestStagingResult) w w' (h : Grounded pf listing w ∧
      CandidateAccounts pf listing candidate result.status stagingResult.status w)
      (hr : Upholds pf listing w w') => (⟨hr.grounded h.1, h.2.keeps hr⟩ :
        Grounded pf listing w' ∧ _))
    (fun (_ : JsError) w w' (h : Grounded pf listing w) (hr : Upholds pf listing w w') =>
      hr.grounded h)
  unfold stageRawReplay toIngestStagingPayload
  rcases haccounts with hfailed | ⟨evidence, rfl, hstageable, now, status, category, rfl⟩
  · cases result with
    | fetchFailed evidence => exact Proc.safe_pure (hstable _) ⟨hw, Or.inl rfl⟩
    | stored evidence =>
      have hstatus : evidence.status = .failed := hfailed
      have hnot : ¬ isStageable evidence = true := by
        unfold isStageable
        rw [hstatus]
        decide
      dsimp only
      rw [if_neg hnot]
      exact Proc.safe_pure (hstable _) ⟨hw, Or.inl hfailed⟩
  · dsimp only
    rw [if_pos hstageable]
    refine (safe_stage_accounts hlisting hmem (identity_toPayload now status category runId) hw).imp
      ?_
    rintro (error | stagingResult) w ⟨hw, h⟩
    · exact hw
    · exact ⟨hw, Or.inr (h stagingResult rfl)⟩

/-- What a task of a page ends with. -/
def SettledAccounts (pf : Platform Text) (listing : Listing) (candidate : ReplayCandidate)
    (v : Except JsError SettledCandidate) (w : World Text) : Prop :=
  Grounded pf listing w ∧ ∀ settled, v = .ok settled →
    settled.rawStatusIs .failed = true ∨ settled.stagingStatusIs .failed = true ∨
      Covered pf listing candidate w

/-- And a settled one's. -/
theorem SettledAccounts.keeps {v : Except JsError SettledCandidate}
    (h : SettledAccounts pf listing candidate v w) (hr : Upholds pf listing w w') :
    SettledAccounts pf listing candidate v w' :=
  ⟨hr.grounded h.1, fun settled hsettled =>
    (h.2 settled hsettled).imp_right fun h => h.imp_right fun h => h.mono hr.rows⟩

/-- **Store, then stage.** -/
theorem safe_processCandidate_accounts {input : IngestPageInput (Effect Text) Reply}
    (hstore : input.storeRawReplay = storeRawReplay pf bucket)
    (hstage : input.stageRawReplay = stageRawReplay pf) (hlisting : listing.Separated pf)
    (hserves : listing.Serves b pf sourceUrl) (hmem : listing.Lists candidate)
    (hw : Grounded pf listing w) :
    Proc.Safe b.Step (Upholds pf listing) (Upholds pf listing) (SettledAccounts pf listing candidate) w
      (processCandidate input candidate) := by
  have hrejected : ∀ error w, Grounded pf listing w →
      SettledAccounts pf listing candidate (.error error) w :=
    fun error w hw => ⟨hw, fun settled hsettled => by cases hsettled⟩
  unfold processCandidate
  rw [hstore, hstage]
  refine Async.safe_bind (fun result w => Grounded pf listing w ∧
      StoreAccounts pf listing bucket candidate result)
    ((safe_storeRawReplay_accounts hlisting hserves hmem hw).imp ?_) ?_
  · rintro (error | result) w ⟨hw, haccounts⟩
    · exact hrejected error w hw
    · exact ⟨hw, haccounts result rfl⟩
  · rintro result w ⟨hw, haccounts⟩
    refine Async.safe_bind (fun stagingResult w => Grounded pf listing w ∧
        CandidateAccounts pf listing candidate result.status stagingResult.status w)
      ((safe_stageRawReplay_accounts hlisting hmem haccounts hw).imp ?_) ?_
    · rintro (error | stagingResult) w h
      · exact hrejected error w h
      · exact h
    · rintro stagingResult w ⟨hw, h⟩
      refine Proc.safe_pure (fun _ _ h hr => h.keeps hr) ⟨hw, fun settled hsettled => ?_⟩
      obtain rfl := Except.ok.inj hsettled
      exact h.imp (fun h => decide_eq_true h) fun h => h.imp_left fun h => decide_eq_true h

end Candidate

/-! ## A page -/

section Page

variable {pf : Platform Text} {listing : Listing} {b : Backend Text} {sourceUrl : Url}
  {w : World Text} {bucket : String}

/-- **The fan-out of a listed page**, among any others: when it counts no failure, the page is
    covered.  What rests on rows alone is kept. -/
theorem safe_ingestPage_covered {input : IngestPageInput (Effect Text) Reply}
    (hstore : input.storeRawReplay = storeRawReplay pf bucket)
    (hstage : input.stageRawReplay = stageRawReplay pf)
    (hgate : input.existsBySourceIdentity = none) (hlisting : listing.Separated pf)
    (hserves : listing.Serves b pf sourceUrl) {page : ℕ}
    (hcandidates : input.candidates = listing.page page) {P : World Text → Prop}
    (hP : ∀ w w', P w → Upholds pf listing w w' → P w') (hw : Grounded pf listing w) (hPw : P w) :
    Proc.Safe b.Step (Upholds pf listing) (Upholds pf listing)
      (Async.Outcome (fun result w => Grounded pf listing w ∧ P w ∧
        (result.counts.failed = 0 → PageCovered pf listing page w)) fun _ => Grounded pf listing) w
      (ingestPage input) := by
  have hstable := Async.outcome_stable
    (fun (result : IngestPageResult) w w' (h : Grounded pf listing w ∧ P w ∧
      (result.counts.failed = 0 → PageCovered pf listing page w)) (hr : Upholds pf listing w w') =>
      (⟨hr.grounded h.1, hP _ _ h.2.1 hr,
        fun hfailed candidate hmem => (h.2.2 hfailed candidate hmem).mono hr.rows⟩ :
        Grounded pf listing w' ∧ P w' ∧ (result.counts.failed = 0 → PageCovered pf listing page w')))
    (fun (_ : JsError) w w' (h : Grounded pf listing w) (hr : Upholds pf listing w w') =>
      hr.grounded h)
  rw [ingestPage_eq]
  have htask : ∀ i, Proc.Safe b.Step (Upholds pf listing) (Upholds pf listing)
      (fun v w => SettledAccounts pf listing (input.candidates.get i) v w) w
      (ingestCandidate input (input.candidates.get i)) := by
    intro i
    have hmem : listing.Lists (input.candidates.get i) :=
      ⟨page, hcandidates ▸ List.get_mem input.candidates i⟩
    rw [ingestCandidate_ungated input hgate]
    exact safe_processCandidate_accounts hstore hstage hlisting hserves hmem hw
  refine Proc.safe_fan (fun w => Grounded pf listing w ∧ P w) ?_ ?_ ?_ Upholds.refl ?_ ?_ htask
    (fun settled w hw hsettled => ?_) ⟨hw, hPw⟩
  · exact fun _ _ _ _ _ h => h
  · exact fun _ _ _ h => h
  · exact fun _ _ _ h => h
  · exact fun _ _ h hr => ⟨hr.grounded h.1, hP _ _ h.2 hr⟩
  · exact fun _ _ _ h hr => ⟨hr.grounded h.1, hP _ _ h.2 hr⟩
  · refine Proc.safe_pure (hstable _) ?_
    cases houtcome : pageOutcome settled with
    | error error => exact hw.1
    | ok result =>
      obtain ⟨values, hvalues, rfl⟩ := pageOutcome_eq_ok.1 houtcome
      refine ⟨hw.1, hw.2, fun hfailed candidate hmem => ?_⟩
      -- no failure was counted, so no candidate failed
      rw [(tallyPage_spec (List.ofFn values)).failed, Nat.add_eq_zero_iff, List.countP_eq_zero,
        List.countP_eq_zero] at hfailed
      rw [← hcandidates] at hmem
      obtain ⟨i, rfl⟩ := List.get_of_mem hmem
      have hvalue : values i ∈ List.ofFn values := List.mem_ofFn.2 ⟨i, rfl⟩
      rcases (hsettled i).2 _ (hvalues i) with h | h | h
      · exact absurd h (hfailed.1 _ hvalue)
      · exact absurd h (hfailed.2 _ hvalue)
      · exact h

end Page

/-! ## A run among others -/

section Run

variable {pf : Platform Text} {listing : Listing} {b : Backend Text} {config : RunConfig}
  {w w' : World Text} {options : CheckpointStoreOptions} {slug : String}

/-- Grounded, and this checkpoint may be stored. -/
def MayStore (pf : Platform Text) (listing : Listing) (p : Progress) (c : Checkpoint)
    (w : World Text) : Prop :=
  c.Valid ∧ Accounted pf listing c.lastCompletedPage c.pages w ∧ Grounded pf listing w ∧
    Accounted pf listing p.lastCompletedPage p.pages w

/-- And what a checkpoint may say. -/
theorem MayStore.keeps {p : Progress} {c : Checkpoint} (h : MayStore pf listing p c w)
    (hr : Upholds pf listing w w') : MayStore pf listing p c w' :=
  ⟨h.1, h.2.1.mono hr.rows, hr.accounted h.2.2⟩

/-- A read sees a version that is right about the table, or nothing. -/
theorem Grounded.read (hw : Grounded pf listing w) {key : String}
    {r : Except JsError (GetObjectOutput Text)} (hr : b.StepGetCheckpoint w key r)
    {read : CheckpointReadResult} (hread : readReply pf r = .ok read) {c : Checkpoint}
    (hc : read.checkpoint = some c) :
    c.Valid ∧ Accounted pf listing c.lastCompletedPage c.pages w := by
  rcases hr with hget | ⟨_, error, hfound, rfl⟩
  · cases hcurrent : w.current key with
    | none =>
      rw [hcurrent] at hget
      obtain ⟨error, hfound, rfl⟩ := hget
      simp only [readReply, hfound, if_true] at hread
      cases hread
      cases hc
    | some version =>
      rw [hcurrent] at hget
      dsimp only at hget
      subst hget
      cases hparse : parseCheckpoint pf version.body with
      | none =>
        simp only [readReply, readOutput, hparse] at hread
        cases hread
        cases hc
      | some c' =>
        simp only [readReply, readOutput, hparse] at hread
        cases hread
        obtain rfl := Option.some.inj hc
        exact ⟨valid_of_parseCheckpoint hparse,
          hw.accounted key version (List.mem_of_mem_head? hcurrent) c' hparse⟩
  · simp only [readReply, hfound] at hread
    cases hread

/-- A write, blind or not, through all its rounds. -/
theorem safe_writeCheckpoint_grounded {p : Progress} {c : Checkpoint} (etag : Option String)
    (hw : MayStore pf listing p c w) :
    Proc.Safe b.Step (Upholds pf listing) (Upholds pf listing)
      (fun _ w => Grounded pf listing w ∧ Accounted pf listing p.lastCompletedPage p.pages w) w
      (writeCheckpoint pf options { checkpoint := c, etag, slug }) := by
  have hpost : ∀ (_ : Except JsError (Option String)) w w',
      Grounded pf listing w ∧ Accounted pf listing p.lastCompletedPage p.pages w →
      Upholds pf listing w w' →
      Grounded pf listing w' ∧ Accounted pf listing p.lastCompletedPage p.pages w' :=
    fun _ _ _ h hr => hr.accounted h
  unfold writeCheckpoint
  cases hkey : checkpointKey pf options slug with
  | error error =>
    -- without a key nothing is sent
    rw [show MAX_CAS_ROUNDS = 4 + 1 from rfl,
      casRounds_error hkey (isPreconditionFailed_of_key hkey)]
    exact Proc.safe_pure (hpost (.error error)) hw.2.2
  | ok key =>
    refine safe_casRounds hkey (fun _ c _ => MayStore pf listing p c)
      (fun _ c => MayStore pf listing p c) (fun _ _ _ _ _ h hr => h.keeps hr)
      (fun _ _ _ _ h hr => h.keeps hr) hpost ?_ ?_ ?_ ?_ ?_ MAX_CAS_ROUNDS c etag hw
    · exact fun w r w' hr => ⟨upholds_of_eq hr, upholds_of_eq hr⟩
    · exact fun ms w r w' hr => ⟨upholds_of_eq hr, upholds_of_eq hr⟩
    · intro _ c etag w h r w' hr
      have hkeeps : Upholds pf listing w w' := by
        rcases hr with ⟨_, tag, _, rfl, _⟩ | ⟨hsame, _⟩
        · exact upholds_pushVersion h.1 h.2.1
        · exact upholds_of_eq hsame
      have h' := h.keeps hkeeps
      refine ⟨hkeeps, fun _ _ => h'.2.2, fun error _ => ?_⟩
      split
      · exact h'
      · exact h'.2.2
    · rintro _ c w h r w' ⟨rfl, hreply⟩
      refine ⟨Upholds.refl _, fun fresh hfresh => ?_, fun _ _ => h.2.2⟩
      unfold mergeFresh
      cases hremote : fresh.checkpoint with
      | none => exact h
      | some remote =>
        obtain ⟨hvalid, haccounted⟩ := h.2.2.1.read hreply hfresh hremote
        exact ⟨h.1.merge hvalid, h.2.1.merge haccounted, h.2.2⟩
    · exact fun _ _ _ h => h.2.2

/-- What a run means to store after a page is valid. -/
theorem valid_pageCheckpoint {q : Progress}
    (hpages : ∀ key entry, q.pages.lookup key = some entry → key ≠ PROTO_KEY ∧ entry.status ≠ "")
    (startedAt now : Date) : (q.pageCheckpoint config.runId
      { slug := pf.withoutUserinfo config.sourceUrl, startedAt := toISOString startedAt }
      now).Valid := by
  unfold Progress.pageCheckpoint
  refine RunConfig.valid_checkpointAt pf config startedAt ?_ ?_ hpages now
  · rfl
  · rfl

/-- So is what it means to store at the end. -/
theorem valid_finalCheckpoint {q : Progress}
    (hpages : ∀ key entry, q.pages.lookup key = some entry → key ≠ PROTO_KEY ∧ entry.status ≠ "")
    (startedAt now : Date) : (q.finalCheckpoint config.runId
      { slug := pf.withoutUserinfo config.sourceUrl, startedAt := toISOString startedAt }
      now).Valid := by
  unfold Progress.finalCheckpoint
  refine RunConfig.valid_checkpointAt pf config startedAt ?_ ?_ hpages now
  · rfl
  · rfl

/-- The assertions of a run. -/
def coverageSpec (pf : Platform Text) (listing : Listing) : RunSpec (World Text) where
  head p w := Grounded pf listing w ∧ Accounted pf listing p.lastCompletedPage p.pages w
  found p candidates w := (Grounded pf listing w ∧
    Accounted pf listing p.lastCompletedPage p.pages w) ∧ candidates = listing.page p.nextPage
  done p counts w := Grounded pf listing w ∧
    Accounted pf listing (p.advance counts).lastCompletedPage (p.advance counts).pages w
  left p _ w := Grounded pf listing w ∧ Accounted pf listing p.lastCompletedPage p.pages w
  last _ := Grounded pf listing

/-- The specification of a run survives what others do. -/
theorem stable_coverageSpec : RunSpec.Stable (Upholds pf listing)
    (fun (_ : Except JsError RunOnceResult) => Grounded pf listing) (coverageSpec pf listing) where
  head _ _ _ h hr := hr.accounted h
  found _ _ _ _ h hr := ⟨hr.accounted h.1, h.2⟩
  done _ _ _ _ h hr := hr.accounted h
  left _ _ _ _ h hr := hr.accounted h
  last _ _ _ h hr := hr.grounded h
  post _ _ _ h hr := hr.grounded h

/-- **The obligations of a run.** -/
theorem holds_coverageSpec (hlisting : listing.Separated pf)
    (hserves : listing.Serves b pf config.sourceUrl) (startedAt : Date) :
    RunSpec.Holds b.Step (Upholds pf listing) (Upholds pf listing) pf
      (config.toInput pf (config.store pf)) (fun _ => Grounded pf listing)
      { slug := pf.withoutUserinfo config.sourceUrl, startedAt := toISOString startedAt }
      (coverageSpec pf listing) where
  refl := Upholds.refl
  quiet := config.quiet pf _ fun e he w r w' hr => by
    have hsame : w' = w := by cases e <;> first | exact he.elim | exact hr
    exact ⟨upholds_of_eq hsame, upholds_of_eq hsame⟩
  stable := stable_coverageSpec
  cap _ _ _ h := h
  discover p w h := by
    refine Proc.safe_call _ (stable_coverageSpec.head p) ?_ h
    rintro w h r w' ⟨rfl, hreports⟩
    refine ⟨Upholds.refl _, Proc.safe_pure (fun _ _ => Async.outcome_stable
      (stable_coverageSpec.discovered p) (fun _ _ _ h hr => hr.grounded h) r _ _) ?_⟩
    cases r with
    | error error => exact h.1
    | ok report =>
      show RunSpec.discovered _ _ _ _
      unfold RunSpec.discovered
      split
      · exact h
      · rename_i hok
        split
        · exact h
        · exact ⟨h, hserves.listed _ p.nextPage report rfl hreports (eq_true_of_ne_false hok)⟩
  ingest p candidates state w h := by
    obtain ⟨⟨hw, haccounted⟩, hcandidates⟩ := h
    have hstore : ((config.toInput pf (config.store pf)).storeRawReplay) =
      storeRawReplay pf config.bucket := rfl
    refine (safe_ingestPage_covered hstore rfl rfl hlisting hserves
      hcandidates (fun _ _ h hr => Accounted.mono h hr.rows) hw haccounted).imp ?_
    rintro (error | result) w h
    · exact h
    · exact ⟨h.1, h.2.1.advance h.2.2⟩
  writePage p counts now w h := by
    refine (safe_writeCheckpoint_grounded p.etag
      ⟨valid_pageCheckpoint h.2.valid startedAt now, h.2, h⟩).imp ?_
    rintro (error | etag) w hw <;> show RunSpec.written _ _ _ _ <;> unfold RunSpec.written <;>
      split <;> exact hw
  skipFinal _ _ h := h.1
  writeFinal p now w h := by
    refine (safe_writeCheckpoint_grounded p.etag
      ⟨valid_finalCheckpoint h.2.valid startedAt now, h.2, h⟩).imp ?_
    rintro (error | etag) w hw <;> exact hw.1
  result _ _ h _ _ := h

/-- A run keeps what the others may rely on. -/
theorem safe_run_grounded (hlisting : listing.Separated pf)
    (hserves : listing.Serves b pf config.sourceUrl) (hw : Grounded pf listing w) :
    Proc.Safe b.Step (Upholds pf listing) (Upholds pf listing) (fun _ => Grounded pf listing) w
      (config.run pf) := by
  refine safe_runOnce (Grounded pf listing) (fun _ _ h hr => hr.grounded h)
    (holds_coverageSpec hlisting hserves) (fun w hw => ?_) hw
  have hfresh : ∀ (etag : Option String) w, Grounded pf listing w →
      (coverageSpec pf listing).head (startFresh etag).progress w :=
    fun etag w hw => ⟨hw, Accounted.empty⟩
  have hpost := Async.outcome_stable
    (fun (read : CheckpointReadResult) => stable_coverageSpec.head (resumeStateOf read).progress)
    (fun (_ : JsError) w w' (h : Grounded pf listing w) (hr : Upholds pf listing w w') =>
      hr.grounded h)
  show Proc.Safe _ _ _ _ _ (readCheckpoint pf config.checkpointOptions _)
  cases hkey : checkpointKey pf config.checkpointOptions (pf.withoutUserinfo config.sourceUrl) with
  | error error =>
    have hread : readCheckpoint pf config.checkpointOptions (pf.withoutUserinfo config.sourceUrl) =
        Proc.pure (.error error) := by
      unfold readCheckpoint
      rw [Async.bind_eq, hkey]
      rfl
    rw [show (config.toInput pf (config.store pf)).sourceUrl = config.sourceUrl from rfl, hread]
    exact Proc.safe_pure (hpost _) hw
  | ok key =>
    refine safe_readCheckpoint hkey (Grounded pf listing) (fun _ _ h hr => hr.grounded h) hpost ?_ hw
    rintro w hw r w' ⟨rfl, hreply⟩
    refine ⟨Upholds.refl _, ?_⟩
    cases hread : readReply pf r with
    | error error => exact hw
    | ok read =>
      show (coverageSpec pf listing).head (resumeStateOf read).progress w'
      unfold resumeStateOf
      cases hcheckpoint : read.checkpoint with
      | none => exact hfresh none w' hw
      | some checkpoint =>
        dsimp only
        split
        · exact hfresh read.etag w' hw
        · exact ⟨hw, (hw.read hreply hread hcheckpoint).2⟩

/-- **The checkpoint never runs ahead of the table.** However many runs of one source are at work
    and wherever each of them is stopped, every stored checkpoint has an entry for every page it
    counts as completed, and a page whose entry admits no failure has all its rows. -/
theorem checkpoint_never_ahead_of_table {ι : Type} [DecidableEq ι] {sourceUrl : Url}
    (hlisting : listing.Separated pf) (hserves : listing.Serves b pf sourceUrl)
    {configs : ι → RunConfig} (hsource : ∀ i, (configs i).sourceUrl = sourceUrl)
    (hw : Grounded pf listing w) {programs : ι → Task Text RunOnceResult}
    (hruns : Lts.PoolRuns (fun _ => Proc.lts b.Step _) w (fun i => (configs i).run pf) w' programs)
    {key : String} {version : Version Text} (hversion : version ∈ w'.checkpoints key)
    {c : Checkpoint} (hparse : parseCheckpoint pf version.body = some c) {page : ℕ}
    (hpos : 1 ≤ page) (hle : page ≤ c.lastCompletedPage) :
    ∃ entry, c.pages.lookup (toString page) = some entry ∧
      (entry.counts.failed = 0 → ∀ candidate ∈ listing.page page, ∃ row ∈ w'.staging,
        row.identity = rowIdentity pf candidate (listing.content candidate)) := by
  have hsafe : ∀ i, Proc.Safe b.Step (Upholds pf listing) (Upholds pf listing)
      (fun _ => Grounded pf listing) w ((configs i).run pf) :=
    fun i => safe_run_grounded hlisting (hsource i ▸ hserves) hw
  have hgrounded : Grounded pf listing w' := by
    refine Lts.PoolRuns.invariant ?_ hsafe ?_ hw hruns
    · exact fun _ _ _ _ _ h => h
    · exact fun _ _ _ h hw => h.grounded hw
  have haccounted := hgrounded.accounted key version hversion c hparse
  obtain ⟨entry, hentry⟩ := Finmap.mem_iff.1 (haccounted.entries page hpos hle)
  exact ⟨entry, hentry, haccounted.covered page entry hentry⟩

end Run

/-! ## A run killed between the INSERT and the checkpoint, and another one -/

/-- One replay on page 1. -/
def oneReplay : Listing where
  page page := if page = 1 then [toyCandidate] else []
  content _ := [7]

/-- The source lists one candidate. -/
theorem lists_oneReplay {candidate : ReplayCandidate} (h : oneReplay.Lists candidate) :
    candidate = toyCandidate := by
  obtain ⟨page, hmem⟩ := h
  unfold oneReplay at hmem
  dsimp only at hmem
  split at hmem
  · exact List.mem_singleton.1 hmem
  · cases hmem

/-- It is separated. -/
theorem separated_oneReplay : oneReplay.Separated toyPlatform where
  digest := by
    rintro _ ⟨_, _, rfl⟩ _ ⟨_, _, rfl⟩ _
    rfl
  identity candidate other hcandidate hother := by
    rw [lists_oneReplay hcandidate, lists_oneReplay hother]
    exact ⟨fun _ => rfl, fun _ => rfl⟩

/-- And served as it is listed. -/
theorem serves_oneReplay :
    oneReplay.Serves (toyListing.services : Backend (Option Json)) toyPlatform toyConfig.sourceUrl
    where
  listed := by
    rintro input page report hurl hreport _
    obtain rfl : report = okReport _ := Except.ok.inj hreport
    show (if input.sourceUrl.search = "" then _ else _) = if page = 1 then _ else _
    rw [hurl]
    unfold Platform.toPageUrl
    by_cases hpage : page = 1
    · rw [if_pos hpage, if_pos hpage]
      rfl
    · rw [if_neg hpage, if_neg hpage, if_neg]
      simp [toyPlatform]
  served := by
    rintro _ _ _ _ _ hserved
    exact (Except.ok.inj hserved).symm

/-- With nothing stored, everything stored is grounded. -/
theorem grounded_emptyWorld : Grounded toyPlatform oneReplay emptyWorld where
  stocked :=
    { addressed := fun _ _ h => by cases h
      rows := fun _ h => by cases h }
  accounted _ _ h := by cases h

/-- `n` steps of a run from `w`. -/
def toyRunFrom (n : ℕ) (w : World (Option Json)) :
    World (Option Json) × Task (Option Json) RunOnceResult :=
  Proc.exec toyListing.serve n (w, toyConfig.run toyPlatform)

/-- Left alone, a run gets that far. -/
theorem runs_toyRunFrom (n : ℕ) (w : World (Option Json)) :
    (Proc.lts (toyListing.services : Backend (Option Json)).Step _).Runs Lts.Alone w
      (toyConfig.run toyPlatform) (toyRunFrom n w).1 (toyRunFrom n w).2 :=
  Proc.runs_exec (toyListing.step_services fun _ => ⟨[7], rfl⟩) n (w, toyConfig.run toyPlatform)

theorem checkpoint_never_ahead_of_table_two :
    ∃ version c, version ∈ (toyRunFrom 60 (toyRunFrom 14 emptyWorld).1).1.checkpoints toyKey ∧
      parseCheckpoint toyPlatform version.body = some c ∧ 1 ≤ c.lastCompletedPage ∧
      ∃ entry, c.pages.lookup (toString 1) = some entry ∧ (entry.counts.failed = 0 →
        ∀ candidate ∈ oneReplay.page 1,
          ∃ row ∈ (toyRunFrom 60 (toyRunFrom 14 emptyWorld).1).1.staging,
            row.identity = rowIdentity toyPlatform candidate (oneReplay.content candidate)) := by
  -- run `true` is killed, run `false` starts over
  have hfirst : Lts.PoolRuns (fun _ : Bool => Proc.lts (toyListing.services :
      Backend (Option Json)).Step _) emptyWorld (fun _ => toyConfig.run toyPlatform) _ _ :=
    Lts.PoolRuns.of_runs true (runs_toyRunFrom 14 emptyWorld)
  have hsecond : Lts.PoolRuns (fun _ : Bool => Proc.lts (toyListing.services :
      Backend (Option Json)).Step _) (toyRunFrom 14 emptyWorld).1
      (Function.update (fun _ => toyConfig.run toyPlatform) true (toyRunFrom 14 emptyWorld).2) _ _ :=
    Lts.PoolRuns.of_runs false (runs_toyRunFrom 60 (toyRunFrom 14 emptyWorld).1)
  obtain ⟨version, hversion, c, hparse, hlast⟩ :
      ∃ version, version ∈ (toyRunFrom 60 (toyRunFrom 14 emptyWorld).1).1.checkpoints toyKey ∧
        ∃ c, parseCheckpoint toyPlatform version.body = some c ∧ 1 ≤ c.lastCompletedPage :=
    ⟨_, List.mem_cons_self, _, rfl, le_refl _⟩
  have hconfigs : ∀ _ : Bool, toyConfig.sourceUrl = toyConfig.sourceUrl := fun _ => rfl
  exact ⟨version, c, hversion, hparse, hlast,
    checkpoint_never_ahead_of_table separated_oneReplay serves_oneReplay hconfigs grounded_emptyWorld
      (hfirst.trans hsecond) hversion hparse (le_refl 1) hlast⟩

end ReplaysFetcher
