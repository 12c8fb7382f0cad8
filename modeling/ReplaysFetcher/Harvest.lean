/-
  What a healthy run brings home.

  A run on its own, over a source that answers and services that work: the page loop has no bound,
  so does it end, and what is in the table then?  It does, if some page has nothing new, and then
  the table has the rows it had and the rows of every page before the first such page.

  1. `Orderly`: raw objects and rows are those of the listing, and every row has its object.  A
     candidate whose row is there is then skipped and `already_staged`, and any other gets its row.
  2. A page changes nothing exactly when all its rows are there before: the other direction needs
     the counts, `staged` is the number of rows the page adds.
  3. `Harvested` says which rows are there at the head of the loop.  It bounds the page by the first
     page with nothing new, so the run ends, and there it says what was brought home.
-/
import ReplaysFetcher.RowIntegrity
import ReplaysFetcher.RunEnds
import ReplaysFetcher.TableCoverage
import ReplaysFetcher.Resume
import ReplaysFetcher.Effectful.Replies

namespace ReplaysFetcher

open Effectful

variable {Text : Type}

/-! ## Services that work -/

/-- The services of a source that answers, while storage works.  Checkpoint writes may still fail. -/
structure Working (b : Backend Text) (pf : Platform Text) (listing : Listing) (sourceUrl : Url) :
    Prop where
  bytes : b.faults.bytes = false
  raw : b.faults.raw = false
  staging : b.faults.staging = false
  checkpointGet : b.faults.checkpointGet = false
  answers : ∀ w e, ∃ r w', b.Step w e r w'
  listed : ∀ input page r, input.sourceUrl = pf.toPageUrl sourceUrl page → b.reports input r →
    ∃ report, r = .ok report ∧ report.ok = true ∧ report.candidates = listing.page page
  served : ∀ candidate, listing.Lists candidate → ∃ url, bytesUrl pf candidate = .ok url ∧
    ∀ bytes, b.served url bytes → bytes = listing.content candidate

section Orderly

variable (pf : Platform Text) (listing : Listing)

/-- Raw objects and rows are those of the listing, and every row has its object. -/
structure Orderly (w : World Text) : Prop where
  stocked : Stocked pf listing w
  backed : ∀ row ∈ w.staging, (w.raw row.objectKey).isSome = true

/-- What the tasks of a page may rely on, and have to keep: the only new rows are those of `crop`. -/
structure Reaps (crop : Set RowIdentity) (w w' : World Text) : Prop where
  rows : w.staging <+: w'.staging
  objects : ∀ key, (w.raw key).isSome = true → (w'.raw key).isSome = true
  orderly : Orderly pf listing w → Orderly pf listing w'
  reaped : ∀ row ∈ w'.staging, row ∈ w.staging ∨ row.identity ∈ crop

end Orderly

section Steps

variable {pf : Platform Text} {listing : Listing} {crop : Set RowIdentity} {b : Backend Text}
  {w w' w'' : World Text} {candidate : ReplayCandidate}

theorem Reaps.refl (w : World Text) : Reaps pf listing crop w w :=
  ⟨List.prefix_refl _, fun _ h => h, id, fun _ h => Or.inl h⟩

theorem Reaps.trans (h : Reaps pf listing crop w w') (h' : Reaps pf listing crop w' w'') :
    Reaps pf listing crop w w'' where
  rows := h.rows.trans h'.rows
  objects key hsome := h'.objects key (h.objects key hsome)
  orderly hw := h'.orderly (h.orderly hw)
  reaped row hrow := (h'.reaped row hrow).elim (h.reaped row) Or.inr

theorem Reaps.mono {crop' : Set RowIdentity} (h : Reaps pf listing crop w w') (hsub : crop ⊆ crop') :
    Reaps pf listing crop' w w' :=
  ⟨h.rows, h.objects, h.orderly, fun row hrow => (h.reaped row hrow).imp_right fun hmem => hsub hmem⟩

/-- Objects and rows are all that counts. -/
theorem reaps_of_eq (hraw : w'.raw = w.raw) (hstaging : w'.staging = w.staging) :
    Reaps pf listing crop w w' := by
  refine ⟨by rw [hstaging], fun _ h => by rwa [hraw], fun h => ⟨⟨?_, ?_⟩, ?_⟩, ?_⟩
  · intro sha256 object hobject
    rw [hraw] at hobject
    exact h.stocked.addressed sha256 object hobject
  · rw [hstaging]
    exact h.stocked.rows
  · rw [hstaging, hraw]
    exact h.backed
  · rw [hstaging]
    exact fun row hrow => Or.inl hrow

theorem reaps_of_step {e : Effect Text} (he : OffStorage e) {r : Reply e} (h : b.Step w e r w') :
    Reaps pf listing crop w w' := by
  obtain ⟨hraw, hstaging⟩ := raw_staging_of_step h
    (fun key bytes sha256 heq => by subst heq; exact he) (fun payload heq => by subst heq; exact he)
  exact reaps_of_eq hraw hstaging

theorem quiet_of_offStorage_reaps {α : Type} {p : Program Text α} (h : Proc.Asks OffStorage p) :
    Proc.Quiet b.Step (Reaps pf listing crop) (Reaps pf listing crop) p :=
  h.quiet Reaps.refl fun _ he _ _ _ hr => ⟨reaps_of_step he hr, reaps_of_step he hr⟩

/-- Contents of the listing, put under their digest. -/
theorem reaps_putRaw (hlisting : listing.Separated pf) (hmem : listing.Lists candidate) :
    Reaps pf listing crop w (w.putRaw (rawKey (pf.sha256Hex (listing.content candidate)))
      { bytes := listing.content candidate
        sha256 := some (pf.sha256Hex (listing.content candidate)) }) := by
  have hbytes : listing.content candidate ∈ listing.corpus := ⟨candidate, hmem, rfl⟩
  have hretains : Retains pf w (w.putRaw (rawKey (pf.sha256Hex (listing.content candidate)))
      { bytes := listing.content candidate
        sha256 := some (pf.sha256Hex (listing.content candidate)) }) := retains_putRaw _
  have hobjects := hretains.objects
  refine ⟨List.prefix_refl _, hobjects, fun h => ⟨⟨?_, h.stocked.rows⟩, ?_⟩, fun _ h => Or.inl h⟩
  · exact (h.stocked.addressed.putRaw hlisting.digest hbytes).1
  · exact fun row hrow => hobjects _ (h.backed row hrow)

/-- The row of a listed candidate, behind its object. -/
theorem reaps_addRow {row : StagingRow} (hmem : listing.Lists candidate)
    (hrow : row.identity = listing.row pf candidate) (hcrop : listing.row pf candidate ∈ crop)
    (hobject : (w.raw row.objectKey).isSome = true) : Reaps pf listing crop w (w.addRow row) := by
  have hcases : ∀ other ∈ (w.addRow row).staging, other ∈ w.staging ∨ other = row := by
    intro other hother
    exact (List.mem_append.1 hother).imp_right List.mem_singleton.1
  refine ⟨List.prefix_append _ _, fun _ h => h, fun h => ⟨⟨h.stocked.addressed, ?_⟩, ?_⟩, ?_⟩
  · intro other hother
    rcases hcases other hother with hother | rfl
    · exact h.stocked.rows other hother
    · exact ⟨candidate, hmem, hrow⟩
  · intro other hother
    rcases hcases other hother with hother | rfl
    · exact h.backed other hother
    · exact hobject
  · intro other hother
    rcases hcases other hother with hother | rfl
    · exact Or.inl hother
    · exact Or.inr (hrow ▸ hcrop)

/-- A covered candidate is found under its object identity, and its object is there. -/
theorem Covered.found (h : Covered pf listing candidate w) {payload : IngestStagingPayload}
    (hpayload : payload.identity = listing.row pf candidate) :
    (w.rowByObject? payload.checksum payload.objectKey).isSome = true := by
  obtain ⟨row, hrow, hidentity⟩ := h
  have hsame : row.identity = payload.identity := hidentity.trans hpayload.symm
  refine List.find?_isSome.2 ⟨row, hrow, ?_⟩
  rw [Bool.and_eq_true, decide_eq_true_eq, decide_eq_true_eq]
  exact ⟨congrArg RowIdentity.checksum hsame, congrArg RowIdentity.objectKey hsame⟩

theorem Covered.object (h : Covered pf listing candidate w) (hw : Orderly pf listing w) :
    (w.raw (rawKey (pf.sha256Hex (listing.content candidate)))).isSome = true := by
  obtain ⟨row, hrow, hidentity⟩ := h
  have hkey : row.objectKey = rawKey (pf.sha256Hex (listing.content candidate)) :=
    congrArg RowIdentity.objectKey hidentity
  exact hkey ▸ hw.backed row hrow

end Steps

/-! ## One candidate -/

section Candidate

variable {pf : Platform Text} {listing : Listing} {crop : Set RowIdentity} {b : Backend Text}
  {sourceUrl : Url} {w w' : World Text} {candidate : ReplayCandidate} {bucket : String}
  {known : Prop}

/-- `known` candidates have their row. -/
structure Knows (pf : Platform Text) (listing : Listing) (candidate : ReplayCandidate)
    (known : Prop) (w : World Text) : Prop where
  orderly : Orderly pf listing w
  known : known → Covered pf listing candidate w

theorem Knows.kept (h : Knows pf listing candidate known w) (hr : Reaps pf listing crop w w') :
    Knows pf listing candidate known w' :=
  ⟨hr.orderly h.orderly, fun hknown => (h.known hknown).mono hr.rows⟩

/-- The candidate's object is there. -/
def HasObject (pf : Platform Text) (listing : Listing) (candidate : ReplayCandidate)
    (w : World Text) : Prop :=
  (w.raw (rawKey (pf.sha256Hex (listing.content candidate)))).isSome = true

/-- What a store leaves: the object, and evidence that says whether it was there. -/
structure BroughtIn (pf : Platform Text) (listing : Listing) (bucket : String)
    (candidate : ReplayCandidate) (known : Prop) (evidence : RawReplayStorageEvidence)
    (w : World Text) : Prop where
  knows : Knows pf listing candidate known w
  object : HasObject pf listing candidate w
  shape : ∃ now status, evidence =
      toEvidence bucket (storageInput pf candidate now (listing.content candidate)) status ∧
    (status = .stored ∧ ¬ known ∨ status = .skipped)

theorem BroughtIn.kept {evidence : RawReplayStorageEvidence}
    (h : BroughtIn pf listing bucket candidate known evidence w)
    (hr : Reaps pf listing crop w w') :
    BroughtIn pf listing bucket candidate known evidence w' :=
  ⟨h.knows.kept hr, hr.objects _ h.object, h.shape⟩

/-- The S3 adapter: an object that is there is the candidate's own, and skipped. -/
theorem safe_s3StoreRawReplay_broughtIn (hlisting : listing.Separated pf)
    (hb : Working b pf listing sourceUrl) (hmem : listing.Lists candidate) (now : Date)
    (hw : Knows pf listing candidate known w) :
    Proc.Safe b.Step (Reaps pf listing crop) (Reaps pf listing crop)
      (BroughtIn pf listing bucket candidate known) w
      (s3StoreRawReplay bucket (storageInput pf candidate now (listing.content candidate))) := by
  have hbytes : listing.content candidate ∈ listing.corpus := ⟨candidate, hmem, rfl⟩
  refine safe_s3StoreRawReplay (Knows pf listing candidate known)
    (fun w => Knows pf listing candidate known w ∧ ¬ known) (fun _ _ h hr => h.kept hr)
    (fun _ _ h hr => ⟨h.1.kept hr, h.2⟩) (fun _ _ _ h hr => h.kept hr) ?_ ?_ hw
  · rintro w hw r w' ⟨rfl, hreply⟩
    rcases hreply with hreply | ⟨hfault, _⟩
    · rw [show (storageInput pf candidate now (listing.content candidate)).objectKey =
        rawKey (pf.sha256Hex (listing.content candidate)) from rfl] at hreply
      cases hobject : w'.raw (rawKey (pf.sha256Hex (listing.content candidate))) with
      | some object =>
        rw [hobject] at hreply
        dsimp only at hreply
        subst hreply
        refine ⟨Reaps.refl _, fun output hok => ?_, fun error herror => by cases herror⟩
        obtain rfl := Except.ok.inj hok
        have hsame := hw.orderly.stocked.addressed.bytes_eq hlisting.digest hbytes hobject
        obtain ⟨_, _, hmetadata⟩ := hw.orderly.stocked.addressed _ _ hobject
        refine ⟨hw, ?_, now, .skipped, ?_, Or.inr rfl⟩
        · unfold HasObject
          rw [hobject]
          rfl
        · unfold headEvidence
          rw [if_pos ⟨by rw [hsame]; rfl, hmetadata⟩]
      | none =>
        rw [hobject] at hreply
        obtain ⟨error, hfound, rfl⟩ := hreply
        refine ⟨Reaps.refl _, (fun output hok => by cases hok), fun error' herror => ?_⟩
        obtain rfl := Except.error.inj herror
        rw [if_pos hfound]
        -- a known candidate has its object
        refine ⟨hw, fun hknown => ?_⟩
        have hsome := (hw.known hknown).object hw.orderly
        rw [hobject] at hsome
        cases hsome
    · rw [hb.raw] at hfault
      cases hfault
  · rintro w ⟨hw, hknown⟩ r w' hr
    rcases hr with ⟨rfl, hreply⟩ | ⟨hfault, _⟩
    · have hreaps : Reaps pf listing crop w
          (w.putRaw (rawKey (pf.sha256Hex (listing.content candidate)))
            { bytes := listing.content candidate
              sha256 := some (pf.sha256Hex (listing.content candidate)) }) :=
        reaps_putRaw hlisting hmem
      refine ⟨hreaps, ?_⟩
      rcases hreply with rfl | ⟨hfault, _⟩
      · refine ⟨hw.kept hreaps, ?_, now, .stored, rfl, Or.inl ⟨rfl, hknown⟩⟩
        show ((w.putRaw (rawKey (pf.sha256Hex (listing.content candidate))) _).raw
          (rawKey (pf.sha256Hex (listing.content candidate)))).isSome = true
        rw [putRaw_rawKey, if_pos rfl]
        rfl
      · rw [hb.raw] at hfault
        cases hfault
    · rw [hb.raw] at hfault
      cases hfault

/-- The store of one candidate resolves. -/
theorem safe_storeRawReplay_broughtIn (hlisting : listing.Separated pf)
    (hb : Working b pf listing sourceUrl) (hmem : listing.Lists candidate)
    (hw : Knows pf listing candidate known w) :
    Proc.Safe b.Step (Reaps pf listing crop) (Reaps pf listing crop)
      (fun r w => ∃ evidence, r = .ok (.stored evidence) ∧
        BroughtIn pf listing bucket candidate known evidence w) w
      (storeRawReplay pf bucket candidate) := by
  obtain ⟨url, hurl, hserved⟩ := hb.served candidate hmem
  refine safe_storeRawReplay (Knows pf listing candidate known) (Knows pf listing candidate known)
    (fun bytes w => Knows pf listing candidate known w ∧ bytes = listing.content candidate)
    (fun _ _ h hr => h.kept hr) (fun _ _ h hr => h.kept hr) ?_ ?_ ?_ ?_ ?_ hw
  · rintro r w w' ⟨evidence, rfl, h⟩ hr
    exact ⟨evidence, rfl, h.kept hr⟩
  · rintro w hw now w' rfl
    exact ⟨Reaps.refl _, hw⟩
  · intro error herror
    rw [hurl] at herror
    cases herror
  · rintro url' hurl' w hw r w' ⟨rfl, hreply⟩
    obtain rfl := Except.ok.inj (hurl.symm.trans hurl')
    rcases hreply with ⟨bytes, hbytes, rfl⟩ | ⟨hfault, _⟩
    · refine ⟨Reaps.refl _, fun bytes' hok => ?_, fun error herror => by cases herror⟩
      obtain rfl := Except.ok.inj hok
      exact ⟨hw, hserved _ hbytes⟩
    · rw [hb.bytes] at hfault
      cases hfault
  · rintro now bytes w ⟨hw, rfl⟩
    refine (safe_s3StoreRawReplay_broughtIn hlisting hb hmem now hw).imp ?_
    exact fun evidence w h => ⟨evidence, rfl, h⟩

/-- What a staging leaves: the row, and a result that says whether it was there. -/
structure EnteredRow (pf : Platform Text) (listing : Listing) (candidate : ReplayCandidate)
    (known : Prop) (r : Except JsError IngestStagingResult) (w : World Text) : Prop where
  orderly : Orderly pf listing w
  covered : Covered pf listing candidate w
  result : ∃ result, r = .ok result ∧
    (result.status = .staged ∧ ¬ known ∨ result.status = .alreadyStaged)

theorem EnteredRow.kept {r : Except JsError IngestStagingResult}
    (h : EnteredRow pf listing candidate known r w) (hr : Reaps pf listing crop w w') :
    EnteredRow pf listing candidate known r w' :=
  ⟨hr.orderly h.orderly, h.covered.mono hr.rows, h.result⟩

/-- **Staging one candidate**: its row is there, or gets there.  Another row is never in the way. -/
theorem safe_stage_entered (hlisting : listing.Separated pf) (hb : Working b pf listing sourceUrl)
    (hmem : listing.Lists candidate) (hcrop : listing.row pf candidate ∈ crop)
    {payload : IngestStagingPayload} (hpayload : payload.identity = listing.row pf candidate)
    (hw : Knows pf listing candidate known w) (hobject : HasObject pf listing candidate w) :
    Proc.Safe b.Step (Reaps pf listing crop) (Reaps pf listing crop)
      (EnteredRow pf listing candidate known) w (stage payload) := by
  have hno : ∀ {w}, ¬ (w.rowByObject? payload.checksum payload.objectKey).isSome = true →
      ¬ Covered pf listing candidate w := fun hnone h => hnone (h.found hpayload)
  refine safe_stage
    (fun w => Knows pf listing candidate known w ∧ HasObject pf listing candidate w)
    (fun w => Orderly pf listing w ∧ Covered pf listing candidate w) (fun _ => False)
    (fun _ _ h hr => ⟨h.1.kept hr, hr.objects _ h.2⟩)
    (fun _ _ h hr => ⟨hr.orderly h.1, h.2.mono hr.rows⟩) (fun _ _ _ h hr => h.kept hr) ?_ ?_
    (fun _ h => h.elim) ⟨hw, hobject⟩
  · rintro w ⟨hw, hobject⟩ r w' (hinsert | ⟨hfault, _⟩)
    · split at hinsert
      · rename_i hfound
        obtain ⟨rfl, rfl⟩ := hinsert
        obtain ⟨row, hrow⟩ := Option.isSome_iff_exists.1 hfound
        have hcond := List.find?_some hrow
        simp only [Bool.and_eq_true, decide_eq_true_eq] at hcond
        exact ⟨Reaps.refl _, hw.orderly, hw.orderly.stocked.covered_of_object hlisting hmem
          (List.mem_of_find?_eq_some hrow)
          (hcond.1.trans (congrArg RowIdentity.checksum hpayload))⟩
      · rename_i hfree
        split at hinsert
        · -- a row with this source id is the candidate's row, and would have been found
          rename_i hsource
          obtain ⟨row, hrow⟩ := Option.isSome_iff_exists.1 hsource
          have hcond := List.find?_some hrow
          simp only [Bool.and_eq_true, decide_eq_true_eq] at hcond
          exact (hno hfree (hw.orderly.stocked.covered_of_source hlisting hmem
            (List.mem_of_find?_eq_some hrow)
            (hcond.2.trans (congrArg RowIdentity.sourceReplayId hpayload)))).elim
        · obtain ⟨id, rfl, hreply⟩ := hinsert
          have hrow : (payload.toRow id).identity = listing.row pf candidate := hpayload
          have hkey : payload.objectKey = rawKey (pf.sha256Hex (listing.content candidate)) :=
            congrArg RowIdentity.objectKey hpayload
          have hreaps : Reaps pf listing crop w (w.addRow (payload.toRow id)) :=
            reaps_addRow hmem hrow hcrop (by
              rw [show (payload.toRow id).objectKey = _ from hkey]
              exact hobject)
          rcases hreply with rfl | ⟨hfault, _⟩
          · refine ⟨hreaps, hreaps.orderly hw.orderly,
              ⟨_, List.mem_append_right _ (List.mem_singleton.2 rfl), hrow⟩, _, rfl, Or.inl ⟨rfl, ?_⟩⟩
            exact fun hknown => hno hfree (hw.known hknown)
          · rw [hb.staging] at hfault
            cases hfault
    · rw [hb.staging] at hfault
      cases hfault
  · rintro w ⟨hw, hcovered⟩ r w' ⟨rfl, hreply⟩
    rcases hreply with rfl | ⟨hfault, _⟩
    · refine ⟨Reaps.refl _, ?_⟩
      obtain ⟨row, hrow⟩ := Option.isSome_iff_exists.1 (hcovered.found hpayload)
      rw [hrow]
      exact ⟨hw, hcovered, _, rfl, Or.inr rfl⟩
    · rw [hb.staging] at hfault
      cases hfault

/-- What a task of a page ends with. -/
structure Reaped (pf : Platform Text) (listing : Listing) (candidate : ReplayCandidate)
    (known : Prop) (v : Except JsError SettledCandidate) (w : World Text) : Prop where
  orderly : Orderly pf listing w
  covered : Covered pf listing candidate w
  settled : ∃ rawResult stagingResult, v = .ok (.processed rawResult stagingResult) ∧
    (rawResult.status = .stored ∧ ¬ known ∨ rawResult.status = .skipped) ∧
    (stagingResult.status = .staged ∧ ¬ known ∨ stagingResult.status = .alreadyStaged)

theorem Reaped.kept {v : Except JsError SettledCandidate}
    (h : Reaped pf listing candidate known v w) (hr : Reaps pf listing crop w w') :
    Reaped pf listing candidate known v w' :=
  ⟨hr.orderly h.orderly, h.covered.mono hr.rows, h.settled⟩

/-- **Store, then stage.** -/
theorem safe_processCandidate_reaped {input : IngestPageInput (Effect Text) Reply}
    (hstore : input.storeRawReplay = storeRawReplay pf bucket)
    (hstage : input.stageRawReplay = stageRawReplay pf) (hlisting : listing.Separated pf)
    (hb : Working b pf listing sourceUrl) (hmem : listing.Lists candidate)
    (hcrop : listing.row pf candidate ∈ crop) (hw : Knows pf listing candidate known w) :
    Proc.Safe b.Step (Reaps pf listing crop) (Reaps pf listing crop)
      (Reaped pf listing candidate known) w (processCandidate input candidate) := by
  unfold processCandidate
  rw [hstore, hstage]
  refine Async.safe_bind (fun rawResult w => ∃ evidence, rawResult = .stored evidence ∧
    BroughtIn pf listing bucket candidate known evidence w)
    ((safe_storeRawReplay_broughtIn hlisting hb hmem hw).imp ?_) ?_
  · rintro r w ⟨evidence, rfl, h⟩
    exact ⟨evidence, rfl, h⟩
  · rintro _ w ⟨evidence, rfl, hknows, hobject, now, status, rfl, hstatus⟩
    have hstageable : isStageable
        (toEvidence bucket (storageInput pf candidate now (listing.content candidate)) status) =
          true := by
      rcases hstatus with ⟨rfl, _⟩ | rfl
      · rfl
      · rfl
    unfold stageRawReplay toIngestStagingPayload
    dsimp only
    rw [if_pos hstageable]
    refine Async.safe_bind (fun stagingResult w =>
      EnteredRow pf listing candidate known (.ok stagingResult) w)
      ((safe_stage_entered hlisting hb hmem hcrop (identity_toPayload now status none _) hknows
        hobject).imp ?_) ?_
    · rintro r w h
      obtain ⟨result, rfl, _⟩ := h.result
      exact h
    · intro stagingResult w h
      obtain ⟨result, hresult, hstaged⟩ := h.result
      obtain rfl := Except.ok.inj hresult
      exact Proc.safe_pure (fun _ _ h hr => h.kept hr) ⟨h.orderly, h.covered, _, _, rfl, hstatus, hstaged⟩

end Candidate

/-! ## A page -/

/-- The results of a run that brings everything home are successes. -/
def successRule (pf : Platform Text) (listing : Listing) : ResultRule (World Text) where
  J := Orderly pf listing
  A result _ := result.status = .stored ∨ result.status = .skipped
  B result _ := result.status = .staged ∨ result.status = .alreadyStaged
  found candidates := ∃ page, candidates = listing.page page

section Page

variable {pf : Platform Text} {listing : Listing} {crop : Set RowIdentity} {b : Backend Text}
  {sourceUrl : Url} {w w' start : World Text} {bucket : String} {page : ℕ}
  {input : IngestPageInput (Effect Text) Reply}

/-- What a page has done that began in the world `start`. -/
structure PageReaped (pf : Platform Text) (listing : Listing) (page : ℕ) (start : World Text)
    (result : IngestPageResult) (w : World Text) : Prop where
  told : (successRule pf listing).Told result.rawStorage result.staging w
  covered : PageCovered pf listing page w
  duplicate : PageCovered pf listing page start → isAllDuplicate result.counts = true

theorem lasts_successRule : (successRule pf listing).Lasts (Reaps pf listing crop) where
  refl := Reaps.refl
  J _ _ h hr := hr.orderly h
  A _ _ _ h _ := h
  B _ _ _ h _ := h

theorem PageReaped.kept {result : IngestPageResult} (h : PageReaped pf listing page start result w)
    (hr : Reaps pf listing crop w w') : PageReaped pf listing page start result w' :=
  ⟨lasts_successRule.told h.told hr, fun candidate hmem => (h.covered candidate hmem).mono hr.rows,
    h.duplicate⟩

/-- The tasks of a page, tallied. -/
theorem pageReaped_tallyPage {candidates : List ReplayCandidate}
    (hcandidates : candidates = listing.page page)
    {values : Fin candidates.length → SettledCandidate} (hw : Orderly pf listing w)
    (h : ∀ i, Reaped pf listing (candidates.get i) (PageCovered pf listing page start)
      (.ok (values i)) w) :
    PageReaped pf listing page start (tallyPage (List.ofFn values)) w := by
  refine ⟨ResultRule.told_tallyPage hw fun s hs => ?_, fun candidate hmem => ?_, fun hknown => ?_⟩
  · obtain ⟨i, rfl⟩ := List.mem_ofFn.1 hs
    obtain ⟨rawResult, stagingResult, hvalue, hraw, hstaging⟩ := (h i).settled
    rw [Except.ok.inj hvalue]
    exact ⟨hraw.imp_left And.left, hstaging.imp_left And.left⟩
  · rw [← hcandidates] at hmem
    obtain ⟨i, rfl⟩ := List.get_of_mem hmem
    exact (h i).covered
  · rw [isAllDuplicate_tallyPage]
    intro s hs
    obtain ⟨i, rfl⟩ := List.mem_ofFn.1 hs
    obtain ⟨rawResult, stagingResult, hvalue, hraw, hstaging⟩ := (h i).settled
    rw [Except.ok.inj hvalue]
    refine (SettledCandidate.IsDuplicate.unmoved ?_).1
    exact ⟨hraw.resolve_left fun h => h.2 hknown, hstaging.resolve_left fun h => h.2 hknown⟩

/-- **The fan-out of a listed page**, among others that only add rows of `crop`. -/
theorem safe_ingestPage_reaped (hstore : input.storeRawReplay = storeRawReplay pf bucket)
    (hstage : input.stageRawReplay = stageRawReplay pf)
    (hgate : input.existsBySourceIdentity = none) (hlisting : listing.Separated pf)
    (hb : Working b pf listing sourceUrl) (hcandidates : input.candidates = listing.page page)
    (hcrop : ∀ candidate ∈ listing.page page, listing.row pf candidate ∈ crop)
    (hw : Orderly pf listing w) :
    Proc.Safe b.Step (Reaps pf listing crop) (Reaps pf listing crop)
      (Async.Outcome (PageReaped pf listing page w) fun _ _ => False) w (ingestPage input) := by
  have hstable := Async.outcome_stable
    (fun (result : IngestPageResult) w₁ w₂ (h : PageReaped pf listing page w result w₁)
      (hr : Reaps pf listing crop w₁ w₂) => h.kept hr) (fun (_ : JsError) _ _ (h : False) _ => h)
  rw [ingestPage_eq]
  have htask : ∀ i, Proc.Safe b.Step (Reaps pf listing crop) (Reaps pf listing crop)
      (Reaped pf listing (input.candidates.get i) (PageCovered pf listing page w)) w
      (ingestCandidate input (input.candidates.get i)) := by
    intro i
    have hmem : input.candidates.get i ∈ listing.page page :=
      hcandidates ▸ List.get_mem input.candidates i
    rw [ingestCandidate_ungated input hgate]
    exact safe_processCandidate_reaped hstore hstage hlisting hb ⟨page, hmem⟩ (hcrop _ hmem)
      ⟨hw, fun hknown => hknown _ hmem⟩
  refine Proc.safe_fan (Orderly pf listing) ?_ ?_ ?_ Reaps.refl ?_ ?_ htask
    (fun settled w' hw' hsettled => ?_) hw
  · exact fun _ _ _ _ _ h => h
  · exact fun _ _ _ h => h
  · exact fun _ _ _ h => h
  · exact fun _ _ h hr => hr.orderly h
  · exact fun _ _ _ h hr => hr.orderly h
  · refine Proc.safe_pure (hstable _) ?_
    -- every task has resolved, so the page does
    choose rawResults stagingResults hvalues _ using fun i => (hsettled i).settled
    have houtcome : pageOutcome settled = .ok (tallyPage (List.ofFn fun i =>
        SettledCandidate.processed (rawResults i) (stagingResults i))) :=
      pageOutcome_eq_ok.2 ⟨_, hvalues, rfl⟩
    rw [houtcome]
    exact pageReaped_tallyPage hcandidates hw' fun i => hvalues i ▸ hsettled i

/-- `staged` is the number of rows a page adds, when nobody else is at work. -/
theorem safe_ingestPage_rows (hraw : b.faults.raw = false) (hstaging : b.faults.staging = false)
    (hwired : WiredPage pf bucket input) (w : World Text) :
    Proc.Safe b.Step Lts.Alone (fun _ _ => True)
      (Async.Outcome (fun result w' => w'.staging.length = w.staging.length + result.counts.staged)
        fun _ _ => True) w (ingestPage input) := by
  intro w' p hruns
  refine ⟨fun _ _ _ => trivial, fun r hr => ?_⟩
  obtain rfl := Proc.result_eq_some.1 hr
  cases r with
  | error error => trivial
  | ok result =>
    obtain ⟨records, hrun⟩ := Proc.exists_recorded () hruns fun _ => []
    have hgrown := grown_of_runs hraw hstaging hrun
    obtain ⟨l, hemits, hl⟩ := Proc.emits_of_recorded hrun
    rw [show l = conversation (records ()) from hl.symm] at hemits
    show w'.staging.length = w.staging.length + result.counts.staged
    rw [← (wrote_ingestPage hwired hemits).rows]
    exact hgrown.rows

/-- The rows of a page. -/
def pageRows (pf : Platform Text) (listing : Listing) (page : ℕ) : Set RowIdentity :=
  {identity | ∃ candidate ∈ listing.page page, listing.row pf candidate = identity}

/-- **A page on its own**: it adds its own rows and no others, and takes itself for a duplicate
    exactly when they were all there. -/
theorem safe_ingestPage_harvest (hwired : WiredPage pf bucket input)
    (hgate : input.existsBySourceIdentity = none) (hlisting : listing.Separated pf)
    (hb : Working b pf listing sourceUrl) (hcandidates : input.candidates = listing.page page)
    (hw : Orderly pf listing w) :
    Proc.Safe b.Step Lts.Alone (fun _ _ => True)
      (Async.Outcome (fun result w' => Reaps pf listing (pageRows pf listing page) w w' ∧
        PageCovered pf listing page w' ∧
        (isAllDuplicate result.counts = true ↔ PageCovered pf listing page w)) fun _ _ => False) w
      (ingestPage input) := by
  have halone : ∀ w w', Lts.Alone w w' → Reaps pf listing (pageRows pf listing page) w w' := by
    rintro w _ rfl
    exact Reaps.refl _
  have hpage : Proc.Safe b.Step (Reaps pf listing (pageRows pf listing page))
      (Reaps pf listing (pageRows pf listing page))
      (Async.Outcome (PageReaped pf listing page w) fun _ _ => False) w (ingestPage input) :=
    safe_ingestPage_reaped hwired.store hwired.stage hgate hlisting hb hcandidates
      (fun candidate hmem => ⟨candidate, hmem, rfl⟩) hw
  have hreaped := hpage.kept (I := Reaps pf listing (pageRows pf listing page) w)
    (fun _ _ h hr => h.trans hr) (fun _ _ h hr => h.trans hr) (Reaps.refl w)
  refine ((hreaped.weaken halone (fun _ _ _ => trivial) fun _ _ h => h).and
    (safe_ingestPage_rows hb.raw hb.staging hwired w)).weaken (fun _ _ h => h)
    (fun _ _ _ => trivial) ?_
  rintro (error | result) w' ⟨⟨hpage, hreaps⟩, hrows⟩
  · exact hpage
  refine ⟨hreaps, hpage.covered, fun hduplicate => ?_, hpage.duplicate⟩
  -- nothing was staged, so the table is as it was, and the page is covered in it
  have hcount : w'.staging.length = w.staging.length + result.counts.staged := hrows
  have hstaged : result.counts.staged = 0 := by
    unfold isAllDuplicate at hduplicate
    simp only [Bool.and_eq_true, decide_eq_true_eq] at hduplicate
    exact hduplicate.1.2
  have hsame : w.staging = w'.staging := hreaps.rows.eq_of_length (by omega)
  intro candidate hmem
  obtain ⟨row, hrow, hidentity⟩ := hpage.covered candidate hmem
  exact ⟨row, hsame ▸ hrow, hidentity⟩

end Page

/-! ## What a run reports -/

section Report

variable {E : Type} {R : E → Type} {pf : Platform Text} {input : RunOnceInput E R}

/-- The summary is that of some loop state, and the exit code goes with it. -/
structure AsAssembled (runId : String) (result : RunOnceResult) : Prop where
  summary : ∃ context state finishedAt, result.summary = finalSummary runId context state finishedAt
  exitCode : result.exitCode = runExitCode result.summary.ok result.summary.status

/-- Whatever a run resolves with was reported so. -/
theorem gives_asAssembled :
    Proc.Gives (fun _ _ => True) (Async.Settled (AsAssembled input.runId) fun _ => True)
      (runOnce pf input) := by
  unfold runOnce runFrom
  refine Async.gives_lift_bind (fun _ => True) (Proc.gives_any _) fun startedAt _ => ?_
  refine Async.gives_lift_bind (fun _ => True) (Proc.gives_any _) fun _ _ => ?_
  refine Async.gives_bind (fun _ => True) (Async.gives_any _) fun resumeState _ => ?_
  refine Async.gives_bind (fun _ => True) (Async.gives_any _) fun state _ => ?_
  unfold assembleResult
  refine Async.gives_bind (fun _ => True) (Async.gives_any _) fun _ _ => ?_
  refine Async.gives_lift_bind (fun _ => True) (Proc.gives_any _) fun finishedAt _ => ?_
  refine Async.gives_lift_bind (fun _ => True) (Proc.gives_any _) fun _ _ => ?_
  refine Async.gives_bind (fun _ => True) (Async.gives_any _) fun _ _ => ?_
  exact Proc.gives_pure ⟨⟨_, state, finishedAt, rfl⟩, rfl⟩

/-- A complete run whose results are all successes exits with 0. -/
theorem AsAssembled.exitCode_eq_zero {runId : String} {result : RunOnceResult}
    (h : AsAssembled runId result) (hstatus : result.summary.status = some .complete)
    (hraw : ∀ rawResult ∈ result.summary.rawStorage,
      rawResult.status = .stored ∨ rawResult.status = .skipped)
    (hstaging : ∀ stagingResult ∈ result.summary.staging,
      stagingResult.status = .staged ∨ stagingResult.status = .alreadyStaged) :
    result.summary.ok = true ∧ result.exitCode = 0 := by
  obtain ⟨⟨context, state, finishedAt, hsummary⟩, hexit⟩ := h
  have hok : result.summary.ok = true := by
    rw [hsummary] at hstatus hraw hstaging ⊢
    unfold finalSummary at hstatus hraw hstaging ⊢
    rw [status_buildRunSummary] at hstatus
    rw [rawStorage_buildRunSummary] at hraw
    rw [staging_buildRunSummary] at hstaging
    exact ok_buildRunSummary_iff.2
      ⟨(finalStatus_eq_complete.1 (Option.some.inj hstatus)).1, hraw, hstaging⟩
  refine ⟨hok, ?_⟩
  rw [hexit, hstatus, runExitCode_eq_zero]
  exact ⟨hok, rfl⟩

end Report

/-! ## A run -/

section Run

variable (pf : Platform Text) (listing : Listing)

/-- The rows there are when the pages from `first` up to `page` have been brought home. -/
def knownRows (start : World Text) (first page : ℕ) : Set RowIdentity :=
  {identity | (∃ row ∈ start.staging, row.identity = identity) ∨
    ∃ earlier candidate, first ≤ earlier ∧ earlier < page ∧ candidate ∈ listing.page earlier ∧
      listing.row pf candidate = identity}

/-- The pages that have nothing new when a run that started at `first` gets there. -/
def exhausted (start : World Text) (first : ℕ) : Set ℕ :=
  {page | first ≤ page ∧ pageRows pf listing page ⊆ knownRows pf listing start first page}

/-- The table is as it was, with the pages from `first` up to `page` brought home. -/
structure Harvested (start : World Text) (first page : ℕ) (w : World Text) : Prop where
  orderly : Orderly pf listing w
  rows : ∀ identity, (∃ row ∈ w.staging, row.identity = identity) ↔
    identity ∈ knownRows pf listing start first page

/-- Where a run starts that reads the checkpoint now. -/
def startPageIn (key : String) (w : World Text) : ℕ :=
  (resumeStateOf (storedRead pf key w)).startPage

/-- The assertions of a run that brings home the pages from `first` to before `stop`. -/
def harvestSpec (start : World Text) (first stop : ℕ) : RunSpec (World Text) where
  head p w := Harvested pf listing start first p.nextPage w ∧ first ≤ p.nextPage ∧ p.nextPage ≤ stop
  found p candidates w := (Harvested pf listing start first p.nextPage w ∧ first ≤ p.nextPage ∧
    p.nextPage ≤ stop) ∧ candidates = listing.page p.nextPage
  done p counts w := Harvested pf listing start first (p.nextPage + 1) w ∧
    first ≤ p.nextPage ∧ p.nextPage ≤ stop ∧ (isAllDuplicate counts = true ↔ p.nextPage = stop)
  left _ complete w := complete = true ∧ Harvested pf listing start first stop w
  last complete w := complete = true ∧ Harvested pf listing start first stop w

end Run

section Run

variable {pf : Platform Text} {listing : Listing} {b : Backend Text} {config : RunConfig}
  {start w w' : World Text} {first stop page : ℕ} {key : String}

/-- In a harvested world, a page has nothing new exactly when it is covered. -/
theorem Harvested.pageCovered_iff (h : Harvested pf listing start first page w) :
    PageCovered pf listing page w ↔
      pageRows pf listing page ⊆ knownRows pf listing start first page := by
  constructor
  · rintro hcovered identity ⟨candidate, hmem, rfl⟩
    exact (h.rows _).1 (hcovered candidate hmem)
  · intro hsub candidate hmem
    exact (h.rows _).2 (hsub ⟨candidate, hmem, rfl⟩)

/-- One page more. -/
theorem knownRows_succ (hle : first ≤ page) : knownRows pf listing start first (page + 1) =
    knownRows pf listing start first page ∪ pageRows pf listing page := by
  ext identity
  constructor
  · rintro (hrow | ⟨earlier, candidate, hfirst, hlt, hmem, hidentity⟩)
    · exact Or.inl (Or.inl hrow)
    · rcases Nat.lt_succ_iff_lt_or_eq.1 hlt with hlt | rfl
      · exact Or.inl (Or.inr ⟨earlier, candidate, hfirst, hlt, hmem, hidentity⟩)
      · exact Or.inr ⟨candidate, hmem, hidentity⟩
  · rintro ((hrow | ⟨earlier, candidate, hfirst, hlt, hmem, hidentity⟩) | ⟨candidate, hmem, hidentity⟩)
    · exact Or.inl hrow
    · exact Or.inr ⟨earlier, candidate, hfirst, by omega, hmem, hidentity⟩
    · exact Or.inr ⟨page, candidate, hle, by omega, hmem, hidentity⟩

/-- What a page on its own does to a harvested table. -/
theorem Harvested.next (h : Harvested pf listing start first page w) (hle : first ≤ page)
    (hreaps : Reaps pf listing (pageRows pf listing page) w w')
    (hcovered : PageCovered pf listing page w') : Harvested pf listing start first (page + 1) w' := by
  refine ⟨hreaps.orderly h.orderly, fun identity => ?_⟩
  rw [knownRows_succ hle]
  constructor
  · rintro ⟨row, hrow, rfl⟩
    rcases hreaps.reaped row hrow with hold | hnew
    · exact Or.inl ((h.rows _).1 ⟨row, hold, rfl⟩)
    · exact Or.inr hnew
  · rintro (hknown | ⟨candidate, hmem, rfl⟩)
    · obtain ⟨row, hrow, hidentity⟩ := (h.rows _).2 hknown
      exact ⟨row, hreaps.rows.subset hrow, hidentity⟩
    · exact hcovered candidate hmem

/-- At the first exhausted page there is nothing to bring home. -/
theorem Harvested.exhausted (h : Harvested pf listing start first (stop + 1) w)
    (hstop : stop ∈ exhausted pf listing start first) : Harvested pf listing start first stop w := by
  refine ⟨h.orderly, fun identity => (h.rows identity).trans ?_⟩
  rw [knownRows_succ hstop.1, Set.union_eq_self_of_subset_right hstop.2]

theorem Harvested.of_eq (h : Harvested pf listing start first page w) (hraw : w'.raw = w.raw)
    (hstaging : w'.staging = w.staging) : Harvested pf listing start first page w' := by
  have hreaps : Reaps pf listing Set.univ w w' := reaps_of_eq hraw hstaging
  refine ⟨hreaps.orderly h.orderly, ?_⟩
  rw [hstaging]
  exact h.rows

theorem harvested_start (hw : Orderly pf listing start) :
    Harvested pf listing start first first start := by
  refine ⟨hw, fun identity => ⟨Or.inl, ?_⟩⟩
  rintro (hrow | ⟨earlier, _, hfirst, hlt, _⟩)
  · exact hrow
  · omega

/-- Objects and rows are the same. -/
def SameStores (w w' : World Text) : Prop := w'.raw = w.raw ∧ w'.staging = w.staging

/-- A checkpoint write leaves objects and rows alone. -/
theorem safe_write_harvested {write : CheckpointWriteInput}
    (h : Harvested pf listing start first page w) :
    Proc.Safe b.Step Lts.Alone (fun _ _ => True)
      (fun _ w => Harvested pf listing start first page w) w
      ((config.store pf).write write) := by
  have hquiet : Proc.Asks OffStorage ((config.store pf).write write : Program Text _) :=
    (asks_writeCheckpoint write).mono fun e he => by
      cases e <;> first | exact he.elim | trivial
  have hwrite : Proc.Quiet b.Step SameStores SameStores ((config.store pf).write write) :=
    hquiet.quiet (fun _ => ⟨rfl, rfl⟩) fun e he w r w' hr => by
      have hsame : SameStores w w' := raw_staging_of_step hr
        (fun _ _ _ heq => by subst heq; exact he) fun _ heq => by subst heq; exact he
      exact ⟨hsame, hsame⟩
  refine (hwrite _ (fun w w' h hr => h.of_eq hr.1 hr.2) w h).weaken ?_ (fun _ _ _ => trivial)
    fun _ _ h => h
  rintro w _ rfl
  exact ⟨rfl, rfl⟩

/-- What a run that brings everything home resolves with. -/
def BroughtHome (pf : Platform Text) (listing : Listing) (start : World Text) (first stop : ℕ)
    (r : Except JsError RunOnceResult) (w : World Text) : Prop :=
  ∃ result, r = .ok result ∧ result.summary.status = some .complete ∧
    Harvested pf listing start first stop w

theorem stable_harvestSpec : RunSpec.Stable Lts.Alone (BroughtHome pf listing start first stop)
    (harvestSpec pf listing start first stop) where
  head _ _ _ h hr := hr ▸ h
  found _ _ _ _ h hr := hr ▸ h
  done _ _ _ _ h hr := hr ▸ h
  left _ _ _ _ h hr := hr ▸ h
  last _ _ _ h hr := hr ▸ h
  post _ _ _ h hr := hr ▸ h

/-- **The obligations of a run.** -/
theorem holds_harvestSpec (hlisting : listing.Separated pf)
    (hb : Working b pf listing config.sourceUrl) (hmax : config.maxPages = none)
    (hstop : IsLeast (exhausted pf listing start first) stop) (startedAt : Date) :
    RunSpec.Holds b.Step Lts.Alone (fun _ _ => True) pf (config.toInput pf (config.store pf))
      (BroughtHome pf listing start first stop)
      { slug := pf.withoutUserinfo config.sourceUrl, startedAt := toISOString startedAt }
      (harvestSpec pf listing start first stop) where
  refl _ := trivial
  quiet := config.quiet pf _ fun e he w r w' hr => by
    refine ⟨trivial, ?_⟩
    cases e <;> first | exact he.elim | exact hr
  stable := stable_harvestSpec
  cap p w h := by
    have hnone : (config.toInput pf (config.store pf)).maxPages = none := hmax
    rw [hnone] at h
    cases h
  discover p w h := by
    refine Proc.safe_call _ (stable_harvestSpec.head p) ?_ h
    rintro w ⟨hw, hfirst, hle⟩ r w' ⟨rfl, hreports⟩
    obtain ⟨report, rfl, hok, hcandidates⟩ := hb.listed _ p.nextPage r rfl hreports
    refine ⟨trivial, Proc.safe_pure (fun _ _ => Async.outcome_stable
      (stable_harvestSpec.discovered p) (fun _ _ _ h hr => hr ▸ h) _ _ _) ?_⟩
    show RunSpec.discovered _ _ _ _
    unfold RunSpec.discovered
    rw [if_neg (by rw [hok]; decide), hcandidates]
    split
    · -- an empty page has nothing new
      rename_i hempty
      have hexhausted : p.nextPage ∈ exhausted pf listing start first := by
        refine ⟨hfirst, ?_⟩
        rintro identity ⟨candidate, hmem, _⟩
        rw [hempty] at hmem
        exact absurd hmem List.not_mem_nil
      have hpage : p.nextPage = stop := le_antisymm hle (hstop.2 hexhausted)
      exact ⟨rfl, hpage ▸ hw⟩
    · exact ⟨⟨hw, hfirst, hle⟩, rfl⟩
  ingest p candidates state w h := by
    obtain ⟨⟨hw, hfirst, hle⟩, hcandidates⟩ := h
    have hwired : WiredPage pf config.bucket
        (ingestInput (config.toInput pf (config.store pf)) state candidates) :=
      ⟨fun _ h => (by cases h), rfl, rfl⟩
    refine (safe_ingestPage_harvest hwired rfl hlisting hb hcandidates hw.orderly).imp ?_
    rintro (error | result) w' h
    · exact h.elim
    · obtain ⟨hreaps, hcovered, hduplicate⟩ := h
      refine ⟨hw.next hfirst hreaps hcovered, hfirst, hle, hduplicate.trans ?_⟩
      rw [hw.pageCovered_iff]
      exact ⟨fun hsub => le_antisymm hle (hstop.2 ⟨hfirst, hsub⟩), fun hpage => hpage ▸ hstop.1.2⟩
  writePage p counts now w h := by
    obtain ⟨hw, hfirst, hle, hduplicate⟩ := h
    refine (safe_write_harvested hw).imp fun r w hw => ?_
    have hwritten : ∀ etag : Option String, (harvestSpec pf listing start first stop).written
        ((p.advance counts).withEtag etag) counts w := by
      intro etag
      unfold RunSpec.written
      split
      · rename_i hall
        have hpage : p.nextPage = stop := hduplicate.1 hall
        refine ⟨rfl, Harvested.exhausted ?_ hstop.1⟩
        rw [← hpage]
        exact hw
      · rename_i hall
        have hne : p.nextPage ≠ stop := fun hpage => hall (hduplicate.2 hpage)
        refine ⟨hw, Nat.le_succ_of_le hfirst, ?_⟩
        exact lt_of_le_of_ne hle hne
    cases r with
    | ok etag => exact hwritten etag
    | error error => exact hwritten p.etag
  skipFinal _ _ h := by cases h.1
  writeFinal p now w h := by
    refine (safe_write_harvested h.2).imp fun r w hw => ?_
    cases r with
    | ok etag => exact ⟨rfl, hw⟩
    | error error => exact ⟨rfl, hw⟩
  result complete w h result hstatus := ⟨result, rfl, hstatus.2 h.1, h.2⟩

/-- A GET that works shows what is stored. -/
theorem readReply_of_step (hget : b.faults.checkpointGet = false)
    {r : Except JsError (GetObjectOutput Text)} (hr : b.StepGetCheckpoint w key r) :
    readReply pf r = .ok (storedRead pf key w) := by
  unfold storedRead
  rcases hr with hr | ⟨hfault, _⟩
  · cases hcurrent : w.current key with
    | none =>
      rw [hcurrent] at hr
      obtain ⟨error, hfound, rfl⟩ := hr
      simp only [readReply, hfound, if_true]
    | some version =>
      rw [hcurrent] at hr
      dsimp only at hr
      subst hr
      rfl
  · rw [hget] at hfault
    cases hfault

/-- The read at the start of a run. -/
theorem safe_read_harvested (hget : b.faults.checkpointGet = false)
    (hkey : checkpointKey pf config.checkpointOptions
      (pf.withoutUserinfo config.sourceUrl) = .ok key) (hw : Orderly pf listing w)
    (hstop : stop ∈ exhausted pf listing w (startPageIn pf key w)) :
    Proc.Safe b.Step Lts.Alone (fun _ _ => True)
      (Async.Outcome
        (fun read => (harvestSpec pf listing w (startPageIn pf key w) stop).head
          (resumeStateOf read).progress)
        fun e w' => BroughtHome pf listing w (startPageIn pf key w) stop (.error e) w') w
      (readCheckpoint pf config.checkpointOptions (pf.withoutUserinfo config.sourceUrl)) := by
  have halone : ∀ {P : World Text → Prop}, ∀ w w', P w → Lts.Alone w w' → P w' :=
    fun _ _ hw hr => hr ▸ hw
  refine safe_readCheckpoint hkey (· = w) halone (fun r => halone) ?_ rfl
  rintro _ rfl r w' ⟨rfl, hreply⟩
  refine ⟨trivial, ?_⟩
  rw [readReply_of_step hget hreply]
  have hpage : (resumeStateOf (storedRead pf key w')).progress.nextPage = startPageIn pf key w' :=
    startPage_resumeStateOf _
  show Harvested pf listing w' _ (resumeStateOf (storedRead pf key w')).progress.nextPage w' ∧ _ ∧ _
  rw [hpage]
  exact ⟨harvested_start hw, le_refl _, hstop.1⟩

/-- The results of such a run are successes. -/
theorem runResults_success (hlisting : listing.Separated pf)
    (hb : Working b pf listing config.sourceUrl) :
    RunResults b.Step (Reaps pf listing Set.univ) (successRule pf listing) pf
      (config.toInput pf (config.store pf)) where
  lasts := lasts_successRule
  quiet := config.quiet pf _ fun _ he _ _ _ h =>
    ⟨reaps_of_step (offStorage_of_incidental he) h, reaps_of_step (offStorage_of_incidental he) h⟩
  read slug := by
    have hasks : Proc.Asks IsCheckpoint (readCheckpoint pf config.checkpointOptions slug :
        Program Text (Except JsError CheckpointReadResult)) := asks_readCheckpoint
    exact quiet_of_offStorage_reaps (hasks.mono fun _ => offStorage_of_checkpoint)
  write write := by
    have hasks : Proc.Asks IsCheckpoint (writeCheckpoint pf config.checkpointOptions write :
        Program Text (Except JsError (Option String))) := asks_writeCheckpoint write
    exact quiet_of_offStorage_reaps (hasks.mono fun _ => offStorage_of_checkpoint)
  discover page w hw := by
    refine Proc.safe_call (Orderly pf listing) (fun _ _ h hr => hr.orderly h) ?_ hw
    rintro w hw r w' ⟨rfl, hreports⟩
    obtain ⟨report, rfl, _, hcandidates⟩ := hb.listed _ page r rfl hreports
    refine ⟨Reaps.refl _, Proc.safe_pure ?_ ⟨hw, fun _ => ⟨page, hcandidates⟩⟩⟩
    rintro w w' ⟨hw, hfound⟩ hr
    exact ⟨hr.orderly hw, hfound⟩
  ingest state candidates w hfound hw := by
    obtain ⟨page, hcandidates⟩ := hfound
    have hpage : Proc.Safe b.Step (Reaps pf listing Set.univ) (Reaps pf listing Set.univ)
        (Async.Outcome (PageReaped pf listing page w) fun _ _ => False) w
        (ingestPage (ingestInput (config.toInput pf (config.store pf)) state candidates)) :=
      safe_ingestPage_reaped rfl rfl rfl hlisting hb hcandidates (fun _ _ => trivial) hw
    refine hpage.imp ?_
    rintro (error | result) w h
    · exact h.elim
    · exact h.told

/-- A run over a source that answers and storage that works: it ends, and what it leaves is the
    harvest. -/
theorem ends_run_harvested (hlisting : listing.Separated pf)
    (hb : Working b pf listing config.sourceUrl) (hw : Orderly pf listing w)
    (hkey : checkpointKey pf config.checkpointOptions
      (pf.withoutUserinfo config.sourceUrl) = .ok key)
    (hmax : config.maxPages = none) (hconcurrency : 0 < config.concurrency)
    (hstop : IsLeast (exhausted pf listing w (startPageIn pf key w)) stop) :
    Proc.Ends b.Step (fun r w' => ∃ result, r = .ok result ∧ result.exitCode = 0 ∧
      result.summary.status = some .complete ∧ result.summary.ok = true ∧
      Harvested pf listing w (startPageIn pf key w) stop w') w (config.run pf) := by
  have hends : Proc.Ends b.Step (BroughtHome pf listing w (startPageIn pf key w) stop) w
      (config.run pf) := by
    refine ends_runOnce (· = w) (holds_harvestSpec hlisting hb hmax hstop) ?_
      (config.settles hb.answers) hconcurrency (fun p w h => h.2.2) rfl
    rintro _ rfl
    exact safe_read_harvested hb.checkpointGet hkey hw hstop.1
  have halone : ∀ w w' : World Text, Lts.Alone w w' → Reaps pf listing Set.univ w w' := by
    rintro w _ rfl
    exact Reaps.refl _
  have hassembled : Proc.Safe b.Step Lts.Alone (fun _ _ => True)
      (fun r _ => Async.Settled (AsAssembled config.runId) (fun _ => True) r) w (config.run pf) :=
    Proc.Gives.safe gives_asAssembled (fun _ _ _ _ _ => trivial) w
  have htold := ((runResults_success hlisting hb).safe_runOnce hw).weaken
    halone (fun _ _ _ => trivial) fun _ _ h => h
  refine (((hends.safe.and hassembled).and htold).ends (hends.imp fun _ _ _ => trivial)).imp ?_
  rintro _ w' ⟨⟨⟨result, rfl, hstatus, hharvested⟩, hassembled⟩, htold⟩
  obtain ⟨hok, hexit⟩ := hassembled.exitCode_eq_zero hstatus htold.raw htold.staged
  exact ⟨result, rfl, hexit, hstatus, hok, hharvested⟩

/-- **A healthy run brings everything home.**  A run on its own, over a source that answers and
    storage that works: if some page from where it starts has nothing new, it ends, with exit code 0
    and the status `complete`, and the table then has the rows it had and those of every page before
    the first such page, each with its object. -/
theorem healthy_run_harvests (hlisting : listing.Separated pf)
    (hb : Working b pf listing config.sourceUrl) (hw : Orderly pf listing w)
    (hkey : checkpointKey pf config.checkpointOptions
      (pf.withoutUserinfo config.sourceUrl) = .ok key)
    (hmax : config.maxPages = none) (hconcurrency : 0 < config.concurrency)
    (hstop : IsLeast (exhausted pf listing w (startPageIn pf key w)) stop) :
    Proc.Ends b.Step (fun r w' => ∃ result, r = .ok result ∧ result.exitCode = 0 ∧
      result.summary.status = some .complete ∧ result.summary.ok = true ∧
      (∀ identity, (∃ row ∈ w'.staging, row.identity = identity) ↔
        identity ∈ knownRows pf listing w (startPageIn pf key w) stop) ∧
      ∀ row ∈ w'.staging, (w'.raw row.objectKey).isSome = true) w (config.run pf) := by
  refine (ends_run_harvested hlisting hb hw hkey hmax hconcurrency hstop).imp ?_
  rintro r w' ⟨result, rfl, hexit, hstatus, hok, hharvested⟩
  exact ⟨result, rfl, hexit, hstatus, hok, hharvested.rows, hharvested.orderly.backed⟩

end Run

/-! ## After any history -/

section Recovery

variable {pf : Platform Text} {listing : Listing} {b healthy : Backend Text} {config : RunConfig}
  {w₀ w : World Text} {stop page : ℕ} {key : String}

/-- Rows name objects that are there, so what is grounded and consistent is orderly. -/
theorem Grounded.orderly (h : Grounded pf listing w) (hw : Consistent pf w) :
    Orderly pf listing w := by
  refine ⟨h.stocked, fun row hrow => ?_⟩
  obtain ⟨object, hobject, _⟩ := (hw.rows row hrow).object
  rw [hobject]
  rfl

/-- Whatever runs were at work, and however they ended. -/
theorem orderly_of_poolRuns {ι : Type} [DecidableEq ι] {sourceUrl : Url}
    (hlisting : listing.Separated pf) (hserves : listing.Serves b pf sourceUrl)
    {configs : ι → RunConfig} (hsource : ∀ i, (configs i).sourceUrl = sourceUrl)
    (hw : Grounded pf listing w₀) (hconsistent : Consistent pf w₀)
    {programs : ι → Task Text RunOnceResult}
    (hruns : Lts.PoolRuns (fun _ => Proc.lts b.Step _) w₀ (fun i => (configs i).run pf) w programs) :
    Grounded pf listing w ∧ Orderly pf listing w := by
  have hsafe : ∀ i, Proc.Safe b.Step (Upholds pf listing) (Upholds pf listing)
      (fun _ => Grounded pf listing) w₀ ((configs i).run pf) :=
    fun i => safe_run_grounded hlisting (hsource i ▸ hserves) hw
  have hgrounded : Grounded pf listing w := by
    refine Lts.PoolRuns.invariant ?_ hsafe ?_ hw hruns
    · exact fun _ _ _ _ _ h => h
    · exact fun _ _ _ h hw => h.grounded hw
  have hsafe' : ∀ i, Proc.Safe b.Step (Retains pf) (Retains pf) (fun _ _ => True) w₀
      ((configs i).run pf) := fun i =>
    ((runResults_config (configs i)).safe_runOnce hconsistent).imp fun _ _ _ => trivial
  have hconsistent' : Consistent pf w := by
    refine Lts.PoolRuns.invariant ?_ hsafe' ?_ hconsistent hruns
    · exact fun _ _ _ _ _ h => h
    · exact fun _ _ _ h hw => h.consistent hw
  exact ⟨hgrounded, hgrounded.orderly hconsistent'⟩

/-- A page before the one a run starts at is in the table, or its entry admits a failure. -/
theorem Grounded.skipped_page (hw : Grounded pf listing w) (hpos : 1 ≤ page)
    (hlt : page < startPageIn pf key w) : PageCovered pf listing page w ∨
      ∃ version c entry, w.current key = some version ∧ parseCheckpoint pf version.body = some c ∧
        c.pages.lookup (toString page) = some entry ∧ 0 < entry.counts.failed := by
  have hfresh : ∀ etag : Option String, ¬ page < (startFresh etag).startPage := by
    intro etag h
    have hone : page < 1 := h
    omega
  unfold startPageIn storedRead at hlt
  cases hcurrent : w.current key with
  | none =>
    rw [hcurrent] at hlt
    exact (hfresh none hlt).elim
  | some version =>
    rw [hcurrent] at hlt
    cases hparse : parseCheckpoint pf version.body with
    | none =>
      simp only [readOutput, hparse] at hlt
      exact (hfresh none hlt).elim
    | some c =>
      simp only [readOutput, hparse, resumeStateOf] at hlt
      by_cases hcomplete : c.status = .complete
      · rw [if_pos hcomplete] at hlt
        exact (hfresh _ hlt).elim
      · rw [if_neg hcomplete] at hlt
        have hlast : page < c.lastCompletedPage + 1 := hlt
        have haccounted := hw.accounted key version (List.mem_of_mem_head? hcurrent) c hparse
        obtain ⟨entry, hentry⟩ := Finmap.mem_iff.1 (haccounted.entries page hpos (by omega))
        rcases Nat.eq_zero_or_pos entry.counts.failed with hzero | hfailed
        · exact Or.inl (haccounted.covered page entry hentry hzero)
        · exact Or.inr ⟨version, c, entry, rfl, hparse, hentry, hfailed⟩

/-- **Recovery.**  Any number of runs over one source, each killed anywhere, under any faults; then a
    run on its own while the services work.  If some page from where it resumes has nothing new, it
    ends with exit code 0, and every page before that one is in the table, but for the pages it did
    not visit because a checkpoint counts them as completed and admits that they had a failure. -/
theorem healthy_run_recovers {ι : Type} [DecidableEq ι] (hlisting : listing.Separated pf)
    (hserves : listing.Serves b pf config.sourceUrl)
    {configs : ι → RunConfig} (hsource : ∀ i, (configs i).sourceUrl = config.sourceUrl)
    (hw : Grounded pf listing w₀) (hconsistent : Consistent pf w₀)
    {programs : ι → Task Text RunOnceResult}
    (hruns : Lts.PoolRuns (fun _ => Proc.lts b.Step _) w₀ (fun i => (configs i).run pf) w programs)
    (hhealthy : Working healthy pf listing config.sourceUrl)
    (hkey : checkpointKey pf config.checkpointOptions
      (pf.withoutUserinfo config.sourceUrl) = .ok key)
    (hmax : config.maxPages = none) (hconcurrency : 0 < config.concurrency)
    (hstop : IsLeast (exhausted pf listing w (startPageIn pf key w)) stop) :
    Proc.Ends healthy.Step (fun r w' => ∃ result, r = .ok result ∧ result.exitCode = 0 ∧
      ∀ page, 1 ≤ page → page < stop →
        (∀ candidate ∈ listing.page page, ∃ row ∈ w'.staging,
          row.identity = rowIdentity pf candidate (listing.content candidate)) ∨
        page < startPageIn pf key w ∧ ∃ version c entry, w.current key = some version ∧
          parseCheckpoint pf version.body = some c ∧
          c.pages.lookup (toString page) = some entry ∧ 0 < entry.counts.failed) w
      (config.run pf) := by
  obtain ⟨hgrounded, horderly⟩ := orderly_of_poolRuns hlisting hserves hsource hw hconsistent hruns
  refine (ends_run_harvested hlisting hhealthy horderly hkey hmax hconcurrency hstop).imp ?_
  rintro r w' ⟨result, rfl, hexit, _, _, hharvested⟩
  refine ⟨result, rfl, hexit, fun page hpos hlt => ?_⟩
  rcases Nat.lt_or_ge page (startPageIn pf key w) with hbefore | hfrom
  · refine (hgrounded.skipped_page hpos hbefore).imp (fun hcovered candidate hmem => ?_)
      fun hentry => ⟨hbefore, hentry⟩
    obtain ⟨row, hrow, hidentity⟩ := hcovered candidate hmem
    exact (hharvested.rows _).2 (Or.inl ⟨row, hrow, hidentity⟩)
  · exact Or.inl fun candidate hmem =>
      (hharvested.rows _).2 (Or.inr ⟨page, candidate, hfrom, hlt, hmem, rfl⟩)

end Recovery

/-! ## One replay, on page 1 of 1 -/

section Toy

theorem working_oneReplay :
    Working (toyListing.services : Backend (Option Json)) toyPlatform oneReplay toyConfig.sourceUrl
    where
  bytes := rfl
  raw := rfl
  staging := rfl
  checkpointGet := rfl
  answers w e := ⟨_, _, toyListing.step_services (fun _ => ⟨[7], rfl⟩) w e⟩
  listed input page r hurl hreport := by
    obtain rfl : r = .ok (okReport _) := hreport
    exact ⟨_, rfl, rfl, serves_oneReplay.listed input page _ hurl rfl rfl⟩
  served candidate hcandidate := by
    rw [lists_oneReplay hcandidate]
    exact ⟨_, rfl, fun bytes hserved => (Except.ok.inj hserved).symm⟩

/-- Over an empty table, page 1 is new and page 2 is not. -/
theorem exhausted_oneReplay {w : World (Option Json)} (hempty : w.staging = [])
    (hstart : startPageIn toyPlatform toyKey w = 1) :
    IsLeast (exhausted toyPlatform oneReplay w (startPageIn toyPlatform toyKey w)) 2 := by
  rw [hstart]
  constructor
  · refine ⟨by decide, ?_⟩
    rintro identity ⟨candidate, hmem, _⟩
    cases hmem
  · rintro page ⟨hle, hsub⟩
    by_contra hlt
    obtain rfl : page = 1 := by omega
    obtain ⟨row, hrow, _⟩ | ⟨earlier, _, hfirst, hbefore, _⟩ :=
      hsub ⟨toyCandidate, List.mem_singleton_self _, rfl⟩
    · rw [hempty] at hrow
      cases hrow
    · omega

theorem healthy_run_harvests_one : 0 < toyConfig.concurrency ∧
    Proc.Ends (toyListing.services : Backend (Option Json)).Step (fun r w' => ∃ result,
      r = .ok result ∧ result.exitCode = 0 ∧ result.summary.status = some .complete ∧
      result.summary.ok = true ∧
      (∀ identity, (∃ row ∈ w'.staging, row.identity = identity) ↔ identity ∈
        knownRows toyPlatform oneReplay emptyWorld (startPageIn toyPlatform toyKey emptyWorld) 2) ∧
      ∀ row ∈ w'.staging, (w'.raw row.objectKey).isSome = true) emptyWorld
      (toyConfig.run toyPlatform) := by
  have horderly : Orderly toyPlatform oneReplay emptyWorld :=
    ⟨grounded_emptyWorld.stocked, fun _ hrow => by cases hrow⟩
  exact ⟨by decide, healthy_run_harvests separated_oneReplay working_oneReplay horderly
    checkpointKey_toyConfig rfl (by decide) (exhausted_oneReplay rfl rfl)⟩

/-- A run killed between the PUT and the INSERT, and a run after it. -/
theorem healthy_run_recovers_one : (toyRunFrom 12 emptyWorld).1.staging = [] ∧
    Proc.Ends (toyListing.services : Backend (Option Json)).Step (fun r w' => ∃ result,
      r = .ok result ∧ result.exitCode = 0 ∧ ∀ page, 1 ≤ page → page < 2 →
        (∀ candidate ∈ oneReplay.page page, ∃ row ∈ w'.staging,
          row.identity = rowIdentity toyPlatform candidate (oneReplay.content candidate)) ∨
        page < startPageIn toyPlatform toyKey (toyRunFrom 12 emptyWorld).1 ∧ ∃ version c entry,
          (toyRunFrom 12 emptyWorld).1.current toyKey = some version ∧
          parseCheckpoint toyPlatform version.body = some c ∧
          c.pages.lookup (toString page) = some entry ∧ 0 < entry.counts.failed)
      (toyRunFrom 12 emptyWorld).1 (toyConfig.run toyPlatform) := by
  have hkilled : Lts.PoolRuns (fun _ : Unit => Proc.lts (toyListing.services :
      Backend (Option Json)).Step _) emptyWorld (fun _ => toyConfig.run toyPlatform) _ _ :=
    Lts.PoolRuns.of_runs () (runs_toyRunFrom 12 emptyWorld)
  have hconfigs : ∀ _ : Unit, toyConfig.sourceUrl = toyConfig.sourceUrl := fun _ => rfl
  have hempty : (toyRunFrom 12 emptyWorld).1.staging = [] := rfl
  exact ⟨hempty, healthy_run_recovers separated_oneReplay serves_oneReplay hconfigs
    grounded_emptyWorld consistent_emptyWorld hkilled working_oneReplay checkpointKey_toyConfig rfl
    (by decide) (exhausted_oneReplay hempty rfl)⟩

end Toy

end ReplaysFetcher
