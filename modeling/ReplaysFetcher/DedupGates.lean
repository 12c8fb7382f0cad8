/-
  The dedup gates lose nothing.

  The watch cycle asks the staging table twice whether a candidate is there already: in discovery,
  before its detail page is fetched, and in the fan-out, before its bytes are.  Two things are shown
  about the two gates.

  1. They change nothing.  A page is discovered and ingested in order, once with both gates and once
     without: the staging tables come out alike.  The two runs are related step by step by
     `Related`: the same rows, and the gated side may still lack a raw object, which is then the one
     it would write itself.  This is the one place where SHA-256 collisions among the contents
     served matter: a colliding object would be missing on one side and in the way on the other.
  2. They are never early.  When a gate skips a candidate, whatever else writes rows, the INSERT the
     payload builder would make of it adds nothing, then and ever after.  The two gates and the
     payload builder agree on the id because a trustworthy id is used as it is.
-/
import ReplaysFetcher.Discovery
import ReplaysFetcher.Sequential

namespace ReplaysFetcher

open Effectful

variable {Text : Type}

/-! ## One page of the watch cycle -/

/-- The list page of a cycle, once it has been read. -/
structure ListPage where
  fixture : Option SourceFixture := none
  page : ℕ := 1
  pageUrl : Url
  sourceText : String

section Page

variable {pf : Platform Text} (html : HtmlReader pf) (bucket runId : String)

def fetchTextRequest (url : Url) : Task Text String := Proc.perform (Effect.fetchText url)

/-- The wiring of discovery; `gated` is how the watch cycle calls it. -/
def watchDiscovery (gated : Bool) (list : ListPage) : DiscoverPageInput (Effect Text) Reply where
  existsBySourceIdentity := if gated then some existsBySourceIdentity else none
  fetchText := fetchTextRequest
  fixture := list.fixture
  page := list.page
  pageUrl := list.pageUrl
  sourceSystem := if gated then some defaultSourceSystem else none
  sourceText := list.sourceText

/-- The wiring of the fan-out, one candidate at a time. -/
def watchIngest (pf : Platform Text) (gated : Bool) (candidates : List ReplayCandidate) :
    IngestPageInput (Effect Text) Reply where
  candidates := candidates
  existsBySourceIdentity := if gated then some existsBySourceIdentity else none
  limit := 1
  prefetchDedup := if gated then some true else none
  runId := runId
  sourceSystem := if gated then some defaultSourceSystem else none
  stageRawReplay := stageRawReplay pf
  storeRawReplay := storeRawReplay pf bucket

/-- Discover the page, then ingest what was discovered. -/
def processPage (gated : Bool) (list : ListPage) : Task Text IngestPageResult := do
  let report ← discoverPageCandidates html (watchDiscovery gated list)
  ingestPage (watchIngest bucket runId pf gated report.candidates)

end Page

/-! ## What the gates ask -/

/-- Is the id trustworthy, and is there a row under it? -/
def Stores.sourceStaged (s : Stores) (externalId : Option String) : Bool :=
  isTrustworthyId externalId && externalId.any fun id =>
    s.rows.any fun row => row.sourceSystem = defaultSourceSystem && row.sourceReplayId = id

/-- A lookup by source identity, in terms of row identities. -/
theorem isSome_rowBySource (w : World Text) (sourceSystem sourceReplayId : String) :
    (w.rowBySource? sourceSystem sourceReplayId).isSome = w.stores.rows.any fun row =>
      row.sourceSystem = sourceSystem && row.sourceReplayId = sourceReplayId := by
  unfold World.rowBySource? World.stores
  rw [List.isSome_find?, List.any_map]
  rfl

/-- Rows that are there stay there. -/
theorem Stores.sourceStaged_mono {s s' : Stores} (hrows : ∀ row ∈ s.rows, row ∈ s'.rows)
    {externalId : Option String} (h : s.sourceStaged externalId = true) :
    s'.sourceStaged externalId = true := by
  unfold Stores.sourceStaged at h ⊢
  cases externalId with
  | none => cases h
  | some id =>
    rw [Bool.and_eq_true, Option.any_some, List.any_eq_true] at h ⊢
    obtain ⟨htrust, row, hmem, hrow⟩ := h
    exact ⟨htrust, row, hrows row hmem, hrow⟩

/-- A staged source identity is in the way of the INSERT. -/
theorem Stores.occupied_of_sourceStaged {pf : Platform Text} {s : Stores}
    {candidate : ReplayCandidate} (h : s.sourceStaged candidate.source.externalId = true)
    (bytes : Bytes) : s.occupied (rowIdentity pf candidate bytes) = true := by
  have hid : ∀ id, candidate.source.externalId = some id → replayId pf candidate bytes = id :=
    fun id hid => toSourceReplayId_of_some pf hid
  unfold Stores.sourceStaged at h
  cases hext : candidate.source.externalId with
  | none =>
    rw [hext] at h
    cases h
  | some id =>
    rw [hext, Bool.and_eq_true, Option.any_some, List.any_eq_true] at h
    obtain ⟨_, row, hmem, hrow⟩ := h
    unfold Stores.occupied
    rw [List.any_eq_true]
    refine ⟨row, hmem, ?_⟩
    have hsource : row.sameSource (rowIdentity pf candidate bytes) = true := by
      unfold RowIdentity.sameSource rowIdentity
      rw [hid id hext]
      exact hrow
    rw [hsource, Bool.or_true]

/-! ## A page as a function -/

section Pure

variable {pf : Platform Text} (html : HtmlReader pf) (contents : Url → Bytes)
  (texts : Url → String)

/-- The candidate a row yields on a source that serves `texts`. -/
def rowYield (row : ReplayRow) : Option ReplayCandidate :=
  row.source.url.bind fun rowUrl => (pf.parseUrl rowUrl).bind fun detailUrl =>
    rowCandidate html row rowUrl detailUrl (texts detailUrl)

theorem externalId_rowYield {html : HtmlReader pf} {texts : Url → String} {row : ReplayRow}
    {candidate : ReplayCandidate} (h : rowYield html texts row = some candidate) :
    candidate.source.externalId = row.source.externalId := by
  unfold rowYield at h
  obtain ⟨rowUrl, _, h⟩ := Option.bind_eq_some_iff.1 h
  obtain ⟨detailUrl, _, h⟩ := Option.bind_eq_some_iff.1 h
  unfold rowCandidate at h
  obtain ⟨filename, _, rfl⟩ := Option.map_eq_some_iff.1 h
  rfl

/-- The candidates of a page when nothing is skipped. -/
def pageCandidates (list : ListPage) : List ReplayCandidate :=
  match list.fixture with
  | some fixture => (collectFixtureCandidates pf fixture list.pageUrl).candidates
  | none => (collectCandidateDiagnostics
      ((html.extractReplayRows list.sourceText list.page list.pageUrl).filterMap
        (rowYield html texts))).candidates

/-- What one candidate does to the stores, behind the gate or without it. -/
def ingestStep (pf : Platform Text) (contents : Url → Bytes) (gated : Bool) (s : Stores)
    (candidate : ReplayCandidate) : Stores :=
  if gated && s.sourceStaged candidate.source.externalId then s
  else Settling.runAll (actions pf contents candidate) s

end Pure

/-! ## The gated and the ungated stores -/

/-- The key the contents of `url` are stored under. -/
def contentsKey (pf : Platform Text) (contents : Url → Bytes) (url : Url) : String :=
  rawKey (pf.sha256Hex (contents url))

/-- The gated stores `s` against the ungated stores `s'`. -/
structure Related (pf : Platform Text) (contents : Url → Bytes) (s s' : Stores) : Prop where
  rows : s.rows = s'.rows
  raw : ∀ url, s.raw (contentsKey pf contents url) = s'.raw (contentsKey pf contents url) ∨
    (s.raw (contentsKey pf contents url) = none ∧
      s'.raw (contentsKey pf contents url) = some (rawObject pf (contents url)))

section Relation

variable {pf : Platform Text} {contents : Url → Bytes} {s s' : Stores}
  {candidate : ReplayCandidate}

theorem Related.refl (s : Stores) : Related pf contents s s := ⟨rfl, fun _ => Or.inl rfl⟩

theorem storeBytes_self (bytes : Bytes) : (storeBytes pf bytes s).raw (rawKey (pf.sha256Hex bytes)) =
    some ((s.raw (rawKey (pf.sha256Hex bytes))).getD (rawObject pf bytes)) := by
  unfold storeBytes
  cases h : s.raw (rawKey (pf.sha256Hex bytes)) with
  | none => exact Function.update_self ..
  | some object => exact h

theorem storeBytes_of_ne {bytes : Bytes} {key : String} (h : key ≠ rawKey (pf.sha256Hex bytes)) :
    (storeBytes pf bytes s).raw key = s.raw key := by
  unfold storeBytes
  split
  · rfl
  · exact Function.update_of_ne h _ _

/-- Contents without collisions: one key, one content. -/
theorem contents_eq_of_key (hsha : Set.InjOn pf.sha256Hex (Set.range contents)) {url url' : Url}
    (h : contentsKey pf contents url = contentsKey pf contents url') :
    contents url = contents url' :=
  hsha ⟨url, rfl⟩ ⟨url', rfl⟩ (rawKey_injective h)

/-- Storing on both sides. -/
theorem Related.store (h : Related pf contents s s') (url : Url) :
    Related pf contents (storeBytes pf (contents url) s) (storeBytes pf (contents url) s') ∧
      (storeBytes pf (contents url) s).raw (contentsKey pf contents url) =
        (storeBytes pf (contents url) s').raw (contentsKey pf contents url) := by
  have hself : (storeBytes pf (contents url) s).raw (contentsKey pf contents url) =
      (storeBytes pf (contents url) s').raw (contentsKey pf contents url) := by
    unfold contentsKey
    rw [storeBytes_self, storeBytes_self]
    rcases h.raw url with heq | ⟨hnone, hsome⟩
    · unfold contentsKey at heq
      rw [heq]
    · unfold contentsKey at hnone hsome
      rw [hnone, hsome]
      rfl
  refine ⟨⟨?_, fun url' => ?_⟩, hself⟩
  · rw [rows_storeBytes, rows_storeBytes]
    exact h.rows
  · by_cases hkey : contentsKey pf contents url' = contentsKey pf contents url
    · rw [hkey]
      exact Or.inl hself
    · rw [storeBytes_of_ne hkey, storeBytes_of_ne hkey]
      exact h.raw url'

/-- Storing on the ungated side only. -/
theorem Related.store_right (h : Related pf contents s s')
    (hsha : Set.InjOn pf.sha256Hex (Set.range contents)) (url : Url) :
    Related pf contents s (storeBytes pf (contents url) s') := by
  refine ⟨?_, fun url' => ?_⟩
  · rw [rows_storeBytes]
    exact h.rows
  · by_cases hkey : contentsKey pf contents url' = contentsKey pf contents url
    · have hcontents := contents_eq_of_key hsha hkey
      rw [hcontents, hkey]
      unfold contentsKey
      rw [storeBytes_self]
      have hraw := h.raw url
      unfold contentsKey at hraw
      cases hleft : s.raw (rawKey (pf.sha256Hex (contents url))) with
      | none =>
        refine Or.inr ⟨rfl, ?_⟩
        rcases hraw with heq | ⟨_, hsome⟩
        · rw [← heq, hleft]
          rfl
        · rw [hsome]
          rfl
      | some object =>
        rcases hraw with heq | ⟨hnone, _⟩
        · rw [← heq, hleft]
          exact Or.inl rfl
        · rw [hleft] at hnone
          cases hnone
    · rw [storeBytes_of_ne hkey]
      exact h.raw url'

/-- Ingesting on both sides. -/
theorem Related.ingest (h : Related pf contents s s') (url : Url) :
    Related pf contents (ingestBytes pf candidate (contents url) s)
      (ingestBytes pf candidate (contents url) s') := by
  obtain ⟨hstore, hself⟩ := h.store url
  have htrusted : trusted pf (contents url) (storeBytes pf (contents url) s) =
      trusted pf (contents url) (storeBytes pf (contents url) s') := by
    unfold trusted
    exact congrArg (Option.any _) hself
  have hoccupied : ∀ row, (storeBytes pf (contents url) s).occupied row =
      (storeBytes pf (contents url) s').occupied row := by
    intro row
    unfold Stores.occupied
    rw [hstore.rows]
  unfold ingestBytes
  refine ⟨?_, fun url' => ?_⟩
  · unfold stageBytes
    rw [htrusted, hoccupied]
    split
    · show _ ++ _ = _ ++ _
      rw [hstore.rows]
    · exact hstore.rows
  · rw [raw_stageBytes, raw_stageBytes]
    exact hstore.raw url'

/-- Ingesting on the ungated side only, when the source identity is staged. -/
theorem Related.ingest_right (h : Related pf contents s s')
    (hsha : Set.InjOn pf.sha256Hex (Set.range contents)) (url : Url)
    (hstaged : s.sourceStaged candidate.source.externalId = true) :
    Related pf contents s (ingestBytes pf candidate (contents url) s') := by
  have hstore := h.store_right hsha url
  have hoccupied : (storeBytes pf (contents url) s').occupied
      (rowIdentity pf candidate (contents url)) = true := by
    refine Stores.occupied_of_sourceStaged (Stores.sourceStaged_mono ?_ hstaged) _
    intro row hrow
    rw [← hstore.rows]
    exact hrow
  have hfixed : ingestBytes pf candidate (contents url) s' = storeBytes pf (contents url) s' :=
    stageBytes_fixed_iff.2 fun _ => hoccupied
  rw [hfixed]
  exact hstore

/-- A candidate that is skipped on the gated side. -/
theorem Related.step_right (h : Related pf contents s s')
    (hsha : Set.InjOn pf.sha256Hex (Set.range contents))
    (hstaged : s.sourceStaged candidate.source.externalId = true) :
    Related pf contents s (ingestStep pf contents false s' candidate) := by
  unfold ingestStep
  rw [Bool.false_and, if_neg Bool.false_ne_true]
  cases hbytes : candidateBytes pf contents candidate with
  | none =>
    have hactions : actions pf contents candidate = [] := by
      unfold actions
      rw [hbytes]
    rw [hactions]
    exact h
  | some bytes =>
    rw [runAll_actions hbytes]
    obtain ⟨url, _, rfl⟩ := Option.map_eq_some_iff.1 hbytes
    exact h.ingest_right hsha url hstaged

/-- A candidate that reaches the fan-out on both sides. -/
theorem Related.step (h : Related pf contents s s')
    (hsha : Set.InjOn pf.sha256Hex (Set.range contents)) :
    Related pf contents (ingestStep pf contents true s candidate)
      (ingestStep pf contents false s' candidate) := by
  by_cases hstaged : s.sourceStaged candidate.source.externalId = true
  · have hskip : ingestStep pf contents true s candidate = s := if_pos hstaged
    rw [hskip]
    exact h.step_right hsha hstaged
  · have hgated : ingestStep pf contents true s candidate =
        Settling.runAll (actions pf contents candidate) s := if_neg hstaged
    have hplain : ingestStep pf contents false s' candidate =
        Settling.runAll (actions pf contents candidate) s' := if_neg Bool.false_ne_true
    rw [hgated, hplain]
    cases hbytes : candidateBytes pf contents candidate with
    | none =>
      have hactions : actions pf contents candidate = [] := by
        unfold actions
        rw [hbytes]
      rw [hactions]
      exact h
    | some bytes =>
      rw [runAll_actions hbytes, runAll_actions hbytes]
      obtain ⟨url, _, rfl⟩ := Option.map_eq_some_iff.1 hbytes
      exact h.ingest url

theorem rows_ingestStep (gated : Bool) : ∀ row ∈ s.rows,
    row ∈ (ingestStep pf contents gated s candidate).rows := by
  intro row hrow
  unfold ingestStep
  split
  · exact hrow
  · cases hbytes : candidateBytes pf contents candidate with
    | none =>
      have hactions : actions pf contents candidate = [] := by
        unfold actions
        rw [hbytes]
      rw [hactions]
      exact hrow
    | some bytes =>
      rw [runAll_actions hbytes]
      exact grows_ingestBytes.rows row hrow

/-- **The whole page.** The gated side takes the candidates that `keep` lets through, the ungated
    side takes all of them; what is held back is staged. -/
theorem Related.page (hsha : Set.InjOn pf.sha256Hex (Set.range contents))
    (keep : ReplayCandidate → Bool) (candidates : List ReplayCandidate)
    (hkeep : ∀ candidate, keep candidate = false →
      s.sourceStaged candidate.source.externalId = true) (h : Related pf contents s s') :
    Related pf contents ((candidates.filter keep).foldl (ingestStep pf contents true) s)
      (candidates.foldl (ingestStep pf contents false) s') := by
  induction candidates generalizing s s' with
  | nil => exact h
  | cons candidate rest ih =>
    by_cases hk : keep candidate = true
    · rw [List.filter_cons_of_pos hk, List.foldl_cons, List.foldl_cons]
      refine ih (fun other hother => ?_) (h.step hsha)
      exact Stores.sourceStaged_mono (rows_ingestStep true) (hkeep other hother)
    · rw [List.filter_cons_of_neg hk, List.foldl_cons]
      exact ih hkeep (h.step_right hsha (hkeep candidate (eq_false_of_ne_true hk)))

end Relation

/-! ## The programs do what the functions say -/

section Program

variable {pf : Platform Text} {html : HtmlReader pf} {b : Backend Text} {contents : Url → Bytes}
  {texts : Url → String} {w : World Text} {bucket runId : String}

/-- No constraint on the steps. -/
def AnyStep (_ _ : World Text) : Prop := True

/-- Is a candidate with this id let through? -/
def letThrough (gated : Bool) (s : Stores) (externalId : Option String) : Bool :=
  !(gated && s.sourceStaged externalId)

theorem safe_existsBySourceIdentity_alone (hb : HealthyStores b contents)
    (sourceSystem sourceReplayId : String) :
    Proc.Safe b.Step Lts.Alone AnyStep
      (fun r w' => w' = w ∧ r = .ok (w.rowBySource? sourceSystem sourceReplayId).isSome) w
      (existsBySourceIdentity sourceSystem sourceReplayId) := by
  refine Proc.safe_call (fun w' => w' = w) (fun _ _ h hr => by cases hr; exact h) ?_ rfl
  rintro w' rfl r w'' ⟨rfl, rfl | ⟨hfault, _⟩⟩
  · exact ⟨trivial, Proc.safe_pure (fun _ _ h hr => by cases hr; exact h) ⟨rfl, rfl⟩⟩
  · rw [hb.staging] at hfault
    cases hfault

/-- The pre-detail gate, alone. -/
theorem safe_shouldSkipPreDetail_alone (hb : HealthyStores b contents) (gated : Bool)
    (externalId : Option String) :
    Proc.Safe b.Step Lts.Alone AnyStep
      (fun r w' => w' = w ∧ r = .ok (!letThrough gated w.stores externalId)) w
      (shouldSkipPreDetail externalId (if gated then some existsBySourceIdentity else none)
        (if gated then some defaultSourceSystem else none)) := by
  have hpure : ∀ skip, (!letThrough gated w.stores externalId) = skip →
      Proc.Safe b.Step Lts.Alone AnyStep
        (fun r w' => w' = w ∧ r = .ok (!letThrough gated w.stores externalId)) w
        (Proc.pure (.ok skip) : Program Text (Except JsError Bool)) := by
    rintro skip rfl
    exact Proc.safe_pure (fun _ _ h hr => by cases hr; exact h) ⟨rfl, rfl⟩
  unfold letThrough Stores.sourceStaged at hpure ⊢
  unfold shouldSkipPreDetail
  rw [Bool.not_not] at hpure ⊢
  cases gated with
  | false => exact hpure false rfl
  | true =>
    cases externalId with
    | none => exact hpure false rfl
    | some id =>
      show Proc.Safe _ _ _ _ _ (if isTrustworthyId (some id) = true then _ else _)
      by_cases htrust : isTrustworthyId (some id) = true
      · rw [if_pos htrust, htrust]
        refine (safe_existsBySourceIdentity_alone hb defaultSourceSystem id).imp ?_
        rintro r w' ⟨rfl, rfl⟩
        rw [isSome_rowBySource]
        exact ⟨rfl, rfl⟩
      · rw [if_neg htrust]
        refine hpure false ?_
        rw [eq_false_of_ne_true htrust]
        rfl

/-- One row, alone: it adds the candidate it yields, if that is let through. -/
theorem safe_discoverRow_alone (hb : HealthyStores b contents)
    (htexts : ∀ url r, b.pageText url r ↔ r = .ok (texts url)) (gated : Bool) (list : ListPage)
    (acc : RowLoop) (row : ReplayRow)
    (hurl : ∀ url, row.source.url = some url → (pf.parseUrl url).isSome = true) :
    Proc.Safe b.Step Lts.Alone AnyStep
      (fun r w' => w' = w ∧ ∃ acc', r = .ok acc' ∧ acc'.candidates = acc.candidates ++
        (rowYield html texts row).toList.filter fun candidate =>
          letThrough gated w.stores candidate.source.externalId) w
      (discoverRow html (watchDiscovery gated list) acc row) := by
  have hpure : ∀ acc' : RowLoop, acc'.candidates = acc.candidates ++
      ((rowYield html texts row).toList.filter fun candidate =>
        letThrough gated w.stores candidate.source.externalId) →
      Proc.Safe b.Step Lts.Alone AnyStep
        (fun r w' => w' = w ∧ ∃ acc', r = .ok acc' ∧ acc'.candidates = acc.candidates ++
          (rowYield html texts row).toList.filter fun candidate =>
            letThrough gated w.stores candidate.source.externalId) w
        (Proc.pure (.ok acc') : Program Text (Except JsError RowLoop)) := fun acc' h =>
    Proc.safe_pure (fun _ _ h hr => by cases hr; exact h) ⟨rfl, acc', rfl, h⟩
  unfold discoverRow
  cases hrow : row.source.url with
  | none =>
    have hyield : rowYield html texts row = none := by
      unfold rowYield
      rw [hrow]
      rfl
    refine hpure _ ?_
    rw [hyield]
    exact (List.append_nil _).symm
  | some rowUrl =>
    obtain ⟨detailUrl, hparse⟩ := Option.isSome_iff_exists.1 (hurl rowUrl hrow)
    have hyield : rowYield html texts row =
        rowCandidate html row rowUrl detailUrl (texts detailUrl) := by
      unfold rowYield
      rw [hrow, Option.bind_some, hparse, Option.bind_some]
    refine Async.safe_bind (fun skip w' => w' = w ∧
        skip = !letThrough gated w.stores row.source.externalId)
      ((safe_shouldSkipPreDetail_alone hb gated row.source.externalId).imp ?_) ?_
    · rintro r w' ⟨rfl, rfl⟩
      exact ⟨rfl, rfl⟩
    · rintro skip w' ⟨rfl, rfl⟩
      cases hlet : letThrough gated w'.stores row.source.externalId with
      | false =>
        -- the row is passed over, and so would its candidate be
        refine hpure _ ?_
        have hnone : ((rowYield html texts row).toList.filter fun candidate =>
            letThrough gated w'.stores candidate.source.externalId) = [] := by
          rw [List.filter_eq_nil_iff]
          intro candidate hmem
          rw [externalId_rowYield (Option.mem_toList.1 hmem), hlet]
          exact Bool.false_ne_true
        rw [hnone]
        exact (List.append_nil _).symm
      | true =>
        have hall : ((rowYield html texts row).toList.filter fun candidate =>
            letThrough gated w'.stores candidate.source.externalId) =
            (rowYield html texts row).toList := by
          rw [List.filter_eq_self]
          intro candidate hmem
          rw [externalId_rowYield (Option.mem_toList.1 hmem), hlet]
        show Proc.Safe _ _ _ _ _ (discoverRowCandidate html (watchDiscovery gated list) row rowUrl
          >>= _ : Task Text RowLoop)
        refine Async.safe_bind (fun candidate w'' => w'' = w' ∧ candidate = rowYield html texts row)
          ?_ ?_
        · unfold discoverRowCandidate newUrl
          rw [hparse]
          refine Async.safe_bind (fun url w'' => w'' = w' ∧ url = detailUrl)
            (Proc.safe_pure (fun _ _ h hr => by cases hr; exact h) ⟨rfl, rfl⟩) ?_
          rintro url w'' ⟨hw'', hurl'⟩
          rw [hw'', hurl']
          refine Async.safe_bind (fun text w'' => w'' = w' ∧ text = texts detailUrl)
            (Proc.safe_call (fun w'' => w'' = w') (fun _ _ h hr => by cases hr; exact h) ?_ rfl) ?_
          · rintro w'' rfl r _ ⟨rfl, hr⟩
            rw [htexts] at hr
            subst hr
            exact ⟨trivial, Proc.safe_pure (fun _ _ h hr => by cases hr; exact h) ⟨rfl, rfl⟩⟩
          · rintro _ _ ⟨rfl, rfl⟩
            exact Proc.safe_pure (fun _ _ h hr => by cases hr; exact h) ⟨rfl, hyield.symm⟩
        · rintro candidate _ ⟨rfl, rfl⟩
          refine hpure _ ?_
          rw [hall]
          cases rowYield html texts row with
          | none => exact (List.append_nil _).symm
          | some candidate => rfl

/-- All rows, alone. -/
theorem safe_discoverRows_alone (hb : HealthyStores b contents)
    (htexts : ∀ url r, b.pageText url r ↔ r = .ok (texts url)) (gated : Bool) (list : ListPage)
    (acc : RowLoop) (rows : List ReplayRow) (hurls : ∀ row ∈ rows, ∀ url,
      row.source.url = some url → (pf.parseUrl url).isSome = true) :
    Proc.Safe b.Step Lts.Alone AnyStep
      (fun r w' => w' = w ∧ ∃ acc', r = .ok acc' ∧ acc'.candidates = acc.candidates ++
        (rows.filterMap (rowYield html texts)).filter fun candidate =>
          letThrough gated w.stores candidate.source.externalId) w
      (discoverRows html (watchDiscovery gated list) acc rows) := by
  induction rows generalizing acc with
  | nil =>
    refine Proc.safe_pure (fun _ _ h hr => by cases hr; exact h) ⟨rfl, acc, rfl, ?_⟩
    exact (List.append_nil _).symm
  | cons row rows ih =>
    unfold discoverRows
    refine Async.safe_bind (fun acc' w' => w' = w ∧ acc'.candidates = acc.candidates ++
        (rowYield html texts row).toList.filter fun candidate =>
          letThrough gated w.stores candidate.source.externalId)
      ((safe_discoverRow_alone hb htexts gated list acc row
        (hurls row List.mem_cons_self)).imp ?_) ?_
    · rintro r w' ⟨rfl, acc', rfl, h⟩
      exact ⟨rfl, h⟩
    · rintro acc' _ ⟨rfl, hacc⟩
      refine (ih acc' fun other hmem => hurls other (List.mem_cons_of_mem row hmem)).imp ?_
      rintro r w' ⟨rfl, acc'', rfl, h⟩
      refine ⟨rfl, acc'', rfl, ?_⟩
      rw [h, hacc, List.append_assoc, ← List.filter_append]
      cases hyield : rowYield html texts row with
      | none => rw [List.filterMap_cons_none hyield]; rfl
      | some candidate => rw [List.filterMap_cons_some hyield]; rfl

/-- Discovery, alone: the candidates of the page, less some that are staged. -/
theorem safe_discoverPage_alone (hb : HealthyStores b contents)
    (htexts : ∀ url r, b.pageText url r ↔ r = .ok (texts url)) (gated : Bool) (list : ListPage) :
    Proc.Safe b.Step Lts.Alone AnyStep
      (fun r w' => w' = w ∧ ∃ report keep, r = .ok report ∧
        report.candidates = (pageCandidates html texts list).filter keep ∧
        ∀ candidate, keep candidate = false →
          letThrough gated w.stores candidate.source.externalId = false) w
      (discoverPageCandidates html (watchDiscovery gated list)) := by
  unfold discoverPageCandidates pageCandidates
  show Proc.Safe _ _ _ _ _ (match list.fixture with | some fixture => _ | none => _)
  cases list.fixture with
  | some fixture =>
    -- a fixture page is never gated
    refine Proc.safe_pure (fun _ _ h hr => by cases hr; exact h)
      ⟨rfl, _, fun _ => true, rfl, ?_, fun _ h => by cases h⟩
    exact (List.filter_eq_self.2 fun _ _ => rfl).symm
  | none =>
    refine Async.safe_bind (fun acc w' => w' = w ∧ acc.candidates =
        ((html.extractReplayRows list.sourceText list.page list.pageUrl).filterMap
          (rowYield html texts)).filter fun candidate =>
            letThrough gated w.stores candidate.source.externalId)
      ((safe_discoverRows_alone hb htexts gated list {} _
        (html.parse_rowUrl list.sourceText list.page list.pageUrl)).imp ?_) ?_
    · rintro r w' ⟨rfl, acc, rfl, h⟩
      exact ⟨rfl, h⟩
    · rintro acc _ ⟨rfl, hacc⟩
      refine Proc.safe_pure (fun _ _ h hr => by cases hr; exact h)
        ⟨rfl, _, fun candidate => letThrough gated _ candidate.source.externalId, rfl, ?_,
          fun _ h => h⟩
      show (collectCandidateDiagnostics acc.candidates).candidates = _
      rw [hacc]
      exact collectCandidateDiagnostics_filter _ _

/-- One candidate of the fan-out, alone. -/
theorem safe_ingestCandidate_alone (hb : HealthyStores b contents) (gated : Bool)
    (candidates : List ReplayCandidate) (candidate : ReplayCandidate) :
    Proc.Safe b.Step Lts.Alone AnyStep
      (fun _ w' => w'.stores = ingestStep pf contents gated w.stores candidate) w
      (ingestCandidate (watchIngest bucket runId pf gated candidates) candidate) := by
  have hprocess : Proc.Safe b.Step Lts.Alone AnyStep
      (fun _ w' => w'.stores = Settling.runAll (actions pf contents candidate) w.stores) w
      (processCandidate (watchIngest bucket runId pf gated candidates) candidate) :=
    (safe_processCandidate_alone hb _ rfl rfl rfl).weaken (fun _ _ h => h) (fun _ _ _ => trivial)
      (fun _ _ h => h.1)
  have hungated : (gated && w.stores.sourceStaged candidate.source.externalId) = false →
      Proc.Safe b.Step Lts.Alone AnyStep
        (fun _ w' => w'.stores = ingestStep pf contents gated w.stores candidate) w
        (processCandidate (watchIngest bucket runId pf gated candidates) candidate) := by
    intro hfree
    have hstep : ingestStep pf contents gated w.stores candidate =
        Settling.runAll (actions pf contents candidate) w.stores := by
      unfold ingestStep
      rw [hfree]
      rfl
    rw [hstep]
    exact hprocess
  unfold ingestCandidate
  cases gated with
  | false => exact hungated rfl
  | true =>
    cases hext : candidate.source.externalId with
    | none =>
      have hgate : prefetchGate (watchIngest bucket runId pf true candidates) candidate = none := by
        unfold prefetchGate
        rw [hext]
        rfl
      rw [hext] at hungated
      rw [hgate]
      exact hungated rfl
    | some id =>
      have hgate : prefetchGate (watchIngest bucket runId pf true candidates) candidate =
          if isTrustworthyId (some id) then some (existsBySourceIdentity defaultSourceSystem id)
          else none := by
        unfold prefetchGate
        rw [hext]
        rfl
      rw [hext] at hungated
      rw [hgate]
      by_cases htrust : isTrustworthyId (some id) = true
      · rw [if_pos htrust]
        refine Async.safe_bind (fun found w' => w' = w ∧
            found = w.stores.sourceStaged (some id))
          ((safe_existsBySourceIdentity_alone hb _ id).imp ?_) ?_
        · rintro r w' ⟨rfl, rfl⟩
          rw [isSome_rowBySource]
          unfold Stores.sourceStaged
          rw [htrust]
          exact ⟨rfl, rfl⟩
        · rintro found w' ⟨rfl, hfound⟩
          cases found with
          | true =>
            refine Proc.safe_pure (fun _ _ h hr => by cases hr; exact h) ?_
            unfold ingestStep
            rw [hext, ← hfound]
            rfl
          | false => exact hungated (by rw [← hfound]; rfl)
      · rw [if_neg htrust]
        refine hungated ?_
        unfold Stores.sourceStaged
        rw [eq_false_of_ne_true htrust]
        rfl

/-- The fan-out, alone. -/
theorem safe_watchIngest_alone (hb : HealthyStores b contents) (gated : Bool)
    (candidates : List ReplayCandidate) :
    Proc.Safe b.Step Lts.Alone AnyStep
      (fun _ w' => w'.stores = candidates.foldl (ingestStep pf contents gated) w.stores) w
      (ingestPage (watchIngest bucket runId pf gated candidates)) := by
  rw [ingestPage_eq]
  refine Proc.safe_fan_one
    (fun m w' => w'.stores = (candidates.take m).foldl (ingestStep pf contents gated) w.stores)
    (fun _ _ => True) (fun _ => trivial) (fun _ _ _ h hr => by cases hr; exact h) ?_ ?_ rfl
  · intro i w' hQ
    have htake : candidates.take (i + 1) = candidates.take i ++ [candidates.get i] :=
      List.take_succ_eq_append_getElem i.isLt
    refine (safe_ingestCandidate_alone hb gated candidates (candidates.get i)).imp ?_
    intro v w'' hw''
    refine ⟨?_, trivial⟩
    rw [htake, List.foldl_append, ← hQ]
    exact hw''
  · intro vs w' hQ _
    refine Proc.safe_pure (fun _ _ h hr => by cases hr; exact h) ?_
    rwa [show (watchIngest bucket runId pf gated candidates).candidates.length =
      candidates.length from rfl, List.take_length] at hQ

/-- A page, alone: the stores after the candidates that were let through. -/
theorem safe_processPage_alone (hb : HealthyStores b contents)
    (htexts : ∀ url r, b.pageText url r ↔ r = .ok (texts url)) (gated : Bool) (list : ListPage) :
    Proc.Safe b.Step Lts.Alone AnyStep
      (fun _ w' => ∃ keep : ReplayCandidate → Bool,
        (∀ candidate, keep candidate = false →
          letThrough gated w.stores candidate.source.externalId = false) ∧
        w'.stores = ((pageCandidates html texts list).filter keep).foldl
          (ingestStep pf contents gated) w.stores) w
      (processPage html bucket runId gated list) := by
  refine Async.safe_bind (fun report w' => w' = w ∧ ∃ keep,
      report.candidates = (pageCandidates html texts list).filter keep ∧
      ∀ candidate, keep candidate = false →
        letThrough gated w.stores candidate.source.externalId = false)
    ((safe_discoverPage_alone hb htexts gated list).imp ?_) ?_
  · rintro r w' ⟨rfl, report, keep, rfl, hreport, hkeep⟩
    exact ⟨rfl, keep, hreport, hkeep⟩
  · rintro report w' ⟨rfl, keep, hreport, hkeep⟩
    refine (safe_watchIngest_alone hb gated report.candidates).imp fun v w'' hw'' => ?_
    rw [hreport] at hw''
    exact ⟨keep, hkeep, hw''⟩

end Program

/-! ## A skip is never early -/

section Skip

variable {b : Backend Text} {w w' w'' : World Text}

/-- A staging INSERT of `payload`, sent in `w`, adds no row, whatever is answered. -/
def InsertAddsNothing (b : Backend Text) (w : World Text) (payload : IngestStagingPayload) : Prop :=
  ∀ r w', b.Step w (.insertStaging payload) r w' → w'.staging = w.staging

theorem insertAddsNothing_of_row {payload : IngestStagingPayload} {row : StagingRow}
    (hmem : row ∈ w.staging) (hsystem : row.sourceSystem = payload.sourceSystem)
    (hid : row.sourceReplayId = payload.sourceReplayId) : InsertAddsNothing b w payload := by
  have hsome : (w.rowBySource? payload.sourceSystem payload.sourceReplayId).isSome = true := by
    unfold World.rowBySource?
    rw [List.isSome_find?, List.any_eq_true]
    exact ⟨row, hmem, by rw [hsystem, hid, decide_eq_true rfl, decide_eq_true rfl]; rfl⟩
  rintro r w' (h | ⟨_, rfl, _⟩)
  · rw [if_pos hsome] at h
    split at h
    · rw [h.1]
    · rw [h.1]
  · rfl

/-- Nobody deletes a row. -/
def RowsKept (w w' : World Text) : Prop := ∀ row ∈ w.staging, row ∈ w'.staging

/-- The program `p` skips only candidates of this source identity that are staged: once it has
    resolved with `skip`, no INSERT built for such a candidate adds a row, then or later. -/
def SkipsOnlyStaged {α : Type} (pf : Platform Text) (b : Backend Text) (sourceSystem : Option String)
    (externalId : Option String) (p : Program Text α) (skip : α) : Prop :=
  ∀ rely : World Text → World Text → Prop, (∀ w w', rely w w' → RowsKept w w') →
    ∀ w w', (Proc.lts b.Step α).Runs rely w p w' (.pure skip) → ∀ w'', RowsKept w' w'' →
      ∀ evidence payload runId, evidence.source.externalId = externalId →
        toIngestStagingPayload pf evidence runId sourceSystem = .ok payload →
        InsertAddsNothing b w'' payload

/-- The lookup says yes only when there is a row, and it stays. -/
theorem safe_existsBySourceIdentity {rely : World Text → World Text → Prop}
    (hrely : ∀ w w', rely w w' → RowsKept w w') (sourceSystem sourceReplayId : String) :
    Proc.Safe b.Step rely AnyStep
      (fun r w => r = .ok true → ∃ row ∈ w.staging,
        row.sourceSystem = sourceSystem ∧ row.sourceReplayId = sourceReplayId) w
      (existsBySourceIdentity sourceSystem sourceReplayId) := by
  refine Proc.safe_call (fun _ => True) (fun _ _ _ _ => trivial) ?_ trivial
  rintro w - r w' ⟨rfl, hr⟩
  refine ⟨trivial, Proc.safe_pure ?_ ?_⟩
  · intro w w' h hkept hok
    obtain ⟨row, hmem, hrow⟩ := h hok
    exact ⟨row, hrely _ _ hkept row hmem, hrow⟩
  · rintro rfl
    rcases hr with hr | ⟨_, e, _, hr⟩
    · have hsome := Except.ok.inj hr
      unfold World.rowBySource? at hsome
      rw [List.isSome_find?, eq_comm, List.any_eq_true] at hsome
      obtain ⟨row, hmem, hrow⟩ := hsome
      rw [Bool.and_eq_true, decide_eq_true_eq, decide_eq_true_eq] at hrow
      exact ⟨row, hmem, hrow⟩
    · cases hr

/-- The payload builder stages a given external id under itself. -/
theorem identity_of_toIngestStagingPayload {pf : Platform Text}
    {evidence : RawReplayStorageEvidence} {payload : IngestStagingPayload} {runId : Option String}
    {sourceSystem : Option String} {id : String} (hid : evidence.source.externalId = some id)
    (h : toIngestStagingPayload pf evidence runId sourceSystem = .ok payload) :
    payload.sourceSystem = sourceSystem.getD defaultSourceSystem ∧ payload.sourceReplayId = id := by
  unfold toIngestStagingPayload at h
  split at h
  · cases h
    exact ⟨rfl, toSourceReplayId_of_some pf hid⟩
  · cases h

/-- From a row that is kept to the claim about later INSERTs. -/
theorem insertAddsNothing_later {pf : Platform Text} {evidence : RawReplayStorageEvidence}
    {payload : IngestStagingPayload} {runId sourceSystem : Option String} {id : String}
    (hrow : ∃ row ∈ w'.staging, row.sourceSystem = sourceSystem.getD defaultSourceSystem ∧
      row.sourceReplayId = id) (hkept : RowsKept w' w'')
    (hid : evidence.source.externalId = some id)
    (h : toIngestStagingPayload pf evidence runId sourceSystem = .ok payload) :
    InsertAddsNothing b w'' payload := by
  obtain ⟨row, hmem, hsystem, hrowId⟩ := hrow
  obtain ⟨hpayloadSystem, hpayloadId⟩ := identity_of_toIngestStagingPayload hid h
  exact insertAddsNothing_of_row (hkept row hmem) (hsystem.trans hpayloadSystem.symm)
    (hrowId.trans hpayloadId.symm)

/-- The pre-detail gate. -/
theorem skipsOnlyStaged_preDetail (pf : Platform Text) (b : Backend Text)
    (externalId sourceSystem : Option String) :
    SkipsOnlyStaged pf b sourceSystem externalId
      (shouldSkipPreDetail externalId (some existsBySourceIdentity) sourceSystem) (.ok true) := by
  intro rely hrely w w' hruns w'' hkept evidence payload runId hid hpayload
  have hsafe : Proc.Safe b.Step rely AnyStep
      (fun r w => r = .ok true → ∃ id, externalId = some id ∧ ∃ row ∈ w.staging,
        row.sourceSystem = sourceSystem.getD defaultSourceSystem ∧ row.sourceReplayId = id) w
      (shouldSkipPreDetail externalId (some existsBySourceIdentity) sourceSystem) := by
    have hfalse : Proc.Safe b.Step rely AnyStep
        (fun r w => r = .ok true → ∃ id, externalId = some id ∧ ∃ row ∈ w.staging,
          row.sourceSystem = sourceSystem.getD defaultSourceSystem ∧ row.sourceReplayId = id) w
        (Proc.pure (.ok false) : Program Text (Except JsError Bool)) :=
      Proc.safe_pure (fun _ _ _ _ hok => by cases hok) fun hok => by cases hok
    unfold shouldSkipPreDetail
    cases sourceSystem with
    | none => exact hfalse
    | some sourceSystem =>
      cases externalId with
      | none => exact hfalse
      | some id =>
        dsimp only
        split
        · exact (safe_existsBySourceIdentity hrely sourceSystem id).imp
            fun r w h hok => ⟨id, rfl, h hok⟩
        · exact hfalse
  obtain ⟨id, rfl, hrow⟩ := Proc.Safe.of_run hsafe hruns rfl
  exact insertAddsNothing_later hrow hkept hid hpayload

/-- The pre-fetch gate. -/
theorem skipsOnlyStaged_prefetch (pf : Platform Text) (b : Backend Text)
    (input : IngestPageInput (Effect Text) Reply)
    (hexists : input.existsBySourceIdentity = some existsBySourceIdentity)
    (candidate : ReplayCandidate) :
    SkipsOnlyStaged pf b input.sourceSystem candidate.source.externalId
      (ingestCandidate input candidate) (.ok .skipped) := by
  intro rely hrely w w' hruns w'' hkept evidence payload runId hid hpayload
  let Staged : World Text → Prop := fun w => ∃ id, candidate.source.externalId = some id ∧
    ∃ row ∈ w.staging, row.sourceSystem = input.sourceSystem.getD defaultSourceSystem ∧
      row.sourceReplayId = id
  have hstable : ∀ (r : Except JsError SettledCandidate) w w', (r = .ok .skipped → Staged w) →
      rely w w' → r = .ok .skipped → Staged w' := by
    intro r w w' h hr hok
    obtain ⟨id, hid, row, hmem, hrow⟩ := h hok
    exact ⟨id, hid, row, hrely _ _ hr row hmem, hrow⟩
  -- processing never resolves with `skipped`
  have hprocess : ∀ w, Proc.Safe b.Step rely AnyStep (fun r w => r = .ok .skipped → Staged w) w
      (processCandidate input candidate) := by
    intro w
    refine Async.safe_bind (fun _ _ => True) ((Proc.safe_any (fun _ _ => trivial) _).imp ?_)
      fun rawResult w _ => ?_
    · intro r w _
      cases r with
      | ok _ => trivial
      | error _ => exact fun hok => by cases hok
    · refine Async.safe_bind (fun _ _ => True) ((Proc.safe_any (fun _ _ => trivial) _).imp ?_)
        fun stagingResult w _ => ?_
      · intro r w _
        cases r with
        | ok _ => trivial
        | error _ => exact fun hok => by cases hok
      · exact Proc.safe_pure (hstable _) fun hok => by cases hok
  have hsafe : Proc.Safe b.Step rely AnyStep (fun r w => r = .ok .skipped → Staged w) w
      (ingestCandidate input candidate) := by
    unfold ingestCandidate
    cases hgate : prefetchGate input candidate with
    | none => exact hprocess w
    | some gate =>
      unfold prefetchGate at hgate
      rw [hexists] at hgate
      split at hgate
      · rename_i existsBy id _ heq hext
        split at hgate
        · cases heq
          obtain rfl := Option.some.inj hgate
          refine Async.safe_bind (fun found w => found = true → Staged w)
            ((safe_existsBySourceIdentity hrely _ id).imp ?_) ?_
          · intro r w h
            cases r with
            | ok found => exact fun hfound => ⟨id, hext, h (congrArg _ hfound)⟩
            | error _ => exact fun hok => by cases hok
          · intro found w h
            cases found with
            | true => exact Proc.safe_pure (hstable _) fun _ => h rfl
            | false => exact hprocess w
        · cases hgate
      · cases hgate
  obtain ⟨id, hext, hrow⟩ := Proc.Safe.of_run hsafe hruns rfl
  exact insertAddsNothing_later hrow hkept (hid.trans hext) hpayload

end Skip

/-! ## The result -/

/-- **The dedup gates lose nothing.** A page processed in order with both gates on leaves the rows of
    the same page processed with both gates off; and whatever else writes rows meanwhile, a
    candidate that a gate skips is one whose INSERT would add nothing, then and ever after. -/
theorem dedup_gates_lose_nothing {pf : Platform Text} {html : HtmlReader pf} {b : Backend Text}
    {contents : Url → Bytes} {texts : Url → String} (hb : HealthyStores b contents)
    (htexts : ∀ url r, b.pageText url r ↔ r = .ok (texts url))
    (hsha : Set.InjOn pf.sha256Hex (Set.range contents))
    {bucket runId : String} {list : ListPage} {w₀ w w' : World Text}
    {r r' : Except JsError IngestPageResult}
    (hgated : (Proc.lts b.Step _).Runs Lts.Alone w₀ (processPage html bucket runId true list) w
      (.pure r))
    (hplain : (Proc.lts b.Step _).Runs Lts.Alone w₀ (processPage html bucket runId false list) w'
      (.pure r')) :
    w.staging.map StagingRow.identity = w'.staging.map StagingRow.identity ∧
    ∀ (b : Backend Text) (sourceSystem : Option String),
      (∀ row : ReplayRow, SkipsOnlyStaged pf b sourceSystem row.source.externalId
        (shouldSkipPreDetail row.source.externalId (some existsBySourceIdentity) sourceSystem)
        (.ok true)) ∧
      ∀ (input : IngestPageInput (Effect Text) Reply) (candidate : ReplayCandidate),
        input.existsBySourceIdentity = some existsBySourceIdentity →
        input.sourceSystem = sourceSystem →
        SkipsOnlyStaged pf b sourceSystem candidate.source.externalId
          (ingestCandidate input candidate) (.ok .skipped) := by
  refine ⟨?_, fun b sourceSystem => ⟨fun row => skipsOnlyStaged_preDetail pf b _ _, ?_⟩⟩
  · obtain ⟨keep, hkeep, hw⟩ := Proc.Safe.of_run (safe_processPage_alone hb htexts true list) hgated
    obtain ⟨keep', hkeep', hw'⟩ :=
      Proc.Safe.of_run (safe_processPage_alone hb htexts false list) hplain
    -- without the gates every candidate is let through
    have hall : (pageCandidates html texts list).filter keep' = pageCandidates html texts list := by
      rw [List.filter_eq_self]
      intro candidate _
      by_contra hnot
      have hfalse := hkeep' candidate (eq_false_of_ne_true hnot)
      cases hfalse
    rw [hall] at hw'
    have hrefl : Related pf contents w₀.stores w₀.stores := Related.refl w₀.stores
    have hrelated := hrefl.page hsha keep (pageCandidates html texts list) fun candidate hnot => by
      have hlet := hkeep candidate hnot
      unfold letThrough at hlet
      rwa [Bool.true_and, Bool.not_eq_false'] at hlet
    rw [← hw, ← hw'] at hrelated
    exact hrelated.rows
  · rintro input candidate hexists rfl
    exact skipsOnlyStaged_prefetch pf b input hexists candidate

/-! ## One staged row and one new one -/

/-- A list of two rows, the first with an id, the second without. -/
def toyHtml : HtmlReader toyPlatform where
  extractReplayRows _ page _ :=
    [{ metadata := {}, page, source := { externalId := some "1", url := some "a" } },
      { metadata := {}, page, source := { url := some "b" } }]
  extractFilenameFromDetailHtml _ := some "a.ocap"
  toRawReplayUrl filename _ := filename
  parse_rowUrl _ _ _ _ _ _ _ := rfl

/-- The first row is staged already. -/
def toyStagedWorld : World (Option Json) :=
  emptyWorld.addRow
    { id := "0", checksum := "other", objectKey := "other", sourceReplayId := "1"
      sourceSystem := defaultSourceSystem, status := "pending" }

def toyProcess (gated : Bool) :
    World (Option Json) × Program (Option Json) (Except JsError IngestPageResult) :=
  Proc.exec toyScript.serve 20 (toyStagedWorld, processPage toyHtml "bucket" "run" gated
    { pageUrl := { protocol := "https:", host := "a", pathname := "" }, sourceText := "" })

theorem runs_toyProcess (gated : Bool) :
    (Proc.lts toyServices.Step _).Runs Lts.Alone toyStagedWorld
      (processPage toyHtml "bucket" "run" gated
        { pageUrl := { protocol := "https:", host := "a", pathname := "" }, sourceText := "" })
      (toyProcess gated).1 (toyProcess gated).2 :=
  Proc.runs_exec step_toyScript 20 (toyStagedWorld, _)

theorem dedup_gates_lose_nothing_two :
    (toyProcess true).1.staging.map StagingRow.identity =
      (toyProcess false).1.staging.map StagingRow.identity ∧
    (toyProcess true).1.staging.length = 2 := by
  obtain ⟨r, hr⟩ : ∃ r, (toyProcess true).2 = .pure r := ⟨_, rfl⟩
  obtain ⟨r', hr'⟩ : ∃ r, (toyProcess false).2 = .pure r := ⟨_, rfl⟩
  have hgated := runs_toyProcess true
  have hplain := runs_toyProcess false
  rw [hr] at hgated
  rw [hr'] at hplain
  have hb : HealthyStores toyServices fun _ => [7] := ⟨rfl, rfl, rfl, fun _ _ => Iff.rfl⟩
  have hsha : Set.InjOn toyPlatform.sha256Hex (Set.range fun _ : Url => [(7 : UInt8)]) := by
    rintro _ ⟨_, rfl⟩ _ ⟨_, rfl⟩ _
    rfl
  let texts : Url → String := fun _ => ""
  have htexts : ∀ url r, toyServices.pageText url r ↔ r = .ok (texts url) := fun _ _ => Iff.rfl
  exact ⟨(dedup_gates_lose_nothing hb htexts hsha hgated hplain).1, rfl⟩

end ReplaysFetcher
