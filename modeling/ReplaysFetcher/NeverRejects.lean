/-
  What a page can do to a run.

  With healthy storage and staging, whether a page is handled or brings its run down is a property of
  its text (`page_resolves_iff`).  A fixture is handled exactly when no entry is `null`, and every
  entry that is taken for a candidate has a raw URL that is missing, `null` or coerces to a URL, and an
  external id that coerces to a string; under the watch gates the id has to BE a string.  An HTML page
  is handled exactly when the raw URL of every row is the text of a URL, whatever filename its detail
  page has: a link with `%2F` in its user information can make one that is not.

  One direction is a safety proof over every reply of the services.  For the other one services that
  always say yes (`yes`) are enough: with them the candidate at fault gets as far as it can, and
  rejects.
-/
import ReplaysFetcher.Untrusted
import ReplaysFetcher.Effectful.Replies

namespace ReplaysFetcher

open Effectful

namespace Untrusted

variable {Text : Type} {pf : Platform Text} (reader : Reader pf)

/-! ## Entries -/

/-- An entry that is taken for a candidate. -/
structure IsListed (pf : Platform Text) (entry : Json) (filename url : String) : Prop where
  reads_filename : entry.get "filename" = some (.str filename)
  reads_url : entry.get "url" = some (.str url)
  filename_text : isBlank filename = false
  url_text : isBlank url = false
  parse : (pf.parseUrl url).isSome = true

/-- The raw URL is missing, `null`, or coerces to a URL. -/
def UrlUsable (rawUrl : Option Json) : Prop :=
  ∀ value, rawUrl = some value → value ≠ .null →
    ∃ text, toText reader.numberText value = some text ∧ (pf.parseUrl text).isSome = true

/-- The external id is missing or coerces to a string; with the gates on, it is a string. -/
def IdUsable (gated : Bool) (externalId : Option Json) : Prop :=
  ∀ value, externalId = some value →
    (toText reader.numberText value).isSome = true ∧ (gated = true → ∃ text, value = .str text)

/-- An entry that the discovery takes without throwing, and that the page then takes too. -/
structure HarmlessEntry (gated : Bool) (entry : Json) : Prop where
  not_null : entry ≠ .null
  rawUrl : ∀ filename url, IsListed pf entry filename url → UrlUsable reader (entry.get "rawUrl")
  externalId : ∀ filename url, IsListed pf entry filename url →
    IdUsable reader gated (entry.get "externalId")

/-- Whatever filename its detail page has, the raw URL of the row is the text of a URL. -/
def RowUsable (row : ReplayRow) : Prop :=
  ∀ rowUrl detailUrl detailHtml filename, row.source.url = some rowUrl →
    newUrl pf rowUrl = .ok detailUrl →
    reader.extractFilenameFromDetailHtml detailHtml = some filename →
    (pf.parseUrl (reader.toRawReplayUrl filename detailUrl)).isSome = true

/-- **The condition.** -/
structure Harmless (gated : Bool) (sourceUrl : Url) (text : String) : Prop where
  fixture : ∀ entries, parseSourceFixture reader text = some entries →
    ∀ entry ∈ entries, HarmlessEntry reader gated entry
  html : parseSourceFixture reader text = none →
    ∀ row ∈ reader.extractReplayRows text 1 sourceUrl, RowUsable reader row

/-! ## Candidates -/

/-- A candidate that no reply of the services makes reject. -/
structure HarmlessCandidate (gated : Bool) (candidate : Candidate) : Prop where
  url : ∃ url, bytesUrl reader candidate = .ok url
  epoch : ∃ epoch, epochTimestamp reader candidate.source.externalId = .ok epoch
  trusted : gated = true → ∃ trusted, isTrustworthyId candidate.source.externalId = .ok trusted

/-- `new URL` does not throw exactly where there is a URL. -/
theorem newUrl_eq_ok {text : String} : (∃ url, newUrl pf text = .ok url) ↔
    (pf.parseUrl text).isSome = true := by
  unfold newUrl
  cases hparse : pf.parseUrl text with
  | none => exact ⟨fun ⟨_, h⟩ => (by cases h), fun h => (by cases h)⟩
  | some url => exact ⟨fun _ => rfl, fun _ => ⟨url, rfl⟩⟩

/-- The URL of the bytes can be built exactly from a raw URL that is usable. -/
theorem bytesUrl_eq_ok {candidate : Candidate}
    (hurl : (pf.parseUrl candidate.source.url).isSome = true) :
    (∃ url, bytesUrl reader candidate = .ok url) ↔ UrlUsable reader candidate.source.rawUrl := by
  have hparsed := newUrl_eq_ok.2 hurl
  unfold bytesUrl UrlUsable
  match candidate.source.rawUrl with
  | none => exact ⟨fun _ _ h => (by cases h), fun _ => hparsed⟩
  | some .null => exact ⟨fun _ value h hne => absurd (Option.some.inj h).symm hne, fun _ => hparsed⟩
  | some (.bool b) | some (.num q) | some (.str s) | some (.arr elements) | some (.obj fields) =>
    dsimp only
    split
    · -- the value coerces to a text, and the text has to be a URL
      rename_i text htext
      rw [newUrl_eq_ok]
      constructor
      · rintro h value heq _
        cases heq
        exact ⟨text, htext, h⟩
      · intro h
        obtain ⟨text', htext', h'⟩ := h _ rfl (fun hnull => by cases hnull)
        rw [htext] at htext'
        cases htext'
        exact h'
    · rename_i htext
      constructor
      · rintro ⟨_, h⟩
        cases h
      · intro h
        obtain ⟨text', htext', _⟩ := h _ rfl (fun hnull => by cases hnull)
        rw [htext] at htext'
        cases htext'

/-- An id is usable exactly when neither its time nor its trust throws. -/
theorem idUsable_iff {gated : Bool} {externalId : Option Json} :
    ((∃ epoch, epochTimestamp reader externalId = .ok epoch) ∧
      (gated = true → ∃ trusted, isTrustworthyId externalId = .ok trusted)) ↔
      IdUsable reader gated externalId := by
  unfold IdUsable
  match externalId with
  | none => exact ⟨fun _ _ h => (by cases h), fun _ => ⟨⟨_, rfl⟩, fun _ => ⟨_, rfl⟩⟩⟩
  | some (.str s) =>
    constructor
    · rintro _ value h
      cases h
      exact ⟨rfl, fun _ => ⟨s, rfl⟩⟩
    · exact fun _ => ⟨⟨_, rfl⟩, fun _ => ⟨_, rfl⟩⟩
  | some .null | some (.bool b) | some (.num q) | some (.arr elements) | some (.obj fields) =>
    unfold epochTimestamp isTrustworthyId
    dsimp only
    constructor
    · rintro ⟨⟨epoch, hepoch⟩, htrusted⟩ value h
      cases h
      refine ⟨?_, fun hgated => ?_⟩
      · split at hepoch
        · rename_i htext
          rw [htext]
          rfl
        · cases hepoch
      · obtain ⟨_, h⟩ := htrusted hgated
        cases h
    · intro h
      obtain ⟨htext, hgated⟩ := h _ rfl
      refine ⟨?_, fun hg => ?_⟩
      · obtain ⟨text, htext⟩ := Option.isSome_iff_exists.1 htext
        rw [htext]
        exact ⟨_, rfl⟩
      · obtain ⟨_, h⟩ := hgated hg
        cases h

/-- What a candidate's entry is, and that it is harmless when its entry is. -/
structure TakenFrom (pf : Platform Text) (entry : Json) (candidate : Candidate) : Prop where
  listed : ∃ filename, IsListed pf entry filename candidate.source.url
  rawUrl : candidate.source.rawUrl = entry.get "rawUrl"
  externalId : candidate.source.externalId = entry.get "externalId"

/-- `null` has no fields, so reading one throws. -/
theorem toReplayCandidate_null (index : ℕ) (pageUrl : Url) :
    ∃ message, toReplayCandidate pf .null index pageUrl = .error (.error message) := ⟨_, if_pos rfl⟩

/-- Every other entry is reported or taken. -/
theorem toReplayCandidate_ok {entry : Json} (hne : entry ≠ .null) (index : ℕ) (pageUrl : Url) :
    ∃ result, toReplayCandidate pf entry index pageUrl = .ok result := by
  unfold toReplayCandidate
  rw [if_neg hne]
  split
  · split
    · exact ⟨_, rfl⟩
    · exact ⟨_, rfl⟩
  · exact ⟨_, rfl⟩

/-- A listed entry is taken, with its fields. -/
theorem toReplayCandidate_listed {entry : Json} {filename url : String} (hne : entry ≠ .null)
    (h : IsListed pf entry filename url) (index : ℕ) (pageUrl : Url) :
    ∃ candidate, toReplayCandidate pf entry index pageUrl = .ok (.ok candidate) ∧
      TakenFrom pf entry candidate := by
  have hnone : (pf.parseUrl url).isNone = false := by
    rw [Option.isNone_eq_false_iff]
    exact h.parse
  unfold toReplayCandidate
  rw [if_neg hne, h.reads_filename, h.reads_url]
  dsimp only
  rw [if_neg (by rw [h.filename_text, h.url_text, hnone]; decide)]
  exact ⟨_, rfl, ⟨⟨filename, h⟩, rfl, rfl⟩⟩

/-- What is taken has the fields of its entry. -/
theorem takenFrom_of_toReplayCandidate {entry : Json} {index : ℕ} {pageUrl : Url}
    {candidate : Candidate} (h : toReplayCandidate pf entry index pageUrl = .ok (.ok candidate)) :
    entry ≠ .null ∧ TakenFrom pf entry candidate := by
  unfold toReplayCandidate at h
  split at h
  · cases h
  · rename_i hne
    split at h
    · rename_i filename url hfilename hurl
      split at h
      · cases h
      · rename_i hcheck
        rw [Bool.not_eq_true, Bool.or_eq_false_iff, Bool.or_eq_false_iff,
          Option.isNone_eq_false_iff] at hcheck
        obtain ⟨⟨hfilename', hurl'⟩, hparse⟩ := hcheck
        cases h
        exact ⟨hne, ⟨filename, hfilename, hurl, hfilename', hurl', hparse⟩, rfl, rfl⟩
    · cases h

/-- An entry and its candidate are harmless together. -/
theorem TakenFrom.harmless_iff {gated : Bool} {entry : Json} {candidate : Candidate}
    (h : TakenFrom pf entry candidate) :
    HarmlessCandidate reader gated candidate ↔
      UrlUsable reader (entry.get "rawUrl") ∧ IdUsable reader gated (entry.get "externalId") := by
  obtain ⟨filename, hlisted⟩ := h.listed
  rw [← h.rawUrl, ← h.externalId, ← bytesUrl_eq_ok reader hlisted.parse, ← idUsable_iff reader]
  exact ⟨fun hc => ⟨hc.url, hc.epoch, hc.trusted⟩, fun hc => ⟨hc.1, hc.2.1, hc.2.2⟩⟩

/-! ## Fixtures -/

/-- The entries of a fixture without `null` give these candidates. -/
theorem fixtureCandidates_spec (pageUrl : Url) (index : ℕ) (entries : List Json)
    (hnull : Json.null ∉ entries) :
    ∃ candidates diagnostics, fixtureCandidates pf pageUrl index entries =
        .ok (candidates, diagnostics) ∧
      (∀ candidate ∈ candidates, ∃ entry ∈ entries, TakenFrom pf entry candidate) ∧
      ∀ entry ∈ entries, ∀ filename url, IsListed pf entry filename url →
        ∃ candidate ∈ candidates, TakenFrom pf entry candidate := by
  -- the index of a diagnostic counts on, so it varies
  induction entries generalizing index with
  | nil =>
    exact ⟨[], [], rfl, fun _ h => absurd h List.not_mem_nil, fun _ h => absurd h List.not_mem_nil⟩
  | cons entry rest ih =>
    have hne : entry ≠ .null := fun h => hnull (h ▸ List.mem_cons_self)
    obtain ⟨candidates, diagnostics, hrest, hfrom, hto⟩ :=
      ih (index + 1) fun h => hnull (List.mem_cons_of_mem entry h)
    have htail : ∀ candidate ∈ candidates, ∃ e ∈ entry :: rest, TakenFrom pf e candidate := by
      intro candidate hmem
      obtain ⟨e, he, htaken⟩ := hfrom candidate hmem
      exact ⟨e, List.mem_cons_of_mem entry he, htaken⟩
    unfold fixtureCandidates
    rw [hrest]
    obtain ⟨result, hentry⟩ := @toReplayCandidate_ok _ pf _ hne index pageUrl
    rw [hentry]
    cases result with
    -- a listed entry is taken, so this one is not listed
    | error diagnostic =>
      refine ⟨candidates, diagnostic :: diagnostics, rfl, htail, ?_⟩
      intro e he filename url hlisted
      rcases List.mem_cons.1 he with rfl | he
      · obtain ⟨candidate, hcandidate, _⟩ := toReplayCandidate_listed hne hlisted index pageUrl
        rw [hentry] at hcandidate
        cases hcandidate
      · exact hto e he filename url hlisted
    | ok candidate =>
      have htaken := (takenFrom_of_toReplayCandidate hentry).2
      refine ⟨candidate :: candidates, diagnostics, rfl, ?_, ?_⟩
      · intro c hc
        rcases List.mem_cons.1 hc with rfl | hc
        · exact ⟨entry, List.mem_cons_self, htaken⟩
        · exact htail c hc
      · intro e he filename url hlisted
        rcases List.mem_cons.1 he with rfl | he
        · exact ⟨candidate, List.mem_cons_self, htaken⟩
        · obtain ⟨c, hc, htaken⟩ := hto e he filename url hlisted
          exact ⟨c, List.mem_cons_of_mem candidate hc, htaken⟩

/-- One `null` among the entries makes the discovery throw. -/
theorem fixtureCandidates_null (pageUrl : Url) (index : ℕ) (entries : List Json)
    (hnull : Json.null ∈ entries) :
    ∃ message, fixtureCandidates pf pageUrl index entries = .error (.error message) := by
  induction entries generalizing index with
  | nil => exact absurd hnull List.not_mem_nil
  | cons entry rest ih =>
    unfold fixtureCandidates
    by_cases hentry : entry = .null
    · obtain ⟨message, herror⟩ := @toReplayCandidate_null _ pf index pageUrl
      rw [hentry, herror]
      exact ⟨message, rfl⟩
    · have hrest := (List.mem_cons.1 hnull).resolve_left (Ne.symm hentry)
      obtain ⟨message, herror⟩ := ih (index + 1) hrest
      obtain ⟨result, hresult⟩ := @toReplayCandidate_ok _ pf _ hentry index pageUrl
      rw [herror, hresult]
      exact ⟨message, rfl⟩

/-- Dropping repetitions loses no candidate. -/
theorem mem_collectCandidateDiagnostics {candidates : List Candidate} {candidate : Candidate} :
    candidate ∈ (collectCandidateDiagnostics candidates).candidates ↔ candidate ∈ candidates := by
  have hfold : ∀ (candidates : List Candidate) (registry : Registry),
      candidate ∈ (candidates.foldl collectCandidate registry).outputCandidates ↔
        candidate ∈ registry.outputCandidates ∨ candidate ∈ candidates := by
    intro candidates
    induction candidates with
    | nil => exact fun registry => ⟨Or.inl, fun h => h.resolve_right List.not_mem_nil⟩
    | cons first rest ih =>
      intro registry
      rw [List.foldl_cons, ih, List.mem_cons, ← or_assoc]
      refine or_congr_left ?_
      show candidate ∈ (if first ∈ registry.outputCandidates then registry.outputCandidates
        else registry.outputCandidates ++ [first]) ↔ _
      split
      · rename_i hmem
        exact ⟨Or.inl, fun h => h.elim id fun heq => heq ▸ hmem⟩
      · rw [List.mem_append, List.mem_singleton]
  exact (hfold candidates {}).trans ⟨fun h => h.resolve_left List.not_mem_nil, Or.inr⟩

/-- The candidates of a harmless fixture are harmless. -/
theorem collectFixtureCandidates_harmless {gated : Bool} {entries : List Json} (pageUrl : Url)
    (h : ∀ entry ∈ entries, HarmlessEntry reader gated entry) :
    ∃ found, collectFixtureCandidates pf entries pageUrl = .ok found ∧
      ∀ candidate ∈ found.candidates, HarmlessCandidate reader gated candidate := by
  have hnull : Json.null ∉ entries := fun hmem => (h _ hmem).not_null rfl
  obtain ⟨candidates, diagnostics, hfixture, hfrom, _⟩ :=
    @fixtureCandidates_spec _ pf pageUrl 0 entries hnull
  unfold collectFixtureCandidates
  rw [hfixture]
  refine ⟨_, rfl, ?_⟩
  intro candidate hcandidate
  obtain ⟨entry, hentry, htaken⟩ := hfrom candidate (mem_collectCandidateDiagnostics.1 hcandidate)
  obtain ⟨filename, hlisted⟩ := htaken.listed
  exact (htaken.harmless_iff reader).2
    ⟨(h entry hentry).rawUrl _ _ hlisted, (h entry hentry).externalId _ _ hlisted⟩

/-- A fixture that is not harmless is rejected, or has a candidate that is not. -/
theorem collectFixtureCandidates_harmful {gated : Bool} {entries : List Json} (pageUrl : Url)
    (h : ¬ ∀ entry ∈ entries, HarmlessEntry reader gated entry) :
    (∃ message, collectFixtureCandidates pf entries pageUrl = .error (.error message)) ∨
      ∃ found, collectFixtureCandidates pf entries pageUrl = .ok found ∧
        ∃ candidate ∈ found.candidates, ¬ HarmlessCandidate reader gated candidate := by
  unfold collectFixtureCandidates
  by_cases hnull : Json.null ∈ entries
  · obtain ⟨message, herror⟩ := @fixtureCandidates_null _ pf pageUrl 0 entries hnull
    rw [herror]
    exact Or.inl ⟨message, rfl⟩
  · obtain ⟨candidates, diagnostics, hfixture, _, hto⟩ :=
      @fixtureCandidates_spec _ pf pageUrl 0 entries hnull
    rw [hfixture]
    refine Or.inr ⟨_, rfl, ?_⟩
    by_contra hall
    refine h fun entry hentry => ?_
    -- the candidate of the entry is harmless, and so is the entry
    have hharmless : ∀ filename url, IsListed pf entry filename url →
        UrlUsable reader (entry.get "rawUrl") ∧ IdUsable reader gated (entry.get "externalId") := by
      intro filename url hlisted
      obtain ⟨candidate, hcandidate, htaken⟩ := hto entry hentry filename url hlisted
      refine (htaken.harmless_iff reader).1 (not_not.1 fun hnot => hall ?_)
      exact ⟨candidate, mem_collectCandidateDiagnostics.2 hcandidate, hnot⟩
    exact
      { not_null := fun heq => hnull (heq ▸ hentry)
        rawUrl := fun filename url hlisted => (hharmless filename url hlisted).1
        externalId := fun filename url hlisted => (hharmless filename url hlisted).2 }

/-! ## The services -/

/-- What the services may reply while the source sends `text` for its list page: a detail page is
    any text or a failed read, the bytes are there or not, and the repository is up. -/
def Healthy (text : String) : (e : Request) → Answer e → Prop
  | .fetchText _ options, r =>
    match options.phase with
    | .list => r = .ok text
    | _ => (∃ body, r = .ok body) ∨ ∃ failure, r = .error (.sourceFetch failure)
  | .fetchBytes _, r =>
    (∃ bytes, r = .ok bytes) ∨ ∃ code message, r = .error (.replayByteFetch code message)
  | .existsBySourceIdentity _ _, r => ∃ found, r = .ok found
  | _, _ => True

/-- Services that say yes: every read succeeds, nothing is stored yet, everything can be.  Every
    detail page is the same. -/
def yes (text detailHtml : String) : (e : Request) → Answer e
  | .now => 0
  | .sleep _ => ()
  | .fetchText _ options =>
    match options.phase with
    | .list => .ok text
    | _ => .ok detailHtml
  | .fetchBytes _ => .ok []
  | .headObject _ => .error (.s3Service "NotFound" (some 404))
  | .putObject _ _ _ => .ok ()
  | .existsBySourceIdentity _ _ => .ok false
  | .stage payload => { payload := some payload, status := .staged }

/-- The services that always succeed are healthy. -/
theorem healthy_yes (text detailHtml : String) (e : Request) :
    Healthy text e (yes text detailHtml e) := by
  cases e with
  | fetchText url options =>
    obtain ⟨attempts, page, phase⟩ := options
    cases phase with
    | list => exact rfl
    | detail => exact Or.inl ⟨detailHtml, rfl⟩
    | bytes => exact Or.inl ⟨detailHtml, rfl⟩
  | fetchBytes url => exact Or.inl ⟨[], rfl⟩
  | existsBySourceIdentity _ _ => exact ⟨false, rfl⟩
  | now | sleep _ | headObject _ | putObject _ _ _ | stage _ => trivial

variable (call : PageCall) {gated : Bool} {text detailHtml : String}

/-- The page is handled, whatever the services reply. -/
def Resolves (text : String) : Prop :=
  Proc.Ends (Proc.replying (Healthy text)) (fun r _ => ∃ value, r = .ok value) ()
    (discoverThenIngest reader call)

/-! ## Reading a page -/

/-- A rejection that the discovery turns into a report. -/
def IsSourceFetch (error : JsError) : Prop := ∃ failure, error = .sourceFetch failure

section Discovery

variable {allowed : (e : Request) → Answer e → Prop}

/-- A paced read gives what its read may be answered. -/
theorem gives_pacedFetchText {P : Except JsError String → Prop} (first : Bool) (url : Url)
    (options : SourceReadOptions) (h : ∀ r, allowed (.fetchText url options) r → P r) :
    Proc.Gives allowed P (pacedFetchText call.dryRunOptions first url options) := by
  have hfetch : Proc.Gives allowed P (call.dryRunOptions.fetchText url options) :=
    Proc.gives_perform h
  unfold pacedFetchText
  dsimp only
  split
  · refine Async.gives_lift_bind (fun _ => True) ?_ fun _ _ => hfetch
    exact Proc.gives_call fun _ _ => Proc.gives_pure trivial
  · exact hfetch

/-- The gate of a row gives what its lookup may be answered; ungated, it lets the row pass. -/
theorem gives_shouldSkip {ok : Bool → Prop} {err : JsError → Prop} (hpass : ok false)
    (hlookup : ∀ externalId r, allowed (.existsBySourceIdentity defaultSourceSystem externalId) r →
      Async.Settled ok err r) (externalId : Option String) (html : String) :
    Proc.Gives allowed (Async.Settled ok err)
      (shouldSkipPreDetail externalId (htmlInput call.dryRunOptions html).existsBySourceIdentity
        (htmlInput call.dryRunOptions html).sourceSystem) := by
  unfold shouldSkipPreDetail htmlInput PageCall.dryRunOptions
  cases call.gated with
  | false => exact Proc.gives_pure hpass
  | true =>
    cases externalId with
    | none => exact Proc.gives_pure hpass
    | some externalId =>
      show Proc.Gives allowed _ (if Discover.isTrustworthyId (some externalId) then
        (Proc.perform (Request.existsBySourceIdentity defaultSourceSystem externalId) : Job Bool)
        else Proc.pure (.ok false))
      -- it asks only about an id that it trusts
      split
      · exact Proc.gives_perform (hlookup externalId)
      · exact Proc.gives_pure hpass

/-- A row gives the candidate of the detail page that its read may be answered with. -/
theorem gives_discoverRowCandidate {body : String → Prop} {err : JsError → Prop}
    {row : ReplayRow} {rowUrl : String} {detailUrl : Url} (hdetail : newUrl pf rowUrl = .ok detailUrl)
    (hread : ∀ options r, options.phase = .detail → allowed (.fetchText detailUrl options) r →
      Async.Settled body err r) (html : String) :
    Proc.Gives allowed
      (Async.Settled (fun candidate => ∃ detailHtml, body detailHtml ∧
        candidate = rowCandidate reader.toHtmlReader row rowUrl detailUrl detailHtml) err)
      (discoverRowCandidate reader.toHtmlReader (htmlInput call.dryRunOptions html) row rowUrl) := by
  unfold discoverRowCandidate
  rw [hdetail]
  refine Async.gives_bind (fun url => url = detailUrl) (Proc.gives_pure rfl) ?_
  rintro _ rfl
  refine Async.gives_bind body ?_ fun detailHtml hbody => Proc.gives_pure ⟨detailHtml, hbody, rfl⟩
  exact gives_pacedFetchText call false _ _ fun r hr => hread _ r rfl hr

/-- The candidates of a row loop are harmless. -/
def RowsHarmless (gated : Bool) (acc : RowLoop) : Prop :=
  ∀ candidate ∈ acc.candidates, HarmlessCandidate reader gated (ofCandidate candidate)

/-- A candidate of a usable row is harmless. -/
theorem harmless_rowCandidate {row : ReplayRow} {sourceUrl : String} {detailUrl : Url}
    {detailHtml : String} {candidate : ReplayCandidate} (hrow : RowUsable reader row)
    (hurl : row.source.url = some sourceUrl) (hdetail : newUrl pf sourceUrl = .ok detailUrl)
    (h : rowCandidate reader.toHtmlReader row sourceUrl detailUrl detailHtml = some candidate) :
    HarmlessCandidate reader gated (ofCandidate candidate) := by
  unfold rowCandidate at h
  obtain ⟨filename, hfilename, rfl⟩ := Option.map_eq_some_iff.1 h
  have hid : IdUsable reader gated (row.source.externalId.map Json.str) := by
    intro value hvalue
    obtain ⟨id, _, rfl⟩ := Option.map_eq_some_iff.1 hvalue
    exact ⟨rfl, fun _ => ⟨id, rfl⟩⟩
  obtain ⟨hepoch, htrusted⟩ := (idUsable_iff reader).2 hid
  have hrawUrl := hrow sourceUrl detailUrl detailHtml filename hurl hdetail hfilename
  exact ⟨newUrl_eq_ok.2 hrawUrl, hepoch, htrusted⟩

variable (text) in

/-- One row keeps all candidates harmless, and does not throw. -/
theorem gives_discoverRow {acc : RowLoop} {row : ReplayRow}
    (hrow : ∀ url, row.source.url = some url → (pf.parseUrl url).isSome = true)
    (husable : RowUsable reader row) (hacc : RowsHarmless reader gated acc) (html : String) :
    Proc.Gives (Healthy text) (Async.Settled (RowsHarmless reader gated) IsSourceFetch)
      (discoverRow reader.toHtmlReader (htmlInput call.dryRunOptions html) acc row) := by
  unfold discoverRow
  cases hurl : row.source.url with
  | none => exact Proc.gives_pure hacc
  | some rowUrl =>
    dsimp only
    have hgate : Proc.Gives (Healthy text) (Async.Settled (fun _ => True) IsSourceFetch)
        (shouldSkipPreDetail row.source.externalId
          (htmlInput call.dryRunOptions html).existsBySourceIdentity
          (htmlInput call.dryRunOptions html).sourceSystem) := by
      refine gives_shouldSkip call trivial (fun externalId r hr => ?_) _ _
      obtain ⟨found, rfl⟩ := hr
      exact trivial
    refine Async.gives_bind (fun _ => True) hgate fun skip _ => ?_
    cases skip with
    | true => exact Proc.gives_pure hacc
    | false =>
      obtain ⟨detailUrl, hdetail⟩ := newUrl_eq_ok.2 (hrow rowUrl hurl)
      -- a failed read of the detail page is the one error a row may end in
      have hread : ∀ (options : SourceReadOptions) r, options.phase = .detail →
          Healthy text (.fetchText detailUrl options) r →
          Async.Settled (fun _ : String => True) IsSourceFetch r := by
        rintro ⟨attempts, page, phase⟩ r hphase hr
        cases hphase
        obtain ⟨body, rfl⟩ | ⟨failure, rfl⟩ := hr
        · exact trivial
        · exact ⟨failure, rfl⟩
      refine Async.gives_bind _ (gives_discoverRowCandidate reader call hdetail hread html) ?_
      rintro candidate ⟨detailHtml, -, rfl⟩
      refine Proc.gives_pure fun c hc => ?_
      rcases RowLoop.mem_addRow.1 hc with hc | hc
      · exact hacc c hc
      · exact harmless_rowCandidate reader husable hurl hdetail hc

variable (text) in

/-- So do the rows of a page. -/
theorem gives_discoverRows {acc : RowLoop} {rows : List ReplayRow}
    (hrows : ∀ row ∈ rows, ∀ url, row.source.url = some url → (pf.parseUrl url).isSome = true)
    (husable : ∀ row ∈ rows, RowUsable reader row) (hacc : RowsHarmless reader gated acc)
    (html : String) :
    Proc.Gives (Healthy text) (Async.Settled (RowsHarmless reader gated) IsSourceFetch)
      (discoverRows reader.toHtmlReader (htmlInput call.dryRunOptions html) acc rows) := by
  induction rows generalizing acc with
  | nil => exact Proc.gives_pure hacc
  | cons row rows ih =>
    have hrow := gives_discoverRow reader call text (hrows row List.mem_cons_self)
      (husable row List.mem_cons_self) hacc html
    refine Async.gives_bind _ hrow fun acc hacc => ?_
    exact ih (fun other hmem => hrows other (List.mem_cons_of_mem row hmem))
      (fun other hmem => husable other (List.mem_cons_of_mem row hmem)) hacc

variable (text) in
/-- The list page is read first. -/
theorem gives_listThen {P : Except JsError Report → Prop}
    (hlist : ∀ url options r, options.phase = .list → allowed (.fetchText url options) r → r = .ok text)
    (h : Proc.Gives allowed (Async.Settled
        (fun found => P (.ok (buildReport pf call.dryRunOptions true found)))
        (fun error => (∃ failure, error = .sourceFetch failure ∧
          ∀ report, report.candidates = [] → P (.ok report)) ∨
          (¬ IsSourceFetch error ∧ P (.error error))))
      (discoverPageCandidates reader call.dryRunOptions text)) :
    Proc.Gives allowed P (discoverReplaysDryRun reader call.dryRunOptions) := by
  unfold discoverReplaysDryRun
  refine Async.gives_tryCatch
    (fun error => (∃ failure, error = .sourceFetch failure ∧
      ∀ report, report.candidates = [] → P (.ok report)) ∨ (¬ IsSourceFetch error ∧ P (.error error)))
    ?_ ?_
  · refine Async.gives_bind (fun sourceText => sourceText = text) ?_ ?_
    · refine gives_pacedFetchText call true _ _ fun r hr => ?_
      rw [hlist _ _ r rfl hr]
      exact rfl
    · rintro _ rfl
      refine Async.gives_bind _ (h.imp ?_) fun found hfound => Proc.gives_pure hfound
      rintro (error | found) hr
      · exact hr
      · exact hr
  · rintro error (⟨failure, rfl, hreport⟩ | ⟨hnot, herror⟩)
    · exact Proc.gives_pure (hreport _ rfl)
    · cases error with
      | sourceFetch failure => exact absurd ⟨failure, rfl⟩ hnot
      | s3Service _ _ | replayByteFetch _ _ | checkpointConflict _ _ _ | database _ | error _ =>
        exact Proc.gives_pure herror

/-- A harmless page yields harmless candidates. -/
theorem gives_discovery (h : Harmless reader gated call.sourceUrl text) :
    Proc.Gives (Healthy text)
      (fun r => ∃ report, r = .ok report ∧
        ∀ candidate ∈ report.candidates, HarmlessCandidate reader gated candidate)
      (discoverReplaysDryRun reader call.dryRunOptions) := by
  refine gives_listThen reader call text ?_ ?_
  · intro url options r hphase hr
    obtain ⟨attempts, page, phase⟩ := options
    cases hphase
    exact hr
  · unfold discoverPageCandidates
    cases hfixture : parseSourceFixture reader text with
    | some entries =>
      obtain ⟨found, hfound, hharmless⟩ :=
        collectFixtureCandidates_harmless reader call.dryRunOptions.sourceUrl
          (h.fixture entries hfixture)
      dsimp only
      rw [hfound]
      exact Proc.gives_pure ⟨_, rfl, hharmless⟩
    | none =>
      have hstart : RowsHarmless reader gated {} := fun _ hmem => absurd hmem List.not_mem_nil
      have hrows := gives_discoverRows reader call text
        (reader.parse_rowUrl text 1 call.dryRunOptions.sourceUrl) (h.html hfixture) hstart text
      have hpage : Proc.Gives (Healthy text)
          (Async.Settled (fun result => ∀ candidate ∈ result.candidates,
            HarmlessCandidate reader gated (ofCandidate candidate)) IsSourceFetch)
          (ReplaysFetcher.discoverPageCandidates reader.toHtmlReader
            (htmlInput call.dryRunOptions text)) := by
        refine Async.gives_bind _ hrows fun acc hacc => Proc.gives_pure ?_
        exact fun candidate hmem => hacc candidate (mem_of_collectCandidateDiagnostics hmem)
      refine Async.gives_bind (fun result => ∀ candidate ∈ result.candidates,
        HarmlessCandidate reader gated (ofCandidate candidate)) (hpage.imp ?_)
        fun result hresult => Proc.gives_pure ?_
      · rintro (error | result) hr
        · obtain ⟨failure, rfl⟩ := hr
          exact Or.inl ⟨failure, rfl, fun report hnone => ⟨report, rfl, fun c hc => by
            rw [hnone] at hc
            exact absurd hc List.not_mem_nil⟩⟩
        · exact hr
      · refine ⟨_, rfl, fun candidate hmem => ?_⟩
        obtain ⟨c, hc, rfl⟩ := List.mem_map.1 hmem
        exact hresult c hc

variable (text detailHtml) in
/-- A row keeps what there is, and gives the candidate of its detail page. -/
theorem gives_discoverRow_yes {acc : RowLoop} {row : ReplayRow}
    (hrow : ∀ url, row.source.url = some url → (pf.parseUrl url).isSome = true) (html : String) :
    Proc.Gives (fun e r => r = yes text detailHtml e)
      (Async.Settled (fun after => (∀ c ∈ acc.candidates, c ∈ after.candidates) ∧
        ∀ rowUrl detailUrl c, row.source.url = some rowUrl → newUrl pf rowUrl = .ok detailUrl →
          rowCandidate reader.toHtmlReader row rowUrl detailUrl detailHtml = some c →
          c ∈ after.candidates) fun _ => False)
      (discoverRow reader.toHtmlReader (htmlInput call.dryRunOptions html) acc row) := by
  unfold discoverRow
  cases hurl : row.source.url with
  | none => exact Proc.gives_pure ⟨fun _ hc => hc, fun _ _ _ hnone => by cases hnone⟩
  | some rowUrl =>
    dsimp only
    -- whoever answers yes to all has no row of that id
    have hgate : Proc.Gives (fun e r => r = yes text detailHtml e)
        (Async.Settled (fun skip => skip = false) fun _ => False)
        (shouldSkipPreDetail row.source.externalId
          (htmlInput call.dryRunOptions html).existsBySourceIdentity
          (htmlInput call.dryRunOptions html).sourceSystem) := by
      have hlookup : ∀ externalId r, r = yes text detailHtml
          (.existsBySourceIdentity defaultSourceSystem externalId) →
          Async.Settled (fun skip => skip = false) (fun _ => False) r := by
        rintro externalId _ rfl
        exact rfl
      refine gives_shouldSkip call ?_ hlookup _ _
      exact rfl
    refine Async.gives_bind (fun skip => skip = false) hgate fun skip hskip => ?_
    rw [if_neg (by rw [hskip]; decide)]
    obtain ⟨detailUrl, hdetail⟩ := newUrl_eq_ok.2 (hrow rowUrl hurl)
    have hread : ∀ (options : SourceReadOptions) r, options.phase = .detail →
        r = yes text detailHtml (.fetchText detailUrl options) →
        Async.Settled (fun body => body = detailHtml) (fun _ => False) r := by
      rintro ⟨attempts, page, phase⟩ r hphase hr
      cases hphase
      rw [hr]
      exact rfl
    refine Async.gives_bind _ (gives_discoverRowCandidate reader call hdetail hread html) ?_
    rintro _ ⟨body, hbody, rfl⟩
    rw [hbody]
    refine Proc.gives_pure ⟨fun c hc => RowLoop.mem_addRow.2 (.inl hc), ?_⟩
    intro rowUrl' detailUrl' c hurl' hdetail' hc
    cases hurl'
    rw [hdetail] at hdetail'
    cases hdetail'
    exact RowLoop.mem_addRow.2 (.inr hc)

variable (text detailHtml) in
/-- The rows give the candidate of each of their detail pages. -/
theorem gives_discoverRows_yes {acc : RowLoop} {rows : List ReplayRow}
    (hrows : ∀ row ∈ rows, ∀ url, row.source.url = some url → (pf.parseUrl url).isSome = true)
    (html : String) :
    Proc.Gives (fun e r => r = yes text detailHtml e)
      (Async.Settled (fun after => (∀ c ∈ acc.candidates, c ∈ after.candidates) ∧
        ∀ row ∈ rows, ∀ rowUrl detailUrl c, row.source.url = some rowUrl →
          newUrl pf rowUrl = .ok detailUrl →
          rowCandidate reader.toHtmlReader row rowUrl detailUrl detailHtml = some c →
          c ∈ after.candidates) fun _ => False)
      (discoverRows reader.toHtmlReader (htmlInput call.dryRunOptions html) acc rows) := by
  induction rows generalizing acc with
  | nil => exact Proc.gives_pure ⟨fun _ hc => hc, fun _ hmem => absurd hmem List.not_mem_nil⟩
  | cons row rows ih =>
    have hrow := @gives_discoverRow_yes _ _ reader call text detailHtml acc row
      (hrows row List.mem_cons_self) html
    refine Async.gives_bind _ hrow fun mid hmid => ?_
    have hrest := @ih mid fun other hmem => hrows other (List.mem_cons_of_mem row hmem)
    refine hrest.imp ?_
    rintro (error | after) hafter
    · exact hafter
    · refine ⟨fun c hc => hafter.1 c (hmid.1 c hc), fun other hmem => ?_⟩
      rcases List.mem_cons.1 hmem with rfl | hmem
      · exact fun rowUrl detailUrl c hurl hdetail hc =>
          hafter.1 c (hmid.2 rowUrl detailUrl c hurl hdetail hc)
      · exact hafter.2 other hmem

/-- A page that is not harmless is rejected, or yields a candidate that is not. -/
theorem gives_discovery_yes (h : ¬ Harmless reader gated call.sourceUrl text) :
    ∃ detailHtml, Proc.Gives (fun e r => r = yes text detailHtml e)
      (fun r => (∃ error, r = .error error) ∨ ∃ report, r = .ok report ∧
        ∃ candidate ∈ report.candidates, ¬ HarmlessCandidate reader gated candidate)
      (discoverReplaysDryRun reader call.dryRunOptions) := by
  have hlist : ∀ (detailHtml : String) (url : Url) (options : SourceReadOptions)
      (r : Except JsError String), options.phase = .list →
      r = yes text detailHtml (.fetchText url options) → r = .ok text := by
    rintro detailHtml url ⟨attempts, page, phase⟩ r hphase hr
    cases hphase
    exact hr
  cases hfixture : parseSourceFixture reader text with
  | some entries =>
    have hharmful : ¬ ∀ entry ∈ entries, HarmlessEntry reader gated entry := by
      intro hentries
      refine h ⟨fun entries' hentries' => ?_, fun hnone => ?_⟩
      · rw [hfixture] at hentries'
        exact Option.some.inj hentries' ▸ hentries
      · rw [hfixture] at hnone
        cases hnone
    refine ⟨text, gives_listThen reader call text (hlist text) ?_⟩
    unfold discoverPageCandidates
    rw [hfixture]
    rcases collectFixtureCandidates_harmful reader call.dryRunOptions.sourceUrl hharmful with
      ⟨message, herror⟩ | ⟨found, hfound, hcandidate⟩
    · dsimp only
      rw [herror]
      refine Proc.gives_pure (Or.inr ⟨?_, Or.inl ⟨_, rfl⟩⟩)
      rintro ⟨failure, hfailure⟩
      cases hfailure
    · dsimp only
      rw [hfound]
      exact Proc.gives_pure (Or.inr ⟨_, rfl, hcandidate⟩)
  | none =>
    have hharmful : ¬ ∀ row ∈ reader.extractReplayRows text 1 call.sourceUrl,
        RowUsable reader row := by
      intro hrows
      refine h ⟨fun entries hentries => ?_, fun _ => hrows⟩
      rw [hfixture] at hentries
      cases hentries
    unfold RowUsable at hharmful
    push Not at hharmful
    obtain ⟨row, hrow, rowUrl, detailUrl, detailHtml, filename, hurl, hdetail, hfilename, hraw⟩ :=
      hharmful
    -- the detail page that gives the filename at fault
    refine ⟨detailHtml, gives_listThen reader call text (hlist detailHtml) ?_⟩
    unfold discoverPageCandidates
    rw [hfixture]
    have hcase : rowCandidate reader.toHtmlReader row rowUrl detailUrl detailHtml =
        some (toReplayCandidateFromHtmlRow filename (reader.toRawReplayUrl filename detailUrl) row
          rowUrl) := by
      unfold rowCandidate
      rw [hfilename]
      rfl
    have hpage : Proc.Gives (fun e r => r = yes text detailHtml e)
        (Async.Settled (fun result => toReplayCandidateFromHtmlRow filename
          (reader.toRawReplayUrl filename detailUrl) row rowUrl ∈ result.candidates) fun _ => False)
        (ReplaysFetcher.discoverPageCandidates reader.toHtmlReader
          (htmlInput call.dryRunOptions text)) := by
      refine Async.gives_bind _ (gives_discoverRows_yes reader call text detailHtml
        (reader.parse_rowUrl text 1 call.dryRunOptions.sourceUrl) text) fun acc hacc => ?_
      exact Proc.gives_pure (mem_collectCandidateDiagnostics_candidates
        (hacc.2 row hrow rowUrl detailUrl _ hurl hdetail hcase))
    refine Async.gives_bind (fun result => toReplayCandidateFromHtmlRow filename
      (reader.toRawReplayUrl filename detailUrl) row rowUrl ∈ result.candidates) (hpage.imp ?_)
      fun result hresult => Proc.gives_pure (Or.inr ⟨_, rfl, _, List.mem_map_of_mem hresult, ?_⟩)
    · rintro (error | result) hr
      · exact absurd hr id
      · exact hr
    · exact fun hharmless => hraw (newUrl_eq_ok.1 hharmless.url)

end Discovery

/-! ## Ingesting a page -/

section Ingest

variable {allowed : (e : Request) → Answer e → Prop}

/-- The evidence keeps the candidate's source. -/
theorem gives_storeBytes (candidate : Candidate) (fetchedAt : String) (bytes : Bytes) :
    Proc.Gives allowed (fun evidence => evidence.source = candidate.source)
      (storeBytes pf call candidate fetchedAt bytes) := by
  refine Proc.gives_call fun head _ => ?_
  cases head with
  | ok output =>
    dsimp only
    split
    · exact Proc.gives_pure rfl
    · exact Proc.gives_pure rfl
  | error error =>
    dsimp only
    split
    · refine Proc.gives_call fun put _ => ?_
      cases put with
      | ok _ => exact Proc.gives_pure rfl
      | error _ => exact Proc.gives_pure rfl
    · exact Proc.gives_pure rfl

/-- The result of a store, as far as staging looks at the source. -/
def StoredFrom (candidate : Candidate) : StoreRawReplayResult → Prop
  | .fetchFailed _ => True
  | .stored evidence => evidence.source = candidate.source

/-- Storing a harmless candidate resolves, with what was fetched for it. -/
theorem gives_storeRawReplay {candidate : Candidate}
    (h : HarmlessCandidate reader gated candidate) :
    Proc.Gives (Healthy text) (fun r => ∃ result, r = .ok result ∧ StoredFrom candidate result)
      (storeRawReplay reader call candidate) := by
  obtain ⟨url, hurl⟩ := h.url
  refine Proc.gives_call fun now _ => ?_
  rw [hurl]
  refine Proc.gives_call fun r hr => ?_
  obtain ⟨bytes, rfl⟩ | ⟨code, message, rfl⟩ := hr
  · exact Proc.gives_bind _ (gives_storeBytes call candidate _ bytes) fun evidence hevidence =>
      Proc.gives_pure ⟨_, rfl, hevidence⟩
  · exact Proc.gives_pure ⟨_, rfl, trivial⟩

/-- A payload can be built where the time of the id can be read. -/
theorem toPayload_ok {evidence : Evidence} {epoch : Option String}
    (h : epochTimestamp reader evidence.source.externalId = .ok epoch) :
    ∃ payload, toPayload reader call evidence = .ok payload := by
  unfold toPayload
  rw [h]
  exact ⟨_, rfl⟩

/-- Staging what was stored for a harmless candidate resolves. -/
theorem gives_stageRawReplay {candidate : Candidate} (h : HarmlessCandidate reader gated candidate)
    {result : StoreRawReplayResult} (hresult : StoredFrom candidate result) :
    Proc.Gives allowed (fun r => ∃ staging, r = .ok staging) (stageRawReplay reader call result) := by
  unfold stageRawReplay
  cases result with
  | fetchFailed _ => exact Proc.gives_pure ⟨_, rfl⟩
  | stored evidence =>
    dsimp only
    split
    · obtain ⟨epoch, hepoch⟩ := h.epoch
      have hsource : evidence.source = candidate.source := hresult
      rw [← hsource] at hepoch
      obtain ⟨payload, hpayload⟩ := toPayload_ok reader call hepoch
      rw [hpayload]
      exact Proc.gives_call fun staging _ => Proc.gives_pure ⟨staging, rfl⟩
    · exact Proc.gives_pure ⟨_, rfl⟩

/-- So both together do. -/
theorem gives_processCandidate {candidate : Candidate}
    (h : HarmlessCandidate reader gated candidate) :
    Proc.Gives (Healthy text) (fun r => ∃ settled, r = .ok settled)
      (processCandidate reader call candidate) := by
  refine Proc.gives_bind _ (gives_storeRawReplay reader call h) ?_
  rintro _ ⟨result, rfl, hresult⟩
  refine Proc.gives_bind _ (gives_stageRawReplay reader call h hresult) ?_
  rintro _ ⟨staging, rfl⟩
  exact Proc.gives_pure ⟨_, rfl⟩

/-- **A harmless candidate settles.** -/
theorem gives_ingestCandidate {candidate : Candidate}
    (h : HarmlessCandidate reader call.gated candidate) :
    Proc.Gives (Healthy text) (fun r => ∃ settled, r = .ok settled)
      (ingestCandidate reader call candidate) := by
  have hprocess := @gives_processCandidate _ _ reader call _ text _ h
  unfold ingestCandidate
  split
  · rename_i hgated
    obtain ⟨trusted, htrusted⟩ := h.trusted hgated
    rw [htrusted]
    split
    · rename_i heq
      cases heq
    · refine Proc.gives_call fun r hr => ?_
      obtain ⟨found, rfl⟩ := hr
      cases found with
      | true => exact Proc.gives_pure ⟨_, rfl⟩
      | false => exact hprocess
    · exact hprocess
  · exact hprocess

/-- When the services say yes, bytes are stored. -/
theorem gives_storeBytes_yes (candidate : Candidate) (fetchedAt : String) (bytes : Bytes) :
    Proc.Gives (fun e r => r = yes text detailHtml e)
      (fun evidence => evidence.source = candidate.source ∧ evidence.status = .stored)
      (storeBytes pf call candidate fetchedAt bytes) := by
  refine Proc.gives_call fun head hhead => ?_
  rw [hhead]
  refine Proc.gives_call fun put hput => ?_
  rw [hput]
  exact Proc.gives_pure ⟨rfl, rfl⟩

/-- `new URL` throws a `TypeError`, which is no `ReplayByteFetchError`. -/
theorem newUrl_error {text : String} {error : JsError} (h : newUrl pf text = .error error) :
    ∃ message, error = .error message := by
  unfold newUrl at h
  split at h
  · cases h
  · cases h
    exact ⟨_, rfl⟩

/-- Neither is what building the URL of the bytes throws. -/
theorem bytesUrl_error {candidate : Candidate} {error : JsError}
    (h : bytesUrl reader candidate = .error error) : ∃ message, error = .error message := by
  unfold bytesUrl at h
  split at h
  · exact newUrl_error h
  · exact newUrl_error h
  · split at h
    · exact newUrl_error h
    · cases h
      exact ⟨_, rfl⟩

/-- A candidate at fault rejects, once it gets that far. -/
theorem gives_processCandidate_yes {candidate : Candidate}
    (h : ¬ ((∃ url, bytesUrl reader candidate = .ok url) ∧
      ∃ epoch, epochTimestamp reader candidate.source.externalId = .ok epoch)) :
    Proc.Gives (fun e r => r = yes text detailHtml e) (fun r => ∃ error, r = .error error)
      (processCandidate reader call candidate) := by
  cases hurl : bytesUrl reader candidate with
  | error error =>
    obtain ⟨message, rfl⟩ := bytesUrl_error reader hurl
    refine Proc.gives_bind (fun r => ∃ error, r = .error error) ?_ ?_
    · refine Proc.gives_call fun now _ => ?_
      rw [hurl]
      exact Proc.gives_pure ⟨_, rfl⟩
    · rintro _ ⟨error, rfl⟩
      exact Proc.gives_pure ⟨error, rfl⟩
  | ok url =>
    have hepoch : ¬ ∃ epoch, epochTimestamp reader candidate.source.externalId = .ok epoch :=
      fun hepoch => h ⟨⟨url, hurl⟩, hepoch⟩
    refine Proc.gives_bind (fun r => ∃ evidence, r = .ok (.stored evidence) ∧
      evidence.source = candidate.source ∧ evidence.status = .stored) ?_ ?_
    · refine Proc.gives_call fun now _ => ?_
      rw [hurl]
      refine Proc.gives_call fun r hr => ?_
      rw [hr]
      exact Proc.gives_bind _ (gives_storeBytes_yes call candidate _ []) fun evidence hevidence =>
        Proc.gives_pure ⟨evidence, rfl, hevidence⟩
    · rintro _ ⟨evidence, rfl, hsource, hstatus⟩
      cases htimestamp : epochTimestamp reader candidate.source.externalId with
      | ok epoch => exact absurd ⟨epoch, htimestamp⟩ hepoch
      | error error =>
        have hpayload : toPayload reader call evidence = .error error := by
          unfold toPayload
          rw [hsource, htimestamp]
          rfl
        have hstageable : isStageable evidence = true := by
          unfold isStageable
          rw [hstatus]
          rfl
        refine Proc.gives_bind (fun r => r = .error error) ?_ ?_
        · unfold stageRawReplay
          dsimp only
          rw [if_pos hstageable, hpayload]
          exact Proc.gives_pure rfl
        · rintro _ rfl
          exact Proc.gives_pure ⟨error, rfl⟩

/-- A candidate that is not harmless rejects even if all requests succeed. -/
theorem gives_ingestCandidate_yes {candidate : Candidate}
    (h : ¬ HarmlessCandidate reader call.gated candidate) :
    Proc.Gives (fun e r => r = yes text detailHtml e) (fun r => ∃ error, r = .error error)
      (ingestCandidate reader call candidate) := by
  unfold ingestCandidate
  split
  · rename_i hgated
    cases htrust : isTrustworthyId candidate.source.externalId with
    | error error => exact Proc.gives_pure ⟨error, rfl⟩
    | ok trusted =>
      have hprocess := @gives_processCandidate_yes _ _ reader call text detailHtml candidate
        fun hboth => h ⟨hboth.1, hboth.2, fun _ => ⟨trusted, htrust⟩⟩
      split
      · rename_i heq
        cases heq
      · refine Proc.gives_call fun r hr => ?_
        rw [hr]
        exact hprocess
      · exact hprocess
  · rename_i hgated
    exact gives_processCandidate_yes reader call fun hboth =>
      h ⟨hboth.1, hboth.2, fun hg => absurd hg hgated⟩

end Ingest

/-! ## The page -/

/-- If all have settled with values, so has the page. -/
theorem fulfilledInOrder_ok {settled : List (Except JsError SettledCandidate)}
    (h : ∀ r ∈ settled, ∃ value, r = .ok value) : ∃ values, fulfilledInOrder settled = .ok values := by
  induction settled with
  | nil => exact ⟨[], rfl⟩
  | cons first rest ih =>
    obtain ⟨value, rfl⟩ := h first List.mem_cons_self
    obtain ⟨values, hvalues⟩ := ih fun r hr => h r (List.mem_cons_of_mem _ hr)
    exact ⟨value :: values, by rw [fulfilledInOrder, hvalues]; rfl⟩

/-- One rejection makes the page reject. -/
theorem fulfilledInOrder_error {settled : List (Except JsError SettledCandidate)} {error : JsError}
    (h : .error error ∈ settled) : ∃ first, fulfilledInOrder settled = .error first := by
  induction settled with
  | nil => exact absurd h List.not_mem_nil
  | cons first rest ih =>
    cases first with
    | error first => exact ⟨first, rfl⟩
    | ok value =>
      have hrest : .error error ∈ rest := (List.mem_cons.1 h).resolve_left fun heq => by cases heq
      obtain ⟨first, hfirst⟩ := ih hrest
      exact ⟨first, by rw [fulfilledInOrder, hfirst]; rfl⟩

/-- A page of harmless candidates resolves, however the services answer. -/
theorem gives_ingestPage {candidates : List Candidate}
    (h : ∀ candidate ∈ candidates, HarmlessCandidate reader call.gated candidate) :
    Proc.Gives (Healthy text) (fun r => ∃ result, r = .ok result)
      (ingestPage reader call candidates) := by
  refine Proc.gives_fan (fun _ r => ∃ settled, r = .ok settled)
    (fun i => gives_ingestCandidate reader call (h _ (List.get_mem candidates i))) fun vs hvs => ?_
  have hall : ∀ r ∈ List.ofFn vs, ∃ value, r = .ok value := by
    intro r hr
    obtain ⟨i, rfl⟩ := List.mem_ofFn.1 hr
    exact hvs i
  obtain ⟨values, hvalues⟩ := fulfilledInOrder_ok hall
  rw [hvalues]
  exact Proc.gives_pure ⟨_, rfl⟩

/-- A page with a harmful candidate rejects if all requests succeed. -/
theorem gives_ingestPage_yes {candidates : List Candidate} {candidate : Candidate}
    (hmem : candidate ∈ candidates) (h : ¬ HarmlessCandidate reader call.gated candidate) :
    Proc.Gives (fun e r => r = yes text detailHtml e) (fun r => ∃ error, r = .error error)
      (ingestPage reader call candidates) := by
  obtain ⟨i, rfl⟩ := List.mem_iff_get.1 hmem
  refine Proc.gives_fan (fun j r => j = i → ∃ error, r = .error error) (fun j => ?_) fun vs hvs => ?_
  · by_cases hij : j = i
    · subst hij
      exact (gives_ingestCandidate_yes reader call h).imp fun _ hr _ => hr
    · exact Proc.safe_any (fun _ _ => trivial) _ |>.imp fun _ _ _ heq => absurd heq hij
  · obtain ⟨error, herror⟩ := hvs i rfl
    have hin : .error error ∈ List.ofFn vs := List.mem_ofFn.2 ⟨i, herror⟩
    obtain ⟨first, hfirst⟩ := fulfilledInOrder_error hin
    rw [hfirst]
    exact Proc.gives_pure ⟨first, rfl⟩

/-- Storing bytes has no loop. -/
theorem loopFree_storeBytes (candidate : Candidate) (fetchedAt : String) (bytes : Bytes) :
    Proc.LoopFree (fun _ => True) (storeBytes pf call candidate fetchedAt bytes) := by
  refine ⟨trivial, fun head => ?_⟩
  cases head with
  | ok output =>
    dsimp only
    split <;> trivial
  | error error =>
    dsimp only
    split
    · refine ⟨trivial, fun put => ?_⟩
      cases put <;> trivial
    · trivial

/-- Neither has a candidate. -/
theorem loopFree_processCandidate (candidate : Candidate) :
    Proc.LoopFree (fun _ => True) (processCandidate reader call candidate) := by
  refine Proc.LoopFree.bind ⟨trivial, fun now => ?_⟩ fun r => ?_
  · -- before the PUT
    split
    · trivial
    · refine ⟨trivial, fun r => ?_⟩
      cases r with
      | error error => trivial
      | ok bytes => exact (loopFree_storeBytes call candidate _ bytes).bind fun _ => trivial
  · -- the staging, if there is any
    cases r with
    | error error => trivial
    | ok rawResult =>
      refine Proc.LoopFree.bind ?_ fun r => ?_
      · unfold stageRawReplay
        split
        · trivial
        · split
          · split
            · trivial
            · exact ⟨trivial, fun _ => trivial⟩
          · trivial
      · cases r <;> trivial

/-- Nor a page of candidates. -/
theorem loopFree_ingestPage (candidates : List Candidate) :
    Proc.LoopFree (fun _ => True) (ingestPage reader call candidates) := by
  refine ⟨call.limit_pos, fun i => ?_, fun _ => trivial⟩
  have hprocess := loopFree_processCandidate reader call (candidates.get i)
  show Proc.LoopFree _ (ingestCandidate reader call (candidates.get i))
  unfold ingestCandidate
  split
  · split
    · trivial
    · refine ⟨trivial, fun r => ?_⟩
      rcases r with _ | attempted
      · trivial
      · cases attempted with
        | false => exact hprocess
        | true => trivial
    · exact hprocess
  · exact hprocess

section Requests

variable {P : Request → Prop} (hP : ∀ e, (∀ payload, e ≠ .stage payload) → P e)

include hP

/-- Nor a paced read. -/
theorem loopFree_pacedFetchText (first : Bool) (url : Url) (options : SourceReadOptions) :
    Proc.LoopFree P (pacedFetchText call.dryRunOptions first url options) := by
  have hfetch : Proc.LoopFree P (call.dryRunOptions.fetchText url options) :=
    ⟨hP _ fun payload heq => (by cases heq), fun _ => trivial⟩
  unfold pacedFetchText
  dsimp only
  split
  · refine Async.loopFree_lift_bind ?_ fun _ => hfetch
    exact ⟨hP _ fun payload heq => (by cases heq), fun _ => trivial⟩
  · exact hfetch

/-- The rows are a list, so reading them has no loop. -/
theorem loopFree_discoverRows (acc : RowLoop) (rows : List ReplayRow) (html : String) :
    Proc.LoopFree P
      (discoverRows reader.toHtmlReader (htmlInput call.dryRunOptions html) acc rows) := by
  induction rows generalizing acc with
  | nil => trivial
  | cons row rows ih =>
    refine Async.loopFree_bind ?_ ih
    unfold discoverRow
    split
    · trivial
    · refine Async.loopFree_bind ?_ fun skip => ?_
      · unfold shouldSkipPreDetail htmlInput PageCall.dryRunOptions
        cases call.gated with
        | false => trivial
        | true =>
          cases row.source.externalId with
          | none => trivial
          | some externalId =>
            show Proc.LoopFree _ (if Discover.isTrustworthyId (some externalId) then
              (Proc.perform (Request.existsBySourceIdentity defaultSourceSystem externalId) : Job Bool)
              else Proc.pure (.ok false))
            split
            · exact ⟨hP _ fun payload heq => (by cases heq), fun _ => trivial⟩
            · trivial
      · cases skip with
        | true => trivial
        | false =>
          refine Async.loopFree_bind ?_ fun _ => trivial
          refine Async.loopFree_bind trivial fun url => ?_
          exact Async.loopFree_bind (loopFree_pacedFetchText call hP false url _) fun _ => trivial

/-- The discovery of a page stages nothing. -/
theorem loopFree_discovery :
    Proc.LoopFree P (discoverReplaysDryRun reader call.dryRunOptions) := by
  refine Async.loopFree_tryCatch ?_ fun error => by cases error <;> trivial
  refine Async.loopFree_bind (loopFree_pacedFetchText call hP true _ _) fun sourceText => ?_
  refine Async.loopFree_bind ?_ fun _ => trivial
  unfold discoverPageCandidates
  split
  · trivial
  · exact Async.loopFree_bind (Async.loopFree_bind (loopFree_discoverRows reader call hP {} _ _)
      fun _ => trivial) fun _ => trivial

end Requests

/-- A whole page has no loop, so it ends. -/
theorem loopFree_page : Proc.LoopFree (fun _ => True) (discoverThenIngest reader call) := by
  refine (loopFree_discovery reader call fun _ _ => trivial).bind fun r => ?_
  cases r with
  | error error => trivial
  | ok report =>
    refine (loopFree_ingestPage reader call report.candidates).bind fun r => ?_
    cases r <;> trivial

/-- A page that resolves on every reply is harmless. -/
theorem harmless_of_resolves (h : Resolves reader call text) :
    Harmless reader call.gated call.sourceUrl text := by
  by_contra hharmful
  obtain ⟨detailHtml, hdiscovery⟩ := gives_discovery_yes reader call hharmful
  have hyes : ∀ e r, r = yes text detailHtml e → Healthy text e r :=
    fun e r hr => hr ▸ healthy_yes text detailHtml e
  have hrejects : Proc.Gives (fun e r => r = yes text detailHtml e) (fun r => ¬ ∃ value, r = .ok value)
      (discoverThenIngest reader call) := by
    refine Proc.gives_bind _ hdiscovery ?_
    rintro r (⟨error, rfl⟩ | ⟨report, rfl, candidate, hmem, hcandidate⟩)
    · refine Proc.gives_pure ?_
      rintro ⟨value, hvalue⟩
      cases hvalue
    · refine Proc.gives_bind _ (gives_ingestPage_yes reader call hmem hcandidate) ?_
      rintro _ ⟨error, rfl⟩
      refine Proc.gives_pure ?_
      rintro ⟨value, hvalue⟩
      cases hvalue
  exact h.not_gives (loopFree_page reader call) hyes (fun e => ⟨yes text detailHtml e, rfl⟩) hrejects

/-- **Which pages are handled**: exactly the harmless ones. -/
theorem page_resolves_iff :
    Resolves reader call text ↔ Harmless reader call.gated call.sourceUrl text := by
  have hhealthy : ∀ e, ∃ r, Healthy text e r := fun e => ⟨yes text text e, healthy_yes text text e⟩
  constructor
  · intro hresolves
    exact harmless_of_resolves reader call hresolves
  · intro hharmless
    refine Proc.ends_of_gives (loopFree_page reader call) hhealthy ?_
    refine Proc.gives_bind _ (gives_discovery reader call hharmless) ?_
    rintro _ ⟨report, rfl, hcandidates⟩
    refine Proc.gives_bind _ (gives_ingestPage reader call hcandidates) ?_
    rintro _ ⟨result, rfl⟩
    exact Proc.gives_pure ⟨_, rfl⟩

/-! ## An entry that is `null` -/

/-- It reads one text, as a fixture whose only entry is `null`. -/
def nullReader : Reader toyPlatform where
  toHtmlReader := toyReader.toHtmlReader
  parseJson text :=
    if text = "\x7b\"candidates\":[null]\x7d" then some (.obj [("candidates", .arr [.null])]) else none
  numberText _ := ""

/-- A page call without gates, one candidate at a time. -/
def nullCall : PageCall where
  bucket := "bucket"
  gated := false
  limit := 1
  limit_pos := Nat.one_pos
  runId := "run"
  sourceUrl := { protocol := "https:", host := "list", pathname := "" }

/-- A fixture whose only entry is `null` brings the run down. -/
theorem null_entry_rejects :
    ¬ Resolves nullReader nullCall "\x7b\"candidates\":[null]\x7d" := by
  intro hresolves
  have hparsed : parseSourceFixture nullReader "\x7b\"candidates\":[null]\x7d" = some [.null] := by
    decide +kernel
  have hentries := (harmless_of_resolves nullReader nullCall hresolves).fixture [.null] hparsed
  exact (hentries .null (List.mem_singleton.2 rfl)).not_null rfl

end Untrusted

end ReplaysFetcher
