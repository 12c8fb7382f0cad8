/-
  What the source decides in a staging row: the time and the identity of a replay
  (`src/staging/payload.ts`).

  Both come from a precedence chain over what discovery has found, and discovery takes a fixture as
  it is.

  1. **The replay timestamp** is the epoch in the external id, or else the time in the filename, or
     else the listing date.  The first two are parsed, and so is the listing date of an HTML row:
     they are instants (`isInstantText_epochToUtcIso`, `isInstantText_componentsToUtcIso`).  The
     listing date of a fixture is whatever the fixture says (`replay_timestamp_iff`).
  2. **The source replay id** is the external id, or else a digest.  The gates do not trust a blank
     external id, but a blank one is an external id all the same (`source_identity_iff`).

  Every payload that a page stages is built from a candidate discovered in it (`staged_discovered`).
-/
import ReplaysFetcher.EmptyPages
import ReplaysFetcher.NeverRejects
import ReplaysFetcher.Effectful.Runs

namespace ReplaysFetcher

open Effectful

/-! ## Instants -/

/-- `YYYY-MM-DDTHH:MM:SS.000Z`, of an instant. -/
def IsInstantText (text : String) : Prop :=
  ∃ date : Date, 0 ≤ date.getUTCFullYear ∧ date.getUTCFullYear ≤ 9999 ∧
    date.getUTCMilliseconds = 0 ∧ text = toISOString date

/-- The milliseconds of a whole number of seconds. -/
theorem getUTCMilliseconds_seconds (seconds : ℤ) :
    Date.getUTCMilliseconds (seconds * 1000) = 0 := by
  unfold Date.getUTCMilliseconds Date.msOfDay msPerDay
  rw [Int.fmod_eq_emod_of_nonneg _ (by decide), Int.fmod_eq_emod_of_nonneg _ (by decide)]
  omega

/-- **What the components make is an instant**, in a year of four digits. -/
theorem isInstantText_componentsToUtcIso {components : UtcDateComponents} {text : String}
    (hyear : 0 ≤ components.year ∧ components.year ≤ 9999)
    (h : componentsToUtcIso components = some text) : IsInstantText text := by
  unfold componentsToUtcIso at h
  dsimp only at h
  split at h
  · cases h
  · rename_i hfields
    have htext := Option.some.inj h
    simp only [not_or, not_not] at hfields
    obtain ⟨hfull, hmonth, hday, hhour, hminute, hsecond⟩ := hfields
    have hms : Date.getUTCMilliseconds (Date.UTC components.year (components.month - 1)
        components.day components.hour components.minute (components.second.getD 0)) = 0 := by
      unfold Date.UTC msPerDay
      dsimp only
      rw [show ∀ a b c d : ℤ, a * 86400000 + b * 3600000 + c * 60000 + d * 1000 =
        (a * 86400 + b * 3600 + c * 60 + d) * 1000 by intros; omega]
      exact getUTCMilliseconds_seconds _
    refine ⟨_, hfull.symm ▸ hyear.1, hfull.symm ▸ hyear.2, hms, ?_⟩
    unfold toISOString
    rw [hfull, hmonth, hday, hhour, hminute, hsecond, hms, ← htext, sub_add_cancel]
    dsimp only
    rw [if_pos hyear]
    simp only [String.append_assoc]
    rfl

/-- The years of the epochs: 16436 and 23741 are their first and last day. -/
theorem civilFromDays_epoch {days : ℤ} (hfrom : 16436 ≤ days) (hto : days ≤ 23741) :
    0 ≤ (civilFromDays days).year ∧ (civilFromDays days).year ≤ 9999 := by
  unfold civilFromDays
  dsimp only
  simp only [Int.fdiv_eq_ediv_of_nonneg _ (show (0 : ℤ) ≤ 146097 by decide),
    Int.fdiv_eq_ediv_of_nonneg _ (show (0 : ℤ) ≤ 1460 by decide),
    Int.fdiv_eq_ediv_of_nonneg _ (show (0 : ℤ) ≤ 36524 by decide),
    Int.fdiv_eq_ediv_of_nonneg _ (show (0 : ℤ) ≤ 146096 by decide),
    Int.fdiv_eq_ediv_of_nonneg _ (show (0 : ℤ) ≤ 365 by decide)]
  -- the days are all in the cycle that began in the year 2000
  have hera : (days + 719468) / 146097 = 5 := by omega
  rw [hera]
  split <;> split <;> omega

/-- **An epoch is an instant.** -/
theorem isInstantText_epochToUtcIso {externalId text : String}
    (h : epochToUtcIso externalId = some text) : IsInstantText text := by
  unfold epochToUtcIso at h
  split at h
  · cases h
  · rename_i seconds _
    split at h
    · cases h
    · split at h
      · cases h
      · rename_i hbounds
        have htext := Option.some.inj h
        unfold EPOCH_LOWER_BOUND_SECONDS EPOCH_UPPER_BOUND_SECONDS at hbounds
        have hdays : 16436 ≤ (((seconds * MILLISECONDS_PER_SECOND : ℕ) : ℤ)).fdiv msPerDay ∧
            (((seconds * MILLISECONDS_PER_SECOND : ℕ) : ℤ)).fdiv msPerDay ≤ 23741 := by
          unfold MILLISECONDS_PER_SECOND msPerDay
          rw [Int.fdiv_eq_ediv_of_nonneg _ (by decide)]
          omega
        have hyear := civilFromDays_epoch hdays.1 hdays.2
        refine ⟨((seconds * MILLISECONDS_PER_SECOND : ℕ) : ℤ), hyear.1, hyear.2, ?_, htext.symm⟩
        rw [Nat.cast_mul]
        exact getUTCMilliseconds_seconds _

/-! ## Four digits -/

/-- Each digit makes room for ten times as much. -/
theorem foldl_digits_lt {digits : List Char} (h : ∀ c ∈ digits, c.isDigit = true) (start : ℕ) :
    digits.foldl (fun n c => 10 * n + (c.toNat - '0'.toNat)) start <
      (start + 1) * 10 ^ digits.length := by
  induction digits generalizing start with
  | nil => simp
  | cons c rest ih =>
    obtain ⟨hc, hrest⟩ := List.forall_mem_cons.1 h
    have hdigit : c.toNat - '0'.toNat < 10 := by
      have hbounds := Char.isDigit_iff_toNat.1 hc
      have hzero : '0'.toNat = 48 := rfl
      have hnine : '9'.toNat = 57 := rfl
      omega
    have htail := ih hrest (10 * start + (c.toNat - '0'.toNat))
    rw [List.foldl_cons, List.length_cons, pow_succ']
    calc _ < (10 * start + (c.toNat - '0'.toNat) + 1) * 10 ^ rest.length := htail
      _ ≤ ((start + 1) * 10) * 10 ^ rest.length := Nat.mul_le_mul_right _ (by omega)
      _ = (start + 1) * (10 * 10 ^ rest.length) := Nat.mul_assoc _ _ _

/-- A text of digits is below the power of its length. -/
theorem digitsValue_lt {text : String} {value : ℕ} (h : digitsValue text = some value) :
    value < 10 ^ text.toList.length := by
  unfold digitsValue at h
  split at h
  · rename_i hdigits
    cases h
    have hlt := foldl_digits_lt (List.all_eq_true.1 hdigits.2) 0
    rwa [Nat.zero_add, Nat.one_mul] at hlt
  · cases h

/-- The year of a filename has four digits. -/
theorem isInstantText_replayTimestampFromFilename {filename text : String}
    (h : replayTimestampFromFilename filename = some text) : IsInstantText text := by
  unfold replayTimestampFromFilename at h
  obtain ⟨components, hcomponents, htext⟩ := Option.bind_eq_some_iff.1 h
  refine isInstantText_componentsToUtcIso ?_ htext
  unfold filenameTimestamp at hcomponents
  split at hcomponents
  · simp only [Option.bind_eq_bind, Option.bind_eq_some_iff] at hcomponents
    obtain ⟨year, hyear, _, _, _, _, _, _, _, _, _, _, hcomponents⟩ := hcomponents
    have hlt := digitsValue_lt hyear
    rw [String.toList_ofList] at hlt
    cases hcomponents
    dsimp only
    simp only [List.length_cons, List.length_nil] at hlt
    omega
  · cases hcomponents

/-- The group `year` of a listing date has four characters. -/
theorem length_year_of_gameDate {cell : String} {found : HtmlMatch}
    (h : execOn gameDatePattern cell = some found) :
    (getMatchGroup found "year").toList.length ≤ 4 := by
  have hnodes : ∀ node ∈ gameDatePattern,
      node.KeepsLengths fun group n => group = "year" → n ≤ 4 := by
    unfold gameDatePattern lit
    simp only [List.forall_mem_append, List.forall_mem_cons, List.forall_mem_map]
    simp [Regex.Node.KeepsLengths, Regex.one, Regex.exactly, Regex.some1]
  have hgroups := Regex.group_length_of_exec hnodes h
  unfold getMatchGroup groupOf Regex.Match.group?
  cases hlookup : found.groups.lookup "year" with
  | none => exact Nat.zero_le _
  | some year =>
    obtain ⟨before, after, hentries, _⟩ := List.lookup_eq_some_iff.1 hlookup
    have hmem : ("year", year) ∈ found.groups := by
      rw [hentries]
      exact List.mem_append_right before List.mem_cons_self
    show (String.ofList year).toList.length ≤ 4
    rw [String.toList_ofList]
    exact hgroups _ hmem rfl

/-- **The listing date of a row is an instant.** -/
theorem isInstantText_parseGameDateToUtcIso {cell text : String}
    (h : parseGameDateToUtcIso cell = some text) : IsInstantText text := by
  unfold parseGameDateToUtcIso at h
  obtain ⟨found, hfound, htext⟩ := Option.bind_eq_some_iff.1 h
  refine isInstantText_componentsToUtcIso ?_ htext
  have hlength := length_year_of_gameDate hfound
  dsimp only
  cases hvalue : digitsValue (getMatchGroup found "year") with
  | none => exact ⟨le_rfl, by decide⟩
  | some year =>
    have hlt := (digitsValue_lt hvalue).trans_le (Nat.pow_le_pow_right (by decide) hlength)
    show 0 ≤ ((year : ℕ) : ℤ) ∧ ((year : ℕ) : ℤ) ≤ 9999
    omega

namespace Untrusted

/-! ## From a page to a payload -/

/-- The platform's part in reading a page that is not trusted. -/
structure SourceParser {Text : Type} (pf : Platform Text) extends PageParser pf where
  /-- `JSON.parse`; `none` when it throws -/
  parseJson : String → Option Json
  /-- `String(value)`, of a number -/
  numberText : ℚ → String

/-- The functions of the source, over what the platform parses. -/
def SourceParser.reader {Text : Type} {pf : Platform Text} (parser : SourceParser pf) :
    Reader pf where
  toHtmlReader := parser.toPageParser.reader.toHtmlReader
  parseJson := parser.parseJson
  numberText := parser.numberText

section Payloads

variable {Text : Type} {pf : Platform Text} (reader : Reader pf)

/-- A candidate of the page `text`, with any detail page. -/
inductive Discovered (pageUrl : Url) (text : String) : Candidate → Prop
  | ofFixture {entries : List Json} {found : Findings} {candidate : Candidate}
      (hentries : parseSourceFixture reader text = some entries)
      (hfound : collectFixtureCandidates pf entries pageUrl = .ok found)
      (hmem : candidate ∈ found.candidates) : Discovered pageUrl text candidate
  | ofRow {page : ℕ} {row : ReplayRow} {rowUrl detailHtml : String} {detailUrl : Url}
      {candidate : ReplayCandidate} (hhtml : parseSourceFixture reader text = none)
      (hrow : row ∈ reader.extractReplayRows text page pageUrl)
      (hurl : row.source.url = some rowUrl) (hdetail : newUrl pf rowUrl = .ok detailUrl)
      (hcandidate : rowCandidate reader.toHtmlReader row rowUrl detailUrl detailHtml =
        some candidate) : Discovered pageUrl text (ofCandidate candidate)

/-- Stageable evidence of bytes that a candidate was stored with. -/
inductive Evidenced (call : PageCall) (candidate : Candidate) : Evidence → Prop
  | mk (fetchedAt : String) (bytes : Bytes) (status : RawReplayStorageStatus)
      (failureCategory : Option StorageFailureCategory)
      (hstageable : status = .stored ∨ status = .skipped) :
      Evidenced call candidate
        (toEvidence pf call candidate fetchedAt bytes status failureCategory)

/-- A payload built from a candidate. -/
def Built (call : PageCall) (candidate : Candidate) (payload : Payload) : Prop :=
  ∃ evidence, @Evidenced Text pf call candidate evidence ∧
    toPayload reader call evidence = .ok payload

end Payloads

/-! ## Every payload that a page stages -/

/-- What the source may reply while it sends `text` for its list page. -/
def ListSays (text : String) : (e : Request) → Answer e → Prop
  | .fetchText _ options, r => options.phase = .list → r = .ok text
  | _, _ => True

/-- Services that may reply so, and what has been said. -/
def listing (text : String) : Env (List (Σ e : Request, Answer e)) Request Answer :=
  fun l e r l' => ListSays text e r ∧ l' = l ++ [⟨e, r⟩]

/-- What is staged between two moments is in `Q`. -/
def StagesOnly (Q : Payload → Prop) (l l' : List (Σ e : Request, Answer e)) : Prop :=
  ∀ payload result, (⟨.stage payload, result⟩ : Σ e : Request, Answer e) ∈ l' →
    (⟨.stage payload, result⟩ : Σ e : Request, Answer e) ∈ l ∨ Q payload

/-- Whatever it is given, it stages only what is in `Q`, and its results are in `P`. -/
def Stages {α : Type} (text : String) (Q : Payload → Prop) (P : α → Prop)
    (p : Proc Request Answer α) : Prop :=
  ∀ l, Proc.Safe (listing text) Proc.Anything (StagesOnly Q) (fun a _ => P a) l p

section Stages

variable {text : String} {Q : Payload → Prop} {α β : Type} {P : α → Prop}

/-- A finished program stages nothing. -/
theorem stages_pure {a : α} (h : P a) : Stages text Q P (.pure a) :=
  fun _ => Proc.safe_pure (fun _ _ h _ => h) h

/-- A request stages its payload, if that is what it is for. -/
theorem stages_call {e : Request} {k : Answer e → Proc Request Answer α}
    (he : ∀ payload, e = .stage payload → Q payload) (h : ∀ r, Stages text Q P (k r)) :
    Stages text Q P (.call e k) := by
  refine fun l => Proc.safe_call (fun _ => True) (fun _ _ _ _ => trivial) ?_ trivial
  rintro l - r l' ⟨_, rfl⟩
  refine ⟨?_, h r _⟩
  intro payload result hmem
  rcases List.mem_append.1 hmem with hmem | hmem
  · exact Or.inl hmem
  · cases List.mem_singleton.1 hmem
    exact Or.inr (he payload rfl)

/-- A composition stages what its parts do. -/
theorem stages_bind (mid : α → Prop) {P : β → Prop} {p : Proc Request Answer α}
    {f : α → Proc Request Answer β} (hp : Stages text Q mid p)
    (hf : ∀ a, mid a → Stages text Q P (f a)) : Stages text Q P (p.bind f) :=
  fun l => Proc.safe_bind_of (hp l) fun a l ha => hf a ha l

/-- A fan stages what its tasks do. -/
theorem stages_fan {τ : Type} {n limit : ℕ} {tasks : Fin n → Proc Request Answer τ}
    {k : (Fin n → τ) → Proc Request Answer α} (ht : ∀ i, Stages text Q (fun _ => True) (tasks i))
    (hk : ∀ vs, Stages text Q P (k vs)) : Stages text Q P (.fan limit tasks k) := by
  intro l
  refine Proc.safe_fan (fun _ => True) ?_ ?_ ?_ ?_ ?_ ?_ (fun i => ht i l) ?_ trivial
  · exact fun _ _ _ _ _ _ => trivial
  · exact fun _ _ _ h => h
  · exact fun _ _ _ h => h
  · exact fun _ _ _ hmem => Or.inl hmem
  · exact fun _ _ _ _ => trivial
  · exact fun _ _ _ _ _ => trivial
  · exact fun vs l _ _ => hk vs l

/-- A program that never stages, and what it gives. -/
theorem stages_of_gives {p : Proc Request Answer α}
    (hasks : Proc.Asks (fun e => ∀ payload, e ≠ .stage payload) p)
    (hgives : Proc.Gives (ListSays text) P p) : Stages text Q P p := by
  intro l
  have hquiet : Proc.Quiet (listing text) Proc.Anything (StagesOnly Q) p := by
    refine hasks.quiet (fun _ _ _ hmem => Or.inl hmem) ?_
    rintro e he l r l' ⟨_, rfl⟩
    refine ⟨fun payload result hmem => ?_, trivial⟩
    rcases List.mem_append.1 hmem with hmem | hmem
    · exact Or.inl hmem
    · cases List.mem_singleton.1 hmem
      exact absurd rfl (he payload)
  have hstages := hquiet (fun _ => True) (fun _ _ _ _ => trivial) l trivial
  have hresult : Proc.Safe (listing text) Proc.Anything (fun _ _ => True) (fun a _ => P a) l p :=
    hgives.safe (fun _ _ _ _ h => h.1) l
  exact (hstages.and hresult).weaken (fun _ _ h => h) (fun _ _ h => h.1) fun _ _ h => h.2

end Stages

section Page

variable {Text : Type} {pf : Platform Text} (reader : Reader pf) (call : PageCall) {text : String}
  {Q : Payload → Prop} {candidate : Candidate}

/-- The result of a store: evidence of the candidate, stageable or not. -/
def StoredAs (pf : Platform Text) (call : PageCall) (candidate : Candidate) :
    StoreRawReplayResult → Prop
  | .fetchFailed _ => True
  | .stored evidence => isStageable evidence = true → @Evidenced Text pf call candidate evidence

/-- The evidence is of the candidate. -/
theorem storedAs_toEvidence (fetchedAt : String) (bytes : Bytes) (status : RawReplayStorageStatus)
    (failureCategory : Option StorageFailureCategory) :
    StoredAs pf call candidate
      (.stored (toEvidence pf call candidate fetchedAt bytes status failureCategory)) := by
  intro hstageable
  refine .mk fetchedAt bytes status failureCategory ?_
  rcases Bool.or_eq_true_iff.1 hstageable with h | h
  · exact Or.inl (of_decide_eq_true h)
  · exact Or.inr (of_decide_eq_true h)

/-- Storing bytes stages nothing. -/
theorem stages_storeBytes (fetchedAt : String) (bytes : Bytes) :
    Stages text Q (fun evidence => StoredAs pf call candidate (.stored evidence))
      (storeBytes pf call candidate fetchedAt bytes) := by
  refine stages_call (fun _ => nofun) fun head => ?_
  cases head with
  | ok output =>
    dsimp only
    split
    · exact stages_pure (storedAs_toEvidence call _ _ _ _)
    · exact stages_pure (storedAs_toEvidence call _ _ _ _)
  | error error =>
    dsimp only
    split
    · refine stages_call (fun _ => nofun) fun put => ?_
      cases put with
      | ok _ => exact stages_pure (storedAs_toEvidence call _ _ _ _)
      | error _ => exact stages_pure (storedAs_toEvidence call _ _ _ _)
    · exact stages_pure (storedAs_toEvidence call _ _ _ _)

/-- Nor does storing a candidate. -/
theorem stages_storeRawReplay :
    Stages text Q (fun r => ∀ result, r = .ok result → StoredAs pf call candidate result)
      (storeRawReplay reader call candidate) := by
  have hfailure : ∀ fetchedAt error, Stages text Q
      (fun r => ∀ result, r = .ok result → StoredAs pf call candidate result)
      (Proc.pure (fetchFailure candidate fetchedAt error)) := by
    intro fetchedAt error
    refine stages_pure fun result hresult => ?_
    unfold fetchFailure at hresult
    split at hresult
    · cases hresult
      trivial
    · cases hresult
  refine stages_call (fun _ => nofun) fun now => ?_
  cases bytesUrl reader candidate with
  | error error => exact hfailure _ error
  | ok url =>
    refine stages_call (fun _ => nofun) fun r => ?_
    cases r with
    | error error => exact hfailure _ error
    | ok bytes =>
      refine stages_bind _ (stages_storeBytes call _ bytes) fun evidence hevidence => ?_
      refine stages_pure fun result hresult => ?_
      cases hresult
      exact hevidence

/-- What is staged is built from the candidate. -/
theorem stages_processCandidate (hbuilt : ∀ payload, Built reader call candidate payload → Q payload) :
    Stages text Q (fun _ => True) (processCandidate reader call candidate) := by
  refine stages_bind _ (stages_storeRawReplay reader call) fun r hr => ?_
  cases r with
  | error error => exact stages_pure trivial
  | ok result =>
    refine stages_bind (fun _ => True) ?_ fun r _ => ?_
    · unfold stageRawReplay
      cases result with
      | fetchFailed _ => exact stages_pure trivial
      | stored evidence =>
        dsimp only
        split
        · rename_i hstageable
          cases hpayload : toPayload reader call evidence with
          | error error => exact stages_pure trivial
          | ok payload =>
            refine stages_call (fun staged hstage => ?_) fun _ => stages_pure trivial
            cases hstage
            exact hbuilt payload ⟨evidence, hr _ rfl hstageable, hpayload⟩
        · exact stages_pure trivial
    · cases r with
      | error error => exact stages_pure trivial
      | ok staging => exact stages_pure trivial

/-- A page stages the payloads that are built from its candidates. -/
theorem stages_ingestPage {candidates : List Candidate}
    (hbuilt : ∀ candidate ∈ candidates, ∀ payload, Built reader call candidate payload → Q payload) :
    Stages text Q (fun _ => True) (ingestPage reader call candidates) := by
  refine stages_fan (fun i => ?_) fun _ => stages_pure trivial
  have hprocess := @stages_processCandidate _ _ reader call text _ _
    (hbuilt _ (candidates.get_mem i))
  unfold ingestCandidate
  split
  · split
    · exact stages_pure trivial
    · refine stages_call (fun _ => nofun) fun r => ?_
      rcases r with _ | attempted
      · exact stages_pure trivial
      · cases attempted with
        | false => exact hprocess
        | true => exact stages_pure trivial
    · exact hprocess
  · exact hprocess

/-- The candidates of a row loop are discovered. -/
def RowsDiscovered (text : String) (acc : RowLoop) : Prop :=
  ∀ candidate ∈ acc.candidates, Discovered reader call.sourceUrl text (ofCandidate candidate)

/-- A row of the page adds discovered candidates only. -/
theorem gives_row_discovered {acc : RowLoop} {row : ReplayRow}
    {allowed : (e : Request) → Answer e → Prop} (hhtml : parseSourceFixture reader text = none)
    (hrow : row ∈ reader.extractReplayRows text 1 call.sourceUrl)
    (hacc : RowsDiscovered reader call text acc) :
    Proc.Gives allowed (Async.Settled (RowsDiscovered reader call text) fun _ => True)
      (discoverRow reader.toHtmlReader (htmlInput call.dryRunOptions text) acc row) := by
  unfold discoverRow
  cases hurl : row.source.url with
  | none => exact Proc.gives_pure hacc
  | some rowUrl =>
    refine Async.gives_bind (fun _ => True) (Async.gives_any _) fun skip _ => ?_
    cases skip with
    | true => exact Proc.gives_pure hacc
    | false =>
      refine Async.gives_bind (fun candidate => ∀ c, candidate = some c →
        Discovered reader call.sourceUrl text (ofCandidate c)) ?_ fun candidate hcandidate => ?_
      · refine Async.gives_bind (fun url => newUrl pf rowUrl = .ok url) ?_ fun detailUrl hdetail => ?_
        · cases hnew : newUrl pf rowUrl with
          | error error => exact Proc.gives_pure trivial
          | ok url => exact Proc.gives_pure rfl
        · refine Async.gives_bind (fun _ => True) (Async.gives_any _) fun detailHtml _ => ?_
          exact Proc.gives_pure fun c hc => .ofRow hhtml hrow hurl hdetail hc
      · refine Proc.gives_pure ?_
        cases candidate with
        | none => exact hacc
        | some candidate =>
          intro c hc
          rcases List.mem_append.1 hc with hc | hc
          · exact hacc c hc
          · exact hcandidate c (congrArg some (List.mem_singleton.1 hc).symm)

/-- So do its rows. -/
theorem gives_rows_discovered {acc : RowLoop} {rows : List ReplayRow}
    {allowed : (e : Request) → Answer e → Prop} (hhtml : parseSourceFixture reader text = none)
    (hrows : ∀ row ∈ rows, row ∈ reader.extractReplayRows text 1 call.sourceUrl)
    (hacc : RowsDiscovered reader call text acc) :
    Proc.Gives allowed (Async.Settled (RowsDiscovered reader call text) fun _ => True)
      (discoverRows reader.toHtmlReader (htmlInput call.dryRunOptions text) acc rows) := by
  induction rows generalizing acc with
  | nil => exact Proc.gives_pure hacc
  | cons row rows ih =>
    refine Async.gives_bind _
      (gives_row_discovered reader call hhtml (hrows row List.mem_cons_self) hacc) fun acc hacc => ?_
    exact ih (fun other hmem => hrows other (List.mem_cons_of_mem row hmem)) hacc

/-- A page yields only what is discovered in its text. -/
theorem gives_discovered :
    Proc.Gives (ListSays text)
      (fun r => ∀ report, r = .ok report → ∀ candidate ∈ report.candidates,
        Discovered reader call.sourceUrl text candidate)
      (discoverReplaysDryRun reader call.dryRunOptions) := by
  have herror : ∀ error : JsError, (∃ failure, error = .sourceFetch failure ∧
      ∀ report : Report, report.candidates = [] → ∀ report', Except.ok (ε := JsError) report =
        .ok report' → ∀ candidate ∈ report'.candidates,
          Discovered reader call.sourceUrl text candidate) ∨
      (¬ IsSourceFetch error ∧ ∀ report, (.error error : Except JsError Report) = .ok report →
        ∀ candidate ∈ report.candidates, Discovered reader call.sourceUrl text candidate) := by
    intro error
    by_cases hfetch : IsSourceFetch error
    · obtain ⟨failure, rfl⟩ := hfetch
      refine Or.inl ⟨failure, rfl, ?_⟩
      rintro report hnone _ ⟨⟩ candidate hmem
      rw [hnone] at hmem
      exact absurd hmem List.not_mem_nil
    · exact Or.inr ⟨hfetch, fun _ => nofun⟩
  refine gives_listThen reader call text (fun _ _ _ hphase hr => hr hphase) ?_
  unfold discoverPageCandidates
  cases hfixture : parseSourceFixture reader text with
  | some entries =>
    dsimp only
    cases hfound : collectFixtureCandidates pf entries call.sourceUrl with
    | error error =>
      rw [show collectFixtureCandidates pf entries call.dryRunOptions.sourceUrl = .error error
        from hfound]
      exact Proc.gives_pure (herror error)
    | ok found =>
      rw [show collectFixtureCandidates pf entries call.dryRunOptions.sourceUrl = .ok found
        from hfound]
      refine Proc.gives_pure ?_
      rintro _ ⟨⟩ candidate hmem
      exact .ofFixture hfixture hfound hmem
  | none =>
    have hstart : RowsDiscovered reader call text {} := fun _ hmem => absurd hmem List.not_mem_nil
    have hrows := @gives_rows_discovered _ pf reader call text {}
      (reader.extractReplayRows text 1 call.sourceUrl) (ListSays text) hfixture (fun _ h => h) hstart
    have hpage : Proc.Gives (ListSays text)
        (Async.Settled (fun result => ∀ candidate ∈ result.candidates,
          Discovered reader call.sourceUrl text (ofCandidate candidate)) fun _ => True)
        (ReplaysFetcher.discoverPageCandidates reader.toHtmlReader
          (htmlInput call.dryRunOptions text)) := by
      refine Async.gives_bind _ hrows fun acc hacc => Proc.gives_pure ?_
      exact fun candidate hmem => hacc candidate (mem_of_collectCandidateDiagnostics hmem)
    refine Async.gives_bind (fun result => ∀ candidate ∈ result.candidates,
      Discovered reader call.sourceUrl text (ofCandidate candidate)) (hpage.imp ?_)
      fun result hresult => Proc.gives_pure ?_
    · rintro (error | result) hr
      · exact herror error
      · exact hr
    · rintro _ ⟨⟩ candidate hmem
      obtain ⟨c, hc, rfl⟩ := List.mem_map.1 hmem
      exact hresult c hc

/-- **Every staged payload is built from a discovered candidate.**  In every run of a page, however
    far it has come, whose source sends `text` for its list page. -/
theorem staged_discovered {l : List (Σ e : Request, Answer e)}
    {q : Job (Report × IngestPageResult)}
    (hruns : (Proc.lts (listing text) _).Runs Lts.Alone [] (discoverThenIngest reader call) l q) :
    ∀ payload result, (⟨.stage payload, result⟩ : Σ e : Request, Answer e) ∈ l →
      ∃ candidate, Discovered reader call.sourceUrl text candidate ∧
        Built reader call candidate payload := by
  let Q (payload : Payload) : Prop := ∃ candidate,
    Discovered reader call.sourceUrl text candidate ∧ Built reader call candidate payload
  have hpage : Stages text Q (fun _ => True) (discoverThenIngest reader call) := by
    refine stages_bind _ (stages_of_gives (loopFree_discovery reader call fun _ h => h).asks
      (gives_discovered reader call)) fun r hr => ?_
    cases r with
    | error error => exact stages_pure trivial
    | ok report =>
      refine stages_bind (fun _ => True) (stages_ingestPage reader call ?_) fun r _ => ?_
      · exact fun candidate hmem payload hbuilt => ⟨candidate, hr report rfl candidate hmem, hbuilt⟩
      · cases r with
        | error error => exact stages_pure trivial
        | ok result => exact stages_pure trivial
  have halone : Proc.Safe (listing text) Lts.Alone (StagesOnly Q) (fun _ _ => True) []
      (discoverThenIngest reader call) :=
    (hpage []).weaken (fun _ _ _ => trivial) (fun _ _ h => h) fun _ _ h => h
  refine halone.always (I := fun l => ∀ payload result,
    (⟨.stage payload, result⟩ : Σ e : Request, Answer e) ∈ l → Q payload) ?_ ?_ ?_ hruns
  · intro l l' hl hstages payload result hmem
    rcases hstages payload result hmem with hmem | hpayload
    · exact hl payload result hmem
    · exact hpayload
  · rintro l _ hl rfl
    exact hl
  · exact fun _ _ hmem => absurd hmem List.not_mem_nil

end Page

/-! ## Timestamps -/

/-- Absent, which a `null` column is as well, or the text of an instant. -/
def RealTimestamp : Option Json → Prop
  | none | some .null => True
  | some (.str text) => IsInstantText text
  | some _ => False

/-- The external id is an epoch, or the filename begins with a time. -/
def Superseded (candidate : Candidate) : Prop :=
  (∃ id, candidate.source.externalId = some (.str id) ∧ (epochToUtcIso id).isSome = true) ∨
    (replayTimestampFromFilename candidate.filename).isSome = true

/-- The date that the list page gives a candidate. -/
def listingDate (candidate : Candidate) : Option Json := candidate.metadata.bind (·.discoveredAt)

section Timestamps

variable {Text : Type} {pf : Platform Text} {call : PageCall} {candidate : Candidate}

/-- The external id has an instant exactly when it is a string that is an epoch. -/
theorem epochTimestamp_ok {reader : Reader pf} {externalId : Option Json} {epoch : Option String}
    (h : epochTimestamp reader externalId = .ok epoch) {text : String} :
    epoch = some text ↔ ∃ id, externalId = some (.str id) ∧ epochToUtcIso id = some text := by
  unfold epochTimestamp at h
  split at h
  · cases h
    constructor
    · intro hnone
      cases hnone
    · rintro ⟨_, hnone, _⟩
      cases hnone
  · rename_i id
    cases h
    constructor
    · exact fun htext => ⟨id, rfl, htext⟩
    · rintro ⟨_, hid, htext⟩
      cases hid
      exact htext
  · rename_i hstr
    split at h
    · cases h
      constructor
      · intro hnone
        cases hnone
      · rintro ⟨id, hid, _⟩
        cases hid
        exact absurd rfl (hstr id)
    · cases h

/-- What a payload says of the time. -/
theorem replayTimestamp_of_built {reader : Reader pf} {payload : Payload}
    (h : Built reader call candidate payload) :
    ∃ epoch, epochTimestamp reader candidate.source.externalId = .ok epoch ∧
      payload.replayTimestamp =
        ((epoch.or (replayTimestampFromFilename candidate.filename)).map Json.str).or
          (listingDate candidate) := by
  obtain ⟨_, ⟨fetchedAt, bytes, status, failureCategory, _⟩, hpayload⟩ := h
  unfold toPayload at hpayload
  cases hepoch : epochTimestamp reader candidate.source.externalId with
  | error error =>
    have herror : epochTimestamp reader (toEvidence pf call candidate fetchedAt bytes status
        failureCategory).source.externalId = .error error := hepoch
    rw [herror] at hpayload
    cases hpayload
  | ok epoch =>
    have hok : epochTimestamp reader (toEvidence pf call candidate fetchedAt bytes status
        failureCategory).source.externalId = .ok epoch := hepoch
    rw [hok] at hpayload
    cases hpayload
    exact ⟨epoch, rfl, rfl⟩

/-- The listing date of an HTML row. -/
theorem listingDate_ofRow {filename rawUrl rowUrl : String} {row : ReplayRow} :
    listingDate (ofCandidate (toReplayCandidateFromHtmlRow filename rawUrl row rowUrl)) =
      row.metadata.discoveredAt.map Json.str := by
  unfold listingDate ofCandidate toReplayCandidateFromHtmlRow optionalMetadata
  dsimp only
  split
  · rename_i hempty
    rw [hempty]
    rfl
  · rfl

/-- **An HTML page names instants only.** -/
theorem realTimestamp_of_html {parser : SourceParser pf} {sourceUrl : Url} {text : String}
    (h : Discovered parser.reader sourceUrl text candidate)
    (hhtml : parseSourceFixture parser.reader text = none) :
    RealTimestamp (listingDate candidate) := by
  cases h with
  | ofFixture hentries =>
    rw [hhtml] at hentries
    cases hentries
  | ofRow _ hrow _ _ hcandidate =>
    obtain ⟨filename, _, rfl⟩ := Option.map_eq_some_iff.1 hcandidate
    rw [listingDate_ofRow]
    have hrows : ∀ page, ∀ row ∈ extractReplayRows parser.toPageParser text page sourceUrl,
        RealTimestamp (row.metadata.discoveredAt.map Json.str) := by
      intro page row hrow
      unfold extractReplayRows at hrow
      split at hrow
      · exact absurd hrow List.not_mem_nil
      · obtain ⟨found, _, rfl⟩ := List.mem_map.1 hrow
        unfold parseReplayRow
        dsimp only
        cases hdate : parseGameDateToUtcIso _ with
        | none => trivial
        | some date => exact isInstantText_parseGameDateToUtcIso hdate
    exact hrows _ _ hrow

/-- **When a replay timestamp is real**: on an HTML page always, and on a fixture exactly when the
    listing date is superseded, absent, or the text of an instant. -/
theorem replay_timestamp_iff {parser : SourceParser pf} {sourceUrl : Url} {text : String}
    (hcandidate : Discovered parser.reader sourceUrl text candidate) {payload : Payload}
    (hbuilt : Built parser.reader call candidate payload) :
    RealTimestamp payload.replayTimestamp ↔
      parseSourceFixture parser.reader text = none ∨ Superseded candidate ∨
        RealTimestamp (listingDate candidate) := by
  obtain ⟨epoch, hepoch, htimestamp⟩ := replayTimestamp_of_built hbuilt
  rw [htimestamp]
  cases hid : epoch with
  | some instant =>
    obtain ⟨id, hstr, hinstant⟩ := (epochTimestamp_ok hepoch).1 hid
    refine iff_of_true (isInstantText_epochToUtcIso hinstant) (Or.inr (Or.inl (Or.inl ?_)))
    exact ⟨id, hstr, Option.isSome_iff_exists.2 ⟨instant, hinstant⟩⟩
  | none =>
    rw [Option.none_or]
    cases hfilename : replayTimestampFromFilename candidate.filename with
    | some instant =>
      refine iff_of_true (isInstantText_replayTimestampFromFilename hfilename)
        (Or.inr (Or.inl (Or.inr ?_)))
      rw [hfilename]
      rfl
    | none =>
      have hnot : ¬ Superseded candidate := by
        rintro (⟨id, hstr, hsome⟩ | hsome)
        · obtain ⟨instant, hinstant⟩ := Option.isSome_iff_exists.1 hsome
          have := (epochTimestamp_ok hepoch).2 ⟨id, hstr, hinstant⟩
          rw [hid] at this
          cases this
        · rw [hfilename] at hsome
          cases hsome
      show RealTimestamp (listingDate candidate) ↔ _
      constructor
      · exact fun hreal => Or.inr (Or.inr hreal)
      · rintro (hhtml | hsuperseded | hreal)
        · exact realTimestamp_of_html hcandidate hhtml
        · exact absurd hsuperseded hnot
        · exact hreal

end Timestamps

/-! ## Identities -/

/-- `derived:`, and a digest. -/
def DerivedForm (id : Json) : Prop :=
  ∃ digest, isSha256Hex digest = true ∧ id = .str ("derived:" ++ digest)

/-- The gates do not trust it: it is absent, empty or blank. -/
def Untrustworthy (externalId : Option Json) : Prop := isTrustworthyId externalId = .ok false

/-- An external id that is there is trusted, and does not look derived. -/
def IdSettled (externalId : Option Json) : Prop :=
  ∀ value, externalId = some value → ¬ Untrustworthy externalId ∧ ¬ DerivedForm value

/-- What the digest of a derived identity is taken of. -/
def identityText (evidence : Evidence) : String :=
  evidence.source.url ++ "\n" ++ evidence.sourceFilename ++ "\n" ++ evidence.checksum

/-- No field of it contains a newline. -/
structure OneLine (evidence : Evidence) : Prop where
  url : '\n' ∉ evidence.source.url.toList
  sourceFilename : '\n' ∉ evidence.sourceFilename.toList
  checksum : '\n' ∉ evidence.checksum.toList

/-- They differ in source URL, filename or checksum. -/
def Differ (left right : Evidence) : Prop :=
  left.source.url ≠ right.source.url ∨ left.sourceFilename ≠ right.sourceFilename ∨
    left.checksum ≠ right.checksum

section Identities

variable {Text : Type} {pf : Platform Text}

variable (pf) in
/-- The id is derived exactly when the gates do not trust the external one. -/
def IdentityAgrees (evidence : Evidence) : Prop :=
  DerivedForm (toSourceReplayId pf evidence) ↔ Untrustworthy evidence.source.externalId

variable (pf) in
/-- Replays without a trusted id have ids of their own. -/
def IdentitiesApart (evidences : Set Evidence) : Prop :=
  ∀ left ∈ evidences, ∀ right ∈ evidences, Untrustworthy left.source.externalId →
    Untrustworthy right.source.externalId → Differ left right →
      toSourceReplayId pf left ≠ toSourceReplayId pf right

/-- What comes before the first separator, and what after it. -/
theorem append_separator_inj {α : Type} {separator : α} {a b c d : List α} (ha : separator ∉ a)
    (hc : separator ∉ c) (h : a ++ separator :: b = c ++ separator :: d) : a = c ∧ b = d := by
  induction a generalizing c with
  | nil =>
    cases c with
    | nil => exact ⟨rfl, (List.cons_eq_cons.1 h).2⟩
    | cons y c =>
      obtain ⟨hy, _⟩ := List.cons_eq_cons.1 h
      exact absurd (hy ▸ List.mem_cons_self) hc
  | cons x a ih =>
    cases c with
    | nil =>
      obtain ⟨hx, _⟩ := List.cons_eq_cons.1 h
      exact absurd (hx ▸ List.mem_cons_self) ha
    | cons y c =>
      obtain ⟨hxy, h⟩ := List.cons_eq_cons.1 h
      obtain ⟨hac, hbd⟩ := ih (fun hmem => ha (List.mem_cons_of_mem x hmem))
        (fun hmem => hc (List.mem_cons_of_mem y hmem)) h
      exact ⟨by rw [hxy, hac], hbd⟩

/-- **The digested text tells the fields apart.** -/
theorem identityText_ne {left right : Evidence} (hleft : OneLine left) (hright : OneLine right)
    (h : Differ left right) : identityText left ≠ identityText right := by
  intro htext
  have hlists := congrArg String.toList htext
  unfold identityText at hlists
  simp only [String.toList_append, List.append_assoc] at hlists
  obtain ⟨hurl, hrest⟩ := append_separator_inj hleft.url hright.url hlists
  obtain ⟨hfilename, hchecksum⟩ :=
    append_separator_inj hleft.sourceFilename hright.sourceFilename hrest
  rcases h with hne | hne | hne
  · exact hne (String.toList_injective hurl)
  · exact hne (String.toList_injective hfilename)
  · exact hne (String.toList_injective hchecksum)

/-- An id that is undefined is derived. -/
theorem toSourceReplayId_none {evidence : Evidence} (h : evidence.source.externalId = none) :
    toSourceReplayId pf evidence =
      .str ("derived:" ++ calculateSha256 pf (pf.encode (identityText evidence))) := by
  unfold toSourceReplayId
  rw [h]
  rfl

/-- Any other one is taken as it is. -/
theorem toSourceReplayId_some {evidence : Evidence} {value : Json}
    (h : evidence.source.externalId = some value) : toSourceReplayId pf evidence = value := by
  unfold toSourceReplayId
  rw [h]

/-- A blank text does not look derived. -/
theorem not_derivedForm_of_untrustworthy {value : Json} (h : Untrustworthy (some value)) :
    ¬ DerivedForm value := by
  rintro ⟨digest, _, rfl⟩
  have hblank : ReplaysFetcher.isTrustworthyId (some ("derived:" ++ digest)) = false :=
    Except.ok.inj h
  have htrusted : ReplaysFetcher.isTrustworthyId (some ("derived:" ++ digest)) = true := by
    unfold ReplaysFetcher.isTrustworthyId
    dsimp only
    rw [String.toList_append, List.any_append]
    rfl
  rw [htrusted] at hblank
  cases hblank

/-- **One replay**: its id agrees with the gates iff its external id is settled. -/
theorem identityAgrees_iff {evidence : Evidence} :
    IdentityAgrees pf evidence ↔ IdSettled evidence.source.externalId := by
  unfold IdentityAgrees
  cases hid : evidence.source.externalId with
  | none =>
    rw [toSourceReplayId_none hid]
    refine iff_of_true (iff_of_true ⟨_, pf.sha256Hex_hex _, rfl⟩ rfl) ?_
    intro value hvalue
    cases hvalue
  | some value =>
    rw [toSourceReplayId_some hid]
    constructor
    · intro hagrees other hother
      cases hother
      by_cases hblank : Untrustworthy (some value)
      · exact absurd (hagrees.2 hblank) (not_derivedForm_of_untrustworthy hblank)
      · exact ⟨hblank, fun hderived => hblank (hagrees.1 hderived)⟩
    · intro hsettled
      obtain ⟨htrusted, hderived⟩ := hsettled value rfl
      exact iff_of_false hderived htrusted

/-- Settled ids are no reason for two replays to share one. -/
theorem identitiesApart_of_settled {evidences : Set Evidence}
    (hlines : ∀ evidence ∈ evidences, OneLine evidence)
    (hsha : Set.InjOn (fun text => calculateSha256 pf (pf.encode text)) (identityText '' evidences))
    (hsettled : ∀ evidence ∈ evidences, IdSettled evidence.source.externalId) :
    IdentitiesApart pf evidences := by
  intro left hleft right hright hleftBlank hrightBlank hdiffer heq
  -- a blank id that is settled is absent
  have habsent : ∀ evidence ∈ evidences, Untrustworthy evidence.source.externalId →
      evidence.source.externalId = none := by
    intro evidence hmem hblank
    cases hid : evidence.source.externalId with
    | none => rfl
    | some value => exact absurd hblank (hsettled evidence hmem value hid).1
  rw [toSourceReplayId_none (habsent left hleft hleftBlank),
    toSourceReplayId_none (habsent right hright hrightBlank)] at heq
  have hlists := congrArg String.toList (Json.str.inj heq)
  rw [String.toList_append, String.toList_append] at hlists
  have hdigests := String.toList_injective (List.append_cancel_left hlists)
  have htexts := hsha ⟨left, hleft, rfl⟩ ⟨right, hright, rfl⟩ hdigests
  exact identityText_ne (hlines left hleft) (hlines right hright) hdiffer htexts

/-- **When identities agree with the gates**: for any replays, exactly when every external id that
    is there is trusted and does not look derived.  Then no two of them share an id, either. -/
theorem source_identity_iff {evidences : Set Evidence}
    (hlines : ∀ evidence ∈ evidences, OneLine evidence)
    (hsha : Set.InjOn (fun text => calculateSha256 pf (pf.encode text)) (identityText '' evidences)) :
    ((∀ evidence ∈ evidences, IdentityAgrees pf evidence) ∧ IdentitiesApart pf evidences) ↔
      ∀ evidence ∈ evidences, IdSettled evidence.source.externalId := by
  constructor
  · rintro ⟨hagrees, _⟩ evidence hmem
    exact identityAgrees_iff.1 (hagrees evidence hmem)
  · intro hsettled
    refine ⟨fun evidence hmem => identityAgrees_iff.2 (hsettled evidence hmem), ?_⟩
    exact identitiesApart_of_settled hlines hsha hsettled

end Identities

/-! ## A fixture with blank ids -/

/-- An entry with a blank id. -/
def blankEntry : Json :=
  .obj [("externalId", .str ""), ("filename", .str "a"), ("url", .str "http://a")]

/-- Its listing date is the 31st of April. -/
def undatedEntry : Json :=
  .obj [("discoveredAt", .str "2026-04-31"), ("externalId", .str ""), ("filename", .str "b"),
    ("url", .str "ftp://b")]

/-- The text of a page with the two entries. -/
def blankFixture : String :=
  "\x7b\"candidates\":[\x7b\"externalId\":\"\",\"filename\":\"a\",\"url\":\"http://a\"\x7d," ++
    "\x7b\"discoveredAt\":\"2026-04-31\",\"externalId\":\"\",\"filename\":\"b\"," ++
    "\"url\":\"ftp://b\"\x7d]\x7d"

/-- It reads one text. -/
def fixtureParser : SourceParser toyPlatform where
  toPageParser := toyParser
  parseJson text :=
    if text = blankFixture then some (.obj [("candidates", .arr [blankEntry, undatedEntry])])
    else none
  numberText _ := ""

/-- The first one's candidate. -/
def blankCandidate : Candidate where
  filename := "a"
  source := { externalId := some (.str ""), url := "http://a" }

/-- The second one's candidate. -/
def undatedCandidate : Candidate where
  filename := "b"
  metadata := some { discoveredAt := some (.str "2026-04-31") }
  source := { externalId := some (.str ""), url := "ftp://b" }

/-- The page has both. -/
theorem discovered_blankFixture {candidate : Candidate}
    (h : candidate ∈ [blankCandidate, undatedCandidate]) :
    Discovered fixtureParser.reader nullCall.sourceUrl blankFixture candidate := by
  have hentries : parseSourceFixture fixtureParser.reader blankFixture =
      some [blankEntry, undatedEntry] := by decide +kernel
  have hfound : (collectFixtureCandidates toyPlatform [blankEntry, undatedEntry]
      nullCall.sourceUrl).map Findings.candidates = .ok [blankCandidate, undatedCandidate] := by
    decide +kernel
  cases hresult : collectFixtureCandidates toyPlatform [blankEntry, undatedEntry]
      nullCall.sourceUrl with
  | error error =>
    rw [hresult] at hfound
    cases hfound
  | ok found =>
    rw [hresult] at hfound
    exact .ofFixture hentries hresult (Except.ok.inj hfound ▸ h)

/-- The evidence of one of them, stored. -/
def storedEvidence (candidate : Candidate) : Evidence :=
  toEvidence toyPlatform nullCall candidate "2026-05-01T00:00:00.000Z" [97] .stored

/-- What is stored for a candidate is its evidence. -/
theorem evidenced_storedEvidence (candidate : Candidate) :
    @Evidenced _ toyPlatform nullCall candidate (storedEvidence candidate) :=
  ⟨_, _, _, none, Or.inl rfl⟩

/-- Without line ends the identity is one line for each field. -/
theorem oneLine_storedEvidence {candidate : Candidate}
    (hurl : '\n' ∉ candidate.source.url.toList) (hfilename : '\n' ∉ candidate.filename.toList) :
    OneLine (storedEvidence candidate) :=
  { url := hurl, sourceFilename := hfilename
    checksum := show '\n' ∉ (toyDigest [97]).toList by decide +kernel }

/-- Two digests that do not collide. -/
theorem injOn_storedEvidence :
    Set.InjOn (fun text => calculateSha256 toyPlatform (toyPlatform.encode text))
      (identityText '' {storedEvidence blankCandidate, storedEvidence undatedCandidate}) := by
  rw [Set.image_pair, Set.injOn_pair]
  intro hdigests
  exact absurd hdigests (by decide +kernel)

/-- Two replays whose external ids are blank share an id. -/
theorem source_identity_not_agreed :
    ¬ ∀ evidences : Set Evidence,
      (∀ evidence ∈ evidences, ∃ candidate,
        Discovered fixtureParser.reader nullCall.sourceUrl blankFixture candidate ∧
          @Evidenced _ toyPlatform nullCall candidate evidence) →
      (∀ evidence ∈ evidences, OneLine evidence) →
      Set.InjOn (fun text => calculateSha256 toyPlatform (toyPlatform.encode text))
        (identityText '' evidences) →
      (∀ evidence ∈ evidences, IdentityAgrees toyPlatform evidence) ∧
        IdentitiesApart toyPlatform evidences := by
  intro hclaim
  have hmem : ∀ {P : Evidence → Prop}, P (storedEvidence blankCandidate) →
      P (storedEvidence undatedCandidate) →
      ∀ evidence ∈ ({storedEvidence blankCandidate, storedEvidence undatedCandidate} :
        Set Evidence), P evidence := by
    rintro P hblank hundated evidence (rfl | rfl)
    · exact hblank
    · exact hundated
  have hblank : Discovered fixtureParser.reader nullCall.sourceUrl blankFixture blankCandidate :=
    discovered_blankFixture List.mem_cons_self
  have hundated :
      Discovered fixtureParser.reader nullCall.sourceUrl blankFixture undatedCandidate :=
    discovered_blankFixture (by decide +kernel)
  obtain ⟨_, hapart⟩ := hclaim _
    (hmem ⟨_, hblank, evidenced_storedEvidence _⟩ ⟨_, hundated, evidenced_storedEvidence _⟩)
    (hmem (oneLine_storedEvidence (by decide) (by decide))
      (oneLine_storedEvidence (by decide) (by decide))) injOn_storedEvidence
  have hurls : Differ (storedEvidence blankCandidate) (storedEvidence undatedCandidate) :=
    Or.inl (by decide)
  exact hapart _ (Or.inl rfl) _ (Or.inr rfl) rfl rfl hurls rfl

/-- The two without their external ids. -/
def namelessEvidence (candidate : Candidate) : Evidence :=
  storedEvidence { candidate with source := { candidate.source with externalId := none } }

/-- Two candidates without ids. -/
theorem source_identity_iff_nameless :
    ((∀ evidence ∈ ({namelessEvidence blankCandidate, namelessEvidence undatedCandidate} :
        Set Evidence), IdentityAgrees toyPlatform evidence) ∧
      IdentitiesApart toyPlatform
        {namelessEvidence blankCandidate, namelessEvidence undatedCandidate}) ↔
      ∀ evidence ∈ ({namelessEvidence blankCandidate, namelessEvidence undatedCandidate} :
        Set Evidence), IdSettled evidence.source.externalId := by
  have htexts : identityText '' {namelessEvidence blankCandidate,
        namelessEvidence undatedCandidate} =
      identityText '' {storedEvidence blankCandidate, storedEvidence undatedCandidate} := by
    rw [Set.image_pair, Set.image_pair]
    rfl
  refine source_identity_iff ?_ (htexts ▸ injOn_storedEvidence)
  rintro evidence (rfl | rfl)
  · exact oneLine_storedEvidence (by decide) (by decide)
  · exact oneLine_storedEvidence (by decide) (by decide)

/-! ## A listing date that is none -/

/-- A date ends in its zone. -/
theorem getLast?_toISOString (date : Date) : (toISOString date).toList.getLast? = some 'Z' := by
  unfold toISOString
  rw [String.toList_append]
  exact List.getLast?_concat

/-- Its payload has that date. -/
theorem built_undated : ∃ payload,
    Built fixtureParser.reader nullCall undatedCandidate payload ∧
      payload.replayTimestamp = some (.str "2026-04-31") :=
  ⟨_, ⟨_, evidenced_storedEvidence _, rfl⟩, by decide +kernel⟩

/-- A date that no calendar has is no real timestamp. -/
theorem replay_timestamp_iff_undated : ∃ payload,
    Built fixtureParser.reader nullCall undatedCandidate payload ∧
      (RealTimestamp payload.replayTimestamp ↔
        parseSourceFixture fixtureParser.reader blankFixture = none ∨
          Superseded undatedCandidate ∨ RealTimestamp (listingDate undatedCandidate)) := by
  obtain ⟨payload, hbuilt, _⟩ := built_undated
  exact ⟨payload, hbuilt, replay_timestamp_iff (discovered_blankFixture (by decide +kernel)) hbuilt⟩

/-- A fixture stages the 31st of April. -/
theorem replay_timestamp_not_real :
    ¬ ∀ candidate payload,
      Discovered fixtureParser.reader nullCall.sourceUrl blankFixture candidate →
      Built fixtureParser.reader nullCall candidate payload →
      RealTimestamp payload.replayTimestamp := by
  intro hclaim
  obtain ⟨payload, hbuilt, htimestamp⟩ := built_undated
  have hreal := hclaim _ _ (discovered_blankFixture (by decide +kernel)) hbuilt
  rw [htimestamp] at hreal
  obtain ⟨date, _, _, _, htext⟩ := hreal
  have hlast := getLast?_toISOString date
  rw [← htext] at hlast
  exact absurd hlast (by decide)

end Untrusted

end ReplaysFetcher
