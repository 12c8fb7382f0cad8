/-
  When an empty page ends a run (`src/run/run-once-page.ts`, `src/discovery/discover-dedup.ts`,
  `src/discovery/html.ts`).

  A run fetches list pages until one lists no replays.  What the page loop looks at is the number of
  CANDIDATES of an `ok` page, and a page can have none for three reasons besides an empty listing:
  it has no listing table, its rows have no accepted link, or the detail pages behind the links name
  no file.  Each of them is a warning in the report at most, and the report stays `ok`.

  1. `HasListing` and `ListsNothing` say what a page contains, in the language of the patterns.
  2. A discovery is followed read by read (`discovery_tells`): the candidates are none iff no detail
     read `Yields` anything, that is, each of them was answered by a page without a filename.
  3. `stopReason_of_listsNothing` is the good case, and `empty_page_exact_iff` the exact one: the
     stop is right iff the page lists nothing, or some detail read yields.
-/
import ReplaysFetcher.Html
import ReplaysFetcher.ReadRetries
import ReplaysFetcher.Effectful.Conversations

namespace ReplaysFetcher

open Effectful

/-! ## What a list page contains -/

/-- The page contains the listing table. -/
def HasListing (html : String) : Prop := Regex.Occurs tablePattern none html.toList

/-- The page contains the listing table, and the table has no rows. -/
def ListsNothing (html : String) : Prop :=
  HasListing html ∧ ∀ tableBody, tableBody? html = some tableBody →
    ¬ Regex.Occurs rowPattern none tableBody.toList

/-- The code finds the table exactly if it is there. -/
theorem isSome_tableBody (html : String) : (tableBody? html).isSome ↔ HasListing html := by
  unfold HasListing tableBody? execOn
  rw [← Regex.exec_isSome_iff]
  cases hexec : Regex.exec tablePattern none html.toList with
  | none => exact Iff.rfl
  | some found =>
    have hbody : ∃ node ∈ tablePattern, node.group? = some "body" := by
      refine ⟨Regex.few isAny (some "body"), ?_, rfl⟩
      simp [tablePattern, filler]
    have hkept := Regex.group?_isSome_of_exec hbody hexec
    rw [Option.bind_some]
    unfold groupOf
    rw [Option.isSome_map]
    exact iff_of_true hkept rfl

theorem listsNothing_iff (html : String) : ListsNothing html ↔
    ∃ tableBody, tableBody? html = some tableBody ∧ execOn rowPattern tableBody = none := by
  have hrows : ∀ tableBody : String, execOn rowPattern tableBody = none ↔
      ¬ Regex.Occurs rowPattern none tableBody.toList := by
    intro tableBody
    rw [← Regex.exec_isSome_iff, Option.not_isSome_iff_eq_none]
    rfl
  unfold ListsNothing
  rw [← isSome_tableBody, Option.isSome_iff_exists]
  constructor
  · rintro ⟨⟨tableBody, hbody⟩, hnone⟩
    exact ⟨tableBody, hbody, (hrows tableBody).2 (hnone tableBody hbody)⟩
  · rintro ⟨tableBody, hbody, hnone⟩
    refine ⟨⟨tableBody, hbody⟩, fun tableBody' hbody' => ?_⟩
    cases hbody.symm.trans hbody'
    exact (hrows tableBody).1 hnone

instance (html : String) : Decidable (ListsNothing html) :=
  decidable_of_iff
      ((tableBody? html).any fun tableBody => (execOn rowPattern tableBody).isNone) <| by
    rw [listsNothing_iff, Option.any_eq_true]
    simp only [Option.isNone_iff_eq_none]

section Rows

variable {Text : Type} {pf : Platform Text} {parser : PageParser pf} {html : String} {page : ℕ}
  {pageUrl : Url}

theorem extractReplayRows_eq_nil (h : ListsNothing html) :
    extractReplayRows parser html page pageUrl = [] := by
  unfold extractReplayRows
  split
  · rfl
  · rename_i tableBody hbody
    have hnone : allMatches rowPattern tableBody = [] :=
      Regex.matchAll_eq_nil_iff.2 (h.2 tableBody hbody)
    rw [hnone]
    rfl

/-- Nothing is repeated away: some candidates stay some. -/
theorem collectCandidateDiagnostics_eq_nil {candidates : List ReplayCandidate} :
    (collectCandidateDiagnostics candidates).candidates = [] ↔ candidates = [] := by
  rw [collectCandidateDiagnostics_candidates]
  have hgrows : ∀ (candidates output : List ReplayCandidate), output ≠ [] →
      candidates.foldl emitNew output ≠ [] := by
    intro candidates
    induction candidates with
    | nil => exact fun output h => h
    | cons candidate rest ih =>
      refine fun output h => ih _ ?_
      unfold emitNew
      split
      · exact h
      · exact List.append_ne_nil_of_left_ne_nil h _
  constructor
  · intro h
    cases candidates with
    | nil => rfl
    | cons candidate rest => exact absurd h (hgrows rest [candidate] (List.cons_ne_nil _ _))
  · rintro rfl
    rfl

end Rows

/-! ## The texts of a conversation -/

section Replies

variable {Text : Type}

abbrev SourcedConversation (Text : Type) : Type := List (Σ e : SourcedEffect Text, SourcedReply e)

/-- What the source answered to the text reads, in their order. -/
def textReplies (l : SourcedConversation Text) : List (Except JsError String) :=
  l.filterMap fun x => match x with
    | ⟨.text _ _, reply⟩ => some reply
    | _ => none

@[simp] theorem textReplies_nil : textReplies ([] : SourcedConversation Text) = [] := rfl

@[simp] theorem textReplies_append (l l' : SourcedConversation Text) :
    textReplies (l ++ l') = textReplies l ++ textReplies l' := List.filterMap_append

@[simp] theorem textReplies_text (url : Url) (options : SourceReadOptions)
    (reply : Except JsError String) :
    textReplies ([⟨.text url options, reply⟩] : SourcedConversation Text) = [reply] := rfl

/-- A detail read that failed, or was answered by a page with a filename. -/
def Yields : Except JsError String → Prop
  | .error _ => True
  | .ok html => (extractFilenameFromDetailHtml html).isSome = true

theorem yields_ok (html : String) :
    Yields (.ok html) ↔ (extractFilenameFromDetailHtml html).isSome = true := Iff.rfl

end Replies

/-! ## One discovery, read by read -/

section Discovery

variable {Text : Type} {pf : Platform Text} {parser : PageParser pf} {attempts : Option ℕ}
  {sourceUrl : Url} {l : SourcedConversation Text}

/-- A read of a run that asks for no delay. -/
theorem pacedFetchText_sourced (first : Bool) (url : Url) (readOptions : SourceReadOptions) :
    pacedFetchText (sourcedDryRunOptions attempts (some 1) sourceUrl) first url readOptions =
      (Proc.perform (SourcedEffect.text url readOptions) :
        Async (SourcedEffect Text) SourcedReply JsError String) := by
  unfold pacedFetchText
  rw [if_neg]
  · rfl
  · show ¬ (!first && decide ((none : Option ℕ).getD defaultRequestDelayMs > 0)) = true
    cases first <;> decide

/-- What the row loop has come to, read off the detail reads: without a yield there is no further
    candidate, and a rejection is the rejection of a read. -/
def RowsTell (acc : RowLoop) (l : SourcedConversation Text) : Except JsError RowLoop → Prop
  | .ok acc' => acc'.candidates = [] ↔ acc.candidates = [] ∧ ∀ reply ∈ textReplies l, ¬ Yields reply
  | .error _ => ∃ reply ∈ textReplies l, Yields reply

/-- The input of the row loop. -/
abbrev rowInput (parser : PageParser pf) (attempts : Option ℕ) (sourceUrl : Url) (html : String) :
    DiscoverPageInput (SourcedEffect Text) SourcedReply :=
  discoverPageInput parser.reader (sourcedDryRunOptions attempts (some 1) sourceUrl) 1 html

/-- What the read of a detail page makes of a row. -/
theorem emits_rowCandidate {html rowUrl : String} {row : ReplayRow}
    {r : Except JsError (Option ReplayCandidate)} (hparse : (pf.parseUrl rowUrl).isSome = true)
    (h : Emits (discoverRowCandidate parser.reader.toHtmlReader
      (rowInput parser attempts sourceUrl html) row rowUrl) l r) :
    ∃ reply, textReplies l = [reply] ∧ match reply with
      | .error error => r = .error error
      | .ok detailHtml => ∃ detailUrl, r = .ok (rowCandidate parser.reader.toHtmlReader row rowUrl
          detailUrl detailHtml) := by
  obtain ⟨detailUrl, hdetailUrl⟩ := Option.isSome_iff_exists.1 hparse
  have hurl : newUrl pf rowUrl = .ok detailUrl := by
    unfold newUrl
    rw [hdetailUrl]
  have hread : discoverRowCandidate parser.reader.toHtmlReader
      (rowInput parser attempts sourceUrl html) row rowUrl =
        Proc.bind (pacedFetchText (sourcedDryRunOptions attempts (some 1) sourceUrl) false detailUrl
          (buildReadOptions (sourcedDryRunOptions attempts (some 1) sourceUrl :
            DiscoverReplaysDryRunOptions (SourcedEffect Text) SourcedReply) 1 .detail))
          (Async.onOk fun detailHtml => pure (rowCandidate parser.reader.toHtmlReader row rowUrl
            detailUrl detailHtml)) := by
    unfold discoverRowCandidate
    rw [hurl]
    exact Async.bind_eq _ _
  rw [hread, pacedFetchText_sourced] at h
  obtain ⟨reply, l₁, l₂, rfl, hfirst, hrest⟩ := Proc.emits_bind.1 h
  obtain rfl := Proc.emits_perform.1 hfirst
  refine ⟨reply, ?_, ?_⟩
  · cases reply with
    | error error =>
      obtain ⟨rfl, _⟩ := Proc.emits_pure.1 hrest
      rfl
    | ok detailHtml =>
      obtain ⟨rfl, _⟩ := Proc.emits_pure.1 hrest
      rfl
  · cases reply with
    | error error => exact (Proc.emits_pure.1 hrest).2
    | ok detailHtml => exact ⟨detailUrl, (Proc.emits_pure.1 hrest).2⟩

theorem rowsTell_row {html : String} {acc : RowLoop} {row : ReplayRow}
    {r : Except JsError RowLoop}
    (hparse : ∀ url, row.source.url = some url → (pf.parseUrl url).isSome = true)
    (h : Emits (discoverRow parser.reader.toHtmlReader (rowInput parser attempts sourceUrl html) acc
      row) l r) : RowsTell acc l r := by
  unfold discoverRow at h
  split at h
  · -- a row without a link
    obtain ⟨rfl, rfl⟩ := Proc.emits_pure.1 h
    exact ⟨fun hnone => ⟨hnone, fun _ hmem => absurd hmem List.not_mem_nil⟩, fun h => h.1⟩
  · rename_i rowUrl hrowUrl
    -- a run has no gate
    have hgate : shouldSkipPreDetail row.source.externalId
        (rowInput parser attempts sourceUrl html).existsBySourceIdentity
        (rowInput parser attempts sourceUrl html).sourceSystem =
          (pure false : Async (SourcedEffect Text) SourcedReply JsError Bool) := rfl
    rw [hgate, pure_bind, if_neg Bool.false_ne_true] at h
    cases r with
    | error error =>
      rcases Async.emits_bind_error.1 h with hcandidate | ⟨_, _, _, _, _, hpure⟩
      · obtain ⟨reply, hreplies, htold⟩ := emits_rowCandidate (hparse rowUrl hrowUrl) hcandidate
        refine ⟨reply, by rw [hreplies]; exact List.mem_singleton_self _, ?_⟩
        cases reply with
        | error error => trivial
        | ok detailHtml =>
          obtain ⟨_, heq⟩ := htold
          cases heq
      · cases (Proc.emits_pure.1 hpure).2
    | ok acc' =>
      obtain ⟨candidate, l₁, l₂, rfl, hcandidate, hpure⟩ := Async.emits_bind_ok.1 h
      obtain ⟨rfl, hacc⟩ := Proc.emits_pure.1 hpure
      cases hacc
      obtain ⟨reply, hreplies, htold⟩ := emits_rowCandidate (hparse rowUrl hrowUrl) hcandidate
      rw [List.append_nil]
      unfold RowsTell
      rw [hreplies]
      cases reply with
      | error error => cases htold
      | ok detailHtml =>
        obtain ⟨detailUrl, heq⟩ := htold
        cases heq
        unfold rowCandidate
        cases hfilename : parser.reader.extractFilenameFromDetailHtml detailHtml with
        | none =>
          have hno : ¬ Yields (.ok detailHtml) := by
            rw [yields_ok, show extractFilenameFromDetailHtml detailHtml = none from hfilename]
            exact Bool.false_ne_true
          simpa [RowLoop.addRow] using fun _ => hno
        | some filename =>
          have hyes : Yields (.ok detailHtml) := by
            rw [yields_ok,
              show extractFilenameFromDetailHtml detailHtml = some filename from hfilename]
            rfl
          simp [RowLoop.addRow, hyes]

theorem rowsTell_rows {html : String} {rows : List ReplayRow} {acc : RowLoop}
    {r : Except JsError RowLoop}
    (hparse : ∀ row ∈ rows, ∀ url, row.source.url = some url → (pf.parseUrl url).isSome = true)
    (h : Emits (discoverRows parser.reader.toHtmlReader (rowInput parser attempts sourceUrl html)
      acc rows) l r) : RowsTell acc l r := by
  induction rows generalizing acc l with
  | nil =>
    obtain ⟨rfl, rfl⟩ := Proc.emits_pure.1 h
    exact ⟨fun hnone => ⟨hnone, fun _ hmem => absurd hmem List.not_mem_nil⟩, fun h => h.1⟩
  | cons row rows ih =>
    have hrow := hparse row List.mem_cons_self
    have hrest : ∀ row ∈ rows, ∀ url, row.source.url = some url →
        (pf.parseUrl url).isSome = true := fun row hmem => hparse row (List.mem_cons_of_mem _ hmem)
    cases r with
    | error error =>
      rcases Async.emits_bind_error.1 h with hfirst | ⟨acc₁, l₁, l₂, rfl, hfirst, hsecond⟩
      · exact rowsTell_row hrow hfirst
      · obtain ⟨reply, hmem, hyields⟩ := ih hrest hsecond
        exact ⟨reply, by rw [textReplies_append]; exact List.mem_append_right _ hmem, hyields⟩
    | ok acc' =>
      obtain ⟨acc₁, l₁, l₂, rfl, hfirst, hsecond⟩ := Async.emits_bind_ok.1 h
      have htold : acc₁.candidates = [] ↔ acc.candidates = [] ∧ ∀ reply ∈ textReplies l₁,
          ¬ Yields reply := rowsTell_row hrow hfirst
      have htold' : acc'.candidates = [] ↔ acc₁.candidates = [] ∧ ∀ reply ∈ textReplies l₂,
          ¬ Yields reply := ih hrest hsecond
      show acc'.candidates = [] ↔ acc.candidates = [] ∧ ∀ reply ∈ textReplies (l₁ ++ l₂),
        ¬ Yields reply
      rw [htold', htold, textReplies_append, List.forall_mem_append, and_assoc]

/-- What the rows of a page come to, read off the detail reads. -/
def PageTells (details : List (Except JsError String)) :
    Except JsError (PageFindings ReplayCandidate) → Prop
  | .ok found => found.candidates = [] ↔ ∀ reply ∈ details, ¬ Yields reply
  | .error _ => ∃ reply ∈ details, Yields reply

theorem pageTells_candidates {html : String} {r : Except JsError DiscoverPageCandidatesResult}
    (hhtml : parser.reader.parseSourceFixture html = none)
    (h : Emits (discoverPageCandidates parser.reader.toHtmlReader
      (rowInput parser attempts sourceUrl html)) l r) :
    PageTells (textReplies l) (r.map DiscoverPageCandidatesResult.findings) ∧
      (ListsNothing html → textReplies l = []) := by
  have hfixture : (rowInput parser attempts sourceUrl html).fixture = none := hhtml
  unfold discoverPageCandidates at h
  rw [hfixture] at h
  have hparse : ∀ row ∈ parser.reader.extractReplayRows html 1 (pf.toPageUrl sourceUrl 1),
      ∀ url, row.source.url = some url → (pf.parseUrl url).isSome = true :=
    fun row hrow url hurl => parser.reader.parse_rowUrl html 1 _ row hrow url hurl
  obtain ⟨result, l₁, l₂, rfl, hrows, hpure⟩ := Proc.emits_bind.1 (Async.bind_eq _ _ ▸ h)
  have hl₂ : l₂ = [] ∧ r = result.map RowLoop.result := by
    cases result with
    | error error => exact Proc.emits_pure.1 hpure
    | ok acc => exact Proc.emits_pure.1 hpure
  obtain ⟨rfl, rfl⟩ := hl₂
  rw [List.append_nil]
  refine ⟨?_, fun hempty => ?_⟩
  · have htold := rowsTell_rows hparse hrows
    cases result with
    | error error => exact htold
    | ok acc =>
      have hnil : (RowLoop.result acc).candidates = [] ↔ acc.candidates = [] :=
        collectCandidateDiagnostics_eq_nil
      refine hnil.trans (htold.trans ?_)
      exact and_iff_right rfl
  · -- no rows, no reads
    have hnone : (parser.reader.extractReplayRows html 1 (pf.toPageUrl sourceUrl 1)) = [] :=
      extractReplayRows_eq_nil hempty
    replace hrows : Emits (discoverRows parser.reader.toHtmlReader
      (rowInput parser attempts sourceUrl html) {}
      (parser.reader.extractReplayRows html 1 (pf.toPageUrl sourceUrl 1))) l₁ result := hrows
    rw [hnone] at hrows
    obtain ⟨rfl, _⟩ := Proc.emits_pure.1 hrows
    rfl

/-- The body of the page loop: the first read is the list. -/
theorem discoverPage_tells {r : Except JsError (PageFindings ReplayCandidate)}
    (h : Emits (discoverPage parser.reader
      (sourcedDryRunOptions attempts (some 1) sourceUrl) 1) l r) :
    ∃ reply details, textReplies l = reply :: details ∧ ∀ html, reply = .ok html →
      parser.reader.parseSourceFixture html = none →
      PageTells details r ∧ (ListsNothing html → details = []) := by
  unfold discoverPage at h
  rw [pacedFetchText_sourced, Async.bind_eq] at h
  obtain ⟨reply, l₁, l₂, rfl, hlist, hrest⟩ := Proc.emits_bind.1 h
  obtain rfl := Proc.emits_perform.1 hlist
  refine ⟨reply, textReplies l₂, textReplies_append _ _, fun html hreply hhtml => ?_⟩
  subst hreply
  rw [Async.onOk_ok, Async.bind_eq] at hrest
  obtain ⟨found, l₃, l₄, rfl, hfound, hpure⟩ := Proc.emits_bind.1 hrest
  obtain ⟨htold, hnone⟩ := pageTells_candidates hhtml hfound
  have hl₄ : l₄ = [] ∧ r = found.map DiscoverPageCandidatesResult.findings := by
    cases found with
    | error error => exact Proc.emits_pure.1 hpure
    | ok found => exact Proc.emits_pure.1 hpure
  obtain ⟨rfl, rfl⟩ := hl₄
  rw [List.append_nil]
  exact ⟨htold, hnone⟩

/-- **A discovery, read off its reads**: the first one is the list, and if that is an HTML page, the
    report is `ok` and without candidates iff no detail read yields. -/
theorem discovery_tells {report : DiscoveryReport}
    (h : Emits (discoverReplaysDryRun parser.reader
      (sourcedDryRunOptions attempts (some 1) sourceUrl)) l (.ok report)) :
    ∃ reply details, textReplies l = reply :: details ∧ ∀ html, reply = .ok html →
      parser.reader.parseSourceFixture html = none →
      ((report.ok = true ∧ report.candidates = []) ↔ ∀ reply ∈ details, ¬ Yields reply) ∧
        (ListsNothing html → details = []) := by
  unfold discoverReplaysDryRun at h
  obtain ⟨outcome, l₁, l₂, rfl, hpages, hreport⟩ := Proc.emits_bind.1 h
  obtain ⟨rfl, hmade⟩ := Proc.emits_pure.1 hreport
  obtain ⟨r, l₃, l₄, rfl, hpage, houtcome⟩ := Proc.emits_bind.1 hpages
  obtain ⟨reply, details, hreplies, htells⟩ := discoverPage_tells hpage
  cases r with
  | error error =>
    obtain ⟨rfl, rfl⟩ := Proc.emits_pure.1 houtcome
    refine ⟨reply, details, by simpa using hreplies, fun html hreply hhtml => ?_⟩
    obtain ⟨⟨reply, hmem, hyields⟩, hnone⟩ := htells html hreply hhtml
    have hok : report.ok = false := by
      cases error with
      | sourceFetch failure =>
        cases hmade
        rfl
      | _ => cases hmade
    rw [hok]
    exact ⟨⟨fun h => absurd h.1 Bool.false_ne_true, fun h => absurd hyields (h reply hmem)⟩, hnone⟩
  | ok found =>
    obtain ⟨rfl, rfl⟩ := Proc.emits_pure.1 houtcome
    refine ⟨reply, details, by simpa using hreplies, fun html hreply hhtml => ?_⟩
    obtain ⟨htold, hnone⟩ := htells html hreply hhtml
    refine ⟨Iff.trans ?_ htold, hnone⟩
    cases hmade
    exact and_iff_right rfl

end Discovery

/-! ## The stop -/

/-- The candidates a turn has found. -/
def PageTurn.candidates : PageTurn → List ReplayCandidate
  | capped _ => []
  | failed report _ => report.candidates
  | empty report _ => report.candidates
  | completed report _ _ => report.candidates

/-- What a stop promises of the list page `html` at which the loop has left with `final`. -/
structure EmptyMeansEmpty (html : String) (turn : PageTurn) (final : LoopState) : Prop where
  /-- The reason is `empty` only if the page lists nothing. -/
  stop : turn.stopReason = some .empty → ListsNothing html
  /-- A page without candidates ends a `complete` run only if it lists nothing. -/
  complete : turn.candidates = [] → finalStatus final = .complete → ListsNothing html

section Stop

variable {Text : Type} {pf : Platform Text} {parser : PageParser pf} {config : RunConfig}
  {context : AssembleContext} {cursor : LoopState × ℕ} {l : SourcedConversation Text}
  {html : String} {turn : PageTurn}

/-- A throttle changes the pace, not the report. -/
theorem discoveryReport_of_throttle {E : Type} {R : E → Type} {input : RunOnceInput E R}
    {report : DiscoveryReport} {state state' : LoopState} {l : List (Σ e : E, R e)}
    (h : Emits (applyRateLimitThrottle input report state) l state') :
    state'.discoveryReport = state.discoveryReport := by
  unfold applyRateLimitThrottle at h
  split at h
  · obtain ⟨now, l₁, l₂, rfl, _, hpure⟩ := Proc.emits_bind.1 h
    obtain ⟨_, rfl⟩ := Proc.emits_pure.1 hpure
    rfl
  · obtain ⟨_, rfl⟩ := Proc.emits_pure.1 h
    rfl

/-- Which turn a report leads to. -/
theorem turn_of_report {E : Type} {R : E → Type} {input : RunOnceInput E R}
    {report : DiscoveryReport} {l : List (Σ e : E, R e)}
    (h : Emits (afterDiscovery input context cursor report) l (.ok turn)) :
    (∃ state, turn = .failed report state ∧ state.discoveryReport.ok = false) ∨
      (report.ok = true ∧ report.candidates = [] ∧ l = [] ∧
        turn = .empty report (discoveredState cursor.1 report)) ∨
      (report.candidates ≠ [] ∧ ∃ counts state, turn = .completed report counts state) := by
  unfold afterDiscovery at h
  split at h
  · rename_i hok
    refine Or.inl ?_
    rw [Async.lift_bind_eq] at h
    obtain ⟨state, l₁, l₂, rfl, hthrottle, hrest⟩ := Proc.emits_bind.1 h
    rw [Async.lift_bind_eq] at hrest
    obtain ⟨_, l₃, l₄, rfl, _, hpure⟩ := Proc.emits_bind.1 hrest
    obtain ⟨rfl, hturn⟩ := Proc.emits_pure.1 hpure
    cases hturn
    refine ⟨state, rfl, ?_⟩
    rw [discoveryReport_of_throttle hthrottle]
    show (cursor.1.discoveryReport.ok && report.ok) = false
    rw [hok, Bool.and_false]
  · rename_i hok
    have hok' : report.ok = true := Bool.eq_true_of_not_eq_false hok
    split at h
    · rename_i hnone
      obtain ⟨rfl, hturn⟩ := Proc.emits_pure.1 h
      cases hturn
      exact Or.inr (Or.inl ⟨hok', hnone, rfl, rfl⟩)
    · rename_i hsome
      obtain ⟨⟨state, counts⟩, l₁, l₂, rfl, _, hpure⟩ := Async.emits_bind_ok.1 h
      obtain ⟨_, hturn⟩ := Proc.emits_pure.1 hpure
      cases hturn
      exact Or.inr (Or.inr ⟨hsome, counts, state, rfl⟩)

/-- A turn below the cap is a discovery of the page and what follows from its report. -/
theorem emits_pageTurn (h : Emits (pageTurn pf (config.sourcedInput parser.reader) context cursor) l
    (.ok turn)) :
    (l = [] ∧ config.maxPages.any fun maxPages => maxPages < cursor.2) ∨
      ∃ (report : DiscoveryReport) (l₁ l₂ : SourcedConversation Text),
        textReplies l = textReplies l₁ ++ textReplies l₂ ∧
        Emits (discoverReplaysDryRun parser.reader (sourcedDryRunOptions config.attempts (some 1)
          (pf.toPageUrl config.sourceUrl cursor.2))) l₁ (.ok report) ∧
        Emits (afterDiscovery (config.sourcedInput parser.reader) context cursor report) l₂
          (.ok turn) := by
  unfold pageTurn at h
  split at h
  · rename_i hcap
    obtain ⟨rfl, _⟩ := Proc.emits_pure.1 h
    exact Or.inl ⟨rfl, hcap⟩
  · refine Or.inr ?_
    rw [Async.lift_bind_eq] at h
    obtain ⟨_, l₁, l₂, rfl, hfloor, hrest⟩ := Proc.emits_bind.1 h
    obtain rfl := Proc.emits_perform.1 hfloor
    obtain ⟨report, l₃, l₄, rfl, hdiscovery, hafter⟩ := Async.emits_bind_ok.1 hrest
    refine ⟨report, l₃, l₄, ?_, hdiscovery, hafter⟩
    show textReplies (l₃ ++ l₄) = _
    exact textReplies_append _ _

/-- **An empty listing does end the loop**, and with the reason `empty`. -/
theorem stopReason_of_listsNothing
    (h : Emits (pageTurn pf (config.sourcedInput parser.reader) context cursor) l (.ok turn))
    (hread : (textReplies l).head? = some (.ok html))
    (hhtml : parser.reader.parseSourceFixture html = none) (hempty : ListsNothing html) :
    turn.stopReason = some .empty := by
  rcases emits_pageTurn h with ⟨rfl, _⟩ | ⟨report, l₁, l₂, htexts, hdiscovery, hafter⟩
  · cases hread
  obtain ⟨reply, details, hreplies, htells⟩ := discovery_tells hdiscovery
  rw [htexts, hreplies] at hread
  obtain ⟨hiff, hnone⟩ := htells html (Option.some.inj hread) hhtml
  obtain ⟨hok, hcandidates⟩ := hiff.2 (by rw [hnone hempty]; exact fun _ h => nomatch h)
  unfold afterDiscovery at hafter
  rw [if_neg (by rw [hok]; exact Bool.noConfusion), if_pos hcandidates] at hafter
  obtain ⟨_, hturn⟩ := Proc.emits_pure.1 hafter
  cases hturn
  rfl

/-- The promise of one turn, with the state the loop is left in. -/
theorem emptyMeansEmpty_iff {final : LoopState}
    (h : Emits (pageTurn pf (config.sourcedInput parser.reader) context cursor) l (.ok turn))
    (hread : (textReplies l).head? = some (.ok html))
    (hhtml : parser.reader.parseSourceFixture html = none)
    (hleft : turn.next cursor.2 = .inr final) :
    EmptyMeansEmpty html turn final ↔
      ListsNothing html ∨ ∃ reply ∈ (textReplies l).tail, Yields reply := by
  rcases emits_pageTurn h with ⟨rfl, _⟩ | ⟨report, l₁, l₂, htexts, hdiscovery, hafter⟩
  · cases hread
  obtain ⟨reply, details, hreplies, htells⟩ := discovery_tells hdiscovery
  rw [htexts, hreplies] at hread ⊢
  obtain ⟨hiff, -⟩ := htells html (Option.some.inj hread) hhtml
  show _ ↔ ListsNothing html ∨ ∃ reply ∈ details ++ textReplies l₂, Yields reply
  constructor
  · intro hpromise
    by_cases hyields : ∃ reply ∈ details, Yields reply
    · obtain ⟨reply, hmem, hreply⟩ := hyields
      exact Or.inr ⟨reply, List.mem_append_left _ hmem, hreply⟩
    · -- nothing was found, so the reason is `empty`
      obtain ⟨hok, hcandidates⟩ := hiff.2 fun reply hmem hreply => hyields ⟨reply, hmem, hreply⟩
      refine Or.inl (hpromise.stop ?_)
      unfold afterDiscovery at hafter
      rw [if_neg (by rw [hok]; exact Bool.noConfusion), if_pos hcandidates] at hafter
      obtain ⟨_, hturn⟩ := Proc.emits_pure.1 hafter
      cases hturn
      rfl
  · rintro (hempty | ⟨reply, hmem, hreply⟩)
    · exact ⟨fun _ => hempty, fun _ _ => hempty⟩
    · have hfinal : finalStatus final = .complete → turn.state.discoveryReport.ok = true := by
        intro hcomplete
        obtain ⟨hok, _⟩ := finalStatus_eq_complete.1 hcomplete
        unfold PageTurn.next at hleft
        split at hleft
        · cases hleft
          exact hok
        · cases hleft
      rcases turn_of_report hafter with ⟨state, rfl, hfailed⟩ | ⟨hok, hcandidates, rfl, rfl⟩ |
          ⟨hsome, counts, state, rfl⟩
      · refine ⟨(fun hstop => nomatch hstop), fun _ hcomplete => ?_⟩
        exact absurd ((hfinal hcomplete).symm.trans hfailed) Bool.noConfusion
      · -- a yield is not compatible with an empty report
        rw [textReplies_nil, List.append_nil] at hmem
        exact absurd hreply (hiff.1 ⟨hok, hcandidates⟩ reply hmem)
      · refine ⟨fun hstop => ?_, fun hnone => absurd hnone hsome⟩
        unfold PageTurn.stopReason at hstop
        dsimp only at hstop
        split at hstop
        · cases hstop
        · cases hstop

/-! ## Whole runs of the page loop -/

variable {start final : LoopState}

/-- The last turn of a page loop that has left with `final`. -/
structure LastTurn (parser : PageParser pf) (config : RunConfig) (context : AssembleContext)
    (start final : LoopState) (l l₁ l₂ : SourcedConversation Text) (cursor : LoopState × ℕ)
    (turn : PageTurn) : Prop where
  conversation : l = l₁ ++ l₂
  rounds : Async.Rounds (pageIteration pf (config.sourcedInput parser.reader) context)
    (start, start.lastCompletedPage + FIRST_PAGE) l₁ cursor
  said : Emits (pageTurn pf (config.sourcedInput parser.reader) context cursor) l₂ (.ok turn)
  left : turn.next cursor.2 = .inr final

theorem exists_lastTurn
    (h : Emits (runPageLoop pf (config.sourcedInput parser.reader) context start) l (.ok final)) :
    ∃ l₁ l₂ cursor turn, LastTurn parser config context start final l l₁ l₂ cursor turn := by
  obtain ⟨cursor, l₁, l₂, rfl, hrounds, hlast⟩ := Async.emits_iterate.1 h
  rw [pageIteration_eq] at hlast
  obtain ⟨turn, l₃, l₄, rfl, hturn, hpure⟩ := Async.emits_bind_ok.1 hlast
  obtain ⟨rfl, hleft⟩ := Proc.emits_pure.1 hpure
  rw [List.append_nil]
  exact ⟨l₁, l₃, cursor, turn, rfl, hrounds, hturn, (Except.ok.inj hleft).symm⟩

/-- **An empty page means an empty listing unless the rows come to nothing.**  A page loop that has
    left had a last turn; and if the list page of a last turn is an HTML page, what the stop
    promises holds iff the page lists nothing, or one of its detail reads failed or was answered by
    a page with a filename. -/
theorem empty_page_exact_iff
    (h : Emits (runPageLoop pf (config.sourcedInput parser.reader) context start) l (.ok final)) :
    (∃ l₁ l₂ cursor turn, LastTurn parser config context start final l l₁ l₂ cursor turn) ∧
      ∀ l₁ l₂ cursor turn, LastTurn parser config context start final l l₁ l₂ cursor turn →
        ∀ html, (textReplies l₂).head? = some (.ok html) →
        parser.reader.parseSourceFixture html = none →
        (EmptyMeansEmpty html turn final ↔
          ListsNothing html ∨ ∃ reply ∈ (textReplies l₂).tail, Yields reply) :=
  ⟨exists_lastTurn h, fun _ _ _ _ hlast _ hread hhtml =>
    emptyMeansEmpty_iff hlast.said hread hhtml hlast.left⟩

end Stop

/-- Links are paths, and no page is a fixture. -/
def toyParser : PageParser toyPlatform where
  resolve href base := some { base with pathname := href }
  resolvePath path base := { base with pathname := path }
  parseFixture _ := none
  parse_urlToString _ _ _ _ := rfl

/-- Every page of the source is this one. -/
def pageServe (html : String) (_ : Unit) :
    (e : SourcedEffect (Option Json)) → SourcedReply e × Unit
  | .text _ _ => (.ok html, ())
  | .bytes _ _ => (.ok [97], ())
  | .other e => ((toyScript.serve emptyWorld e).1, ())

/-- A table without rows. -/
def emptyListing : String := "<table class=\"common-table\"><tbody></tbody></table>"

/-- A row without a link. -/
def linklessListing : String := "<table class=\"common-table\"><tbody><tr></tr></tbody></table>"

example : ListsNothing emptyListing ∧ ¬ ListsNothing linklessListing := by decide +kernel

/-- The page loop over such a source. -/
def toyPageLoop : Async (SourcedEffect (Option Json)) SourcedReply JsError LoopState :=
  runPageLoop toyPlatform (toyConfig.sourcedInput toyParser.reader) toyContext toyCursor.1

def toyFinal (html : String) : Option LoopState :=
  (Proc.exec (pageServe html) 20 ((), toyPageLoop)).2.result.bind Except.toOption

/-- A loop that has returned was told of no other page. -/
theorem exists_emits_toyPageLoop (html : String) (h : (toyFinal html).isSome = true) :
    ∃ l final, Emits toyPageLoop l (.ok final) ∧ ∀ reply ∈ textReplies l, reply = .ok html := by
  obtain ⟨final, hfinal⟩ := Option.isSome_iff_exists.1 h
  unfold toyFinal at hfinal
  obtain ⟨result, hresult, hok⟩ := Option.bind_eq_some_iff.1 hfinal
  have hreturned := Proc.result_eq_some.1 hresult
  let P : (Σ e : SourcedEffect (Option Json), SourcedReply e) → Prop := fun x =>
    ∀ reply ∈ textReplies [x], reply = .ok html
  have hserve : ∀ w e r w', pageServe html w e = (r, w') → P ⟨e, r⟩ := by
    intro w e r w' hserved reply hreply
    cases e with
    | text url options =>
      cases hserved
      exact List.mem_singleton.1 hreply
    | bytes url options => cases hreply
    | other e => cases hreply
  have hruns := @Proc.runs_exec _ _ _ _ (pageServe html)
    (fun w e r w' => pageServe html w e = (r, w')) (fun _ _ => rfl) Lts.Alone 20 ((), toyPageLoop)
  rw [hreturned] at hruns
  obtain ⟨l, hemits, hl⟩ := Proc.exists_emits hserve hruns
  cases result with
  | error error => cases hok
  | ok final' =>
    refine ⟨l, final', hemits, fun reply hreply => ?_⟩
    obtain ⟨x, hx, hx'⟩ := List.mem_filterMap.1 hreply
    exact hl x hx reply (List.mem_filterMap.2 ⟨x, List.mem_singleton_self x, hx'⟩)

theorem empty_page_exact_emptyListing : ∃ l final,
    (∃ l₁ l₂ cursor turn,
      LastTurn toyParser toyConfig toyContext toyCursor.1 final l l₁ l₂ cursor turn) ∧
    ∀ l₁ l₂ cursor turn,
      LastTurn toyParser toyConfig toyContext toyCursor.1 final l l₁ l₂ cursor turn →
      ∀ html, (textReplies l₂).head? = some (.ok html) →
      toyParser.reader.parseSourceFixture html = none →
      (EmptyMeansEmpty html turn final ↔
        ListsNothing html ∨ ∃ reply ∈ (textReplies l₂).tail, Yields reply) := by
  obtain ⟨l, final, hemits, _⟩ :=
    exists_emits_toyPageLoop emptyListing (by decide +kernel)
  exact ⟨l, final, empty_page_exact_iff hemits⟩

/-- The promise of every page loop of a configuration. -/
def EmptyPagesAreEmpty {Text : Type} {pf : Platform Text} (parser : PageParser pf)
    (config : RunConfig) (context : AssembleContext) (start : LoopState) : Prop :=
  ∀ l final, Emits (runPageLoop pf (config.sourcedInput parser.reader) context start) l
      (.ok final) →
    ∀ l₁ l₂ cursor turn, LastTurn parser config context start final l l₁ l₂ cursor turn →
    ∀ html, (textReplies l₂).head? = some (.ok html) →
    parser.reader.parseSourceFixture html = none → EmptyMeansEmpty html turn final

/-- A row without a link ends the run as an empty page does. -/
theorem not_emptyPagesAreEmpty :
    ¬ EmptyPagesAreEmpty toyParser toyConfig toyContext toyCursor.1 := by
  intro hpromise
  obtain ⟨l, final, hemits, hreplies⟩ :=
    exists_emits_toyPageLoop linklessListing (by decide +kernel)
  obtain ⟨l₁, l₂, cursor, turn, hlast⟩ := exists_lastTurn hemits
  have htexts : ∀ reply ∈ textReplies l₂, reply = .ok linklessListing := by
    intro reply hmem
    refine hreplies reply ?_
    rw [hlast.conversation, textReplies_append]
    exact List.mem_append_right _ hmem
  have hread : (textReplies l₂).head? = some (.ok linklessListing) := by
    rcases emits_pageTurn hlast.said with ⟨_, hcap⟩ | ⟨report, l₃, l₄, happend, hdiscovery, _⟩
    · cases hcap
    · obtain ⟨reply, details, hdiscovered, _⟩ := discovery_tells hdiscovery
      rw [happend, hdiscovered] at htexts ⊢
      exact congrArg some (htexts reply List.mem_cons_self)
  have hno : ¬ Yields (.ok linklessListing) := by
    rw [yields_ok]
    decide +kernel
  rcases (emptyMeansEmpty_iff hlast.said hread rfl hlast.left).1
      (hpromise l final hemits l₁ l₂ cursor turn hlast linklessListing hread rfl) with
    hempty | ⟨reply, hmem, hyields⟩
  · exact absurd hempty (by decide +kernel)
  · rw [htexts reply (List.mem_of_mem_tail hmem)] at hyields
    exact hno hyields

end ReplaysFetcher
