/-
  What the diagnostics on repeated filenames point at (`src/discovery/discover-dedup.ts`,
  `src/discovery/discover.ts`, `src/run/run-once-page.ts`).

  A repetition is reported with a `candidateIndex`: how many candidates the page has put out so far.
  Then the pages are strung together, in `discoverReplaysDryRun` and again in
  `appendDiscoveryReport`, and the index stays what it was.

  1. **Places.**  The candidates of a report are the first occurrences of every page, one page after
     the other.  Which candidate has a given place is a matter of how many stand before it
     (`getElem?_putOut`).
  2. **What is reported.**  `repetitions` lists the diagnostics of the pages, each with the candidate
     it is about; page by page they are those of the report (`MadeOf`).
  3. **Runs.**  A discovery, and a run, are made of the pages they have been told
     (`madeOf_discovery`, `madeOf_run`).

  So an index is right when two counts agree, and only then (`candidate_index_iff`).  They agree on
  a single page without exact repetitions (`aligned_single`); an exact repetition at the end of it
  points past the last candidate (`not_aligned_exact`).
-/
import ReplaysFetcher.RowAccounting
import ReplaysFetcher.EmptyPages
import ReplaysFetcher.WebUrls

namespace ReplaysFetcher

open Effectful

/-! ## Places -/

section Places

variable {α β : Type}

/-- A place in a list of blocks is a place in one of them. -/
theorem getElem?_flatMap {f : α → List β} {blocks : List α} {n : ℕ} {b : β} :
    (blocks.flatMap f)[n]? = some b ↔ ∃ before block after m, blocks = before ++ block :: after ∧
      (f block)[m]? = some b ∧ (before.flatMap f).length + m = n := by
  induction blocks generalizing n with
  | nil => simp
  | cons block blocks ih =>
    rw [List.flatMap_cons]
    constructor
    · intro h
      by_cases hlt : n < (f block).length
      · rw [List.getElem?_append_left hlt] at h
        exact ⟨[], block, blocks, n, rfl, h, Nat.zero_add n⟩
      · rw [List.getElem?_append_right (Nat.le_of_not_lt hlt)] at h
        obtain ⟨before, block', after, m, rfl, hm, hn⟩ := ih.1 h
        refine ⟨block :: before, block', after, m, rfl, hm, ?_⟩
        rw [List.flatMap_cons, List.length_append]
        omega
    · rintro ⟨before, block', after, m, hblocks, hm, rfl⟩
      cases before with
      | nil =>
        obtain ⟨rfl, rfl⟩ := List.cons.inj hblocks
        have hlt : m < (f block).length := (List.getElem?_eq_some_iff.1 hm).1
        show (f block ++ _)[0 + m]? = some b
        rw [Nat.zero_add, List.getElem?_append_left hlt, hm]
      | cons first before =>
        obtain ⟨rfl, rfl⟩ := List.cons.inj hblocks
        rw [List.flatMap_cons, List.length_append, Nat.add_assoc,
          List.getElem?_append_right (Nat.le_add_right ..), Nat.add_sub_cancel_left]
        exact ih.2 ⟨before, block', after, m, rfl, hm, rfl⟩

variable [DecidableEq α]

/-- A first occurrence stands behind the first occurrences before it. -/
theorem getElem?_eraseDups_length {before after : List α} {a : α} (hnew : a ∉ before) :
    (before ++ a :: after).eraseDups[before.eraseDups.length]? = some a := by
  rw [List.eraseDups_append, List.getElem?_append_right (Nat.le_refl _), Nat.sub_self,
    show (a :: after).removeAll before = a :: after.removeAll before by
      simp [List.removeAll, hnew],
    List.eraseDups_cons]
  rfl

theorem nodup_eraseDups (l : List α) : l.eraseDups.Nodup := by
  induction l using List.reverseRecOn with
  | nil => exact List.nodup_nil
  | append_singleton l a ih =>
    rw [eraseDups_concat]
    split
    · exact ih
    · rename_i hnew
      rw [← List.concat_eq_append]
      exact ih.concat fun hmem => hnew (List.mem_eraseDups.1 hmem)

/-- **The place of a first occurrence.** -/
theorem getElem?_eraseDups {l : List α} {n : ℕ} {a : α} :
    l.eraseDups[n]? = some a ↔
      ∃ before after, l = before ++ a :: after ∧ a ∉ before ∧ before.eraseDups.length = n := by
  constructor
  · intro h
    have hmem : a ∈ l := List.mem_eraseDups.1 (List.mem_of_getElem? h)
    obtain ⟨before, after, rfl, hnew⟩ := List.eq_append_cons_of_mem hmem
    have hlt : before.eraseDups.length < (before ++ a :: after).eraseDups.length :=
      (List.getElem?_eq_some_iff.1 (getElem?_eraseDups_length hnew)).1
    exact ⟨before, after, rfl, hnew, (List.getElem?_inj hlt (nodup_eraseDups _)).1
      ((getElem?_eraseDups_length hnew).trans h.symm)⟩
  · rintro ⟨before, after, rfl, hnew, rfl⟩
    exact getElem?_eraseDups_length hnew

end Places

/-! ## What is reported -/

/-- The candidates a report has of these pages: their first occurrences, page by page. -/
def putOut (pages : List (List ReplayCandidate)) : List ReplayCandidate :=
  pages.flatMap List.eraseDups

/-- After `n` candidates of these pages comes `candidate`. -/
def ComesAfter (pages : List (List ReplayCandidate)) (n : ℕ) (candidate : ReplayCandidate) : Prop :=
  ∃ earlier page later before after, pages = earlier ++ page :: later ∧
    page = before ++ candidate :: after ∧ candidate ∉ before ∧
    (putOut earlier).length + before.eraseDups.length = n

/-- **The place of a candidate in a report.** -/
theorem getElem?_putOut {pages : List (List ReplayCandidate)} {n : ℕ} {candidate : ReplayCandidate} :
    (putOut pages)[n]? = some candidate ↔ ComesAfter pages n candidate := by
  unfold putOut ComesAfter
  rw [getElem?_flatMap]
  constructor
  · rintro ⟨earlier, page, later, m, rfl, hm, rfl⟩
    obtain ⟨before, after, rfl, hnew, rfl⟩ := getElem?_eraseDups.1 hm
    exact ⟨earlier, _, later, before, after, rfl, rfl, hnew, rfl⟩
  · rintro ⟨earlier, page, later, before, after, rfl, rfl, hnew, rfl⟩
    exact ⟨earlier, _, later, _, rfl, getElem?_eraseDups_length hnew, rfl⟩

def isRepetition (diagnostic : DiscoveryDiagnostic) : Bool :=
  diagnostic.code = .duplicateFilename || diagnostic.code = .changedMetadata

/-- The repetitions among the candidates of a page, from a registry on: the diagnostics, each with
    the candidate it is about. -/
def repetitionsFrom : CandidateRegistry → List ReplayCandidate →
    List (DiscoveryDiagnostic × ReplayCandidate)
  | _, [] => []
  | registry, candidate :: rest =>
    (repetitionDiagnostics registry candidate).map (·, candidate) ++
      repetitionsFrom (collectCandidate registry candidate) rest

def repetitions (pages : List (List ReplayCandidate)) :
    List (DiscoveryDiagnostic × ReplayCandidate) :=
  pages.flatMap (repetitionsFrom {})

/-- They are what the second loop reports. -/
theorem diagnostics_foldl (registry : CandidateRegistry) (candidates : List ReplayCandidate) :
    (candidates.foldl collectCandidate registry).diagnostics =
      registry.diagnostics ++ (repetitionsFrom registry candidates).map Prod.fst := by
  induction candidates generalizing registry with
  | nil => exact (List.append_nil _).symm
  | cons candidate rest ih =>
    show (rest.foldl collectCandidate (collectCandidate registry candidate)).diagnostics = _
    rw [ih]
    show (registry.diagnostics ++ repetitionDiagnostics registry candidate) ++ _ = _
    simp [repetitionsFrom, Function.comp_def]

/-- A repetition is about a candidate of its page, in view of those before it. -/
theorem mem_repetitionsFrom {seen candidates : List ReplayCandidate}
    {x : DiscoveryDiagnostic × ReplayCandidate} :
    x ∈ repetitionsFrom (registryOf seen) candidates ↔
      ∃ before after, candidates = before ++ x.2 :: after ∧
        x.1 ∈ repetitionDiagnostics (registryOf (seen ++ before)) x.2 := by
  induction candidates generalizing seen with
  | nil => simp [repetitionsFrom]
  | cons candidate rest ih =>
    unfold repetitionsFrom
    rw [← registryOf_concat, List.mem_append, ih, List.mem_map]
    constructor
    · rintro (⟨diagnostic, hmem, rfl⟩ | ⟨before, after, rfl, hmem⟩)
      · exact ⟨[], rest, rfl, by rwa [List.append_nil]⟩
      · exact ⟨candidate :: before, after, rfl, by rwa [List.append_assoc] at hmem⟩
    · rintro ⟨before, after, hsplit, hmem⟩
      cases before with
      | nil =>
        obtain ⟨rfl, rfl⟩ := List.cons.inj hsplit
        rw [List.append_nil] at hmem
        exact Or.inl ⟨x.1, hmem, rfl⟩
      | cons first before =>
        obtain ⟨rfl, rfl⟩ := List.cons.inj hsplit
        exact Or.inr ⟨before, after, rfl, by rwa [List.append_assoc]⟩

/-- What a repetition says of its candidate. -/
theorem mem_repetitionDiagnostics {seen : List ReplayCandidate} {candidate : ReplayCandidate}
    {diagnostic : DiscoveryDiagnostic}
    (h : diagnostic ∈ repetitionDiagnostics (registryOf seen) candidate) :
    candidate.identity.filename ∈ seen.map (·.identity.filename) ∧
      diagnostic.candidateIndex = some seen.eraseDups.length := by
  rw [← registryOf_outputCandidates]
  unfold repetitionDiagnostics at h
  dsimp only at h
  split at h
  · exact absurd h List.not_mem_nil
  · rename_i hexisting
    refine ⟨not_not.1 fun hnew => hexisting (existingEntries_eq_nil.2 hnew), ?_⟩
    split at h
    · rcases List.mem_pair.1 h with rfl | rfl
      · rfl
      · rfl
    · rw [List.mem_singleton.1 h]
      rfl

/-- A repeated filename is reported. -/
theorem exists_repetitionDiagnostic {seen : List ReplayCandidate} {candidate : ReplayCandidate}
    (h : candidate.identity.filename ∈ seen.map (·.identity.filename)) :
    ∃ diagnostic, diagnostic ∈ repetitionDiagnostics (registryOf seen) candidate := by
  have hcount := countP_repetitionDiagnostics seen candidate
  rw [if_pos h] at hcount
  obtain ⟨diagnostic, hmem, _⟩ := List.countP_pos_iff.1 (Nat.lt_of_lt_of_eq Nat.one_pos hcount.symm)
  exact ⟨diagnostic, hmem⟩

/-! ## When an index is right -/

/-- The same filename, the same source URL. -/
def ReplayCandidate.Same (candidate other : ReplayCandidate) : Prop :=
  candidate.identity.filename = other.identity.filename ∧ candidate.source.url = other.source.url

/-- The index of a diagnostic is one of these candidates, and has the filename and the source URL of
    the candidate the diagnostic is about. -/
def PointsAt (candidates : List ReplayCandidate) (diagnostic : DiscoveryDiagnostic)
    (about : ReplayCandidate) : Prop :=
  ∃ n candidate, diagnostic.candidateIndex = some n ∧ candidates[n]? = some candidate ∧
    candidate.Same about

/-- Every repetition of these pages points at its candidate. -/
def PointRight (pages : List (List ReplayCandidate)) (candidates : List ReplayCandidate) : Prop :=
  ∀ x ∈ repetitions pages, PointsAt candidates x.1 x.2

/-- **The two counts agree**: as many candidates as stand before a repetition on its page, first
    occurrences only, come before a candidate like it in the whole report. -/
def Aligned (pages : List (List ReplayCandidate)) : Prop :=
  ∀ page ∈ pages, ∀ before about after, page = before ++ about :: after →
    about.identity.filename ∈ before.map (·.identity.filename) →
    ∃ candidate, candidate.Same about ∧ ComesAfter pages before.eraseDups.length candidate

theorem pointRight_iff {pages : List (List ReplayCandidate)} :
    PointRight pages (putOut pages) ↔ Aligned pages := by
  constructor
  · intro h page hpage before about after hsplit hrepeated
    obtain ⟨diagnostic, hmem⟩ := exists_repetitionDiagnostic hrepeated
    have hrepetition : (diagnostic, about) ∈ repetitions pages :=
      List.mem_flatMap.2
        ⟨page, hpage, (@mem_repetitionsFrom [] _ _).2 ⟨before, after, hsplit, hmem⟩⟩
    obtain ⟨n, candidate, hindex, hplace, hsame⟩ := h _ hrepetition
    refine ⟨candidate, hsame, ?_⟩
    rw [← getElem?_putOut, ← hplace]
    exact congrArg (_[·]?) (Option.some.inj ((mem_repetitionDiagnostics hmem).2.symm.trans hindex))
  · intro h x hx
    obtain ⟨page, hpage, hmem⟩ := List.mem_flatMap.1 hx
    obtain ⟨before, after, hsplit, hdiagnostic⟩ := (@mem_repetitionsFrom [] _ _).1 hmem
    obtain ⟨hrepeated, hindex⟩ := mem_repetitionDiagnostics hdiagnostic
    obtain ⟨candidate, hsame, hplace⟩ := h page hpage before x.2 after hsplit hrepeated
    exact ⟨_, candidate, hindex, getElem?_putOut.2 hplace, hsame⟩

/-- One page without exact repetitions will do. -/
theorem aligned_single {page : List ReplayCandidate} (hpage : page.Nodup) : Aligned [page] := by
  intro page' hmem before about after hsplit _
  obtain rfl := List.mem_singleton.1 hmem
  refine ⟨about, ⟨rfl, rfl⟩, [], page', [], before, after, rfl, hsplit, ?_, Nat.zero_add _⟩
  rw [hsplit] at hpage
  exact fun hbefore => (List.nodup_append.1 hpage).2.2 _ hbefore _ (List.mem_cons_self ..) rfl

/-- An exact repetition at the end of the only page will not. -/
theorem not_aligned_exact {page : List ReplayCandidate} {about : ReplayCandidate}
    (h : about ∈ page) : ¬ Aligned [page ++ [about]] := by
  intro haligned
  obtain ⟨candidate, _, hplace⟩ := haligned _ (List.mem_singleton.2 rfl) page about [] rfl
    (List.mem_map_of_mem h)
  have hlt := (List.getElem?_eq_some_iff.1 (getElem?_putOut.2 hplace)).1
  unfold putOut at hlt
  rw [List.flatMap_singleton, eraseDups_concat, if_pos h] at hlt
  omega

/-! ## Reports -/

/-- These candidates and these diagnostics are made of these pages: their first occurrences, and
    among others the repetitions. -/
structure MadeOf (pages : List (List ReplayCandidate)) (candidates : List ReplayCandidate)
    (diagnostics : List DiscoveryDiagnostic) : Prop where
  candidates : candidates = putOut pages
  repetitions : diagnostics.filter isRepetition = (repetitions pages).map Prod.fst

theorem MadeOf.nil : MadeOf [] [] [] := ⟨rfl, rfl⟩

theorem MadeOf.append {pages pages' : List (List ReplayCandidate)}
    {candidates candidates' : List ReplayCandidate}
    {diagnostics diagnostics' : List DiscoveryDiagnostic} (h : MadeOf pages candidates diagnostics)
    (h' : MadeOf pages' candidates' diagnostics') :
    MadeOf (pages ++ pages') (candidates ++ candidates') (diagnostics ++ diagnostics') := by
  constructor
  · rw [h.candidates, h'.candidates]
    exact List.flatMap_append.symm
  · unfold ReplaysFetcher.repetitions
    rw [List.filter_append, h.repetitions, h'.repetitions, List.flatMap_append, List.map_append]
    rfl

/-- Another kind of diagnostic changes nothing. -/
theorem MadeOf.with_other {pages : List (List ReplayCandidate)} {candidates : List ReplayCandidate}
    {diagnostics others : List DiscoveryDiagnostic} (h : MadeOf pages candidates diagnostics)
    (hothers : ∀ diagnostic ∈ others, isRepetition diagnostic = false) :
    MadeOf pages candidates (diagnostics ++ others) := by
  refine ⟨h.candidates, ?_⟩
  rw [List.filter_append, h.repetitions, List.filter_eq_nil_iff.2 fun diagnostic hmem => by
    rw [hothers diagnostic hmem]
    exact Bool.false_ne_true, List.append_nil]

section Page

variable {Text : Type} {pf : Platform Text}

theorem isRepetition_registryOf {candidates : List ReplayCandidate}
    {diagnostic : DiscoveryDiagnostic} (h : diagnostic ∈ (registryOf candidates).diagnostics) :
    isRepetition diagnostic = true := by
  rcases code_of_registryOf h with hcode | hcode
  · simp [isRepetition, hcode]
  · simp [isRepetition, hcode]

/-- A page: diagnostics of its entries, and then the second loop over its candidates. -/
theorem madeOf_page {candidates : List ReplayCandidate} {diagnostics : List DiscoveryDiagnostic}
    (hothers : ∀ diagnostic ∈ diagnostics, isRepetition diagnostic = false) :
    MadeOf [candidates] (registryOf candidates).outputCandidates
      (diagnostics ++ (registryOf candidates).diagnostics) := by
  constructor
  · rw [registryOf_outputCandidates]
    exact (List.flatMap_singleton ..).symm
  · have hnone : diagnostics.filter isRepetition = [] :=
      List.filter_eq_nil_iff.2 fun diagnostic hmem => by
        rw [hothers diagnostic hmem]
        exact Bool.false_ne_true
    rw [List.filter_append, hnone, List.nil_append,
      List.filter_eq_self.2 fun _ => isRepetition_registryOf]
    unfold repetitions registryOf
    rw [List.flatMap_singleton, diagnostics_foldl]
    rfl

/-- The entries of a fixture are reported as malformed, if at all. -/
theorem isRepetition_fixtureCandidates {pageUrl : Url} {index : ℕ}
    {entries : List SourceCandidateFixture} {diagnostic : DiscoveryDiagnostic}
    (h : diagnostic ∈ (fixtureCandidates pf pageUrl index entries).2) :
    isRepetition diagnostic = false := by
  induction entries generalizing index with
  | nil => exact absurd h List.not_mem_nil
  | cons entry entries ih =>
    unfold fixtureCandidates at h
    dsimp only at h
    split at h
    · exact ih h
    · rename_i malformed hmalformed
      rcases List.mem_cons.1 h with rfl | h
      · unfold toReplayCandidate at hmalformed
        split at hmalformed
        · split at hmalformed
          · cases hmalformed
            rfl
          · cases hmalformed
        · cases hmalformed
          rfl
      · exact ih h

/-- The rows of a listing are reported as malformed or as without a filename. -/
theorem isRepetition_tellAll {pageUrl : Url} {rows : List ReplayRow} {outcomes : List RowOutcome}
    (hlength : outcomes.length = rows.length) {diagnostic : DiscoveryDiagnostic}
    (h : diagnostic ∈ (RowLoop.tellAll pf pageUrl {} rows outcomes).diagnostics) :
    isRepetition diagnostic = false := by
  have hnone : ∀ code, (code = .duplicateFilename ∨ code = .changedMetadata) →
      ¬ diagnostic.code = code := by
    intro code hcode
    have hcount := (@tellAll_counts _ pf pageUrl rows _ {} hlength).2.2 code
    have hzero : outcomes.countP (RowOutcome.reports code) = 0 := by
      rw [List.countP_eq_zero]
      intro outcome _
      rcases hcode with rfl | rfl <;> cases outcome <;> simp [RowOutcome.reports]
    rw [hzero] at hcount
    exact fun heq => List.countP_eq_zero.1 hcount diagnostic h (decide_eq_true heq)
  simp [isRepetition, hnone]

variable (html : HtmlReader pf) {E : Type} {R : E → Type} (input : DiscoverPageInput E R)

/-- The candidates a page lists, first occurrences or not. -/
inductive PageLists : List (Σ e : E, R e) → List ReplayCandidate → Prop
  | fixture {fixture : SourceFixture} (hfixture : input.fixture = some fixture) :
      PageLists [] (fixtureCandidates pf input.pageUrl 0 fixture.candidates).1
  | rows {l : List (Σ e : E, R e)} {outcomes : List RowOutcome} (hhtml : input.fixture = none)
      (htold : RowsTold html input (html.extractReplayRows input.sourceText input.page input.pageUrl)
        l outcomes) : PageLists l (candidatesOf outcomes)

variable {html input} {l : List (Σ e : E, R e)}

/-- **A page is made of what it lists.** -/
theorem madeOf_discoverPageCandidates {result : DiscoverPageCandidatesResult}
    (h : Emits (discoverPageCandidates html input) l (.ok result)) :
    ∃ candidates, PageLists html input l candidates ∧
      MadeOf [candidates] result.candidates result.diagnostics := by
  unfold discoverPageCandidates at h
  split at h
  · rename_i fixture hfixture
    obtain ⟨rfl, hresult⟩ := Proc.emits_pure.1 h
    rw [Except.ok.inj hresult]
    exact ⟨_, .fixture hfixture, madeOf_page fun _ => isRepetition_fixtureCandidates⟩
  · rename_i hhtml
    obtain ⟨acc, l₁, l₂, rfl, hrows, hpure⟩ := Async.emits_bind_ok.1 h
    obtain ⟨rfl, hresult⟩ := Proc.emits_pure.1 hpure
    obtain ⟨outcomes, htold, rfl⟩ := emits_discoverRows.1 hrows
    have hfound : (RowLoop.tellAll pf input.pageUrl {}
        (html.extractReplayRows input.sourceText input.page input.pageUrl) outcomes).candidates =
          candidatesOf outcomes := (@tellAll_counts _ pf input.pageUrl _ _ {} htold.length).1
    rw [List.append_nil, Except.ok.inj hresult]
    refine ⟨candidatesOf outcomes, .rows hhtml htold, ?_⟩
    rw [← hfound]
    exact madeOf_page fun _ => isRepetition_tellAll htold.length

end Page

/-! ## Discoveries -/

section Discovery

variable {Text : Type} {pf : Platform Text} (reader : SourceReader pf) {E : Type} {R : E → Type}
  (options : DiscoverReplaysDryRunOptions E R)

/-- What a discovery is told of its pages, from `page` on: of every page that has not failed the
    list, and what it lists. -/
inductive PagesTold : ℕ → ℕ → List (Σ e : E, R e) → List (List ReplayCandidate) → Prop
  | done {page : ℕ} : PagesTold 0 page [] []
  | failed {remaining page : ℕ} {l : List (Σ e : E, R e)} {error : JsError}
      (hpage : Emits (discoverPage reader options page) l (.error error)) :
      PagesTold (remaining + 1) page l []
  | page {remaining page : ℕ} {l l' l'' : List (Σ e : E, R e)} {sourceText : String}
      {candidates : List ReplayCandidate} {pages : List (List ReplayCandidate)}
      (hlist : Emits (pacedFetchText options (page = 1) (pf.toPageUrl options.sourceUrl page)
        (buildReadOptions options page .list)) l (.ok sourceText))
      (hpage : PageLists reader.toHtmlReader (discoverPageInput reader options page sourceText) l'
        candidates)
      (hrest : PagesTold remaining (page + 1) l'' pages) :
      PagesTold (remaining + 1) page (l ++ (l' ++ l'')) (candidates :: pages)

variable {reader options} {l : List (Σ e : E, R e)}

theorem madeOf_dryRunPages {remaining page : ℕ} {found : PageFindings ReplayCandidate}
    {before : List (List ReplayCandidate)}
    {outcome : PageFindings ReplayCandidate × Option (JsError × ℕ)}
    (hfound : MadeOf before found.candidates found.diagnostics)
    (h : Emits (dryRunPages (discoverPage reader options) remaining page found) l outcome) :
    ∃ pages, PagesTold reader options remaining page l pages ∧
      MadeOf (before ++ pages) outcome.1.candidates outcome.1.diagnostics := by
  induction remaining generalizing page found before l with
  | zero =>
    obtain ⟨rfl, rfl⟩ := Proc.emits_pure.1 h
    exact ⟨[], .done, by rwa [List.append_nil]⟩
  | succ remaining ih =>
    obtain ⟨r, l₁, l₂, rfl, hpage, hrest⟩ := Proc.emits_bind.1 h
    cases r with
    | error error =>
      obtain ⟨rfl, rfl⟩ := Proc.emits_pure.1 hrest
      rw [List.append_nil]
      exact ⟨[], .failed hpage, by rwa [List.append_nil]⟩
    | ok yielded =>
      obtain ⟨sourceText, l₃, l₄, rfl, hlist, hfind⟩ := Async.emits_bind_ok.1 hpage
      obtain ⟨result, l₅, l₆, rfl, hresult, hpure⟩ := Async.emits_bind_ok.1 hfind
      obtain ⟨rfl, hyielded⟩ := Proc.emits_pure.1 hpure
      cases hyielded
      obtain ⟨candidates, hlists, hmade⟩ := madeOf_discoverPageCandidates hresult
      obtain ⟨pages, htold, houtcome⟩ := ih (hfound.append hmade) hrest
      refine ⟨candidates :: pages, ?_, ?_⟩
      · rw [List.append_nil, List.append_assoc]
        exact .page hlist hlists htold
      · rwa [List.append_assoc] at houtcome

/-- **A discovery is made of the pages it has been told.** -/
theorem madeOf_discovery {report : DiscoveryReport}
    (h : Emits (discoverReplaysDryRun reader options) l (.ok report)) :
    ∃ pages, PagesTold reader options (options.maxPages.getD 1) 1 l pages ∧
      MadeOf pages report.candidates report.diagnostics := by
  unfold discoverReplaysDryRun at h
  obtain ⟨outcome, l₁, l₂, rfl, hpages, hreport⟩ := Proc.emits_bind.1 h
  obtain ⟨rfl, hmade⟩ := Proc.emits_pure.1 hreport
  obtain ⟨pages, htold, houtcome⟩ := madeOf_dryRunPages MadeOf.nil hpages
  rw [List.append_nil]
  refine ⟨pages, htold, ?_⟩
  obtain ⟨found, failure⟩ := outcome
  cases failure with
  | none =>
    cases hmade
    exact houtcome
  | some failure =>
    obtain ⟨error, failedPage⟩ := failure
    cases error with
    | sourceFetch failure =>
      cases hmade
      -- the failure is a diagnostic of another kind
      refine MadeOf.with_other houtcome fun diagnostic hmem => ?_
      rw [List.mem_singleton.1 hmem]
      unfold buildSourceFailureDiagnostic isRepetition
      cases failure.details <;> cases failure.code <;> rfl
    | _ => cases hmade

end Discovery

/-! ## Runs -/

section Run

variable {Text : Type} {pf : Platform Text} (reader : SourceReader pf) (config : RunConfig)

/-- How a run discovers a page. -/
abbrev pageOptions (pf : Platform Text) (config : RunConfig) (page : ℕ) :
    DiscoverReplaysDryRunOptions (SourcedEffect Text) SourcedReply :=
  sourcedDryRunOptions config.attempts (some 1) (pf.toPageUrl config.sourceUrl page)

/-- What a page loop is told of its pages, from `first` up to `page`: amid everything else, one
    discovery a turn. -/
inductive LoopTold (first : ℕ) : ℕ → SourcedConversation Text → List (List ReplayCandidate) → Prop
  | start : LoopTold first first [] []
  | turn {page : ℕ} {l before discovery after : SourcedConversation Text}
      {pages pages' : List (List ReplayCandidate)} (hbefore : LoopTold first page l pages)
      (htold : PagesTold reader (pageOptions pf config page) 1 1 discovery pages') :
      LoopTold first (page + 1) (l ++ (before ++ (discovery ++ after))) (pages ++ pages')

variable {reader config} {context : AssembleContext} {l : SourcedConversation Text}

/-- A page that has been fanned out leaves the report as it is. -/
theorem discoveryReport_of_completeOkPage {E : Type} {R : E → Type} {input : RunOnceInput E R}
    {page : ℕ} {candidates : List ReplayCandidate} {state state' : LoopState}
    {counts : IngestPageCounts} {l : List (Σ e : E, R e)}
    (h : Emits (completeOkPage input context page candidates state) l (.ok (state', counts))) :
    state'.discoveryReport = state.discoveryReport := by
  unfold completeOkPage at h
  obtain ⟨_, _, _, _, _, h⟩ := Async.emits_bind_ok.1 h
  obtain ⟨result, _, _, _, _, h⟩ := Async.emits_bind_ok.1 h
  obtain ⟨_, _, _, _, _, h⟩ := Async.emits_bind_ok.1 h
  obtain ⟨_, _, _, _, _, h⟩ := Async.emits_bind_ok.1 h
  obtain ⟨etag, _, _, _, _, h⟩ := Async.emits_bind_ok.1 h
  obtain ⟨_, hstate⟩ := Proc.emits_pure.1 h
  cases hstate
  rfl

/-- What follows a discovery adds its report. -/
theorem discoveryReport_of_afterDiscovery {E : Type} {R : E → Type} {input : RunOnceInput E R}
    {cursor : LoopState × ℕ} {report : DiscoveryReport} {turn : PageTurn} {l : List (Σ e : E, R e)}
    (h : Emits (afterDiscovery input context cursor report) l (.ok turn)) :
    turn.state.discoveryReport = appendDiscoveryReport cursor.1.discoveryReport report := by
  unfold afterDiscovery at h
  split at h
  · rw [Async.lift_bind_eq] at h
    obtain ⟨state, l₁, l₂, rfl, hthrottle, hrest⟩ := Proc.emits_bind.1 h
    obtain ⟨_, l₃, l₄, rfl, _, hpure⟩ := Async.emits_bind_ok.1 hrest
    obtain ⟨rfl, hturn⟩ := Proc.emits_pure.1 hpure
    cases hturn
    exact discoveryReport_of_throttle hthrottle
  · split at h
    · obtain ⟨rfl, hturn⟩ := Proc.emits_pure.1 h
      cases hturn
      rfl
    · obtain ⟨⟨state, counts⟩, l₁, l₂, rfl, hpage, hpure⟩ := Async.emits_bind_ok.1 h
      obtain ⟨_, hturn⟩ := Proc.emits_pure.1 hpure
      cases hturn
      exact discoveryReport_of_completeOkPage hpage

/-- What the loop is told by `page`, and what its state has of it. -/
def Told (reader : SourceReader pf) (config : RunConfig) (first : ℕ) (cursor : LoopState × ℕ)
    (l : SourcedConversation Text) : Prop :=
  ∃ pages, LoopTold reader config first cursor.2 l pages ∧
    MadeOf pages cursor.1.discoveryReport.candidates cursor.1.discoveryReport.diagnostics

/-- **One turn** is told one more page, or none. -/
theorem told_turn {first : ℕ} {cursor : LoopState × ℕ} {turn : PageTurn}
    {l l' : SourcedConversation Text} (hbefore : Told reader config first cursor l)
    (h : Emits (pageTurn pf (config.sourcedInput reader) context cursor) l' (.ok turn)) :
    (turn.stopReason = some .cap ∧ Told reader config first (turn.state, cursor.2) (l ++ l')) ∨
      Told reader config first (turn.state, cursor.2 + 1) (l ++ l') := by
  obtain ⟨pages, htold, hmade⟩ := hbefore
  unfold pageTurn at h
  split at h
  · obtain ⟨rfl, hturn⟩ := Proc.emits_pure.1 h
    cases hturn
    rw [List.append_nil]
    exact Or.inl ⟨rfl, pages, htold, hmade⟩
  · refine Or.inr ?_
    obtain ⟨_, l₁, l₂, rfl, _, hrest⟩ := Async.emits_bind_ok.1 h
    obtain ⟨report, l₃, l₄, rfl, hdiscovery, hafter⟩ := Async.emits_bind_ok.1 hrest
    obtain ⟨pages', htold', hmade'⟩ := madeOf_discovery hdiscovery
    refine ⟨pages ++ pages', .turn htold htold', ?_⟩
    show MadeOf _ turn.state.discoveryReport.candidates turn.state.discoveryReport.diagnostics
    rw [discoveryReport_of_afterDiscovery hafter]
    exact hmade.append hmade'

/-- **A page loop is made of the pages it has been told.** -/
theorem madeOf_pageLoop {slug : String} {resumeState : ResumeState} {final : LoopState}
    (h : Emits (runPageLoop pf (config.sourcedInput reader) context
      (loopStateOf (config.sourcedInput reader) slug resumeState)) l (.ok final)) :
    ∃ first page pages, LoopTold reader config first page l pages ∧
      MadeOf pages final.discoveryReport.candidates final.discoveryReport.diagnostics := by
  unfold runPageLoop at h
  obtain ⟨cursor, l₁, l₂, rfl, hrounds, hlast⟩ := Async.emits_iterate.1 h
  have hhead := Async.Rounds.invariant (Told reader config _) (fun cursor l l' cursor' htold hgo => by
    rw [pageIteration_eq] at hgo
    obtain ⟨turn, l₃, l₄, rfl, hturn, hpure⟩ := Async.emits_bind_ok.1 hgo
    obtain ⟨rfl, hnext⟩ := Proc.emits_pure.1 hpure
    replace hnext := Except.ok.inj hnext
    unfold PageTurn.next at hnext
    split at hnext
    · cases hnext
    · rename_i hnone
      cases hnext
      rw [List.append_nil]
      rcases told_turn htold hturn with ⟨hcap, _⟩ | htold
      · exact nomatch hnone.symm.trans hcap
      · exact htold) hrounds ⟨[], .start, .nil⟩
  rw [pageIteration_eq] at hlast
  obtain ⟨turn, l₃, l₄, rfl, hturn, hpure⟩ := Async.emits_bind_ok.1 hlast
  obtain ⟨rfl, hnext⟩ := Proc.emits_pure.1 hpure
  replace hnext := Except.ok.inj hnext
  unfold PageTurn.next at hnext
  split at hnext
  · cases hnext
    rw [List.append_nil]
    rcases told_turn hhead hturn with ⟨_, pages, htold, hmade⟩ | ⟨pages, htold, hmade⟩
    · exact ⟨_, _, pages, htold, hmade⟩
    · exact ⟨_, _, pages, htold, hmade⟩
  · cases hnext

/-- A summary shows the report. -/
theorem report_of_buildRunSummary (input : BuildRunSummaryInput) :
    (buildRunSummary input).candidates = input.discoveryReport.candidates ∧
      (buildRunSummary input).diagnostics = input.discoveryReport.diagnostics := by
  unfold buildRunSummary withRunMetrics
  split
  · exact ⟨rfl, rfl⟩
  · exact ⟨rfl, rfl⟩
  · exact ⟨rfl, rfl⟩

theorem summary_of_assembleResult {E : Type} {R : E → Type} {input : RunOnceInput E R}
    {state : LoopState} {result : RunOnceResult} {l : List (Σ e : E, R e)}
    (h : Emits (assembleResult input context state) l (.ok result)) :
    result.summary.candidates = state.discoveryReport.candidates ∧
      result.summary.diagnostics = state.discoveryReport.diagnostics := by
  unfold assembleResult at h
  obtain ⟨_, _, _, _, _, h⟩ := Async.emits_bind_ok.1 h
  obtain ⟨finishedAt, _, _, _, _, h⟩ := Async.emits_bind_ok.1 h
  obtain ⟨_, _, _, _, _, h⟩ := Async.emits_bind_ok.1 h
  obtain ⟨_, _, _, _, _, h⟩ := Async.emits_bind_ok.1 h
  obtain ⟨_, hresult⟩ := Proc.emits_pure.1 h
  cases hresult
  exact report_of_buildRunSummary _

/-- What a run is told of its pages: in the middle, the page loop is. -/
def RunTold (reader : SourceReader pf) (config : RunConfig) (l : SourcedConversation Text)
    (pages : List (List ReplayCandidate)) : Prop :=
  ∃ first page before loop after, l = before ++ (loop ++ after) ∧
    LoopTold reader config first page loop pages

/-- **So is a run.** -/
theorem madeOf_run {result : RunOnceResult}
    (h : Emits (runOnce pf (config.sourcedInput reader)) l (.ok result)) :
    ∃ pages, RunTold reader config l pages ∧
      MadeOf pages result.summary.candidates result.summary.diagnostics := by
  unfold runOnce at h
  obtain ⟨startedAt, l₁, l₂, rfl, _, hlogged⟩ := Async.emits_bind_ok.1 h
  obtain ⟨_, l₃, l₄, rfl, _, hresumed⟩ := Async.emits_bind_ok.1 hlogged
  obtain ⟨resumeState, l₅, l₆, rfl, _, hrun⟩ := Async.emits_bind_ok.1 hresumed
  unfold runFrom at hrun
  obtain ⟨state, l₇, l₈, rfl, hloop, hassemble⟩ := Async.emits_bind_ok.1 hrun
  obtain ⟨first, page, pages, htold, hmade⟩ := madeOf_pageLoop hloop
  obtain ⟨hcandidates, hdiagnostics⟩ := summary_of_assembleResult hassemble
  refine ⟨pages, ⟨first, page, l₁ ++ (l₃ ++ l₅), l₇, l₈, by simp only [List.append_assoc], htold⟩, ?_⟩
  rw [hcandidates, hdiagnostics]
  exact hmade

/-- **An index is right iff the two counts agree.**  In a discovery over one or many pages, and in a
    run, the repetitions in the report are those of the pages it has been told; and each points at
    its candidate iff as many candidates precede it on its own page as precede one like it in the
    report. -/
theorem candidate_index_iff (reader : SourceReader pf) :
    (∀ (E : Type) (R : E → Type) (options : DiscoverReplaysDryRunOptions E R)
      (l : List (Σ e : E, R e)) (report : DiscoveryReport),
      Emits (discoverReplaysDryRun reader options) l (.ok report) →
      ∃ pages, PagesTold reader options (options.maxPages.getD 1) 1 l pages ∧
        report.diagnostics.filter isRepetition = (repetitions pages).map Prod.fst ∧
        (PointRight pages report.candidates ↔ Aligned pages)) ∧
    ∀ (config : RunConfig) (l : SourcedConversation Text) (result : RunOnceResult),
      Emits (runOnce pf (config.sourcedInput reader)) l (.ok result) →
      ∃ pages, RunTold reader config l pages ∧
        result.summary.diagnostics.filter isRepetition = (repetitions pages).map Prod.fst ∧
        (PointRight pages result.summary.candidates ↔ Aligned pages) := by
  constructor
  · intro E R options l report h
    obtain ⟨pages, htold, hmade⟩ := madeOf_discovery h
    refine ⟨pages, htold, hmade.repetitions, ?_⟩
    rw [hmade.candidates]
    exact pointRight_iff
  · intro config l result h
    obtain ⟨pages, htold, hmade⟩ := madeOf_run h
    refine ⟨pages, htold, hmade.repetitions, ?_⟩
    rw [hmade.candidates]
    exact pointRight_iff

end Run

/-! ## A page that lists a replay twice -/

/-- Two entries, both the same. -/
def twiceListing : String :=
  "\x7b\"candidates\":[\x7b\"filename\":\"a.ocap\",\"url\":\"https://a/\"\x7d," ++
    "\x7b\"filename\":\"a.ocap\",\"url\":\"https://a/\"\x7d]\x7d"

def twiceEntry : SourceCandidateFixture where
  filename := some "a.ocap"
  url := some "https://a/"

/-- It reads one fixture. -/
def twiceParser : PageParser standardPlatform :=
  { standardParser with
    parseFixture := fun text =>
      if text = twiceListing then some { candidates := [twiceEntry, twiceEntry] } else none
    parse_urlToString := standardParser.parse_urlToString }

/-- The list page is at hand. -/
def twiceOptions : DiscoverReplaysDryRunOptions (Effect (Option Json)) Reply where
  fetchText _ _ := pure twiceListing
  sleep _ := pure ()
  sourceUrl := { protocol := "https:", host := "list", pathname := "/" }

/-- What is found there. -/
def twiceFound : ReplayCandidate where
  identity := { filename := "a.ocap" }
  source := { url := "https://a/" }

theorem emits_twice : Emits (discoverReplaysDryRun twiceParser.reader twiceOptions) []
    (.ok (buildReport standardPlatform twiceOptions.sourceUrl true
      { candidates := [twiceFound], diagnostics := [duplicateFilenameDiagnostic 1 twiceFound] })) :=
  .refl _ _

/-- A run over the first page of such a source. -/
def twiceConfig : RunConfig := { toyConfig with maxPages := some 1 }

def twiceRun : Async (SourcedEffect (Option Json)) SourcedReply JsError RunOnceResult :=
  runOnce standardPlatform (twiceConfig.sourcedInput twiceParser.reader)

/-- What is reported of it. -/
def twiceReport (result : RunOnceResult) : List ReplayCandidate × List DiscoveryDiagnostic :=
  (result.summary.candidates, result.summary.diagnostics)

theorem exists_emits_twiceRun : ∃ l result, Emits twiceRun l (.ok result) ∧
    twiceReport result = ([twiceFound], [duplicateFilenameDiagnostic 1 twiceFound]) := by
  have hsome : ((Proc.exec (pageServe twiceListing) 60 ((), twiceRun)).2.result.bind
      Except.toOption).map twiceReport =
        some ([twiceFound], [duplicateFilenameDiagnostic 1 twiceFound]) := by decide +kernel
  obtain ⟨result, hfinal, hreport⟩ := Option.map_eq_some_iff.1 hsome
  obtain ⟨final, hresult, hok⟩ := Option.bind_eq_some_iff.1 hfinal
  obtain ⟨l, hemits⟩ := Proc.exists_emits_exec (Proc.result_eq_some.1 hresult)
  cases final with
  | error error => cases hok
  | ok final =>
    cases hok
    exact ⟨l, result, hemits, hreport⟩

theorem candidate_index_iff_twice :
    (∃ (report : DiscoveryReport) (pages : List (List ReplayCandidate)),
      PagesTold twiceParser.reader twiceOptions 1 1 [] pages ∧ repetitions pages ≠ [] ∧
      report.diagnostics.filter isRepetition = (repetitions pages).map Prod.fst ∧
      (PointRight pages report.candidates ↔ Aligned pages)) ∧
    ∃ (l : SourcedConversation (Option Json)) (result : RunOnceResult)
      (pages : List (List ReplayCandidate)), RunTold twiceParser.reader twiceConfig l pages ∧
      repetitions pages ≠ [] ∧
      result.summary.diagnostics.filter isRepetition = (repetitions pages).map Prod.fst ∧
      (PointRight pages result.summary.candidates ↔ Aligned pages) := by
  have hlisted : ∀ {diagnostics : List DiscoveryDiagnostic} {pages : List (List ReplayCandidate)},
      diagnostics = [duplicateFilenameDiagnostic 1 twiceFound] →
      diagnostics.filter isRepetition = (repetitions pages).map Prod.fst → repetitions pages ≠ [] := by
    rintro _ pages rfl hmade hnil
    rw [hnil] at hmade
    cases hmade
  obtain ⟨pages, htold, hmade, hiff⟩ :=
    (candidate_index_iff twiceParser.reader).1 _ _ twiceOptions [] _ emits_twice
  obtain ⟨l, result, hrun, hreport⟩ := exists_emits_twiceRun
  obtain ⟨pages', htold', hmade', hiff'⟩ :=
    (candidate_index_iff twiceParser.reader).2 twiceConfig l result hrun
  exact ⟨⟨_, pages, htold, hlisted rfl hmade, hmade, hiff⟩, l, result, pages', htold',
    hlisted (congrArg Prod.snd hreport) hmade', hmade', hiff'⟩

/-- The index of a repetition is that of a candidate with the source URL it names. -/
def IndicesRight (candidates : List ReplayCandidate) (diagnostics : List DiscoveryDiagnostic) :
    Prop :=
  ∀ diagnostic ∈ diagnostics, isRepetition diagnostic = true →
    ∃ n candidate, diagnostic.candidateIndex = some n ∧ candidates[n]? = some candidate ∧
      diagnostic.sourceUrl = some candidate.source.url

/-- An exact repetition points past the end, in a discovery and in a run. -/
theorem candidate_index_past_end :
    (¬ ∀ l report, Emits (discoverReplaysDryRun twiceParser.reader twiceOptions) l (.ok report) →
      IndicesRight report.candidates report.diagnostics) ∧
    ¬ ∀ l result, Emits twiceRun l (.ok result) →
      IndicesRight result.summary.candidates result.summary.diagnostics := by
  have hpast : ¬ IndicesRight [twiceFound] [duplicateFilenameDiagnostic 1 twiceFound] := by
    intro hright
    obtain ⟨n, candidate, hindex, hplace, _⟩ := hright _ (List.mem_singleton.2 rfl) rfl
    cases hindex
    cases hplace
  refine ⟨fun hright => hpast (hright _ _ emits_twice), fun hright => hpast ?_⟩
  obtain ⟨l, result, hrun, hreport⟩ := exists_emits_twiceRun
  have hindices := hright l result hrun
  rwa [show result.summary.candidates = _ from congrArg Prod.fst hreport,
    show result.summary.diagnostics = _ from congrArg Prod.snd hreport] at hindices

end ReplaysFetcher
