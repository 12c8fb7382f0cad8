/-
  What becomes of the rows of an HTML page (`src/discovery/discover-dedup.ts`).

  Two loops, one after the other.

  1. **The rows.**  A row is passed over, reported, or turned into a candidate.  `RowTold` says what
     a row was told and what that makes of it, and a page is told one such thing for every row
     (`emits_discoverRows`).
  2. **The candidates.**  The second loop drops exact repetitions and reports repeated filenames.
     Its invariant is about the candidates it has seen: what it has put out are their first
     occurrences, and with every one of them it has either met a new filename or reported the old
     one (`registryOf_outputCandidates`, `countP_duplicateFilename`).

  Together they account for every row (`row_accounting`).
-/
import ReplaysFetcher.DryRun
import ReplaysFetcher.Effectful.Conversations
import Mathlib.Data.Finset.Card

namespace ReplaysFetcher

open Effectful

/-! ## The candidates -/

/-- Another element at the end is a first occurrence, or none. -/
theorem eraseDups_concat {α : Type} [DecidableEq α] (l : List α) (a : α) :
    (l ++ [a]).eraseDups = if a ∈ l then l.eraseDups else l.eraseDups ++ [a] := by
  rw [List.eraseDups_append]
  split
  · rename_i hmem
    rw [show [a].removeAll l = [] by simp [List.removeAll, hmem], List.eraseDups_nil,
      List.append_nil]
  · rename_i hnew
    rw [show [a].removeAll l = [a] by simp [List.removeAll, hnew]]
    rfl

/-- The loop of `collectCandidateDiagnostics`, when these have been its candidates. -/
def registryOf (candidates : List ReplayCandidate) : CandidateRegistry :=
  candidates.foldl collectCandidate {}

@[simp] theorem registryOf_concat (candidates : List ReplayCandidate) (candidate : ReplayCandidate) :
    registryOf (candidates ++ [candidate]) = collectCandidate (registryOf candidates) candidate :=
  List.foldl_concat ..

@[simp] theorem registryOf_seen (candidates : List ReplayCandidate) :
    (registryOf candidates).seen = candidates := by
  induction candidates using List.reverseRecOn with
  | nil => rfl
  | append_singleton candidates candidate ih =>
    rw [registryOf_concat]
    show (registryOf candidates).seen ++ [candidate] = _
    rw [ih]

/-- **First occurrences.** -/
theorem registryOf_outputCandidates (candidates : List ReplayCandidate) :
    (registryOf candidates).outputCandidates = candidates.eraseDups := by
  induction candidates using List.reverseRecOn with
  | nil => rfl
  | append_singleton candidates candidate ih =>
    rw [registryOf_concat, eraseDups_concat]
    show (if candidate ∈ (registryOf candidates).outputCandidates then _ else _) = _
    rw [ih]
    simp only [List.mem_eraseDups]

/-- A filename is repeated when a candidate before has it. -/
theorem existingEntries_eq_nil {candidates : List ReplayCandidate} {candidate : ReplayCandidate} :
    (registryOf candidates).existingEntries candidate = [] ↔
      candidate.identity.filename ∉ candidates.map (·.identity.filename) := by
  unfold CandidateRegistry.existingEntries
  rw [registryOf_seen, List.filter_eq_nil_iff]
  simp

/-- A repetition is reported once. -/
theorem countP_repetitionDiagnostics (candidates : List ReplayCandidate)
    (candidate : ReplayCandidate) :
    (repetitionDiagnostics (registryOf candidates) candidate).countP
        (·.code = .duplicateFilename) =
      if candidate.identity.filename ∈ candidates.map (·.identity.filename) then 1 else 0 := by
  unfold repetitionDiagnostics
  dsimp only
  by_cases hnew : (registryOf candidates).existingEntries candidate = []
  · rw [if_pos hnew, if_neg (existingEntries_eq_nil.1 hnew)]
    rfl
  · rw [if_neg hnew, if_pos (not_not.1 fun hmem => hnew (existingEntries_eq_nil.2 hmem))]
    split
    · rfl
    · rfl

/-- **Repeated filenames**: every candidate has a new one, or is reported. -/
theorem countP_duplicateFilename (candidates : List ReplayCandidate) :
    (registryOf candidates).diagnostics.countP (·.code = .duplicateFilename) +
      (candidates.map (·.identity.filename)).toFinset.card = candidates.length := by
  induction candidates using List.reverseRecOn with
  | nil => rfl
  | append_singleton candidates candidate ih =>
    rw [registryOf_concat]
    show ((registryOf candidates).diagnostics ++
      repetitionDiagnostics (registryOf candidates) candidate).countP _ + _ = _
    rw [List.countP_append, countP_repetitionDiagnostics, List.map_append, List.toFinset_append,
      List.length_append, ← ih]
    split
    · rename_i hmem
      rw [Finset.union_eq_left.2 (by simpa using hmem)]
      show _ = _ + 1
      omega
    · rename_i hnew
      rw [List.map_singleton, List.toFinset_cons, List.toFinset_nil, insert_empty_eq,
        Finset.card_union_of_disjoint (by simpa using hnew), Finset.card_singleton]
      show _ = _ + 1
      omega

/-- The second loop reports nothing else. -/
theorem code_of_registryOf {candidates : List ReplayCandidate} {diagnostic : DiscoveryDiagnostic}
    (h : diagnostic ∈ (registryOf candidates).diagnostics) :
    diagnostic.code = .duplicateFilename ∨ diagnostic.code = .changedMetadata := by
  induction candidates using List.reverseRecOn with
  | nil => exact absurd h List.not_mem_nil
  | append_singleton candidates candidate ih =>
    rw [registryOf_concat] at h
    rcases List.mem_append.1 (show diagnostic ∈ (registryOf candidates).diagnostics ++
      repetitionDiagnostics (registryOf candidates) candidate from h) with h | h
    · exact ih h
    · unfold repetitionDiagnostics at h
      dsimp only at h
      split at h
      · exact absurd h List.not_mem_nil
      · split at h
        · rcases List.mem_pair.1 h with rfl | rfl
          · exact Or.inl rfl
          · exact Or.inr rfl
        · rw [List.mem_singleton.1 h]
          exact Or.inl rfl

/-! ## The rows -/

/-- What a row is turned into. -/
inductive RowOutcome
  | skipped
  | malformed
  | missingFilename (rowUrl : String)
  | found (candidate : ReplayCandidate)
  deriving DecidableEq

namespace RowOutcome

def candidate? : RowOutcome → Option ReplayCandidate
  | found candidate => some candidate
  | _ => none

/-- The diagnostic of a row. -/
def diagnostic? {Text : Type} (pf : Platform Text) (pageUrl : Url) (row : ReplayRow) :
    RowOutcome → Option DiscoveryDiagnostic
  | malformed => some (malformedRowDiagnostic pf row pageUrl)
  | missingFilename rowUrl => some (missingFilenameDiagnostic row rowUrl)
  | _ => none

def isMissingFilename : RowOutcome → Bool
  | missingFilename _ => true
  | _ => false

end RowOutcome

/-- The candidates before deduplication. -/
def candidatesOf (outcomes : List RowOutcome) : List ReplayCandidate :=
  outcomes.filterMap RowOutcome.candidate?

section Rows

variable {Text : Type} {pf : Platform Text} (html : HtmlReader pf) {E : Type} {R : E → Type}
  (input : DiscoverPageInput E R)

/-- The gate of a row. -/
abbrev rowGate (row : ReplayRow) : Async E R JsError Bool :=
  shouldSkipPreDetail row.source.externalId input.existsBySourceIdentity input.sourceSystem

/-- **What a row is told, and what becomes of it**: the gate answers, and then the detail page. -/
inductive RowTold (row : ReplayRow) : List (Σ e : E, R e) → RowOutcome → Prop
  | malformed (hurl : row.source.url = none) : RowTold row [] .malformed
  | skipped {rowUrl : String} {l : List (Σ e : E, R e)} (hurl : row.source.url = some rowUrl)
      (hgate : Emits (rowGate input row) l (.ok true)) : RowTold row l .skipped
  | missingFilename {rowUrl detailHtml : String} {detailUrl : Url} {l l' : List (Σ e : E, R e)}
      (hurl : row.source.url = some rowUrl) (hgate : Emits (rowGate input row) l (.ok false))
      (hparse : newUrl pf rowUrl = .ok detailUrl)
      (hdetail : Emits (input.fetchText detailUrl) l' (.ok detailHtml))
      (hnone : rowCandidate html row rowUrl detailUrl detailHtml = none) :
      RowTold row (l ++ l') (.missingFilename rowUrl)
  | found {rowUrl detailHtml : String} {detailUrl : Url} {l l' : List (Σ e : E, R e)}
      {candidate : ReplayCandidate} (hurl : row.source.url = some rowUrl)
      (hgate : Emits (rowGate input row) l (.ok false)) (hparse : newUrl pf rowUrl = .ok detailUrl)
      (hdetail : Emits (input.fetchText detailUrl) l' (.ok detailHtml))
      (hcandidate : rowCandidate html row rowUrl detailUrl detailHtml = some candidate) :
      RowTold row (l ++ l') (.found candidate)

/-- The rows of a page are told one such thing each, in their order. -/
inductive RowsTold : List ReplayRow → List (Σ e : E, R e) → List RowOutcome → Prop
  | nil : RowsTold [] [] []
  | cons {row : ReplayRow} {rows : List ReplayRow} {l l' : List (Σ e : E, R e)}
      {outcome : RowOutcome} {outcomes : List RowOutcome} (hrow : RowTold html input row l outcome)
      (hrows : RowsTold rows l' outcomes) : RowsTold (row :: rows) (l ++ l') (outcome :: outcomes)

variable (pf) in
/-- What a row adds. -/
def RowLoop.tell (pageUrl : Url) (acc : RowLoop) (row : ReplayRow) (outcome : RowOutcome) :
    RowLoop where
  candidates := acc.candidates ++ outcome.candidate?.toList
  diagnostics := acc.diagnostics ++ (outcome.diagnostic? pf pageUrl row).toList
  skippedPreDetail := acc.skippedPreDetail + if outcome = .skipped then 1 else 0

variable (pf) in
def RowLoop.tellAll (pageUrl : Url) : RowLoop → List ReplayRow → List RowOutcome → RowLoop
  | acc, row :: rows, outcome :: outcomes =>
    RowLoop.tellAll pageUrl (acc.tell pf pageUrl row outcome) rows outcomes
  | acc, _, _ => acc

variable {html input} {row : ReplayRow} {acc acc' : RowLoop} {l : List (Σ e : E, R e)}

/-- What the detail page of a row makes of it. -/
theorem emits_discoverRowCandidate {rowUrl : String} {candidate : Option ReplayCandidate} :
    Emits (discoverRowCandidate html input row rowUrl) l (.ok candidate) ↔
      ∃ detailUrl detailHtml, newUrl pf rowUrl = .ok detailUrl ∧
        Emits (input.fetchText detailUrl) l (.ok detailHtml) ∧
          candidate = rowCandidate html row rowUrl detailUrl detailHtml := by
  unfold discoverRowCandidate
  constructor
  · intro h
    obtain ⟨detailUrl, l₁, l₂, rfl, hfirst, hrest⟩ := Async.emits_bind_ok.1 h
    obtain ⟨rfl, hparse⟩ := Proc.emits_pure.1 hfirst
    obtain ⟨detailHtml, l₃, l₄, rfl, hdetail, hpure⟩ := Async.emits_bind_ok.1 hrest
    obtain ⟨rfl, hcandidate⟩ := Proc.emits_pure.1 hpure
    rw [List.nil_append, List.append_nil]
    exact ⟨detailUrl, detailHtml, hparse.symm, hdetail, Except.ok.inj hcandidate⟩
  · rintro ⟨detailUrl, detailHtml, hparse, hdetail, rfl⟩
    refine Async.emits_bind_ok.2 ⟨detailUrl, [], l, rfl, Proc.emits_pure.2 ⟨rfl, hparse.symm⟩, ?_⟩
    exact Async.emits_bind_ok.2 ⟨detailHtml, l, [], (List.append_nil l).symm, hdetail,
      Proc.emits_pure.2 ⟨rfl, rfl⟩⟩

/-- **One turn of the row loop.** -/
theorem emits_discoverRow : Emits (discoverRow html input acc row) l (.ok acc') ↔
    ∃ outcome, RowTold html input row l outcome ∧ acc' = acc.tell pf input.pageUrl row outcome := by
  have hmalformed : { acc with
      diagnostics := acc.diagnostics ++ [malformedRowDiagnostic pf row input.pageUrl] } =
        acc.tell pf input.pageUrl row .malformed := by simp [RowLoop.tell, RowOutcome.candidate?,
          RowOutcome.diagnostic?]
  have hskipped : { acc with skippedPreDetail := acc.skippedPreDetail + 1 } =
      acc.tell pf input.pageUrl row .skipped := by simp [RowLoop.tell, RowOutcome.candidate?,
        RowOutcome.diagnostic?]
  have hmissing : ∀ rowUrl, acc.addRow row rowUrl none =
      acc.tell pf input.pageUrl row (.missingFilename rowUrl) := by
    intro rowUrl
    simp [RowLoop.tell, RowLoop.addRow, RowOutcome.candidate?, RowOutcome.diagnostic?]
  have hfound : ∀ rowUrl candidate, acc.addRow row rowUrl (some candidate) =
      acc.tell pf input.pageUrl row (.found candidate) := by
    intro rowUrl candidate
    simp [RowLoop.tell, RowLoop.addRow, RowOutcome.candidate?, RowOutcome.diagnostic?]
  unfold discoverRow
  constructor
  · intro h
    split at h
    · rename_i hurl
      obtain ⟨rfl, hacc⟩ := Proc.emits_pure.1 h
      exact ⟨.malformed, .malformed hurl, (Except.ok.inj hacc).trans hmalformed⟩
    · rename_i rowUrl hurl
      obtain ⟨skip, l₁, l₂, rfl, hgate, hrest⟩ := Async.emits_bind_ok.1 h
      cases skip with
      | true =>
        obtain ⟨rfl, hacc⟩ := Proc.emits_pure.1 hrest
        rw [List.append_nil]
        exact ⟨.skipped, .skipped hurl hgate, (Except.ok.inj hacc).trans hskipped⟩
      | false =>
        obtain ⟨candidate, l₃, l₄, rfl, hcandidate, hpure⟩ := Async.emits_bind_ok.1 hrest
        obtain ⟨rfl, hacc⟩ := Proc.emits_pure.1 hpure
        obtain ⟨detailUrl, detailHtml, hparse, hdetail, hrow⟩ :=
          emits_discoverRowCandidate.1 hcandidate
        rw [List.append_nil]
        cases candidate with
        | none =>
          exact ⟨_, .missingFilename hurl hgate hparse hdetail hrow.symm,
            (Except.ok.inj hacc).trans (hmissing rowUrl)⟩
        | some candidate =>
          exact ⟨_, .found hurl hgate hparse hdetail hrow.symm,
            (Except.ok.inj hacc).trans (hfound rowUrl candidate)⟩
  · rintro ⟨outcome, htold, rfl⟩
    cases htold with
    | malformed hurl =>
      rw [hurl, ← hmalformed]
      exact Proc.emits_pure.2 ⟨rfl, rfl⟩
    | skipped hurl hgate =>
      rw [hurl, ← hskipped]
      exact Async.emits_bind_ok.2 ⟨true, l, [], (List.append_nil l).symm, hgate,
        Proc.emits_pure.2 ⟨rfl, rfl⟩⟩
    | @missingFilename rowUrl _ _ _ _ hurl hgate hparse hdetail hnone =>
      rw [hurl, ← hmissing]
      refine Async.emits_bind_ok.2 ⟨false, _, _, rfl, hgate, ?_⟩
      exact Async.emits_bind_ok.2 ⟨none, _, [], (List.append_nil _).symm,
        emits_discoverRowCandidate.2 ⟨_, _, hparse, hdetail, hnone.symm⟩,
        Proc.emits_pure.2 ⟨rfl, rfl⟩⟩
    | @found rowUrl _ _ _ _ candidate hurl hgate hparse hdetail hcandidate =>
      rw [hurl, ← hfound rowUrl candidate]
      refine Async.emits_bind_ok.2 ⟨false, _, _, rfl, hgate, ?_⟩
      exact Async.emits_bind_ok.2 ⟨some candidate, _, [], (List.append_nil _).symm,
        emits_discoverRowCandidate.2 ⟨_, _, hparse, hdetail, hcandidate.symm⟩,
        Proc.emits_pure.2 ⟨rfl, rfl⟩⟩

/-- **The row loop.** -/
theorem emits_discoverRows {rows : List ReplayRow} :
    Emits (discoverRows html input acc rows) l (.ok acc') ↔
      ∃ outcomes, RowsTold html input rows l outcomes ∧
        acc' = acc.tellAll pf input.pageUrl rows outcomes := by
  induction rows generalizing acc l with
  | nil =>
    constructor
    · intro h
      obtain ⟨rfl, hacc⟩ := Proc.emits_pure.1 h
      exact ⟨[], .nil, Except.ok.inj hacc⟩
    · rintro ⟨_, ⟨⟩, rfl⟩
      exact Proc.emits_pure.2 ⟨rfl, rfl⟩
  | cons row rows ih =>
    constructor
    · intro h
      obtain ⟨acc₁, l₁, l₂, rfl, hrow, hrows⟩ := Async.emits_bind_ok.1 h
      obtain ⟨outcome, htold, rfl⟩ := emits_discoverRow.1 hrow
      obtain ⟨outcomes, htolds, rfl⟩ := ih.1 hrows
      exact ⟨outcome :: outcomes, .cons htold htolds, rfl⟩
    · rintro ⟨outcomes, htolds, rfl⟩
      cases htolds with
      | cons htold htolds =>
        exact Async.emits_bind_ok.2 ⟨_, _, _, rfl, emits_discoverRow.2 ⟨_, htold, rfl⟩,
          ih.2 ⟨_, htolds, rfl⟩⟩

end Rows

/-! ## The whole page -/

/-- Every row accounted for. -/
structure RowsAccounted (rows : List ReplayRow) (outcomes : List RowOutcome)
    (result : DiscoverPageCandidatesResult) : Prop where
  /-- one outcome each -/
  length : outcomes.length = rows.length
  skipped : result.skippedPreDetail = outcomes.count .skipped
  malformed : result.diagnostics.countP (·.code = .malformedRow) = outcomes.count .malformed
  missingFilename : result.diagnostics.countP (·.code = .missingFilename) =
    outcomes.countP RowOutcome.isMissingFilename
  /-- the four add up to the rows -/
  total : result.skippedPreDetail + result.diagnostics.countP (·.code = .malformedRow) +
    result.diagnostics.countP (·.code = .missingFilename) + (candidatesOf outcomes).length =
      rows.length
  candidates : result.candidates = (candidatesOf outcomes).eraseDups
  duplicateFilename : result.diagnostics.countP (·.code = .duplicateFilename) =
    (candidatesOf outcomes).length -
      ((candidatesOf outcomes).map (·.identity.filename)).toFinset.card

section Page

variable {Text : Type} {pf : Platform Text} {pageUrl : Url} {rows : List ReplayRow}
  {outcomes : List RowOutcome} {acc : RowLoop}

/-- What an outcome adds to the number of diagnostics of a code. -/
def RowOutcome.reports (code : DiagnosticCode) : RowOutcome → Bool
  | malformed => code = .malformedRow
  | missingFilename _ => code = .missingFilename
  | _ => false

theorem countP_diagnostic? (row : ReplayRow) (outcome : RowOutcome) (code : DiagnosticCode) :
    (outcome.diagnostic? pf pageUrl row).toList.countP (·.code = code) =
      if outcome.reports code then 1 else 0 := by
  cases outcome with
  | skipped => rfl
  | found candidate => rfl
  | malformed =>
    show [malformedRowDiagnostic pf row pageUrl].countP _ = _
    rw [List.countP_singleton]
    simp [RowOutcome.reports, malformedRowDiagnostic, eq_comm]
  | missingFilename rowUrl =>
    show [missingFilenameDiagnostic row rowUrl].countP _ = _
    rw [List.countP_singleton]
    simp [RowOutcome.reports, missingFilenameDiagnostic, eq_comm]

/-- **The row loop, counted.** -/
theorem tellAll_counts (hlength : outcomes.length = rows.length) :
    (acc.tellAll pf pageUrl rows outcomes).candidates = acc.candidates ++ candidatesOf outcomes ∧
      (acc.tellAll pf pageUrl rows outcomes).skippedPreDetail =
        acc.skippedPreDetail + outcomes.count .skipped ∧
      ∀ code, (acc.tellAll pf pageUrl rows outcomes).diagnostics.countP (·.code = code) =
        acc.diagnostics.countP (·.code = code) + outcomes.countP (RowOutcome.reports code) := by
  induction rows generalizing acc outcomes with
  | nil =>
    obtain rfl := List.length_eq_zero_iff.1 hlength
    exact ⟨(List.append_nil _).symm, rfl, fun _ => rfl⟩
  | cons row rows ih =>
    cases outcomes with
    | nil => cases hlength
    | cons outcome outcomes =>
      obtain ⟨hcandidates, hskipped, hdiagnostics⟩ :=
        @ih outcomes (acc.tell pf pageUrl row outcome) (Nat.succ.inj hlength)
      refine ⟨?_, ?_, fun code => ?_⟩
      · show ((acc.tell pf pageUrl row outcome).tellAll pf pageUrl rows outcomes).candidates = _
        rw [hcandidates]
        unfold RowLoop.tell candidatesOf
        rw [List.filterMap_cons, List.append_assoc]
        cases outcome.candidate? <;> rfl
      · show ((acc.tell pf pageUrl row outcome).tellAll pf pageUrl rows outcomes).skippedPreDetail = _
        rw [hskipped, List.count_cons]
        unfold RowLoop.tell
        simp only [beq_iff_eq]
        omega
      · show ((acc.tell pf pageUrl row outcome).tellAll pf pageUrl rows
          outcomes).diagnostics.countP _ = _
        rw [hdiagnostics, List.countP_cons]
        unfold RowLoop.tell
        rw [List.countP_append, countP_diagnostic?]
        omega

theorem RowsTold.length {html : HtmlReader pf} {E : Type} {R : E → Type}
    {input : DiscoverPageInput E R} {l : List (Σ e : E, R e)}
    (h : RowsTold html input rows l outcomes) : outcomes.length = rows.length := by
  induction h with
  | nil => rfl
  | cons _ _ ih => exact congrArg (· + 1) ih

/-- Every outcome is one of four. -/
theorem length_outcomes (outcomes : List RowOutcome) :
    outcomes.count .skipped + outcomes.count .malformed +
      outcomes.countP RowOutcome.isMissingFilename + (candidatesOf outcomes).length =
        outcomes.length := by
  induction outcomes with
  | nil => rfl
  | cons outcome outcomes ih =>
    unfold candidatesOf at ih ⊢
    rw [List.length_cons, ← ih]
    cases outcome <;>
      simp [RowOutcome.isMissingFilename, RowOutcome.candidate?, List.countP_cons,
        List.filterMap_cons] <;> omega

/-- The second loop reports repetitions only. -/
theorem countP_registryOf {candidates : List ReplayCandidate} {code : DiagnosticCode}
    (hduplicate : code ≠ .duplicateFilename) (hchanged : code ≠ .changedMetadata) :
    (registryOf candidates).diagnostics.countP (·.code = code) = 0 := by
  rw [List.countP_eq_zero]
  intro diagnostic hmem hcode
  rcases code_of_registryOf hmem with h | h
  · exact hduplicate ((of_decide_eq_true hcode).symm.trans h)
  · exact hchanged ((of_decide_eq_true hcode).symm.trans h)

/-- What the rows come to. -/
theorem rowsAccounted_tellAll (hlength : outcomes.length = rows.length) :
    RowsAccounted rows outcomes (RowLoop.tellAll pf pageUrl {} rows outcomes).result := by
  obtain ⟨hcandidates, hskipped, hdiagnostics⟩ := @tellAll_counts _ pf pageUrl rows _ {} hlength
  generalize RowLoop.tellAll pf pageUrl {} rows outcomes = acc at *
  have hfound : acc.candidates = candidatesOf outcomes := hcandidates
  have hskips : acc.result.skippedPreDetail = outcomes.count .skipped :=
    hskipped.trans (Nat.zero_add _)
  -- the diagnostics of a code: those of the rows, and those of the second loop
  have hcodes : ∀ code, acc.result.diagnostics.countP (·.code = code) =
      outcomes.countP (RowOutcome.reports code) +
        (registryOf (candidatesOf outcomes)).diagnostics.countP (·.code = code) := by
    intro code
    show (acc.diagnostics ++ (registryOf acc.candidates).diagnostics).countP _ = _
    rw [List.countP_append, hdiagnostics, hfound]
    exact congrArg (· + _) (Nat.zero_add _)
  have hmalformed : acc.result.diagnostics.countP (·.code = .malformedRow) =
      outcomes.count .malformed := by
    rw [hcodes, countP_registryOf (by decide) (by decide), Nat.add_zero]
    refine List.countP_congr fun outcome _ => ?_
    cases outcome <;> simp [RowOutcome.reports]
  have hmissing : acc.result.diagnostics.countP (·.code = .missingFilename) =
      outcomes.countP RowOutcome.isMissingFilename := by
    rw [hcodes, countP_registryOf (by decide) (by decide), Nat.add_zero]
    refine List.countP_congr fun outcome _ => ?_
    cases outcome <;> simp [RowOutcome.reports, RowOutcome.isMissingFilename]
  refine ⟨hlength, hskips, hmalformed, hmissing, ?_, ?_, ?_⟩
  · rw [hskips, hmalformed, hmissing, length_outcomes, hlength]
  · show (registryOf acc.candidates).outputCandidates = _
    rw [hfound, registryOf_outputCandidates]
  · have hnone : outcomes.countP (RowOutcome.reports .duplicateFilename) = 0 := by
      rw [List.countP_eq_zero]
      intro outcome _
      cases outcome <;> simp [RowOutcome.reports]
    have hrepeated := countP_duplicateFilename (candidatesOf outcomes)
    rw [hcodes, hnone, Nat.zero_add]
    omega

/-- **Every row is accounted for.**  Whatever the gate and the detail pages answer: if they all
    answer, every row is passed over, reported as malformed, reported as without a filename, or a
    candidate; the page puts out the first occurrences of the candidates; and it reports as many
    repeated filenames as there are candidates more than filenames. -/
theorem row_accounting {html : HtmlReader pf} {E : Type} {R : E → Type}
    {input : DiscoverPageInput E R} {l : List (Σ e : E, R e)}
    {result : DiscoverPageCandidatesResult} (hhtml : input.fixture = none)
    (h : Emits (discoverPageCandidates html input) l (.ok result)) :
    ∃ outcomes,
      RowsTold html input (html.extractReplayRows input.sourceText input.page input.pageUrl) l
        outcomes ∧
      RowsAccounted (html.extractReplayRows input.sourceText input.page input.pageUrl) outcomes
        result := by
  unfold discoverPageCandidates at h
  rw [hhtml] at h
  obtain ⟨acc, l₁, l₂, rfl, hrows, hpure⟩ := Async.emits_bind_ok.1 h
  obtain ⟨rfl, hresult⟩ := Proc.emits_pure.1 hpure
  obtain ⟨outcomes, htold, rfl⟩ := emits_discoverRows.1 hrows
  rw [List.append_nil, Except.ok.inj hresult]
  exact ⟨outcomes, htold, rowsAccounted_tellAll htold.length⟩

end Page

/-- A page of three rows: one without a link, and one twice. -/
def repeatingReader : HtmlReader toyPlatform where
  extractReplayRows _ page _ :=
    [{ metadata := {}, page, source := {} },
      { metadata := {}, page, source := { externalId := some "1", url := some "a" } },
      { metadata := {}, page, source := { externalId := some "1", url := some "a" } }]
  extractFilenameFromDetailHtml html := some html
  toRawReplayUrl filename _ := filename
  parse_rowUrl _ _ _ _ _ _ _ := rfl

/-- Every detail page answers the same, without being asked. -/
def silentInput : DiscoverPageInput (Effect (Option Json)) Reply where
  fetchText _ := pure "a.ocap"
  fixture := none
  page := 1
  pageUrl := { protocol := "https:", host := "list", pathname := "" }
  sourceText := ""

theorem row_accounting_repeating : ∃ result,
    Emits (discoverPageCandidates repeatingReader silentInput) [] (.ok result) ∧
      ∃ outcomes,
        RowsTold repeatingReader silentInput (repeatingReader.extractReplayRows "" 1
          silentInput.pageUrl) [] outcomes ∧
        RowsAccounted (repeatingReader.extractReplayRows "" 1 silentInput.pageUrl) outcomes
          result := by
  have hemits : Emits (discoverPageCandidates repeatingReader silentInput) []
      (.ok (RowLoop.result
        { candidates := List.replicate 2
            { identity := { filename := "a.ocap" }
              source :=
                { externalId := some "1", page := some 1, rawUrl := some "a.ocap", url := "a" } }
          diagnostics := [malformedRowDiagnostic toyPlatform
            { metadata := {}, page := 1, source := {} } silentInput.pageUrl] })) := .refl _ _
  exact ⟨_, hemits, row_accounting rfl hemits⟩

end ReplaysFetcher
