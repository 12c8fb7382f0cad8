/-
  What a failed read is called (`src/discovery/source-client-error.ts`,
  `src/discovery/discover-diagnostics.ts`, `src/run/summary.ts`).

  The kind of a failure is worked out again and again: by `withRetry`, from what the read threw; by
  the client, which wraps the error and, for a response that is not ok, has only the details it kept
  of it; from the code of the wrapped error, in the diagnostic; and from the code of the diagnostic,
  in the summary.

  1. **A client.**  Its error has the code of the kind `withRetry` stopped on
     (`code_of_fetchText`): the two classifications of one error agree, case by case.
  2. **A discovery** passes the error on to its report, and only this one (`heeds_discovery`): the
     diagnostics of a page are warnings, so the first error among them is that of the failure.
  3. **A run** leaves its page loop in the turn in which it is told (`heeds_pageTurn`), and from
     there to its summary nothing can fail any more (`heeds_runOnce`).

  `classification_faithful` puts them together.
-/
import ReplaysFetcher.CandidateIndex
import ReplaysFetcher.Effectful.Heeding

namespace ReplaysFetcher

open Effectful

/-! ## Kinds, under their names -/

/-- The kind a code of a `SourceFetchError` stands for. -/
def SourceFetchCode.kind : SourceFetchCode → FailureKind
  | .rateLimited => .rateLimited
  | .sourceTransient => .transient
  | .sourceUnavailable => .permanent

/-- The kind a code of a diagnostic stands for, if any. -/
def DiagnosticCode.kind? : DiagnosticCode → Option FailureKind
  | .rateLimited => some .rateLimited
  | .sourceTransient => some .transient
  | .sourceUnavailable => some .permanent
  | _ => none

/-- The kind a classification in a summary stands for. -/
def SourceFailureClassification.kind : SourceFailureClassification → FailureKind
  | .rateLimited => .rateLimited
  | .transient => .transient
  | .permanent => .permanent

/-- The list client's code tells the kind. -/
theorem kind_toFetchCode (kind : FailureKind) : (toFetchCode kind).kind = kind := by
  cases kind <;> rfl

/-- So does the diagnostic's. -/
theorem kind?_toDiagnosticCode (code : SourceFetchCode) :
    code.toDiagnosticCode.kind? = some code.kind := by
  cases code <;> rfl

/-- The classification in a summary is the kind of the code it is made from. -/
theorem map_kind_sourceFailureClassification (code : DiagnosticCode) :
    (sourceFailureClassification code).map (·.kind) = code.kind? := by
  cases code <;> rfl

/-! ## A client -/

/-- **What `withRetry` stopped on**: the error of its last read, which may not be retried or has used
    up the tries. -/
structure ReadShape.StoppedOn {α : Type} (shape : ReadShape α) (attempts : ℕ) (l : Exchanges)
    (error : ReadError) : Prop where
  last : ∃ reply, (reads l).getLast? = some ⟨shape.request, reply⟩ ∧
    shape.answer reply = .error error
  gaveUp : isRetryable (shape.classify error) = false ∨ (reads l).length = attempts + 1

theorem stoppedOn_of_emits {α ε : Type} {shape : ReadShape α} {l : Exchanges}
    {options : RetrySourceReadOptions α} {toError : ReadError → ε} {failure : ε}
    (hread : IsRequest options.read shape.request shape.answer)
    (hclassify : options.classify = shape.classify)
    (hdelay : ∀ error, Proc.Asks (fun e => e = .now) (options.retryAfterMs error))
    (hnot : NotAborted l) (h : Emits (retryOrThrow options toError) l (.error failure)) :
    ∃ error, shape.StoppedOn options.attempts l error ∧ failure = toError error := by
  obtain ⟨outcome, heq, hends⟩ := endsWithLast_of_emits hread hdelay h
  obtain ⟨hlast, hgaveUp⟩ := hends hnot
  cases outcome with
  | ok value => cases heq
  | error error =>
    refine ⟨error, ⟨hlast, ?_⟩, Except.error.inj heq⟩
    rw [← hclassify]
    exact hgaveUp error rfl

section Client

variable {Text : Type} (pf : Platform Text) {transport : SourceTransport} {url : Url}
  {options : SourceFetchOptions} {l : Exchanges}

/-- `toDirectFetchError` looks at less than `classifyDirect`, and sees the same. -/
theorem code_of_toDirectFetchError (error : ReadError) :
    (toDirectFetchError pf error options url).code = toFetchCode (classifyDirect error).kind := by
  cases error <;> rfl

/-- The code of an SSH failure is that of its class. -/
theorem code_of_toSshFetchError (error : ReadError) :
    (toSshFetchError pf error options url).code = toFetchCode (classifySsh error).kind := rfl

variable {pf}

/-- **The code of a client's error** is that of the kind `withRetry` stopped on. -/
theorem code_of_fetchText {failure : SourceFetchError} (hnot : NotAborted l)
    (h : Emits (transport.fetchText pf url options) l (.error failure)) :
    ∃ error, (transport.textShape pf url (resolvePhase options)).StoppedOn
        (options.attempts.getD 0) l error ∧
      failure.code =
        toFetchCode ((transport.textShape pf url (resolvePhase options)).classify error).kind := by
  cases transport with
  | direct codec =>
    have hstopped : ∃ error, (SourceTransport.textShape pf (.direct codec) url
        (resolvePhase options)).StoppedOn (options.attempts.getD 0) l error ∧
        failure = toDirectFetchError pf error options url :=
      stoppedOn_of_emits (directReadText_eq pf codec url _) rfl (asks_directRetryAfter codec) hnot h
    obtain ⟨error, hstopped, rfl⟩ := hstopped
    exact ⟨error, hstopped, code_of_toDirectFetchError pf error⟩
  | ssh config host hhost =>
    unfold SourceTransport.fetchText sshFetchText at h
    dsimp only at h
    rw [hhost] at h
    have hstopped : ∃ error, (SourceTransport.textShape pf (.ssh config host hhost) url
        (resolvePhase options)).StoppedOn (options.attempts.getD 0) l error ∧
        failure = toSshFetchError pf error options url := by
      refine stoppedOn_of_emits (sshReadText_eq pf url config host) rfl ?_ hnot h
      exact fun _ => trivial
    obtain ⟨error, hstopped, rfl⟩ := hstopped
    exact ⟨error, hstopped, code_of_toSshFetchError pf error⟩

end Client

/-! ## A discovery -/

/-- Warnings only. -/
def Warnings (diagnostics : List DiscoveryDiagnostic) : Prop :=
  ∀ diagnostic ∈ diagnostics, diagnostic.severity = .warning

/-- No diagnostics, no errors. -/
theorem warnings_nil : Warnings [] := fun _ hmem => absurd hmem List.not_mem_nil

/-- Two lists of warnings are one. -/
theorem Warnings.append {diagnostics diagnostics' : List DiscoveryDiagnostic}
    (h : Warnings diagnostics) (h' : Warnings diagnostics') :
    Warnings (diagnostics ++ diagnostics') :=
  fun diagnostic hmem => (List.mem_append.1 hmem).elim (h diagnostic) (h' diagnostic)

/-- One warning more. -/
theorem Warnings.concat {diagnostics : List DiscoveryDiagnostic} {diagnostic : DiscoveryDiagnostic}
    (h : Warnings diagnostics) (hseverity : diagnostic.severity = .warning) :
    Warnings (diagnostics ++ [diagnostic]) := by
  refine h.append fun other hmem => ?_
  rw [List.mem_singleton.1 hmem]
  exact hseverity

/-- This diagnostic is the error of the failure. -/
structure IsErrorOf (failure : SourceFetchError) (diagnostic : DiscoveryDiagnostic) : Prop where
  severity : diagnostic.severity = .error
  code : diagnostic.code = failure.code.toDiagnosticCode

/-- The report of a page that has failed. -/
structure FailedWith (failure : SourceFetchError) (report : DiscoveryReport) : Prop where
  notOk : report.ok = false
  candidates : report.candidates = []
  diagnostic : ∃ diagnostic, report.diagnostics = [diagnostic] ∧ IsErrorOf failure diagnostic

section Discovery

variable {Text : Type} {pf : Platform Text} {reader : SourceReader pf} {E : Type} {R : E → Type}

/-- The diagnostic of a failed read names it, with its code and its page. -/
theorem isErrorOf_buildSourceFailureDiagnostic (failure : SourceFetchError) (sourceUrl : Url)
    (failedPage : ℕ) :
    IsErrorOf failure (buildSourceFailureDiagnostic pf failure sourceUrl failedPage) := by
  unfold buildSourceFailureDiagnostic
  cases failure.details with
  | none => exact ⟨rfl, rfl⟩
  | some details => exact ⟨rfl, rfl⟩

/-! ### Warnings -/

/-- Repetitions are warnings. -/
theorem warnings_repetitionDiagnostics (registry : CandidateRegistry) (candidate : ReplayCandidate) :
    Warnings (repetitionDiagnostics registry candidate) := by
  intro diagnostic hmem
  unfold repetitionDiagnostics at hmem
  dsimp only at hmem
  split at hmem
  · exact absurd hmem List.not_mem_nil
  · split at hmem
    · rcases List.mem_pair.1 hmem with rfl | rfl
      · rfl
      · rfl
    · rw [List.mem_singleton.1 hmem]
      rfl

/-- So is all that collecting candidates says. -/
theorem warnings_collectCandidateDiagnostics (candidates : List ReplayCandidate) :
    Warnings (collectCandidateDiagnostics candidates).diagnostics := by
  have hfold : ∀ registry : CandidateRegistry, Warnings registry.diagnostics →
      Warnings (candidates.foldl collectCandidate registry).diagnostics := by
    induction candidates with
    | nil => exact fun registry h => h
    | cons candidate rest ih =>
      exact fun registry h => ih _ (h.append (warnings_repetitionDiagnostics registry candidate))
  exact hfold {} warnings_nil

/-- And what is said of malformed entries. -/
theorem warnings_fixtureCandidates (pageUrl : Url) (index : ℕ)
    (entries : List SourceCandidateFixture) :
    Warnings (fixtureCandidates pf pageUrl index entries).2 := by
  induction entries generalizing index with
  | nil => exact warnings_nil
  | cons entry entries ih =>
    unfold fixtureCandidates
    dsimp only
    split
    · exact ih (index + 1)
    · rename_i malformed hmalformed
      intro diagnostic hmem
      rcases List.mem_cons.1 hmem with rfl | hmem
      · -- a malformed entry
        unfold toReplayCandidate at hmalformed
        split at hmalformed
        · split at hmalformed
          · cases hmalformed
            rfl
          · cases hmalformed
        · cases hmalformed
          rfl
      · exact ih (index + 1) diagnostic hmem

/-- A row adds warnings. -/
theorem brings_discoverRow {input : DiscoverPageInput E R} {acc : RowLoop}
    (h : Warnings acc.diagnostics) (row : ReplayRow) :
    Proc.Brings (Async.Settled (fun acc => Warnings acc.diagnostics) fun _ => True)
      (discoverRow reader.toHtmlReader input acc row) := by
  unfold discoverRow
  split
  · exact Proc.gives_pure (h.concat rfl)
  · refine Async.gives_bind _ (Async.gives_any _) fun skip _ => ?_
    split
    · exact Proc.gives_pure h
    · refine Async.gives_bind _ (Async.gives_any _) fun candidate _ => Proc.gives_pure ?_
      cases candidate with
      | none => exact h.concat rfl
      | some candidate => exact h

/-- The rows of a page bring warnings only. -/
theorem brings_discoverRows {input : DiscoverPageInput E R} {acc : RowLoop}
    (h : Warnings acc.diagnostics) (rows : List ReplayRow) :
    Proc.Brings (Async.Settled (fun acc => Warnings acc.diagnostics) fun _ => True)
      (discoverRows reader.toHtmlReader input acc rows) := by
  induction rows generalizing acc with
  | nil => exact Proc.gives_pure h
  | cons row rows ih =>
    exact Async.gives_bind _ (brings_discoverRow h row) fun acc hacc => ih hacc

variable {options : DiscoverReplaysDryRunOptions E R}

/-- So does a page that can be read. -/
theorem brings_discoverPage (page : ℕ) :
    Proc.Brings (Async.Settled (fun found => Warnings found.diagnostics) fun _ => True)
      (discoverPage reader options page) := by
  unfold discoverPage
  refine Async.gives_bind _ (Async.gives_any _) fun sourceText _ => ?_
  refine Async.gives_bind (fun result => Warnings result.diagnostics) ?_
    fun result hresult => Proc.gives_pure (show Warnings result.findings.diagnostics from hresult)
  unfold discoverPageCandidates
  split
  · exact Proc.gives_pure
      ((warnings_fixtureCandidates _ 0 _).append (warnings_collectCandidateDiagnostics _))
  · refine Async.gives_bind _ (brings_discoverRows warnings_nil _) fun acc hacc => ?_
    exact Proc.gives_pure (hacc.append (warnings_collectCandidateDiagnostics _))

/-- **A discovery that is ok reports warnings only.** -/
theorem brings_discovery :
    Proc.Brings (Async.Settled (fun report => report.ok = true → Warnings report.diagnostics)
      fun _ => True) (discoverReplaysDryRun reader options) := by
  have hpages : ∀ remaining page found, Warnings found.diagnostics →
      Proc.Brings (fun outcome => Warnings outcome.1.diagnostics)
        (dryRunPages (discoverPage reader options) remaining page found) := by
    intro remaining
    induction remaining with
    | zero => exact fun page found h => Proc.gives_pure h
    | succ remaining ih =>
      intro page found h
      refine Proc.gives_bind _ (brings_discoverPage page) fun r hr => ?_
      cases r with
      | ok yielded => exact ih _ _ (h.append hr)
      | error error => exact Proc.gives_pure h
  unfold discoverReplaysDryRun
  refine Proc.gives_bind _ (hpages _ _ _ warnings_nil) fun outcome houtcome => Proc.gives_pure ?_
  obtain ⟨found, failed⟩ := outcome
  match failed with
  | none => exact fun _ => houtcome
  | some (error, page) =>
    cases error with
    | sourceFetch failure => exact fun hok => (by cases hok)
    | _ => exact trivial

/-! ### The failure -/

variable {bad : (Σ e : E, R e) → Prop} {failure : SourceFetchError}

variable (bad failure) in
/-- The dependencies of a discovery reject with the failure when they are told of it. -/
structure DiscoveryPassesOn (options : DiscoverReplaysDryRunOptions E R) : Prop where
  text : ∀ url readOptions,
    Async.PassesOn bad (.sourceFetch failure) (options.fetchText url readOptions)
  gate : ∀ exists', options.existsBySourceIdentity = some exists' →
    ∀ sourceSystem sourceReplayId,
      Async.PassesOn bad (.sourceFetch failure) (exists' sourceSystem sourceReplayId)
  sleep : ∀ milliseconds, Proc.Heeds bad (fun _ => False) (options.sleep milliseconds)

namespace DiscoveryPassesOn

/-- A paced read passes the failure on. -/
theorem paced (h : DiscoveryPassesOn bad failure options) (first : Bool) (url : Url)
    (readOptions : SourceReadOptions) :
    Async.PassesOn bad (.sourceFetch failure) (pacedFetchText options first url readOptions) := by
  unfold pacedFetchText
  dsimp only
  split
  · exact Async.heeds_lift_bind (h.sleep _) fun _ => h.text url readOptions
  · exact h.text url readOptions

/-- So does a row, whose detail page is read with one. -/
theorem row (h : DiscoveryPassesOn bad failure options) (page : ℕ) (sourceText : String)
    (acc : RowLoop) (row : ReplayRow) :
    Async.PassesOn bad (.sourceFetch failure) (discoverRow reader.toHtmlReader
      (discoverPageInput reader options page sourceText) acc row) := by
  unfold discoverRow
  split
  · exact Proc.heeds_pure
  · refine Async.passesOn_bind ?_ fun skip => ?_
    · -- the gate
      unfold shouldSkipPreDetail
      split
      · rename_i exists' sourceSystem externalId hexists _ _
        split
        · exact h.gate exists' hexists _ _
        · exact Proc.heeds_pure
      · exact Proc.heeds_pure
    · split
      · exact Proc.heeds_pure
      · refine Async.passesOn_bind ?_ fun candidate => Proc.heeds_pure
        unfold discoverRowCandidate
        refine Async.passesOn_bind Proc.heeds_pure fun detailUrl => ?_
        exact Async.passesOn_bind (h.paced _ _ _) fun detailHtml => Proc.heeds_pure

/-- So do the rows of a page. -/
theorem rows (h : DiscoveryPassesOn bad failure options) (page : ℕ) (sourceText : String)
    (rows : List ReplayRow) (acc : RowLoop) :
    Async.PassesOn bad (.sourceFetch failure) (discoverRows reader.toHtmlReader
      (discoverPageInput reader options page sourceText) acc rows) := by
  induction rows generalizing acc with
  | nil => exact Proc.heeds_pure
  | cons row rows ih =>
    exact Async.passesOn_bind (h.row page sourceText acc row) fun acc => ih acc

/-- So does a page, whose list is read with one. -/
theorem page (h : DiscoveryPassesOn bad failure options) (page : ℕ) :
    Async.PassesOn bad (.sourceFetch failure) (discoverPage reader options page) := by
  unfold discoverPage
  refine Async.passesOn_bind (h.paced _ _ _) fun sourceText => ?_
  refine Async.passesOn_bind ?_ fun found => Proc.heeds_pure
  unfold discoverPageCandidates
  split
  · exact Proc.heeds_pure
  · exact Async.passesOn_bind (h.rows page sourceText _ _) fun acc => Proc.heeds_pure

end DiscoveryPassesOn

/-- **A discovery of one page that is told reports the failure**, and nothing else. -/
theorem heeds_discovery (hmax : options.maxPages.getD 1 = 1)
    (h : DiscoveryPassesOn bad failure options) :
    Proc.Heeds bad (Async.Settled (FailedWith failure) fun _ => False)
      (discoverReplaysDryRun reader options) := by
  unfold discoverReplaysDryRun
  rw [hmax]
  show Proc.Heeds _ _ (Proc.bind (Proc.bind (discoverPage reader options 1) _) _)
  rw [Proc.bind_assoc']
  refine (h.page 1).bind ?_ fun r => ?_
  · rintro r rfl
    exact Proc.gives_pure
      ⟨rfl, rfl, _, rfl, isErrorOf_buildSourceFailureDiagnostic failure options.sourceUrl 1⟩
  · cases r with
    | ok yielded => exact Proc.heeds_pure
    | error error => exact Proc.heeds_pure

end Discovery

/-! ## A run -/

/-- Nothing has failed so far. -/
structure DiscoveryReport.Unbroken (report : DiscoveryReport) : Prop where
  ok : report.ok = true
  warnings : Warnings report.diagnostics

/-- A page has failed, and nothing before it. -/
structure DiscoveryReport.BrokenBy (failure : SourceFetchError) (report : DiscoveryReport) :
    Prop where
  notOk : report.ok = false
  diagnostics : ∃ earlier diagnostic, report.diagnostics = earlier ++ [diagnostic] ∧
    Warnings earlier ∧ IsErrorOf failure diagnostic

/-- A report that failed has that one error. -/
theorem FailedWith.brokenBy {failure : SourceFetchError} {report : DiscoveryReport}
    (h : FailedWith failure report) : report.BrokenBy failure := by
  obtain ⟨diagnostic, hdiagnostics, herror⟩ := h.diagnostic
  exact ⟨h.notOk, [], diagnostic, hdiagnostics, warnings_nil, herror⟩

namespace DiscoveryReport.Unbroken

variable {report pageReport : DiscoveryReport}

/-- Another page without an error leaves the report unbroken. -/
theorem append (h : report.Unbroken) (hok : pageReport.ok = true)
    (hwarnings : Warnings pageReport.diagnostics) :
    (appendDiscoveryReport report pageReport).Unbroken := by
  refine ⟨?_, h.warnings.append hwarnings⟩
  show (report.ok && pageReport.ok) = true
  rw [h.ok, hok]
  rfl

/-- The page that failed breaks it. -/
theorem brokenBy {failure : SourceFetchError} (h : report.Unbroken)
    (hpage : FailedWith failure pageReport) :
    (appendDiscoveryReport report pageReport).BrokenBy failure := by
  obtain ⟨diagnostic, hdiagnostics, herror⟩ := hpage.diagnostic
  refine ⟨?_, report.diagnostics, diagnostic, ?_, h.warnings, herror⟩
  · show (report.ok && pageReport.ok) = false
    rw [hpage.notOk, Bool.and_false]
  · rw [← hdiagnostics]
    rfl

end DiscoveryReport.Unbroken

/-! ### What a summary says -/

/-- Under its names in a summary, the failure is of this kind: the error diagnostic, of which there
    is one, and the source failure. -/
structure RunSummary.Names (kind : FailureKind) (summary : RunSummary) : Prop where
  diagnostic : ∃ diagnostic,
    summary.diagnostics.filter (fun entry => entry.severity = .error) = [diagnostic] ∧
      diagnostic.code.kind? = some kind
  classification : summary.sourceFailure.map (·.classification.kind) = some kind

/-- The status of a run that has failed so. -/
structure StatusOf (kind : FailureKind) (status : Option RunStatus) : Prop where
  resumable : kind = .transient ∨ kind = .rateLimited → status = some .resumable
  final : ¬ (kind = .transient ∨ kind = .rateLimited) →
    status = some .partiallyDone ∨ status = some .failed
  unfinished : status ≠ some .complete ∧ status ≠ some .truncated

section Summary

variable {failure : SourceFetchError} {report : DiscoveryReport}

/-- A broken report has one diagnostic that is an error. -/
theorem filter_of_brokenBy (h : report.BrokenBy failure) : ∃ diagnostic,
    report.diagnostics.filter (fun entry => entry.severity = .error) = [diagnostic] ∧
      IsErrorOf failure diagnostic := by
  obtain ⟨earlier, diagnostic, hdiagnostics, hwarnings, herror⟩ := h.diagnostics
  refine ⟨diagnostic, ?_, herror⟩
  have hnone : earlier.filter (fun entry => entry.severity = .error) = [] := by
    refine List.filter_eq_nil_iff.2 fun entry hmem => ?_
    rw [hwarnings entry hmem]
    exact Bool.false_ne_true
  rw [hdiagnostics, List.filter_append, hnone, List.nil_append,
    List.filter_cons_of_pos (by rw [herror.severity]; rfl)]
  rfl

/-- The first error with a classification is that of the failure. -/
theorem deriveSourceFailure_of_brokenBy (h : report.BrokenBy failure) :
    (deriveSourceFailure report).map (·.classification.kind) = some failure.code.kind := by
  obtain ⟨earlier, diagnostic, hdiagnostics, hwarnings, herror⟩ := h.diagnostics
  have hkind : (sourceFailureClassification diagnostic.code).map (·.kind) =
      some failure.code.kind := by
    rw [map_kind_sourceFailureClassification, herror.code, kind?_toDiagnosticCode]
  obtain ⟨classification, hclassification, hsame⟩ := Option.map_eq_some_iff.1 hkind
  have hfind : (report.diagnostics.find? fun entry =>
      entry.severity = .error && (sourceFailureClassification entry.code).isSome) =
        some diagnostic := by
    have hearlier : (earlier.find? fun entry =>
        entry.severity = .error && (sourceFailureClassification entry.code).isSome) = none := by
      refine List.find?_eq_none.2 fun entry hmem => ?_
      rw [hwarnings entry hmem]
      exact Bool.false_ne_true
    rw [hdiagnostics, List.find?_append, hearlier, Option.none_or]
    refine List.find?_cons_of_pos ?_
    rw [herror.severity, hclassification]
    rfl
  rw [deriveSourceFailure_of_find h.notOk hfind, hclassification, ← hsame]
  rfl

/-- A failure is recoverable exactly if its kind is. -/
theorem isRecoverable_iff {sourceFailure : Option RunSourceFailure} {kind : FailureKind}
    (h : sourceFailure.map (·.classification.kind) = some kind) :
    isRecoverable sourceFailure = true ↔ kind = .transient ∨ kind = .rateLimited := by
  obtain ⟨failure, rfl, rfl⟩ := Option.map_eq_some_iff.1 h
  show (failure.classification = .rateLimited || failure.classification = .transient) = true ↔ _
  generalize failure.classification = classification
  cases classification <;> decide

/-- The status of the run says the kind. -/
theorem statusOf_finalStatus {state : LoopState} (h : state.discoveryReport.BrokenBy failure) :
    StatusOf failure.code.kind (some (finalStatus state)) := by
  have hrecoverable := isRecoverable_iff (deriveSourceFailure_of_brokenBy h)
  unfold finalStatus deriveRunStatus
  rw [if_neg fun hok => Bool.false_ne_true (h.notOk.symm.trans hok.1)]
  by_cases hkind : failure.code.kind = .transient ∨ failure.code.kind = .rateLimited
  · rw [if_pos (hrecoverable.2 hkind)]
    exact ⟨fun _ => rfl, fun hnot => absurd hkind hnot, by decide⟩
  · rw [if_neg (mt hrecoverable.1 hkind)]
    refine ⟨fun hyes => absurd hyes hkind, fun _ => ?_, ?_⟩
    · split
      · exact Or.inl rfl
      · exact Or.inr rfl
    · split
      · decide
      · decide

/-- The summary derives its source failure from the report. -/
theorem sourceFailure_buildRunSummary (input : BuildRunSummaryInput) :
    (buildRunSummary input).sourceFailure = deriveSourceFailure input.discoveryReport := by
  unfold buildRunSummary withRunMetrics
  split <;> rfl

/-- The summary of a broken report names the kind. -/
theorem names_buildRunSummary {input : BuildRunSummaryInput}
    (h : input.discoveryReport.BrokenBy failure) :
    (buildRunSummary input).Names failure.code.kind := by
  obtain ⟨diagnostic, hfilter, herror⟩ := filter_of_brokenBy h
  refine ⟨⟨diagnostic, ?_, ?_⟩, ?_⟩
  · rw [(report_of_buildRunSummary input).2]
    exact hfilter
  · rw [herror.code, kind?_toDiagnosticCode]
  · rw [sourceFailure_buildRunSummary]
    exact deriveSourceFailure_of_brokenBy h

end Summary

/-! ### The run -/

section Run

variable {Text : Type} {pf : Platform Text} {E : Type} {R : E → Type} {input : RunOnceInput E R}
  {context : AssembleContext} {bad : (Σ e : E, R e) → Prop} {failure : SourceFetchError}
  {P : E → Prop}

variable (bad failure P pf input) in
/-- A run that is told of the failure by its discovery alone. -/
structure RunPassesOn : Prop where
  unasked : ∀ x, bad x → ¬ P x.1
  around : input.AsksAround P pf
  told : ∀ page, Proc.Heeds bad (Async.Settled (FailedWith failure) fun _ => False)
    (input.discoverReplays (discoverInput pf input page))
  warnings : ∀ page, Proc.Brings (Async.Settled (fun report => report.ok = true →
    Warnings report.diagnostics) fun _ => True) (input.discoverReplays (discoverInput pf input page))

/-- A failed page ends its turn. -/
theorem brings_afterDiscovery_failed {cursor : LoopState × ℕ} {report : DiscoveryReport}
    (hbefore : cursor.1.discoveryReport.Unbroken) (hreport : FailedWith failure report) :
    Proc.Brings (Async.Settled (fun turn => turn.stopReason = some .pageFailed ∧
      turn.state.discoveryReport.BrokenBy failure) fun _ => False)
      (afterDiscovery input context cursor report) := by
  unfold afterDiscovery
  rw [if_pos hreport.notOk]
  refine Async.gives_lift_bind (fun state => state.discoveryReport =
    appendDiscoveryReport cursor.1.discoveryReport report) ?_ fun state hstate => ?_
  · unfold applyRateLimitThrottle
    split
    · exact Proc.gives_bind _ (Proc.gives_any _) fun now _ => Proc.gives_pure rfl
    · exact Proc.gives_pure rfl
  · refine Async.gives_lift_bind (fun _ => True) (Proc.gives_any _) fun _ _ => ?_
    refine Proc.gives_pure ⟨rfl, ?_⟩
    show state.discoveryReport.BrokenBy failure
    rw [hstate]
    exact hbefore.brokenBy hreport

/-- One that goes on has had an ok page. -/
theorem brings_afterDiscovery {cursor : LoopState × ℕ} {report : DiscoveryReport}
    (hbefore : cursor.1.discoveryReport.Unbroken)
    (hwarnings : report.ok = true → Warnings report.diagnostics) :
    Proc.Brings (Async.Settled (fun turn => turn.stopReason = none → turn.state.discoveryReport.Unbroken)
      fun _ => True) (afterDiscovery input context cursor report) := by
  unfold afterDiscovery
  split
  · refine Async.gives_lift_bind (fun _ => True) (Proc.gives_any _) fun state _ => ?_
    refine Async.gives_lift_bind (fun _ => True) (Proc.gives_any _) fun _ _ => Proc.gives_pure ?_
    exact fun hnone => (by cases hnone)
  · rename_i hok
    rw [Bool.not_eq_false] at hok
    split
    · exact Proc.gives_pure fun hnone => (by cases hnone)
    · have hpage : Proc.Brings (Async.Settled (fun x : LoopState × IngestPageCounts =>
          x.1.discoveryReport = appendDiscoveryReport cursor.1.discoveryReport report)
          fun _ => True) (completeOkPage input context cursor.2 report.candidates
            (discoveredState cursor.1 report)) := by
        unfold completeOkPage
        refine Async.gives_lift_bind (fun _ => True) (Proc.gives_any _) fun throttledAt _ => ?_
        refine Async.gives_bind _ (Async.gives_any _) fun result _ => ?_
        refine Async.gives_lift_bind (fun _ => True) (Proc.gives_any _) fun completedAt _ => ?_
        refine Async.gives_lift_bind (fun _ => True) (Proc.gives_any _) fun _ _ => ?_
        exact Async.gives_bind _ (Async.gives_any _) fun etag _ => Proc.gives_pure rfl
      refine Async.gives_bind _ hpage fun x hx => Proc.gives_pure fun _ => ?_
      show x.1.discoveryReport.Unbroken
      rw [hx]
      exact hbefore.append hok (hwarnings hok)

/-- What follows a discovery asks what the run asks around it. -/
theorem RunOnceInput.AsksAround.afterDiscovery (h : input.AsksAround P pf)
    (hslug : context.slug = pf.withoutUserinfo input.sourceUrl) (cursor : LoopState × ℕ)
    (report : DiscoveryReport) :
    Proc.Asks P (afterDiscovery input context cursor report) := by
  unfold ReplaysFetcher.afterDiscovery
  split
  · refine Async.asks_lift_bind (h.applyRateLimitThrottle _ _) fun state => ?_
    exact Async.asks_lift_bind (h.emitPageFailureEvent _ _) fun _ => trivial
  · split
    · trivial
    · exact Async.asks_bind (h.completeOkPage hslug _ _ _) fun x => trivial

/-- **A turn that is told ends the loop.** -/
theorem RunPassesOn.pageTurn (h : RunPassesOn pf input bad failure P)
    (hslug : context.slug = pf.withoutUserinfo input.sourceUrl) {cursor : LoopState × ℕ}
    (hbefore : cursor.1.discoveryReport.Unbroken) :
    Proc.Heeds bad (Async.Settled (fun turn => turn.stopReason = some .pageFailed ∧
      turn.state.discoveryReport.BrokenBy failure) fun _ => False) (pageTurn pf input context cursor) := by
  unfold ReplaysFetcher.pageTurn
  split
  · exact Proc.heeds_pure
  · refine Async.heeds_lift_bind (Proc.heeds_of_asks h.unasked h.around.awaitFloor) fun _ => ?_
    refine Async.heeds_bind_of _ _ (h.warnings _) (h.told _) (fun report hreport => ?_)
      fun report _ => ?_
    · exact brings_afterDiscovery_failed hbefore hreport
    · exact Proc.heeds_of_asks h.unasked (h.around.afterDiscovery hslug cursor report)

/-- A page turn of a run that goes on leaves the report unbroken. -/
theorem RunPassesOn.brings_pageTurn (h : RunPassesOn pf input bad failure P)
    {cursor : LoopState × ℕ} (hbefore : cursor.1.discoveryReport.Unbroken) :
    Proc.Brings (Async.Settled (fun turn => turn.stopReason = none → turn.state.discoveryReport.Unbroken)
      fun _ => True) (ReplaysFetcher.pageTurn pf input context cursor) := by
  unfold ReplaysFetcher.pageTurn
  split
  · exact Proc.gives_pure fun hnone => (by cases hnone)
  · refine Async.gives_lift_bind (fun _ => True) (Proc.gives_any _) fun _ _ => ?_
    exact Async.gives_bind _ (h.warnings _) fun report hwarnings =>
      brings_afterDiscovery hbefore hwarnings

/-- **A page loop that is told ends broken.** -/
theorem RunPassesOn.pageLoop (h : RunPassesOn pf input bad failure P)
    (hslug : context.slug = pf.withoutUserinfo input.sourceUrl) {state : LoopState}
    (hbefore : state.discoveryReport.Unbroken) :
    Proc.Heeds bad (Async.Settled (·.discoveryReport.BrokenBy failure) fun _ => False)
      (runPageLoop pf input context state) := by
  refine Async.heeds_iterate (fun cursor => cursor.1.discoveryReport.Unbroken) (fun cursor hcursor => ?_)
    (fun cursor hcursor => ?_) hbefore
  · rw [pageIteration_eq]
    refine Async.gives_bind _ (h.brings_pageTurn hcursor) fun turn hturn => Proc.gives_pure ?_
    show Sum.elim _ _ (turn.next cursor.2)
    unfold PageTurn.next
    split
    · exact trivial
    · rename_i hnone
      exact hturn hnone
  · rw [pageIteration_eq]
    refine Async.heeds_bind_of (fun _ => True) _ (Async.gives_any _) (h.pageTurn hslug hcursor)
      (fun turn hturn => Proc.gives_pure ?_) fun turn _ => Proc.heeds_pure
    show Sum.elim _ _ (turn.next cursor.2)
    unfold PageTurn.next
    rw [hturn.1]
    exact ⟨hturn.2.notOk, hturn.2.diagnostics⟩

/-- Writing evidence never fails a run. -/
theorem brings_writeEvidence (summary : RunSummary) :
    Proc.Brings (Async.Settled (fun _ => True) fun _ => False) (writeEvidence input summary) := by
  have hwith : ∀ write : Option (Async E R JsError Unit), Proc.Brings
      (Async.Settled (fun _ => True) fun _ => False) (writeEvidenceWith input write) := by
    intro write
    unfold writeEvidenceWith
    split
    · exact Proc.gives_pure trivial
    · refine Async.gives_tryCatch (fun _ => True) (Async.gives_any _) fun error _ => ?_
      exact Proc.gives_bind (fun _ => True) (Proc.gives_any _) fun _ _ => Proc.gives_pure trivial
  unfold writeEvidence
  exact Async.gives_bind _ (hwith _) fun _ _ => hwith _

/-- **From a failed page to the summary.** -/
theorem brings_assembleResult {state : LoopState} (h : state.discoveryReport.BrokenBy failure) :
    Proc.Brings (Async.Settled (fun result => result.summary.Names failure.code.kind ∧
      StatusOf failure.code.kind result.summary.status) fun _ => False)
      (assembleResult input context state) := by
  have hstatus := statusOf_finalStatus h
  unfold assembleResult
  rw [if_neg fun hcomplete => hstatus.unfinished.1 (congrArg some hcomplete)]
  refine Async.gives_bind (fun _ => True) (Proc.gives_pure trivial) fun _ _ => ?_
  refine Async.gives_lift_bind (fun _ => True) (Proc.gives_any _) fun finishedAt _ => ?_
  refine Async.gives_lift_bind (fun _ => True) (Proc.gives_any _) fun _ _ => ?_
  refine Async.gives_bind _ (brings_writeEvidence _) fun _ _ => Proc.gives_pure ⟨?_, ?_⟩
  · exact names_buildRunSummary h
  · show StatusOf _ (finalSummary input.runId context state finishedAt).status
    unfold finalSummary
    rw [status_buildRunSummary]
    exact hstatus

/-- **A run that is told of a failure shows it.** -/
theorem RunPassesOn.runOnce (h : RunPassesOn pf input bad failure P) :
    Proc.Heeds bad (Async.Settled (fun result => result.summary.Names failure.code.kind ∧
      StatusOf failure.code.kind result.summary.status) fun _ => False) (runOnce pf input) := by
  have hasked : ∀ {β : Type} {fate : β → Prop} {p : Proc E R β}, Proc.Asks P p →
      Proc.Heeds bad fate p := fun hp => Proc.heeds_of_asks h.unasked hp
  unfold ReplaysFetcher.runOnce
  refine Async.heeds_lift_bind (hasked h.around.now) fun startedAt => ?_
  refine Async.heeds_lift_bind (hasked (h.around.log _)) fun _ => ?_
  refine Async.heeds_bind (hasked h.around.resolveResumeState) fun resumeState => ?_
  unfold runFrom
  refine Async.heeds_bind_of (fun _ => True) _ (Async.gives_any _) (h.pageLoop rfl ⟨rfl, warnings_nil⟩)
    (fun state hstate => brings_assembleResult hstate) fun state _ => ?_
  exact hasked (h.around.assembleResult rfl state)

end Run

/-! ## The wired programs -/

section Wired

variable {Text : Type} {pf : Platform Text} (reader : SourceReader pf) {failure : SourceFetchError}

/-- The source client has rejected a text read with this failure. -/
def Tells (failure : SourceFetchError) (x : Σ e : SourcedEffect Text, SourcedReply e) : Prop :=
  ∃ url options, x = ⟨.text url options, .error (.sourceFetch failure)⟩

/-- Anything but a text read. -/
def NotText : SourcedEffect Text → Prop
  | .text _ _ => False
  | _ => True

/-- A failed text read is none of the other requests. -/
theorem notText_of_tells {x : Σ e : SourcedEffect Text, SourcedReply e} (h : Tells failure x) :
    ¬ NotText x.1 := by
  obtain ⟨url, options, rfl⟩ := h
  exact id

/-- The other requests are handled without a text read. -/
theorem asks_sourced (e : Effect Text) : Proc.Asks NotText (sourced e) := by
  cases e <;> exact ⟨trivial, fun _ => trivial⟩

/-- So is a whole program of them. -/
theorem asks_handle_sourced {α : Type} (p : Program Text α) :
    Proc.Asks NotText (Proc.handle sourced p) :=
  (Proc.asks_any p).handle fun e _ => asks_sourced e

/-- A text read rejects with what the client rejects with. -/
theorem passesOn_text (url : Url) (options : SourceReadOptions) :
    Async.PassesOn (Tells failure) (.sourceFetch failure)
      (Proc.perform (SourcedEffect.text url options) :
        Async (SourcedEffect Text) SourcedReply JsError String) := by
  have hreply : ∀ r : SourcedReply (.text url options : SourcedEffect Text),
      Tells failure ⟨.text url options, r⟩ → r = .error (.sourceFetch failure) := by
    rintro r ⟨url', options', heq⟩
    cases heq
    rfl
  exact Proc.heeds_perform hreply

/-- A run passes on what its text reads tell. -/
theorem runPassesOn (config : RunConfig) :
    RunPassesOn pf (config.sourcedInput reader) (Tells failure) failure NotText where
  unasked _ hx := notText_of_tells hx
  around :=
    { awaitFloor := ⟨trivial, fun _ => trivial⟩
      now := ⟨trivial, fun _ => trivial⟩
      log := fun line => ⟨trivial, fun _ => trivial⟩
      read := fun slug _ => asks_handle_sourced _
      write := fun checkpoint etag slug _ => asks_handle_sourced _
      ingest := fun state candidates => asks_ingestPage_of (fun candidate => asks_handle_sourced _)
        (fun rawResult runId => asks_handle_sourced _) fun gate hgate => (by cases hgate)
      evidenceStore := by
        rintro write ⟨⟩ runId summary
        exact ⟨trivial, fun _ => trivial⟩
      writeEvidenceFile := by
        rintro write ⟨⟩ path summary
        exact ⟨trivial, fun _ => trivial⟩ }
  told page := by
    refine heeds_discovery rfl ⟨fun url options => passesOn_text url options, ?_, ?_⟩
    · exact fun exists' hexists => (by cases hexists)
    · exact fun milliseconds =>
        Proc.heeds_of_asks (fun x hx => notText_of_tells hx) ⟨trivial, fun _ => trivial⟩
  warnings page := brings_discovery

/-- **A watch cycle that is told of a failure shows it.** -/
theorem heeds_runCycle (config : WatchConfig) :
    Proc.Heeds (Tells failure) (Async.Settled (fun summary => summary.Names failure.code.kind)
      fun _ => False) (runCycle (config.sourcedInput reader)) := by
  have hasked : ∀ {β : Type} {fate : β → Prop} {p : Proc (SourcedEffect Text) SourcedReply β},
      Proc.Asks NotText p → Proc.Heeds (Tells failure) fate p :=
    fun hp => Proc.heeds_of_asks (fun x hx => notText_of_tells hx) hp
  have hlift : ∀ {β : Type} (e : Effect Text) (f : Reply e → Except JsError β),
      Proc.Asks NotText (Proc.bind (sourced e) fun r => .pure (f r)) :=
    fun e f => (asks_sourced e).bind fun _ => trivial
  unfold runCycle
  refine Async.heeds_bind (hasked (hlift .now .ok)) fun cycleStart => ?_
  refine Async.heeds_bind (hasked (hlift (.createRunId cycleStart) .ok)) fun runId => ?_
  refine Async.heeds_bind (hasked ⟨trivial, fun _ => trivial⟩) fun _ => ?_
  refine Async.heeds_bind_of (fun _ => True) (FailedWith failure) (Async.gives_any _) ?_
    (fun report hreport => ?_) fun report _ => hasked ?_
  · refine heeds_discovery rfl ⟨fun url options => passesOn_text url options, ?_, ?_⟩
    · rintro exists' ⟨⟩ sourceSystem sourceReplayId
      exact hasked (asks_sourced (.existsBySourceIdentity sourceSystem sourceReplayId))
    · exact fun milliseconds => hasked (asks_sourced (.sleep milliseconds))
  · -- a page without candidates is fanned out
    have hpage : Proc.Brings (Async.Settled (fun _ => True) fun _ => False)
        (ingestPage (watchIngestInput (config.sourcedInput reader) runId report.candidates)) := by
      rw [hreport.candidates, ingestPage_eq]
      exact Proc.gives_fan (fun _ _ => True) (fun _ => Proc.gives_any _) fun vs _ =>
        Proc.gives_pure trivial
    refine Async.gives_bind _ hpage fun result _ => ?_
    refine Async.gives_bind (fun _ => True) ?_ fun finishedAt _ => ?_
    · exact Proc.gives_bind (fun _ => True) (Proc.gives_any _) fun _ _ => Proc.gives_pure trivial
    refine Async.gives_lift_bind (fun _ => True) (Proc.gives_any _) fun _ _ => Proc.gives_pure ?_
    exact names_buildRunSummary hreport.brokenBy
  · refine Async.asks_bind (asks_ingestPage_of (fun candidate => asks_handle_sourced _)
      (fun rawResult runId => asks_handle_sourced _) ?_) fun result => ?_
    · rintro gate ⟨⟩ sourceSystem sourceReplayId
      exact asks_sourced (.existsBySourceIdentity sourceSystem sourceReplayId)
    · refine Async.asks_bind (hlift .now .ok) fun finishedAt => ?_
      exact Async.asks_lift_bind (asks_sourced (.log _)) fun _ => trivial

end Wired

/-! ## From the read to the summary -/

section Faithful

variable {Text : Type} {pf : Platform Text} (reader : SourceReader pf) (transport : SourceTransport)
  {url : Url} {options : SourceReadOptions} {l : Exchanges} {failure : SourceFetchError}

/-- **A failure is of one kind everywhere.**  A text read that was not aborted and has failed has
    stopped `withRetry` with an error of some kind.  That is the kind of the client's error; and a run
    or a watch cycle that was told of it resolves with a summary in which it is the kind of the one
    error diagnostic and of the source failure, and a run has the status of that kind. -/
theorem classification_faithful (hnot : NotAborted l)
    (hread : Emits (transport.fetchText pf url options.toFetchOptions) l (.error failure)) :
    ∃ error, (transport.textShape pf url options.phase).StoppedOn (options.attempts.getD 0) l error ∧
      failure.code.kind = ((transport.textShape pf url options.phase).classify error).kind ∧
      (∀ (config : RunConfig) (conversation : SourcedConversation Text)
        (r : Except JsError RunOnceResult),
        Emits (runOnce pf (config.sourcedInput reader)) conversation r →
        ⟨.text url options, .error (.sourceFetch failure)⟩ ∈ conversation →
        ∃ result, r = .ok result ∧
          result.summary.Names ((transport.textShape pf url options.phase).classify error).kind ∧
          StatusOf ((transport.textShape pf url options.phase).classify error).kind
            result.summary.status) ∧
      ∀ (config : WatchConfig) (conversation : SourcedConversation Text)
        (r : Except JsError RunSummary),
        Emits (runCycle (config.sourcedInput reader)) conversation r →
        ⟨.text url options, .error (.sourceFetch failure)⟩ ∈ conversation →
        ∃ summary, r = .ok summary ∧
          summary.Names ((transport.textShape pf url options.phase).classify error).kind := by
  obtain ⟨error, hstopped, hcode⟩ := code_of_fetchText hnot hread
  have hkind : failure.code.kind =
      ((transport.textShape pf url options.phase).classify error).kind := by
    rw [hcode]
    exact kind_toFetchCode _
  refine ⟨error, hstopped, hkind, fun config conversation r hrun hmem => ?_,
    fun config conversation r hcycle hmem => ?_⟩
  · have hfate := (runPassesOn reader config).runOnce conversation r hrun ⟨_, hmem, url, options, rfl⟩
    rw [hkind] at hfate
    cases r with
    | ok result => exact ⟨result, rfl, hfate⟩
    | error error => exact hfate.elim
  · have hfate := heeds_runCycle reader config conversation r hcycle ⟨_, hmem, url, options, rfl⟩
    rw [hkind] at hfate
    cases r with
    | ok summary => exact ⟨summary, rfl, hfate⟩
    | error error => exact hfate.elim

end Faithful

/-! ## An overloaded source -/

/-- The error of a text read that has met an overloaded source once. -/
def overloadError (url : Url) (options : SourceReadOptions) : SourceFetchError :=
  toDirectFetchError toyPlatform
    (.sourceFetch (buildDirectHttpError toyPlatform options.phase toyOverload url))
    options.toFetchOptions url

/-- What a run is told. -/
def overloadReply : (e : SourcedEffect (Option Json)) → SourcedReply e
  | .text url options => .error (.sourceFetch (overloadError url options))
  | .bytes _ _ => .ok [97]
  | .other e => (toyScript.serve emptyWorld e).1

/-- And what has been said by then. -/
def overloadRecord (l : SourcedConversation (Option Json)) (e : SourcedEffect (Option Json)) :
    SourcedReply e × SourcedConversation (Option Json) :=
  (overloadReply e, l ++ [⟨e, overloadReply e⟩])

/-- A source that answers 503, and the run over it. -/
def overloadedRun : SourcedConversation (Option Json) ×
    Async (SourcedEffect (Option Json)) SourcedReply JsError RunOnceResult :=
  Proc.exec overloadRecord 40 ([], runOnce toyPlatform (toyConfig.sourcedInput toyReader))

/-- That run ends. -/
theorem emits_overloadedRun : ∃ r,
    Emits (runOnce toyPlatform (toyConfig.sourcedInput toyReader)) overloadedRun.1 r := by
  have hsome : overloadedRun.2.result.isSome = true := by decide +kernel
  obtain ⟨r, hr⟩ := Option.isSome_iff_exists.1 hsome
  have hruns : (Proc.lts Env.free _).Runs Lts.Alone [] _ overloadedRun.1 overloadedRun.2 :=
    Proc.runs_exec (fun _ _ => rfl) 40 ([], runOnce toyPlatform (toyConfig.sourcedInput toyReader))
  rw [Proc.result_eq_some.1 hr] at hruns
  exact ⟨r, hruns⟩

/-- Its first list page. -/
def overloadedUrl : Url := toyPlatform.toPageUrl (toyPlatform.toPageUrl toyConfig.sourceUrl 1) 1

/-- Its first list read. -/
def overloadedOptions : SourceReadOptions := { page := 1, phase := .list }

/-- A run over it is resumable. -/
theorem classification_faithful_overload : ∃ (conversation : SourcedConversation (Option Json))
    (result : RunOnceResult),
    Emits (runOnce toyPlatform (toyConfig.sourcedInput toyReader)) conversation (.ok result) ∧
      result.summary.Names .transient ∧ result.summary.status = some .resumable := by
  have hread : Emits ((SourceTransport.direct toyCodec).fetchText toyPlatform overloadedUrl
      overloadedOptions.toFetchOptions) (firstTry (.fetch overloadedUrl) (.ok toyOverload))
      (.error (overloadError overloadedUrl overloadedOptions)) :=
    @emits_directFetchText_once _ toyPlatform toyCodec overloadedUrl _ (.ok toyOverload) (Or.inr rfl)
  have htold : overloadedRun.1[5]? = some ⟨.text overloadedUrl overloadedOptions,
      .error (.sourceFetch (overloadError overloadedUrl overloadedOptions))⟩ := rfl
  obtain ⟨error, _, hkind, hrun, _⟩ :=
    classification_faithful toyReader (.direct toyCodec) (notAborted_firstTry rfl _) hread
  obtain ⟨r, hemits⟩ := emits_overloadedRun
  obtain ⟨result, rfl, hnames, hstatus⟩ :=
    hrun toyConfig _ r hemits (List.mem_of_getElem? htold)
  rw [← hkind] at hnames hstatus
  exact ⟨_, result, hemits, hnames, hstatus.resumable (Or.inl rfl)⟩

end ReplaysFetcher
