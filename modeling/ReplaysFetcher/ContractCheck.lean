/-
  The contract check (`src/contract-check/contract-check.ts`).

  One probe of the live source: the list page, the detail page of its first row, and the raw data of
  that.  A page that cannot be sampled further is a warning; a read that fails, or raw data that is
  not JSON, makes the check fail, and the reason says whose fault it is.

  1. **Program**: `runContractCheck`, over any `fetchText`.
  2. **Over a transport**: no read is repeated, and the reason is that of the last read alone
     (`contract_check_exact`).  The check classifies a failure a second time, and that time the error
     of the transport is itself the cause: so a failure is the contract's only when it looks
     permanent by its cause and by itself (`SourceTransport.permanent`).
  3. **Beside the discovery**: the check samples what a discovery reads.  Over a source that holds
     still, its result says what the discovery finds (`contract_check_forecasts`).
-/
import ReplaysFetcher.Classification
import ReplaysFetcher.RowAccounting

namespace ReplaysFetcher

open Effectful

/-! ## Results -/

/-- Why a check failed. -/
inductive ContractCheckReason
  | contractBroken | sourceUnreachable
  deriving DecidableEq, Repr

/-- What a check warns of. -/
inductive ContractCheckWarningCode
  | emptyListPage | missingExternalId | missingFilename
  deriving DecidableEq, Repr

/-- A warning. -/
structure ContractCheckWarning where
  code : ContractCheckWarningCode
  message : String
  deriving DecidableEq, Repr

/-- The URLs that a check has looked at. -/
structure ContractCheckSample where
  listPageUrl : String
  detailUrl : Option String := none
  rawUrl : Option String := none
  deriving DecidableEq, Repr

/-- `ContractCheckResult`; the details of a failure are its HTTP status. -/
inductive ContractCheckResult
  | passed (sample : ContractCheckSample) (warnings : List ContractCheckWarning)
  | failed (reason : ContractCheckReason) (message : String) (details : Option ℕ)
      (warnings : List ContractCheckWarning)
  deriving DecidableEq, Repr

namespace ContractCheckResult

/-- A check that passed, with warnings or without. -/
def ok : ContractCheckResult → Bool
  | passed _ _ => true
  | failed _ _ _ _ => false

/-- The reason of a check that failed. -/
def reason? : ContractCheckResult → Option ContractCheckReason
  | passed _ _ => none
  | failed reason _ _ _ => some reason

/-- The warnings of a check. -/
def warnings : ContractCheckResult → List ContractCheckWarning
  | passed _ warnings => warnings
  | failed _ _ _ warnings => warnings

end ContractCheckResult

/-! ## Failed reads -/

/-- What `fetchText` rejects with: a `SourceFetchError` with its `cause`, or another error. -/
inductive ProbeFailure
  | sourceFetch (failure : SourceFetchError) (cause : Option RuntimeError)
  | other (error : JsError)

/-- The error without its cause. -/
def ProbeFailure.toJsError : ProbeFailure → JsError
  | sourceFetch failure _ => .sourceFetch failure
  | other error => error

/-- The status of a failed read, if it had one. -/
def readHttpStatus (details : Option SourceFetchDetails) : Option ℕ := details.bind (·.httpStatus)

/-- `buildClassifyInput` -/
def buildClassifyInput (failure : SourceFetchError) (cause : Option RuntimeError)
    (httpStatus : Option ℕ) : ClassifyInput where
  error := some (.error "SourceFetchError" failure.message (some failure.code.text) cause)
  httpStatus := httpStatus

/-- A read that failed: the source refuses it, or cannot be reached. -/
def makeFetchFailureResult (error : ProbeFailure) (message : String)
    (warnings : List ContractCheckWarning) : ContractCheckResult :=
  match error with
  | .other _ => .failed .contractBroken message none warnings
  | .sourceFetch failure cause =>
    if failure.code = .sourceTransient ∨ failure.code = .rateLimited then
      .failed .sourceUnreachable message none warnings
    else
      let httpStatus := readHttpStatus failure.details
      let classification := classifyFailure (buildClassifyInput failure cause httpStatus)
      if classification.kind ≠ .permanent then .failed .sourceUnreachable message none warnings
      else .failed .contractBroken message httpStatus warnings

/-! ## The probe -/

/-- The reads of a check, and its URL. -/
structure ProbeContext (E : Type) (R : E → Type) where
  fetchText : Url → Async E R ProbeFailure String
  listPageUrl : String
  warnings : List ContractCheckWarning := []

/-- The detail page that is looked at, and the filename on it. -/
structure DetailTarget where
  detailUrl : Url
  detailUrlString : String
  filename : String

section Probe

variable {E : Type} {R : E → Type} (context : ProbeContext E R)

/-- `tryFetch`: the text, or the result of the check. -/
def tryFetch (url : Url) (message : String) : Proc E R (Except ContractCheckResult String) :=
  Proc.bind (context.fetchText url) fun r =>
    .pure (r.mapError fun error => makeFetchFailureResult error message context.warnings)

/-- A check that passes with one warning. -/
def warn (code : ContractCheckWarningCode) (message : String) (sample : ContractCheckSample) :
    ContractCheckResult :=
  .passed sample (context.warnings ++ [{ code := code, message := message }])

variable {Text : Type} {pf : Platform Text} (html : HtmlReader pf) (isJson : String → Bool)

/-- The third read: the replay's data have to be JSON. -/
def probeRawEndpoint (target : DetailTarget) : Async E R JsError ContractCheckResult := do
  let rawUrl := html.toRawReplayUrl target.filename target.detailUrl
  let url ← (Proc.pure (newUrl pf rawUrl) : Async E R JsError Url)
  let outcome ← (tryFetch context url "Failed to fetch raw data endpoint" :
    Proc E R (Except ContractCheckResult String))
  match outcome with
  | .error result => pure result
  | .ok body =>
    if isJson body then
      pure (.passed
        { detailUrl := some target.detailUrlString, listPageUrl := context.listPageUrl
          rawUrl := some rawUrl } context.warnings)
    else
      pure (.failed .contractBroken "Raw data endpoint returned non-JSON (HTML?) content" none
        context.warnings)

/-- The detail page of the first row, and what follows. -/
def probeDetail (detailUrlString : String) : Async E R JsError ContractCheckResult := do
  let detailUrl ← (Proc.pure (newUrl pf detailUrlString) : Async E R JsError Url)
  let detailOutcome ← (tryFetch context detailUrl "Failed to fetch source detail page" :
    Proc E R (Except ContractCheckResult String))
  match detailOutcome with
  | .error result => pure result
  | .ok detailHtml =>
    match html.extractFilenameFromDetailHtml detailHtml with
    | none =>
      pure (warn context .missingFilename ("Detail page did not contain a recognisable filename " ++
        "(no #filename input or body[data-ocap])")
        { detailUrl := some detailUrlString, listPageUrl := context.listPageUrl })
    | some filename => probeRawEndpoint context html isJson { detailUrl, detailUrlString, filename }

/-- What follows the list page. -/
def probeFirstRow (firstRow : Option ReplayRow) : Async E R JsError ContractCheckResult :=
  match firstRow with
  | none =>
    pure (warn context .emptyListPage "Source list page 1 returned no replay rows"
      { listPageUrl := context.listPageUrl })
  | some firstRow =>
    match firstRow.source.url, firstRow.source.externalId with
    | some detailUrlString, some _ => probeDetail context html isJson detailUrlString
    | _, _ =>
      pure (warn context .missingExternalId "First replay row is missing source URL or external id"
        { listPageUrl := context.listPageUrl })

end Probe

section Check

variable {E : Type} {R : E → Type} {Text : Type} {pf : Platform Text} (html : HtmlReader pf)
  (isJson : String → Bool) (fetchText : Url → Async E R ProbeFailure String) (sourceUrl : Url)

/-- The context of the command. -/
def probeContext (pf : Platform Text) : ProbeContext E R where
  fetchText := fetchText
  listPageUrl := pf.urlToString sourceUrl

/-- The three reads, one after the other; the first that fails ends the check. -/
def runContractCheck : Async E R JsError ContractCheckResult := do
  let context := probeContext fetchText sourceUrl pf
  let listOutcome ← (tryFetch context sourceUrl "Failed to fetch source list page" :
    Proc E R (Except ContractCheckResult String))
  match listOutcome with
  | .error result => pure result
  | .ok listHtml => probeFirstRow context html isJson (html.extractReplayRows listHtml 1 sourceUrl).head?

variable {html isJson fetchText sourceUrl}

/-- A check asks what its reads ask. -/
theorem asks_runContractCheck {P : E → Prop} (hfetch : ∀ url, Proc.Asks P (fetchText url)) :
    Proc.Asks P (runContractCheck html isJson fetchText sourceUrl) := by
  have htry : ∀ (context : ProbeContext E R) url message, context.fetchText = fetchText →
      Proc.Asks P (tryFetch context url message) := by
    rintro context url message rfl
    exact (hfetch url).bind fun _ => trivial
  unfold runContractCheck
  refine Async.asks_lift_bind (htry _ _ _ rfl) fun listOutcome => ?_
  cases listOutcome with
  | error result => trivial
  | ok listHtml =>
    dsimp only
    unfold probeFirstRow
    split
    · trivial
    · split
      · unfold probeDetail
        refine Async.asks_bind trivial fun detailUrl => ?_
        refine Async.asks_lift_bind (htry _ _ _ rfl) fun detailOutcome => ?_
        cases detailOutcome with
        | error result => trivial
        | ok detailHtml =>
          dsimp only
          split
          · trivial
          · unfold probeRawEndpoint
            refine Async.asks_bind trivial fun url => ?_
            refine Async.asks_lift_bind (htry _ _ _ rfl) fun outcome => ?_
            cases outcome with
            | error result => trivial
            | ok body =>
              dsimp only
              split <;> trivial
      · trivial

end Check

/-! ## The log of a check -/

section Log

variable {Text : Type} {pf : Platform Text} {html : HtmlReader pf} {isJson : String → Bool}
  {sourceUrl : Url}

/-- A read of a check: the page, and what came of it. -/
abbrev ProbeStep : Type := Url × Except ProbeFailure String

/-- The first row of a list page, with a link and an id. -/
structure SampledRow (html : HtmlReader pf) (sourceUrl : Url) (listHtml : String) (row : ReplayRow)
    (detailUrlString : String) (detailUrl : Url) : Prop where
  first : (html.extractReplayRows listHtml 1 sourceUrl).head? = some row
  link : row.source.url = some detailUrlString
  externalId : row.source.externalId ≠ none
  parsed : newUrl pf detailUrlString = .ok detailUrl

/-- What the read of the raw data ends a check with. -/
def rawResult (isJson : String → Bool) (sample : ContractCheckSample) :
    Except ProbeFailure String → ContractCheckResult
  | .error error => makeFetchFailureResult error "Failed to fetch raw data endpoint" []
  | .ok body =>
    if isJson body then .passed sample []
    else .failed .contractBroken "Raw data endpoint returned non-JSON (HTML?) content" none []

/-- What a check reads after these pages: the source, then the detail page of its first row, then the
    raw data of the file that is named there. -/
inductive LedTo (html : HtmlReader pf) (sourceUrl : Url) : List (Url × String) → Url → Prop
  | list : LedTo html sourceUrl [] sourceUrl
  | detail {listHtml detailUrlString : String} {row : ReplayRow} {detailUrl : Url}
      (hrow : SampledRow html sourceUrl listHtml row detailUrlString detailUrl) :
      LedTo html sourceUrl [(sourceUrl, listHtml)] detailUrl
  | raw {listHtml detailUrlString detailHtml filename : String} {row : ReplayRow} {detailUrl url : Url}
      (hrow : SampledRow html sourceUrl listHtml row detailUrlString detailUrl)
      (hfilename : html.extractFilenameFromDetailHtml detailHtml = some filename)
      (hparsed : newUrl pf (html.toRawReplayUrl filename detailUrl) = .ok url) :
      LedTo html sourceUrl [(sourceUrl, listHtml), (detailUrl, detailHtml)] url

/-- **What a check reads, and what it says of that.** -/
inductive Probed (html : HtmlReader pf) (isJson : String → Bool) (sourceUrl : Url) :
    List ProbeStep → ContractCheckResult → Prop
  | listFailed (error : ProbeFailure) : Probed html isJson sourceUrl [(sourceUrl, .error error)]
      (makeFetchFailureResult error "Failed to fetch source list page" [])
  | unsampled {listHtml : String} {row? : Option ReplayRow}
      (hfirst : (html.extractReplayRows listHtml 1 sourceUrl).head? = row?)
      (hrow : ∀ row, row? = some row → row.source.url = none ∨ row.source.externalId = none)
      (message : String) : Probed html isJson sourceUrl [(sourceUrl, .ok listHtml)]
      (.passed { listPageUrl := pf.urlToString sourceUrl }
        [{ code := if row? = none then .emptyListPage else .missingExternalId, message := message }])
  | detailFailed {listHtml detailUrlString : String} {row : ReplayRow} {detailUrl : Url}
      (hrow : SampledRow html sourceUrl listHtml row detailUrlString detailUrl)
      (error : ProbeFailure) : Probed html isJson sourceUrl
      [(sourceUrl, .ok listHtml), (detailUrl, .error error)]
      (makeFetchFailureResult error "Failed to fetch source detail page" [])
  | missingFilename {listHtml detailUrlString detailHtml : String} {row : ReplayRow} {detailUrl : Url}
      (hrow : SampledRow html sourceUrl listHtml row detailUrlString detailUrl)
      (hnone : html.extractFilenameFromDetailHtml detailHtml = none) (message : String) :
      Probed html isJson sourceUrl [(sourceUrl, .ok listHtml), (detailUrl, .ok detailHtml)]
      (.passed { detailUrl := some detailUrlString, listPageUrl := pf.urlToString sourceUrl }
        [{ code := .missingFilename, message := message }])
  | raw {listHtml detailUrlString detailHtml filename : String} {row : ReplayRow} {detailUrl url : Url}
      (hrow : SampledRow html sourceUrl listHtml row detailUrlString detailUrl)
      (hfilename : html.extractFilenameFromDetailHtml detailHtml = some filename)
      (hparsed : newUrl pf (html.toRawReplayUrl filename detailUrl) = .ok url)
      (outcome : Except ProbeFailure String) : Probed html isJson sourceUrl
      [(sourceUrl, .ok listHtml), (detailUrl, .ok detailHtml), (url, outcome)]
      (rawResult isJson
        { detailUrl := some detailUrlString, listPageUrl := pf.urlToString sourceUrl
          rawUrl := some (html.toRawReplayUrl filename detailUrl) } outcome)

section Reads

variable {E : Type} {R : E → Type} {fetchText : Url → Async E R ProbeFailure String}
  {l : List (Σ e : E, R e)} {result : ContractCheckResult}

/-- A conversation that is one read after the other. -/
inductive ReadInOrder (fetchText : Url → Async E R ProbeFailure String) :
    List ProbeStep → List (Σ e : E, R e) → Prop
  | nil : ReadInOrder fetchText [] []
  | cons {url : Url} {outcome : Except ProbeFailure String} {steps : List ProbeStep}
      {l l' : List (Σ e : E, R e)} (hread : Emits (fetchText url) l outcome)
      (hrest : ReadInOrder fetchText steps l') : ReadInOrder fetchText ((url, outcome) :: steps) (l ++ l')

/-- One `tryFetch` of a probe, and what follows it. -/
theorem emits_tryFetch {context : ProbeContext E R} {url : Url} {message : String}
    {f : Except ContractCheckResult String → Async E R JsError ContractCheckResult}
    {r : Except JsError ContractCheckResult} :
    Emits ((tryFetch context url message : Proc E R (Except ContractCheckResult String)) >>= f :
        Async E R JsError ContractCheckResult) l r ↔
      ∃ outcome l₁ l₂, l = l₁ ++ l₂ ∧ Emits (context.fetchText url) l₁ outcome ∧
        Emits (f (outcome.mapError fun error =>
          makeFetchFailureResult error message context.warnings)) l₂ r := by
  rw [Async.lift_bind_eq]
  unfold tryFetch
  rw [Proc.bind_assoc', Proc.emits_bind]
  rfl

/-- A value that is computed, or thrown. -/
theorem emits_computed {α β : Type} {ε : Type} {value : Except ε α} {f : α → Async E R ε β} {b : β} :
    Emits ((Proc.pure value : Async E R ε α) >>= f : Async E R ε β) l (.ok b) ↔
      ∃ a, value = .ok a ∧ Emits (f a) l (.ok b) := by
  rw [Async.emits_bind_ok]
  constructor
  · rintro ⟨a, l₁, l₂, rfl, hvalue, hf⟩
    obtain ⟨rfl, ha⟩ := Proc.emits_pure.1 hvalue
    exact ⟨a, ha.symm, hf⟩
  · rintro ⟨a, rfl, hf⟩
    exact ⟨a, [], l, rfl, Proc.emits_pure.2 ⟨rfl, rfl⟩, hf⟩

/-- A result that is decided. -/
theorem eq_of_emits_pure {ε α : Type} {a b : α}
    (h : Emits (pure a : Async E R ε α) l (.ok b)) : l = [] ∧ b = a := by
  obtain ⟨rfl, hb⟩ := Proc.emits_pure.1 h
  exact ⟨rfl, Except.ok.inj hb⟩

/-- The detail page of a sampled row, and the raw data. -/
theorem probed_detail {listHtml detailUrlString : String} {row : ReplayRow}
    (hfirst : (html.extractReplayRows listHtml 1 sourceUrl).head? = some row)
    (hlink : row.source.url = some detailUrlString) (hid : row.source.externalId ≠ none)
    (h : Emits (probeDetail (probeContext fetchText sourceUrl pf) html isJson detailUrlString) l
      (.ok result)) :
    ∃ steps, ReadInOrder fetchText steps l ∧
      Probed html isJson sourceUrl ((sourceUrl, .ok listHtml) :: steps) result := by
  unfold probeDetail at h
  obtain ⟨detailUrl, hparsed, h⟩ := emits_computed.1 h
  have hrow : SampledRow html sourceUrl listHtml row detailUrlString detailUrl :=
    ⟨hfirst, hlink, hid, hparsed⟩
  obtain ⟨outcome, l₁, l₂, rfl, hdetail, h⟩ := emits_tryFetch.1 h
  cases outcome with
  | error error =>
    obtain ⟨rfl, rfl⟩ := eq_of_emits_pure h
    exact ⟨_, .cons hdetail .nil, .detailFailed hrow error⟩
  | ok detailHtml =>
    dsimp only [Except.mapError] at h
    cases hfilename : html.extractFilenameFromDetailHtml detailHtml with
    | none =>
      simp only [hfilename] at h
      obtain ⟨rfl, rfl⟩ := eq_of_emits_pure h
      exact ⟨_, .cons hdetail .nil, .missingFilename hrow hfilename _⟩
    | some filename =>
      simp only [hfilename] at h
      obtain ⟨url, hurl, h⟩ := emits_computed.1 h
      obtain ⟨outcome, l₃, l₄, rfl, hraw, h⟩ := emits_tryFetch.1 h
      have hsteps : ReadInOrder fetchText [(detailUrl, .ok detailHtml), (url, outcome)]
          (l₁ ++ (l₃ ++ [])) := .cons hdetail (.cons hraw .nil)
      have hprobed := @Probed.raw Text pf html isJson sourceUrl _ _ _ _ _ _ _ hrow hfilename hurl outcome
      cases outcome with
      | error error =>
        obtain ⟨rfl, rfl⟩ := eq_of_emits_pure h
        exact ⟨_, hsteps, hprobed⟩
      | ok body =>
        dsimp only [Except.mapError] at h
        dsimp only [rawResult] at hprobed
        split at h <;> rename_i hjson
        · rw [if_pos hjson] at hprobed
          obtain ⟨rfl, rfl⟩ := eq_of_emits_pure h
          exact ⟨_, hsteps, hprobed⟩
        · rw [if_neg hjson] at hprobed
          obtain ⟨rfl, rfl⟩ := eq_of_emits_pure h
          exact ⟨_, hsteps, hprobed⟩

/-- **The log of a check.** -/
theorem probed_of_emits
    (h : Emits (runContractCheck html isJson fetchText sourceUrl) l (.ok result)) :
    ∃ steps, ReadInOrder fetchText steps l ∧ Probed html isJson sourceUrl steps result := by
  unfold runContractCheck at h
  obtain ⟨outcome, l₁, l₂, rfl, hlist, h⟩ := emits_tryFetch.1 h
  cases outcome with
  | error error =>
    obtain ⟨rfl, rfl⟩ := eq_of_emits_pure h
    exact ⟨_, .cons hlist .nil, .listFailed error⟩
  | ok listHtml =>
    replace h : Emits (probeFirstRow (probeContext fetchText sourceUrl pf) html isJson
      (html.extractReplayRows listHtml 1 sourceUrl).head?) l₂ (.ok result) := h
    cases hfirst : (html.extractReplayRows listHtml 1 sourceUrl).head? with
    | none =>
      rw [hfirst] at h
      obtain ⟨rfl, rfl⟩ := eq_of_emits_pure h
      exact ⟨_, .cons hlist .nil, .unsampled hfirst nofun _⟩
    | some row =>
      rw [hfirst] at h
      unfold probeFirstRow at h
      cases hlink : row.source.url with
      | none =>
        simp only [hlink] at h
        obtain ⟨rfl, rfl⟩ := eq_of_emits_pure h
        refine ⟨_, .cons hlist .nil, .unsampled hfirst ?_ _⟩
        rintro _ ⟨⟩
        exact Or.inl hlink
      | some detailUrlString =>
        cases hid : row.source.externalId with
        | none =>
          simp only [hlink, hid] at h
          obtain ⟨rfl, rfl⟩ := eq_of_emits_pure h
          refine ⟨_, .cons hlist .nil, .unsampled hfirst ?_ _⟩
          rintro _ ⟨⟩
          exact Or.inr hid
        | some externalId =>
          simp only [hlink, hid] at h
          have hsome : row.source.externalId ≠ none := by
            rw [hid]
            nofun
          obtain ⟨steps, hsteps, hprobed⟩ := probed_detail hfirst hlink hsome h
          exact ⟨_, .cons hlist hsteps, hprobed⟩

end Reads

end Log

/-! ## Over a transport -/

section Once

variable {α ε : Type} {options : RetrySourceReadOptions α} {e : TransportEffect}
  {answer : TransportReply e → Except ReadError α} {l : Exchanges}

/-- A round without another try: an abort, or the one read. -/
theorem emits_readRound (hread : IsRequest options.read e answer) (hattempts : options.attempts = 0)
    {round : ℕ} {x : Except ReadError (ℕ ⊕ α)} (h : Emits (readRound options round) l x) :
    (∃ error, l = [⟨.throwIfAborted, .error error⟩] ∧ x = .error (.runtime error)) ∨
      ∃ reply, l = firstTry e reply ∧ x = (answer reply).map .inr := by
  unfold readRound at h
  rw [Async.bind_eq] at h
  obtain ⟨signal, l₁, rfl, hsignal⟩ := Proc.emits_call.1 h
  change Except RuntimeError Unit at signal
  cases signal with
  | error error =>
    obtain ⟨rfl, rfl⟩ := Proc.emits_pure.1 hsignal
    exact Or.inl ⟨error, rfl, rfl⟩
  | ok u =>
    right
    rw [hread.eq] at hsignal
    have htry : Emits (tryCatch _ (retryRound options round) : Read ReadError (ℕ ⊕ α)) l₁ x := hsignal
    rw [Async.tryCatch_eq, Async.bind_eq] at htry
    obtain ⟨reply, l₂, rfl, hreply⟩ := Proc.emits_call.1 htry
    have hafter : Emits (Proc.bind (Proc.bind (.pure (answer reply)) _) _) l₂ x := hreply
    rw [Proc.pure_bind'] at hafter
    refine ⟨reply, ?_⟩
    cases hanswer : answer reply with
    | ok value =>
      rw [hanswer] at hafter
      obtain ⟨rfl, rfl⟩ := Proc.emits_pure.1 hafter
      exact ⟨rfl, rfl⟩
    | error error =>
      rw [hanswer] at hafter
      have hgiveUp : Emits (retryRound options round error) l₂ x := hafter
      unfold retryRound at hgiveUp
      rw [hattempts, if_pos (by rw [decide_eq_true (Nat.zero_le round), Bool.or_true])] at hgiveUp
      obtain ⟨rfl, rfl⟩ := Proc.emits_pure.1 hgiveUp
      exact ⟨rfl, rfl⟩

/-- **A client that tries once** reads once. -/
theorem eq_firstTry_of_emits (hread : IsRequest options.read e answer)
    (hattempts : options.attempts = 0) (hnot : NotAborted l) {toError : ReadError → ε}
    {r : Except ε α} (h : Emits (retryOrThrow options toError) l r) :
    ∃ reply, l = firstTry e reply ∧ r = (answer reply).mapError toError := by
  obtain ⟨outcome, l₁, l₂, rfl, hretry, hmapped⟩ := Proc.emits_bind.1 h
  obtain ⟨rfl, rfl⟩ := Proc.emits_pure.1 hmapped
  rw [List.append_nil] at hnot ⊢
  unfold withRetry Async.iterate Proc.iterate at hretry
  obtain ⟨round, l₃, l₄, l₅, outcome', rfl, hrounds, hlast, hpure⟩ := Proc.emits_loop.1 hretry
  obtain ⟨rfl, rfl⟩ := Proc.emits_pure.1 hpure
  -- no round goes on
  have hstart : l₃ = [] := by
    cases hrounds with
    | start => rfl
    | round _ hround =>
      exfalso
      obtain ⟨x, l₆, l₇, rfl, hx, hleave⟩ := Proc.emits_bind.1 hround
      obtain ⟨_, hinl⟩ := Proc.emits_pure.1 hleave
      rcases emits_readRound hread hattempts hx with ⟨_, _, rfl⟩ | ⟨reply, _, rfl⟩
      · cases hinl
      · cases hanswer : answer reply with
        | ok value =>
          rw [hanswer] at hinl
          cases hinl
        | error error =>
          rw [hanswer] at hinl
          cases hinl
  subst hstart
  obtain ⟨x, l₆, l₇, rfl, hx, hleave⟩ := Proc.emits_bind.1 hlast
  obtain ⟨rfl, hinr⟩ := Proc.emits_pure.1 hleave
  rcases emits_readRound hread hattempts hx with ⟨error, rfl, _⟩ | ⟨reply, rfl, rfl⟩
  · cases hnot ⟨.throwIfAborted, .error error⟩ (by simp)
  · refine ⟨reply, by simp, ?_⟩
    cases hanswer : answer reply with
    | ok value =>
      rw [hanswer] at hinr
      cases hinr
      rfl
    | error error =>
      rw [hanswer] at hinr
      cases hinr
      rfl

end Once

section Transport

variable {Text : Type} (pf : Platform Text) (transport : SourceTransport)

/-- The `cause` that `toDirectFetchError` gives its error. -/
def directCause : ReadError → Option RuntimeError
  | .challenge | .sourceFetch _ => none
  | error => some error.toRuntime

/-- What the client rejects with when its read has failed with `error`. -/
def SourceTransport.probeFailure (url : Url) (error : ReadError) : ProbeFailure :=
  match transport with
  | .direct _ => .sourceFetch (toDirectFetchError pf error {} url) (directCause error)
  | .ssh _ _ _ => .sourceFetch (toSshFetchError pf error {} url) (some error.toRuntime)

/-- `fetchText(url)` of the client, which rejects with the cause as well. -/
def SourceTransport.probe (url : Url) : Read ProbeFailure String :=
  match transport with
  | .direct codec =>
    retryOrThrow
      { attempts := 0
        classify := classifyDirect
        read := directReadText pf codec url .list
        retryAfterMs := directRetryAfter codec } (transport.probeFailure pf url)
  | .ssh config host _ =>
    retryOrThrow
      { attempts := 0
        classify := classifySsh
        read := sshReadText pf config url host } (transport.probeFailure pf url)

/-- It is the client of every other command, without options. -/
theorem probe_eq_fetchText (url : Url) :
    (Proc.bind (transport.probe pf url) fun r => .pure (r.mapError ProbeFailure.toJsError) :
        Read JsError String) =
      Proc.bind (transport.fetchText pf url {}) fun r => .pure (r.mapError JsError.sourceFetch) := by
  cases transport with
  | direct codec =>
    unfold SourceTransport.probe SourceTransport.fetchText directFetchText retryOrThrow
    rw [Proc.bind_assoc', Proc.bind_assoc']
    congr 1
    funext r
    cases r <;> rfl
  | ssh config host hhost =>
    unfold SourceTransport.probe SourceTransport.fetchText sshFetchText retryOrThrow
    simp only [hhost]
    rw [Proc.bind_assoc', Proc.bind_assoc']
    congr 1
    funext r
    cases r <;> rfl

variable {pf transport} {l : Exchanges} {url : Url}

/-- **One read of a check.** -/
theorem probe_once (hnot : NotAborted l) {r : Except ProbeFailure String}
    (h : Emits (transport.probe pf url) l r) :
    ∃ reply, reads l = [⟨(transport.textShape pf url .list).request, reply⟩] ∧
      r = ((transport.textShape pf url .list).answer reply).mapError
        (transport.probeFailure pf url) := by
  have hreads : ∀ (e : TransportEffect) (reply : TransportReply e), isRead e = true →
      reads (firstTry e reply) = [⟨e, reply⟩] := fun e reply he =>
    (reads_append [⟨.throwIfAborted, .ok ()⟩] ⟨e, reply⟩).trans (if_pos he)
  cases transport with
  | direct codec =>
    obtain ⟨reply, rfl, rfl⟩ := eq_firstTry_of_emits (directReadText_eq pf codec url .list) rfl hnot h
    exact ⟨reply, hreads _ _ rfl, rfl⟩
  | ssh config host hhost =>
    obtain ⟨reply, rfl, rfl⟩ := eq_firstTry_of_emits (sshReadText_eq pf url config host) rfl hnot h
    exact ⟨reply, hreads _ _ rfl, rfl⟩

/-! ### Whose fault a failure is -/

/-- The error, without its cause. -/
def RuntimeError.uncaused : RuntimeError → RuntimeError
  | .error name message code _ => .error name message code none
  | .aggregate message code _ errors => .aggregate message code none errors
  | .other => .other

/-- Either transport's classification of an error. -/
def SourceTransport.classify : SourceTransport → ReadError → FailureClassification
  | .direct _ => classifyDirect
  | .ssh _ _ _ => classifySsh

/-- A failure that looks permanent by its cause, and by itself. -/
def SourceTransport.permanent (transport : SourceTransport) (error : ReadError) : Bool :=
  (transport.classify error).kind = .permanent &&
    (classifyFailure { error := some error.toRuntime.uncaused }).kind = .permanent

/-- To the check the error of the transport is the cause. -/
theorem unwrapCause_caused (name message : String) (code : Option String) (cause : RuntimeError) :
    unwrapCause (some (.error name message code (some cause))) = unwrapCause (some cause.uncaused) := by
  cases cause <;> rfl

/-- A prefix of a text is one of its characters. -/
theorem startsWith_eq_decide (text part : String) :
    text.startsWith part = decide (part.toList <+: text.toList) := by
  rw [Bool.eq_iff_iff, String.startsWith_string_iff, decide_eq_true_iff]

/-- The codes of the fetcher's own errors are none of the network's. -/
theorem not_transient_fetchCode (code : SourceFetchCode) : isTransientCauseCode code.text = false := by
  unfold isTransientCauseCode
  rw [startsWith_eq_decide, startsWith_eq_decide, startsWith_eq_decide]
  cases code <;> decide

/-- An error of the text client is permanent by itself, unless its status says otherwise. -/
theorem kind_of_sourceFetch (code : SourceFetchCode) (message : String) (httpStatus : Option ℕ) :
    (classifyFailure
      { error := some (.error "SourceFetchError" message (some code.text) none)
        httpStatus := httpStatus }).kind = (httpStatus.bind classifyByStatus).getD .permanent := by
  unfold classifyFailure resolveKind
  dsimp only
  rw [if_neg Bool.false_ne_true]
  cases httpStatus.bind classifyByStatus with
  | some kind => rfl
  | none =>
    have hname : decide ("SourceFetchError" ∈ transientErrorNames) = false := by decide
    simp [unwrapCause, describeCause, RuntimeError.cause?, not_transient_fetchCode, hname]

/-- The second look at an error that was classified by its cause. -/
theorem kind_of_caused (failure : SourceFetchError) (error : RuntimeError) :
    (classifyFailure (buildClassifyInput failure (some error) none)).kind =
      (classifyFailure { error := some error.uncaused }).kind := by
  unfold classifyFailure buildClassifyInput
  dsimp only
  rw [unwrapCause_caused]
  rfl

/-- What a check makes of an error that its client has coded by `kind`. -/
theorem makeFetchFailureResult_coded {failure : SourceFetchError} {cause : Option RuntimeError}
    {kind : FailureKind} (hcode : failure.code = toFetchCode kind) (message : String) :
    makeFetchFailureResult (.sourceFetch failure cause) message [] =
      if kind = .permanent ∧ (classifyFailure (buildClassifyInput failure cause
          (readHttpStatus failure.details))).kind = .permanent then
        .failed .contractBroken message (readHttpStatus failure.details) []
      else .failed .sourceUnreachable message none [] := by
  unfold makeFetchFailureResult
  dsimp only
  cases kind with
  | rateLimited =>
    have hcoded : failure.code = .rateLimited := hcode
    rw [if_pos (Or.inr hcoded), if_neg (fun h => nomatch h.1)]
  | transient =>
    have hcoded : failure.code = .sourceTransient := hcode
    rw [if_pos (Or.inl hcoded), if_neg (fun h => nomatch h.1)]
  | permanent =>
    have hother : ¬ (failure.code = .sourceTransient ∨ failure.code = .rateLimited) := by
      rw [hcode]
      rintro (h | h) <;> cases h
    rw [if_neg hother]
    by_cases hkind : (classifyFailure (buildClassifyInput failure cause
        (readHttpStatus failure.details))).kind = .permanent
    · rw [if_neg (not_not_intro hkind), if_pos ⟨rfl, hkind⟩]
    · rw [if_pos hkind, if_neg fun h => hkind h.2]

/-- **What a failed read makes a check say.** -/
theorem result_of_probeFailure (error : ReadError) (message : String) :
    makeFetchFailureResult (transport.probeFailure pf url error) message [] =
      if transport.permanent error then
        .failed .contractBroken message (transport.classify error).httpStatus []
      else .failed .sourceUnreachable message none [] := by
  -- by its status, or by the error itself
  have hsecond : ∀ failure cause, transport.probeFailure pf url error = .sourceFetch failure cause →
      failure.code = toFetchCode (transport.classify error).kind ∧
      readHttpStatus failure.details = (transport.classify error).httpStatus ∧
      ((transport.classify error).kind = .permanent →
        (classifyFailure (buildClassifyInput failure cause (readHttpStatus failure.details))).kind =
          (classifyFailure { error := some error.toRuntime.uncaused }).kind) := by
    intro failure cause hfailure
    cases transport with
    | ssh config host hhost =>
      cases hfailure
      exact ⟨rfl, rfl, fun _ => kind_of_caused _ _⟩
    | direct codec =>
      cases hfailure
      refine ⟨code_of_toDirectFetchError pf error, ?_⟩
      cases error with
      | challenge => exact ⟨rfl, nofun⟩
      | runtime error => exact ⟨rfl, fun _ => kind_of_caused _ _⟩
      | replayByteFetch failure => exact ⟨rfl, fun _ => kind_of_caused _ _⟩
      | sourceFetch failure =>
        refine ⟨rfl, fun hkind => ?_⟩
        have hown := kind_of_sourceFetch failure.code failure.message none
        refine (kind_of_sourceFetch _ _ _).trans (Eq.trans ?_ hown.symm)
        show ((failure.details.bind (·.httpStatus)).bind classifyByStatus).getD .permanent = .permanent
        replace hkind : resolveKind _ _ = .permanent := hkind
        unfold resolveKind at hkind
        split at hkind
        · cases hkind
        · split at hkind
          · rename_i hstatus
            exact (congrArg (Option.getD · FailureKind.permanent) hstatus).trans hkind
          · rename_i hstatus
            exact congrArg (Option.getD · FailureKind.permanent) hstatus
  cases hfailure : transport.probeFailure pf url error with
  | other other => cases transport <;> cases hfailure
  | sourceFetch failure cause =>
    obtain ⟨hcode, hstatus, hkind⟩ := hsecond failure cause hfailure
    rw [makeFetchFailureResult_coded hcode, hstatus]
    unfold SourceTransport.permanent
    rw [← hstatus]
    by_cases hpermanent : (transport.classify error).kind = .permanent
    · rw [hkind hpermanent]
      simp [hpermanent]
    · simp [hpermanent]

/-! ### The whole check -/

/-- A read of a page, on the wire. -/
def ReadAs (pf : Platform Text) (transport : SourceTransport)
    (x : Σ e : TransportEffect, TransportReply e) (step : Url × Except ReadError String) : Prop :=
  ∃ reply, x = ⟨(transport.textShape pf step.1 .list).request, reply⟩ ∧
    (transport.textShape pf step.1 .list).answer reply = step.2

/-- The step of a check that a read makes. -/
def SourceTransport.toStep (pf : Platform Text) (transport : SourceTransport)
    (step : Url × Except ReadError String) : ProbeStep :=
  (step.1, step.2.mapError (transport.probeFailure pf step.1))

/-- The reason of a check, by its last read and the number of those before. -/
def reasonOf (transport : SourceTransport) (isJson : String → Bool) (earlier : ℕ) :
    Except ReadError String → Option ContractCheckReason
  | .error error => some (if transport.permanent error then .contractBroken else .sourceUnreachable)
  | .ok body => if earlier = 2 ∧ isJson body = false then some .contractBroken else none

/-- A conversation that was not aborted has parts that were not. -/
theorem notAborted_of_append {l l' : Exchanges} (h : NotAborted (l ++ l')) :
    NotAborted l ∧ NotAborted l' :=
  ⟨fun x hx => h x (List.mem_append_left _ hx), fun x hx => h x (List.mem_append_right _ hx)⟩

/-- The reads of the transport are the steps of the check. -/
theorem readAs_of_readInOrder {steps : List ProbeStep} (hnot : NotAborted l)
    (h : ReadInOrder (transport.probe pf) steps l) :
    ∃ trail, steps = trail.map (transport.toStep pf) ∧
      List.Forall₂ (ReadAs pf transport) (reads l) trail := by
  induction h with
  | nil => exact ⟨[], rfl, .nil⟩
  | @cons url outcome steps l₁ l₂ hread _ ih =>
    obtain ⟨hfirst, hsecond⟩ := notAborted_of_append hnot
    obtain ⟨reply, hreads, rfl⟩ := probe_once hfirst hread
    obtain ⟨trail, rfl, htrail⟩ := ih hsecond
    refine ⟨(url, (transport.textShape pf url .list).answer reply) :: trail, rfl, ?_⟩
    have hsplit : reads (l₁ ++ l₂) = reads l₁ ++ reads l₂ := List.filter_append ..
    rw [hsplit, hreads]
    exact .cons ⟨reply, rfl, rfl⟩ htrail

/-- A step that succeeded is a read that did. -/
theorem of_toStep_ok {step : Url × Except ReadError String} {body : String}
    (h : transport.toStep pf step = (url, .ok body)) : step = (url, .ok body) := by
  obtain ⟨other, outcome⟩ := step
  cases outcome with
  | ok text =>
    cases h
    rfl
  | error error => cases h

/-- A step that failed is a read that failed. -/
theorem of_toStep_error {step : Url × Except ReadError String} {failure : ProbeFailure}
    (h : transport.toStep pf step = (url, .error failure)) :
    ∃ error, step = (url, .error error) ∧ failure = transport.probeFailure pf url error := by
  obtain ⟨other, outcome⟩ := step
  cases outcome with
  | ok text => cases h
  | error error =>
    cases h
    exact ⟨error, rfl, rfl⟩

/-- The reason of a failed read is read off its error. -/
theorem reason_of_probeFailure (isJson : String → Bool) (earlier : ℕ) (error : ReadError)
    (message : String) :
    (makeFetchFailureResult (transport.probeFailure pf url error) message []).reason? =
      reasonOf transport isJson earlier (.error error) := by
  rw [result_of_probeFailure]
  unfold reasonOf
  dsimp only
  split <;> rfl

/-- A failed read fails the check. -/
theorem not_ok_of_probeFailure (failure : ProbeFailure) (message : String)
    (warnings : List ContractCheckWarning) :
    (makeFetchFailureResult failure message warnings).ok = false := by
  unfold makeFetchFailureResult
  split
  · rfl
  · dsimp only
    split
    · rfl
    · split <;> rfl

/-- Data that are no JSON break the contract. -/
theorem reason_rawResult (isJson : String → Bool) (sample : ContractCheckSample) (body : String) :
    (rawResult isJson sample (.ok body)).reason? =
      if isJson body = false then some .contractBroken else none := by
  unfold rawResult
  dsimp only
  cases isJson body <;> rfl

/-- The third read never warns. -/
theorem warnings_rawResult (isJson : String → Bool) (sample : ContractCheckSample) (body : String) :
    (rawResult isJson sample (.ok body)).warnings = [] := by
  unfold rawResult
  dsimp only
  split <;> rfl

/-- Data that are JSON pass. -/
theorem rawResult_passed {isJson : String → Bool} {body : String} (sample : ContractCheckSample)
    (h : isJson body = true) : rawResult isJson sample (.ok body) = .passed sample [] := by
  unfold rawResult
  dsimp only
  rw [if_pos h]

/-- Other data do not. -/
theorem not_ok_rawResult {isJson : String → Bool} {body : String} (sample : ContractCheckSample)
    (h : isJson body = false) : (rawResult isJson sample (.ok body)).ok = false := by
  unfold rawResult
  dsimp only
  rw [if_neg (Bool.eq_false_iff.1 h)]
  rfl

variable {html : HtmlReader pf} {isJson : String → Bool} {sourceUrl : Url}
  {result : ContractCheckResult}

/-- **What a check says, exactly.**  It makes at most three reads, the source URL first, then the
    detail page of the first row and the raw data of its file, none of them again, and goes on only
    after a success.  Its reason is that of the last read: an unreachable source when the failure may
    pass, a broken contract when it is permanent, or when the raw data are not JSON.  It passes
    without a warning exactly when it has read all three. -/
theorem contract_check_exact (hnot : NotAborted l)
    (h : Emits (runContractCheck html isJson (transport.probe pf) sourceUrl) l (.ok result)) :
    ∃ (earlier : List (Url × String)) (url : Url) (last : Except ReadError String),
      List.Forall₂ (ReadAs pf transport) (reads l)
        (earlier.map (fun step => (step.1, Except.ok step.2)) ++ [(url, last)]) ∧
      LedTo html sourceUrl earlier url ∧
      earlier.length ≤ 2 ∧ (earlier.map Prod.fst ++ [url]).head? = some sourceUrl ∧
      result.reason? = reasonOf transport isJson earlier.length last ∧
      (result.ok = true → (result.warnings = [] ↔ earlier.length = 2)) := by
  obtain ⟨steps, hsteps, hprobed⟩ := probed_of_emits h
  obtain ⟨trail, rfl, htrail⟩ := readAs_of_readInOrder hnot hsteps
  generalize hmap : trail.map (transport.toStep pf) = steps at hprobed
  cases hprobed with
  | listFailed failure =>
    obtain ⟨step, rfl, hstep⟩ := List.map_eq_singleton_iff.1 hmap
    obtain ⟨error, rfl, rfl⟩ := of_toStep_error hstep
    refine ⟨[], sourceUrl, .error error, htrail, .list, Nat.zero_le _, rfl,
      reason_of_probeFailure _ _ _ _, ?_⟩
    intro hok
    rw [not_ok_of_probeFailure] at hok
    cases hok
  | @unsampled listHtml row? hfirst hrow message =>
    obtain ⟨step, rfl, hstep⟩ := List.map_eq_singleton_iff.1 hmap
    obtain rfl := of_toStep_ok hstep
    exact ⟨[], sourceUrl, .ok listHtml, htrail, .list, Nat.zero_le _, rfl, rfl,
      fun _ => by simp [ContractCheckResult.warnings]⟩
  | @detailFailed listHtml detailUrlString row detailUrl hrow failure =>
    obtain ⟨step, rest, rfl, hstep, hrest⟩ := List.map_eq_cons_iff.1 hmap
    obtain ⟨second, rfl, hsecond⟩ := List.map_eq_singleton_iff.1 hrest
    obtain rfl := of_toStep_ok hstep
    obtain ⟨error, rfl, rfl⟩ := of_toStep_error hsecond
    refine ⟨[(sourceUrl, listHtml)], detailUrl, .error error, htrail, .detail hrow, Nat.le_succ 1, rfl,
      reason_of_probeFailure _ _ _ _, ?_⟩
    intro hok
    rw [not_ok_of_probeFailure] at hok
    cases hok
  | @missingFilename listHtml detailUrlString detailHtml row detailUrl hrow hnone message =>
    obtain ⟨step, rest, rfl, hstep, hrest⟩ := List.map_eq_cons_iff.1 hmap
    obtain ⟨second, rfl, hsecond⟩ := List.map_eq_singleton_iff.1 hrest
    obtain rfl := of_toStep_ok hstep
    obtain rfl := of_toStep_ok hsecond
    exact ⟨[(sourceUrl, listHtml)], detailUrl, .ok detailHtml, htrail, .detail hrow, Nat.le_succ 1, rfl,
      rfl,
      fun _ => by simp [ContractCheckResult.warnings]⟩
  | @raw listHtml detailUrlString detailHtml filename row detailUrl rawUrl hrow hfilename hparsed
      outcome =>
    obtain ⟨step, rest, rfl, hstep, hrest⟩ := List.map_eq_cons_iff.1 hmap
    obtain ⟨second, more, rfl, hsecond, hmore⟩ := List.map_eq_cons_iff.1 hrest
    obtain ⟨third, rfl, hthird⟩ := List.map_eq_singleton_iff.1 hmore
    obtain rfl := of_toStep_ok hstep
    obtain rfl := of_toStep_ok hsecond
    cases outcome with
    | error failure =>
      obtain ⟨error, rfl, rfl⟩ := of_toStep_error hthird
      refine ⟨[(sourceUrl, listHtml), (detailUrl, detailHtml)], rawUrl, .error error, htrail,
        .raw hrow hfilename hparsed, Nat.le_refl 2, rfl, reason_of_probeFailure _ _ _ _, ?_⟩
      intro hok
      rw [show rawResult isJson _ (.error (transport.probeFailure pf rawUrl error)) =
        makeFetchFailureResult _ _ _ from rfl, not_ok_of_probeFailure] at hok
      cases hok
    | ok body =>
      obtain rfl := of_toStep_ok hthird
      refine ⟨[(sourceUrl, listHtml), (detailUrl, detailHtml)], rawUrl, .ok body, htrail,
        .raw hrow hfilename hparsed, Nat.le_refl 2, rfl, ?_, ?_⟩
      · rw [reason_rawResult]
        unfold reasonOf
        simp
      · exact fun _ => ⟨fun _ => rfl, fun _ => warnings_rawResult _ _ _⟩

end Transport

/-! ### A source of one page -/

/-- Every page lists one row, and its text is a filename. -/
def singleRowReader : SourceReader toyPlatform where
  extractReplayRows _ page _ :=
    [{ metadata := {}, page, source := { externalId := some "1", url := some "a" } }]
  extractFilenameFromDetailHtml html := some html
  toRawReplayUrl filename _ := filename
  parse_rowUrl _ _ _ _ _ _ _ := rfl
  parseSourceFixture _ := none

/-- The URL of a source. -/
def stillUrl : Url where
  protocol := "https:"
  host := "a"
  pathname := ""

/-- Every page is `b`. -/
def servedPage : Except RuntimeError Response := .ok { status := 200, body := .ok [98] }

/-- A page that is served at the first try. -/
theorem emits_probe_servedPage (url : Url) :
    Emits ((SourceTransport.direct toyCodec).probe toyPlatform url) (firstTry (.fetch url) servedPage)
      (.ok "b") := by
  have hemits : Emits ((SourceTransport.direct toyCodec).probe toyPlatform url)
      (firstTry (.fetch url) servedPage)
      ((directTextAnswer toyPlatform toyCodec url .list servedPage).mapError
        ((SourceTransport.direct toyCodec).probeFailure toyPlatform url)) := by
    unfold SourceTransport.probe
    exact emits_firstTry (directReadText_eq toyPlatform toyCodec url .list) _ _ (Or.inr rfl)
  exact hemits

/-- A check that makes all three reads, and passes. -/
theorem contract_check_exact_three : ∃ (l : Exchanges) (result : ContractCheckResult),
    NotAborted l ∧ (reads l).length = 3 ∧ result.ok = true ∧ result.warnings = [] ∧
    ∃ (earlier : List (Url × String)) (url : Url) (last : Except ReadError String),
      List.Forall₂ (ReadAs toyPlatform (.direct toyCodec)) (reads l)
        (earlier.map (fun step => (step.1, Except.ok step.2)) ++ [(url, last)]) ∧
      LedTo singleRowReader.toHtmlReader stillUrl earlier url ∧
      earlier.length ≤ 2 ∧ (earlier.map Prod.fst ++ [url]).head? = some stillUrl ∧
      result.reason? = reasonOf (.direct toyCodec) (fun _ => true) earlier.length last ∧
      (result.ok = true → (result.warnings = [] ↔ earlier.length = 2)) := by
  let page : String → Url := fun host => { protocol := "https:", host, pathname := "" }
  let said : Url → Exchanges := fun url => firstTry (.fetch url) servedPage
  have hnot : NotAborted (said stillUrl ++ (said (page "a") ++ (said (page "b") ++ []))) := by
    have hread : ∀ url, NotAborted (said url) := fun url => notAborted_firstTry rfl _
    intro x hx
    rcases List.mem_append.1 hx with hx | hx
    · exact hread _ x hx
    · rcases List.mem_append.1 hx with hx | hx
      · exact hread _ x hx
      · exact hread _ x ((List.append_nil _).subst hx)
  have hemits : Emits (runContractCheck singleRowReader.toHtmlReader (fun _ => true)
      ((SourceTransport.direct toyCodec).probe toyPlatform) stillUrl)
      (said stillUrl ++ (said (page "a") ++ (said (page "b") ++ [])))
      (.ok (.passed { listPageUrl := "//a", detailUrl := some "a", rawUrl := some "b" } [])) := by
    refine emits_tryFetch.2 ⟨_, _, _, rfl, emits_probe_servedPage stillUrl, ?_⟩
    refine emits_computed.2 ⟨page "a", rfl, emits_tryFetch.2
      ⟨_, _, _, rfl, emits_probe_servedPage (page "a"), ?_⟩⟩
    refine emits_computed.2 ⟨page "b", rfl, emits_tryFetch.2
      ⟨_, _, _, rfl, emits_probe_servedPage (page "b"), ?_⟩⟩
    exact Proc.emits_pure.2 ⟨rfl, rfl⟩
  exact ⟨_, _, hnot, rfl, rfl, rfl, contract_check_exact hnot hemits⟩

/-! ## Beside the discovery -/

/-- What the client of the source is asked for, and the pauses between. -/
inductive ClientEffect
  | fetchText (url : Url) (options : Option SourceReadOptions)
  | sleep (milliseconds : ℕ)

/-- The replies of the source client. -/
@[reducible] def ClientReply : ClientEffect → Type
  | .fetchText _ _ => Except ProbeFailure String
  | .sleep _ => Unit

/-- The reads of a check, without options. -/
def clientProbe (url : Url) : Async ClientEffect ClientReply ProbeFailure String :=
  Proc.perform (E := ClientEffect) (R := ClientReply) (.fetchText url none)

/-- The dry run of one page, without a gate. -/
def clientOptions (sourceUrl : Url) (attempts requestDelayMs : Option ℕ) :
    DiscoverReplaysDryRunOptions ClientEffect ClientReply where
  attempts := attempts
  fetchText url options :=
    Proc.bind (Proc.perform (E := ClientEffect) (R := ClientReply) (.fetchText url (some options)))
      fun r => .pure (r.mapError ProbeFailure.toJsError)
  requestDelayMs := requestDelayMs
  sleep milliseconds := Proc.perform (E := ClientEffect) (R := ClientReply) (.sleep milliseconds)
  sourceUrl := sourceUrl

/-- **A source that holds still**: a page is served alike whenever it is read, or not at all. -/
def HoldsStill (still : Url → Option String) (l : List (Σ e : ClientEffect, ClientReply e)) : Prop :=
  ∀ url options (reply : Except ProbeFailure String),
    (⟨.fetchText url options, reply⟩ : Σ e : ClientEffect, ClientReply e) ∈ l →
      reply.toOption = still url

/-- What a report says of a row that a check has warned about. -/
def ReportsWarning (sample : ContractCheckSample) (report : DiscoveryReport) :
    ContractCheckWarningCode → Prop
  | .emptyListPage => report.candidates = [] ∧ report.diagnostics = []
  | .missingExternalId =>
    (∃ diagnostic ∈ report.diagnostics, diagnostic.code = .malformedRow) ∨
    (∃ diagnostic ∈ report.diagnostics, diagnostic.code = .missingFilename ∧
      diagnostic.externalId = none) ∨
    ∃ candidate ∈ report.candidates, candidate.source.externalId = none
  | .missingFilename => ∃ diagnostic ∈ report.diagnostics, diagnostic.code = .missingFilename ∧
      diagnostic.sourceUrl = sample.detailUrl ∧ diagnostic.externalId ≠ none

/-- **What a check foretells** of a discovery that reads the same pages. -/
structure Foretells {Text : Type} (pf : Platform Text) (isJson : String → Bool)
    (still : Url → Option String) (result : ContractCheckResult) (report : DiscoveryReport) : Prop where
  /-- the discovery fails as well, or lists a replay without raw data -/
  failed : result.ok = false → (report.ok = false ∧ report.candidates = []) ∨
    ∃ candidate ∈ report.candidates, ∃ rawUrl url, candidate.source.rawUrl = some rawUrl ∧
      newUrl pf rawUrl = .ok url ∧ ∀ body, still url = some body → isJson body = false
  /-- the discovery says so too -/
  warned : ∀ sample warnings, result = .passed sample warnings → report.ok = true →
    ∀ warning ∈ warnings, ReportsWarning sample report warning.code
  /-- the discovery lists the sample -/
  passed : ∀ sample, result = .passed sample [] → report.ok = true →
    ∃ candidate ∈ report.candidates, some candidate.source.url = sample.detailUrl ∧
      candidate.source.rawUrl = sample.rawUrl ∧ sample.rawUrl ≠ none ∧
      candidate.source.externalId ≠ none

section Forecast

variable {Text : Type} {pf : Platform Text} {reader : SourceReader pf} {isJson : String → Bool}
  {sourceUrl : Url} {attempts requestDelayMs : Option ℕ} {still : Url → Option String}
  {l l' : List (Σ e : ClientEffect, ClientReply e)}

/-- A source that holds still does so in each part. -/
theorem HoldsStill.of_append (h : HoldsStill still (l ++ l')) : HoldsStill still l ∧ HoldsStill still l' :=
  ⟨fun url options reply hmem => h url options reply (List.mem_append_left _ hmem),
    fun url options reply hmem => h url options reply (List.mem_append_right _ hmem)⟩

/-- The reads of a check. -/
theorem still_of_readInOrder {steps : List ProbeStep} (h : ReadInOrder clientProbe steps l)
    (hstill : HoldsStill still l) : ∀ step ∈ steps, step.2.toOption = still step.1 := by
  induction h with
  | nil => exact fun _ h => absurd h List.not_mem_nil
  | @cons url outcome steps l₁ l₂ hread _ ih =>
    obtain ⟨hfirst, hrest⟩ := hstill.of_append
    obtain rfl := Proc.emits_perform.1 hread
    intro step hstep
    rcases List.mem_cons.1 hstep with rfl | hstep
    · exact hfirst url none outcome (List.mem_singleton.2 rfl)
    · exact ih hrest step hstep

/-- The reads of a discovery. -/
theorem still_of_paced {first : Bool} {url : Url} {options : SourceReadOptions}
    {r : Except JsError String}
    (h : Emits (pacedFetchText (clientOptions sourceUrl attempts requestDelayMs) first url options) l r)
    (hstill : HoldsStill still l) : r.toOption = still url := by
  have hplain : ∀ l' : List (Σ e : ClientEffect, ClientReply e), HoldsStill still l' →
      Emits ((clientOptions sourceUrl attempts requestDelayMs).fetchText url options) l' r →
        r.toOption = still url := by
    intro l' hstill' h'
    obtain ⟨reply, l₁, l₂, rfl, hcall, hpure⟩ := Proc.emits_bind.1 h'
    obtain rfl := Proc.emits_perform.1 hcall
    obtain ⟨rfl, rfl⟩ := Proc.emits_pure.1 hpure
    rw [← hstill' url (some options) reply (by simp)]
    cases reply <;> rfl
  unfold pacedFetchText at h
  dsimp only at h
  split at h
  · rw [Async.lift_bind_eq] at h
    obtain ⟨_, l₁, l₂, rfl, _, hfetch⟩ := Proc.emits_bind.1 h
    exact hplain l₂ hstill.of_append.2 hfetch
  · exact hplain l hstill h

/-- What the rows of a page have added stays. -/
theorem mem_tellAll {pageUrl : Url} {rows : List ReplayRow} {outcomes : List RowOutcome}
    {acc : RowLoop} {diagnostic : DiscoveryDiagnostic} (h : diagnostic ∈ acc.diagnostics) :
    diagnostic ∈ (acc.tellAll pf pageUrl rows outcomes).diagnostics := by
  induction rows generalizing acc outcomes with
  | nil => exact h
  | cons row rows ih =>
    cases outcomes with
    | nil => exact h
    | cons outcome outcomes => exact ih (List.mem_append_left _ h)

/-- A discovery over one page: its list has failed, or the page has been gathered. -/
theorem emits_onePage {report : DiscoveryReport} (hstill : HoldsStill still l)
    (hhtml : ∀ html, still sourceUrl = some html → reader.parseSourceFixture html = none)
    (h : Emits (discoverReplaysDryRun reader (clientOptions sourceUrl attempts requestDelayMs)) l
      (.ok report)) :
    (report.ok = false ∧ report.candidates = []) ∨
    ∃ html outcomes l', still sourceUrl = some html ∧ HoldsStill still l' ∧
      RowsTold reader.toHtmlReader
        (discoverPageInput reader (clientOptions sourceUrl attempts requestDelayMs) 1 html)
        (reader.extractReplayRows html 1 sourceUrl) l' outcomes ∧
      report.candidates = (candidatesOf outcomes).eraseDups ∧
      (∀ diagnostic ∈ (RowLoop.tellAll pf sourceUrl {} (reader.extractReplayRows html 1 sourceUrl)
        outcomes).diagnostics, diagnostic ∈ report.diagnostics) ∧
      (outcomes = [] → report.diagnostics = []) := by
  unfold discoverReplaysDryRun at h
  obtain ⟨outcome, l₁, l₂, rfl, hpages, hlast⟩ := Proc.emits_bind.1 h
  obtain ⟨rfl, hreport⟩ := Proc.emits_pure.1 hlast
  obtain ⟨r, l₃, l₄, rfl, hpage, hrest⟩ := Proc.emits_bind.1
    (show Emits (Proc.bind (discoverPage reader _ 1) _) l₁ outcome from hpages)
  cases r with
  | error error =>
    left
    obtain ⟨rfl, rfl⟩ := Proc.emits_pure.1 hrest
    cases error with
    | sourceFetch failure =>
      obtain rfl := Except.ok.inj hreport
      exact ⟨rfl, rfl⟩
    | _ => cases hreport
  | ok yielded =>
    right
    obtain ⟨rfl, rfl⟩ := Proc.emits_pure.1 hrest
    obtain rfl := Except.ok.inj hreport
    obtain ⟨html, l₅, l₆, rfl, hlist, hfind⟩ := Async.emits_bind_ok.1 hpage
    obtain ⟨result, l₇, l₈, rfl, hresult, hfound⟩ := Async.emits_bind_ok.1 hfind
    obtain ⟨rfl, hyielded⟩ := Proc.emits_pure.1 hfound
    obtain rfl := Except.ok.inj hyielded
    simp only [List.append_nil] at hstill
    obtain ⟨hfirst, hrows⟩ := hstill.of_append
    have hserved : still sourceUrl = some html := (still_of_paced hlist hfirst).symm
    unfold discoverPageCandidates at hresult
    have hfixture : (discoverPageInput reader (clientOptions sourceUrl attempts requestDelayMs) 1
      html).fixture = none := hhtml html hserved
    rw [hfixture] at hresult
    obtain ⟨acc, l₉, l₁₀, rfl, hloop, hpure⟩ := Async.emits_bind_ok.1 hresult
    obtain ⟨rfl, hacc⟩ := Proc.emits_pure.1 hpure
    obtain rfl := Except.ok.inj hacc
    obtain ⟨outcomes, htold, rfl⟩ := emits_discoverRows.1 hloop
    rw [List.append_nil] at hrows
    refine ⟨html, outcomes, l₉, hserved, hrows, htold, ?_, fun diagnostic hmem => ?_, ?_⟩
    · exact (rowsAccounted_tellAll htold.length).candidates
    · exact List.mem_append_right _ (List.mem_append_left _ hmem)
    · rintro rfl
      have hnone : reader.extractReplayRows html 1 sourceUrl = [] :=
        List.length_eq_zero_iff.1 htold.length.symm
      show [] ++ (RowLoop.tellAll pf sourceUrl {} (reader.extractReplayRows html 1 sourceUrl)
        []).result.diagnostics = []
      rw [hnone]
      rfl

/-- What becomes of the row that a check has sampled. -/
theorem rowTold_sampled {html detailUrlString : String} {row : ReplayRow} {detailUrl : Url}
    {outcome : RowOutcome}
    (hrow : SampledRow reader.toHtmlReader sourceUrl html row detailUrlString detailUrl)
    (hstill : HoldsStill still l)
    (h : RowTold reader.toHtmlReader
      (discoverPageInput reader (clientOptions sourceUrl attempts requestDelayMs) 1 html) row l outcome) :
    ∃ detailHtml, still detailUrl = some detailHtml ∧
      (reader.extractFilenameFromDetailHtml detailHtml = none →
        outcome = .missingFilename detailUrlString) ∧
      ∀ filename, reader.extractFilenameFromDetailHtml detailHtml = some filename →
        outcome = .found (toReplayCandidateFromHtmlRow filename
          (reader.toRawReplayUrl filename detailUrl) row detailUrlString) := by
  cases h with
  | malformed hurl => cases hurl.symm.trans hrow.link
  | skipped _ hgate => cases (Proc.emits_pure.1 hgate).2
  | @missingFilename rowUrl detailHtml other l₁ l₂ hurl hgate hparse hdetail hnone =>
    obtain rfl := Option.some.inj (hurl.symm.trans hrow.link)
    obtain rfl := Except.ok.inj (hparse.symm.trans hrow.parsed)
    have hnothing := Option.map_eq_none_iff.1 hnone
    refine ⟨detailHtml, (still_of_paced hdetail hstill.of_append.2).symm, fun _ => rfl, ?_⟩
    intro filename hfilename
    cases hnothing.symm.trans hfilename
  | @found rowUrl detailHtml other l₁ l₂ candidate hurl hgate hparse hdetail hcandidate =>
    obtain rfl := Option.some.inj (hurl.symm.trans hrow.link)
    obtain rfl := Except.ok.inj (hparse.symm.trans hrow.parsed)
    obtain ⟨filename, hfilename, rfl⟩ := Option.map_eq_some_iff.1 hcandidate
    refine ⟨detailHtml, (still_of_paced hdetail hstill.of_append.2).symm, fun hnone => ?_, ?_⟩
    · cases hnone.symm.trans hfilename
    · intro other hother
      rw [Option.some.inj (hother.symm.trans hfilename)]

/-- A discovery of a page with a first row, once that row is told. -/
theorem head_of_rowsTold {input : DiscoverPageInput ClientEffect ClientReply} {row : ReplayRow}
    {rows : List ReplayRow} {outcomes : List RowOutcome} (hstill : HoldsStill still l)
    (hfirst : rows.head? = some row) (h : RowsTold reader.toHtmlReader input rows l outcomes) :
    ∃ outcome l', HoldsStill still l' ∧ RowTold reader.toHtmlReader input row l' outcome ∧
      (∀ candidate, outcome = .found candidate → candidate ∈ (candidatesOf outcomes).eraseDups) ∧
      ∀ diagnostic, outcome.diagnostic? pf sourceUrl row = some diagnostic →
        diagnostic ∈ (RowLoop.tellAll pf sourceUrl {} rows outcomes).diagnostics := by
  cases h with
  | nil => cases hfirst
  | @cons first rows l₁ l₂ outcome outcomes hrow hrows =>
    obtain rfl : first = row := Option.some.inj hfirst
    refine ⟨outcome, l₁, hstill.of_append.1, hrow, ?_, fun diagnostic hdiagnostic => ?_⟩
    · rintro candidate rfl
      exact List.mem_eraseDups.2 List.mem_cons_self
    · show diagnostic ∈ ((RowLoop.tell pf sourceUrl {} first outcome).tellAll pf sourceUrl rows
        outcomes).diagnostics
      refine mem_tellAll (List.mem_append_right _ ?_)
      rw [hdiagnostic]
      exact List.mem_singleton.2 rfl

/-- What a discovery makes of the row that a check has sampled. -/
theorem sampled_of_emits {report : DiscoveryReport} {html detailUrlString : String} {row : ReplayRow}
    {detailUrl : Url} (hstill : HoldsStill still l)
    (hhtml : ∀ html, still sourceUrl = some html → reader.parseSourceFixture html = none)
    (h : Emits (discoverReplaysDryRun reader (clientOptions sourceUrl attempts requestDelayMs)) l
      (.ok report)) (hserved : still sourceUrl = some html)
    (hrow : SampledRow reader.toHtmlReader sourceUrl html row detailUrlString detailUrl) :
    (report.ok = false ∧ report.candidates = []) ∨
    ∃ detailHtml, still detailUrl = some detailHtml ∧
      (reader.extractFilenameFromDetailHtml detailHtml = none →
        missingFilenameDiagnostic row detailUrlString ∈ report.diagnostics) ∧
      ∀ filename, reader.extractFilenameFromDetailHtml detailHtml = some filename →
        toReplayCandidateFromHtmlRow filename (reader.toRawReplayUrl filename detailUrl) row
          detailUrlString ∈ report.candidates := by
  rcases emits_onePage hstill hhtml h with hfailed | ⟨html', outcomes, l', hserved', hrest, htold,
    hcandidates, hdiagnostics, _⟩
  · exact Or.inl hfailed
  · right
    obtain rfl := Option.some.inj (hserved.symm.trans hserved')
    obtain ⟨outcome, l₁, hstill₁, hfirst, hfound, hreported⟩ := head_of_rowsTold hrest hrow.first htold
    obtain ⟨detailHtml, hdetail, hmissing, hcandidate⟩ := rowTold_sampled hrow hstill₁ hfirst
    refine ⟨detailHtml, hdetail, fun hnone => hdiagnostics _ (hreported _ ?_), fun filename hfilename => ?_⟩
    · rw [hmissing hnone]
      rfl
    · rw [hcandidates]
      exact hfound _ (hcandidate filename hfilename)

/-- What a discovery makes of a first row that a check cannot sample. -/
theorem unsampled_of_emits {report : DiscoveryReport} {html : String} {row? : Option ReplayRow}
    {sample : ContractCheckSample} (hstill : HoldsStill still l)
    (hhtml : ∀ html, still sourceUrl = some html → reader.parseSourceFixture html = none)
    (h : Emits (discoverReplaysDryRun reader (clientOptions sourceUrl attempts requestDelayMs)) l
      (.ok report)) (hserved : still sourceUrl = some html)
    (hfirst : (reader.extractReplayRows html 1 sourceUrl).head? = row?)
    (hrow : ∀ row, row? = some row → row.source.url = none ∨ row.source.externalId = none)
    (hok : report.ok = true) :
    ReportsWarning sample report (if row? = none then .emptyListPage else .missingExternalId) := by
  rcases emits_onePage hstill hhtml h with ⟨hfailed, _⟩ | ⟨html', outcomes, l', hserved', hrest, htold,
    hcandidates, hdiagnostics, hnone⟩
  · cases hok.symm.trans hfailed
  obtain rfl := Option.some.inj (hserved.symm.trans hserved')
  cases row? with
  | none =>
    have hempty : outcomes = [] := by
      refine List.length_eq_zero_iff.1 (htold.length.trans ?_)
      rw [List.head?_eq_none_iff.1 hfirst]
      rfl
    refine ⟨?_, hnone hempty⟩
    rw [hcandidates, hempty]
    rfl
  | some row =>
    show ReportsWarning sample report .missingExternalId
    obtain ⟨outcome, l₁, hstill₁, htoldRow, hfound, hreported⟩ := head_of_rowsTold hrest hfirst htold
    cases htoldRow with
    | malformed hurl => exact Or.inl ⟨_, hdiagnostics _ (hreported _ rfl), rfl⟩
    | skipped _ hgate => cases (Proc.emits_pure.1 hgate).2
    | @missingFilename rowUrl detailHtml detailUrl l₁ l₂ hurl _ _ _ _ =>
      have hid : row.source.externalId = none :=
        (hrow row rfl).resolve_left fun hmissing => by cases hmissing.symm.trans hurl
      exact Or.inr (Or.inl ⟨_, hdiagnostics _ (hreported _ rfl), rfl, hid⟩)
    | @found rowUrl detailHtml detailUrl l₁ l₂ candidate hurl _ _ _ hcandidate =>
      have hid : row.source.externalId = none :=
        (hrow row rfl).resolve_left fun hmissing => by cases hmissing.symm.trans hurl
      obtain ⟨filename, _, rfl⟩ := Option.map_eq_some_iff.1 hcandidate
      exact Or.inr (Or.inr ⟨_, hcandidates ▸ hfound _ rfl, hid⟩)

/-- A failed check foretells a discovery that fails, or one with a replay whose data are no JSON. -/
theorem Foretells.of_not_ok {result : ContractCheckResult} {report : DiscoveryReport}
    (hok : result.ok = false)
    (h : (report.ok = false ∧ report.candidates = []) ∨
      ∃ candidate ∈ report.candidates, ∃ rawUrl url, candidate.source.rawUrl = some rawUrl ∧
        newUrl pf rawUrl = .ok url ∧ ∀ body, still url = some body → isJson body = false) :
    Foretells pf isJson still result report where
  failed _ := h
  warned sample warnings hpassed := by
    subst hpassed
    cases hok
  passed sample hpassed := by
    subst hpassed
    cases hok

/-- A check that passes with a warning. -/
theorem Foretells.of_warning {sample : ContractCheckSample} {warning : ContractCheckWarning}
    {report : DiscoveryReport} (h : report.ok = true → ReportsWarning sample report warning.code) :
    Foretells pf isJson still (.passed sample [warning]) report where
  failed hok := nomatch hok
  warned := by
    rintro _ _ ⟨⟩ hok warning hmem
    rw [List.mem_singleton.1 hmem]
    exact h hok
  passed := by rintro _ ⟨⟩

/-- **What a check says holds of the next discovery.**  Over a source that holds still, a dry run of
    the page fails where the check has failed to read, lists what the check has sampled, and warns of
    what the check has warned of, unless a later row ends it. -/
theorem contract_check_forecasts {result : ContractCheckResult} {report : DiscoveryReport}
    (hstill : HoldsStill still l) (hstill' : HoldsStill still l')
    (hhtml : ∀ html, still sourceUrl = some html → reader.parseSourceFixture html = none)
    (hcheck : Emits (runContractCheck reader.toHtmlReader isJson clientProbe sourceUrl) l (.ok result))
    (hdiscovery : Emits (discoverReplaysDryRun reader
      (clientOptions sourceUrl attempts requestDelayMs)) l' (.ok report)) :
    Foretells pf isJson still result report := by
  obtain ⟨steps, hsteps, hprobed⟩ := probed_of_emits hcheck
  have hread := still_of_readInOrder hsteps hstill
  cases hprobed with
  | listFailed failure =>
    refine .of_not_ok (not_ok_of_probeFailure _ _ _) (Or.inl ?_)
    rcases emits_onePage hstill' hhtml hdiscovery with hfailed | ⟨html, _, _, hserved, _⟩
    · exact hfailed
    · cases (hread _ List.mem_cons_self).trans hserved
  | @unsampled listHtml row? hfirst hrow message =>
    have hserved : some listHtml = still sourceUrl := hread _ List.mem_cons_self
    exact .of_warning (unsampled_of_emits hstill' hhtml hdiscovery hserved.symm hfirst hrow)
  | @detailFailed listHtml detailUrlString row detailUrl hrow failure =>
    have hserved : some listHtml = still sourceUrl := hread _ List.mem_cons_self
    have hdetail : none = still detailUrl := hread _ (List.mem_cons_of_mem _ List.mem_cons_self)
    refine .of_not_ok (not_ok_of_probeFailure _ _ _) (Or.inl ?_)
    rcases sampled_of_emits hstill' hhtml hdiscovery hserved.symm hrow with hfailed | ⟨_, hread', _⟩
    · exact hfailed
    · cases hdetail.trans hread'
  | @missingFilename listHtml detailUrlString detailHtml row detailUrl hrow hnone message =>
    have hserved : some listHtml = still sourceUrl := hread _ List.mem_cons_self
    have hdetail : some detailHtml = still detailUrl :=
      hread _ (List.mem_cons_of_mem _ List.mem_cons_self)
    refine .of_warning fun hok => ?_
    rcases sampled_of_emits hstill' hhtml hdiscovery hserved.symm hrow with ⟨hfailed, _⟩ |
      ⟨_, hread', hmissing, _⟩
    · cases hok.symm.trans hfailed
    · obtain rfl := Option.some.inj (hdetail.trans hread')
      exact ⟨_, hmissing hnone, rfl, rfl, hrow.externalId⟩
  | @raw listHtml detailUrlString detailHtml filename row detailUrl url hrow hfilename hparsed
      outcome =>
    have hserved : some listHtml = still sourceUrl := hread _ List.mem_cons_self
    have hdetail : some detailHtml = still detailUrl :=
      hread _ (List.mem_cons_of_mem _ List.mem_cons_self)
    have hraw : outcome.toOption = still url := hread (url, outcome) (by simp)
    have hlists : (report.ok = false ∧ report.candidates = []) ∨
        toReplayCandidateFromHtmlRow filename (reader.toRawReplayUrl filename detailUrl) row
          detailUrlString ∈ report.candidates := by
      rcases sampled_of_emits hstill' hhtml hdiscovery hserved.symm hrow with hfailed |
        ⟨_, hread', _, hfound⟩
      · exact Or.inl hfailed
      · obtain rfl := Option.some.inj (hdetail.trans hread')
        exact Or.inr (hfound filename hfilename)
    have hunusable : (∀ body, still url = some body → isJson body = false) →
        (report.ok = false ∧ report.candidates = []) ∨
        ∃ candidate ∈ report.candidates, ∃ rawUrl url, candidate.source.rawUrl = some rawUrl ∧
          newUrl pf rawUrl = .ok url ∧ ∀ body, still url = some body → isJson body = false :=
      fun hbad => hlists.imp_right fun hmem => ⟨_, hmem, _, url, rfl, hparsed, hbad⟩
    cases outcome with
    | error failure =>
      refine .of_not_ok (not_ok_of_probeFailure _ _ _) (hunusable fun body hbody => ?_)
      cases hraw.trans hbody
    | ok body =>
      cases hjson : isJson body with
      | true =>
        rw [rawResult_passed _ hjson]
        refine ⟨nofun, ?_, ?_⟩
        · rintro _ _ ⟨⟩ _ warning hmem
          exact absurd hmem List.not_mem_nil
        · rintro _ ⟨⟩ hok
          rcases hlists with ⟨hfailed, _⟩ | hmem
          · cases hok.symm.trans hfailed
          · exact ⟨_, hmem, rfl, rfl, nofun, hrow.externalId⟩
      | false =>
        refine .of_not_ok (not_ok_rawResult _ hjson) (hunusable fun body' hbody => ?_)
        obtain rfl := Option.some.inj (hraw.trans hbody)
        exact hjson

/-! ## A source that holds still -/

/-- Every page is served as `b`. -/
def serveStill : Unit → (e : ClientEffect) → ClientReply e × Unit
  | w, .fetchText _ _ => (.ok "b", w)
  | w, .sleep _ => ((), w)

/-- A program over that source, run to its end. -/
theorem emits_serveStill {α : Type} {p : Proc ClientEffect ClientReply α} {a : α}
    (h : (Proc.exec serveStill 30 ((), p)).2 = .pure a) :
    ∃ l, Emits p l a ∧ HoldsStill (fun _ => some "b") l := by
  have hruns : (Proc.lts (fun w e r w' => serveStill w e = (r, w')) α).Runs Lts.Alone () p
      (Proc.exec serveStill 30 ((), p)).1 (Proc.exec serveStill 30 ((), p)).2 :=
    Proc.runs_exec (fun _ _ => rfl) 30 ((), p)
  rw [h] at hruns
  have hreplies : ∀ (w : Unit) (e : ClientEffect) (r : ClientReply e) (w' : Unit),
      serveStill w e = (r, w') → HoldsStill (fun _ => some "b") [⟨e, r⟩] := by
    intro w e r w' hserve url options reply hmem
    cases List.mem_singleton.1 hmem
    cases hserve
    rfl
  obtain ⟨l, hemits, hl⟩ :=
    Proc.exists_emits (P := fun x => HoldsStill (fun _ => some "b") [x]) hreplies hruns
  exact ⟨l, hemits, fun url options reply hmem =>
    hl _ hmem url options reply (List.mem_singleton.2 rfl)⟩

/-- A check of one row, and the discovery after it. -/
theorem contract_check_forecasts_single : ∃ result report,
    result = .passed { listPageUrl := "//a", detailUrl := some "a", rawUrl := some "b" } [] ∧
    report.ok = true ∧
    Foretells toyPlatform (fun _ => true) (fun _ => some "b") result report := by
  obtain ⟨l, hcheck, hstill⟩ : ∃ l, Emits
      (runContractCheck singleRowReader.toHtmlReader (fun _ => true) clientProbe stillUrl) l
      (.ok (.passed { listPageUrl := "//a", detailUrl := some "a", rawUrl := some "b" } [])) ∧
      HoldsStill (fun _ => some "b") l := emits_serveStill rfl
  obtain ⟨report, hdone, hok⟩ : ∃ report,
      (Proc.exec serveStill 30 ((), (discoverReplaysDryRun singleRowReader
        (clientOptions stillUrl none none) : Proc ClientEffect ClientReply _))).2 = .pure (.ok report) ∧
      report.ok = true := ⟨_, rfl, rfl⟩
  obtain ⟨l', hdiscovery, hstill'⟩ := emits_serveStill hdone
  exact ⟨_, report, rfl, hok,
    contract_check_forecasts hstill hstill' (fun _ _ => rfl) hcheck hdiscovery⟩

end Forecast

end ReplaysFetcher
