/-
  Cloudflare challenges on the direct transport.

  A challenge is a response with a `cf-ray` header and a marker in its body.  A read should never
  resolve with it, and should be given up as a transient failure.

  A client ends with its last response, so all depends on what it makes of one
  (`directTextAnswer`, `directBytesAnswer`).  The text client looks for a challenge only behind the
  status check, and the byte client not at all: a challenge is refused as one on an ok response of
  the text client, and elsewhere only where the status alone is transient
  (`challenge_never_content_iff`).
-/
import ReplaysFetcher.Retries
import ReplaysFetcher.DryRun

namespace ReplaysFetcher

open Effectful

/-! ## One response -/

section Answers

variable {Text : Type} (pf : Platform Text) (codec : Codec) (url : Url)

/-- What the text client makes of a response. -/
def directTextAnswer (phase : SourceReadPhase) :
    Except RuntimeError Response → Except ReadError String
  | .error error => .error (.runtime error)
  | .ok response =>
    if !response.ok then .error (.sourceFetch (buildDirectHttpError pf phase response url))
    else
      match response.body with
      | .error error => .error (.runtime error)
      | .ok body =>
        if detectCloudflareChallenge response (codec.decodeText body) then .error .challenge
        else .ok (codec.decodeText body)

/-- What the byte client makes of a response. -/
def directBytesAnswer : Except RuntimeError Response → Except ReadError Bytes
  | .error error => .error (.runtime error)
  | .ok response =>
    if !response.ok then .error (.replayByteFetch (Bytes.buildDirectHttpError pf response url))
    else response.body.mapError .runtime

theorem directReadText_eq (phase : SourceReadPhase) :
    IsRequest (directReadText pf codec url phase) (.fetch url)
      (directTextAnswer pf codec url phase) := by
  refine ⟨rfl, ?_⟩
  unfold directReadText
  rw [Async.bind_eq]
  show Proc.call (TransportEffect.fetch url) _ = _
  congr 1
  funext r
  cases r with
  | error error => rfl
  | ok response =>
    show Async.onOk _ (.ok response) = _
    rw [Async.onOk_ok]
    unfold directTextAnswer
    dsimp only
    split
    · rfl
    · rw [Async.bind_eq]
      unfold readBody
      rw [Proc.pure_bind']
      cases response.body with
      | error error => rfl
      | ok body =>
        show Async.onOk _ (.ok body) = _
        rw [Async.onOk_ok]
        dsimp only
        split <;> rfl

theorem directReadBytes_eq :
    IsRequest (directReadBytes pf url) (.fetch url) (directBytesAnswer pf url) := by
  refine ⟨rfl, ?_⟩
  unfold directReadBytes
  rw [Async.bind_eq]
  show Proc.call (TransportEffect.fetch url) _ = _
  congr 1
  funext r
  cases r with
  | error error => rfl
  | ok response =>
    show Async.onOk _ (.ok response) = _
    rw [Async.onOk_ok]
    unfold directBytesAnswer
    dsimp only
    split <;> rfl

theorem asks_directRetryAfter (error : ReadError) :
    Proc.Asks (fun e => e = .now) (directRetryAfter codec error) := by
  unfold directRetryAfter
  split
  · trivial
  · unfold parseRetryAfter
    split
    · trivial
    · split
      · trivial
      · exact ⟨rfl, fun _ => trivial⟩

end Answers

/-! ## The law -/

section Law

variable {Text : Type} (pf : Platform Text) (codec : Codec)

/-- A `cf-ray` header, and a marker in the body. -/
def IsChallenge (response : Response) : Prop :=
  ∃ body, response.body = .ok body ∧
    detectCloudflareChallenge response (codec.decodeText body) = true

/-- A run whose page failed so stays `resumable`. -/
def LeavesResumable (failure : SourceFetchError) : Prop :=
  ∀ (options : DiscoverReplaysDryRunOptions TransportEffect TransportReply) (failedPage : ℕ)
    (report : DiscoveryReport) (input : DeriveRunStatusInput),
    @dryRunReport _ pf _ _ options ({}, some (.sourceFetch failure, failedPage)) = .ok report →
    input.ok = report.ok → input.sourceFailure = deriveSourceFailure report →
    deriveRunStatus input = .resumable

/-- What a text read has to do when its last response is `response`: reject, with an error that is
    classified `transient` and leaves the run resumable, and not before its tries are used up. -/
def TextRefuses (response : Response) (phase : SourceReadPhase) : Prop :=
  ∀ (url : Url) (options : SourceFetchOptions) (l : Exchanges) (r : Except SourceFetchError String),
    resolvePhase options = phase → NotAborted l → (reads l).getLast? = some ⟨.fetch url, .ok response⟩ →
    Emits (directFetchText pf codec url options) l r →
    ∃ failure, r = .error failure ∧ (classifyDirect (.sourceFetch failure)).kind = .transient ∧
      LeavesResumable pf failure ∧ (reads l).length = totalTries options

/-- The same of a byte read, which no run stops for. -/
def BytesRefuse (response : Response) : Prop :=
  ∀ (url : Url) (options : SourceFetchOptions) (l : Exchanges)
    (r : Except ReplayByteFetchError Bytes),
    NotAborted l → (reads l).getLast? = some ⟨.fetch url, .ok response⟩ →
    Emits (directFetchBytes pf codec url options) l r →
    ∃ failure, r = .error failure ∧
      (Bytes.classifyDirect (.replayByteFetch failure)).kind = .transient ∧
      (reads l).length = totalTries options

def Refuses (response : Response) : SourceReadPhase → Prop
  | .bytes => BytesRefuse pf codec response
  | phase => TextRefuses pf codec response phase

/-- The challenges a read refuses as it should: ok responses of the text client, and responses whose
    status alone is transient. -/
def isRefused (response : Response) (phase : SourceReadPhase) : Bool :=
  if response.ok then phase ≠ .bytes else classifyByStatus response.status = some .transient

variable {pf codec} {response : Response} {phase : SourceReadPhase} {url : Url}
  {options : SourceFetchOptions}

/-- A transient source failure leaves the run resumable. -/
theorem leavesResumable_of_transient {failure : SourceFetchError}
    (hcode : failure.code = .sourceTransient) : LeavesResumable pf failure := by
  rintro _ failedPage report input ⟨⟩ hok hfailure
  have hdiagnostic : ∀ sourceUrl,
      (buildSourceFailureDiagnostic pf failure sourceUrl failedPage).code = .sourceTransient ∧
      (buildSourceFailureDiagnostic pf failure sourceUrl failedPage).severity = .error := by
    intro sourceUrl
    unfold buildSourceFailureDiagnostic
    cases failure.details <;> exact ⟨by rw [hcode]; rfl, rfl⟩
  have hrecoverable : isRecoverable input.sourceFailure = true := by
    obtain ⟨hfailureCode, hseverity⟩ := hdiagnostic _
    rw [hfailure, deriveSourceFailure_of_find rfl
      (List.find?_cons_of_pos (by rw [hfailureCode, hseverity]; rfl)), hfailureCode]
    rfl
  unfold deriveRunStatus
  have hnotOk : input.ok = false := hok
  rw [hnotOk, if_neg fun h => Bool.false_ne_true h.1, if_pos hrecoverable]

/-- The kind of a response that is not ok is that of its status. -/
theorem kind_of_status (status : ℕ) :
    (classifyFailure { httpStatus := some status }).kind =
      (classifyByStatus status).getD .permanent := by
  show resolveKind { httpStatus := some status } (unwrapCause none) = _
  unfold resolveKind
  rw [if_neg Bool.false_ne_true]
  simp only [Option.bind_some]
  cases classifyByStatus status <;> rfl

/-- The terminal error of a text read that was refused by its status. -/
theorem kind_of_directHttpError :
    (classifyDirect (.sourceFetch (toDirectFetchError pf
      (.sourceFetch (buildDirectHttpError pf phase response url)) options url))).kind =
      (classifyByStatus response.status).getD .permanent :=
  kind_of_status response.status

theorem kind_of_byteHttpError :
    (Bytes.classifyDirect (.replayByteFetch (toDirectByteError pf
      (.replayByteFetch (Bytes.buildDirectHttpError pf response url)) options url))).kind =
      (classifyByStatus response.status).getD .permanent :=
  kind_of_status response.status

theorem code_of_directHttpError :
    (toDirectFetchError pf (.sourceFetch (buildDirectHttpError pf phase response url)) options
      url).code = toFetchCode ((classifyByStatus response.status).getD .permanent) :=
  congrArg toFetchCode (kind_of_status response.status)

/-- A transient failure is retried. -/
theorem isRetryable_of_transient {classification : FailureClassification}
    (h : classification.kind = .transient) : isRetryable classification = true := by
  unfold isRetryable
  rw [h]
  rfl

theorem getD_eq_transient {kind : Option FailureKind} :
    kind.getD .permanent = .transient ↔ kind = some .transient := by
  cases kind with
  | none => exact ⟨fun h => (by cases h), fun h => (by cases h)⟩
  | some kind => exact ⟨congrArg some, Option.some.inj⟩

/-- The text client on a challenge. -/
theorem textRefuses_iff (h : IsChallenge codec response) :
    TextRefuses pf codec response phase ↔
      (response.ok = false → classifyByStatus response.status = some .transient) := by
  obtain ⟨body, hbody, hdetect⟩ := h
  have hanswer : ∀ url, directTextAnswer pf codec url phase (.ok response) =
      if response.ok then .error .challenge
      else .error (.sourceFetch (buildDirectHttpError pf phase response url)) := by
    intro url
    unfold directTextAnswer
    cases hok : response.ok <;> simp [hok, hbody, hdetect]
  constructor
  · intro hrefuses hok
    -- one try, without retries
    let url : Url := { protocol := "", host := "", pathname := "" }
    have hemits : Emits (directFetchText pf codec url { phase := some phase })
        (firstTry (.fetch url) (.ok response)) ((directTextAnswer pf codec url phase
          (.ok response)).mapError fun error =>
            toDirectFetchError pf error { phase := some phase } url) :=
      emits_firstTry (directReadText_eq pf codec url phase) _ _ (Or.inr rfl)
    obtain ⟨failure, hfailure, hkind, _⟩ := hrefuses url _ _ _ rfl (notAborted_firstTry rfl _)
      (getLast_firstTry rfl _) hemits
    rw [hanswer, hok, if_neg Bool.false_ne_true] at hfailure
    cases hfailure
    exact getD_eq_transient.1 (kind_of_directHttpError.symm.trans hkind)
  · rintro hstatus url options l r rfl hnot hlast hemits
    obtain ⟨outcome, rfl, hends⟩ := endsWithLast_of_emits (directReadText_eq pf codec url _)
      (asks_directRetryAfter codec) hemits
    obtain ⟨⟨reply, hreply, hout⟩, htries⟩ := hends hnot
    rw [hlast] at hreply
    cases hreply
    rw [hanswer] at hout
    cases hok : response.ok with
    | true =>
      rw [hok, if_pos rfl] at hout
      subst hout
      refine ⟨_, rfl, rfl, leavesResumable_of_transient rfl, ?_⟩
      have hretryable : isRetryable (classifyDirect .challenge) = true :=
        isRetryable_of_transient rfl
      rcases htries .challenge rfl with hfinal | hused
      · rw [hretryable] at hfinal
        cases hfinal
      · exact hused
    | false =>
      rw [hok, if_neg Bool.false_ne_true] at hout
      subst hout
      have htransient := hstatus hok
      have hretryable : isRetryable (classifyDirect (.sourceFetch
          (buildDirectHttpError pf (resolvePhase options) response url))) = true :=
        isRetryable_of_transient ((kind_of_status response.status).trans
          (getD_eq_transient.2 htransient))
      refine ⟨_, rfl, kind_of_directHttpError.trans (getD_eq_transient.2 htransient),
        leavesResumable_of_transient ?_, ?_⟩
      · rw [code_of_directHttpError, htransient]
        rfl
      · rcases htries _ rfl with hfinal | hused
        · rw [hretryable] at hfinal
          cases hfinal
        · exact hused

/-- The byte client on a challenge, which it does not know. -/
theorem bytesRefuse_iff (h : IsChallenge codec response) :
    BytesRefuse pf codec response ↔
      response.ok = false ∧ classifyByStatus response.status = some .transient := by
  obtain ⟨body, hbody, _⟩ := h
  have hanswer : ∀ url, directBytesAnswer pf url (.ok response) =
      if response.ok then .ok body
      else .error (.replayByteFetch (Bytes.buildDirectHttpError pf response url)) := by
    intro url
    unfold directBytesAnswer
    cases hok : response.ok <;> simp [hok, hbody, Except.mapError]
  constructor
  · intro hrefuses
    let url : Url := { protocol := "", host := "", pathname := "" }
    have hemits : Emits (directFetchBytes pf codec url {}) (firstTry (.fetch url) (.ok response))
        ((directBytesAnswer pf url (.ok response)).mapError fun error =>
          toDirectByteError pf error {} url) :=
      emits_firstTry (directReadBytes_eq pf url) _ _ (Or.inr rfl)
    obtain ⟨failure, hfailure, hkind, _⟩ := hrefuses url _ _ _ (notAborted_firstTry rfl _)
      (getLast_firstTry rfl _) hemits
    rw [hanswer] at hfailure
    cases hok : response.ok with
    | true =>
      rw [hok, if_pos rfl] at hfailure
      cases hfailure
    | false =>
      rw [hok, if_neg Bool.false_ne_true] at hfailure
      cases hfailure
      exact ⟨rfl, getD_eq_transient.1 (kind_of_byteHttpError.symm.trans hkind)⟩
  · rintro ⟨hok, htransient⟩ url options l r hnot hlast hemits
    obtain ⟨outcome, rfl, hends⟩ := endsWithLast_of_emits (directReadBytes_eq pf url)
      (asks_directRetryAfter codec) hemits
    obtain ⟨⟨reply, hreply, hout⟩, htries⟩ := hends hnot
    rw [hlast] at hreply
    cases hreply
    rw [hanswer, hok, if_neg Bool.false_ne_true] at hout
    subst hout
    have hretryable : isRetryable (Bytes.classifyDirect (.replayByteFetch
        (Bytes.buildDirectHttpError pf response url))) = true :=
      isRetryable_of_transient ((kind_of_status response.status).trans
        (getD_eq_transient.2 htransient))
    refine ⟨_, rfl, kind_of_byteHttpError.trans (getD_eq_transient.2 htransient), ?_⟩
    rcases htries _ rfl with hfinal | hused
    · rw [hretryable] at hfinal
      cases hfinal
    · exact hused

/-- **Which challenges are refused as challenges**: the ok responses of the text client, and the
    responses whose status is transient by itself. -/
theorem challenge_never_content_iff (h : IsChallenge codec response) (phase : SourceReadPhase) :
    Refuses pf codec response phase ↔ isRefused response phase = true := by
  unfold isRefused
  cases phase with
  | bytes =>
    show BytesRefuse pf codec response ↔ _
    rw [bytesRefuse_iff h]
    cases response.ok <;> simp
  | detail =>
    show TextRefuses pf codec response .detail ↔ _
    rw [textRefuses_iff h]
    cases response.ok <;> simp
  | list =>
    show TextRefuses pf codec response .list ↔ _
    rw [textRefuses_iff h]
    cases response.ok <;> simp

end Law

/-! ## Three challenges -/

/-- Texts are bytes, character by character. -/
def toyCodec : Codec where
  decodeText body := String.ofList (body.map fun byte => Char.ofNat byte.toNat)
  parseDate _ := none

/-- A challenge with this status. -/
def toyChallenge (status : ℕ) : Response where
  status := status
  headers := [("cf-ray", "8a1b2c3d4e5f")]
  body := .ok ("Just a moment...".toList.map fun c => UInt8.ofNat c.toNat)

theorem isChallenge_toyChallenge (status : ℕ) : IsChallenge toyCodec (toyChallenge status) :=
  ⟨_, rfl, rfl⟩

theorem challenge_never_content_iff_list :
    Refuses toyPlatform toyCodec (toyChallenge 200) .list :=
  (challenge_never_content_iff (isChallenge_toyChallenge 200) .list).2 rfl

/-- **Two challenges that get through**: the byte client takes one with status 200 for a replay, and
    one with status 403 ends a list read for good. -/
theorem challenge_taken_for_content :
    (IsChallenge toyCodec (toyChallenge 200) ∧
      ∃ (url : Url) (l : Exchanges) (body : Bytes), NotAborted l ∧
        (reads l).getLast? = some ⟨.fetch url, .ok (toyChallenge 200)⟩ ∧ (toyChallenge 200).body = .ok body ∧
        Emits (directFetchBytes toyPlatform toyCodec url {}) l (.ok body)) ∧
    IsChallenge toyCodec (toyChallenge 403) ∧
      ¬ Refuses toyPlatform toyCodec (toyChallenge 403) .list := by
  constructor
  · let url : Url := { protocol := "https:", host := "a", pathname := "" }
    have hemits : Emits (directFetchBytes toyPlatform toyCodec url {})
        (firstTry (.fetch url) (.ok (toyChallenge 200)))
        ((directBytesAnswer toyPlatform url (.ok (toyChallenge 200))).mapError
          fun error => toDirectByteError toyPlatform error {} url) :=
      emits_firstTry (directReadBytes_eq toyPlatform url) _ _ (Or.inr rfl)
    exact ⟨isChallenge_toyChallenge 200, url, _, _, notAborted_firstTry rfl _,
      getLast_firstTry rfl _, rfl, hemits⟩
  · refine ⟨isChallenge_toyChallenge 403, fun hrefuses => ?_⟩
    have hstatus := (textRefuses_iff (isChallenge_toyChallenge 403)).1 hrefuses rfl
    cases hstatus

end ReplaysFetcher
