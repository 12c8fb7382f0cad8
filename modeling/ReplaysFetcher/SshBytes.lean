/-
  Replay bytes over SSH.

  The remote script is `download | base64`, and what comes back passes three places where it can go
  wrong: the status of a pipeline is that of its LAST command, so a failed download looks like a
  success; `execFile` gives up when more than 1 MiB is printed; and `Buffer.from` has to undo what
  `base64` printed, line breaks included.

  The last one is fine (`decode_wrapLines_encode`).  The first two decide everything: the client is
  faithful to a download exactly when it succeeded and fits, or failed and does not fit
  (`ssh_bytes_faithful_iff`).  So a failed download with any smaller output is taken for a replay,
  and a replay of more than 776217 bytes cannot be fetched.
-/
import ReplaysFetcher.Retries
import ReplaysFetcher.RunLog

namespace ReplaysFetcher

open Effectful

/-! ## The remote side -/

/-- What a command has printed, and its exit status. -/
structure CommandResult (Output : Type) where
  stdout : Output
  status : ℕ

/-- `first | last`, without `pipefail`. -/
def pipeline {A B : Type} (first : CommandResult A) (last : A → CommandResult B) : CommandResult B :=
  last first.stdout

/-- The command `base64`. -/
def base64Command (input : Bytes) : CommandResult String where
  stdout := String.ofList (Base64.wrapLines 76 (Base64.encode input))
  status := 0

/-- The remote script of the byte client, when the download ends so. -/
def remoteByteScript (download : CommandResult Bytes) : CommandResult String :=
  pipeline download base64Command

/-- The default `maxBuffer` of `execFile`. -/
def maxBuffer : ℕ := 1024 * 1024

/-- What `execFile` makes of the result of its command. -/
def execFileResult (result : CommandResult String) : Except RuntimeError String :=
  if result.stdout.utf8ByteSize > maxBuffer then
    .error (.error "RangeError" "stdout maxBuffer length exceeded"
      (some "ERR_CHILD_PROCESS_STDIO_MAXBUFFER") none)
  else if result.status ≠ 0 then .error (.error "Error" "Command failed" none none)
  else .ok result.stdout

/-- The most bytes that fit into the buffer once they are printed as base64. -/
def MAX_PRINTED_BYTES : ℕ := 776217

theorem utf8ByteSize_ofList {text : List Char} (h : ∀ c ∈ text, c.val ≤ 127) :
    (String.ofList text).utf8ByteSize = text.length := by
  induction text using List.reverseRecOn with
  | nil => rfl
  | append_singleton text c ih =>
    have hc : c.utf8Size = 1 :=
      Char.utf8Size_eq_one_iff.2 (h c (List.mem_append_right _ (List.mem_singleton_self c)))
    have htext := ih fun x hx => h x (List.mem_append_left _ hx)
    rw [String.ofList_append, String.utf8ByteSize_append, htext, List.length_append]
    show _ + (String.singleton c).utf8ByteSize = _
    rw [String.utf8ByteSize_singleton, hc]
    rfl

/-- What `base64` prints fits or does not by the length of its input. -/
theorem fits_base64Command (input : Bytes) :
    (base64Command input).stdout.utf8ByteSize ≤ maxBuffer ↔ input.length ≤ MAX_PRINTED_BYTES := by
  have hascii : ∀ c ∈ Base64.wrapLines 76 (Base64.encode input), c.val ≤ 127 :=
    Base64.val_of_mem_wrapLines fun c hc => Base64.val_of_mem_encode hc
  show (String.ofList (Base64.wrapLines 76 (Base64.encode input))).utf8ByteSize ≤ _ ↔ _
  rw [utf8ByteSize_ofList hascii, Base64.length_wrapLines (by decide), Base64.length_encode]
  unfold maxBuffer MAX_PRINTED_BYTES
  omega

/-- What the client is told of a download. -/
theorem execFileResult_remoteByteScript (download : CommandResult Bytes) :
    execFileResult (remoteByteScript download) =
      if download.stdout.length ≤ MAX_PRINTED_BYTES then .ok (base64Command download.stdout).stdout
      else .error (.error "RangeError" "stdout maxBuffer length exceeded"
        (some "ERR_CHILD_PROCESS_STDIO_MAXBUFFER") none) := by
  have hfits := fits_base64Command download.stdout
  show (if (base64Command download.stdout).stdout.utf8ByteSize > maxBuffer then _
    else if (0 : ℕ) ≠ 0 then _ else _) = _
  by_cases h : download.stdout.length ≤ MAX_PRINTED_BYTES
  · rw [if_pos h, if_neg (Nat.not_lt.2 (hfits.2 h)), if_neg fun h => h rfl]
    rfl
  · rw [if_neg h, if_pos (Nat.lt_of_not_le fun hle => h (hfits.1 hle))]

/-! ## A replay that was not fetched is not kept -/

section Kept

variable {Text : Type}

/-- The request stores or stages something. -/
def isKeeping : Effect Text → Bool
  | .putObject _ _ _ | .insertStaging _ => true
  | _ => false

/-- No byte read has succeeded. -/
def BytesFailed (l : Conversation Text) : Prop :=
  ∀ url bytes, (⟨.fetchBytes url, .ok bytes⟩ : Σ e : Effect Text, Reply e) ∉ l

/-- Store a candidate, then stage it. -/
def storeAndStage (pf : Platform Text) (bucket : String) (candidate : ReplayCandidate)
    (runId : Option String) : Task Text IngestStagingResult := do
  let rawResult ← storeRawReplay pf bucket candidate
  stageRawReplay pf rawResult runId

/-- Nothing was kept, unless bytes have been read. -/
def KeptOnlyBytes (l : Conversation Text) : Prop :=
  BytesFailed l → ∀ x ∈ l, isKeeping x.1 = false

theorem BytesFailed.of_append {l more : Conversation Text} (h : BytesFailed (l ++ more)) :
    BytesFailed l := fun url bytes hmem => h url bytes (List.mem_append_left _ hmem)

theorem KeptOnlyBytes.append {l : Conversation Text} {e : Effect Text} {r : Reply e}
    (he : isKeeping e = false) (h : KeptOnlyBytes l) : KeptOnlyBytes (l ++ [⟨e, r⟩]) := by
  intro hfailed x hx
  rcases List.mem_append.1 hx with hx | hx
  · exact h hfailed.of_append x hx
  · rw [List.mem_singleton.1 hx]
    exact he

/-- Once bytes have been read there is nothing to show. -/
theorem safe_bytesRead {α : Type} {l : Conversation Text} (h : ¬ BytesFailed l)
    (p : Program Text α) :
    Proc.Safe Env.free Lts.Alone (fun _ _ => True) (fun _ l => ¬ BytesFailed l) l p := by
  have hquiet : Proc.Quiet Env.free (fun l l' : Conversation Text => l <+: l') (fun _ _ => True) p :=
    (Proc.asks_any p).quiet (fun _ => trivial) fun e _ l r l' hl =>
      ⟨trivial, hl ▸ List.prefix_append l [⟨e, r⟩]⟩
  have hstable : ∀ l l' : Conversation Text, ¬ BytesFailed l → l <+: l' → ¬ BytesFailed l' := by
    rintro l _ h ⟨more, rfl⟩ hfailed
    exact h hfailed.of_append
  exact (hquiet (fun l => ¬ BytesFailed l) hstable l h).weaken
    (fun l l' (hr : l' = l) => hr ▸ List.prefix_refl l) (fun _ _ h => h) fun _ _ h => h

/-- **Without bytes nothing is stored or staged.** -/
theorem keptOnlyBytes_of_emits {pf : Platform Text} {bucket : String} {candidate : ReplayCandidate}
    {runId : Option String} {l : Conversation Text} {result : Except JsError IngestStagingResult}
    (h : Emits (storeAndStage pf bucket candidate runId) l result) : KeptOnlyBytes l := by
  have hstable : ∀ l l' : Conversation Text, KeptOnlyBytes l → Lts.Alone l l' → KeptOnlyBytes l' :=
    fun _ _ h hr => hr ▸ h
  have hvacuous : ∀ l : Conversation Text, ¬ BytesFailed l → KeptOnlyBytes l :=
    fun _ hnot hfailed => absurd hfailed hnot
  -- after the store: a result that is stored evidence comes with bytes
  let Stored : Except JsError StoreRawReplayResult → Conversation Text → Prop := fun r l =>
    KeptOnlyBytes l ∧ (BytesFailed l → ∀ evidence, r ≠ .ok (.stored evidence))
  have houtcome : ∀ (error : JsError) (now : Date) (l : Conversation Text), KeptOnlyBytes l →
      Stored (fetchFailureOutcome candidate (toISOString now) error) l := by
    intro error now l h
    refine ⟨h, fun _ evidence heq => ?_⟩
    unfold fetchFailureOutcome at heq
    split at heq <;> cases heq
  have hstore : Proc.Safe Env.free Lts.Alone (fun _ _ => True) Stored []
      (storeRawReplay pf bucket candidate) := by
    have hpost : ∀ r l l', Stored r l → Lts.Alone l l' → Stored r l' := fun _ _ _ h hr => hr ▸ h
    refine safe_storeRawReplay KeptOnlyBytes KeptOnlyBytes (fun _ l => ¬ BytesFailed l) hstable hstable
      hpost ?_ (fun error _ => houtcome error) ?_ ?_ (fun _ x hx => absurd hx List.not_mem_nil)
    · rintro l h r _ rfl
      exact ⟨trivial, h.append rfl⟩
    · rintro url _ l h r _ rfl
      refine ⟨trivial, ?_, fun error _ now => houtcome error now _ (h.append rfl)⟩
      rintro bytes rfl hfailed
      exact hfailed url bytes (List.mem_append_right _ (List.mem_singleton_self _))
    · intro now bytes l h
      exact (safe_bytesRead h _).imp fun evidence l hnot =>
        ⟨hvacuous l hnot, fun hfailed => absurd hfailed hnot⟩
  have hsafe : Proc.Safe Env.free Lts.Alone (fun _ _ => True) (fun _ l => KeptOnlyBytes l) []
      (storeAndStage pf bucket candidate runId) := by
    refine Async.safe_bind (fun rawResult l => Stored (.ok rawResult) l) (hstore.imp fun r l h => ?_)
      fun rawResult l h => ?_
    · cases r with
      | ok rawResult => exact h
      | error error => exact h.1
    · by_cases hfailed : BytesFailed l
      · cases rawResult with
        | stored evidence => exact absurd rfl (h.2 hfailed evidence)
        | fetchFailed failed => exact Proc.safe_pure (fun _ _ h hr => hr ▸ h) h.1
      · exact (safe_bytesRead hfailed _).imp fun _ l => hvacuous l
  exact hsafe.of_run h

end Kept

/-! ## The client -/

section Client

variable {Text : Type} {pf : Platform Text} {config : SourceConfig} {host : String} {url : Url}
  {options : SourceFetchOptions}

/-- What the client makes of what it is told. -/
def sshBytesAnswer : Except RuntimeError String → Except ReadError Bytes
  | .error error => .error (.runtime error)
  | .ok stdout => .ok (Base64.decode stdout.toList)

theorem sshReadBytes_eq (pf : Platform Text) (config : SourceConfig) (url : Url) (host : String) :
    IsRequest (sshReadBytes pf config url host)
      (.execFile "ssh" (host :: sshByteArguments pf config url)) sshBytesAnswer := by
  refine ⟨rfl, ?_⟩
  unfold sshReadBytes
  rw [Async.bind_eq]
  show Proc.call (TransportEffect.execFile _ _) _ = _
  congr 1
  funext r
  cases r <;> rfl

/-- What the client makes of a download. -/
theorem sshBytesAnswer_download (download : CommandResult Bytes) :
    sshBytesAnswer (execFileResult (remoteByteScript download)) =
      if download.stdout.length ≤ MAX_PRINTED_BYTES then .ok download.stdout
      else .error (.runtime (.error "RangeError" "stdout maxBuffer length exceeded"
        (some "ERR_CHILD_PROCESS_STDIO_MAXBUFFER") none)) := by
  rw [execFileResult_remoteByteScript]
  split
  · show Except.ok (Base64.decode (String.ofList _).toList) = _
    rw [String.toList_ofList, Base64.decode_wrapLines_encode]
  · rfl

/-- What a byte read has to do when its last download ended so: resolve with the bytes served, or
    reject, and then nothing is stored or staged. -/
def SshFaithful (pf : Platform Text) (download : CommandResult Bytes) : Prop :=
  ∀ (config : SourceConfig) (host : String) (url : Url) (options : SourceFetchOptions)
    (l : Exchanges) (r : Except ReplayByteFetchError Bytes),
    config.sourceSshHost = some host → NotAborted l →
    (reads l).getLast? = some ⟨.execFile "ssh" (host :: sshByteArguments pf config url),
      execFileResult (remoteByteScript download)⟩ →
    Emits (sshFetchBytes pf config url options) l r →
    if download.status = 0 then r = .ok download.stdout
    else (∃ failure, r = .error failure) ∧
      ∀ (bucket : String) (candidate : ReplayCandidate) (runId : Option String)
        (conversation : Conversation Text) (result : Except JsError IngestStagingResult),
        Emits (storeAndStage pf bucket candidate runId) conversation result →
        (∀ url reply, (⟨.fetchBytes url, reply⟩ : Σ e : Effect Text, Reply e) ∈ conversation →
          reply = r.mapError ReplayByteFetchError.toJsError) →
        ∀ x ∈ conversation, isKeeping x.1 = false

/-- **When bytes over SSH are faithful**: the download succeeded and fits, or it failed and does not
    fit. -/
theorem ssh_bytes_faithful_iff (pf : Platform Text) (download : CommandResult Bytes) :
    SshFaithful pf download ↔
      (download.status = 0 ↔ download.stdout.length ≤ MAX_PRINTED_BYTES) := by
  constructor
  · intro hfaithful
    let config : SourceConfig := { sourceSshCommand := "", sourceSshHost := some "" }
    let url : Url := { protocol := "", host := "", pathname := "" }
    have hemits : Emits (sshFetchBytes pf config url {})
        (firstTry (.execFile "ssh" ("" :: sshByteArguments pf config url))
          (execFileResult (remoteByteScript download)))
        ((sshBytesAnswer (execFileResult (remoteByteScript download))).mapError fun error =>
          toSshByteError pf error {} url) :=
      emits_firstTry (sshReadBytes_eq pf config url "") _ _ (Or.inr rfl)
    have hresult := hfaithful config "" url {} _ _ rfl (notAborted_firstTry rfl _)
      (getLast_firstTry rfl _) hemits
    rw [sshBytesAnswer_download] at hresult
    by_cases hstatus : download.status = 0
    · rw [if_pos hstatus] at hresult
      by_cases hfits : download.stdout.length ≤ MAX_PRINTED_BYTES
      · exact ⟨fun _ => hfits, fun _ => hstatus⟩
      · rw [if_neg hfits] at hresult
        cases hresult
    · rw [if_neg hstatus] at hresult
      by_cases hfits : download.stdout.length ≤ MAX_PRINTED_BYTES
      · rw [if_pos hfits] at hresult
        obtain ⟨⟨failure, hfailure⟩, _⟩ := hresult
        cases hfailure
      · exact ⟨fun h => absurd h hstatus, fun h => absurd h hfits⟩
  · intro hcondition config host url options l r hhost hnot hlast hemits
    unfold sshFetchBytes at hemits
    rw [hhost] at hemits
    obtain ⟨outcome, rfl, hends⟩ := endsWithLast_of_emits (sshReadBytes_eq pf config url host)
      (fun _ => by trivial) hemits
    obtain ⟨⟨reply, hreply, hout⟩, _⟩ := hends hnot
    rw [hlast] at hreply
    cases hreply
    rw [sshBytesAnswer_download] at hout
    by_cases hstatus : download.status = 0
    · rw [if_pos (hcondition.1 hstatus)] at hout
      subst hout
      rw [if_pos hstatus]
      rfl
    · rw [if_neg fun hfits => hstatus (hcondition.2 hfits)] at hout
      subst hout
      rw [if_neg hstatus]
      refine ⟨⟨_, rfl⟩, fun bucket candidate runId conversation result hkept hreplies => ?_⟩
      refine keptOnlyBytes_of_emits hkept fun url bytes hmem => ?_
      cases hreplies url _ hmem

end Client

/-- **A failed download is taken for a replay**: it has printed one byte and then ended with status 1,
    and the client resolves with this byte. -/
theorem failed_download_resolves :
    ∃ (download : CommandResult Bytes) (config : SourceConfig) (url : Url) (l : Exchanges),
      download.status ≠ 0 ∧ NotAborted l ∧
      (reads l).getLast? = some ⟨.execFile "ssh" ("host" :: sshByteArguments toyPlatform config url),
        execFileResult (remoteByteScript download)⟩ ∧
      Emits (sshFetchBytes toyPlatform config url {}) l (.ok download.stdout) ∧
      ¬ SshFaithful toyPlatform download := by
  let download : CommandResult Bytes := { stdout := [7], status := 1 }
  let config : SourceConfig := { sourceSshCommand := "curl -fsS", sourceSshHost := some "host" }
  let url : Url := { protocol := "https:", host := "a", pathname := "" }
  have hfits : download.stdout.length ≤ MAX_PRINTED_BYTES := by decide
  have hemits : Emits (sshFetchBytes toyPlatform config url {})
      (firstTry (.execFile "ssh" ("host" :: sshByteArguments toyPlatform config url))
        (execFileResult (remoteByteScript download)))
      ((sshBytesAnswer (execFileResult (remoteByteScript download))).mapError fun error =>
        toSshByteError toyPlatform error {} url) :=
    emits_firstTry (sshReadBytes_eq toyPlatform config url "host") _ _ (Or.inr rfl)
  rw [sshBytesAnswer_download, if_pos hfits] at hemits
  refine ⟨download, config, url, _, by decide, notAborted_firstTry rfl _, getLast_firstTry rfl _,
    hemits, fun hfaithful => ?_⟩
  have hresult := hfaithful config "host" url {} _ _ rfl (notAborted_firstTry rfl _)
    (getLast_firstTry rfl _) hemits
  rw [if_neg (show download.status ≠ 0 by decide)] at hresult
  obtain ⟨⟨failure, hfailure⟩, _⟩ := hresult
  cases hfailure

end ReplaysFetcher
