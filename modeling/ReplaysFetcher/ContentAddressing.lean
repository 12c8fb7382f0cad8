/-
  Content addressing of raw objects.

  HEAD and PUT are two requests, so two fetchers may both find a key empty and both write it.  What
  makes this harmless is an invariant of the whole store, `ContentAddressed`: an object under the
  key of a digest has contents with that digest, and says so in its metadata.  Every PUT of
  `storeRawReplay` keeps it, and while it holds a PUT can only replace an object by itself.

  Digests can collide, contents that are ever stored must not: the results are about a CORPUS of
  contents on which SHA-256 is injective, and which contains all the source serves.
-/
import ReplaysFetcher.RawStorage

namespace ReplaysFetcher

open Effectful

variable {Text : Type}

/-! ## The invariant -/

/-- Under the key of a digest lie contents of the corpus with that digest, and metadata that
    says so. -/
def ContentAddressed (pf : Platform Text) (corpus : Set Bytes) (w : World Text) : Prop :=
  ∀ sha256 object, w.raw (rawKey sha256) = some object →
    object.bytes ∈ corpus ∧ pf.sha256Hex object.bytes = sha256 ∧ object.sha256 = some sha256

/-- No object disappears or changes. -/
def KeepsObjects (w w' : World Text) : Prop :=
  ∀ sha256 object, w.raw (rawKey sha256) = some object → w'.raw (rawKey sha256) = some object

section Invariant

variable {pf : Platform Text} {corpus : Set Bytes} {w : World Text}

theorem putRaw_rawKey (w : World Text) (sha256 sha256' : String) (object : RawObject) :
    (w.putRaw (rawKey sha256) object).raw (rawKey sha256') =
      if sha256' = sha256 then some object else w.raw (rawKey sha256') := by
  unfold World.putRaw
  by_cases h : sha256' = sha256
  · subst h
    simp only [if_true, Function.update_self]
  · rw [if_neg h]
    exact Function.update_of_ne (fun hkey => h (rawKey_injective hkey)) _ _

/-- **One PUT.** Contents of the corpus, put under their digest, keep the invariant and every
    object there is. -/
theorem ContentAddressed.putRaw (hinj : Set.InjOn pf.sha256Hex corpus)
    (h : ContentAddressed pf corpus w) {bytes : Bytes} (hbytes : bytes ∈ corpus) :
    ContentAddressed pf corpus
        (w.putRaw (rawKey (pf.sha256Hex bytes)) { bytes, sha256 := some (pf.sha256Hex bytes) }) ∧
      KeepsObjects w
        (w.putRaw (rawKey (pf.sha256Hex bytes)) { bytes, sha256 := some (pf.sha256Hex bytes) }) := by
  constructor
  · intro sha256 object hobject
    rw [putRaw_rawKey] at hobject
    split at hobject
    · rename_i heq
      obtain rfl := Option.some.inj hobject
      exact ⟨hbytes, heq.symm, by rw [heq]⟩
    · exact h sha256 object hobject
  · intro sha256 object hobject
    rw [putRaw_rawKey]
    split
    · rename_i heq
      -- what was there has the same digest, so it is the same object
      obtain ⟨hmem, hsha, hmeta⟩ := h sha256 object hobject
      have hsame : object.bytes = bytes := hinj hmem hbytes (hsha.trans heq)
      obtain ⟨contents, metadata⟩ := object
      dsimp only at hsame hmeta
      rw [hsame, hmeta, heq]
    · exact hobject

/-- What a HEAD takes for these bytes is these bytes. -/
theorem ContentAddressed.bytes_eq (hinj : Set.InjOn pf.sha256Hex corpus)
    (h : ContentAddressed pf corpus w) {bytes : Bytes} (hbytes : bytes ∈ corpus)
    {object : RawObject} (hobject : w.raw (rawKey (pf.sha256Hex bytes)) = some object) :
    object.bytes = bytes := by
  obtain ⟨hmem, hsha, _⟩ := h _ _ hobject
  exact hinj hmem hbytes hsha

end Invariant

/-! ## One fetcher among others -/

/-- The component was served these bytes. -/
def Fetched (history : List (FetchEvent Text)) (bytes : Bytes) : Prop :=
  ∃ url, ⟨.fetchBytes url, .ok bytes⟩ ∈ conversation history

section Fetcher

variable {ι : Type} {pf : Platform Text} {corpus : Set Bytes} {i : ι}
  {w w' : RecordedWorld ι Text}

/-- Others keep the invariant and the objects, and leave this fetcher's record alone. -/
def StoreRely (pf : Platform Text) (corpus : Set Bytes) (i : ι) (w w' : RecordedWorld ι Text) :
    Prop :=
  (ContentAddressed pf corpus w.1 → ContentAddressed pf corpus w'.1 ∧ KeepsObjects w.1 w'.1) ∧
    w'.2 i = w.2 i

def StoreGuar (pf : Platform Text) (corpus : Set Bytes) (i : ι) (w w' : RecordedWorld ι Text) :
    Prop :=
  (ContentAddressed pf corpus w.1 → ContentAddressed pf corpus w'.1 ∧ KeepsObjects w.1 w'.1) ∧
    ∀ j, j ≠ i → w'.2 j = w.2 j

/-- The invariant holds and `bytes` is what the fetcher was served. -/
structure Serving (pf : Platform Text) (corpus : Set Bytes) (i : ι) (bytes : Bytes)
    (w : RecordedWorld ι Text) : Prop where
  addressed : ContentAddressed pf corpus w.1
  corpus : bytes ∈ corpus
  fetched : ∀ bytes', Fetched (w.2 i) bytes' ↔ bytes' = bytes

/-- A `stored` or `skipped` result names the key of the bytes fetched, and an object with exactly
    these bytes is there. -/
def StoredWell (pf : Platform Text) (history : List (FetchEvent Text))
    (result : StoreRawReplayResult) (w : World Text) : Prop :=
  result.status = .stored ∨ result.status = .skipped →
    ∃ evidence bytes object, result = .stored evidence ∧
      (∀ bytes', Fetched history bytes' ↔ bytes' = bytes) ∧
      evidence.objectKey = rawKey (pf.sha256Hex bytes) ∧
      w.raw evidence.objectKey = some object ∧ object.bytes = bytes

theorem Serving.rely {bytes : Bytes} (h : Serving pf corpus i bytes w)
    (hr : StoreRely pf corpus i w w') : Serving pf corpus i bytes w' :=
  ⟨(hr.1 h.addressed).1, h.corpus, hr.2 ▸ h.fetched⟩

/-- An event that is no byte fetch does not change what was fetched. -/
theorem fetched_append {history : List (FetchEvent Text)} {ev : FetchEvent Text} {bytes : Bytes}
    (hev : ∀ url, ev.request ≠ .fetchBytes url) :
    Fetched (history ++ [ev]) bytes ↔ Fetched history bytes := by
  unfold Fetched
  constructor
  · rintro ⟨url, hmem⟩
    rw [conversation_append, List.mem_append] at hmem
    rcases hmem with hmem | hmem
    · exact ⟨url, hmem⟩
    · have heq := congrArg Sigma.fst (List.mem_singleton.1 hmem)
      exact absurd heq.symm (hev url)
  · rintro ⟨url, hmem⟩
    refine ⟨url, ?_⟩
    rw [conversation_append]
    exact List.mem_append_left _ hmem

/-- The fetcher's result is stable: nobody removes the object it names. -/
theorem StoredWell.rely {result : StoreRawReplayResult}
    (h : ContentAddressed pf corpus w.1 ∧ StoredWell pf (w.2 i) result w.1)
    (hr : StoreRely pf corpus i w w') :
    ContentAddressed pf corpus w'.1 ∧ StoredWell pf (w'.2 i) result w'.1 := by
  obtain ⟨haddressed, hkeeps⟩ := hr.1 h.1
  refine ⟨haddressed, ?_⟩
  intro hstatus
  obtain ⟨evidence, bytes, object, hresult, hfetched, hkey, hobject, hbytes⟩ := h.2 hstatus
  refine ⟨evidence, bytes, object, hresult, hr.2 ▸ hfetched, hkey, ?_, hbytes⟩
  rw [hkey] at hobject ⊢
  exact hkeeps _ _ hobject

variable [DecidableEq ι] {b : Backend Text}

/-- A request that changes nothing keeps the guarantee. -/
theorem storeGuar_of_eq {e : Effect Text} {r : Reply e} (hr : b.Step.recorded i w e r w')
    (hw : w'.1 = w.1) : StoreGuar pf corpus i w w' := by
  refine ⟨fun haddressed => ?_, fun j hj => Env.recorded_other hr hj⟩
  rw [hw]
  exact ⟨haddressed, fun _ _ hobject => hobject⟩

/-- A request that changes no object keeps what the fetcher knows. -/
theorem Serving.ask {bytes : Bytes} (h : Serving pf corpus i bytes w) {e : Effect Text}
    {r : Reply e} (hr : b.Step.recorded i w e r w') (hw : w'.1 = w.1)
    (he : ∀ url, e ≠ .fetchBytes url) :
    StoreGuar pf corpus i w w' ∧ Serving pf corpus i bytes w' := by
  refine ⟨storeGuar_of_eq hr hw, hw ▸ h.addressed, h.corpus, ?_⟩
  intro bytes'
  rw [Env.recorded_self hr, fetched_append he]
  exact h.fetched bytes'

/-- The S3 adapter of one fetcher, on the bytes it was served. -/
theorem safe_s3StoreRawReplay_addressed {bucket : String} {candidate : ReplayCandidate}
    (hinj : Set.InjOn pf.sha256Hex corpus) (now : Date) {bytes : Bytes}
    (h : Serving pf corpus i bytes w) :
    Proc.Safe (b.Step.recorded i) (StoreRely pf corpus i) (StoreGuar pf corpus i)
      (fun evidence w => ContentAddressed pf corpus w.1 ∧
        StoredWell pf (w.2 i) (.stored evidence) w.1) w
      (s3StoreRawReplay bucket (storageInput pf candidate now bytes)) := by
  refine safe_s3StoreRawReplay (Serving pf corpus i bytes) (Serving pf corpus i bytes)
    (fun _ _ h hr => h.rely hr) (fun _ _ h hr => h.rely hr) (fun _ _ _ h hr => StoredWell.rely h hr)
    ?_ ?_ h
  · intro w h r w' hr
    obtain ⟨hg, h'⟩ := h.ask hr hr.1.1 (fun url => by simp)
    refine ⟨hg, fun output hok => ⟨h'.addressed, fun hstatus => ?_⟩, fun error _ => ?_⟩
    · -- the object HEAD described has this digest, so it has these bytes
      subst hok
      obtain ⟨hw, hhead | ⟨_, _, _, hfailed⟩⟩ := hr.1
      · cases hobject : w.1.raw (rawKey (pf.sha256Hex bytes)) with
        | none =>
          rw [show (storageInput pf candidate now bytes).objectKey =
            rawKey (pf.sha256Hex bytes) from rfl, hobject] at hhead
          obtain ⟨_, _, hfailed⟩ := hhead
          cases hfailed
        | some object =>
          have hkey : (headEvidence bucket (storageInput pf candidate now bytes) output).objectKey =
              rawKey (pf.sha256Hex bytes) := by
            unfold headEvidence
            split <;> rfl
          refine ⟨_, bytes, object, rfl, h'.fetched, hkey, ?_,
            h.addressed.bytes_eq hinj h.corpus hobject⟩
          rw [hkey, hw]
          exact hobject
      · cases hfailed
    · split
      · exact h'
      · refine ⟨h'.addressed, fun hstatus => ?_⟩
        rcases hstatus with hstatus | hstatus <;> cases hstatus
  · intro w h r w' hr
    have hother : ∀ j, j ≠ i → w'.2 j = w.2 j := fun j hj => Env.recorded_other hr hj
    have hfetched : ∀ bytes', Fetched (w'.2 i) bytes' ↔ bytes' = bytes := by
      intro bytes'
      rw [Env.recorded_self hr, fetched_append (fun url => by simp)]
      exact h.fetched bytes'
    rcases hr.1 with ⟨hw, hreply⟩ | ⟨_, hw, error, rfl⟩
    · -- the PUT was carried out
      obtain ⟨haddressed, hkeeps⟩ := h.addressed.putRaw hinj h.corpus
      have hw' : w'.1 = w.1.putRaw (rawKey (pf.sha256Hex bytes))
          { bytes, sha256 := some (pf.sha256Hex bytes) } := hw
      refine ⟨⟨fun _ => hw' ▸ ⟨haddressed, hkeeps⟩, hother⟩, hw' ▸ haddressed, fun _ => ?_⟩
      have hkey : (putEvidence bucket (storageInput pf candidate now bytes) r).objectKey =
          rawKey (pf.sha256Hex bytes) := by
        cases r <;> rfl
      refine ⟨_, bytes, { bytes, sha256 := some (pf.sha256Hex bytes) }, rfl, hfetched, hkey, ?_, rfl⟩
      rw [hkey, hw', putRaw_rawKey, if_pos rfl]
    · refine ⟨storeGuar_of_eq hr hw, hw ▸ h.addressed, fun hstatus => ?_⟩
      rcases hstatus with hstatus | hstatus <;> cases hstatus

/-- **One fetcher.** Whatever the others do within the invariant, this one keeps it, and what it
    reports as stored is there. -/
theorem safe_storeRawReplay_addressed (bucket : String) (candidate : ReplayCandidate)
    (hinj : Set.InjOn pf.sha256Hex corpus) (hserved : ∀ url bytes, b.served url bytes → bytes ∈ corpus)
    (haddressed : ContentAddressed pf corpus w.1) (hi : w.2 i = []) :
    Proc.Safe (b.Step.recorded i) (StoreRely pf corpus i) (StoreGuar pf corpus i)
      (fun r w => ContentAddressed pf corpus w.1 ∧
        ∀ result, r = .ok result → StoredWell pf (w.2 i) result w.1) w
      (storeRawReplay pf bucket candidate) := by
  have hfailure : ∀ (now : Date) error (w : RecordedWorld ι Text) result,
      fetchFailureOutcome candidate (toISOString now) error = .ok result →
      StoredWell pf (w.2 i) result w.1 := by
    intro now error w result hresult hstatus
    cases error with
    | replayByteFetch code message =>
      cases hresult
      rcases hstatus with hstatus | hstatus <;> cases hstatus
    | _ => cases hresult
  have hstable : ∀ w w', (ContentAddressed pf corpus w.1 ∧ ∀ bytes, ¬ Fetched (w.2 i) bytes) →
      StoreRely pf corpus i w w' → ContentAddressed pf corpus w'.1 ∧ ∀ bytes, ¬ Fetched (w'.2 i) bytes :=
    fun w w' h hr => ⟨(hr.1 h.1).1, hr.2 ▸ h.2⟩
  refine safe_storeRawReplay
    (fun w => ContentAddressed pf corpus w.1 ∧ ∀ bytes, ¬ Fetched (w.2 i) bytes)
    (fun w => ContentAddressed pf corpus w.1 ∧ ∀ bytes, ¬ Fetched (w.2 i) bytes)
    (Serving pf corpus i) hstable hstable ?_ ?_ ?_ ?_ ?_ ?_
  · rintro r w w' ⟨ha, hwell⟩ hr
    refine ⟨(hr.1 ha).1, ?_⟩
    intro result hresult
    exact (StoredWell.rely ⟨ha, hwell result hresult⟩ hr).2
  · rintro w ⟨ha, hnone⟩ r w' hr
    have hw : w'.1 = w.1 := hr.1
    refine ⟨storeGuar_of_eq hr hw, hw ▸ ha, fun bytes => ?_⟩
    rw [Env.recorded_self hr, fetched_append (fun url => by simp)]
    exact hnone bytes
  · rintro error _ now w ⟨ha, _⟩
    exact ⟨ha, hfailure now error w⟩
  · rintro url _ w ⟨ha, hnone⟩ r w' hr
    obtain ⟨hw, hreply⟩ := hr.1
    refine ⟨storeGuar_of_eq hr hw, fun bytes hok => ⟨hw ▸ ha, ?_, fun bytes' => ?_⟩,
      fun error _ now => ⟨hw ▸ ha, ?_⟩⟩
    · rcases hreply with ⟨bytes', hbytes', hr'⟩ | ⟨_, _, _, hr'⟩
      · rw [hok] at hr'
        cases hr'
        exact hserved url bytes hbytes'
      · rw [hok] at hr'
        cases hr'
    · -- the one fetch on record is this one
      subst hok
      have hself := Env.recorded_self hr
      unfold Fetched at hnone ⊢
      rw [hself, conversation_append]
      constructor
      · rintro ⟨url', hmem⟩
        rcases List.mem_append.1 hmem with hmem | hmem
        · exact absurd ⟨url', hmem⟩ (hnone bytes')
        · have heq := List.mem_singleton.1 hmem
          cases heq
          rfl
      · rintro rfl
        exact ⟨url, List.mem_append_right _ (List.mem_singleton.2 rfl)⟩
    · exact hfailure now error w'
  · intro now bytes w h
    refine (safe_s3StoreRawReplay_addressed hinj now h).imp ?_
    rintro evidence w ⟨ha, hwell⟩
    refine ⟨ha, fun result hresult => ?_⟩
    cases hresult
    exact hwell
  · refine ⟨haddressed, fun bytes hfetched => ?_⟩
    rw [hi] at hfetched
    obtain ⟨url, hmem⟩ := hfetched
    exact absurd hmem List.not_mem_nil

end Fetcher

/-! ## A HEAD that disagrees -/

/-- The HEAD of a call found an object of another length, or with other checksum metadata, than the
    bytes the call was served. -/
def HeadDisagrees (pf : Platform Text) (l : Conversation Text) : Prop :=
  ∃ url bytes key output, ⟨.fetchBytes url, .ok bytes⟩ ∈ l ∧ ⟨.headObject key, .ok output⟩ ∈ l ∧
    (output.contentLength ≠ some bytes.length ∨ output.sha256 ≠ some (pf.sha256Hex bytes))

def NoPut (l : Conversation Text) : Prop :=
  ∀ key bytes sha256 r, ⟨.putObject key bytes sha256, r⟩ ∉ l

/-- Without a HEAD that found something there is nothing to disagree. -/
theorem not_headDisagrees {pf : Platform Text} {l : Conversation Text}
    (h : ∀ key output, ⟨.headObject key, .ok output⟩ ∉ l) : ¬ HeadDisagrees pf l := by
  rintro ⟨_, _, key, output, _, hmem, _⟩
  exact h key output hmem

/-- **A disagreeing HEAD.** Whatever the services answer, a call whose HEAD disagrees sends no PUT
    and reports `conflict`. -/
theorem safe_storeRawReplay_conflict (pf : Platform Text) (bucket : String)
    (candidate : ReplayCandidate) :
    Proc.Safe (Env.free : Env (Conversation Text) (Effect Text) Reply) Lts.Alone
      (fun _ l => HeadDisagrees pf l → NoPut l)
      (fun r l => HeadDisagrees pf l →
        NoPut l ∧ ∃ evidence, r = .ok (.stored evidence) ∧ evidence.status = .conflict) []
      (storeRawReplay pf bucket candidate) := by
  refine safe_storeRawReplay (fun l => l = []) (fun l => ∃ now : Date, l = [⟨.now, now⟩])
    (fun bytes l => ∃ (now : Date) (url : Url), l = [⟨.now, now⟩, ⟨.fetchBytes url, .ok bytes⟩])
    (fun _ _ h hr => by cases hr; exact h) (fun _ _ h hr => by cases hr; exact h)
    (fun _ _ _ h hr => by cases hr; exact h) ?_ ?_ ?_ ?_ rfl
  · rintro _ rfl now l' rfl
    exact ⟨fun h => absurd h (not_headDisagrees (by simp)), now, rfl⟩
  · rintro error _ now _ ⟨now', rfl⟩ h
    exact absurd h (not_headDisagrees (by simp))
  · rintro url _ _ ⟨now, rfl⟩ r l' rfl
    have hnone : ¬ HeadDisagrees pf ([⟨.now, now⟩] ++ [⟨.fetchBytes url, r⟩]) :=
      not_headDisagrees (by simp)
    refine ⟨fun h => absurd h hnone, fun bytes hok => ⟨now, url, by rw [hok]; rfl⟩, ?_⟩
    intro error _ _ h
    exact absurd h hnone
  · rintro now bytes l ⟨now', url, rfl⟩
    refine safe_s3StoreRawReplay
      (fun l => l = [⟨.now, now'⟩, ⟨.fetchBytes url, .ok bytes⟩])
      (fun l => ∃ key error, l = [⟨.now, now'⟩, ⟨.fetchBytes url, .ok bytes⟩,
        ⟨.headObject key, .error error⟩])
      (fun _ _ h hr => by cases hr; exact h) (fun _ _ h hr => by cases hr; exact h)
      (fun _ _ _ h hr => by cases hr; exact h) ?_ ?_ rfl
    · rintro _ rfl r l' rfl
      refine ⟨fun _ key bytes sha256 put => by simp, fun output hok => ?_, fun error herror => ?_⟩
      · subst hok
        rintro ⟨url', bytes', key', output', hfetch, hhead, hdiffer⟩
        obtain ⟨_, rfl⟩ : url' = url ∧ bytes' = bytes := by simpa using hfetch
        obtain ⟨_, rfl⟩ : key' = _ ∧ output' = output := by simpa using hhead
        refine ⟨fun key bytes sha256 put => by simp, _, rfl, ?_⟩
        have hnot : ¬ (output'.contentLength = some bytes'.length ∧
            output'.sha256 = some (pf.sha256Hex bytes')) := fun h =>
          hdiffer.elim (fun hl => hl h.1) (fun hs => hs h.2)
        exact congrArg RawReplayStorageEvidence.status (if_neg hnot)
      · subst herror
        have hnone : ¬ HeadDisagrees pf ([⟨.now, now'⟩, ⟨.fetchBytes url, .ok bytes⟩] ++
            [⟨.headObject (storageInput pf candidate now bytes).objectKey, .error error⟩]) :=
          not_headDisagrees (by simp)
        split
        · exact ⟨_, error, rfl⟩
        · exact fun h => absurd h hnone
    · rintro _ ⟨key, error, rfl⟩ r l' rfl
      have hnone : ¬ HeadDisagrees pf ([⟨.now, now'⟩, ⟨.fetchBytes url, .ok bytes⟩,
          ⟨.headObject key, .error error⟩] ++ [⟨.putObject
            (storageInput pf candidate now bytes).objectKey
            (storageInput pf candidate now bytes).bytes
            (storageInput pf candidate now bytes).checksum, r⟩]) :=
        not_headDisagrees (by simp)
      exact ⟨fun h => absurd h hnone, fun h => absurd h hnone⟩

/-! ## The result -/

section Result

variable {ι : Type} [DecidableEq ι] {pf : Platform Text} {corpus : Set Bytes} {b : Backend Text}

/-- **Content addressing.** Any number of fetchers, interleaved arbitrarily, keep every object under
    the key of its digest, and what one of them reports as stored or skipped is there, byte for
    byte; and whatever else writes to the store, a fetcher whose HEAD disagrees reports a conflict
    and writes nothing. -/
theorem raw_objects_are_content_addressed (hinj : Set.InjOn pf.sha256Hex corpus)
    (hserved : ∀ url bytes, b.served url bytes → bytes ∈ corpus) {w₀ : World Text}
    (haddressed : ContentAddressed pf corpus w₀) (bucket : String)
    (candidate : ι → ReplayCandidate) :
    (∀ (w : RecordedWorld ι Text) (ps : ι → Program Text (Except JsError StoreRawReplayResult)),
      Lts.PoolRuns (fun i => Proc.lts (b.Step.recorded i) _) (w₀, fun _ => [])
        (fun i => storeRawReplay pf bucket (candidate i)) w ps →
      ContentAddressed pf corpus w.1 ∧
        ∀ i result, ps i = .pure (.ok result) → StoredWell pf (w.2 i) result w.1) ∧
    ∀ (c : ReplayCandidate) (l : Conversation Text)
      (p : Program Text (Except JsError StoreRawReplayResult)),
      (Proc.lts Env.free _).Runs Lts.Alone [] (storeRawReplay pf bucket c) l p →
      HeadDisagrees pf l → NoPut l ∧ ∀ r, p = .pure r →
        ∃ evidence, r = .ok (.stored evidence) ∧ evidence.status = .conflict := by
  constructor
  · intro w ps hr
    have hown : ∀ i j : ι, i ≠ j → ∀ w w', StoreGuar pf corpus j w w' → StoreRely pf corpus i w w' :=
      fun i j hij w w' h => ⟨h.1, h.2 i hij⟩
    have hsafe := fun i : ι => safe_storeRawReplay_addressed (i := i) bucket (candidate i) hinj
      hserved (w := (w₀, fun _ => [])) haddressed rfl
    refine ⟨?_, fun i result hp => ?_⟩
    · exact hr.invariant hown (fun i => hsafe i) (I := fun w => ContentAddressed pf corpus w.1)
        (fun i w w' h ha => (h.1 ha).1) haddressed
    · have hdone := hr.safe hown (fun i => hsafe i) i
      rw [hp] at hdone
      exact (Proc.Safe.of_pure hdone).2 result rfl
  · intro c l p hr hdisagrees
    have hsafe := safe_storeRawReplay_conflict pf bucket c
    refine ⟨?_, fun r hp => ?_⟩
    · exact hsafe.always (I := fun l => HeadDisagrees pf l → NoPut l)
        (fun _ _ _ h => h) (fun _ _ h hr => hr ▸ h)
        (fun h => absurd h (not_headDisagrees (by simp))) hr hdisagrees
    · subst hp
      exact (Proc.Safe.of_run hsafe hr hdisagrees).2

/-! ## Two fetchers of one replay -/

/-- A fetcher of the one replay there is. -/
def toyFetcher (_ : Bool) : Program (Option Json) (Except JsError StoreRawReplayResult) :=
  storeRawReplay toyPlatform "bucket" toyCandidate

/-- Both fetch the replay, the first one stores it, and the second one finds it there. -/
def toyStored : RecordedWorld Bool (Option Json) ×
    (Bool → Program (Option Json) (Except JsError StoreRawReplayResult)) :=
  Proc.execTurns (recordServe toyScript.serve) [(false, 3), (true, 2), (false, 1), (true, 1)]
    ((emptyWorld, fun _ => []), toyFetcher)

theorem poolRuns_toyStored :
    Lts.PoolRuns (fun i : Bool => Proc.lts (toyServices.Step.recorded i) _)
      (emptyWorld, fun _ => []) toyFetcher toyStored.1 toyStored.2 :=
  Proc.poolRuns_execTurns (fun _ => recorded_serve step_toyScript) _
    ((emptyWorld, fun _ => []), toyFetcher)

/-- A fetcher that finds an object without a checksum under the key. -/
def toyClash : Conversation (Option Json) × Program (Option Json) (Except JsError StoreRawReplayResult) :=
  Proc.exec (fun l e =>
    let reply : Reply e := match e with
      | .headObject _ => .ok { contentLength := some 1 }
      | e => (toyScript.serve emptyWorld e).1
    (reply, l ++ [⟨e, reply⟩])) 3 ([], toyFetcher false)

theorem runs_toyClash : (Proc.lts Env.free _).Runs Lts.Alone [] (toyFetcher false) toyClash.1
    toyClash.2 :=
  Proc.runs_exec (fun _ _ => rfl) 3 ([], toyFetcher false)

theorem raw_objects_are_content_addressed_two :
    (∃ stored skipped, toyStored.2 false = .pure (.ok stored) ∧ stored.status = .stored ∧
      StoredWell toyPlatform (toyStored.1.2 false) stored toyStored.1.1 ∧
      toyStored.2 true = .pure (.ok skipped) ∧ skipped.status = .skipped ∧
      StoredWell toyPlatform (toyStored.1.2 true) skipped toyStored.1.1) ∧
    ContentAddressed toyPlatform {[7]} toyStored.1.1 ∧
    NoPut toyClash.1 ∧ ∃ evidence, toyClash.2 = .pure (.ok (.stored evidence)) ∧
      evidence.status = .conflict := by
  have hinj : Set.InjOn toyPlatform.sha256Hex {[7]} := Set.injOn_singleton _ _
  have hserved : ∀ url bytes, toyServices.served url bytes → bytes ∈ ({[7]} : Set Bytes) :=
    fun _ _ h => h
  have haddressed : ContentAddressed toyPlatform {[7]} emptyWorld := fun _ _ h => by cases h
  obtain ⟨hfetchers, hclash⟩ := raw_objects_are_content_addressed hinj hserved haddressed "bucket"
    fun _ : Bool => toyCandidate
  obtain ⟨ha, hwell⟩ := hfetchers _ _ poolRuns_toyStored
  have hdisagrees : HeadDisagrees toyPlatform toyClash.1 :=
    ⟨_, [7], _, _, List.mem_cons_of_mem _ List.mem_cons_self,
      List.mem_cons_of_mem _ (List.mem_cons_of_mem _ List.mem_cons_self), Or.inr (by decide)⟩
  obtain ⟨hnone, hconflict⟩ := hclash toyCandidate _ _ runs_toyClash hdisagrees
  obtain ⟨evidence, hevidence, hstatus⟩ := hconflict _ rfl
  exact ⟨⟨_, _, rfl, rfl, hwell false _ rfl, rfl, rfl, hwell true _ rfl⟩, ha, hnone, evidence,
    congrArg _ hevidence, hstatus⟩

end Result

end ReplaysFetcher
