/-
  The checkpoint over whole histories of one writer.

  Runs follow one another against one checkpoint object; each ends or is killed between two of its
  requests, and a PUT may succeed, fail, or succeed and report a failure.  Whatever happens, every
  version ever stored is read back as it was written, accounts for exactly the pages 1 to
  `lastCompletedPage`, and was sent after each of them had been fanned out; and an acknowledged
  write has stored, on every schema field, the checkpoint it was given.

  A version is read back while its numbers are safe integers (`ReadBackAs`): a page number or a count
  of 2^53 would be written and then refused.  The rest holds of every version, read back or not.

  The invariant has three parts.
  1. `Covers`: the pages map is about exactly the pages done, and the record shows their fan-outs.
  2. `Held`: the ETag the run holds is still good, OR the current version is an earlier checkpoint of
     this very run (`Own`), OR it is not read back (`Unreadable`), and then no PUT replaces it.  A
     lost acknowledgement leads from the first case to the others.
  3. The merge of a checkpoint with an earlier one of the same run changes no schema field
     (`onSchema_merge_eq_left`), so the second case is repaired by one re-read, and the loop may go
     round as often as it likes without what it intends ever changing.
-/
import ReplaysFetcher.Wiring

namespace ReplaysFetcher

open Effectful

variable {Text : Type}

/-! ## What a stored checkpoint stands for -/

section Record

variable (pf : Platform Text) (sourceUrl : Url)

/-- The record shows that `page` was listed with these candidates. -/
def Reported (record : List (FetchEvent Text)) (page : ℕ) (candidates : List ReplayCandidate) :
    Prop :=
  ∃ (input : DiscoverInput) (report : DiscoveryReport),
    (⟨.discoverReplays input, .ok report⟩ : Σ e : Effect Text, Reply e) ∈ conversation record ∧
    input.sourceUrl = pf.toPageUrl sourceUrl page ∧ report.ok = true ∧
    report.candidates = candidates

/-- The record shows that `page` was listed, and that its candidates were fanned out to the end,
    with the counts of `entry`. -/
def FannedOut (record : List (FetchEvent Text)) (page : ℕ) (entry : CheckpointPage) : Prop :=
  ∃ (input : IngestPageInput (Effect Text) Reply) (bucket : String) (result : IngestPageResult)
    (l : Conversation Text),
    Reported pf sourceUrl record page input.candidates ∧
    input.storeRawReplay = storeRawReplay pf bucket ∧ input.stageRawReplay = stageRawReplay pf ∧
    input.existsBySourceIdentity = none ∧
    Emits (ingestPage input) l (.ok result) ∧ l.Sublist (conversation record) ∧
    entry.onSchema = (runningPage result.counts).onSchema

/-- The pages map is about the pages 1 to `last`, and the record shows their fan-outs. -/
structure Covers (record : List (FetchEvent Text)) (last : ℕ) (pages : JsRecord CheckpointPage) :
    Prop where
  keys : ∀ key, key ∈ pages ↔ ∃ page, 1 ≤ page ∧ page ≤ last ∧ key = toString page
  status : ∀ key entry, pages.lookup key = some entry → entry.status ≠ ""
  fannedOut : ∀ page entry, pages.lookup (toString page) = some entry →
    FannedOut pf sourceUrl record page entry

/-- A checkpoint that tells the truth about the record. -/
structure WellFormed (record : List (FetchEvent Text)) (c : Checkpoint) : Prop where
  pages : Covers pf sourceUrl record c.lastCompletedPage c.pages
  counts : c.counts = aggregatePageCounts c.pages
  discovered : c.discoveredLastPage = c.lastCompletedPage

/-- The body is read back as this checkpoint, on every schema field, if its numbers are safe integers,
    and as nothing else. -/
def ReadBackAs (body : Text) (c : Checkpoint) : Prop :=
  ∀ read, parseCheckpoint pf body = some read ↔ read = c.onSchema ∧ c.Safe

/-- The version was sent in a PUT, is read back as it was written, and told the truth about what had
    been done before the PUT. -/
def VersionWell (key : String) (record : List (FetchEvent Text)) (version : Version Text) : Prop :=
  ∃ (c : Checkpoint) (before : List (FetchEvent Text)) (ev : FetchEvent Text)
    (after : List (FetchEvent Text)) (condition : PutCondition),
    record = before ++ ev :: after ∧ ev.request = .putCheckpoint key version.body condition ∧
    version.body = stringifyCheckpoint pf c ∧ ReadBackAs pf version.body c ∧
    WellFormed pf sourceUrl before c.onSchema

/-- The current version is this checkpoint, on every schema field, and is read back as such. -/
def StoredAs (key : String) (target : Checkpoint) (w : World Text) : Prop :=
  ∃ version c, w.current key = some version ∧ version.body = stringifyCheckpoint pf c ∧
    c.onSchema = target.onSchema ∧ ReadBackAs pf version.body target

/-- An acknowledged write has stored the checkpoint it was given. -/
def AckWell (key : String) (ev : FetchEvent Text) : Prop :=
  ∀ input, ev.request = .mark (.writeAck input) → StoredAs pf key input.checkpoint ev.before

/-- Every version ever stored, and every acknowledgement so far. -/
structure Truthful (key : String) (w : RecordedWorld Unit Text) : Prop where
  stored : ∀ version ∈ w.1.checkpoints key, VersionWell pf sourceUrl key (w.2 ()) version
  acked : ∀ ev ∈ w.2 (), AckWell pf key ev

end Record

section Mono

variable {pf : Platform Text} {sourceUrl : Url} {key : String}
  {record more : List (FetchEvent Text)} {page last : ℕ} {entry : CheckpointPage}
  {pages : JsRecord CheckpointPage}

theorem Reported.mono {candidates : List ReplayCandidate}
    (h : Reported pf sourceUrl record page candidates) :
    Reported pf sourceUrl (record ++ more) page candidates := by
  obtain ⟨input, report, hmem, hrest⟩ := h
  refine ⟨input, report, ?_, hrest⟩
  rw [conversation_append]
  exact List.mem_append_left _ hmem

theorem FannedOut.mono (h : FannedOut pf sourceUrl record page entry) :
    FannedOut pf sourceUrl (record ++ more) page entry := by
  obtain ⟨input, bucket, result, l, hreported, hstore, hstage, hgate, hemits, hl, hentry⟩ := h
  refine ⟨input, bucket, result, l, hreported.mono, hstore, hstage, hgate, hemits, ?_, hentry⟩
  rw [conversation_append]
  exact hl.trans (List.sublist_append_left _ _)

theorem FannedOut.onSchema (h : FannedOut pf sourceUrl record page entry) :
    FannedOut pf sourceUrl record page entry.onSchema := h

theorem Covers.mono (h : Covers pf sourceUrl record last pages) :
    Covers pf sourceUrl (record ++ more) last pages :=
  ⟨h.keys, h.status, fun page entry hentry => (h.fannedOut page entry hentry).mono⟩

theorem Covers.onSchema (h : Covers pf sourceUrl record last pages) :
    Covers pf sourceUrl record last (pages.map CheckpointPage.onSchema) := by
  refine ⟨fun key => ?_, fun key entry hentry => ?_, fun page entry hentry => ?_⟩
  · rw [JsRecord.mem_map]
    exact h.keys key
  · rw [JsRecord.lookup_map] at hentry
    obtain ⟨entry', hentry', rfl⟩ := Option.map_eq_some_iff.1 hentry
    exact h.status key entry' hentry'
  · rw [JsRecord.lookup_map] at hentry
    obtain ⟨entry', hentry', rfl⟩ := Option.map_eq_some_iff.1 hentry
    exact (h.fannedOut page entry' hentry').onSchema

/-- The pages have numbers for keys, and statuses. -/
theorem Covers.valid (h : Covers pf sourceUrl record last pages) (key : String)
    (entry : CheckpointPage) (hentry : pages.lookup key = some entry) :
    key ≠ PROTO_KEY ∧ entry.status ≠ "" := by
  obtain ⟨page, _, _, rfl⟩ := (h.keys key).1 (Finmap.mem_of_lookup_eq_some hentry)
  exact ⟨natToString_ne_proto page, h.status _ entry hentry⟩

/-- What is written is read back as what it is on the schema. -/
theorem readBackAs_stringify {c target : Checkpoint} (hvalid : c.Valid)
    (hsame : c.onSchema = target.onSchema) :
    ReadBackAs pf (stringifyCheckpoint pf c) target := by
  intro read
  rw [parseCheckpoint_stringify_eq pf hvalid, hsame, ← Checkpoint.safe_onSchema, hsame,
    Checkpoint.safe_onSchema, eq_comm]

/-- No page, no entry. -/
theorem Covers.empty : Covers pf sourceUrl record 0 ∅ := by
  refine ⟨fun key => ⟨fun h => absurd h Finmap.notMem_empty, ?_⟩, fun key entry h => ?_,
    fun page entry h => ?_⟩
  · rintro ⟨page, hpos, hle, _⟩
    omega
  · rw [Finmap.lookup_empty] at h
    cases h
  · rw [Finmap.lookup_empty] at h
    cases h

/-- The entry of the next page is not there yet. -/
theorem Covers.ne_next (h : Covers pf sourceUrl record last pages) {key : String}
    (hmem : key ∈ pages) : key ≠ toString (last + 1) := by
  rintro rfl
  obtain ⟨page, _, hle, heq⟩ := (h.keys _).1 hmem
  have := natToString_injective heq
  omega

/-- One page more. -/
theorem Covers.insert (h : Covers pf sourceUrl record last pages) (hstatus : entry.status ≠ "")
    (hentry : FannedOut pf sourceUrl record (last + 1) entry) :
    Covers pf sourceUrl record (last + 1) (pages.insert (toString (last + 1)) entry) := by
  refine ⟨fun key => ?_, fun key entry' hlookup => ?_, fun page entry' hlookup => ?_⟩
  · rw [Finmap.mem_insert, h.keys]
    constructor
    · rintro (rfl | ⟨page, hpos, hle, rfl⟩)
      · exact ⟨last + 1, by omega, le_refl _, rfl⟩
      · exact ⟨page, hpos, by omega, rfl⟩
    · rintro ⟨page, hpos, hle, rfl⟩
      -- the pages up to `last + 1` are the new one and those up to `last`
      rcases Nat.lt_or_ge last page with hlt | hge
      · exact Or.inl (by rw [show page = last + 1 by omega])
      · exact Or.inr ⟨page, hpos, hge, rfl⟩
  · by_cases hkey : key = toString (last + 1)
    · subst hkey
      rw [Finmap.lookup_insert] at hlookup
      obtain rfl := Option.some.inj hlookup
      exact hstatus
    · rw [Finmap.lookup_insert_of_ne _ hkey] at hlookup
      exact h.status key entry' hlookup
  · -- keys are decimals, so one key is one page
    by_cases hkey : toString page = toString (last + 1)
    · obtain rfl := natToString_injective hkey
      rw [Finmap.lookup_insert] at hlookup
      obtain rfl := Option.some.inj hlookup
      exact hentry
    · rw [Finmap.lookup_insert_of_ne _ hkey] at hlookup
      exact h.fannedOut page entry' hlookup

theorem VersionWell.mono {version : Version Text} (h : VersionWell pf sourceUrl key record version) :
    VersionWell pf sourceUrl key (record ++ more) version := by
  obtain ⟨c, before, ev, after, condition, rfl, hrest⟩ := h
  exact ⟨c, before, ev, after ++ more, condition, by rw [List.append_assoc]; rfl, hrest⟩

/-- Sums over pages do not see what is off the schema. -/
theorem aggregatePageCounts_onSchema (pages : JsRecord CheckpointPage) :
    aggregatePageCounts (pages.map CheckpointPage.onSchema) = aggregatePageCounts pages := by
  have hkeys : (pages.map CheckpointPage.onSchema).keys = pages.keys := by
    ext key
    rw [Finmap.mem_keys, Finmap.mem_keys, JsRecord.mem_map]
  have hsum : ∀ f : CheckpointPage → ℕ, (∀ entry, f entry.onSchema = f entry) →
      ((pages.map CheckpointPage.onSchema).values.map f).sum = (pages.values.map f).sum := by
    intro f hf
    rw [JsRecord.sum_values, JsRecord.sum_values, hkeys]
    refine Finset.sum_congr rfl fun key _ => ?_
    rw [JsRecord.lookup_map]
    cases pages.lookup key with
    | none => rfl
    | some entry => exact hf entry
  unfold aggregatePageCounts
  rw [hsum _ fun _ => rfl, hsum _ fun _ => rfl, hsum _ fun _ => rfl, hsum _ fun _ => rfl]

end Mono

/-! ## What the run holds -/

section Hold

variable {pf : Platform Text} {sourceUrl : Url} {key : String} {conditionalWrites : Bool}
  {q : Progress} {w w' : World Text}

/-- A page checkpoint of the run at `q`, or of an earlier stage of it. -/
structure Earlier (c : Checkpoint) (q : Progress) : Prop where
  last : c.lastCompletedPage ≤ q.lastCompletedPage
  discovered : c.discoveredLastPage ≤ q.lastCompletedPage
  status : c.status = .running
  pages : ∀ key entry, c.pages.lookup key = some entry →
    (q.pages.lookup key).map CheckpointPage.onSchema = some entry.onSchema

/-- The current version is an earlier checkpoint of this run. -/
def Own (pf : Platform Text) (key : String) (q : Progress) (w : World Text) : Prop :=
  ∃ version c, w.current key = some version ∧ version.body = stringifyCheckpoint pf c ∧
    c.Valid ∧ Earlier c q

/-- The current version is not read back. -/
def Unreadable (pf : Platform Text) (key : String) (w : World Text) : Prop :=
  ∃ version, w.current key = some version ∧ parseCheckpoint pf version.body = none

/-- The current version is one a refused PUT may meet: an earlier checkpoint of this run, or one that
    is not read back. -/
def Met (pf : Platform Text) (key : String) (q : Progress) (w : World Text) : Prop :=
  Own pf key q w ∨ Unreadable pf key w

/-- A PUT under this ETag lands, or would replace such a version. -/
def Held (pf : Platform Text) (key : String) (conditionalWrites : Bool) (etag : Option String)
    (q : Progress) (w : World Text) : Prop :=
  (conditionalHeader etag conditionalWrites).holds (w.current key) ∨ Met pf key q w

theorem Met.of_checkpoints (h : Met pf key q w) (hw : w'.checkpoints = w.checkpoints) :
    Met pf key q w' := by
  unfold Met Own Unreadable World.current at h ⊢
  rwa [hw]

/-- The current version is read back as an earlier checkpoint of this run, or not at all. -/
theorem Met.cases (h : Met pf key q w) : ∃ version, w.current key = some version ∧
    (parseCheckpoint pf version.body = none ∨ ∃ remote, Earlier remote q ∧
      parseCheckpoint pf version.body = some remote.onSchema) := by
  rcases h with ⟨version, c, hcurrent, hbody, hvalid, hearlier⟩ | ⟨version, hcurrent, hnone⟩
  · refine ⟨version, hcurrent, ?_⟩
    cases hparse : parseCheckpoint pf version.body with
    | none => exact Or.inl rfl
    | some read =>
      rw [hbody] at hparse
      obtain ⟨rfl, _⟩ := (parseCheckpoint_stringify_eq pf hvalid).1 hparse
      exact Or.inr ⟨c, hearlier, rfl⟩
  · exact ⟨version, hcurrent, Or.inl hnone⟩

theorem Held.of_checkpoints {etag : Option String} (h : Held pf key conditionalWrites etag q w)
    (hw : w'.checkpoints = w.checkpoints) : Held pf key conditionalWrites etag q w' := by
  unfold Held World.current at h ⊢
  rw [hw]
  exact h.imp_right fun hmet => hmet.of_checkpoints hw

/-- The ETag of the current version is good. -/
theorem holds_conditionalHeader_some {version : Version Text} (h : w.current key = some version)
    (conditionalWrites : Bool) :
    (conditionalHeader (some version.etag) conditionalWrites).holds (w.current key) := by
  unfold conditionalHeader
  split
  · exact ⟨version, h, rfl⟩
  · trivial

/-- No ETag is good for an object that is not there. -/
theorem holds_conditionalHeader_none (h : w.current key = none) (conditionalWrites : Bool) :
    (conditionalHeader none conditionalWrites).holds (w.current key) := by
  unfold conditionalHeader
  split
  · exact h
  · trivial

/-- A finished page leaves what was earlier earlier. -/
theorem Earlier.advance {record : List (FetchEvent Text)} {c : Checkpoint} (h : Earlier c q)
    (hq : Covers pf sourceUrl record q.lastCompletedPage q.pages) (counts : IngestPageCounts) :
    Earlier c (q.advance counts) := by
  refine ⟨le_trans h.last (Nat.le_succ _), le_trans h.discovered (Nat.le_succ _), h.status, ?_⟩
  intro key entry hentry
  have hlookup := h.pages key entry hentry
  have hmem : key ∈ q.pages := by
    rw [← Finmap.lookup_isSome]
    cases hkey : q.pages.lookup key with
    | none =>
      rw [hkey] at hlookup
      cases hlookup
    | some entry => rfl
  show ((q.pages.insert (toString (q.lastCompletedPage + 1)) _).lookup key).map _ = _
  rw [Finmap.lookup_insert_of_ne _ (hq.ne_next hmem)]
  exact hlookup

theorem Held.withEtag {etag : Option String} (h : Held pf key conditionalWrites etag q w) :
    Held pf key conditionalWrites etag (q.withEtag etag) w := by
  refine h.imp_right fun hmet => hmet.imp_left ?_
  rintro ⟨version, c, hcurrent, hbody, hvalid, hearlier⟩
  exact ⟨version, c, hcurrent, hbody, hvalid,
    hearlier.last, hearlier.discovered, hearlier.status, hearlier.pages⟩

theorem Held.advance {record : List (FetchEvent Text)} {etag : Option String}
    (h : Held pf key conditionalWrites etag q w)
    (hq : Covers pf sourceUrl record q.lastCompletedPage q.pages) (counts : IngestPageCounts) :
    Held pf key conditionalWrites etag (q.advance counts) w := by
  refine h.imp_right fun hmet => hmet.imp_left ?_
  rintro ⟨version, c, hcurrent, hbody, hvalid, hearlier⟩
  exact ⟨version, c, hcurrent, hbody, hvalid, hearlier.advance hq counts⟩

/-- The checkpoint the run means to store at `q`. -/
structure Intends (target : Checkpoint) (q : Progress) : Prop where
  valid : target.Valid
  pages : target.pages = q.pages
  last : target.lastCompletedPage = q.lastCompletedPage
  discovered : target.discoveredLastPage = q.lastCompletedPage
  counts : target.counts = aggregatePageCounts q.pages

theorem statusRank_running_le (status : CheckpointStatus) :
    statusRank .running ≤ statusRank status := by
  cases status <;> decide

/-- Merging with an earlier checkpoint of the run does not change what is meant. -/
theorem Intends.merge {target c remote : Checkpoint} (h : Intends target q)
    (hc : c.onSchema = target.onSchema) (hremote : Earlier remote q) :
    (mergeCheckpoints c remote.onSchema).onSchema = target.onSchema := by
  have hlast : c.lastCompletedPage = q.lastCompletedPage :=
    (congrArg Checkpoint.lastCompletedPage hc).trans h.last
  have hdiscovered : c.discoveredLastPage = q.lastCompletedPage :=
    (congrArg Checkpoint.discoveredLastPage hc).trans h.discovered
  have hpages : ∀ key, (c.pages.lookup key).map CheckpointPage.onSchema =
      (q.pages.lookup key).map CheckpointPage.onSchema := by
    intro key
    have hmap : c.pages.map CheckpointPage.onSchema = target.pages.map CheckpointPage.onSchema :=
      congrArg Checkpoint.pages hc
    rw [h.pages] at hmap
    have hlookup := congrArg (fun r : JsRecord CheckpointPage => r.lookup key) hmap
    rwa [JsRecord.lookup_map, JsRecord.lookup_map] at hlookup
  rw [← hc]
  refine onSchema_merge_eq_left ?_ ?_ ?_ ?_
  · rw [hlast]
    exact hremote.last
  · intro _
    show statusRank remote.status ≤ statusRank c.status
    rw [hremote.status]
    exact statusRank_running_le _
  · rw [hdiscovered]
    exact hremote.discovered
  · intro key entry hentry
    have hentry' : (remote.pages.lookup key).map CheckpointPage.onSchema = some entry := by
      rw [← JsRecord.lookup_map]
      exact hentry
    obtain ⟨entry', hlookup, rfl⟩ := Option.map_eq_some_iff.1 hentry'
    rw [hpages key]
    exact hremote.pages key entry' hlookup

/-- What is meant tells the truth. -/
theorem Intends.wellFormed {record : List (FetchEvent Text)} {target : Checkpoint}
    (h : Intends target q) (hq : Covers pf sourceUrl record q.lastCompletedPage q.pages) :
    WellFormed pf sourceUrl record target.onSchema := by
  refine ⟨?_, ?_, ?_⟩
  · show Covers pf sourceUrl record target.lastCompletedPage
      (target.pages.map CheckpointPage.onSchema)
    rw [h.last, h.pages]
    exact hq.onSchema
  · show target.counts = aggregatePageCounts (target.pages.map CheckpointPage.onSchema)
    rw [aggregatePageCounts_onSchema, h.counts, h.pages]
  · exact h.discovered.trans h.last.symm

end Hold

/-! ## Steps that leave the checkpoint alone -/

section Steps

variable {b : Backend Text} {pf : Platform Text} {sourceUrl : Url} {key : String}

theorem Backend.checkpoints_of_offCheckpoint {w w' : World Text} {e : Effect Text} {r : Reply e}
    (he : OffCheckpoint e) (h : b.Step w e r w') : w'.checkpoints = w.checkpoints := by
  have hsame : ∀ {w'' : World Text}, w'' = w → w''.checkpoints = w.checkpoints := by
    rintro _ rfl
    rfl
  -- the effects that change the world are named first; the others leave all of it as it is
  cases e with
  | putObject key bytes sha256 =>
    rcases h with ⟨rfl, _⟩ | ⟨_, hw, _⟩
    · rfl
    · exact hsame hw
  | insertStaging payload =>
    rcases h with h | ⟨_, hw, _⟩
    · split at h
      · exact hsame h.1
      · split at h
        · exact hsame h.1
        · obtain ⟨id, rfl, _⟩ := h
          rfl
    · exact hsame hw
  | getCheckpoint _ | putCheckpoint _ _ _ | mark _ => exact he.elim
  | now | sleep _ | random | awaitFloor | log _ => exact hsame h
  | putEvidence _ _ | writeEvidenceFile _ _ => exact hsame h
  | createRunId _ | shouldStop | writeHeartbeat _ _ => exact hsame h
  | discoverReplays _ | fetchText _ | fetchBytes _ | headObject _ => exact hsame h.1
  | findBySourceIdentity _ _ | findByObjectIdentity _ _ | existsBySourceIdentity _ _ =>
    exact hsame h.1

/-- Others may do anything but touch the checkpoint. -/
def Aside (w w' : RecordedWorld Unit Text) : Prop :=
  w'.1.checkpoints = w.1.checkpoints ∧
    ∃ more, w'.2 () = w.2 () ++ more ∧ ∀ ev ∈ more, OffCheckpoint ev.request

/-- The run's own steps keep the truth. -/
def KeepsTruth (pf : Platform Text) (sourceUrl : Url) (key : String)
    (w w' : RecordedWorld Unit Text) : Prop :=
  Truthful pf sourceUrl key w → Truthful pf sourceUrl key w'

theorem ackWell_of_off {ev : FetchEvent Text} (h : OffCheckpoint ev.request) : AckWell pf key ev := by
  intro input hrequest
  rw [hrequest] at h
  exact h.elim

theorem Truthful.aside {w w' : RecordedWorld Unit Text} (h : Truthful pf sourceUrl key w)
    (hr : Aside w w') : Truthful pf sourceUrl key w' := by
  obtain ⟨hcheckpoints, more, hmore, hoff⟩ := hr
  refine ⟨fun version hversion => ?_, fun ev hev => ?_⟩
  · rw [hcheckpoints] at hversion
    rw [hmore]
    exact (h.stored version hversion).mono
  · rw [hmore] at hev
    rcases List.mem_append.1 hev with hev | hev
    · exact h.acked ev hev
    · exact ackWell_of_off (hoff ev hev)

/-- A request that leaves the checkpoint alone is a step aside. -/
theorem aside_of_recorded {w w' : RecordedWorld Unit Text} {e : Effect Text} {r : Reply e}
    (he : OffCheckpoint e) (h : b.Step.recorded () w e r w') : Aside w w' := by
  refine ⟨Backend.checkpoints_of_offCheckpoint he h.1, _, Env.recorded_self h, ?_⟩
  intro ev hev
  rw [List.mem_singleton.1 hev]
  exact he

/-- So is a note that is not an acknowledgement, and a read, as far as the truth goes. -/
theorem Truthful.ask {w w' : RecordedWorld Unit Text} {e : Effect Text} {r : Reply e}
    (h : Truthful pf sourceUrl key w) (hr : b.Step.recorded () w e r w')
    (hw : w'.1.checkpoints = w.1.checkpoints)
    (hack : AckWell pf key ⟨w.1, e, r, w'.1⟩) : Truthful pf sourceUrl key w' := by
  have hself := Env.recorded_self hr
  refine ⟨fun version hversion => ?_, fun ev hev => ?_⟩
  · rw [hw] at hversion
    rw [hself]
    exact (h.stored version hversion).mono
  · rw [hself] at hev
    rcases List.mem_append.1 hev with hev | hev
    · exact h.acked ev hev
    · rw [List.mem_singleton.1 hev]
      exact hack

end Steps

/-! ## One write of the run -/

section Write

variable {b : Backend Text} {pf : Platform Text} {sourceUrl : Url} {key slug : String}
  {options : CheckpointStoreOptions} {q : Progress} {target : Checkpoint}

/-- The truth is told, and the run's pages are on record. -/
structure Good (pf : Platform Text) (sourceUrl : Url) (key : String) (q : Progress)
    (w : RecordedWorld Unit Text) : Prop where
  truth : Truthful pf sourceUrl key w
  covers : Covers pf sourceUrl (w.2 ()) q.lastCompletedPage q.pages

/-- Between two pages: the run may write under the ETag it holds. -/
structure AtHead (pf : Platform Text) (sourceUrl : Url) (key : String) (conditionalWrites : Bool)
    (q : Progress) (w : RecordedWorld Unit Text) : Prop extends Good pf sourceUrl key q w where
  held : Held pf key conditionalWrites q.etag q w.1

/-- In the loop of a write, before a PUT or, with the stored version known, before a re-read. -/
structure Writes (pf : Platform Text) (sourceUrl : Url) (key : String) (conditionalWrites : Bool)
    (q : Progress) (target c : Checkpoint) (w : RecordedWorld Unit Text) : Prop
    extends AtHead pf sourceUrl key conditionalWrites q w where
  valid : c.Valid
  same : c.onSchema = target.onSchema

theorem StoredAs.of_checkpoints {w w' : World Text} (h : StoredAs pf key target w)
    (hw : w'.checkpoints = w.checkpoints) : StoredAs pf key target w' := by
  unfold StoredAs World.current at h ⊢
  rwa [hw]

variable {conditionalWrites : Bool} {c : Checkpoint} {w w' : RecordedWorld Unit Text}

theorem Good.aside (h : Good pf sourceUrl key q w) (hr : Aside w w') :
    Good pf sourceUrl key q w' := by
  obtain ⟨_, more, hmore, _⟩ := id hr
  refine ⟨h.truth.aside hr, ?_⟩
  rw [hmore]
  exact h.covers.mono

theorem AtHead.aside (h : AtHead pf sourceUrl key conditionalWrites q w) (hr : Aside w w') :
    AtHead pf sourceUrl key conditionalWrites q w' :=
  ⟨h.toGood.aside hr, h.held.of_checkpoints hr.1⟩

theorem Writes.aside (h : Writes pf sourceUrl key conditionalWrites q target c w)
    (hr : Aside w w') : Writes pf sourceUrl key conditionalWrites q target c w' :=
  ⟨h.toAtHead.aside hr, h.valid, h.same⟩

/-- A request that stores nothing and acknowledges nothing wrong. -/
theorem Good.ask (h : Good pf sourceUrl key q w) {e : Effect Text} {r : Reply e}
    (hr : b.Step.recorded () w e r w') (hw : w'.1.checkpoints = w.1.checkpoints)
    (hack : AckWell pf key ⟨w.1, e, r, w'.1⟩) : Good pf sourceUrl key q w' := by
  refine ⟨h.truth.ask hr hw hack, ?_⟩
  rw [Env.recorded_self hr]
  exact h.covers.mono

/-- What is written at `q` is an earlier checkpoint from then on, unless it is the last one. -/
theorem Intends.earlier (h : Intends target q) (hrunning : target.status = .running)
    (hc : c.onSchema = target.onSchema) : Earlier c q := by
  have hlast : c.lastCompletedPage = q.lastCompletedPage :=
    (congrArg Checkpoint.lastCompletedPage hc).trans h.last
  have hdiscovered : c.discoveredLastPage = q.lastCompletedPage :=
    (congrArg Checkpoint.discoveredLastPage hc).trans h.discovered
  refine ⟨hlast.le, hdiscovered.le, (congrArg Checkpoint.status hc).trans hrunning, ?_⟩
  intro key entry hentry
  have hmap : c.pages.map CheckpointPage.onSchema = q.pages.map CheckpointPage.onSchema := by
    rw [← h.pages]
    exact congrArg Checkpoint.pages hc
  have hlookup := congrArg (fun r : JsRecord CheckpointPage => r.lookup key) hmap
  simp only [JsRecord.lookup_map] at hlookup
  rw [← hlookup, hentry]
  rfl

/-- A PUT that lands. -/
theorem Good.put (h : Good pf sourceUrl key q w) (htarget : Intends target q) (hvalid : c.Valid)
    (hsame : c.onSchema = target.onSchema) {etag : String} {condition : PutCondition}
    {r : Except JsError (Option String)}
    (hr : b.Step.recorded () w (.putCheckpoint key (stringifyCheckpoint pf c) condition) r w')
    (hafter : w'.1 = w.1.pushVersion key { body := stringifyCheckpoint pf c, etag }) :
    Good pf sourceUrl key q w' := by
  have hself := Env.recorded_self hr
  refine ⟨⟨fun version hversion => ?_, fun ev hev => ?_⟩, ?_⟩
  · rw [hafter, World.checkpoints_pushVersion] at hversion
    rcases List.mem_cons.1 hversion with rfl | hmem
    · refine ⟨c, w.2 (), _, [], condition, hself, rfl, rfl, readBackAs_stringify hvalid rfl, ?_⟩
      rw [hsame]
      exact htarget.wellFormed h.covers
    · rw [hself]
      exact (h.truth.stored version hmem).mono
  · rw [hself] at hev
    rcases List.mem_append.1 hev with hev | hev
    · exact h.truth.acked ev hev
    · rw [List.mem_singleton.1 hev]
      rintro input ⟨⟩
  · rw [hself]
    exact h.covers.mono

/-- What the loop of a write has to say in the end. -/
def WriteEnds (pf : Platform Text) (sourceUrl : Url) (key : String) (conditionalWrites : Bool)
    (q : Progress) (target : Checkpoint) :
    Except JsError (Option String) → RecordedWorld Unit Text → Prop :=
  Async.Outcome
    (fun etag w => Good pf sourceUrl key q w ∧ Held pf key conditionalWrites etag q w.1 ∧
      StoredAs pf key target w.1)
    (fun _ w => Good pf sourceUrl key q w ∧
      (target.status = .running → Held pf key conditionalWrites q.etag q w.1))

theorem WriteEnds.aside {r : Except JsError (Option String)}
    (h : WriteEnds pf sourceUrl key conditionalWrites q target r w) (hr : Aside w w') :
    WriteEnds pf sourceUrl key conditionalWrites q target r w' := by
  cases r with
  | ok etag =>
    obtain ⟨hgood, hheld, hstored⟩ := h
    exact ⟨hgood.aside hr, hheld.of_checkpoints hr.1, hstored.of_checkpoints hr.1⟩
  | error error =>
    obtain ⟨hgood, hheld⟩ := h
    exact ⟨hgood.aside hr, fun hrunning => (hheld hrunning).of_checkpoints hr.1⟩

theorem Good.withEtag {etag : Option String} (h : Good pf sourceUrl key q w) :
    Good pf sourceUrl key (q.withEtag etag) w := ⟨h.truth, h.covers⟩

theorem keepsTruth_of_good (h : Truthful pf sourceUrl key w') : KeepsTruth pf sourceUrl key w w' :=
  fun _ => h

/-- A PUT of the loop. -/
theorem Writes.put (h : Writes pf sourceUrl key conditionalWrites q target c w)
    (htarget : Intends target q) {etag : Option String}
    (hetag : Held pf key conditionalWrites etag q w.1) {r : Except JsError (Option String)}
    (hr : b.Step.recorded () w (.putCheckpoint key (stringifyCheckpoint pf c)
      (conditionalHeader etag conditionalWrites)) r w') :
    KeepsTruth pf sourceUrl key w w' ∧
      (∀ etag', r = .ok etag' →
        WriteEnds pf sourceUrl key conditionalWrites q target (.ok etag') w') ∧
      ∀ error, r = .error error →
        if isPreconditionFailed error then
          Writes pf sourceUrl key conditionalWrites q target c w' ∧ Met pf key q w'.1
        else WriteEnds pf sourceUrl key conditionalWrites q target (.error error) w' := by
  rcases id hr.1 with ⟨_, tag, _, hafter, hreply⟩ | ⟨hafter, error, hreply, hwhy⟩
  · -- the PUT landed: the new version is what was meant
    have hgood := h.toGood.put htarget h.valid h.same hr hafter
    have hcurrent : w'.1.current key = some { body := stringifyCheckpoint pf c, etag := tag } := by
      rw [hafter, World.current_pushVersion]
    refine ⟨keepsTruth_of_good hgood.truth, fun etag' hok => ?_, fun error herror => ?_⟩
    · rcases hreply with hreply | ⟨_, e, _, hreply⟩
      · obtain rfl : etag' = some tag := Except.ok.inj (hok.symm.trans hreply)
        exact ⟨hgood, Or.inl (holds_conditionalHeader_some hcurrent _), _, c, hcurrent, rfl, h.same,
          readBackAs_stringify h.valid h.same⟩
      · rw [hok] at hreply
        cases hreply
    · rcases hreply with hreply | ⟨_, e, hpre, hreply⟩
      · rw [herror] at hreply
        cases hreply
      · obtain rfl : error = e := Except.error.inj (herror.symm.trans hreply)
        rw [if_neg (by rw [hpre]; exact Bool.false_ne_true)]
        refine ⟨hgood, fun hrunning => Or.inr (Or.inl ⟨_, c, hcurrent, rfl, h.valid, ?_⟩)⟩
        exact htarget.earlier hrunning h.same
  · -- the PUT was refused
    have hsame : w'.1.checkpoints = w.1.checkpoints := by rw [hafter]
    have hgood : Good pf sourceUrl key q w' := h.toGood.ask hr hsame (by rintro input ⟨⟩)
    have hheld := h.held.of_checkpoints hsame
    refine ⟨keepsTruth_of_good hgood.truth, fun etag' hok => ?_, fun error' herror => ?_⟩
    · rw [hok] at hreply
      cases hreply
    · obtain rfl : error' = error := Except.error.inj (herror.symm.trans hreply)
      rcases hwhy with ⟨hpre, hnot⟩ | ⟨_, hpre⟩
      · rw [if_pos hpre]
        refine ⟨⟨⟨hgood, hheld⟩, h.valid, h.same⟩, ?_⟩
        exact (hetag.resolve_left hnot).of_checkpoints hsame
      · rw [if_neg (by rw [hpre]; exact Bool.false_ne_true)]
        exact ⟨hgood, fun _ => hheld⟩

/-- A re-read of the loop: it finds an earlier checkpoint of this run, or nothing that it could read,
    and what is meant does not change. -/
theorem Writes.get (h : Writes pf sourceUrl key conditionalWrites q target c w)
    (htarget : Intends target q) (hmet : Met pf key q w.1)
    {r : Except JsError (GetObjectOutput Text)}
    (hr : b.Step.recorded () w (.getCheckpoint key) r w') :
    KeepsTruth pf sourceUrl key w w' ∧
      (∀ fresh, readReply pf r = .ok fresh →
        Writes pf sourceUrl key conditionalWrites q target (mergeFresh c fresh) w' ∧
          Held pf key conditionalWrites fresh.etag q w'.1) ∧
      ∀ error, readReply pf r = .error error →
        WriteEnds pf sourceUrl key conditionalWrites q target (.error error) w' := by
  obtain ⟨version, hcurrent, hread⟩ := hmet.cases
  have hsame : w'.1.checkpoints = w.1.checkpoints := by rw [hr.1.1]
  have hgood : Good pf sourceUrl key q w' := h.toGood.ask hr hsame (by rintro input ⟨⟩)
  have hheld := h.held.of_checkpoints hsame
  have hcurrent' : w'.1.current key = some version := by
    rw [hr.1.1]
    exact hcurrent
  refine ⟨keepsTruth_of_good hgood.truth, fun fresh hfresh => ?_, fun error herror => ?_⟩
  · rcases hr.1.2 with hget | ⟨_, error, hfound, rfl⟩
    · rw [hcurrent] at hget
      dsimp only at hget
      subst hget
      rcases hread with hnone | ⟨remote, hearlier, hparse⟩
      · -- not read back: the checkpoint stays as it is, and so does the version
        have hread : fresh = {} := by
          simp only [readReply, readOutput, hnone] at hfresh
          exact (Except.ok.inj hfresh).symm
        subst hread
        exact ⟨⟨⟨hgood, hheld⟩, h.valid, h.same⟩, Or.inr (Or.inr ⟨version, hcurrent', hnone⟩)⟩
      · have hread : fresh = { checkpoint := some remote.onSchema, etag := some version.etag } := by
          simp only [readReply, readOutput, hparse] at hfresh
          exact (Except.ok.inj hfresh).symm
        subst hread
        refine ⟨⟨⟨hgood, hheld⟩, h.valid.merge (valid_of_parseCheckpoint hparse),
          htarget.merge h.same hearlier⟩, ?_⟩
        exact Or.inl (holds_conditionalHeader_some hcurrent' _)
    · simp only [readReply, hfound] at hfresh
      cases hfresh
  · exact ⟨hgood, fun _ => hheld⟩

/-- The clock and the timers of the loop. -/
theorem guar_and_aside {e : Effect Text} {r : Reply e} (he : OffCheckpoint e)
    (hr : b.Step.recorded () w e r w') : KeepsTruth pf sourceUrl key w w' ∧ Aside w w' :=
  ⟨fun h => h.aside (aside_of_recorded he hr), aside_of_recorded he hr⟩

/-- **A write of the run**, noted in the record: whatever is lost on the way, what is acknowledged
    is stored, and the run can go on under the ETag it then holds. -/
theorem safe_markedWrite (hkey : checkpointKey pf options slug = .ok key)
    (htarget : Intends target q)
    (hw : AtHead pf sourceUrl key options.conditionalWrites q w) :
    Proc.Safe (b.Step.recorded ()) Aside (KeepsTruth pf sourceUrl key)
      (Async.Outcome
        (fun etag w => AtHead pf sourceUrl key options.conditionalWrites (q.withEtag etag) w)
        fun _ w => Good pf sourceUrl key q w ∧ (target.status = .running →
          AtHead pf sourceUrl key options.conditionalWrites q w)) w
      ((createS3CheckpointStore pf options).marked.write
        { checkpoint := target, etag := q.etag, slug }) := by
  have hcas : ∀ w, AtHead pf sourceUrl key options.conditionalWrites q w →
      Proc.Safe (b.Step.recorded ()) Aside (KeepsTruth pf sourceUrl key)
        (WriteEnds pf sourceUrl key options.conditionalWrites q target) w
        (writeCheckpoint pf options { checkpoint := target, etag := q.etag, slug }) := by
    intro w hw
    refine safe_casRounds hkey
      (fun _ c etag w => Writes pf sourceUrl key options.conditionalWrites q target c w ∧
        Held pf key options.conditionalWrites etag q w.1)
      (fun _ c w => Writes pf sourceUrl key options.conditionalWrites q target c w ∧ Met pf key q w.1)
      (fun _ _ _ _ _ h hr => ⟨h.1.aside hr, h.2.of_checkpoints hr.1⟩)
      (fun _ _ _ _ h hr => ⟨h.1.aside hr, h.2.of_checkpoints hr.1⟩)
      (fun _ _ _ h hr => h.aside hr)
      (fun w r w' hr => guar_and_aside (e := .random) trivial hr)
      (fun ms w r w' hr => guar_and_aside (e := .sleep ms) trivial hr) ?_ ?_ ?_
      MAX_CAS_ROUNDS target q.etag ⟨⟨hw, htarget.valid, rfl⟩, hw.held⟩
    · intro _ c etag w h r w' hr
      exact h.1.put htarget h.2 hr
    · intro _ c w h r w' hr
      exact h.1.get htarget h.2 hr
    · intro c etag w h
      exact ⟨h.1.toGood, fun _ => h.1.held⟩
  unfold CheckpointStore.marked
  refine Async.safe_lift_bind (fun _ => AtHead pf sourceUrl key options.conditionalWrites q) ?_
    fun _ w hw => ?_
  · refine Proc.safe_call (AtHead pf sourceUrl key options.conditionalWrites q)
      (fun _ _ h hr => h.aside hr) (fun w hw r w' hr => ?_) hw
    have hsame : w'.1.checkpoints = w.1.checkpoints := by rw [hr.1]
    have hgood : Good pf sourceUrl key q w' := hw.toGood.ask hr hsame (by rintro input ⟨⟩)
    exact ⟨keepsTruth_of_good hgood.truth,
      Proc.safe_pure (fun _ _ h hr => h.aside hr) ⟨hgood, hw.held.of_checkpoints hsame⟩⟩
  · refine Async.safe_bind
      (fun etag w => WriteEnds pf sourceUrl key options.conditionalWrites q target (.ok etag) w)
      ((hcas w hw).imp ?_) fun etag w hw => ?_
    · rintro (error | etag) w h
      · exact ⟨h.1, fun hrunning => ⟨h.1, h.2 hrunning⟩⟩
      · exact h
    · refine Async.safe_lift_bind
        (fun _ => AtHead pf sourceUrl key options.conditionalWrites (q.withEtag etag)) ?_
        fun _ w hw => Proc.safe_pure (fun _ _ h hr => h.aside hr) hw
      refine Proc.safe_call
        (WriteEnds pf sourceUrl key options.conditionalWrites q target (.ok etag))
        (fun _ _ h hr => h.aside hr) (fun w hw r w' hr => ?_) hw
      obtain ⟨hgood, hheld, hstored⟩ := hw
      have hsame : w'.1.checkpoints = w.1.checkpoints := by rw [hr.1]
      have hgood' : Good pf sourceUrl key q w' := by
        refine hgood.ask hr hsame ?_
        rintro input ⟨⟩
        exact hstored
      exact ⟨keepsTruth_of_good hgood'.truth, Proc.safe_pure (fun _ _ h hr => h.aside hr)
        ⟨hgood'.withEtag, (hheld.of_checkpoints hsame).withEtag⟩⟩

end Write

/-! ## The run -/

section Run

variable (b : Backend Text) (pf : Platform Text) (config : RunConfig) (key : String)

/-- The assertions of a run. -/
def historySpec : RunSpec (RecordedWorld Unit Text) where
  head := AtHead pf config.sourceUrl key config.checkpointOptions.conditionalWrites
  found p candidates w :=
    AtHead pf config.sourceUrl key config.checkpointOptions.conditionalWrites p w ∧
      Reported pf config.sourceUrl (w.2 ()) p.nextPage candidates
  done p counts :=
    AtHead pf config.sourceUrl key config.checkpointOptions.conditionalWrites (p.advance counts)
  left p _ := AtHead pf config.sourceUrl key config.checkpointOptions.conditionalWrites p
  last _ := Truthful pf config.sourceUrl key

variable {b pf config key} {w : RecordedWorld Unit Text}

theorem stable_historySpec : RunSpec.Stable Aside
    (fun (_ : Except JsError RunOnceResult) => Truthful pf config.sourceUrl key)
    (historySpec pf config key) where
  head _ _ _ h hr := h.aside hr
  found _ _ _ _ h hr := by
    obtain ⟨_, more, hmore, _⟩ := id hr
    refine ⟨h.1.aside hr, ?_⟩
    rw [hmore]
    exact h.2.mono
  done _ _ _ _ h hr := h.aside hr
  left _ _ _ _ h hr := h.aside hr
  last _ _ _ h hr := h.aside hr
  post _ _ _ h hr := h.aside hr

/-- What is written at a page that is done. -/
theorem intends_pageCheckpoint {q : Progress} {record : List (FetchEvent Text)}
    (hq : Covers pf config.sourceUrl record q.lastCompletedPage q.pages) (startedAt now : Date) :
    Intends (q.pageCheckpoint config.runId
      { slug := pf.withoutUserinfo config.sourceUrl, startedAt := toISOString startedAt } now) q where
  valid := by
    unfold Progress.pageCheckpoint
    refine RunConfig.valid_checkpointAt pf config startedAt ?_ ?_ hq.valid now
    · rfl
    · rfl
  pages := rfl
  last := rfl
  discovered := rfl
  counts := rfl

/-- What is written at the end. -/
theorem intends_finalCheckpoint {q : Progress} {record : List (FetchEvent Text)}
    (hq : Covers pf config.sourceUrl record q.lastCompletedPage q.pages) (startedAt now : Date) :
    Intends (q.finalCheckpoint config.runId
      { slug := pf.withoutUserinfo config.sourceUrl, startedAt := toISOString startedAt } now) q where
  valid := by
    unfold Progress.finalCheckpoint
    refine RunConfig.valid_checkpointAt pf config startedAt ?_ ?_ hq.valid now
    · rfl
    · rfl
  pages := rfl
  last := rfl
  discovered := rfl
  counts := rfl

/-- The fan-out of a page leaves its whole conversation in the record. -/
theorem safe_ingestPage_fannedOut (input : IngestPageInput (Effect Text) Reply)
    (hstore : input.storeRawReplay = storeRawReplay pf config.bucket)
    (hstage : input.stageRawReplay = stageRawReplay pf)
    (hgate : input.existsBySourceIdentity = none) {P : RecordedWorld Unit Text → Prop}
    (hstable : ∀ w w', P w → Aside w w' → P w') (hP : P w) :
    Proc.Safe (b.Step.recorded ()) Aside (KeepsTruth pf config.sourceUrl key)
      (fun r w => P w ∧ ∃ l, Emits (ingestPage input) l r ∧ l.Sublist (conversation (w.2 ()))) w
      (ingestPage input) := by
  have hquiet : Proc.Quiet (b.Step.recorded ()) Aside (KeepsTruth pf config.sourceUrl key)
      (ingestPage input) :=
    (asks_ingestPage input hstore hstage hgate).quiet (fun _ h => h)
      fun e he w r w' hr => guar_and_aside (offCheckpoint_of_ingest he) hr
  have hgrows : ∀ w w' : RecordedWorld Unit Text, Aside w w' → (w.2 ()).Sublist (w'.2 ()) := by
    rintro w w' ⟨_, more, hmore, _⟩
    rw [hmore]
    exact List.sublist_append_left _ _
  exact ((hquiet P hstable w hP).and (Proc.safe_emits hgrows w (ingestPage input))).weaken
    (fun _ _ h => h) (fun _ _ h => h.1) fun _ _ h => h

/-- The read at the start of a run. -/
theorem Truthful.resumes (h : Truthful pf config.sourceUrl key w)
    {r : Except JsError (GetObjectOutput Text)} {w' : RecordedWorld Unit Text}
    (hr : b.Step.recorded () w (.getCheckpoint key) r w') :
    Truthful pf config.sourceUrl key w' ∧ ∀ read, readReply pf r = .ok read →
      AtHead pf config.sourceUrl key config.checkpointOptions.conditionalWrites
        (resumeStateOf read).progress w' := by
  have hsame : w'.1.checkpoints = w.1.checkpoints := by rw [hr.1.1]
  have htruth : Truthful pf config.sourceUrl key w' := h.ask hr hsame (by rintro input ⟨⟩)
  refine ⟨htruth, fun read hread => ?_⟩
  have hfresh : ∀ etag, (conditionalHeader etag
        config.checkpointOptions.conditionalWrites).holds (w'.1.current key) →
      AtHead pf config.sourceUrl key config.checkpointOptions.conditionalWrites
        (startFresh etag).progress w' :=
    fun etag hetag => ⟨⟨htruth, Covers.empty⟩, Or.inl hetag⟩
  rcases hr.1.2 with hget | ⟨_, error, hfound, rfl⟩
  · cases hcurrent : w.1.current key with
    | none =>
      rw [hcurrent] at hget
      obtain ⟨error, hfound, rfl⟩ := hget
      simp only [readReply, hfound, if_true] at hread
      cases hread
      refine hfresh none (holds_conditionalHeader_none ?_ _)
      rw [hr.1.1]
      exact hcurrent
    | some version =>
      rw [hcurrent] at hget
      dsimp only at hget
      subst hget
      have hcurrent' : w'.1.current key = some version := by
        rw [hr.1.1]
        exact hcurrent
      have hetag := holds_conditionalHeader_some hcurrent'
        config.checkpointOptions.conditionalWrites
      have hmem : version ∈ w'.1.checkpoints key := List.mem_of_mem_head? hcurrent'
      obtain ⟨c, before, ev, after, _, hrecord, _, _, hback, hwell⟩ := htruth.stored version hmem
      cases hparse : parseCheckpoint pf version.body with
      | none =>
        -- the run starts afresh, and no PUT of it will land
        simp only [readReply, readOutput, hparse] at hread
        cases hread
        exact ⟨⟨htruth, Covers.empty⟩, Or.inr (Or.inr ⟨version, hcurrent', hparse⟩)⟩
      | some found =>
        obtain ⟨rfl, _⟩ := (hback found).1 hparse
        simp only [readReply, readOutput, hparse] at hread
        cases hread
        unfold resumeStateOf
        dsimp only
        split
        · exact hfresh _ hetag
        · refine ⟨⟨htruth, ?_⟩, Or.inl hetag⟩
          rw [hrecord]
          exact hwell.pages.mono
  · simp only [readReply, hfound] at hread
    cases hread

/-- **The obligations of a run.** -/
theorem holds_historySpec (hkey : checkpointKey pf config.checkpointOptions
    (pf.withoutUserinfo config.sourceUrl) = .ok key) (startedAt : Date) :
    RunSpec.Holds (b.Step.recorded ()) Aside (KeepsTruth pf config.sourceUrl key) pf
      (config.toInput pf (config.store pf).marked)
      (fun _ => Truthful pf config.sourceUrl key)
      { slug := pf.withoutUserinfo config.sourceUrl, startedAt := toISOString startedAt }
      (historySpec pf config key) where
  refl _ h := h
  quiet := config.quiet pf _ fun e he w r w' hr => guar_and_aside (offCheckpoint_of_incidental he) hr
  stable := stable_historySpec
  cap _ _ _ h := h
  discover p w h := by
    refine Proc.safe_call _ (stable_historySpec.head p) (fun w h r w' hr => ?_) h
    have hboth : KeepsTruth pf config.sourceUrl key w w' ∧ Aside w w' :=
      guar_and_aside (by trivial) hr
    obtain ⟨hguar, haside⟩ := hboth
    have hhead := AtHead.aside h haside
    refine ⟨hguar, Proc.safe_pure (fun _ _ => Async.outcome_stable
      (stable_historySpec.discovered p) (fun _ _ _ h hr => h.aside hr) r _ _) ?_⟩
    cases r with
    | error error => exact hhead.truth
    | ok report =>
      show RunSpec.discovered _ _ _ _
      unfold RunSpec.discovered
      split
      · exact hhead
      · split
        · exact hhead
        · refine ⟨hhead, discoverInput pf (config.toInput pf (config.store pf).marked) p.nextPage,
            report, ?_, rfl, eq_true_of_ne_false ‹_›, rfl⟩
          rw [Env.recorded_self hr, conversation_append]
          exact List.mem_append_right _ (List.mem_singleton.2 rfl)
  ingest p candidates state w h := by
    refine (safe_ingestPage_fannedOut (ingestInput (config.toInput pf (config.store pf).marked) state
      candidates) rfl rfl rfl (stable_historySpec.found p candidates) h).imp ?_
    rintro (error | result) w ⟨⟨hhead, hreported⟩, l, hemits, hl⟩
    · exact hhead.truth
    · have hfanned : FannedOut pf config.sourceUrl (w.2 ()) (p.lastCompletedPage + 1)
          (runningPage result.counts) :=
        ⟨ingestInput (config.toInput pf (config.store pf).marked) state candidates, config.bucket,
          result, l, hreported, rfl, rfl, rfl, hemits, hl, rfl⟩
      have hstatus : (runningPage result.counts).status ≠ "" := by
        show "running" ≠ ""
        decide
      exact ⟨⟨hhead.truth, hhead.covers.insert hstatus hfanned⟩,
        hhead.held.advance hhead.covers _⟩
  writePage p counts now w h := by
    have htarget := intends_pageCheckpoint (AtHead.toGood h).covers startedAt now
    refine (safe_markedWrite hkey htarget h).imp ?_
    rintro (error | etag) w hw
    · have hhead := hw.2 rfl
      show RunSpec.written _ _ _ _
      unfold RunSpec.written
      split
      · exact hhead
      · exact hhead
    · show RunSpec.written _ _ _ _
      unfold RunSpec.written
      split
      · exact hw
      · exact hw
  skipFinal _ _ h := h.truth
  writeFinal p now w h := by
    have htarget := intends_finalCheckpoint (AtHead.toGood h).covers startedAt now
    refine (safe_markedWrite hkey htarget h).imp ?_
    rintro (error | etag) w hw
    · exact hw.1.truth
    · exact hw.truth
  result _ _ h _ _ := h

/-- One run, from whatever the runs before it left. -/
theorem safe_markedRun (hkey : checkpointKey pf config.checkpointOptions
    (pf.withoutUserinfo config.sourceUrl) = .ok key) (hw : Truthful pf config.sourceUrl key w) :
    Proc.Safe (b.Step.recorded ()) Aside (KeepsTruth pf config.sourceUrl key)
      (fun _ => Truthful pf config.sourceUrl key) w (config.markedRun pf) := by
  refine safe_runOnce (Truthful pf config.sourceUrl key)
    (fun _ _ h hr => h.aside hr) (holds_historySpec hkey) (fun w hw => ?_) hw
  refine safe_readCheckpoint hkey (Truthful pf config.sourceUrl key) (fun _ _ h hr => h.aside hr)
    (Async.outcome_stable (fun _ _ _ h hr => h.aside hr) fun _ _ _ h hr => h.aside hr)
    (fun w hw r w' hr => ?_) hw
  obtain ⟨htruth, hread⟩ := hw.resumes hr
  refine ⟨keepsTruth_of_good htruth, ?_⟩
  cases hreply : readReply pf r with
  | error error => exact htruth
  | ok read => exact hread read hreply

end Run

/-! ## Histories -/

section History

variable {b : Backend Text} {pf : Platform Text} {sourceUrl : Url} {key : String}

/-- The runs of one writer of the object at `key`. -/
def IsRunOf (pf : Platform Text) (sourceUrl : Url) (key : String)
    (p : Task Text RunOnceResult) : Prop :=
  ∃ config : RunConfig, config.sourceUrl = sourceUrl ∧ checkpointKey pf config.checkpointOptions
    (pf.withoutUserinfo sourceUrl) = .ok key ∧ p = config.markedRun pf

/-- **The checkpoint over whole histories.** Runs one after another, each finished or killed
    between two requests, under any failures of the services: every version ever stored is read
    back as it was written and never was ahead of the work, and every acknowledged write stored
    what it was given.  JavaScript counts up to 2^53 - 1, and so far a version is read back. -/
theorem checkpoint_truthful_over_histories {w₀ : World Text} (hempty : w₀.checkpoints key = [])
    {w : RecordedWorld Unit Text}
    (h : Lts.History (Proc.lts (b.Step.recorded ()) (Except JsError RunOnceResult))
      (IsRunOf pf sourceUrl key) (w₀, fun _ => []) w) :
    (∀ version ∈ w.1.checkpoints key, VersionWell pf sourceUrl key (w.2 ()) version) ∧
      ∀ ev ∈ w.2 (), AckWell pf key ev := by
  have htruth : Truthful pf sourceUrl key w := by
    refine Lts.History.invariant (I := Truthful pf sourceUrl key) ?_ ?_ h
    · rintro _ ⟨config, rfl, hkey, rfl⟩ w hw
      exact (safe_markedRun hkey hw).weaken (fun w w' hr => hr ▸ ⟨rfl, [], (List.append_nil _).symm,
        fun _ hev => absurd hev List.not_mem_nil⟩) (fun _ _ h => h) fun _ _ _ => trivial
    · refine ⟨fun version hversion => ?_, fun ev hev => absurd hev List.not_mem_nil⟩
      rw [hempty] at hversion
      exact absurd hversion List.not_mem_nil
  exact ⟨htruth.stored, htruth.acked⟩

theorem checkpoint_truthful_over_histories_one :
    ((toyRecordedRun 60).1.1.checkpoints toyKey).length = 2 ∧
    (∀ version ∈ (toyRecordedRun 60).1.1.checkpoints toyKey,
      (parseCheckpoint toyPlatform version.body).isSome = true) ∧
    ∀ version ∈ (toyRecordedRun 60).1.1.checkpoints toyKey,
      VersionWell toyPlatform toyConfig.sourceUrl toyKey ((toyRecordedRun 60).1.2 ()) version := by
  have hstart : IsRunOf toyPlatform toyConfig.sourceUrl toyKey (toyConfig.markedRun toyPlatform) :=
    ⟨toyConfig, rfl, checkpointKey_toyConfig, rfl⟩
  have hhistory := Lts.History.run (.nil (emptyWorld, fun _ => [])) hstart
    (Proc.runs_exec (recorded_serve (i := ()) (toyListing.step_services fun _ => ⟨[7], rfl⟩)) 60
      ((emptyWorld, fun _ => []), toyConfig.markedRun toyPlatform))
  exact ⟨rfl, by decide +kernel, (checkpoint_truthful_over_histories rfl hhistory).1⟩

end History

end ReplaysFetcher
