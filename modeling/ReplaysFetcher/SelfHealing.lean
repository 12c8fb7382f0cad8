/-
  Self-healing: what becomes of whatever body is stored at the checkpoint key.

  A run reads the object, and its next write goes out under the ETag the read returned.  With a
  healthy store and nobody else writing, the two together either always succeed or never do, and
  what decides is whether `parseCheckpoint` accepts the stored body:

  * ACCEPTED — the read returns its ETag, the PUT goes out as `If-Match` on the current version,
    and lands at once; what it has put there is accepted in its turn unless a number of the checkpoint
    is above 2^53 - 1;
  * REFUSED — the read degrades to "no checkpoint" and drops the ETag with it.  The PUT goes out
    as `If-None-Match: *` over an object that is there, is refused, and every re-read inside the
    compare-and-swap loop degrades the same way.  All rounds are spent and the body stays.
-/
import ReplaysFetcher.RunOnce
import ReplaysFetcher.Effectful.Termination

namespace ReplaysFetcher

open Effectful

variable {Text : Type}

/-! ## The read and the write of a run -/

/-- What a run does to its checkpoint object: the read of `resolveResumeState`, and the next write
    under the ETag it resumed with. -/
def readThenWrite (pf : Platform Text) (options : CheckpointStoreOptions) (slug : String)
    (checkpoint : Checkpoint) : Task Text (Option String) := do
  let read ← readCheckpoint pf options slug
  writeCheckpoint pf options { checkpoint, etag := (resumeStateOf read).etag, slug }

/-- A checkpoint store that never fails and gives every body some ETag. -/
structure Healthy (b : Backend Text) : Prop where
  get : b.faults.checkpointGet = false
  put : b.faults.checkpointPut = false
  ack : b.faults.checkpointLostAck = false
  tag : ∀ body, ∃ etag, b.tag body etag

/-- Left alone, the read and the write end, the write has succeeded, and it has put a body that
    `parseCheckpoint` accepts in the place of the one before. -/
def SelfHeals (pf : Platform Text) (options : CheckpointStoreOptions) (b : Backend Text)
    (slug key : String) (checkpoint : Checkpoint) (w : World Text) : Prop :=
  Proc.Ends b.Step
    (fun r w' => (∃ etag, r = .ok etag) ∧ ∃ version c,
      w'.checkpoints key = version :: w.checkpoints key ∧ parseCheckpoint pf version.body = some c)
    w (readThenWrite pf options slug checkpoint)

section Tree

variable {pf : Platform Text} {options : CheckpointStoreOptions} {slug key : String}

/-- The resume state keeps the ETag of the read, whatever the read found. -/
theorem etag_resumeStateOf_readOutput (pf : Platform Text) (output : GetObjectOutput Text) :
    (resumeStateOf (readOutput pf output)).etag = (readOutput pf output).etag := by
  unfold readOutput
  cases output.body with
  | none => rfl
  | some raw =>
    dsimp only
    cases parseCheckpoint pf raw with
    | none => rfl
    | some checkpoint =>
      unfold resumeStateOf
      dsimp only
      split
      · rfl
      · rfl

theorem readThenWrite_eq (hkey : checkpointKey pf options slug = .ok key)
    (checkpoint : Checkpoint) :
    (readThenWrite pf options slug checkpoint : Program Text (Except JsError (Option String))) =
      .call (.getCheckpoint key) fun r =>
        match readReply pf r with
        | .ok read => writeCheckpoint pf options { checkpoint, etag := (resumeStateOf read).etag, slug }
        | .error error => .pure (.error error) := by
  unfold readThenWrite
  rw [Async.bind_eq, readCheckpoint_eq hkey, Proc.call_bind']
  congr 1
  funext r
  rw [Proc.pure_bind']
  cases readReply pf r with
  | ok read => rfl
  | error error => rfl

/-! ## Both always end -/

/-- The requests of the checkpoint store. -/
def IsCheckpointRequest (key : String) : Effect Text → Prop
  | .random => True
  | .sleep _ => True
  | .getCheckpoint key' => key' = key
  | .putCheckpoint key' _ _ => key' = key
  | _ => False

/-- A healthy store answers every request of the checkpoint store. -/
theorem Healthy.answers {b : Backend Text} (hb : Healthy b) (w : World Text) (e : Effect Text)
    (he : IsCheckpointRequest key e) : ∃ r w', b.Step w e r w' := by
  cases e with
  | random => exact ⟨(0 : ℚ), w, rfl⟩
  | sleep ms => exact ⟨(), w, rfl⟩
  | getCheckpoint key' =>
    cases hcurrent : w.current key' with
    | none =>
      refine ⟨.error (.s3Service "NotFound" none), w, rfl, Or.inl ?_⟩
      rw [hcurrent]
      exact ⟨_, rfl, rfl⟩
    | some version =>
      refine ⟨.ok { body := some version.body, etag := some version.etag }, w, rfl, Or.inl ?_⟩
      rw [hcurrent]
  | putCheckpoint key' body condition =>
    by_cases hholds : condition.holds (w.current key')
    · obtain ⟨etag, hetag⟩ := hb.tag body
      exact ⟨.ok (some etag), _, Or.inl ⟨hholds, etag, hetag, rfl, Or.inl rfl⟩⟩
    · refine ⟨.error (.s3Service "PreconditionFailed" none), w, Or.inr ⟨rfl, _, rfl, Or.inl ?_⟩⟩
      exact ⟨rfl, hholds⟩
  | _ => exact he.elim

theorem loopFree_casRounds (hkey : checkpointKey pf options slug = .ok key) (n : ℕ)
    (c : Checkpoint) (etag : Option String) :
    Proc.LoopFree (IsCheckpointRequest key) (casRounds pf options slug n c etag) := by
  induction n generalizing c etag with
  | zero => exact trivial
  | succ n ih =>
    rw [casRounds_succ hkey]
    refine ⟨rfl, ?_⟩
    intro r
    cases r with
    | ok etag => exact trivial
    | error error =>
      dsimp only
      split
      · refine ⟨trivial, fun _ => ⟨trivial, fun _ => ⟨rfl, ?_⟩⟩⟩
        intro r
        dsimp only
        cases readReply pf r with
        | ok fresh => exact ih _ _
        | error error => exact trivial
      · exact trivial

theorem loopFree_readThenWrite (hkey : checkpointKey pf options slug = .ok key)
    (checkpoint : Checkpoint) :
    Proc.LoopFree (IsCheckpointRequest key) (readThenWrite pf options slug checkpoint) := by
  rw [readThenWrite_eq hkey]
  refine ⟨rfl, ?_⟩
  intro r
  dsimp only
  cases readReply pf r with
  | ok read => exact loopFree_casRounds hkey _ _ _
  | error error => exact trivial

/-! ## The two cases -/

section Cases

variable {b : Backend Text} {w : World Text} {version : Version Text}

/-- A GET of a healthy store sees the current version. -/
theorem Healthy.get_reply (hb : Healthy b) (hversion : w.current key = some version)
    {r : Except JsError (GetObjectOutput Text)} {w' : World Text}
    (hr : b.Step w (.getCheckpoint key) r w') :
    w' = w ∧ r = .ok { body := some version.body, etag := some version.etag } := by
  obtain ⟨rfl, hcurrent | ⟨hfault, _⟩⟩ := hr
  · rw [hversion] at hcurrent
    exact ⟨rfl, hcurrent⟩
  · rw [hb.get] at hfault
    cases hfault

/-- **Accepted.** The write goes out under the current ETag and lands at once. -/
theorem safe_of_accepted (hb : Healthy b) (hcond : options.conditionalWrites = true)
    (hkey : checkpointKey pf options slug = .ok key) (checkpoint : Checkpoint)
    (hversion : w.current key = some version) {remote : Checkpoint}
    (hparse : parseCheckpoint pf version.body = some remote) :
    Proc.Safe b.Step Lts.Alone (fun _ _ => True)
      (fun r w' => (∃ etag, r = .ok etag) ∧ ∃ version, w'.checkpoints key =
        version :: w.checkpoints key ∧ version.body = stringifyCheckpoint pf checkpoint)
      w (readThenWrite pf options slug checkpoint) := by
  rw [readThenWrite_eq hkey]
  refine Proc.safe_call (fun w' => w' = w) (fun _ _ h hr => hr.trans h) ?_ rfl
  rintro w₁ rfl r w' hr
  obtain ⟨rfl, rfl⟩ := hb.get_reply hversion hr
  refine ⟨trivial, ?_⟩
  have hread : readReply pf (.ok { body := some version.body, etag := some version.etag }) =
      .ok { checkpoint := some remote, etag := some version.etag } := by
    simp only [readReply, readOutput, hparse]
  have hetag : (resumeStateOf { checkpoint := some remote, etag := some version.etag }).etag =
      some version.etag := by
    have h := etag_resumeStateOf_readOutput pf
      { body := some version.body, etag := some version.etag }
    simpa only [readOutput, hparse] using h
  simp only [hread, hetag, writeCheckpoint]
  -- the loop never gets to a second round
  refine safe_casRounds hkey
    (fun n c etag w'' => n ≠ 0 ∧ c = checkpoint ∧ etag = some version.etag ∧ w'' = w')
    (fun _ _ _ => False) (fun _ _ _ _ _ h hr => by cases hr; exact h) (fun _ _ _ _ h _ => h)
    (fun _ _ _ h hr => by cases hr; exact h) (fun _ _ _ hr => ⟨trivial, hr⟩)
    (fun _ _ _ _ hr => ⟨trivial, hr⟩) ?_ (fun _ _ _ h => h.elim) (fun _ _ _ h => absurd rfl h.1)
    MAX_CAS_ROUNDS checkpoint (some version.etag) ⟨by decide, rfl, rfl, rfl⟩
  rintro n c etag w₁ ⟨_, rfl, rfl, rfl⟩ r w₂ hr
  have hholds : (conditionalHeader (some version.etag) options.conditionalWrites).holds
      (w₁.current key) := by
    rw [hcond]
    exact ⟨version, hversion, rfl⟩
  refine ⟨trivial, ?_⟩
  rcases hr with ⟨_, etag, _, rfl, hreply⟩ | ⟨_, error, _, ⟨_, hnot⟩ | ⟨hfault, _⟩⟩
  · have hlanded : (w₁.pushVersion key { body := stringifyCheckpoint pf c, etag }).checkpoints key =
        { body := stringifyCheckpoint pf c, etag } :: w₁.checkpoints key := Function.update_self ..
    rcases hreply with rfl | ⟨hlost, _⟩
    · refine ⟨fun etag' h => ?_, fun error h => by cases h⟩
      exact ⟨⟨_, rfl⟩, _, hlanded, rfl⟩
    · rw [hb.ack] at hlost
      cases hlost
  · exact absurd hholds hnot
  · rw [hb.put] at hfault
    cases hfault

/-- Over an accepted body, the write heals exactly when its own body is accepted. -/
theorem selfHeals_iff_of_accepted (hb : Healthy b) (hcond : options.conditionalWrites = true)
    (hkey : checkpointKey pf options slug = .ok key) {checkpoint : Checkpoint}
    (hvalid : checkpoint.Valid) (hversion : w.current key = some version) {remote : Checkpoint}
    (hparse : parseCheckpoint pf version.body = some remote) :
    SelfHeals pf options b slug key checkpoint w ↔ checkpoint.Safe := by
  have hsafe := safe_of_accepted hb hcond hkey checkpoint hversion hparse
  constructor
  · intro hheals
    obtain ⟨w', p, r, hrun, hresult, _, landed, c, hlanded, haccepted⟩ := hheals.exists_run
    obtain ⟨_, landed', hlanded', hbody⟩ := (hsafe.runs hrun).finished hresult
    -- the version the run has added is the one it has put there
    obtain rfl : landed = landed' := (List.cons.inj (hlanded.symm.trans hlanded')).1
    rw [hbody] at haccepted
    exact ((parseCheckpoint_stringify_eq pf hvalid).1 haccepted).2
  · intro hnumbers
    have hends := (loopFree_readThenWrite hkey checkpoint).ends hb.answers w
    refine (hsafe.imp fun r w' h => ?_).ends hends
    obtain ⟨hok, landed, hlanded, hbody⟩ := h
    refine ⟨hok, landed, checkpoint.onSchema, hlanded, ?_⟩
    rw [hbody]
    exact parseCheckpoint_stringify pf hvalid hnumbers

/-- **Refused.** Every round sends `If-None-Match` against an object that is there. -/
theorem not_selfHeals_of_refused (hb : Healthy b) (hcond : options.conditionalWrites = true)
    (hkey : checkpointKey pf options slug = .ok key) {checkpoint : Checkpoint}
    (hversion : w.current key = some version) (hparse : parseCheckpoint pf version.body = none) :
    ¬ SelfHeals pf options b slug key checkpoint w := by
  intro hheals
  obtain ⟨w', p, r, hrun, hresult, ⟨etag, hok⟩, _⟩ := hheals.exists_run
  have hread : readReply pf (.ok { body := some version.body, etag := some version.etag }) =
      .ok {} := by
    simp only [readReply, readOutput, hparse]
  -- yet a write can only end in an error
  have hsafe : Proc.Safe b.Step Lts.Alone (fun _ _ => True) (fun r _ => ∃ e, r = .error e) w
      (readThenWrite pf options slug checkpoint) := by
    rw [readThenWrite_eq hkey]
    refine Proc.safe_call (fun w' => w'.current key = some version) (fun _ _ h hr => hr ▸ h) ?_
      hversion
    intro w₁ h₁ r w' hr
    obtain ⟨rfl, rfl⟩ := hb.get_reply h₁ hr
    refine ⟨trivial, ?_⟩
    simp only [hread, writeCheckpoint]
    refine safe_casRounds hkey (fun _ _ etag w'' => etag = none ∧ w''.current key = some version)
      (fun _ _ w'' => w''.current key = some version) (fun _ _ _ _ _ h hr => by cases hr; exact h)
      (fun _ _ _ _ h hr => by cases hr; exact h) (fun _ _ _ h _ => h) (fun _ _ _ hr => ⟨trivial, hr⟩)
      (fun _ _ _ _ hr => ⟨trivial, hr⟩) ?_ ?_ (fun _ _ _ _ => ⟨_, rfl⟩) MAX_CAS_ROUNDS checkpoint
      none ⟨rfl, h₁⟩
    · rintro n c _ w₁ ⟨rfl, h₁⟩ r w₂ hr
      refine ⟨trivial, ?_⟩
      rcases hr with ⟨hholds, _⟩ | ⟨rfl, error, rfl, _⟩
      · rw [hcond] at hholds
        have hnone : w₁.current key = none := hholds
        rw [h₁] at hnone
        cases hnone
      · refine ⟨fun _ h => (by cases h), fun error' h => ?_⟩
        split
        · exact h₁
        · exact ⟨_, rfl⟩
    · intro n c w₁ h₁ r w₂ hr
      obtain ⟨rfl, rfl⟩ := hb.get_reply h₁ hr
      refine ⟨trivial, fun fresh h => ?_, fun error h => ⟨_, rfl⟩⟩
      rw [hread] at h
      cases h
      exact ⟨rfl, h₁⟩
  obtain ⟨e, he⟩ := (hsafe.runs hrun).finished hresult
  rw [hok] at he
  cases he

/-- **Self-healing.** Read and write succeed and leave an accepted checkpoint exactly when the body
    they find is accepted already, and the numbers of the checkpoint they write are safe. -/
theorem checkpoint_self_heals_iff (hb : Healthy b) (hcond : options.conditionalWrites = true)
    (hkey : checkpointKey pf options slug = .ok key) {checkpoint : Checkpoint}
    (hvalid : checkpoint.Valid) (hversion : w.current key = some version) :
    SelfHeals pf options b slug key checkpoint w ↔
      (parseCheckpoint pf version.body).isSome ∧ checkpoint.Safe := by
  constructor
  · intro hheals
    cases hparse : parseCheckpoint pf version.body with
    | none => exact absurd hheals (not_selfHeals_of_refused hb hcond hkey hversion hparse)
    | some remote =>
      exact ⟨rfl, (selfHeals_iff_of_accepted hb hcond hkey hvalid hversion hparse).1 hheals⟩
  · rintro ⟨haccepted, hsafe⟩
    obtain ⟨remote, hparse⟩ := Option.isSome_iff_exists.1 haccepted
    exact (selfHeals_iff_of_accepted hb hcond hkey hvalid hversion hparse).2 hsafe

end Cases

end Tree

/-! ## One store of each kind -/

def toyHealthy : Backend (Option Json) where
  reports _ _ := False
  pageText _ _ := False
  served _ _ := False
  tag _ _ := True

theorem healthy_toyHealthy : Healthy toyHealthy := ⟨rfl, rfl, rfl, fun _ => ⟨"0", trivial⟩⟩

/-- A world that holds nothing but this body at the checkpoint key. -/
def worldWithBody (body : Option Json) : World (Option Json) where
  checkpoints := fun _ => [{ body, etag := "0" }]
  raw := fun _ => none
  staging := []

/-- A body that is not JSON stays for good. -/
theorem corrupt_checkpoint_never_heals : ¬ SelfHeals toyPlatform toyOptions toyHealthy "//a" toyKey
    (toyCheckpoint 1) (worldWithBody none) :=
  not_selfHeals_of_refused healthy_toyHealthy rfl checkpointKey_toy rfl rfl

/-- An earlier checkpoint of the source is replaced. -/
theorem checkpoint_self_heals_over_earlier : SelfHeals toyPlatform toyOptions toyHealthy "//a"
    toyKey (toyCheckpoint 2)
    (worldWithBody (stringifyCheckpoint toyPlatform (toyCheckpoint 1))) := by
  have hparse := parseCheckpoint_stringify toyPlatform (valid_toyCheckpoint 1)
    (safe_toyCheckpoint (by decide))
  have hsome : (parseCheckpoint toyPlatform
      (stringifyCheckpoint toyPlatform (toyCheckpoint 1))).isSome := by
    rw [hparse]
    rfl
  exact (checkpoint_self_heals_iff healthy_toyHealthy rfl checkpointKey_toy
    (valid_toyCheckpoint 2) rfl).2 ⟨hsome, safe_toyCheckpoint (by decide)⟩

end ReplaysFetcher
