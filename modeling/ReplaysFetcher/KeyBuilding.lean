/-
  Object keys from an accepted configuration (`src/checkpoint/object-key.ts`,
  `src/evidence/object-key.ts`, against `src/config.ts`).

  1. **The keys** (`toCheckpointObjectKey_isOk_iff`, `toEvidenceObjectKey_isOk_iff`).  What is made of
     a source or a run is always safe, but it may be nothing; the prefix is taken as it is.
  2. **The schema** (`configSchema_accepts_iff`, `configSchema_throws_iff`).  It bounds the length of
     a prefix and nothing else, it does not look at the source URL's slug, and a text for a boolean
     that is not like one is no issue but an exception.
  3. **The condition** (`keys_never_crash_iff`).

  What gets past the schema comes up in the run, before its first read (`run_rejects`).
-/
import ReplaysFetcher.Config
import ReplaysFetcher.Slugs
import ReplaysFetcher.Wiring

namespace ReplaysFetcher.KeyBuilding

open Config Schema Effectful

/-! ## Evidence keys -/

/-- A run id, made safe for a key as a source is. -/
def toRunSlug (runId : String) : String :=
  String.ofList (trimDashes (dashUnsafeRuns false (runId.toList.map Char.toLower)))

/-- The key of a run's evidence; a prefix or a run id that gives no safe key is refused. -/
def toEvidenceObjectKey (keyPrefix runId : String) : Except JsError String :=
  if keyPrefix = "" then .error (.error "Evidence object-key prefix must not be empty")
  else if toRunSlug runId = "" then .error (.error "Evidence runId slug must not be empty")
  else if isS3SafeKey (keyPrefix ++ "/" ++ toRunSlug runId ++ "/evidence.json") then
    .ok (keyPrefix ++ "/" ++ toRunSlug runId ++ "/evidence.json")
  else .error (.error "Evidence object key must match the S3-safe pattern [a-z0-9._/-]")

/-- A UUID, as `randomUUID` writes it. -/
def IsUuid (text : String) : Prop :=
  ∃ a b c d e : List Char, text.toList = a ++ '-' :: b ++ '-' :: c ++ '-' :: d ++ '-' :: e ∧
    a.length = 8 ∧ b.length = 4 ∧ c.length = 4 ∧ d.length = 4 ∧ e.length = 12 ∧
    ∀ x ∈ a ++ b ++ c ++ d ++ e, ('0' ≤ x ∧ x ≤ '9') ∨ ('a' ≤ x ∧ x ≤ 'f')

/-- `createRunId` (`src/commands/shared.ts`), with the UUID it draws. -/
def createRunId (now : Date) (uuid : String) : String := "run-" ++ toISOString now ++ "-" ++ uuid

/-- A key is built exactly from a safe prefix and a run id that has a slug. -/
theorem toEvidenceObjectKey_isOk_iff (keyPrefix runId : String) :
    (∃ key, toEvidenceObjectKey keyPrefix runId = .ok key) ↔
      SafePrefix keyPrefix ∧ toRunSlug runId ≠ "" := by
  unfold toEvidenceObjectKey
  rw [guarded_isOk_iff]
  have hname : ∀ c ∈ "/evidence.json".toList, isSafeSlugChar c = true ∨ c = '/' := by
    simp [isSafeSlugChar]
  constructor
  · rintro ⟨hstarts, hslug, hsafe⟩
    exact ⟨(isS3SafeKey_iff hstarts hname).1 hsafe, hslug⟩
  · rintro ⟨hsafe, hslug⟩
    exact ⟨hsafe.1, hslug, (isS3SafeKey_iff hsafe.1 hname).2 hsafe⟩

/-- A run id has a slug: it begins with letters. -/
theorem toRunSlug_createRunId (now : Date) (uuid : String) :
    toRunSlug (createRunId now uuid) ≠ "" := by
  intro h
  have hr : 'r' ∈ (createRunId now uuid).toList := by
    unfold createRunId
    simp
  exact (slugOf_eq_empty_iff _).1 h 'r' hr ⟨by decide, by decide⟩

/-! ## What the schema accepts -/

section Schema

variable {Text : Type} {pf : Platform Text} (env : TextReader pf)

/-- A text of a length within the bounds. -/
def TextWithin (n : ℕ) (value : Option EnvValue) : Prop :=
  ∃ text, value = some (.text text) ∧ 1 ≤ jsLength text ∧ jsLength text ≤ n

/-- A text that is read as this URL, which is not too long. -/
def UrlText (n : ℕ) (value : Option EnvValue) (out : String) : Prop :=
  ∃ text, value = some (.text text) ∧ env.url text = some out ∧ jsLength out ≤ n

/-- A value that is read as an integer within the bounds. -/
def IntegerWithin (lo : ℤ) (hi : Option ℤ) (value : Option EnvValue) : Prop :=
  ∃ n : ℤ, coerceNumber env value = .finite n ∧ |n| ≤ MAX_SAFE_INTEGER ∧ lo ≤ n ∧ ∀ m ∈ hi, n ≤ m

/-- A value that stands for a boolean. -/
def BooleanLike (value : Option EnvValue) : Prop :=
  ∀ text, value = some (.text text) →
    String.ofList ((trimJs text).toList.map Char.toLower) ∈
      ["1", "true", "yes", "y", "0", "false", "no", "n"]

/-- Only a text is a string. -/
theorem stringSchema_eq_value {value : Option EnvValue} {text : String} :
    stringSchema value = .value text ↔ value = some (.text text) := by
  cases value with
  | none => exact iff_of_false (fun h => by cases h) (fun h => by cases h)
  | some value =>
    cases value with
    | boolean value => exact iff_of_false (fun h => by cases h) (fun h => by cases h)
    | text value =>
      constructor
      · intro h
        cases h
        rfl
      · intro h
        cases h
        rfl

/-- A bounded string is a text of a length within the bounds. -/
theorem boundedString_eq_value {n : ℕ} {value : Option EnvValue} {text : String} :
    boundedString n value = .value text ↔
      value = some (.text text) ∧ 1 ≤ jsLength text ∧ jsLength text ≤ n := by
  unfold boundedString
  rw [withChecks_eq_value, stringSchema_eq_value]
  unfold minLength maxLength
  simp [Nat.one_le_iff_ne_zero]

/-- The same, without its value. -/
theorem boundedString_accepts (n : ℕ) (value : Option EnvValue) :
    (boundedString n value).Accepts ↔ TextWithin n value := by
  unfold Verdict.Accepts TextWithin
  simp only [boundedString_eq_value]

/-- The length is that of the URL that was read, not of the text. -/
theorem urlSchema_eq_value {n : ℕ} {value : Option EnvValue} {out : String} :
    urlSchema env n value = .value out ↔ UrlText env n value out := by
  unfold urlSchema UrlText
  split
  · rename_i text htext
    have hvalue := stringSchema_eq_value.1 htext
    have hunique : ∀ text', value = some (.text text') → text' = text := by
      intro text' h
      rw [hvalue] at h
      cases h
      rfl
    split
    · -- the text is a URL, and its length is left to check
      rename_i out' hout
      rw [withChecks_eq_value]
      unfold maxLength
      simp only [Verdict.value.injEq, List.mem_singleton, forall_eq, ite_eq_right_iff, reduceCtorEq,
        imp_false, not_lt]
      constructor
      · rintro ⟨rfl, hlength⟩
        exact ⟨text, hvalue, hout, hlength⟩
      · rintro ⟨text', htext', hout', hlength⟩
        rw [hunique text' htext', hout] at hout'
        exact ⟨Option.some.inj hout', Option.some.inj hout' ▸ hlength⟩
    · -- the text is none, so the check of the length has nothing to add
      rename_i hnone
      rw [withChecks_eq_value]
      refine iff_of_false (fun h => by cases h.1) ?_
      rintro ⟨text', htext', hout', _⟩
      rw [hunique text' htext', hnone] at hout'
      cases hout'
  · -- no text at all
    rename_i hno
    refine iff_of_false (fun h => hno out h) ?_
    rintro ⟨text, htext, _⟩
    exact hno text (stringSchema_eq_value.2 htext)

/-- An integer is coerced, safe, and passes its checks. -/
theorem integerSchema_accepts (checks : List (ℤ → Option Problem)) (value : Option EnvValue) :
    (integerSchema env checks value).Accepts ↔ ∃ n : ℤ, coerceNumber env value = .finite n ∧
      |n| ≤ MAX_SAFE_INTEGER ∧ ∀ check ∈ checks, check n = none := by
  unfold integerSchema
  cases hnumber : coerceNumber env value with
  | nan => simp
  | infinity => simp
  | negInfinity => simp
  | finite q =>
    unfold Verdict.Accepts
    simp only [integer_eq_value, JsNumber.finite.injEq]

/-- A default stands in only for a variable that is unset. -/
theorem defaultSchema_accepts {α : Type} (fallback : α) (schema : Option EnvValue → Checked α)
    (value : Option EnvValue) :
    (defaultSchema fallback schema value).Accepts ↔
      value = none ∨ ∃ v, value = some v ∧ (schema value).Accepts := by
  cases value with
  | none => exact iff_of_true (Verdict.accepts_value _) (Or.inl rfl)
  | some v => simp [defaultSchema]

/-- An optional variable may be unset. -/
theorem optionalSchema_accepts {α : Type} (schema : Option EnvValue → Checked α)
    (value : Option EnvValue) :
    (optionalSchema schema value).Accepts ↔
      value = none ∨ ∃ v, value = some v ∧ (schema value).Accepts := by
  cases value with
  | none => exact iff_of_true (Verdict.accepts_value _) (Or.inl rfl)
  | some v => simp [optionalSchema]

/-- **A text that is not like a boolean throws**; everything else has a value. -/
theorem booleanFromEnvironment_cases (value : Option EnvValue) :
    (BooleanLike value ∧ (booleanFromEnvironment value).Accepts) ∨
      (¬ BooleanLike value ∧ (booleanFromEnvironment value).Throws) := by
  cases value with
  | none =>
    refine Or.inl ⟨?_, Verdict.accepts_value _⟩
    intro text h
    cases h
  | some value =>
    cases value with
    | boolean value =>
      refine Or.inl ⟨?_, Verdict.accepts_value _⟩
      intro text h
      cases h
    | text text =>
      have hlike : BooleanLike (some (.text text)) ↔
          String.ofList ((trimJs text).toList.map Char.toLower) ∈
            ["1", "true", "yes", "y", "0", "false", "no", "n"] := by
        constructor
        · exact fun h => h text rfl
        · intro h text' heq
          cases heq
          exact h
      rw [hlike]
      unfold booleanFromEnvironment
      dsimp only
      generalize String.ofList ((trimJs text).toList.map Char.toLower) = normalized
      split
      · rename_i htrue
        exact Or.inl ⟨List.mem_append_left ["0", "false", "no", "n"] htrue, Verdict.accepts_value _⟩
      · rename_i htrue
        split
        · rename_i hfalse
          exact Or.inl ⟨List.mem_append_right ["1", "true", "yes", "y"] hfalse,
            Verdict.accepts_value _⟩
        · rename_i hfalse
          refine Or.inr ⟨fun hmem => ?_, Verdict.throws_threw _⟩
          rcases List.mem_append.1 (show normalized ∈ ["1", "true", "yes", "y"] ++
            ["0", "false", "no", "n"] from hmem) with h | h
          · exact htrue h
          · exact hfalse h

/-- The variables of `sourceConfigSchema`, each as its field wants it. -/
structure SourceAccepted (source : ConfigSource) : Prop where
  maxPages : source "REPLAY_SOURCE_MAX_PAGES" = none ∨
    IntegerWithin env 1 none (source "REPLAY_SOURCE_MAX_PAGES")
  concurrency : source "REPLAY_SOURCE_CONCURRENCY" = none ∨
    IntegerWithin env 1 (some 32) (source "REPLAY_SOURCE_CONCURRENCY")
  requestSpacing : source "REPLAY_SOURCE_REQUEST_SPACING_MS" = none ∨
    IntegerWithin env 0 (some 5000) (source "REPLAY_SOURCE_REQUEST_SPACING_MS")
  sourceUrl : ∃ out, UrlText env 2048 (source "REPLAY_SOURCE_URL") out
  transport : ∀ text, source "REPLAY_SOURCE_TRANSPORT" = some (.text text) → trimJs text ≠ "" →
    text = "direct" ∨ text = "ssh"
  sshHost : ∀ text, source "REPLAY_SOURCE_SSH_HOST" = some (.text text) →
    1 ≤ jsLength text ∧ jsLength text ≤ 253
  sshCommand : ∀ text, source "REPLAY_SOURCE_SSH_COMMAND" = some (.text text) →
    1 ≤ jsLength text ∧ jsLength text ≤ 2048
  timeout : source "REPLAY_SOURCE_TIMEOUT_MS" = none ∨
    IntegerWithin env 1 none (source "REPLAY_SOURCE_TIMEOUT_MS")
  retryAttempts : source "REPLAY_SOURCE_RETRY_ATTEMPTS" = none ∨
    IntegerWithin env 0 none (source "REPLAY_SOURCE_RETRY_ATTEMPTS")
  watchInterval : source "REPLAY_WATCH_INTERVAL_MS" = none ∨
    IntegerWithin env 0 (some 600000) (source "REPLAY_WATCH_INTERVAL_MS")
  heartbeatPath : ∀ text, source "REPLAY_WATCH_HEARTBEAT_PATH" = some (.text text) →
    1 ≤ jsLength text ∧ jsLength text ≤ 4096

/-- The variables of an accepted environment, but for the two that stand for booleans. -/
structure Accepted (source : ConfigSource) : Prop where
  fields : SourceAccepted env source
  sshHost_of_ssh : source "REPLAY_SOURCE_TRANSPORT" = some (.text "ssh") →
    ∃ text, source "REPLAY_SOURCE_SSH_HOST" = some (.text text)
  endpoint : ∃ out, UrlText env 2048 (source "S3_ENDPOINT") out
  region : TextWithin 64 (source "S3_REGION")
  bucket : TextWithin 63 (source "S3_BUCKET")
  accessKeyId : TextWithin 128 (source "S3_ACCESS_KEY_ID")
  secretAccessKey : TextWithin 256 (source "S3_SECRET_ACCESS_KEY")
  checkpointPrefix : source "S3_CHECKPOINT_PREFIX" = none ∨
    TextWithin 256 (source "S3_CHECKPOINT_PREFIX")
  evidencePrefix : source "S3_EVIDENCE_PREFIX" = none ∨ TextWithin 256 (source "S3_EVIDENCE_PREFIX")
  databaseUrl : ∃ out, UrlText env 2048 (source "DATABASE_URL") out

/-- A field that is an integer from `lo` on, or unset. -/
theorem default_integer_accepts (fallback lo : ℤ) (value : Option EnvValue) :
    (defaultSchema fallback (integerSchema env [minValue lo]) value).Accepts ↔
      value = none ∨ IntegerWithin env lo none value := by
  rw [defaultSchema_accepts, integerSchema_accepts]
  unfold IntegerWithin
  cases value <;> simp [minValue_eq_none]

/-- An optional integer from `lo` on. -/
theorem optional_integer_accepts (lo : ℤ) (value : Option EnvValue) :
    (optionalSchema (integerSchema env [minValue lo]) value).Accepts ↔
      value = none ∨ IntegerWithin env lo none value := by
  rw [optionalSchema_accepts, integerSchema_accepts]
  unfold IntegerWithin
  cases value <;> simp [minValue_eq_none]

/-- An integer between two bounds, or unset. -/
theorem default_bounded_integer_accepts (fallback lo hi : ℤ) (value : Option EnvValue) :
    (defaultSchema fallback (integerSchema env [minValue lo, maxValue hi]) value).Accepts ↔
      value = none ∨ IntegerWithin env lo (some hi) value := by
  rw [defaultSchema_accepts, integerSchema_accepts]
  unfold IntegerWithin
  cases value <;> simp [minValue_eq_none, maxValue_eq_none]

/-- A bounded text, or unset. -/
theorem default_string_accepts (fallback : String) (n : ℕ) (value : Option EnvValue) :
    (defaultSchema fallback (boundedString n) value).Accepts ↔ value = none ∨ TextWithin n value := by
  rw [defaultSchema_accepts, boundedString_accepts]
  cases value <;> simp

/-- A text or nothing, of a variable that is ignored when it is a boolean. -/
theorem default_stringOrUndefined_accepts (fallback : String) (n : ℕ) (value : Option EnvValue) :
    (defaultSchema fallback (boundedString n) (stringOrUndefined value)).Accepts ↔
      ∀ text, value = some (.text text) → 1 ≤ jsLength text ∧ jsLength text ≤ n := by
  rw [default_string_accepts]
  unfold TextWithin
  cases value with
  | none => simp [stringOrUndefined]
  | some value => cases value <;> simp [stringOrUndefined]

/-- The same, for a variable without a default. -/
theorem optional_stringOrUndefined_accepts (n : ℕ) (value : Option EnvValue) :
    (optionalSchema (boundedString n) (stringOrUndefined value)).Accepts ↔
      ∀ text, value = some (.text text) → 1 ≤ jsLength text ∧ jsLength text ≤ n := by
  rw [optionalSchema_accepts, boundedString_accepts]
  unfold TextWithin
  cases value with
  | none => simp [stringOrUndefined]
  | some value => cases value <;> simp [stringOrUndefined]

/-- A transport: one of two names; a blank text or a boolean is as good as unset. -/
theorem transport_accepts (value : Option EnvValue) :
    (defaultSchema "direct" (enumSchema SOURCE_TRANSPORTS)
      (sourceTransportOrUndefined value)).Accepts ↔
      ∀ text, value = some (.text text) → trimJs text ≠ "" → text = "direct" ∨ text = "ssh" := by
  cases value with
  | none => simp [sourceTransportOrUndefined, defaultSchema]
  | some value =>
    cases value with
    | boolean value => simp [sourceTransportOrUndefined, defaultSchema]
    | text text =>
      unfold sourceTransportOrUndefined
      -- a blank text falls back to the default before the names are compared
      by_cases hblank : trimJs text = ""
      · simp [hblank, defaultSchema]
      · simp only [hblank, if_false, defaultSchema, enumSchema]
        by_cases hmem : text ∈ SOURCE_TRANSPORTS
        · rw [if_pos hmem]
          have hor : text = "direct" ∨ text = "ssh" := by simpa [SOURCE_TRANSPORTS] using hmem
          simp [hor]
        · rw [if_neg hmem]
          have hnor : ¬ (text = "direct" ∨ text = "ssh") := by simpa [SOURCE_TRANSPORTS] using hmem
          simp [hblank, hnor]

/-- A URL that is not too long. -/
theorem urlSchema_accepts (n : ℕ) (value : Option EnvValue) :
    (urlSchema env n value).Accepts ↔ ∃ out, UrlText env n value out := by
  unfold Verdict.Accepts
  simp only [urlSchema_eq_value]

/-- The text of a variable, or what stands for it when it is unset. -/
def textOr (fallback : String) : Option EnvValue → String
  | some (.text text) => text
  | _ => fallback

/-- The value of a text with a default. -/
theorem default_string_eq_value {fallback text : String} {n : ℕ} {value : Option EnvValue}
    (h : defaultSchema fallback (boundedString n) value = .value text) :
    text = textOr fallback value := by
  cases value with
  | none =>
    cases h
    rfl
  | some value =>
    obtain ⟨hvalue, _⟩ := boundedString_eq_value.1 h
    cases hvalue
    rfl

/-- A schema that never throws. -/
def Calm {α : Type} (schema : Option EnvValue → Checked α) : Prop :=
  ∀ value, ¬ (schema value).Throws

/-- A bounded string does not throw. -/
theorem calm_boundedString (n : ℕ) : Calm (boundedString n) := by
  intro value
  unfold boundedString
  rw [throws_withChecks]
  cases value with
  | none => exact Verdict.not_throws_issues _
  | some value =>
    cases value with
    | boolean value => exact Verdict.not_throws_issues _
    | text text => exact Verdict.not_throws_value _

/-- Nor does a URL. -/
theorem calm_urlSchema (n : ℕ) : Calm (urlSchema env n) := by
  intro value
  cases value with
  | none => exact Verdict.not_throws_issues _
  | some value =>
    cases value with
    | boolean value => exact Verdict.not_throws_issues _
    | text text =>
      unfold urlSchema stringSchema
      dsimp only
      split
      · rw [throws_withChecks]
        exact Verdict.not_throws_value _
      · rw [throws_withChecks]
        exact Verdict.not_throws_flawed _ _

/-- Nor does an integer. -/
theorem calm_integerSchema (checks : List (ℤ → Option Problem)) :
    Calm (integerSchema env checks) := by
  intro value
  unfold integerSchema
  split
  · exact not_throws_integer _ _
  · exact Verdict.not_throws_issues _

/-- Nor does a choice. -/
theorem calm_enumSchema (options : List String) : Calm (enumSchema options) := by
  intro value
  unfold enumSchema
  split
  · split
    · exact Verdict.not_throws_value _
    · exact Verdict.not_throws_issues _
  · exact Verdict.not_throws_issues _

/-- A default does not throw by itself. -/
theorem calm_defaultSchema {α : Type} {schema : Option EnvValue → Checked α} (fallback : α)
    (h : Calm schema) : Calm (defaultSchema fallback schema) := by
  intro value
  cases value with
  | none => exact Verdict.not_throws_value _
  | some value => exact h (some value)

/-- Nor does an optional variable. -/
theorem calm_optionalSchema {α : Type} {schema : Option EnvValue → Checked α}
    (h : Calm schema) : Calm (optionalSchema schema) := by
  intro value
  cases value with
  | none => exact Verdict.not_throws_value _
  | some value =>
    show ¬ (some <$> schema (some value)).Throws
    rw [Verdict.throws_map]
    exact h (some value)

variable (source : ConfigSource)

/-- No field of the source throws. -/
theorem sourceFields_calm : ¬ (sourceFields env source).Throws := by
  unfold sourceFields fieldAt
  simp only [Verdict.throws_seq, Verdict.throws_map, Verdict.throws_mapIssues, not_or]
  refine ⟨⟨⟨⟨⟨⟨⟨⟨⟨⟨?_, ?_⟩, ?_⟩, ?_⟩, ?_⟩, ?_⟩, ?_⟩, ?_⟩, ?_⟩, ?_⟩, ?_⟩
  · exact calm_optionalSchema (calm_integerSchema env _) _
  · exact calm_defaultSchema _ (calm_integerSchema env _) _
  · exact calm_defaultSchema _ (calm_integerSchema env _) _
  · exact calm_urlSchema env _ _
  · exact calm_defaultSchema _ (calm_enumSchema _) _
  · exact calm_optionalSchema (calm_boundedString _) _
  · exact calm_defaultSchema _ (calm_boundedString _) _
  · exact calm_defaultSchema _ (calm_integerSchema env _) _
  · exact calm_defaultSchema _ (calm_integerSchema env _) _
  · exact calm_defaultSchema _ (calm_integerSchema env _) _
  · exact calm_defaultSchema _ (calm_boundedString _) _

/-- What throws is a text that is not like a boolean. -/
theorem booleanFromEnvironment_throws_iff (value : Option EnvValue) :
    (booleanFromEnvironment value).Throws ↔ ¬ BooleanLike value := by
  rcases booleanFromEnvironment_cases value with ⟨hlike, b, hb⟩ | ⟨hlike, hthrows⟩
  · rw [hb]
    exact iff_of_false (Verdict.not_throws_value b) (not_not.2 hlike)
  · exact iff_of_true hthrows hlike

/-- What does not throw is accepted. -/
theorem booleanFromEnvironment_accepts_iff (value : Option EnvValue) :
    (booleanFromEnvironment value).Accepts ↔ BooleanLike value := by
  rcases booleanFromEnvironment_cases value with ⟨hlike, haccepts⟩ | ⟨hlike, error, herror⟩
  · exact iff_of_true haccepts hlike
  · rw [herror]
    exact iff_of_false (Verdict.not_accepts_threw error) hlike

/-- **What throws** is a text that is not like a boolean, whatever else is wrong. -/
theorem configSchema_throws_iff : (configSchema env source).Throws ↔
    ¬ (BooleanLike (source "S3_FORCE_PATH_STYLE") ∧
      BooleanLike (source "S3_CHECKPOINT_CONDITIONAL_WRITES")) := by
  unfold configSchema s3Schema stagingSchema fieldAt
  simp only [Verdict.throws_refine, Verdict.throws_seq, Verdict.throws_map,
    Verdict.throws_mapIssues, sourceFields_calm, calm_urlSchema env _ _, calm_boundedString _ _,
    calm_defaultSchema _ (calm_boundedString _) _, booleanFromEnvironment_throws_iff, false_or,
    or_false, not_and_or]

/-- The transport is SSH where the variable says so, with no blanks around it. -/
theorem transport_eq_ssh_iff {value : Option EnvValue} {transport : String}
    (h : defaultSchema "direct" (enumSchema SOURCE_TRANSPORTS)
      (sourceTransportOrUndefined value) = .value transport) :
    transport = "ssh" ↔ value = some (.text "ssh") := by
  cases value with
  | none =>
    cases h
    exact iff_of_false (by decide) (by simp)
  | some value =>
    cases value with
    | boolean value =>
      cases h
      exact iff_of_false (by decide) (by simp)
    | text text =>
      unfold sourceTransportOrUndefined at h
      dsimp only at h
      by_cases hblank : trimJs text = ""
      · rw [if_pos hblank] at h
        cases h
        refine iff_of_false (by decide) ?_
        intro heq
        cases heq
        exact absurd hblank (by decide)
      · rw [if_neg hblank] at h
        simp only [defaultSchema, enumSchema] at h
        by_cases hmem : text ∈ SOURCE_TRANSPORTS
        · rw [if_pos hmem] at h
          cases h
          simp
        · rw [if_neg hmem] at h
          cases h

/-- The host is unset where the variable is no text. -/
theorem sshHost_eq_none_iff {value : Option EnvValue} {host : Option String} {n : ℕ}
    (h : optionalSchema (boundedString n) (stringOrUndefined value) = .value host) :
    host = none ↔ ¬ ∃ text, value = some (.text text) := by
  cases value with
  | none =>
    cases h
    exact iff_of_true rfl (by simp)
  | some value =>
    cases value with
    | boolean value =>
      cases h
      exact iff_of_true rfl (by simp)
    | text text =>
      obtain ⟨found, _, rfl⟩ := Verdict.map_eq_value.1 h
      exact iff_of_false (by simp) (not_not.2 ⟨text, rfl⟩)

/-- What the fields that matter here are read from. -/
theorem sourceFields_eq_value {config : Config.SourceConfig}
    (h : sourceFields env source = .value config) :
    UrlText env MAX_URL_LEN (source "REPLAY_SOURCE_URL") config.sourceUrl ∧
      (config.sourceTransport = "ssh" ↔ source "REPLAY_SOURCE_TRANSPORT" = some (.text "ssh")) ∧
      (config.sourceSshHost = none ↔
        ¬ ∃ text, source "REPLAY_SOURCE_SSH_HOST" = some (.text text)) := by
  unfold sourceFields fieldAt at h
  simp only [Verdict.seq_eq_value, Verdict.map_eq_value, Verdict.mapIssues_eq_value] at h
  obtain ⟨_, path, ⟨_, interval, ⟨_, attempts, ⟨_, timeout, ⟨_, command, ⟨_, host,
    ⟨_, transport, ⟨_, url, ⟨_, spacing, ⟨_, concurrency, ⟨maxPages, _, rfl⟩, _, rfl⟩, _, rfl⟩,
    hurl, rfl⟩, htransport, rfl⟩, hhost, rfl⟩, _, rfl⟩, _, rfl⟩, _, rfl⟩, _, rfl⟩, _, rfl⟩ := h
  exact ⟨(urlSchema_eq_value env).1 hurl, transport_eq_ssh_iff htransport, sshHost_eq_none_iff hhost⟩

/-- The fields of the source are accepted one by one. -/
theorem sourceFields_accepts_iff :
    (sourceFields env source).Accepts ↔ SourceAccepted env source := by
  unfold sourceFields fieldAt
  simp only [Verdict.accepts_seq, Verdict.accepts_map, Verdict.accepts_mapIssues,
    optional_integer_accepts, default_integer_accepts, default_bounded_integer_accepts,
    urlSchema_accepts, transport_accepts, optional_stringOrUndefined_accepts,
    default_stringOrUndefined_accepts]
  constructor
  · rintro ⟨⟨⟨⟨⟨⟨⟨⟨⟨⟨hpages, hconcurrency⟩, hspacing⟩, hurl⟩, htransport⟩, hhost⟩, hcommand⟩,
      htimeout⟩, hattempts⟩, hinterval⟩, hpath⟩
    exact ⟨hpages, hconcurrency, hspacing, hurl, htransport, hhost, hcommand, htimeout, hattempts,
      hinterval, hpath⟩
  · rintro ⟨hpages, hconcurrency, hspacing, hurl, htransport, hhost, hcommand, htimeout, hattempts,
      hinterval, hpath⟩
    exact ⟨⟨⟨⟨⟨⟨⟨⟨⟨⟨hpages, hconcurrency⟩, hspacing⟩, hurl⟩, htransport⟩, hhost⟩, hcommand⟩,
      htimeout⟩, hattempts⟩, hinterval⟩, hpath⟩

/-- So are those of the store. -/
theorem s3Schema_accepts_iff : (s3Schema env source).Accepts ↔
    (∃ out, UrlText env 2048 (source "S3_ENDPOINT") out) ∧ TextWithin 64 (source "S3_REGION") ∧
      TextWithin 63 (source "S3_BUCKET") ∧ TextWithin 128 (source "S3_ACCESS_KEY_ID") ∧
      TextWithin 256 (source "S3_SECRET_ACCESS_KEY") ∧ BooleanLike (source "S3_FORCE_PATH_STYLE") ∧
      (source "S3_CHECKPOINT_PREFIX" = none ∨ TextWithin 256 (source "S3_CHECKPOINT_PREFIX")) ∧
      (source "S3_EVIDENCE_PREFIX" = none ∨ TextWithin 256 (source "S3_EVIDENCE_PREFIX")) ∧
      BooleanLike (source "S3_CHECKPOINT_CONDITIONAL_WRITES") := by
  unfold s3Schema fieldAt
  simp only [Verdict.accepts_seq, Verdict.accepts_map, Verdict.accepts_mapIssues,
    urlSchema_accepts, boundedString_accepts, default_string_accepts,
    booleanFromEnvironment_accepts_iff, and_assoc]
  rfl

/-- What the configuration has from the fields that matter here. -/
theorem configSchema_eq_value {config : AppConfig} (h : configSchema env source = .value config) :
    UrlText env MAX_URL_LEN (source "REPLAY_SOURCE_URL") config.sourceUrl ∧
      config.s3.checkpointPrefix = textOr "checkpoints" (source "S3_CHECKPOINT_PREFIX") ∧
      config.s3.evidencePrefix = textOr "runs" (source "S3_EVIDENCE_PREFIX") := by
  obtain ⟨hvalue, _⟩ := Verdict.refine_eq_value.1 h
  unfold fieldAt at hvalue
  simp only [Verdict.seq_eq_value, Verdict.map_eq_value, Verdict.mapIssues_eq_value] at hvalue
  obtain ⟨_, staging, ⟨_, s3, ⟨fields, hfields, rfl⟩, hs3, rfl⟩, _, rfl⟩ := hvalue
  unfold s3Schema fieldAt at hs3
  simp only [Verdict.seq_eq_value, Verdict.map_eq_value, Verdict.mapIssues_eq_value] at hs3
  obtain ⟨_, writes, ⟨_, evidence, ⟨_, checkpoint, ⟨_, pathStyle, ⟨_, secret, ⟨_, accessKey,
    ⟨_, bucket, ⟨_, region, ⟨endpoint, _, rfl⟩, _, rfl⟩, _, rfl⟩, _, rfl⟩, _, rfl⟩, _, rfl⟩,
    hcheckpoint, rfl⟩, hevidence, rfl⟩, _, rfl⟩ := hs3
  exact ⟨(sourceFields_eq_value env source hfields).1, default_string_eq_value hcheckpoint,
    default_string_eq_value hevidence⟩

/-- The cross-check of the fields that were read. -/
theorem sshHostIssues_eq_nil_iff {config : Config.SourceConfig}
    (h : sourceFields env source = .value config) : sshHostIssues config = [] ↔
      (source "REPLAY_SOURCE_TRANSPORT" = some (.text "ssh") →
        ∃ text, source "REPLAY_SOURCE_SSH_HOST" = some (.text text)) := by
  obtain ⟨_, htransport, hhost⟩ := sourceFields_eq_value env source h
  unfold sshHostIssues
  split
  · rename_i hboth
    exact iff_of_false (List.cons_ne_nil _ _) fun hgiven =>
      hhost.1 hboth.2 (hgiven (htransport.1 hboth.1))
  · rename_i hnot
    refine iff_of_true rfl fun hssh => ?_
    by_contra hnone
    exact hnot ⟨htransport.2 hssh, hhost.2 hnone⟩

/-- **What the schema accepts.** -/
theorem configSchema_accepts_iff : (configSchema env source).Accepts ↔
    Accepted env source ∧ BooleanLike (source "S3_FORCE_PATH_STYLE") ∧
      BooleanLike (source "S3_CHECKPOINT_CONDITIONAL_WRITES") := by
  have hall : (AppConfig.mk <$> sourceFields env source <*> fieldAt "s3" (s3Schema env source)
      <*> fieldAt "staging" (stagingSchema env source)).Accepts ↔
      (SourceAccepted env source ∧ (s3Schema env source).Accepts) ∧
        ∃ out, UrlText env 2048 (source "DATABASE_URL") out := by
    unfold fieldAt stagingSchema
    unfold fieldAt
    simp only [Verdict.accepts_seq, Verdict.accepts_map, Verdict.accepts_mapIssues,
      sourceFields_accepts_iff, urlSchema_accepts]
    rfl
  constructor
  · rintro ⟨config, hconfig⟩
    obtain ⟨hvalue, hchecked⟩ := Verdict.refine_eq_value.1 hconfig
    obtain ⟨⟨hfields, hs3⟩, hstaging⟩ := hall.1 ⟨config, hvalue⟩
    obtain ⟨hendpoint, hregion, hbucket, haccess, hsecret, hstyle, hcheckpoint, hevidence, hwrites⟩ :=
      (s3Schema_accepts_iff env source).1 hs3
    unfold fieldAt at hvalue
    simp only [Verdict.seq_eq_value, Verdict.map_eq_value, Verdict.mapIssues_eq_value] at hvalue
    obtain ⟨_, staging, ⟨_, s3, ⟨fields, hsource, rfl⟩, _, rfl⟩, _, rfl⟩ := hvalue
    have hssh := (sshHostIssues_eq_nil_iff env source hsource).1 hchecked
    exact ⟨⟨hfields, hssh, hendpoint, hregion, hbucket, haccess, hsecret, hcheckpoint, hevidence,
      hstaging⟩, hstyle, hwrites⟩
  · rintro ⟨⟨hfields, hssh, hendpoint, hregion, hbucket, haccess, hsecret, hcheckpoint, hevidence,
      hstaging⟩, hstyle, hwrites⟩
    have hs3 := (s3Schema_accepts_iff env source).2
      ⟨hendpoint, hregion, hbucket, haccess, hsecret, hstyle, hcheckpoint, hevidence, hwrites⟩
    obtain ⟨config, hvalue⟩ := hall.2 ⟨⟨hfields, hs3⟩, hstaging⟩
    refine ⟨config, Verdict.refine_eq_value.2 ⟨hvalue, ?_⟩⟩
    unfold fieldAt at hvalue
    simp only [Verdict.seq_eq_value, Verdict.map_eq_value, Verdict.mapIssues_eq_value] at hvalue
    obtain ⟨_, staging, ⟨_, s3, ⟨fields, hsource, rfl⟩, _, rfl⟩, _, rfl⟩ := hvalue
    exact (sshHostIssues_eq_nil_iff env source hsource).2 hssh

/-! ## Loading and building keys -/

/-- A configuration is loaded when the schema has a value. -/
theorem loadConfig_eq_ok {config : AppConfig} :
    loadConfig env source = .ok config ↔ configSchema env source = .value config := by
  unfold loadConfig parsed
  cases configSchema env source <;> simp

/-- Another error than a `ConfigValidationError` is one the schema threw. -/
theorem loadConfig_other_iff : (∃ error, loadConfig env source = .error (.other error)) ↔
    (configSchema env source).Throws := by
  unfold loadConfig parsed
  cases configSchema env source <;> simp

/-- The keys of a configuration can be built: the checkpoint's, if its source is read over HTTP, and
    the evidence's, for each run id. -/
def KeysBuild (pf : Platform Text) (config : AppConfig) : Prop :=
  (∃ url, pf.parseUrl config.sourceUrl = some url ∧
    (url.IsHttp → ∃ key, toCheckpointObjectKey config.s3.checkpointPrefix url = .ok key)) ∧
  ∀ now uuid, IsUuid uuid →
    ∃ key, toEvidenceObjectKey config.s3.evidencePrefix (createRunId now uuid) = .ok key

/-- Loading fails with a `ConfigValidationError`, or gives a configuration whose keys can be built. -/
def NeverCrashes : Prop :=
  (∀ error, loadConfig env source ≠ .error (.other error)) ∧
  ∀ config, loadConfig env source = .ok config → KeysBuild pf config

/-- Something of the source stays in its slug. -/
def HasSlug (url : Url) : Prop := ∃ c ∈ (url.host ++ url.pathname).toList, IsSlugChar c.toLower

/-- A slug is not empty when a character of the source stays in it. -/
theorem toSourceSlug_ne_empty_iff (url : Url) : toSourceSlug url ≠ "" ↔ HasSlug url := by
  have h := slugOf_eq_empty_iff (url.host ++ url.pathname)
  show ¬ slugOf (url.host ++ url.pathname) = "" ↔ _
  rw [h]
  unfold HasSlug
  simp only [not_forall, not_not, exists_prop]

/-- **The condition.**  What stands for a boolean is like one; and when the other variables are
    accepted, the prefixes are safe and the source has a slug. -/
def SafeEnvironment : Prop :=
  BooleanLike (source "S3_FORCE_PATH_STYLE") ∧
  BooleanLike (source "S3_CHECKPOINT_CONDITIONAL_WRITES") ∧
  (Accepted env source →
    (∀ out url, UrlText env MAX_URL_LEN (source "REPLAY_SOURCE_URL") out →
      pf.parseUrl out = some url → url.IsHttp →
      SafePrefix (textOr "checkpoints" (source "S3_CHECKPOINT_PREFIX")) ∧ HasSlug url) ∧
    SafePrefix (textOr "runs" (source "S3_EVIDENCE_PREFIX")))

/-- A variable is read as one URL. -/
theorem urlText_unique {n m : ℕ} {value : Option EnvValue} {out out' : String}
    (h : UrlText env n value out) (h' : UrlText env m value out') : out = out' := by
  obtain ⟨text, rfl, hout, _⟩ := h
  obtain ⟨text', heq, hout', _⟩ := h'
  cases heq
  rw [hout] at hout'
  exact Option.some.inj hout'

/-- There are UUIDs. -/
theorem exists_uuid : ∃ uuid, IsUuid uuid := by
  refine ⟨"00000000-0000-4000-8000-000000000000", "00000000".toList, "0000".toList, "4000".toList,
    "8000".toList, "000000000000".toList, rfl, rfl, rfl, rfl, rfl, rfl, ?_⟩
  simp

/-- The keys of an accepted configuration. -/
theorem keysBuild_iff {config : AppConfig} (h : configSchema env source = .value config) :
    KeysBuild pf config ↔
      (∀ out url, UrlText env MAX_URL_LEN (source "REPLAY_SOURCE_URL") out →
        pf.parseUrl out = some url → url.IsHttp →
        SafePrefix (textOr "checkpoints" (source "S3_CHECKPOINT_PREFIX")) ∧ HasSlug url) ∧
      SafePrefix (textOr "runs" (source "S3_EVIDENCE_PREFIX")) := by
  obtain ⟨hurl, hcheckpoint, hevidence⟩ := configSchema_eq_value env source h
  unfold KeysBuild
  rw [hcheckpoint, hevidence]
  refine and_congr ?_ ?_
  · constructor
    · -- the URL of the schema and the one that is parsed again are one
      rintro ⟨url, hparse, hkey⟩ out url' hout hparse' hhttp
      rw [urlText_unique env hout hurl, hparse] at hparse'
      cases hparse'
      obtain ⟨hsafe, hslug⟩ := (toCheckpointObjectKey_isOk_iff _ _).1 (hkey hhttp)
      exact ⟨hsafe, (toSourceSlug_ne_empty_iff url).1 hslug⟩
    · intro hsafe
      obtain ⟨text, _, hout, _⟩ := hurl
      obtain ⟨url, hparse⟩ := Option.isSome_iff_exists.1 (env.parse_url _ _ hout)
      refine ⟨url, hparse, fun hhttp => (toCheckpointObjectKey_isOk_iff _ _).2 ?_⟩
      obtain ⟨hstarts, hslug⟩ := hsafe _ url (configSchema_eq_value env source h).1 hparse hhttp
      exact ⟨hstarts, (toSourceSlug_ne_empty_iff url).2 hslug⟩
  · constructor
    · intro hkeys
      -- one UUID tells whether the prefix is safe, and it is the same for all
      obtain ⟨uuid, huuid⟩ := exists_uuid
      exact ((toEvidenceObjectKey_isOk_iff _ _).1 (hkeys 0 uuid huuid)).1
    · intro hsafe now uuid _
      exact (toEvidenceObjectKey_isOk_iff _ _).2 ⟨hsafe, toRunSlug_createRunId now uuid⟩

/-- **Exactly when a configuration never crashes**: when what stands for a boolean is like one, and
    an otherwise accepted environment has safe prefixes and a source with a slug. -/
theorem never_crashes_iff : NeverCrashes env source ↔ SafeEnvironment env source := by
  have hthrows := configSchema_throws_iff env source
  have haccepts := configSchema_accepts_iff env source
  have hother := loadConfig_other_iff env source
  constructor
  · rintro ⟨hno, hkeys⟩
    -- a schema that throws is an error of the other kind
    have hcalm : ¬ (configSchema env source).Throws := by
      rw [← hother]
      rintro ⟨error, herror⟩
      exact hno error herror
    rw [hthrows, not_not] at hcalm
    refine ⟨hcalm.1, hcalm.2, fun haccepted => ?_⟩
    obtain ⟨config, hconfig⟩ := haccepts.2 ⟨haccepted, hcalm⟩
    exact (keysBuild_iff env source hconfig).1
      (hkeys config ((loadConfig_eq_ok env source).2 hconfig))
  · rintro ⟨hstyle, hwrites, hsafe⟩
    refine ⟨fun error herror => ?_, fun config hconfig => ?_⟩
    · exact hthrows.1 (hother.1 ⟨error, herror⟩) ⟨hstyle, hwrites⟩
    · -- an accepted configuration: its keys build by the condition
      have hvalue := (loadConfig_eq_ok env source).1 hconfig
      exact (keysBuild_iff env source hvalue).2 (hsafe (haccepts.1 ⟨config, hvalue⟩).1)

end Schema

/-! ## A flaw -/

/-- `scheme://host/path`, taken apart. -/
def simpleUrl (text : String) : Option Url :=
  let scheme := text.toList.takeWhile (· ≠ ':')
  let rest := text.toList.drop scheme.length
  if "://".toList.isPrefixOf rest then
    let host := (rest.drop 3).takeWhile (· ≠ '/')
    let path := (rest.drop 3).drop host.length
    some { protocol := String.ofList scheme ++ ":", host := String.ofList host
           pathname := if path = [] then "/" else String.ofList path }
  else none

/-- A platform that reads such URLs. -/
def simplePlatform : Platform (Option Json) :=
  { toyPlatform with
    parse_stringify := parse_stringify_toyPlatform
    sha256Hex_hex := isSha256Hex_toyDigest
    parseUrl := simpleUrl }

/-- Its reader of the environment: decimals and such URLs. -/
def simpleTexts : TextReader simplePlatform where
  toNumber text := (digitsValue text).elim .nan fun n => .finite n
  url text := if (simpleUrl text).isSome then some text else none
  message _ := "Invalid input"
  parse_url text out h := by
    split at h
    · rename_i hsome
      cases h
      exact hsome
    · cases h

/-- The required variables, and one more. -/
def environment (name value : String) : ConfigSource := fun key =>
  (([("REPLAY_SOURCE_URL", "https://example.test/replays"),
    ("S3_ENDPOINT", "https://s3.example.test"), ("S3_REGION", "us-east-1"), ("S3_BUCKET", "replays"),
    ("S3_ACCESS_KEY_ID", "access-key"), ("S3_SECRET_ACCESS_KEY", "secret-key"),
    ("DATABASE_URL", "postgres://localhost:5432/replays"), (name, value)] :
    List (String × String)).lookup key).map .text

/-- **The flaw**, twice: a text that is not like a boolean is not reported as an issue, and a prefix
    with a capital letter is accepted. -/
theorem not_never_crashes :
    ¬ NeverCrashes simpleTexts (environment "S3_FORCE_PATH_STYLE" "sometimes") ∧
    ¬ NeverCrashes simpleTexts (environment "S3_CHECKPOINT_PREFIX" "Checkpoints") := by
  constructor
  · rintro ⟨hno, _⟩
    exact hno (.error "Expected boolean-like value") rfl
  · rintro ⟨_, hkeys⟩
    -- the configuration is accepted, but no key can be built with its prefix
    have haccepts : (configSchema simpleTexts
        (environment "S3_CHECKPOINT_PREFIX" "Checkpoints")).Accepts := ⟨_, rfl⟩
    obtain ⟨config, hconfig⟩ := haccepts
    have hbuild := hkeys config ((loadConfig_eq_ok simpleTexts _).2 hconfig)
    obtain ⟨hsafe, _⟩ := (keysBuild_iff simpleTexts _ hconfig).1 hbuild
    have hurl : UrlText simpleTexts MAX_URL_LEN
        (environment "S3_CHECKPOINT_PREFIX" "Checkpoints" "REPLAY_SOURCE_URL")
        "https://example.test/replays" := ⟨_, rfl, rfl, by decide⟩
    obtain ⟨⟨_, hstarts⟩, _⟩ := hsafe _ _ hurl rfl (Or.inr rfl)
    exact absurd (hstarts 'C' (by decide)) (by decide)

/-! ## In a run -/

/-- **A key that cannot be built comes up in the run**: it rejects before it reads anything. -/
theorem run_rejects {Text : Type} {pf : Platform Text} {config : RunConfig} {error : JsError}
    (h : checkpointKey pf config.checkpointOptions (pf.withoutUserinfo config.sourceUrl) =
      .error error) :
    config.run pf = Proc.call .now fun _ =>
      Proc.call (.log (.runStart config.runId (pf.withoutUserinfo config.sourceUrl))) fun _ =>
        Proc.pure (.error error) := by
  have hread : readCheckpoint pf config.checkpointOptions (pf.withoutUserinfo config.sourceUrl) =
      Proc.pure (.error error) := by
    unfold readCheckpoint
    rw [h]
    rfl
  have hresolve : resolveResumeState (config.toInput pf (config.store pf))
      (pf.withoutUserinfo (config.toInput pf (config.store pf)).sourceUrl) =
        Proc.pure (.error error) := by
    unfold resolveResumeState
    show (readCheckpoint pf config.checkpointOptions (pf.withoutUserinfo config.sourceUrl) >>= _) = _
    rw [hread]
    rfl
  show Proc.call _ _ = _
  congr 1
  funext now
  show Proc.call _ _ = _
  congr 1
  funext logged
  rw [hresolve]
  rfl

end ReplaysFetcher.KeyBuilding
