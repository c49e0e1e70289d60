import Orgistry.Model.RuntimeConfig

/-!
# Loading a configuration

What the resolution of secret sources leaves of a record, variable by variable, and when
`loadConfig` accepts it.
-/

namespace Orgistry.Model

open Text Validation

/-- No domain names beyond ASCII. -/
def asciiOnly : Unicode := ⟨asciiLowerCase, fun _ => none, nofun⟩

namespace FileBackedSecretName

variable {name other : FileBackedSecretName}

theorem text_injective : Function.Injective text := by
  intro name other h
  cases name <;> cases other <;> first | rfl | exact absurd h (by decide)

theorem fileVariable_injective : Function.Injective fileVariable := by
  intro name other h
  cases name <;> cases other <;> first | rfl | exact absurd h (by decide)

theorem text_ne_fileVariable (name other : FileBackedSecretName) :
    name.text ≠ other.fileVariable := by
  cases name <;> cases other <;> decide

end FileBackedSecretName

/-- What the resolution does with a secret. -/
inductive SecretOutcome
  | keep
  | reject (issue : String)
  | replace (value : List Char)

namespace SecretOutcome

def value (outcome : SecretOutcome) (direct : Option (List Char)) : Option (List Char) :=
  match outcome with
  | keep => direct
  | reject _ => none
  | replace value => some value

def issues : SecretOutcome → List String
  | keep => []
  | reject issue => [issue]
  | replace _ => []

def apply (outcome : SecretOutcome) (resolution : SecretResolution)
    (name : FileBackedSecretName) : SecretResolution :=
  ⟨Function.update resolution.env name.text (outcome.value (resolution.env name.text)),
    resolution.issues ++ outcome.issues⟩

variable (outcome : SecretOutcome) (resolution : SecretResolution) (name : FileBackedSecretName)

@[simp]
theorem apply_env : (outcome.apply resolution name).env =
    Function.update resolution.env name.text (outcome.value (resolution.env name.text)) := rfl

@[simp]
theorem apply_issues :
    (outcome.apply resolution name).issues = resolution.issues ++ outcome.issues := rfl

end SecretOutcome

/-- What is made of the file of a secret. -/
def fileOutcome (readSecretFile : SecretFileReader) (name : FileBackedSecretName)
    (filePath : List Char) : SecretOutcome :=
  match readSecretFile filePath with
  | .error error => .reject (unreadableFile name filePath error)
  | .ok contents =>
      if stripOneTrailingLineEnding contents = [] then .reject (emptyFile name filePath)
      else .replace (stripOneTrailingLineEnding contents)

def secretOutcome (readSecretFile : SecretFileReader) (name : FileBackedSecretName)
    (direct filePath : Option (List Char)) : SecretOutcome :=
  match filePath with
  | none => .keep
  | some path =>
      if !isConfigured (some path) then .keep
      else if isConfigured direct then .reject (ambiguousSource name)
      else fileOutcome readSecretFile name path

section Resolution

variable {source : EnvRecord} {readSecretFile : SecretFileReader}

/-- The outcome for a secret of a record. -/
def outcomeIn (source : EnvRecord) (readSecretFile : SecretFileReader)
    (name : FileBackedSecretName) : SecretOutcome :=
  secretOutcome readSecretFile name (source name.text) (source name.fileVariable)

/-- Resolving a secret adds its outcome and leaves the others alone. -/
theorem resolveSecretSource_eq (resolution : SecretResolution) (name : FileBackedSecretName) :
    resolveSecretSource source readSecretFile resolution name =
      (outcomeIn source readSecretFile name).apply resolution name := by
  have hkeep : SecretOutcome.keep.apply resolution name = resolution := by
    simp only [SecretOutcome.apply, SecretOutcome.value, SecretOutcome.issues,
      Function.update_eq_self, List.append_nil]
  rw [resolveSecretSource, outcomeIn]
  cases source name.fileVariable with
  | none => exact hkeep.symm
  | some path =>
      dsimp only [secretOutcome]
      by_cases hpath : isConfigured (some path)
      · rw [hpath]
        by_cases hdirect : isConfigured (source name.text)
        · rw [hdirect]
          rfl
        · rw [Bool.eq_false_iff.mpr hdirect]
          simp only [Bool.not_true, Bool.false_eq_true, if_false, fileOutcome]
          cases readSecretFile path with
          | error error => rfl
          | ok contents =>
              dsimp only
              by_cases hempty : stripOneTrailingLineEnding contents = []
              · rw [if_pos hempty, if_pos hempty]
                rfl
              · rw [if_neg hempty, if_neg hempty]
                simp only [SecretOutcome.apply, SecretOutcome.value, SecretOutcome.issues,
                  List.append_nil]
      · rw [Bool.eq_false_iff.mpr hpath]
        exact hkeep.symm

/-- The loop over some of the names. -/
theorem foldl_resolveSecretSource (names : List FileBackedSecretName) (hnames : names.Nodup)
    (resolution : SecretResolution) :
    (∀ name : FileBackedSecretName,
      (names.foldl (resolveSecretSource source readSecretFile) resolution).env name.text =
        if name ∈ names then
          (outcomeIn source readSecretFile name).value (resolution.env name.text)
        else resolution.env name.text) ∧
    (∀ key, (∀ name : FileBackedSecretName, key ≠ name.text) →
      (names.foldl (resolveSecretSource source readSecretFile) resolution).env key =
        resolution.env key) ∧
    (names.foldl (resolveSecretSource source readSecretFile) resolution).issues =
      resolution.issues ++
        names.flatMap fun name => (outcomeIn source readSecretFile name).issues := by
  induction names generalizing resolution with
  | nil => exact ⟨fun name => (if_neg (List.not_mem_nil)).symm, fun _ _ => rfl, by simp⟩
  | cons first names ih =>
      obtain ⟨hfirst, hnames⟩ := List.nodup_cons.mp hnames
      obtain ⟨hsecrets, hothers, hissues⟩ := ih hnames
        (resolveSecretSource source readSecretFile resolution first)
      rw [resolveSecretSource_eq] at hsecrets hothers hissues
      rw [List.foldl_cons, resolveSecretSource_eq]
      refine ⟨fun name => ?_, fun key hkey => ?_, ?_⟩
      · rw [hsecrets name]
        by_cases hname : name = first
        · subst hname
          rw [if_neg hfirst, if_pos List.mem_cons_self, SecretOutcome.apply_env,
            Function.update_self]
        · have htext : name.text ≠ first.text :=
            FileBackedSecretName.text_injective.ne hname
          simp only [SecretOutcome.apply_env, Function.update_of_ne htext, List.mem_cons, hname,
            false_or]
      · rw [hothers key hkey, SecretOutcome.apply_env, Function.update_of_ne (hkey first)]
      · rw [hissues, SecretOutcome.apply_issues, List.flatMap_cons, List.append_assoc]

theorem resolve_secret (name : FileBackedSecretName) :
    (resolveSecretSources source readSecretFile).env name.text =
      (outcomeIn source readSecretFile name).value (source name.text) := by
  rw [resolveSecretSources, (foldl_resolveSecretSource _ (by decide) _).1 name,
    if_pos name.mem_fileBackedSecretNames]

theorem resolve_other {key : String} (h : ∀ name : FileBackedSecretName, key ≠ name.text) :
    (resolveSecretSources source readSecretFile).env key = source key :=
  (foldl_resolveSecretSource _ (by decide) _).2.1 key h

theorem resolve_issues :
    (resolveSecretSources source readSecretFile).issues =
      fileBackedSecretNames.flatMap fun name =>
        (outcomeIn source readSecretFile name).issues :=
  (foldl_resolveSecretSource _ (by decide) _).2.2

/-- Without files nothing is resolved. -/
theorem resolve_of_no_files (h : ∀ name : FileBackedSecretName, source name.fileVariable = none) :
    resolveSecretSources source readSecretFile = ⟨source, []⟩ := by
  have hkeep : ∀ name, outcomeIn source readSecretFile name = .keep := by
    intro name
    rw [outcomeIn, h name]
    rfl
  have hissues : (resolveSecretSources source readSecretFile).issues = [] := by
    rw [resolve_issues, List.flatMap_eq_nil_iff]
    intro name _
    rw [hkeep name]
    rfl
  have henv : (resolveSecretSources source readSecretFile).env = source := by
    funext key
    by_cases hkey : ∃ name : FileBackedSecretName, key = name.text
    · obtain ⟨name, rfl⟩ := hkey
      rw [resolve_secret, hkeep name]
      rfl
    · exact resolve_other fun name hname => hkey ⟨name, hname⟩
  calc resolveSecretSources source readSecretFile
    _ = ⟨(resolveSecretSources source readSecretFile).env,
          (resolveSecretSources source readSecretFile).issues⟩ := rfl
    _ = ⟨source, []⟩ := by rw [henv, hissues]

end Resolution

namespace EnvSchema

variable {unicode : Unicode} {record : EnvRecord} {name value : String}
  {checks : List (List Char → Option String)}

/-- No secret has two fields, and no variable for a file has one. -/
theorem names_sound (unicode : Unicode) :
    (((shape unicode).map Field.name).filter fun key =>
      key ∈ fileBackedSecretNames.map FileBackedSecretName.text).Nodup ∧
    ∀ name ∈ fileBackedSecretNames, name.fileVariable ∉ (shape unicode).map Field.name := by
  simp only [shape, rawEnvSchema, List.map_cons, List.map_nil, Row.slot, Field.slot, nodeEnv,
    logLevel, apiHost, trustProxy, webDemoUrl, corsOrigins, databaseUrl, redisUrl, mailDriver,
    mailFromEmail, mailFromName, smtpHost, smtpUsername, smtpPassword, mailpitHost, jwtSecret,
    jwtPreviousSecret, cookieSecure, authRefreshCookieName, authRefreshCookiePath,
    authCsrfHeaderName, rateLimitFailureMode, apiKeyLastUsedThrottleSeconds,
    retentionSecurityEventDays, retentionExpiredAuthTokenDays, retentionEndedSessionDays,
    retentionCleanupBatchSize, positive, port, numberField, defaultText, requiredText,
    optionalText, defaultEnum]
  decide +kernel

/-- A secret has one field. -/
theorem eq_of_secret {unicode : Unicode} {field other : TextField Unit}
    (hfield : field ∈ shape unicode) (hother : other ∈ shape unicode)
    (hsecret : field.name ∈ fileBackedSecretNames.map FileBackedSecretName.text)
    (hname : other.name = field.name) : other = field := by
  have hnodup := (names_sound unicode).1
  rw [List.filter_map] at hnodup
  refine List.inj_on_of_nodup_map hnodup (List.mem_filter.mpr ⟨hother, ?_⟩)
    (List.mem_filter.mpr ⟨hfield, decide_eq_true hsecret⟩) hname
  rw [Function.comp_apply, hname]
  exact decide_eq_true hsecret

theorem slot_mem (i : ℕ) {slot : TextField Unit}
    (h : (rawEnvSchema unicode)[i]? = some (.field slot)) : slot ∈ shape unicode :=
  List.mem_map_of_mem (List.mem_of_getElem? h)

theorem defaultText_value :
    (defaultText name checks value).value record = (record name).getD value.toList := by
  rw [Field.value, Field.read, defaultText]
  cases record name <;> rfl

theorem defaultText_passes (hmem : (defaultText name checks value).slot ∈ shape unicode)
    (h : issuesOf (shape unicode) record = []) :
    ∀ check ∈ checks, check ((record name).getD value.toList) = none := by
  have hissues := Field.issues_eq_nil hmem h
  rw [defaultText] at hissues
  cases hrecord : record name with
  | none =>
      rw [hrecord] at hissues
      exact Parsed.checked_issues_eq_nil_iff.mp hissues
  | some text =>
      rw [hrecord] at hissues
      exact Parsed.checked_issues_eq_nil_iff.mp hissues

end EnvSchema

/-! ## Acceptance -/

namespace RuntimeConfig

variable {unicode : Unicode} {readSecretFile : SecretFileReader} {source other : EnvRecord}

/-- The record that the schema sees. -/
def resolved (unicode : Unicode) (readSecretFile : SecretFileReader) (source : EnvRecord) :
    EnvRecord :=
  strip (EnvSchema.shape unicode) (resolveSecretSources source readSecretFile).env

/-- A variable of the schema that is no secret is read as it was given. -/
theorem resolved_apply {key : String} (hmem : key ∈ (EnvSchema.shape unicode).map Field.name)
    (h : key ∉ fileBackedSecretNames.map FileBackedSecretName.text) :
    resolved unicode readSecretFile source key = source key := by
  rw [resolved, strip, if_pos hmem]
  refine resolve_other fun name hname => h ?_
  rw [hname]
  exact List.mem_map_of_mem name.mem_fileBackedSecretNames

theorem envIssues_eq_nil_iff {record : EnvRecord} :
    envIssues unicode record = [] ↔ issuesOf (EnvSchema.shape unicode) record = [] ∧
      refine unicode (EnvSchema.toEnv unicode record) = [] := by
  rw [envIssues, List.append_eq_nil_iff]
  refine and_congr_right fun hfields => ?_
  rw [givesUp_eq_false hfields]
  rfl

/-- A configuration is loaded when no secret and no field has an issue. -/
theorem loadConfig_eq_ok_iff {config : RuntimeConfig} :
    loadConfig unicode readSecretFile source = .ok config ↔
      (resolveSecretSources source readSecretFile).issues = [] ∧
      envIssues unicode (resolved unicode readSecretFile source) = [] ∧
      toConfig unicode (EnvSchema.toEnv unicode (resolved unicode readSecretFile source)) =
        config := by
  rw [loadConfig, resolved]
  by_cases hresolved : (resolveSecretSources source readSecretFile).issues = []
  · rw [if_neg (not_not.mpr hresolved), safeParse]
    by_cases hissues : envIssues unicode
        (strip (EnvSchema.shape unicode) (resolveSecretSources source readSecretFile).env) = []
    · simp only [hissues, hresolved, if_true, true_and, Except.ok.injEq]
    · rw [if_neg hissues]
      simp only [hissues, false_and, and_false, reduceCtorEq]
  · rw [if_pos hresolved]
    simp only [hresolved, false_and, reduceCtorEq]

/-- A record of variables of the schema is loaded by its own issues. -/
theorem loadConfig_of_known
    (hknown : ∀ key, source key ≠ none → key ∈ (EnvSchema.shape unicode).map Field.name)
    (hfiles : ∀ name : FileBackedSecretName, source name.fileVariable = none)
    (hissues : envIssues unicode source = []) :
    loadConfig unicode readSecretFile source =
      .ok (toConfig unicode (EnvSchema.toEnv unicode source)) := by
  have hresolved : resolved unicode readSecretFile source = source := by
    rw [resolved, resolve_of_no_files hfiles]
    funext key
    rw [strip]
    split
    · rfl
    · next hkey => exact (not_not.mp fun hsome => hkey (hknown key hsome)).symm
  rw [loadConfig_eq_ok_iff, hresolved, resolve_of_no_files hfiles]
  exact ⟨rfl, hissues, rfl⟩

/-- The configuration depends on the resolved variables of the schema only. -/
theorem loadConfig_congr
    (hissues : (resolveSecretSources source readSecretFile).issues =
      (resolveSecretSources other readSecretFile).issues)
    (henv : resolved unicode readSecretFile source = resolved unicode readSecretFile other) :
    loadConfig unicode readSecretFile source = loadConfig unicode readSecretFile other := by
  rw [resolved, resolved] at henv
  rw [loadConfig, loadConfig, safeParse, safeParse, hissues, henv]

/-- A record is rejected, whatever the issues say. -/
def Rejected (unicode : Unicode) (readSecretFile : SecretFileReader) (source : EnvRecord) : Prop :=
  ∀ config, loadConfig unicode readSecretFile source ≠ .ok config

theorem rejected_iff :
    Rejected unicode readSecretFile source ↔
      ((resolveSecretSources source readSecretFile).issues = [] →
        envIssues unicode (resolved unicode readSecretFile source) ≠ []) := by
  simp only [Rejected, ne_eq, loadConfig_eq_ok_iff]
  constructor
  · exact fun h hresolved hissues => h _ ⟨hresolved, hissues, rfl⟩
  · rintro h config ⟨hresolved, hissues, -⟩
    exact h hresolved hissues

end RuntimeConfig

end Orgistry.Model
