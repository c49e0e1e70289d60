import Orgistry.Deployments.ProductionGuard

/-!
# Interchangeable secret sources

A secret by its variable and by a file are the same to `loadConfig`, and both at once are
refused.  A blank variable is not always like an absent one: without a file it reaches the
schema, and the theorem says when that makes a difference.
-/

namespace Orgistry.Model

open Text Validation

namespace SecretSources

def Blank (text : List Char) : Prop := BackupConfig.trim text = []

theorem isConfigured_some {text : List Char} : isConfigured (some text) = true ↔ ¬Blank text := by
  simp [isConfigured, Blank]

theorem isConfigured_blank {text : List Char} (h : Blank text) :
    isConfigured (some text) = false := by
  rw [← Bool.not_eq_true, isConfigured_some]
  exact not_not.mpr h

/-- The record with the two sources of a secret. -/
def withSources (source : EnvRecord) (name : FileBackedSecretName)
    (direct filePath : Option (List Char)) : EnvRecord :=
  Function.update (Function.update source name.text direct) name.fileVariable filePath

section LineEndings

variable {value : List Char}

/-- A text without a line ending at its end. -/
def Unended (value : List Char) : Prop := ∀ c ∈ ['\r', '\n'], ¬[c] <:+ value

theorem strip_unended (h : Unended value) : stripOneTrailingLineEnding value = value := by
  have hline : ¬['\n'] <:+ value := h '\n' (by decide)
  have hreturn : ¬['\r', '\n'] <:+ value := fun hends =>
    hline ((List.suffix_cons '\r' ['\n']).trans hends)
  rw [stripOneTrailingLineEnding, if_neg hreturn, if_neg hline]

theorem strip_lineFeed (h : Unended value) :
    stripOneTrailingLineEnding (value ++ ['\n']) = value := by
  have hreturn : ¬['\r', '\n'] <:+ value ++ ['\n'] := by
    intro hends
    have hcut : ['\r'] ++ ['\n'] <:+ value ++ ['\n'] := hends
    exact h '\r' (by decide) (List.suffix_append_self_iff.mp hcut)
  rw [stripOneTrailingLineEnding, if_neg hreturn, if_pos (List.suffix_append _ _),
    List.dropLast_concat]

theorem strip_carriageReturn :
    stripOneTrailingLineEnding (value ++ ['\r', '\n']) = value := by
  rw [stripOneTrailingLineEnding, if_pos (List.suffix_append _ _)]
  simp

end LineEndings

/-- The schema of a secret. -/
def secretField (unicode : Unicode) : FileBackedSecretName → EnvSchema.TextField Unit
  | .databaseUrl => (EnvSchema.databaseUrl unicode).slot
  | .redisUrl => (EnvSchema.redisUrl unicode).slot
  | .jwtSecret => EnvSchema.jwtSecret.slot
  | .jwtPreviousSecret => EnvSchema.jwtPreviousSecret.slot
  | .smtpUsername => EnvSchema.smtpUsername.slot
  | .smtpPassword => EnvSchema.smtpPassword.slot

theorem secretField_mem (unicode : Unicode) (name : FileBackedSecretName) :
    secretField unicode name ∈ EnvSchema.shape unicode := by
  cases name with
  | databaseUrl => exact EnvSchema.slot_mem 8 rfl
  | redisUrl => exact EnvSchema.slot_mem 9 rfl
  | jwtSecret => exact EnvSchema.slot_mem 25 rfl
  | jwtPreviousSecret => exact EnvSchema.slot_mem 26 rfl
  | smtpUsername => exact EnvSchema.slot_mem 16 rfl
  | smtpPassword => exact EnvSchema.slot_mem 17 rfl

theorem secretField_name (unicode : Unicode) (name : FileBackedSecretName) :
    (secretField unicode name).name = name.text := by
  cases name <;> rfl

section Sources

variable {source : EnvRecord} {readSecretFile : SecretFileReader} {name : FileBackedSecretName}
  {direct filePath : Option (List Char)}

theorem withSources_text : withSources source name direct filePath name.text = direct := by
  rw [withSources, Function.update_of_ne (name.text_ne_fileVariable name), Function.update_self]

theorem withSources_fileVariable :
    withSources source name direct filePath name.fileVariable = filePath :=
  Function.update_self _ _ _

theorem withSources_other {key : String} (htext : key ≠ name.text)
    (hfile : key ≠ name.fileVariable) :
    withSources source name direct filePath key = source key := by
  rw [withSources, Function.update_of_ne hfile, Function.update_of_ne htext]

theorem outcomeIn_withSources :
    outcomeIn (withSources source name direct filePath) readSecretFile name =
      secretOutcome readSecretFile name direct filePath := by
  rw [outcomeIn, withSources_text, withSources_fileVariable]

theorem outcomeIn_withSources_other {other : FileBackedSecretName} (h : other ≠ name) :
    outcomeIn (withSources source name direct filePath) readSecretFile other =
      outcomeIn source readSecretFile other := by
  have htext : other.text ≠ name.text := FileBackedSecretName.text_injective.ne h
  have hfile : other.fileVariable ≠ name.fileVariable :=
    FileBackedSecretName.fileVariable_injective.ne h
  rw [outcomeIn, outcomeIn, withSources_other htext (other.text_ne_fileVariable name),
    withSources_other (name.text_ne_fileVariable other).symm hfile]

/-- The source of another secret is refused. -/
def OthersFail (source : EnvRecord) (readSecretFile : SecretFileReader)
    (name : FileBackedSecretName) : Prop :=
  ∃ other, other ≠ name ∧ (outcomeIn source readSecretFile other).issues ≠ []

/-- A secret has no issue whatever the others have. -/
theorem issues_withSources_eq_nil_iff :
    (resolveSecretSources (withSources source name direct filePath) readSecretFile).issues = [] ↔
      ¬OthersFail source readSecretFile name ∧
        (secretOutcome readSecretFile name direct filePath).issues = [] := by
  rw [resolve_issues, List.flatMap_eq_nil_iff]
  constructor
  · intro h
    refine ⟨?_, ?_⟩
    · rintro ⟨other, hother, hissues⟩
      rw [← outcomeIn_withSources_other hother] at hissues
      exact hissues (h other other.mem_fileBackedSecretNames)
    · rw [← outcomeIn_withSources]
      exact h name name.mem_fileBackedSecretNames
  · rintro ⟨hothers, hself⟩ other -
    by_cases hname : other = name
    · rw [hname, outcomeIn_withSources]
      exact hself
    · rw [outcomeIn_withSources_other hname]
      by_contra hissues
      exact hothers ⟨other, hname, hissues⟩

/-- The record without the secret, as the schema sees it. -/
def withoutSecret (unicode : Unicode) (source : EnvRecord) (readSecretFile : SecretFileReader)
    (name : FileBackedSecretName) : EnvRecord :=
  RuntimeConfig.resolved unicode readSecretFile (withSources source name none none)

/-- What is resolved of a secret stands for it in the environment. -/
theorem resolved_withSources (unicode : Unicode) :
    RuntimeConfig.resolved unicode readSecretFile (withSources source name direct filePath) =
      Function.update (withoutSecret unicode source readSecretFile name) name.text
        ((secretOutcome readSecretFile name direct filePath).value direct) := by
  funext key
  by_cases htext : key = name.text
  · subst htext
    have hmem : name.text ∈ (EnvSchema.shape unicode).map Field.name := by
      rw [← secretField_name unicode name]
      exact List.mem_map_of_mem (secretField_mem unicode name)
    rw [Function.update_self, RuntimeConfig.resolved, strip, if_pos hmem, resolve_secret,
      outcomeIn_withSources, withSources_text]
  · rw [Function.update_of_ne htext, withoutSecret, RuntimeConfig.resolved,
      RuntimeConfig.resolved, strip, strip]
    by_cases hmem : key ∈ (EnvSchema.shape unicode).map Field.name
    · rw [if_pos hmem, if_pos hmem]
      have hfile : key ≠ name.fileVariable := by
        rintro rfl
        exact (EnvSchema.names_sound unicode).2 name name.mem_fileBackedSecretNames hmem
      by_cases hsecret : ∃ other : FileBackedSecretName, key = other.text
      · obtain ⟨other, rfl⟩ := hsecret
        have hother : other ≠ name := fun h => htext (by rw [h])
        rw [resolve_secret, resolve_secret, outcomeIn_withSources_other hother,
          outcomeIn_withSources_other hother, withSources_other htext hfile,
          withSources_other htext hfile]
      · have hnone : ∀ other : FileBackedSecretName, key ≠ other.text :=
          fun other h => hsecret ⟨other, h⟩
        rw [resolve_other hnone, resolve_other hnone, withSources_other htext hfile,
          withSources_other htext hfile]
    · rw [if_neg hmem, if_neg hmem]

end Sources

section Environments

open EnvSchema

variable {unicode : Unicode} {record : EnvRecord} {value : Option (List Char)}

/-- A row that reads no secret as a number. -/
def isOpen : EnvSchema.Row → Bool
  | .field _ => true
  | .number entry => entry.name ∉ fileBackedSecretNames.map FileBackedSecretName.text

theorem rows_open (unicode : Unicode) : (rawEnvSchema unicode).all isOpen = true := rfl

theorem notMem_of_numberNamed {number : String} {entry : NumberField}
    (h : (rawEnvSchema unicode).findSome? (EnvSchema.Row.numberNamed number) = some entry) :
    entry.name ∉ fileBackedSecretNames.map FileBackedSecretName.text := by
  obtain ⟨row, hrow, hnumber⟩ := List.exists_of_findSome?_eq_some h
  have hopen := List.all_eq_true.mp (rows_open unicode) row hrow
  cases row with
  | field slot => exact absurd hnumber nofun
  | number found =>
      rw [EnvSchema.Row.numberNamed] at hnumber
      split at hnumber
      · obtain rfl := Option.some.inj hnumber
        exact of_decide_eq_true hopen
      · exact absurd hnumber nofun

/-- The fields of no secret stay as they are. -/
theorem toEnv_update {key : String}
    (hkey : key ∈ fileBackedSecretNames.map FileBackedSecretName.text) :
    toEnv unicode (Function.update record key value) =
      { toEnv unicode record with
        databaseUrl := (databaseUrl unicode).value (Function.update record key value)
        redisUrl := (redisUrl unicode).value (Function.update record key value)
        smtpUsername := smtpUsername.value (Function.update record key value)
        smtpPassword := smtpPassword.value (Function.update record key value)
        jwtSecret := jwtSecret.value (Function.update record key value)
        jwtPreviousSecret := jwtPreviousSecret.value (Function.update record key value) } := by
  have hframe : ∀ {α : Type} [Inhabited α] (field : TextField α),
      field.name ∉ fileBackedSecretNames.map FileBackedSecretName.text →
      field.value (Function.update record key value) = field.value record := by
    intro α _ field hfield
    exact Field.value_update_of_ne field (ne_of_mem_of_not_mem hkey hfield).symm
  have htrust : (trustProxy unicode).value (Function.update record key value) =
      (trustProxy unicode).value record := hframe _ (show "TRUST_PROXY" ∉ _ by decide)
  have hweb : (webDemoUrl unicode).value (Function.update record key value) =
      (webDemoUrl unicode).value record := hframe _ (show "WEB_DEMO_URL" ∉ _ by decide)
  have hnumber : ∀ number,
      (((rawEnvSchema unicode).findSome? (EnvSchema.Row.numberNamed number)).bind fun entry =>
        entry.read (Function.update record key value)) =
      ((rawEnvSchema unicode).findSome? (EnvSchema.Row.numberNamed number)).bind
        fun entry => entry.read record := by
    intro number
    cases hentry : (rawEnvSchema unicode).findSome? (EnvSchema.Row.numberNamed number) with
    | none => rfl
    | some entry =>
        exact Field.read_update_of_ne
          (ne_of_mem_of_not_mem hkey (notMem_of_numberNamed hentry)).symm
  simp only [toEnv, Env.mk.injEq, htrust, hweb, hnumber, true_and, and_true]
  exact ⟨hframe _ (by decide), hframe _ (by decide), hframe _ (by decide), hframe _ (by decide),
    hframe _ (by decide), hframe _ (by decide), hframe _ (by decide), hframe _ (by decide),
    hframe _ (by decide), hframe _ (by decide), hframe _ (by decide), hframe _ (by decide),
    hframe _ (by decide), hframe _ (by decide)⟩

/-- The value of an optional text is the text. -/
theorem optionalText_value {name : String} {checks : List (List Char → Option String)} :
    (optionalText name checks).value record = record name := by
  rw [Field.value, Field.read, optionalText]
  cases record name <;> rfl

theorem optionalText_issues {name : String} {checks : List (List Char → Option String)} :
    ((optionalText name checks).parse value).issues = [] ↔
      ∀ text, value = some text → ∀ check ∈ checks, check text = none := by
  cases value with
  | none => exact iff_of_true rfl nofun
  | some text =>
      simp only [Option.some.injEq, forall_eq']
      exact Parsed.checked_issues_eq_nil_iff

theorem requiredText_issues {name : String} {checks : List (List Char → Option String)} :
    ((requiredText name checks).parse value).issues = [] ↔
      ∃ text, value = some text ∧ ∀ check ∈ checks, check text = none := by
  cases value with
  | none => exact iff_of_false nofun nofun
  | some text =>
      simp only [Option.some.injEq, exists_eq_left']
      exact Parsed.checked_issues_eq_nil_iff

theorem toEnv_update_jwtPreviousSecret :
    toEnv unicode (Function.update record "JWT_PREVIOUS_SECRET" value) =
      { toEnv unicode record with jwtPreviousSecret := value } := by
  have hvalue :
      jwtPreviousSecret.value (Function.update record "JWT_PREVIOUS_SECRET" value) = value :=
    optionalText_value.trans (Function.update_self _ _ _)
  rw [toEnv_update (by decide), hvalue,
    Field.value_update_of_ne (databaseUrl unicode) (show "DATABASE_URL" ≠ _ by decide),
    Field.value_update_of_ne (redisUrl unicode) (show "REDIS_URL" ≠ _ by decide),
    Field.value_update_of_ne smtpUsername (by decide),
    Field.value_update_of_ne smtpPassword (by decide),
    Field.value_update_of_ne jwtSecret (by decide)]
  rfl

theorem toEnv_update_smtpUsername :
    toEnv unicode (Function.update record "SMTP_USERNAME" value) =
      { toEnv unicode record with smtpUsername := value } := by
  have hvalue : smtpUsername.value (Function.update record "SMTP_USERNAME" value) = value :=
    optionalText_value.trans (Function.update_self _ _ _)
  rw [toEnv_update (by decide), hvalue,
    Field.value_update_of_ne (databaseUrl unicode) (show "DATABASE_URL" ≠ _ by decide),
    Field.value_update_of_ne (redisUrl unicode) (show "REDIS_URL" ≠ _ by decide),
    Field.value_update_of_ne smtpPassword (by decide),
    Field.value_update_of_ne jwtSecret (by decide),
    Field.value_update_of_ne jwtPreviousSecret (by decide)]
  rfl

theorem toEnv_update_smtpPassword :
    toEnv unicode (Function.update record "SMTP_PASSWORD" value) =
      { toEnv unicode record with smtpPassword := value } := by
  have hvalue : smtpPassword.value (Function.update record "SMTP_PASSWORD" value) = value :=
    optionalText_value.trans (Function.update_self _ _ _)
  rw [toEnv_update (by decide), hvalue,
    Field.value_update_of_ne (databaseUrl unicode) (show "DATABASE_URL" ≠ _ by decide),
    Field.value_update_of_ne (redisUrl unicode) (show "REDIS_URL" ≠ _ by decide),
    Field.value_update_of_ne smtpUsername (by decide),
    Field.value_update_of_ne jwtSecret (by decide),
    Field.value_update_of_ne jwtPreviousSecret (by decide)]
  rfl

end Environments

/-! ## Blank variables -/

/-- Another variable is refused by its schema. -/
def FieldsFail (unicode : Unicode) (record : EnvRecord) (name : FileBackedSecretName) : Prop :=
  ∃ field ∈ EnvSchema.shape unicode, field.name ≠ name.text ∧ field.report record ≠ []

/-- A policy has an issue with the values of a record. -/
def PoliciesFail (unicode : Unicode) (record : EnvRecord) : Prop :=
  RuntimeConfig.refine unicode (EnvSchema.toEnv unicode record) ≠ []

/-- The record with a value for the secret, as the schema sees it. -/
def withSecret (unicode : Unicode) (source : EnvRecord) (readSecretFile : SecretFileReader)
    (name : FileBackedSecretName) (value : Option (List Char)) : EnvRecord :=
  Function.update (withoutSecret unicode source readSecretFile name) name.text value

section Loading

open RuntimeConfig

variable {unicode : Unicode} {source : EnvRecord} {readSecretFile : SecretFileReader}
  {name : FileBackedSecretName} {direct filePath : Option (List Char)} {config : RuntimeConfig}

theorem secretOutcome_keep (h : isConfigured filePath = false) :
    secretOutcome readSecretFile name direct filePath = .keep := by
  cases filePath with
  | none => rfl
  | some path =>
      dsimp only [secretOutcome]
      rw [h]
      rfl

/-- A file is read when the variable is blank or absent, and the variable plays no part. -/
theorem secretOutcome_file {path : List Char} (hpath : isConfigured (some path) = true)
    (hdirect : isConfigured direct = false) :
    secretOutcome readSecretFile name direct (some path) =
      fileOutcome readSecretFile name path := by
  dsimp only [secretOutcome]
  rw [hpath, hdirect]
  rfl

theorem fileOutcome_value (path : List Char) (other : Option (List Char)) :
    (fileOutcome readSecretFile name path).value direct =
      (fileOutcome readSecretFile name path).value other := by
  unfold fileOutcome
  split
  · rfl
  · split <;> rfl

/-- Without a file, the variable is what the schema sees. -/
theorem loads_iff (h : isConfigured filePath = false) :
    loadConfig unicode readSecretFile (withSources source name direct filePath) = .ok config ↔
      ¬OthersFail source readSecretFile name ∧
      ¬FieldsFail unicode (withoutSecret unicode source readSecretFile name) name ∧
      ((secretField unicode name).parse direct).issues = [] ∧
      ¬PoliciesFail unicode (withSecret unicode source readSecretFile name direct) ∧
      toConfig unicode (EnvSchema.toEnv unicode
        (withSecret unicode source readSecretFile name direct)) = config := by
  have hfields : issuesOf (EnvSchema.shape unicode)
      (withSecret unicode source readSecretFile name direct) = [] ↔
      ¬FieldsFail unicode (withoutSecret unicode source readSecretFile name) name ∧
        ((secretField unicode name).parse direct).issues = [] := by
    have hunique : ∀ other ∈ EnvSchema.shape unicode,
        other.name = (secretField unicode name).name → other = secretField unicode name := by
      intro other hother hname
      refine EnvSchema.eq_of_secret (secretField_mem unicode name) hother ?_ hname
      rw [secretField_name]
      exact List.mem_map_of_mem name.mem_fileBackedSecretNames
    rw [withSecret, ← secretField_name unicode name, issuesOf_update_eq_nil_iff hunique
      (secretField_mem unicode name)]
    simp only [FieldsFail, secretField_name, not_exists, not_and, not_not, ne_eq]
  rw [loadConfig_eq_ok_iff, issues_withSources_eq_nil_iff, resolved_withSources,
    secretOutcome_keep h, envIssues_eq_nil_iff]
  change (_ ∧ [] = []) ∧ (issuesOf (EnvSchema.shape unicode)
    (withSecret unicode source readSecretFile name direct) = [] ∧ _) ∧ _ ↔ _
  rw [hfields, PoliciesFail, not_not, eq_self_iff_true, and_true]
  simp only [and_assoc]
  rfl

end Loading

/-- The same configuration, or no configuration. -/
def Alike (first second : Except (List String) RuntimeConfig) : Prop :=
  ∀ config, first = .ok config ↔ second = .ok config

section Harmless

variable (unicode : Unicode) (readSecretFile : SecretFileReader) (source : EnvRecord)

/-- When the schema makes no difference between a blank text and none, in a record that has
nothing else to be refused for. -/
def BlankIgnored (blank : List Char) : FileBackedSecretName → Prop
  | .databaseUrl => True
  | .redisUrl => PoliciesFail unicode (withSecret unicode source readSecretFile .redisUrl none)
  | .jwtPreviousSecret =>
      PoliciesFail unicode (withSecret unicode source readSecretFile .jwtPreviousSecret none)
  | .jwtSecret => EnvSchema.units blank < 16 ∨
      PoliciesFail unicode (withSecret unicode source readSecretFile .jwtSecret (some blank))
  | .smtpUsername => if blank = [] then
        PoliciesFail unicode (withSecret unicode source readSecretFile .smtpUsername none)
      else source "MAIL_DRIVER" ≠ some "smtp".toList ∨
        PoliciesFail unicode (withSecret unicode source readSecretFile .smtpUsername (some blank))
  | .smtpPassword => if blank = [] then
        PoliciesFail unicode (withSecret unicode source readSecretFile .smtpPassword none)
      else source "MAIL_DRIVER" ≠ some "smtp".toList ∨
        PoliciesFail unicode (withSecret unicode source readSecretFile .smtpPassword (some blank))

/-- When a blank variable is like an absent one.  A file that is configured hides it, and a
record that is refused anyway stays refused. -/
def BlankHarmless (name : FileBackedSecretName) (filePath : Option (List Char))
    (blank : List Char) : Prop :=
  isConfigured filePath ∨ OthersFail source readSecretFile name ∨
    FieldsFail unicode (withoutSecret unicode source readSecretFile name) name ∨
    BlankIgnored unicode readSecretFile source blank name

end Harmless

section Blanks

open RuntimeConfig ProductionGuard

variable {unicode : Unicode} {source : EnvRecord} {readSecretFile : SecretFileReader}
  {name : FileBackedSecretName} {filePath : Option (List Char)} {blank : List Char} {env : Env}

theorem isWhiteSpace_of_blank (h : Blank blank) : ∀ c ∈ blank, isWhiteSpace c = true := by
  have hrest : ∀ c ∈ BackupConfig.trimStart blank, isWhiteSpace c = true := by
    intro c hc
    rw [Blank, BackupConfig.trim, List.reverse_eq_nil_iff, List.dropWhile_eq_nil_iff] at h
    exact h c (List.mem_reverse.mpr hc)
  intro c hc
  rw [← List.takeWhile_append_dropWhile (p := isWhiteSpace) (l := blank)] at hc
  rcases List.mem_append.mp hc with hc | hc
  · exact List.mem_takeWhile_imp hc
  · exact hrest c hc

/-- A blank text is no URL. -/
theorem parseUrl_blank {idna : List Char → Option (List Char)} (h : Blank blank) :
    parseUrl idna blank = none := by
  have hcolon : ':' ∉ urlText blank := by
    intro hmem
    have hinner := (List.mem_filter.mp hmem).1
    have hback := (List.rdropWhile_prefix _ _).subset hinner
    have hspace := isWhiteSpace_of_blank h ':' ((List.dropWhile_suffix _).subset hback)
    exact absurd hspace (by decide)
  rw [parseUrl, cut_of_notMem hcolon]

theorem units_lt_one_iff : EnvSchema.units blank < 1 ↔ blank = [] := by
  cases blank with
  | nil => exact iff_of_true (by decide) rfl
  | cons c rest =>
      refine iff_of_false ?_ nofun
      have hfirst : 1 ≤ if c.toNat < 0x10000 then 1 else 2 := by split <;> decide
      rw [EnvSchema.units, List.map_cons, List.sum_cons]
      omega

/-- The password is checked for the smtp driver only. -/
theorem refine_eq_nil_iff_of_ne (h : env.mailDriver ≠ .smtp) :
    refine unicode env = [] ↔
      (∀ previous, env.jwtPreviousSecret = some previous → previous ≠ env.jwtSecret) ∧
        env.nodeEnv ≠ .production := by
  have hproduction : enforceProductionConfigSafety unicode env = [] ↔
      env.nodeEnv ≠ .production := by
    by_cases hmode : env.nodeEnv = .production
    · refine iff_of_false (fun hnil => ?_) (not_not.mpr hmode)
      obtain ⟨-, -, -, -, hdriver, -⟩ :=
        (enforceProductionConfigSafety_eq_nil_iff hmode).mp hnil
      exact h hdriver
    · exact iff_of_true (by rw [enforceProductionConfigSafety, if_pos hmode]) hmode
  rw [RuntimeConfig.refine, List.append_eq_nil_iff, List.append_eq_nil_iff, hproduction,
    enforceJwtRotationConfig_eq_nil_iff, enforceMailerConfigCompleteness_eq_nil_iff]
  simp only [h, false_imp_iff, and_true]

theorem exists_option {α : Type} {options : List (String × α)} {text : List Char} {value : α}
    (h : (EnvSchema.enumeration options text).value = some value) :
    ∃ option ∈ options, option.1.toList = text ∧ option.2 = value := by
  unfold EnvSchema.enumeration at h
  split at h
  · next option hfind =>
      have htext := List.find?_some hfind
      exact ⟨option, List.mem_of_find?_eq_some hfind, of_decide_eq_true htext,
        Option.some.inj h⟩
  · exact absurd h nofun

theorem mailDriver_iff {record : EnvRecord} :
    EnvSchema.mailDriver.value record = .smtp ↔ record "MAIL_DRIVER" = some "smtp".toList := by
  change (EnvSchema.mailDriver.parse (record "MAIL_DRIVER")).value.getD default = _ ↔ _
  cases record "MAIL_DRIVER" with
  | none => exact iff_of_false (by decide) nofun
  | some text =>
      rw [Option.some.injEq]
      constructor
      · intro h
        have hvalue : (EnvSchema.mailDriver.parse (some text)).value = some .smtp := by
          cases hparse : (EnvSchema.mailDriver.parse (some text)).value with
          | none =>
              rw [hparse] at h
              exact absurd h (by decide)
          | some driver =>
              rw [hparse] at h
              exact congrArg some h
        obtain ⟨option, hoption, rfl, hdriver⟩ := exists_option hvalue
        have honly : ∀ option ∈ [("mailpit", MailDriver.mailpit), ("smtp", .smtp),
            ("memory", .memory)], option.2 = .smtp → option.1.toList = "smtp".toList := by
          decide
        exact honly option hoption hdriver
      · rintro rfl
        decide

/-- A key that verifies only is no reason to refuse the record without it. -/
theorem refine_of_previous {value : Option (List Char)}
    (h : refine unicode { env with jwtPreviousSecret := value } = []) :
    refine unicode { env with jwtPreviousSecret := none } = [] := by
  rw [RuntimeConfig.refine, List.append_eq_nil_iff, List.append_eq_nil_iff] at h ⊢
  obtain ⟨⟨-, hmailer⟩, hguard⟩ := h
  refine ⟨⟨rfl, hmailer⟩, ?_⟩
  by_cases hmode : env.nodeEnv = .production
  · obtain ⟨hlimiter, hkey, -, hrest⟩ :=
      (enforceProductionConfigSafety_eq_nil_iff (by exact hmode)).mp hguard
    exact (enforceProductionConfigSafety_eq_nil_iff (by exact hmode)).mpr
      ⟨hlimiter, hkey, nofun, hrest⟩
  · rw [enforceProductionConfigSafety, if_pos hmode]

end Blanks

section Main

open RuntimeConfig ProductionGuard

variable {unicode : Unicode} {source : EnvRecord} {readSecretFile : SecretFileReader}
  {name : FileBackedSecretName} {filePath : Option (List Char)} {blank : List Char} {env : Env}

/-- Sources with the same outcome give the same configuration. -/
theorem loadConfig_withSources_congr {direct other otherPath : Option (List Char)}
    (hissues : (secretOutcome readSecretFile name direct filePath).issues =
      (secretOutcome readSecretFile name other otherPath).issues)
    (hvalue : (secretOutcome readSecretFile name direct filePath).value direct =
      (secretOutcome readSecretFile name other otherPath).value other) :
    loadConfig unicode readSecretFile (withSources source name direct filePath) =
      loadConfig unicode readSecretFile (withSources source name other otherPath) := by
  apply loadConfig_congr
  · rw [resolve_issues, resolve_issues, List.flatMap_def, List.flatMap_def]
    congr 1
    apply List.map_congr_left
    intro secret _
    by_cases hsecret : secret = name
    · rw [hsecret, outcomeIn_withSources, outcomeIn_withSources, hissues]
    · rw [outcomeIn_withSources_other hsecret, outcomeIn_withSources_other hsecret]
  · rw [resolved_withSources, resolved_withSources, hvalue]

/-- A value and a file that holds it, with or without a line ending. -/
theorem loadConfig_file {value path contents : List Char} (hvalue : ¬Blank value)
    (hunended : Unended value) (hpath : ¬Blank path) (hread : readSecretFile path = .ok contents)
    (hcontents : contents ∈ [value, value ++ ['\n'], value ++ ['\r', '\n']]) :
    loadConfig unicode readSecretFile (withSources source name (some value) none) =
      loadConfig unicode readSecretFile (withSources source name none (some path)) := by
  have hstrip : stripOneTrailingLineEnding contents = value := by
    simp only [List.mem_cons, List.not_mem_nil, or_false] at hcontents
    rcases hcontents with rfl | rfl | rfl
    · exact strip_unended hunended
    · exact strip_lineFeed hunended
    · exact strip_carriageReturn
  have hne : value ≠ [] := by
    rintro rfl
    exact hvalue rfl
  have hfile : secretOutcome readSecretFile name none (some path) = .replace value := by
    dsimp only [secretOutcome]
    rw [isConfigured_some.mpr hpath, fileOutcome, hread]
    dsimp only
    rw [hstrip, if_neg hne]
    rfl
  apply loadConfig_withSources_congr
  · rw [hfile]
    rfl
  · rw [hfile]
    rfl

/-- Both sources are refused. -/
theorem rejected_both {value path : List Char} (hvalue : ¬Blank value) (hpath : ¬Blank path) :
    Rejected unicode readSecretFile (withSources source name (some value) (some path)) := by
  rw [rejected_iff, issues_withSources_eq_nil_iff]
  rintro ⟨-, hissues⟩
  dsimp only [secretOutcome] at hissues
  rw [isConfigured_some.mpr hpath, isConfigured_some.mpr hvalue] at hissues
  exact absurd hissues nofun

/-- A blank path is no path. -/
theorem loadConfig_blank_path {direct : Option (List Char)} (h : Blank blank) :
    loadConfig unicode readSecretFile (withSources source name direct (some blank)) =
      loadConfig unicode readSecretFile (withSources source name direct none) := by
  have hsame : secretOutcome readSecretFile name direct (some blank) =
      secretOutcome readSecretFile name direct none :=
    (secretOutcome_keep (isConfigured_blank h)).trans (secretOutcome_keep rfl).symm
  exact loadConfig_withSources_congr (by rw [hsame]) (by rw [hsame])

section Cases

variable (unicode source readSecretFile name)

/-- The schema accepts a value of the secret, all else being accepted. -/
def Passes (value : Option (List Char)) : Prop :=
  ((secretField unicode name).parse value).issues = [] ∧
    ¬PoliciesFail unicode (withSecret unicode source readSecretFile name value)

/-- The configuration with a value of the secret. -/
def configWith (value : Option (List Char)) : RuntimeConfig :=
  toConfig unicode
    (EnvSchema.toEnv unicode (withSecret unicode source readSecretFile name value))

end Cases

/-- Two values are alike when they pass alike and give the same configuration. -/
theorem alike_iff (hfile : isConfigured filePath = false)
    (hothers : ¬OthersFail source readSecretFile name)
    (hfields : ¬FieldsFail unicode (withoutSecret unicode source readSecretFile name) name)
    {first second : Option (List Char)} :
    Alike (loadConfig unicode readSecretFile (withSources source name first filePath))
        (loadConfig unicode readSecretFile (withSources source name second filePath)) ↔
      (Passes unicode source readSecretFile name first ↔
        Passes unicode source readSecretFile name second) ∧
      (Passes unicode source readSecretFile name first →
        configWith unicode source readSecretFile name first =
          configWith unicode source readSecretFile name second) := by
  have hloads : ∀ value config,
      loadConfig unicode readSecretFile (withSources source name value filePath) = .ok config ↔
        Passes unicode source readSecretFile name value ∧
          configWith unicode source readSecretFile name value = config := by
    intro value config
    rw [loads_iff hfile, Passes, configWith, and_assoc]
    simp only [hothers, hfields, not_false_iff, true_and]
  simp only [Alike, hloads]
  constructor
  · intro h
    refine ⟨⟨fun hfirst => ((h _).mp ⟨hfirst, rfl⟩).1, fun hsecond =>
      ((h _).mpr ⟨hsecond, rfl⟩).1⟩, fun hfirst => ((h _).mp ⟨hfirst, rfl⟩).2.symm⟩
  · rintro ⟨hiff, hsame⟩ config
    rw [← hiff]
    exact and_congr_right fun hfirst => by rw [hsame hfirst]

theorem not_passes_databaseUrl_none :
    ¬Passes unicode source readSecretFile .databaseUrl none := by
  rintro ⟨hissues, -⟩
  exact absurd hissues nofun

theorem isUrl_blank (h : Blank blank) : EnvSchema.isUrl unicode blank ≠ none := by
  rw [EnvSchema.isUrl, parseUrl_blank h]
  exact Option.some_ne_none _

theorem not_passes_databaseUrl_blank (h : Blank blank) :
    ¬Passes unicode source readSecretFile .databaseUrl (some blank) := by
  rintro ⟨hissues, -⟩
  obtain ⟨text, htext, hchecks⟩ := requiredText_issues.mp hissues
  obtain rfl := Option.some.inj htext
  exact isUrl_blank h (hchecks _ List.mem_cons_self)

theorem not_passes_redisUrl_blank (h : Blank blank) :
    ¬Passes unicode source readSecretFile .redisUrl (some blank) := by
  rintro ⟨hissues, -⟩
  exact isUrl_blank h (Parsed.checked_issues_eq_nil_iff.mp hissues _ List.mem_cons_self)

theorem passes_redisUrl_none : Passes unicode source readSecretFile .redisUrl none ↔
    ¬PoliciesFail unicode (withSecret unicode source readSecretFile .redisUrl none) := by
  refine and_iff_right (Parsed.checked_issues_eq_nil_iff.mpr ?_)
  have hdefault : EnvSchema.isUrl unicode "redis://localhost:6379".toList = none := rfl
  intro check hcheck
  rw [List.mem_singleton.mp hcheck]
  exact hdefault

theorem not_passes_jwtSecret_none :
    ¬Passes unicode source readSecretFile .jwtSecret none := by
  rintro ⟨hissues, -⟩
  exact absurd hissues nofun

theorem minLength_eq_none_iff {bound : ℕ} {message : String} {text : List Char} :
    EnvSchema.minLength bound message text = none ↔ bound ≤ EnvSchema.units text := by
  rw [EnvSchema.minLength, ite_eq_right_iff, ← Nat.not_lt]
  exact ⟨fun h hlt => absurd (h hlt) nofun, fun h hlt => absurd hlt h⟩

theorem passes_jwtSecret_some {text : List Char} :
    Passes unicode source readSecretFile .jwtSecret (some text) ↔
      16 ≤ EnvSchema.units text ∧
        ¬PoliciesFail unicode
          (withSecret unicode source readSecretFile .jwtSecret (some text)) := by
  refine and_congr_left' ?_
  refine requiredText_issues.trans ?_
  simp only [Option.some.injEq, exists_eq_left', List.mem_singleton, forall_eq,
    minLength_eq_none_iff]

theorem passes_jwtPreviousSecret_none :
    Passes unicode source readSecretFile .jwtPreviousSecret none ↔
      ¬PoliciesFail unicode (withSecret unicode source readSecretFile .jwtPreviousSecret none) :=
  and_iff_right rfl

theorem passes_jwtPreviousSecret_of_some {text : List Char}
    (h : Passes unicode source readSecretFile .jwtPreviousSecret (some text)) :
    Passes unicode source readSecretFile .jwtPreviousSecret none := by
  rw [passes_jwtPreviousSecret_none]
  have hpolicies := h.2
  rw [PoliciesFail, not_not, withSecret] at hpolicies ⊢
  change RuntimeConfig.refine unicode (EnvSchema.toEnv unicode
    (Function.update _ "JWT_PREVIOUS_SECRET" _)) = [] at hpolicies
  change RuntimeConfig.refine unicode (EnvSchema.toEnv unicode
    (Function.update _ "JWT_PREVIOUS_SECRET" _)) = []
  rw [toEnv_update_jwtPreviousSecret] at hpolicies ⊢
  exact refine_of_previous hpolicies

/-- The previous key is part of the configuration. -/
theorem configWith_previous (value : Option (List Char)) :
    (configWith unicode source readSecretFile .jwtPreviousSecret value).auth.previousJwtSecret =
      value := by
  change (EnvSchema.toEnv unicode
    (Function.update _ "JWT_PREVIOUS_SECRET" value)).jwtPreviousSecret = value
  rw [toEnv_update_jwtPreviousSecret]

/-! ## Credentials of the mailer -/

/-- A variable that the smtp driver needs, and that counts for nothing else. -/
structure MailerField (unicode : Unicode) (source : EnvRecord) (readSecretFile : SecretFileReader)
    (name : FileBackedSecretName) : Prop where
  issues : ∀ value, ((secretField unicode name).parse value).issues = [] ↔
    ∀ text, value = some text → text ≠ []
  needed : source "MAIL_DRIVER" = some "smtp".toList →
    PoliciesFail unicode (withSecret unicode source readSecretFile name none)
  unused : source "MAIL_DRIVER" ≠ some "smtp".toList → ∀ first second,
    (PoliciesFail unicode (withSecret unicode source readSecretFile name first) ↔
      PoliciesFail unicode (withSecret unicode source readSecretFile name second)) ∧
    configWith unicode source readSecretFile name first =
      configWith unicode source readSecretFile name second

/-- The credentials of the mailer are compared by the policies. -/
theorem MailerField.alike_iff (hfield : MailerField unicode source readSecretFile name) :
    (Passes unicode source readSecretFile name (some blank) ↔
        Passes unicode source readSecretFile name none) ∧
      (Passes unicode source readSecretFile name (some blank) →
        configWith unicode source readSecretFile name (some blank) =
          configWith unicode source readSecretFile name none) ↔
    if blank = [] then
      PoliciesFail unicode (withSecret unicode source readSecretFile name none)
    else source "MAIL_DRIVER" ≠ some "smtp".toList ∨
      PoliciesFail unicode (withSecret unicode source readSecretFile name (some blank)) := by
  have hnone : Passes unicode source readSecretFile name none ↔
      ¬PoliciesFail unicode (withSecret unicode source readSecretFile name none) :=
    and_iff_right ((hfield.issues none).mpr nofun)
  have hsome : Passes unicode source readSecretFile name (some blank) ↔ blank ≠ [] ∧
      ¬PoliciesFail unicode (withSecret unicode source readSecretFile name (some blank)) := by
    refine and_congr_left' ((hfield.issues _).trans ?_)
    simp only [Option.some.injEq, forall_eq']
  rw [hnone, hsome]
  by_cases hempty : blank = []
  · rw [if_pos hempty]
    simp only [hempty, ne_eq, not_true, false_and, false_iff, not_not, false_imp_iff, and_true]
  · rw [if_neg hempty]
    by_cases hdriver : source "MAIL_DRIVER" = some "smtp".toList
    · have hneeded := hfield.needed hdriver
      simp only [hempty, hneeded, hdriver, ne_eq, not_false_iff, not_true, true_and, iff_false,
        not_not, false_or]
      exact ⟨And.left, fun h => ⟨h, fun hnot => absurd h hnot⟩⟩
    · obtain ⟨hpolicies, hsame⟩ := hfield.unused hdriver (some blank) none
      refine iff_of_true ⟨?_, fun _ => hsame⟩ (Or.inl hdriver)
      rw [hpolicies]
      exact and_iff_right hempty

theorem mailDriver_withoutSecret (unicode : Unicode) (source : EnvRecord)
    (readSecretFile : SecretFileReader) (name : FileBackedSecretName) :
    (EnvSchema.toEnv unicode (withoutSecret unicode source readSecretFile name)).mailDriver =
      .smtp ↔ source "MAIL_DRIVER" = some "smtp".toList := by
  have hmem : "MAIL_DRIVER" ∈ (EnvSchema.shape unicode).map Field.name :=
    List.mem_of_getElem? (i := 10) rfl
  have hrecord : withoutSecret unicode source readSecretFile name "MAIL_DRIVER" =
      source "MAIL_DRIVER" := by
    rw [withoutSecret, resolved_apply hmem (by decide)]
    exact withSources_other (by cases name <;> decide) (by cases name <;> decide)
  rw [← hrecord]
  exact mailDriver_iff

theorem nonempty_issues {text : List Char} : EnvSchema.nonempty text = none ↔ text ≠ [] := by
  rw [EnvSchema.nonempty, minLength_eq_none_iff, ← Nat.not_lt, units_lt_one_iff]

/-- A change of the mailer's credentials only. -/
def setCredentials (env : Env) (username password : Option (List Char)) : Env :=
  { env with smtpUsername := username, smtpPassword := password }

theorem refine_setCredentials (h : env.mailDriver ≠ .smtp)
    (username password : Option (List Char)) :
    refine unicode (setCredentials env username password) = [] ↔ refine unicode env = [] := by
  have hdriver : (setCredentials env username password).mailDriver ≠ .smtp := h
  rw [refine_eq_nil_iff_of_ne hdriver, refine_eq_nil_iff_of_ne h]
  rfl

theorem toConfig_setCredentials (h : env.mailDriver ≠ .smtp)
    (username password : Option (List Char)) :
    toConfig unicode (setCredentials env username password) = toConfig unicode env := by
  have hnew : toSmtp (setCredentials env username password) = none := if_neg h
  have hold : toSmtp env = none := if_neg h
  rw [toConfig, toConfig, hnew, hold]
  rfl

/-- A field is one of the mailer when it sets nothing but the credentials. -/
theorem mailerField_of (set : Env → Option (List Char) → Env)
    (henv : ∀ value, EnvSchema.toEnv unicode (withSecret unicode source readSecretFile name value) =
      set (EnvSchema.toEnv unicode (withoutSecret unicode source readSecretFile name)) value)
    (hset : ∀ env value, ∃ username password, set env value = setCredentials env username password)
    (hmissing : ∀ env, env.mailDriver = .smtp → enforceMailerConfigCompleteness (set env none) ≠ [])
    (hissues : ∀ value, ((secretField unicode name).parse value).issues = [] ↔
      ∀ text, value = some text → text ≠ []) :
    MailerField unicode source readSecretFile name where
  issues := hissues
  needed hdriver hrefine := by
    rw [henv] at hrefine
    have hmailer := (List.append_eq_nil_iff.mp (List.append_eq_nil_iff.mp hrefine).1).2
    exact hmissing _ ((mailDriver_withoutSecret _ _ _ _).mpr hdriver) hmailer
  unused hdriver first second := by
    have hnot :=
      (not_congr (mailDriver_withoutSecret unicode source readSecretFile name)).mpr hdriver
    obtain ⟨firstUsername, firstPassword, hfirst⟩ := hset (EnvSchema.toEnv unicode
      (withoutSecret unicode source readSecretFile name)) first
    obtain ⟨secondUsername, secondPassword, hsecond⟩ := hset (EnvSchema.toEnv unicode
      (withoutSecret unicode source readSecretFile name)) second
    rw [PoliciesFail, PoliciesFail, configWith, configWith, henv, henv, hfirst, hsecond]
    refine ⟨not_congr ?_, ?_⟩
    · rw [refine_setCredentials hnot, refine_setCredentials hnot]
    · rw [toConfig_setCredentials hnot, toConfig_setCredentials hnot]

theorem mailerField_smtpUsername : MailerField unicode source readSecretFile .smtpUsername := by
  refine mailerField_of (fun env value => { env with smtpUsername := value })
    (fun value => toEnv_update_smtpUsername)
    (fun env value => ⟨value, env.smtpPassword, rfl⟩) (fun env hdriver hmailer => ?_)
    (fun value => ?_)
  · exact absurd (enforceMailerConfigCompleteness_eq_nil_iff.mp hmailer hdriver).2.1 nofun
  · refine optionalText_issues.trans ?_
    simp only [List.mem_singleton, forall_eq, nonempty_issues]

theorem mailerField_smtpPassword : MailerField unicode source readSecretFile .smtpPassword := by
  refine mailerField_of (fun env value => { env with smtpPassword := value })
    (fun value => toEnv_update_smtpPassword)
    (fun env value => ⟨env.smtpUsername, value, rfl⟩) (fun env hdriver hmailer => ?_)
    (fun value => ?_)
  · exact absurd (enforceMailerConfigCompleteness_eq_nil_iff.mp hmailer hdriver).2.2 nofun
  · refine optionalText_issues.trans ?_
    simp only [List.mem_singleton, forall_eq, nonempty_issues]

/-- A blank value is as good as none exactly where it is ignored. -/
theorem passes_iff_ignored (hblank : Blank blank) :
    (Passes unicode source readSecretFile name (some blank) ↔
        Passes unicode source readSecretFile name none) ∧
      (Passes unicode source readSecretFile name (some blank) →
        configWith unicode source readSecretFile name (some blank) =
          configWith unicode source readSecretFile name none) ↔
    BlankIgnored unicode readSecretFile source blank name := by
  cases name with
  | databaseUrl =>
      have hsome : ¬Passes unicode source readSecretFile .databaseUrl (some blank) :=
        not_passes_databaseUrl_blank hblank
      exact iff_of_true ⟨iff_of_false hsome not_passes_databaseUrl_none, fun h => absurd h hsome⟩
        trivial
  | redisUrl =>
      have hsome : ¬Passes unicode source readSecretFile .redisUrl (some blank) :=
        not_passes_redisUrl_blank hblank
      simp only [BlankIgnored, hsome, passes_redisUrl_none, false_iff, not_not, false_imp_iff,
        and_true]
  | jwtSecret =>
      simp only [BlankIgnored, not_passes_jwtSecret_none, passes_jwtSecret_some, iff_false,
        not_and_or, not_le, not_not]
      exact and_iff_left_of_imp fun h hpasses =>
        absurd h (not_or.mpr ⟨Nat.not_lt.mpr hpasses.1, hpasses.2⟩)
  | jwtPreviousSecret =>
      rw [BlankIgnored, ← not_not (a := PoliciesFail _ _), ← passes_jwtPreviousSecret_none]
      constructor
      · rintro ⟨hiff, hsame⟩ hnone
        have hprevious := congrArg (fun config => config.auth.previousJwtSecret)
          (hsame (hiff.mpr hnone))
        simp only [configWith_previous] at hprevious
        exact absurd hprevious nofun
      · intro hnone
        have hsome : ¬Passes unicode source readSecretFile .jwtPreviousSecret (some blank) :=
          fun h => hnone (passes_jwtPreviousSecret_of_some h)
        exact ⟨iff_of_false hsome hnone, fun h => absurd h hsome⟩
  | smtpUsername => exact mailerField_smtpUsername.alike_iff
  | smtpPassword => exact mailerField_smtpPassword.alike_iff

/-- A blank variable is like an absent one exactly when it is harmless. -/
theorem blank_alike_iff (hblank : Blank blank) :
    Alike (loadConfig unicode readSecretFile (withSources source name (some blank) filePath))
        (loadConfig unicode readSecretFile (withSources source name none filePath)) ↔
      BlankHarmless unicode readSecretFile source name filePath blank := by
  have hrejected : ∀ {value : Option (List Char)}, isConfigured filePath = false →
      OthersFail source readSecretFile name ∨
        FieldsFail unicode (withoutSecret unicode source readSecretFile name) name →
      ∀ config, loadConfig unicode readSecretFile
        (withSources source name value filePath) ≠ .ok config := by
    intro value hfile hfails config hload
    obtain ⟨hothers, hfields, -⟩ := (loads_iff hfile).mp hload
    exact hfails.elim hothers hfields
  rw [BlankHarmless]
  by_cases hfile : isConfigured filePath = true
  · refine iff_of_true (fun config => ?_) (Or.inl hfile)
    obtain ⟨path, rfl⟩ : ∃ path, filePath = some path := by
      cases filePath with
      | none => exact absurd hfile nofun
      | some path => exact ⟨path, rfl⟩
    rw [loadConfig_withSources_congr]
    · rw [secretOutcome_file hfile (isConfigured_blank hblank), secretOutcome_file hfile rfl]
    · rw [secretOutcome_file hfile (isConfigured_blank hblank), secretOutcome_file hfile rfl]
      exact fileOutcome_value path none
  · rw [Bool.not_eq_true] at hfile
    by_cases hfails : OthersFail source readSecretFile name ∨
        FieldsFail unicode (withoutSecret unicode source readSecretFile name) name
    · refine iff_of_true (fun config => ?_) (Or.inr (or_assoc.mp (Or.inl hfails)))
      exact iff_of_false (hrejected hfile hfails config) (hrejected hfile hfails config)
    · obtain ⟨hothers, hfields⟩ := not_or.mp hfails
      rw [alike_iff hfile hothers hfields, passes_iff_ignored hblank]
      simp only [hfile, hothers, hfields, false_or, Bool.false_eq_true]

/-- A regular file that can be read is read as it is. -/
theorem readSecretFileFromDisk_eq_ok_iff {disk : SecretDisk} {path contents : List Char} :
    readSecretFileFromDisk disk path = .ok contents ↔
      disk path = some (.file (some contents)) := by
  rw [readSecretFileFromDisk]
  rcases disk path with _ | _ | (_ | found) | _ <;> simp

/-- A secret mounted as a file stands for the variable, a line break at its end or not. -/
theorem loadConfig_mounted {disk : SecretDisk} {value path contents : List Char}
    (hvalue : ¬Blank value) (hunended : Unended value) (hpath : ¬Blank path)
    (hmounted : disk path = some (.file (some contents)))
    (hcontents : contents ∈ [value, value ++ ['\n'], value ++ ['\r', '\n']]) :
    loadConfig unicode (readSecretFileFromDisk disk) (withSources source name (some value) none) =
      loadConfig unicode (readSecretFileFromDisk disk) (withSources source name none (some path)) :=
  loadConfig_file hvalue hunended hpath (readSecretFileFromDisk_eq_ok_iff.mpr hmounted) hcontents

/-- The sources of a secret in a record are interchangeable. -/
structure Interchangeable (unicode : Unicode) (readSecretFile : SecretFileReader)
    (source : EnvRecord) (name : FileBackedSecretName) : Prop where
  file : ∀ value path contents, ¬Blank value → Unended value → ¬Blank path →
    readSecretFile path = .ok contents →
    contents ∈ [value, value ++ ['\n'], value ++ ['\r', '\n']] →
    loadConfig unicode readSecretFile (withSources source name (some value) none) =
      loadConfig unicode readSecretFile (withSources source name none (some path))
  ambiguous : ∀ value path, ¬Blank value → ¬Blank path →
    Rejected unicode readSecretFile (withSources source name (some value) (some path))
  blankPath : ∀ direct blank, Blank blank →
    Alike (loadConfig unicode readSecretFile (withSources source name direct (some blank)))
      (loadConfig unicode readSecretFile (withSources source name direct none))
  blankVariable : ∀ filePath blank, Blank blank →
    Alike (loadConfig unicode readSecretFile (withSources source name (some blank) filePath))
      (loadConfig unicode readSecretFile (withSources source name none filePath))

/-- The sources are interchangeable exactly when no blank variable does harm. -/
theorem interchangeable_iff :
    Interchangeable unicode readSecretFile source name ↔
      ∀ filePath blank, Blank blank →
        BlankHarmless unicode readSecretFile source name filePath blank := by
  constructor
  · intro h filePath blank hblank
    exact (blank_alike_iff hblank).mp (h.blankVariable filePath blank hblank)
  · intro h
    exact {
      file := fun _ _ _ hvalue hunended hpath hread hcontents =>
        loadConfig_file hvalue hunended hpath hread hcontents
      ambiguous := fun _ _ hvalue hpath => rejected_both hvalue hpath
      blankPath := fun direct blank hblank config => by rw [loadConfig_blank_path hblank]
      blankVariable := fun filePath blank hblank =>
        (blank_alike_iff hblank).mpr (h filePath blank hblank) }

/-- The variables that have no default. -/
def minimal : EnvRecord :=
  ofVariables [("DATABASE_URL", "postgres://db:5432/orgistry"), ("JWT_SECRET", "b5c09d1f5a8e4c7d")]

theorem minimal_loads :
    loadConfig asciiOnly noFiles minimal =
      .ok (toConfig asciiOnly (EnvSchema.toEnv asciiOnly minimal)) := by
  refine loadConfig_of_known (fun key hkey => ?_) ?_ (by decide +kernel)
  · have hnames : ∀ key ∈ ["DATABASE_URL", "JWT_SECRET"],
        key ∈ (EnvSchema.shape asciiOnly).map Field.name := by decide
    exact hnames key (mem_of_ofVariables hkey)
  · intro name
    cases name <;> decide

/-- An empty `REDIS_URL` is refused where an absent one is not. -/
theorem empty_redisUrl_refused : ¬Interchangeable asciiOnly noFiles minimal .redisUrl := by
  intro h
  have habsent : withSources minimal .redisUrl none none = minimal := by
    have htext : minimal FileBackedSecretName.redisUrl.text = none := by decide
    have hfile : minimal FileBackedSecretName.redisUrl.fileVariable = none := by decide
    rw [withSources, ← htext, Function.update_eq_self, htext, ← hfile, Function.update_eq_self]
  have hblank : Blank [] := rfl
  have hload := (h.blankVariable none [] hblank _).mpr (by rw [habsent]; exact minimal_loads)
  obtain ⟨-, -, hissues, -⟩ := (loads_iff rfl).mp hload
  exact isUrl_blank hblank (Parsed.checked_issues_eq_nil_iff.mp hissues _ List.mem_cons_self)

end Main

end SecretSources

end Orgistry.Model
