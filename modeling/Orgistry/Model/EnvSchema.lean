import Orgistry.Model.SecretSources
import Orgistry.Model.TrustProxy
import Orgistry.Text.UrlHost
import Orgistry.Validation.Fields

/-!
# The environment schema

`rawEnvSchema` of `packages/config/src/schema.ts`, with the messages that zod has by
default.
-/

namespace Orgistry.Model

open Numbers Text Validation

/-- What the script engine does beyond ASCII: lower case, and the mapping of domain names to
ASCII ones. -/
structure Unicode where
  lowerCase : LowerCase
  idna : List Char → Option (List Char)
  idna_ascii : ∀ domain name, idna domain = some name → ∀ c ∈ name, c.toNat < 0x80

inductive NodeEnv
  | development
  | test
  | production
  deriving DecidableEq, Inhabited

inductive LogLevel
  | fatal
  | error
  | warn
  | info
  | debug
  | trace
  | silent
  deriving DecidableEq, Inhabited

inductive MailDriver
  | mailpit
  | smtp
  | memory
  deriving DecidableEq, Inhabited

def MailDriver.text : MailDriver → String
  | mailpit => "mailpit"
  | smtp => "smtp"
  | memory => "memory"

/-- What sensitive limiters do when their store cannot be reached. -/
inductive FailureMode
  | open
  | closed
  deriving DecidableEq, Inhabited

namespace EnvSchema

abbrev TextField (α : Type) := Field (Option (List Char)) String α

abbrev NumberField := TextField Number

/-- The length of a string in code units. -/
def units (text : List Char) : ℕ :=
  (text.map fun c => if c.toNat < 0x10000 then 1 else 2).sum

def minLength (bound : ℕ) (message : String) (text : List Char) : Option String :=
  if units text < bound then some message else none

/-- `min(1)` -/
def nonempty : List Char → Option String :=
  minLength 1 "String must contain at least 1 character(s)"

def isUrl (unicode : Unicode) (text : List Char) : Option String :=
  if (parseUrl unicode.idna text).isNone then some "Invalid url" else none

def isLocalChar (c : Char) : Bool := c.isAlphanum || c ∈ "_'+-.".toList

/-- A label of a domain that begins with a letter or a digit. -/
def isLabel : List Char → Bool
  | [] => false
  | c :: rest => c.isAlphanum && rest.all fun c => c.isAlphanum || c = '-'

/-- `/^(?!\.)(?!.*\.\.)([A-Z0-9_'+\-\.]*)[A-Z0-9_+-]@([A-Z0-9][A-Z0-9\-]*\.)+[A-Z]{2,}$/i` -/
def matchesEmail (text : List Char) : Bool :=
  match cut '@' text with
  | none => false
  | some (name, domain) =>
      let labels := splitOn '.' domain
      text.head? ≠ some '.' && !decide (['.', '.'] <:+: text) && name.all isLocalChar &&
        name.getLast?.any (fun c => c.isAlphanum || c ∈ "_+-".toList) &&
        !labels.dropLast.isEmpty && labels.dropLast.all isLabel &&
        labels.getLast?.any fun top => 2 ≤ top.length && top.all Char.isAlpha

def isEmail (text : List Char) : Option String :=
  if matchesEmail text then none else some "Invalid email"

def string (checks : List (List Char → Option String)) (text : List Char) :
    Parsed String (List Char) :=
  .checked checks text

def requiredText (name : String) (checks : List (List Char → Option String)) :
    TextField (List Char) :=
  ⟨name, required "Required" (string checks)⟩

def optionalText (name : String) (checks : List (List Char → Option String)) :
    TextField (Option (List Char)) :=
  ⟨name, optional (string checks)⟩

def defaultText (name : String) (checks : List (List Char → Option String)) (value : String) :
    TextField (List Char) :=
  ⟨name, withDefault (string checks value.toList) (string checks)⟩

def invalidEnum (options : List String) (received : List Char) : String :=
  "Invalid enum value. Expected " ++
    String.intercalate " | " (options.map fun option => "'" ++ option ++ "'") ++
    ", received '" ++ String.ofList received ++ "'"

def enumeration {α : Type} (options : List (String × α)) (text : List Char) : Parsed String α :=
  match options.find? fun option => option.1.toList = text with
  | some option => .checked [] option.2
  | none => .giveUp (invalidEnum (options.map Prod.fst) text)

def defaultEnum {α : Type} (name : String) (options : List (String × α)) (value : α) :
    TextField α :=
  ⟨name, withDefault (.checked [] value) (enumeration options)⟩

def isInt : Number → Option String
  | .finite value => if value.den = 1 then none else some "Expected integer, received float"
  | _ => some "Expected integer, received float"

def atLeast (bound : ℕ) : Number → Bool
  | .nan => false
  | .infinity negative => !negative
  | .finite value => bound ≤ value

def atMost (bound : ℕ) : Number → Bool
  | .nan => false
  | .infinity negative => negative
  | .finite value => value ≤ bound

def minimum (bound : ℕ) (message : String) (number : Number) : Option String :=
  if atLeast bound number then none else some message

def maximum (bound : ℕ) (message : String) (number : Number) : Option String :=
  if atMost bound number then none else some message

def isPositive (number : Number) : Option String :=
  if !atMost 0 number then none else some "Number must be greater than 0"

/-- `z.coerce.number()` -/
def coerceNumber (checks : List (Number → Option String)) (text : List Char) :
    Parsed String Number :=
  match numberOf (BackupConfig.trim text) with
  | .nan => .giveUp "Expected number, received nan"
  | number => .checked checks number

def numberField (name : String) (checks : List (Number → Option String)) (value : ℕ) :
    NumberField :=
  ⟨name, withDefault (.checked checks (.finite value)) (coerceNumber checks)⟩

/-- `z.coerce.number().int().positive()` -/
def positive (name : String) (value : ℕ) : NumberField :=
  numberField name [isInt, isPositive] value

/-- `portSchema` -/
def port (name : String) (value : ℕ) : NumberField :=
  numberField name
    [isInt, minimum 1 "Number must be greater than or equal to 1",
      maximum 65535 "Number must be less than or equal to 65535"] value

def nodeEnv : TextField NodeEnv :=
  defaultEnum "NODE_ENV"
    [("development", .development), ("test", .test), ("production", .production)] .development

def logLevel : TextField LogLevel :=
  defaultEnum "LOG_LEVEL"
    [("fatal", .fatal), ("error", .error), ("warn", .warn), ("info", .info), ("debug", .debug),
      ("trace", .trace), ("silent", .silent)] .info

def apiHost : TextField (List Char) := defaultText "API_HOST" [nonempty] "0.0.0.0"

def invalidTrustProxy : String :=
  "TRUST_PROXY must be \"false\", a hop count between 1 and 16 (e.g. \"1\" for one reverse " ++
    "proxy), or a comma-separated list of valid proxy IPs/CIDRs (IPv4 prefix 0-32, IPv6 prefix " ++
    "0-128; no hostnames, no empty entries); \"true\" (trust every peer) is not accepted"

def isTrustProxy (unicode : Unicode) (text : List Char) : Option String :=
  if (parseTrustProxy unicode.lowerCase text).isNone then some invalidTrustProxy else none

def trustProxy (unicode : Unicode) : TextField (List Char) :=
  defaultText "TRUST_PROXY" [isTrustProxy unicode] "false"

def webDemoUrl (unicode : Unicode) : TextField (List Char) :=
  defaultText "WEB_DEMO_URL" [isUrl unicode] "http://localhost:5173"

def corsOrigins : TextField (List Char) := defaultText "CORS_ORIGINS" [] "http://localhost:5173"

def databaseUrl (unicode : Unicode) : TextField (List Char) :=
  requiredText "DATABASE_URL" [isUrl unicode]

def redisUrl (unicode : Unicode) : TextField (List Char) :=
  defaultText "REDIS_URL" [isUrl unicode] "redis://localhost:6379"

def mailDriver : TextField MailDriver :=
  defaultEnum "MAIL_DRIVER" [("mailpit", .mailpit), ("smtp", .smtp), ("memory", .memory)] .mailpit

def mailFromEmail : TextField (List Char) :=
  defaultText "MAIL_FROM_EMAIL" [isEmail] "no-reply@orgistry.local"

def mailFromName : TextField (List Char) := defaultText "MAIL_FROM_NAME" [nonempty] "Orgistry"

def smtpHost : TextField (Option (List Char)) := optionalText "SMTP_HOST" [nonempty]

def smtpUsername : TextField (Option (List Char)) := optionalText "SMTP_USERNAME" [nonempty]

def smtpPassword : TextField (Option (List Char)) := optionalText "SMTP_PASSWORD" [nonempty]

def mailpitHost : TextField (List Char) := defaultText "MAILPIT_HOST" [nonempty] "localhost"

def jwtSecret : TextField (List Char) :=
  requiredText "JWT_SECRET" [minLength 16 "JWT_SECRET must be at least 16 characters"]

def jwtPreviousSecret : TextField (Option (List Char)) :=
  optionalText "JWT_PREVIOUS_SECRET"
    [minLength 16 "JWT_PREVIOUS_SECRET must be at least 16 characters"]

/-- `booleanFromEnv.default('false')` -/
def cookieSecure : TextField Bool :=
  defaultEnum "COOKIE_SECURE" [("true", true), ("false", false)] false

def authRefreshCookieName : TextField (List Char) :=
  defaultText "AUTH_REFRESH_COOKIE_NAME" [nonempty] "orgistry_rt"

def authRefreshCookiePath : TextField (List Char) :=
  defaultText "AUTH_REFRESH_COOKIE_PATH" [nonempty] "/v1/auth"

def authCsrfHeaderName : TextField (List Char) :=
  defaultText "AUTH_CSRF_HEADER_NAME" [nonempty] "x-orgistry-csrf"

def rateLimitFailureMode : TextField (Option FailureMode) :=
  ⟨"RATE_LIMIT_FAILURE_MODE", optional (enumeration [("open", .open), ("closed", .closed)])⟩

def apiKeyLastUsedThrottleSeconds : NumberField :=
  numberField "API_KEY_LAST_USED_THROTTLE_SECONDS"
    [isInt, minimum 0 "Number must be greater than or equal to 0"] 60

def retentionSecurityEventDays : NumberField :=
  numberField "RETENTION_SECURITY_EVENT_DAYS"
    [isInt, minimum 30 "RETENTION_SECURITY_EVENT_DAYS must be at least 30 days"] 180

def retentionExpiredAuthTokenDays : NumberField :=
  numberField "RETENTION_EXPIRED_AUTH_TOKEN_DAYS"
    [isInt, minimum 1 "RETENTION_EXPIRED_AUTH_TOKEN_DAYS must be at least 1 day"] 30

def retentionEndedSessionDays : NumberField :=
  numberField "RETENTION_ENDED_SESSION_DAYS"
    [isInt, minimum 7 "RETENTION_ENDED_SESSION_DAYS must be at least 7 days"] 90

def retentionCleanupBatchSize : NumberField :=
  numberField "RETENTION_CLEANUP_BATCH_SIZE"
    [isInt, minimum 1 "RETENTION_CLEANUP_BATCH_SIZE must be at least 1",
      maximum 50000 "RETENTION_CLEANUP_BATCH_SIZE must not exceed 50000"] 1000

/-- A field of the schema; those of numbers are looked up by their names. -/
inductive Row
  | field (slot : TextField Unit)
  | number (field : NumberField)

def Row.slot : Row → TextField Unit
  | field slot => slot
  | number entry => entry.slot

/-- `rawEnvSchema` -/
def rawEnvSchema (unicode : Unicode) : List Row :=
  [.field nodeEnv.slot, .field logLevel.slot, .field apiHost.slot, .number (port "API_PORT" 3000),
   .field (trustProxy unicode).slot, .number (positive "HSTS_MAX_AGE_SECONDS" 15552000),
   .field (webDemoUrl unicode).slot, .field corsOrigins.slot, .field (databaseUrl unicode).slot,
   .field (redisUrl unicode).slot, .field mailDriver.slot, .field mailFromEmail.slot,
   .field mailFromName.slot, .number (positive "MAIL_TIMEOUT_MS" 10000), .field smtpHost.slot,
   .number (port "SMTP_PORT" 465), .field smtpUsername.slot, .field smtpPassword.slot,
   .field mailpitHost.slot, .number (port "MAILPIT_SMTP_PORT" 1025),
   .number (port "MAILPIT_UI_PORT" 8025),
   .number (positive "EMAIL_VERIFICATION_TTL_SECONDS" 86400),
   .number (positive "PASSWORD_RESET_TTL_SECONDS" 3600),
   .number (positive "REGISTRATION_COMPLETION_TTL_SECONDS" 86400),
   .number (positive "INVITATION_TTL_SECONDS" 604800), .field jwtSecret.slot,
   .field jwtPreviousSecret.slot, .field cookieSecure.slot,
   .number (positive "AUTH_ACCESS_TOKEN_TTL_SECONDS" 900),
   .number (positive "AUTH_SESSION_TTL_SECONDS" 2592000),
   .number (positive "AUTH_REFRESH_TOKEN_TTL_SECONDS" 2592000), .field authRefreshCookieName.slot,
   .field authRefreshCookiePath.slot, .field authCsrfHeaderName.slot,
   .number (positive "RATE_LIMIT_WINDOW_SECONDS" 60), .number (positive "RATE_LIMIT_MAX" 300),
   .field rateLimitFailureMode.slot,
   .number (positive "RATE_LIMIT_INVITATION_INSPECT_PER_IP_MAX" 30),
   .number (positive "RATE_LIMIT_INVITATION_INSPECT_PER_TOKEN_MAX" 10),
   .number (positive "RATE_LIMIT_INVITATION_ACCEPT_PER_USER_MAX" 10),
   .number (positive "RATE_LIMIT_INVITATION_CREATE_PER_USER_MAX" 20),
   .number (positive "RATE_LIMIT_INVITATION_CREATE_PER_ORG_MAX" 60),
   .number (positive "RATE_LIMIT_MUTATION_WINDOW_SECONDS" 60),
   .number (positive "RATE_LIMIT_ORG_CREATE_PER_USER_MAX" 10),
   .number (positive "RATE_LIMIT_PROJECT_CREATE_PER_USER_MAX" 30),
   .number (positive "RATE_LIMIT_API_KEY_CREATE_PER_USER_MAX" 10),
   .number (positive "RATE_LIMIT_PLAN_CHANGE_PER_ORG_MAX" 10),
   .number (positive "RATE_LIMIT_MEMBER_MUTATION_PER_USER_MAX" 30),
   .number (positive "RATE_LIMIT_PROJECT_MUTATION_PER_USER_MAX" 60),
   .number (positive "RATE_LIMIT_AUDIT_READ_WINDOW_SECONDS" 60),
   .number (positive "RATE_LIMIT_AUDIT_READ_PER_USER_MAX" 60),
   .number (positive "RATE_LIMIT_AUDIT_READ_PER_ORG_MAX" 240),
   .number (positive "RATE_LIMIT_AUTH_WINDOW_SECONDS" 60),
   .number (positive "RATE_LIMIT_LOGIN_PER_IP_MAX" 10),
   .number (positive "RATE_LIMIT_LOGIN_PER_EMAIL_MAX" 5),
   .number (positive "RATE_LIMIT_REGISTER_PER_IP_MAX" 5),
   .number (positive "RATE_LIMIT_REGISTER_PER_EMAIL_MAX" 3),
   .number (positive "RATE_LIMIT_REGISTRATION_COMPLETE_PER_IP_MAX" 10),
   .number (positive "RATE_LIMIT_REGISTRATION_COMPLETE_PER_TOKEN_MAX" 5),
   .number (positive "RATE_LIMIT_REGISTRATION_NOTICE_PER_EMAIL_MAX" 1),
   .number (positive "RATE_LIMIT_REFRESH_PER_SESSION_MAX" 60),
   .number (positive "RATE_LIMIT_REFRESH_PER_IP_MAX" 120),
   .number (positive "RATE_LIMIT_EMAIL_VERIFICATION_REQUEST_PER_USER_MAX" 3),
   .number (positive "RATE_LIMIT_EMAIL_VERIFICATION_REQUEST_PER_IP_MAX" 10),
   .number (positive "RATE_LIMIT_EMAIL_VERIFICATION_COMPLETE_PER_IP_MAX" 10),
   .number (positive "RATE_LIMIT_CHANGE_PASSWORD_PER_USER_MAX" 5),
   .number (positive "RATE_LIMIT_CHANGE_EMAIL_PER_USER_MAX" 3),
   .number (positive "RATE_LIMIT_PASSWORD_RECOVERY_REQUEST_PER_IP_MAX" 5),
   .number (positive "RATE_LIMIT_PASSWORD_RECOVERY_REQUEST_PER_EMAIL_MAX" 3),
   .number (positive "RATE_LIMIT_PASSWORD_RECOVERY_COMPLETE_PER_IP_MAX" 10),
   .number (positive "RATE_LIMIT_PASSWORD_RECOVERY_COMPLETE_PER_TOKEN_MAX" 5),
   .number (positive "RATE_LIMIT_EXTERNAL_WINDOW_SECONDS" 60),
   .number (positive "RATE_LIMIT_EXTERNAL_PER_KEY_MAX" 120),
   .number (positive "RATE_LIMIT_EXTERNAL_PER_ORG_MAX" 600),
   .number (positive "RATE_LIMIT_EXTERNAL_AUTH_FAIL_EVENTS_PER_IP_MAX" 10),
   .number apiKeyLastUsedThrottleSeconds, .number retentionSecurityEventDays,
   .number retentionExpiredAuthTokenDays, .number retentionEndedSessionDays,
   .number retentionCleanupBatchSize]

def Row.numberNamed (name : String) : Row → Option NumberField
  | field _ => none
  | number entry => if entry.name = name then some entry else none

def shape (unicode : Unicode) : List (TextField Unit) := (rawEnvSchema unicode).map Row.slot

end EnvSchema

/-- The values of a record in which no schema gives up; the numbers go by their names. -/
structure Env where
  nodeEnv : NodeEnv
  logLevel : LogLevel
  apiHost : List Char
  trustProxy : List Char
  webDemoUrl : List Char
  corsOrigins : List Char
  databaseUrl : List Char
  redisUrl : List Char
  mailDriver : MailDriver
  mailFromEmail : List Char
  mailFromName : List Char
  smtpHost : Option (List Char)
  smtpUsername : Option (List Char)
  smtpPassword : Option (List Char)
  mailpitHost : List Char
  jwtSecret : List Char
  jwtPreviousSecret : Option (List Char)
  cookieSecure : Bool
  authRefreshCookieName : List Char
  authRefreshCookiePath : List Char
  authCsrfHeaderName : List Char
  rateLimitFailureMode : Option FailureMode
  number : String → Number

namespace EnvSchema

def toEnv (unicode : Unicode) (record : EnvRecord) : Env where
  nodeEnv := nodeEnv.value record
  logLevel := logLevel.value record
  apiHost := apiHost.value record
  trustProxy := (trustProxy unicode).value record
  webDemoUrl := (webDemoUrl unicode).value record
  corsOrigins := corsOrigins.value record
  databaseUrl := (databaseUrl unicode).value record
  redisUrl := (redisUrl unicode).value record
  mailDriver := mailDriver.value record
  mailFromEmail := mailFromEmail.value record
  mailFromName := mailFromName.value record
  smtpHost := smtpHost.value record
  smtpUsername := smtpUsername.value record
  smtpPassword := smtpPassword.value record
  mailpitHost := mailpitHost.value record
  jwtSecret := jwtSecret.value record
  jwtPreviousSecret := jwtPreviousSecret.value record
  cookieSecure := cookieSecure.value record
  authRefreshCookieName := authRefreshCookieName.value record
  authRefreshCookiePath := authRefreshCookiePath.value record
  authCsrfHeaderName := authCsrfHeaderName.value record
  rateLimitFailureMode := rateLimitFailureMode.value record
  number name :=
    (((rawEnvSchema unicode).findSome? (Row.numberNamed name)).bind fun entry =>
      entry.read record).getD .nan

end EnvSchema

end Orgistry.Model
