import Orgistry.Model.EnvSchema

/-!
# Configuration policies

The refinements of the environment schema: `auth-policy.ts`, `mail-policy.ts` and
`production-policy.ts` of `packages/config/src`.  Each issue is a variable and a message.
-/

namespace Orgistry.Model

open Text
open EnvSchema (units)

abbrev EnvIssue := String × String

def enforceJwtRotationConfig (env : Env) : List EnvIssue :=
  env.jwtPreviousSecret.elim [] fun previous =>
    if previous = env.jwtSecret then
      [("JWT_PREVIOUS_SECRET",
        "JWT_PREVIOUS_SECRET must not equal JWT_SECRET; set it to the key being retired, or " ++
          "unset it once the rotation window has closed")]
    else []

/-- The value of a field of `REQUIRED_SMTP_FIELDS` is there, or an issue is. -/
def requireSmtpField (field : String) (value : Option (List Char)) : List EnvIssue :=
  if value.isNone then
    [(field, field ++ " is required when MAIL_DRIVER=smtp; the smtp driver always " ++
      "authenticates against a real provider endpoint")]
  else []

def enforceMailerConfigCompleteness (env : Env) : List EnvIssue :=
  if env.mailDriver ≠ .smtp then []
  else
    requireSmtpField "SMTP_HOST" env.smtpHost ++
      requireSmtpField "SMTP_USERNAME" env.smtpUsername ++
      requireSmtpField "SMTP_PASSWORD" env.smtpPassword

/-- `PRODUCTION_SECRET_MIN_LENGTH` -/
def productionSecretMinLength : ℕ := 32

/-- `KNOWN_DEVELOPMENT_SECRETS` -/
def knownDevelopmentSecrets : List (List Char) :=
  ["dev-only-jwt-secret-change-me".toList, "dev-only-cookie-secret-change-me".toList,
    "test-jwt-secret-value-1234".toList, "test-cookie-secret-value-1234".toList,
    "ci-jwt-secret-value-1234".toList, "ci-cookie-secret-value-1234".toList]

/-- `PLACEHOLDER_MARKERS` -/
def placeholderMarkers : List String :=
  ["change-me", "changeme", "dev-only", "replace-me", "placeholder", "example-secret",
    "default-secret"]

/-- `KNOWN_DEVELOPMENT_SENDERS` -/
def knownDevelopmentSenders : List (List Char) :=
  ["no-reply@orgistry.local".toList, "invitations@orgistry.local".toList]

/-- `RESERVED_SENDER_DOMAIN_SUFFIXES` -/
def reservedSenderDomainSuffixes : List String :=
  [".local", ".localhost", ".test", ".invalid", ".example", "@example.com", "@example.org",
    "@example.net"]

section Policies

variable (unicode : Unicode)

def containsPlaceholderMarker (secret : List Char) : Option String :=
  placeholderMarkers.find? fun marker => marker.toList <:+: unicode.lowerCase.lower secret

/-- The size of a set of characters is the number of different ones. -/
def isObviouslyDegenerateSecret (secret : List Char) : Bool :=
  secret ≠ [] && secret.dedup.length = 1

/-- What the two collectors share. -/
def collectSecretIssues (fieldName hint : String) (secret : List Char) : List String :=
  (if knownDevelopmentSecrets.contains secret then
    [fieldName ++ " is a known development-only default and must not be used in production; " ++
      hint]
  else []) ++
  ((containsPlaceholderMarker unicode secret).elim [] fun marker =>
    [fieldName ++ " contains the placeholder marker \"" ++ marker ++
      "\" and must not be used in production; " ++ hint]) ++
  if isObviouslyDegenerateSecret secret then
    [fieldName ++ " is a single repeated character and must not be used in production; " ++ hint]
  else []

def generateHint : String :=
  "generate at least 32 random bytes, e.g. `openssl rand -hex 32`, and set it in the " ++
    "deployment environment"

def collectProductionSecretIssues (fieldName : String) (secret : List Char) : List String :=
  collectSecretIssues unicode fieldName generateHint secret ++
    if units secret < productionSecretMinLength then
      [fieldName ++ " must be at least 32 characters in production; " ++ generateHint]
    else []

def collectProviderCredentialIssues (fieldName : String) (secret : List Char) : List String :=
  collectSecretIssues unicode fieldName
    "set the real credential issued by the email provider in the deployment environment" secret

def senderHint : String :=
  "set MAIL_FROM_EMAIL to a deliverable address on a domain the deployment controls"

def collectProductionSenderIssues (senderEmail : List Char) : List String :=
  let lowered := unicode.lowerCase.lower senderEmail
  if knownDevelopmentSenders.contains lowered then
    ["MAIL_FROM_EMAIL is the repository's local-only default sender and must not be used in " ++
      "production; " ++ senderHint]
  else
    match reservedSenderDomainSuffixes.find? fun candidate => candidate.toList <:+ lowered with
    | some suffix =>
        ["MAIL_FROM_EMAIL uses the reserved, non-routable domain suffix \"" ++ suffix ++
          "\" and must not be used in production; " ++ senderHint]
    | none => []

/-- The host that links must not have. -/
def isLocalHostname (hostname : List Char) : Bool :=
  hostname = "localhost".toList || hostname = "127.0.0.1".toList || hostname = "::1".toList ||
    ".localhost".toList <:+ hostname || ".local".toList <:+ hostname

def collectProductionWebUrlIssues (webUrl : List Char) : List String :=
  match parseUrl unicode.idna webUrl with
  | none => []
  | some parsed =>
      (if parsed.protocol ≠ "https:".toList then
        ["WEB_DEMO_URL must use https in production; emailed verification and invitation links " ++
          "embed this origin"]
      else []) ++
      if isLocalHostname (unicode.lowerCase.lower (hostname parsed.host)) then
        ["WEB_DEMO_URL must not point at localhost in production; emailed verification and " ++
          "invitation links embed this origin"]
      else []

/-- `addProductionIssue` for every message. -/
def productionIssues (field : String) (messages : List String) : List EnvIssue :=
  messages.map (Prod.mk field)

def enforceProductionConfigSafety (env : Env) : List EnvIssue :=
  if env.nodeEnv ≠ .production then []
  else
    (if env.rateLimitFailureMode = some .open then
      [("RATE_LIMIT_FAILURE_MODE",
        "RATE_LIMIT_FAILURE_MODE must not be \"open\" when NODE_ENV=production; sensitive rate " ++
          "limiters must fail closed when the limiter store is unavailable (leave it unset to " ++
          "use the production default \"closed\")")]
    else []) ++
    productionIssues "JWT_SECRET"
      (collectProductionSecretIssues unicode "JWT_SECRET" env.jwtSecret) ++
    (env.jwtPreviousSecret.elim [] fun previous =>
      productionIssues "JWT_PREVIOUS_SECRET"
        (collectProductionSecretIssues unicode "JWT_PREVIOUS_SECRET" previous)) ++
    (if !env.cookieSecure then
      [("COOKIE_SECURE",
        "COOKIE_SECURE must be \"true\" when NODE_ENV=production so the refresh cookie is only " ++
          "sent over HTTPS; this is required even behind a TLS-terminating reverse proxy")]
    else []) ++
    (if env.mailDriver ≠ .smtp then
      [("MAIL_DRIVER",
        "MAIL_DRIVER must be \"smtp\" when NODE_ENV=production; the \"" ++ env.mailDriver.text ++
          "\" driver is a local development/test sink and would silently swallow account email")]
    else []) ++
    (env.smtpPassword.elim [] fun password =>
      productionIssues "SMTP_PASSWORD"
        (collectProviderCredentialIssues unicode "SMTP_PASSWORD" password)) ++
    productionIssues "MAIL_FROM_EMAIL" (collectProductionSenderIssues unicode env.mailFromEmail) ++
    productionIssues "WEB_DEMO_URL" (collectProductionWebUrlIssues unicode env.webDemoUrl)

end Policies

end Orgistry.Model
