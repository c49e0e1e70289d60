import Orgistry.Model.ConfigPolicies

/-!
# Runtime configuration

`envSchema` with its refinements, and `toConfig` and `loadConfig` of
`packages/config/src/index.ts`.
-/

namespace Orgistry.Model

open Numbers Text Validation

namespace RuntimeConfig

structure Smtp where
  host : List Char
  port : Number
  username : List Char
  password : List Char

structure Mail where
  driver : MailDriver
  fromEmail : List Char
  fromName : List Char
  timeoutMs : Number
  smtp : Option Smtp

structure Mailpit where
  host : List Char
  smtpPort : Number
  uiPort : Number

structure RefreshCookie where
  name : List Char
  path : List Char
  secure : Bool
  maxAgeSeconds : Number

structure Auth where
  jwtSecret : List Char
  previousJwtSecret : Option (List Char)
  cookieSecure : Bool
  accessTokenTtlSeconds : Number
  sessionTtlSeconds : Number
  refreshTokenTtlSeconds : Number
  csrfHeaderName : List Char
  refreshCookie : RefreshCookie

structure AuthLimits where
  windowSeconds : Number
  loginPerIpMax : Number
  loginPerEmailMax : Number
  refreshPerSessionMax : Number
  refreshPerIpMax : Number
  changePasswordPerUserMax : Number
  changeEmailPerUserMax : Number

structure RegistrationLimits where
  windowSeconds : Number
  requestPerIpMax : Number
  requestPerEmailMax : Number
  completePerIpMax : Number
  completePerTokenMax : Number
  existingAccountNoticePerEmailMax : Number

structure EmailVerificationLimits where
  windowSeconds : Number
  requestPerUserMax : Number
  requestPerIpMax : Number
  completePerIpMax : Number

structure PasswordRecoveryLimits where
  windowSeconds : Number
  requestPerIpMax : Number
  requestPerEmailMax : Number
  completePerIpMax : Number
  completePerTokenMax : Number

structure InvitationLimits where
  windowSeconds : Number
  inspectPerIpMax : Number
  inspectPerTokenMax : Number
  acceptPerUserMax : Number
  createPerUserMax : Number
  createPerOrgMax : Number

structure MutationLimits where
  windowSeconds : Number
  orgCreatePerUserMax : Number
  projectCreatePerUserMax : Number
  projectMutationPerUserMax : Number
  apiKeyCreatePerUserMax : Number
  planChangePerOrgMax : Number
  memberMutationPerUserMax : Number

structure AuditReadLimits where
  windowSeconds : Number
  perUserMax : Number
  perOrgMax : Number

structure ExternalLimits where
  windowSeconds : Number
  perKeyMax : Number
  perOrgMax : Number
  authFailEventsPerIpMax : Number

structure RateLimit where
  windowSeconds : Number
  max : Number
  failureMode : FailureMode
  auth : AuthLimits
  registration : RegistrationLimits
  emailVerification : EmailVerificationLimits
  passwordRecovery : PasswordRecoveryLimits
  invitations : InvitationLimits
  mutations : MutationLimits
  auditRead : AuditReadLimits
  external : ExternalLimits

structure Retention where
  securityEventDays : Number
  expiredAuthTokenDays : Number
  endedSessionDays : Number
  cleanupBatchSize : Number

end RuntimeConfig

/-- The configuration; a section of one entry is that entry. -/
structure RuntimeConfig where
  env : NodeEnv
  isProduction : Bool
  isTest : Bool
  logLevel : LogLevel
  apiHost : List Char
  apiPort : Number
  apiTrustProxy : TrustProxySetting
  hstsMaxAgeSeconds : Number
  webUrl : List Char
  corsOrigins : List (List Char)
  databaseUrl : List Char
  redisUrl : List Char
  mail : RuntimeConfig.Mail
  mailpit : RuntimeConfig.Mailpit
  invitationsTtlSeconds : Number
  emailVerificationTtlSeconds : Number
  passwordRecoveryTtlSeconds : Number
  registrationCompletionTtlSeconds : Number
  auth : RuntimeConfig.Auth
  rateLimit : RuntimeConfig.RateLimit
  apiKeysLastUsedThrottleSeconds : Number
  retention : RuntimeConfig.Retention

namespace RuntimeConfig

def parseOrigins (raw : List Char) : List (List Char) :=
  ((splitOn ',' raw).map BackupConfig.trim).filter (· ≠ [])

/-- The `rateLimit` section. -/
def toRateLimit (env : Env) : RateLimit where
  windowSeconds := env.number "RATE_LIMIT_WINDOW_SECONDS"
  max := env.number "RATE_LIMIT_MAX"
  failureMode :=
    env.rateLimitFailureMode.getD (if env.nodeEnv = .production then .closed else .open)
  auth := {
    windowSeconds := env.number "RATE_LIMIT_AUTH_WINDOW_SECONDS"
    loginPerIpMax := env.number "RATE_LIMIT_LOGIN_PER_IP_MAX"
    loginPerEmailMax := env.number "RATE_LIMIT_LOGIN_PER_EMAIL_MAX"
    refreshPerSessionMax := env.number "RATE_LIMIT_REFRESH_PER_SESSION_MAX"
    refreshPerIpMax := env.number "RATE_LIMIT_REFRESH_PER_IP_MAX"
    changePasswordPerUserMax := env.number "RATE_LIMIT_CHANGE_PASSWORD_PER_USER_MAX"
    changeEmailPerUserMax := env.number "RATE_LIMIT_CHANGE_EMAIL_PER_USER_MAX" }
  registration := {
    windowSeconds := env.number "RATE_LIMIT_AUTH_WINDOW_SECONDS"
    requestPerIpMax := env.number "RATE_LIMIT_REGISTER_PER_IP_MAX"
    requestPerEmailMax := env.number "RATE_LIMIT_REGISTER_PER_EMAIL_MAX"
    completePerIpMax := env.number "RATE_LIMIT_REGISTRATION_COMPLETE_PER_IP_MAX"
    completePerTokenMax := env.number "RATE_LIMIT_REGISTRATION_COMPLETE_PER_TOKEN_MAX"
    existingAccountNoticePerEmailMax :=
      env.number "RATE_LIMIT_REGISTRATION_NOTICE_PER_EMAIL_MAX" }
  emailVerification := {
    windowSeconds := env.number "RATE_LIMIT_AUTH_WINDOW_SECONDS"
    requestPerUserMax := env.number "RATE_LIMIT_EMAIL_VERIFICATION_REQUEST_PER_USER_MAX"
    requestPerIpMax := env.number "RATE_LIMIT_EMAIL_VERIFICATION_REQUEST_PER_IP_MAX"
    completePerIpMax := env.number "RATE_LIMIT_EMAIL_VERIFICATION_COMPLETE_PER_IP_MAX" }
  passwordRecovery := {
    windowSeconds := env.number "RATE_LIMIT_AUTH_WINDOW_SECONDS"
    requestPerIpMax := env.number "RATE_LIMIT_PASSWORD_RECOVERY_REQUEST_PER_IP_MAX"
    requestPerEmailMax := env.number "RATE_LIMIT_PASSWORD_RECOVERY_REQUEST_PER_EMAIL_MAX"
    completePerIpMax := env.number "RATE_LIMIT_PASSWORD_RECOVERY_COMPLETE_PER_IP_MAX"
    completePerTokenMax := env.number "RATE_LIMIT_PASSWORD_RECOVERY_COMPLETE_PER_TOKEN_MAX" }
  invitations := {
    windowSeconds := env.number "RATE_LIMIT_AUTH_WINDOW_SECONDS"
    inspectPerIpMax := env.number "RATE_LIMIT_INVITATION_INSPECT_PER_IP_MAX"
    inspectPerTokenMax := env.number "RATE_LIMIT_INVITATION_INSPECT_PER_TOKEN_MAX"
    acceptPerUserMax := env.number "RATE_LIMIT_INVITATION_ACCEPT_PER_USER_MAX"
    createPerUserMax := env.number "RATE_LIMIT_INVITATION_CREATE_PER_USER_MAX"
    createPerOrgMax := env.number "RATE_LIMIT_INVITATION_CREATE_PER_ORG_MAX" }
  mutations := {
    windowSeconds := env.number "RATE_LIMIT_MUTATION_WINDOW_SECONDS"
    orgCreatePerUserMax := env.number "RATE_LIMIT_ORG_CREATE_PER_USER_MAX"
    projectCreatePerUserMax := env.number "RATE_LIMIT_PROJECT_CREATE_PER_USER_MAX"
    projectMutationPerUserMax := env.number "RATE_LIMIT_PROJECT_MUTATION_PER_USER_MAX"
    apiKeyCreatePerUserMax := env.number "RATE_LIMIT_API_KEY_CREATE_PER_USER_MAX"
    planChangePerOrgMax := env.number "RATE_LIMIT_PLAN_CHANGE_PER_ORG_MAX"
    memberMutationPerUserMax := env.number "RATE_LIMIT_MEMBER_MUTATION_PER_USER_MAX" }
  auditRead := {
    windowSeconds := env.number "RATE_LIMIT_AUDIT_READ_WINDOW_SECONDS"
    perUserMax := env.number "RATE_LIMIT_AUDIT_READ_PER_USER_MAX"
    perOrgMax := env.number "RATE_LIMIT_AUDIT_READ_PER_ORG_MAX" }
  external := {
    windowSeconds := env.number "RATE_LIMIT_EXTERNAL_WINDOW_SECONDS"
    perKeyMax := env.number "RATE_LIMIT_EXTERNAL_PER_KEY_MAX"
    perOrgMax := env.number "RATE_LIMIT_EXTERNAL_PER_ORG_MAX"
    authFailEventsPerIpMax := env.number "RATE_LIMIT_EXTERNAL_AUTH_FAIL_EVENTS_PER_IP_MAX" }

/-- The endpoint of the smtp driver; an absent field would be an empty text. -/
def toSmtp (env : Env) : Option Smtp :=
  if env.mailDriver = .smtp then
    some {
      host := env.smtpHost.getD []
      port := env.number "SMTP_PORT"
      username := env.smtpUsername.getD []
      password := env.smtpPassword.getD [] }
  else none

section Loading

variable (unicode : Unicode)

/-- The `auth` section. -/
def toAuth (env : Env) : Auth where
  jwtSecret := env.jwtSecret
  previousJwtSecret := env.jwtPreviousSecret
  cookieSecure := env.cookieSecure
  accessTokenTtlSeconds := env.number "AUTH_ACCESS_TOKEN_TTL_SECONDS"
  sessionTtlSeconds := env.number "AUTH_SESSION_TTL_SECONDS"
  refreshTokenTtlSeconds := env.number "AUTH_REFRESH_TOKEN_TTL_SECONDS"
  csrfHeaderName := unicode.lowerCase.lower env.authCsrfHeaderName
  refreshCookie := {
    name := env.authRefreshCookieName
    path := env.authRefreshCookiePath
    secure := env.cookieSecure
    maxAgeSeconds := env.number "AUTH_REFRESH_TOKEN_TTL_SECONDS" }

def toConfig (env : Env) : RuntimeConfig where
  env := env.nodeEnv
  isProduction := env.nodeEnv = .production
  isTest := env.nodeEnv = .test
  logLevel := env.logLevel
  apiHost := env.apiHost
  apiPort := env.number "API_PORT"
  apiTrustProxy := (parseTrustProxy unicode.lowerCase env.trustProxy).getD .direct
  hstsMaxAgeSeconds := env.number "HSTS_MAX_AGE_SECONDS"
  webUrl := env.webDemoUrl
  corsOrigins := parseOrigins env.corsOrigins
  databaseUrl := env.databaseUrl
  redisUrl := env.redisUrl
  mail := {
    driver := env.mailDriver
    fromEmail := env.mailFromEmail
    fromName := env.mailFromName
    timeoutMs := env.number "MAIL_TIMEOUT_MS"
    smtp := toSmtp env }
  mailpit := {
    host := env.mailpitHost
    smtpPort := env.number "MAILPIT_SMTP_PORT"
    uiPort := env.number "MAILPIT_UI_PORT" }
  invitationsTtlSeconds := env.number "INVITATION_TTL_SECONDS"
  emailVerificationTtlSeconds := env.number "EMAIL_VERIFICATION_TTL_SECONDS"
  passwordRecoveryTtlSeconds := env.number "PASSWORD_RESET_TTL_SECONDS"
  registrationCompletionTtlSeconds := env.number "REGISTRATION_COMPLETION_TTL_SECONDS"
  auth := toAuth unicode env
  rateLimit := toRateLimit env
  apiKeysLastUsedThrottleSeconds := env.number "API_KEY_LAST_USED_THROTTLE_SECONDS"
  retention := {
    securityEventDays := env.number "RETENTION_SECURITY_EVENT_DAYS"
    expiredAuthTokenDays := env.number "RETENTION_EXPIRED_AUTH_TOKEN_DAYS"
    endedSessionDays := env.number "RETENTION_ENDED_SESSION_DAYS"
    cleanupBatchSize := env.number "RETENTION_CLEANUP_BATCH_SIZE" }

/-- The refinements of `envSchema`. -/
def refine (env : Env) : List EnvIssue :=
  enforceJwtRotationConfig env ++ enforceMailerConfigCompleteness env ++
    enforceProductionConfigSafety unicode env

/-- The issues of a record: refinements run unless the schema of a field gives up. -/
def envIssues (record : EnvRecord) : List EnvIssue :=
  issuesOf (EnvSchema.shape unicode) record ++
    if givesUp (EnvSchema.shape unicode) record then []
    else refine unicode (EnvSchema.toEnv unicode record)

/-- `envSchema.safeParse` -/
def safeParse (record : EnvRecord) : Except (List EnvIssue) Env :=
  let known := strip (EnvSchema.shape unicode) record
  if envIssues unicode known = [] then .ok (EnvSchema.toEnv unicode known)
  else .error (envIssues unicode known)

/-- The configuration, or the issues of a `ConfigValidationError`. -/
def loadConfig (readSecretFile : SecretFileReader) (source : EnvRecord) :
    Except (List String) RuntimeConfig :=
  let resolved := resolveSecretSources source readSecretFile
  if resolved.issues ≠ [] then .error resolved.issues
  else
    match safeParse unicode resolved.env with
    | .error issues => .error (issues.map fun issue => issue.1 ++ ": " ++ issue.2)
    | .ok env => .ok (toConfig unicode env)

end Loading

end RuntimeConfig

end Orgistry.Model
