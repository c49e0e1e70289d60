import Orgistry.Model.RateLimit
import Orgistry.Model.ConfigFile
import Orgistry.Model.Secrets
import Orgistry.Repositories.Schema

/-!
# API-key authentication

`api-key.authenticator.ts` with `bearerCredential` of the external route, on options as
`server.ts` wires them.  Every read finds the tables of its own moment, every bucket the
store of its own, and each query and each write may fail.
-/

namespace Orgistry.Model.ApiKeyAuthenticator

open ApiKeySecret
open Repositories (ApiKeyScope)

/-- A row of `api_keys`, with its id as text. -/
abbrev KeyRow := Repositories.ApiKeyRow String

/-- An `AppError` with its details. -/
structure AppError where
  code : String
  statusCode : ℕ
  message : String
  details : List (String × String) := []
  deriving DecidableEq

/-- What is thrown; what is no `AppError` is answered as an internal error. -/
inductive Thrown
  | app (error : AppError)
  | other
  deriving DecidableEq

def apiKeyUnauthorizedError : Thrown :=
  .app { code := "API_KEY_UNAUTHORIZED", statusCode := 401,
         message := "API key authentication failed." }

def ApiKeyScope.name : ApiKeyScope → String
  | .projectsRead => "projects:read"

def apiKeyScopeRequiredError (requiredScope : ApiKeyScope) : Thrown :=
  .app { code := "API_KEY_SCOPE_REQUIRED", statusCode := 403,
         message := "This API key is missing a required scope.",
         details := [("requiredScope", ApiKeyScope.name requiredScope)] }

def apiKeyRateLimitedError : Thrown :=
  .app { code := "RATE_LIMITED", statusCode := 429,
         message := "Too many requests. Please slow down and try again later." }

/-- `entitlementRequiredError(ENTITLEMENT_KEYS.apiKeysAccess)` -/
def entitlementRequiredError : Thrown :=
  .app { code := "ENTITLEMENT_REQUIRED", statusCode := 403,
         message := "Your plan does not include this feature.",
         details := [("entitlement", "api_keys_access")] }

def planStateMissingError : Thrown :=
  .app { code := "PLAN_STATE_MISSING", statusCode := 500,
         message := "Organization plan state is unavailable." }

def rateLimitStoreUnavailableError : Thrown :=
  .app { code := "SERVICE_UNAVAILABLE", statusCode := 503,
         message := "The service is temporarily unavailable. Please try again shortly." }

inductive RateLimitFailureMode
  | opened
  | closed
  deriving DecidableEq

/-- `enforceStoreAvailability`: whether the request may proceed. -/
def enforceStoreAvailability (decision : RateLimitDecision) (failureMode : RateLimitFailureMode) :
    Except Thrown Bool :=
  match decision with
  | .unavailable =>
      match failureMode with
      | .closed => .error rateLimitStoreUnavailableError
      | .opened => .ok true
  | .allowed => .ok true
  | .limited => .ok false

/-- A limiter that decides by the hits counted, where its store can count them. -/
structure CountingLimiter (σ : Type) extends RateLimiter σ where
  hits : σ → ConsumeCall → Option ℤ
  consume_fst : ∀ state call, (consume state call).1 =
    match hits state call with
    | none => .unavailable
    | some count => decideLimit count call.limit

structure ExternalRateLimits where
  windowSeconds : ℤ
  perKeyMax : ℤ
  perOrgMax : ℤ
  authFailEventsPerIpMax : ℤ

structure Options (σ : Type) where
  sha256 : List Text.Byte → List Text.Byte
  rateLimiter : CountingLimiter σ
  rateLimits : ExternalRateLimits
  rateLimitFailureMode : RateLimitFailureMode
  lastUsedThrottleSeconds : ℤ

/-- `bearerCredential` -/
def bearerCredential (header : Option (List Char)) : Option (List Char) :=
  match header with
  | none => none
  | some text =>
      if "Bearer ".toList.isPrefixOf text then
        let token := BackupConfig.trim (text.drop "Bearer ".toList.length)
        if 0 < token.length then some token else none
      else none

structure RequestContext where
  requestId : Option String
  ipAddress : Option String
  userAgent : Option String
  deriving DecidableEq

structure ApiKeyActor where
  apiKeyId : String
  organizationId : String
  scopes : List ApiKeyScope
  requestId : Option String
  deriving DecidableEq

inductive EventType
  | authMalformed
  | authUnknown
  | authRevoked
  | authExpired
  | authOrganizationInactive
  | authEntitlementMissing
  | authScopeMissing
  | rateLimitExceeded
  deriving DecidableEq

/-- The input of `recordAuthEvent`. -/
structure AuthEvent where
  eventType : EventType
  apiKeyId : Option String
  organizationId : Option String
  metadata : List (String × String)
  ctx : RequestContext
  deriving DecidableEq

/-- A line of the log. -/
structure SuppressionWarning where
  eventType : EventType
  reason : String
  deriving DecidableEq

/-- The store of a bucket and the instant, when the bucket is consumed from. -/
structure Bucket (σ : Type) where
  state : σ
  now : ℤ

/-- What a request meets: the tables that each query finds, or that it fails; the clock;
the stores of the buckets; and which writes fail. -/
structure World (σ : Type) where
  apiKeys : Option (List KeyRow)
  organizations : Option (List Repositories.OrganizationRow)
  plans : Option (List Repositories.OrganizationPlanRow)
  /-- When the key is looked up, and the clock after it. -/
  lookedUpAtMs : Millis
  nowMs : Millis
  lookedUpAtMs_le : lookedUpAtMs ≤ nowMs
  suppressedAtMs : Millis
  authFailBucket : Bucket σ
  keyBucket : Bucket σ
  orgBucket : Bucket σ
  recordAuthEventFails : Bool
  touchLastUsedFails : Bool

/-- What a request leaves behind: rows, last uses, log lines, and when a suppression was
last logged. -/
structure Traces where
  events : List AuthEvent
  lastUsed : List (String × Millis)
  warnings : List SuppressionWarning
  suppressionLastLoggedAtMs : Option Millis

section Authenticate

variable {σ : Type} (options : Options σ) (world : World σ)

def findBySecretHash (secretHash : List Char) : Except Thrown (Option (KeyRow)) :=
  match world.apiKeys with
  | none => .error .other
  | some rows => .ok (rows.find? fun row => row.secretHash.toList = secretHash)

def findOrganizationById (organizationId : String) :
    Except Thrown (Option Repositories.OrganizationRow) :=
  match world.organizations with
  | none => .error .other
  | some rows => .ok (rows.find? fun row => row.id = organizationId)

/-- `resolveApiKeyEntitlements`, of which the access is used. -/
def resolveApiKeyEntitlements (organizationId : String) : Except Thrown Bool :=
  match world.plans with
  | none => .error .other
  | some rows =>
      match rows.find? fun row => row.organizationId = organizationId with
      | none => .error planStateMissingError
      | some row => .ok (apiKeysAccess row.planKey)

def recordAuthEvent (event : AuthEvent) (traces : Traces) : Except Thrown Unit × Traces :=
  if world.recordAuthEventFails then (.error .other, traces)
  else (.ok (), { traces with events := traces.events ++ [event] })

def touchLastUsed (apiKeyId : String) (traces : Traces) : Except Thrown Unit × Traces :=
  if world.touchLastUsedFails then (.error .other, traces)
  else (.ok (), { traces with lastUsed := traces.lastUsed ++ [(apiKeyId, world.nowMs)] })

def authFailCall (ctx : RequestContext) : ConsumeCall where
  now := world.authFailBucket.now
  key := "rl:ext:auth-fail-events:ip:" ++ ctx.ipAddress.getD "unknown"
  limit := options.rateLimits.authFailEventsPerIpMax
  windowSeconds := options.rateLimits.windowSeconds

def keyCall (row : KeyRow) : ConsumeCall where
  now := world.keyBucket.now
  key := "rl:ext:key:" ++ row.id
  limit := options.rateLimits.perKeyMax
  windowSeconds := options.rateLimits.windowSeconds

def orgCall (row : KeyRow) : ConsumeCall where
  now := world.orgBucket.now
  key := "rl:ext:org:" ++ row.organizationId
  limit := options.rateLimits.perOrgMax
  windowSeconds := options.rateLimits.windowSeconds

def authFailDecision (ctx : RequestContext) : RateLimitDecision :=
  (options.rateLimiter.consume world.authFailBucket.state (authFailCall options world ctx)).1

def keyDecision (row : KeyRow) : RateLimitDecision :=
  (options.rateLimiter.consume world.keyBucket.state (keyCall options world row)).1

def orgDecision (row : KeyRow) : RateLimitDecision :=
  (options.rateLimiter.consume world.orgBucket.state (orgCall options world row)).1

/-! ## Authentication -/

/-- `recordFailedAuthEventBounded` -/
def recordFailedAuthEventBounded (event : AuthEvent) (traces : Traces) :
    Except Thrown Unit × Traces :=
  let decision := authFailDecision options world event.ctx
  if decision = .allowed then recordAuthEvent world event traces
  else if traces.suppressionLastLoggedAtMs.all fun loggedAt =>
      options.rateLimits.windowSeconds * 1000 ≤ world.suppressedAtMs - loggedAt then
    (.ok (), { traces with
      suppressionLastLoggedAtMs := some world.suppressedAtMs
      warnings := traces.warnings ++ [⟨event.eventType,
        if decision = .limited then "allowance_exceeded" else "store_unavailable"⟩] })
  else (.ok (), traces)

/-- What is recorded, and then thrown unless the recording has thrown. -/
def throwAfter {α : Type} (recorded : Except Thrown Unit × Traces) (thrown : Thrown) :
    Except Thrown α × Traces :=
  match recorded with
  | (.error error, traces) => (.error error, traces)
  | (.ok (), traces) => (.error thrown, traces)

/-- `row.expiresAt !== null && row.expiresAt.getTime() <= nowMs` -/
def isExpired (row : KeyRow) (nowMs : Millis) : Bool :=
  row.expiresAt.any fun expiresAt => getTime expiresAt ≤ nowMs

/-- Whether the organization lets its keys in. -/
def isActive (organization : Option Repositories.OrganizationRow) : Bool :=
  organization.any fun organization => organization.status = .active

/-- `shouldTouch` -/
def shouldTouch (row : KeyRow) : Bool :=
  row.lastUsedAt.all fun lastUsedAt =>
    options.lastUsedThrottleSeconds * 1000 ≤ world.nowMs - getTime lastUsedAt

/-- From step 8 on: the rate limits and the success. -/
def letIn (row : KeyRow) (ctx : RequestContext) (traces : Traces) :
    Except Thrown ApiKeyActor × Traces :=
  let limited (bucket : String) :=
    throwAfter
      (recordAuthEvent world
        ⟨.rateLimitExceeded, some row.id, some row.organizationId, [("bucket", bucket)], ctx⟩
        traces)
      apiKeyRateLimitedError
  match enforceStoreAvailability (keyDecision options world row)
      options.rateLimitFailureMode with
  | .error error => (.error error, traces)
  | .ok false => limited "per_key"
  | .ok true =>
      match enforceStoreAvailability (orgDecision options world row)
          options.rateLimitFailureMode with
      | .error error => (.error error, traces)
      | .ok false => limited "per_organization"
      | .ok true =>
          let actor : ApiKeyActor := ⟨row.id, row.organizationId, row.scopes, ctx.requestId⟩
          if shouldTouch options world row then
            match touchLastUsed world row.id traces with
            | (.error error, traces) => (.error error, traces)
            | (.ok (), traces) => (.ok actor, traces)
          else (.ok actor, traces)

/-- From step 5 on: the organization, the plan and the scope. -/
def authorize (row : KeyRow) (ctx : RequestContext) (requiredScope : ApiKeyScope)
    (traces : Traces) : Except Thrown ApiKeyActor × Traces :=
  match findOrganizationById world row.organizationId with
  | .error error => (.error error, traces)
  | .ok organization =>
      if isActive organization then
        match resolveApiKeyEntitlements world row.organizationId with
        | .error error => (.error error, traces)
        | .ok access =>
            if access then
              if requiredScope ∈ row.scopes then letIn options world row ctx traces
              else
                throwAfter (recordAuthEvent world
                  ⟨.authScopeMissing, some row.id, some row.organizationId,
                    [("requiredScope", ApiKeyScope.name requiredScope)], ctx⟩ traces)
                  (apiKeyScopeRequiredError requiredScope)
            else
              throwAfter (recordAuthEvent world
                ⟨.authEntitlementMissing, some row.id, some row.organizationId, [], ctx⟩ traces)
                entitlementRequiredError
      else
        throwAfter (recordFailedAuthEventBounded options world
          ⟨.authOrganizationInactive, some row.id, some row.organizationId, [], ctx⟩ traces)
          apiKeyUnauthorizedError

/-- `authenticate`: the outcome, and what it leaves behind. -/
def authenticate (rawKey : Option (List Char)) (ctx : RequestContext)
    (requiredScope : ApiKeyScope) (traces : Traces) :
    Except Thrown ApiKeyActor × Traces :=
  let unauthorized (event : AuthEvent) :=
    throwAfter (recordFailedAuthEventBounded options world event traces) apiKeyUnauthorizedError
  match parseApiKey rawKey with
  | none =>
      let reason := if rawKey.any (· ≠ []) then "malformed" else "missing"
      unauthorized ⟨.authMalformed, none, none, [("reason", reason)], ctx⟩
  | some parsed =>
      match findBySecretHash world (hashApiKeySecret options.sha256 parsed.secretComponent) with
      | .error error => (.error error, traces)
      | .ok none => unauthorized ⟨.authUnknown, none, none, [], ctx⟩
      | .ok (some row) =>
          if row.revokedAt.isSome then
            unauthorized ⟨.authRevoked, some row.id, some row.organizationId, [], ctx⟩
          else if isExpired row world.nowMs then
            unauthorized ⟨.authExpired, some row.id, some row.organizationId, [], ctx⟩
          else authorize options world row ctx requiredScope traces

end Authenticate

end Orgistry.Model.ApiKeyAuthenticator
