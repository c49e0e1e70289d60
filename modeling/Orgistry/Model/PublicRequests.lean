import Orgistry.Model.RateLimit
import Orgistry.Model.Registration

/-!
# Public account requests

`requestRegistration` of `registration.service.ts` and `requestReset` of
`password-recovery.service.ts` as a client meets them: one request after the
other, with everything that may throw on the way and the response of the error
handler.  What the rest of the world does during a request is given: the decisions
of the limiter, and which calls fail.
-/

namespace Orgistry.Model.PublicRequests

/-- An `AppError`, which the error handler answers with as it is. -/
structure AppError where
  code : String
  statusCode : ℕ
  message : String
  deriving DecidableEq

inductive Thrown
  | app (error : AppError)
  | other
  deriving DecidableEq

def rateLimitedError : Thrown :=
  .app ⟨"RATE_LIMITED", 429, "Too many requests. Please slow down and try again later."⟩

def rateLimitStoreUnavailableError : Thrown :=
  .app ⟨"SERVICE_UNAVAILABLE", 503,
    "The service is temporarily unavailable. Please try again shortly."⟩

def invitationInvalidError : Thrown :=
  .app ⟨"INVITATION_INVALID", 404, "Invitation not found."⟩

def invitationExpiredError : Thrown :=
  .app ⟨"INVITATION_EXPIRED", 410, "This invitation has expired."⟩

def invitationRevokedError : Thrown :=
  .app ⟨"INVITATION_REVOKED", 409, "This invitation has been revoked."⟩

def invitationAlreadyAcceptedError : Thrown :=
  .app ⟨"INVITATION_ALREADY_ACCEPTED", 409, "This invitation has already been accepted."⟩

def invitationEmailMismatchError : Thrown :=
  .app ⟨"INVITATION_EMAIL_MISMATCH", 403,
    "This invitation was issued to a different email address."⟩

def planStateMissingError : Thrown :=
  .app ⟨"PLAN_STATE_MISSING", 500, "Organization plan state is unavailable."⟩

def quotaExceededError : Thrown :=
  .app ⟨"QUOTA_EXCEEDED", 409, "Your plan quota has been reached."⟩

/-- The body `{ accepted: true }`. -/
structure Acceptance where
  accepted : Bool
  deriving DecidableEq

/-- `GENERIC_ACCEPTANCE`. -/
def genericAcceptance : Acceptance := ⟨true⟩

inductive Body
  | data (acceptance : Acceptance)
  | error (code message : String)
  deriving DecidableEq

structure Response where
  statusCode : ℕ
  body : Body
  deriving DecidableEq

/-- The routes answer 200, and `registerErrorHandler` answers for what is thrown. -/
def respond : Except Thrown Acceptance → Response
  | .ok acceptance => ⟨200, .data acceptance⟩
  | .error (.app error) => ⟨error.statusCode, .error error.code error.message⟩
  | .error .other => ⟨500, .error "INTERNAL_ERROR" "An unexpected error occurred."⟩

/-- The metadata of the events that these requests write.  They are anonymous and
have no user and no session. -/
structure SecurityEvent where
  eventType : String
  metadata : List (String × String)
  requestId : String
  deriving DecidableEq

/-- A delivered mail: its template, its recipient, and the token of its link. -/
inductive Mail
  | existingAccountNotice (recipient : String)
  | registrationCompletion (recipient : String) (token : TokenHash)
  | passwordReset (recipient : String) (token : TokenHash)
  deriving DecidableEq

structure World where
  users : List User
  pendingRegistrations : List PendingRegistration
  passwordResetTokens : List AccountToken
  organizations : List Organization
  organizationPlans : List OrganizationPlan
  memberships : List Membership
  invitations : List Invitation
  securityEvents : List SecurityEvent
  outbox : List Mail

/-- Which calls of a request throw for reasons of their own. -/
structure Failures where
  limiterEvent : Bool
  invitationLookup : Bool
  userLookup : Bool
  persistence : Bool
  delivery : Bool
  outcomeEvent : Bool
  deriving DecidableEq

/-- The answers of the limiter in the buckets per IP address, per email and for
notices, the failures, the clock and the random draws during one request. -/
structure Circumstances where
  perIp : RateLimitDecision
  perEmail : RateLimitDecision
  notice : RateLimitDecision
  failures : Failures
  now : ℕ
  rowId : Id
  token : TokenHash
  salt : ℕ

inductive RateLimitFailureMode
  | failOpen
  | failClosed
  deriving DecidableEq

structure Options where
  rateLimitFailureMode : RateLimitFailureMode
  /-- Whether the invitation collaborator is wired. -/
  invitations : Bool
  hashPassword : String → ℕ → String
  completionTtl : ℕ
  resetTtl : ℕ

structure RequestContext where
  requestId : String
  ipAddress : Option String
  deriving DecidableEq

/-- The empty text counts as none. -/
def RequestContext.hasIpAddress (ctx : RequestContext) : Bool :=
  (ctx.ipAddress.filter (· ≠ "")).isSome

/-- A call throws or answers, and what it has changed stays changed. -/
abbrev Service (α : Type) := ExceptT Thrown (StateM World) α

namespace Service

/-- `try { … } catch { … }`, with the result to go on from. -/
def attempt {α : Type} (call : Service α) : Service (Except Thrown α) := fun w =>
  ((.ok (call w).1), (call w).2)

end Service

/-- A call that may throw on its own. -/
def failing (fails : Bool) : Service Unit := if fails then throw .other else pure ()

/-- A query. -/
def read {α : Type} (f : World → α) : Service α := fun w => (.ok (f w), w)

/-- A transaction, which leaves nothing behind when it throws. -/
def change (f : World → Except Thrown World) : Service Unit := fun w =>
  match f w with
  | .ok after => (.ok (), after)
  | .error thrown => (.error thrown, w)

/-- `insertSecurityEvent`. -/
def insertSecurityEvent (fails : Bool) (event : SecurityEvent) : Service Unit := do
  failing fails
  change fun w => .ok { w with securityEvents := w.securityEvents ++ [event] }

/-- `mailer.deliver`. -/
def deliver (fails : Bool) (mail : Mail) : Service Unit := do
  failing fails
  change fun w => .ok { w with outbox := w.outbox ++ [mail] }

def enforceStoreAvailability (mode : RateLimitFailureMode) (decision : RateLimitDecision) :
    Service Bool :=
  match decision, mode with
  | .unavailable, .failClosed => throw rateLimitStoreUnavailableError
  | .unavailable, .failOpen => return true
  | decision, _ => return decision = .allowed

/-- `enforceRateLimit`, once the limiter has decided. -/
def enforceRateLimit (options : Options) (failures : Failures) (decision : RateLimitDecision)
    (bucket : String) (ctx : RequestContext) : Service Unit := do
  let allowed ← enforceStoreAvailability options.rateLimitFailureMode decision
  if allowed then return
  else
    insertSecurityEvent failures.limiterEvent
      ⟨"auth.rate_limit_exceeded", [("bucket", bucket)], ctx.requestId⟩
    throw rateLimitedError

/-- There may be no IP address. -/
def enforceIpRateLimit (options : Options) (c : Circumstances) (bucket : String)
    (ctx : RequestContext) : Service Unit :=
  if ctx.hasIpAddress then enforceRateLimit options c.failures c.perIp bucket ctx else pure ()

/-- The two public buckets of a request. -/
def enforceRequestLimits (options : Options) (c : Circumstances) (ipBucket emailBucket : String)
    (ctx : RequestContext) : Service Unit := do
  enforceIpRateLimit options c ipBucket ctx
  enforceRateLimit options c.failures c.perEmail emailBucket ctx

/-- `assertAcceptable`. -/
def acceptabilityError (invitation : Invitation) (now : ℕ) : Option Thrown :=
  if invitation.status = .accepted then some invitationAlreadyAcceptedError
  else if invitation.status = .revoked then some invitationRevokedError
  else if isExpired invitation now then some invitationExpiredError
  else none

/-- `requireMemberAdditionQuota`. -/
def memberQuotaError (w : World) (organizationId : Id) : Option Thrown :=
  match w.organizationPlans.find? fun plan => plan.organizationId = organizationId with
  | none => some planStateMissingError
  | some plan =>
      let members := (w.memberships.filter fun membership =>
        membership.organizationId = organizationId && membership.status = .active).length
      if evaluateCountQuota members (maxMembers plan.planKey) = .exceeded then
        some quotaExceededError
      else none

/-- `findContextByTokenHash`, which joins the organization. -/
def findContextByTokenHash (w : World) (tokenHash : TokenHash) : Option Invitation :=
  w.invitations.find? fun invitation => invitation.tokenHash = tokenHash &&
    w.organizations.any fun organization => organization.id = invitation.organizationId

def prepareForRegistration (c : Circumstances) (tokenHash : TokenHash)
    (normalizedEmail : String) : Service Id := do
  failing c.failures.invitationLookup
  match ← read fun w => findContextByTokenHash w tokenHash with
  | none => throw invitationInvalidError
  | some invitation =>
      match acceptabilityError invitation c.now with
      | some thrown => throw thrown
      | none =>
          if invitation.invitedEmailNormalized ≠ normalizedEmail then
            throw invitationEmailMismatchError
          else
            match ← read fun w => memberQuotaError w invitation.organizationId with
            | some thrown => throw thrown
            | none => return invitation.id

/-! ## Outcomes -/

/-- The outcomes of both kinds of request. -/
inductive RequestOutcome
  | sent
  | sendFailed
  | persistFailed
  | lookupFailed
  | existingAccountNoticeSent
  | existingAccountNoticeFailed
  | existingAccountNoticeThrottled
  | ineligibleAccount
  | invitationRejected
  | invitationLookupFailed
  | inactiveAccount
  | unknownEmail
  deriving DecidableEq

def RequestOutcome.text : RequestOutcome → String
  | .sent => "sent"
  | .sendFailed => "send_failed"
  | .persistFailed => "persist_failed"
  | .lookupFailed => "lookup_failed"
  | .existingAccountNoticeSent => "existing_account_notice_sent"
  | .existingAccountNoticeFailed => "existing_account_notice_failed"
  | .existingAccountNoticeThrottled => "existing_account_notice_throttled"
  | .ineligibleAccount => "ineligible_account"
  | .invitationRejected => "invitation_rejected"
  | .invitationLookupFailed => "invitation_lookup_failed"
  | .inactiveAccount => "inactive_account"
  | .unknownEmail => "unknown_email"

/-- `recordRequestOutcome`, which swallows what the event store throws. -/
def recordRequestOutcome (eventType : String) (failures : Failures) (outcome : RequestOutcome)
    (ctx : RequestContext) : Service Unit := do
  let _ ← (insertSecurityEvent failures.outcomeEvent
    ⟨eventType, [("outcome", outcome.text), ("delivered", toString (outcome = .sent : Bool))],
      ctx.requestId⟩).attempt
  return

/-- `findUserByNormalizedEmail` of both repositories. -/
def findUserByNormalizedEmail (failures : Failures) (normalizedEmail : String) :
    Service (Option User) := do
  failing failures.userLookup
  read fun w => w.users.find? fun user => user.normalizedEmail = normalizedEmail

/-- Active and not soft-deleted. -/
def isRecoverable (user : User) : Bool := user.status = .active && user.deletedAt.isNone

/-! ## `createRegistrationService` -/

namespace RegistrationService

inductive RequestInvitationResolution
  | none
  | valid (invitationId : Id)
  | rejected (outcome : RequestOutcome)

/-- The empty token counts as none. -/
def resolveRequestInvitation (options : Options) (c : Circumstances)
    (invitationToken : Option TokenHash) (normalizedEmail : String) :
    Service RequestInvitationResolution := do
  match invitationToken with
  | .none => return .none
  | some tokenHash =>
      if options.invitations then
        match ← (prepareForRegistration c tokenHash normalizedEmail).attempt with
        | .ok invitationId => return .valid invitationId
        | .error (.app _) => return .rejected .invitationRejected
        | .error .other => return .rejected .invitationLookupFailed
      else return .rejected .invitationRejected

/-- `issuePendingRegistration`: older generations retire, and the token has to be new. -/
def issuePendingRegistration (failures : Failures) (pending : PendingRegistration) (now : ℕ) :
    Service Unit := do
  failing failures.persistence
  change fun w =>
    let retired := w.pendingRegistrations.map fun other =>
      if other.normalizedEmail = pending.normalizedEmail && other.unsettled then
        other.invalidate now
      else other
    if retired.any fun other => other.id = pending.id || other.tokenHash = pending.tokenHash then
      .error .other
    else .ok { w with pendingRegistrations := retired ++ [pending] }

def recordOutcome (c : Circumstances) (outcome : RequestOutcome) (ctx : RequestContext) :
    Service Unit :=
  recordRequestOutcome "auth.registration_requested" c.failures outcome ctx

/-- A limiter outage skips the mail. -/
def sendExistingAccountGuidance (c : Circumstances) (user : User) (ctx : RequestContext) :
    Service Unit := do
  if c.notice ≠ .allowed then recordOutcome c .existingAccountNoticeThrottled ctx
  else
    match ← (deliver c.failures.delivery (.existingAccountNotice user.email)).attempt with
    | .ok _ => recordOutcome c .existingAccountNoticeSent ctx
    | .error _ => recordOutcome c .existingAccountNoticeFailed ctx

structure RegisterRequest where
  email : String
  password : String
  invitationToken : Option TokenHash
  deriving DecidableEq

/-- A new address: the pending registration is stored before its mail is sent. -/
def stageRegistration (options : Options) (c : Circumstances) (input : RegisterRequest)
    (passwordHash : String) (invitationId : Option Id) (ctx : RequestContext) :
    Service Unit := do
  match ← (issuePendingRegistration c.failures
      { id := c.rowId, email := trim input.email, normalizedEmail := normalizeEmail input.email,
        passwordHash, tokenHash := c.token, invitationId,
        expiresAt := c.now + options.completionTtl, usedAt := none, invalidatedAt := none }
      c.now).attempt with
  | .error _ => recordOutcome c .persistFailed ctx
  | .ok _ =>
      match ← (deliver c.failures.delivery
          (.registrationCompletion (trim input.email) c.token)).attempt with
      | .error _ => recordOutcome c .sendFailed ctx
      | .ok _ => recordOutcome c .sent ctx

/-- What a request does once the invitation is resolved. -/
def proceed (options : Options) (c : Circumstances) (input : RegisterRequest)
    (passwordHash : String) (invitationId : Option Id) (ctx : RequestContext) :
    Service Acceptance := do
  match ← (findUserByNormalizedEmail c.failures (normalizeEmail input.email)).attempt with
  | .error _ =>
      recordOutcome c .lookupFailed ctx
      return genericAcceptance
  | .ok (some user) =>
      if isRecoverable user then
        sendExistingAccountGuidance c user ctx
        return genericAcceptance
      else
        recordOutcome c .ineligibleAccount ctx
        return genericAcceptance
  | .ok none =>
      stageRegistration options c input passwordHash invitationId ctx
      return genericAcceptance

def requestRegistration (options : Options) (c : Circumstances) (input : RegisterRequest)
    (ctx : RequestContext) : Service Acceptance := do
  enforceRequestLimits options c "register_per_ip" "register_per_email" ctx
  let passwordHash := options.hashPassword input.password c.salt
  match ← resolveRequestInvitation options c input.invitationToken
      (normalizeEmail input.email) with
  | .rejected outcome =>
      recordOutcome c outcome ctx
      return genericAcceptance
  | .none => proceed options c input passwordHash none ctx
  | .valid invitationId => proceed options c input passwordHash (some invitationId) ctx

end RegistrationService

/-! ## `createPasswordRecoveryService` -/

namespace PasswordRecoveryService

def recordOutcome (c : Circumstances) (outcome : RequestOutcome) (ctx : RequestContext) :
    Service Unit :=
  recordRequestOutcome "auth.password_reset_requested" c.failures outcome ctx

/-- `issueResetToken`: older generations retire, and the token has to be new. -/
def issueResetToken (failures : Failures) (token : AccountToken) (now : ℕ) : Service Unit := do
  failing failures.persistence
  change fun w =>
    let retired := w.passwordResetTokens.map fun other =>
      if other.userId = token.userId && other.usedAt.isNone && other.invalidatedAt.isNone then
        { other with invalidatedAt := some now }
      else other
    if retired.any fun other => other.id = token.id || other.tokenHash = token.tokenHash then
      .error .other
    else .ok { w with passwordResetTokens := retired ++ [token] }

/-- The token is stored before its mail is sent. -/
def sendReset (options : Options) (c : Circumstances) (user : User) (ctx : RequestContext) :
    Service Unit := do
  match ← (issueResetToken c.failures
      { id := c.rowId, userId := user.id, tokenHash := c.token,
        expiresAt := c.now + options.resetTtl, usedAt := none, invalidatedAt := none,
        mailedTo := user.normalizedEmail, mailedAfter := user.emailChanges } c.now).attempt with
  | .error _ => recordOutcome c .persistFailed ctx
  | .ok _ =>
      match ← (deliver c.failures.delivery (.passwordReset user.email c.token)).attempt with
      | .error _ => recordOutcome c .sendFailed ctx
      | .ok _ => recordOutcome c .sent ctx

def requestReset (options : Options) (c : Circumstances) (email : String)
    (ctx : RequestContext) : Service Acceptance := do
  enforceRequestLimits options c "password_recovery_request_per_ip"
    "password_recovery_request_per_email" ctx
  match ← (findUserByNormalizedEmail c.failures (normalizeEmail email)).attempt with
  | .error _ =>
      recordOutcome c .lookupFailed ctx
      return genericAcceptance
  | .ok none =>
      recordOutcome c .unknownEmail ctx
      return genericAcceptance
  | .ok (some user) =>
      if isRecoverable user then
        sendReset options c user ctx
        return genericAcceptance
      else
        recordOutcome c .inactiveAccount ctx
        return genericAcceptance

end PasswordRecoveryService

inductive PublicRequest
  | requestRegistration (input : RegistrationService.RegisterRequest)
  | requestReset (email : String)
  deriving DecidableEq

def PublicRequest.run (options : Options) (request : PublicRequest) (ctx : RequestContext)
    (c : Circumstances) : Service Acceptance :=
  match request with
  | .requestRegistration input => RegistrationService.requestRegistration options c input ctx
  | .requestReset email => PasswordRecoveryService.requestReset options c email ctx

/-- A request on its way in, and what happens meanwhile. -/
structure Call where
  request : PublicRequest
  ctx : RequestContext
  circumstances : Circumstances

/-- The responses to a sequence of requests. -/
def responses (options : Options) : World → List Call → List Response
  | _, [] => []
  | w, call :: calls =>
      let (result, after) := call.request.run options call.ctx call.circumstances w
      respond result :: responses options after calls

end Orgistry.Model.PublicRequests
