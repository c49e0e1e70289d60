import Orgistry.Model.AccountTokens
import Orgistry.Model.Invitations

/-!
# Verification-first registration

`registration.repo.ts` and `registration.service.ts`: a request stages a pending
registration, and completing it creates the account, its personal workspace and
its first session, and accepts the invitation if there is one.
-/

namespace Orgistry.Model

open ReadCommitted

structure IssuePendingRegistrationParams where
  email : String
  normalizedEmail : String
  passwordHash : String
  tokenHash : TokenHash
  invitationId : Option Id
  expiresAt : ℕ
  now : ℕ

inductive CompletionInvitationOutcome
  | none
  | accepted
  | unavailable
  deriving DecidableEq

structure CompleteRegistrationParams where
  tokenHash : TokenHash
  sessionExpiresAt : ℕ
  issued : IssuedToken
  refreshTokenExpiresAt : ℕ
  invitation : Option Id
  now : ℕ

inductive CompleteRegistrationResult
  | completed (user : User) (organization : Organization) (membership : Membership)
      (session : Session) (refreshToken : RefreshToken)
      (invitation : CompletionInvitationOutcome)
  | notFound
  | alreadyUsed
  | expired
  | emailTaken

/-- `INVITATION_UNAVAILABLE_CODES`. -/
def isInvitationUnavailableError (error : ErrorCode) : Bool :=
  [ErrorCode.invitationInvalid, .invitationExpired, .invitationRevoked,
    .invitationAlreadyAccepted, .invitationEmailMismatch, .quotaExceeded,
    .conflict].contains error

namespace PendingRegistration

/-- Neither consumed nor retired. -/
def unsettled (pending : PendingRegistration) : Bool :=
  pending.usedAt.isNone && pending.invalidatedAt.isNone

def invalidate (now : ℕ) (pending : PendingRegistration) : PendingRegistration :=
  { pending with invalidatedAt := some now }

end PendingRegistration

/-! ## `createDbRegistrationRepository` -/

namespace RegistrationRepository

def issuePendingRegistration (cfg : Config) (params : IssuePendingRegistrationParams) :
    Program Unit := transaction do
  advisoryLock (S := orgistry) .advisoryLocks
    (cfg.hashtextextended ("pending_registration:" ++ params.normalizedEmail))
  let _ ← updateRows .pendingRegistrations
    (fun (pending : PendingRegistration) =>
      pending.normalizedEmail = params.normalizedEmail && pending.unsettled)
    (assign (PendingRegistration.invalidate params.now))
  let _ ← insertRow .pendingRegistrations fun id =>
    { id, email := params.email, normalizedEmail := params.normalizedEmail,
      passwordHash := params.passwordHash, tokenHash := params.tokenHash,
      invitationId := params.invitationId, expiresAt := params.expiresAt, usedAt := none,
      invalidatedAt := none }

def findPendingRegistrationByTokenHash (tokenHash : TokenHash) :
    Program (Option PendingRegistration) :=
  selectOne .pendingRegistrations fun (pending : PendingRegistration) =>
    pending.tokenHash = tokenHash

/-- The account that a completion creates, verified for the address that the
pending registration was mailed to. -/
def registeredUser (pending : PendingRegistration) (now : ℕ) (id : Id) : User :=
  { id, email := pending.email, normalizedEmail := pending.normalizedEmail,
    passwordHash := pending.passwordHash, status := .active, emailVerifiedAt := some now,
    updatedAt := now, deletedAt := none, passwordLog := [], emailChanges := 0,
    emailWrites := 0, verifiedFor := some pending.normalizedEmail }

/-- The acceptance runs inside a savepoint: an invitation that can no longer be
honored rolls back only the acceptance. -/
def settleInvitation (cfg : Config) (pendingInvitationId context : Option Id)
    (newUserId : Id) (normalizedEmail : String) : Program CompletionInvitationOutcome := do
  match pendingInvitationId with
  | none => return .none
  | some invitationId =>
      if context ≠ some invitationId then return .unavailable
      else
        setSavepoint
        match ← acceptInvitationWithinTransaction cfg
            { selector := .invitationId invitationId, acceptingUserId := newUserId,
              acceptingUserNormalizedEmail := normalizedEmail } with
        | .ok _ => return .accepted
        | .error error =>
            if isInvitationUnavailableError error then
              rollbackToSavepoint
              return .unavailable
            else abortWith error

def completeRegistration (cfg : Config) (request : ℕ) (params : CompleteRegistrationParams) :
    Program CompleteRegistrationResult := transaction do
  match ← selectOneForUpdate .pendingRegistrations fun (pending : PendingRegistration) =>
      pending.tokenHash = params.tokenHash with
  | none => return .notFound
  | some (pending : PendingRegistration) =>
      if pending.usedAt.isSome || pending.invalidatedAt.isSome then return .alreadyUsed
      else if pending.expiresAt ≤ params.now then return .expired
      else match ← AuthRepository.findUserByNormalizedEmail pending.normalizedEmail with
      | some _ => return .emailTaken
      | none =>
          match ← tryInsertRow .users (registeredUser pending params.now) with
          | none =>
              rollBack
              return .emailTaken
          | some (user : User) =>
              let (organization, membership) ←
                OrganizationRepository.insertOrganizationWithOwnerMembership .personal
                  user.id params.now
              let session ← insertRow .sessions fun id =>
                { id, userId := user.id, expiresAt := params.sessionExpiresAt,
                  revokedAt := none, revokedReason := none, updatedAt := params.now,
                  verifiedAfter := 0 }
              let refreshToken ← insertRow .refreshTokens fun id =>
                { id, sessionId := Session.id session, tokenHash := params.issued.tokenHash,
                  familyId := params.issued.familyId, parentTokenId := none,
                  replacementTokenId := none, usedAt := none,
                  expiresAt := params.refreshTokenExpiresAt, revokedAt := none,
                  revokedReason := none, mintedBy := request }
              let invitation ← settleInvitation cfg pending.invitationId params.invitation
                user.id pending.normalizedEmail
              let _ ← updateRows .pendingRegistrations
                (fun (other : PendingRegistration) => other.id = pending.id)
                (assign fun (other : PendingRegistration) =>
                  { other with usedAt := some params.now })
              let _ ← updateRows .pendingRegistrations
                (fun (other : PendingRegistration) =>
                  other.normalizedEmail = pending.normalizedEmail && other.id ≠ pending.id &&
                    other.unsettled)
                (assign (PendingRegistration.invalidate params.now))
              return .completed user organization membership session refreshToken invitation

end RegistrationRepository

/-! ## `createRegistrationService` -/

namespace RegistrationService

open RegistrationRepository

structure RegistrationRequestInput where
  email : String
  password : String
  invitationToken : Option TokenHash
  salt : ℕ
  tokenHash : TokenHash
  deriving DecidableEq

/-- What a request knows about the invitation that it refers to. -/
inductive RequestInvitationResolution
  | none
  | valid (invitationId : Id)
  | rejected

def RequestInvitationResolution.invitationId : RequestInvitationResolution → Option Id
  | .valid invitationId => some invitationId
  | _ => Option.none

def resolveRequestInvitation (invitationToken : Option TokenHash) (normalizedEmail : String) :
    Program RequestInvitationResolution := do
  match invitationToken with
  | none => return .none
  | some tokenHash =>
      match ← InvitationService.prepareForRegistration tokenHash normalizedEmail with
      | .error _ => return .rejected
      | .ok invitationId => return .valid invitationId

/-- The answer is the same for every outcome.  A rejected invitation or an
existing account stages nothing. -/
def requestRegistration (cfg : Config) (input : RegistrationRequestInput) :
    Program Unit := do
  let normalizedEmail := normalizeEmail input.email
  match ← resolveRequestInvitation input.invitationToken normalizedEmail with
  | .rejected => return
  | invitation =>
      match ← AuthRepository.findUserByNormalizedEmail normalizedEmail with
      | some _ => return
      | none =>
          let issuedAt ← clock
          let now ← clock
          issuePendingRegistration cfg
            { email := trim input.email, normalizedEmail,
              passwordHash := cfg.hashPassword input.password input.salt,
              tokenHash := input.tokenHash, invitationId := invitation.invitationId,
              expiresAt := issuedAt + cfg.registrationCompletionTtl, now }

structure RegistrationCompleteInput where
  tokenHash : TokenHash
  issued : IssuedToken
  deriving DecidableEq

/-- The pre-read only checks that the stored invitation still exists. -/
def completeRegistration (cfg : Config) (request : ℕ) (input : RegistrationCompleteInput) :
    Program CompleteRegistrationResult := do
  let pending ← findPendingRegistrationByTokenHash input.tokenHash
  let invitation ← match pending.bind PendingRegistration.invitationId with
    | none => pure none
    | some invitationId => InvitationRepository.findInvitationById invitationId
  let now ← clock
  RegistrationRepository.completeRegistration cfg request
    { tokenHash := input.tokenHash, sessionExpiresAt := now + cfg.sessionTtl,
      issued := input.issued, refreshTokenExpiresAt := now + cfg.refreshTokenTtl,
      invitation := invitation.map Invitation.id, now }

end RegistrationService

end Orgistry.Model
