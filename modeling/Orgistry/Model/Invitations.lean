import Orgistry.Model.Organization

/-!
# Invitations and the member quota

`invitation.repo.ts`, `invitation.acceptance.ts`, `invitation.lifecycle.ts` and
`invitation.service.ts`, with the quota lock and the plan snapshot that they
take inside their transactions.
-/

namespace Orgistry.Model

open ReadCommitted

/-- The `max_members` column of `PLAN_CATALOG`. -/
def maxMembers : PlanKey → ℕ
  | .free => 3
  | .pro => 10
  | .business => 50

inductive QuotaStatus
  | allowed
  | exceeded
  deriving DecidableEq

def evaluateCountQuota (current limit : ℕ) : QuotaStatus :=
  if current ≥ limit then .exceeded else .allowed

/-- The key text of `acquireOrganizationQuotaLock` for members. -/
def memberQuotaLockText (organizationId : Id) : String :=
  "quota:members:" ++ toString organizationId

/-- `lockOrganizationEntitlements`, with `none` for missing plan state. -/
def lockOrganizationEntitlements (organizationId : Id) : Program (Option PlanKey) := do
  let row ← selectOneForShare .organizationPlans fun (plan : OrganizationPlan) =>
    plan.organizationId = organizationId
  return row.map OrganizationPlan.planKey

def countActiveMembers (organizationId : Id) : Program ℕ := do
  let rows ← selectRows .memberships fun (membership : Membership) =>
    membership.organizationId = organizationId && membership.status = .active
  return rows.length

def isExpired (invitation : Invitation) (now : ℕ) : Bool := invitation.expiresAt ≤ now

/-- The error that `assertAcceptable` throws. -/
def assertAcceptable (invitation : Invitation) (now : ℕ) : Option ErrorCode :=
  if invitation.status = .accepted then some .invitationAlreadyAccepted
  else if invitation.status = .revoked then some .invitationRevoked
  else if isExpired invitation now then some .invitationExpired
  else none

/-- An invitation is found by the presented token or by the id that a pending
registration stored. -/
inductive InvitationSelector
  | tokenHash (hash : TokenHash)
  | invitationId (id : Id)
  deriving DecidableEq

def InvitationSelector.selects : InvitationSelector → Invitation → Bool
  | .tokenHash hash, invitation => invitation.tokenHash = hash
  | .invitationId id, invitation => invitation.id = id

structure AcceptInvitationParams where
  selector : InvitationSelector
  acceptingUserId : Id
  acceptingUserNormalizedEmail : String

structure AcceptInvitationResult where
  invitation : Invitation
  membership : Membership

/-- Steps 2 to 5 of an acceptance: the first check that fails. -/
def acceptanceError (params : AcceptInvitationParams) (invitation : Invitation) (now : ℕ)
    (existingMembership : Option Membership) (activeMembers limit : ℕ) : Option ErrorCode :=
  match assertAcceptable invitation now with
  | some error => some error
  | none =>
      if invitation.invitedEmailNormalized ≠ params.acceptingUserNormalizedEmail then
        some .invitationEmailMismatch
      else if existingMembership.isSome then some .conflict
      else if activeMembers ≥ limit then some .quotaExceeded
      else none

/-- The membership that an acceptance inserts. -/
def acceptedMembership (params : AcceptInvitationParams) (invitation : Invitation) (now : ℕ)
    (id : Id) : Membership :=
  { id, userId := params.acceptingUserId, organizationId := invitation.organizationId,
    role := invitation.role, status := .active,
    invitedByUserId := some invitation.invitedByUserId, joinedAt := now, removedAt := none,
    updatedAt := now, grantedBy := .invitation invitation.id }

/-- The invitation that an acceptance leaves behind. -/
def acceptedInvitation (userId : Id) (now : ℕ) (invitation : Invitation) : Invitation :=
  { invitation with
    status := .accepted
    acceptedAt := some now
    acceptedByUserId := some userId
    updatedAt := now }

def acceptInvitationWithinTransaction (cfg : Config) (params : AcceptInvitationParams) :
    Program (Except ErrorCode AcceptInvitationResult) := do
  let now ← clock
  match ← selectOne .invitations params.selector.selects with
  | none => return .error .invitationInvalid
  | some (preRead : Invitation) =>
      advisoryLock (S := orgistry) .advisoryLocks
        (cfg.hashtextextended (memberQuotaLockText preRead.organizationId))
      match ← lockOrganizationEntitlements preRead.organizationId with
      | none => return .error .planStateMissing
      | some planKey =>
          match ← selectOneForUpdate .invitations params.selector.selects with
          | none => return .error .invitationInvalid
          | some (invitation : Invitation) =>
              let existing ← OrganizationRepository.findActiveMembership
                params.acceptingUserId invitation.organizationId
              let activeMembers ← countActiveMembers invitation.organizationId
              match acceptanceError params invitation now existing activeMembers
                  (maxMembers planKey) with
              | some error => return .error error
              | none =>
                  match ← OrganizationRepository.findOrganizationById
                      invitation.organizationId with
                  | none => return .error .invitationInvalid
                  | some _ =>
                      match ← tryInsertRow .memberships
                          (acceptedMembership params invitation now) with
                      | none => return .error .conflict
                      | some (membership : Membership) =>
                          let accepted ← updateRows .invitations
                            (fun (other : Invitation) => other.id = invitation.id)
                            (assign (acceptedInvitation params.acceptingUserId now))
                          match accepted.head? with
                          | none => abortWith .internalError
                          | some (row : Invitation) => return .ok ⟨row, membership⟩

/-! ## `createDbInvitationRepository` -/

structure CreateInvitationParams where
  organizationId : Id
  invitedEmailNormalized : String
  role : RoleKey
  tokenHash : TokenHash
  expiresAt : ℕ
  actorUserId : Id

namespace InvitationRepository

def createInvitation (cfg : Config) (params : CreateInvitationParams) : Program Invitation :=
  transaction do
    let now ← clock
    advisoryLock (S := orgistry) .advisoryLocks
      (cfg.hashtextextended (memberQuotaLockText params.organizationId))
    match ← lockOrganizationEntitlements params.organizationId with
    | none => abortWith .planStateMissing
    | some planKey =>
        let members ← countActiveMembers params.organizationId
        let pending ← selectRows .invitations fun (invitation : Invitation) =>
          invitation.organizationId = params.organizationId &&
            invitation.status = .pending && invitation.expiresAt > now
        if evaluateCountQuota (members + pending.length) (maxMembers planKey) = .exceeded then
          abortWith .quotaExceeded
        else
          let _ ← updateRows .invitations
            (fun (invitation : Invitation) =>
              invitation.organizationId = params.organizationId &&
                invitation.invitedEmailNormalized = params.invitedEmailNormalized &&
                invitation.status = .pending && invitation.expiresAt < now)
            (assign fun (invitation : Invitation) =>
              { invitation with status := .expired, updatedAt := now })
          match ← tryInsertRow .invitations fun id =>
              { id, organizationId := params.organizationId,
                invitedEmailNormalized := params.invitedEmailNormalized,
                role := params.role, tokenHash := params.tokenHash, status := .pending,
                invitedByUserId := params.actorUserId, acceptedByUserId := none,
                expiresAt := params.expiresAt, acceptedAt := none, revokedAt := none,
                updatedAt := now } with
          | none => abortWith .conflict
          | some (invitation : Invitation) => return invitation

def findContextByTokenHash (tokenHash : TokenHash) : Program (Option Invitation) :=
  selectOne .invitations fun (invitation : Invitation) => invitation.tokenHash = tokenHash

def findInvitationById (invitationId : Id) : Program (Option Invitation) :=
  selectOne .invitations fun (invitation : Invitation) => invitation.id = invitationId

def acceptInvitation (cfg : Config) (params : AcceptInvitationParams) :
    Program AcceptInvitationResult := transaction do
  match ← acceptInvitationWithinTransaction cfg params with
  | .error error => abortWith error
  | .ok result => return result

def revokeInvitation (organizationId invitationId : Id) : Program Unit := transaction do
  let now ← clock
  match ← selectOneForUpdate .invitations fun (invitation : Invitation) =>
      invitation.organizationId = organizationId && invitation.id = invitationId with
  | none => abortWith .invitationInvalid
  | some (invitation : Invitation) =>
      match assertAcceptable invitation now with
      | some error => abortWith error
      | none =>
          let _ ← updateRows .invitations
            (fun (other : Invitation) => other.id = invitation.id)
            (assign fun (other : Invitation) =>
              { other with status := .revoked, revokedAt := some now, updatedAt := now })

def findPendingInvitation (organizationId : Id) (invitedEmailNormalized : String) :
    Program (Option Invitation) := do
  let now ← clock
  selectOne .invitations fun (invitation : Invitation) =>
    invitation.organizationId = organizationId &&
      invitation.invitedEmailNormalized = invitedEmailNormalized &&
      invitation.status = .pending && invitation.expiresAt > now

/-- The join of the active memberships with the users of that address. -/
def hasActiveMemberWithEmail (organizationId : Id) (invitedEmailNormalized : String) :
    Program Bool := do
  let memberships ← selectRows .memberships fun (membership : Membership) =>
    membership.organizationId = organizationId && membership.status = .active
  let users ← selectRows .users fun (user : User) =>
    user.normalizedEmail = invitedEmailNormalized
  return memberships.any fun (membership : Membership) =>
    users.any fun (user : User) => user.id = membership.userId

def countPendingInvitations (organizationId : Id) : Program ℕ := do
  let now ← clock
  let rows ← selectRows .invitations fun (invitation : Invitation) =>
    invitation.organizationId = organizationId && invitation.status = .pending &&
      invitation.expiresAt > now
  return rows.length

end InvitationRepository

/-! ## `createInvitationService` -/

namespace InvitationService

open InvitationRepository

/-- `getPlanState` of the entitlement service. -/
def findPlanKey (organizationId : Id) : Program (Option PlanKey) := do
  let row ← selectOne .organizationPlans fun (plan : OrganizationPlan) =>
    plan.organizationId = organizationId
  return row.map OrganizationPlan.planKey

/-- `requireMemberReservationQuota`, and `requireMemberAdditionQuota` without
pending invitations. -/
def memberQuotaError (organizationId : Id) (pendingInvitations : ℕ) :
    Program (Option ErrorCode) := do
  match ← findPlanKey organizationId with
  | none => return some .planStateMissing
  | some planKey =>
      let members ← countActiveMembers organizationId
      if evaluateCountQuota (members + pendingInvitations) (maxMembers planKey) = .exceeded
      then return some .quotaExceeded
      else return none

structure CreateInvitationInput where
  organizationId : Id
  email : String
  role : RoleKey
  tokenHash : TokenHash
  deriving DecidableEq

/-- The mail goes out before the invitation is stored. -/
def createInvitation (cfg : Config) (accessToken : Option AccessClaims)
    (input : CreateInvitationInput) : Program Invitation := do
  let actor ← OrganizationService.authorize accessToken input.organizationId
    .invitationsCreate
  let invitedEmailNormalized := normalizeEmail input.email
  if ← hasActiveMemberWithEmail actor.organizationId invitedEmailNormalized then
    abortWith .conflict
  else match ← findPendingInvitation actor.organizationId invitedEmailNormalized with
  | some _ => abortWith .conflict
  | none =>
      let pending ← countPendingInvitations actor.organizationId
      match ← memberQuotaError actor.organizationId pending with
      | some error => abortWith error
      | none =>
          let now ← clock
          InvitationRepository.createInvitation cfg
            { organizationId := actor.organizationId, invitedEmailNormalized,
              role := input.role, tokenHash := input.tokenHash,
              expiresAt := now + cfg.invitationTtl, actorUserId := actor.userId }

def revokeInvitation (accessToken : Option AccessClaims) (organizationId invitationId : Id) :
    Program Unit := do
  let actor ← OrganizationService.authorize accessToken organizationId .invitationsRevoke
  InvitationRepository.revokeInvitation actor.organizationId invitationId

/-- The route authenticates and passes the user's id and address on. -/
def acceptInvitation (cfg : Config) (accessToken : Option AccessClaims)
    (tokenHash : TokenHash) : Program AcceptInvitationResult := do
  let user ← AuthService.authenticate accessToken
  let normalized := normalizeEmail user.email
  match ← findContextByTokenHash tokenHash with
  | none => abortWith .invitationInvalid
  | some invitation =>
      let now ← clock
      match assertAcceptable invitation now with
      | some error => abortWith error
      | none =>
          if invitation.invitedEmailNormalized ≠ normalized then
            abortWith .invitationEmailMismatch
          else
            InvitationRepository.acceptInvitation cfg
              { selector := .tokenHash tokenHash, acceptingUserId := user.id,
                acceptingUserNormalizedEmail := normalized }

/-- The invitation that a registration request refers to, if it can be used. -/
def prepareForRegistration (tokenHash : TokenHash) (normalizedEmail : String) :
    Program (Except ErrorCode Id) := do
  match ← findContextByTokenHash tokenHash with
  | none => return .error .invitationInvalid
  | some invitation =>
      let now ← clock
      match assertAcceptable invitation now with
      | some error => return .error error
      | none =>
          if invitation.invitedEmailNormalized ≠ normalizedEmail then
            return .error .invitationEmailMismatch
          else match ← memberQuotaError invitation.organizationId 0 with
          | some error => return .error error
          | none => return .ok invitation.id

end InvitationService

end Orgistry.Model
