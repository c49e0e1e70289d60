import Orgistry.Repositories.Acceptance

/-!
# Invitations in memory

`in-memory-invitation-repo.ts` and `invitation-store-acceptance.ts`, over the lists of
`in-memory-org-store.ts` that they use.  A method that throws keeps what it has changed.
A `Date` is a timestamp of whole milliseconds.
-/

namespace Orgistry.Repositories

open Keyset Model

/-- An event as the in-memory repositories record it. -/
structure RecordedSecurityEvent where
  userId : Option String
  organizationId : Option String
  actorType : SecurityActorType
  eventType : String
  metadata : List (String × String)
  requestId : Option String
  deriving DecidableEq

structure InMemoryOrgStore (K : Type) where
  organizations : List OrganizationRow
  organizationPlans : List OrganizationPlanRow
  memberships : List (MembershipRow K)
  invitations : List (InvitationRow K)
  securityEvents : List RecordedSecurityEvent

/-- A method that answers or throws, and the store that it leaves. -/
abbrev InMemoryMethod (K α : Type) := InMemoryOrgStore K → Except Failure α × InMemoryOrgStore K

variable {K : Type} [LinearOrder K]

namespace InvitationRepository.InMemory

/-- `resolveStoreEntitlements`, with none for `PLAN_STATE_MISSING`. -/
def resolveStoreEntitlements (store : InMemoryOrgStore K) (organizationId : String) :
    Option PlanKey :=
  (store.organizationPlans.find? fun row => row.organizationId = organizationId).map
    OrganizationPlanRow.planKey

/-- The object that `find` gives is changed in place. -/
def changeFound (found : InvitationRow K → Bool) (change : InvitationRow K → InvitationRow K) :
    List (InvitationRow K) → List (InvitationRow K)
  | [] => []
  | row :: rows =>
      if found row then change row :: rows else row :: changeFound found change rows

def isExpired (invitation : InvitationRow K) (now : Millis) : Bool :=
  getTime invitation.expiresAt ≤ now

/-- What `assertAcceptable` throws. -/
def lifecycleError (invitation : InvitationRow K) (now : Millis) : Option Failure :=
  if invitation.status = .accepted then some invitationAlreadyAcceptedError
  else if invitation.status = .revoked then some invitationRevokedError
  else if isExpired invitation now then some invitationExpiredError
  else none

def countActiveMembers (store : InMemoryOrgStore K) (organizationId : String) : ℕ :=
  (store.memberships.filter fun row =>
    row.organizationId = organizationId && row.status = .active).length

/-- A row that `createInvitation` looks at. -/
def isPending (organizationId invitedEmailNormalized : String) (row : InvitationRow K) : Bool :=
  row.organizationId = organizationId && row.invitedEmailNormalized = invitedEmailNormalized &&
    row.status = .pending

def isLive (organizationId : String) (now : Millis) (row : InvitationRow K) : Bool :=
  row.organizationId = organizationId && row.status = .pending && !isExpired row now

def recordEvent (userId organizationId : String) (eventType : String)
    (metadata : List (String × String)) (requestId : Option String)
    (store : InMemoryOrgStore K) : InMemoryOrgStore K :=
  { store with securityEvents := store.securityEvents ++
      [⟨some userId, some organizationId, .user, eventType, metadata, requestId⟩] }

variable (env : Environment K)

def recordInvitationEvent (organizationId eventType : String) (invitation : InvitationRow K)
    (ctx : ActionContext) : InMemoryOrgStore K → InMemoryOrgStore K :=
  recordEvent ctx.actorUserId organizationId eventType
    (env.storedMetadata
      ((ctx.actorMembershipId.toList.map fun id => ("actorMembershipId", .text id)) ++
        [("targetType", .text "invitation"),
          ("targetInvitationId", .text (env.text invitation.id)),
          ("invitedEmailNormalized", .text invitation.invitedEmailNormalized),
          ("roleId", .text (roleId invitation.role))])) ctx.requestId

/-- The lazy expiry, before any check. -/
def expireStale (organizationId : String) (params : CreateInvitationParams)
    (store : InMemoryOrgStore K) : InMemoryOrgStore K :=
  { store with invitations := store.invitations.map fun row =>
      if isPending organizationId params.invitedEmailNormalized row && isExpired row env.date then
        { row with status := .expired, updatedAt := ofMillis env.date }
      else row }

def createInvitation (organizationId : String) (params : CreateInvitationParams) :
    InMemoryMethod K (InvitationRow K) := fun store =>
  let store := expireStale env organizationId params store
  if store.invitations.any (isPending organizationId params.invitedEmailNormalized) then
    (.error duplicatePendingInvitationError, store)
  else
    match resolveStoreEntitlements store organizationId with
    | none => (.error planStateMissingError, store)
    | some planKey =>
        let reserved := countActiveMembers store organizationId +
          (store.invitations.filter (isLive organizationId env.date)).length
        if evaluateCountQuota reserved (maxMembers planKey) = .exceeded then
          (.error (quotaExceededError .maxMembers (maxMembers planKey) reserved), store)
        else
          let invitation : InvitationRow K :=
            { id := env.rowId, organizationId, invitedEmail := params.invitedEmail,
              invitedEmailNormalized := params.invitedEmailNormalized, role := params.role,
              tokenHash := params.tokenHash, status := .pending,
              invitedByUserId := params.ctx.actorUserId, acceptedByUserId := none,
              revokedByUserId := none, expiresAt := ofMillis params.expiresAt,
              acceptedAt := none, revokedAt := none, createdAt := ofMillis env.date,
              updatedAt := ofMillis env.date }
          (.ok invitation, recordInvitationEvent env organizationId "invitation.created" invitation
            params.ctx { store with invitations := store.invitations ++ [invitation] })

/-- The filter of `afterCursor`. -/
def afterCursor (cursor : Option (ListCursor K)) (row : InvitationRow K) :
    Bool :=
  cursor.all fun cursor =>
    getTime row.createdAt < cursor.createdAtMs ||
      (getTime row.createdAt = cursor.createdAtMs && row.id < cursor.id)

def listInvitations (organizationId : String) (params : ListParams K) :
    InMemoryMethod K (List (InvitationRow K)) := fun store =>
  let ordered := newestFirst (fun row => getTime row.createdAt) InvitationRow.id
    (store.invitations.filter fun row => row.organizationId = organizationId)
  (.ok ((ordered.filter (afterCursor params.cursor)).take (params.limit.value + 1)), store)

def revokeInvitation (organizationId : String) (params : RevokeInvitationParams K) :
    InMemoryMethod K Unit := fun store =>
  let found := fun row : InvitationRow K =>
    row.id = params.invitationId && row.organizationId = organizationId
  match store.invitations.find? found with
  | none => (.error invitationInvalidError, store)
  | some invitation =>
      match lifecycleError invitation env.date with
      | some error => (.error error, store)
      | none =>
          (.ok (), recordInvitationEvent env organizationId "invitation.revoked" invitation
            params.ctx
            { store with invitations := changeFound found (fun row =>
                { row with
                  status := .revoked
                  revokedAt := some (ofMillis env.date)
                  revokedByUserId := some params.ctx.actorUserId
                  updatedAt := ofMillis env.date }) store.invitations })

def findPendingInvitation (organizationId invitedEmailNormalized : String) :
    InMemoryMethod K (Option (InvitationRow K)) := fun store =>
  (.ok (store.invitations.find? fun row =>
    isPending organizationId invitedEmailNormalized row && !isExpired row env.date), store)

def countPendingInvitations (organizationId : String) : InMemoryMethod K ℕ := fun store =>
  (.ok (store.invitations.filter (isLive organizationId env.date)).length, store)

def validateInvitationForAcceptanceInStore (params : AcceptInvitationParams K)
    (store : InMemoryOrgStore K) : Except Failure (InvitationRow K) :=
  match store.invitations.find? params.selector.selects with
  | none => .error invitationInvalidError
  | some invitation =>
      match lifecycleError invitation env.date with
      | some error => .error error
      | none =>
          if invitation.invitedEmailNormalized ≠ params.acceptingUserNormalizedEmail then
            .error invitationEmailMismatchError
          else if store.memberships.any fun row => row.userId = params.acceptingUserId &&
              row.organizationId = invitation.organizationId && row.status = .active then
            .error alreadyActiveMemberError
          else
            match resolveStoreEntitlements store invitation.organizationId with
            | none => .error planStateMissingError
            | some planKey =>
                let activeMembers := countActiveMembers store invitation.organizationId
                if activeMembers ≥ maxMembers planKey then
                  .error (quotaExceededError .maxMembers (maxMembers planKey) activeMembers)
                else .ok invitation

/-- The new membership, the organization as `find` gives it, and the store. -/
def applyInvitationAcceptanceInStore (params : AcceptInvitationParams K)
    (invitation : InvitationRow K) (store : InMemoryOrgStore K) :
    MembershipRow K × Option OrganizationRow × InMemoryOrgStore K :=
  let membership : MembershipRow K :=
    { id := env.rowId, userId := params.acceptingUserId,
      organizationId := invitation.organizationId, role := invitation.role, status := .active,
      invitedByUserId := some invitation.invitedByUserId, joinedAt := ofMillis env.date,
      removedAt := none, removedByUserId := none, createdAt := ofMillis env.date,
      updatedAt := ofMillis env.date }
  let record := fun eventType metadata => recordEvent params.acceptingUserId
    invitation.organizationId eventType (env.storedMetadata metadata) params.ctx.requestId
  (membership,
    store.organizations.find? fun row => row.id = invitation.organizationId,
    record "membership.created_from_invitation" (membershipMetadata env params invitation)
      (record "invitation.accepted" (acceptedMetadata env params invitation)
        { store with
          memberships := store.memberships ++ [membership]
          invitations :=
            changeFound params.selector.selects (used env params) store.invitations }))

def acceptInvitation (params : AcceptInvitationParams K) :
    InMemoryMethod K (InvitationRow K × MembershipRow K × Option OrganizationRow) := fun store =>
  match validateInvitationForAcceptanceInStore env params store with
  | .error error => (.error error, store)
  | .ok invitation =>
      let (membership, organization, store) :=
        applyInvitationAcceptanceInStore env params invitation store
      (.ok (used env params invitation, membership, organization), store)

end InvitationRepository.InMemory

end Orgistry.Repositories
