import Orgistry.Repositories.Operations

/-!
# Accepting an invitation

`acceptInvitationWithinTransaction` of `invitation.acceptance.ts`, run by itself.
-/

namespace Orgistry.Repositories.InvitationRepository

open Model Noninterference

variable {K : Type} [LinearOrder K]

def invitationEmailMismatchError : Failure :=
  .app ⟨.invitationEmailMismatch, 403, "This invitation was issued to a different email address.",
    none⟩

def alreadyActiveMemberError : Failure :=
  .app ⟨.conflict, 409, "This email already belongs to an active member of the organization.",
    none⟩

inductive InvitationSelector (K : Type)
  | tokenHash (hash : String)
  | invitationId (id : K)

def InvitationSelector.selects : InvitationSelector K → InvitationRow K → Bool
  | .tokenHash hash, row => row.tokenHash = hash
  | .invitationId id, row => row.id = id

structure AcceptInvitationParams (K : Type) where
  selector : InvitationSelector K
  acceptingUserId : String
  acceptingUserNormalizedEmail : String
  ctx : ActionContext

structure AcceptInvitationResult (K : Type) where
  invitation : InvitationRow K
  membership : MembershipRow K
  organization : OrganizationRow

/-- The membership that the insert returns. -/
def joined (env : Environment K) (params : AcceptInvitationParams K)
    (invitation : InvitationRow K) : MembershipRow K :=
  { id := env.rowId, userId := params.acceptingUserId,
    organizationId := invitation.organizationId, role := invitation.role, status := .active,
    invitedByUserId := some invitation.invitedByUserId, joinedAt := ofMillis env.date,
    removedAt := none, removedByUserId := none, createdAt := env.now, updatedAt := env.now }

/-- The invitation after its use. -/
def used (env : Environment K) (params : AcceptInvitationParams K)
    (invitation : InvitationRow K) : InvitationRow K :=
  { invitation with
    status := .accepted
    acceptedAt := some (ofMillis env.date)
    acceptedByUserId := some params.acceptingUserId
    updatedAt := ofMillis env.date }

/-- The metadata of `invitation.accepted`. -/
def acceptedMetadata (env : Environment K) (params : AcceptInvitationParams K)
    (invitation : InvitationRow K) : List (String × MetadataValue) :=
  [("targetType", .text "invitation"), ("targetInvitationId", .text (env.text invitation.id)),
    ("targetUserId", .text params.acceptingUserId),
    ("targetMembershipId", .text (env.text env.rowId)),
    ("invitedEmailNormalized", .text invitation.invitedEmailNormalized),
    ("roleId", .text (roleId invitation.role))]

/-- The metadata of `membership.created_from_invitation`. -/
def membershipMetadata (env : Environment K) (params : AcceptInvitationParams K)
    (invitation : InvitationRow K) : List (String × MetadataValue) :=
  [("targetType", .text "membership"), ("targetMembershipId", .text (env.text env.rowId)),
    ("targetUserId", .text params.acceptingUserId),
    ("targetInvitationId", .text (env.text invitation.id)),
    ("roleId", .text (roleId invitation.role))]

/-- Steps 0 to 5: the invitation that the account may accept. -/
def findAcceptable (env : Environment K) (params : AcceptInvitationParams K) :
    Operation K (InvitationRow K) := do
  match ← find (C := catalog K) .invitations params.selector.selects with
  | none => throw invitationInvalidError
  | some (preRead : InvitationRow K) =>
      let planKey ← lockOrganizationEntitlements preRead.organizationId
      match ← find (C := catalog K) .invitations params.selector.selects with
      | none => throw invitationInvalidError
      | some (invitation : InvitationRow K) =>
          assertAcceptable invitation env.date
          if invitation.invitedEmailNormalized ≠ params.acceptingUserNormalizedEmail then
            throw invitationEmailMismatchError
          else
            match ← OrganizationRepository.findActiveMembership params.acceptingUserId
                invitation.organizationId with
            | some _ => throw alreadyActiveMemberError
            | none =>
                let activeMembers ← countWhere (C := catalog K) .memberships
                  fun (row : MembershipRow K) =>
                    row.organizationId = invitation.organizationId && row.status = .active
                if activeMembers ≥ maxMembers planKey then
                  throw (quotaExceededError .maxMembers (maxMembers planKey) activeMembers)
                else return invitation

/-- Steps 6 to 8, with the id of the second event. -/
def acceptFound (env : Environment K) (secondEventId : K) (params : AcceptInvitationParams K)
    (invitation : InvitationRow K) : Operation K (AcceptInvitationResult K) := do
  match ← OrganizationRepository.findOrganizationById invitation.organizationId with
  | none => throw invitationInvalidError
  | some organization =>
      insertRow (C := catalog K) .memberships (fun _ => alreadyActiveMemberError) .unexpected
        (joined env params invitation)
      updateById .invitations (fun (row : InvitationRow K) => row.id = invitation.id)
        (used env params)
      let actor := params.ctx.actorMembershipId.toList.map fun id => ("actorMembershipId", .text id)
      recordEvent env invitation.organizationId "invitation.accepted"
        (actor ++ acceptedMetadata env params invitation) params.ctx.actorUserId
        params.ctx.requestId
      recordEvent { env with eventId := secondEventId } invitation.organizationId
        "membership.created_from_invitation"
        (actor ++ membershipMetadata env params invitation) params.ctx.actorUserId
        params.ctx.requestId
      return ⟨used env params invitation, joined env params invitation, organization⟩

def acceptInvitation (env : Environment K) (secondEventId : K)
    (params : AcceptInvitationParams K) : Operation K (AcceptInvitationResult K) := do
  let invitation ← findAcceptable env params
  acceptFound env secondEventId params invitation

end Orgistry.Repositories.InvitationRepository
