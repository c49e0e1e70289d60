import Orgistry.Model.Auth

/-!
# Organizations and memberships

`organization.repo.ts`, `owner-transition.ts`, `access-control.ts` and
`member.service.ts`, with the provisioning seam that creates an organization
together with its owner membership and plan state.  Names and slugs are left
out.
-/

namespace Orgistry.Model

open ReadCommitted

/-- The permission keys that the modelled requests require. -/
inductive PermissionKey
  | membersChangeRole
  | membersRemove
  | invitationsCreate
  | invitationsRevoke
  | projectsCreate
  | projectsDelete
  | apiKeysCreate
  | apiKeysRevoke
  | planChangeDemo
  deriving DecidableEq

/-- `ROLE_PERMISSIONS`, restricted to those keys. -/
def rolePermissions : RoleKey → List PermissionKey
  | .owner =>
      [.membersChangeRole, .membersRemove, .invitationsCreate, .invitationsRevoke,
        .projectsCreate, .projectsDelete, .apiKeysCreate, .apiKeysRevoke, .planChangeDemo]
  | .admin =>
      [.membersChangeRole, .membersRemove, .invitationsCreate, .invitationsRevoke,
        .projectsCreate, .projectsDelete, .apiKeysCreate, .apiKeysRevoke]
  | .member => [.projectsCreate]
  | .viewer => []

structure OrganizationActor where
  userId : Id
  organizationId : Id
  membershipId : Id
  role : RoleKey

/-! ## `owner-transition.ts` -/

def roleChangeTouchesOwner (targetRole newRole : RoleKey) : Bool :=
  targetRole = .owner || newRole = .owner

/-- The predicate of `lockActiveOwners`. -/
def isActiveOwnerOf (organizationId : Id) (membership : Membership) : Bool :=
  membership.organizationId = organizationId && membership.status = .active &&
    membership.role = .owner

structure ChangeMemberRoleParams where
  organizationId : Id
  membershipId : Id
  newRole : RoleKey
  actorMembershipId : Id

structure RemoveMemberParams where
  organizationId : Id
  membershipId : Id
  actorMembershipId : Id

namespace OrganizationRepository

/-- `insertOrganizationWithOwnerMembership`: the organization, its active owner
membership and its default plan. -/
def insertOrganizationWithOwnerMembership (type : OrganizationType) (ownerUserId : Id)
    (now : ℕ) : Program (Organization × Membership) := do
  let organization ← insertRow .organizations fun id =>
    { id, type, status := .active, createdByUserId := ownerUserId }
  let membership ← insertRow .memberships fun id =>
    { id, userId := ownerUserId, organizationId := Organization.id organization,
      role := .owner, status := .active, invitedByUserId := none, joinedAt := now,
      removedAt := none, updatedAt := now, grantedBy := .founder }
  let _ ← insertRow .organizationPlans fun id =>
    { id, organizationId := Organization.id organization, planKey := .free }
  return (organization, membership)

def createTeamOrganization (userId : Id) : Program (Organization × Membership) :=
  transaction do
    let now ← clock
    insertOrganizationWithOwnerMembership .team userId now

def findOrganizationById (organizationId : Id) : Program (Option Organization) :=
  selectOne .organizations fun (organization : Organization) =>
    organization.id = organizationId

def findActiveMembership (userId organizationId : Id) : Program (Option Membership) :=
  selectOne .memberships fun (membership : Membership) =>
    membership.userId = userId && membership.organizationId = organizationId &&
      membership.status = .active

/-- Lock the organization's active-owner memberships, returning their ids. -/
def lockActiveOwners (organizationId : Id) : Program (List Id) := do
  let rows ← selectRowsForUpdate .memberships (isActiveOwnerOf organizationId)
  return rows.map Membership.id

/-- `SELECT … WHERE id = membershipId FOR UPDATE`. -/
def lockTarget (membershipId : Id) : Program (Option Membership) :=
  selectOneForUpdate .memberships fun (membership : Membership) =>
    membership.id = membershipId

def changeMemberRole (params : ChangeMemberRoleParams) : Program Unit := transaction do
  let activeOwnerIds ← lockActiveOwners params.organizationId
  match ← lockTarget params.membershipId with
  | none => abortWith .memberNotFound
  | some target =>
      if target.organizationId ≠ params.organizationId || target.status ≠ .active then
        abortWith .memberNotFound
      else if roleChangeTouchesOwner target.role params.newRole &&
          !activeOwnerIds.contains params.actorMembershipId then
        abortWith .permissionDenied
      else if target.role = .owner && params.newRole ≠ .owner &&
          activeOwnerIds.length ≤ 1 then
        abortWith .lastOwnerRequired
      else
        let now ← clock
        let _ ← updateRows .memberships
          (fun (membership : Membership) => membership.id = params.membershipId)
          (assign fun (membership : Membership) =>
            { membership with
              role := params.newRole
              updatedAt := now
              grantedBy := .roleChange params.actorMembershipId })

def removeMember (params : RemoveMemberParams) : Program Unit := transaction do
  let activeOwnerIds ← lockActiveOwners params.organizationId
  match ← lockTarget params.membershipId with
  | none => abortWith .memberNotFound
  | some target =>
      if target.organizationId ≠ params.organizationId then abortWith .memberNotFound
      else if target.status = .removed then return
      else if target.role = .owner && !activeOwnerIds.contains params.actorMembershipId then
        abortWith .permissionDenied
      else if target.role = .owner && activeOwnerIds.length ≤ 1 then
        abortWith .lastOwnerRequired
      else
        let now ← clock
        let _ ← updateRows .memberships
          (fun (membership : Membership) => membership.id = params.membershipId)
          (assign fun (membership : Membership) =>
            { membership with
              status := .removed
              removedAt := some now
              updatedAt := now })

end OrganizationRepository

namespace OrganizationService

open OrganizationRepository

/-- `requireMembership` over `resolveOrganizationContext`. -/
def requireMembership (userId organizationId : Id) : Program OrganizationActor := do
  match ← findOrganizationById organizationId with
  | none => abortWith .organizationNotFound
  | some organization =>
      if organization.status = .active then
        match ← findActiveMembership userId organizationId with
        | none => abortWith .organizationNotFound
        | some membership =>
            return ⟨userId, organization.id, membership.id, membership.role⟩
      else abortWith .organizationNotFound

/-- Authenticate, resolve the actor and require a permission. -/
def authorize (accessToken : Option AccessClaims) (organizationId : Id)
    (permission : PermissionKey) : Program OrganizationActor := do
  let user ← AuthService.authenticate accessToken
  let actor ← requireMembership user.id organizationId
  if (rolePermissions actor.role).contains permission then return actor
  else abortWith .permissionDenied

def createTeamOrganization (accessToken : Option AccessClaims) :
    Program (Organization × Membership) := do
  let user ← AuthService.authenticate accessToken
  OrganizationRepository.createTeamOrganization user.id

def changeMemberRole (accessToken : Option AccessClaims) (organizationId membershipId : Id)
    (newRole : RoleKey) : Program Unit := do
  let actor ← authorize accessToken organizationId .membersChangeRole
  OrganizationRepository.changeMemberRole
    { organizationId := actor.organizationId, membershipId, newRole,
      actorMembershipId := actor.membershipId }

def removeMember (accessToken : Option AccessClaims) (organizationId membershipId : Id) :
    Program Unit := do
  let actor ← authorize accessToken organizationId .membersRemove
  OrganizationRepository.removeMember
    { organizationId := actor.organizationId, membershipId,
      actorMembershipId := actor.membershipId }

end OrganizationService

end Orgistry.Model
