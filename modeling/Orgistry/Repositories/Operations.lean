import Orgistry.Repositories.Schema

/-!
# The organization-scoped repositories

`project.repo.ts`, `api-key.repo.ts`, `invitation.repo.ts`, `organization.repo.ts`
and `audit.repo.ts`, each method run by itself.  Methods that look a row up by its
token or key hash alone, or by a user, are not organization-scoped and are left
out; so are the advisory locks and row locks, which only order concurrent runs.
-/

namespace Orgistry.Repositories

open Keyset Model Noninterference

variable {K : Type} [LinearOrder K]

inductive EntitlementKey
  | maxMembers
  | maxProjects
  | apiKeysAccess
  | maxApiKeys
  deriving DecidableEq

inductive ErrorDetails
  | quota (quota : EntitlementKey) (limit current : ℕ)
  | entitlement (entitlement : EntitlementKey)
  deriving DecidableEq

structure AppError where
  code : ErrorCode
  statusCode : ℕ
  message : String
  details : Option ErrorDetails
  deriving DecidableEq

/-- What an operation throws: an `AppError`, or some other `Error`. -/
inductive Failure
  | app (error : AppError)
  | unexpected
  deriving DecidableEq

def quotaExceededError (quota : EntitlementKey) (limit current : ℕ) : Failure :=
  .app ⟨.quotaExceeded, 409, "Your plan quota has been reached.",
    some (.quota quota limit current)⟩

def entitlementRequiredError (entitlement : EntitlementKey) : Failure :=
  .app ⟨.entitlementRequired, 403, "Your plan does not include this feature.",
    some (.entitlement entitlement)⟩

def planStateMissingError : Failure :=
  .app ⟨.planStateMissing, 500, "Organization plan state is unavailable.", none⟩

def projectNotFoundError : Failure := .app ⟨.projectNotFound, 404, "Project not found.", none⟩

def apiKeyNotFoundError : Failure := .app ⟨.apiKeyNotFound, 404, "API key not found.", none⟩

def invitationInvalidError : Failure :=
  .app ⟨.invitationInvalid, 404, "Invitation not found.", none⟩

def invitationExpiredError : Failure :=
  .app ⟨.invitationExpired, 410, "This invitation has expired.", none⟩

def invitationRevokedError : Failure :=
  .app ⟨.invitationRevoked, 409, "This invitation has been revoked.", none⟩

def invitationAlreadyAcceptedError : Failure :=
  .app ⟨.invitationAlreadyAccepted, 409, "This invitation has already been accepted.", none⟩

def duplicatePendingInvitationError : Failure :=
  .app ⟨.conflict, 409, "A pending invitation already exists for this email.", none⟩

def memberNotFoundError : Failure := .app ⟨.memberNotFound, 404, "Member not found.", none⟩

def lastOwnerRequiredError : Failure :=
  .app ⟨.lastOwnerRequired, 409, "An organization must always have at least one active Owner.",
    none⟩

def permissionDeniedError : Failure :=
  .app ⟨.permissionDenied, 403, "You do not have permission to perform this action.", none⟩

/-- A top-level value of the metadata of an event. -/
inductive MetadataValue
  | text (value : String)
  | scopes (value : List ApiKeyScope)
  deriving DecidableEq

/-- The clocks, the ids that `createId` draws for the row and for its event, and
two functions that do not read the database: ids as text, and
`sanitizeSecurityMetadata` followed by the text of each value in the column. -/
structure Environment (K : Type) where
  now : Timestamp
  date : Millis
  rowId : K
  eventId : K
  text : K → String
  storedMetadata : List (String × MetadataValue) → List (String × String)

/-- The IP address and the user agent only go into columns that nothing modelled
here reads. -/
structure ActionContext where
  actorUserId : String
  actorMembershipId : Option String
  requestId : Option String

/-- `ROLE_IDS`. -/
def roleId : RoleKey → String
  | .owner => "role_owner"
  | .admin => "role_admin"
  | .member => "role_member"
  | .viewer => "role_viewer"

abbrev Operation (K : Type) [LinearOrder K] (α : Type) : Type :=
  Transaction (catalog K) Failure α

/-- `UPDATE` by primary key. -/
def updateById (t : Table) (selects : Row K t → Bool) (assign : Row K t → Row K t) :
    Operation K Unit :=
  updateWhere (C := catalog K) t .unexpected .unexpected selects assign

/-- `INSERT` where a unique violation is not caught. -/
def insert (t : Table) (row : Row K t) : Operation K Unit :=
  insertRow (C := catalog K) t (fun _ => .unexpected) .unexpected row

/-- An event of the `user` actor type, in the transaction of its mutation. -/
def recordEvent (env : Environment K) (organizationId eventType : String)
    (metadata : List (String × MetadataValue)) (actorUserId : String)
    (requestId : Option String) : Operation K Unit :=
  insert .securityEvents
    { id := env.eventId, organizationId := some organizationId, eventType, actorType := .user,
      userId := some actorUserId, metadata := env.storedMetadata metadata, requestId,
      createdAt := env.now }

/-- `lockOrganizationEntitlements`. -/
def lockOrganizationEntitlements (organizationId : String) : Operation K PlanKey := do
  match ← find (C := catalog K) .organizationPlans fun (row : OrganizationPlanRow) =>
      row.organizationId = organizationId with
  | none => throw planStateMissingError
  | some row => return row.planKey

def requireQuota (quota : EntitlementKey) (current limit : ℕ) : Operation K Unit :=
  if evaluateCountQuota current limit = .exceeded then
    throw (quotaExceededError quota limit current)
  else pure ()

/-- `requireEntitlement` for `api_keys_access`. -/
def requireApiKeysAccess (planKey : PlanKey) : Operation K Unit :=
  if apiKeysAccess planKey then pure () else throw (entitlementRequiredError .apiKeysAccess)

/-- The keyset clause of a listing. -/
def cursorClause (cursor : Option (ListCursor K)) (createdAt : Timestamp) (id : K) : Bool :=
  cursor.all fun cursor =>
    createdAt < ofMillis cursor.createdAtMs ||
      (createdAt = ofMillis cursor.createdAtMs && id < cursor.id)

structure ListParams (K : Type) where
  limit : PageLimit
  cursor : Option (ListCursor K)

/-! ## `createDbProjectRepository` -/

namespace ProjectRepository

def isActive (organizationId : String) (project : Project K) : Bool :=
  project.organizationId = organizationId && project.deletedAt.isNone

def recordProjectEvent (env : Environment K) (organizationId eventType : String)
    (projectId : K) (metadata : List (String × MetadataValue)) (ctx : ActionContext) :
    Operation K Unit :=
  recordEvent env organizationId eventType
    ((ctx.actorMembershipId.toList.map fun id => ("actorMembershipId", .text id)) ++
      [("targetType", .text "project"), ("targetProjectId", .text (env.text projectId))] ++
      metadata) ctx.actorUserId ctx.requestId

def listActiveProjects (organizationId : String) (params : ListParams K) :
    Operation K (List (Project K)) :=
  query fun s => (newestFirst Project.createdAt Project.id
    ((s .projects).filter fun (row : Project K) =>
      isActive organizationId row && cursorClause params.cursor row.createdAt row.id)).take
        (params.limit.value + 1)

structure CreateProjectParams where
  name : String
  createdByUserId : String
  ctx : ActionContext

def createProject (env : Environment K) (organizationId : String)
    (params : CreateProjectParams) : Operation K (Project K) := do
  let planKey ← lockOrganizationEntitlements organizationId
  let active ← countWhere (C := catalog K) .projects (isActive organizationId)
  requireQuota .maxProjects active (maxProjects planKey)
  let project : Project K :=
    { id := env.rowId, organizationId, name := params.name,
      createdByUserId := params.createdByUserId, deletedAt := none, deletedByUserId := none,
      createdAt := env.now, updatedAt := env.now }
  insert .projects project
  recordProjectEvent env organizationId "project.created" project.id
    [("name", .text project.name)] params.ctx
  return project

def findActiveProject (organizationId : String) (projectId : K) :
    Operation K (Option (Project K)) :=
  find (C := catalog K) .projects fun (row : Project K) =>
    isActive organizationId row && row.id = projectId

structure UpdateProjectParams (K : Type) where
  projectId : K
  name : String
  ctx : ActionContext

def updateProject (env : Environment K) (organizationId : String)
    (params : UpdateProjectParams K) : Operation K (Project K) := do
  match ← findActiveProject organizationId params.projectId with
  | none => throw projectNotFoundError
  | some target =>
      let updated : Project K :=
        { target with name := params.name, updatedAt := ofMillis env.date }
      updateById .projects (fun (row : Project K) => row.id = target.id)
        fun (row : Project K) => { row with name := params.name, updatedAt := ofMillis env.date }
      recordProjectEvent env organizationId "project.updated" updated.id
        [("name", .text updated.name)] params.ctx
      return updated

structure SoftDeleteProjectParams (K : Type) where
  projectId : K
  ctx : ActionContext

def softDeleteProject (env : Environment K) (organizationId : String)
    (params : SoftDeleteProjectParams K) : Operation K Unit := do
  match ← findActiveProject organizationId params.projectId with
  | none => throw projectNotFoundError
  | some target =>
      updateById .projects (fun (row : Project K) => row.id = target.id)
        fun (row : Project K) =>
          { row with
            deletedAt := some (ofMillis env.date)
            deletedByUserId := some params.ctx.actorUserId
            updatedAt := ofMillis env.date }
      recordProjectEvent env organizationId "project.deleted" target.id [] params.ctx

end ProjectRepository

/-! ## `createDbApiKeyRepository` -/

namespace ApiKeyRepository

def recordKeyEvent (env : Environment K) (organizationId eventType : String) (apiKeyId : K)
    (metadata : List (String × MetadataValue)) (ctx : ActionContext) : Operation K Unit :=
  recordEvent env organizationId eventType
    ((ctx.actorMembershipId.toList.map fun id => ("actorMembershipId", .text id)) ++
      [("targetType", .text "api_key"), ("targetKeyId", .text (env.text apiKeyId))] ++
      metadata) ctx.actorUserId ctx.requestId

/-- Neither revoked nor expired at `now`. -/
def isActive (organizationId : String) (now : Millis) (key : ApiKeyRow K) : Bool :=
  key.organizationId = organizationId && key.revokedAt.isNone &&
    key.expiresAt.all fun expiresAt => ofMillis now < expiresAt

structure CreateApiKeyParams where
  name : String
  displayPrefix : String
  secretHash : String
  scopes : List ApiKeyScope
  expiresAt : Option Millis
  createdByUserId : String
  now : Millis
  ctx : ActionContext

def createApiKey (env : Environment K) (organizationId : String)
    (params : CreateApiKeyParams) : Operation K (ApiKeyRow K) := do
  let planKey ← lockOrganizationEntitlements organizationId
  requireApiKeysAccess planKey
  let active ← countWhere (C := catalog K) .apiKeys (isActive organizationId params.now)
  requireQuota .maxApiKeys active (maxApiKeys planKey)
  let key : ApiKeyRow K :=
    { id := env.rowId, organizationId, name := params.name,
      displayPrefix := params.displayPrefix, secretHash := params.secretHash,
      scopes := params.scopes, expiresAt := params.expiresAt.map ofMillis, lastUsedAt := none,
      revokedAt := none, revokedByUserId := none, createdByUserId := params.createdByUserId,
      createdAt := env.now, updatedAt := env.now }
  insert .apiKeys key
  recordKeyEvent env organizationId "api_key.created" key.id
    [("displayPrefix", .text key.displayPrefix), ("scopes", .scopes key.scopes)] params.ctx
  return key

def listApiKeys (organizationId : String) (params : ListParams K) :
    Operation K (List (ApiKeyRow K)) :=
  query fun s => (newestFirst ApiKeyRow.createdAt ApiKeyRow.id
    ((s .apiKeys).filter fun (row : ApiKeyRow K) => row.organizationId = organizationId &&
      cursorClause params.cursor row.createdAt row.id)).take (params.limit.value + 1)

structure RevokeApiKeyParams (K : Type) where
  apiKeyId : K
  ctx : ActionContext

structure RevokeApiKeyResult (K : Type) where
  apiKeyId : K
  alreadyRevoked : Bool
  deriving DecidableEq

def revokeApiKey (env : Environment K) (organizationId : String)
    (params : RevokeApiKeyParams K) : Operation K (RevokeApiKeyResult K) := do
  match ← find (C := catalog K) .apiKeys fun (row : ApiKeyRow K) =>
      row.organizationId = organizationId && row.id = params.apiKeyId with
  | none => throw apiKeyNotFoundError
  | some (target : ApiKeyRow K) =>
      if target.revokedAt.isSome then return ⟨target.id, true⟩
      else
        updateById .apiKeys (fun (row : ApiKeyRow K) => row.id = target.id)
          fun (row : ApiKeyRow K) =>
            { row with
              revokedAt := some (ofMillis env.date)
              revokedByUserId := some params.ctx.actorUserId
              updatedAt := ofMillis env.date }
        recordKeyEvent env organizationId "api_key.revoked" target.id [] params.ctx
        return ⟨target.id, false⟩

end ApiKeyRepository

/-! ## `createDbInvitationRepository` -/

namespace InvitationRepository

def recordInvitationEvent (env : Environment K) (organizationId eventType : String)
    (invitation : InvitationRow K) (ctx : ActionContext) : Operation K Unit :=
  recordEvent env organizationId eventType
    ((ctx.actorMembershipId.toList.map fun id => ("actorMembershipId", .text id)) ++
      [("targetType", .text "invitation"),
        ("targetInvitationId", .text (env.text invitation.id)),
        ("invitedEmailNormalized", .text invitation.invitedEmailNormalized),
        ("roleId", .text (roleId invitation.role))]) ctx.actorUserId ctx.requestId

/-- A pending invitation of the organization that has not expired at `now`. -/
def isReservation (organizationId : String) (now : Millis) (row : InvitationRow K) : Bool :=
  row.organizationId = organizationId && row.status = .pending && ofMillis now < row.expiresAt

structure CreateInvitationParams where
  invitedEmail : String
  invitedEmailNormalized : String
  role : RoleKey
  tokenHash : String
  expiresAt : Millis
  ctx : ActionContext

/-- Indexes are checked in the order of their creation, and only the one that
guards pending invitations has an error of its own. -/
def insertViolation (invitation : InvitationRow K) (rows : List (InvitationRow K)) : Failure :=
  if rows.any fun row => row.id = invitation.id || row.tokenHash = invitation.tokenHash then
    .unexpected
  else duplicatePendingInvitationError

def createInvitation (env : Environment K) (organizationId : String)
    (params : CreateInvitationParams) : Operation K (InvitationRow K) := do
  let planKey ← lockOrganizationEntitlements organizationId
  let members ← countWhere (C := catalog K) .memberships fun (row : MembershipRow K) =>
    row.organizationId = organizationId && row.status = .active
  let pending ← countWhere (C := catalog K) .invitations (isReservation organizationId env.date)
  requireQuota .maxMembers (members + pending) (maxMembers planKey)
  -- an expired invitation gives its slot up
  updateWhere (C := catalog K) .invitations .unexpected .unexpected
    (fun (row : InvitationRow K) => row.organizationId = organizationId &&
      row.invitedEmailNormalized = params.invitedEmailNormalized && row.status = .pending &&
      row.expiresAt < ofMillis env.date)
    fun (row : InvitationRow K) =>
      { row with status := .expired, updatedAt := ofMillis env.date }
  let invitation : InvitationRow K :=
    { id := env.rowId, organizationId, invitedEmail := params.invitedEmail,
      invitedEmailNormalized := params.invitedEmailNormalized, role := params.role,
      tokenHash := params.tokenHash, status := .pending,
      invitedByUserId := params.ctx.actorUserId, acceptedByUserId := none,
      revokedByUserId := none, expiresAt := ofMillis params.expiresAt, acceptedAt := none,
      revokedAt := none, createdAt := env.now, updatedAt := env.now }
  insertRow (C := catalog K) .invitations (insertViolation invitation) .unexpected invitation
  recordInvitationEvent env organizationId "invitation.created" invitation params.ctx
  return invitation

def listInvitations (organizationId : String) (params : ListParams K) :
    Operation K (List (InvitationRow K)) :=
  query fun s => (newestFirst InvitationRow.createdAt InvitationRow.id
    ((s .invitations).filter fun (row : InvitationRow K) =>
      row.organizationId = organizationId &&
        cursorClause params.cursor row.createdAt row.id)).take (params.limit.value + 1)

/-- `assertAcceptable`. -/
def assertAcceptable (invitation : InvitationRow K) (now : Millis) : Operation K Unit :=
  if invitation.status = .accepted then throw invitationAlreadyAcceptedError
  else if invitation.status = .revoked then throw invitationRevokedError
  else if getTime invitation.expiresAt ≤ now then throw invitationExpiredError
  else pure ()

structure RevokeInvitationParams (K : Type) where
  invitationId : K
  ctx : ActionContext

def revokeInvitation (env : Environment K) (organizationId : String)
    (params : RevokeInvitationParams K) : Operation K Unit := do
  match ← find (C := catalog K) .invitations fun (row : InvitationRow K) =>
      row.organizationId = organizationId && row.id = params.invitationId with
  | none => throw invitationInvalidError
  | some (invitation : InvitationRow K) =>
      assertAcceptable invitation env.date
      updateById .invitations (fun (row : InvitationRow K) => row.id = invitation.id)
        fun (row : InvitationRow K) =>
          { row with
            status := .revoked
            revokedAt := some (ofMillis env.date)
            revokedByUserId := some params.ctx.actorUserId
            updatedAt := ofMillis env.date }
      recordInvitationEvent env organizationId "invitation.revoked" invitation params.ctx

def findPendingInvitation (env : Environment K) (organizationId invitedEmailNormalized : String) :
    Operation K (Option (InvitationRow K)) :=
  find (C := catalog K) .invitations fun (row : InvitationRow K) =>
    isReservation organizationId env.date row &&
      row.invitedEmailNormalized = invitedEmailNormalized

def hasActiveMemberWithEmail (organizationId invitedEmailNormalized : String) :
    Operation K Bool :=
  query fun s => ((s .memberships).filter fun (row : MembershipRow K) =>
    row.organizationId = organizationId && row.status = .active).any fun row =>
      (s .users).any fun (user : UserRow) =>
        user.id = row.userId && user.normalizedEmail = invitedEmailNormalized

def countPendingInvitations (env : Environment K) (organizationId : String) : Operation K ℕ :=
  countWhere (C := catalog K) .invitations (isReservation organizationId env.date)

end InvitationRepository

/-! ## `createDbOrganizationRepository` -/

structure MemberView (K : Type) where
  membership : MembershipRow K
  user : UserRow
  deriving DecidableEq

namespace OrganizationRepository

def findOrganizationById (organizationId : String) : Operation K (Option OrganizationRow) :=
  find (C := catalog K) .organizations fun (row : OrganizationRow) => row.id = organizationId

def findActiveMembership (userId organizationId : String) :
    Operation K (Option (MembershipRow K)) :=
  find (C := catalog K) .memberships fun (row : MembershipRow K) =>
    row.userId = userId && row.organizationId = organizationId && row.status = .active

/-- The user that a membership joins, by primary key. -/
def memberView (s : Store (catalog K)) (membership : MembershipRow K) : Option (MemberView K) :=
  ((s .users).filter fun (user : UserRow) => user.id = membership.userId).head?.map
    fun user => ⟨membership, user⟩

def listActiveMembers (organizationId : String) (params : ListParams K) :
    Operation K (List (MemberView K)) :=
  query fun s => (newestFirst (fun view => view.membership.createdAt)
    (fun view => view.membership.id)
    (((s .memberships).filter fun (row : MembershipRow K) =>
      row.organizationId = organizationId && row.status = .active &&
        cursorClause params.cursor row.createdAt row.id).filterMap (memberView s))).take
          (params.limit.value + 1)

/-- `lockActiveOwners`. -/
def lockActiveOwners (organizationId : String) : Operation K (List K) :=
  query fun s => (((s .memberships).filter fun (row : MembershipRow K) =>
    row.organizationId = organizationId && row.status = .active && row.role = .owner).map
      MembershipRow.id).insertionSort (· ≤ ·)

/-- `loadMemberView`; a missing row is an `Error`. -/
def loadMemberView (membershipId : K) : Operation K (MemberView K) := do
  match ← find (C := catalog K) .memberships fun (row : MembershipRow K) =>
      row.id = membershipId with
  | none => throw .unexpected
  | some (membership : MembershipRow K) =>
      match ← find (C := catalog K) .users fun (user : UserRow) =>
          user.id = membership.userId with
      | none => throw .unexpected
      | some user => return ⟨membership, user⟩

def roleChangeTouchesOwner (targetRole newRole : RoleKey) : Bool :=
  targetRole = .owner || newRole = .owner

/-- `assertOwnerChangeAuthority`, which is only called when the Owner role is touched. -/
def assertOwnerChangeAuthority (touchesOwner actorIsActiveOwner : Bool) : Operation K Unit :=
  if touchesOwner && !actorIsActiveOwner then throw permissionDeniedError else pure ()

/-- An organization keeps an active Owner when one loses the role. -/
def requireOtherOwner (losesOwner : Bool) (activeOwnerIds : List K) : Operation K Unit :=
  if losesOwner && activeOwnerIds.length ≤ 1 then throw lastOwnerRequiredError else pure ()

structure ChangeMemberRoleParams (K : Type) where
  membershipId : K
  newRole : RoleKey
  actorUserId : String
  actorMembershipId : K
  requestId : Option String

def changeMemberRole (env : Environment K) (organizationId : String)
    (params : ChangeMemberRoleParams K) : Operation K (MemberView K) := do
  let activeOwnerIds ← lockActiveOwners organizationId
  match ← find (C := catalog K) .memberships fun (row : MembershipRow K) =>
      row.id = params.membershipId with
  | none => throw memberNotFoundError
  | some (target : MembershipRow K) =>
      if target.organizationId ≠ organizationId || target.status ≠ .active then
        throw memberNotFoundError
      else
        assertOwnerChangeAuthority (roleChangeTouchesOwner target.role params.newRole)
          (activeOwnerIds.contains params.actorMembershipId)
        requireOtherOwner (target.role = .owner && params.newRole ≠ .owner) activeOwnerIds
        updateById .memberships (fun (row : MembershipRow K) => row.id = params.membershipId)
          fun (row : MembershipRow K) =>
            { row with role := params.newRole, updatedAt := ofMillis env.date }
        recordEvent env organizationId "org.member_role_changed"
          [("membershipId", .text (env.text params.membershipId)),
            ("targetUserId", .text target.userId),
            ("fromRoleId", .text (roleId target.role)),
            ("toRoleId", .text (roleId params.newRole))]
          params.actorUserId params.requestId
        loadMemberView params.membershipId

structure RemoveMemberParams (K : Type) where
  membershipId : K
  actorUserId : String
  actorMembershipId : K
  requestId : Option String

def removeMember (env : Environment K) (organizationId : String)
    (params : RemoveMemberParams K) : Operation K (MemberView K) := do
  let activeOwnerIds ← lockActiveOwners organizationId
  match ← find (C := catalog K) .memberships fun (row : MembershipRow K) =>
      row.id = params.membershipId with
  | none => throw memberNotFoundError
  | some (target : MembershipRow K) =>
      if target.organizationId ≠ organizationId then throw memberNotFoundError
      else if target.status = .removed then loadMemberView params.membershipId
      else
        assertOwnerChangeAuthority (target.role = .owner)
          (activeOwnerIds.contains params.actorMembershipId)
        requireOtherOwner (target.role = .owner) activeOwnerIds
        updateById .memberships (fun (row : MembershipRow K) => row.id = params.membershipId)
          fun (row : MembershipRow K) =>
            { row with
              status := .removed
              removedAt := some (ofMillis env.date)
              removedByUserId := some params.actorUserId
              updatedAt := ofMillis env.date }
        recordEvent env organizationId "org.member_removed"
          [("membershipId", .text (env.text params.membershipId)),
            ("targetUserId", .text target.userId),
            ("roleId", .text (roleId target.role))]
          params.actorUserId params.requestId
        loadMemberView params.membershipId

end OrganizationRepository

/-! ## `createDbAuditRepository` -/

/-- The parameters of the query but the organization. -/
structure AuditFilters (K : Type) where
  page : ListParams K
  eventTypes : List String
  actorType : Option SecurityActorType
  actorId : Option String
  targetId : Option String
  createdAfter : Option Millis
  createdBefore : Option Millis

def AuditFilters.params (filters : AuditFilters K) (organizationId : String) :
    ListAuditEventsParams K :=
  { organizationId, limit := filters.page.limit, cursor := filters.page.cursor,
    eventTypes := filters.eventTypes, actorType := filters.actorType,
    actorId := filters.actorId, targetId := filters.targetId,
    createdAfter := filters.createdAfter, createdBefore := filters.createdBefore }

def AuditRepository.listAuditEvents (organizationId : String) (filters : AuditFilters K) :
    Operation K (List (SecurityEvent K)) :=
  query fun s => (newestFirst SecurityEvent.createdAt SecurityEvent.id
    ((s .securityEvents).filter fun row =>
      Model.AuditRepository.conditions (filters.params organizationId) row &&
        Model.AuditRepository.cursorClause filters.page.cursor row)).take
          (filters.page.limit.value + 1)

end Orgistry.Repositories
