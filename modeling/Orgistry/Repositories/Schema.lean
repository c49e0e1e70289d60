import Orgistry.Model.Listing
import Orgistry.Model.Resources
import Orgistry.Noninterference.Store

/-!
# The tables of the organization-scoped repositories

The rows that the project, API key, invitation, membership and audit repositories
read, write and answer with, in full.  Roles are seeded and never change, so a row
has the key of its role where the schema has its id.  `K` stands for text ids in
the order of the database.
-/

namespace Orgistry.Repositories

open Model Noninterference

structure UserRow where
  id : String
  email : String
  normalizedEmail : String
  passwordHash : String
  displayName : String
  status : UserStatus
  emailVerifiedAt : Option Timestamp
  createdAt : Timestamp
  updatedAt : Timestamp
  deletedAt : Option Timestamp
  deriving DecidableEq

structure OrganizationRow where
  id : String
  name : String
  slug : String
  type : OrganizationType
  status : OrganizationStatus
  createdByUserId : String
  createdAt : Timestamp
  updatedAt : Timestamp
  archivedAt : Option Timestamp
  deriving DecidableEq

structure OrganizationPlanRow where
  id : String
  organizationId : String
  planKey : PlanKey
  deriving DecidableEq

structure MembershipRow (K : Type) where
  id : K
  userId : String
  organizationId : String
  role : RoleKey
  status : MembershipStatus
  invitedByUserId : Option String
  joinedAt : Timestamp
  removedAt : Option Timestamp
  removedByUserId : Option String
  createdAt : Timestamp
  updatedAt : Timestamp
  deriving DecidableEq

inductive ApiKeyScope
  | projectsRead
  deriving DecidableEq

structure ApiKeyRow (K : Type) where
  id : K
  organizationId : String
  name : String
  displayPrefix : String
  secretHash : String
  scopes : List ApiKeyScope
  expiresAt : Option Timestamp
  lastUsedAt : Option Timestamp
  revokedAt : Option Timestamp
  revokedByUserId : Option String
  createdByUserId : String
  createdAt : Timestamp
  updatedAt : Timestamp
  deriving DecidableEq

structure InvitationRow (K : Type) where
  id : K
  organizationId : String
  invitedEmail : String
  invitedEmailNormalized : String
  role : RoleKey
  tokenHash : String
  status : InvitationStatus
  invitedByUserId : String
  acceptedByUserId : Option String
  revokedByUserId : Option String
  expiresAt : Timestamp
  acceptedAt : Option Timestamp
  revokedAt : Option Timestamp
  createdAt : Timestamp
  updatedAt : Timestamp
  deriving DecidableEq

inductive Table
  | users
  | organizations
  | organizationPlans
  | memberships
  | projects
  | apiKeys
  | invitations
  | securityEvents
  deriving DecidableEq

variable {K : Type} [LinearOrder K]

abbrev Row (K : Type) : Table → Type
  | .users => UserRow
  | .organizations => OrganizationRow
  | .organizationPlans => OrganizationPlanRow
  | .memberships => MembershipRow K
  | .projects => Project K
  | .apiKeys => ApiKeyRow K
  | .invitations => InvitationRow K
  | .securityEvents => SecurityEvent K

def rowEq : (t : Table) → DecidableEq (Row K t)
  | .users => inferInstanceAs (DecidableEq UserRow)
  | .organizations => inferInstanceAs (DecidableEq OrganizationRow)
  | .organizationPlans => inferInstanceAs (DecidableEq OrganizationPlanRow)
  | .memberships => inferInstanceAs (DecidableEq (MembershipRow K))
  | .projects => inferInstanceAs (DecidableEq (Project K))
  | .apiKeys => inferInstanceAs (DecidableEq (ApiKeyRow K))
  | .invitations => inferInstanceAs (DecidableEq (InvitationRow K))
  | .securityEvents => inferInstanceAs (DecidableEq (SecurityEvent K))

/-- In the partial index `uq_organizations_active_personal_owner`. -/
def OrganizationRow.isActivePersonal (row : OrganizationRow) : Bool :=
  row.type = .personal && row.status = .active

/-- Primary keys and unique indexes. -/
def clash : {t : Table} → Row K t → Row K t → Bool
  | .users, a, b => a.id = b.id || a.normalizedEmail = b.normalizedEmail
  | .organizations, a, b =>
      a.id = b.id || a.slug = b.slug ||
        (a.isActivePersonal && b.isActivePersonal && a.createdByUserId = b.createdByUserId)
  | .organizationPlans, a, b => a.id = b.id || a.organizationId = b.organizationId
  | .memberships, a, b =>
      a.id = b.id || (a.status = .active && b.status = .active && a.userId = b.userId &&
        a.organizationId = b.organizationId)
  | .projects, a, b => a.id = b.id
  | .apiKeys, a, b => a.id = b.id || a.secretHash = b.secretHash
  | .invitations, a, b =>
      a.id = b.id || a.tokenHash = b.tokenHash ||
        (a.status = .pending && b.status = .pending && a.organizationId = b.organizationId &&
          a.invitedEmailNormalized = b.invitedEmailNormalized)
  | .securityEvents, a, b => a.id = b.id

theorem clash_self {t : Table} (row : Row K t) : clash row row = true := by
  cases t <;> simp [clash]

theorem clash_comm {t : Table} (a b : Row K t) : clash a b = clash b a := by
  cases t <;> simp [clash, eq_comm, Bool.and_comm, Bool.and_left_comm]

/-- The column that refers to an organization.  `security_events.organization_id`
is no foreign key. -/
def organizationColumn : {t : Table} → Row K t → Option String
  | .users, _ | .organizations, _ | .securityEvents, _ => none
  | .organizationPlans, row => some row.organizationId
  | .memberships, row => some row.organizationId
  | .projects, row => some row.organizationId
  | .apiKeys, row => some row.organizationId
  | .invitations, row => some row.organizationId

/-- The columns that refer to users. -/
def userColumns : {t : Table} → Row K t → List String
  | .users, _ | .organizationPlans, _ => []
  | .organizations, row => [row.createdByUserId]
  | .memberships, row =>
      row.userId :: (row.invitedByUserId.toList ++ row.removedByUserId.toList)
  | .projects, row => row.createdByUserId :: row.deletedByUserId.toList
  | .apiKeys, row => row.createdByUserId :: row.revokedByUserId.toList
  | .invitations, row =>
      row.invitedByUserId :: (row.acceptedByUserId.toList ++ row.revokedByUserId.toList)
  | .securityEvents, row => row.userId.toList

def userRef (userId : String) : (t : Table) × (Row K t → Bool) :=
  ⟨.users, fun row => row.id = userId⟩

def organizationRef (organizationId : String) : (t : Table) × (Row K t → Bool) :=
  ⟨.organizations, fun row => row.id = organizationId⟩

/-- Foreign keys. -/
def rowRefs {t : Table} (row : Row K t) : List ((t : Table) × (Row K t → Bool)) :=
  (organizationColumn row).toList.map organizationRef ++ (userColumns row).map userRef

variable (K) in
abbrev catalog : Catalog where
  Table := Table
  Row := Row K
  tableEq := inferInstance
  rowEq := rowEq
  clash := clash
  refs := rowRefs
  clash_self := clash_self
  clash_comm := clash_comm

end Orgistry.Repositories
