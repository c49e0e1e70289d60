import Orgistry.Organizations.InvitationExpiry
import Orgistry.Repositories.InMemory
import Orgistry.Transitions.Simulation

/-!
# The two invitation repositories as machines

The repository of the database and the one in memory answer the same calls.  A call of the
database that throws is rolled back.  The store in memory is related to the database when
it holds the rows as the driver would give them.
-/

namespace Orgistry.Repositories

open Keyset Model Noninterference Transitions

variable {K : Type} [LinearOrder K]

/-- A column as the `Date` that the driver gives. -/
def toDate (t : Timestamp) : Timestamp := ofMillis (getTime t)

@[simp]
theorem getTime_ofMillis (millis : Millis) : getTime (ofMillis millis) = millis :=
  Int.mul_ediv_cancel _ (by decide)

@[simp]
theorem getTime_toDate (t : Timestamp) : getTime (toDate t) = getTime t := getTime_ofMillis _

@[simp]
theorem toDate_ofMillis (millis : Millis) : toDate (ofMillis millis) = ofMillis millis :=
  congrArg ofMillis (getTime_ofMillis millis)

def OrganizationRow.dates (row : OrganizationRow) : OrganizationRow :=
  { row with
    createdAt := toDate row.createdAt
    updatedAt := toDate row.updatedAt
    archivedAt := row.archivedAt.map toDate }

def MembershipRow.dates (row : MembershipRow K) : MembershipRow K :=
  { row with
    joinedAt := toDate row.joinedAt
    removedAt := row.removedAt.map toDate
    createdAt := toDate row.createdAt
    updatedAt := toDate row.updatedAt }

def InvitationRow.dates (row : InvitationRow K) : InvitationRow K :=
  { row with
    expiresAt := toDate row.expiresAt
    acceptedAt := row.acceptedAt.map toDate
    revokedAt := row.revokedAt.map toDate
    createdAt := toDate row.createdAt
    updatedAt := toDate row.updatedAt }

/-- What the in-memory repositories keep of an event. -/
def RecordedSecurityEvent.of (event : SecurityEvent K) : RecordedSecurityEvent :=
  ⟨event.userId, event.organizationId, event.actorType, event.eventType, event.metadata,
    event.requestId⟩

namespace InvitationRepository

inductive Request (K : Type)
  | create (organizationId : String) (params : CreateInvitationParams)
  | revoke (organizationId : String) (params : RevokeInvitationParams K)
  | accept (params : AcceptInvitationParams K)
  | list (organizationId : String) (params : ListParams K)
  | findPending (organizationId invitedEmailNormalized : String)
  | countPending (organizationId : String)

/-- A call at an instant that all clocks show, with the ids that are drawn for it. -/
structure Call (K : Type) where
  request : Request K
  env : Environment K
  secondEventId : K
  clock : env.date = getTime env.now

inductive Answer (K : Type)
  | invitation (row : InvitationRow K)
  | revoked
  | accepted (invitation : InvitationRow K) (membership : MembershipRow K)
      (organization : Option OrganizationRow)
  | page (rows : List (InvitationRow K))
  | found (row : Option (InvitationRow K))
  | count (n : ℕ)
  deriving DecidableEq

/-- A transaction of its own: what throws is rolled back. -/
def committed {α : Type} (op : Operation K α) (answer : α → Answer K) (s : Store (catalog K)) :
    Except Failure (Answer K) × Store (catalog K) :=
  match op s with
  | .ok (a, s') => (.ok (answer a), s')
  | .error failure => (.error failure, s)

def databaseStep (s : Store (catalog K)) (call : Call K) :
    Except Failure (Answer K) × Store (catalog K) :=
  match call.request with
  | .create organizationId params =>
      committed (createInvitation call.env organizationId params) (fun row => .invitation row.dates)
        s
  | .revoke organizationId params =>
      committed (revokeInvitation call.env organizationId params) (fun _ => .revoked) s
  | .accept params =>
      committed (acceptInvitation call.env call.secondEventId params)
        (fun result => .accepted result.invitation.dates result.membership.dates
          (some result.organization.dates)) s
  | .list organizationId params =>
      committed (listInvitations organizationId params)
        (fun rows => .page (rows.map InvitationRow.dates)) s
  | .findPending organizationId invitedEmailNormalized =>
      committed (findPendingInvitation call.env organizationId invitedEmailNormalized)
        (fun row => .found (row.map InvitationRow.dates)) s
  | .countPending organizationId =>
      committed (countPendingInvitations call.env organizationId) .count s

def answered {α : Type} (method : InMemoryMethod K α) (answer : α → Answer K)
    (store : InMemoryOrgStore K) : Except Failure (Answer K) × InMemoryOrgStore K :=
  ((method store).1.map answer, (method store).2)

def memoryStep (store : InMemoryOrgStore K) (call : Call K) :
    Except Failure (Answer K) × InMemoryOrgStore K :=
  match call.request with
  | .create organizationId params =>
      answered (InMemory.createInvitation call.env organizationId params) .invitation store
  | .revoke organizationId params =>
      answered (InMemory.revokeInvitation call.env organizationId params) (fun _ => .revoked) store
  | .accept params =>
      answered (InMemory.acceptInvitation call.env params)
        (fun result => .accepted result.1 result.2.1 result.2.2) store
  | .list organizationId params =>
      answered (InMemory.listInvitations organizationId params) .page store
  | .findPending organizationId invitedEmailNormalized =>
      answered (InMemory.findPendingInvitation call.env organizationId invitedEmailNormalized)
        .found store
  | .countPending organizationId =>
      answered (InMemory.countPendingInvitations call.env organizationId) .count store

/-- What the unique indexes, the foreign keys and the only writer of `expires_at` ensure. -/
structure Consistent (s : Store (catalog K)) : Prop where
  valid : s.Valid
  resolved : ∀ t, ∀ row ∈ s t, s.resolves row
  expiry : ∀ row : InvitationRow K, row ∈ s .invitations → toDate row.expiresAt = row.expiresAt

/-- The rows of the database as the driver gives them. -/
def remembered (s : Store (catalog K)) : InMemoryOrgStore K where
  organizations := (s .organizations).map OrganizationRow.dates
  organizationPlans := s .organizationPlans
  memberships := (s .memberships).map MembershipRow.dates
  invitations := (s .invitations).map InvitationRow.dates
  securityEvents := (s .securityEvents).map RecordedSecurityEvent.of

structure Related (s : Store (catalog K)) (store : InMemoryOrgStore K) : Prop where
  consistent : Consistent s
  memory : store = remembered s

/-- The event can be inserted. -/
structure Recordable (s : Store (catalog K)) (userId : String) (eventId : K) : Prop where
  user : ∃ user : UserRow, user ∈ s .users ∧ user.id = userId
  unused : ∀ event : SecurityEvent K, event ∈ s .securityEvents → event.id ≠ eventId

/-- No pending invitation expires now, only one rejection is possible, and the insert that
no check stands against goes through. -/
structure CreateAgrees (env : Environment K) (organizationId : String)
    (params : CreateInvitationParams) (s : Store (catalog K)) : Prop where
  expiry : ∀ row : InvitationRow K, row ∈ s .invitations → isPendingFor organizationId params row →
    getTime row.expiresAt ≠ env.date
  seat : (∃ row ∈ s .invitations, isPendingFor organizationId params row) →
    SeatLeft env organizationId s
  unused : SeatLeft env organizationId s → Unused env params s
  recordable : SeatLeft env organizationId s →
    (∀ row : InvitationRow K, row ∈ s .invitations → ¬InTheWay env organizationId params row) →
      Recordable s params.ctx.actorUserId env.eventId

/-- The event of a revocation can be inserted. -/
def RevokeAgrees (env : Environment K) (organizationId : String) (params : RevokeInvitationParams K)
    (s : Store (catalog K)) : Prop :=
  ∀ row : InvitationRow K, row ∈ s .invitations → row.organizationId = organizationId →
    row.id = params.invitationId → InMemory.lifecycleError row env.date = none →
      Recordable s params.ctx.actorUserId env.eventId

/-- The checks that come before the plan in memory, and after it in the database. -/
structure Welcome (env : Environment K) (params : AcceptInvitationParams K)
    (invitation : InvitationRow K) (s : Store (catalog K)) : Prop where
  lifecycle : InMemory.lifecycleError invitation env.date = none
  email : invitation.invitedEmailNormalized = params.acceptingUserNormalizedEmail
  joins : ∀ row : MembershipRow K, row ∈ s .memberships → row.userId = params.acceptingUserId →
    row.organizationId = invitation.organizationId → row.status ≠ .active

def HasPlan (organizationId : String) (s : Store (catalog K)) : Prop :=
  ∃ plan : OrganizationPlanRow, plan ∈ s .organizationPlans ∧ plan.organizationId = organizationId

/-- The active members leave a seat of the plan. -/
def MemberSeatLeft (organizationId : String) (s : Store (catalog K)) : Prop :=
  ∃ plan : OrganizationPlanRow, plan ∈ s .organizationPlans ∧
    plan.organizationId = organizationId ∧
      ((s .memberships).filter fun (row : MembershipRow K) =>
        row.organizationId = organizationId && row.status = .active).length <
          maxMembers plan.planKey

/-- The acceptance acts for the accepting account, and its three inserts go through. -/
structure JoinAgrees (env : Environment K) (secondEventId : K) (params : AcceptInvitationParams K)
    (s : Store (catalog K)) : Prop where
  actor : params.ctx.actorUserId = params.acceptingUserId
  newcomer : params.ctx.actorMembershipId = none
  unused : ∀ row : MembershipRow K, row ∈ s .memberships → row.id ≠ env.rowId
  first : Recordable s params.acceptingUserId env.eventId
  second : Recordable s params.acceptingUserId secondEventId
  distinct : env.eventId ≠ secondEventId

structure AcceptAgrees (env : Environment K) (secondEventId : K) (params : AcceptInvitationParams K)
    (s : Store (catalog K)) : Prop where
  plan : ∀ row : InvitationRow K, row ∈ s .invitations → params.selector.selects row →
    ¬HasPlan row.organizationId s → Welcome env params row s
  joins : ∀ row : InvitationRow K, row ∈ s .invitations → params.selector.selects row →
    Welcome env params row s → MemberSeatLeft row.organizationId s →
      JoinAgrees env secondEventId params s

/-- Past the cursor, the invitations of one millisecond were created in the order of their
ids, and the millisecond of the cursor holds none that the database leaves out. -/
structure ListAgrees (organizationId : String) (params : ListParams K) (s : Store (catalog K)) :
    Prop where
  cursor : ∀ row : InvitationRow K, row ∈ s .invitations → row.organizationId = organizationId →
    ∀ cursor ∈ params.cursor, getTime row.createdAt = cursor.createdAtMs → row.id < cursor.id →
      row.createdAt = ofMillis cursor.createdAtMs
  order : ∀ a b : InvitationRow K, a ∈ s .invitations → b ∈ s .invitations →
    a.organizationId = organizationId → b.organizationId = organizationId →
    cursorClause params.cursor a.createdAt a.id → cursorClause params.cursor b.createdAt b.id →
      getTime a.createdAt = getTime b.createdAt → a.createdAt < b.createdAt → a.id < b.id

/-- The condition for each call. -/
def CallAgrees (s : Store (catalog K)) (call : Call K) : Prop :=
  match call.request with
  | .create organizationId params => CreateAgrees call.env organizationId params s
  | .revoke organizationId params => RevokeAgrees call.env organizationId params s
  | .accept params => AcceptAgrees call.env call.secondEventId params s
  | .list organizationId params => ListAgrees organizationId params s
  | .findPending _ _ | .countPending _ => True

end InvitationRepository

end Orgistry.Repositories
