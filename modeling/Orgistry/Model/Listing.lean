import Orgistry.Keyset.Order
import Orgistry.Model.Schema

/-!
# Paginated listings

The audit log (`audit.*`) and the project lists (`project.*`,
`external-projects.service.ts`).  Columns hold microseconds while `Date` holds
milliseconds.  Ids are text; `K` stands for text in the order of the database.
The gates before a query and the shape of the answered items are left out.
-/

namespace Orgistry.Model

open Keyset

/-- A PostgreSQL `timestamptz`, in microseconds. -/
abbrev Timestamp := ℤ

/-- A `Date`, in milliseconds. -/
abbrev Millis := ℤ

/-- A fetched column as a `Date`, which drops the microseconds. -/
def getTime (createdAt : Timestamp) : Millis := createdAt / 1000

/-- A `Date` as a query parameter. -/
def ofMillis (millis : Millis) : Timestamp := millis * 1000

/-- The contract of the query parameter `limit`. -/
structure PageLimit where
  value : ℕ
  min : 1 ≤ value
  max : value ≤ 100

/-- An optional text parameter is only used when it is truthy. -/
def given (text : Option String) : Option String := text.filter (· ≠ "")

variable {K : Type} [LinearOrder K]

/-- The keyset cursor of every listing. -/
structure ListCursor (K : Type) where
  createdAtMs : Millis
  id : K
  deriving DecidableEq

/-- An opaque cursor: the base64url text of a payload with the fields `c` and
`i`, or any other text. -/
inductive CursorText (K : Type)
  | encoded (c : Millis) (i : K)
  | malformed
  deriving DecidableEq

def encodeCursor (cursor : ListCursor K) : CursorText K := .encoded cursor.createdAtMs cursor.id

def decodeListCursor : Option (CursorText K) → Except ErrorCode (Option (ListCursor K))
  | none => .ok none
  | some (.encoded c i) => .ok (some ⟨c, i⟩)
  | some .malformed => .error .badRequest

/-- The position that a cursor stands for in a query. -/
def ListCursor.position (cursor : ListCursor K) : Position Timestamp K :=
  ⟨ofMillis cursor.createdAtMs, cursor.id⟩

inductive SecurityActorType
  | user
  | system
  | anonymous
  | apiKey
  deriving DecidableEq

/-- The columns of `security_events` that the audit log reads; `metadata` has
the text of each top-level value. -/
structure SecurityEvent (K : Type) where
  id : K
  organizationId : Option String
  eventType : String
  actorType : SecurityActorType
  userId : Option String
  metadata : List (String × String)
  requestId : Option String
  createdAt : Timestamp
  deriving DecidableEq

structure SecurityEvents (K : Type) where
  rows : List (SecurityEvent K)
  nodup : (rows.map SecurityEvent.id).Nodup

inductive AuditEventType
  | memberRoleChanged
  | memberRemoved
  | projectCreated
  | projectUpdated
  | projectDeleted
  | planChangedDemo
  | apiKeyCreated
  | apiKeyRevoked
  | invitationCreated
  | invitationRevoked
  | invitationAccepted
  | membershipCreatedFromInvitation
  deriving DecidableEq

inductive AuditActorType
  | user
  | apiKey
  | system
  | unknown
  deriving DecidableEq

inductive AuditTargetType
  | membership
  | project
  | plan
  | apiKey
  | invitation
  | organization
  | unknown
  deriving DecidableEq

/-- `PUBLIC_TO_PERSISTED`. -/
def publicToPersisted : List (AuditEventType × String) :=
  [(.memberRoleChanged, "org.member_role_changed"),
    (.memberRemoved, "org.member_removed"),
    (.projectCreated, "project.created"),
    (.projectUpdated, "project.updated"),
    (.projectDeleted, "project.deleted"),
    (.planChangedDemo, "plan.changed_demo"),
    (.apiKeyCreated, "api_key.created"),
    (.apiKeyRevoked, "api_key.revoked"),
    (.invitationCreated, "invitation.created"),
    (.invitationRevoked, "invitation.revoked"),
    (.invitationAccepted, "invitation.accepted"),
    (.membershipCreatedFromInvitation, "membership.created_from_invitation")]

/-- `TARGET_TYPE_BY_EVENT`. -/
def targetTypeByEvent : AuditEventType → AuditTargetType
  | .memberRoleChanged => .membership
  | .memberRemoved => .membership
  | .projectCreated => .project
  | .projectUpdated => .project
  | .projectDeleted => .project
  | .planChangedDemo => .plan
  | .apiKeyCreated => .apiKey
  | .apiKeyRevoked => .apiKey
  | .invitationCreated => .invitation
  | .invitationRevoked => .invitation
  | .invitationAccepted => .invitation
  | .membershipCreatedFromInvitation => .membership

def resolvePersistedEventTypes (eventType : Option AuditEventType)
    (targetType : Option AuditTargetType) : List String :=
  (publicToPersisted.filter fun entry =>
    eventType.all (entry.1 = ·) && targetType.all (targetTypeByEvent entry.1 = ·)).map Prod.snd

structure ListAuditEventsParams (K : Type) where
  organizationId : String
  limit : PageLimit
  cursor : Option (ListCursor K)
  eventTypes : List String
  actorType : Option SecurityActorType
  actorId : Option String
  targetId : Option String
  createdAfter : Option Millis
  createdBefore : Option Millis

namespace AuditRepository

def targetIdMetadataKeys : List String :=
  ["targetProjectId", "targetKeyId", "targetInvitationId", "targetMembershipId", "membershipId"]

/-- All conditions of the query but the keyset clause. -/
def conditions (params : ListAuditEventsParams K) (row : SecurityEvent K) : Bool :=
  row.organizationId = some params.organizationId &&
  params.eventTypes.contains row.eventType &&
  params.actorType.all (row.actorType = ·) &&
  (given params.actorId).all (row.userId = some ·) &&
  params.createdAfter.all (ofMillis · ≤ row.createdAt) &&
  params.createdBefore.all (row.createdAt ≤ ofMillis ·) &&
  (given params.targetId).all fun targetId =>
    targetIdMetadataKeys.any fun key => row.metadata.lookup key = some targetId

def cursorClause (cursor : Option (ListCursor K)) (row : SecurityEvent K) : Bool :=
  cursor.all fun cursor =>
    row.createdAt < ofMillis cursor.createdAtMs ||
      (row.createdAt = ofMillis cursor.createdAtMs && row.id < cursor.id)

def listAuditEvents (table : SecurityEvents K) (params : ListAuditEventsParams K) :
    List (SecurityEvent K) :=
  (newestFirst SecurityEvent.createdAt SecurityEvent.id
    (table.rows.filter fun row => conditions params row && cursorClause params.cursor row)).take
      (params.limit.value + 1)

end AuditRepository

namespace AuditService

/-- The bounds are what `new Date` makes of the given texts. -/
structure ListAuditEventsInput (K : Type) where
  organizationId : String
  limit : PageLimit
  cursor : Option (CursorText K)
  eventType : Option AuditEventType
  actorType : Option AuditActorType
  targetType : Option AuditTargetType
  actorId : Option String
  targetId : Option String
  createdAfter : Option Millis
  createdBefore : Option Millis

def decodeAuditCursor : Option (CursorText K) → Except ErrorCode (Option (ListCursor K)) :=
  decodeListCursor

def toPersistedActorType : AuditActorType → SecurityActorType
  | .user => .user
  | .apiKey => .apiKey
  | .system => .system
  | .unknown => .anonymous

/-- The parameters of the query, from a decoded cursor. -/
def queryParams (input : ListAuditEventsInput K) (cursor : Option (ListCursor K)) :
    ListAuditEventsParams K :=
  { organizationId := input.organizationId
    limit := input.limit
    cursor
    eventTypes := resolvePersistedEventTypes input.eventType input.targetType
    actorType := input.actorType.map toPersistedActorType
    actorId := input.actorId
    targetId := input.targetId
    createdAfter := input.createdAfter
    createdBefore := input.createdBefore }

def listAuditEvents (table : SecurityEvents K) (input : ListAuditEventsInput K) :
    Except ErrorCode (Page (SecurityEvent K) (CursorText K)) :=
  if (resolvePersistedEventTypes input.eventType input.targetType).isEmpty then
    .ok ⟨[], none, false⟩
  else do
    let cursor ← decodeAuditCursor input.cursor
    let records := AuditRepository.listAuditEvents table (queryParams input cursor)
    return .ofFetched input.limit.value
      (fun last => encodeCursor ⟨getTime last.createdAt, last.id⟩) records

end AuditService

/-! ## Projects -/

structure Project (K : Type) where
  id : K
  organizationId : String
  name : String
  createdByUserId : String
  deletedAt : Option Timestamp
  deletedByUserId : Option String
  createdAt : Timestamp
  updatedAt : Timestamp
  deriving DecidableEq

structure Projects (K : Type) where
  rows : List (Project K)
  nodup : (rows.map Project.id).Nodup

structure ListProjectsParams (K : Type) where
  organizationId : String
  limit : PageLimit
  cursor : Option (ListCursor K)

namespace ProjectRepository

/-- All conditions of the query but the keyset clause. -/
def conditions (organizationId : String) (row : Project K) : Bool :=
  row.organizationId = organizationId && row.deletedAt.isNone

def cursorClause (cursor : Option (ListCursor K)) (row : Project K) : Bool :=
  cursor.all fun cursor =>
    row.createdAt < ofMillis cursor.createdAtMs ||
      (row.createdAt = ofMillis cursor.createdAtMs && row.id < cursor.id)

def listActiveProjects (table : Projects K) (params : ListProjectsParams K) :
    List (Project K) :=
  (newestFirst Project.createdAt Project.id
    (table.rows.filter fun row =>
      conditions params.organizationId row && cursorClause params.cursor row)).take
        (params.limit.value + 1)

end ProjectRepository

structure ListProjectsInput (K : Type) where
  organizationId : String
  limit : PageLimit
  cursor : Option (CursorText K)

namespace ProjectService

def decodeProjectCursor : Option (CursorText K) → Except ErrorCode (Option (ListCursor K)) :=
  decodeListCursor

def listProjects (table : Projects K) (input : ListProjectsInput K) :
    Except ErrorCode (Page (Project K) (CursorText K)) := do
  let cursor ← decodeProjectCursor input.cursor
  let rows := ProjectRepository.listActiveProjects table
    { organizationId := input.organizationId, limit := input.limit, cursor }
  return .ofFetched input.limit.value
    (fun last => encodeCursor ⟨getTime last.createdAt, last.id⟩) rows

end ProjectService

/-- The list for API keys does what the list for members does. -/
def ExternalProjectsService.listProjects (table : Projects K) (input : ListProjectsInput K) :
    Except ErrorCode (Page (Project K) (CursorText K)) :=
  ProjectService.listProjects table input

end Orgistry.Model
