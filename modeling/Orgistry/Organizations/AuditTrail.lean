import Orgistry.Noninterference.Effects
import Orgistry.Noninterference.Views
import Orgistry.Organizations.TenantIsolation
import Orgistry.Repositories.Acceptance
import Orgistry.Repositories.AuditEvents
import Orgistry.Repositories.Plans

/-!
# The audit log tells the state

Whatever requests change in an organization, its audit log accounts for it: what the
organization has afterwards is what it had before, amended by what the public events
that were recorded in between say.
-/

namespace Orgistry.Repositories.AuditTrail

open Keyset Model Noninterference Text

variable {K : Type} [LinearOrder K]

structure ProjectStanding where
  name : String
  deleted : Bool
  deriving DecidableEq

structure KeyStanding where
  displayPrefix : String
  revoked : Bool
  deriving DecidableEq

/-- A pending invitation and one that has been swept as expired are both unsettled. -/
inductive Outcome
  | unsettled
  | accepted
  | revoked
  deriving DecidableEq

structure InvitationStanding where
  email : String
  roleId : String
  outcome : Outcome
  deriving DecidableEq

structure MemberStanding where
  userId : String
  roleId : String
  removed : Bool
  deriving DecidableEq

/-- What an organization has, by ids. -/
structure Standing where
  projects : String → Option ProjectStanding
  apiKeys : String → Option KeyStanding
  invitations : String → Option InvitationStanding
  members : String → Option MemberStanding
  plan : Option String

def projectStanding (row : Project K) : ProjectStanding := ⟨row.name, row.deletedAt.isSome⟩

def keyStanding (row : ApiKeyRow K) : KeyStanding := ⟨row.displayPrefix, row.revokedAt.isSome⟩

def outcome : InvitationStatus → Outcome
  | .pending | .expired => .unsettled
  | .accepted => .accepted
  | .revoked => .revoked

def invitationStanding (row : InvitationRow K) : InvitationStanding :=
  ⟨row.invitedEmailNormalized, roleId row.role, outcome row.status⟩

def memberStanding (row : MembershipRow K) : MemberStanding :=
  ⟨row.userId, roleId row.role, row.status = .removed⟩

/-- Ids as text, none of which the sanitizer truncates. -/
structure Ids (K : Type) where
  text : K → String
  injective : Function.Injective text
  untruncated : ∀ id, Untruncated (text id)

/-- The rows of the organization, by the texts of their ids. -/
def standing (ids : Ids K) (organizationId : String) (s : Store (catalog K)) : Standing where
  projects := ownedView Project.organizationId (fun row => ids.text row.id) projectStanding
    organizationId (s .projects)
  apiKeys := ownedView ApiKeyRow.organizationId (fun row => ids.text row.id) keyStanding
    organizationId (s .apiKeys)
  invitations := ownedView InvitationRow.organizationId (fun row => ids.text row.id)
    invitationStanding organizationId (s .invitations)
  members := ownedView MembershipRow.organizationId (fun row => ids.text row.id) memberStanding
    organizationId (s .memberships)
  plan := ownedView OrganizationPlanRow.organizationId (fun _ => ())
    (fun row => PlanRepository.planKeyText row.planKey) organizationId (s .organizationPlans) ()

section Events

variable {Entry : Type}

/-- A new entry, when both its id and its content can be read off an event. -/
def entered (entries : String → Option Entry) (id : Option String) (entry : Option Entry) :
    String → Option Entry :=
  match id, entry with
  | some id, some entry => Function.update entries id (some entry)
  | _, _ => entries

/-- An entry that changes. -/
def amended (entries : String → Option Entry) (id : Option String) (amend : Entry → Entry) :
    String → Option Entry :=
  match id with
  | some id => Function.update entries id ((entries id).map amend)
  | none => entries

end Events

def eventTypeOf (name : String) : Option AuditEventType :=
  (publicToPersisted.find? fun entry => AuditEventType.name entry.1 = name).map Prod.fst

def Standing.applyType (standing : Standing) (type : AuditEventType) (target : AuditTargetSummary)
    (metadata : List (String × String)) : Standing :=
  match type with
  | .projectCreated =>
      { standing with
        projects := entered standing.projects target.id
          ((readString metadata "name").map fun name => ⟨name, false⟩) }
  | .projectUpdated =>
      { standing with
        projects := amended standing.projects target.id fun entry =>
          { entry with name := (readString metadata "name").getD entry.name } }
  | .projectDeleted =>
      { standing with
        projects := amended standing.projects target.id fun entry =>
          { entry with deleted := true } }
  | .apiKeyCreated =>
      { standing with
        apiKeys := entered standing.apiKeys target.id
          ((readString metadata "displayPrefix").map fun displayPrefix =>
            ⟨displayPrefix, false⟩) }
  | .apiKeyRevoked =>
      { standing with
        apiKeys := amended standing.apiKeys target.id fun entry =>
          { entry with revoked := true } }
  | .invitationCreated =>
      { standing with
        invitations := entered standing.invitations target.id do
          let email ← readString metadata "invitedEmailNormalized"
          let roleId ← readString metadata "roleId"
          return ⟨email, roleId, .unsettled⟩ }
  | .invitationRevoked =>
      { standing with
        invitations := amended standing.invitations target.id fun entry =>
          { entry with outcome := .revoked } }
  | .invitationAccepted =>
      { standing with
        invitations := amended standing.invitations target.id fun entry =>
          { entry with outcome := .accepted } }
  | .membershipCreatedFromInvitation =>
      { standing with
        members := entered standing.members target.id do
          let userId ← readString metadata "targetUserId"
          let roleId ← readString metadata "roleId"
          return ⟨userId, roleId, false⟩ }
  | .memberRoleChanged =>
      { standing with
        members := amended standing.members target.id fun entry =>
          { entry with roleId := (readString metadata "toRoleId").getD entry.roleId } }
  | .memberRemoved =>
      { standing with
        members := amended standing.members target.id fun entry =>
          { entry with removed := true } }
  | .planChangedDemo => { standing with plan := target.label.or standing.plan }

/-- What a reader of the log makes of an event. -/
def Standing.apply (standing : Standing) (event : AuditEvent K) : Standing :=
  match eventTypeOf event.type with
  | none => standing
  | some type => standing.applyType type event.target event.metadata

/-- The events of an organization that its members can read, oldest first. -/
def publicLog (unicode : UnicodeStrings) (organizationId : String)
    (events : List (SecurityEvent K)) : List (AuditEvent K) :=
  (events.filter fun event => event.organizationId = some organizationId &&
    (resolvePersistedEventTypes none none).contains event.eventType).map fun event =>
      toAuditEvent unicode event organizationId

variable {ids : Ids K} {unicode : UnicodeStrings} {env : Environment K} {standing : Standing}
  {organizationId O : String} {metadata : List (String × MetadataValue)}

/-- The row that `recordEvent` inserts. -/
def eventRow (env : Environment K) (organizationId eventType : String)
    (metadata : List (String × MetadataValue)) (actorUserId : String)
    (requestId : Option String) : SecurityEvent K :=
  { id := env.eventId, organizationId := some organizationId, eventType, actorType := .user,
    userId := some actorUserId, metadata := env.storedMetadata metadata, requestId,
    createdAt := env.now }

/-- What the event of the type says, recorded with the metadata. -/
def told (unicode : UnicodeStrings) (standing : Standing) (type : AuditEventType)
    (metadata : List (String × MetadataValue)) : Standing :=
  standing.applyType type (toTargetSummary (AuditEventType.name type) (readable unicode metadata))
    (readable unicode metadata)

omit [LinearOrder K] in
theorem publicLog_append (unicode : UnicodeStrings) (organizationId : String)
    (events more : List (SecurityEvent K)) :
    publicLog unicode organizationId (events ++ more) =
      publicLog unicode organizationId events ++ publicLog unicode organizationId more := by
  rw [publicLog, List.filter_append, List.map_append]
  rfl

theorem eventTypeOf_name (type : AuditEventType) :
    eventTypeOf (AuditEventType.name type) = some type := by
  cases type <;> decide

/-- The name under which events of the type are persisted. -/
def Persists (type : AuditEventType) (eventType : String) : Prop :=
  toPublicEventType eventType = some (AuditEventType.name type) ∧
    (resolvePersistedEventTypes none none).contains eventType = true

instance (type : AuditEventType) (eventType : String) : Decidable (Persists type eventType) :=
  inferInstanceAs (Decidable (_ ∧ _))

omit [LinearOrder K] in
/-- Only the organization of the event reads of it. -/
theorem foldl_publicLog_eventRow (henv : env.storedMetadata = storedMetadata unicode)
    {type : AuditEventType} {eventType : String} (htype : Persists type eventType)
    (actorUserId : String) (requestId : Option String) :
    (publicLog unicode O
      [eventRow env organizationId eventType metadata actorUserId requestId]).foldl
        Standing.apply standing =
      if organizationId = O then told unicode standing type metadata else standing := by
  by_cases horganization : organizationId = O
  · subst horganization
    rw [publicLog, List.filter_cons_of_pos, if_pos rfl]
    · change standing.apply (toAuditEvent unicode _ _) = _
      rw [Standing.apply, toAuditEvent]
      simp only [eventRow, htype.1, Option.getD_some, eventTypeOf_name, henv]
      rfl
    · rw [eventRow, htype.2]
      simp
  · rw [publicLog, List.filter_cons_of_neg, if_neg horganization]
    · rfl
    · simp [eventRow, horganization]

/-- The metadata that every recorder puts before the target. -/
theorem lookup_after_actor {key : String} (hkey : key ≠ "actorMembershipId")
    (actorMembershipId : Option String) (rest : List (String × MetadataValue)) :
    ((actorMembershipId.toList.map fun id => ("actorMembershipId", MetadataValue.text id)) ++
      rest).lookup key = rest.lookup key := by
  cases actorMembershipId with
  | none => rfl
  | some id =>
      have hne : (key == "actorMembershipId") = false := beq_eq_false_iff_ne.mpr hkey
      rw [Option.toList_some, List.map_singleton, List.singleton_append, List.lookup_cons, hne]

/-- The metadata has the text under the key, and nothing of it is truncated. -/
structure Tells (metadata : List (String × MetadataValue)) (key text : String) : Prop where
  lookup : metadata.lookup key = some (.text text)
  untruncated : Untruncated text

theorem Tells.read {key text : String} (h : Tells metadata key text) (hkey : passes key) :
    readString (readable unicode metadata) key = some text :=
  readString_readable hkey h.lookup h.untruncated

theorem Tells.after_actor {key text : String} (h : Tells metadata key text)
    (hkey : key ≠ "actorMembershipId") (actorMembershipId : Option String) :
    Tells ((actorMembershipId.toList.map fun id => ("actorMembershipId", MetadataValue.text id)) ++
      metadata) key text :=
  ⟨(lookup_after_actor hkey actorMembershipId metadata).trans h.lookup, h.untruncated⟩

theorem Tells.about_target {key text : String} {target : List (String × MetadataValue)}
    (h : Tells (target ++ metadata) key text) (hkey : key ≠ "actorMembershipId")
    (actorMembershipId : Option String) :
    Tells ((actorMembershipId.toList.map fun id => ("actorMembershipId", MetadataValue.text id)) ++
      target ++ metadata) key text := by
  rw [List.append_assoc]
  exact h.after_actor hkey actorMembershipId

theorem told_eq (type : AuditEventType) :
    told unicode standing type metadata =
      standing.applyType type
        ⟨targetTypeByEvent type, targetIdFor (targetTypeByEvent type) (readable unicode metadata),
          if targetTypeByEvent type = .plan then
            readString (readable unicode metadata) "newPlanKey"
          else none⟩ (readable unicode metadata) := by
  rw [told, toTargetSummary, targetTypeForEvent_name]

section Types

variable {id name email role userId : String}

theorem told_projectCreated (hid : Tells metadata "targetProjectId" id)
    (hname : Tells metadata "name" name) :
    told unicode standing .projectCreated metadata =
      { standing with
        projects := Function.update standing.projects id (some ⟨name, false⟩) } := by
  rw [told_eq, Standing.applyType, targetTypeByEvent, targetIdFor, hid.read (by decide),
    hname.read (by decide)]
  rfl

theorem told_projectUpdated (hid : Tells metadata "targetProjectId" id)
    (hname : Tells metadata "name" name) :
    told unicode standing .projectUpdated metadata =
      { standing with
        projects := Function.update standing.projects id
          ((standing.projects id).map fun entry => { entry with name := name }) } := by
  rw [told_eq, Standing.applyType, targetTypeByEvent, targetIdFor, hid.read (by decide),
    hname.read (by decide)]
  rfl

theorem told_projectDeleted (hid : Tells metadata "targetProjectId" id) :
    told unicode standing .projectDeleted metadata =
      { standing with
        projects := Function.update standing.projects id
          ((standing.projects id).map fun entry => { entry with deleted := true }) } := by
  rw [told_eq, Standing.applyType, targetTypeByEvent, targetIdFor, hid.read (by decide)]
  rfl

theorem told_apiKeyCreated (hid : Tells metadata "targetKeyId" id)
    (hname : Tells metadata "displayPrefix" name) :
    told unicode standing .apiKeyCreated metadata =
      { standing with
        apiKeys := Function.update standing.apiKeys id (some ⟨name, false⟩) } := by
  rw [told_eq, Standing.applyType, targetTypeByEvent, targetIdFor, hid.read (by decide),
    hname.read (by decide)]
  rfl

theorem told_apiKeyRevoked (hid : Tells metadata "targetKeyId" id) :
    told unicode standing .apiKeyRevoked metadata =
      { standing with
        apiKeys := Function.update standing.apiKeys id
          ((standing.apiKeys id).map fun entry => { entry with revoked := true }) } := by
  rw [told_eq, Standing.applyType, targetTypeByEvent, targetIdFor, hid.read (by decide)]
  rfl

theorem told_invitationCreated (hid : Tells metadata "targetInvitationId" id)
    (hemail : Tells metadata "invitedEmailNormalized" email)
    (hrole : Tells metadata "roleId" role) :
    told unicode standing .invitationCreated metadata =
      { standing with
        invitations :=
          Function.update standing.invitations id (some ⟨email, role, .unsettled⟩) } := by
  rw [told_eq, Standing.applyType, targetTypeByEvent, targetIdFor, hid.read (by decide),
    hemail.read (by decide), hrole.read (by decide)]
  rfl

theorem told_invitationRevoked (hid : Tells metadata "targetInvitationId" id) :
    told unicode standing .invitationRevoked metadata =
      { standing with
        invitations := Function.update standing.invitations id
          ((standing.invitations id).map fun entry => { entry with outcome := .revoked }) } := by
  rw [told_eq, Standing.applyType, targetTypeByEvent, targetIdFor, hid.read (by decide)]
  rfl

theorem told_invitationAccepted (hid : Tells metadata "targetInvitationId" id) :
    told unicode standing .invitationAccepted metadata =
      { standing with
        invitations := Function.update standing.invitations id
          ((standing.invitations id).map fun entry => { entry with outcome := .accepted }) } := by
  rw [told_eq, Standing.applyType, targetTypeByEvent, targetIdFor, hid.read (by decide)]
  rfl

theorem told_membershipCreatedFromInvitation (hid : Tells metadata "targetMembershipId" id)
    (huser : Tells metadata "targetUserId" userId) (hrole : Tells metadata "roleId" role) :
    told unicode standing .membershipCreatedFromInvitation metadata =
      { standing with
        members := Function.update standing.members id (some ⟨userId, role, false⟩) } := by
  rw [told_eq, Standing.applyType, targetTypeByEvent, targetIdFor, hid.read (by decide),
    huser.read (by decide), hrole.read (by decide)]
  rfl

theorem told_memberRoleChanged (hnone : metadata.lookup "targetMembershipId" = none)
    (hid : Tells metadata "membershipId" id) (hrole : Tells metadata "toRoleId" role) :
    told unicode standing .memberRoleChanged metadata =
      { standing with
        members := Function.update standing.members id
          ((standing.members id).map fun entry => { entry with roleId := role }) } := by
  rw [told_eq, Standing.applyType, targetTypeByEvent, targetIdFor,
    readString_readable_none (by decide) hnone, hid.read (by decide), hrole.read (by decide)]
  rfl

theorem told_memberRemoved (hnone : metadata.lookup "targetMembershipId" = none)
    (hid : Tells metadata "membershipId" id) :
    told unicode standing .memberRemoved metadata =
      { standing with
        members := Function.update standing.members id
          ((standing.members id).map fun entry => { entry with removed := true }) } := by
  rw [told_eq, Standing.applyType, targetTypeByEvent, targetIdFor,
    readString_readable_none (by decide) hnone, hid.read (by decide)]
  rfl

theorem told_planChangedDemo (hname : Tells metadata "newPlanKey" name) :
    told unicode standing .planChangedDemo metadata = { standing with plan := some name } := by
  rw [told_eq, Standing.applyType, targetTypeByEvent, if_pos rfl, hname.read (by decide)]
  rfl

end Types

end Orgistry.Repositories.AuditTrail
