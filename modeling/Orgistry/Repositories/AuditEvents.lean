import Orgistry.Access.Metadata
import Orgistry.Repositories.Operations
import Orgistry.Text.Utf16

/-!
# Audit events

`audit.mapper.ts` and the names of `audit.catalog.ts`, and what becomes of the metadata
of an event between its recording and the reader.
-/

namespace Orgistry.Repositories

open Keyset Model SecurityMetadata Text

def ApiKeyScope.text : ApiKeyScope → String
  | .projectsRead => "projects:read"

/-- A recorded value as the sanitizer gets it. -/
def MetadataValue.raw : MetadataValue → Value Empty
  | .text value => .string (encodeUtf16 value)
  | .scopes value => .array (value.map fun scope => .string (encodeUtf16 scope.text))

/-- A value of a list in the column.  What is recorded are lists of texts. -/
def elementText : Value Empty → String
  | .string text => "\"" ++ decodeUtf16 text ++ "\""
  | .array _ | .object _ => ""

/-- `metadata ->> key`, for texts and lists of texts. -/
def columnText : Value Empty → String
  | .string text => decodeUtf16 text
  | .array items => "[" ++ ", ".intercalate (items.map elementText) ++ "]"
  | .object _ => ""

/-- The metadata column of an event, after `sanitizeSecurityMetadata`. -/
def storedMetadata (unicode : UnicodeStrings) (metadata : List (String × MetadataValue)) :
    List (String × String) :=
  (sanitizeSecurityMetadata unicode.toLowerCase
    (metadata.map fun entry => (encodeUtf16 entry.1, entry.2.raw))).map fun entry =>
      (decodeUtf16 entry.1, columnText entry.2)

/-- `AUDIT_EVENT_TYPES`. -/
def AuditEventType.name : AuditEventType → String
  | .memberRoleChanged => "member.role_changed"
  | .memberRemoved => "member.removed"
  | .projectCreated => "project.created"
  | .projectUpdated => "project.updated"
  | .projectDeleted => "project.deleted"
  | .planChangedDemo => "plan.changed_demo"
  | .apiKeyCreated => "api_key.created"
  | .apiKeyRevoked => "api_key.revoked"
  | .invitationCreated => "invitation.created"
  | .invitationRevoked => "invitation.revoked"
  | .invitationAccepted => "invitation.accepted"
  | .membershipCreatedFromInvitation => "membership.created_from_invitation"

def toPublicEventType (persisted : String) : Option String :=
  (publicToPersisted.find? fun entry => entry.2 = persisted).map fun entry =>
    AuditEventType.name entry.1

def targetTypeForEvent (publicType : String) : AuditTargetType :=
  ((publicToPersisted.find? fun entry => AuditEventType.name entry.1 = publicType).map
    fun entry => targetTypeByEvent entry.1).getD .unknown

/-- The label of an actor is always `null`. -/
structure AuditActorSummary where
  type : AuditActorType
  userId : Option String
  membershipId : Option String
  apiKeyId : Option String
  deriving DecidableEq

structure AuditTargetSummary where
  type : AuditTargetType
  id : Option String
  label : Option String
  deriving DecidableEq

/-- The category of an event is always `action`. -/
structure AuditEvent (K : Type) where
  id : K
  organizationId : String
  type : String
  actor : AuditActorSummary
  target : AuditTargetSummary
  metadata : List (String × String)
  requestId : Option String
  createdAt : Millis
  deriving DecidableEq

def readString (metadata : List (String × String)) (key : String) : Option String :=
  metadata.lookup key

def toPublicActorType : SecurityActorType → AuditActorType
  | .user => .user
  | .apiKey => .apiKey
  | .system => .system
  | .anonymous => .unknown

variable {K : Type}

def toActorSummary (record : SecurityEvent K) (metadata : List (String × String)) :
    AuditActorSummary :=
  match toPublicActorType record.actorType with
  | .user => ⟨.user, record.userId, readString metadata "actorMembershipId", none⟩
  | .apiKey => ⟨.apiKey, none, none, readString metadata "targetKeyId"⟩
  | type => ⟨type, none, none, none⟩

def targetIdFor (targetType : AuditTargetType) (metadata : List (String × String)) :
    Option String :=
  match targetType with
  | .project => readString metadata "targetProjectId"
  | .apiKey => readString metadata "targetKeyId"
  | .invitation => readString metadata "targetInvitationId"
  | .membership =>
      (readString metadata "targetMembershipId").or (readString metadata "membershipId")
  | .plan | .organization | .unknown => none

def toTargetSummary (publicType : String) (metadata : List (String × String)) :
    AuditTargetSummary :=
  let targetType := targetTypeForEvent publicType
  ⟨targetType, targetIdFor targetType metadata,
    if targetType = .plan then readString metadata "newPlanKey" else none⟩

/-- Every value is sanitized again as the text that it is in the column. -/
def toAuditEvent (unicode : UnicodeStrings) (record : SecurityEvent K) (organizationId : String) :
    AuditEvent K :=
  let metadata := storedMetadata unicode
    (record.metadata.map fun entry => (entry.1, .text entry.2))
  let publicType := (toPublicEventType record.eventType).getD record.eventType
  { id := record.id, organizationId, type := publicType, actor := toActorSummary record metadata,
    target := toTargetSummary publicType metadata, metadata, requestId := record.requestId,
    createdAt := getTime record.createdAt }

variable {unicode : UnicodeStrings} {metadata : List (String × MetadataValue)} {key : String}

/-- The sanitizer lets the key stay. -/
abbrev Survives (unicode : UnicodeStrings) (key : String) : Prop :=
  Stays unicode.toLowerCase (encodeUtf16 key)

/-- The text is not truncated. -/
abbrev Untruncated (text : String) : Prop := (encodeUtf16 text).length ≤ maxStringLength

/-- A field that survives the sanitizer is found under its own name. -/
theorem lookup_sanitizeObject (hkey : Survives unicode key) (depth : ℕ) :
    ∀ metadata : List (String × MetadataValue),
      ((sanitizeObject unicode.toLowerCase depth
        (metadata.map fun entry => (encodeUtf16 entry.1, entry.2.raw))).map fun entry =>
          (decodeUtf16 entry.1, columnText entry.2)).lookup key =
        (metadata.lookup key).map fun value =>
          columnText (sanitizeValue unicode.toLowerCase depth value.raw)
  | [] => rfl
  | (other, value) :: metadata => by
      have ih := lookup_sanitizeObject hkey depth metadata
      rw [List.map_cons, sanitizeObject, List.lookup_cons]
      by_cases heq : key = other
      · subst heq
        rw [if_neg (by rw [hkey.1]; exact Bool.false_ne_true), if_neg hkey.2, List.map_cons,
          List.lookup_cons, decodeUtf16_encodeUtf16]
        simp
      · have hne : (key == other) = false := beq_eq_false_iff_ne.mpr heq
        rw [hne]
        split
        · exact ih
        · split
          · exact ih
          · rw [List.map_cons, List.lookup_cons, decodeUtf16_encodeUtf16, hne]
            exact ih

/-- What is found under a key that stays is the value that was recorded. -/
theorem lookup_storedMetadata (hkey : Survives unicode key) {text : String}
    (hvalue : metadata.lookup key = some (.text text)) (htext : Untruncated text) :
    (storedMetadata unicode metadata).lookup key = some text := by
  rw [storedMetadata, sanitizeSecurityMetadata, lookup_sanitizeObject hkey, hvalue]
  have hstring : sanitizeString (encodeUtf16 text) = encodeUtf16 text :=
    sanitizeString_of_short (.inl htext)
  change some (columnText (sanitizeValue _ 1 (.string (encodeUtf16 text)))) = _
  rw [sanitizeValue, if_neg (by decide), hstring, columnText, decodeUtf16_encodeUtf16]

theorem lookup_storedMetadata_none (hkey : Survives unicode key)
    (hvalue : metadata.lookup key = none) :
    (storedMetadata unicode metadata).lookup key = none := by
  rw [storedMetadata, sanitizeSecurityMetadata, lookup_sanitizeObject hkey, hvalue]
  rfl

theorem lookup_texts (metadata : List (String × String)) (key : String) :
    (metadata.map fun entry => (entry.1, MetadataValue.text entry.2)).lookup key =
      (metadata.lookup key).map .text := by
  induction metadata with
  | nil => rfl
  | cons entry metadata ih =>
      rw [List.map_cons, List.lookup_cons, List.lookup_cons, ih]
      split <;> rfl

/-- The sanitizer lets the key stay, decided for keys of ASCII. -/
def passes (key : String) : Bool :=
  (encodeUtf16 key).all (fun unit => unit < 128) &&
    !isForbiddenKey (List.map asciiLower) (encodeUtf16 key) &&
    encodeUtf16 key != codeUnits "__proto__"

theorem survives_of_passes (h : passes key) : Survives unicode key := by
  rw [passes, Bool.and_eq_true, Bool.and_eq_true, List.all_eq_true, Bool.not_eq_true',
    bne_iff_ne] at h
  have hlower : unicode.toLowerCase (encodeUtf16 key) = (encodeUtf16 key).map asciiLower :=
    unicode.toLowerCase_ascii _ fun unit hunit => of_decide_eq_true (h.1.1 unit hunit)
  refine ⟨?_, h.2⟩
  rw [isForbiddenKey, hlower]
  exact h.1.2

/-- The metadata of an event as its reader gets it. -/
def readable (unicode : UnicodeStrings) (metadata : List (String × MetadataValue)) :
    List (String × String) :=
  storedMetadata unicode
    ((storedMetadata unicode metadata).map fun entry => (entry.1, .text entry.2))

theorem readString_readable (hkey : passes key) {text : String}
    (hvalue : metadata.lookup key = some (.text text)) (htext : Untruncated text) :
    readString (readable unicode metadata) key = some text := by
  refine lookup_storedMetadata (survives_of_passes hkey) ?_ htext
  rw [lookup_texts, lookup_storedMetadata (survives_of_passes hkey) hvalue htext]
  rfl

theorem readString_readable_none (hkey : passes key) (hvalue : metadata.lookup key = none) :
    readString (readable unicode metadata) key = none := by
  refine lookup_storedMetadata_none (survives_of_passes hkey) ?_
  rw [lookup_texts, lookup_storedMetadata_none (survives_of_passes hkey) hvalue]
  rfl

/-- The type of an event fixes the kind of its target. -/
theorem targetTypeForEvent_name (type : AuditEventType) :
    targetTypeForEvent (AuditEventType.name type) = targetTypeByEvent type := by
  cases type <;> decide

end Orgistry.Repositories
