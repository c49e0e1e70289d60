import Orgistry.Keyset.Traversal
import Orgistry.Model.Listing
import Orgistry.Numbers.Doubles
import Orgistry.Text.JsonNumbers
import Orgistry.Text.Utf8

/-!
# Cursors of the list endpoints

`cursor.ts`, the decoding of a cursor in every list service, and what the request is answered
with.  The gates before a list and the shape of the answered items are left out.
-/

namespace Orgistry.Model.ListCursors

open Text Keyset Numbers

/-- The number of a JSON literal, and nothing for an infinite one. -/
def numberOf : List Char → Option ℚ
  | '-' :: literal => (double (Json.magnitude literal)).map (-·)
  | literal => double (Json.magnitude literal)

/-- `new Date` of a number: its time value, and nothing for an invalid date. -/
def newDate (value : Option ℚ) : Option Millis :=
  value.bind fun value =>
    if |value| ≤ 8640000000000000 then some (if 0 ≤ value then ⌊value⌋ else ⌈value⌉) else none

inductive Thrown
  | app (code : String) (statusCode : ℕ) (message : String)
  | zod
  | other
  deriving DecidableEq

inductive Response (Row : Type)
  | page (page : Page Row (List Char))
  | error (statusCode : ℕ) (code message : String)

/-- The handler of `registerErrorHandler`, and `sendSuccess`. -/
def respond {Row : Type} : Except Thrown (Page Row (List Char)) → Response Row
  | .ok page => .page page
  | .error (.app code statusCode message) => .error statusCode code message
  | .error .zod => .error 400 "VALIDATION_ERROR" "Request validation failed."
  | .error .other => .error 500 "INTERNAL_ERROR" "An unexpected error occurred."

def integerText (n : ℤ) : List Char :=
  if 0 ≤ n then Json.decimal n.toNat else '-' :: Json.decimal (-n).toNat

/-- `encodeCursor` of a payload `{ c, i }`. -/
def encodeCursor (c : Millis) (i : List Char) : List Char :=
  encodeBase64Url <| encodeUtf8 <|
    "\x7b\"c\":".toList ++ integerText c ++ ",\"i\":".toList ++ Json.quote i ++ "\x7d".toList

def decodeCursor (cursor : List Char) : Option Json :=
  Json.parse (decodeUtf8 (decodeBase64 cursor))

/-- A decoded value that `!decoded` is true of. -/
def isFalsy : Option Json → Bool
  | none => true
  | some .null => true
  | some (.bool value) => !value
  | some (.number literal) => numberOf literal = some 0
  | some (.string text) => text = []
  | some _ => false

structure Position where
  createdAtMs : Option ℚ
  id : List Char
  deriving DecidableEq

def invalidCursor : Thrown := .app "BAD_REQUEST" 400 "Invalid cursor."

/-- What every service does with its cursor. -/
def decodeListCursor : Option (List Char) → Except Thrown (Option Position)
  | none => .ok none
  | some [] => .ok none
  | some cursor =>
      let decoded := decodeCursor cursor
      if isFalsy decoded then .error invalidCursor
      else
        match Json.get decoded "c", Json.get decoded "i" with
        | some (.number c), some (.string i) => .ok (some ⟨numberOf c, i⟩)
        | _, _ => .error invalidCursor

def decodeProjectCursor := decodeListCursor

def decodeExternalCursor := decodeListCursor

def decodeAuditCursor := decodeListCursor

def decodeApiKeyCursor := decodeListCursor

def decodeInvitationCursor := decodeListCursor

def decodeMemberCursor := decodeListCursor

inductive Endpoint
  | listProjects
  | listExternalProjects
  | listAuditEvents (eventType : Option AuditEventType) (targetType : Option AuditTargetType)
  | listApiKeys
  | listInvitations
  | listMembers
  | listOrganizations
  | listSessions

def Endpoint.decode : Endpoint → Option (List Char) → Except Thrown (Option Position)
  | .listProjects => decodeProjectCursor
  | .listExternalProjects => decodeExternalCursor
  | .listAuditEvents _ _ => decodeAuditCursor
  | .listApiKeys => decodeApiKeyCursor
  | .listInvitations => decodeInvitationCursor
  | .listMembers => decodeMemberCursor
  | .listOrganizations => decodeListCursor
  | .listSessions => decodeListCursor

/-- The audit log has an empty page, and makes no query, where the filters select no event. -/
def Endpoint.selectsNothing : Endpoint → Bool
  | .listAuditEvents eventType targetType =>
      (resolvePersistedEventTypes eventType targetType).isEmpty
  | _ => false

/-- A list, and what its query comes to with a `Date` and an id from a cursor: an invalid date
is nothing, and so is a query that throws. -/
structure Listing (Row : Type) where
  createdAt : Row → Timestamp
  id : Row → List Char
  select : Option (Option Millis × List Char) → PageLimit → Option (List Row)

variable {Row : Type}

/-- The query of a repository. -/
def Listing.query (listing : Listing Row) (limit : PageLimit) (cursor : Option Position) :
    Except Thrown (List Row) :=
  match listing.select (cursor.map fun cursor => (newDate cursor.createdAtMs, cursor.id)) limit with
  | none => .error .other
  | some rows => .ok rows

/-- The list function of an endpoint's service. -/
def Endpoint.list (endpoint : Endpoint) (listing : Listing Row) (limit : PageLimit)
    (cursor : Option (List Char)) : Except Thrown (Page Row (List Char)) :=
  if endpoint.selectsNothing then .ok ⟨[], none, false⟩
  else do
    let cursor ← endpoint.decode cursor
    let rows ← listing.query limit cursor
    return .ofFetched limit.value
      (fun last => encodeCursor (getTime (listing.createdAt last)) (listing.id last)) rows

/-- The parameter `cursor` in `cursorPageParamsSchema`. -/
def parseCursorParam (cursor : Option (List Char)) : Except Thrown (Option (List Char)) :=
  if cursor = some [] then .error .zod else .ok cursor

/-- The handler of an endpoint's route. -/
def Endpoint.handle (endpoint : Endpoint) (listing : Listing Row) (limit : PageLimit)
    (cursor : Option (List Char)) : Response Row :=
  respond <| do
    let cursor ← parseCursorParam cursor
    endpoint.list listing limit cursor

end Orgistry.Model.ListCursors
