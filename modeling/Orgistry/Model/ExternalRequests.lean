import Orgistry.Model.Listing
import Orgistry.Model.Server

/-!
# Requests with API keys

`api-key.authenticator.ts` and `external-projects.service.ts` beside the other requests, on
the shared database.  The hash of the presented secret is given; limits, events, scopes and
the last use of a key have no columns here.
-/

namespace Orgistry.Model

open Keyset ReadCommitted

namespace ApiKeyAuthenticator

inductive Refusal
  | unauthorized
  | entitlementRequired
  deriving DecidableEq

/-- `authenticate` from the look-up of the key on. -/
def authenticateKey (secretHash : TokenHash) : Program (Except Refusal ApiKeyRow) := do
  match ← selectOne .apiKeys fun (key : ApiKeyRow) => key.secretHash = secretHash with
  | none => return .error .unauthorized
  | some (key : ApiKeyRow) =>
      let now ← clock
      if key.revokedAt.isSome || key.expiresAt.any (· ≤ now) then return .error .unauthorized
      else match ← selectOne .organizations fun (organization : Organization) =>
          organization.id = key.organizationId with
      | none => return .error .unauthorized
      | some (organization : Organization) =>
          if organization.status = .active then
            match ← selectOne .organizationPlans fun (plan : OrganizationPlan) =>
                plan.organizationId = key.organizationId with
            | none => abortWith .planStateMissing
            | some (plan : OrganizationPlan) =>
                if apiKeysAccess plan.planKey then return .ok key
                else return .error .entitlementRequired
          else return .error .unauthorized

end ApiKeyAuthenticator

open ApiKeyAuthenticator

/-- A request with an API key for a page of projects. -/
structure ExternalRequest where
  secretHash : TokenHash
  limit : PageLimit
  cursor : Option (CursorText Id)

abbrev ProjectPage := Page ProjectRow (CursorText Id)

abbrev ExternalAnswer := Except Refusal ProjectPage

namespace ExternalProjects

/-- The undeleted projects of the organization behind the cursor. -/
def isListed (organizationId : Id) (cursor : Option (ListCursor Id)) (project : ProjectRow) :
    Bool :=
  project.organizationId = organizationId && project.deletedAt.isNone &&
    cursor.all fun cursor =>
      project.createdAt < ofMillis cursor.createdAtMs ||
        (project.createdAt = ofMillis cursor.createdAtMs && project.id < cursor.id)

def listActiveProjects (organizationId : Id) (limit : PageLimit)
    (cursor : Option (ListCursor Id)) : Program (List ProjectRow) := do
  let rows ← selectRows .projects (isListed organizationId cursor)
  return (newestFirst ProjectRow.createdAt ProjectRow.id rows).take (limit.value + 1)

/-- The cursor of the next page. -/
def cursorOf (last : ProjectRow) : CursorText Id := encodeCursor ⟨getTime last.createdAt, last.id⟩

def listProjects (organizationId : Id) (limit : PageLimit) (cursor : Option (CursorText Id)) :
    Program ProjectPage := do
  match decodeListCursor cursor with
  | .error code => abortWith code
  | .ok cursor =>
      let rows ← listActiveProjects organizationId limit cursor
      return .ofFetched limit.value cursorOf rows

end ExternalProjects

/-- `authenticate` and then `listProjects` for the organization of the key. -/
def listExternalProjects (request : ExternalRequest) : Program ExternalAnswer := do
  match ← authenticateKey request.secretHash with
  | .error refusal => return .error refusal
  | .ok key =>
      return .ok (← ExternalProjects.listProjects key.organizationId request.limit request.cursor)

/-- Requests of either kind. -/
def serveAll (cfg : Config) (request : ℕ) :
    Request ⊕ ExternalRequest → Program (Answer ⊕ ExternalAnswer)
  | .inl r => do
      return .inl (← serve cfg request r)
  | .inr external => do
      return .inr (← listExternalProjects external)

end Orgistry.Model
