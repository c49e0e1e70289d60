import Orgistry.Model.Invitations

/-!
# Projects, API keys and plans

`project.repo.ts`, `api-key.repo.ts` and `plan.repo.ts` with the services over
them.  Names, display prefixes and scopes are left out, and so are the events
that a mutation records in its transaction.
-/

namespace Orgistry.Model

open ReadCommitted

/-- The `max_projects` column of `PLAN_CATALOG`. -/
def maxProjects : PlanKey → ℕ
  | .free => 3
  | .pro => 20
  | .business => 100

/-- The `max_api_keys` column of `PLAN_CATALOG`. -/
def maxApiKeys : PlanKey → ℕ
  | .free => 0
  | .pro => 5
  | .business => 25

/-- The `api_keys_access` column of `PLAN_CATALOG`. -/
def apiKeysAccess : PlanKey → Bool
  | .free => false
  | .pro => true
  | .business => true

inductive OrganizationQuotaKind
  | projects
  | apiKeys
  | members
  deriving DecidableEq

/-- The key text of `acquireOrganizationQuotaLock`. -/
def quotaLockText : OrganizationQuotaKind → Id → String
  | .projects, organizationId => "quota:projects:" ++ toString organizationId
  | .apiKeys, organizationId => "quota:api_keys:" ++ toString organizationId
  | .members, organizationId => memberQuotaLockText organizationId

/-! ## `createDbProjectRepository` -/

/-- `createdAt` is what the default of the column gives, the `now()` of the database. -/
structure CreateProjectParams where
  organizationId : Id
  createdByUserId : Id
  createdAt : ℤ

namespace ProjectRepository

/-- The predicate of the active flows. -/
def isActive (organizationId : Id) (project : ProjectRow) : Bool :=
  project.organizationId = organizationId && project.deletedAt.isNone

def createProject (cfg : Config) (params : CreateProjectParams) : Program ProjectRow :=
  transaction do
    advisoryLock (S := orgistry) .advisoryLocks
      (cfg.hashtextextended (quotaLockText .projects params.organizationId))
    match ← lockOrganizationEntitlements params.organizationId with
    | none => abortWith .planStateMissing
    | some planKey =>
        let active ← selectRows .projects (isActive params.organizationId)
        if evaluateCountQuota active.length (maxProjects planKey) = .exceeded then
          abortWith .quotaExceeded
        else
          insertRow .projects fun id =>
            { id, organizationId := params.organizationId,
              createdByUserId := params.createdByUserId, deletedAt := none,
              createdAt := params.createdAt }

def softDeleteProject (organizationId projectId : Id) : Program Unit := transaction do
  match ← selectOneForUpdate .projects fun (project : ProjectRow) =>
      isActive organizationId project && project.id = projectId with
  | none => abortWith .projectNotFound
  | some (target : ProjectRow) =>
      let now ← clock
      let _ ← updateRows .projects (fun (project : ProjectRow) => project.id = target.id)
        (assign fun (project : ProjectRow) => { project with deletedAt := some now })

end ProjectRepository

/-! ## `createDbApiKeyRepository` -/

structure CreateApiKeyParams where
  organizationId : Id
  secretHash : TokenHash
  expiresAt : Option ℕ
  createdByUserId : Id
  now : ℕ

namespace ApiKeyRepository

/-- Not revoked, and not expired at `now`. -/
def isActive (organizationId : Id) (now : ℕ) (key : ApiKeyRow) : Bool :=
  key.organizationId = organizationId && key.revokedAt.isNone &&
    key.expiresAt.all fun expiresAt => now < expiresAt

def createApiKey (cfg : Config) (params : CreateApiKeyParams) : Program ApiKeyRow :=
  transaction do
    advisoryLock (S := orgistry) .advisoryLocks
      (cfg.hashtextextended (quotaLockText .apiKeys params.organizationId))
    match ← lockOrganizationEntitlements params.organizationId with
    | none => abortWith .planStateMissing
    | some planKey =>
        if apiKeysAccess planKey then
          let active ← selectRows .apiKeys (isActive params.organizationId params.now)
          if evaluateCountQuota active.length (maxApiKeys planKey) = .exceeded then
            abortWith .quotaExceeded
          else
            insertRow .apiKeys fun id =>
              { id, organizationId := params.organizationId, secretHash := params.secretHash,
                expiresAt := params.expiresAt, revokedAt := none,
                createdByUserId := params.createdByUserId }
        else abortWith .entitlementRequired

/-- The answer says whether the key had been revoked before. -/
def revokeApiKey (organizationId apiKeyId : Id) : Program Bool := transaction do
  match ← selectOneForUpdate .apiKeys fun (key : ApiKeyRow) =>
      key.organizationId = organizationId && key.id = apiKeyId with
  | none => abortWith .apiKeyNotFound
  | some (target : ApiKeyRow) =>
      if target.revokedAt.isSome then return true
      else
        let now ← clock
        let _ ← updateRows .apiKeys (fun (key : ApiKeyRow) => key.id = target.id)
          (assign fun (key : ApiKeyRow) => { key with revokedAt := some now })
        return false

end ApiKeyRepository

/-! ## `createDbEntitlementRepository` -/

/-- The answer is the previous plan. -/
def EntitlementRepository.changeOrganizationPlan (organizationId : Id)
    (targetPlanKey : PlanKey) : Program PlanKey := transaction do
  match ← selectOneForUpdate .organizationPlans fun (plan : OrganizationPlan) =>
      plan.organizationId = organizationId with
  | none => abortWith .planStateMissing
  | some (current : OrganizationPlan) =>
      let _ ← updateRows .organizationPlans (fun (plan : OrganizationPlan) => plan.id = current.id)
        (assign fun (plan : OrganizationPlan) => { plan with planKey := targetPlanKey })
      return current.planKey

namespace ProjectService

def createProject (cfg : Config) (accessToken : Option AccessClaims) (organizationId : Id)
    (createdAt : ℤ) : Program ProjectRow := do
  let actor ← OrganizationService.authorize accessToken organizationId .projectsCreate
  ProjectRepository.createProject cfg
    { organizationId := actor.organizationId, createdByUserId := actor.userId, createdAt }

def deleteProject (accessToken : Option AccessClaims) (organizationId projectId : Id) :
    Program Unit := do
  let actor ← OrganizationService.authorize accessToken organizationId .projectsDelete
  ProjectRepository.softDeleteProject actor.organizationId projectId

end ProjectService

namespace ApiKeyService

/-- `requireApiKeysAccess` of the entitlement service. -/
def requireApiKeysAccess (organizationId : Id) : Program Unit := do
  match ← InvitationService.findPlanKey organizationId with
  | none => abortWith .planStateMissing
  | some planKey =>
      if apiKeysAccess planKey then return else abortWith .entitlementRequired

structure CreateApiKeyInput where
  organizationId : Id
  expiresAt : Option ℕ
  secretHash : TokenHash
  deriving DecidableEq

def createApiKey (cfg : Config) (accessToken : Option AccessClaims)
    (input : CreateApiKeyInput) : Program ApiKeyRow := do
  let actor ← OrganizationService.authorize accessToken input.organizationId .apiKeysCreate
  requireApiKeysAccess actor.organizationId
  let now ← clock
  ApiKeyRepository.createApiKey cfg
    { organizationId := actor.organizationId, secretHash := input.secretHash,
      expiresAt := input.expiresAt, createdByUserId := actor.userId, now }

def revokeApiKey (accessToken : Option AccessClaims) (organizationId apiKeyId : Id) :
    Program Bool := do
  let actor ← OrganizationService.authorize accessToken organizationId .apiKeysRevoke
  requireApiKeysAccess actor.organizationId
  ApiKeyRepository.revokeApiKey actor.organizationId apiKeyId

end ApiKeyService

def PlanService.changeDemoPlan (accessToken : Option AccessClaims) (organizationId : Id)
    (targetPlanKey : PlanKey) : Program PlanKey := do
  let actor ← OrganizationService.authorize accessToken organizationId .planChangeDemo
  EntitlementRepository.changeOrganizationPlan actor.organizationId targetPlanKey

end Orgistry.Model
