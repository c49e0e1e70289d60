import Orgistry.Repositories.Operations

/-!
# Changing the plan

`changeOrganizationPlan` of `plan.repo.ts`, run by itself.  Of the row of a plan only the
columns that something here reads are modelled.
-/

namespace Orgistry.Repositories.PlanRepository

open Model Noninterference

variable {K : Type} [LinearOrder K]

/-- `PLAN_KEYS`. -/
def planKeyText : PlanKey → String
  | .free => "free"
  | .pro => "pro"
  | .business => "business"

structure ChangeOrganizationPlanParams where
  targetPlanKey : PlanKey
  actorUserId : String
  actorMembershipId : String
  requestId : Option String

structure ChangeOrganizationPlanResult where
  previousPlanKey : PlanKey
  planState : OrganizationPlanRow
  deriving DecidableEq

def changedMetadata (params : ChangeOrganizationPlanParams) (previousPlanKey : PlanKey) :
    List (String × MetadataValue) :=
  [("actorMembershipId", .text params.actorMembershipId),
    ("targetType", .text "organization_plan"),
    ("previousPlanKey", .text (planKeyText previousPlanKey)),
    ("newPlanKey", .text (planKeyText params.targetPlanKey))]

def changeOrganizationPlan (env : Environment K) (organizationId : String)
    (params : ChangeOrganizationPlanParams) : Operation K ChangeOrganizationPlanResult := do
  match ← find (C := catalog K) .organizationPlans fun (row : OrganizationPlanRow) =>
      row.organizationId = organizationId with
  | none => throw planStateMissingError
  | some (current : OrganizationPlanRow) =>
      updateById .organizationPlans (fun (row : OrganizationPlanRow) => row.id = current.id)
        fun (row : OrganizationPlanRow) => { row with planKey := params.targetPlanKey }
      recordEvent env organizationId "plan.changed_demo"
        (changedMetadata params current.planKey) params.actorUserId params.requestId
      return ⟨current.planKey, { current with planKey := params.targetPlanKey }⟩

end Orgistry.Repositories.PlanRepository
