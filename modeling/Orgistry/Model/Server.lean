import Orgistry.Model.Registration
import Orgistry.Model.Resources

/-!
# The requests of the API

Every modelled request with its input, and the program that the server runs for
it.
-/

namespace Orgistry.Model

open ReadCommitted

/-- Requests of clients.  Random values that the server draws for a request are
part of it. -/
inductive Request
  | login (input : AuthService.LoginInput)
  | authenticate (accessToken : Option AccessClaims)
  | refresh (presentedTokenHash successorTokenHash : TokenHash)
  | logout (rawRefreshToken : Option TokenHash)
  | revokeSession (accessToken : Option AccessClaims) (targetSessionId : Id)
  | changePassword (accessToken : Option AccessClaims) (input : AuthService.ChangePasswordInput)
  | changeEmail (accessToken : Option AccessClaims) (input : AuthService.ChangeEmailInput)
  | requestVerificationEmail (accessToken : Option AccessClaims) (tokenHash : TokenHash)
  | completeVerification (tokenHash : TokenHash)
  | requestReset (email : String) (tokenHash : TokenHash)
  | completeReset (tokenHash : TokenHash) (newPassword : String) (salt : ℕ)
  | requestRegistration (input : RegistrationService.RegistrationRequestInput)
  | completeRegistration (input : RegistrationService.RegistrationCompleteInput)
  | createTeamOrganization (accessToken : Option AccessClaims)
  | changeMemberRole (accessToken : Option AccessClaims) (organizationId membershipId : Id)
      (newRole : RoleKey)
  | removeMember (accessToken : Option AccessClaims) (organizationId membershipId : Id)
  | createInvitation (accessToken : Option AccessClaims)
      (input : InvitationService.CreateInvitationInput)
  | revokeInvitation (accessToken : Option AccessClaims) (organizationId invitationId : Id)
  | acceptInvitation (accessToken : Option AccessClaims) (tokenHash : TokenHash)
  | createProject (accessToken : Option AccessClaims) (organizationId : Id) (createdAt : ℤ)
  | deleteProject (accessToken : Option AccessClaims) (organizationId projectId : Id)
  | createApiKey (accessToken : Option AccessClaims) (input : ApiKeyService.CreateApiKeyInput)
  | revokeApiKey (accessToken : Option AccessClaims) (organizationId apiKeyId : Id)
  | changeDemoPlan (accessToken : Option AccessClaims) (organizationId : Id)
      (targetPlanKey : PlanKey)
  deriving DecidableEq

/-- The access token that a request presents. -/
def Request.accessToken : Request → Option AccessClaims
  | .authenticate accessToken => accessToken
  | .revokeSession accessToken _ => accessToken
  | .changePassword accessToken _ => accessToken
  | .changeEmail accessToken _ => accessToken
  | .requestVerificationEmail accessToken _ => accessToken
  | .createTeamOrganization accessToken => accessToken
  | .changeMemberRole accessToken _ _ _ => accessToken
  | .removeMember accessToken _ _ => accessToken
  | .createInvitation accessToken _ => accessToken
  | .revokeInvitation accessToken _ _ => accessToken
  | .acceptInvitation accessToken _ => accessToken
  | .createProject accessToken _ _ => accessToken
  | .deleteProject accessToken _ _ => accessToken
  | .createApiKey accessToken _ => accessToken
  | .revokeApiKey accessToken _ _ => accessToken
  | .changeDemoPlan accessToken _ _ => accessToken
  | _ => none

/-- The answers that later statements are about; `done` stands for the others. -/
inductive Answer
  | authenticated (user : User)
  | loggedIn (session : Session) (token : RefreshToken)
  | refreshed (outcome : AuthService.RefreshOutcome)
  | verification (result : CompleteVerificationResult)
  | reset (result : CompleteResetResult)
  | registration (result : CompleteRegistrationResult)
  | accepted (result : AcceptInvitationResult)
  | done

/-- The program of request number `request`. -/
def serve (cfg : Config) (request : ℕ) : Request → Program Answer
  | .login input => do
      let (session, token) ← AuthService.login cfg request input
      return .loggedIn session token
  | .authenticate accessToken => do
      return .authenticated (← AuthService.authenticate accessToken)
  | .refresh presented successor => do
      return .refreshed (← AuthService.refresh cfg request presented successor)
  | .logout rawRefreshToken => do
      AuthService.logout rawRefreshToken
      return .done
  | .revokeSession accessToken targetSessionId => do
      let _ ← AuthService.revokeSession accessToken targetSessionId
      return .done
  | .changePassword accessToken input => do
      AuthService.changePassword cfg accessToken input
      return .done
  | .changeEmail accessToken input => do
      let _ ← AuthService.changeEmail cfg accessToken input
      return .done
  | .requestVerificationEmail accessToken tokenHash => do
      let _ ← EmailVerificationService.requestVerificationEmail cfg accessToken tokenHash
      return .done
  | .completeVerification tokenHash => do
      return .verification (← EmailVerificationService.completeVerification tokenHash)
  | .requestReset email tokenHash => do
      PasswordRecoveryService.requestReset cfg email tokenHash
      return .done
  | .completeReset tokenHash newPassword salt => do
      return .reset
        (← PasswordRecoveryService.completeReset cfg tokenHash newPassword salt)
  | .requestRegistration input => do
      RegistrationService.requestRegistration cfg input
      return .done
  | .completeRegistration input => do
      return .registration (← RegistrationService.completeRegistration cfg request input)
  | .createTeamOrganization accessToken => do
      let _ ← OrganizationService.createTeamOrganization accessToken
      return .done
  | .changeMemberRole accessToken organizationId membershipId newRole => do
      OrganizationService.changeMemberRole accessToken organizationId membershipId newRole
      return .done
  | .removeMember accessToken organizationId membershipId => do
      OrganizationService.removeMember accessToken organizationId membershipId
      return .done
  | .createInvitation accessToken input => do
      let _ ← InvitationService.createInvitation cfg accessToken input
      return .done
  | .revokeInvitation accessToken organizationId invitationId => do
      InvitationService.revokeInvitation accessToken organizationId invitationId
      return .done
  | .acceptInvitation accessToken tokenHash => do
      return .accepted (← InvitationService.acceptInvitation cfg accessToken tokenHash)
  | .createProject accessToken organizationId createdAt => do
      let _ ← ProjectService.createProject cfg accessToken organizationId createdAt
      return .done
  | .deleteProject accessToken organizationId projectId => do
      ProjectService.deleteProject accessToken organizationId projectId
      return .done
  | .createApiKey accessToken input => do
      let _ ← ApiKeyService.createApiKey cfg accessToken input
      return .done
  | .revokeApiKey accessToken organizationId apiKeyId => do
      let _ ← ApiKeyService.revokeApiKey accessToken organizationId apiKeyId
      return .done
  | .changeDemoPlan accessToken organizationId targetPlanKey => do
      let _ ← PlanService.changeDemoPlan accessToken organizationId targetPlanKey
      return .done

end Orgistry.Model
