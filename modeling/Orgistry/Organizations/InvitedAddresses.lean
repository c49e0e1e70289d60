import Orgistry.Organizations.SingleUse
import Orgistry.ReadCommitted.Frames

/-!
# Invited addresses

Only a request for a change of address rewrites one.  Where none is among the requests, the
user that an invitation has made a member has the invited address.
-/

namespace Orgistry.Model

open ReadCommitted

/-- The address columns are those that the account began with. -/
def AddressUnwritten : ∀ t : orgistry.Table, orgistry.Row t → Prop
  | .users, (user : User) => user.emailWrites = 0
  | _, _ => True

/-- The program rewrites no address. -/
abbrev KeepsAddresses {α : Type} (program : Program α) : Prop :=
  Prog.Keeps (S := orgistry) AddressUnwritten program

variable {cfg : Config} {request : ℕ} {accessToken : Option AccessClaims}

section

variable {t : Table} {p : Row t → Bool}

theorem keeps_selectRows : KeepsAddresses (selectRows t p) := keeps_select

theorem keeps_selectOne : KeepsAddresses (selectOne t p) := fun _ => trivial

theorem keeps_selectOneForUpdate : KeepsAddresses (selectOneForUpdate t p) :=
  ⟨trivial, fun _ => trivial⟩

end

section

open AuthRepository AuthService

theorem keeps_requireAuthenticatedSession :
    KeepsAddresses (requireAuthenticatedSession accessToken) := by
  cases accessToken with
  | none => exact keeps_abortWith
  | some claims =>
      refine keeps_bind keeps_selectOne fun found => ?_
      cases found with
      | none => exact keeps_abortWith
      | some user =>
          refine keeps_ite (keeps_bind keeps_selectOne fun session =>
            keeps_bind keeps_clock fun now => ?_) keeps_abortWith
          cases session with
          | none => exact keeps_abortWith
          | some session => exact keeps_ite keeps_abortWith trivial

theorem keeps_rotateRefreshToken {params : RotateRefreshTokenParams} :
    KeepsAddresses (rotateRefreshToken request params) := by
  refine keeps_transaction (keeps_bind keeps_selectOneForUpdate fun found => ?_)
  cases found with
  | none => exact trivial
  | some token =>
      refine keeps_bind keeps_selectOne fun session => keeps_ite trivial ?_
      cases session with
      | none => exact trivial
      | some session =>
          refine keeps_ite trivial (keeps_ite trivial ?_)
          exact keeps_bind (keeps_insert fun _ => trivial) fun _ =>
            keeps_bind (keeps_update fun _ h => h) fun _ =>
              keeps_bind (keeps_update fun _ h => h) fun _ => trivial

theorem keeps_revokeRefreshTokenFamily {familyId : Id} {reason : RevokeReason} :
    KeepsAddresses (revokeRefreshTokenFamily familyId reason) :=
  keeps_bind keeps_clock fun _ =>
    keeps_bind (keeps_transaction (keeps_update fun _ h => h)) fun _ => trivial

theorem keeps_revokeRefreshTokensForSession {sessionId : Id} {reason : RevokeReason} :
    KeepsAddresses (revokeRefreshTokensForSession sessionId reason) :=
  keeps_bind keeps_clock fun _ =>
    keeps_bind (keeps_transaction (keeps_update fun _ h => h)) fun _ => trivial

theorem keeps_endSession {sessionId : Id} {reason : RevokeReason} :
    KeepsAddresses (AuthRepository.revokeSession sessionId reason) :=
  keeps_bind keeps_clock fun _ =>
    keeps_bind (keeps_transaction (keeps_update fun _ h => h)) fun _ => trivial

theorem keeps_authenticate : KeepsAddresses (authenticate accessToken) :=
  keeps_bind keeps_requireAuthenticatedSession fun _ => trivial

theorem keeps_login {input : LoginInput} : KeepsAddresses (login cfg request input) := by
  refine keeps_bind keeps_selectOne fun found => ?_
  cases found with
  | none => exact keeps_abortWith
  | some user =>
      exact keeps_ite (keeps_bind keeps_clock fun _ =>
        keeps_bind (keeps_transaction (keeps_insert fun _ => trivial)) fun _ =>
          keeps_bind (keeps_transaction (keeps_insert fun _ => trivial)) fun _ => trivial)
        keeps_abortWith

theorem keeps_refresh {presented successor : TokenHash} :
    KeepsAddresses (refresh cfg request presented successor) := by
  refine keeps_bind keeps_selectOne fun _ => keeps_bind keeps_clock fun _ =>
    keeps_bind keeps_rotateRefreshToken fun result => ?_
  cases result with
  | rotated successor session => exact trivial
  | reuse familyId sessionId userId =>
      exact keeps_bind keeps_revokeRefreshTokenFamily fun _ =>
        keeps_bind keeps_endSession fun _ => trivial
  | expired => exact trivial
  | notFound => exact trivial

theorem keeps_logout {rawRefreshToken : Option TokenHash} :
    KeepsAddresses (logout rawRefreshToken) := by
  cases rawRefreshToken with
  | none => exact trivial
  | some tokenHash =>
      refine keeps_bind keeps_selectOne fun found => ?_
      cases found with
      | none => exact trivial
      | some token =>
          exact keeps_bind keeps_selectOne fun _ => keeps_bind keeps_endSession fun _ =>
            keeps_revokeRefreshTokensForSession

theorem keeps_revokeSession {targetSessionId : Id} :
    KeepsAddresses (AuthService.revokeSession accessToken targetSessionId) := by
  refine keeps_bind keeps_requireAuthenticatedSession fun _ =>
    keeps_bind keeps_selectOne fun found => ?_
  cases found with
  | none => exact keeps_abortWith
  | some target =>
      exact keeps_ite keeps_abortWith (keeps_ite (keeps_bind keeps_endSession fun _ =>
        keeps_bind keeps_revokeRefreshTokensForSession fun _ => trivial) trivial)

theorem keeps_changePassword {input : ChangePasswordInput} :
    KeepsAddresses (changePassword cfg accessToken input) := by
  refine keeps_bind keeps_requireAuthenticatedSession fun _ => keeps_ite
    (keeps_ite keeps_abortWith (keeps_bind keeps_clock fun _ => keeps_transaction ?_))
    keeps_abortWith
  exact keeps_bind (keeps_update fun _ h => h) fun _ =>
    keeps_bind (keeps_update fun _ h => h) fun _ => keeps_bind keeps_selectRows fun _ =>
      keeps_bind (keeps_update fun _ h => h) fun _ => trivial

end

theorem keeps_requestVerificationEmail {tokenHash : TokenHash} :
    KeepsAddresses
      (EmailVerificationService.requestVerificationEmail cfg accessToken tokenHash) := by
  refine keeps_bind keeps_authenticate fun _ => keeps_bind keeps_selectOne fun found => ?_
  cases found with
  | none => exact trivial
  | some row =>
      refine keeps_ite (keeps_ite trivial (keeps_bind ?_ fun _ => trivial)) trivial
      exact keeps_bind keeps_clock fun _ => keeps_bind keeps_clock fun _ =>
        keeps_transaction (keeps_bind (keeps_update fun _ h => h) fun _ =>
          keeps_bind (keeps_insert fun _ => trivial) fun _ => trivial)

theorem keeps_completeVerification {tokenHash : TokenHash} :
    KeepsAddresses (EmailVerificationService.completeVerification tokenHash) := by
  refine keeps_bind keeps_clock fun _ => keeps_transaction
    (keeps_bind keeps_selectOneForUpdate fun found => ?_)
  cases found with
  | none => exact trivial
  | some token =>
      refine keeps_ite trivial (keeps_ite trivial
        (keeps_bind keeps_selectOneForUpdate fun holder => ?_))
      cases holder with
      | none => exact trivial
      | some user =>
          exact keeps_ite (keeps_bind (keeps_update fun _ h => h) fun _ =>
            keeps_bind (keeps_update fun _ h => h) fun _ => keeps_ite trivial
              (keeps_bind (keeps_update fun _ h => h) fun _ => trivial)) trivial

theorem keeps_requestReset {email : String} {tokenHash : TokenHash} :
    KeepsAddresses (PasswordRecoveryService.requestReset cfg email tokenHash) := by
  refine keeps_bind keeps_selectOne fun found => ?_
  cases found with
  | none => exact trivial
  | some user =>
      refine keeps_ite (keeps_bind keeps_clock fun _ => keeps_bind keeps_clock fun _ =>
        keeps_transaction ?_) trivial
      exact keeps_bind keeps_selectOneForUpdate fun _ =>
        keeps_bind (keeps_update fun _ h => h) fun _ =>
          keeps_bind (keeps_insert fun _ => trivial) fun _ => trivial

theorem keeps_completeReset {tokenHash : TokenHash} {newPassword : String} {salt : ℕ} :
    KeepsAddresses (PasswordRecoveryService.completeReset cfg tokenHash newPassword salt) := by
  refine keeps_bind keeps_clock fun _ => keeps_transaction
    (keeps_bind keeps_selectOneForUpdate fun found => ?_)
  cases found with
  | none => exact trivial
  | some token =>
      refine keeps_ite trivial (keeps_ite trivial
        (keeps_bind keeps_selectOneForUpdate fun holder => ?_))
      cases holder with
      | none => exact trivial
      | some user =>
          exact keeps_ite (keeps_bind (keeps_update fun _ h => h) fun _ =>
            keeps_bind (keeps_update fun _ h => h) fun _ =>
              keeps_bind (keeps_update fun _ h => h) fun _ =>
                keeps_bind (keeps_update fun _ h => h) fun _ =>
                  keeps_bind keeps_selectRows fun _ =>
                    keeps_bind (keeps_update fun _ h => h) fun _ => trivial) trivial

section

open OrganizationRepository OrganizationService

theorem keeps_insertOrganizationWithOwnerMembership {type : OrganizationType}
    {ownerUserId : Id} {now : ℕ} :
    KeepsAddresses (insertOrganizationWithOwnerMembership type ownerUserId now) :=
  keeps_bind (keeps_insert fun _ => trivial) fun _ =>
    keeps_bind (keeps_insert fun _ => trivial) fun _ =>
      keeps_bind (keeps_insert fun _ => trivial) fun _ => trivial

theorem keeps_authorize {organizationId : Id} {permission : PermissionKey} :
    KeepsAddresses (authorize accessToken organizationId permission) := by
  refine keeps_bind keeps_authenticate fun user => keeps_bind ?_ fun actor =>
    keeps_ite trivial keeps_abortWith
  refine keeps_bind keeps_selectOne fun found => ?_
  cases found with
  | none => exact keeps_abortWith
  | some organization =>
      refine keeps_ite (keeps_bind keeps_selectOne fun membership => ?_) keeps_abortWith
      cases membership with
      | none => exact keeps_abortWith
      | some membership => exact trivial

theorem keeps_createTeamOrganization :
    KeepsAddresses (OrganizationService.createTeamOrganization accessToken) :=
  keeps_bind keeps_authenticate fun _ => keeps_transaction (keeps_bind keeps_clock fun _ =>
    keeps_insertOrganizationWithOwnerMembership)

theorem keeps_lockActiveOwners {organizationId : Id} :
    KeepsAddresses (lockActiveOwners organizationId) :=
  keeps_bind keeps_selectForUpdate fun _ => trivial

theorem keeps_changeMemberRole {organizationId membershipId : Id} {newRole : RoleKey} :
    KeepsAddresses (OrganizationService.changeMemberRole accessToken organizationId membershipId
      newRole) := by
  refine keeps_bind keeps_authorize fun _ => keeps_transaction
    (keeps_bind keeps_lockActiveOwners fun _ => keeps_bind keeps_selectOneForUpdate fun found => ?_)
  cases found with
  | none => exact keeps_abortWith
  | some target =>
      exact keeps_ite keeps_abortWith (keeps_ite keeps_abortWith (keeps_ite keeps_abortWith
        (keeps_bind keeps_clock fun _ => keeps_bind (keeps_update fun _ h => h) fun _ => trivial)))

theorem keeps_removeMember {organizationId membershipId : Id} :
    KeepsAddresses (OrganizationService.removeMember accessToken organizationId membershipId) := by
  refine keeps_bind keeps_authorize fun _ => keeps_transaction
    (keeps_bind keeps_lockActiveOwners fun _ => keeps_bind keeps_selectOneForUpdate fun found => ?_)
  cases found with
  | none => exact keeps_abortWith
  | some target =>
      exact keeps_ite keeps_abortWith (keeps_ite trivial (keeps_ite keeps_abortWith
        (keeps_ite keeps_abortWith (keeps_bind keeps_clock fun _ =>
          keeps_bind (keeps_update fun _ h => h) fun _ => trivial))))

end

/-! ## Invitations and registrations -/

section

open InvitationService

theorem keeps_lockOrganizationEntitlements {organizationId : Id} :
    KeepsAddresses (lockOrganizationEntitlements organizationId) :=
  keeps_bind ⟨trivial, fun _ => trivial⟩ fun _ => trivial

theorem keeps_countActiveMembers {organizationId : Id} :
    KeepsAddresses (countActiveMembers organizationId) :=
  keeps_bind keeps_selectRows fun _ => trivial

theorem keeps_memberQuotaError {organizationId : Id} {pendingInvitations : ℕ} :
    KeepsAddresses (memberQuotaError organizationId pendingInvitations) := by
  refine keeps_bind (keeps_bind keeps_selectOne fun _ => trivial) fun plan => ?_
  cases plan with
  | none => exact trivial
  | some planKey =>
      exact keeps_bind keeps_countActiveMembers fun _ => keeps_ite trivial trivial

theorem keeps_acceptInvitationWithinTransaction {params : AcceptInvitationParams} :
    KeepsAddresses (acceptInvitationWithinTransaction cfg params) := by
  refine keeps_bind keeps_clock fun now => keeps_bind keeps_selectOne fun preRead => ?_
  cases preRead with
  | none => exact trivial
  | some preRead =>
      refine keeps_bind trivial fun _ =>
        keeps_bind keeps_lockOrganizationEntitlements fun plan => ?_
      cases plan with
      | none => exact trivial
      | some planKey =>
          refine keeps_bind keeps_selectOneForUpdate fun found => ?_
          cases found with
          | none => exact trivial
          | some invitation =>
              refine keeps_bind keeps_selectOne fun existing =>
                keeps_bind keeps_countActiveMembers fun activeMembers => ?_
              split
              · exact trivial
              · refine keeps_bind keeps_selectOne fun organization => ?_
                cases organization with
                | none => exact trivial
                | some organization =>
                    refine keeps_bind (keeps_tryInsert fun _ => trivial) fun inserted => ?_
                    cases inserted with
                    | none => exact trivial
                    | some membership =>
                        refine keeps_bind (keeps_update fun _ h => h) fun accepted => ?_
                        split
                        · exact keeps_abortWith
                        · exact trivial

theorem keeps_createInvitation {input : CreateInvitationInput} :
    KeepsAddresses (InvitationService.createInvitation cfg accessToken input) := by
  refine keeps_bind keeps_authorize fun actor => keeps_bind
    (keeps_bind keeps_selectRows fun _ => keeps_bind keeps_selectRows fun _ => trivial)
      fun taken => keeps_ite keeps_abortWith (keeps_bind
        (keeps_bind keeps_clock fun _ => keeps_selectOne) fun found => ?_)
  cases found with
  | some invitation => exact keeps_abortWith
  | none =>
      refine keeps_bind (keeps_bind keeps_clock fun _ => keeps_bind keeps_selectRows fun _ =>
        trivial) fun pending => keeps_bind keeps_memberQuotaError fun error => ?_
      cases error with
      | some error => exact keeps_abortWith
      | none =>
          refine keeps_bind keeps_clock fun _ => keeps_transaction (keeps_bind keeps_clock fun _ =>
            keeps_bind trivial fun _ => keeps_bind keeps_lockOrganizationEntitlements
              fun plan => ?_)
          cases plan with
          | none => exact keeps_abortWith
          | some planKey =>
              refine keeps_bind keeps_countActiveMembers fun _ => keeps_bind keeps_selectRows
                fun _ => keeps_ite keeps_abortWith (keeps_bind (keeps_update fun _ h => h)
                  fun _ => keeps_bind (keeps_tryInsert fun _ => trivial) fun inserted => ?_)
              cases inserted with
              | none => exact keeps_abortWith
              | some invitation => exact trivial

theorem keeps_revokeInvitation {organizationId invitationId : Id} :
    KeepsAddresses
      (InvitationService.revokeInvitation accessToken organizationId invitationId) := by
  refine keeps_bind keeps_authorize fun _ => keeps_transaction (keeps_bind keeps_clock fun now =>
    keeps_bind keeps_selectOneForUpdate fun found => ?_)
  cases found with
  | none => exact keeps_abortWith
  | some invitation =>
      dsimp only
      split
      · exact keeps_abortWith
      · exact keeps_bind (keeps_update fun _ h => h) fun _ => trivial

/-- The repository's transaction: an error rolls it back. -/
theorem keeps_acceptance {params : AcceptInvitationParams} :
    KeepsAddresses (InvitationRepository.acceptInvitation cfg params) := by
  refine keeps_transaction (keeps_bind keeps_acceptInvitationWithinTransaction fun result => ?_)
  cases result with
  | error error => exact keeps_abortWith
  | ok result => exact trivial

theorem keeps_acceptInvitation {tokenHash : TokenHash} :
    KeepsAddresses (InvitationService.acceptInvitation cfg accessToken tokenHash) := by
  refine keeps_bind keeps_authenticate fun user => ?_
  generalize normalizeEmail user.email = normalized
  refine keeps_bind keeps_selectOne fun found => ?_
  cases found with
  | none => exact keeps_abortWith
  | some invitation =>
      refine keeps_bind keeps_clock fun now => ?_
      split
      · exact keeps_abortWith
      · exact keeps_ite keeps_abortWith keeps_acceptance

theorem keeps_prepareForRegistration {tokenHash : TokenHash} {normalizedEmail : String} :
    KeepsAddresses (prepareForRegistration tokenHash normalizedEmail) := by
  refine keeps_bind keeps_selectOne fun found => ?_
  cases found with
  | none => exact trivial
  | some invitation =>
      refine keeps_bind keeps_clock fun now => ?_
      split
      · exact trivial
      · refine keeps_ite trivial (keeps_bind keeps_memberQuotaError fun error => ?_)
        cases error with
        | some error => exact trivial
        | none => exact trivial

theorem keeps_resolveRequestInvitation {invitationToken : Option TokenHash}
    {normalizedEmail : String} :
    KeepsAddresses
      (RegistrationService.resolveRequestInvitation invitationToken normalizedEmail) := by
  cases invitationToken with
  | none => exact trivial
  | some tokenHash =>
      refine keeps_bind keeps_prepareForRegistration fun prepared => ?_
      cases prepared with
      | error error => exact trivial
      | ok invitationId => exact trivial

theorem keeps_issuePendingRegistration {params : IssuePendingRegistrationParams} :
    KeepsAddresses (RegistrationRepository.issuePendingRegistration cfg params) :=
  keeps_transaction (keeps_bind trivial fun _ => keeps_bind (keeps_update fun _ h => h)
    fun _ => keeps_bind (keeps_insert fun _ => trivial) fun _ => trivial)

theorem keeps_requestRegistration {input : RegistrationService.RegistrationRequestInput} :
    KeepsAddresses (RegistrationService.requestRegistration cfg input) := by
  refine keeps_bind keeps_resolveRequestInvitation fun resolution => ?_
  split
  · exact trivial
  · refine keeps_bind keeps_selectOne fun found => ?_
    cases found with
    | some user => exact trivial
    | none =>
        exact keeps_bind keeps_clock fun _ => keeps_bind keeps_clock fun _ =>
          keeps_issuePendingRegistration

theorem keeps_settleInvitation {pendingInvitationId context : Option Id} {newUserId : Id}
    {normalizedEmail : String} :
    KeepsAddresses (RegistrationRepository.settleInvitation cfg pendingInvitationId context
      newUserId normalizedEmail) := by
  cases pendingInvitationId with
  | none => exact trivial
  | some invitationId =>
      refine keeps_ite trivial (keeps_bind trivial fun _ =>
        keeps_bind keeps_acceptInvitationWithinTransaction fun result => ?_)
      cases result with
      | ok result => exact trivial
      | error error => exact keeps_ite (keeps_bind trivial fun _ => trivial) keeps_abortWith

/-- The account is inserted with the address of the pending registration. -/
theorem keeps_storeRegistration {params : CompleteRegistrationParams} :
    KeepsAddresses (RegistrationRepository.completeRegistration cfg request params) := by
  refine keeps_transaction (keeps_bind keeps_selectOneForUpdate fun found => ?_)
  cases found with
  | none => exact trivial
  | some pending =>
      refine keeps_ite trivial (keeps_ite trivial (keeps_bind keeps_selectOne fun taken => ?_))
      cases taken with
      | some user => exact trivial
      | none =>
          refine keeps_bind (keeps_tryInsert fun _ => rfl) fun inserted => ?_
          cases inserted with
          | none => exact keeps_bind trivial fun _ => trivial
          | some user =>
              exact keeps_bind keeps_insertOrganizationWithOwnerMembership fun _ =>
                keeps_bind (keeps_insert fun _ => trivial) fun _ =>
                  keeps_bind (keeps_insert fun _ => trivial) fun _ =>
                    keeps_bind keeps_settleInvitation fun _ =>
                      keeps_bind (keeps_update fun _ h => h) fun _ =>
                        keeps_bind (keeps_update fun _ h => h) fun _ => trivial

theorem keeps_completeRegistration {input : RegistrationService.RegistrationCompleteInput} :
    KeepsAddresses (RegistrationService.completeRegistration cfg request input) := by
  refine keeps_bind keeps_selectOne fun pending => ?_
  dsimp only
  split
  · exact keeps_bind trivial fun _ => keeps_bind keeps_clock fun _ => keeps_storeRegistration
  · exact keeps_bind keeps_selectOne fun _ => keeps_bind keeps_clock fun _ =>
      keeps_storeRegistration

end

theorem keeps_createProject {organizationId : Id} {createdAt : ℤ} :
    KeepsAddresses (ProjectService.createProject cfg accessToken organizationId createdAt) := by
  refine keeps_bind keeps_authorize fun _ => keeps_transaction (keeps_bind trivial fun _ =>
    keeps_bind keeps_lockOrganizationEntitlements fun plan => ?_)
  cases plan with
  | none => exact keeps_abortWith
  | some planKey =>
      exact keeps_bind keeps_selectRows fun _ => keeps_ite keeps_abortWith
        (keeps_insert fun _ => trivial)

theorem keeps_deleteProject {organizationId projectId : Id} :
    KeepsAddresses (ProjectService.deleteProject accessToken organizationId projectId) := by
  refine keeps_bind keeps_authorize fun _ => keeps_transaction
    (keeps_bind keeps_selectOneForUpdate fun found => ?_)
  cases found with
  | none => exact keeps_abortWith
  | some target =>
      exact keeps_bind keeps_clock fun _ => keeps_bind (keeps_update fun _ h => h) fun _ => trivial

theorem keeps_requireApiKeysAccess {organizationId : Id} :
    KeepsAddresses (ApiKeyService.requireApiKeysAccess organizationId) := by
  refine keeps_bind (keeps_bind keeps_selectOne fun _ => trivial) fun plan => ?_
  cases plan with
  | none => exact keeps_abortWith
  | some planKey => exact keeps_ite trivial keeps_abortWith

theorem keeps_createApiKey {input : ApiKeyService.CreateApiKeyInput} :
    KeepsAddresses (ApiKeyService.createApiKey cfg accessToken input) := by
  refine keeps_bind keeps_authorize fun _ => keeps_bind keeps_requireApiKeysAccess fun _ =>
    keeps_bind keeps_clock fun _ => keeps_transaction (keeps_bind trivial fun _ =>
      keeps_bind keeps_lockOrganizationEntitlements fun plan => ?_)
  cases plan with
  | none => exact keeps_abortWith
  | some planKey =>
      exact keeps_ite (keeps_bind keeps_selectRows fun _ => keeps_ite keeps_abortWith
        (keeps_insert fun _ => trivial)) keeps_abortWith

theorem keeps_revokeApiKey {organizationId apiKeyId : Id} :
    KeepsAddresses (ApiKeyService.revokeApiKey accessToken organizationId apiKeyId) := by
  refine keeps_bind keeps_authorize fun _ => keeps_bind keeps_requireApiKeysAccess fun _ =>
    keeps_transaction (keeps_bind keeps_selectOneForUpdate fun found => ?_)
  cases found with
  | none => exact keeps_abortWith
  | some target =>
      exact keeps_ite trivial (keeps_bind keeps_clock fun _ =>
        keeps_bind (keeps_update fun _ h => h) fun _ => trivial)

theorem keeps_changeDemoPlan {organizationId : Id} {targetPlanKey : PlanKey} :
    KeepsAddresses (PlanService.changeDemoPlan accessToken organizationId targetPlanKey) := by
  refine keeps_bind keeps_authorize fun _ => keeps_transaction
    (keeps_bind keeps_selectOneForUpdate fun found => ?_)
  cases found with
  | none => exact keeps_abortWith
  | some current => exact keeps_bind (keeps_update fun _ h => h) fun _ => trivial

/-! ## Runs without changes of address -/

def Request.ChangesEmail : Request → Prop
  | .changeEmail _ _ => True
  | _ => False

/-- Every other request leaves all addresses as they are. -/
theorem keeps_serve {r : Request} (h : ¬r.ChangesEmail) : KeepsAddresses (serve cfg request r) := by
  cases r with
  | changeEmail accessToken input => exact absurd trivial h
  | login input => exact keeps_bind keeps_login fun _ => trivial
  | authenticate accessToken => exact keeps_bind keeps_authenticate fun _ => trivial
  | refresh presented successor => exact keeps_bind keeps_refresh fun _ => trivial
  | logout rawRefreshToken => exact keeps_bind keeps_logout fun _ => trivial
  | revokeSession accessToken target => exact keeps_bind keeps_revokeSession fun _ => trivial
  | changePassword accessToken input => exact keeps_bind keeps_changePassword fun _ => trivial
  | requestVerificationEmail accessToken tokenHash =>
      exact keeps_bind keeps_requestVerificationEmail fun _ => trivial
  | completeVerification tokenHash =>
      exact keeps_bind keeps_completeVerification fun _ => trivial
  | requestReset email tokenHash => exact keeps_bind keeps_requestReset fun _ => trivial
  | completeReset tokenHash newPassword salt =>
      exact keeps_bind keeps_completeReset fun _ => trivial
  | requestRegistration input => exact keeps_bind keeps_requestRegistration fun _ => trivial
  | completeRegistration input => exact keeps_bind keeps_completeRegistration fun _ => trivial
  | createTeamOrganization accessToken =>
      exact keeps_bind keeps_createTeamOrganization fun _ => trivial
  | changeMemberRole accessToken organizationId membershipId newRole =>
      exact keeps_bind keeps_changeMemberRole fun _ => trivial
  | removeMember accessToken organizationId membershipId =>
      exact keeps_bind keeps_removeMember fun _ => trivial
  | createInvitation accessToken input => exact keeps_bind keeps_createInvitation fun _ => trivial
  | revokeInvitation accessToken organizationId invitationId =>
      exact keeps_bind keeps_revokeInvitation fun _ => trivial
  | acceptInvitation accessToken tokenHash =>
      exact keeps_bind keeps_acceptInvitation fun _ => trivial
  | createProject accessToken organizationId createdAt =>
      exact keeps_bind keeps_createProject fun _ => trivial
  | deleteProject accessToken organizationId projectId =>
      exact keeps_bind keeps_deleteProject fun _ => trivial
  | createApiKey accessToken input => exact keeps_bind keeps_createApiKey fun _ => trivial
  | revokeApiKey accessToken organizationId apiKeyId =>
      exact keeps_bind keeps_revokeApiKey fun _ => trivial
  | changeDemoPlan accessToken organizationId targetPlanKey =>
      exact keeps_bind keeps_changeDemoPlan fun _ => trivial

variable {s : ServerState} {ok : Tx orgistry → Database orgistry → Prop}

/-- Where no request changes an address, none is rewritten. -/
theorem addresses_unwritten (h : Reachable cfg AddressesSettled ok s)
    (hrequests : ∀ th ∈ s.threads, ¬th.request.ChangesEmail) :
    ∀ step ∈ s.history.steps, AllMeet (S := orgistry) AddressUnwritten step.2.tables := by
  have hmeet : ∀ db, AddressesSettled db → AllMeet (S := orgistry) AddressUnwritten db.tables := by
    intro db hdb t x row hrow
    cases t with
    | users => exact hdb.unwritten hrow
    | _ => exact trivial
  have htrace : Trace (CommitsMeet AddressUnwritten) AddressesSettled s.history :=
    State.Reach.allMeet (P := fun r => ¬Request.ChangesEmail r) (fun _ hdb => hdb.consistent) hmeet
      (fun _ _ hr => keeps_serve hr) h hrequests
  exact htrace.forall_steps (P := fun _ after => AllMeet AddressUnwritten after.tables)
    (fun _ _ hw => hw.allMeet hmeet)
    fun _ _ hw _ hcommit => (hw.allMeet hmeet).view hcommit

/-- Where no request changes an address, whoever an invitation makes a member has the
invited address. -/
theorem invited_address_of_joined (h : Reachable cfg AddressesSettled ok s)
    (hrequests : ∀ th ∈ s.threads, ¬th.request.ChangesEmail)
    {step : Database orgistry × Database orgistry} (hstep : step ∈ s.history.steps) {x : Id}
    {membership : Membership} (hjoined : Joined x membership step.1 step.2) :
    ∃ (invitation : Invitation) (user : User), step.1.get .invitations x = some invitation ∧
      step.2.get .users membership.userId = some user ∧
        user.normalizedEmail = invitation.invitedEmailNormalized := by
  obtain ⟨invitation, user, haccepted⟩ := accepted_of_joined h hstep hjoined
  exact ⟨invitation, user, haccepted.stored, haccepted.holder,
    haccepted.address (addresses_unwritten h hrequests step hstep haccepted.holder)⟩

end Orgistry.Model
