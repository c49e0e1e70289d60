import Orgistry.Organizations.LastOwner
import Orgistry.ReadCommitted.LastCommit

/-!
# Completed registrations

A completion commits the account, its workspace, its session and whatever became
of its invitation in one commit, or it changes nothing.
-/

namespace Orgistry.Model

open ReadCommitted

variable {cfg : Config}

/-- Statements between `BEGIN` and `COMMIT`. -/
theorem neverCommits_selectOne {t : Table} {p : Row t → Bool} :
    (selectOne t p).NeverCommits :=
  atCommits_bind neverCommits_select fun _ => neverCommits_pure _

theorem neverCommits_selectOneForUpdate {t : Table} {p : Row t → Bool} :
    (selectOneForUpdate t p).NeverCommits :=
  atCommits_bind neverCommits_selectForUpdate fun _ => neverCommits_pure _

theorem neverCommits_lockOrganizationEntitlements {organizationId : Id} :
    (lockOrganizationEntitlements organizationId).NeverCommits :=
  atCommits_bind (atCommits_bind neverCommits_selectForShare fun _ => neverCommits_pure _)
    fun _ => neverCommits_pure _

theorem neverCommits_insertOrganizationWithOwnerMembership {type : OrganizationType}
    {ownerUserId : Id} {now : ℕ} :
    (OrganizationRepository.insertOrganizationWithOwnerMembership type ownerUserId
      now).NeverCommits :=
  atCommits_bind neverCommits_insert fun _ => atCommits_bind neverCommits_insert fun _ =>
    atCommits_bind neverCommits_insert fun _ => neverCommits_pure _

theorem neverCommits_acceptInvitationWithinTransaction {params : AcceptInvitationParams} :
    (acceptInvitationWithinTransaction cfg params).NeverCommits := by
  refine atCommits_bind neverCommits_clock fun now => ?_
  refine atCommits_bind neverCommits_selectOne fun preRead => ?_
  split
  · exact neverCommits_pure _
  · refine atCommits_bind neverCommits_advisoryLock fun _ => ?_
    refine atCommits_bind neverCommits_lockOrganizationEntitlements fun planKey => ?_
    split
    · exact neverCommits_pure _
    · refine atCommits_bind neverCommits_selectOneForUpdate fun locked => ?_
      split
      · exact neverCommits_pure _
      · refine atCommits_bind neverCommits_selectOne fun existing => ?_
        refine atCommits_bind (atCommits_bind neverCommits_select fun _ => neverCommits_pure _)
          fun activeMembers => ?_
        split
        · exact neverCommits_pure _
        · refine atCommits_bind neverCommits_selectOne fun organization => ?_
          split
          · exact neverCommits_pure _
          · refine atCommits_bind neverCommits_tryInsert fun membership => ?_
            split
            · exact neverCommits_pure _
            · refine atCommits_bind neverCommits_update fun accepted => ?_
              split
              · exact neverCommits_abortWith
              · exact neverCommits_pure _

theorem neverCommits_settleInvitation {pendingInvitationId context : Option Id}
    {newUserId : Id} {normalizedEmail : String} :
    (RegistrationRepository.settleInvitation cfg pendingInvitationId context newUserId
      normalizedEmail).NeverCommits := by
  unfold RegistrationRepository.settleInvitation
  split
  · exact neverCommits_pure _
  · split
    · exact neverCommits_pure _
    · refine atCommits_bind neverCommits_setSavepoint fun _ => ?_
      refine atCommits_bind neverCommits_acceptInvitationWithinTransaction fun result => ?_
      split
      · exact neverCommits_pure _
      · split
        · exact atCommits_bind neverCommits_rollbackToSavepoint fun _ => neverCommits_pure _
        · exact neverCommits_abortWith

/-- The answer of a completion is the last thing that its transaction decides. -/
theorem commitsLast_completeRegistration {request : ℕ} {params : CompleteRegistrationParams} :
    (RegistrationRepository.completeRegistration cfg request params).CommitsLast
      fun result => result := by
  refine commitsLast_transaction (atCommits_bind neverCommits_selectOneForUpdate fun found => ?_)
  split
  · exact neverCommits_pure _
  · split
    · exact neverCommits_pure _
    · split
      · exact neverCommits_pure _
      · refine atCommits_bind neverCommits_selectOne fun taken => ?_
        split
        · exact neverCommits_pure _
        · refine atCommits_bind neverCommits_tryInsert fun user => ?_
          split
          · exact atCommits_bind neverCommits_rollBack fun _ => neverCommits_pure _
          · refine atCommits_bind neverCommits_insertOrganizationWithOwnerMembership
              fun workspace => ?_
            refine atCommits_bind neverCommits_insert fun session => ?_
            refine atCommits_bind neverCommits_insert fun refreshToken => ?_
            refine atCommits_bind neverCommits_settleInvitation fun invitation => ?_
            refine atCommits_bind neverCommits_update fun _ => ?_
            exact atCommits_bind neverCommits_update fun _ => neverCommits_pure _

theorem commitsLast_serve (request : ℕ) (input : RegistrationService.RegistrationCompleteInput) :
    (serve cfg request (.completeRegistration input)).CommitsLast Answer.registration := by
  refine commitsLast_map Answer.registration
    (atCommits_bind neverCommits_selectOne fun pending => ?_)
  dsimp only
  split
  · exact atCommits_bind (neverCommits_pure _) fun invitation =>
      atCommits_bind neverCommits_clock fun now => commitsLast_completeRegistration
  · exact atCommits_bind neverCommits_selectOne fun invitation =>
      atCommits_bind neverCommits_clock fun now => commitsLast_completeRegistration

/-- A step has left the database alone, or it has committed a whole registration
and given thread `i` its answer. -/
inductive CompletionStep (i : ℕ) (input : RegistrationService.RegistrationCompleteInput)
    (s s' : ServerState) : Prop
  | nothing (h : ∀ t x, s'.history.now.get t x = s.history.now.get t x)
  | registered {pending : PendingRegistration} {now : ℕ} {user : User}
      {organization : Organization} {membership : Membership} {session : Session}
      {refreshToken : RefreshToken} {invitation : CompletionInvitationOutcome}
      (hcommitted : Registered s.history.now s'.history.now pending now user organization
        membership session refreshToken invitation)
      (hanswered : s'.Answered i (.completeRegistration input) (.registration
        (.completed user organization membership session refreshToken invitation)))

variable {Init : Database orgistry → Prop} {ok : Tx orgistry → Database orgistry → Prop}
  {s s' : ServerState}

def eveCompletes : RegistrationService.RegistrationCompleteInput :=
  { tokenHash := 41, issued := { familyId := 8, tokenHash := 8 } }

/-- Eve, whom Alice has invited, registers and is about to commit. -/
def beforeCompletion : ServerState :=
  (State.replay (serve sampleConfig) State.Always
    [.start (.createInvitation (some ⟨1, 1⟩)
        { organizationId := 1, email := "e@x", role := .member, tokenHash := 7 }),
      .steps 0 40 9,
      .start (.requestRegistration
        { email := "e@x", password := "eve", invitationToken := some 7, salt := 0,
          tokenHash := 41 }),
      .steps 1 40 10, .start (.completeRegistration eveCompletes), .steps 2 20 42,
      .steps 2 15 43] (State.initial sampleOrganization)).get (by decide)

def afterCompletion : ServerState :=
  (State.step (serve sampleConfig) beforeCompletion (.exec 2 [])).get (by decide)

end Orgistry.Model
