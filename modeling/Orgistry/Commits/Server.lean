import Orgistry.Commits.AccountTokens
import Orgistry.Commits.Registration
import Orgistry.Commits.Resources
import Orgistry.ReadCommitted.Runs

/-!
# The commits of the server

Every request keeps to `Guarantee`.  This ties the programs of the model to the
life cycles of their rows, and it is all that later files know about the
programs.
-/

namespace Orgistry.Model

open ReadCommitted

variable {cfg : Config} {w w' : History orgistry}

/-- What holds when request number `request` has been answered: `w` is the
history at its arrival, and `w'` the one at its last step. -/
structure Served (cfg : Config) (request : ℕ) (r : Request) (w : History orgistry) (answer : Answer)
    (w' : History orgistry) : Prop where
  granted : AuthService.Granted cfg r.accessToken w w'
  refreshed : ∀ {presented successor outcome}, r = .refresh presented successor →
    answer = .refreshed outcome → AuthService.RefreshKnown cfg request presented w w' outcome
  completed : ∀ {result}, answer = .registration result →
    JustCommitted (fun before after => Completion before after result) w'

/-- Most answers only say that the caller was authenticated. -/
theorem Served.of_granted {request : ℕ} {r : Request} {answer : Answer}
    (hgranted : AuthService.Granted cfg r.accessToken w w')
    (hr : ∀ presented successor, r ≠ .refresh presented successor)
    (hanswer : ∀ result, answer ≠ .registration result) :
    Served cfg request r w answer w' :=
  ⟨hgranted, fun heq => absurd heq (hr _ _), fun heq => absurd heq (hanswer _)⟩

theorem granted_none : AuthService.Granted cfg none w w' := by
  intro claims hclaims
  cases hclaims

/-- Every request makes legal commits only; one case for each request. -/
theorem safe_serve (hconsistent : Consistent w.now.tables) (request : ℕ) (r : Request) :
    Safe (Guarantee cfg) (serve cfg request r) (fun answer _ w' => Served cfg request r w answer w')
      .begin w := by
  cases r with
  | login input =>
      exact safe_bind (AuthService.safe_login fun w' _ _ =>
        .of_granted granted_none (by simp) (by simp))
  | authenticate accessToken =>
      exact safe_bind (AuthService.safe_authenticate fun w' _ _ _ hauth =>
        .of_granted hauth.granted (by simp) (by simp))
  | refresh presented successor =>
      refine safe_bind (AuthService.safe_refresh fun w' outcome _ hknown => ?_)
      refine ⟨granted_none, ?_, by simp⟩
      rintro _ _ _ ⟨⟩ ⟨⟩
      exact hknown
  | logout rawRefreshToken =>
      exact safe_bind (AuthService.safe_logout fun w' _ =>
        .of_granted granted_none (by simp) (by simp))
  | revokeSession accessToken targetSessionId =>
      exact safe_bind (AuthService.safe_revokeSession fun w' _ _ hgranted =>
        .of_granted hgranted (by simp) (by simp))
  | changePassword accessToken input =>
      exact safe_bind (AuthService.safe_changePassword fun w' _ hgranted =>
        .of_granted hgranted (by simp) (by simp))
  | changeEmail accessToken input =>
      exact safe_bind (AuthService.safe_changeEmail fun w' _ _ hgranted =>
        .of_granted hgranted (by simp) (by simp))
  | requestVerificationEmail accessToken tokenHash =>
      exact safe_bind (EmailVerificationService.safe_requestVerificationEmail
        fun w' _ _ hgranted => .of_granted hgranted (by simp) (by simp))
  | completeVerification tokenHash =>
      exact safe_bind (EmailVerificationService.safe_completeVerification
        fun w' _ _ => .of_granted granted_none (by simp) (by simp))
  | requestReset email tokenHash =>
      exact safe_bind (PasswordRecoveryService.safe_requestReset
        fun w' _ => .of_granted granted_none (by simp) (by simp))
  | completeReset tokenHash newPassword salt =>
      exact safe_bind (PasswordRecoveryService.safe_completeReset
        fun w' _ _ => .of_granted granted_none (by simp) (by simp))
  | requestRegistration input =>
      exact safe_bind (RegistrationService.safe_requestRegistration
        fun w' _ => .of_granted granted_none (by simp) (by simp))
  | completeRegistration input =>
      refine safe_bind (RegistrationService.safe_completeRegistration hconsistent
        fun w' result _ hdone => ?_)
      refine ⟨granted_none, by simp, ?_⟩
      rintro _ ⟨⟩
      exact hdone
  | createTeamOrganization accessToken =>
      exact safe_bind (OrganizationService.safe_createTeamOrganization
        fun w' _ _ hgranted => .of_granted hgranted (by simp) (by simp))
  | changeMemberRole accessToken organizationId membershipId newRole =>
      exact safe_bind (OrganizationService.safe_changeMemberRole
        fun w' _ hgranted => .of_granted hgranted (by simp) (by simp))
  | removeMember accessToken organizationId membershipId =>
      exact safe_bind (OrganizationService.safe_removeMember
        fun w' _ hgranted => .of_granted hgranted (by simp) (by simp))
  | createInvitation accessToken input =>
      exact safe_bind (InvitationService.safe_createInvitation
        fun w' _ _ hgranted => .of_granted hgranted (by simp) (by simp))
  | revokeInvitation accessToken organizationId invitationId =>
      exact safe_bind (InvitationService.safe_revokeInvitation
        fun w' _ hgranted => .of_granted hgranted (by simp) (by simp))
  | acceptInvitation accessToken tokenHash =>
      exact safe_bind (InvitationService.safe_acceptInvitation hconsistent
        fun w' _ _ hgranted => .of_granted hgranted (by simp) (by simp))
  | createProject accessToken organizationId createdAt =>
      exact safe_bind (ProjectService.safe_createProject
        fun w' _ _ hgranted => .of_granted hgranted (by simp) (by simp))
  | deleteProject accessToken organizationId projectId =>
      exact safe_bind (ProjectService.safe_deleteProject
        fun w' _ hgranted => .of_granted hgranted (by simp) (by simp))
  | createApiKey accessToken input =>
      exact safe_bind (ApiKeyService.safe_createApiKey
        fun w' _ _ hgranted => .of_granted hgranted (by simp) (by simp))
  | revokeApiKey accessToken organizationId apiKeyId =>
      exact safe_bind (ApiKeyService.safe_revokeApiKey
        fun w' _ _ hgranted => .of_granted hgranted (by simp) (by simp))
  | changeDemoPlan accessToken organizationId targetPlanKey =>
      exact safe_bind (PlanService.safe_changeDemoPlan
        fun w' _ _ hgranted => .of_granted hgranted (by simp) (by simp))

/-- States of the server: any number of requests, any interleaving. -/
abbrev ServerState := State orgistry Request Answer

/-- The states that the server reaches from an `Init` database when every commit
is `ok`. -/
abbrev Reachable (cfg : Config) (Init : Database orgistry → Prop)
    (ok : Tx orgistry → Database orgistry → Prop) (s : ServerState) : Prop :=
  s.Reach (serve cfg) Init ok

variable {Init : Database orgistry → Prop} {ok : Tx orgistry → Database orgistry → Prop}
  {s : ServerState}

/-- The committed databases of a run follow the life cycles. -/
theorem Reachable.trace (hinit : ∀ db, Init db → Consistent db.tables)
    (h : Reachable cfg Init ok s) :
    Trace (fun tx db => ok tx db ∧ Guarantee cfg tx db) Init s.history := by
  have hsafe : ∀ request r w, Trace (Guarantee cfg) Init w →
      Safe (Guarantee cfg) (serve cfg request r)
      (fun answer _ w' => Served cfg request r w answer w') .begin w :=
    fun request r _ htrace => safe_serve (htrace.consistent hinit) request r
  exact (State.Reach.adequate hinit hsafe h).1

/-- A hasher that keeps the password, for runs that are replayed. -/
def sampleConfig : Config where
  hashPassword password _ := password
  verifyPassword hash password := hash == password
  hashtextextended text := text.length
  sessionTtl := 1000
  refreshTokenTtl := 1000
  emailVerificationTtl := 1000
  passwordResetTtl := 1000
  registrationCompletionTtl := 1000
  invitationTtl := 1000

def sampleUser (id : Id) (email password : String) : User :=
  { id, email, normalizedEmail := email, passwordHash := password, status := .active,
    emailVerifiedAt := none, updatedAt := 0, deletedAt := none, passwordLog := [],
    emailChanges := 0, emailWrites := 0, verifiedFor := none }

def sampleSession (id userId : Id) : Session :=
  { id, userId, expiresAt := 1000, revokedAt := none, revokedReason := none, updatedAt := 0,
    verifiedAfter := 0 }

def sampleToken (id userId : Id) (mailedTo : String) : AccountToken :=
  { id, userId, tokenHash := id, expiresAt := 1000, usedAt := none, invalidatedAt := none,
    mailedTo, mailedAfter := 0 }

/-- Tables without rows. -/
def noRows (t : Table) : Relation orgistry t := Relation.empty

/-- Alice with her two sessions and a password-reset token. -/
def sampleAccount : Database orgistry where
  tables
    | .users => (noRows .users).put (sampleUser 1 "a@x" "old")
    | .sessions => ((noRows .sessions).put (sampleSession 1 1) |>.put (sampleSession 2 1))
    | .passwordResetTokens => (noRows .passwordResetTokens).put (sampleToken 5 1 "a@x")
    | t => noRows t
  clock := 1

def aliceLogsIn (password : String) : Request :=
  .login { email := "a@x", password, issued := { familyId := 7, tokenHash := 7 } }

theorem sampleAccount_consistent : Consistent sampleAccount.tables :=
  .of_rows (by intro t; cases t <;> decide) (by intro t; cases t <;> decide)

end Orgistry.Model
