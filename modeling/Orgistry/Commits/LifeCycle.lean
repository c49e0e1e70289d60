import Orgistry.Model.Server
import Orgistry.ReadCommitted.Rules

/-!
# Life cycles of rows

What a commit may do to one row, table by table, and what the committing
transaction knows about the database at that instant.  `Guarantee` is the
contract that every request keeps towards all others.
-/

namespace Orgistry.Model

open ReadCommitted

/-- Sessions of the user that the snapshot shows are ended after the commit,
except the kept one. -/
def OthersEnded (after snapshot : Database orgistry) (userId keptSessionId : Id) : Prop :=
  ∀ {x : Id} {session : Session}, after.get .sessions x = some session →
    session.userId = userId → x ≠ keptSessionId → snapshot.get .sessions x ≠ none →
      session.revokedAt ≠ none

/-- The stored session was neither revoked nor expired when authentication saw it. -/
def OpenWhenSeen (db : Database orgistry) (sessionId : Id) (seen : SeenSession) : Prop :=
  seen.revokedAt = none ∧ ∃ session : Session, db.get .sessions sessionId = some session ∧
    seen.checkedAt < session.expiresAt

/-- Every other token of the user is settled among the rows `after`, if `shown`
holds of it. -/
def OthersSettled (after : Id → Option AccountToken) (shown : Id → Prop)
    (token : AccountToken) : Prop :=
  ∀ ⦃x : Id⦄ ⦃other : AccountToken⦄, after x = some other → other.userId = token.userId →
    x ≠ token.id → shown x → other.unsettled = false

variable (cfg : Config) (tx : Tx orgistry) (db : Database orgistry)

/-- The rows that occupy a quota of the organization. -/
def occupies (kind : OrganizationQuotaKind) (organizationId : Id) : {t : Table} → Row t → Bool
  | .memberships, row =>
      kind = .members && row.organizationId = organizationId && row.status = .active
  | .invitations, row =>
      kind = .members && row.organizationId = organizationId && row.status = .pending
  | .projects, row => kind = .projects && ProjectRepository.isActive organizationId row
  | .apiKeys, row =>
      kind = .apiKeys && row.organizationId = organizationId && row.revokedAt.isNone
  | _, _ => false

/-- Every row that occupies the quota was there already. -/
def KnownSince (kind : OrganizationQuotaKind) (organizationId : Id)
    (since db : Database orgistry) : Prop :=
  ∀ ⦃t : Table⦄ ⦃x : Id⦄ ⦃row : Row t⦄, db.get t x = some row →
    occupies kind organizationId row → since.get t x ≠ none

def countRows (t : Table) (p : Row t → Bool) (db : Database orgistry) : ℕ :=
  (db.tables t).count p

/-- The transaction holds the quota lock of the organization, and it has counted
fewer than the plan in force allows. -/
def QuotaChecked (kind : OrganizationQuotaKind) (organizationId : Id)
    (count : Database orgistry → ℕ) (limit : PlanKey → ℕ) : Prop :=
  ∃ (since : Database orgistry) (plan : OrganizationPlan),
    (⟨.advisoryLocks, cfg.hashtextextended (quotaLockText kind organizationId), .update,
      since⟩ : Lock orgistry) ∈ tx.locks ∧
    since.get .organizations organizationId ≠ none ∧
    db.get .organizationPlans plan.id = some plan ∧ plan.organizationId = organizationId ∧
    (KnownSince kind organizationId since db → count db < limit plan.planKey)

/-- The commit adds no row to the table, except one. -/
def OnlyNew (t : Table) (x : Id) : Prop :=
  ∀ ⦃y : Id⦄, (tx.writes t).get y ≠ none → db.get t y = none → y = x

inductive UserStep : Option User → User → Prop
  | register {id : Id} {pending : PendingRegistration} {now : ℕ}
      (hstored : db.get .pendingRegistrations pending.id = some pending)
      (hunsettled : pending.unsettled)
      (hconsumed : (db.apply tx.writes).get .pendingRegistrations pending.id =
        some { pending with usedAt := some now }) :
      UserStep none (RegistrationRepository.registeredUser pending now id)
  /-- The last two hypotheses tie the session and the hash that were checked to the
  stored ones. -/
  | changePassword {old : User} {hash : String} {now : ℕ} {keptSessionId : Id}
      {seen : SeenSession} {verifiedHash : String} {verifiedAfter : ℕ}
      {snapshot : Database orgistry}
      (hsnapshot : (Table.sessions, snapshot) ∈ tx.snapshots)
      (hended : OthersEnded (db.apply tx.writes) snapshot old.id keptSessionId)
      (hseen : OpenWhenSeen db keptSessionId seen)
      (hverified : old.passwordLog.length = verifiedAfter → old.passwordHash = verifiedHash) :
      UserStep (some old)
        { old with
          passwordHash := hash
          updatedAt := now
          passwordLog :=
            old.passwordLog ++ [.changed keptSessionId seen verifiedHash verifiedAfter] }
  | resetPassword {old : User} {token : AccountToken} {hash : String} {now : ℕ}
      (htoken : db.get .passwordResetTokens token.id = some token)
      (hunsettled : token.unsettled) (huser : token.userId = old.id)
      (hconsumed : (db.apply tx.writes).get .passwordResetTokens token.id =
        some (token.consume now))
      (hended : ∀ {x : Id} {session : Session},
        (db.apply tx.writes).get .sessions x = some session →
          session.userId = old.id → session.revokedAt ≠ none) :
      UserStep (some old)
        { old with
          passwordHash := hash
          updatedAt := now
          passwordLog := old.passwordLog ++ [.reset] }
  | changeEmail {old : User} {email normalizedEmail : String} {now : ℕ}
      (hnormal : normalizedEmail = normalizeEmail email)
      (hsettled : normalizedEmail ≠ old.normalizedEmail → ∀ {x : Id} {token : AccountToken},
        (db.apply tx.writes).get .emailVerificationTokens x = some token →
          token.userId = old.id → token.unsettled = false) :
      UserStep (some old)
        { old with
          email
          normalizedEmail
          emailVerifiedAt := none
          updatedAt := now
          emailChanges :=
            if normalizedEmail = old.normalizedEmail then old.emailChanges
            else old.emailChanges + 1
          emailWrites := old.emailWrites + 1
          verifiedFor := none }
  | verify {old : User} {token : AccountToken} {now : ℕ}
      (htoken : db.get .emailVerificationTokens token.id = some token)
      (hunsettled : token.unsettled) (huser : token.userId = old.id)
      (hconsumed : (db.apply tx.writes).get .emailVerificationTokens token.id =
        some (token.consume now)) :
      UserStep (some old)
        { old with
          emailVerifiedAt := some now
          updatedAt := now
          verifiedFor := some token.mailedTo }

inductive SessionStep : Option Session → Session → Prop
  | login {new : Session} (hopen : new.revokedAt = none) : SessionStep none new
  | register {new : Session} {user : User} (hopen : new.revokedAt = none)
      (hnew : db.get .users user.id = none) (huser : new.userId = user.id)
      (hafter : (db.apply tx.writes).get .users user.id = some user)
      (hlog : user.passwordLog = []) : SessionStep none new
  | touch {old : Session} {now : ℕ} : SessionStep (some old) { old with updatedAt := now }
  | revoke {old : Session} {now : ℕ} {reason : RevokeReason} :
      SessionStep (some old)
        { old with revokedAt := some now, revokedReason := some reason, updatedAt := now }

/-- A token that nobody has consumed in any way. -/
def RefreshToken.fresh (token : RefreshToken) : Prop :=
  token.usedAt = none ∧ token.revokedAt = none ∧ token.replacementTokenId = none

/-- `token` after its rotation to `successor`. -/
def RefreshToken.spend (token successor : RefreshToken) (now : ℕ) : RefreshToken :=
  { token with usedAt := some now, replacementTokenId := some successor.id }

/-- One rotation: the presented token is spent and its successor is inserted by
the same commit. -/
structure Rotation (token successor : RefreshToken) (now : ℕ) : Prop where
  stored : db.get .refreshTokens token.id = some token
  fresh : token.fresh
  isNew : db.get .refreshTokens successor.id = none
  follows : ∃ request params,
    successor = AuthRepository.successorOf request params token successor.id
  spent : (db.apply tx.writes).get .refreshTokens token.id = some (token.spend successor now)
  minted : (db.apply tx.writes).get .refreshTokens successor.id = some successor

inductive RefreshTokenStep : Option RefreshToken → RefreshToken → Prop
  | issue {new : RefreshToken} (hroot : new.parentTokenId = none) (hfresh : new.fresh) :
      RefreshTokenStep none new
  | mint {token new : RefreshToken} {now : ℕ} (h : Rotation tx db token new now) :
      RefreshTokenStep none new
  | spend {token successor : RefreshToken} {now : ℕ} (h : Rotation tx db token successor now) :
      RefreshTokenStep (some token) (token.spend successor now)
  | revoke {old : RefreshToken} {now : ℕ} {reason : RevokeReason} :
      RefreshTokenStep (some old)
        { old with revokedAt := some now, revokedReason := some reason }

/-- The tokens that the snapshot of the retiring statement showed are settled,
and so is whatever else the transaction has written. -/
def VerificationIssued (token : AccountToken) : Prop :=
  ∃ snapshot, (Table.emailVerificationTokens, snapshot) ∈ tx.snapshots ∧
    OthersSettled ((db.apply tx.writes).get .emailVerificationTokens)
      (fun x => snapshot.get .emailVerificationTokens x ≠ none ∨
        db.get .emailVerificationTokens x = none) token

/-- All other tokens of the user are settled. -/
def ResetIssued (token : AccountToken) : Prop :=
  OthersSettled ((db.apply tx.writes).get .passwordResetTokens) (fun _ => True) token

/-- For both tables of mailed tokens; `issued` is what an issuance achieves.  A
token is consumed on a clock reading that lies before the commit. -/
inductive AccountTokenStep (issued : AccountToken → Prop) :
    Option AccountToken → AccountToken → Prop
  | issue {id : Id} (params : IssueTokenParams) (huser : db.get .users params.userId ≠ none)
      (hissued : issued (params.row id)) :
      AccountTokenStep issued none (params.row id)
  | invalidate {old : AccountToken} {now : ℕ} (hunsettled : old.unsettled) :
      AccountTokenStep issued (some old) (old.invalidate now)
  | consume {old : AccountToken} {now : ℕ} (hunsettled : old.unsettled)
      (hunexpired : now < old.expiresAt) (hclock : now ≤ db.clock) :
      AccountTokenStep issued (some old) (old.consume now)

inductive PendingRegistrationStep : Option PendingRegistration → PendingRegistration → Prop
  | issue {new : PendingRegistration} (hunsettled : new.unsettled)
      (hnormal : new.normalizedEmail = normalizeEmail new.email) :
      PendingRegistrationStep none new
  | invalidate {old : PendingRegistration} {now : ℕ} (hunsettled : old.unsettled) :
      PendingRegistrationStep (some old) (old.invalidate now)
  | consume {old : PendingRegistration} {now : ℕ} (hunsettled : old.unsettled) :
      PendingRegistrationStep (some old) { old with usedAt := some now }

/-- An active owner membership, committed at this instant. -/
def ActiveOwner (organizationId membershipId : Id) : Prop :=
  ∃ membership : Membership, db.get .memberships membershipId = some membership ∧
    isActiveOwnerOf organizationId membership

inductive MembershipStep : Option Membership → Membership → Prop
  | found {new : Membership} {organization : Organization}
      (hgrant : new.grantedBy = .founder)
      (hnew : db.get .organizations new.organizationId = none)
      (hstored : (db.apply tx.writes).get .organizations new.organizationId =
        some organization)
      (hfounder : organization.createdByUserId = new.userId) : MembershipStep none new
  /-- An address that was never rewritten is the one that the acceptance has
  compared. -/
  | accept {id : Id} {invitation : Invitation} {now : ℕ} (params : AcceptInvitationParams)
      (hstored : db.get .invitations invitation.id = some invitation)
      (hacceptable : assertAcceptable invitation now = none) (hclock : now ≤ db.clock)
      (hemail : invitation.invitedEmailNormalized = params.acceptingUserNormalizedEmail)
      (haddress : ∃ user : User,
        (db.apply tx.writes).get .users params.acceptingUserId = some user ∧
          (user.emailWrites = 0 →
            params.acceptingUserNormalizedEmail = user.normalizedEmail ∨
              params.acceptingUserNormalizedEmail = normalizeEmail user.email))
      (haccepted : (db.apply tx.writes).get .invitations invitation.id =
        some (acceptedInvitation params.acceptingUserId now invitation))
      (hquota : QuotaChecked cfg tx db .members invitation.organizationId
        (countRows .memberships (occupies .members invitation.organizationId)) maxMembers)
      (hfounders : ∀ ⦃y : Id⦄ ⦃row : Membership⦄, (tx.writes .memberships).get y = some row →
        y = id ∨ row.grantedBy = .founder) :
      MembershipStep none (acceptedMembership params invitation now id)
  | changeRole {old : Membership} {newRole : RoleKey} {now : ℕ} {actorMembershipId : Id}
      (hauthority : roleChangeTouchesOwner old.role newRole →
        ActiveOwner db old.organizationId actorMembershipId)
      (hlast : old.role = .owner → newRole ≠ .owner → ∃ other, other ≠ old.id ∧
        ActiveOwner db old.organizationId other ∧
        ActiveOwner (db.apply tx.writes) old.organizationId other) :
      MembershipStep (some old)
        { old with
          role := newRole
          updatedAt := now
          grantedBy := .roleChange actorMembershipId }
  | remove {old : Membership} {now : ℕ}
      (hlast : old.role = .owner → ∃ other, other ≠ old.id ∧
        ActiveOwner (db.apply tx.writes) old.organizationId other) :
      MembershipStep (some old)
        { old with status := .removed, removedAt := some now, updatedAt := now }

/-- Members and the pending invitations that have not expired at `now`. -/
def countSeats (organizationId : Id) (now : ℕ) (db : Database orgistry) : ℕ :=
  countRows .memberships (occupies .members organizationId) db +
    countRows .invitations (fun (invitation : Invitation) =>
      occupies .members organizationId (t := .invitations) invitation &&
        invitation.expiresAt > now) db

/-- `updatedAt` of a new invitation is the clock reading that its quota check
has used. -/
inductive InvitationStep : Option Invitation → Invitation → Prop
  | create {new : Invitation} (hpending : new.status = .pending)
      (hclock : new.updatedAt ≤ db.clock)
      (hquota : QuotaChecked cfg tx db .members new.organizationId
        (countSeats new.organizationId new.updatedAt) maxMembers)
      (honly : OnlyNew tx db .invitations new.id)
      (hmembers : ∀ x, (tx.writes .memberships).get x = none) : InvitationStep none new
  | expire {old : Invitation} {now : ℕ} (hpending : old.status = .pending)
      (hexpired : old.expiresAt < now) (hclock : now ≤ db.clock) :
      InvitationStep (some old) { old with status := .expired, updatedAt := now }
  | accept {old : Invitation} {now : ℕ} {userId : Id}
      (hacceptable : assertAcceptable old now = none) (hclock : now ≤ db.clock)
      (hmember : ∃ membership : Membership, db.get .memberships membership.id = none ∧
        (db.apply tx.writes).get .memberships membership.id = some membership ∧
        membership.grantedBy = .invitation old.id ∧ membership.userId = userId) :
      InvitationStep (some old) (acceptedInvitation userId now old)
  | revoke {old : Invitation} {now : ℕ} (hacceptable : assertAcceptable old now = none) :
      InvitationStep (some old)
        { old with status := .revoked, revokedAt := some now, updatedAt := now }

inductive OrganizationPlanStep : Option OrganizationPlan → OrganizationPlan → Prop
  | assign {new : OrganizationPlan} (hplan : new.planKey = .free)
      (hnew : db.get .organizations new.organizationId = none) : OrganizationPlanStep none new
  | change {old : OrganizationPlan} {planKey : PlanKey}
      (halone : ∀ (t : Table) (x : Id), t ≠ .organizationPlans → (tx.writes t).get x = none) :
      OrganizationPlanStep (some old) { old with planKey }

inductive ProjectStep : Option ProjectRow → ProjectRow → Prop
  | create {new : ProjectRow}
      (hquota : QuotaChecked cfg tx db .projects new.organizationId
        (countRows .projects (occupies .projects new.organizationId)) maxProjects)
      (honly : OnlyNew tx db .projects new.id) :
      ProjectStep none new
  | delete {old : ProjectRow} {now : ℕ} :
      ProjectStep (some old) { old with deletedAt := some now }

inductive ApiKeyStep : Option ApiKeyRow → ApiKeyRow → Prop
  | create {new : ApiKeyRow} {now : ℕ} (hclock : now ≤ db.clock)
      (hquota : QuotaChecked cfg tx db .apiKeys new.organizationId
        (countRows .apiKeys (ApiKeyRepository.isActive new.organizationId now)) maxApiKeys)
      (honly : OnlyNew tx db .apiKeys new.id) :
      ApiKeyStep none new
  | revoke {old : ApiKeyRow} {now : ℕ} :
      ApiKeyStep (some old) { old with revokedAt := some now }

/-- The step that a commit of `tx` to `db` may do to a row. -/
def Legal : (t : Table) → Option (Row t) → Row t → Prop
  | .users, old, new => UserStep tx db old new
  | .sessions, old, new => SessionStep tx db old new
  | .refreshTokens, old, new => RefreshTokenStep tx db old new
  | .emailVerificationTokens, old, new =>
      AccountTokenStep db (VerificationIssued tx db) old new
  | .passwordResetTokens, old, new => AccountTokenStep db (ResetIssued tx db) old new
  | .pendingRegistrations, old, new => PendingRegistrationStep old new
  | .organizations, old, _ => old = none
  | .memberships, old, new => MembershipStep cfg tx db old new
  | .invitations, old, new => InvitationStep cfg tx db old new
  | .organizationPlans, old, new => OrganizationPlanStep tx db old new
  | .projects, old, new => ProjectStep cfg tx db old new
  | .apiKeys, old, new => ApiKeyStep cfg tx db old new
  | .advisoryLocks, _, _ => True

/-- Every version in `writes` makes a legal step when `tx` commits to `db`. -/
def LegalWrites (writes : Writes orgistry) : Prop :=
  ∀ ⦃t : Table⦄ ⦃x : Id⦄ ⦃new : Row t⦄, (writes t).get x = some new →
    Legal cfg tx db t (db.get t x) new

/-- Every row that the transaction has written makes a legal step. -/
def Guarantee : Prop := LegalWrites cfg tx db tx.writes

variable {cfg tx db}

/-- The rows after a commit are the rows before it, or they made a legal step. -/
theorem Guarantee.after (h : Guarantee cfg tx db) {t : Table} {x : Id} {new : Row t}
    (hnew : (db.apply tx.writes).get t x = some new) :
    db.get t x = some new ∨ Legal cfg tx db t (db.get t x) new := by
  rw [Database.get_apply] at hnew
  cases hwritten : (tx.writes t).get x with
  | none => exact .inl (by simpa [hwritten] using hnew)
  | some row =>
      obtain rfl : row = new := by simpa [hwritten] using hnew
      exact .inr (h hwritten)

/-- A stored row stays, or makes a legal step. -/
theorem Guarantee.step (h : Guarantee cfg tx db) {t : Table} {x : Id} {old : Row t}
    (hold : db.get t x = some old) :
    ∃ new, (db.apply tx.writes).get t x = some new ∧
      (new = old ∨ Legal cfg tx db t (some old) new) := by
  cases hwritten : (tx.writes t).get x with
  | none => exact ⟨old, by rw [Database.get_apply, hwritten, hold]; rfl, .inl rfl⟩
  | some new =>
      exact ⟨new, by rw [Database.get_apply, hwritten]; rfl, .inr (hold ▸ h hwritten)⟩

/-- A row after a commit was there before, made a legal step, or is new. -/
theorem Guarantee.origin (h : Guarantee cfg tx db) {t : Table} {x : Id} {new : Row t}
    (hnew : (db.apply tx.writes).get t x = some new) :
    (∃ old, db.get t x = some old ∧ (new = old ∨ Legal cfg tx db t (some old) new)) ∨
      (db.get t x = none ∧ Legal cfg tx db t none new) := by
  cases hold : db.get t x with
  | none =>
      rcases h.after hnew with hsame | hlegal
      · simp [hold] at hsame
      · exact .inr ⟨rfl, hold ▸ hlegal⟩
  | some old =>
      obtain ⟨new', hnew', hstep⟩ := h.step hold
      obtain rfl : new = new' := by simpa [hnew] using hnew'
      exact .inl ⟨old, rfl, hstep⟩

end Orgistry.Model
