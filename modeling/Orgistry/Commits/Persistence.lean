import Orgistry.Commits.LifeCycle

/-!
# What persists

For each table a preorder along which its rows change, whatever requests commit
in between.
-/

namespace Orgistry.Model

open ReadCommitted

/-- The password only changes together with its log, and the normalized address
only together with its counter. -/
structure User.Later (old new : User) : Prop where
  log : old.passwordLog <+: new.passwordLog
  hash : new.passwordLog.length = old.passwordLog.length → new.passwordHash = old.passwordHash
  changes : old.emailChanges ≤ new.emailChanges
  address : new.emailChanges = old.emailChanges → new.normalizedEmail = old.normalizedEmail
  rewrites : old.emailWrites ≤ new.emailWrites
  email : new.emailWrites = old.emailWrites →
    new.email = old.email ∧ new.normalizedEmail = old.normalizedEmail

structure Session.Later (old new : Session) : Prop where
  id : new.id = old.id
  userId : new.userId = old.userId
  expiresAt : new.expiresAt = old.expiresAt
  verifiedAfter : new.verifiedAfter = old.verifiedAfter
  revoked : old.revokedAt ≠ none → new.revokedAt ≠ none

structure RefreshToken.Later (old new : RefreshToken) : Prop where
  sessionId : new.sessionId = old.sessionId
  familyId : new.familyId = old.familyId
  parentTokenId : new.parentTokenId = old.parentTokenId
  tokenHash : new.tokenHash = old.tokenHash
  mintedBy : new.mintedBy = old.mintedBy
  used : old.usedAt ≠ none → new.usedAt ≠ none
  replacement : ∀ {x}, old.replacementTokenId = some x → new.replacementTokenId = some x
  revoked : old.revokedAt ≠ none → new.revokedAt ≠ none

structure AccountToken.Later (old new : AccountToken) : Prop where
  id : new.id = old.id
  userId : new.userId = old.userId
  expiresAt : new.expiresAt = old.expiresAt
  mailedTo : new.mailedTo = old.mailedTo
  mailedAfter : new.mailedAfter = old.mailedAfter
  settled : old.unsettled = false → new.unsettled = false

structure Invitation.Later (old new : Invitation) : Prop where
  organizationId : new.organizationId = old.organizationId
  role : new.role = old.role
  invitedByUserId : new.invitedByUserId = old.invitedByUserId
  invitedEmailNormalized : new.invitedEmailNormalized = old.invitedEmailNormalized
  tokenHash : new.tokenHash = old.tokenHash
  expiresAt : new.expiresAt = old.expiresAt
  accepted : old.status = .accepted → new = old
  revoked : old.status = .revoked → new = old
  settled : old.status ≠ .pending → new.status ≠ .pending

/-- A membership only ends. -/
structure Membership.Later (old new : Membership) : Prop where
  userId : new.userId = old.userId
  organizationId : new.organizationId = old.organizationId
  ended : old.status ≠ .active → new.status ≠ .active

structure ProjectRow.Later (old new : ProjectRow) : Prop where
  organizationId : new.organizationId = old.organizationId
  deleted : old.deletedAt ≠ none → new.deletedAt ≠ none

structure ApiKeyRow.Later (old new : ApiKeyRow) : Prop where
  organizationId : new.organizationId = old.organizationId
  expiresAt : new.expiresAt = old.expiresAt
  revoked : old.revokedAt ≠ none → new.revokedAt ≠ none

variable {cfg : Config} {tx : Tx orgistry} {db : Database orgistry} {v w : History orgistry}
  {x : Id}

theorem User.Later.refl (user : User) : user.Later user :=
  ⟨List.prefix_rfl, fun _ => rfl, Nat.le_refl _, fun _ => rfl, Nat.le_refl _,
    fun _ => ⟨rfl, rfl⟩⟩

theorem User.Later.trans {a b c : User} (hab : a.Later b) (hbc : b.Later c) : a.Later c where
  log := hab.log.trans hbc.log
  hash h := by
    have h₁ := hab.log.length_le
    have h₂ := hbc.log.length_le
    rw [hbc.hash (by omega), hab.hash (by omega)]
  changes := Nat.le_trans hab.changes hbc.changes
  address h := by
    have h₁ := hab.changes
    have h₂ := hbc.changes
    rw [hbc.address (by omega), hab.address (by omega)]
  rewrites := Nat.le_trans hab.rewrites hbc.rewrites
  email h := by
    have h₁ := hab.rewrites
    have h₂ := hbc.rewrites
    obtain ⟨hemail, hnormalized⟩ := hbc.email (by omega)
    obtain ⟨hemail', hnormalized'⟩ := hab.email (by omega)
    exact ⟨hemail.trans hemail', hnormalized.trans hnormalized'⟩

theorem UserStep.later {old new : User} (h : UserStep tx db (some old) new) :
    old.Later new := by
  cases h with
  | changePassword =>
      exact ⟨List.prefix_append _ _, by simp, Nat.le_refl _, fun _ => rfl, Nat.le_refl _,
        fun _ => ⟨rfl, rfl⟩⟩
  | resetPassword =>
      exact ⟨List.prefix_append _ _, by simp, Nat.le_refl _, fun _ => rfl, Nat.le_refl _,
        fun _ => ⟨rfl, rfl⟩⟩
  | changeEmail hnormal hsettled =>
      refine ⟨List.prefix_rfl, fun _ => rfl, ?_, ?_, Nat.le_succ _, ?_⟩
      · dsimp only
        split <;> omega
      · dsimp only
        split
        · next heq => exact fun _ => heq
        · intro h
          omega
      · dsimp only
        intro h
        omega
  | verify =>
      exact ⟨List.prefix_rfl, fun _ => rfl, Nat.le_refl _, fun _ => rfl, Nat.le_refl _,
        fun _ => ⟨rfl, rfl⟩⟩

theorem Session.Later.refl (session : Session) : session.Later session :=
  ⟨rfl, rfl, rfl, rfl, fun h => h⟩

theorem Session.Later.trans {a b c : Session} (hab : a.Later b) (hbc : b.Later c) :
    a.Later c :=
  ⟨hbc.id.trans hab.id, hbc.userId.trans hab.userId, hbc.expiresAt.trans hab.expiresAt,
    hbc.verifiedAfter.trans hab.verifiedAfter, fun h => hbc.revoked (hab.revoked h)⟩

theorem SessionStep.later {old new : Session} (h : SessionStep tx db (some old) new) :
    old.Later new := by
  cases h with
  | touch => exact ⟨rfl, rfl, rfl, rfl, fun h => h⟩
  | revoke => exact ⟨rfl, rfl, rfl, rfl, by simp⟩

theorem RefreshToken.Later.refl (token : RefreshToken) : token.Later token :=
  ⟨rfl, rfl, rfl, rfl, rfl, fun h => h, fun h => h, fun h => h⟩

theorem RefreshToken.Later.trans {a b c : RefreshToken} (hab : a.Later b) (hbc : b.Later c) :
    a.Later c :=
  ⟨hbc.sessionId.trans hab.sessionId, hbc.familyId.trans hab.familyId,
    hbc.parentTokenId.trans hab.parentTokenId, hbc.tokenHash.trans hab.tokenHash,
    hbc.mintedBy.trans hab.mintedBy, fun h => hbc.used (hab.used h),
    fun h => hbc.replacement (hab.replacement h), fun h => hbc.revoked (hab.revoked h)⟩

theorem RefreshTokenStep.later {old new : RefreshToken}
    (h : RefreshTokenStep tx db (some old) new) : old.Later new := by
  cases h with
  | spend hrotation =>
      refine ⟨rfl, rfl, rfl, rfl, rfl, by simp [RefreshToken.spend], ?_, fun h => h⟩
      intro x hx
      simp [hrotation.fresh.2.2] at hx
  | revoke => exact ⟨rfl, rfl, rfl, rfl, rfl, fun h => h, fun h => h, by simp⟩

theorem AccountToken.Later.refl (token : AccountToken) : token.Later token :=
  ⟨rfl, rfl, rfl, rfl, rfl, fun h => h⟩

theorem AccountToken.Later.trans {a b c : AccountToken} (hab : a.Later b) (hbc : b.Later c) :
    a.Later c :=
  ⟨hbc.id.trans hab.id, hbc.userId.trans hab.userId, hbc.expiresAt.trans hab.expiresAt,
    hbc.mailedTo.trans hab.mailedTo, hbc.mailedAfter.trans hab.mailedAfter,
    fun h => hbc.settled (hab.settled h)⟩

theorem AccountTokenStep.later {issued : AccountToken → Prop} {old new : AccountToken}
    (h : AccountTokenStep db issued (some old) new) : old.Later new := by
  cases h with
  | invalidate =>
      exact ⟨rfl, rfl, rfl, rfl, rfl,
        by simp [AccountToken.unsettled, AccountToken.invalidate]⟩
  | consume =>
      exact ⟨rfl, rfl, rfl, rfl, rfl, by simp [AccountToken.unsettled, AccountToken.consume]⟩

theorem Invitation.Later.refl (invitation : Invitation) : invitation.Later invitation :=
  ⟨rfl, rfl, rfl, rfl, rfl, rfl, fun _ => rfl, fun _ => rfl, fun h => h⟩

theorem Invitation.Later.trans {a b c : Invitation} (hab : a.Later b) (hbc : b.Later c) :
    a.Later c where
  organizationId := hbc.organizationId.trans hab.organizationId
  role := hbc.role.trans hab.role
  invitedByUserId := hbc.invitedByUserId.trans hab.invitedByUserId
  invitedEmailNormalized := hbc.invitedEmailNormalized.trans hab.invitedEmailNormalized
  tokenHash := hbc.tokenHash.trans hab.tokenHash
  expiresAt := hbc.expiresAt.trans hab.expiresAt
  accepted h := by
    obtain rfl := hab.accepted h
    exact hbc.accepted h
  revoked h := by
    obtain rfl := hab.revoked h
    exact hbc.revoked h
  settled h := hbc.settled (hab.settled h)

theorem assertAcceptable_eq_none {invitation : Invitation} {now : ℕ} :
    assertAcceptable invitation now = none ↔ invitation.status ≠ .accepted ∧
      invitation.status ≠ .revoked ∧ now < invitation.expiresAt := by
  by_cases haccepted : invitation.status = .accepted
  · simp [assertAcceptable, haccepted]
  · by_cases hrevoked : invitation.status = .revoked
    · simp [assertAcceptable, hrevoked]
    · simp [assertAcceptable, isExpired, haccepted, hrevoked]

theorem InvitationStep.later {old new : Invitation}
    (h : InvitationStep cfg tx db (some old) new) : old.Later new := by
  cases h with
  | expire hpending =>
      exact ⟨rfl, rfl, rfl, rfl, rfl, rfl, by simp [hpending], by simp [hpending], by simp⟩
  | accept hacceptable =>
      obtain ⟨haccepted, hrevoked, -⟩ := assertAcceptable_eq_none.mp hacceptable
      exact ⟨rfl, rfl, rfl, rfl, rfl, rfl, fun h => absurd h haccepted, fun h => absurd h hrevoked,
        by simp [acceptedInvitation]⟩
  | revoke hacceptable =>
      obtain ⟨haccepted, hrevoked, -⟩ := assertAcceptable_eq_none.mp hacceptable
      exact ⟨rfl, rfl, rfl, rfl, rfl, rfl, fun h => absurd h haccepted, fun h => absurd h hrevoked,
        by simp⟩

theorem Membership.Later.refl (membership : Membership) : membership.Later membership :=
  ⟨rfl, rfl, fun h => h⟩

theorem Membership.Later.trans {a b c : Membership} (hab : a.Later b) (hbc : b.Later c) :
    a.Later c :=
  ⟨hbc.userId.trans hab.userId, hbc.organizationId.trans hab.organizationId,
    fun h => hbc.ended (hab.ended h)⟩

theorem MembershipStep.later {old new : Membership}
    (h : MembershipStep cfg tx db (some old) new) : old.Later new := by
  cases h with
  | changeRole => exact ⟨rfl, rfl, fun h => h⟩
  | remove => exact ⟨rfl, rfl, by simp⟩

theorem ProjectRow.Later.refl (project : ProjectRow) : project.Later project :=
  ⟨rfl, fun h => h⟩

theorem ProjectRow.Later.trans {a b c : ProjectRow} (hab : a.Later b) (hbc : b.Later c) :
    a.Later c :=
  ⟨hbc.organizationId.trans hab.organizationId, fun h => hbc.deleted (hab.deleted h)⟩

theorem ProjectStep.later {old new : ProjectRow} (h : ProjectStep cfg tx db (some old) new) :
    old.Later new := by
  cases h with
  | delete => exact ⟨rfl, by simp⟩

theorem ApiKeyRow.Later.refl (key : ApiKeyRow) : key.Later key := ⟨rfl, rfl, fun h => h⟩

theorem ApiKeyRow.Later.trans {a b c : ApiKeyRow} (hab : a.Later b) (hbc : b.Later c) :
    a.Later c :=
  ⟨hbc.organizationId.trans hab.organizationId, hbc.expiresAt.trans hab.expiresAt,
    fun h => hbc.revoked (hab.revoked h)⟩

theorem ApiKeyStep.later {old new : ApiKeyRow} (h : ApiKeyStep cfg tx db (some old) new) :
    old.Later new := by
  cases h with
  | revoke => exact ⟨rfl, rfl, by simp⟩

/-! ## Across one commit -/

/-- A run keeps the committed rows consistent. -/
theorem consistent_later (h : Moves (Guarantee cfg) v w) (hv : Consistent v.now.tables) :
    Consistent w.now.tables :=
  h.preserves (P := fun db => Consistent db.tables) (fun _ _ hdb => hdb)
    (fun tx _ hsound _ _ => hsound.consistent _ tx.current_mem_layers) hv

/-- A row after a commit was there before, or is new. -/
private theorem row_origin {t : Table} {R : Row t → Row t → Prop} (hrefl : ∀ row, R row row)
    (hlegal : ∀ {old new : Row t}, Legal cfg tx db t (some old) new → R old new)
    (hG : Guarantee cfg tx db) {new : Row t} (hnew : (db.apply tx.writes).get t x = some new) :
    (∃ old, db.get t x = some old ∧ R old new) ∨
      (db.get t x = none ∧ Legal cfg tx db t none new) := by
  rcases hG.origin hnew with ⟨old, hold, hstep⟩ | hfresh
  · refine .inl ⟨old, hold, ?_⟩
    rcases hstep with rfl | hstep
    · exact hrefl _
    · exact hlegal hstep
  · exact .inr hfresh

theorem Guarantee.session_origin (hG : Guarantee cfg tx db) {new : Session}
    (hnew : (db.apply tx.writes).get .sessions x = some new) :
    (∃ old : Session, db.get .sessions x = some old ∧ old.Later new) ∨
      (db.get .sessions x = none ∧ SessionStep tx db none new) :=
  row_origin (t := .sessions) (R := Session.Later) Session.Later.refl SessionStep.later hG hnew

theorem Guarantee.refreshToken_origin (hG : Guarantee cfg tx db) {new : RefreshToken}
    (hnew : (db.apply tx.writes).get .refreshTokens x = some new) :
    (∃ old : RefreshToken, db.get .refreshTokens x = some old ∧ old.Later new) ∨
      (db.get .refreshTokens x = none ∧ RefreshTokenStep tx db none new) :=
  row_origin (t := .refreshTokens) (R := RefreshToken.Later)
    RefreshToken.Later.refl RefreshTokenStep.later hG hnew

theorem Guarantee.invitation_origin (hG : Guarantee cfg tx db) {new : Invitation}
    (hnew : (db.apply tx.writes).get .invitations x = some new) :
    (∃ old : Invitation, db.get .invitations x = some old ∧ old.Later new) ∨
      (db.get .invitations x = none ∧ InvitationStep cfg tx db none new) :=
  row_origin (t := .invitations) (R := Invitation.Later)
    Invitation.Later.refl InvitationStep.later hG hnew

theorem Guarantee.refreshToken_later (hG : Guarantee cfg tx db) {old : RefreshToken}
    (hold : db.get .refreshTokens x = some old) :
    ∃ new : RefreshToken, (db.apply tx.writes).get .refreshTokens x = some new ∧
      old.Later new := by
  obtain ⟨new, hnew, rfl | hlegal⟩ := hG.step hold
  · exact ⟨_, hnew, .refl _⟩
  · exact ⟨new, hnew, RefreshTokenStep.later hlegal⟩

/-- A table whose rows only change along the preorder `R` does so in a run. -/
private theorem row_persists {t : Table} {R : Row t → Row t → Prop} (hrefl : ∀ row, R row row)
    (htrans : ∀ {a b c}, R a b → R b c → R a c)
    (hlegal : ∀ {tx : Tx orgistry} {db : Database orgistry} {old new : Row t},
      Legal cfg tx db t (some old) new → R old new)
    (h : Moves (Guarantee cfg) v w) {old : Row t} (hold : v.now.get t x = some old) :
    ∃ new : Row t, w.now.get t x = some new ∧ R old new := by
  refine h.evolves (R := R) hrefl htrans ?_ hold
  intro tx db x old new hG hget hnew
  have hstep := hG hnew
  rw [hget] at hstep
  exact hlegal hstep

theorem user_persists (h : Moves (Guarantee cfg) v w) {old : User}
    (hold : v.now.get .users x = some old) :
    ∃ new : User, w.now.get .users x = some new ∧ old.Later new :=
  row_persists (t := .users) (R := User.Later)
    User.Later.refl User.Later.trans UserStep.later h hold

theorem session_persists (h : Moves (Guarantee cfg) v w) {old : Session}
    (hold : v.now.get .sessions x = some old) :
    ∃ new : Session, w.now.get .sessions x = some new ∧ old.Later new :=
  row_persists (t := .sessions) (R := Session.Later)
    Session.Later.refl Session.Later.trans SessionStep.later h hold

theorem refreshToken_persists (h : Moves (Guarantee cfg) v w) {old : RefreshToken}
    (hold : v.now.get .refreshTokens x = some old) :
    ∃ new : RefreshToken, w.now.get .refreshTokens x = some new ∧ old.Later new :=
  row_persists (t := .refreshTokens) (R := RefreshToken.Later)
    RefreshToken.Later.refl RefreshToken.Later.trans RefreshTokenStep.later h hold

theorem verificationToken_persists (h : Moves (Guarantee cfg) v w) {old : AccountToken}
    (hold : v.now.get .emailVerificationTokens x = some old) :
    ∃ new : AccountToken, w.now.get .emailVerificationTokens x = some new ∧ old.Later new :=
  row_persists (t := .emailVerificationTokens) (R := AccountToken.Later)
    AccountToken.Later.refl AccountToken.Later.trans AccountTokenStep.later h hold

theorem resetToken_persists (h : Moves (Guarantee cfg) v w) {old : AccountToken}
    (hold : v.now.get .passwordResetTokens x = some old) :
    ∃ new : AccountToken, w.now.get .passwordResetTokens x = some new ∧ old.Later new :=
  row_persists (t := .passwordResetTokens) (R := AccountToken.Later)
    AccountToken.Later.refl AccountToken.Later.trans AccountTokenStep.later h hold

theorem membership_persists (h : Moves (Guarantee cfg) v w) {old : Membership}
    (hold : v.now.get .memberships x = some old) :
    ∃ new : Membership, w.now.get .memberships x = some new ∧ old.Later new :=
  row_persists (t := .memberships) (R := Membership.Later)
    Membership.Later.refl Membership.Later.trans MembershipStep.later h hold

theorem project_persists (h : Moves (Guarantee cfg) v w) {old : ProjectRow}
    (hold : v.now.get .projects x = some old) :
    ∃ new : ProjectRow, w.now.get .projects x = some new ∧ old.Later new :=
  row_persists (t := .projects) (R := ProjectRow.Later)
    ProjectRow.Later.refl ProjectRow.Later.trans ProjectStep.later h hold

theorem apiKey_persists (h : Moves (Guarantee cfg) v w) {old : ApiKeyRow}
    (hold : v.now.get .apiKeys x = some old) :
    ∃ new : ApiKeyRow, w.now.get .apiKeys x = some new ∧ old.Later new :=
  row_persists (t := .apiKeys) (R := ApiKeyRow.Later)
    ApiKeyRow.Later.refl ApiKeyRow.Later.trans ApiKeyStep.later h hold

theorem invitation_persists (h : Moves (Guarantee cfg) v w) {old : Invitation}
    (hold : v.now.get .invitations x = some old) :
    ∃ new : Invitation, w.now.get .invitations x = some new ∧ old.Later new :=
  row_persists (t := .invitations) (R := Invitation.Later)
    Invitation.Later.refl Invitation.Later.trans InvitationStep.later h hold

end Orgistry.Model
