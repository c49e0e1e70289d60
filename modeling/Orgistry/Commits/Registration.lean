import Orgistry.Commits.Invitations

/-!
# The commits of registration requests
-/

namespace Orgistry.Model

open ReadCommitted

variable {cfg : Config} {tx : Tx orgistry} {w w' : History orgistry}

/-- Nothing was accepted: no invitation has changed, and of the memberships only
the owner's is new. -/
def NothingAccepted (before after : Database orgistry) (membership : Membership) : Prop :=
  (∀ x, after.get .invitations x = before.get .invitations x) ∧
    ∀ x ≠ membership.id, after.get .memberships x = before.get .memberships x

/-- The invitation is accepted in favour of the new user and yields `joined`; the
other invitations and memberships stay as they were. -/
structure InvitationTaken (before after : Database orgistry) (user : User)
    (membership : Membership) (invitation : Invitation) (joined : Membership) (now : ℕ) :
    Prop where
  stored : before.get .invitations invitation.id = some invitation
  acceptable : assertAcceptable invitation now = none
  email : invitation.invitedEmailNormalized = user.normalizedEmail
  accepted : after.get .invitations invitation.id =
    some (acceptedInvitation user.id now invitation)
  isNew : before.get .memberships joined.id = none
  joins : after.get .memberships joined.id = some joined
  grant : joined.userId = user.id ∧ joined.organizationId = invitation.organizationId ∧
    joined.status = .active ∧ joined.grantedBy = .invitation invitation.id
  otherInvitations : ∀ x ≠ invitation.id, after.get .invitations x = before.get .invitations x
  otherMemberships : ∀ x, x ≠ membership.id → x ≠ joined.id →
    after.get .memberships x = before.get .memberships x

/-- What becomes of the invitation of a pending registration. -/
def InvitationSettled (before after : Database orgistry) (invitationId : Option Id)
    (user : User) (membership : Membership) : CompletionInvitationOutcome → Prop
  | .none => invitationId = none ∧ NothingAccepted before after membership
  | .unavailable => invitationId ≠ none ∧ NothingAccepted before after membership
  | .accepted => ∃ invitation joined now, invitationId = some (Invitation.id invitation) ∧
      InvitationTaken before after user membership invitation joined now

/-- The whole of a registration, committed at once. -/
structure Registered (before after : Database orgistry) (pending : PendingRegistration)
    (now : ℕ) (user : User) (organization : Organization) (membership : Membership)
    (session : Session) (refreshToken : RefreshToken) (invitation : CompletionInvitationOutcome) :
    Prop where
  stored : before.get .pendingRegistrations pending.id = some pending
  unsettled : pending.unsettled
  marked : after.get .pendingRegistrations pending.id = some { pending with usedAt := some now }
  account : user = RegistrationRepository.registeredUser pending now user.id ∧
    before.get .users user.id = none ∧ after.get .users user.id = some user
  workspace : organization.type = .personal ∧ organization.createdByUserId = user.id ∧
    before.get .organizations organization.id = none ∧
      after.get .organizations organization.id = some organization
  owner : membership.userId = user.id ∧ isActiveOwnerOf organization.id membership ∧
    before.get .memberships membership.id = none ∧
      after.get .memberships membership.id = some membership
  plan : ∃ plan : OrganizationPlan, plan.organizationId = organization.id ∧
    plan.planKey = .free ∧ after.get .organizationPlans plan.id = some plan
  opened : session.userId = user.id ∧ session.revokedAt = none ∧
    before.get .sessions session.id = none ∧ after.get .sessions session.id = some session
  issued : refreshToken.sessionId = session.id ∧ refreshToken.fresh ∧
    before.get .refreshTokens refreshToken.id = none ∧
      after.get .refreshTokens refreshToken.id = some refreshToken
  settled : InvitationSettled before after pending.invitationId user membership invitation

/-- A completion commits all of a registration, or it changes no row. -/
def Completion (before after : Database orgistry) : CompleteRegistrationResult → Prop
  | .completed user organization membership session refreshToken invitation =>
      ∃ pending now, Registered before after pending now user organization membership session
        refreshToken invitation
  | .notFound | .alreadyUsed | .expired | .emailTaken => ∀ t x, after.get t x = before.get t x

namespace RegistrationRepository

/-- Issuances for one address wait for each other, so the `UPDATE` misses none. -/
theorem safe_issuePendingRegistration {params : IssuePendingRegistrationParams}
    {Q : Unit → Tx orgistry → History orgistry → Prop}
    (hnormal : params.normalizedEmail = normalizeEmail params.email)
    (h : ∀ w', Moves (Guarantee cfg) w w' → Q () .begin w') :
    Safe (Guarantee cfg) (issuePendingRegistration cfg params) Q .begin w := by
  refine safe_transaction (safe_bind (safe_advisoryLock fun w₁ h₁ => ?_))
  refine safe_bind (safe_update fun w₂ got tx₁ w₃ h₂ hretired h₃ => ?_)
  refine safe_bind (safe_insert fun w₄ x h₄ hid hinsertable => ?_)
  refine commits_legal (fun w₅ h₅ => ?_) fun w' hmoves => h w' (h₁.moves.trans
    (h₂.moves.trans (h₃.moves.trans (h₄.moves.trans hmoves))))
  refine LegalWrites.insert (LegalWrites.update legalWrites_none hretired h₅.sound
    (Tx.locks_subset_add _ _ _) (fun _ _ => rfl) ?_) hinsertable h₅.sound (List.Subset.refl _)
    (PendingRegistrationStep.issue rfl hnormal)
  intro old hold hp
  simp at hp
  exact PendingRegistrationStep.invalidate hp.2

/-- How the transaction has dealt with the invitation. -/
def Settled (invitationId : Option Id) (newUserId : Id) (normalizedEmail : String)
    (tx tx' : Tx orgistry) : CompletionInvitationOutcome → Prop
  | .none => invitationId = none ∧ tx'.writes = tx.writes
  | .unavailable => invitationId ≠ none ∧ tx'.writes = tx.writes
  | .accepted => ∃ invitation now result, invitationId = some (Invitation.id invitation) ∧
      Accepted ⟨.invitationId (Invitation.id invitation), newUserId, normalizedEmail⟩ invitation
        now result tx tx'

/-- Whatever becomes of the invitation, the registration goes on. -/
theorem safe_settleInvitation {pendingInvitationId context : Option Id}
    {newUserId : Id} {normalizedEmail : String}
    {Q : CompletionInvitationOutcome → Tx orgistry → History orgistry → Prop}
    (hconsistent : Consistent w.now.tables) (hbefore : BeforeAcceptance tx)
    (haddress : ∀ selector, AddressKnown cfg ⟨selector, newUserId, normalizedEmail⟩ tx w)
    (h : ∀ w' outcome tx', Moves (Guarantee cfg) w w' →
      Settled pendingInvitationId newUserId normalizedEmail tx tx' outcome →
      Continues cfg [.memberships, .invitations] [.users, .memberships, .invitations] tx tx' w' →
      Q outcome tx' w') :
    Safe (Guarantee cfg) (settleInvitation cfg pendingInvitationId context newUserId
      normalizedEmail) Q tx w := by
  cases pendingInvitationId with
  | none => exact h w _ tx .refl ⟨rfl, rfl⟩ (.idle (List.Subset.refl _) rfl _ _)
  | some invitationId =>
      change Safe (Guarantee cfg) (if _ then _ else _) Q tx w
      split
      · exact h w _ tx .refl ⟨by simp, rfl⟩ (.idle (List.Subset.refl _) rfl _ _)
      · refine safe_bind (safe_setSavepoint fun w₁ h₁ => ?_)
        have hbefore' : BeforeAcceptance tx.save :=
          ⟨hbefore.invitations, hbefore.founders, hbefore.members, hbefore.plans⟩
        refine safe_bind (safe_acceptInvitationWithinTransaction
          (consistent_later h₁.moves hconsistent) hbefore'
          (fun _ _ hmoves => haddress _ (h₁.moves.trans hmoves))
          fun w₂ result tx₁ h₂ hsaved hpart => ?_)
        have hmoves₂ := h₁.moves.trans h₂
        cases result with
        | ok result =>
            obtain ⟨⟨invitation, now, hdone⟩, hlegal⟩ := hpart result rfl
            have hid : invitation.id = invitationId := of_decide_eq_true hdone.selected
            subst hid
            exact h w₂ _ tx₁ hmoves₂
              ⟨invitation, now, result, rfl, { hdone with memberships := hdone.memberships }⟩
              ⟨hlegal.locks, hlegal.writes, hlegal.legal⟩
        | error error =>
            change Safe (Guarantee cfg) (if _ then _ else _) Q tx₁ w₂
            split
            · refine safe_bind (safe_rollbackToSavepoint fun w₃ h₃ => ?_)
              have hwrites : tx₁.restore.writes = tx.writes := by
                rw [Tx.restore, hsaved]
                rfl
              refine h w₃ _ tx₁.restore (hmoves₂.trans h₃.moves) ⟨by simp, hwrites⟩
                (.idle ?_ hwrites _ _)
              rw [Tx.restore, hsaved]
              exact List.Subset.refl _
            · exact safe_abortWith

/-- What a completion has written by the time it marks the pending registration.
`tx` is the transaction as it was before the invitation was settled. -/
structure Staged (pending : PendingRegistration) (now : ℕ) (user : User)
    (organization : Organization) (membership : Membership) (session : Session)
    (refreshToken : RefreshToken) (outcome : CompletionInvitationOutcome)
    (tx tx' : Tx orgistry) : Prop where
  account : user = registeredUser pending now user.id
  workspace : organization.type = .personal ∧ organization.createdByUserId = user.id
  owner : membership.userId = user.id ∧ isActiveOwnerOf organization.id membership
  opened : session.userId = user.id ∧ session.revokedAt = none
  issued : refreshToken.sessionId = session.id ∧ refreshToken.fresh
  users : tx'.writes .users = (Relation.empty : Relation orgistry .users).put user
  organizations : tx'.writes .organizations =
    (Relation.empty : Relation orgistry .organizations).put organization
  plans : ∃ plan : OrganizationPlan, plan.organizationId = organization.id ∧
    plan.planKey = .free ∧ tx'.writes .organizationPlans =
      (Relation.empty : Relation orgistry .organizationPlans).put plan
  sessions : tx'.writes .sessions = (Relation.empty : Relation orgistry .sessions).put session
  refreshTokens : tx'.writes .refreshTokens =
    (Relation.empty : Relation orgistry .refreshTokens).put refreshToken
  memberships : tx.writes .memberships =
    (Relation.empty : Relation orgistry .memberships).put membership
  invitations : tx.writes .invitations = Relation.empty
  settled : Settled pending.invitationId user.id pending.normalizedEmail tx tx' outcome
  isNew : ∀ {final : Tx orgistry} {db : Database orgistry}, final.Sound db →
    tx'.locks ⊆ final.locks → db.get .users user.id = none ∧
      db.get .organizations organization.id = none ∧
      db.get .memberships membership.id = none ∧ db.get .sessions session.id = none ∧
      db.get .refreshTokens refreshToken.id = none

section Staged

variable {pending : PendingRegistration} {now : ℕ} {user : User} {organization : Organization}
  {membership : Membership} {session : Session} {refreshToken : RefreshToken}
  {outcome : CompletionInvitationOutcome} {tx' final : Tx orgistry} {db : Database orgistry}

/-- The owner's membership is stored, whatever became of the invitation. -/
private theorem Staged.ownerStored
    (h : Staged pending now user organization membership session refreshToken outcome tx tx')
    (hlast : final.writes .memberships = tx'.writes .memberships) :
    (db.apply final.writes).get .memberships membership.id = some membership := by
  have hsettled := h.settled
  have halone : tx'.writes = tx.writes →
      (db.apply final.writes).get .memberships membership.id = some membership := by
    intro hwrites
    rw [hwrites] at hlast
    exact get_apply_of_put (hlast.trans h.memberships)
  cases outcome with
  | none => exact halone hsettled.2
  | unavailable => exact halone hsettled.2
  | accepted =>
      obtain ⟨invitation, at_, result, -, hdone⟩ := hsettled
      have hne : membership.id ≠ result.membership.id := by
        intro heq
        have hfresh := hdone.isFresh
        rw [h.memberships, ← heq] at hfresh
        exact absurd ((Relation.get_put_self (S := orgistry) (t := .memberships)
          Relation.empty membership).symm.trans hfresh) (by simp)
      rw [Database.get_apply, hlast, hdone.memberships, h.memberships]
      have hget := (Relation.get_put_of_ne (S := orgistry) (t := .memberships)
        ((Relation.empty : Relation orgistry .memberships).put membership) result.membership
          hne).trans (Relation.get_put_self _ _)
      rw [hget]
      rfl

/-- What a commit makes of the invitation. -/
private theorem Staged.invitationSettled
    (h : Staged pending now user organization membership session refreshToken outcome tx tx')
    (hsound : final.Sound db) (hlocks : tx'.locks ⊆ final.locks)
    (hlast : ∀ t ≠ .pendingRegistrations, final.writes t = tx'.writes t) :
    InvitationSettled db (db.apply final.writes) pending.invitationId user membership
      outcome := by
  have hemail : user.normalizedEmail = pending.normalizedEmail := by
    rw [h.account]
    rfl
  have hmemberships := hlast .memberships (by simp)
  have hinvitations := hlast .invitations (by simp)
  have hnothing : tx'.writes = tx.writes →
      NothingAccepted db (db.apply final.writes) membership := by
    intro hwrites
    rw [hwrites] at hmemberships hinvitations
    refine ⟨fun x => ?_, fun x hx => ?_⟩
    · rw [Database.get_apply, hinvitations, h.invitations]
      rfl
    · exact get_apply_of_put_ne (hmemberships.trans h.memberships) hx
  have hsettled := h.settled
  cases outcome with
  | none => exact ⟨hsettled.1, hnothing hsettled.2⟩
  | unavailable => exact ⟨hsettled.1, hnothing hsettled.2⟩
  | accepted =>
      obtain ⟨invitation, at_, result, hid, hdone⟩ := hsettled
      obtain ⟨hfresh, hstored, hmarked⟩ := hdone.stored hsound hlocks
      have hjoined : final.writes .memberships =
          ((Relation.empty : Relation orgistry .memberships).put membership).put
            result.membership := by
        rw [hmemberships, hdone.memberships, h.memberships]
      refine ⟨invitation, result.membership, at_, hid,
        { stored := hstored
          acceptable := hdone.acceptable
          email := hdone.email.trans hemail.symm
          accepted := ?_
          isNew := hfresh
          joins := get_apply_of_put hjoined
          grant := by rw [hdone.joined]; exact ⟨rfl, rfl, rfl, rfl⟩
          otherInvitations := fun x hx => ?_
          otherMemberships := fun x hx hx' => ?_ }⟩
      · rw [Database.get_apply_eq_view, Database.view, hinvitations, ← Database.view, hmarked,
          hdone.marked]
      · rw [Database.get_apply, hinvitations, hdone.others hx]
        rfl
      · rw [Database.get_apply, hjoined]
        have hget := (Relation.get_put_of_ne (S := orgistry) (t := .memberships)
          ((Relation.empty : Relation orgistry .memberships).put membership) result.membership
            hx').trans (Relation.get_put_of_ne _ _ hx)
        rw [hget]
        rfl

/-- All of it stands after the commit. -/
private theorem Staged.registered
    (h : Staged pending now user organization membership session refreshToken outcome tx tx')
    (hsound : final.Sound db) (hlocks : tx'.locks ⊆ final.locks)
    (hlast : ∀ t ≠ .pendingRegistrations, final.writes t = tx'.writes t)
    (hstored : db.get .pendingRegistrations pending.id = some pending)
    (hunsettled : pending.unsettled)
    (hmarked : (db.apply final.writes).get .pendingRegistrations pending.id =
      some { pending with usedAt := some now }) :
    Registered db (db.apply final.writes) pending now user organization membership session
      refreshToken outcome := by
  obtain ⟨huser, horganization, hmembership, hsession, htoken⟩ := h.isNew hsound hlocks
  obtain ⟨plan, hof, hfree, hplan⟩ := h.plans
  have hput : ∀ {t : Table} {row : Row t}, t ≠ .pendingRegistrations →
      tx'.writes t = (Relation.empty : Relation orgistry t).put row →
        (db.apply final.writes).get t (rowId row) = some row :=
    fun ht hwrites => get_apply_of_put ((hlast _ ht).trans hwrites)
  exact
    { stored := hstored
      unsettled := hunsettled
      marked := hmarked
      account := ⟨h.account, huser, hput (t := .users) (by simp) h.users⟩
      workspace := ⟨h.workspace.1, h.workspace.2, horganization,
        hput (t := .organizations) (by simp) h.organizations⟩
      owner := ⟨h.owner.1, h.owner.2, hmembership, h.ownerStored (hlast _ (by simp))⟩
      plan := ⟨plan, hof, hfree, hput (t := .organizationPlans) (by simp) hplan⟩
      opened := ⟨h.opened.1, h.opened.2, hsession, hput (t := .sessions) (by simp) h.sessions⟩
      issued := ⟨h.issued.1, h.issued.2, htoken,
        hput (t := .refreshTokens) (by simp) h.refreshTokens⟩
      settled := h.invitationSettled hsound hlocks hlast }

end Staged

/-! ## The account and its invitation -/

/-- What a completion has written before it settles the invitation: the account, its
workspace and its first session.  `tx` is the transaction before the account was inserted,
at `since`. -/
structure AccountOpened (cfg : Config) (pending : PendingRegistration) (now : ℕ) (user : User)
    (organization : Organization) (membership : Membership) (session : Session)
    (refreshToken : RefreshToken) (since : Database orgistry) (tx tx' : Tx orgistry)
    (w : History orgistry) : Prop where
  account : user = registeredUser pending now user.id
  workspace : organization.type = .personal ∧ organization.createdByUserId = user.id
  owner : membership.userId = user.id ∧ isActiveOwnerOf organization.id membership
  opened : session.userId = user.id ∧ session.revokedAt = none
  issued : refreshToken.sessionId = session.id ∧ refreshToken.fresh
  users : tx'.writes .users = (Relation.empty : Relation orgistry .users).put user
  organizations : tx'.writes .organizations =
    (Relation.empty : Relation orgistry .organizations).put organization
  plans : ∃ plan : OrganizationPlan, plan.organizationId = organization.id ∧
    plan.planKey = .free ∧ tx'.writes .organizationPlans =
      (Relation.empty : Relation orgistry .organizationPlans).put plan
  sessions : tx'.writes .sessions = (Relation.empty : Relation orgistry .sessions).put session
  refreshTokens : tx'.writes .refreshTokens =
    (Relation.empty : Relation orgistry .refreshTokens).put refreshToken
  memberships : tx'.writes .memberships =
    (Relation.empty : Relation orgistry .memberships).put membership
  pendingRegistrations : tx'.writes .pendingRegistrations = Relation.empty
  beforeAcceptance : BeforeAcceptance tx'
  isNew : ∀ {final : Tx orgistry} {db : Database orgistry}, final.Sound db →
    tx'.locks ⊆ final.locks → db.get .users user.id = none ∧
      db.get .organizations organization.id = none ∧
      db.get .memberships membership.id = none ∧ db.get .sessions session.id = none ∧
      db.get .refreshTokens refreshToken.id = none
  inserted : Insertable (S := orgistry) since tx (t := .users) user
  continues : Continues cfg
    [.organizations, .memberships, .organizationPlans, .sessions, .refreshTokens]
    [.organizations, .users] (tx.add (t := Table.users) user since) tx' w

section AccountOpened

variable {pending : PendingRegistration} {now : ℕ} {user : User} {organization : Organization}
  {membership : Membership} {session : Session} {refreshToken : RefreshToken}
  {outcome : CompletionInvitationOutcome} {since : Database orgistry} {tx' tx'' final : Tx orgistry}

/-- The account is stored after the commit, whatever else the transaction writes. -/
private theorem AccountOpened.get_user
    (h : AccountOpened cfg pending now user organization membership session refreshToken since
      tx tx' w) (hlast : final.writes .users = tx'.writes .users) (db : Database orgistry) :
    (db.apply final.writes).get .users user.id = some user :=
  get_apply_of_put (hlast.trans h.users)

/-- The three inserts that open the account. -/
private theorem accountOpened {userId : Id} {since₁ since₂ : Database orgistry}
    {w₁ w₂ : History orgistry} (hwrites : tx.writes = Writes.none)
    (haccount : registeredUser pending now userId = user)
    (huser : Insertable (S := orgistry) since tx (t := .users) user)
    (hprovisioned : OrganizationRepository.Provisioned .personal user.id
      (organization, membership) (tx.add (t := Table.users) user since) tx')
    (hworkspace : Continues cfg [.organizations, .memberships, .organizationPlans]
      [.organizations] (tx.add (t := Table.users) user since) tx' w)
    (hsession : Insertable (S := orgistry) since₁ tx' (t := .sessions) session)
    (hopened : session.userId = user.id ∧ session.revokedAt = none)
    (htoken : Insertable (S := orgistry) since₂ (tx'.add (t := Table.sessions) session since₁)
      (t := .refreshTokens) refreshToken)
    (hroot : refreshToken.parentTokenId = none)
    (hissued : refreshToken.sessionId = session.id ∧ refreshToken.fresh)
    (h₁ : Moves (Guarantee cfg) w w₁) (h₂ : Moves (Guarantee cfg) w₁ w₂) :
    AccountOpened cfg pending now user organization membership session refreshToken since tx
      ((tx'.add (t := Table.sessions) session since₁).add (t := Table.refreshTokens) refreshToken
        since₂) w₂ := by
  have hlocks₂ := (tx'.add (t := Table.sessions) session since₁).locks_subset_add
    (t := Table.refreshTokens) refreshToken since₂
  have hlocks₁ := List.Subset.trans (tx'.locks_subset_add (t := Table.sessions) session since₁)
    hlocks₂
  have hfirst : ∀ t ≠ .users, (tx.add (t := Table.users) user since).writes t =
      Relation.empty := by
    intro t ht
    rw [Tx.writes_add_of_ne _ _ _ ht, hwrites]
    rfl
  have husers : tx'.writes .users = (Relation.empty : Relation orgistry .users).put user := by
    rw [hworkspace.writes _ (by simp), Tx.writes_add_self, hwrites]
    rfl
  have hsessions : Continues cfg _ _ _ _ w₁ := Continues.insert hsession [.users]
    fun {final w'} _ hsound hlocks hlast => by
      have hfree := huser.stays_free hsound (List.Subset.trans hworkspace.locks
        (List.Subset.trans (tx'.locks_subset_add (t := Table.sessions) session since₁) hlocks))
      have hput : final.writes .users = (Relation.empty : Relation orgistry .users).put user := by
        rw [hlast _ (by simp), Tx.writes_add_of_ne _ _ _ (by simp), husers]
      exact SessionStep.register hopened.2 hfree hopened.1 (get_apply_of_put hput)
        (by rw [← haccount]; rfl)
  have htokens : Continues cfg _ _ _ _ w₂ := Continues.insert htoken []
    fun {_ _} _ _ _ _ => RefreshTokenStep.issue hroot hissued.2
  obtain ⟨plan, hof, hfree, hplan⟩ := hprovisioned.plans
  have hrest : ∀ t ∉ [Table.sessions, .refreshTokens],
      ((tx'.add (t := Table.sessions) session since₁).add (t := Table.refreshTokens) refreshToken
        since₂).writes t = tx'.writes t := by
    intro t ht
    simp only [List.mem_cons, List.not_mem_nil, or_false, not_or] at ht
    rw [Tx.writes_add_of_ne _ _ _ ht.2, Tx.writes_add_of_ne _ _ _ ht.1]
  exact
    { account := by
        have hid : user.id = userId := by rw [← haccount]; rfl
        rw [hid]
        exact haccount.symm
      workspace := by
        have hshape := hprovisioned.organization
        dsimp only at hshape
        rw [hshape]
        exact ⟨rfl, rfl⟩
      owner := ⟨hprovisioned.membership.1, hprovisioned.membership.2.2.1⟩
      opened := hopened
      issued := hissued
      users := (hrest _ (by simp)).trans husers
      organizations := by
        rw [hrest _ (by simp), hprovisioned.organizations, hfirst _ (by simp)]
      plans := ⟨plan, hof, hfree, by rw [hrest _ (by simp), hplan, hfirst _ (by simp)]⟩
      sessions := by
        rw [Tx.writes_add_of_ne _ _ _ (by simp), Tx.writes_add_self,
          hworkspace.writes _ (by simp), hfirst _ (by simp)]
      refreshTokens := by
        rw [Tx.writes_add_self, Tx.writes_add_of_ne _ _ _ (by simp),
          hworkspace.writes _ (by simp), hfirst _ (by simp)]
      memberships := by
        rw [hrest _ (by simp), hprovisioned.memberships, hfirst _ (by simp)]
      pendingRegistrations := by
        rw [hrest _ (by simp), hworkspace.writes _ (by simp), hfirst _ (by simp)]
      beforeAcceptance := hprovisioned.beforeAcceptance
        (fun t ht => hfirst t (by rintro rfl; simp at ht))
        (fun t ht => hrest t (by
          simp only [List.mem_cons, List.not_mem_nil, or_false] at ht
          rcases ht with rfl | rfl <;> simp))
        (by rw [hrest _ (by simp), hworkspace.writes _ (by simp), hfirst _ (by simp)]) hlocks₁
      isNew := fun hsound hlocks => by
        have hlocks' := List.Subset.trans hlocks₁ hlocks
        obtain ⟨horganization, hmembership⟩ := hprovisioned.isNew hsound hlocks'
        exact ⟨huser.stays_free hsound (List.Subset.trans hworkspace.locks hlocks'),
          horganization, hmembership,
          hsession.stays_free hsound (List.Subset.trans hlocks₂ hlocks),
          htoken.stays_free hsound hlocks⟩
      inserted := huser
      continues := hworkspace.trans (h₁.trans h₂) (hsessions.trans h₂ htokens (by simp)) (by simp) }

/-- The invitation has been settled on top of the account. -/
private theorem AccountOpened.staged
    (h : AccountOpened cfg pending now user organization membership session refreshToken since
      tx tx' w)
    (hsettled : Settled pending.invitationId user.id pending.normalizedEmail tx' tx'' outcome)
    (hlegal : Continues cfg [.memberships, .invitations] [.users, .memberships, .invitations] tx'
      tx'' w') :
    Staged pending now user organization membership session refreshToken outcome tx' tx'' := by
  obtain ⟨plan, hof, hfree, hplan⟩ := h.plans
  exact
    { account := h.account
      workspace := h.workspace
      owner := h.owner
      opened := h.opened
      issued := h.issued
      users := (hlegal.writes _ (by simp)).trans h.users
      organizations := (hlegal.writes _ (by simp)).trans h.organizations
      plans := ⟨plan, hof, hfree, (hlegal.writes _ (by simp)).trans hplan⟩
      sessions := (hlegal.writes _ (by simp)).trans h.sessions
      refreshTokens := (hlegal.writes _ (by simp)).trans h.refreshTokens
      memberships := h.memberships
      invitations := h.beforeAcceptance.invitations
      settled := hsettled
      isNew := fun hsound hlocks => h.isNew hsound (List.Subset.trans hlegal.locks hlocks) }

/-- The account and what follows it are legal once the pending registration is consumed. -/
private theorem AccountOpened.legal
    (h : AccountOpened cfg pending now user organization membership session refreshToken since
      tx tx' w) (hwrites : tx.writes = Writes.none) (hmoves : Moves (Guarantee cfg) w w')
    (hsound : final.Sound w'.now) (hlocks : tx'.locks ⊆ final.locks)
    (hlast : ∀ t ∈ [Table.organizations, .users], final.writes t = tx'.writes t)
    (hstored : w'.now.get .pendingRegistrations pending.id = some pending)
    (hunsettled : pending.unsettled)
    (hmarked : (w'.now.apply final.writes).get .pendingRegistrations pending.id =
      some { pending with usedAt := some now }) :
    LegalWrites cfg final w'.now tx'.writes := by
  refine h.continues.legal hmoves hsound hlocks hlast (LegalWrites.insert (t := .users)
    (hwrites ▸ legalWrites_none) h.inserted hsound
    (List.Subset.trans h.continues.locks hlocks) ?_)
  rw [h.account]
  exact UserStep.register hstored hunsettled hmarked

end AccountOpened

/-- A completion commits all of a registration, or it changes no row. -/
theorem safe_completeRegistration {request : ℕ}
    {params : CompleteRegistrationParams}
    {Q : CompleteRegistrationResult → Tx orgistry → History orgistry → Prop}
    (hconsistent : Consistent w.now.tables)
    (h : ∀ w' result, Moves (Guarantee cfg) w w' →
      JustCommitted (fun before after => Completion before after result) w' →
      Q result .begin w') :
    Safe (Guarantee cfg) (completeRegistration cfg request params) Q .begin w := by
  refine safe_transaction (safe_bind (safe_selectOneForUpdate
    fun w₁ got tx₁ w₂ h₁ hlocked h₂ => ?_))
  have hmoves₂ := h₁.moves.trans h₂.moves
  have hwrites₁ : tx₁.writes = Writes.none := hlocked.writes
  have hnothing : ∀ {v tx result}, Moves (Guarantee cfg) w v → tx.writes = Writes.none →
      (∀ {before after : Database orgistry}, (∀ t x, after.get t x = before.get t x) →
        Completion before after result) → ∀ w', Around (Guarantee cfg) tx v w' →
          Guarantee cfg tx w'.now ∧ Q result .begin (w'.push (w'.now.apply tx.writes)) := by
    intro v tx result hmoves hwrites hresult w' haround
    have hG : Guarantee cfg tx w'.now := by
      rw [Guarantee, hwrites]
      exact legalWrites_none
    exact ⟨hG, h _ _ (hmoves.trans (commits haround hG))
      (justCommitted_push (hresult (get_apply_of_none hwrites _)))⟩
  cases hfound : got.head? with
  | none => exact hnothing hmoves₂ hwrites₁ fun hsame => hsame
  | some pending =>
      change Safe (Guarantee cfg) (if _ then _ else if _ then _ else _) _ tx₁ w₂
      split
      · exact hnothing hmoves₂ hwrites₁ fun hsame => hsame
      · next hunused =>
          split
          · exact hnothing hmoves₂ hwrites₁ fun hsame => hsame
          · refine safe_bind (safe_selectOne fun w₃ taken h₃ htaken => ?_)
            have hmoves₃ := hmoves₂.trans h₃.moves
            split
            · exact hnothing hmoves₃ hwrites₁ fun hsame => hsame
            · refine safe_bind (safe_tryInsert (fun w₄ h₄ => ?_)
                fun w₄ userId h₄ huserId huser => ?_)
              · refine safe_bind (safe_rollBack fun w₅ h₅ => ?_)
                exact hnothing (hmoves₃.trans (h₄.moves.trans h₅.moves)) rfl fun hsame => hsame
              · generalize haccount : registeredUser pending params.now userId = user at *
                refine safe_bind
                  (OrganizationRepository.safe_insertOrganizationWithOwnerMembership
                    fun w₅ answer tx₃ h₅ hprovisioned hworkspace => ?_)
                obtain ⟨organization, membership⟩ := answer
                refine safe_bind (safe_insert fun w₆ sessionId h₆ _ hsession => ?_)
                generalize hopened : Session.mk sessionId user.id params.sessionExpiresAt none
                  none params.now 0 = session at *
                refine safe_bind (safe_insert fun w₇ tokenId h₇ _ htoken => ?_)
                generalize hissued : RefreshToken.mk tokenId session.id params.issued.tokenHash
                  params.issued.familyId none none none params.refreshTokenExpiresAt none none
                    request = refreshToken at *
                have haccounted : AccountOpened cfg pending params.now user organization
                    membership session refreshToken w₄.now tx₁ _ w₇ :=
                  accountOpened hwrites₁ haccount huser hprovisioned hworkspace hsession
                    (by rw [← hopened]; exact ⟨rfl, rfl⟩) htoken (by rw [← hissued])
                    (by rw [← hissued]; exact ⟨rfl, rfl, rfl, rfl⟩) h₆.moves h₇.moves
                have hmoves₇ := hmoves₃.trans (h₄.moves.trans (h₅.trans
                  (h₆.moves.trans h₇.moves)))
                generalize (tx₃.add (t := Table.sessions) session w₆.now).add
                  (t := Table.refreshTokens) refreshToken w₇.now = tx₅ at *
                refine safe_bind (safe_settleInvitation (consistent_later hmoves₇ hconsistent)
                  haccounted.beforeAcceptance ?_ fun w₈ outcome tx₆ h₈ hsettled hlegal => ?_)
                · intro selector final w' hmoves hwrites
                  exact ⟨user, haccounted.get_user hwrites _, fun _ =>
                    .inl (by rw [← haccount]; rfl)⟩
                · refine safe_bind (safe_update fun w₉ got₁ tx₇ w₁₀ h₉ hconsumed h₁₀ => ?_)
                  refine safe_bind (safe_update fun w₁₁ got₂ tx₈ w₁₂ h₁₁ hretired h₁₂ => ?_)
                  intro w₁₃ h₁₃
                  have hmoves₁₂ := h₉.moves.trans (h₁₀.moves.trans (h₁₁.moves.trans h₁₂.moves))
                  have hsound := h₁₃.sound
                  have hlocks₆ : tx₆.locks ⊆ tx₈.locks :=
                    List.Subset.trans hconsumed.locks hretired.locks
                  have hlocks₁ : tx₁.locks ⊆ tx₆.locks := List.Subset.trans
                    (Tx.locks_subset_add tx₁ (t := Table.users) user w₄.now)
                      (List.Subset.trans haccounted.continues.locks hlegal.locks)
                  have hlast : ∀ t ≠ .pendingRegistrations, tx₈.writes t = tx₆.writes t := by
                    intro t ht
                    rw [hretired.writes_of_ne ht, hconsumed.writes_of_ne ht]
                  have hempty : tx₆.writes .pendingRegistrations = Relation.empty :=
                    (hlegal.writes _ (by simp)).trans haccounted.pendingRegistrations
                  have hcurrent : ∀ {final : Tx orgistry} {db : Database orgistry},
                      final.Sound db → tx₆.locks ⊆ final.locks →
                        db.get .pendingRegistrations pending.id = some pending := by
                    intro final db hdb hlocks
                    exact (locked_current hlocked hdb (List.Subset.trans hlocks₁ hlocks) hfound
                      rfl).1
                  have hstart := hcurrent h₉.sound (List.Subset.refl _)
                  have hstored := hcurrent hsound hlocks₆
                  have hunsettled : pending.unsettled := by
                    simp only [Bool.or_eq_true, not_or, Bool.not_eq_true,
                      Option.isSome_eq_false_iff] at hunused
                    simp [PendingRegistration.unsettled, hunused]
                  have hmarked := hconsumed.effect_then hretired hsound (List.Subset.refl _) rfl
                    (x := pending.id) (fun row hrow => by simp at hrow; exact hrow.1.2)
                    (by rw [Database.get_view, hempty]; exact hstart)
                    (by rw [Database.get_view, hempty]; exact hstored) (by simp)
                  have hbefore : LegalWrites cfg tx₈ w₁₃.now tx₆.writes := by
                    refine hlegal.legal (hmoves₁₂.trans h₁₃.moves) hsound hlocks₆ ?_
                      (haccounted.legal hwrites₁ (h₈.trans (hmoves₁₂.trans h₁₃.moves)) hsound
                        (List.Subset.trans hlegal.locks hlocks₆) ?_ hstored hunsettled hmarked)
                    · intro t ht
                      exact hlast t (by rintro rfl; simp at ht)
                    · intro t ht
                      rw [hlast t (by rintro rfl; simp at ht),
                        hlegal.writes t (fun hmem => by
                          simp only [List.mem_cons, List.not_mem_nil, or_false] at ht hmem
                          rcases ht with rfl | rfl <;> simp at hmem)]
                  have hG : Guarantee cfg tx₈ w₁₃.now := by
                    refine LegalWrites.settle hbefore hempty hconsumed hretired hsound
                      (List.Subset.refl _) hstored (fun _ => of_decide_eq_true) ?_
                      (PendingRegistrationStep.consume hunsettled) ?_
                    · intro old hp
                      simp at hp
                      exact hp.1.2
                    · intro old hp
                      simp at hp
                      exact PendingRegistrationStep.invalidate hp.2
                  refine ⟨hG, h _ _ ?_ (justCommitted_push ⟨pending, params.now, ?_⟩)⟩
                  · exact hmoves₇.trans (h₈.trans (hmoves₁₂.trans (commits h₁₃ hG)))
                  · exact (haccounted.staged hsettled hlegal).registered hsound hlocks₆ hlast
                      hstored hunsettled hmarked

end RegistrationRepository

/-! ## The registration service -/

namespace RegistrationService

open RegistrationRepository

theorem safe_resolveRequestInvitation {invitationToken : Option TokenHash}
    {normalizedEmail : String}
    {Q : RequestInvitationResolution → Tx orgistry → History orgistry → Prop}
    (h : ∀ w' invitation, Moves (Guarantee cfg) w w' → Q invitation .begin w') :
    Safe (Guarantee cfg) (resolveRequestInvitation invitationToken normalizedEmail) Q .begin w := by
  cases invitationToken with
  | none => exact h w _ .refl
  | some tokenHash =>
      refine safe_bind (InvitationService.safe_prepareForRegistration fun w₁ answer h₁ => ?_)
      split
      · exact h w₁ _ h₁
      · exact h w₁ _ h₁

theorem safe_requestRegistration {input : RegistrationRequestInput}
    {Q : Unit → Tx orgistry → History orgistry → Prop}
    (h : ∀ w', Moves (Guarantee cfg) w w' → Q () .begin w') :
    Safe (Guarantee cfg) (requestRegistration cfg input) Q .begin w := by
  refine safe_bind (safe_resolveRequestInvitation fun w₁ invitation h₁ => ?_)
  split
  · exact h w₁ h₁
  · refine safe_bind (safe_selectOne fun w₂ existing h₂ hexisting => ?_)
    have hmoves₂ := h₁.trans h₂.moves
    split
    · exact h w₂ hmoves₂
    · refine safe_bind (safe_clock fun w₃ h₃ => safe_bind (safe_clock fun w₄ h₄ => ?_))
      refine safe_issuePendingRegistration (normalizeEmail_trim _).symm fun w₅ h₅ => ?_
      exact h w₅ (hmoves₂.trans (h₃.moves.trans (h₄.moves.trans h₅)))

theorem safe_completeRegistration {request : ℕ}
    {input : RegistrationCompleteInput}
    {Q : CompleteRegistrationResult → Tx orgistry → History orgistry → Prop}
    (hconsistent : Consistent w.now.tables)
    (h : ∀ w' result, Moves (Guarantee cfg) w w' →
      JustCommitted (fun before after => Completion before after result) w' →
      Q result .begin w') :
    Safe (Guarantee cfg) (completeRegistration cfg request input) Q .begin w := by
  refine safe_bind (safe_selectOne fun w₁ pending h₁ hpending => ?_)
  have hcomplete : ∀ (w₂ : History orgistry) (invitation : Option Invitation),
      Moves (Guarantee cfg) w w₂ → Safe (Guarantee cfg) (clock >>= fun now =>
        RegistrationRepository.completeRegistration cfg request
          { tokenHash := input.tokenHash, sessionExpiresAt := now + cfg.sessionTtl,
            issued := input.issued, refreshTokenExpiresAt := now + cfg.refreshTokenTtl,
            invitation := invitation.map Invitation.id, now }) Q .begin w₂ := by
    intro w₂ invitation hmoves
    refine safe_bind (safe_clock fun w₃ h₃ => ?_)
    refine RegistrationRepository.safe_completeRegistration
      (consistent_later (hmoves.trans h₃.moves) hconsistent) fun w₄ result h₄ hdone => ?_
    exact h w₄ result (hmoves.trans (h₃.moves.trans h₄)) hdone
  dsimp only
  split
  · exact hcomplete w₁ none h₁.moves
  · exact safe_bind (safe_selectOne fun w₂ invitation h₂ _ =>
      hcomplete w₂ invitation (h₁.moves.trans h₂.moves))

end RegistrationService

end Orgistry.Model
