import Orgistry.Organizations.SingleUse

/-!
# Where accounts and memberships come from

Nobody has an account without having used a registration credential that was
mailed to its address, and nobody belongs to an organization who has neither
founded it nor accepted an invitation to it.  What was mailed tells the address as
long as nobody has rewritten it.
-/

namespace Orgistry.Model

open ReadCommitted

variable {cfg : Config} {tx : Tx orgistry} {db : Database orgistry}

/-- The account was opened with a registration credential that has been used; as
long as its address has not changed, it is the one the credential was mailed to. -/
def OpenedByCredential (db : Database orgistry) (user : User) : Prop :=
  ∃ pending : PendingRegistration,
    db.get .pendingRegistrations pending.id = some pending ∧ pending.usedAt ≠ none ∧
      (user.emailChanges = 0 → user.normalizedEmail = pending.normalizedEmail)

/-- The member has created the organization. -/
def Founder (db : Database orgistry) (membership : Membership) : Prop :=
  ∃ organization : Organization,
    db.get .organizations membership.organizationId = some organization ∧
      organization.createdByUserId = membership.userId

/-- The invitation went to the member: to the address of the account, as long as
that address has not been rewritten. -/
def InvitedAt (db : Database orgistry) (invitation : Invitation) (userId : Id) : Prop :=
  ∃ user : User, db.get .users userId = some user ∧
    (user.emailWrites = 0 → user.normalizedEmail = invitation.invitedEmailNormalized)

/-- The member has accepted an invitation to the organization. -/
def Invited (db : Database orgistry) (membership : Membership) : Prop :=
  ∃ invitation : Invitation, db.get .invitations invitation.id = some invitation ∧
    invitation.organizationId = membership.organizationId ∧ invitation.status = .accepted ∧
      invitation.acceptedByUserId = some membership.userId ∧
        InvitedAt db invitation membership.userId

/-- Everything has an origin. -/
structure Traced (db : Database orgistry) : Prop where
  accounts : ∀ {x : Id} {user : User}, db.get .users x = some user → OpenedByCredential db user
  members : ∀ {x : Id} {membership : Membership}, db.get .memberships x = some membership →
    Founder db membership ∨ Invited db membership

theorem PendingRegistrationStep.unused {old new : PendingRegistration}
    (h : PendingRegistrationStep (some old) new) : old.usedAt = none := by
  have hnone : old.unsettled → old.usedAt = none := by
    intro hunsettled
    simp only [PendingRegistration.unsettled, Bool.and_eq_true, Option.isNone_iff_eq_none]
      at hunsettled
    exact hunsettled.1
  cases h with
  | invalidate hunsettled => exact hnone hunsettled
  | consume hunsettled => exact hnone hunsettled

theorem OpenedByCredential.commit {user : User} (h : OpenedByCredential db user)
    (hG : Guarantee cfg tx db) : OpenedByCredential (db.apply tx.writes) user := by
  obtain ⟨pending, hstored, hused, haddress⟩ := h
  obtain ⟨new, hnew, rfl | hstep⟩ := hG.step hstored
  · exact ⟨_, hnew, hused, haddress⟩
  · exact absurd (PendingRegistrationStep.unused hstep) hused

theorem Founder.commit {membership : Membership} (h : Founder db membership)
    (hG : Guarantee cfg tx db) : Founder (db.apply tx.writes) membership := by
  obtain ⟨organization, hstored, hcreator⟩ := h
  obtain ⟨new, hnew, rfl | hstep⟩ := hG.step hstored
  · exact ⟨_, hnew, hcreator⟩
  · -- no statement writes an organization that is there
    exact absurd (show some organization = none from hstep) (Option.some_ne_none _)

theorem InvitedAt.commit {invitation : Invitation} {userId : Id}
    (h : InvitedAt db invitation userId) (hG : Guarantee cfg tx db) :
    InvitedAt (db.apply tx.writes) invitation userId := by
  obtain ⟨user, hstored, haddress⟩ := h
  obtain ⟨new, hnew, rfl | hstep⟩ := hG.step hstored
  · exact ⟨_, hnew, haddress⟩
  · have hlater : User.Later user new := UserStep.later hstep
    refine ⟨new, hnew, fun hnever => ?_⟩
    have hbefore : user.emailWrites = 0 := Nat.le_zero.mp (hnever ▸ hlater.rewrites)
    exact (hlater.email (hnever.trans hbefore.symm)).2.trans (haddress hbefore)

theorem Invited.commit {membership : Membership} (h : Invited db membership)
    (hG : Guarantee cfg tx db) : Invited (db.apply tx.writes) membership := by
  obtain ⟨invitation, hstored, horganization, haccepted, huser, haddress⟩ := h
  obtain ⟨new, hnew, rfl | hstep⟩ := hG.step hstored
  · exact ⟨_, hnew, horganization, haccepted, huser, haddress.commit hG⟩
  · have hlater : Invitation.Later invitation new := InvitationStep.later hstep
    obtain rfl := hlater.accepted haccepted
    exact ⟨_, hnew, horganization, haccepted, huser, haddress.commit hG⟩

/-- Origins do not depend on what else a row says. -/
theorem OpenedByCredential.later {user later : User} (h : OpenedByCredential db user)
    (hlater : user.Later later) : OpenedByCredential db later := by
  obtain ⟨pending, hstored, hused, haddress⟩ := h
  refine ⟨pending, hstored, hused, fun hunchanged => ?_⟩
  have hnever : user.emailChanges = 0 :=
    Nat.le_zero.mp (hunchanged ▸ hlater.changes)
  exact (hlater.address (hunchanged.trans hnever.symm)).trans (haddress hnever)

theorem UserStep.openedByCredential {new : User} (h : UserStep tx db none new) :
    OpenedByCredential (db.apply tx.writes) new := by
  cases h with
  | @register id pending now hstored hunsettled hconsumed =>
      exact ⟨{ pending with usedAt := some now }, hconsumed, Option.some_ne_none _, fun _ => rfl⟩

/-- The acceptance compares the invited address with the one of the account. -/
theorem MembershipStep.traced {new : Membership} (h : MembershipStep cfg tx db none new)
    (hnormal : AddressesNormal (db.apply tx.writes)) :
    Founder (db.apply tx.writes) new ∨ Invited (db.apply tx.writes) new := by
  cases h with
  | found hgrant hnew hstored hfounder => exact .inl ⟨_, hstored, hfounder⟩
  | accept params hstored hacceptable hclock hemail haddress haccepted =>
      obtain ⟨user, huser, hknown⟩ := haddress
      refine .inr ⟨acceptedInvitation _ _ _, haccepted, rfl, rfl, rfl, user, huser, ?_⟩
      intro hnever
      rcases hknown hnever with hsame | hsame
      · exact hsame.symm.trans hemail.symm
      · exact ((hnormal.users huser).trans hsame.symm).trans hemail.symm

/-- One commit. -/
theorem Traced.commit (h : Traced db) (hG : Guarantee cfg tx db)
    (hnormal : AddressesNormal (db.apply tx.writes)) : Traced (db.apply tx.writes) where
  accounts {x user} huser := by
    rcases hG.origin huser with ⟨old, hold, hstep⟩ | ⟨-, hstep⟩
    · have hlater : User.Later old user := by
        rcases hstep with rfl | hstep
        · exact User.Later.refl _
        · exact UserStep.later hstep
      exact ((h.accounts hold).commit hG).later hlater
    · exact UserStep.openedByCredential hstep
  members {x membership} hmembership := by
    rcases hG.origin hmembership with ⟨old, hold, hstep⟩ | ⟨-, hstep⟩
    · have hlater : Membership.Later old membership := by
        rcases hstep with rfl | hstep
        · exact Membership.Later.refl _
        · exact MembershipStep.later hstep
      have hold' := (h.members hold).imp (·.commit hG) (·.commit hG)
      simpa only [Founder, Invited, hlater.organizationId, hlater.userId] using hold'
    · exact MembershipStep.traced hstep hnormal

/-- A database to start from. -/
structure TracedStart (db : Database orgistry) : Prop where
  consistent : Consistent db.tables
  normal : AddressesNormal db
  traced : Traced db

variable {s : ServerState} {ok : Tx orgistry → Database orgistry → Prop}

/-- In every run, whatever requests race with each other, accounts come from used
registration credentials and memberships from foundations and invitations, and an
address that was never rewritten is the one that the mail went to. -/
theorem everything_is_traced (h : Reachable cfg TracedStart ok s) : Traced s.history.now := by
  have htrace := Reachable.trace (fun _ hdb => hdb.consistent) h
  suffices hboth : Traced s.history.now ∧ AddressesNormal s.history.now from hboth.1
  refine htrace.induction (P := fun w => Traced w.now ∧ AddressesNormal w.now)
    (fun _ hdb => ⟨hdb.traced, hdb.normal⟩) ?_ ?_
  · exact fun _ _ hw => ⟨⟨hw.1.accounts, hw.1.members⟩, hw.2.users, hw.2.pending⟩
  · exact fun _ _ _ _ hG hw => ⟨hw.1.commit hG.2 (hw.2.commit hG.2), hw.2.commit hG.2⟩

/-- An installation that nobody has used yet. -/
def freshInstallation : Database orgistry := ⟨noRows, 1⟩

theorem freshInstallation_start : TracedStart freshInstallation where
  consistent := .of_rows (by intro t; cases t <;> decide) (by intro t; cases t <;> decide)
  normal :=
    { users := fun _ _ h => by cases h
      pending := fun _ _ h => by cases h }
  traced :=
    { accounts := fun h => by cases h
      members := fun h => by cases h }

/-- Alice registers and invites Bob, who registers with the invitation. -/
def afterTwoRegistrations : ServerState :=
  (State.replay (serve sampleConfig) State.Always
    [.start (.requestRegistration
        { email := "a@x", password := "p", invitationToken := none, salt := 0, tokenHash := 7 }),
      .steps 0 60 1,
      .start (.completeRegistration { tokenHash := 7, issued := ⟨8, 8⟩ }), .steps 1 60 2,
      .start (.createInvitation (some ⟨2, 2⟩)
        { organizationId := 2, email := "b@x", role := .member, tokenHash := 9 }),
      .steps 2 60 3,
      .start (.requestRegistration
        { email := "b@x", password := "p", invitationToken := some 9, salt := 0,
          tokenHash := 10 }),
      .steps 3 60 4,
      .start (.completeRegistration { tokenHash := 10, issued := ⟨11, 11⟩ }), .steps 4 20 5,
      .steps 4 40 6]
    (State.initial freshInstallation)).get (by decide)

theorem two_registrations_are_traced :
    Traced afterTwoRegistrations.history.now ∧
      ((afterTwoRegistrations.history.now.tables .memberships).rows.map fun row =>
        (Membership.organizationId row, Membership.userId row, Membership.grantedBy row)) =
          [(2, 2, .founder), (5, 5, .founder), (2, 5, .invitation 3)] :=
  ⟨everything_is_traced ((State.Reach.init freshInstallation_start).later
    (.of_replay (Option.some_get _).symm)), by decide⟩

end Orgistry.Model
