import Orgistry.Organizations.LastOwner

/-!
# Single-use invitations

An invitation yields at most one membership, of a user with the invited address,
and its outcome is final.  The acceptance compares an address that an earlier
statement has read, so addresses are compared for users whose address has not
been rewritten since the run began.
-/

namespace Orgistry.Model

open ReadCommitted

variable {cfg : Config} {tx : Tx orgistry} {db : Database orgistry}

/-- Normalized addresses belong to the addresses beside them. -/
structure AddressesNormal (db : Database orgistry) : Prop where
  users : ∀ ⦃x : Id⦄ ⦃user : User⦄, db.get .users x = some user →
    user.normalizedEmail = normalizeEmail user.email
  pending : ∀ ⦃x : Id⦄ ⦃pending : PendingRegistration⦄,
    db.get .pendingRegistrations x = some pending →
      pending.normalizedEmail = normalizeEmail pending.email

/-- A user's normalized address is written together with the address. -/
theorem UserStep.normal {old : Option User} {new : User} (h : UserStep tx db old new)
    (hold : ∀ was, old = some was → was.normalizedEmail = normalizeEmail was.email)
    (hpending : ∀ ⦃x : Id⦄ ⦃pending : PendingRegistration⦄,
      db.get .pendingRegistrations x = some pending →
        pending.normalizedEmail = normalizeEmail pending.email) :
    new.normalizedEmail = normalizeEmail new.email := by
  cases h with
  | register hstored => exact hpending hstored
  | changePassword =>
      have hbefore := hold _ rfl
      exact hbefore
  | resetPassword =>
      have hbefore := hold _ rfl
      exact hbefore
  | changeEmail hnormal => exact hnormal
  | verify =>
      have hbefore := hold _ rfl
      exact hbefore

theorem PendingRegistrationStep.normal {old : Option PendingRegistration}
    {new : PendingRegistration} (h : PendingRegistrationStep old new)
    (hold : ∀ was, old = some was → was.normalizedEmail = normalizeEmail was.email) :
    new.normalizedEmail = normalizeEmail new.email := by
  cases h with
  | issue _ hnormal => exact hnormal
  | invalidate =>
      have hbefore := hold _ rfl
      exact hbefore
  | consume =>
      have hbefore := hold _ rfl
      exact hbefore

theorem AddressesNormal.commit (h : AddressesNormal db) (hG : Guarantee cfg tx db) :
    AddressesNormal (db.apply tx.writes) where
  users x user huser := by
    rcases hG.after huser with hsame | hlegal
    · exact h.users hsame
    · exact UserStep.normal hlegal (fun was hwas => h.users hwas) h.pending
  pending x pending hpending := by
    rcases hG.after hpending with hsame | hlegal
    · exact h.pending hsame
    · exact PendingRegistrationStep.normal hlegal fun was hwas => h.pending hwas

/-- The step creates `membership` out of the invitation `x`. -/
def Joined (x : Id) (membership : Membership) (before after : Database orgistry) : Prop :=
  before.get .memberships membership.id = none ∧
    after.get .memberships membership.id = some membership ∧
    membership.grantedBy = .invitation x

instance (x : Id) (membership : Membership) (before after : Database orgistry) :
    Decidable (Joined x membership before after) :=
  inferInstanceAs (Decidable (_ ∧ _ ∧ _))

/-- The invitation as it stands before its acceptance, and the accepting user. -/
structure Acceptance (x : Id) (membership : Membership) (before after : Database orgistry)
    (invitation : Invitation) (user : User) : Prop where
  stored : before.get .invitations x = some invitation
  unsettled : invitation.status ≠ .accepted ∧ invitation.status ≠ .revoked
  accepted : ∃ accepted : Invitation, after.get .invitations x = some accepted ∧
    accepted.status = .accepted ∧ accepted.acceptedByUserId = some membership.userId
  sameOrganization : membership.organizationId = invitation.organizationId
  holder : after.get .users membership.userId = some user
  address : user.emailWrites = 0 → user.normalizedEmail = invitation.invitedEmailNormalized

/-- A membership that an invitation grants is created by an acceptance. -/
theorem Guarantee.acceptance (hG : Guarantee cfg tx db)
    (haddresses : AddressesNormal (db.apply tx.writes)) {x : Id} {membership : Membership}
    (h : Joined x membership db (db.apply tx.writes)) :
    ∃ invitation user, Acceptance x membership db (db.apply tx.writes) invitation user := by
  obtain ⟨hnone, hnew, hgrant⟩ := h
  rcases hG.origin hnew with ⟨old, hold, -⟩ | ⟨-, hstep⟩
  · exact absurd (hnone.symm.trans hold) (by simp)
  · have hmembership : MembershipStep cfg tx db none membership := hstep
    cases hmembership with
    | found hfounder => exact absurd (hfounder.symm.trans hgrant) (by simp)
    | @accept _ invitation now params hstored hacceptable hclock hemail haddress haccepted =>
        obtain ⟨haccepted', hrevoked, -⟩ := assertAcceptable_eq_none.mp hacceptable
        obtain ⟨user, huser, hknown⟩ := haddress
        obtain rfl : invitation.id = x := Grant.invitation.inj hgrant
        refine ⟨invitation, user, hstored, ⟨haccepted', hrevoked⟩, ⟨_, haccepted, rfl, rfl⟩, rfl,
          huser, fun hnever => ?_⟩
        have hnormal := haddresses.users huser
        rcases hknown hnever with hsame | hsame
        · exact hsame.symm.trans hemail.symm
        · exact (hnormal.trans hsame.symm).trans hemail.symm

/-- An acceptance creates no other membership than its own. -/
theorem Guarantee.joined_unique (hG : Guarantee cfg tx db) {x y : Id}
    {membership other : Membership} (h : Joined x membership db (db.apply tx.writes))
    (h' : Joined y other db (db.apply tx.writes)) : membership = other := by
  obtain ⟨hnone, hnew, hgrant⟩ := h
  obtain ⟨hnone', hnew', hgrant'⟩ := h'
  have hwritten := Database.get_writes_of_new hnone' hnew'
  rcases hG.origin hnew with ⟨old, hold, -⟩ | ⟨-, hstep⟩
  · exact absurd (hnone.symm.trans hold) (by simp)
  · have hmembership : MembershipStep cfg tx db none membership := hstep
    cases hmembership with
    | found hfounder => exact absurd (hfounder.symm.trans hgrant) (by simp)
    | accept params hstored hacceptable hclock hemail haddress haccepted hquota hfounders =>
        rcases hfounders hwritten with hid | hfounder
        · rw [hid] at hnew'
          exact Option.some_inj.mp (hnew.symm.trans hnew')
        · exact absurd (hfounder.symm.trans hgrant') (by simp)

/-- The invitation has been accepted. -/
def InvitationAccepted (x : Id) (db : Database orgistry) : Prop :=
  ∃ invitation : Invitation, db.get .invitations x = some invitation ∧
    invitation.status = .accepted

/-- An accepted or revoked invitation is what it was. -/
def OutcomesFinal (before after : Database orgistry) : Prop :=
  ∀ ⦃x : Id⦄ ⦃invitation : Invitation⦄, before.get .invitations x = some invitation →
    invitation.status = .accepted ∨ invitation.status = .revoked →
      after.get .invitations x = some invitation

theorem Guarantee.outcomesFinal (hG : Guarantee cfg tx db) :
    OutcomesFinal db (db.apply tx.writes) := by
  intro x invitation hold hfinal
  obtain ⟨new, hnew, rfl | hstep⟩ := hG.step hold
  · exact hnew
  · have hlater := InvitationStep.later hstep
    rw [hnew]
    rcases hfinal with haccepted | hrevoked
    · rw [hlater.accepted haccepted]
    · rw [hlater.revoked hrevoked]

/-- At most one active membership for each user and organization. -/
def OneMembership (db : Database orgistry) : Prop :=
  ∀ ⦃x y : Id⦄ ⦃membership other : Membership⦄, db.get .memberships x = some membership →
    db.get .memberships y = some other → membership.status = .active →
      other.status = .active → membership.userId = other.userId →
        membership.organizationId = other.organizationId → x = y

/-- The unique index. -/
theorem oneMembership_of_consistent (hdb : Consistent db.tables) : OneMembership db := by
  intro x y membership other hmembership hother hactive hactive' huser horganization
  by_contra hne
  have hconflict := hdb.unique hmembership hother hne
  simp [rowConflict, hactive, hactive', huser, horganization] at hconflict

/-- A database to start from: its constraints hold, and rewrites of addresses are
counted from here. -/
structure AddressesSettled (db : Database orgistry) : Prop where
  consistent : Consistent db.tables
  normal : AddressesNormal db
  unwritten : ∀ ⦃x : Id⦄ ⦃user : User⦄, db.get .users x = some user → user.emailWrites = 0

structure InvitationsSingleUse (w : History orgistry) : Prop where
  once : ∀ x, ∀ step ∈ w.steps, ∀ step' ∈ w.steps, ∀ membership other,
    Joined x membership step.1 step.2 → Joined x other step'.1 step'.2 → membership = other
  byAcceptance : ∀ x, ∀ step ∈ w.steps, ∀ membership, Joined x membership step.1 step.2 →
    ∃ invitation user, Acceptance x membership step.1 step.2 invitation user
  final : ∀ step ∈ w.steps, OutcomesFinal step.1 step.2
  oneMembership : OneMembership w.now

variable {s : ServerState} {ok : Tx orgistry → Database orgistry → Prop}

theorem addressesNormal_of_trace {w : History orgistry}
    (h : Trace (fun tx db => ok tx db ∧ Guarantee cfg tx db) AddressesSettled w) :
    AddressesNormal w.now :=
  h.induction (P := fun w => AddressesNormal w.now) (fun _ hdb => hdb.normal)
    (fun _ _ hw => ⟨hw.1, hw.2⟩) fun _ _ _ _ hG hw => hw.commit hG.2

/-- The clock creates no membership. -/
theorem not_joined_advance {n : ℕ} {x : Id} {membership : Membership} :
    ¬Joined x membership db (db.advance n) := by
  rintro ⟨hnone, hnew, -⟩
  exact absurd (hnone.symm.trans hnew) (by simp)

/-- In every run, a membership that an invitation grants is created by an acceptance. -/
theorem accepted_of_joined (h : Reachable cfg AddressesSettled ok s)
    {step : Database orgistry × Database orgistry} (hstep : step ∈ s.history.steps) {x : Id}
    {membership : Membership} (hjoined : Joined x membership step.1 step.2) :
    ∃ invitation user, Acceptance x membership step.1 step.2 invitation user :=
  (Reachable.trace (fun _ hdb => hdb.consistent) h).forall_steps
    (P := fun before after => ∀ x membership, Joined x membership before after →
      ∃ invitation user, Acceptance x membership before after invitation user)
    (fun _ _ _ _ _ hjoined => absurd hjoined not_joined_advance)
    (fun _ _ hw _ hG _ _ hjoined =>
      hG.2.acceptance ((addressesNormal_of_trace hw).commit hG.2) hjoined)
    step hstep x membership hjoined

/-- In every run, whatever requests race with each other, invitations are used
once. -/
theorem invitations_are_single_use (h : Reachable cfg AddressesSettled ok s) :
    InvitationsSingleUse s.history := by
  have hinit : ∀ db : Database orgistry, AddressesSettled db → Consistent db.tables :=
    fun db hdb => hdb.consistent
  have htrace := Reachable.trace hinit h
  have hunique : ∀ step ∈ s.history.steps, ∀ x membership other,
      Joined x membership step.1 step.2 → Joined x other step.1 step.2 → membership = other :=
    htrace.forall_steps (P := fun before after => ∀ x membership other,
      Joined x membership before after → Joined x other before after → membership = other)
      (fun _ _ _ _ _ _ hjoined => absurd hjoined not_joined_advance)
      fun w tx _ _ hG _ _ _ hjoined hjoined' => hG.2.joined_unique hjoined hjoined'
  refine ⟨?_, fun x step hstep membership => accepted_of_joined h hstep, ?_,
    oneMembership_of_consistent (htrace.consistent hinit)⟩
  · intro x step hstep step' hstep' membership other hjoined hjoined'
    have honce : s.history.AtMostOnce fun before after =>
        ∃ membership invitation user, Acceptance x membership before after invitation user := by
      refine htrace.atMostOnce (M := InvitationAccepted x) ?_ ?_ (fun _ _ hmark => hmark) ?_
      · rintro before after ⟨_, invitation, _, hdone⟩ ⟨stored, hstored, haccepted⟩
        obtain rfl := Option.some_inj.mp (hdone.stored.symm.trans hstored)
        exact hdone.unsettled.1 haccepted
      · rintro before after ⟨_, _, _, hdone⟩
        obtain ⟨accepted, hget, hstatus, -⟩ := hdone.accepted
        exact ⟨accepted, hget, hstatus⟩
      · rintro w tx - - hG ⟨invitation, hget, hstatus⟩
        exact ⟨invitation, hG.2.outcomesFinal hget (.inl hstatus), hstatus⟩
    obtain rfl := honce.eq hstep hstep' ⟨membership, accepted_of_joined h hstep hjoined⟩
      ⟨other, accepted_of_joined h hstep' hjoined'⟩
    exact hunique step hstep x _ _ hjoined hjoined'
  · exact htrace.forall_steps (P := OutcomesFinal) (fun _ _ _ _ _ hold _ => hold)
      fun _ _ _ _ hG => hG.2.outcomesFinal

theorem sampleOrganization_addressesSettled : AddressesSettled sampleOrganization where
  consistent := sampleOrganization_consistent
  normal :=
    { users := fun x user huser => by
        have hnormal : ∀ user ∈ (sampleOrganization.tables .users).rows,
            User.normalizedEmail user = normalizeEmail (User.email user) := by
          decide
        exact hnormal user (Relation.mem_of_get huser)
      pending := fun x pending hpending => by cases hpending }
  unwritten x user huser := by
    have hnever : ∀ user ∈ (sampleOrganization.tables .users).rows,
        User.emailWrites user = 0 := by
      decide
    exact hnever user (Relation.mem_of_get huser)

/-- Alice invites Dave; he accepts twice, and she revokes too late. -/
def afterSecondAcceptance : ServerState :=
  (State.replay (serve sampleConfig) State.Always
    [.start (.createInvitation (some ⟨1, 1⟩)
        { organizationId := 1, email := "d@x", role := .member, tokenHash := 7 }),
      .steps 0 40 9,
      .start (.acceptInvitation (some ⟨4, 4⟩) 7), .steps 1 40 9,
      .start (.acceptInvitation (some ⟨4, 4⟩) 7), .steps 2 40 10,
      .start (.revokeInvitation (some ⟨1, 1⟩) 1 9), .steps 3 40 0]
    (State.initial sampleOrganization)).get (by decide)

theorem second_acceptance_fails :
    InvitationsSingleUse afterSecondAcceptance.history ∧
      ∃ step ∈ afterSecondAcceptance.history.steps,
        ∃ membership ∈ (step.2.tables .memberships).rows, Joined 9 membership step.1 step.2 :=
  ⟨invitations_are_single_use ((State.Reach.init sampleOrganization_addressesSettled).later
    (.of_replay (Option.some_get _).symm)), by decide⟩

end Orgistry.Model
