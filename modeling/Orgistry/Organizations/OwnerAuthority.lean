import Orgistry.Organizations.LastOwner

/-!
# Authority behind owner memberships

Every membership records on what ground it last received its role.  A role
change checks the actor against the locked owners; an acceptance relies on the
invitation, and whoever may create invitations chooses their role.
-/

namespace Orgistry.Model

open ReadCommitted

/-- The user holds an active owner membership of the organization. -/
def OwnedBy (db : Database orgistry) (organizationId userId : Id) : Prop :=
  ∃ membership ∈ (db.tables .memberships).rows,
    isActiveOwnerOf organizationId membership ∧ Membership.userId membership = userId

instance (db : Database orgistry) (organizationId userId : Id) :
    Decidable (OwnedBy db organizationId userId) :=
  inferInstanceAs (Decidable (∃ membership ∈ (db.tables .memberships).rows, _))

/-- The invitation was created by a member who owned its organization then. -/
def CreatedByOwner (w : History orgistry) (invitation : Invitation) : Prop :=
  ∃ before after, w.Adjacent before after ∧ before.get .invitations invitation.id = none ∧
    after.get .invitations invitation.id ≠ none ∧
    OwnedBy before invitation.organizationId invitation.invitedByUserId

/-- The authority behind a membership that was committed right after `before`
held an active owner membership when it exercised it.  The founder of a new
organization needs none. -/
def Authorized (w : History orgistry) (before : Database orgistry) (membership : Membership) :
    Prop :=
  match membership.grantedBy with
  | .founder => before.get .organizations membership.organizationId = none
  | .roleChange actorMembershipId =>
      ActiveOwner before membership.organizationId actorMembershipId
  | .invitation invitationId => ∃ invitation : Invitation,
      before.get .invitations invitationId = some invitation ∧
        invitation.organizationId = membership.organizationId ∧ CreatedByOwner w invitation

/-- Whenever a commit turns a membership into an active owner membership, the
authority behind it was an owner. -/
def OwnersAuthorized (w : History orgistry) : Prop :=
  ∀ before after, w.Adjacent before after → ∀ membership : Membership,
    after.get .memberships membership.id = some membership →
    isActiveOwnerOf membership.organizationId membership →
    (∀ old : Membership, before.get .memberships membership.id = some old →
      ¬isActiveOwnerOf membership.organizationId old) →
    Authorized w before membership

/-- The commit stores owner invitations only for inviters who own the
organization. -/
def OwnersInvite (tx : Tx orgistry) (db : Database orgistry) : Prop :=
  ∀ invitation ∈ (tx.writes .invitations).rows, Invitation.role invitation = .owner →
    db.get .invitations (Invitation.id invitation) = none →
      OwnedBy db (Invitation.organizationId invitation) (Invitation.invitedByUserId invitation)

instance (tx : Tx orgistry) (db : Database orgistry) : Decidable (OwnersInvite tx db) :=
  inferInstanceAs (Decidable (∀ invitation ∈ (tx.writes .invitations).rows, _))

/-- A database to start from: its constraints hold, and no owner invitation is
stored yet. -/
structure NoOwnerInvitations (db : Database orgistry) : Prop where
  consistent : Consistent db.tables
  invitations : ∀ {x : Id} {invitation : Invitation}, db.get .invitations x = some invitation →
    invitation.role ≠ .owner

variable {tx : Tx orgistry} {w : History orgistry} {before : Database orgistry}

theorem CreatedByOwner.push {invitation : Invitation} (h : CreatedByOwner w invitation)
    (db : Database orgistry) : CreatedByOwner (w.push db) invitation := by
  obtain ⟨before, after, hadjacent, hrest⟩ := h
  exact ⟨before, after, History.adjacent_push_iff.mpr (.inr hadjacent), hrest⟩

theorem Authorized.push {membership : Membership} (h : Authorized w before membership)
    (db : Database orgistry) : Authorized (w.push db) before membership := by
  unfold Authorized at h ⊢
  split
  · next hgrant => simpa only [hgrant] using h
  · next hgrant => simpa only [hgrant] using h
  · next hgrant =>
      simp only [hgrant] at h
      obtain ⟨invitation, hstored, horganization, hcreated⟩ := h
      exact ⟨invitation, hstored, horganization, hcreated.push db⟩

/-- Every stored owner invitation was created by an owner. -/
def InvitationsAuthorized (w : History orgistry) : Prop :=
  ∀ {x : Id} {invitation : Invitation}, w.now.get .invitations x = some invitation →
    invitation.role = .owner → CreatedByOwner w invitation

/-- One commit that stores owner invitations only for owners. -/
theorem InvitationsAuthorized.commit (h : InvitationsAuthorized w)
    (hok : OwnersInvite tx w.now) (hG : Guarantee cfg tx w.now) :
    InvitationsAuthorized (w.push (w.now.apply tx.writes)) := by
  intro x invitation hafter hrole
  have hid : invitation.id = x := Database.id_of_get hafter
  rcases hG.invitation_origin hafter with ⟨old, hold, hlater⟩ | ⟨hnone, -⟩
  · have hid' : Invitation.id old = x := Database.id_of_get hold
    obtain ⟨before, after, hadjacent, hnone, hsome, howned⟩ :=
      (h hold (hlater.role.symm.trans hrole)).push (w.now.apply tx.writes)
    refine ⟨before, after, hadjacent, ?_, ?_, ?_⟩
    · rwa [hid, ← hid']
    · rwa [hid, ← hid']
    · rwa [hlater.organizationId, hlater.invitedByUserId]
  · have hwritten : (tx.writes .invitations).get x = some invitation :=
      Database.get_writes_of_new hnone hafter
    refine ⟨w.now, _, History.adjacent_push_iff.mpr (.inl ⟨rfl, rfl⟩), ?_, ?_, ?_⟩
    · rw [hid]
      exact hnone
    · rw [hid]
      exact Option.ne_none_iff_exists'.mpr ⟨_, hafter⟩
    · refine hok invitation (Relation.mem_of_get hwritten) hrole ?_
      rw [hid]
      exact hnone

/-- One commit: a membership that becomes an owner membership was founded, or
accepted through an authorized invitation, or changed by an owner. -/
theorem MembershipStep.authorized {old : Option Membership} {new : Membership}
    (h : MembershipStep cfg tx w.now old new) (howner : isActiveOwnerOf new.organizationId new)
    (hturned : ∀ was, old = some was → ¬isActiveOwnerOf new.organizationId was)
    (hinvitations : InvitationsAuthorized w) : Authorized w w.now new := by
  simp only [isActiveOwnerOf, decide_true, Bool.true_and, Bool.and_eq_true,
    decide_eq_true_eq] at howner
  cases h with
  | found hgrant hnew =>
      unfold Authorized
      rw [hgrant]
      exact hnew
  | accept params hstored hacceptable haccepted =>
      exact ⟨_, hstored, rfl, hinvitations hstored howner.2⟩
  | changeRole hauthority hlast =>
      refine hauthority ?_
      simp only [roleChangeTouchesOwner, Bool.or_eq_true, decide_eq_true_eq]
      exact .inr howner.2
  | remove hlast => simp at howner

variable {cfg : Config} {s : ServerState}

/-- In every run in which owner invitations are only stored for inviters who own
the organization, every owner membership has an owner's authority behind it. -/
theorem owners_authorized (h : Reachable cfg NoOwnerInvitations OwnersInvite s) :
    OwnersAuthorized s.history := by
  have htrace := Reachable.trace (fun db hdb => hdb.consistent) h
  suffices hboth : InvitationsAuthorized s.history ∧ OwnersAuthorized s.history from hboth.2
  refine htrace.induction (P := fun w => InvitationsAuthorized w ∧ OwnersAuthorized w) ?_ ?_ ?_
  · intro db hdb
    refine ⟨fun hstored hrole => absurd hrole (hdb.invitations hstored), ?_⟩
    exact fun _ _ hadjacent => absurd hadjacent History.not_adjacent_initial
  · rintro w n ⟨hinvitations, howners⟩
    refine ⟨fun hstored hrole => (hinvitations hstored hrole).push _, ?_⟩
    intro before after hadjacent membership hafter howner hturned
    rcases History.adjacent_push_iff.mp hadjacent with ⟨rfl, rfl⟩ | hadjacent
    · exact absurd howner (hturned membership hafter)
    · exact (howners before after hadjacent membership hafter howner hturned).push _
  · rintro w tx - - ⟨hok, hG⟩ ⟨hinvitations, howners⟩
    refine ⟨hinvitations.commit hok hG, ?_⟩
    intro before after hadjacent membership hafter howner hturned
    rcases History.adjacent_push_iff.mp hadjacent with ⟨rfl, rfl⟩ | hadjacent
    · refine Authorized.push ?_ _
      rcases hG.after hafter with hsame | hlegal
      · exact absurd howner (hturned membership hsame)
      · exact MembershipStep.authorized hlegal howner hturned hinvitations
    · exact (howners before after hadjacent membership hafter howner hturned).push _

theorem sampleOrganization_noOwnerInvitations : NoOwnerInvitations sampleOrganization where
  consistent := sampleOrganization_consistent
  invitations h := by cases h

/-- The member of that user invites Dave as an owner, and Dave accepts. -/
def ownerInvitation (inviter : Id) : List (Line orgistry Request) :=
  [.start (.createInvitation (some ⟨inviter, inviter⟩)
      { organizationId := 1, email := "d@x", role := .owner, tokenHash := 7 }),
    .steps 0 40 9,
    .start (.acceptInvitation (some ⟨4, 4⟩) 7),
    .steps 1 40 9]

/-- Alice, an owner, has made Dave an owner. -/
def afterOwnerInvitation : ServerState :=
  (State.replay (serve sampleConfig) OwnersInvite (ownerInvitation 1)
    (State.initial sampleOrganization)).get (by decide)

theorem owner_makes_owner :
    OwnersAuthorized afterOwnerInvitation.history ∧
      ActiveOwner afterOwnerInvitation.history.now 1 9 :=
  ⟨owners_authorized ((State.Reach.init sampleOrganization_noOwnerInvitations).later
    (.of_replay (Option.some_get _).symm)), _, rfl, by decide⟩

/-- Carol, an admin, has made Dave an owner. -/
def afterAdminInvitation : ServerState :=
  (State.replay (serve sampleConfig) State.Always (ownerInvitation 3)
    (State.initial sampleOrganization)).get (by decide)

theorem afterAdminInvitation_reachable :
    Reachable sampleConfig NoOwnerInvitations State.Always afterAdminInvitation :=
  (State.Reach.init sampleOrganization_noOwnerInvitations).later
    (.of_replay (Option.some_get _).symm)

/-- The invitation that Carol has created. -/
def adminInvitation : Invitation :=
  { id := 9, organizationId := 1, invitedEmailNormalized := "d@x", role := .owner,
    tokenHash := 7, status := .pending, invitedByUserId := 3, acceptedByUserId := none,
    expiresAt := 1001, acceptedAt := none, revokedAt := none, updatedAt := 1 }

/-- Dave's membership. -/
def ownerByInvitation : Membership :=
  { id := 9, userId := 4, organizationId := 1, role := .owner, status := .active,
    invitedByUserId := some 3, joinedAt := 1, removedAt := none, updatedAt := 1,
    grantedBy := .invitation 9 }

theorem adminInvitation_not_createdByOwner :
    ¬CreatedByOwner afterAdminInvitation.history adminInvitation := by
  rintro ⟨before, after, hadjacent, hnone, hsome, howned⟩
  have hall : ∀ pair ∈ afterAdminInvitation.history.timeline.zip
      afterAdminInvitation.history.past, pair.2.get .invitations 9 = none →
        pair.1.get .invitations 9 ≠ none → ¬OwnedBy pair.2 1 3 := by decide
  exact hall _ (History.mem_zip_of_adjacent hadjacent) hnone hsome howned

theorem admin_makes_owner :
    ¬∀ (cfg : Config) (s : ServerState), Reachable cfg NoOwnerInvitations State.Always s →
      OwnersAuthorized s.history := by
  intro hclaim
  have hauthorized := hclaim _ _ afterAdminInvitation_reachable _ _ ⟨[], _, rfl⟩
    ownerByInvitation (by decide) (by decide) (by
      intro old hold
      cases hold)
  obtain ⟨invitation, hstored, -, hcreated⟩ := hauthorized
  obtain rfl : adminInvitation = invitation :=
    Option.some_inj.mp (Eq.trans (by decide) hstored)
  exact adminInvitation_not_createdByOwner hcreated

end Orgistry.Model
