import Orgistry.Limits.Quotas

/-!
# Seats

Members and pending invitations that have not expired share the member limit.
An acceptance trusts the time that it has read before it waits for the quota
lock, so an invitation that everybody else has given up meanwhile may still take
a seat.
-/

namespace Orgistry.Model

open ReadCommitted

variable {cfg : Config} {tx : Tx orgistry} {db : Database orgistry} {organizationId : Id}

/-- The plans stay as they are. -/
def PlanFixed (tx : Tx orgistry) (db : Database orgistry) : Prop :=
  ∀ plan ∈ (tx.writes .organizationPlans).rows,
    db.get .organizationPlans (OrganizationPlan.id plan) = none

/-- Acceptances commit before their invitation expires. -/
def AcceptedInTime (tx : Tx orgistry) (db : Database orgistry) : Prop :=
  ∀ invitation ∈ (tx.writes .invitations).rows, Invitation.status invitation = .accepted →
    db.clock < Invitation.expiresAt invitation

instance (tx : Tx orgistry) (db : Database orgistry) : Decidable (PlanFixed tx db) :=
  inferInstanceAs (Decidable (∀ plan ∈ (tx.writes .organizationPlans).rows, _))

instance (tx : Tx orgistry) (db : Database orgistry) : Decidable (AcceptedInTime tx db) :=
  inferInstanceAs (Decidable (∀ invitation ∈ (tx.writes .invitations).rows, _))

/-- A pending invitation that holds a seat at `now`. -/
def holdsSeat (organizationId : Id) (now : ℕ) (invitation : Invitation) : Bool :=
  occupies .members organizationId (t := .invitations) invitation && invitation.expiresAt > now

theorem countSeats_eq (now : ℕ) : countSeats organizationId now db =
    activeCount .members organizationId db +
      countRows .invitations (holdsSeat organizationId now) db := rfl

theorem holdsSeat_iff {now : ℕ} {invitation : Invitation} :
    holdsSeat organizationId now invitation ↔ invitation.organizationId = organizationId ∧
      invitation.status = .pending ∧ now < invitation.expiresAt := by
  simp [holdsSeat, occupies, and_assoc]

/-- The seats of every organization suffice at the instant of the database, and
what is marked as expired has expired. -/
structure SeatsSuffice (db : Database orgistry) : Prop where
  seats : ∀ ⦃plan : OrganizationPlan⦄ ⦃organizationId : Id⦄, InForce plan organizationId db →
    countSeats organizationId db.clock db ≤ maxMembers plan.planKey
  expired : ∀ ⦃x : Id⦄ ⦃invitation : Invitation⦄, db.get .invitations x = some invitation →
    invitation.status = .expired → invitation.expiresAt ≤ db.clock

/-- Time only frees seats. -/
theorem SeatsSuffice.advance (h : SeatsSuffice db) (n : ℕ) : SeatsSuffice (db.advance n) where
  seats plan organizationId hplan := by
    refine Nat.le_trans (Nat.add_le_add_left ?_ _) (h.seats hplan)
    refine Relation.count_le fun _ row hrow hp => ⟨row, hrow, ?_⟩
    have hseat := holdsSeat_iff.mp hp
    exact holdsSeat_iff.mpr ⟨hseat.1, hseat.2.1,
      Nat.lt_of_le_of_lt (Nat.le_add_right _ n) hseat.2.2⟩
  expired _ _ hget hstatus := Nat.le_trans (h.expired hget hstatus) (Nat.le_add_right _ n)

section Commit

variable {x : Id}

theorem invitations_stay_expired (hG : Guarantee cfg tx db) (h : SeatsSuffice db)
    {invitation : Invitation} (hget : (db.apply tx.writes).get .invitations x = some invitation)
    (hstatus : invitation.status = .expired) : invitation.expiresAt ≤ db.clock := by
  rcases hG.origin hget with ⟨old, hold, rfl | hstep⟩ | ⟨-, hstep⟩
  · exact h.expired hold hstatus
  · have hinvitation : InvitationStep cfg tx db (some old) invitation := hstep
    cases hinvitation with
    | expire hpending hexpired hclock =>
        exact Nat.le_trans (Nat.le_of_lt hexpired) hclock
    | accept => simp [acceptedInvitation] at hstatus
    | revoke => simp at hstatus
  · have hinvitation : InvitationStep cfg tx db none invitation := hstep
    cases hinvitation with
    | create hpending => simp [hpending] at hstatus

/-- A seat that was held before the commit, if it is not a new one. -/
theorem holdsSeat_before (hG : Guarantee cfg tx db) {now : ℕ} {invitation old : Invitation}
    (hget : (db.apply tx.writes).get .invitations x = some invitation)
    (hold : db.get .invitations x = some old) (h : holdsSeat organizationId now invitation) :
    holdsSeat organizationId now old := by
  obtain ⟨new, hnew, hstep⟩ := hG.step hold
  obtain rfl := Option.some_inj.mp (hget.symm.trans hnew)
  rcases hstep with rfl | hstep
  · exact h
  · have hlater : old.Later invitation := InvitationStep.later hstep
    obtain ⟨hid, hpending, hlive⟩ := holdsSeat_iff.mp h
    refine holdsSeat_iff.mpr ⟨hlater.organizationId.symm.trans hid, ?_, ?_⟩
    · by_contra hsettled
      exact hlater.settled hsettled hpending
    · rw [← hlater.expiresAt]
      exact hlive

/-- A commit that creates no invitation in the organization. -/
theorem seats_without_invitation (hG : Guarantee cfg tx db)
    (htime : AcceptedInTime tx db) (h : SeatsSuffice db)
    (horganization : db.get .organizations organizationId ≠ none)
    (hnothing : ∀ {y : Id} {invitation : Invitation},
      (db.apply tx.writes).get .invitations y = some invitation →
        invitation.organizationId = organizationId → db.get .invitations y ≠ none) :
    countSeats organizationId db.clock (db.apply tx.writes) ≤
      countSeats organizationId db.clock db := by
  have hseats : ∀ {y : Id} {invitation : Invitation},
      (db.apply tx.writes).get .invitations y = some invitation →
        holdsSeat organizationId db.clock invitation → ∃ old : Invitation,
          db.get .invitations y = some old ∧ holdsSeat organizationId db.clock old := by
    intro y invitation hget hp
    obtain ⟨old, hold⟩ := Option.ne_none_iff_exists'.mp (hnothing hget (holdsSeat_iff.mp hp).1)
    exact ⟨old, hold, holdsSeat_before hG hget hold hp⟩
  rw [countSeats_eq, countSeats_eq]
  obtain ⟨hle, hkept | ⟨x, -, hnone, new, hnew, hoccupies⟩⟩ :=
    activeCount_commit .members hG horganization
  · have hinvitations : countRows .invitations (holdsSeat organizationId db.clock)
        (db.apply tx.writes) ≤ countRows .invitations (holdsSeat organizationId db.clock) db :=
      Relation.count_le fun y row hrow hp => hseats hrow hp
    omega
  · -- the seat of the accepted invitation goes to the new member
    have hmember : MembershipStep cfg tx db none new :=
      hnone ▸ hG (Database.get_writes_of_new hnone hnew)
    simp only [occupies, decide_true, Bool.true_and, Bool.and_eq_true, decide_eq_true_eq]
      at hoccupies
    obtain ⟨rfl, -⟩ := hoccupies
    cases hmember with
    | found _ hfresh _ _ => exact absurd hfresh horganization
    | @accept _ invitation now params hstored hacceptable _ _ _ haccepted _ _ =>
        obtain ⟨hnotAccepted, hnotRevoked, -⟩ := assertAcceptable_eq_none.mp hacceptable
        have hlive : db.clock < invitation.expiresAt := by
          refine htime (acceptedInvitation params.acceptingUserId now invitation) ?_ rfl
          rcases hwritten : (tx.writes .invitations).get invitation.id with - | row
          · rw [Database.get_apply, hwritten] at haccepted
            have heq := Option.some_inj.mp (hstored.symm.trans haccepted)
            exact absurd (congrArg Invitation.status heq) hnotAccepted
          · rw [Database.get_apply, hwritten] at haccepted
            obtain rfl := Option.some_inj.mp haccepted
            exact Relation.mem_of_get hwritten
        have hpending : invitation.status = .pending := by
          cases hstatus : invitation.status with
          | pending => rfl
          | accepted => exact absurd hstatus hnotAccepted
          | revoked => exact absurd hstatus hnotRevoked
          | expired => exact absurd hlive (Nat.not_lt.mpr (h.expired hstored hstatus))
        have hinvitations : countRows .invitations
            (holdsSeat invitation.organizationId db.clock) (db.apply tx.writes) + 1 ≤
            countRows .invitations (holdsSeat invitation.organizationId db.clock) db := by
          refine Relation.count_add_le [] [invitation.id]
            (fun y row hrow hp => .inr (hseats hrow hp)) (fun y hy => ?_) (by simp)
          obtain rfl := List.mem_singleton.mp hy
          refine ⟨⟨invitation, hstored, holdsSeat_iff.mpr ⟨rfl, hpending, hlive⟩⟩, ?_⟩
          intro row hrow
          obtain rfl := Option.some_inj.mp (haccepted.symm.trans hrow)
          simp [holdsSeat, occupies, acceptedInvitation]
        simp only [acceptedMembership] at hle ⊢
        omega

/-- A commit that creates an invitation in the organization. -/
theorem seats_with_invitation (hG : Guarantee cfg tx db)
    (hreserves : ∀ lock ∈ tx.locks, Reserves cfg lock db)
    {new : Invitation} (hnew : (db.apply tx.writes).get .invitations x = some new)
    (hnone : db.get .invitations x = none) (hid : new.organizationId = organizationId) :
    ∃ plan, InForce plan organizationId db ∧
      countSeats organizationId db.clock (db.apply tx.writes) ≤ maxMembers plan.planKey := by
  have hstep : InvitationStep cfg tx db none new :=
    hnone ▸ hG (Database.get_writes_of_new hnone hnew)
  subst hid
  cases hstep with
  | create hpending hclock hquota honly hmembers =>
      obtain ⟨horganization, plan, hplan, hid, hcount⟩ := hquota.counted hreserves
      refine ⟨plan, ⟨hplan, hid⟩, ?_⟩
      have hmembers' : activeCount .members new.organizationId (db.apply tx.writes) ≤
          activeCount .members new.organizationId db := by
        obtain ⟨-, hkept | ⟨y, -, hfresh, member, hmember, -⟩⟩ :=
          activeCount_commit .members hG horganization
        · exact hkept
        · exact absurd (Database.get_writes_of_new hfresh hmember) (by simp [hmembers y])
      -- whoever holds a seat now held one when the transaction counted
      have hinvitations : countRows .invitations (holdsSeat new.organizationId db.clock)
          (db.apply tx.writes) ≤
          countRows .invitations (holdsSeat new.organizationId new.updatedAt) db + 1 := by
        refine Relation.count_le_add (S := orgistry) (t := .invitations) [x]
          fun y row hrow hp => ?_
        cases hold : db.get .invitations y with
        | none =>
            have hwritten := Database.get_writes_of_new hold hrow
            have hx : Invitation.id new = x := Database.id_of_get hnew
            exact .inl (by simp [honly (by simp [hwritten]) hold, hx])
        | some old =>
            have hbefore := holdsSeat_iff.mp (holdsSeat_before hG hrow hold hp)
            exact .inr ⟨old, hold, holdsSeat_iff.mpr ⟨hbefore.1, hbefore.2.1,
              Nat.lt_of_le_of_lt hclock hbefore.2.2⟩⟩
      have hcounted : activeCount .members new.organizationId db +
          countRows .invitations (holdsSeat new.organizationId new.updatedAt) db <
            maxMembers plan.planKey := hcount
      rw [countSeats_eq]
      omega

/-- A new organization has no invitations yet. -/
theorem seats_founded (hdb : Consistent db.tables)
    (hafter : Consistent (db.apply tx.writes).tables) (hG : Guarantee cfg tx db)
    (hreserves : ∀ lock ∈ tx.locks, Reserves cfg lock db)
    (horganization : db.get .organizations organizationId = none) :
    countSeats organizationId db.clock (db.apply tx.writes) ≤ maxMembers .free := by
  have hmembers := activeCount_founded .members hdb hafter hG hreserves horganization
  have hnothing : ∀ {y : Id} {invitation : Invitation},
      (db.apply tx.writes).get .invitations y = some invitation →
        invitation.organizationId ≠ organizationId := by
    rintro y invitation hget rfl
    rcases hG.origin hget with ⟨old, hold, hstep⟩ | ⟨-, hstep⟩
    · have hsame : old.organizationId = invitation.organizationId := by
        rcases hstep with rfl | hstep
        · rfl
        · exact (InvitationStep.later hstep).organizationId.symm
      exact hdb.referential hold (.organizations, invitation.organizationId)
        (by simp [rowRefs, hsame]) horganization
    · have hinvitation : InvitationStep cfg tx db none invitation := hstep
      cases hinvitation with
      | create _ _ hquota _ _ => exact (hquota.counted hreserves).1 horganization
  have hinvitations : countRows .invitations (holdsSeat organizationId db.clock)
      (db.apply tx.writes) ≤ 0 := by
    have hle : ((db.apply tx.writes).tables .invitations).count
        (holdsSeat organizationId db.clock) ≤ (noRows .invitations).count fun _ => false :=
      Relation.count_le fun y row hrow hp => absurd (holdsSeat_iff.mp hp).1 (hnothing hrow)
    simpa [countRows, noRows, Relation.empty, Relation.count] using hle
  have hlimit : activeCount .members organizationId (db.apply tx.writes) ≤ maxMembers .free :=
    hmembers
  rw [countSeats_eq]
  omega

/-- One commit that changes no plan and accepts in time. -/
theorem SeatsSuffice.commit (h : SeatsSuffice db) (hdb : Consistent db.tables)
    (hafter : Consistent (db.apply tx.writes).tables) (hfixed : PlanFixed tx db)
    (htime : AcceptedInTime tx db) (hG : Guarantee cfg tx db)
    (hreserves : ∀ lock ∈ tx.locks, Reserves cfg lock db) :
    SeatsSuffice (db.apply tx.writes) where
  expired _ _ hget hstatus := invitations_stay_expired hG h hget hstatus
  seats plan organizationId hplan := by
    obtain ⟨hget, hid⟩ := hplan
    rcases hwritten : (tx.writes .organizationPlans).get plan.id with - | row
    · have hforce : InForce plan organizationId db := by
        rw [Database.get_apply, hwritten] at hget
        exact ⟨by simpa using hget, hid⟩
      have horganization : db.get .organizations organizationId ≠ none :=
        hdb.referential hforce.1 (.organizations, organizationId) (by simp [rowRefs, hid])
      by_cases hnew : ∃ y, ∃ invitation : Invitation,
          (db.apply tx.writes).get .invitations y = some invitation ∧
            db.get .invitations y = none ∧ invitation.organizationId = organizationId
      · obtain ⟨y, invitation, hinvitation, hnone, hwhere⟩ := hnew
        obtain ⟨checked, hchecked, hle⟩ :=
          seats_with_invitation hG hreserves hinvitation hnone hwhere
        rw [plan_unique hdb hchecked hforce] at hle
        exact hle
      · refine Nat.le_trans (seats_without_invitation hG htime h horganization ?_) (h.seats hforce)
        intro y invitation hinvitation hwhere hnone
        exact hnew ⟨y, invitation, hinvitation, hnone, hwhere⟩
    · rw [Database.get_apply, hwritten] at hget
      obtain rfl : row = plan := Option.some_inj.mp hget
      have hnone := hfixed row (Relation.mem_of_get hwritten)
      have hassign : OrganizationPlanStep tx db none row := hnone ▸ hG hwritten
      cases hassign with
      | assign hfree hfresh =>
          rw [hfree, ← hid]
          exact seats_founded hdb hafter hG hreserves hfresh

end Commit

/-! ## Runs -/

/-- The step counts the pending invitation as expired, or marks it so. -/
def GivenUp (x : Id) (before after : Database orgistry) : Prop :=
  ∃ invitation : Invitation, before.get .invitations x = some invitation ∧
    invitation.status = .pending ∧
      ((∃ y, ∃ new : Invitation, before.get .invitations y = none ∧
          after.get .invitations y = some new ∧
          new.organizationId = invitation.organizationId ∧
          invitation.expiresAt ≤ new.updatedAt) ∨
        ∃ expired : Invitation, after.get .invitations x = some expired ∧
          expired.status = .expired)

/-- The step accepts the invitation. -/
def AcceptedBy (x : Id) (before after : Database orgistry) : Prop :=
  ∃ invitation accepted : Invitation, before.get .invitations x = some invitation ∧
    after.get .invitations x = some accepted ∧ invitation.status ≠ .accepted ∧
      accepted.status = .accepted

structure SeatsReserved (w : History orgistry) : Prop where
  seats : ∀ db ∈ w.timeline, ∀ plan organizationId, InForce plan organizationId db →
    countSeats organizationId db.clock db ≤ maxMembers plan.planKey
  givenUp : ∀ x, w.NeverAfter (GivenUp x) (AcceptedBy x)

/-- A database to start from. -/
structure SeatsSettled (db : Database orgistry) : Prop where
  consistent : Consistent db.tables
  suffice : SeatsSuffice db

/-- The expiry of the invitation has passed. -/
def ExpiryPassed (x : Id) (db : Database orgistry) : Prop :=
  ∃ invitation : Invitation, db.get .invitations x = some invitation ∧
    invitation.expiresAt ≤ db.clock

theorem expiryPassed_commit (hG : Guarantee cfg tx db) {x : Id} (h : ExpiryPassed x db) :
    ExpiryPassed x (db.apply tx.writes) := by
  obtain ⟨old, hold, hpassed⟩ := h
  obtain ⟨new, hnew, rfl | hstep⟩ := hG.step hold
  · exact ⟨_, hnew, hpassed⟩
  · have hlater : Invitation.Later old new := InvitationStep.later hstep
    exact ⟨new, hnew, hlater.expiresAt ▸ hpassed⟩

/-- An invitation is given up only once its expiry has passed. -/
theorem GivenUp.expiryPassed (hG : Guarantee cfg tx db) {x : Id}
    (h : GivenUp x db (db.apply tx.writes)) : ExpiryPassed x (db.apply tx.writes) := by
  obtain ⟨invitation, hget, hpending, hwhy⟩ := h
  refine expiryPassed_commit hG ⟨invitation, hget, ?_⟩
  rcases hwhy with ⟨y, new, hnone, hnew, -, hcounted⟩ | ⟨expired, hexpired, hstatus⟩
  · have hstep : InvitationStep cfg tx db none new :=
      hnone ▸ hG (Database.get_writes_of_new hnone hnew)
    cases hstep with
    | create _ hclock _ _ _ => exact Nat.le_trans hcounted hclock
  · obtain ⟨new, hnew, hsame | hstep⟩ := hG.step hget
    · obtain rfl := Option.some_inj.mp (hexpired.symm.trans hnew)
      rw [hsame, hpending] at hstatus
      cases hstatus
    · obtain rfl := Option.some_inj.mp (hexpired.symm.trans hnew)
      have hinvitation : InvitationStep cfg tx db (some invitation) expired := hstep
      cases hinvitation with
      | expire _ hpassed hclock => exact Nat.le_trans (Nat.le_of_lt hpassed) hclock
      | accept => simp [acceptedInvitation] at hstatus
      | revoke => simp at hstatus

/-- Whoever accepts in time accepts an invitation whose expiry is still to come. -/
theorem AcceptedBy.not_expiryPassed (htime : AcceptedInTime tx db) (hG : Guarantee cfg tx db)
    {x : Id} (h : AcceptedBy x db (db.apply tx.writes)) : ¬ExpiryPassed x db := by
  rintro ⟨old, hold, hpassed⟩
  obtain ⟨invitation, accepted, hget, haccepted, hbefore, hafter⟩ := h
  obtain rfl := Option.some_inj.mp (hold.symm.trans hget)
  rcases hwritten : (tx.writes .invitations).get x with - | row
  · rw [Database.get_apply, hwritten] at haccepted
    have heq := Option.some_inj.mp (hget.symm.trans haccepted)
    exact hbefore (heq ▸ hafter)
  · rw [Database.get_apply, hwritten] at haccepted
    obtain rfl := Option.some_inj.mp haccepted
    have hstep : InvitationStep cfg tx db (some old) row := hold ▸ hG hwritten
    have hexpires : row.expiresAt = old.expiresAt := (InvitationStep.later hstep).expiresAt
    have hlive := htime row (Relation.mem_of_get hwritten) hafter
    omega

variable {s : ServerState}

/-- Under fixed plans, in every run whose acceptances commit in time, seats are
never overbooked and nobody accepts what another transaction has given up. -/
theorem seats_are_reserved
    (h : Reachable cfg SeatsSettled (fun tx db => PlanFixed tx db ∧ AcceptedInTime tx db) s) :
    SeatsReserved s.history := by
  have hinit : ∀ db : Database orgistry, SeatsSettled db → Consistent db.tables :=
    fun db hdb => hdb.consistent
  have htrace := Reachable.reserved hinit h
  constructor
  · suffices hall : ∀ db ∈ s.history.timeline, SeatsSuffice db from
      fun db hdb _ _ hplan => (hall db hdb).seats hplan
    refine htrace.induction (P := fun w => ∀ db ∈ w.timeline, SeatsSuffice db) ?_ ?_ ?_
    · intro db hdb db' hdb'
      obtain rfl := List.mem_singleton.mp hdb'
      exact hdb.suffice
    · intro w n hw db hdb
      rcases List.mem_cons.mp hdb with rfl | hdb
      · exact (hw w.now List.mem_cons_self).advance n
      · exact hw db hdb
    · rintro w tx hw hsound ⟨⟨hfixed, htime⟩, hG, hreserves⟩ ih db hdb
      rcases List.mem_cons.mp hdb with rfl | hdb
      · exact (ih w.now List.mem_cons_self).commit (hw.consistent hinit)
          (hsound.consistent _ tx.current_mem_layers) hfixed htime hG hreserves
      · exact ih db hdb
  · intro x
    refine History.neverAfter (M := ExpiryPassed x)
      (htrace.forall_steps (P := fun before after => GivenUp x before after →
        ExpiryPassed x after) ?_ ?_)
      (htrace.forall_steps (P := fun before after => AcceptedBy x before after →
        ¬ExpiryPassed x before) ?_ ?_)
      (htrace.forall_steps (P := fun before after => ExpiryPassed x before →
        ExpiryPassed x after) ?_ ?_)
    · rintro w n -
        ⟨invitation, hget, hpending, ⟨y, new, hnone, hnew, -⟩ | ⟨expired, hget', hstatus⟩⟩
      · exact absurd (hnone.symm.trans hnew) (by simp)
      · obtain rfl := Option.some_inj.mp (hget.symm.trans hget')
        simp [hpending] at hstatus
    · exact fun w tx _ _ hG => GivenUp.expiryPassed hG.2.1
    · rintro w n - ⟨invitation, accepted, hget, hget', hbefore, hafter⟩
      obtain rfl := Option.some_inj.mp (hget.symm.trans hget')
      exact absurd hafter hbefore
    · exact fun w tx _ _ hG => AcceptedBy.not_expiryPassed hG.1.2 hG.2.1
    · rintro w n - ⟨invitation, hget, hpassed⟩
      exact ⟨invitation, hget, Nat.le_trans hpassed (Nat.le_add_right _ n)⟩
    · exact fun w tx _ _ hG => expiryPassed_commit hG.2.1

/-- Alice alone in her organization, on the free plan with three seats. -/
def freeOrganization : Database orgistry where
  tables
    | .memberships => (noRows .memberships).put (sampleOrganization.sampleMembership 1 1 .owner)
    | .organizationPlans => (noRows .organizationPlans).put
        { id := 1, organizationId := 1, planKey := .free }
    | t => sampleOrganization.tables t
  clock := 1

theorem freeOrganization_seatsSettled : SeatsSettled freeOrganization where
  consistent := .of_rows (by intro t; cases t <;> decide) (by intro t; cases t <;> decide)
  suffice :=
    { seats := by
        rintro plan organizationId ⟨hplan, rfl⟩
        have hall : ∀ plan ∈ (freeOrganization.tables .organizationPlans).rows,
            countSeats (OrganizationPlan.organizationId plan) 1 freeOrganization ≤
              maxMembers (OrganizationPlan.planKey plan) := by
          decide
        exact hall plan (Relation.mem_of_get hplan)
      expired := fun x invitation hget => by cases hget }

/-- Invitations that live for ten milliseconds. -/
def shortConfig : Config := { sampleConfig with invitationTtl := 10 }

def aliceInvites (email : String) (tokenHash : TokenHash) : Request :=
  .createInvitation (some ⟨1, 1⟩) { organizationId := 1, email, role := .member, tokenHash }

/-- Alice invites Bob and Carol, and Bob accepts. -/
def afterTimelyAcceptance : ServerState :=
  (State.replay (serve shortConfig) (fun tx db => PlanFixed tx db ∧ AcceptedInTime tx db)
    [.start (aliceInvites "b@x" 7), .steps 0 40 7, .start (aliceInvites "c@x" 8),
      .steps 1 40 8, .start (.acceptInvitation (some ⟨2, 2⟩) 7), .steps 2 40 2]
    (State.initial freeOrganization)).get (by decide)

theorem timely_acceptance_keeps_its_seat :
    SeatsReserved afterTimelyAcceptance.history ∧
      countSeats 1 afterTimelyAcceptance.history.now.clock afterTimelyAcceptance.history.now =
        maxMembers .free :=
  ⟨seats_are_reserved ((State.Reach.init freeOrganization_seatsSettled).later
    (.of_replay (Option.some_get _).symm)), by decide⟩

/-- Bob's acceptance has read the clock and has yet to take the quota lock when
his invitation expires and Alice invites Dave in his place. -/
def afterLateAcceptance : ServerState :=
  (State.replay (serve shortConfig) PlanFixed
    [.start (aliceInvites "b@x" 7), .steps 0 40 7, .tick 2, .start (aliceInvites "c@x" 8),
      .steps 1 40 8, .tick 7, .start (.acceptInvitation (some ⟨2, 2⟩) 7), .steps 2 7 0,
      .tick 1, .start (aliceInvites "d@x" 9), .steps 3 40 9, .steps 2 40 2]
    (State.initial freeOrganization)).get (by decide)

theorem four_seats_of_three :
    ¬∀ (cfg : Config) (s : ServerState), Reachable cfg SeatsSettled PlanFixed s →
      SeatsReserved s.history := by
  intro hclaim
  have hreserved := hclaim shortConfig afterLateAcceptance
    ((State.Reach.init freeOrganization_seatsSettled).later
      (.of_replay (Option.some_get _).symm))
  obtain ⟨plan, hplan, horganization, hover⟩ :
      ∃ plan ∈ (afterLateAcceptance.history.now.tables .organizationPlans).rows,
        OrganizationPlan.organizationId plan = 1 ∧
          maxMembers (OrganizationPlan.planKey plan) <
            countSeats 1 afterLateAcceptance.history.now.clock afterLateAcceptance.history.now := by
    decide
  have hle := hreserved.seats _ List.mem_cons_self plan 1
    ⟨Relation.mem_rows_iff.mp hplan, horganization⟩
  exact absurd hover (Nat.not_lt.mpr hle)

end Orgistry.Model
