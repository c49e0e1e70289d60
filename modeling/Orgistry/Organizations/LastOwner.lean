import Orgistry.Commits.Server
import Orgistry.ReadCommitted.Runs

/-!
# The last owner

An organization that has an active owner keeps one.  Role changes and removals
lock the whole set of active owners before they count it, so the count is still
right when they commit.
-/

namespace Orgistry.Model

open ReadCommitted

/-- The organization has an active owner membership. -/
def HasActiveOwner (organizationId : Id) (db : Database orgistry) : Prop :=
  ∃ membershipId, ActiveOwner db organizationId membershipId

variable {tx : Tx orgistry} {db : Database orgistry} {organizationId : Id}

/-- An owner steps down only beside another active owner. -/
theorem MembershipStep.keepsOwner {old new : Membership}
    (h : MembershipStep cfg tx db (some old) new) (howner : isActiveOwnerOf organizationId old)
    (hnew : (db.apply tx.writes).get .memberships new.id = some new) :
    HasActiveOwner organizationId (db.apply tx.writes) := by
  simp only [isActiveOwnerOf, Bool.and_eq_true, decide_eq_true_eq] at howner
  obtain ⟨⟨horganization, hstatus⟩, hrole⟩ := howner
  cases h with
  | @changeRole _ newRole now actorMembershipId hauthority hlast =>
      by_cases hkept : newRole = .owner
      · exact ⟨old.id, _, hnew, by simp [isActiveOwnerOf, horganization, hstatus, hkept]⟩
      · obtain ⟨other, -, -, hother⟩ := hlast hrole hkept
        exact ⟨other, horganization ▸ hother⟩
  | remove hlast =>
      obtain ⟨other, -, hother⟩ := hlast hrole
      exact ⟨other, horganization ▸ hother⟩

/-- One commit never takes the last owner away. -/
theorem Guarantee.keepsOwner (hG : Guarantee cfg tx db) (h : HasActiveOwner organizationId db) :
    HasActiveOwner organizationId (db.apply tx.writes) := by
  obtain ⟨membershipId, old, hold, howner⟩ := h
  obtain ⟨new, hnew, rfl | hlegal⟩ := hG.step hold
  · exact ⟨membershipId, new, hnew, howner⟩
  · have hid : Membership.id new = membershipId := Database.id_of_get hnew
    exact MembershipStep.keepsOwner hlegal howner (by rw [hid]; exact hnew)

variable {cfg : Config} {Init : Database orgistry → Prop}
  {ok : Tx orgistry → Database orgistry → Prop} {s : ServerState} {u v : History orgistry}

/-- Once an organization has an active owner, every later committed database has
one, whatever requests run and however their steps interleave. -/
theorem active_owner_remains (hinit : ∀ db, Init db → Consistent db.tables)
    (h : Reachable cfg Init ok s) (hu : s.history.Extends u) (hv : u.Extends v)
    (howner : HasActiveOwner organizationId v.now) : HasActiveOwner organizationId u.now := by
  have htrace := (Reachable.trace hinit h).of_extends hu
  refine (htrace.1.of_extends hv).2.preserves (P := HasActiveOwner organizationId) ?_ ?_ howner
  · exact fun _ _ hdb => hdb
  · exact fun _ _ _ hG hdb => hG.2.keepsOwner hdb

/-- Alice and Bob own the organization, Carol administers it. -/
def sampleOrganization : Database orgistry where
  tables
    | .users => ((noRows .users).put (sampleUser 1 "a@x" "p") |>.put (sampleUser 2 "b@x" "p")
        |>.put (sampleUser 3 "c@x" "p") |>.put (sampleUser 4 "d@x" "p"))
    | .sessions => ((noRows .sessions).put (sampleSession 1 1) |>.put (sampleSession 2 2)
        |>.put (sampleSession 3 3) |>.put (sampleSession 4 4))
    | .organizations => (noRows .organizations).put
        { id := 1, type := .team, status := .active, createdByUserId := 1 }
    | .memberships => ((noRows .memberships).put (sampleMembership 1 1 .owner)
        |>.put (sampleMembership 2 2 .owner) |>.put (sampleMembership 3 3 .admin))
    | .organizationPlans => (noRows .organizationPlans).put
        { id := 1, organizationId := 1, planKey := .pro }
    | t => noRows t
  clock := 1
where
  sampleMembership (id userId : Id) (role : RoleKey) : Membership :=
    { id, userId, organizationId := 1, role, status := .active, invitedByUserId := none,
      joinedAt := 0, removedAt := none, updatedAt := 0, grantedBy := .founder }

theorem sampleOrganization_consistent : Consistent sampleOrganization.tables :=
  .of_rows (by intro t; cases t <;> decide) (by intro t; cases t <;> decide)

/-- Alice and Bob demote each other at the same time: Bob waits for Alice's locks
and then finds himself no longer an owner. -/
def mutualDemotion : List (Line orgistry Request) :=
  [.start (.changeMemberRole (some ⟨1, 1⟩) 1 2 .member),
    .start (.changeMemberRole (some ⟨2, 2⟩) 1 1 .member),
    .steps 0 8 0, .steps 1 6 0, .steps 0 20 0, .steps 1 20 0]

def afterMutualDemotion : ServerState :=
  (State.replay (serve sampleConfig) State.Always mutualDemotion
    (State.initial sampleOrganization)).get (by decide)

theorem afterMutualDemotion_later :
    State.Later (serve sampleConfig) State.Always (State.initial sampleOrganization)
      afterMutualDemotion :=
  .of_replay (Option.some_get _).symm

theorem mutual_demotion_leaves_an_owner :
    HasActiveOwner 1 afterMutualDemotion.history.now :=
  active_owner_remains (by rintro _ rfl; exact sampleOrganization_consistent)
    ((State.Reach.init (Eq.refl sampleOrganization)).later afterMutualDemotion_later)
    (.refl _) afterMutualDemotion_later.extends ⟨1, _, rfl, by decide⟩

end Orgistry.Model
