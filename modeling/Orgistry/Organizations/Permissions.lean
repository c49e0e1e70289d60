import Orgistry.Organizations.LastOwner
import Orgistry.ReadCommitted.Learning

/-!
# Permissions

Requests for an organization check the session, the organization, the membership and
its role one after the other, each in a statement of its own, while others commit.
Whatever they do afterwards, they have been permitted at that time.
-/

namespace Orgistry.Model

open ReadCommitted

variable {cfg : Config} {accessToken : Option AccessClaims} {organizationId : Id}
  {permission : PermissionKey} {w : History orgistry}

/-- The user is an active member, and the role has the permission. -/
def MayAct (userId organizationId : Id) (permission : PermissionKey) (db : Database orgistry) :
    Prop :=
  ∃ membership : Membership, db.get .memberships membership.id = some membership ∧
    membership.userId = userId ∧ membership.organizationId = organizationId ∧
    membership.status = .active ∧ (rolePermissions membership.role).contains permission = true

def OpenOrganization (organizationId : Id) (db : Database orgistry) : Prop :=
  ∃ organization : Organization, db.get .organizations organizationId = some organization ∧
    organization.status = .active

/-- Between `w` and `w'` there were moments at which the session of the token was open, the
organization was active, and the user of the session had the permission. -/
def Permitted (cfg : Config) (accessToken : Option AccessClaims) (organizationId : Id)
    (permission : PermissionKey) (w w' : History orgistry) : Prop :=
  ∃ (claims : AccessClaims) (session : Session), accessToken = some claims ∧
    session.id = claims.sessionId ∧ session.revokedAt = none ∧
    Seen (Guarantee cfg) w w' (fun db => db.get .sessions session.id = some session) ∧
    Seen (Guarantee cfg) w w' (OpenOrganization organizationId) ∧
    Seen (Guarantee cfg) w w' (MayAct session.userId organizationId permission)

theorem lasting_permitted :
    Lasting (Guarantee cfg) (Permitted cfg accessToken organizationId permission w) := by
  intro v v' hmoves h
  obtain ⟨claims, session, hclaims, hid, hopen, hsession, horganization, hmember⟩ := h
  exact ⟨claims, session, hclaims, hid, hopen, hsession.later hmoves, horganization.later hmoves,
    hmember.later hmoves⟩

/-- Membership, role and permission are each seen at a moment of their own. -/
theorem safe_authorize_permitted :
    Safe (Guarantee cfg) (OrganizationService.authorize accessToken organizationId permission)
      (fun _ _ w' => Permitted cfg accessToken organizationId permission w w') .begin w := by
  cases accessToken with
  | none => exact safe_bind (safe_bind safe_abortWith)
  | some claims =>
      refine safe_bind (AuthService.safe_authenticate fun w₁ user session h₁ hauth => ?_)
      refine safe_bind (safe_bind (safe_selectOne fun w₂ found h₂ hfound => ?_))
      split
      · exact safe_abortWith
      · next organization =>
          have hid : organization.id = organizationId := of_decide_eq_true (hfound.holds rfl)
          split
          · next hactive =>
              refine safe_bind (safe_selectOne fun w₃ found' h₃ hmember => ?_)
              split
              · exact safe_abortWith
              · next membership =>
                  change Safe _ (if _ then _ else _) _ _ _
                  split
                  · next hpermission =>
                      have hholds := hmember.holds rfl
                      rw [Bool.and_eq_true, Bool.and_eq_true] at hholds
                      have horganization : OpenOrganization organizationId w₂.now :=
                        ⟨organization, hid ▸ hfound.get rfl, hactive⟩
                      have hmay : MayAct session.userId organizationId permission w₃.now :=
                        ⟨membership, hmember.get rfl,
                          (of_decide_eq_true hholds.1.1).trans hauth.userId.symm,
                          of_decide_eq_true hholds.1.2, of_decide_eq_true hholds.2, hpermission⟩
                      exact ⟨claims, session, rfl, (hauth.claimed claims rfl).symm, hauth.isOpen,
                        hauth.sessionRead.later (h₂.moves.trans h₃.moves),
                        (Seen.intro (h₁.trans h₂.moves) horganization).later h₃.moves,
                        Seen.intro (h₁.trans (h₂.moves.trans h₃.moves)) hmay⟩
                  · exact safe_abortWith
          · exact safe_abortWith

/-- The organization of a request and the permission that it needs there. -/
def Request.needs : Request → Option (Id × PermissionKey)
  | .changeMemberRole _ organizationId _ _ => some (organizationId, .membersChangeRole)
  | .removeMember _ organizationId _ => some (organizationId, .membersRemove)
  | .createInvitation _ input => some (input.organizationId, .invitationsCreate)
  | .revokeInvitation _ organizationId _ => some (organizationId, .invitationsRevoke)
  | .createProject _ organizationId _ => some (organizationId, .projectsCreate)
  | .deleteProject _ organizationId _ => some (organizationId, .projectsDelete)
  | .createApiKey _ input => some (input.organizationId, .apiKeysCreate)
  | .revokeApiKey _ organizationId _ => some (organizationId, .apiKeysRevoke)
  | .changeDemoPlan _ organizationId _ => some (organizationId, .planChangeDemo)
  | _ => none

/-- Every such request begins with its authorization. -/
theorem learns_serve {request : ℕ} {r : Request}
    (hneeds : r.needs = some (organizationId, permission)) :
    Learns (Guarantee cfg) (Permitted cfg r.accessToken organizationId permission w)
      (serve cfg request r) .begin w := by
  have hauthorize : ∀ (accessToken : Option AccessClaims) (organizationId : Id)
      (permission : PermissionKey) {α β : Type} (f : OrganizationActor → Program α)
      (g : α → Program β),
      Learns (Guarantee cfg) (Permitted cfg accessToken organizationId permission w)
        ((OrganizationService.authorize accessToken organizationId permission >>= f) >>= g)
        .begin w := fun _ _ _ _ _ f g =>
    (safe_authorize_permitted.learns.bind lasting_permitted f).bind lasting_permitted g
  cases r with
  | changeMemberRole | removeMember | createInvitation | revokeInvitation | createProject
  | deleteProject | createApiKey | revokeApiKey | changeDemoPlan =>
      cases hneeds
      exact hauthorize _ _ _ _ _
  | _ => cases hneeds

variable {Init : Database orgistry → Prop} {ok : Tx orgistry → Database orgistry → Prop}
  {s : ServerState}

/-- Whatever runs at the same time, a request for an organization that has been answered
was permitted between its arrival and its answer. -/
theorem served_requests_were_permitted (hinit : ∀ db, Init db → Consistent db.tables)
    (h : Reachable cfg Init ok s) {j : ℕ} {r : Request} {answer : Answer}
    (hanswered : s.Answered j r answer)
    (hneeds : r.needs = some (organizationId, permission)) :
    ∃ th, s.threads[j]? = some th ∧
      Permitted cfg r.accessToken organizationId permission th.born s.history := by
  have hsafe : ∀ i r w, Trace (Guarantee cfg) Init w → Safe (Guarantee cfg) (serve cfg i r)
      (fun _ _ w' => ∀ organizationId permission, r.needs = some (organizationId, permission) →
        Permitted cfg r.accessToken organizationId permission w w') .begin w := by
    intro i r w htrace
    have hserve := @safe_serve cfg _ (htrace.consistent hinit) i r
    cases hr : r.needs with
    | none => exact hserve.mono fun _ _ _ _ _ _ hnone => absurd hnone.symm (by simp)
    | some needs =>
        refine (learns_serve hr _ hserve).mono fun _ _ _ hend _ _ heq => ?_
        obtain rfl := Option.some.inj heq
        exact hend.2
  obtain ⟨th, v, hth, -, hv, hpermitted⟩ := hanswered.post hinit hsafe h
  exact ⟨th, hth, lasting_permitted _ _ hv (hpermitted _ _ hneeds)⟩

/-- Carol asks for a project, and has been let through when Alice removes her. -/
def afterRemoval : ServerState :=
  (State.replay (serve sampleConfig) State.Always
    [.start (.createProject (some ⟨3, 3⟩) 1 0), .steps 0 6 0,
      .start (.removeMember (some ⟨1, 1⟩) 1 3), .steps 1 40 0, .steps 0 40 9]
    (State.initial sampleOrganization)).get (by decide)

theorem removed_member_was_permitted :
    (∃ th, afterRemoval.threads[0]? = some th ∧
      Permitted sampleConfig (some ⟨3, 3⟩) 1 .projectsCreate th.born afterRemoval.history) ∧
    (afterRemoval.history.now.get .memberships 3).map Membership.status = some .removed ∧
    afterRemoval.history.now.get .projects 9 ≠ none :=
  ⟨served_requests_were_permitted (by rintro _ rfl; exact sampleOrganization_consistent)
    ((State.Reach.init (Eq.refl sampleOrganization)).later (.of_replay (Option.some_get _).symm))
    (show afterRemoval.Answered 0 (.createProject (some ⟨3, 3⟩) 1 0) .done from ⟨_, rfl, rfl, rfl⟩)
    rfl, by decide, by decide⟩

end Orgistry.Model
