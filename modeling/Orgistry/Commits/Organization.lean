import Orgistry.Commits.Auth

/-!
# The commits of organization requests
-/

namespace Orgistry.Model

open ReadCommitted

variable {cfg : Config} {tx : Tx orgistry} {w w' : History orgistry}

/-- The locked owners, as long as the transaction lasts. -/
theorem lockedOwner {organizationId : Id} {owners : List Membership} {start db : Database orgistry}
    {final : Tx orgistry}
    (hselected : Selected (S := orgistry) (t := .memberships) (isActiveOwnerOf organizationId)
      (.hold .update) .begin start owners tx)
    (hsound : final.Sound db) (hlocks : tx.locks ⊆ final.locks) {owner : Membership}
    (howner : owner ∈ owners) : ActiveOwner db organizationId owner.id := by
  obtain ⟨row, hrow, hp, rfl⟩ :=
    hselected.found_at (RowOp.exclusive_hold (by simp)) hsound hlocks howner
  exact ⟨_, hrow, hp⟩

/-- A commit that does not write the owner's row leaves it in place. -/
theorem ActiveOwner.after {db : Database orgistry} {organizationId membershipId : Id}
    (h : ActiveOwner db organizationId membershipId)
    (hwrites : (tx.writes .memberships).get membershipId = none) :
    ActiveOwner (db.apply tx.writes) organizationId membershipId := by
  obtain ⟨membership, hget, howner⟩ := h
  exact ⟨membership, by rw [Database.get_apply, hwrites]; exact hget, howner⟩

/-- More than one locked owner leaves one besides any given membership. -/
theorem exists_other_owner {owners : List Membership} (hnodup : (owners.map Membership.id).Nodup)
    (hlength : 1 < (owners.map Membership.id).length) (membershipId : Id) :
    ∃ owner ∈ owners, owner.id ≠ membershipId := by
  have hne : owners.map Membership.id ≠ [membershipId] := by
    intro heq
    rw [heq] at hlength
    simp at hlength
  rcases (hnodup.ne_singleton_iff membershipId).mp hne with hnil | ⟨x, hx, hother⟩
  · rw [hnil] at hlength
    simp at hlength
  · obtain ⟨owner, howner, rfl⟩ := List.mem_map.mp hx
    exact ⟨owner, howner, hother⟩

namespace OrganizationRepository

/-- A new organization with its owner and its plan, inserted by the part of a
transaction from `tx` to `tx'`. -/
structure Provisioned (type : OrganizationType) (ownerUserId : Id)
    (answer : Organization × Membership) (tx tx' : Tx orgistry) : Prop where
  organization : answer.1 =
    { id := answer.1.id, type, status := .active, createdByUserId := ownerUserId }
  membership : answer.2.userId = ownerUserId ∧ answer.2.organizationId = answer.1.id ∧
    isActiveOwnerOf answer.1.id answer.2 ∧ answer.2.grantedBy = .founder
  organizations : tx'.writes .organizations = (tx.writes .organizations).put answer.1
  memberships : tx'.writes .memberships = (tx.writes .memberships).put answer.2
  plans : ∃ plan : OrganizationPlan, plan.organizationId = answer.1.id ∧ plan.planKey = .free ∧
    tx'.writes .organizationPlans = (tx.writes .organizationPlans).put plan
  isNew : ∀ {final : Tx orgistry} {db : Database orgistry}, final.Sound db →
    tx'.locks ⊆ final.locks → db.get .organizations answer.1.id = none ∧
      db.get .memberships answer.2.id = none

theorem Provisioned.get_memberships {type : OrganizationType} {ownerUserId : Id}
    {answer : Organization × Membership} {tx' : Tx orgistry}
    (h : Provisioned type ownerUserId answer tx tx')
    (hfirst : tx.writes .memberships = Relation.empty) {x : Id} {row : Membership}
    (hrow : (tx'.writes .memberships).get x = some row) : x = answer.2.id ∧ row = answer.2 := by
  rw [h.memberships, hfirst, Relation.get_put] at hrow
  split at hrow
  · next hx => exact ⟨hx, (Option.some_inj.mp hrow).symm⟩
  · cases hrow

/-- An organization is inserted together with its owner and its plan. -/
theorem safe_insertOrganizationWithOwnerMembership {type : OrganizationType}
    {ownerUserId : Id} {now : ℕ}
    {Q : Organization × Membership → Tx orgistry → History orgistry → Prop}
    (h : ∀ w' answer tx', Moves (Guarantee cfg) w w' →
      Provisioned type ownerUserId answer tx tx' →
      Continues cfg [.organizations, .memberships, .organizationPlans] [.organizations]
        tx tx' w' → Q answer tx' w') :
    Safe (Guarantee cfg) (insertOrganizationWithOwnerMembership type ownerUserId now) Q tx w := by
  refine safe_bind (safe_insert fun w₁ x h₁ _ horganization => ?_)
  generalize horg : Organization.mk x type .active ownerUserId = organization at *
  refine safe_bind (safe_insert fun w₂ y h₂ _ hmembership => ?_)
  generalize hmem : Membership.mk y ownerUserId organization.id .owner .active none now none now
    .founder = membership at *
  refine safe_bind (safe_insert fun w₃ z h₃ _ hplan => ?_)
  generalize hpln : OrganizationPlan.mk z organization.id .free = plan at *
  have hlocks₂ := (tx.add (t := Table.organizations) organization w₁.now).locks_subset_add
    (t := Table.memberships) membership w₂.now
  have hlocks₃ := Tx.locks_subset_add ((tx.add (t := Table.organizations) organization w₁.now).add
    (t := Table.memberships) membership w₂.now) (t := Table.organizationPlans) plan w₃.now
  have hfirst : Continues cfg _ _ _ _ w₁ := Continues.insert horganization []
    fun {_ _} _ _ _ _ => rfl
  have hsecond : Continues cfg _ _ _ _ w₂ := Continues.insert hmembership [.organizations]
    fun {final w'} _ hsound hlocks hlast => by
      subst hmem
      have hstored : (w'.now.apply final.writes).get .organizations organization.id =
          some organization := by
        rw [Database.get_apply, hlast _ (by simp), Tx.writes_add_of_ne _ _ _ (by simp),
          Tx.writes_add_self]
        exact congrArg (fun found => Option.or found _) (Relation.get_put_self _ _)
      exact MembershipStep.found rfl
        (horganization.stays_free hsound (List.Subset.trans hlocks₂ hlocks)) hstored
        (by rw [← horg])
  have hthird : Continues cfg _ _ _ _ w₃ := Continues.insert hplan []
    fun {_ _} _ hsound hlocks _ => by
      subst hpln
      exact OrganizationPlanStep.assign rfl (horganization.stays_free hsound
        (List.Subset.trans hlocks₂ (List.Subset.trans hlocks₃ hlocks)))
  refine h w₃ _ _ (h₁.moves.trans (h₂.moves.trans h₃.moves)) ?_
    (hfirst.trans (h₂.moves.trans h₃.moves) (hsecond.trans h₃.moves hthird (by simp)) (by simp))
  exact
    { organization := by rw [← horg]
      membership := by rw [← hmem]; simp [isActiveOwnerOf]
      organizations := by
        rw [Tx.writes_add_of_ne _ _ _ (by simp), Tx.writes_add_of_ne _ _ _ (by simp),
          Tx.writes_add_self]
      memberships := by
        rw [Tx.writes_add_of_ne _ _ _ (by simp), Tx.writes_add_self,
          Tx.writes_add_of_ne _ _ _ (by simp)]
      plans := by
        refine ⟨plan, by rw [← hpln], by rw [← hpln], ?_⟩
        rw [Tx.writes_add_self, Tx.writes_add_of_ne _ _ _ (by simp),
          Tx.writes_add_of_ne _ _ _ (by simp)]
      isNew := fun hsound hlocks =>
        ⟨horganization.stays_free hsound (List.Subset.trans hlocks₂
          (List.Subset.trans hlocks₃ hlocks)),
          hmembership.stays_free hsound (List.Subset.trans hlocks₃ hlocks)⟩ }

theorem safe_createTeamOrganization {userId : Id}
    {Q : Organization × Membership → Tx orgistry → History orgistry → Prop}
    (h : ∀ w' answer, Moves (Guarantee cfg) w w' → Q answer .begin w') :
    Safe (Guarantee cfg) (createTeamOrganization userId) Q .begin w := by
  refine safe_transaction (safe_bind (safe_clock fun w₁ h₁ => ?_))
  refine safe_insertOrganizationWithOwnerMembership fun w₂ answer tx h₂ _ hpart w₃ h₃ => ?_
  have hG := hpart.guarantee h₃
  exact ⟨hG, h _ _ (h₁.moves.trans (h₂.trans (commits h₃ hG)))⟩

/-- The owners are locked and counted before one of them steps down. -/
theorem safe_changeMemberRole {params : ChangeMemberRoleParams}
    {Q : Unit → Tx orgistry → History orgistry → Prop}
    (h : ∀ w', Moves (Guarantee cfg) w w' → Q () .begin w') :
    Safe (Guarantee cfg) (changeMemberRole params) Q .begin w := by
  refine safe_transaction (safe_bind (safe_bind (safe_selectForUpdate
    fun w₁ owners tx₁ w₂ h₁ howners h₂ => ?_)))
  refine safe_bind (safe_selectOneForUpdate fun w₃ got tx₂ w₄ h₃ htarget h₄ => ?_)
  cases hfound : got.head? with
  | none => exact safe_abortWith
  | some target =>
      change Safe (Guarantee cfg) (if _ then _ else if _ then _ else if _ then _ else _) _ tx₂ w₄
      split
      · exact safe_abortWith
      · next hmember =>
          split
          · exact safe_abortWith
          · next hauthority =>
              split
              · exact safe_abortWith
              · next hlast =>
                  refine safe_bind (safe_clock fun w₅ h₅ => ?_)
                  refine safe_bind (safe_update fun w₆ got' tx₃ w₇ h₆ hchanged h₇ => ?_)
                  intro w₈ h₈
                  have hwrites : tx₂.writes = Writes.none :=
                    htarget.writes.trans howners.writes
                  have hlocks₁ := List.Subset.trans htarget.locks hchanged.locks
                  have howner : ∀ owner ∈ owners,
                      ActiveOwner w₈.now params.organizationId (Membership.id owner) :=
                    fun owner hmem => lockedOwner howners h₈.sound hlocks₁ hmem
                  simp only [Bool.or_eq_true, decide_eq_true_eq, not_or, not_not] at hmember
                  have hG : Guarantee cfg tx₃ w₈.now := by
                    refine LegalWrites.update (hwrites ▸ legalWrites_none) hchanged h₈.sound
                      (List.Subset.refl _) (fun _ _ => by rw [hwrites]; rfl) ?_
                    intro old hold hp
                    obtain ⟨hstored, hid⟩ := locked_current htarget h₈.sound hchanged.locks hfound
                      (by rw [howners.writes]; rfl)
                    obtain rfl := stored_unique hold hstored
                      ((of_decide_eq_true hp).trans (of_decide_eq_true hid).symm)
                    refine MembershipStep.changeRole ?_ ?_
                    · intro htouches
                      simp [htouches] at hauthority
                      obtain ⟨owner, hmem, hactor⟩ := hauthority
                      rw [hmember.1, ← hactor]
                      exact howner owner hmem
                    · intro hrole hnew
                      simp [hrole, hnew] at hlast
                      obtain ⟨owner, hmem, hother⟩ :=
                        exists_other_owner howners.nodup (by simpa using hlast) old.id
                      have hactive := howner owner hmem
                      refine ⟨owner.id, hother, hmember.1 ▸ hactive, ?_⟩
                      rw [hmember.1]
                      refine hactive.after ((hchanged.get_writes_of_where
                        (P := fun x => x = params.membershipId)
                        (fun row hrow => of_decide_eq_true hrow) ?_).trans (by rw [hwrites]; rfl))
                      exact fun heq => hother (heq.trans (of_decide_eq_true hp).symm)
                  exact ⟨hG, h _ (h₁.moves.trans (h₂.moves.trans (h₃.moves.trans (h₄.moves.trans
                    (h₅.moves.trans (h₆.moves.trans (h₇.moves.trans (commits h₈ hG))))))))⟩

/-- The owners are locked and counted before one of them is removed. -/
theorem safe_removeMember {params : RemoveMemberParams}
    {Q : Unit → Tx orgistry → History orgistry → Prop}
    (h : ∀ w', Moves (Guarantee cfg) w w' → Q () .begin w') :
    Safe (Guarantee cfg) (removeMember params) Q .begin w := by
  refine safe_transaction (safe_bind (safe_bind (safe_selectForUpdate
    fun w₁ owners tx₁ w₂ h₁ howners h₂ => ?_)))
  refine safe_bind (safe_selectOneForUpdate fun w₃ got tx₂ w₄ h₃ htarget h₄ => ?_)
  have hwrites : tx₂.writes = Writes.none := htarget.writes.trans howners.writes
  have hmoves₄ := h₁.moves.trans (h₂.moves.trans (h₃.moves.trans h₄.moves))
  cases hfound : got.head? with
  | none => exact safe_abortWith
  | some target =>
      change Safe (Guarantee cfg)
        (if _ then _ else if _ then _ else if _ then _ else if _ then _ else _) _ tx₂ w₄
      split
      · exact safe_abortWith
      · next hmember =>
          split
          · exact commits_nothing hwrites fun w' hmoves => h w' (hmoves₄.trans hmoves)
          · split
            · exact safe_abortWith
            · split
              · exact safe_abortWith
              · next hlast =>
                  refine safe_bind (safe_clock fun w₅ h₅ => ?_)
                  refine safe_bind (safe_update fun w₆ got' tx₃ w₇ h₆ hremoved h₇ => ?_)
                  intro w₈ h₈
                  rw [not_not] at hmember
                  have hG : Guarantee cfg tx₃ w₈.now := by
                    refine LegalWrites.update (hwrites ▸ legalWrites_none) hremoved h₈.sound
                      (List.Subset.refl _) (fun _ _ => by rw [hwrites]; rfl) ?_
                    intro old hold hp
                    obtain ⟨hstored, hid⟩ := locked_current htarget h₈.sound hremoved.locks hfound
                      (by rw [howners.writes]; rfl)
                    obtain rfl := stored_unique hold hstored
                      ((of_decide_eq_true hp).trans (of_decide_eq_true hid).symm)
                    refine MembershipStep.remove fun hrole => ?_
                    simp [hrole] at hlast
                    obtain ⟨owner, hmem, hother⟩ :=
                      exists_other_owner howners.nodup (by simpa using hlast) old.id
                    refine ⟨owner.id, hother, ?_⟩
                    rw [hmember]
                    refine (lockedOwner howners h₈.sound
                      (List.Subset.trans htarget.locks hremoved.locks) hmem).after
                        ((hremoved.get_writes_of_where
                        (P := fun x => x = params.membershipId)
                        (fun row hrow => of_decide_eq_true hrow) ?_).trans (by rw [hwrites]; rfl))
                    exact fun heq => hother (heq.trans (of_decide_eq_true hp).symm)
                  exact ⟨hG, h _ (hmoves₄.trans (h₅.moves.trans (h₆.moves.trans (h₇.moves.trans
                    (commits h₈ hG)))))⟩

end OrganizationRepository

/-! ## The member service -/

namespace OrganizationService

variable {accessToken : Option AccessClaims} {organizationId : Id}

theorem safe_requireMembership {userId : Id}
    {Q : OrganizationActor → Tx orgistry → History orgistry → Prop}
    (h : ∀ w' actor, Moves (Guarantee cfg) w w' →
      w'.now.get .organizations actor.organizationId ≠ none → Q actor .begin w') :
    Safe (Guarantee cfg) (requireMembership userId organizationId) Q .begin w := by
  refine safe_bind (safe_selectOne fun w₁ found h₁ hfound => ?_)
  split
  · exact safe_abortWith
  · next organization =>
      have hread : w₁.now.get .organizations (Organization.id organization) =
        some organization := hfound.get rfl
      split
      · refine safe_bind (safe_selectOne fun w₂ membership h₂ hmembership => ?_)
        split
        · exact safe_abortWith
        · exact h w₂ _ (h₁.moves.trans h₂.moves) (h₂.moves.get_ne_none (by rw [hread]; simp))
      · exact safe_abortWith

theorem safe_authorize {permission : PermissionKey}
    {Q : OrganizationActor → Tx orgistry → History orgistry → Prop}
    (h : ∀ w' actor, Moves (Guarantee cfg) w w' →
      AuthService.Granted cfg accessToken w w' →
      w'.now.get .organizations actor.organizationId ≠ none → Q actor .begin w') :
    Safe (Guarantee cfg) (authorize accessToken organizationId permission) Q .begin w := by
  refine safe_bind (AuthService.safe_authenticate fun w₁ user session h₁ hauth => ?_)
  refine safe_bind (safe_requireMembership fun w₂ actor h₂ hexists => ?_)
  split
  · exact h w₂ actor (h₁.trans h₂) (hauth.granted.later h₂) hexists
  · exact safe_abortWith

theorem safe_createTeamOrganization
    {Q : Organization × Membership → Tx orgistry → History orgistry → Prop}
    (h : ∀ w' answer, Moves (Guarantee cfg) w w' → AuthService.Granted cfg accessToken w w' →
      Q answer .begin w') :
    Safe (Guarantee cfg) (createTeamOrganization accessToken) Q .begin w := by
  refine safe_bind (AuthService.safe_authenticate fun w₁ user session h₁ hauth => ?_)
  refine OrganizationRepository.safe_createTeamOrganization fun w₂ answer h₂ => ?_
  exact h w₂ answer (h₁.trans h₂) (hauth.granted.later h₂)

theorem safe_changeMemberRole {membershipId : Id} {newRole : RoleKey}
    {Q : Unit → Tx orgistry → History orgistry → Prop}
    (h : ∀ w', Moves (Guarantee cfg) w w' → AuthService.Granted cfg accessToken w w' →
      Q () .begin w') :
    Safe (Guarantee cfg) (changeMemberRole accessToken organizationId membershipId newRole) Q
      .begin w := by
  refine safe_bind (safe_authorize fun w₁ actor h₁ hgranted _ => ?_)
  refine OrganizationRepository.safe_changeMemberRole fun w₂ h₂ => ?_
  exact h w₂ (h₁.trans h₂) (hgranted.later h₂)

theorem safe_removeMember {membershipId : Id}
    {Q : Unit → Tx orgistry → History orgistry → Prop}
    (h : ∀ w', Moves (Guarantee cfg) w w' → AuthService.Granted cfg accessToken w w' →
      Q () .begin w') :
    Safe (Guarantee cfg) (removeMember accessToken organizationId membershipId) Q .begin w := by
  refine safe_bind (safe_authorize fun w₁ actor h₁ hgranted _ => ?_)
  refine OrganizationRepository.safe_removeMember fun w₂ h₂ => ?_
  exact h w₂ (h₁.trans h₂) (hgranted.later h₂)

end OrganizationService

end Orgistry.Model
