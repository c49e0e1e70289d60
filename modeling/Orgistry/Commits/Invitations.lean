import Orgistry.Commits.Quotas

/-!
# The commits of invitation requests
-/

namespace Orgistry.Model

open ReadCommitted

variable {cfg : Config} {tx : Tx orgistry} {w w' : History orgistry}

/-- Each selector determines one of the stored invitations. -/
theorem InvitationSelector.id_eq_of_selects {selector : InvitationSelector}
    {a b : Invitation} (ha : selector.selects a) (hb : selector.selects b)
    (hdistinct : a.id ≠ b.id → rowConflict (t := .invitations) a b = false) : a.id = b.id := by
  cases selector with
  | invitationId id => exact (of_decide_eq_true ha).trans (of_decide_eq_true hb).symm
  | tokenHash hash =>
      by_contra hne
      have hconflict := hdistinct hne
      have hhash : a.tokenHash = b.tokenHash :=
        (of_decide_eq_true ha).trans (of_decide_eq_true hb).symm
      simp [rowConflict, hhash] at hconflict

theorem InvitationSelector.selects_later {selector : InvitationSelector} {a b : Invitation}
    (hlater : a.Later b) (hid : a.id = b.id) (ha : selector.selects a) : selector.selects b := by
  cases selector with
  | invitationId id => simpa [InvitationSelector.selects, ← hid] using ha
  | tokenHash hash => simpa [InvitationSelector.selects, hlater.tokenHash] using ha

/-- What a transaction may have written before an acceptance: rows of a new
organization, which the invitation is not for. -/
structure BeforeAcceptance (tx : Tx orgistry) : Prop where
  invitations : tx.writes .invitations = Relation.empty
  founders : ∀ {x : Id} {row : Membership}, (tx.writes .memberships).get x = some row →
    row.grantedBy = .founder
  members : ∀ {final : Tx orgistry} {db : Database orgistry}, final.Sound db →
    tx.locks ⊆ final.locks → ∀ {x : Id}, db.get .memberships x ≠ none →
      (tx.writes .memberships).get x = none
  plans : ∀ {final : Tx orgistry} {db : Database orgistry}, final.Sound db →
    tx.locks ⊆ final.locks → ∀ {x : Id} {plan : OrganizationPlan},
      (tx.writes .organizationPlans).get x = some plan →
        db.get .organizations plan.organizationId = none

theorem beforeAcceptance_begin : BeforeAcceptance .begin where
  invitations := rfl
  founders h := by cases h
  members _ _ _ _ := rfl
  plans _ _ _ _ h := by cases h

/-- What provisioning writes stays clear of every acceptance. -/
theorem OrganizationRepository.Provisioned.beforeAcceptance {type : OrganizationType}
    {ownerUserId : Id} {answer : Organization × Membership} {tx' tx'' : Tx orgistry}
    (h : Provisioned type ownerUserId answer tx tx')
    (hfirst : ∀ t ∈ [Table.memberships, .organizationPlans], tx.writes t = Relation.empty)
    (hwrites : ∀ t ∈ [Table.memberships, .organizationPlans], tx''.writes t = tx'.writes t)
    (hinvitations : tx''.writes .invitations = Relation.empty)
    (hlocks : tx'.locks ⊆ tx''.locks) : BeforeAcceptance tx'' where
  invitations := hinvitations
  founders hrow := by
    rw [hwrites _ (by simp)] at hrow
    obtain ⟨-, rfl⟩ := h.get_memberships (hfirst _ (by simp)) hrow
    exact h.membership.2.2.2
  members {final db} hsound hlocks' x hthere := by
    cases hrow : (tx''.writes .memberships).get x with
    | none => rfl
    | some row =>
        rw [hwrites _ (by simp)] at hrow
        obtain ⟨rfl, -⟩ := h.get_memberships (hfirst _ (by simp)) hrow
        exact absurd (h.isNew hsound (List.Subset.trans hlocks hlocks')).2 hthere
  plans {final db} hsound hlocks' x plan hrow := by
    obtain ⟨own, horganization, -, hput⟩ := h.plans
    rw [hwrites _ (by simp), hput, hfirst _ (by simp), Relation.get_put] at hrow
    split at hrow
    · obtain rfl := Option.some_inj.mp hrow
      rw [horganization]
      exact (h.isNew hsound (List.Subset.trans hlocks hlocks')).1
    · cases hrow

/-- The address of the accepting user, unless it was rewritten meanwhile, is the
one that `params` carries. -/
def AddressKnown (cfg : Config) (params : AcceptInvitationParams) (tx : Tx orgistry)
    (w : History orgistry) : Prop :=
  ∀ ⦃final : Tx orgistry⦄ ⦃w' : History orgistry⦄, Moves (Guarantee cfg) w w' →
    final.writes .users = tx.writes .users →
      ∃ user : User, (w'.now.apply final.writes).get .users params.acceptingUserId = some user ∧
        (user.emailWrites = 0 → params.acceptingUserNormalizedEmail = user.normalizedEmail ∨
          params.acceptingUserNormalizedEmail = normalizeEmail user.email)

/-- What an acceptance that succeeded has done. -/
structure Accepted (params : AcceptInvitationParams) (invitation : Invitation) (now : ℕ)
    (result : AcceptInvitationResult) (tx tx' : Tx orgistry) : Prop where
  selected : params.selector.selects invitation
  acceptable : assertAcceptable invitation now = none
  email : invitation.invitedEmailNormalized = params.acceptingUserNormalizedEmail
  marked : result.invitation = acceptedInvitation params.acceptingUserId now invitation
  joined : result.membership =
    acceptedMembership params invitation now result.membership.id
  memberships : tx'.writes .memberships = (tx.writes .memberships).put result.membership
  isFresh : (tx.writes .memberships).get result.membership.id = none
  others : ∀ {x : Id}, x ≠ invitation.id → (tx'.writes .invitations).get x = none
  stored : ∀ {final : Tx orgistry} {db : Database orgistry}, final.Sound db →
    tx'.locks ⊆ final.locks → db.get .memberships result.membership.id = none ∧
      db.get .invitations invitation.id = some invitation ∧
      (db.view tx'.writes .invitations).get invitation.id = some result.invitation

/-- The invitation that was locked is for the organization whose lock was taken. -/
theorem organizationId_eq_of_selects {selector : InvitationSelector}
    {preRead invitation : Invitation} (hmoves : Moves (Guarantee cfg) w w')
    (hconsistent : Consistent w'.now.tables)
    (hpreRead : w.now.get .invitations preRead.id = some preRead)
    (hselects : selector.selects preRead)
    (hinvitation : w'.now.get .invitations invitation.id = some invitation)
    (hselects' : selector.selects invitation) :
    invitation.organizationId = preRead.organizationId := by
  obtain ⟨later, hlater, hpersists⟩ := invitation_persists hmoves hpreRead
  have hid : later.id = preRead.id := Database.id_of_get hlater
  have hsame := InvitationSelector.id_eq_of_selects
    (InvitationSelector.selects_later hpersists hid.symm hselects) hselects'
    fun hne => hconsistent.unique (t := .invitations) hlater hinvitation (hid ▸ hne)
  rw [hid] at hsame
  rw [hsame, hinvitation] at hlater
  obtain rfl := Option.some_inj.mp hlater
  exact hpersists.organizationId

/-- The writes of an acceptance are legal once it has counted. -/
theorem Accepted.continues {params : AcceptInvitationParams} {invitation : Invitation}
    {now : ℕ} {result : AcceptInvitationResult} {tx' : Tx orgistry}
    (h : Accepted params invitation now result tx tx') (hbefore : BeforeAcceptance tx)
    (hlocks : tx.locks ⊆ tx'.locks) (hnow : now ≤ w.now.clock)
    (hwrites : ∀ t ∉ [Table.memberships, .invitations], tx'.writes t = tx.writes t)
    (haddress : AddressKnown cfg params tx w)
    (hquota : ∀ {final : Tx orgistry} {w' : History orgistry}, Moves (Guarantee cfg) w w' →
      final.Sound w'.now → tx'.locks ⊆ final.locks →
        QuotaChecked cfg final w'.now .members invitation.organizationId
          (countRows .memberships (occupies .members invitation.organizationId)) maxMembers) :
    Continues cfg [.memberships, .invitations] [.users, .memberships, .invitations]
      tx tx' w where
  locks := hlocks
  writes := hwrites
  legal {final w'} hmoves hsound hlocks' hsettled hlegal := by
    obtain ⟨hfresh, hstored, hmarked⟩ := h.stored hsound hlocks'
    have hclock := Nat.le_trans hnow hmoves.clock_le
    have haccepted : (w'.now.apply final.writes).get .invitations invitation.id =
        some (acceptedInvitation params.acceptingUserId now invitation) := by
      rw [Database.get_apply_eq_view, Database.view, hsettled _ (by simp), ← Database.view,
        hmarked, h.marked]
    have hmember : (w'.now.apply final.writes).get .memberships result.membership.id =
        some result.membership := by
      rw [Database.get_apply, hsettled _ (by simp), h.memberships]
      exact congrArg (fun found => Option.or found _) (Relation.get_put_self _ _)
    intro t x new hnew
    by_cases hmemberships : t = .memberships
    · subst hmemberships
      rw [h.memberships, Relation.get_put] at hnew
      split at hnew
      · next hx =>
          obtain rfl := Option.some_inj.mp hnew
          have hnone : w'.now.get .memberships x = none := by
            rw [hx]
            exact hfresh
          rw [hnone, h.joined]
          refine MembershipStep.accept params hstored h.acceptable hclock h.email
            (haddress hmoves ?_) haccepted (hquota hmoves hsound hlocks') ?_
          · rw [hsettled _ (by simp), hwrites _ (by simp)]
          · intro y row hrow
            rw [hsettled _ (by simp), h.memberships, Relation.get_put] at hrow
            split at hrow
            · next hy => exact .inl hy
            · exact .inr (hbefore.founders hrow)
      · exact hlegal hnew
    · by_cases hinvitations : t = .invitations
      · subst hinvitations
        by_cases hx : x = invitation.id
        · subst hx
          rw [hstored]
          rw [Database.get_view, hnew] at hmarked
          obtain rfl : new = result.invitation := by simpa using hmarked
          rw [h.marked]
          exact InvitationStep.accept h.acceptable hclock
            ⟨result.membership, hfresh, hmember, by rw [h.joined]; rfl, by rw [h.joined]; rfl⟩
        · rw [h.others hx] at hnew
          cases hnew
      · rw [hwrites t (by simp [hmemberships, hinvitations])] at hnew
        exact hlegal hnew

/-- The insert and the `UPDATE` of an acceptance. -/
private theorem accepted_of_writes {params : AcceptInvitationParams} {invitation : Invitation}
    {now : ℕ} {id : Id} {row : Invitation} {got : List Invitation} {since start : Database orgistry}
    {db : Database orgistry} {tx₂ tx₃ : Tx orgistry} (hbefore : BeforeAcceptance tx)
    (hwrites : tx₂.writes = tx.writes) (hacceptable : assertAcceptable invitation now = none)
    (hemail : invitation.invitedEmailNormalized = params.acceptingUserNormalizedEmail)
    (hcurrent : ∀ {final : Tx orgistry} {db : Database orgistry}, final.Sound db →
      tx₂.locks ⊆ final.locks → db.get .invitations invitation.id = some invitation ∧
        params.selector.selects invitation)
    (hinsertable : Insertable (t := Table.memberships) since tx₂
      (acceptedMembership params invitation now id))
    (hstart : (tx₂.add (t := Table.memberships) (acceptedMembership params invitation now id)
      since).Sound start)
    (haccepted : Selected (S := orgistry) (t := .invitations)
      (fun (other : Invitation) => other.id = invitation.id)
      (.set (assign (acceptedInvitation params.acceptingUserId now)) orgistry.uniqueViolation)
      (tx₂.add (t := Table.memberships) (acceptedMembership params invitation now id) since)
      start got tx₃) (hrow : got.head? = some row) (hdb : tx₃.Sound db) :
    Accepted params invitation now
      ⟨row, acceptedMembership params invitation now id⟩ tx tx₃ := by
  have hlocks : tx₂.locks ⊆ tx₃.locks :=
    List.Subset.trans (Tx.locks_subset_add _ _ _) haccepted.locks
  -- the transaction has not written the invitation before
  have hview : ∀ db : Database orgistry, (db.view (tx₂.add (t := Table.memberships)
      (acceptedMembership params invitation now id) since).writes .invitations).get
        invitation.id = db.get .invitations invitation.id := by
    intro db
    rw [Database.get_view, Tx.writes_add_of_ne _ _ _ (by simp), hwrites, hbefore.invitations]
    rfl
  have hmarked : row = acceptedInvitation params.acceptingUserId now invitation := by
    obtain ⟨old, hold, hp, rfl⟩ := haccepted.found_at (RowOp.exclusive_set _ _) hdb
      (List.Subset.refl _) (List.mem_of_head? hrow)
    have hid : Invitation.id old = invitation.id := of_decide_eq_true hp
    have hget : (db.view (tx₂.add (t := Table.memberships)
        (acceptedMembership params invitation now id) since).writes .invitations).get
          invitation.id = some old := by
      rw [← hid]
      exact hold
    rw [hview, (hcurrent hdb hlocks).1] at hget
    obtain rfl := Option.some_inj.mp hget
    rfl
  refine ⟨(hcurrent hdb hlocks).2, hacceptable, hemail, hmarked, rfl, ?_, ?_, ?_, ?_⟩
  · rw [haccepted.writes_of_ne (by simp), Tx.writes_add_self, hwrites]
  · have hfresh := hinsertable.fresh
    rw [Database.get_view, hwrites, Option.or_eq_none_iff] at hfresh
    exact hfresh.1
  · intro x hx
    rw [haccepted.get_writes_of_where (P := fun x => x = invitation.id)
      (fun row hrow => of_decide_eq_true hrow) hx, Tx.writes_add_of_ne _ _ _ (by simp), hwrites,
      hbefore.invitations]
    rfl
  · intro final db hsound hlocks'
    have hstored := (hcurrent hsound (List.Subset.trans hlocks hlocks')).1
    refine ⟨hinsertable.stays_free hsound (List.Subset.trans haccepted.locks hlocks'), hstored, ?_⟩
    rw [hmarked]
    exact haccepted.effect_of_locked hsound hlocks' (x := invitation.id)
      (by rw [hview]; exact (hcurrent hstart (Tx.locks_subset_add _ _ _)).1)
      (by rw [hview]; exact hstored) (by simp)

/-- What an acceptance that meets no error has checked. -/
theorem acceptanceError_eq_none {params : AcceptInvitationParams}
    {invitation : Invitation} {now : ℕ} {existing : Option Membership}
    {activeMembers limit : ℕ}
    (h : acceptanceError params invitation now existing activeMembers limit = none) :
    assertAcceptable invitation now = none ∧
      invitation.invitedEmailNormalized = params.acceptingUserNormalizedEmail ∧
      activeMembers < limit := by
  unfold acceptanceError at h
  split at h
  · cases h
  · next hnone =>
      split at h
      · cases h
      · next hemail =>
          split at h
          · cases h
          · split at h
            · cases h
            · next hroom => exact ⟨hnone, not_not.mp hemail, Nat.lt_of_not_le hroom⟩

/-- The seat that was free at `v`, counted under the lock, is still free when the
acceptance commits. -/
private theorem quotaChecked_of_counted {organizationId : Id} {planKey : PlanKey}
    {u v : History orgistry} {txₐ tx₁ tx₂ final : Tx orgistry} (hbefore : BeforeAcceptance tx)
    (hplan : PlanLocked organizationId planKey txₐ tx₁) (hwrites₁ : txₐ.writes = tx.writes)
    (hlock : (⟨.advisoryLocks, cfg.hashtextextended (quotaLockText .members organizationId),
      .update, u.now⟩ : Lock orgistry) ∈ tx₁.locks)
    (horganization : u.now.get .organizations organizationId ≠ none)
    (hcounted : Moves (Guarantee cfg) u v) (hstart : tx₂.Sound v.now)
    (hwrites₂ : tx₂.writes = tx.writes) (hlocks : tx.locks ⊆ tx₂.locks)
    (hlocks₁ : tx₁.locks ⊆ tx₂.locks)
    (hroom : (v.now.view tx₂.writes .memberships).count
      (occupies .members organizationId (t := .memberships)) < maxMembers planKey)
    (hlater : Moves (Guarantee cfg) v w) (hsound : final.Sound w.now)
    (hlocks₂ : tx₂.locks ⊆ final.locks) :
    QuotaChecked cfg final w.now .members organizationId
      (countRows .memberships (occupies .members organizationId)) maxMembers := by
  refine hplan.quotaChecked (u := u) hsound (List.Subset.trans hlocks₁ hlocks₂) ?_
    (hlocks₂ (hlocks₁ hlock)) horganization fun hknown => ?_
  · intro y plan hwritten heq
    rw [hwrites₁] at hwritten
    have hnone := hbefore.plans hsound (List.Subset.trans hlocks hlocks₂) hwritten
    rw [heq] at hnone
    exact (hcounted.trans hlater).get_ne_none horganization hnone
  · refine Nat.lt_of_le_of_lt (members_le_counted hcounted hlater (fun {y} hthere => ?_) hknown)
      hroom
    rw [hwrites₂]
    exact hbefore.members hstart hlocks hthere

/-- An acceptance inserts the membership and marks the invitation accepted; when
it fails, it has only locked rows. -/
theorem safe_acceptInvitationWithinTransaction {params : AcceptInvitationParams}
    {Q : Except ErrorCode AcceptInvitationResult → Tx orgistry → History orgistry → Prop}
    (hconsistent : Consistent w.now.tables) (hbefore : BeforeAcceptance tx)
    (haddress : AddressKnown cfg params tx w)
    (h : ∀ w' result tx', Moves (Guarantee cfg) w w' → tx'.saved = tx.saved →
      (∀ accepted, result = .ok accepted →
        (∃ invitation now, Accepted params invitation now accepted tx tx') ∧
          Continues cfg [.memberships, .invitations] [.users, .memberships, .invitations]
            tx tx' w') → Q result tx' w') :
    Safe (Guarantee cfg) (acceptInvitationWithinTransaction cfg params) Q tx w := by
  refine safe_bind (safe_clock fun w₁ h₁ => ?_)
  refine safe_bind (safe_selectOne fun w₂ preRead h₂ hpreRead => ?_)
  have hmoves₂ := h₁.moves.trans h₂.moves
  split
  · exact h w₂ _ tx hmoves₂ rfl (by simp)
  · next preRead =>
      have hread : w₂.now.get .invitations (Invitation.id preRead) = some preRead := by
        have hget := hpreRead.get rfl
        rw [Database.get_view, hbefore.invitations] at hget
        exact hget
      have horganization : w₂.now.get .organizations preRead.organizationId ≠ none :=
        (consistent_later hmoves₂ hconsistent).referential (t := .invitations) hread
          (.organizations, preRead.organizationId) (by simp [rowRefs])
      refine safe_bind (safe_advisoryLock fun w₃ h₃ => ?_)
      refine safe_bind (safe_lockOrganizationEntitlements
        fun w₅ planKey tx₁ h₅ hlocks₁ hwrites₁ hsaved₁ hplan => ?_)
      have hmoves₅ := hmoves₂.trans (h₃.moves.trans h₅)
      split
      · exact h w₅ _ tx₁ hmoves₅ hsaved₁ (by simp)
      · next planKey =>
          refine safe_bind (safe_selectOneForUpdate fun w₆ got tx₂ w₇ h₆ hlocked h₇ => ?_)
          have hmoves₇ := hmoves₅.trans (h₆.moves.trans h₇.moves)
          have hsaved₂ : tx₂.saved = tx.saved := hlocked.saved.trans hsaved₁
          have hwrites₂ : tx₂.writes = tx.writes := hlocked.writes.trans hwrites₁
          cases hfound : got.head? with
          | none => exact h w₇ _ tx₂ hmoves₇ hsaved₂ (by simp)
          | some invitation =>
              have hcurrent : ∀ {final : Tx orgistry} {db : Database orgistry},
                  final.Sound db → tx₂.locks ⊆ final.locks →
                    db.get .invitations invitation.id = some invitation ∧
                      params.selector.selects invitation := by
                intro final db hsound hlocks
                refine locked_current hlocked hsound hlocks hfound ?_
                rw [hwrites₁]
                exact congrFun (congrArg Relation.get hbefore.invitations) _
              refine safe_bind (safe_selectOne fun w₈ existing h₈ hexisting => ?_)
              refine safe_bind (safe_countActiveMembers fun w₉ h₉ => ?_)
              have hmoves₉ := hmoves₇.trans (h₈.moves.trans h₉.moves)
              split
              · exact h w₉ _ tx₂ hmoves₉ hsaved₂ (by simp)
              · next hnoError =>
                  obtain ⟨hacceptable, hemail, hroom⟩ := acceptanceError_eq_none hnoError
                  refine safe_bind (safe_selectOne fun w₁₀ organization h₁₀ _ => ?_)
                  split
                  · exact h w₁₀ _ tx₂ (hmoves₉.trans h₁₀.moves) hsaved₂ (by simp)
                  · refine safe_bind (safe_tryInsert (fun w₁₁ h₁₁ => ?_)
                      fun w₁₁ x h₁₁ hid hinsertable => ?_)
                    · exact h w₁₁ _ tx₂ (hmoves₉.trans (h₁₀.moves.trans h₁₁.moves)) hsaved₂
                        (by simp)
                    · refine safe_bind (safe_update fun w₁₂ got' tx₃ w₁₃ h₁₂ haccepted h₁₃ => ?_)
                      split
                      · exact safe_abortWith
                      · next row hrow =>
                          have hmoves₁₃ := hmoves₉.trans (h₁₀.moves.trans (h₁₁.moves.trans
                            (h₁₂.moves.trans h₁₃.moves)))
                          have hlocks₂ : tx.locks ⊆ tx₂.locks := List.Subset.trans
                            (List.subset_cons_self _ _) (List.Subset.trans hlocks₁ hlocked.locks)
                          have hlocks₃ : tx₂.locks ⊆ tx₃.locks :=
                            List.Subset.trans (Tx.locks_subset_add _ _ _) haccepted.locks
                          have hdone := accepted_of_writes hbefore hwrites₂ hacceptable hemail
                            hcurrent hinsertable h₁₂.sound haccepted hrow h₁₃.sound
                          refine h w₁₃ _ tx₃ hmoves₁₃ (haccepted.saved.trans hsaved₂) ?_
                          intro accepted heq
                          obtain rfl := Except.ok.inj heq
                          refine ⟨⟨_, _, hdone⟩, hdone.continues hbefore
                            (List.Subset.trans hlocks₂ hlocks₃) ?_ ?_ ?_ ?_⟩
                          · exact (h₂.moves.trans (h₃.moves.trans (h₅.trans (h₆.moves.trans
                              (h₇.moves.trans (h₈.moves.trans (h₉.moves.trans (h₁₀.moves.trans
                                (h₁₁.moves.trans (h₁₂.moves.trans h₁₃.moves)))))))))).clock_le
                          · intro t ht
                            simp only [List.mem_cons, List.not_mem_nil, or_false, not_or] at ht
                            rw [haccepted.writes_of_ne ht.2, Tx.writes_add_of_ne _ _ _ ht.1,
                              hwrites₂]
                          · exact fun _ _ hlater => haddress (hmoves₁₃.trans hlater)
                          · intro final w' hlater hsound hlocks
                            have hinvitation := hcurrent h₇.sound (List.Subset.refl _)
                            have hsame := organizationId_eq_of_selects (h₃.moves.trans
                              (h₅.trans (h₆.moves.trans h₇.moves)))
                              (consistent_later hmoves₇ hconsistent) hread (hpreRead.holds rfl)
                              hinvitation.1 hinvitation.2
                            have hcounted := h₅.trans (h₆.moves.trans (h₇.moves.trans
                              (h₈.moves.trans h₉.moves)))
                            have hsinceCount := h₁₀.moves.trans (h₁₁.moves.trans
                              (h₁₂.moves.trans (h₁₃.moves.trans hlater)))
                            rw [hsame]
                            exact quotaChecked_of_counted hbefore (hplan _ rfl) rfl
                              (hlocks₁ List.mem_cons_self) (h₃.moves.get_ne_none horganization)
                              hcounted h₉.sound hwrites₂ hlocks₂ hlocked.locks (hsame ▸ hroom)
                              hsinceCount hsound (List.Subset.trans hlocks₃ hlocks)

/-! ## The invitation repository -/

namespace InvitationRepository

/-- Seats that count at `w` were counted at `v`, the members among them at `u`. -/
theorem seats_le_counted {organizationId : Id} {now : ℕ} {since u v : History orgistry}
    (hsince : Moves (Guarantee cfg) since u) (huv : Moves (Guarantee cfg) u v)
    (hmoves : Moves (Guarantee cfg) v w) (hwrites : tx.writes = Writes.none)
    (hknown : KnownSince .members organizationId since.now w.now) :
    countSeats organizationId now w.now ≤
      (u.now.view tx.writes .memberships).count
        (occupies .members organizationId (t := .memberships)) +
      (v.now.view tx.writes .invitations).count fun (invitation : Invitation) =>
        invitation.organizationId = organizationId && invitation.status = .pending &&
          invitation.expiresAt > now := by
  refine Nat.add_le_add (members_le_counted hsince (huv.trans hmoves) ?_ hknown) ?_
  · intro x _
    rw [hwrites]
    rfl
  · refine count_le_counted (t := .invitations) (R := Invitation.Later) (hsince.trans huv)
      (invitation_persists hmoves) ?_ (fun _ => by rw [hwrites]; rfl) ?_
    · intro old new hlater hp
      simp only [occupies, decide_true, Bool.true_and, Bool.and_eq_true, decide_eq_true_eq]
        at hp ⊢
      refine ⟨⟨hlater.organizationId.symm.trans hp.1.1, ?_⟩, hlater.expiresAt ▸ hp.2⟩
      by_contra hsettled
      exact hlater.settled hsettled hp.1.2
    · intro x row hrow hp
      simp only [Bool.and_eq_true] at hp
      exact hknown hrow hp.1

/-- Members and invitations are counted under the lock of the organization. -/
theorem safe_createInvitation {params : CreateInvitationParams}
    {Q : Invitation → Tx orgistry → History orgistry → Prop}
    (horganization : w.now.get .organizations params.organizationId ≠ none)
    (h : ∀ w' invitation, Moves (Guarantee cfg) w w' → Q invitation .begin w') :
    Safe (Guarantee cfg) (createInvitation cfg params) Q .begin w := by
  refine safe_transaction (safe_bind (safe_clock fun w₁ h₁ => ?_))
  refine safe_bind (safe_advisoryLock fun w₂ h₂ => ?_)
  refine safe_bind (safe_lockOrganizationEntitlements
    fun w₃ planKey tx₁ h₃ hlocks₁ hwrites₁ _ hplan => ?_)
  have hwrites : tx₁.writes = Writes.none := hwrites₁
  split
  · exact safe_abortWith
  · refine safe_bind (safe_countActiveMembers fun w₄ h₄ => ?_)
    refine safe_bind (safe_select fun w₅ h₅ => ?_)
    split
    · exact safe_abortWith
    · next hroom =>
        refine safe_bind (safe_update fun w₆ got tx₂ w₇ h₆ hexpired h₇ => ?_)
        refine safe_bind (safe_tryInsert (fun w₈ h₈ => safe_abortWith)
          fun w₈ x h₈ hid hinsertable => ?_)
        generalize hrow : Invitation.mk x params.organizationId params.invitedEmailNormalized
          params.role params.tokenHash .pending params.actorUserId none params.expiresAt none none
            w₁.now.clock = invitation at *
        have horganizationId : invitation.organizationId = params.organizationId := by
          rw [← hrow]
        have hnow : invitation.updatedAt = w₁.now.clock := by rw [← hrow]
        have hmoves₈ := h₆.moves.trans (h₇.moves.trans h₈.moves)
        refine commits_legal (fun w₉ h₉ => ?_) fun w' hmoves => h w' _ (h₁.moves.trans
          (h₂.moves.trans (h₃.trans (h₄.moves.trans (h₅.moves.trans (hmoves₈.trans hmoves))))))
        have hclock : w₁.now.clock ≤ w₉.now.clock := (h₂.moves.trans (h₃.trans (h₄.moves.trans
          (h₅.moves.trans (hmoves₈.trans h₉.moves))))).clock_le
        have hlocks₂ := List.Subset.trans hexpired.locks
          (Tx.locks_subset_add tx₂ (t := Table.invitations) invitation w₈.now)
        refine LegalWrites.insert (LegalWrites.update (hwrites ▸ legalWrites_none) hexpired
          h₉.sound (Tx.locks_subset_add _ _ _) (fun _ _ => by rw [hwrites]; rfl) ?_) hinsertable
          h₉.sound (List.Subset.refl _)
          (InvitationStep.create (by rw [← hrow]) (hnow ▸ hclock) ?_ ?_ ?_)
        · intro old hold hp
          simp at hp
          exact InvitationStep.expire hp.1.2 hp.2 hclock
        · rw [horganizationId, hnow]
          refine (hplan _ rfl).quotaChecked (u := w₂) h₉.sound hlocks₂ (fun h => by cases h)
            (hlocks₂ (hlocks₁ List.mem_cons_self))
            ((h₁.moves.trans h₂.moves).get_ne_none horganization) fun hknown => ?_
          exact Nat.lt_of_le_of_lt (seats_le_counted (u := w₄) (v := w₅) (h₃.trans h₄.moves)
            h₅.moves (hmoves₈.trans h₉.moves) hwrites hknown) (lt_of_evaluateCountQuota hroom)
        · exact onlyNew_add (t := Table.invitations) fun hwritten =>
            stored_of_updated hexpired h₉.sound (Tx.locks_subset_add _ _ _)
              (fun {_} => by rw [hwrites]; rfl) hwritten
        · intro y
          rw [Tx.writes_add_of_ne _ _ _ (by simp), hexpired.writes_of_ne (by simp), hwrites]
          rfl

theorem safe_acceptInvitation {params : AcceptInvitationParams}
    {Q : AcceptInvitationResult → Tx orgistry → History orgistry → Prop}
    (hconsistent : Consistent w.now.tables) (haddress : AddressKnown cfg params .begin w)
    (h : ∀ w' result, Moves (Guarantee cfg) w w' → Q result .begin w') :
    Safe (Guarantee cfg) (acceptInvitation cfg params) Q .begin w := by
  refine safe_transaction (safe_bind (safe_acceptInvitationWithinTransaction hconsistent
    beforeAcceptance_begin haddress fun w₁ result tx₁ h₁ _ hpart => ?_))
  cases result with
  | error error => exact safe_abortWith
  | ok result =>
      intro w₂ h₂
      have hG := (hpart result rfl).2.guarantee h₂
      exact ⟨hG, h _ _ (h₁.trans (commits h₂ hG))⟩

/-- A revocation locks the invitation and judges it as it is then. -/
theorem safe_revokeInvitation {organizationId invitationId : Id}
    {Q : Unit → Tx orgistry → History orgistry → Prop}
    (h : ∀ w', Moves (Guarantee cfg) w w' → Q () .begin w') :
    Safe (Guarantee cfg) (revokeInvitation organizationId invitationId) Q .begin w := by
  refine safe_transaction (safe_bind (safe_clock fun w₁ h₁ => ?_))
  refine safe_bind (safe_selectOneForUpdate fun w₂ got tx₁ w₃ h₂ hlocked h₃ => ?_)
  have hwrites₁ : tx₁.writes = Writes.none := hlocked.writes
  split
  · exact safe_abortWith
  · next invitation hfound =>
      split
      · exact safe_abortWith
      · next hacceptable =>
          refine safe_bind (safe_update fun w₄ got' tx₂ w₅ h₄ hrevoked h₅ => ?_)
          refine commits_legal (fun w₆ h₆ => ?_) fun w' hmoves => h w' (h₁.moves.trans
            (h₂.moves.trans (h₃.moves.trans (h₄.moves.trans (h₅.moves.trans hmoves)))))
          refine LegalWrites.update (hwrites₁ ▸ legalWrites_none) hrevoked h₆.sound
            (List.Subset.refl _) (fun _ _ => by rw [hwrites₁]; rfl) ?_
          intro old hold hp
          obtain rfl := stored_unique hold
            (locked_current hlocked h₆.sound hrevoked.locks hfound rfl).1 (of_decide_eq_true hp)
          exact InvitationStep.revoke hacceptable

theorem safe_hasActiveMemberWithEmail {organizationId : Id} {invitedEmailNormalized : String}
    {Q : Bool → Tx orgistry → History orgistry → Prop}
    (h : ∀ w' answer, Moves (Guarantee cfg) w w' → Q answer tx w') :
    Safe (Guarantee cfg) (hasActiveMemberWithEmail organizationId invitedEmailNormalized) Q tx w :=
  safe_bind (safe_select fun _ h₁ => safe_bind (safe_select fun w₂ h₂ =>
    h w₂ _ (h₁.moves.trans h₂.moves)))

theorem safe_findPendingInvitation {organizationId : Id} {invitedEmailNormalized : String}
    {Q : Option Invitation → Tx orgistry → History orgistry → Prop}
    (h : ∀ w' answer, Moves (Guarantee cfg) w w' → Q answer tx w') :
    Safe (Guarantee cfg) (findPendingInvitation organizationId invitedEmailNormalized) Q tx w :=
  safe_bind (safe_clock fun _ h₁ => safe_selectOne fun w₂ answer h₂ _ =>
    h w₂ answer (h₁.moves.trans h₂.moves))

theorem safe_countPendingInvitations {organizationId : Id}
    {Q : ℕ → Tx orgistry → History orgistry → Prop}
    (h : ∀ w' count, Moves (Guarantee cfg) w w' → Q count tx w') :
    Safe (Guarantee cfg) (countPendingInvitations organizationId) Q tx w :=
  safe_bind (safe_clock fun _ h₁ => safe_bind (safe_select fun w₂ h₂ =>
    h w₂ _ (h₁.moves.trans h₂.moves)))

end InvitationRepository

namespace InvitationService

open InvitationRepository

variable {accessToken : Option AccessClaims}

theorem safe_memberQuotaError {organizationId : Id} {pendingInvitations : ℕ}
    {Q : Option ErrorCode → Tx orgistry → History orgistry → Prop}
    (h : ∀ w' answer, Moves (Guarantee cfg) w w' → Q answer tx w') :
    Safe (Guarantee cfg) (memberQuotaError organizationId pendingInvitations) Q tx w := by
  refine safe_bind (safe_bind (safe_selectOne fun w₁ found h₁ hfound => ?_))
  cases found with
  | none => exact h w₁ _ h₁.moves
  | some plan =>
      refine safe_bind (safe_countActiveMembers fun w₂ h₂ => ?_)
      split
      · exact h w₂ _ (h₁.moves.trans h₂.moves)
      · exact h w₂ _ (h₁.moves.trans h₂.moves)

theorem safe_createInvitation {input : CreateInvitationInput}
    {Q : Invitation → Tx orgistry → History orgistry → Prop}
    (h : ∀ w' invitation, Moves (Guarantee cfg) w w' → AuthService.Granted cfg accessToken w w' →
      Q invitation .begin w') :
    Safe (Guarantee cfg) (createInvitation cfg accessToken input) Q .begin w := by
  refine safe_bind (OrganizationService.safe_authorize fun w₁ actor h₁ hgranted hexists => ?_)
  refine safe_bind (safe_hasActiveMemberWithEmail fun w₂ member h₂ => ?_)
  split
  · exact safe_abortWith
  · refine safe_bind (safe_findPendingInvitation fun w₃ pending h₃ => ?_)
    split
    · exact safe_abortWith
    · refine safe_bind (safe_countPendingInvitations fun w₄ count h₄ => ?_)
      refine safe_bind (safe_memberQuotaError fun w₅ error h₅ => ?_)
      split
      · exact safe_abortWith
      · refine safe_bind (safe_clock fun w₆ h₆ => ?_)
        have hmoves₆ := h₂.trans (h₃.trans (h₄.trans (h₅.trans h₆.moves)))
        refine InvitationRepository.safe_createInvitation (hmoves₆.get_ne_none hexists)
          fun w₇ invitation h₇ => ?_
        have hrest := hmoves₆.trans h₇
        exact h w₇ invitation (h₁.trans hrest) (hgranted.later hrest)

theorem safe_revokeInvitation {organizationId invitationId : Id}
    {Q : Unit → Tx orgistry → History orgistry → Prop}
    (h : ∀ w', Moves (Guarantee cfg) w w' → AuthService.Granted cfg accessToken w w' →
      Q () .begin w') :
    Safe (Guarantee cfg) (revokeInvitation accessToken organizationId invitationId) Q .begin w := by
  refine safe_bind (OrganizationService.safe_authorize fun w₁ actor h₁ hgranted _ => ?_)
  refine InvitationRepository.safe_revokeInvitation fun w₂ h₂ => ?_
  exact h w₂ (h₁.trans h₂) (hgranted.later h₂)

/-- The acceptance compares the address that the authentication has read. -/
theorem addressKnown_of_authenticated {user : User} {session : Session}
    {selector : InvitationSelector} {u : History orgistry}
    (hauth : AuthService.Authenticated cfg accessToken user session u w) :
    AddressKnown cfg ⟨selector, user.id, normalizeEmail user.email⟩ .begin w := by
  intro final w' hmoves hwrites
  obtain ⟨v, -, hw, hread⟩ := hauth.userRead
  obtain ⟨stored, hstored, hlater⟩ := user_persists (hw.trans hmoves) hread
  refine ⟨stored, ?_, fun hnever => .inr ?_⟩
  · rw [Database.get_apply, hwrites]
    exact hstored
  · have hbefore := hlater.rewrites
    rw [(hlater.email (by omega)).1]

theorem safe_acceptInvitation {tokenHash : TokenHash}
    {Q : AcceptInvitationResult → Tx orgistry → History orgistry → Prop}
    (hconsistent : Consistent w.now.tables)
    (h : ∀ w' result, Moves (Guarantee cfg) w w' → AuthService.Granted cfg accessToken w w' →
      Q result .begin w') :
    Safe (Guarantee cfg) (acceptInvitation cfg accessToken tokenHash) Q .begin w := by
  refine safe_bind (AuthService.safe_authenticate fun w₁ user session h₁ hauth => ?_)
  refine safe_bind (safe_selectOne fun w₂ found h₂ hfound => ?_)
  split
  · exact safe_abortWith
  · next invitation =>
      refine safe_bind (safe_clock fun w₃ h₃ => ?_)
      have hmoves₃ := h₂.moves.trans h₃.moves
      split
      · exact safe_abortWith
      · have haddress : AddressKnown cfg ⟨.tokenHash tokenHash, user.id, normalizeEmail user.email⟩
            .begin w₁ := addressKnown_of_authenticated hauth
        generalize normalizeEmail user.email = normalized at haddress
        split
        · exact safe_abortWith
        · refine InvitationRepository.safe_acceptInvitation
            (consistent_later (h₁.trans hmoves₃) hconsistent)
            (fun _ _ hmoves => haddress (hmoves₃.trans hmoves)) fun w₄ result h₄ => ?_
          have hrest := hmoves₃.trans h₄
          exact h w₄ result (h₁.trans hrest) (hauth.granted.later hrest)

theorem safe_prepareForRegistration {tokenHash : TokenHash} {normalizedEmail : String}
    {Q : Except ErrorCode Id → Tx orgistry → History orgistry → Prop}
    (h : ∀ w' answer, Moves (Guarantee cfg) w w' → Q answer .begin w') :
    Safe (Guarantee cfg) (prepareForRegistration tokenHash normalizedEmail) Q .begin w := by
  refine safe_bind (safe_selectOne fun w₁ found h₁ hfound => ?_)
  split
  · exact h w₁ _ h₁.moves
  · refine safe_bind (safe_clock fun w₂ h₂ => ?_)
    have hmoves₂ := h₁.moves.trans h₂.moves
    split
    · exact h w₂ _ hmoves₂
    · split
      · exact h w₂ _ hmoves₂
      · refine safe_bind (safe_memberQuotaError fun w₃ error h₃ => ?_)
        split
        · exact h w₃ _ (hmoves₂.trans h₃)
        · exact h w₃ _ (hmoves₂.trans h₃)

end InvitationService

end Orgistry.Model
