import Orgistry.Organizations.InvitationRows

/-!
# Where the in-memory invitations tell something about the stored ones

The two repositories agree on the calls where neither the order of two rejections, nor the
instant at which an invitation expires, nor an error that only the database knows decides.
-/

namespace Orgistry.Repositories.InvitationRepository

open Keyset Model Noninterference Transitions

variable {K : Type} [LinearOrder K] {s : Store (catalog K)}

omit [LinearOrder K] in
theorem changeFound_eq_map {found : InvitationRow K → Bool}
    {change : InvitationRow K → InvitationRow K} {rows : List (InvitationRow K)}
    (h : rows.Pairwise fun a b => ¬(found a ∧ found b)) :
    InMemory.changeFound found change rows =
      rows.map fun row => if found row then change row else row := by
  induction rows with
  | nil => rfl
  | cons row rows ih =>
      obtain ⟨hfirst, hrest⟩ := List.pairwise_cons.mp h
      rw [InMemory.changeFound, List.map_cons]
      by_cases hfound : found row
      · have hkept : ∀ other ∈ rows, (if found other then change other else other) = other :=
          fun other hother => if_neg fun hboth => hfirst other hother ⟨hfound, hboth⟩
        rw [if_pos hfound, if_pos hfound, List.map_congr_left hkept, List.map_id']
      · rw [if_neg hfound, if_neg hfound, ih hrest]

/-- Changing the object that was found is the update by its id. -/
theorem changeFound_dates (hs : Consistent s) {found : InvitationRow K → Bool}
    {change : InvitationRow K → InvitationRow K} {invitation : InvitationRow K}
    (hfound : ∀ row ∈ s .invitations, found row.dates ↔ row.id = invitation.id)
    (hchange : ∀ row : InvitationRow K, (change row).dates = change row.dates) :
    InMemory.changeFound found change ((s .invitations).map InvitationRow.dates) =
      (s .invitations).map fun (row : InvitationRow K) =>
        (if decide (row.id = invitation.id) then change row else row).dates := by
  have hpairwise : ((s .invitations).map InvitationRow.dates).Pairwise fun a b =>
      ¬(found a ∧ found b) := by
    rw [List.pairwise_map]
    refine List.Pairwise.imp_of_mem ?_ (hs.valid .invitations)
    intro a b ha hb hclash hboth
    have hid : a.id = b.id := ((hfound a ha).mp hboth.1).trans ((hfound b hb).mp hboth.2).symm
    have htrue : clash (t := .invitations) a b = true := by
      simp only [clash, hid, decide_true, Bool.true_or]
    exact Bool.noConfusion (htrue.symm.trans hclash)
  rw [changeFound_eq_map hpairwise, List.map_map]
  refine List.map_congr_left fun row hrow => ?_
  by_cases hid : row.id = invitation.id
  · rw [Function.comp_apply, if_pos ((hfound row hrow).mpr hid), if_pos (decide_eq_true hid),
      hchange]
  · rw [Function.comp_apply, if_neg fun h => hid ((hfound row hrow).mp h),
      if_neg fun h => hid (of_decide_eq_true h)]

theorem assertAcceptable_apply (invitation : InvitationRow K) (now : Millis) :
    assertAcceptable invitation now s =
      match InMemory.lifecycleError invitation now with
      | some failure => .error failure
      | none => .ok ((), s) := by
  unfold assertAcceptable InMemory.lifecycleError InMemory.isExpired
  simp only [decide_eq_true_eq]
  split
  · rfl
  · split
    · rfl
    · split
      · rfl
      · rfl

omit [LinearOrder K] in
theorem lifecycleError_dates (invitation : InvitationRow K) (now : Millis) :
    InMemory.lifecycleError invitation.dates now = InMemory.lifecycleError invitation now := by
  have hexpired : InMemory.isExpired invitation.dates now = InMemory.isExpired invitation now := by
    rw [InMemory.isExpired, InMemory.isExpired, InvitationRow.dates, getTime_toDate]
  rw [InMemory.lifecycleError, InMemory.lifecycleError, hexpired]
  rfl

/-- An event of a known user under a new id is always recorded. -/
theorem recordEvent_apply {env : Environment K} {userId : String}
    (h : Recordable s userId env.eventId) (organizationId eventType : String)
    (metadata : List (String × MetadataValue)) (requestId : Option String) :
    recordEvent env organizationId eventType metadata userId requestId s =
      .ok ((), s.added .securityEvents
        { id := env.eventId, organizationId := some organizationId, eventType, actorType := .user,
          userId := some userId, metadata := env.storedMetadata metadata, requestId,
          createdAt := env.now }) := by
  unfold recordEvent insert Noninterference.insertRow
  rw [if_neg, if_pos]
  · obtain ⟨user, huser, hid⟩ := h.user
    have hfound : (s .users).any (fun (row : UserRow) => row.id = userId) = true :=
      List.any_eq_true.mpr ⟨user, huser, decide_eq_true hid⟩
    change ((s .users).any (fun (row : UserRow) => row.id = userId) && true) = true
    rw [hfound]
    rfl
  · rw [List.any_eq_true]
    intro hclash
    obtain ⟨event, hevent, hsame⟩ := hclash
    exact h.unused event hevent (of_decide_eq_true hsame).symm

/-- The user that an update of invitations writes, if any. -/
theorem updateInvitations_apply (hs : Consistent s) {violation dangling : Failure}
    {p : InvitationRow K → Bool} {f : InvitationRow K → InvitationRow K}
    (hclash : ∀ a b : InvitationRow K, clash (t := .invitations) (f a) b = true →
      clash (t := .invitations) a b = true)
    (hresolves : ∀ row : InvitationRow K, row ∈ s .invitations →
      s.resolves (t := .invitations) (f row)) :
    (updateWhere (C := catalog K) .invitations violation dangling p f : Operation K Unit) s =
      .ok ((), s.updated .invitations p f) := by
  have hvalid : (s.updated .invitations p f).Valid := hs.valid.updated hclash
  have hresolved : (s .invitations).all fun (row : InvitationRow K) =>
      !p row || s.resolves (t := .invitations) (f row) := by
    rw [List.all_eq_true]
    intro row hrow
    rw [hresolves row hrow, Bool.or_true]
  unfold updateWhere
  rw [if_pos (hvalid .invitations), if_pos hresolved]

/-- What the foreign keys of an invitation ask for. -/
theorem resolves_invitation_iff {row : InvitationRow K} :
    s.resolves (t := .invitations) row ↔
      (s .organizations).any (fun (organization : OrganizationRow) =>
          organization.id = row.organizationId) ∧
        ∀ userId ∈ userColumns (t := .invitations) row,
          (s .users).any fun (user : UserRow) => user.id = userId := by
  unfold Store.resolves
  change ((organizationRef row.organizationId ::
    (userColumns (t := .invitations) row).map userRef).all _ = true) ↔ _
  rw [List.all_cons, Bool.and_eq_true, List.all_map, List.all_eq_true]
  rfl

/-- A row that is no longer pending is only in the way where it was. -/
theorem clash_settled {a a' b : InvitationRow K} (hid : a'.id = a.id)
    (htoken : a'.tokenHash = a.tokenHash) (hstatus : a'.status ≠ .pending)
    (h : clash (t := .invitations) a' b = true) : clash (t := .invitations) a b = true := by
  simp only [clash, Bool.or_eq_true, Bool.and_eq_true, hid, htoken] at h ⊢
  rcases h with hkeys | hpending
  · exact Or.inl hkeys
  · exact absurd (of_decide_eq_true hpending.1.1.1) hstatus

/-- The row that a revocation leaves. -/
def revoked (env : Environment K) (params : RevokeInvitationParams K) (row : InvitationRow K) :
    InvitationRow K :=
  { row with
    status := .revoked
    revokedAt := some (ofMillis env.date)
    revokedByUserId := some params.ctx.actorUserId
    updatedAt := ofMillis env.date }

theorem any_user {userId : String} (h : ∃ user : UserRow, user ∈ s .users ∧ user.id = userId) :
    (s .users).any (fun (user : UserRow) => user.id = userId) = true := by
  obtain ⟨user, huser, hid⟩ := h
  exact List.any_eq_true.mpr ⟨user, huser, decide_eq_true hid⟩

theorem revoked_resolves (env : Environment K) {params : RevokeInvitationParams K}
    {row : InvitationRow K} (h : s.resolves (t := .invitations) row)
    (hactor : ∃ user : UserRow, user ∈ s .users ∧ user.id = params.ctx.actorUserId) :
    s.resolves (t := .invitations) (revoked env params row) := by
  rw [resolves_invitation_iff] at h ⊢
  refine ⟨h.1, fun userId huserId => ?_⟩
  rcases List.mem_cons.mp huserId with rfl | hmem
  · exact h.2 _ List.mem_cons_self
  · rcases List.mem_append.mp hmem with haccepted | hrevoked
    · exact h.2 userId (List.mem_cons_of_mem _ (List.mem_append_left _ haccepted))
    · obtain rfl := List.mem_singleton.mp hrevoked
      exact any_user hactor

theorem revokeInvitation_eq (env : Environment K) (organizationId : String)
    (params : RevokeInvitationParams K) :
    revokeInvitation env organizationId params s =
      match ((s .invitations).filter fun (row : InvitationRow K) =>
          row.organizationId = organizationId && row.id = params.invitationId).head? with
      | none => .error invitationInvalidError
      | some invitation =>
          match InMemory.lifecycleError invitation env.date with
          | some failure => .error failure
          | none =>
              (updateById .invitations (fun (row : InvitationRow K) => row.id = invitation.id)
                (revoked env params) >>= fun _ =>
              recordInvitationEvent env organizationId "invitation.revoked" invitation
                params.ctx) s := by
  unfold revokeInvitation
  rw [bind_apply, find_apply]
  cases ((s .invitations).filter fun (row : InvitationRow K) =>
      row.organizationId = organizationId && row.id = params.invitationId).head? with
  | none => rfl
  | some invitation =>
      change (assertAcceptable invitation env.date >>= _) s = _
      rw [bind_apply, assertAcceptable_apply]
      dsimp only
      split
      · rfl
      · rfl

/-- Revocations answer alike and leave stores alike. -/
theorem revoke_memory (hs : Consistent s) {env : Environment K} {organizationId : String}
    {params : RevokeInvitationParams K} (hallowed : RevokeAgrees env organizationId params s) :
    answered (InMemory.revokeInvitation env organizationId params) (fun _ => .revoked)
        (remembered s) =
      ((committed (revokeInvitation env organizationId params) (fun _ => .revoked) s).1,
        remembered (committed (revokeInvitation env organizationId params)
          (fun _ => Answer.revoked) s).2) := by
  have hfind := find?_map_eq (f := InvitationRow.dates) (l := s .invitations)
    (p := fun row => row.organizationId = organizationId && row.id = params.invitationId)
    (q := fun row => row.id = params.invitationId && row.organizationId = organizationId)
    fun row _ => Bool.and_comm _ _
  rw [answered, InMemory.revokeInvitation, committed, revokeInvitation_eq]
  rw [show (remembered s).invitations = (s .invitations).map InvitationRow.dates from rfl, hfind]
  cases hhead : ((s .invitations).filter fun (row : InvitationRow K) =>
      row.organizationId = organizationId && row.id = params.invitationId).head? with
  | none => rfl
  | some invitation =>
      dsimp only [Option.map_some]
      rw [lifecycleError_dates]
      cases hlifecycle : InMemory.lifecycleError invitation env.date with
      | some failure => rfl
      | none =>
          obtain ⟨hmem, hkept⟩ := List.mem_filter.mp (List.mem_of_mem_head? hhead)
          rw [Bool.and_eq_true, decide_eq_true_eq, decide_eq_true_eq] at hkept
          have hrecordable := hallowed invitation hmem hkept.1 hkept.2 hlifecycle
          have hsettled : InvitationStatus.revoked ≠ .pending := by decide
          have hupdated : updateById .invitations
              (fun (row : InvitationRow K) => row.id = invitation.id) (revoked env params) s =
                .ok ((), s.updated .invitations (fun row => row.id = invitation.id)
                  (revoked env params)) :=
            updateInvitations_apply hs (fun a b => clash_settled rfl rfl hsettled)
              fun row hrow => revoked_resolves env (hs.resolved .invitations row hrow)
                hrecordable.user
          have hafter : Recordable (s.updated .invitations (fun row => row.id = invitation.id)
              (revoked env params)) params.ctx.actorUserId env.eventId :=
            ⟨hrecordable.user, hrecordable.unused⟩
          dsimp only
          rw [bind_apply, hupdated, Except.bind, recordInvitationEvent, recordEvent_apply hafter]
          dsimp only
          have hfound : ∀ row : InvitationRow K, row ∈ s .invitations →
              ((decide (row.dates.id = params.invitationId) &&
                decide (row.dates.organizationId = organizationId)) = true ↔
                  row.id = invitation.id) := by
            intro row hrow
            rw [Bool.and_eq_true, decide_eq_true_eq, decide_eq_true_eq]
            refine ⟨fun h => h.1.trans hkept.2.symm, fun hid => ?_⟩
            obtain rfl := id_unique hs hrow hmem hid
            exact ⟨hkept.2, hkept.1⟩
          rw [remembered_addEvent, remembered_updated, changeFound_dates hs hfound fun row => by
            simp only [InvitationRow.dates, Option.map_some, toDate_ofMillis]]
          rfl

/-! ## Creations -/

section Creations

variable {env : Environment K} {organizationId : String} {params : CreateInvitationParams}

/-- The rows after the lazy expiry. -/
def freed (env : Environment K) (organizationId : String) (params : CreateInvitationParams)
    (s : Store (catalog K)) : Store (catalog K) :=
  s.updated .invitations (isStale env organizationId params) (expire env)

def activeMembers (organizationId : String) (s : Store (catalog K)) : ℕ :=
  ((s .memberships).filter fun (row : MembershipRow K) =>
    row.organizationId = organizationId && row.status = .active).length

def planOf (organizationId : String) (s : Store (catalog K)) : Option OrganizationPlanRow :=
  ((s .organizationPlans).filter fun (row : OrganizationPlanRow) =>
    row.organizationId = organizationId).head?

/-- The seats that count against the quota. -/
def reservedSeats (env : Environment K) (organizationId : String) (s : Store (catalog K)) : ℕ :=
  activeMembers organizationId s +
    ((s .invitations).filter (isReservation organizationId env.date)).length

theorem requireQuota_apply (quota : EntitlementKey) (current limit : ℕ) :
    (requireQuota quota current limit : Operation K Unit) s =
      if current ≥ limit then .error (quotaExceededError quota limit current) else .ok ((), s) := by
  unfold requireQuota evaluateCountQuota
  by_cases hfull : current ≥ limit
  · rw [if_pos hfull, if_pos hfull, if_pos rfl]
    rfl
  · rw [if_neg hfull, if_neg hfull, if_neg (by decide)]
    rfl

/-- Plan, seats, then the insert on top of what was freed. -/
theorem createInvitation_apply (hs : Consistent s) :
    createInvitation env organizationId params s =
      match planOf organizationId s with
      | none => .error planStateMissingError
      | some plan =>
          if reservedSeats env organizationId s ≥ maxMembers plan.planKey then
            .error (quotaExceededError .maxMembers (maxMembers plan.planKey)
              (reservedSeats env organizationId s))
          else issue env organizationId params (freed env organizationId params s) := by
  rw [createInvitation_eq]
  change (match planOf organizationId s with | none => _ | some plan => _) = _
  cases planOf organizationId s with
  | none => rfl
  | some plan =>
      dsimp only
      rw [bind_apply, requireQuota_apply]
      change (if reservedSeats env organizationId s ≥ maxMembers plan.planKey then
        .error (quotaExceededError .maxMembers (maxMembers plan.planKey)
          (reservedSeats env organizationId s)) else _ : Except Failure _).bind _ = _
      by_cases hfull : reservedSeats env organizationId s ≥ maxMembers plan.planKey
      · rw [if_pos hfull, if_pos hfull]
        rfl
      · rw [if_neg hfull, if_neg hfull]
        change ((updateWhere _ _ _ _ _ >>= _) s = _)
        rw [bind_apply, expireStale_eq env organizationId params ⟨s, hs.valid, hs.resolved⟩]
        rfl

/-- Both repositories free the same stale invitations, but for those that expire right now. -/
theorem expireStale_memory (hs : Consistent s)
    (hexpiry : ∀ row : InvitationRow K, row ∈ s .invitations →
      isPendingFor organizationId params row → getTime row.expiresAt ≠ env.date) :
    InMemory.expireStale env organizationId params (remembered s) =
      remembered (freed env organizationId params s) := by
  rw [freed, remembered_updated, InMemory.expireStale, remembered]
  dsimp only
  rw [List.map_map]
  congr 1
  refine List.map_congr_left fun row hrow => ?_
  have hpending : InMemory.isPending organizationId params.invitedEmailNormalized row.dates =
      isPendingFor organizationId params row := rfl
  have hstale : isStale env organizationId params row =
      (isPendingFor organizationId params row && row.expiresAt < ofMillis env.date) := rfl
  rw [Function.comp_apply, hpending, hstale]
  cases hcase : isPendingFor organizationId params row with
  | false => rfl
  | true =>
      have hlt : InMemory.isExpired row.dates env.date =
          decide (row.expiresAt < ofMillis env.date) := by
        rw [Bool.eq_iff_iff, decide_eq_true_eq, ← getTime_lt_iff (hs.expiry row hrow),
          InMemory.isExpired, InvitationRow.dates, getTime_toDate, decide_eq_true_eq]
        exact (hexpiry row hrow hcase).le_iff_lt
      rw [hlt]
      by_cases hexpired : row.expiresAt < ofMillis env.date
      · rw [decide_eq_true hexpired]
        simp only [Bool.and_self, ↓reduceIte, expire, InvitationRow.dates, toDate_ofMillis]
      · rw [decide_eq_false hexpired]
        rfl

theorem resolveStoreEntitlements_memory :
    InMemory.resolveStoreEntitlements (remembered s) organizationId =
      (planOf organizationId s).map OrganizationPlanRow.planKey := by
  rw [InMemory.resolveStoreEntitlements, planOf, List.head?_filter]
  rfl

theorem countActiveMembers_memory :
    InMemory.countActiveMembers (remembered s) organizationId = activeMembers organizationId s := by
  have hfilter := filter_map_eq (f := MembershipRow.dates) (l := s .memberships)
    (p := fun row => row.organizationId = organizationId && row.status = .active)
    (q := fun row => row.organizationId = organizationId && row.status = .active) fun _ _ => rfl
  rw [InMemory.countActiveMembers, remembered, hfilter, List.length_map]
  rfl

theorem isLive_freed (hs : Consistent s) :
    ((remembered (freed env organizationId params s)).invitations.filter
        (InMemory.isLive organizationId env.date)).length =
      ((s .invitations).filter (isReservation organizationId env.date)).length := by
  rw [freed, remembered_updated]
  dsimp only
  rw [filter_map_eq (p := isReservation organizationId env.date), List.length_map]
  intro row hrow
  by_cases hstale : isStale env organizationId params row
  · rw [if_pos hstale]
    rw [isStale, Bool.and_eq_true, decide_eq_true_eq] at hstale
    have hlive : decide (ofMillis env.date < row.expiresAt) = false :=
      decide_eq_false hstale.2.asymm
    rw [isReservation, hlive, Bool.and_false, InMemory.isLive]
    have hexpired : decide ((expire env row).dates.status = .pending) = false := rfl
    rw [hexpired, Bool.and_false, Bool.false_and]
  · rw [if_neg hstale]
    exact isLive_dates (hs.expiry row hrow)

/-- The rows after an invitation that was issued. -/
def withInvitation (env : Environment K) (organizationId : String)
    (params : CreateInvitationParams) (s : Store (catalog K)) : Store (catalog K) :=
  (s.added .invitations (newInvitation env organizationId params)).added .securityEvents
    { id := env.eventId, organizationId := some organizationId, eventType := "invitation.created",
      actorType := .user, userId := some params.ctx.actorUserId,
      metadata := env.storedMetadata
        ((params.ctx.actorMembershipId.toList.map fun id => ("actorMembershipId", .text id)) ++
          [("targetType", .text "invitation"),
            ("targetInvitationId", .text (env.text env.rowId)),
            ("invitedEmailNormalized", .text params.invitedEmailNormalized),
            ("roleId", .text (roleId params.role))]),
      requestId := params.ctx.requestId, createdAt := env.now }

/-- An insert with nothing in its way adds the invitation and its event. -/
theorem issue_apply (hunused : Unused env params s)
    (hnone : ¬∃ row ∈ s .invitations, isPendingFor organizationId params row)
    (horganization : (s .organizations).any fun (row : OrganizationRow) => row.id = organizationId)
    (hrecordable : Recordable s params.ctx.actorUserId env.eventId) :
    issue env organizationId params s =
      .ok (newInvitation env organizationId params,
        withInvitation env organizationId params s) := by
  have hclash : ¬(s .invitations).any
      (clash (t := .invitations) (newInvitation env organizationId params)) = true := by
    rw [List.any_eq_true]
    intro hany
    obtain ⟨row, hrow, hrowClash⟩ := hany
    have hreason := (clash_newInvitation_iff env organizationId params row).mp hrowClash
    rcases hreason with hkeys | hpending
    · exact hkeys.elim (fun h => (hunused row hrow).1 h.symm) fun h => (hunused row hrow).2 h.symm
    · exact hnone ⟨row, hrow, hpending⟩
  have hresolves : s.resolves (t := .invitations) (newInvitation env organizationId params) := by
    rw [resolves_invitation_iff]
    refine ⟨horganization, fun userId huserId => ?_⟩
    obtain rfl := List.mem_singleton.mp huserId
    exact any_user hrecordable.user
  have hadded : Recordable (s.added .invitations (newInvitation env organizationId params))
      params.ctx.actorUserId env.eventId := ⟨hrecordable.user, hrecordable.unused⟩
  unfold issue
  rw [bind_apply]
  unfold Noninterference.insertRow
  rw [if_neg hclash, if_pos hresolves]
  change (recordInvitationEvent env organizationId "invitation.created" _ params.ctx >>= _) _ = _
  rw [bind_apply, recordInvitationEvent, recordEvent_apply hadded]
  rfl

theorem planOf_eq_some {plan : OrganizationPlanRow} (h : planOf organizationId s = some plan) :
    plan ∈ s .organizationPlans ∧ plan.organizationId = organizationId := by
  obtain ⟨hmem, hkept⟩ := List.mem_filter.mp (List.mem_of_mem_head? h)
  exact ⟨hmem, of_decide_eq_true hkept⟩

/-- The organization of a plan exists. -/
theorem organization_of_plan (hs : Consistent s) {plan : OrganizationPlanRow}
    (h : planOf organizationId s = some plan) :
    (s .organizations).any fun (row : OrganizationRow) => row.id = organizationId := by
  obtain ⟨hmem, rfl⟩ := planOf_eq_some h
  have hresolved := hs.resolved .organizationPlans plan hmem
  exact List.all_eq_true.mp hresolved (organizationRef plan.organizationId) List.mem_cons_self

omit [LinearOrder K] in
theorem newInvitation_dates (hclock : env.date = getTime env.now) :
    (newInvitation env organizationId params).dates =
      { newInvitation env organizationId params with
        createdAt := ofMillis env.date
        updatedAt := ofMillis env.date } := by
  simp only [InvitationRow.dates, newInvitation, getTime_ofMillis, Option.map_none, toDate, hclock]

/-- The lazy expiry finds nothing where no invitation is stale. -/
theorem freed_eq_self (h : ∀ row : InvitationRow K, row ∈ s .invitations →
    isStale env organizationId params row = false) : freed env organizationId params s = s := by
  have hrows : ((s .invitations).map fun row =>
      if isStale env organizationId params row then expire env row else row) = s .invitations := by
    refine (List.map_congr_left fun row hrow => ?_).trans (List.map_id _)
    rw [h row hrow]
    rfl
  rw [freed, Store.updated, hrows]
  exact Function.update_eq_self Table.invitations s

/-- A pending invitation in the way is the only one of its address. -/
theorem freed_of_inTheWay (hs : Consistent s)
    (hway : ∃ row ∈ s .invitations, InTheWay env organizationId params row) :
    freed env organizationId params s = s := by
  obtain ⟨row, hrow, hpending, hkept⟩ := hway
  refine freed_eq_self fun other hother => eq_false_of_ne_true fun hstale => ?_
  have hotherPending : isPendingFor organizationId params other :=
    (Bool.and_eq_true_iff.mp hstale).1
  obtain rfl := pending_unique organizationId params ⟨s, hs.valid, hs.resolved⟩ hrow hother hpending
    hotherPending
  exact Bool.noConfusion (hstale.symm.trans hkept)

theorem freed_of_noPending (h : ¬∃ row ∈ s .invitations, isPendingFor organizationId params row) :
    freed env organizationId params s = s :=
  freed_eq_self fun row hrow => eq_false_of_ne_true fun hstale =>
    h ⟨row, hrow, (Bool.and_eq_true_iff.mp hstale).1⟩

theorem any_isPending_freed :
    (remembered (freed env organizationId params s)).invitations.any
        (InMemory.isPending organizationId params.invitedEmailNormalized) ↔
      ∃ row ∈ s .invitations, InTheWay env organizationId params row := by
  rw [← pending_updated_iff, remembered, List.any_map, List.any_eq_true]
  rfl

/-- Creations answer alike and leave stores alike, where nothing tells them apart. -/
theorem create_memory (hs : Consistent s) (hclock : env.date = getTime env.now)
    (hallowed : CreateAgrees env organizationId params s) :
    answered (InMemory.createInvitation env organizationId params) .invitation (remembered s) =
      ((committed (createInvitation env organizationId params)
          (fun row => Answer.invitation row.dates) s).1,
        remembered (committed (createInvitation env organizationId params)
          (fun row => Answer.invitation row.dates) s).2) := by
  have hplan : planOf organizationId (freed env organizationId params s) =
      planOf organizationId s := rfl
  have hmembers : activeMembers organizationId (freed env organizationId params s) =
      activeMembers organizationId s := rfl
  have hreserved : activeMembers organizationId s +
      ((s .invitations).filter (isReservation organizationId env.date)).length =
        reservedSeats env organizationId s := rfl
  rw [answered, InMemory.createInvitation, committed, createInvitation_apply hs]
  dsimp only
  rw [expireStale_memory hs hallowed.expiry, resolveStoreEntitlements_memory, hplan,
    countActiveMembers_memory, hmembers, isLive_freed hs, hreserved]
  by_cases hway : ∃ row ∈ s .invitations, InTheWay env organizationId params row
  · obtain ⟨plan, hhead, hseat⟩ := hallowed.seat (hway.imp fun row h => ⟨h.1, h.2.1⟩)
    have hduplicate : issue env organizationId params (freed env organizationId params s) =
        .error duplicatePendingInvitationError :=
      (issue_eq_duplicate_iff env organizationId params _).mpr
        ⟨(unused_updated_iff env organizationId params s).mpr
            (hallowed.unused ⟨plan, hhead, hseat⟩),
          (pending_updated_iff env organizationId params s).mpr hway⟩
    change planOf organizationId s = some plan at hhead
    change reservedSeats env organizationId s < maxMembers plan.planKey at hseat
    rw [if_pos (any_isPending_freed.mpr hway), hhead]
    dsimp only
    rw [if_neg (not_le.mpr hseat), hduplicate, freed_of_inTheWay hs hway]
    rfl
  · rw [if_neg fun h => hway (any_isPending_freed.mp h)]
    cases hhead : planOf organizationId s with
    | none =>
        have hnone : ¬∃ row ∈ s .invitations, isPendingFor organizationId params row := by
          intro hpending
          obtain ⟨plan, hsome, -⟩ := hallowed.seat hpending
          cases hhead.symm.trans hsome
        rw [freed_of_noPending hnone]
        rfl
    | some plan =>
        dsimp only [Option.map_some]
        by_cases hfull : reservedSeats env organizationId s ≥ maxMembers plan.planKey
        · have hnone : ¬∃ row ∈ s .invitations, isPendingFor organizationId params row := by
            intro hpending
            obtain ⟨other, hother, hseat⟩ := hallowed.seat hpending
            obtain rfl := Option.some.inj (hhead.symm.trans hother)
            exact not_lt.mpr hfull hseat
          rw [evaluateCountQuota, if_pos hfull, if_pos rfl, if_pos hfull, freed_of_noPending hnone]
          rfl
        · have hseat : SeatLeft env organizationId s := ⟨plan, hhead, not_le.mp hfull⟩
          have hrecordable := hallowed.recordable hseat fun row hrow h => hway ⟨row, hrow, h⟩
          have horganization := organization_of_plan hs hhead
          have hissued := issue_apply (s := freed env organizationId params s)
            ((unused_updated_iff env organizationId params s).mpr (hallowed.unused hseat))
            (fun h => hway ((pending_updated_iff env organizationId params s).mp h))
            horganization ⟨hrecordable.user, hrecordable.unused⟩
          rw [evaluateCountQuota, if_neg hfull, if_neg (by decide), if_neg hfull, hissued]
          dsimp only
          rw [withInvitation, remembered_addEvent, remembered_addInvitation,
            newInvitation_dates hclock]
          rfl

end Creations

/-! ## Acceptances -/

section Acceptances

variable {env : Environment K} {params : AcceptInvitationParams K} {invitation : InvitationRow K}

/-- The account already belongs to the organization. -/
def isMember (params : AcceptInvitationParams K) (organizationId : String)
    (s : Store (catalog K)) : Bool :=
  (s .memberships).any fun (row : MembershipRow K) => row.userId = params.acceptingUserId &&
    row.organizationId = organizationId && row.status = .active

/-- The first check of steps 2 to 4 that fails. -/
def refusal (env : Environment K) (params : AcceptInvitationParams K)
    (invitation : InvitationRow K) (s : Store (catalog K)) : Option Failure :=
  match InMemory.lifecycleError invitation env.date with
  | some failure => some failure
  | none =>
      if invitation.invitedEmailNormalized ≠ params.acceptingUserNormalizedEmail then
        some invitationEmailMismatchError
      else if isMember params invitation.organizationId s then some alreadyActiveMemberError
      else none

/-- The refusals of an acceptance are the ways of not being welcome. -/
theorem refusal_eq_none_iff :
    refusal env params invitation s = none ↔ Welcome env params invitation s := by
  have hmember : isMember params invitation.organizationId s = false ↔
      ∀ row : MembershipRow K, row ∈ s .memberships → row.userId = params.acceptingUserId →
        row.organizationId = invitation.organizationId → row.status ≠ .active := by
    rw [isMember, List.any_eq_false]
    simp only [Bool.and_eq_true, decide_eq_true_eq, not_and, and_imp]
  unfold refusal
  cases hlifecycle : InMemory.lifecycleError invitation env.date with
  | some failure =>
      refine iff_of_false (Option.some_ne_none _) fun h => ?_
      exact Option.some_ne_none _ (hlifecycle.symm.trans h.lifecycle)
  | none =>
      by_cases hemail : invitation.invitedEmailNormalized = params.acceptingUserNormalizedEmail
      · cases hcase : isMember params invitation.organizationId s with
        | true =>
            rw [if_neg (not_not.mpr hemail), if_pos rfl]
            refine iff_of_false (Option.some_ne_none _) fun h => ?_
            exact Bool.noConfusion (hcase.symm.trans (hmember.mpr h.joins))
        | false =>
            rw [if_neg (not_not.mpr hemail), if_neg Bool.false_ne_true]
            exact iff_of_true rfl ⟨hlifecycle, hemail, hmember.mp hcase⟩
      · rw [if_pos hemail]
        exact iff_of_false (Option.some_ne_none _) fun h => hemail h.email

theorem lockOrganizationEntitlements_apply (organizationId : String) :
    (lockOrganizationEntitlements organizationId : Operation K PlanKey) s =
      match planOf organizationId s with
      | none => .error planStateMissingError
      | some plan => .ok (plan.planKey, s) := by
  unfold lockOrganizationEntitlements
  rw [bind_apply, find_apply, planOf]
  cases ((s .organizationPlans).filter fun (row : OrganizationPlanRow) =>
      row.organizationId = organizationId).head? with
  | none => rfl
  | some plan => rfl

theorem selects_dates {selector : InvitationSelector K} (row : InvitationRow K) :
    selector.selects row.dates = selector.selects row := by
  cases selector with
  | tokenHash hash => rfl
  | invitationId id => rfl

theorem isMember_eq (params : AcceptInvitationParams K) (organizationId : String) :
    ((s .memberships).filter fun (row : MembershipRow K) =>
      row.userId = params.acceptingUserId && row.organizationId = organizationId &&
        row.status = .active).head?.isSome = isMember params organizationId s := by
  rw [List.head?_filter, isMember, Bool.eq_iff_iff, List.find?_isSome, List.any_eq_true]

/-- The plan comes before the other checks. -/
theorem findAcceptable_apply :
    findAcceptable env params s =
      match ((s .invitations).filter params.selector.selects).head? with
      | none => .error invitationInvalidError
      | some invitation =>
          match planOf invitation.organizationId s with
          | none => .error planStateMissingError
          | some plan =>
              match refusal env params invitation s with
              | some failure => .error failure
              | none =>
                  if activeMembers invitation.organizationId s ≥ maxMembers plan.planKey then
                    .error (quotaExceededError .maxMembers (maxMembers plan.planKey)
                      (activeMembers invitation.organizationId s))
                  else .ok (invitation, s) := by
  unfold findAcceptable
  rw [bind_apply, find_apply]
  cases hhead : ((s .invitations).filter params.selector.selects).head? with
  | none => rfl
  | some invitation =>
      change (lockOrganizationEntitlements invitation.organizationId >>= _) s = _
      rw [bind_apply, lockOrganizationEntitlements_apply]
      dsimp only
      cases planOf invitation.organizationId s with
      | none => rfl
      | some plan =>
          change (find _ _ >>= _) s = _
          rw [bind_apply, find_apply, hhead]
          change (assertAcceptable invitation env.date >>= _) s = _
          rw [bind_apply, assertAcceptable_apply]
          unfold refusal
          cases InMemory.lifecycleError invitation env.date with
          | some failure => rfl
          | none =>
              by_cases hemail :
                  invitation.invitedEmailNormalized = params.acceptingUserNormalizedEmail
              · rw [if_neg (not_not.mpr hemail), if_neg (not_not.mpr hemail), ← isMember_eq]
                change (OrganizationRepository.findActiveMembership _ _ >>= _) s = _
                unfold OrganizationRepository.findActiveMembership
                rw [bind_apply, find_apply]
                cases ((s .memberships).filter fun (row : MembershipRow K) =>
                    row.userId = params.acceptingUserId &&
                      row.organizationId = invitation.organizationId &&
                      row.status = .active).head? with
                | some membership => rfl
                | none =>
                    change (if activeMembers invitation.organizationId s ≥ maxMembers plan.planKey
                      then throw _ else pure invitation : Operation K (InvitationRow K)) s = _
                    by_cases hfull :
                        activeMembers invitation.organizationId s ≥ maxMembers plan.planKey
                    · rw [if_pos hfull]
                      exact (if_pos hfull).symm
                    · rw [if_neg hfull]
                      exact (if_neg hfull).symm
              · rw [if_pos hemail, if_pos hemail]
                rfl

/-- In memory it comes after them. -/
theorem validate_memory :
    InMemory.validateInvitationForAcceptanceInStore env params (remembered s) =
      match ((s .invitations).filter params.selector.selects).head? with
      | none => .error invitationInvalidError
      | some invitation =>
          match refusal env params invitation s with
          | some failure => .error failure
          | none =>
              match planOf invitation.organizationId s with
              | none => .error planStateMissingError
              | some plan =>
                  if activeMembers invitation.organizationId s ≥ maxMembers plan.planKey then
                    .error (quotaExceededError .maxMembers (maxMembers plan.planKey)
                      (activeMembers invitation.organizationId s))
                  else .ok invitation.dates := by
  have hfind := find?_map_eq (f := InvitationRow.dates) (l := s .invitations)
    (p := params.selector.selects) (q := params.selector.selects) fun row _ => selects_dates row
  unfold InMemory.validateInvitationForAcceptanceInStore
  rw [show (remembered s).invitations = (s .invitations).map InvitationRow.dates from rfl, hfind]
  cases ((s .invitations).filter params.selector.selects).head? with
  | none => rfl
  | some invitation =>
      dsimp only [Option.map_some]
      rw [lifecycleError_dates, resolveStoreEntitlements_memory, countActiveMembers_memory]
      unfold refusal
      cases InMemory.lifecycleError invitation env.date with
      | some failure => rfl
      | none =>
          have hmember : ((remembered s).memberships.any fun row =>
              row.userId = params.acceptingUserId &&
                row.organizationId = invitation.organizationId && row.status = .active) =
              isMember params invitation.organizationId s := by
            rw [remembered, List.any_map, isMember]
            rfl
          have horganization : invitation.dates.organizationId = invitation.organizationId := rfl
          have haddress : invitation.dates.invitedEmailNormalized =
              invitation.invitedEmailNormalized := rfl
          simp only [horganization, haddress, hmember]
          by_cases hemail : invitation.invitedEmailNormalized = params.acceptingUserNormalizedEmail
          · rw [if_neg (not_not.mpr hemail), if_neg (not_not.mpr hemail)]
            cases isMember params invitation.organizationId s with
            | true => rfl
            | false =>
                cases planOf invitation.organizationId s with
                | none => rfl
                | some plan => rfl
          · rw [if_pos hemail, if_pos hemail]

variable {secondEventId : K}

/-- An event of an acceptance. -/
def acceptanceEvent (env : Environment K) (params : AcceptInvitationParams K)
    (organizationId : String) (id : K) (eventType : String)
    (metadata : List (String × MetadataValue)) : SecurityEvent K :=
  { id, organizationId := some organizationId, eventType, actorType := .user,
    userId := some params.acceptingUserId, metadata := env.storedMetadata metadata,
    requestId := params.ctx.requestId, createdAt := env.now }

/-- The rows after the membership and the use of the invitation. -/
def withMembership (env : Environment K) (params : AcceptInvitationParams K)
    (invitation : InvitationRow K) (s : Store (catalog K)) : Store (catalog K) :=
  (s.added .memberships (joined env params invitation)).updated .invitations
    (fun (row : InvitationRow K) => row.id = invitation.id) (used env params)

/-- The rows with the first event. -/
def withAccepted (env : Environment K) (params : AcceptInvitationParams K)
    (invitation : InvitationRow K) (s : Store (catalog K)) : Store (catalog K) :=
  (withMembership env params invitation s).added .securityEvents
    (acceptanceEvent env params invitation.organizationId env.eventId "invitation.accepted"
      (acceptedMetadata env params invitation))

/-- The rows after an acceptance. -/
def withAcceptance (env : Environment K) (secondEventId : K) (params : AcceptInvitationParams K)
    (invitation : InvitationRow K) (s : Store (catalog K)) : Store (catalog K) :=
  (withAccepted env params invitation s).added .securityEvents
    (acceptanceEvent env params invitation.organizationId secondEventId
      "membership.created_from_invitation" (membershipMetadata env params invitation))

theorem used_resolves {row : InvitationRow K} (h : s.resolves (t := .invitations) row)
    (hactor : ∃ user : UserRow, user ∈ s .users ∧ user.id = params.acceptingUserId) :
    s.resolves (t := .invitations) (used env params row) := by
  rw [resolves_invitation_iff] at h ⊢
  refine ⟨h.1, fun userId huserId => ?_⟩
  rcases List.mem_cons.mp huserId with rfl | hmem
  · exact h.2 _ List.mem_cons_self
  · rcases List.mem_append.mp hmem with haccepted | hrevoked
    · obtain rfl := List.mem_singleton.mp haccepted
      exact any_user hactor
    · exact h.2 userId (List.mem_cons_of_mem _ (List.mem_append_right _ hrevoked))

/-- The membership of an account that is welcome can be inserted. -/
theorem insertMembership_apply (hs : Consistent s) (hmem : invitation ∈ s .invitations)
    (hwelcome : Welcome env params invitation s) (hjoin : JoinAgrees env secondEventId params s) :
    insertRow (C := catalog K) .memberships (fun _ => alreadyActiveMemberError) .unexpected
        (joined env params invitation) s =
      .ok ((), s.added .memberships (joined env params invitation)) := by
  have hclash : ¬(s .memberships).any
      (clash (t := .memberships) (joined env params invitation)) = true := by
    rw [List.any_eq_true]
    intro hany
    obtain ⟨row, hrow, hrowClash⟩ := hany
    simp only [clash, Bool.or_eq_true, Bool.and_eq_true, decide_eq_true_eq] at hrowClash
    rcases hrowClash with hid | ⟨⟨⟨-, hactive⟩, huser⟩, horganization⟩
    · exact hjoin.unused row hrow hid.symm
    · exact hwelcome.joins row hrow huser.symm horganization.symm hactive
  have hresolves : s.resolves (t := .memberships) (joined env params invitation) := by
    obtain ⟨horganization, husers⟩ := resolves_invitation_iff.mp (hs.resolved _ invitation hmem)
    have hinviter := husers invitation.invitedByUserId List.mem_cons_self
    change (_ && (_ && (_ && true))) = true
    rw [Bool.and_true]
    exact Bool.and_eq_true_iff.mpr ⟨horganization,
      Bool.and_eq_true_iff.mpr ⟨any_user hjoin.first.user, hinviter⟩⟩
  unfold Noninterference.insertRow
  rw [if_neg hclash, if_pos hresolves]

/-- An acceptance that nothing refuses writes the membership, the invitation and the events. -/
theorem acceptFound_apply (hs : Consistent s) (hmem : invitation ∈ s .invitations)
    (hwelcome : Welcome env params invitation s) (hjoin : JoinAgrees env secondEventId params s) :
    ∃ organization : OrganizationRow,
      ((s .organizations).filter fun (row : OrganizationRow) =>
        row.id = invitation.organizationId).head? = some organization ∧
      acceptFound env secondEventId params invitation s =
        .ok (⟨used env params invitation, joined env params invitation, organization⟩,
          withAcceptance env secondEventId params invitation s) := by
  obtain ⟨horganization, -⟩ := resolves_invitation_iff.mp (hs.resolved _ invitation hmem)
  rw [List.any_eq_true, ← List.find?_isSome, Option.isSome_iff_exists] at horganization
  obtain ⟨organization, hfound⟩ := horganization
  have hhead := List.head?_filter.trans hfound
  have hinserted := insertMembership_apply hs hmem hwelcome hjoin
  have hadded : Consistent (s.added .memberships (joined env params invitation)) :=
    keeps_insert (by decide) (by decide) (by decide) s () _ hs hinserted
  have hsettled : InvitationStatus.accepted ≠ .pending := by decide
  have hupdated : updateById .invitations (fun (row : InvitationRow K) => row.id = invitation.id)
      (used env params) (s.added .memberships (joined env params invitation)) = .ok ((), _) :=
    updateInvitations_apply hadded (fun a b => clash_settled rfl rfl hsettled)
      fun row hrow => used_resolves (hadded.resolved .invitations row hrow) hjoin.first.user
  -- the two events, in the order in which they are recorded
  have hfirst : recordEvent env invitation.organizationId "invitation.accepted"
      (acceptedMetadata env params invitation) params.acceptingUserId params.ctx.requestId
      (withMembership env params invitation s) =
        .ok ((), withAccepted env params invitation s) := by
    have hrecordable : Recordable (withMembership env params invitation s) params.acceptingUserId
        env.eventId := ⟨hjoin.first.user, hjoin.first.unused⟩
    exact recordEvent_apply hrecordable _ _ _ _
  have hsecond : recordEvent { env with eventId := secondEventId } invitation.organizationId
      "membership.created_from_invitation" (membershipMetadata env params invitation)
      params.acceptingUserId params.ctx.requestId (withAccepted env params invitation s) =
        .ok ((), withAcceptance env secondEventId params invitation s) := by
    have hrecordable : Recordable (withAccepted env params invitation s) params.acceptingUserId
        ({ env with eventId := secondEventId } : Environment K).eventId := by
      refine ⟨hjoin.second.user, fun event hevent => ?_⟩
      rw [withAccepted, Store.added, Store.set_self, List.mem_append, List.mem_singleton] at hevent
      rcases hevent with hold | rfl
      · exact hjoin.second.unused event hold
      · exact hjoin.distinct
    exact recordEvent_apply hrecordable _ _ _ _
  refine ⟨organization, hhead, ?_⟩
  unfold acceptFound OrganizationRepository.findOrganizationById
  rw [bind_apply, find_apply, hhead, hjoin.actor, hjoin.newcomer]
  change (insertRow (C := catalog K) .memberships _ _ _ >>= _) s = _
  rw [bind_apply, hinserted]
  change (updateById .invitations _ _ >>= _) _ = _
  rw [bind_apply, hupdated]
  change (recordEvent env _ _ (acceptedMetadata env params invitation) _ _ >>= _)
    (withMembership env params invitation s) = _
  rw [bind_apply, hfirst]
  change (recordEvent _ _ _ (membershipMetadata env params invitation) _ _ >>= _) _ = _
  rw [bind_apply, hsecond]
  rfl

omit [LinearOrder K] in
theorem joined_dates (hclock : env.date = getTime env.now) :
    (joined env params invitation).dates =
      { joined env params invitation with
        createdAt := ofMillis env.date
        updatedAt := ofMillis env.date } := by
  simp only [MembershipRow.dates, joined, getTime_ofMillis, Option.map_none, toDate, hclock]

omit [LinearOrder K] in
theorem used_dates (row : InvitationRow K) :
    (used env params row).dates = used env params row.dates := by
  simp only [InvitationRow.dates, used, Option.map_some, toDate_ofMillis]

/-- The selected invitation is the only one that the selector takes. -/
theorem selects_iff (hs : Consistent s) (hmem : invitation ∈ s .invitations)
    (hselected : params.selector.selects invitation) {row : InvitationRow K}
    (hrow : row ∈ s .invitations) :
    params.selector.selects row.dates ↔ row.id = invitation.id := by
  rw [selects_dates]
  constructor
  · intro hother
    refine congrArg InvitationRow.id (hs.valid.eq_of_clash (t := .invitations) hrow hmem ?_)
    change clash (t := .invitations) row invitation = true
    cases hselector : params.selector with
    | tokenHash hash =>
        rw [hselector, InvitationSelector.selects, decide_eq_true_eq] at hother hselected
        simp only [clash, hother, hselected, decide_true, Bool.or_true, Bool.true_or]
    | invitationId id =>
        rw [hselector, InvitationSelector.selects, decide_eq_true_eq] at hother hselected
        simp only [clash, hother, hselected, decide_true, Bool.true_or]
  · intro hid
    obtain rfl := id_unique hs hrow hmem hid
    exact hselected

/-- The acceptance in memory is the one of the database. -/
theorem apply_memory (hs : Consistent s) (hclock : env.date = getTime env.now)
    (hmem : invitation ∈ s .invitations) (hselected : params.selector.selects invitation)
    {organization : OrganizationRow}
    (horganization : ((s .organizations).filter fun (row : OrganizationRow) =>
      row.id = invitation.organizationId).head? = some organization) :
    answered (fun store =>
        (.ok (used env params invitation.dates,
          (InMemory.applyInvitationAcceptanceInStore env params invitation.dates store).1,
          (InMemory.applyInvitationAcceptanceInStore env params invitation.dates store).2.1),
          (InMemory.applyInvitationAcceptanceInStore env params invitation.dates store).2.2))
        (fun result => Answer.accepted result.1 result.2.1 result.2.2) (remembered s) =
      (.ok (.accepted (used env params invitation).dates (joined env params invitation).dates
        (some organization.dates)),
        remembered (withAcceptance env secondEventId params invitation s)) := by
  have hfind := find?_map_eq (f := OrganizationRow.dates) (l := s .organizations)
    (p := fun row => row.id = invitation.organizationId)
    (q := fun row => row.id = invitation.organizationId) fun _ _ => rfl
  have hused : ∀ row : InvitationRow K, (used env params row).dates = used env params row.dates :=
    used_dates
  have hrows := changeFound_dates hs (fun row hrow => selects_iff hs hmem hselected hrow) hused
  rw [withAcceptance, withAccepted, withMembership, remembered_addEvent, remembered_addEvent,
    remembered_updated, remembered_addMembership, used_dates, joined_dates hclock]
  have hfound : (remembered s).organizations.find? (fun row =>
      row.id = invitation.dates.organizationId) = some organization.dates := by
    change ((s .organizations).map OrganizationRow.dates).find? (fun row =>
      row.id = invitation.organizationId) = _
    rw [hfind, horganization]
    rfl
  refine Prod.ext ?_ ?_
  · change Except.ok (Answer.accepted _ _ ((remembered s).organizations.find? _)) = _
    rw [hfound]
    rfl
  · change InMemory.recordEvent _ _ _ _ _ (InMemory.recordEvent _ _ _ _ _
      { remembered s with
        memberships := _
        invitations := InMemory.changeFound params.selector.selects (used env params)
          ((s .invitations).map InvitationRow.dates) }) = _
    rw [hrows]
    rfl

theorem not_hasPlan {organizationId : String} (h : planOf organizationId s = none) :
    ¬HasPlan organizationId s := by
  intro hplan
  obtain ⟨plan, hmem, hof⟩ := hplan
  have hkept : plan ∈ (s .organizationPlans).filter fun (row : OrganizationPlanRow) =>
      row.organizationId = organizationId := List.mem_filter.mpr ⟨hmem, decide_eq_true hof⟩
  rw [List.head?_eq_none_iff.mp h] at hkept
  cases hkept

/-- Acceptances answer alike and leave stores alike, where nothing tells them apart. -/
theorem accept_memory (hs : Consistent s) (hclock : env.date = getTime env.now)
    (hallowed : AcceptAgrees env secondEventId params s) :
    answered (InMemory.acceptInvitation env params)
        (fun result => Answer.accepted result.1 result.2.1 result.2.2) (remembered s) =
      ((committed (acceptInvitation env secondEventId params)
          (fun result => Answer.accepted result.invitation.dates result.membership.dates
            (some result.organization.dates)) s).1,
        remembered (committed (acceptInvitation env secondEventId params)
          (fun result => Answer.accepted result.invitation.dates result.membership.dates
            (some result.organization.dates)) s).2) := by
  unfold acceptInvitation committed
  rw [bind_apply, findAcceptable_apply, answered, InMemory.acceptInvitation, validate_memory]
  cases hhead : ((s .invitations).filter params.selector.selects).head? with
  | none => rfl
  | some invitation =>
      obtain ⟨hmem, hselected⟩ := List.mem_filter.mp (List.mem_of_mem_head? hhead)
      dsimp only
      cases hplan : planOf invitation.organizationId s with
      | none =>
          have hwelcome := hallowed.plan invitation hmem hselected (not_hasPlan hplan)
          rw [refusal_eq_none_iff.mpr hwelcome]
          rfl
      | some plan =>
          cases hrefusal : refusal env params invitation s with
          | some failure => rfl
          | none =>
              dsimp only
              by_cases hfull :
                  activeMembers invitation.organizationId s ≥ maxMembers plan.planKey
              · rw [if_pos hfull, if_pos hfull]
                rfl
              · obtain ⟨hplanMem, hplanOf⟩ := planOf_eq_some hplan
                have hwelcome := refusal_eq_none_iff.mp hrefusal
                have hjoin := hallowed.joins invitation hmem hselected hwelcome
                  ⟨plan, hplanMem, hplanOf, not_le.mp hfull⟩
                obtain ⟨organization, horganization, haccepted⟩ :=
                  acceptFound_apply hs hmem hwelcome hjoin
                rw [if_neg hfull, if_neg hfull]
                dsimp only [Except.bind]
                rw [haccepted]
                exact apply_memory hs hclock hmem hselected horganization

end Acceptances

/-! ## Runs -/

theorem call_agrees {store : InMemoryOrgStore K} {call : Call K} (hrelated : Related s store)
    (hcall : CallAgrees s call) : Agree databaseStep memoryStep Related s store call := by
  obtain ⟨hs, rfl⟩ := hrelated
  obtain ⟨request, env, secondEventId, hclock⟩ := call
  refine agree_of_memory hs ?_
  cases request with
  | create organizationId params => exact create_memory hs hclock hcall
  | revoke organizationId params => exact revoke_memory hs hcall
  | accept params => exact accept_memory hs hclock hcall
  | list organizationId params => exact list_memory hs hcall
  | findPending organizationId invitedEmailNormalized => exact findPending_memory hs _ _ _
  | countPending organizationId => exact countPending_memory hs _ _

/-- Along a run whose calls all meet the condition, the two repositories answer alike and
stay related. -/
theorem runs_agree {store : InMemoryOrgStore K} {calls : List (Call K)}
    (hrelated : Related s store) (hcalls : EveryCall databaseStep CallAgrees s calls) (n : ℕ) :
    answersOf databaseStep s (calls.take n) = answersOf memoryStep store (calls.take n) ∧
      Related (stateAfter databaseStep s (calls.take n))
        (stateAfter memoryStep store (calls.take n)) :=
  agree_run (fun _ _ _ hrelated hcall => call_agrees hrelated hcall) hrelated (hcalls.take n)

theorem related_expiring : Related expiring.rows (remembered expiring.rows) where
  consistent :=
    { valid := expiring.valid
      resolved := expiring.resolved
      expiry := fun row hrow => by
        obtain rfl := List.mem_singleton.mp hrow
        rfl }
  memory := rfl

/-- At instant 1 the pending invitation has not expired. -/
def beforeExpiry : Environment ℕ := { atExpiry with now := 1000, date := 1 }

def otherInvitation : CreateInvitationParams :=
  ⟨"k@mail", "k@mail", .member, "third", 10, ⟨"u", none, none⟩⟩

theorem otherInvitation_agrees :
    CreateAgrees beforeExpiry "o" otherInvitation expiring.rows := by
  have hnone : ∀ row : InvitationRow ℕ, row ∈ expiring.rows .invitations →
      ¬isPendingFor "o" otherInvitation row := by
    intro row hrow
    obtain rfl := List.mem_singleton.mp hrow
    decide
  refine ⟨fun row hrow h => absurd h (hnone row hrow), fun hpending => ?_, fun _ row hrow => ?_,
    fun _ _ => ⟨⟨_, List.mem_cons_self, rfl⟩, fun event hevent =>
      absurd hevent List.not_mem_nil⟩⟩
  · obtain ⟨row, hrow, h⟩ := hpending
    exact absurd h (hnone row hrow)
  · obtain rfl := List.mem_singleton.mp hrow
    decide

/-- The creation for a new address and a count after it. -/
def inviteAndCount : List (Call ℕ) :=
  [⟨.create "o" otherInvitation, beforeExpiry, 2, rfl⟩, ⟨.countPending "o", beforeExpiry, 2, rfl⟩]

theorem runs_agree_inviteAndCount :
    answersOf databaseStep expiring.rows (inviteAndCount.take 2) =
      answersOf memoryStep (remembered expiring.rows) (inviteAndCount.take 2) ∧
      Related (stateAfter databaseStep expiring.rows (inviteAndCount.take 2))
        (stateAfter memoryStep (remembered expiring.rows) (inviteAndCount.take 2)) := by
  have hcalls : EveryCall databaseStep CallAgrees expiring.rows inviteAndCount :=
    ⟨otherInvitation_agrees, trivial, trivial⟩
  exact runs_agree related_expiring hcalls 2

/-- An invitation that expires now is replaced in memory and a duplicate in the database. -/
theorem expiring_invitation_diverges :
    ¬∀ (s : Store (catalog ℕ)) (store : InMemoryOrgStore ℕ) (calls : List (Call ℕ)),
      Related s store → calls.Pairwise (fun a b => a.env.now ≤ b.env.now) →
        answersOf databaseStep s calls = answersOf memoryStep store calls ∧
          Related (stateAfter databaseStep s calls) (stateAfter memoryStep store calls) := by
  intro h
  have hanswers := (h expiring.rows (remembered expiring.rows)
    [⟨.create "o" secondInvitation, atExpiry, 2, rfl⟩] related_expiring
    (List.pairwise_singleton _ _)).1
  have hdatabase : (databaseStep expiring.rows
      ⟨.create "o" secondInvitation, atExpiry, 2, rfl⟩).1 =
        .error duplicatePendingInvitationError := by
    rfl
  have hmemory : (memoryStep (remembered expiring.rows)
      ⟨.create "o" secondInvitation, atExpiry, 2, rfl⟩).1 =
        .ok (.invitation (newInvitation atExpiry "o" secondInvitation)) := by
    rfl
  have hsame := (List.cons.inj hanswers).1
  cases hdatabase.symm.trans (hsame.trans hmemory)

end Orgistry.Repositories.InvitationRepository
