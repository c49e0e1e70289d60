import Orgistry.Repositories.Operations

/-!
# When an invitation blocks the next one

Creating an invitation reports a duplicate when a pending invitation of the address is
left by the lazy expiry, which takes those that expired before the present instant;
acceptance refuses those that expire at it as well.  The two agree except at that
boundary.
-/

namespace Orgistry.Repositories.InvitationRepository

open Model Noninterference

variable {K : Type} [LinearOrder K]

/-- A content of the tables that the unique indexes and foreign keys admit. -/
structure Stored (K : Type) [LinearOrder K] where
  rows : Store (catalog K)
  valid : rows.Valid
  resolved : ∀ t, ∀ row ∈ rows t, rows.resolves row

variable (env : Environment K) (organizationId : String) (params : CreateInvitationParams)

/-- A pending invitation of the organization to the address. -/
def isPendingFor (row : InvitationRow K) : Bool :=
  row.organizationId = organizationId &&
    row.invitedEmailNormalized = params.invitedEmailNormalized && row.status = .pending

/-- The check that an acceptance makes of the row it found lets it pass. -/
def StillAcceptable (row : InvitationRow K) : Prop :=
  ∀ s : Store (catalog K), assertAcceptable row env.date s = .ok ((), s)

def ReportsDuplicate (s : Stored K) : Prop :=
  createInvitation env organizationId params s.rows = .error duplicatePendingInvitationError

theorem stillAcceptable_iff {row : InvitationRow K} (h : row.status = .pending) :
    StillAcceptable env row ↔ env.date < getTime row.expiresAt := by
  unfold StillAcceptable assertAcceptable
  rw [if_neg (by simp [h]), if_neg (by simp [h])]
  by_cases hexpired : getTime row.expiresAt ≤ env.date
  · simp only [if_pos hexpired]
    exact iff_of_false (fun hpass => nomatch hpass fun _ => []) (not_lt.mpr hexpired)
  · simp only [if_neg hexpired]
    exact iff_of_true (fun _ => rfl) (not_le.mp hexpired)

/-- The plan and the seats allow another invitation. -/
def SeatLeft (s : Store (catalog K)) : Prop :=
  ∃ plan : OrganizationPlanRow,
    ((s .organizationPlans).filter fun (row : OrganizationPlanRow) =>
      row.organizationId = organizationId).head? = some plan ∧
    ((s .memberships).filter fun (row : MembershipRow K) =>
        row.organizationId = organizationId && row.status = .active).length +
      ((s .invitations).filter (isReservation organizationId env.date)).length <
        maxMembers plan.planKey

/-- No stored invitation has the id or the token hash that were drawn. -/
def Unused (s : Store (catalog K)) : Prop :=
  ∀ row : InvitationRow K, row ∈ s .invitations →
    row.id ≠ env.rowId ∧ row.tokenHash ≠ params.tokenHash

/-- The invitations that the lazy expiry takes. -/
def isStale (row : InvitationRow K) : Bool :=
  row.organizationId = organizationId &&
    row.invitedEmailNormalized = params.invitedEmailNormalized && row.status = .pending &&
    row.expiresAt < ofMillis env.date

def expire (row : InvitationRow K) : InvitationRow K :=
  { row with status := .expired, updatedAt := ofMillis env.date }

def newInvitation : InvitationRow K :=
  { id := env.rowId, organizationId, invitedEmail := params.invitedEmail,
    invitedEmailNormalized := params.invitedEmailNormalized, role := params.role,
    tokenHash := params.tokenHash, status := .pending,
    invitedByUserId := params.ctx.actorUserId, acceptedByUserId := none,
    revokedByUserId := none, expiresAt := ofMillis params.expiresAt, acceptedAt := none,
    revokedAt := none, createdAt := env.now, updatedAt := env.now }

/-- What the creation does once a seat is left. -/
def issue : Operation K (InvitationRow K) := do
  insertRow (C := catalog K) .invitations
    (insertViolation (newInvitation env organizationId params)) .unexpected
    (newInvitation env organizationId params)
  recordInvitationEvent env organizationId "invitation.created"
    (newInvitation env organizationId params) params.ctx
  return newInvitation env organizationId params

theorem bind_apply {α β : Type} (op : Operation K α) (f : α → Operation K β)
    (s : Store (catalog K)) : (op >>= f) s = (op s).bind fun r => f r.1 r.2 := rfl

theorem find_apply {t : Table} (p : Row K t → Bool) (s : Store (catalog K)) :
    (find (C := catalog K) t p : Operation K _) s = .ok (((s t).filter p).head?, s) := rfl

/-- The rest of the creation once the plan is known. -/
theorem createInvitation_eq (s : Store (catalog K)) :
    createInvitation env organizationId params s =
      match ((s .organizationPlans).filter fun (row : OrganizationPlanRow) =>
          row.organizationId = organizationId).head? with
      | none => .error planStateMissingError
      | some plan =>
          (requireQuota .maxMembers
            (((s .memberships).filter fun (row : MembershipRow K) =>
                row.organizationId = organizationId && row.status = .active).length +
              ((s .invitations).filter (isReservation organizationId env.date)).length)
            (maxMembers plan.planKey) >>= fun _ =>
          updateWhere (C := catalog K) .invitations .unexpected .unexpected
            (isStale env organizationId params) (expire env) >>= fun _ =>
          issue env organizationId params) s := by
  have hlock : lockOrganizationEntitlements organizationId s =
      match ((s .organizationPlans).filter fun (row : OrganizationPlanRow) =>
          row.organizationId = organizationId).head? with
      | none => .error planStateMissingError
      | some plan => .ok (plan.planKey, s) := by
    unfold lockOrganizationEntitlements
    rw [bind_apply, find_apply]
    cases ((s .organizationPlans).filter fun (row : OrganizationPlanRow) =>
        row.organizationId = organizationId).head? with
    | none => rfl
    | some plan => rfl
  unfold createInvitation
  rw [bind_apply, hlock]
  split
  · rfl
  · rfl

/-- The lazy expiry never fails: it frees places in the unique indexes. -/
theorem expireStale_eq (s : Stored K) :
    (updateWhere (C := catalog K) .invitations .unexpected .unexpected
        (isStale env organizationId params) (expire env) : Operation K Unit) s.rows =
      .ok ((), s.rows.updated .invitations (isStale env organizationId params) (expire env)) := by
  have hvalid : (s.rows.updated .invitations (isStale env organizationId params)
      (expire env)).Valid := by
    refine s.valid.updated fun (a b : InvitationRow K) hclash => ?_
    change clash (t := .invitations) (expire env a) b = true at hclash
    change clash (t := .invitations) a b = true
    simp only [clash, Bool.or_eq_true, Bool.and_eq_true] at hclash ⊢
    rcases hclash with hkeys | hpending
    · exact Or.inl hkeys
    · cases of_decide_eq_true hpending.1.1.1
  have hresolved : (s.rows .invitations).all fun (row : InvitationRow K) =>
      !isStale env organizationId params row || s.rows.resolves (t := .invitations)
        (expire env row) := by
    rw [List.all_eq_true]
    intro row hrow
    have hkept : s.rows.resolves (t := .invitations) (expire env row) := s.resolved _ row hrow
    rw [hkept, Bool.or_true]
  unfold updateWhere
  rw [if_pos (hvalid .invitations), if_pos hresolved]

/-- An invitation in the way of a new one. -/
def InTheWay (row : InvitationRow K) : Prop :=
  isPendingFor organizationId params row ∧ isStale env organizationId params row = false

theorem clash_newInvitation_iff (row : InvitationRow K) :
    clash (t := .invitations) (newInvitation env organizationId params) row = true ↔
      (env.rowId = row.id ∨ params.tokenHash = row.tokenHash) ∨
        isPendingFor organizationId params row := by
  unfold newInvitation isPendingFor
  simp only [clash, Bool.or_eq_true, Bool.and_eq_true, decide_eq_true_eq]
  constructor
  · rintro (hkeys | ⟨⟨⟨-, hstatus⟩, horganization⟩, hemail⟩)
    · exact Or.inl hkeys
    · exact Or.inr ⟨⟨horganization.symm, hemail.symm⟩, hstatus⟩
  · rintro (hkeys | ⟨⟨horganization, hemail⟩, hstatus⟩)
    · exact Or.inl hkeys
    · exact Or.inr ⟨⟨⟨trivial, hstatus⟩, horganization.symm⟩, hemail.symm⟩

/-- The insert reports a duplicate unless an id that was drawn is in use. -/
theorem insertViolation_eq_duplicate_iff (s : Store (catalog K)) :
    insertViolation (newInvitation env organizationId params)
        ((s .invitations).filter
          (clash (t := .invitations) (newInvitation env organizationId params))) =
      duplicatePendingInvitationError ↔ Unused env params s := by
  unfold insertViolation
  split
  · next hany =>
      obtain ⟨row, hrow, hkeys⟩ := List.any_eq_true.mp hany
      refine iff_of_false (by simp [duplicatePendingInvitationError]) fun hunused => ?_
      have hfresh := hunused row (List.mem_of_mem_filter hrow)
      rw [Bool.or_eq_true, decide_eq_true_eq, decide_eq_true_eq] at hkeys
      exact hkeys.elim hfresh.1 hfresh.2
  · next hany =>
      refine iff_of_true rfl fun row hrow => ?_
      rw [← not_or]
      intro hkeys
      refine hany (List.any_eq_true.mpr ⟨row, List.mem_filter.mpr ⟨hrow, ?_⟩, ?_⟩)
      · exact (clash_newInvitation_iff env organizationId params row).mpr
          (Or.inl (hkeys.imp Eq.symm Eq.symm))
      · rw [Bool.or_eq_true, decide_eq_true_eq, decide_eq_true_eq]
        exact hkeys

/-- An insert whose violations are not caught throws no error of the application. -/
theorem eq_unexpected_of_insert {t : Table} {row : Row K t} {s : Store (catalog K)}
    {failure : Failure} (h : insert t row s = .error failure) : failure = .unexpected := by
  unfold insert Noninterference.insertRow at h
  split at h
  · exact (Except.error.inj h).symm
  · split at h
    · cases h
    · exact (Except.error.inj h).symm

/-- The insert reports a duplicate when only the index of pending invitations rejects
the row. -/
theorem issue_eq_duplicate_iff (s : Store (catalog K)) :
    issue env organizationId params s = .error duplicatePendingInvitationError ↔
      Unused env params s ∧
        ∃ row ∈ s .invitations, isPendingFor organizationId params row := by
  unfold issue
  rw [bind_apply]
  unfold Noninterference.insertRow
  split
  · next hany =>
      obtain ⟨row, hrow, hclash⟩ := List.any_eq_true.mp hany
      change (Except.error (insertViolation (newInvitation env organizationId params) _) = _) ↔ _
      rw [Except.error.injEq, insertViolation_eq_duplicate_iff]
      refine ⟨fun hunused => ⟨hunused, row, hrow, ?_⟩, And.left⟩
      have hkeys := hunused row hrow
      exact ((clash_newInvitation_iff env organizationId params row).mp hclash).resolve_left
        fun h => h.elim (fun h => hkeys.1 h.symm) fun h => hkeys.2 h.symm
  · next hany =>
      refine iff_of_false (fun hduplicate => ?_) ?_
      · -- without a clash only a foreign key or the event can fail
        split at hduplicate
        · change ((recordInvitationEvent env organizationId "invitation.created" _ params.ctx
            _).bind fun _ => _) = _ at hduplicate
          cases hrecord : recordInvitationEvent env organizationId "invitation.created"
              (newInvitation env organizationId params) params.ctx
              (s.added .invitations (newInvitation env organizationId params)) with
          | ok answer =>
              rw [hrecord] at hduplicate
              cases hduplicate
          | error failure =>
              obtain rfl := eq_unexpected_of_insert hrecord
              rw [hrecord] at hduplicate
              cases hduplicate
        · cases hduplicate
      · rintro ⟨-, row, hrow, hpending⟩
        exact hany (List.any_eq_true.mpr ⟨row, hrow,
          (clash_newInvitation_iff env organizationId params row).mpr (Or.inr hpending)⟩)

theorem unused_updated_iff (s : Store (catalog K)) :
    Unused env params (s.updated .invitations (isStale env organizationId params) (expire env)) ↔
      Unused env params s := by
  unfold Unused Store.updated
  rw [Store.set_self, List.forall_mem_map]
  refine forall₂_congr fun row _ => ?_
  split <;> rfl

theorem pending_updated_iff (s : Store (catalog K)) :
    (∃ row ∈ s.updated .invitations (isStale env organizationId params) (expire env) .invitations,
        isPendingFor organizationId params row) ↔
      ∃ row ∈ s .invitations, InTheWay env organizationId params row := by
  unfold Store.updated
  rw [Store.set_self]
  simp only [List.mem_map, exists_exists_and_eq_and]
  refine exists_congr fun row => and_congr_right fun _ => ?_
  by_cases hstale : isStale env organizationId params row
  · simp [hstale, isPendingFor, expire, InTheWay]
  · simp [hstale, InTheWay]

/-- A creation reports a duplicate exactly when a live invitation is in the way. -/
theorem reportsDuplicate_iff (s : Stored K) :
    ReportsDuplicate env organizationId params s ↔
      SeatLeft env organizationId s.rows ∧ Unused env params s.rows ∧
        ∃ row ∈ s.rows .invitations, InTheWay env organizationId params row := by
  unfold ReportsDuplicate SeatLeft
  rw [createInvitation_eq]
  cases ((s.rows .organizationPlans).filter fun (row : OrganizationPlanRow) =>
      row.organizationId = organizationId).head? with
  | none =>
      exact iff_of_false (by simp [planStateMissingError, duplicatePendingInvitationError]) nofun
  | some plan =>
      dsimp only
      unfold requireQuota evaluateCountQuota
      rw [bind_apply]
      simp only [Option.some.injEq, exists_eq_left']
      generalize ((s.rows .memberships).filter _).length + _ = reserved
      by_cases hfull : reserved ≥ maxMembers plan.planKey
      · rw [if_pos (if_pos hfull)]
        change (Except.error (quotaExceededError _ _ _) = _) ↔ _
        exact iff_of_false (by simp [quotaExceededError, duplicatePendingInvitationError])
          fun h => not_lt.mpr hfull h.1
      · rw [if_neg (by rw [if_neg hfull]; decide)]
        change ((updateWhere _ _ _ _ _ >>= _) s.rows = _) ↔ _
        rw [bind_apply, expireStale_eq]
        change issue env organizationId params _ = _ ↔ _
        rw [issue_eq_duplicate_iff, unused_updated_iff, pending_updated_iff,
          and_iff_right (not_le.mp hfull)]

omit [LinearOrder K] in
theorem isStale_eq_false_iff {row : InvitationRow K}
    (h : isPendingFor organizationId params row) :
    isStale env organizationId params row = false ↔ env.date ≤ getTime row.expiresAt := by
  unfold isPendingFor at h
  unfold isStale getTime ofMillis
  rw [h, Bool.true_and, decide_eq_false_iff_not]
  exact not_lt.trans (Int.le_ediv_iff_mul_le (by decide)).symm

theorem pending_unique (s : Stored K) {a b : InvitationRow K} (ha : a ∈ s.rows .invitations)
    (hb : b ∈ s.rows .invitations) (hpending : isPendingFor organizationId params a)
    (hpending' : isPendingFor organizationId params b) : a = b := by
  simp only [isPendingFor, Bool.and_eq_true, decide_eq_true_eq] at hpending hpending'
  refine s.valid.eq_of_clash (t := .invitations) ha hb ?_
  change clash (t := .invitations) a b = true
  simp only [clash, hpending, hpending', decide_true, Bool.and_true, Bool.or_true]

/-- The plan and the seats, and the drawn id and token, let the creation insert. -/
def ReachesInsert (s : Stored K) : Prop :=
  SeatLeft env organizationId s.rows ∧ Unused env params s.rows

/-- A creation reports a duplicate exactly when a pending invitation could still be
accepted, as long as none expires at the present instant; where another check comes
first, as long as none could be accepted. -/
theorem duplicate_iff_acceptable_iff (s : Stored K) :
    (ReportsDuplicate env organizationId params s ↔
        ∃ row ∈ s.rows .invitations, isPendingFor organizationId params row ∧
          StillAcceptable env row) ↔
      (ReachesInsert env organizationId params s →
        ∀ row ∈ s.rows .invitations, isPendingFor organizationId params row →
          getTime row.expiresAt ≠ env.date) ∧
      (¬ ReachesInsert env organizationId params s →
        ∀ row ∈ s.rows .invitations, isPendingFor organizationId params row →
          getTime row.expiresAt ≤ env.date) := by
  rw [reportsDuplicate_iff, ← and_assoc]
  change ((ReachesInsert env organizationId params s ∧ _) ↔ _) ↔ _
  have hacceptable : ∀ row : InvitationRow K, isPendingFor organizationId params row →
      (StillAcceptable env row ↔ env.date < getTime row.expiresAt) := fun row hrow => by
    simp only [isPendingFor, Bool.and_eq_true, decide_eq_true_eq] at hrow
    exact stillAcceptable_iff env hrow.2
  by_cases hreaches : ReachesInsert env organizationId params s
  · simp only [hreaches, true_and, true_implies, not_true, false_implies, and_true]
    constructor
    · intro hagree row hrow hpending hboundary
      -- the row at the boundary is in the way, so some row is acceptable; but there is one only
      obtain ⟨other, hother, hotherPending, hotherAcceptable⟩ := hagree.mp
        ⟨row, hrow, hpending,
          (isStale_eq_false_iff env organizationId params hpending).mpr hboundary.ge⟩
      obtain rfl := pending_unique organizationId params s hrow hother hpending hotherPending
      rw [hacceptable row hpending, hboundary] at hotherAcceptable
      exact lt_irrefl _ hotherAcceptable
    · intro hclear
      refine exists_congr fun row => and_congr_right fun hrow => and_congr_right fun hpending => ?_
      rw [isStale_eq_false_iff env organizationId params hpending, hacceptable row hpending]
      exact ⟨fun h => lt_of_le_of_ne h (hclear row hrow hpending).symm, le_of_lt⟩
  · simp only [hreaches, false_and, false_iff, false_implies, not_false_iff, true_implies, true_and,
      not_exists, not_and]
    refine forall₂_congr fun row hrow => forall_congr' fun hpending => ?_
    rw [hacceptable row hpending, not_lt]

/-- An organization on the pro plan with one pending invitation, which expires at
instant 5. -/
def expiringRows : Store (catalog ℕ)
  | .users => [⟨"u", "u@mail", "u@mail", "hash", "U", .active, none, 0, 0, none⟩]
  | .organizations => [⟨"o", "O", "o", .team, .active, "u", 0, 0, none⟩]
  | .organizationPlans => [⟨"plan", "o", .pro⟩]
  | .invitations =>
      [⟨0, "o", "i@mail", "i@mail", .member, "token", .pending, "u", none, none, 5000, none, none,
        0, 0⟩]
  | _ => []

def expiring : Stored ℕ where
  rows := expiringRows
  valid t := by cases t <;> simp [expiringRows]
  resolved t := by cases t <;> decide +kernel

def atExpiry : Environment ℕ where
  now := 5000
  date := 5
  rowId := 1
  eventId := 0
  text _ := ""
  storedMetadata _ := []

def secondInvitation : CreateInvitationParams :=
  ⟨"i@mail", "i@mail", .member, "other", 10, ⟨"u", none, none⟩⟩

theorem expired_invitation_blocks :
    ¬ ∀ (env : Environment ℕ) (organizationId : String) (params : CreateInvitationParams)
        (s : Stored ℕ),
      ReportsDuplicate env organizationId params s ↔
        ∃ row ∈ s.rows .invitations, isPendingFor organizationId params row ∧
          StillAcceptable env row := by
  intro h
  have hreports : ReportsDuplicate atExpiry "o" secondInvitation expiring := by
    rfl
  obtain ⟨row, hrow, hpending, hacceptable⟩ := (h _ _ _ _).mp hreports
  obtain rfl := List.mem_singleton.mp hrow
  exact nomatch hacceptable fun _ => []

end Orgistry.Repositories.InvitationRepository
