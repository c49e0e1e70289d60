import Orgistry.Organizations.InvitationMachines

/-!
# Rows that both invitation repositories hold

Every call keeps the rows of the database consistent, and a query of consistent rows reads
in memory what it reads in the database.
-/

namespace Orgistry.Repositories.InvitationRepository

open Keyset Model Noninterference Transitions

variable {K : Type} [LinearOrder K] {s : Store (catalog K)}

omit [LinearOrder K] in
theorem refs_table {t : Table} {row : Row K t} {ref : (t : Table) × (Row K t → Bool)}
    (h : ref ∈ rowRefs row) : ref.1 = .users ∨ ref.1 = .organizations := by
  rcases List.mem_append.mp h with horganization | huser
  · obtain ⟨organizationId, -, rfl⟩ := List.mem_map.mp horganization
    exact Or.inr rfl
  · obtain ⟨userId, -, rfl⟩ := List.mem_map.mp huser
    exact Or.inl rfl

/-- Nothing refers to the other tables. -/
theorem resolves_set {t : Table} (husers : t ≠ .users) (horganizations : t ≠ .organizations)
    (rows : List (Row K t)) {t' : Table} (row : Row K t') :
    (s.set t rows).resolves row = s.resolves row := by
  unfold Store.resolves
  rw [Bool.eq_iff_iff, List.all_eq_true, List.all_eq_true]
  refine forall₂_congr fun ref href => ?_
  have hne : ref.1 ≠ t := by
    rcases refs_table href with htable | htable
    · exact htable.trans_ne husers.symm
    · exact htable.trans_ne horganizations.symm
  rw [Store.set_of_ne s rows hne]

theorem Consistent.updated (h : Consistent s) {p : InvitationRow K → Bool}
    {f : InvitationRow K → InvitationRow K} (hexpiry : ∀ row, (f row).expiresAt = row.expiresAt)
    (hvalid : (s.updated .invitations p f .invitations).Pairwise fun a b =>
      clash (t := .invitations) a b = false)
    (hresolved : ∀ row : InvitationRow K, row ∈ s .invitations → p row →
      s.resolves (t := .invitations) (f row)) :
    Consistent (s.updated .invitations p f) where
  valid t := by
    by_cases ht : t = .invitations
    · subst ht
      exact hvalid
    · rw [Store.updated, Store.set_of_ne _ _ ht]
      exact h.valid t
  resolved t row hrow := by
    rw [Store.updated, resolves_set (by decide) (by decide)]
    by_cases ht : t = .invitations
    · subst ht
      rw [Store.updated, Store.set_self, List.mem_map] at hrow
      obtain ⟨old, hold, rfl⟩ := hrow
      split
      · next hp => exact hresolved old hold hp
      · exact h.resolved _ old hold
    · rw [Store.updated, Store.set_of_ne _ _ ht] at hrow
      exact h.resolved t row hrow
  expiry row hrow := by
    rw [Store.updated, Store.set_self, List.mem_map] at hrow
    obtain ⟨old, hold, rfl⟩ := hrow
    split
    · rw [hexpiry]
      exact h.expiry old hold
    · exact h.expiry old hold

theorem Consistent.added (h : Consistent s) {t : Table} (husers : t ≠ .users)
    (horganizations : t ≠ .organizations) {row : Row K t}
    (hclash : ∀ other ∈ s t, clash row other = false) (hresolves : s.resolves row)
    (hexpiry : ∀ other : InvitationRow K, other ∈ s.added t row .invitations →
      other ∈ s .invitations ∨ toDate other.expiresAt = other.expiresAt) :
    Consistent (s.added t row) where
  valid := h.valid.added hclash
  resolved t' other hother := by
    rw [Store.added, resolves_set husers horganizations]
    by_cases ht : t' = t
    · subst ht
      rw [Store.added, Store.set_self, List.mem_append, List.mem_singleton] at hother
      rcases hother with hold | rfl
      · exact h.resolved _ other hold
      · exact hresolves
    · rw [Store.added, Store.set_of_ne _ _ ht] at hother
      exact h.resolved t' other hother
  expiry other hother := (hexpiry other hother).elim (h.expiry other) id

theorem keeps_updateInvitations {violation dangling : Failure} {p : InvitationRow K → Bool}
    {f : InvitationRow K → InvitationRow K}
    (hexpiry : ∀ row, (f row).expiresAt = row.expiresAt) :
    Keeps Consistent (updateWhere (C := catalog K) .invitations violation dangling p f) := by
  intro s a s' hs h
  obtain ⟨rfl, hvalid, hresolved⟩ := updateWhere_eq_ok h
  exact hs.updated hexpiry hvalid hresolved

theorem keeps_insertInvitation {violation : List (InvitationRow K) → Failure} {dangling : Failure}
    {row : InvitationRow K} (hexpiry : toDate row.expiresAt = row.expiresAt) :
    Keeps Consistent (insertRow (C := catalog K) .invitations violation dangling row) := by
  intro s a s' hs h
  obtain ⟨rfl, hclash, hresolves⟩ := insertRow_eq_ok h
  refine hs.added (by decide) (by decide) hclash hresolves fun other hother => ?_
  rw [Store.added, Store.set_self, List.mem_append, List.mem_singleton] at hother
  exact hother.imp id fun heq => by rw [heq, hexpiry]

theorem keeps_insert {t : Table} (husers : t ≠ .users) (horganizations : t ≠ .organizations)
    (hinvitations : t ≠ .invitations) {violation : List (Row K t) → Failure} {dangling : Failure}
    {row : Row K t} : Keeps Consistent (insertRow (C := catalog K) t violation dangling row) := by
  intro s a s' hs h
  obtain ⟨rfl, hclash, hresolves⟩ := insertRow_eq_ok h
  refine hs.added husers horganizations hclash hresolves fun other hother => ?_
  rw [Store.added, Store.set_of_ne _ _ hinvitations.symm] at hother
  exact Or.inl hother

variable (env : Environment K) (organizationId : String)

theorem keeps_lockOrganizationEntitlements :
    Keeps Consistent (lockOrganizationEntitlements organizationId : Operation K PlanKey) := by
  unfold lockOrganizationEntitlements
  refine keeps_bind (keeps_query _) fun row => ?_
  cases row with
  | none => exact keeps_throw _
  | some row => exact keeps_pure _

theorem keeps_requireQuota {quota : EntitlementKey} {current limit : ℕ} :
    Keeps Consistent (requireQuota quota current limit : Operation K Unit) := by
  unfold requireQuota
  split
  · exact keeps_throw _
  · exact keeps_pure _

theorem keeps_assertAcceptable {invitation : InvitationRow K} {now : Millis} :
    Keeps Consistent (assertAcceptable invitation now) := by
  unfold assertAcceptable
  split
  · exact keeps_throw _
  · split
    · exact keeps_throw _
    · split
      · exact keeps_throw _
      · exact keeps_pure _

theorem keeps_recordEvent {eventType : String} {metadata : List (String × MetadataValue)}
    {actorUserId : String} {requestId : Option String} :
    Keeps Consistent
      (recordEvent env organizationId eventType metadata actorUserId requestId) := by
  unfold recordEvent insert
  exact keeps_insert (by decide) (by decide) (by decide)

theorem keeps_createInvitation (params : CreateInvitationParams) :
    Keeps Consistent (createInvitation env organizationId params) := by
  unfold createInvitation
  refine keeps_bind (keeps_lockOrganizationEntitlements _) fun planKey => ?_
  refine keeps_bind (keeps_query _) fun members => keeps_bind (keeps_query _) fun pending => ?_
  refine keeps_bind keeps_requireQuota fun _ => ?_
  refine keeps_bind (keeps_updateInvitations fun _ => rfl) fun _ => ?_
  refine keeps_bind (keeps_insertInvitation (toDate_ofMillis _)) fun _ => ?_
  exact keeps_bind (keeps_recordEvent env _) fun _ => keeps_pure _

theorem keeps_revokeInvitation (params : RevokeInvitationParams K) :
    Keeps Consistent (revokeInvitation env organizationId params) := by
  unfold revokeInvitation
  refine keeps_bind (keeps_query _) fun invitation => ?_
  cases invitation with
  | none => exact keeps_throw _
  | some invitation =>
      refine keeps_bind keeps_assertAcceptable fun _ => ?_
      refine keeps_bind (keeps_updateInvitations fun _ => rfl) fun _ => ?_
      exact keeps_recordEvent env _

theorem keeps_findAcceptable (params : AcceptInvitationParams K) :
    Keeps Consistent (findAcceptable env params) := by
  unfold findAcceptable
  refine keeps_bind (keeps_query _) fun preRead => ?_
  cases preRead with
  | none => exact keeps_throw _
  | some preRead =>
      refine keeps_bind (keeps_lockOrganizationEntitlements _) fun planKey => ?_
      refine keeps_bind (keeps_query _) fun invitation => ?_
      cases invitation with
      | none => exact keeps_throw _
      | some invitation =>
          refine keeps_bind keeps_assertAcceptable fun _ => ?_
          split
          · exact keeps_throw _
          · refine keeps_bind (keeps_query _) fun membership => ?_
            cases membership with
            | some membership => exact keeps_throw _
            | none =>
                refine keeps_bind (keeps_query _) fun activeMembers => ?_
                split
                · exact keeps_throw _
                · exact keeps_pure _

theorem keeps_acceptFound (secondEventId : K) (params : AcceptInvitationParams K)
    (invitation : InvitationRow K) :
    Keeps Consistent (acceptFound env secondEventId params invitation) := by
  unfold acceptFound
  refine keeps_bind (keeps_query _) fun organization => ?_
  cases organization with
  | none => exact keeps_throw _
  | some organization =>
      refine keeps_bind (keeps_insert (by decide) (by decide) (by decide)) fun _ => ?_
      refine keeps_bind (keeps_updateInvitations fun _ => rfl) fun _ => ?_
      refine keeps_bind (keeps_recordEvent env _) fun _ => ?_
      exact keeps_bind (keeps_recordEvent _ _) fun _ => keeps_pure _

theorem Consistent.committed {α : Type} {op : Operation K α} {answer : α → Answer K}
    (hs : Consistent s) (hop : Keeps Consistent op) : Consistent (committed op answer s).2 := by
  unfold InvitationRepository.committed
  split
  · next a s' h => exact hop s a s' hs h
  · exact hs

/-- Every call leaves consistent rows. -/
theorem Consistent.databaseStep (hs : Consistent s) (call : Call K) :
    Consistent (databaseStep s call).2 := by
  unfold InvitationRepository.databaseStep
  split
  · exact hs.committed (keeps_createInvitation _ _ _)
  · exact hs.committed (keeps_revokeInvitation _ _ _)
  · exact hs.committed (keeps_bind (keeps_findAcceptable _ _) fun _ => keeps_acceptFound _ _ _ _)
  · exact hs.committed (keeps_query _)
  · exact hs.committed (keeps_query _)
  · exact hs.committed (keeps_query _)

theorem remembered_updated (p : InvitationRow K → Bool) (f : InvitationRow K → InvitationRow K) :
    remembered (s.updated .invitations p f) =
      { remembered s with
        invitations := (s .invitations).map fun (row : InvitationRow K) =>
          (if p row then f row else row).dates } := by
  unfold remembered
  rw [Store.updated, Store.set_self, List.map_map]
  rfl

theorem remembered_addInvitation (row : InvitationRow K) :
    remembered (s.added .invitations row) =
      { remembered s with invitations := (remembered s).invitations ++ [row.dates] } := by
  unfold remembered
  rw [Store.added, Store.set_self, List.map_append]
  rfl

theorem remembered_addMembership (row : MembershipRow K) :
    remembered (s.added .memberships row) =
      { remembered s with memberships := (remembered s).memberships ++ [row.dates] } := by
  unfold remembered
  rw [Store.added, Store.set_self, List.map_append]
  rfl

theorem remembered_addEvent (row : SecurityEvent K) :
    remembered (s.added .securityEvents row) =
      { remembered s with securityEvents := (remembered s).securityEvents ++ [.of row] } := by
  unfold remembered
  rw [Store.added, Store.set_self, List.map_append]
  rfl

/-- A filter that reads a mapped list as another one reads the list itself. -/
theorem filter_map_eq {α β : Type} {f : α → β} {p : α → Bool} {q : β → Bool} {l : List α}
    (h : ∀ a ∈ l, q (f a) = p a) : (l.map f).filter q = (l.filter p).map f := by
  rw [List.filter_map]
  exact congrArg (List.map f) (List.filter_congr h)

theorem find?_map_eq {α β : Type} {f : α → β} {p : α → Bool} {q : β → Bool} {l : List α}
    (h : ∀ a ∈ l, q (f a) = p a) : (l.map f).find? q = ((l.filter p).head?).map f := by
  rw [← List.head?_filter, filter_map_eq h, List.head?_map]

theorem getTime_lt_iff {t : Timestamp} (h : toDate t = t) (now : Millis) :
    getTime t < now ↔ t < ofMillis now := by
  rw [← h, toDate, getTime_ofMillis, ofMillis, ofMillis]
  exact (Int.mul_lt_mul_right (by decide)).symm

theorem lt_getTime_iff {t : Timestamp} (h : toDate t = t) (now : Millis) :
    now < getTime t ↔ ofMillis now < t := by
  rw [← h, toDate, getTime_ofMillis, ofMillis, ofMillis]
  exact (Int.mul_lt_mul_right (by decide)).symm

omit [LinearOrder K] in
theorem isExpired_dates {row : InvitationRow K} (h : toDate row.expiresAt = row.expiresAt)
    (now : Millis) :
    (!InMemory.isExpired row.dates now) = decide (ofMillis now < row.expiresAt) := by
  rw [Bool.eq_iff_iff, decide_eq_true_eq, ← lt_getTime_iff h, ← not_le, InMemory.isExpired,
    InvitationRow.dates, getTime_toDate, Bool.not_eq_true', decide_eq_false_iff_not]

omit [LinearOrder K] in
theorem isLive_dates {organizationId : String} {row : InvitationRow K} {now : Millis}
    (h : toDate row.expiresAt = row.expiresAt) :
    InMemory.isLive organizationId now row.dates = isReservation organizationId now row := by
  rw [InMemory.isLive, isReservation, isExpired_dates h]
  rfl

/-! ## Queries -/

/-- Agreement is a statement about the method in memory. -/
theorem agree_of_memory (hs : Consistent s) {call : Call K}
    (h : memoryStep (remembered s) call =
      ((databaseStep s call).1, remembered (databaseStep s call).2)) :
    Agree databaseStep memoryStep Related s (remembered s) call :=
  ⟨(congrArg Prod.fst h).symm, hs.databaseStep call, congrArg Prod.snd h⟩

theorem countPending_memory (hs : Consistent s) (env : Environment K) (organizationId : String) :
    answered (InMemory.countPendingInvitations env organizationId) .count (remembered s) =
      (.ok (.count ((s .invitations).filter (isReservation organizationId env.date)).length),
        remembered s) := by
  have hlive : ∀ row ∈ s .invitations, InMemory.isLive organizationId env.date row.dates =
      isReservation organizationId env.date row := fun row hrow =>
    isLive_dates (hs.expiry row hrow)
  have hfilter := filter_map_eq hlive
  rw [answered, InMemory.countPendingInvitations, remembered, hfilter, List.length_map]
  rfl

/-- Both repositories find the same pending invitation. -/
theorem findPending_memory (hs : Consistent s) (env : Environment K)
    (organizationId invitedEmailNormalized : String) :
    answered (InMemory.findPendingInvitation env organizationId invitedEmailNormalized) .found
        (remembered s) =
      (.ok (.found ((((s .invitations).filter fun (row : InvitationRow K) =>
        isReservation organizationId env.date row &&
          row.invitedEmailNormalized = invitedEmailNormalized).head?).map InvitationRow.dates)),
        remembered s) := by
  have hfind := find?_map_eq (f := InvitationRow.dates) (l := s .invitations)
    (p := fun row => isReservation organizationId env.date row &&
      row.invitedEmailNormalized = invitedEmailNormalized)
    (q := fun row => InMemory.isPending organizationId invitedEmailNormalized row &&
      !InMemory.isExpired row env.date) fun row hrow => by
    rw [InMemory.isPending, isReservation, isExpired_dates (hs.expiry row hrow)]
    dsimp only [InvitationRow.dates]
    ac_rfl
  rw [answered, InMemory.findPendingInvitation, remembered, hfind]
  rfl

theorem ids_nodup (hs : Consistent s) :
    ((s .invitations).map fun (row : InvitationRow K) => row.id).Nodup :=
  hs.valid.nodup_map (t := .invitations) fun a b h => by
    change clash (t := .invitations) a b = true
    simp only [clash, h, decide_true, Bool.true_or]

theorem id_unique (hs : Consistent s) {a b : InvitationRow K} (ha : a ∈ s .invitations)
    (hb : b ∈ s .invitations) (h : a.id = b.id) : a = b := by
  refine hs.valid.eq_of_clash (t := .invitations) ha hb ?_
  change clash (t := .invitations) a b = true
  simp only [clash, h, decide_true, Bool.true_or]

/-- The order by the milliseconds and the ids is the one by the columns. -/
theorem newestFirst_dates {rows : List (InvitationRow K)}
    (hids : (rows.map InvitationRow.id).Nodup)
    (horder : ∀ a ∈ rows, ∀ b ∈ rows, getTime a.createdAt = getTime b.createdAt →
      a.createdAt < b.createdAt → a.id < b.id) :
    newestFirst (fun row => getTime row.createdAt) InvitationRow.id
        (rows.map InvitationRow.dates) =
      (newestFirst InvitationRow.createdAt InvitationRow.id rows).map InvitationRow.dates := by
  have hperm := List.perm_insertionSort (NotOlder InvitationRow.createdAt InvitationRow.id) rows
  have hmapped : ((rows.map InvitationRow.dates).map InvitationRow.id).Nodup := by
    rw [List.map_map]
    exact hids
  have hordered : ((newestFirst InvitationRow.createdAt InvitationRow.id rows).map
      InvitationRow.dates).Pairwise
        (Newer (fun row => getTime row.createdAt) InvitationRow.id) := by
    rw [List.pairwise_map]
    refine (pairwise_newestFirst hids).imp_of_mem fun {a b} ha hb hnewer => ?_
    have ha' := hperm.mem_iff.mp ha
    have hb' := hperm.mem_iff.mp hb
    change getTime (toDate b.createdAt) < getTime (toDate a.createdAt) ∨
      getTime (toDate a.createdAt) = getTime (toDate b.createdAt) ∧ b.id < a.id
    rw [getTime_toDate, getTime_toDate]
    rcases hnewer with hlater | ⟨hsame, hid⟩
    · have hle : getTime b.createdAt ≤ getTime a.createdAt := Int.ediv_le_ediv (by decide) hlater.le
      rcases hle.lt_or_eq with hlt | heq
      · exact Or.inl hlt
      · exact Or.inr ⟨heq.symm, horder b hb' a ha' heq hlater⟩
    · exact Or.inr ⟨congrArg getTime hsame, hid⟩
  exact eq_of_newer ((List.perm_insertionSort _ _).trans (hperm.map _).symm)
    (pairwise_newestFirst hmapped) hordered

/-- In memory the instants are those of dates, in whole milliseconds. -/
theorem afterCursor_dates {cursor : Option (ListCursor K)} {row : InvitationRow K}
    (h : ∀ cursor' ∈ cursor, getTime row.createdAt = cursor'.createdAtMs → row.id < cursor'.id →
      row.createdAt = ofMillis cursor'.createdAtMs) :
    InMemory.afterCursor cursor row.dates = cursorClause cursor row.createdAt row.id := by
  cases cursor with
  | none => rfl
  | some cursor =>
      have hbefore : getTime row.createdAt < cursor.createdAtMs ↔
          row.createdAt < ofMillis cursor.createdAtMs :=
        Int.ediv_lt_iff_lt_mul (by decide)
      have hat : getTime row.createdAt = cursor.createdAtMs ∧ row.id < cursor.id ↔
          row.createdAt = ofMillis cursor.createdAtMs ∧ row.id < cursor.id := by
        refine and_congr_left fun hid => ⟨fun hsame => h cursor rfl hsame hid, fun hsame => ?_⟩
        rw [hsame, getTime_ofMillis]
      rw [InMemory.afterCursor, cursorClause, Option.all_some, Option.all_some, Bool.eq_iff_iff]
      simp only [Bool.or_eq_true, Bool.and_eq_true, decide_eq_true_eq, ← hbefore, ← hat]
      dsimp only [InvitationRow.dates]
      rw [getTime_toDate]

/-- Both repositories list the same page. -/
theorem list_memory (hs : Consistent s) {organizationId : String} {params : ListParams K}
    (hallowed : ListAgrees organizationId params s) :
    answered (InMemory.listInvitations organizationId params) .page (remembered s) =
      (.ok (.page (((newestFirst InvitationRow.createdAt InvitationRow.id
        ((s .invitations).filter fun (row : InvitationRow K) =>
          row.organizationId = organizationId &&
            cursorClause params.cursor row.createdAt row.id)).take (params.limit.value + 1)).map
              InvitationRow.dates)), remembered s) := by
  have hids : (((remembered s).invitations.filter fun row =>
      row.organizationId = organizationId).map InvitationRow.id).Nodup := by
    refine (List.filter_sublist.map InvitationRow.id).nodup ?_
    rw [remembered, List.map_map]
    exact ids_nodup hs
  have hfilter : (remembered s).invitations.filter (fun row =>
        InMemory.afterCursor params.cursor row && row.organizationId = organizationId) =
      ((s .invitations).filter fun (row : InvitationRow K) =>
        row.organizationId = organizationId &&
          cursorClause params.cursor row.createdAt row.id).map InvitationRow.dates := by
    refine filter_map_eq fun row hrow => ?_
    by_cases horganization : row.organizationId = organizationId
    · rw [afterCursor_dates fun cursor hcursor =>
        hallowed.cursor row hrow horganization cursor hcursor, Bool.and_comm]
      rfl
    · have hother : decide (row.dates.organizationId = organizationId) = false :=
        decide_eq_false horganization
      rw [hother, decide_eq_false horganization, Bool.and_false, Bool.false_and]
  have hrows : ∀ row ∈ (s .invitations).filter fun (row : InvitationRow K) =>
      row.organizationId = organizationId && cursorClause params.cursor row.createdAt row.id,
      row ∈ s .invitations ∧ row.organizationId = organizationId ∧
        cursorClause params.cursor row.createdAt row.id := by
    intro row hrow
    obtain ⟨hmem, hkept⟩ := List.mem_filter.mp hrow
    rw [Bool.and_eq_true, decide_eq_true_eq] at hkept
    exact ⟨hmem, hkept⟩
  have hordered := newestFirst_dates ((List.filter_sublist.map InvitationRow.id).nodup
    (ids_nodup hs)) fun a ha b hb => hallowed.order a b (hrows a ha).1 (hrows b hb).1
      (hrows a ha).2.1 (hrows b hb).2.1 (hrows a ha).2.2 (hrows b hb).2.2
  rw [answered, InMemory.listInvitations]
  dsimp only
  rw [← newestFirst_filter hids, List.filter_filter, hfilter, hordered, List.map_take]
  rfl

end Orgistry.Repositories.InvitationRepository
