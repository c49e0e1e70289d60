import Mathlib.Data.String.Basic
import Orgistry.Noninterference.Twins
import Orgistry.Repositories.Operations

/-!
# Tenants do not see each other

An operation that is called for an organization reads the same from two stores
that differ in the rows of other organizations, and changes none of these rows.
What it cannot help is a row of another organization that already has the id, the
token hash or the key hash of a row that it inserts.
-/

namespace Orgistry.Repositories

open Keyset Model Noninterference

variable {K : Type} [LinearOrder K] {α β : Type}

/-- The row is one of the organization. -/
def belongsTo (organizationId : String) : {t : Table} → Row K t → Bool
  | .users, _ => false
  | .organizations, row => row.id = organizationId
  | .organizationPlans, row => row.organizationId = organizationId
  | .memberships, row => row.organizationId = organizationId
  | .projects, row => row.organizationId = organizationId
  | .apiKeys, row => row.organizationId = organizationId
  | .invitations, row => row.organizationId = organizationId
  | .securityEvents, row => row.organizationId = some organizationId

omit [LinearOrder K] in
/-- A row refers to no other organization than its own. -/
theorem organizationColumn_eq {t : Table} {row : Row K t} {organizationId id : String}
    (hrow : belongsTo organizationId row) (hid : organizationColumn row = some id) :
    id = organizationId := by
  cases t <;> simp_all [belongsTo, organizationColumn]

/-- An organization sees its rows and all users. -/
def tenant (organizationId : String) : Tenant (catalog K) where
  owns := belongsTo organizationId
  common t := t = Table.users
  refs_seen {t} row howns ref href target htarget := by
    rcases List.mem_append.mp href with horganization | huser
    · obtain ⟨id, hid, rfl⟩ := List.mem_map.mp horganization
      obtain rfl := organizationColumn_eq howns (Option.mem_toList.mp hid)
      exact .inr htarget
    · obtain ⟨userId, -, rfl⟩ := List.mem_map.mp huser
      exact .inl rfl

/-- The organization-scoped operations with their parameters, by what they answer. -/
inductive Call (K : Type) : Type → Type
  | listActiveProjects (params : ListParams K) : Call K (List (Project K))
  | createProject (params : ProjectRepository.CreateProjectParams) : Call K (Project K)
  | findActiveProject (projectId : K) : Call K (Option (Project K))
  | updateProject (params : ProjectRepository.UpdateProjectParams K) : Call K (Project K)
  | softDeleteProject (params : ProjectRepository.SoftDeleteProjectParams K) : Call K Unit
  | createApiKey (params : ApiKeyRepository.CreateApiKeyParams) : Call K (ApiKeyRow K)
  | listApiKeys (params : ListParams K) : Call K (List (ApiKeyRow K))
  | revokeApiKey (params : ApiKeyRepository.RevokeApiKeyParams K) :
      Call K (ApiKeyRepository.RevokeApiKeyResult K)
  | createInvitation (params : InvitationRepository.CreateInvitationParams) :
      Call K (InvitationRow K)
  | listInvitations (params : ListParams K) : Call K (List (InvitationRow K))
  | revokeInvitation (params : InvitationRepository.RevokeInvitationParams K) : Call K Unit
  | findPendingInvitation (invitedEmailNormalized : String) :
      Call K (Option (InvitationRow K))
  | hasActiveMemberWithEmail (invitedEmailNormalized : String) : Call K Bool
  | countPendingInvitations : Call K ℕ
  | findOrganizationById : Call K (Option OrganizationRow)
  | findActiveMembership (userId : String) : Call K (Option (MembershipRow K))
  | listActiveMembers (params : ListParams K) : Call K (List (MemberView K))
  | changeMemberRole (params : OrganizationRepository.ChangeMemberRoleParams K) :
      Call K (MemberView K)
  | removeMember (params : OrganizationRepository.RemoveMemberParams K) : Call K (MemberView K)
  | listAuditEvents (params : AuditFilters K) : Call K (List (SecurityEvent K))

/-- The operation for an organization. -/
def Call.run (env : Environment K) (organizationId : String) :
    {α : Type} → Call K α → Operation K α
  | _, .listActiveProjects params =>
      ProjectRepository.listActiveProjects organizationId params
  | _, .createProject params => ProjectRepository.createProject env organizationId params
  | _, .findActiveProject projectId =>
      ProjectRepository.findActiveProject organizationId projectId
  | _, .updateProject params => ProjectRepository.updateProject env organizationId params
  | _, .softDeleteProject params =>
      ProjectRepository.softDeleteProject env organizationId params
  | _, .createApiKey params => ApiKeyRepository.createApiKey env organizationId params
  | _, .listApiKeys params => ApiKeyRepository.listApiKeys organizationId params
  | _, .revokeApiKey params => ApiKeyRepository.revokeApiKey env organizationId params
  | _, .createInvitation params =>
      InvitationRepository.createInvitation env organizationId params
  | _, .listInvitations params => InvitationRepository.listInvitations organizationId params
  | _, .revokeInvitation params =>
      InvitationRepository.revokeInvitation env organizationId params
  | _, .findPendingInvitation email =>
      InvitationRepository.findPendingInvitation env organizationId email
  | _, .hasActiveMemberWithEmail email =>
      InvitationRepository.hasActiveMemberWithEmail organizationId email
  | _, .countPendingInvitations =>
      InvitationRepository.countPendingInvitations env organizationId
  | _, .findOrganizationById => OrganizationRepository.findOrganizationById organizationId
  | _, .findActiveMembership userId =>
      OrganizationRepository.findActiveMembership userId organizationId
  | _, .listActiveMembers params =>
      OrganizationRepository.listActiveMembers organizationId params
  | _, .changeMemberRole params =>
      OrganizationRepository.changeMemberRole env organizationId params
  | _, .removeMember params => OrganizationRepository.removeMember env organizationId params
  | _, .listAuditEvents params => AuditRepository.listAuditEvents organizationId params

/-- Whether the operation records an event. -/
def Call.recordsEvent : Call K α → Bool
  | .createProject _ | .updateProject _ | .softDeleteProject _ => true
  | .createApiKey _ | .revokeApiKey _ => true
  | .createInvitation _ | .revokeInvitation _ => true
  | .changeMemberRole _ | .removeMember _ => true
  | _ => false

/-- The row already has an id or a hash that the operation inserts a row with. -/
def Call.takenBy (env : Environment K) (call : Call K α) : {t : Table} → Row K t → Bool
  | .projects, row =>
      match call with
      | .createProject _ => row.id = env.rowId
      | _ => false
  | .apiKeys, row =>
      match call with
      | .createApiKey params => row.id = env.rowId || row.secretHash = params.secretHash
      | _ => false
  | .invitations, row =>
      match call with
      | .createInvitation params => row.id = env.rowId || row.tokenHash = params.tokenHash
      | _ => false
  | .securityEvents, row => call.recordsEvent && row.id = env.eventId
  | _, _ => false

section Statements

variable {O : String} {Spare : {t : Table} → Row K t → Prop} {env : Environment K}
  {Pre : Store (catalog K) → Prop} {Post : Store (catalog K) → Prop}

/-- Own rows are visible. -/
theorem sees_of_belongsTo {t : Table} {row : Row K t} (h : belongsTo O row) :
    (tenant O).sees row :=
  Tenant.sees_of_owns (T := tenant O) h

theorem isolated_listing {t : Table} {time : Row K t → Timestamp} {id : Row K t → K}
    {p : Row K t → Bool} {n : ℕ} (hid : ∀ a b : Row K t, id a = id b → clash a b = true)
    (hscope : ∀ row, p row → belongsTo O row) :
    Isolated (tenant O) Spare Pre
      (query fun s => (newestFirst time id ((s t).filter p)).take n : Operation K _)
      fun _ => Pre := by
  refine isolated_query fun s s' htwins => ?_
  have hperm := htwins.filter_perm (t := t) fun row hp => sees_of_belongsTo (hscope row hp)
  have hids : (((s t).filter p).map id).Nodup :=
    (List.filter_sublist.map id).nodup (htwins.valid.nodup_map hid)
  rw [newestFirst_perm hperm hids]

theorem isolated_lockOrganizationEntitlements :
    Isolated (tenant O) Spare Pre (lockOrganizationEntitlements O : Operation K PlanKey)
      fun _ => Pre := by
  refine isolated_bind_find_scoped (C := catalog K) (t := .organizationPlans) ?_ ?_
    (isolated_throw _) ?_
  · intro a b ha hb
    simp_all [clash]
  · intro row hrow
    exact sees_of_belongsTo hrow
  · exact fun row _ => isolated_pure _ fun s hs => hs.1

theorem isolated_requireQuota {quota : EntitlementKey} {current limit : ℕ} :
    Isolated (tenant O) Spare Pre (requireQuota quota current limit : Operation K Unit)
      fun _ => Pre :=
  isolated_ite (isolated_throw _) (isolated_pure _ fun _ hs => hs)

/-- An inserted row gets into nobody's way. -/
theorem isolated_insert {t : Table} {row : Row K t} (hrow : belongsTo O row)
    (hspare : ∀ other : Row K t, Spare other → ¬belongsTo O other → clash row other = false)
    (hpost : ∀ s, Pre s → Post (s.added t row)) :
    Isolated (tenant O) Spare Pre (insert t row) fun _ => Post :=
  isolated_insertRow hrow
    (fun other hother hsees => hspare other hother (mt sees_of_belongsTo hsees))
    (fun _ _ _ => rfl) hpost

theorem isolated_recordEvent {eventType : String} {metadata : List (String × MetadataValue)}
    {actorUserId : String} {requestId : Option String}
    (hspare : ∀ row : SecurityEvent K, Spare (t := .securityEvents) row → row.id ≠ env.eventId)
    (hpost : ∀ s row, Pre s → Post (s.added Table.securityEvents row)) :
    Isolated (tenant O) Spare Pre (recordEvent env O eventType metadata actorUserId requestId)
      fun _ => Post := by
  refine isolated_insert (t := .securityEvents) (by simp [belongsTo]) ?_ fun s => hpost s _
  intro other hother _
  simpa [clash] using (hspare other hother).symm

/-- An update of one own row by its id. -/
theorem isolated_updateById {t : Table} {selects : Row K t → Bool} {assign : Row K t → Row K t}
    {target : Row K t} (htarget : belongsTo O target)
    (hselects : selects target ∧ ∀ row, selects row → clash row target = true)
    (hassign : ∀ row, belongsTo O row → belongsTo O (assign row))
    (hclash : ∀ a b, clash (assign a) b = true → clash a b = true) :
    Isolated (tenant O) Spare (fun s => target ∈ s t) (updateById t selects assign)
      fun _ s => assign target ∈ s t := by
  refine isolated_updateWhere ?_ hassign hclash ?_
  · intro s hvalid hmem row hrow hp
    rw [hvalid.eq_of_clash hrow hmem (hselects.2 row hp)]
    exact htarget
  · exact fun s hmem => mem_updated.mpr ⟨target, hmem, if_pos hselects.1⟩

end Statements

section Operations

variable {O : String} {Spare : {t : Table} → Row K t → Prop} {env : Environment K}

theorem isolated_findActiveProject_bind {projectId : K} {Post : β → Store (catalog K) → Prop}
    {k : Option (Project K) → Operation K β}
    (hnone : Isolated (tenant O) Spare (fun _ => True) (k none) Post)
    (hsome : ∀ target : Project K, belongsTo (t := .projects) O target →
      Isolated (tenant O) Spare (fun s => target ∈ s Table.projects) (k (some target)) Post) :
    Isolated (tenant O) Spare (fun _ => True)
      (ProjectRepository.findActiveProject O projectId >>= k) Post := by
  refine isolated_bind_find_scoped (C := catalog K) (t := .projects) ?_ ?_ hnone ?_
  · intro a b ha hb
    simp_all [clash]
  · intro row hrow
    exact sees_of_belongsTo (by simp_all [ProjectRepository.isActive, belongsTo])
  · intro row hrow
    refine (hsome row ?_).consequence (fun s hs => hs.2) fun _ _ hpost => hpost
    simp_all [ProjectRepository.isActive, belongsTo]

theorem isolated_createProject {params : ProjectRepository.CreateProjectParams}
    (hspare : ∀ row : Project K, Spare (t := .projects) row → row.id ≠ env.rowId)
    (hevent : ∀ row : SecurityEvent K, Spare (t := .securityEvents) row → row.id ≠ env.eventId) :
    Isolated (tenant O) Spare (fun _ => True) (ProjectRepository.createProject env O params)
      fun _ _ => True := by
  refine isolated_bind isolated_lockOrganizationEntitlements fun planKey => ?_
  refine isolated_bind (isolated_countWhere ?_) fun active => ?_
  · intro row hrow
    exact sees_of_belongsTo (by simp_all [ProjectRepository.isActive, belongsTo])
  refine isolated_bind isolated_requireQuota fun _ => ?_
  refine isolated_bind_forget (isolated_insert (t := .projects) ?_ ?_ fun _ _ => trivial)
    fun _ => ?_
  · simp [belongsTo]
  · intro other hother _
    simpa [clash] using (hspare other hother).symm
  exact isolated_bind_forget (isolated_recordEvent hevent fun _ _ _ => trivial)
    fun _ => isolated_pure _ fun _ _ => trivial

theorem isolated_updateProject {params : ProjectRepository.UpdateProjectParams K}
    (hevent : ∀ row : SecurityEvent K, Spare (t := .securityEvents) row → row.id ≠ env.eventId) :
    Isolated (tenant O) Spare (fun _ => True) (ProjectRepository.updateProject env O params)
      fun _ _ => True := by
  refine isolated_findActiveProject_bind (isolated_throw _) fun target htarget => ?_
  refine isolated_bind (isolated_updateById htarget ?_ ?_ ?_) fun _ => ?_
  · simp [clash]
  · exact fun row hrow => hrow
  · exact fun a b hab => hab
  exact isolated_bind_forget (isolated_recordEvent hevent fun _ _ _ => trivial)
    fun _ => isolated_pure _ fun _ _ => trivial

theorem isolated_softDeleteProject {params : ProjectRepository.SoftDeleteProjectParams K}
    (hevent : ∀ row : SecurityEvent K, Spare (t := .securityEvents) row → row.id ≠ env.eventId) :
    Isolated (tenant O) Spare (fun _ => True) (ProjectRepository.softDeleteProject env O params)
      fun _ _ => True := by
  refine isolated_findActiveProject_bind (isolated_throw _) fun target htarget => ?_
  refine isolated_bind (isolated_updateById htarget ?_ ?_ ?_) fun _ => ?_
  · simp [clash]
  · exact fun row hrow => hrow
  · exact fun a b hab => hab
  exact isolated_recordEvent hevent fun _ _ _ => trivial

theorem isolated_createApiKey {params : ApiKeyRepository.CreateApiKeyParams}
    (hspare : ∀ row : ApiKeyRow K, Spare (t := .apiKeys) row →
      row.id ≠ env.rowId ∧ row.secretHash ≠ params.secretHash)
    (hevent : ∀ row : SecurityEvent K, Spare (t := .securityEvents) row → row.id ≠ env.eventId) :
    Isolated (tenant O) Spare (fun _ => True) (ApiKeyRepository.createApiKey env O params)
      fun _ _ => True := by
  refine isolated_bind isolated_lockOrganizationEntitlements fun planKey => ?_
  refine isolated_bind_forget
    (isolated_ite (isolated_pure _ fun _ _ => trivial) (isolated_throw _)) fun _ => ?_
  refine isolated_bind (isolated_countWhere ?_) fun active => ?_
  · intro row hrow
    exact sees_of_belongsTo (by simp_all [ApiKeyRepository.isActive, belongsTo])
  refine isolated_bind isolated_requireQuota fun _ => ?_
  refine isolated_bind_forget (isolated_insert (t := .apiKeys) ?_ ?_ fun _ _ => trivial)
    fun _ => ?_
  · simp [belongsTo]
  · intro other hother _
    obtain ⟨hid, hhash⟩ := hspare other hother
    simp [clash, hid.symm, hhash.symm]
  exact isolated_bind_forget (isolated_recordEvent hevent fun _ _ _ => trivial)
    fun _ => isolated_pure _ fun _ _ => trivial

theorem isolated_revokeApiKey {params : ApiKeyRepository.RevokeApiKeyParams K}
    (hevent : ∀ row : SecurityEvent K, Spare (t := .securityEvents) row → row.id ≠ env.eventId) :
    Isolated (tenant O) Spare (fun _ => True) (ApiKeyRepository.revokeApiKey env O params)
      fun _ _ => True := by
  refine isolated_bind_find_scoped (C := catalog K) (t := .apiKeys) ?_ ?_
    (isolated_throw _) ?_
  · intro a b ha hb
    simp_all [clash]
  · intro row hrow
    exact sees_of_belongsTo (by simp_all [belongsTo])
  intro target hrow
  have htarget : belongsTo (t := .apiKeys) O target := by simp_all [belongsTo]
  refine isolated_ite (isolated_pure _ fun _ _ => trivial) ?_
  refine isolated_bind_forget ((isolated_updateById htarget ?_ ?_ ?_).consequence
    (fun s hs => hs.2) fun _ _ _ => trivial) fun _ => ?_
  · simp +contextual [clash]
  · exact fun row hrow => hrow
  · exact fun a b hab => hab
  exact isolated_bind_forget (isolated_recordEvent hevent fun _ _ _ => trivial)
    fun _ => isolated_pure _ fun _ _ => trivial

/-- Only ids and token hashes reach across organizations. -/
theorem isolated_createInvitation {params : InvitationRepository.CreateInvitationParams}
    (hspare : ∀ row : InvitationRow K, Spare (t := .invitations) row →
      row.id ≠ env.rowId ∧ row.tokenHash ≠ params.tokenHash)
    (hevent : ∀ row : SecurityEvent K, Spare (t := .securityEvents) row → row.id ≠ env.eventId) :
    Isolated (tenant O) Spare (fun _ => True)
      (InvitationRepository.createInvitation env O params) fun _ _ => True := by
  refine isolated_bind isolated_lockOrganizationEntitlements fun planKey => ?_
  refine isolated_bind (isolated_countWhere ?_) fun members => ?_
  · intro row hrow
    exact sees_of_belongsTo (by simp_all [belongsTo])
  refine isolated_bind (isolated_countWhere ?_) fun pending => ?_
  · intro row hrow
    exact sees_of_belongsTo (by simp_all [InvitationRepository.isReservation, belongsTo])
  refine isolated_bind isolated_requireQuota fun _ => ?_
  refine isolated_bind_forget (isolated_updateWhere ?_ ?_ ?_ fun _ _ => trivial) fun _ => ?_
  · intro s _ _ row _ hrow
    simp_all [tenant, belongsTo]
  · exact fun row hrow => hrow
  · -- an expired invitation has left the index of pending ones
    intro a b hab
    simp_all [clash]
  refine isolated_bind_forget (isolated_insertRow ?_ ?_ ?_ fun _ _ => trivial) fun _ => ?_
  · simp [tenant, belongsTo]
  · intro other hother hsees
    obtain ⟨hid, hhash⟩ := hspare other hother
    have hforeign := mt sees_of_belongsTo hsees
    simp only [belongsTo, decide_eq_true_eq] at hforeign
    simp [clash, hid.symm, hhash.symm, Ne.symm hforeign]
  · intro rows rows' hperm
    simp only [InvitationRepository.insertViolation, hperm.any_eq]
  exact isolated_bind_forget (isolated_recordEvent hevent fun _ _ _ => trivial)
    fun _ => isolated_pure _ fun _ _ => trivial

theorem isolated_revokeInvitation {params : InvitationRepository.RevokeInvitationParams K}
    (hevent : ∀ row : SecurityEvent K, Spare (t := .securityEvents) row → row.id ≠ env.eventId) :
    Isolated (tenant O) Spare (fun _ => True)
      (InvitationRepository.revokeInvitation env O params) fun _ _ => True := by
  refine isolated_bind_find_scoped (C := catalog K) (t := .invitations) ?_ ?_
    (isolated_throw _) ?_
  · intro a b ha hb
    simp_all [clash]
  · intro row hrow
    exact sees_of_belongsTo (by simp_all [belongsTo])
  intro target hrow
  have htarget : belongsTo (t := .invitations) O target := by simp_all [belongsTo]
  have hacceptable : Isolated (tenant O) Spare (fun s => True ∧ target ∈ s Table.invitations)
      (InvitationRepository.assertAcceptable target env.date)
      fun _ s => target ∈ s Table.invitations :=
    isolated_ite (isolated_throw _) (isolated_ite (isolated_throw _)
      (isolated_ite (isolated_throw _) (isolated_pure _ fun s hs => hs.2)))
  refine isolated_bind hacceptable fun _ => ?_
  refine isolated_bind (isolated_updateById htarget ?_ ?_ ?_) fun _ => ?_
  · simp +contextual [clash]
  · exact fun row hrow => hrow
  · intro a b hab
    simp_all [clash]
  exact isolated_recordEvent hevent fun _ _ _ => trivial

/-- A member is loaded by an id that is known to be its own. -/
theorem isolated_loadMemberView (membership : MembershipRow K) :
    Isolated (tenant O) Spare (fun s => membership ∈ s Table.memberships)
      (OrganizationRepository.loadMemberView membership.id) fun _ _ => True := by
  refine isolated_bind_find_known (C := catalog K) (t := .memberships) membership ?_ ?_
    (fun _ hs => hs) ?_
  · intro a b ha hb
    simp_all [clash]
  · simp
  refine isolated_bind_find_scoped (C := catalog K) (t := .users) ?_ ?_ (isolated_throw _) ?_
  · intro a b ha hb
    simp_all [clash]
  · exact fun row _ => rfl
  · exact fun row _ => isolated_pure _ fun _ _ => trivial

theorem isolated_lockActiveOwners :
    Isolated (tenant O) Spare (fun _ => True)
      (OrganizationRepository.lockActiveOwners O : Operation K (List K)) fun _ _ => True := by
  refine isolated_query fun s s' htwins => ?_
  have hperm := htwins.filter_perm (t := Table.memberships) (p := fun (row : MembershipRow K) =>
    row.organizationId = O && row.status = .active && row.role = .owner) fun row hrow =>
      sees_of_belongsTo (by simp_all [belongsTo])
  exact (List.perm_insertionSort _ _).trans ((hperm.map _).trans (List.perm_insertionSort _ _).symm)
    |>.eq_of_pairwise (fun _ _ _ _ => le_antisymm) (List.pairwise_insertionSort _ _)
      (List.pairwise_insertionSort _ _)

theorem isolated_assertOwnerChangeAuthority {touchesOwner actorIsActiveOwner : Bool}
    {Pre : Store (catalog K) → Prop} :
    Isolated (tenant O) Spare Pre
      (OrganizationRepository.assertOwnerChangeAuthority touchesOwner actorIsActiveOwner)
      fun _ => Pre :=
  isolated_ite (isolated_throw _) (isolated_pure _ fun _ hs => hs)

theorem isolated_requireOtherOwner {losesOwner : Bool} {activeOwnerIds : List K}
    {Pre : Store (catalog K) → Prop} :
    Isolated (tenant O) Spare Pre
      (OrganizationRepository.requireOtherOwner losesOwner activeOwnerIds) fun _ => Pre :=
  isolated_ite (isolated_throw _) (isolated_pure _ fun _ hs => hs)

/-- How both member mutations end: the target changes, the event is recorded, and
the changed member is loaded. -/
theorem isolated_changeMember {membershipId : K} {assign : MembershipRow K → MembershipRow K}
    {target : MembershipRow K} {eventType : String} {metadata : List (String × MetadataValue)}
    {actorUserId : String} {requestId : Option String}
    (htarget : belongsTo (t := .memberships) O target) (hid : target.id = membershipId)
    (hassign : ∀ row, (assign row).id = row.id ∧ (assign row).userId = row.userId ∧
      (assign row).organizationId = row.organizationId ∧
        ((assign row).status = .active → row.status = .active))
    (hevent : ∀ row : SecurityEvent K, Spare (t := .securityEvents) row → row.id ≠ env.eventId) :
    Isolated (tenant O) Spare (fun s => target ∈ s Table.memberships)
      (do
        updateById .memberships (fun (row : MembershipRow K) => row.id = membershipId) assign
        recordEvent env O eventType metadata actorUserId requestId
        OrganizationRepository.loadMemberView membershipId)
      fun _ _ => True := by
  refine isolated_bind (isolated_updateById htarget ?_ ?_ ?_) fun _ => ?_
  · simp +contextual [clash, hid]
  · intro row hrow
    simpa [belongsTo, (hassign row).2.2.1] using hrow
  · intro a b hab
    obtain ⟨ha, huser, horganization, hstatus⟩ := hassign a
    simp only [clash, ha, huser, horganization, Bool.or_eq_true, Bool.and_eq_true,
      decide_eq_true_eq] at hab ⊢
    tauto
  have hload : Isolated (tenant O) Spare (fun s => assign target ∈ s Table.memberships) _ _ :=
    isolated_loadMemberView (assign target)
  rw [(hassign target).1, hid] at hload
  refine isolated_bind (isolated_recordEvent hevent fun s row hmem => ?_) fun _ => hload
  rw [Store.added, Store.set_of_ne _ _ (by simp)]
  exact hmem

theorem isolated_changeMemberRole {params : OrganizationRepository.ChangeMemberRoleParams K}
    (hevent : ∀ row : SecurityEvent K, Spare (t := .securityEvents) row → row.id ≠ env.eventId) :
    Isolated (tenant O) Spare (fun _ => True)
      (OrganizationRepository.changeMemberRole env O params) fun _ _ => True := by
  refine isolated_bind isolated_lockActiveOwners fun activeOwnerIds => ?_
  refine isolated_bind_find (C := catalog K) (t := .memberships) ?_ ?_ (isolated_throw _) ?_
  · intro a b ha hb
    simp_all [clash]
  · -- somebody else's membership is not found either
    intro row _ hsees
    have hforeign := mt sees_of_belongsTo hsees
    simp_all [belongsTo]
  intro target hrow hsees
  have htarget : belongsTo (t := .memberships) O target := by
    simpa [Tenant.sees, tenant] using hsees
  refine isolated_ite (isolated_throw _) ?_
  refine isolated_bind isolated_assertOwnerChangeAuthority fun _ => ?_
  refine isolated_bind isolated_requireOtherOwner fun _ => ?_
  have hid : target.id = params.membershipId := by simpa using hrow
  refine Isolated.consequence (isolated_changeMember htarget hid ?_ hevent) ?_
    fun _ _ _ => trivial
  · exact fun row => ⟨rfl, rfl, rfl, id⟩
  · exact fun s hs => hs.2

/-- Only the id of the event reaches across organizations. -/
theorem isolated_removeMember {params : OrganizationRepository.RemoveMemberParams K}
    (hevent : ∀ row : SecurityEvent K, Spare (t := .securityEvents) row → row.id ≠ env.eventId) :
    Isolated (tenant O) Spare (fun _ => True)
      (OrganizationRepository.removeMember env O params) fun _ _ => True := by
  refine isolated_bind isolated_lockActiveOwners fun activeOwnerIds => ?_
  refine isolated_bind_find (C := catalog K) (t := .memberships) ?_ ?_ (isolated_throw _) ?_
  · intro a b ha hb
    simp_all [clash]
  · intro row _ hsees
    have hforeign := mt sees_of_belongsTo hsees
    simp_all [belongsTo]
  intro target hrow hsees
  have htarget : belongsTo (t := .memberships) O target := by
    simpa [Tenant.sees, tenant] using hsees
  have hid : target.id = params.membershipId := by simpa using hrow
  refine isolated_ite (isolated_throw _) (isolated_ite ?_ ?_)
  · have hload : Isolated (tenant O) Spare (fun s => target ∈ s Table.memberships) _ _ :=
      isolated_loadMemberView target
    rw [hid] at hload
    exact hload.consequence (fun s hs => hs.2) fun _ _ hpost => hpost
  refine isolated_bind isolated_assertOwnerChangeAuthority fun _ => ?_
  refine isolated_bind isolated_requireOtherOwner fun _ => ?_
  refine Isolated.consequence (isolated_changeMember htarget hid ?_ hevent) ?_
    fun _ _ _ => trivial
  · exact fun row => ⟨rfl, rfl, rfl, by simp⟩
  · exact fun s hs => hs.2

theorem isolated_listActiveMembers {params : ListParams K} :
    Isolated (tenant O) Spare (fun _ => True)
      (OrganizationRepository.listActiveMembers O params) fun _ _ => True := by
  refine isolated_query fun s s' htwins => ?_
  have hperm := htwins.filter_perm (t := Table.memberships) (p := fun (row : MembershipRow K) =>
    row.organizationId = O && row.status = .active &&
      cursorClause params.cursor row.createdAt row.id) fun row hrow =>
        sees_of_belongsTo (by simp_all [belongsTo])
  -- both stores join the same users
  have hview : OrganizationRepository.memberView s = OrganizationRepository.memberView s' := by
    funext membership
    have huser := htwins.head_eq (t := Table.users)
      (p := fun (user : UserRow) => user.id = membership.userId) (by simp_all [clash])
      fun _ _ => rfl
    rw [OrganizationRepository.memberView, OrganizationRepository.memberView, huser]
  have hids : ((((s Table.memberships).filter fun (row : MembershipRow K) =>
      row.organizationId = O && row.status = .active &&
        cursorClause params.cursor row.createdAt row.id).filterMap
          (OrganizationRepository.memberView s)).map fun view => view.membership.id).Nodup := by
    refine List.pairwise_map.mpr (List.pairwise_filterMap.mpr ?_)
    refine ((htwins.valid Table.memberships).filter _).imp fun {a b} hclash => ?_
    intro view hview view' hview' hsame
    obtain ⟨user, -, rfl⟩ := Option.map_eq_some_iff.mp hview
    obtain ⟨user', -, rfl⟩ := Option.map_eq_some_iff.mp hview'
    simp_all [clash]
  rw [newestFirst_perm (hperm.filterMap _) hids, hview]

/-- A single row by a unique index. -/
theorem isolated_find {t : Table} {p : Row K t → Bool}
    (hunique : ∀ a b, p a → p b → clash a b = true) (hscope : ∀ row, p row → belongsTo O row) :
    Isolated (tenant O) Spare (fun _ => True)
      (find (C := catalog K) t p : Operation K (Option (Row K t))) fun _ _ => True :=
  isolated_query fun _ _ htwins =>
    htwins.head_eq hunique fun row hp => sees_of_belongsTo (hscope row hp)

theorem isolated_hasActiveMemberWithEmail {email : String} :
    Isolated (tenant O) Spare (fun _ => True)
      (InvitationRepository.hasActiveMemberWithEmail O email : Operation K Bool)
      fun _ _ => True := by
  refine isolated_query fun s s' htwins => ?_
  have hperm := htwins.filter_perm (t := Table.memberships) (p := fun (row : MembershipRow K) =>
    row.organizationId = O && row.status = .active) fun row hrow =>
      sees_of_belongsTo (by simp_all [belongsTo])
  have huser : ∀ p : UserRow → Bool, (s Table.users).any p = (s' Table.users).any p := by
    intro p
    have husers := htwins.filter_perm (t := Table.users) (p := fun _ => true) fun _ _ => rfl
    simpa using husers.any_eq (f := p)
  simp only [hperm.any_eq, huser]

end Operations

/-- Every operation is isolated from rows that use none of what it draws. -/
theorem Call.isolated (env : Environment K) (O : String) (call : Call K α) :
    Isolated (tenant O) (fun row => call.takenBy env row = false) (fun _ => True)
      (call.run env O) fun _ _ => True := by
  have hevent : call.recordsEvent = true → ∀ row : SecurityEvent K,
      call.takenBy (t := .securityEvents) env row = false → row.id ≠ env.eventId := by
    intro hrecords row hrow
    simpa [takenBy, hrecords] using hrow
  cases call with
  | listActiveProjects params =>
      refine isolated_listing (t := .projects) (by simp [clash]) fun row hrow => ?_
      simp_all [ProjectRepository.isActive, belongsTo]
  | createProject params =>
      exact isolated_createProject (fun row hrow => by simpa [takenBy] using hrow) (hevent rfl)
  | findActiveProject projectId =>
      refine isolated_find (t := .projects) ?_ fun row hrow => ?_
      · intro a b ha hb
        simp_all [clash]
      · simp_all [ProjectRepository.isActive, belongsTo]
  | updateProject params => exact isolated_updateProject (hevent rfl)
  | softDeleteProject params => exact isolated_softDeleteProject (hevent rfl)
  | createApiKey params =>
      exact isolated_createApiKey (fun row hrow => by simpa [takenBy] using hrow) (hevent rfl)
  | listApiKeys params =>
      refine isolated_listing (t := .apiKeys) (by simp +contextual [clash]) fun row hrow => ?_
      simp_all [belongsTo]
  | revokeApiKey params => exact isolated_revokeApiKey (hevent rfl)
  | createInvitation params =>
      exact isolated_createInvitation (fun row hrow => by simpa [takenBy] using hrow) (hevent rfl)
  | listInvitations params =>
      refine isolated_listing (t := .invitations) (by simp +contextual [clash]) fun row hrow => ?_
      simp_all [belongsTo]
  | revokeInvitation params => exact isolated_revokeInvitation (hevent rfl)
  | findPendingInvitation email =>
      refine isolated_find (t := .invitations) ?_ fun row hrow => ?_
      · intro a b ha hb
        simp_all [clash, InvitationRepository.isReservation]
      · simp_all [InvitationRepository.isReservation, belongsTo]
  | hasActiveMemberWithEmail email => exact isolated_hasActiveMemberWithEmail
  | countPendingInvitations =>
      refine isolated_countWhere (C := catalog K) (t := .invitations) fun row hrow =>
        sees_of_belongsTo ?_
      simp_all [InvitationRepository.isReservation, belongsTo]
  | findOrganizationById =>
      refine isolated_find (t := .organizations) ?_ fun row hrow => hrow
      intro a b ha hb
      simp_all [clash]
  | findActiveMembership userId =>
      refine isolated_find (t := .memberships) ?_ fun row hrow => ?_
      · intro a b ha hb
        simp_all [clash]
      · simp_all [belongsTo]
  | listActiveMembers params => exact isolated_listActiveMembers
  | changeMemberRole params => exact isolated_changeMemberRole (hevent rfl)
  | removeMember params => exact isolated_removeMember (hevent rfl)
  | listAuditEvents params =>
      refine isolated_listing (t := .securityEvents) (by simp [clash]) fun row hrow => ?_
      simp only [Model.AuditRepository.conditions, AuditFilters.params, Bool.and_eq_true] at hrow
      exact decide_eq_true (of_decide_eq_true hrow.1.1.1.1.1.1.1)

/-! ## Isolation -/

/-- Two stores that agree on the rows of an organization and on the users, and
differ in rows of others that use nothing which the operation draws, cannot be
told apart by the operation; and it leaves the rows of others as they are. -/
theorem tenants_are_isolated (env : Environment K) (O : String) (call : Call K α)
    {s s' : Store (catalog K)} (hvalid : s.Valid) (hvalid' : s'.Valid)
    (hagree : ∀ (t : Table) (row : Row K t), t = .users ∨ belongsTo O row →
      (row ∈ s t ↔ row ∈ s' t))
    (hfree : ∀ (t : Table) (row : Row K t), row ∈ s t ∨ row ∈ s' t → ¬belongsTo O row →
      ¬call.takenBy env row) :
    (call.run env O s).map Prod.fst = (call.run env O s').map Prod.fst ∧
      ∀ a after, call.run env O s = .ok (a, after) → ∀ (t : Table) (row : Row K t),
        ¬belongsTo O row → (row ∈ after t ↔ row ∈ s t) := by
  have htwins : Twins (tenant O) (fun row => call.takenBy env row = false) s s' := by
    refine ⟨hvalid, hvalid', fun {t} row hsees => hagree t row ?_, fun {t} row hrow hsees => ?_,
      fun {t} row hrow hsees => ?_⟩
    · simpa [Tenant.sees, tenant] using hsees
    · simpa using hfree t row (.inl hrow) (mt sees_of_belongsTo hsees)
    · simpa using hfree t row (.inr hrow) (mt sees_of_belongsTo hsees)
  have halike := call.isolated env O htwins trivial trivial
  generalize call.run env O s = first at halike ⊢
  generalize call.run env O s' = second at halike ⊢
  cases halike with
  | error e => exact ⟨rfl, by simp⟩
  | ok htwins hkept hkept' hpost hpost' =>
      refine ⟨rfl, fun a after hrun => ?_⟩
      obtain ⟨rfl, rfl⟩ : _ = a ∧ _ = after := by simpa using hrun
      exact hkept

section Samples

/-- An organization `o` on the pro plan beside an organization `p` with the given
API keys. -/
def besideKeys (keys : List (ApiKeyRow String)) : Store (catalog String)
  | .users => [⟨"u", "u@mail", "u@mail", "hash", "U", .active, none, 0, 0, none⟩]
  | .organizations =>
      [⟨"o", "O", "o", .team, .active, "u", 0, 0, none⟩,
        ⟨"p", "P", "p", .team, .active, "u", 0, 0, none⟩]
  | .organizationPlans => [⟨"plan", "o", .pro⟩]
  | .apiKeys => keys
  | _ => []

/-- The key of `p`. -/
def keyOfOther : ApiKeyRow String :=
  ⟨"key", "p", "Key", "prefix", "secret", [.projectsRead], none, none, none, none, "u", 0, 0⟩

def sampleEnvironment : Environment String where
  now := 5000
  date := 5
  rowId := "row"
  eventId := "event"
  text := id
  storedMetadata _ := []

def createKey (secretHash : String) : Call String (ApiKeyRow String) :=
  .createApiKey ⟨"Key", "prefix", secretHash, [.projectsRead], none, "u", 5, ⟨"u", none, none⟩⟩

theorem besideKeys_agree (t : Table) (row : Row String t) (h : t = .users ∨ belongsTo "o" row) :
    row ∈ besideKeys [keyOfOther] t ↔ row ∈ besideKeys [] t := by
  cases t with
  | apiKeys =>
      have hrow : row.organizationId = "o" := by simpa [belongsTo] using h
      have hne : row ≠ keyOfOther := by
        rintro rfl
        simp [keyOfOther] at hrow
      simp [besideKeys, hne]
  | _ => rfl

theorem besideKeys_valid (keys : List (ApiKeyRow String))
    (h : keys.Pairwise fun a b => clash (t := .apiKeys) a b = false) : (besideKeys keys).Valid := by
  intro t
  cases t with
  | apiKeys => exact h
  | _ => simp [besideKeys, clash, OrganizationRow.isActivePersonal]

theorem other_keys_go_unnoticed :
    ((createKey "another").run sampleEnvironment "o" (besideKeys [keyOfOther])).map Prod.fst =
      ((createKey "another").run sampleEnvironment "o" (besideKeys [])).map Prod.fst := by
  refine (tenants_are_isolated sampleEnvironment "o" (createKey "another")
    (besideKeys_valid _ (by decide)) (besideKeys_valid _ (by decide)) besideKeys_agree ?_).1
  rintro t row (hrow | hrow) _
  · cases t with
    | apiKeys =>
        obtain rfl := List.mem_singleton.mp hrow
        decide
    | _ => simp_all [besideKeys, Call.takenBy]
  · cases t with
    | apiKeys => simp [besideKeys] at hrow
    | _ => simp_all [besideKeys, Call.takenBy]

/-- A drawn hash that a key of another organization has is refused. -/
theorem taken_hash_is_noticed : (besideKeys [keyOfOther]).Valid ∧ (besideKeys []).Valid ∧
    (∀ (t : Table) (row : Row String t), t = .users ∨ belongsTo "o" row →
      (row ∈ besideKeys [keyOfOther] t ↔ row ∈ besideKeys [] t)) ∧
    ((createKey "secret").run sampleEnvironment "o" (besideKeys [keyOfOther])).map Prod.fst ≠
      ((createKey "secret").run sampleEnvironment "o" (besideKeys [])).map Prod.fst := by
  refine ⟨besideKeys_valid _ (by decide), besideKeys_valid _ (by decide), besideKeys_agree, ?_⟩
  decide

end Samples

end Orgistry.Repositories
