import Orgistry.Organizations.AuditTrail
import Orgistry.Organizations.GeneratedNames

/-!
# The audit log over runs

Each operation changes the rows of one organization and records the events that say so.
-/

namespace Orgistry.Repositories.AuditTrail

open Keyset Model Noninterference Text

variable {K : Type} [LinearOrder K]

section Tables

variable {ids : Ids K} {O : String} {s : Store (catalog K)}

theorem standing_set_projects (rows : List (Project K)) :
    standing ids O (s.set .projects rows) =
      { standing ids O s with
        projects := ownedView Project.organizationId (fun row => ids.text row.id)
          projectStanding O rows } := rfl

theorem standing_set_apiKeys (rows : List (ApiKeyRow K)) :
    standing ids O (s.set .apiKeys rows) =
      { standing ids O s with
        apiKeys := ownedView ApiKeyRow.organizationId (fun row => ids.text row.id)
          keyStanding O rows } := rfl

theorem standing_set_invitations (rows : List (InvitationRow K)) :
    standing ids O (s.set .invitations rows) =
      { standing ids O s with
        invitations := ownedView InvitationRow.organizationId (fun row => ids.text row.id)
          invitationStanding O rows } := rfl

theorem standing_set_memberships (rows : List (MembershipRow K)) :
    standing ids O (s.set .memberships rows) =
      { standing ids O s with
        members := ownedView MembershipRow.organizationId (fun row => ids.text row.id)
          memberStanding O rows } := rfl

theorem standing_set_organizationPlans (rows : List OrganizationPlanRow) :
    standing ids O (s.set .organizationPlans rows) =
      { standing ids O s with
        plan := ownedView OrganizationPlanRow.organizationId (fun _ => ())
          (fun row => PlanRepository.planKeyText row.planKey) O rows () } := rfl

theorem standing_set_securityEvents (rows : List (SecurityEvent K)) :
    standing ids O (s.set .securityEvents rows) = standing ids O s := rfl

/-- The row that a primary key selects is one of the owner of the row it was read from. -/
theorem selects_iff (hs : s.Valid) {t : Table} {id : Row K t → K} {owner : Row K t → String}
    (hclash : ∀ a b : Row K t, id a = id b → clash a b) {target : Row K t}
    (htarget : target ∈ s t) :
    ∀ row ∈ s t, decide (id row = id target) = true ↔
      owner row = owner target ∧ ids.text (id row) = ids.text (id target) := by
  intro row hrow
  rw [decide_eq_true_iff]
  constructor
  · intro hid
    obtain rfl : row = target := hs.eq_of_clash (C := catalog K) hrow htarget (hclash _ _ hid)
    exact ⟨rfl, rfl⟩
  · rintro ⟨-, htext⟩
    exact ids.injective htext

/-- A row with a fresh id has a fresh text. -/
theorem fresh_text {t : Table} {id : Row K t → K}
    (hclash : ∀ a b : Row K t, id a = id b → clash a b) {row : Row K t}
    (hfresh : ∀ other ∈ s t, clash row other = false) :
    ∀ other ∈ s t, ids.text (id other) ≠ ids.text (id row) := by
  intro other hother htext
  have htrue := hclash row other (ids.injective htext).symm
  rw [hfresh other hother] at htrue
  exact Bool.false_ne_true htrue

end Tables

theorem untruncated_roleId (role : RoleKey) : Untruncated (roleId role) := by
  cases role <;> decide

theorem untruncated_planKeyText (planKey : PlanKey) :
    Untruncated (PlanRepository.planKeyText planKey) := by
  cases planKey <;> decide

/-- What is drawn and read off the clock while a request is served. -/
structure Moment (K : Type) where
  now : Timestamp
  date : Millis
  rowId : K
  eventId : K
  secondEventId : K

def Moment.environment (ids : Ids K) (unicode : UnicodeStrings) (moment : Moment K) :
    Environment K :=
  { now := moment.now, date := moment.date, rowId := moment.rowId, eventId := moment.eventId,
    text := ids.text, storedMetadata := storedMetadata unicode }

inductive Request (K : Type) : Type 1
  | inOrganization {α : Type} (organizationId : String) (call : Call K α)
  | changeOrganizationPlan (organizationId : String)
      (params : PlanRepository.ChangeOrganizationPlanParams)
  | acceptInvitation (params : InvitationRepository.AcceptInvitationParams K)

def Request.run (ids : Ids K) (unicode : UnicodeStrings) (moment : Moment K) :
    Request K → Operation K Unit
  | .inOrganization organizationId call => do
      let _ ← call.run (moment.environment ids unicode) organizationId
  | .changeOrganizationPlan organizationId params => do
      let _ ← PlanRepository.changeOrganizationPlan (moment.environment ids unicode)
        organizationId params
  | .acceptInvitation params => do
      let _ ← InvitationRepository.acceptInvitation (moment.environment ids unicode)
        moment.secondEventId params

/-- The texts that the request has recorded in full are not truncated. -/
def Request.Untruncated : Request K → Prop
  | .inOrganization _ (.createProject params) => Repositories.Untruncated params.name
  | .inOrganization _ (.updateProject params) => Repositories.Untruncated params.name
  | .inOrganization _ (.createApiKey params) => Repositories.Untruncated params.displayPrefix
  | .inOrganization _ (.createInvitation params) =>
      Repositories.Untruncated params.invitedEmailNormalized
  | .inOrganization _ _ => True
  | .changeOrganizationPlan _ _ => True
  | .acceptInvitation params => Repositories.Untruncated params.acceptingUserId

/-- What an event has of the context. -/
def contextNames (ctx : ActionContext) : String × Option String := (ctx.actorUserId, ctx.requestId)

/-- The user that acts, and the id of the request. -/
def Request.actor : Request K → Option (String × Option String)
  | .inOrganization _ (.createProject params) => some (contextNames params.ctx)
  | .inOrganization _ (.updateProject params) => some (contextNames params.ctx)
  | .inOrganization _ (.softDeleteProject params) => some (contextNames params.ctx)
  | .inOrganization _ (.createApiKey params) => some (contextNames params.ctx)
  | .inOrganization _ (.revokeApiKey params) => some (contextNames params.ctx)
  | .inOrganization _ (.createInvitation params) => some (contextNames params.ctx)
  | .inOrganization _ (.revokeInvitation params) => some (contextNames params.ctx)
  | .inOrganization _ (.changeMemberRole params) => some (params.actorUserId, params.requestId)
  | .inOrganization _ (.removeMember params) => some (params.actorUserId, params.requestId)
  | .inOrganization _ _ => none
  | .changeOrganizationPlan _ params => some (params.actorUserId, params.requestId)
  | .acceptInvitation params => some (contextNames params.ctx)

/-- The store after a request, which is the one before it when the request fails. -/
def after (ids : Ids K) (unicode : UnicodeStrings) (s : Store (catalog K))
    (served : Moment K × Request K) : Store (catalog K) :=
  match served.2.run ids unicode served.1 s with
  | .ok (_, s') => s'
  | .error _ => s

/-- The event names the actor. -/
def NamesActor (actor : Option (String × Option String)) (event : SecurityEvent K) : Prop :=
  ∃ userId, event.userId = some userId ∧ actor = some (userId, event.requestId)

/-- The recorded events and the ones still `pending` account for what has changed. -/
structure Accounted (ids : Ids K) (unicode : UnicodeStrings)
    (actor : Option (String × Option String)) (before : Store (catalog K))
    (recorded pending : List (SecurityEvent K)) (s : Store (catalog K)) : Prop where
  valid : s.Valid
  log : s .securityEvents = before .securityEvents ++ recorded
  named : ∀ event ∈ recorded, NamesActor actor event
  accounts : ∀ O, standing ids O s =
    (publicLog unicode O (recorded ++ pending)).foldl Standing.apply (standing ids O before)

section Accounts

variable {ids : Ids K} {unicode : UnicodeStrings} {actor : Option (String × Option String)}
  {before s s' : Store (catalog K)} {recorded pending : List (SecurityEvent K)}
  {env : Environment K}

theorem Accounted.refl (h : s.Valid) : Accounted ids unicode actor s [] [] s where
  valid := h
  log := (List.append_nil _).symm
  named _ hevent := absurd hevent List.not_mem_nil
  accounts _ := rfl

/-- A change that one event tells. -/
theorem Accounted.changed (h : Accounted ids unicode actor before recorded pending s)
    (hvalid : s'.Valid) (hlog : s' .securityEvents = s .securityEvents) {event : SecurityEvent K}
    (hchange : ∀ O, standing ids O s' =
      (publicLog unicode O [event]).foldl Standing.apply (standing ids O s)) :
    Accounted ids unicode actor before recorded (pending ++ [event]) s' where
  valid := hvalid
  log := hlog.trans h.log
  named := h.named
  accounts O := by
    rw [hchange O, h.accounts O, ← List.append_assoc, publicLog_append _ _ (recorded ++ pending),
      List.foldl_append]

/-- A change that no reader of the log has to know. -/
theorem Accounted.unchanged (h : Accounted ids unicode actor before recorded pending s)
    (hvalid : s'.Valid) (hlog : s' .securityEvents = s .securityEvents)
    (hchange : ∀ O, standing ids O s' = standing ids O s) :
    Accounted ids unicode actor before recorded pending s' where
  valid := hvalid
  log := hlog.trans h.log
  named := h.named
  accounts O := (hchange O).trans (h.accounts O)

/-- Two pending events that do not get into each other's way. -/
theorem Accounted.swap {first second : SecurityEvent K}
    (h : Accounted ids unicode actor before recorded [second, first] s)
    (hcomm : ∀ O standing,
      (publicLog unicode O [first]).foldl Standing.apply
          ((publicLog unicode O [second]).foldl Standing.apply standing) =
        (publicLog unicode O [second]).foldl Standing.apply
          ((publicLog unicode O [first]).foldl Standing.apply standing)) :
    Accounted ids unicode actor before recorded [first, second] s where
  valid := h.valid
  log := h.log
  named := h.named
  accounts O := by
    have hsplit : ∀ one other : SecurityEvent K, publicLog unicode O (recorded ++ [one, other]) =
        publicLog unicode O recorded ++
          (publicLog unicode O [one] ++ publicLog unicode O [other]) := fun one other => by
      rw [publicLog_append, ← List.singleton_append, publicLog_append]
    rw [h.accounts O, hsplit, hsplit, List.foldl_append, List.foldl_append, List.foldl_append,
      List.foldl_append, hcomm]

theorem achieves_insert {t : Table} {row : Row K t} {Pre : Store (catalog K) → Prop}
    {Post : Unit → Store (catalog K) → Prop}
    (h : ∀ s, Pre s → (∀ other ∈ s t, clash row other = false) → Post () (s.added t row)) :
    Achieves Pre (insert t row) Post :=
  achieves_insertRow (C := catalog K) (t := t) h

theorem achieves_updateById {t : Table} {selects : Row K t → Bool} {assign : Row K t → Row K t}
    {Pre : Store (catalog K) → Prop} {Post : Unit → Store (catalog K) → Prop}
    (h : ∀ s, Pre s → ∀ s', s' = s.updated t selects assign → (s.Valid → s'.Valid) →
      Post () s') : Achieves Pre (updateById t selects assign) Post :=
  achieves_updateWhere (C := catalog K) (t := t) h

/-- The next pending event is recorded. -/
theorem accounted_recordEvent (recorded pending : List (SecurityEvent K))
    {organizationId eventType actorUserId : String}
    {metadata : List (String × MetadataValue)} {requestId : Option String}
    (hactor : actor = some (actorUserId, requestId)) :
    Achieves (Accounted ids unicode actor before recorded
        (eventRow env organizationId eventType metadata actorUserId requestId :: pending))
      (recordEvent env organizationId eventType metadata actorUserId requestId)
      fun _ => Accounted ids unicode actor before
        (recorded ++ [eventRow env organizationId eventType metadata actorUserId requestId])
        pending := by
  refine achieves_insert (t := .securityEvents) fun s hs hfresh => ?_
  constructor
  · exact hs.valid.added hfresh
  · rw [Store.added, Store.set_self, hs.log, List.append_assoc]
    rfl
  · intro event hevent
    rcases List.mem_append.mp hevent with hold | hnew
    · exact hs.named event hold
    · obtain rfl := List.mem_singleton.mp hnew
      exact ⟨actorUserId, rfl, hactor⟩
  · intro O
    rw [Store.added, standing_set_securityEvents, hs.accounts O, List.append_assoc,
      List.singleton_append]

end Accounts

/-! ## Operations -/

section Statements

variable {Pre : Store (catalog K) → Prop}

theorem achieves_findRow {t : Table} {p : Row K t → Bool} :
    Achieves Pre (find (C := catalog K) t p : Operation K (Option (Row K t)))
      fun found s => Pre s ∧ ∀ row, found = some row → row ∈ s t ∧ p row :=
  achieves_find (C := catalog K) (fun s hs => ⟨hs, fun _ h => by cases h⟩)
    fun s row hs hrow hp => ⟨hs, fun other h => by cases h; exact ⟨hrow, hp⟩⟩

theorem achieves_lockOrganizationEntitlements {organizationId : String} :
    Achieves Pre (lockOrganizationEntitlements organizationId : Operation K PlanKey)
      fun _ => Pre := by
  refine achieves_bind (achieves_findRow (t := .organizationPlans)) fun found => ?_
  cases found with
  | none => exact achieves_throw _
  | some row => exact achieves_pure fun _ hs => hs.1

theorem achieves_requireQuota {quota : EntitlementKey} {current limit : ℕ} :
    Achieves Pre (requireQuota quota current limit : Operation K Unit) fun _ => Pre :=
  achieves_ite (fun _ => achieves_throw _) fun _ => achieves_pure fun _ hs => hs

theorem achieves_requireApiKeysAccess {planKey : PlanKey} :
    Achieves Pre (requireApiKeysAccess planKey : Operation K Unit) fun _ => Pre :=
  achieves_ite (fun _ => achieves_pure fun _ hs => hs) fun _ => achieves_throw _

end Statements

section Operations

variable {ids : Ids K} {unicode : UnicodeStrings} {before : Store (catalog K)}
  {moment : Moment K} {organizationId : String}

/-- When the operation goes through, the events that it records account for what it changes. -/
def Accounts (ids : Ids K) (unicode : UnicodeStrings) (actor : Option (String × Option String))
    (before : Store (catalog K)) {α : Type} (op : Operation K α) : Prop :=
  Achieves (Accounted ids unicode actor before [] []) op fun _ s =>
    ∃ recorded, Accounted ids unicode actor before recorded [] s

theorem standing_added_project {O : String} {s : Store (catalog K)} {project : Project K}
    (hfresh : ∀ other ∈ s .projects, clash (t := .projects) project other = false) :
    standing ids O (s.added .projects project) =
      if project.organizationId = O then
        { standing ids O s with
          projects := Function.update (standing ids O s).projects (ids.text project.id)
            (some (projectStanding project)) }
      else standing ids O s := by
  rw [Store.added, standing_set_projects, ownedView_added
    (fresh_text (t := .projects) (fun a b hid => decide_eq_true hid) hfresh) O]
  split <;> rfl

/-- What an update of one project does to the state that the log tells. -/
theorem standing_updated_project {O : String} {s : Store (catalog K)} (hs : s.Valid)
    {target : Project K} (htarget : target ∈ s .projects)
    {f : Project K → Project K}
    {g : ProjectStanding → ProjectStanding} (hid : ∀ row, (f row).id = row.id)
    (howner : ∀ row, (f row).organizationId = row.organizationId)
    (hentry : ∀ row, projectStanding (f row) = g (projectStanding row)) :
    standing ids O (s.updated .projects (fun row => row.id = target.id) f) =
      if target.organizationId = O then
        { standing ids O s with
          projects := Function.update (standing ids O s).projects (ids.text target.id)
            (((standing ids O s).projects (ids.text target.id)).map g) }
      else standing ids O s := by
  rw [Store.updated, standing_set_projects, ownedView_updated
    (selects_iff hs (t := .projects) (fun a b hid => decide_eq_true hid) htarget) howner
    (fun row => congrArg ids.text (hid row)) hentry O]
  split
  · next horganization =>
      subst horganization
      rfl
  · rfl

/-- The row that was found. -/
theorem mem_of_findActiveProject {projectId : K} {s : Store (catalog K)} {target : Project K}
    (h : ∀ row, some target = some row → row ∈ s .projects ∧
      ProjectRepository.isActive organizationId row && decide (row.id = projectId)) :
    target ∈ s .projects ∧ target.organizationId = organizationId := by
  obtain ⟨hmem, hactive⟩ := h target rfl
  refine ⟨hmem, ?_⟩
  rw [ProjectRepository.isActive, Bool.and_eq_true, Bool.and_eq_true] at hactive
  exact of_decide_eq_true hactive.1.1

theorem accounts_createProject {params : ProjectRepository.CreateProjectParams}
    (hname : Untruncated params.name) :
    Accounts ids unicode (some (contextNames params.ctx)) before
      (ProjectRepository.createProject (moment.environment ids unicode) organizationId params) := by
  refine achieves_bind achieves_lockOrganizationEntitlements fun planKey => ?_
  refine achieves_bind (achieves_countWhere fun _ _ hs => hs) fun active => ?_
  refine achieves_bind achieves_requireQuota fun _ => ?_
  refine achieves_bind (achieves_insert (t := .projects) fun s hs hfresh => ?_) fun _ =>
    achieves_bind (accounted_recordEvent [] [] rfl) fun _ => achieves_pure fun s hs => ⟨_, hs⟩
  refine hs.changed (hs.valid.added hfresh) rfl fun O => ?_
  rw [foldl_publicLog_eventRow rfl (show Persists .projectCreated "project.created" by decide),
    told_projectCreated (.about_target ⟨rfl, ids.untruncated _⟩ (by decide) _)
      (.about_target ⟨rfl, hname⟩ (by decide) _)]
  exact standing_added_project hfresh

theorem accounts_updateProject {params : ProjectRepository.UpdateProjectParams K}
    (hname : Untruncated params.name) :
    Accounts ids unicode (some (contextNames params.ctx)) before
      (ProjectRepository.updateProject (moment.environment ids unicode) organizationId params) := by
  refine achieves_bind (achieves_findRow (t := .projects)) fun found => ?_
  cases found with
  | none => exact achieves_throw _
  | some target =>
      refine achieves_bind (achieves_updateById (t := .projects) fun s hs s' hs' hvalid => ?_)
        fun _ => achieves_bind (accounted_recordEvent [] [] rfl) fun _ =>
          achieves_pure fun s hs => ⟨_, hs⟩
      obtain ⟨hmem, horganization⟩ := mem_of_findActiveProject hs.2
      subst hs'
      refine hs.1.changed (hvalid hs.1.valid) rfl fun O => ?_
      rw [foldl_publicLog_eventRow rfl (show Persists .projectUpdated "project.updated" by decide),
        told_projectUpdated (.about_target ⟨rfl, ids.untruncated _⟩ (by decide) _)
          (.about_target ⟨rfl, hname⟩ (by decide) _), ← horganization]
      exact standing_updated_project hs.1.valid hmem (fun _ => rfl) (fun _ => rfl) fun _ => rfl

theorem accounts_softDeleteProject {params : ProjectRepository.SoftDeleteProjectParams K} :
    Accounts ids unicode (some (contextNames params.ctx)) before
      (ProjectRepository.softDeleteProject (moment.environment ids unicode) organizationId
        params) := by
  refine achieves_bind (achieves_findRow (t := .projects)) fun found => ?_
  cases found with
  | none => exact achieves_throw _
  | some target =>
      refine achieves_bind (achieves_updateById (t := .projects) fun s hs s' hs' hvalid => ?_)
        fun _ => (accounted_recordEvent [] [] rfl).weaken (fun _ hs => hs) fun _ s hs => ⟨_, hs⟩
      obtain ⟨hmem, horganization⟩ := mem_of_findActiveProject hs.2
      subst hs'
      refine hs.1.changed (hvalid hs.1.valid) rfl fun O => ?_
      rw [foldl_publicLog_eventRow rfl (show Persists .projectDeleted "project.deleted" by decide),
        told_projectDeleted (.about_target ⟨rfl, ids.untruncated _⟩ (by decide) _),
        ← horganization]
      exact standing_updated_project hs.1.valid hmem (fun _ => rfl) (fun _ => rfl) fun _ => rfl

theorem standing_added_apiKey {O : String} {s : Store (catalog K)} {row : ApiKeyRow K}
    (hfresh : ∀ other ∈ s .apiKeys, clash (t := .apiKeys) row other = false) :
    standing ids O (s.added .apiKeys row) =
      if row.organizationId = O then
        { standing ids O s with
          apiKeys := Function.update (standing ids O s).apiKeys (ids.text row.id)
            (some (keyStanding row)) }
      else standing ids O s := by
  rw [Store.added, standing_set_apiKeys, ownedView_added
    (fresh_text (t := .apiKeys) (fun a b hid => by simp [clash, hid]) hfresh) O]
  split <;> rfl

theorem standing_updated_apiKey {O : String} {s : Store (catalog K)} (hs : s.Valid)
    {target : ApiKeyRow K} (htarget : target ∈ s .apiKeys)
    {f : ApiKeyRow K → ApiKeyRow K}
    {g : KeyStanding → KeyStanding} (hid : ∀ row, (f row).id = row.id)
    (howner : ∀ row, (f row).organizationId = row.organizationId)
    (hentry : ∀ row, keyStanding (f row) = g (keyStanding row)) :
    standing ids O (s.updated .apiKeys (fun row => row.id = target.id) f) =
      if target.organizationId = O then
        { standing ids O s with
          apiKeys := Function.update (standing ids O s).apiKeys (ids.text target.id)
            (((standing ids O s).apiKeys (ids.text target.id)).map g) }
      else standing ids O s := by
  rw [Store.updated, standing_set_apiKeys, ownedView_updated
    (selects_iff hs (t := .apiKeys) (fun a b hid => by simp [clash, hid]) htarget) howner
    (fun row => congrArg ids.text (hid row)) hentry O]
  split
  · next horganization =>
      subst horganization
      rfl
  · rfl

theorem accounts_createApiKey {params : ApiKeyRepository.CreateApiKeyParams}
    (hshown : Untruncated params.displayPrefix) :
    Accounts ids unicode (some (contextNames params.ctx)) before
      (ApiKeyRepository.createApiKey (moment.environment ids unicode) organizationId params) := by
  refine achieves_bind achieves_lockOrganizationEntitlements fun planKey => ?_
  refine achieves_bind achieves_requireApiKeysAccess fun _ => ?_
  refine achieves_bind (achieves_countWhere fun _ _ hs => hs) fun active => ?_
  refine achieves_bind achieves_requireQuota fun _ => ?_
  refine achieves_bind (achieves_insert (t := .apiKeys) fun s hs hfresh => ?_) fun _ =>
    achieves_bind (accounted_recordEvent [] [] rfl) fun _ => achieves_pure fun s hs => ⟨_, hs⟩
  refine hs.changed (hs.valid.added hfresh) rfl fun O => ?_
  rw [foldl_publicLog_eventRow rfl (show Persists .apiKeyCreated "api_key.created" by decide),
    told_apiKeyCreated (.about_target ⟨rfl, ids.untruncated _⟩ (by decide) _)
      (.about_target ⟨rfl, hshown⟩ (by decide) _)]
  exact standing_added_apiKey hfresh

theorem accounts_revokeApiKey {params : ApiKeyRepository.RevokeApiKeyParams K} :
    Accounts ids unicode (some (contextNames params.ctx)) before
      (ApiKeyRepository.revokeApiKey (moment.environment ids unicode) organizationId params) := by
  refine achieves_bind (achieves_findRow (t := .apiKeys)) fun found => ?_
  cases found with
  | none => exact achieves_throw _
  | some target =>
      refine achieves_ite (fun _ => achieves_pure fun s hs => ⟨_, hs.1⟩) fun _ => ?_
      refine achieves_bind (achieves_updateById (t := .apiKeys) fun s hs s' hs' hvalid => ?_)
        fun _ => achieves_bind (accounted_recordEvent [] [] rfl) fun _ =>
          achieves_pure fun s hs => ⟨_, hs⟩
      obtain ⟨hmem, hfound⟩ := hs.2 target rfl
      have horganization := of_decide_eq_true (Bool.and_eq_true_iff.mp hfound).1
      subst hs'
      refine hs.1.changed (hvalid hs.1.valid) rfl fun O => ?_
      rw [foldl_publicLog_eventRow rfl (show Persists .apiKeyRevoked "api_key.revoked" by decide),
        told_apiKeyRevoked (.about_target ⟨rfl, ids.untruncated _⟩ (by decide) _),
        ← horganization]
      exact standing_updated_apiKey hs.1.valid hmem (fun _ => rfl) (fun _ => rfl) fun _ => rfl

theorem standing_added_invitation {O : String} {s : Store (catalog K)} {row : InvitationRow K}
    (hfresh : ∀ other ∈ s .invitations, clash (t := .invitations) row other = false) :
    standing ids O (s.added .invitations row) =
      if row.organizationId = O then
        { standing ids O s with
          invitations := Function.update (standing ids O s).invitations (ids.text row.id)
            (some (invitationStanding row)) }
      else standing ids O s := by
  rw [Store.added, standing_set_invitations, ownedView_added
    (fresh_text (t := .invitations) (fun a b hid => by simp [clash, hid]) hfresh) O]
  split <;> rfl

theorem standing_updated_invitation {O : String} {s : Store (catalog K)} (hs : s.Valid)
    {target : InvitationRow K} (htarget : target ∈ s .invitations)
    {f : InvitationRow K → InvitationRow K}
    {g : InvitationStanding → InvitationStanding} (hid : ∀ row, (f row).id = row.id)
    (howner : ∀ row, (f row).organizationId = row.organizationId)
    (hentry : ∀ row, invitationStanding (f row) = g (invitationStanding row)) :
    standing ids O (s.updated .invitations (fun row => row.id = target.id) f) =
      if target.organizationId = O then
        { standing ids O s with
          invitations := Function.update (standing ids O s).invitations (ids.text target.id)
            (((standing ids O s).invitations (ids.text target.id)).map g) }
      else standing ids O s := by
  rw [Store.updated, standing_set_invitations, ownedView_updated
    (selects_iff hs (t := .invitations) (fun a b hid => by simp [clash, hid]) htarget) howner
    (fun row => congrArg ids.text (hid row)) hentry O]
  split
  · next horganization =>
      subst horganization
      rfl
  · rfl

theorem standing_added_membership {O : String} {s : Store (catalog K)} {row : MembershipRow K}
    (hfresh : ∀ other ∈ s .memberships, clash (t := .memberships) row other = false) :
    standing ids O (s.added .memberships row) =
      if row.organizationId = O then
        { standing ids O s with
          members := Function.update (standing ids O s).members (ids.text row.id)
            (some (memberStanding row)) }
      else standing ids O s := by
  rw [Store.added, standing_set_memberships, ownedView_added
    (fresh_text (t := .memberships) (fun a b hid => by simp [clash, hid]) hfresh) O]
  split <;> rfl

theorem standing_updated_membership {O : String} {s : Store (catalog K)} (hs : s.Valid)
    {target : MembershipRow K} (htarget : target ∈ s .memberships)
    {f : MembershipRow K → MembershipRow K}
    {g : MemberStanding → MemberStanding} (hid : ∀ row, (f row).id = row.id)
    (howner : ∀ row, (f row).organizationId = row.organizationId)
    (hentry : ∀ row, memberStanding (f row) = g (memberStanding row)) :
    standing ids O (s.updated .memberships (fun row => row.id = target.id) f) =
      if target.organizationId = O then
        { standing ids O s with
          members := Function.update (standing ids O s).members (ids.text target.id)
            (((standing ids O s).members (ids.text target.id)).map g) }
      else standing ids O s := by
  rw [Store.updated, standing_set_memberships, ownedView_updated
    (selects_iff hs (t := .memberships) (fun a b hid => by simp [clash, hid]) htarget) howner
    (fun row => congrArg ids.text (hid row)) hentry O]
  split
  · next horganization =>
      subst horganization
      rfl
  · rfl

/-- The sweep of expired invitations settles nothing. -/
theorem standing_swept {O : String} {s : Store (catalog K)} {p : InvitationRow K → Bool}
    {updatedAt : Timestamp} (hp : ∀ row, p row → row.status = .pending) :
    standing ids O (s.updated .invitations p fun row =>
      { row with status := .expired, updatedAt := updatedAt }) = standing ids O s := by
  rw [Store.updated, standing_set_invitations, ownedView_eq]
  · rfl
  · exact fun _ => rfl
  · exact fun _ => rfl
  · intro row hrow
    rw [invitationStanding, invitationStanding, hp row hrow]
    rfl

theorem accounted_swept {actor : Option (String × Option String)}
    {recorded pending : List (SecurityEvent K)} {p : InvitationRow K → Bool}
    {updatedAt : Timestamp} (hp : ∀ row, p row → row.status = .pending) :
    Achieves (Accounted ids unicode actor before recorded pending)
      (updateWhere (C := catalog K) .invitations Failure.unexpected Failure.unexpected p
        fun row => { row with status := .expired, updatedAt := updatedAt })
      fun _ => Accounted ids unicode actor before recorded pending := by
  refine achieves_updateWhere (C := catalog K) fun s hs s' hs' hvalid => ?_
  subst hs'
  exact hs.unchanged (hvalid hs.valid) rfl fun O => standing_swept hp

theorem accounts_createInvitation {params : InvitationRepository.CreateInvitationParams}
    (hemail : Untruncated params.invitedEmailNormalized) :
    Accounts ids unicode (some (contextNames params.ctx)) before
      (InvitationRepository.createInvitation (moment.environment ids unicode) organizationId
        params) := by
  refine achieves_bind achieves_lockOrganizationEntitlements fun planKey => ?_
  refine achieves_bind (achieves_countWhere fun _ _ hs => hs) fun members => ?_
  refine achieves_bind (achieves_countWhere fun _ _ hs => hs) fun pending => ?_
  refine achieves_bind achieves_requireQuota fun _ => ?_
  refine achieves_bind (accounted_swept fun row hrow => ?_) fun _ =>
    achieves_bind (achieves_insertRow (C := catalog K) fun s hs hfresh => ?_) fun _ =>
      achieves_bind (accounted_recordEvent [] [] rfl) fun _ => achieves_pure fun s hs => ⟨_, hs⟩
  · rw [Bool.and_eq_true, Bool.and_eq_true] at hrow
    exact of_decide_eq_true hrow.1.2
  · refine hs.changed (hs.valid.added hfresh) rfl fun O => ?_
    rw [foldl_publicLog_eventRow rfl
        (show Persists .invitationCreated "invitation.created" by decide),
      told_invitationCreated (.after_actor ⟨rfl, ids.untruncated _⟩ (by decide) _)
        (.after_actor ⟨rfl, hemail⟩ (by decide) _)
        (.after_actor ⟨rfl, untruncated_roleId _⟩ (by decide) _)]
    exact standing_added_invitation hfresh

theorem achieves_assertAcceptable {Pre : Store (catalog K) → Prop} {invitation : InvitationRow K}
    {now : Millis} :
    Achieves Pre (InvitationRepository.assertAcceptable invitation now) fun _ => Pre :=
  achieves_ite (fun _ => achieves_throw _) fun _ => achieves_ite (fun _ => achieves_throw _)
    fun _ => achieves_ite (fun _ => achieves_throw _) fun _ => achieves_pure fun _ hs => hs

theorem accounts_revokeInvitation {params : InvitationRepository.RevokeInvitationParams K} :
    Accounts ids unicode (some (contextNames params.ctx)) before
      (InvitationRepository.revokeInvitation (moment.environment ids unicode) organizationId
        params) := by
  refine achieves_bind (achieves_findRow (t := .invitations)) fun found => ?_
  cases found with
  | none => exact achieves_throw _
  | some target =>
      refine achieves_bind achieves_assertAcceptable fun _ => ?_
      refine achieves_bind (achieves_updateById (t := .invitations) fun s hs s' hs' hvalid => ?_)
        fun _ => (accounted_recordEvent [] [] rfl).weaken (fun _ hs => hs) fun _ s hs => ⟨_, hs⟩
      obtain ⟨hmem, hfound⟩ := hs.2 target rfl
      have horganization := of_decide_eq_true (Bool.and_eq_true_iff.mp hfound).1
      subst hs'
      refine hs.1.changed (hvalid hs.1.valid) rfl fun O => ?_
      rw [foldl_publicLog_eventRow rfl
          (show Persists .invitationRevoked "invitation.revoked" by decide),
        told_invitationRevoked (.after_actor ⟨rfl, ids.untruncated _⟩ (by decide) _),
        ← horganization]
      exact standing_updated_invitation hs.1.valid hmem (fun _ => rfl) (fun _ => rfl) fun _ => rfl

theorem achieves_lockActiveOwners {Pre : Store (catalog K) → Prop} :
    Achieves Pre (OrganizationRepository.lockActiveOwners organizationId : Operation K (List K))
      fun _ => Pre :=
  achieves_query (C := catalog K) fun _ hs => hs

theorem achieves_assertOwnerChangeAuthority {Pre : Store (catalog K) → Prop}
    {touchesOwner actorIsActiveOwner : Bool} :
    Achieves Pre (OrganizationRepository.assertOwnerChangeAuthority touchesOwner
      actorIsActiveOwner : Operation K Unit) fun _ => Pre :=
  achieves_ite (fun _ => achieves_throw _) fun _ => achieves_pure fun _ hs => hs

theorem achieves_requireOtherOwner {Pre : Store (catalog K) → Prop} {losesOwner : Bool}
    {activeOwnerIds : List K} :
    Achieves Pre (OrganizationRepository.requireOtherOwner losesOwner activeOwnerIds)
      fun _ => Pre :=
  achieves_ite (fun _ => achieves_throw _) fun _ => achieves_pure fun _ hs => hs

theorem achieves_loadMemberView {Pre : Store (catalog K) → Prop} {membershipId : K} :
    Achieves Pre (OrganizationRepository.loadMemberView membershipId) fun _ => Pre := by
  refine achieves_bind (achieves_findRow (t := .memberships)) fun found => ?_
  cases found with
  | none => exact achieves_throw _
  | some membership =>
      refine achieves_bind (achieves_findRow (t := .users)) fun user => ?_
      cases user with
      | none => exact achieves_throw _
      | some user => exact achieves_pure fun _ hs => hs.1.1

theorem accounts_changeMemberRole {params : OrganizationRepository.ChangeMemberRoleParams K} :
    Accounts ids unicode (some (params.actorUserId, params.requestId)) before
      (OrganizationRepository.changeMemberRole (moment.environment ids unicode) organizationId
        params) := by
  refine achieves_bind achieves_lockActiveOwners fun activeOwnerIds => ?_
  refine achieves_bind (achieves_findRow (t := .memberships)) fun found => ?_
  cases found with
  | none => exact achieves_throw _
  | some target =>
      refine achieves_ite (fun _ => achieves_throw _) fun hactive => ?_
      refine achieves_bind achieves_assertOwnerChangeAuthority fun _ => ?_
      refine achieves_bind achieves_requireOtherOwner fun _ => ?_
      refine achieves_bind (achieves_updateById (t := .memberships) fun s hs s' hs' hvalid => ?_)
        fun _ => achieves_bind (accounted_recordEvent [] [] rfl) fun _ =>
          achieves_loadMemberView.weaken (fun _ hs => hs) fun _ s hs => ⟨_, hs⟩
      obtain ⟨hmem, hfound⟩ := hs.2 target rfl
      have hid : target.id = params.membershipId := of_decide_eq_true hfound
      have horganization : target.organizationId = organizationId := by
        by_contra hother
        exact hactive (by simp [hother])
      subst hs'
      refine hs.1.changed (hvalid hs.1.valid) rfl fun O => ?_
      rw [foldl_publicLog_eventRow rfl
          (show Persists .memberRoleChanged "org.member_role_changed" by decide),
        told_memberRoleChanged rfl ⟨rfl, ids.untruncated _⟩ ⟨rfl, untruncated_roleId _⟩,
        ← horganization, ← hid]
      exact standing_updated_membership hs.1.valid hmem (fun _ => rfl) (fun _ => rfl) fun _ => rfl

theorem accounts_removeMember {params : OrganizationRepository.RemoveMemberParams K} :
    Accounts ids unicode (some (params.actorUserId, params.requestId)) before
      (OrganizationRepository.removeMember (moment.environment ids unicode) organizationId
        params) := by
  refine achieves_bind achieves_lockActiveOwners fun activeOwnerIds => ?_
  refine achieves_bind (achieves_findRow (t := .memberships)) fun found => ?_
  cases found with
  | none => exact achieves_throw _
  | some target =>
      refine achieves_ite (fun _ => achieves_throw _) fun hown => ?_
      refine achieves_ite (fun _ => achieves_loadMemberView.weaken (fun _ hs => hs.1)
        fun _ s hs => ⟨_, hs⟩) fun _ => ?_
      refine achieves_bind achieves_assertOwnerChangeAuthority fun _ => ?_
      refine achieves_bind achieves_requireOtherOwner fun _ => ?_
      refine achieves_bind (achieves_updateById (t := .memberships) fun s hs s' hs' hvalid => ?_)
        fun _ => achieves_bind (accounted_recordEvent [] [] rfl) fun _ =>
          achieves_loadMemberView.weaken (fun _ hs => hs) fun _ s hs => ⟨_, hs⟩
      obtain ⟨hmem, hfound⟩ := hs.2 target rfl
      have hid : target.id = params.membershipId := of_decide_eq_true hfound
      have horganization : target.organizationId = organizationId := not_not.mp hown
      subst hs'
      refine hs.1.changed (hvalid hs.1.valid) rfl fun O => ?_
      rw [foldl_publicLog_eventRow rfl
          (show Persists .memberRemoved "org.member_removed" by decide),
        told_memberRemoved rfl ⟨rfl, ids.untruncated _⟩, ← horganization, ← hid]
      exact standing_updated_membership hs.1.valid hmem (fun _ => rfl) (fun _ => rfl) fun _ => rfl

/-- An organization has one plan. -/
theorem standing_updated_plan {O : String} {s : Store (catalog K)} (hs : s.Valid)
    {current : OrganizationPlanRow} (hcurrent : current ∈ s .organizationPlans)
    {planKey : PlanKey} :
    standing ids O (s.updated .organizationPlans (fun row => row.id = current.id) fun row =>
        { row with planKey := planKey }) =
      if current.organizationId = O then
        { standing ids O s with plan := some (PlanRepository.planKeyText planKey) }
      else standing ids O s := by
  have hselected : ∀ row ∈ s .organizationPlans, decide (row.id = current.id) = true ↔
      row.organizationId = current.organizationId ∧ () = () := by
    intro row hrow
    rw [decide_eq_true_iff]
    constructor
    · intro hid
      obtain rfl : row = current :=
        hs.eq_of_clash (C := catalog K) (t := .organizationPlans) hrow hcurrent
          (by simp [clash, hid])
      exact ⟨rfl, rfl⟩
    · rintro ⟨horganization, -⟩
      obtain rfl : row = current :=
        hs.eq_of_clash (C := catalog K) (t := .organizationPlans) hrow hcurrent
          (by simp [clash, horganization])
      rfl
  have hsome : (standing ids current.organizationId s).plan.isSome := ownedView_isSome hcurrent
  obtain ⟨plan, hplan⟩ := Option.isSome_iff_exists.mp hsome
  rw [Store.updated, standing_set_organizationPlans, ownedView_updated
    (g := fun _ => PlanRepository.planKeyText planKey) hselected]
  · split
    · next horganization =>
        subst horganization
        rw [Function.update_self]
        exact congrArg (fun plan => { standing ids current.organizationId s with plan := plan })
          (congrArg (Option.map _) hplan)
    · rfl
  · exact fun _ => rfl
  · exact fun _ => rfl
  · exact fun _ => rfl

theorem accounts_changeOrganizationPlan {params : PlanRepository.ChangeOrganizationPlanParams} :
    Accounts ids unicode (some (params.actorUserId, params.requestId)) before
      (PlanRepository.changeOrganizationPlan (moment.environment ids unicode) organizationId
        params) := by
  refine achieves_bind (achieves_findRow (t := .organizationPlans)) fun found => ?_
  cases found with
  | none => exact achieves_throw _
  | some current =>
      refine achieves_bind
        (achieves_updateById (t := .organizationPlans) fun s hs s' hs' hvalid => ?_)
        fun _ => achieves_bind (accounted_recordEvent [] [] rfl) fun _ =>
          achieves_pure fun s hs => ⟨_, hs⟩
      obtain ⟨hmem, hfound⟩ := hs.2 current rfl
      have horganization : current.organizationId = organizationId := of_decide_eq_true hfound
      subst hs'
      refine hs.1.changed (hvalid hs.1.valid) rfl fun O => ?_
      rw [foldl_publicLog_eventRow rfl
          (show Persists .planChangedDemo "plan.changed_demo" by decide),
        told_planChangedDemo ⟨rfl, untruncated_planKeyText _⟩, ← horganization]
      exact standing_updated_plan hs.1.valid hmem

/-- What may be accepted is an invitation of the table. -/
theorem achieves_findAcceptable {Pre : Store (catalog K) → Prop} {env : Environment K}
    {params : InvitationRepository.AcceptInvitationParams K} :
    Achieves Pre (InvitationRepository.findAcceptable env params)
      fun invitation s => Pre s ∧ invitation ∈ s .invitations := by
  refine achieves_bind (achieves_findRow (t := .invitations)) fun preRead => ?_
  cases preRead with
  | none => exact achieves_throw _
  | some preRead =>
      refine achieves_bind achieves_lockOrganizationEntitlements fun planKey => ?_
      refine achieves_bind (achieves_findRow (t := .invitations)) fun found => ?_
      cases found with
      | none => exact achieves_throw _
      | some invitation =>
          refine achieves_bind achieves_assertAcceptable fun _ => ?_
          refine achieves_ite (fun _ => achieves_throw _) fun _ => ?_
          refine achieves_bind (achieves_findRow (t := .memberships)) fun membership => ?_
          cases membership with
          | some membership => exact achieves_throw _
          | none =>
              refine achieves_bind (achieves_countWhere fun s _ hs => hs) fun activeMembers => ?_
              refine achieves_ite (fun _ => achieves_throw _) fun _ => achieves_pure fun s hs => ?_
              exact ⟨hs.1.1.1, (hs.1.2 invitation rfl).1⟩

/-- The events of an accepted invitation tell of different entries. -/
theorem told_accepted_comm {standing : Standing}
    {metadata metadata' : List (String × MetadataValue)} {id id' userId role : String}
    (hid : Tells metadata "targetInvitationId" id)
    (hid' : Tells metadata' "targetMembershipId" id')
    (huser : Tells metadata' "targetUserId" userId)
    (hrole : Tells metadata' "roleId" role) :
    told unicode (told unicode standing .membershipCreatedFromInvitation metadata')
        .invitationAccepted metadata =
      told unicode (told unicode standing .invitationAccepted metadata)
        .membershipCreatedFromInvitation metadata' := by
  rw [told_invitationAccepted hid, told_invitationAccepted hid,
    told_membershipCreatedFromInvitation hid' huser hrole,
    told_membershipCreatedFromInvitation hid' huser hrole]

/-- The event of the invitation. -/
def acceptedRow (env : Environment K) (params : InvitationRepository.AcceptInvitationParams K)
    (invitation : InvitationRow K) : SecurityEvent K :=
  eventRow env invitation.organizationId "invitation.accepted"
    ((params.ctx.actorMembershipId.toList.map fun id => ("actorMembershipId", .text id)) ++
      InvitationRepository.acceptedMetadata env params invitation) params.ctx.actorUserId
    params.ctx.requestId

/-- The event of the membership. -/
def joinedRow (env : Environment K) (secondEventId : K)
    (params : InvitationRepository.AcceptInvitationParams K) (invitation : InvitationRow K) :
    SecurityEvent K :=
  eventRow { env with eventId := secondEventId } invitation.organizationId
    "membership.created_from_invitation"
    ((params.ctx.actorMembershipId.toList.map fun id => ("actorMembershipId", .text id)) ++
      InvitationRepository.membershipMetadata env params invitation) params.ctx.actorUserId
    params.ctx.requestId

section Accepting

variable {params : InvitationRepository.AcceptInvitationParams K} {invitation : InvitationRow K}
  {actor : Option (String × Option String)}

/-- The acceptance accounts for the membership. -/
theorem accounted_joined (secondEventId : K) (huser : Untruncated params.acceptingUserId)
    {violation : Failure} :
    Achieves (fun s => Accounted ids unicode actor before [] [] s ∧ invitation ∈ s .invitations)
      (insertRow (C := catalog K) .memberships (fun _ => violation) Failure.unexpected
        (InvitationRepository.joined (moment.environment ids unicode) params invitation))
      fun _ s => Accounted ids unicode actor before []
          [joinedRow (moment.environment ids unicode) secondEventId params invitation] s ∧
        invitation ∈ s .invitations := by
  refine achieves_insertRow (C := catalog K) fun s hs hfresh => ⟨?_, hs.2⟩
  refine hs.1.changed (hs.1.valid.added hfresh) rfl fun O => ?_
  rw [joinedRow, foldl_publicLog_eventRow rfl (show Persists .membershipCreatedFromInvitation
      "membership.created_from_invitation" by decide),
    told_membershipCreatedFromInvitation (.after_actor ⟨rfl, ids.untruncated _⟩ (by decide) _)
      (.after_actor ⟨rfl, huser⟩ (by decide) _)
      (.after_actor ⟨rfl, untruncated_roleId _⟩ (by decide) _)]
  exact standing_added_membership hfresh

/-- The acceptance accounts for the invitation. -/
theorem accounted_used {secondEventId : K} (huser : Untruncated params.acceptingUserId) :
    Achieves (fun s => Accounted ids unicode actor before []
          [joinedRow (moment.environment ids unicode) secondEventId params invitation] s ∧
        invitation ∈ s .invitations)
      (updateById .invitations (fun (row : InvitationRow K) => row.id = invitation.id)
        (InvitationRepository.used (moment.environment ids unicode) params))
      fun _ => Accounted ids unicode actor before []
        [acceptedRow (moment.environment ids unicode) params invitation,
          joinedRow (moment.environment ids unicode) secondEventId params invitation] := by
  refine achieves_updateById (t := .invitations) fun s hs s' hs' hvalid => ?_
  subst hs'
  refine Accounted.swap (hs.1.changed (hvalid hs.1.valid) rfl fun O => ?_) fun O standing => ?_
  · rw [acceptedRow, foldl_publicLog_eventRow rfl
        (show Persists .invitationAccepted "invitation.accepted" by decide),
      told_invitationAccepted (.after_actor ⟨rfl, ids.untruncated _⟩ (by decide) _)]
    exact standing_updated_invitation hs.1.valid hs.2 (fun _ => rfl) (fun _ => rfl) fun _ => rfl
  · have haccepted : Persists .invitationAccepted "invitation.accepted" := by decide
    have hjoined : Persists .membershipCreatedFromInvitation
        "membership.created_from_invitation" := by decide
    rw [acceptedRow, joinedRow, foldl_publicLog_eventRow rfl haccepted,
      foldl_publicLog_eventRow rfl haccepted, foldl_publicLog_eventRow rfl hjoined,
      foldl_publicLog_eventRow rfl hjoined]
    split
    · exact told_accepted_comm (.after_actor ⟨rfl, ids.untruncated _⟩ (by decide) _)
        (.after_actor ⟨rfl, ids.untruncated _⟩ (by decide) _)
        (.after_actor ⟨rfl, huser⟩ (by decide) _)
        (.after_actor ⟨rfl, untruncated_roleId _⟩ (by decide) _)
    · rfl

end Accepting

theorem accounts_acceptFound {params : InvitationRepository.AcceptInvitationParams K}
    {invitation : InvitationRow K} {secondEventId : K}
    (huser : Untruncated params.acceptingUserId) :
    Achieves (fun s => Accounted ids unicode
        (some (contextNames params.ctx)) before [] [] s ∧
          invitation ∈ s .invitations)
      (InvitationRepository.acceptFound (moment.environment ids unicode) secondEventId params
        invitation)
      fun _ s => ∃ recorded, Accounted ids unicode
        (some (contextNames params.ctx)) before recorded [] s := by
  refine achieves_bind (achieves_findRow (t := .organizations)) fun found => ?_
  cases found with
  | none => exact achieves_throw _
  | some organization =>
      refine achieves_bind ((accounted_joined secondEventId huser).weaken (fun _ hs => hs.1)
        fun _ _ hs => hs) fun _ => ?_
      refine achieves_bind (accounted_used huser) fun _ => ?_
      refine achieves_bind (accounted_recordEvent [] _ rfl) fun _ => ?_
      exact achieves_bind (accounted_recordEvent _ [] rfl) fun _ =>
        achieves_pure fun s hs => ⟨_, hs⟩

theorem accounts_acceptInvitation {params : InvitationRepository.AcceptInvitationParams K}
    {secondEventId : K} (huser : Untruncated params.acceptingUserId) :
    Accounts ids unicode (some (contextNames params.ctx)) before
      (InvitationRepository.acceptInvitation (moment.environment ids unicode) secondEventId
        params) :=
  achieves_bind achieves_findAcceptable fun _ => accounts_acceptFound huser

theorem accounts_query {actor : Option (String × Option String)} {α : Type}
    (f : Store (catalog K) → α) :
    Accounts ids unicode actor before (query f : Operation K α) :=
  achieves_query fun _ hs => ⟨[], hs⟩

/-- Every repository operation accounts for its changes. -/
theorem accounts_call {α : Type} (call : Call K α)
    (huntruncated : (Request.inOrganization organizationId call).Untruncated) :
    Accounts ids unicode (Request.inOrganization organizationId call).actor before
      (call.run (moment.environment ids unicode) organizationId) := by
  cases call with
  | createProject params => exact accounts_createProject huntruncated
  | updateProject params => exact accounts_updateProject huntruncated
  | softDeleteProject params => exact accounts_softDeleteProject
  | createApiKey params => exact accounts_createApiKey huntruncated
  | revokeApiKey params => exact accounts_revokeApiKey
  | createInvitation params => exact accounts_createInvitation huntruncated
  | revokeInvitation params => exact accounts_revokeInvitation
  | changeMemberRole params => exact accounts_changeMemberRole
  | removeMember params => exact accounts_removeMember
  | listActiveProjects params => exact accounts_query _
  | findActiveProject projectId => exact accounts_query _
  | listApiKeys params => exact accounts_query _
  | listInvitations params => exact accounts_query _
  | findPendingInvitation email => exact accounts_query _
  | hasActiveMemberWithEmail email => exact accounts_query _
  | countPendingInvitations => exact accounts_query _
  | findOrganizationById => exact accounts_query _
  | findActiveMembership userId => exact accounts_query _
  | listActiveMembers params => exact accounts_query _
  | listAuditEvents params => exact accounts_query _

theorem accounts_run (request : Request K) (huntruncated : request.Untruncated) :
    Accounts ids unicode request.actor before (request.run ids unicode moment) := by
  cases request with
  | inOrganization organizationId call =>
      exact achieves_bind (accounts_call call huntruncated) fun _ => achieves_pure fun _ hs => hs
  | changeOrganizationPlan organizationId params =>
      exact achieves_bind accounts_changeOrganizationPlan fun _ => achieves_pure fun _ hs => hs
  | acceptInvitation params =>
      exact achieves_bind (accounts_acceptInvitation huntruncated) fun _ =>
        achieves_pure fun _ hs => hs

end Operations

/-! ## Runs -/

section Runs

variable {ids : Ids K} {unicode : UnicodeStrings} {s : Store (catalog K)}

/-- A request that fails records nothing and changes nothing. -/
theorem accounted_after (hs : s.Valid) (served : Moment K × Request K)
    (huntruncated : served.2.Untruncated) :
    ∃ recorded,
      Accounted ids unicode served.2.actor s recorded [] (after ids unicode s served) := by
  rw [after]
  split
  · next a s' hok => exact accounts_run served.2 huntruncated s () s' (.refl hs) hok
  · exact ⟨[], .refl hs⟩

/-- The log of a run grows by the events of its requests, and from what an organization
had before it, the new public events tell what the organization has now. -/
theorem audit_log_tells_the_state (ids : Ids K) (unicode : UnicodeStrings) (hs : s.Valid)
    {requests : List (Moment K × Request K)}
    (huntruncated : ∀ served ∈ requests, served.2.Untruncated) :
    ∃ recorded,
      requests.foldl (after ids unicode) s .securityEvents = s .securityEvents ++ recorded ∧
      (∀ event ∈ recorded, ∃ served ∈ requests, NamesActor served.2.actor event) ∧
      ∀ organizationId, standing ids organizationId (requests.foldl (after ids unicode) s) =
        (publicLog unicode organizationId recorded).foldl Standing.apply
          (standing ids organizationId s) := by
  induction requests generalizing s with
  | nil => exact ⟨[], (List.append_nil _).symm, fun _ h => absurd h List.not_mem_nil, fun _ => rfl⟩
  | cons served requests ih =>
      obtain ⟨first, hfirst⟩ : ∃ first, Accounted ids unicode served.2.actor s first []
          (after ids unicode s served) :=
        accounted_after hs served (huntruncated served List.mem_cons_self)
      obtain ⟨rest, hlog, hnamed, hstanding⟩ := ih hfirst.valid fun other hother =>
        huntruncated other (List.mem_cons_of_mem _ hother)
      refine ⟨first ++ rest, ?_, fun event hevent => ?_, fun organizationId => ?_⟩
      · rw [List.foldl_cons, hlog, hfirst.log, List.append_assoc]
      · rcases List.mem_append.mp hevent with hevent | hevent
        · exact ⟨served, List.mem_cons_self, hfirst.named event hevent⟩
        · obtain ⟨other, hother, hname⟩ := hnamed event hevent
          exact ⟨other, List.mem_cons_of_mem _ hother, hname⟩
      · rw [List.foldl_cons, hstanding, hfirst.accounts, List.append_nil, publicLog_append,
          List.foldl_append]

end Runs

section Samples

def letterIds : Ids (Fin 8) where
  text id := String.singleton (Char.ofNat (97 + id.val))
  injective a b := by
    revert a b
    decide
  untruncated := by decide

/-- Team `o` of `u`, who has invited `v`. -/
def teamOfTwo : Store (catalog (Fin 8))
  | .users =>
      [⟨"u", "u@mail", "u@mail", "hash", "U", .active, none, 0, 0, none⟩,
        ⟨"v", "v@mail", "v@mail", "hash", "V", .active, none, 0, 0, none⟩]
  | .organizations => [⟨"o", "O", "o", .team, .active, "u", 0, 0, none⟩]
  | .organizationPlans => [⟨"plan", "o", .free⟩]
  | .memberships => [⟨0, "u", "o", .owner, .active, none, 0, none, none, 0, 0⟩]
  | .invitations =>
      [⟨1, "o", "v@mail", "v@mail", .viewer, "token", .pending, "u", none, none, 9000, none, none,
        0, 0⟩]
  | _ => []

/-- `u` starts a project and moves the team to another plan; `v` accepts. -/
def teamRequests : List (Moment (Fin 8) × Request (Fin 8)) :=
  [(⟨1000, 1, 2, 0, 0⟩, .inOrganization "o" (.createProject ⟨"P", "u", ⟨"u", none, none⟩⟩)),
    (⟨2000, 2, 0, 1, 0⟩, .changeOrganizationPlan "o" ⟨.pro, "u", "a", none⟩),
    (⟨3000, 3, 3, 2, 3⟩,
      .acceptInvitation ⟨.tokenHash "token", "v", "v@mail", ⟨"v", none, none⟩⟩)]

theorem teamOfTwo_valid : teamOfTwo.Valid := by
  intro t
  cases t <;> decide

theorem team_log_tells_the_team :
    (∃ recorded, teamRequests.foldl (after letterIds OrganizationNames.asciiUnicode) teamOfTwo
        .securityEvents = teamOfTwo .securityEvents ++ recorded ∧
      (∀ event ∈ recorded, ∃ served ∈ teamRequests, NamesActor served.2.actor event) ∧
      ∀ organizationId, standing letterIds organizationId
          (teamRequests.foldl (after letterIds OrganizationNames.asciiUnicode) teamOfTwo) =
        (publicLog OrganizationNames.asciiUnicode organizationId recorded).foldl Standing.apply
          (standing letterIds organizationId teamOfTwo)) ∧
    (teamRequests.foldl (after letterIds OrganizationNames.asciiUnicode) teamOfTwo
      .securityEvents).length = 4 := by
  refine ⟨audit_log_tells_the_state letterIds OrganizationNames.asciiUnicode teamOfTwo_valid ?_,
    by decide +kernel⟩
  intro served hserved
  simp only [teamRequests, List.mem_cons, List.not_mem_nil, or_false] at hserved
  rcases hserved with rfl | rfl | rfl
  · show Untruncated "P"
    decide
  · trivial
  · show Untruncated "v"
    decide

end Samples

end Orgistry.Repositories.AuditTrail
