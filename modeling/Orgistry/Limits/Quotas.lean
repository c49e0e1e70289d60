import Orgistry.Limits.Reservations
import Orgistry.Organizations.LastOwner

/-!
# Quotas of projects, API keys and members

A new project, API key or membership leaves its organization within the limit of
the plan in force, and only a change of the plan leaves it above one.
-/

namespace Orgistry.Model

open ReadCommitted

variable {cfg : Config} {tx : Tx orgistry} {db : Database orgistry}
  {kind : OrganizationQuotaKind} {organizationId : Id}

/-- The table whose rows count against the limit. -/
abbrev quotaTable : OrganizationQuotaKind → Table
  | .projects => .projects
  | .apiKeys => .apiKeys
  | .members => .memberships

def quotaLimit : OrganizationQuotaKind → PlanKey → ℕ
  | .projects => maxProjects
  | .apiKeys => maxApiKeys
  | .members => maxMembers

/-- What the creating transactions count at `now`: an expired API key takes no
place. -/
def isCounted : (kind : OrganizationQuotaKind) → Id → ℕ → Row (quotaTable kind) → Bool
  | .projects, organizationId, _ => ProjectRepository.isActive organizationId
  | .apiKeys, organizationId, now => ApiKeyRepository.isActive organizationId now
  | .members, organizationId, _ => occupies .members organizationId (t := .memberships)

def countAt (kind : OrganizationQuotaKind) (organizationId : Id) (now : ℕ)
    (db : Database orgistry) : ℕ :=
  countRows (quotaTable kind) (isCounted kind organizationId now) db

/-- The count at the instant of the database. -/
def activeCount (kind : OrganizationQuotaKind) (organizationId : Id)
    (db : Database orgistry) : ℕ :=
  countAt kind organizationId db.clock db

/-- The plan of the organization. -/
def InForce (plan : OrganizationPlan) (organizationId : Id) (db : Database orgistry) : Prop :=
  db.get .organizationPlans plan.id = some plan ∧ plan.organizationId = organizationId

def OverQuota (kind : OrganizationQuotaKind) (organizationId : Id) (db : Database orgistry) :
    Prop :=
  ∃ plan, InForce plan organizationId db ∧
    quotaLimit kind plan.planKey < activeCount kind organizationId db

/-- The step adds a row that takes a place in an organization that was there
before: a project, an unrevoked API key, or the membership of an acceptance. -/
structure Created (kind : OrganizationQuotaKind) (organizationId x : Id)
    (before after : Database orgistry) : Prop where
  organization : before.get .organizations organizationId ≠ none
  absent : before.get (quotaTable kind) x = none
  added : ∃ new : Row (quotaTable kind), after.get (quotaTable kind) x = some new ∧
    occupies kind organizationId new

def PlanChanged (organizationId : Id) (before after : Database orgistry) : Prop :=
  ∃ x, ∃ old new : OrganizationPlan, before.get .organizationPlans x = some old ∧
    after.get .organizationPlans x = some new ∧ old.organizationId = organizationId ∧
      old.planKey ≠ new.planKey

theorem occupies_of_isCounted (kind : OrganizationQuotaKind) {now : ℕ} {row : Row (quotaTable kind)}
    (h : isCounted kind organizationId now row) : occupies kind organizationId row := by
  cases kind with
  | projects => simpa [isCounted, occupies] using h
  | apiKeys =>
      simp only [isCounted, ApiKeyRepository.isActive, Bool.and_eq_true] at h
      simp only [occupies, decide_true, Bool.true_and, Bool.and_eq_true]
      exact h.1
  | members => exact h

/-- Time only takes rows out of the count. -/
theorem isCounted_mono {now later : ℕ} (hle : now ≤ later) {row : Row (quotaTable kind)}
    (h : isCounted kind organizationId later row) : isCounted kind organizationId now row := by
  cases kind with
  | projects => exact h
  | apiKeys =>
      simp only [isCounted, ApiKeyRepository.isActive, Bool.and_eq_true] at h ⊢
      refine ⟨h.1, ?_⟩
      have hlive := h.2
      cases hexpires : ApiKeyRow.expiresAt row with
      | none => simp
      | some expiresAt =>
          simp only [hexpires, Option.all_some, decide_eq_true_eq] at hlive ⊢
          omega
  | members => exact h

/-- An `UPDATE` leaves what is counted as it was, apart from columns that do not
matter. -/
theorem isCounted_before {now : ℕ} {old new : Row (quotaTable kind)}
    (hstep : Legal cfg tx db (quotaTable kind) (some old) new)
    (h : isCounted kind organizationId now new) : isCounted kind organizationId now old := by
  have hoccupies := occupies_before hstep (occupies_of_isCounted _ h)
  cases kind with
  | projects => simpa [isCounted, occupies] using hoccupies
  | apiKeys =>
      have hlater : ApiKeyRow.Later old new := ApiKeyStep.later hstep
      simp only [isCounted, ApiKeyRepository.isActive, occupies, decide_true, Bool.true_and,
        Bool.and_eq_true] at h hoccupies ⊢
      rw [← hlater.expiresAt]
      exact ⟨hoccupies, h.2⟩
  | members => exact hoccupies

theorem countAt_anti {now later : ℕ} (hle : now ≤ later) :
    countAt kind organizationId later db ≤ countAt kind organizationId now db := by
  unfold countAt countRows
  exact Relation.count_le fun _ row hrow hp => ⟨row, hrow, isCounted_mono hle hp⟩

theorem activeCount_advance (n : ℕ) :
    activeCount kind organizationId (db.advance n) ≤ activeCount kind organizationId db :=
  countAt_anti (Nat.le_add_right db.clock n)

/-- The occupants are at least those that count. -/
theorem activeCount_le_occupants :
    activeCount kind organizationId db ≤
      countRows (quotaTable kind) (occupies kind organizationId) db := by
  unfold activeCount countAt countRows
  exact Relation.count_le fun _ row hrow hp => ⟨row, hrow, occupies_of_isCounted _ hp⟩

section Commit

variable {x y : Id} {new : Row (quotaTable kind)}

/-- The commit of a new row has found a place for it. -/
theorem limit_checked (hreserves : ∀ lock ∈ tx.locks, Reserves cfg lock db)
    (hstep : Legal cfg tx db (quotaTable kind) none new) (h : occupies kind organizationId new)
    (horganization : db.get .organizations organizationId ≠ none) :
    ∃ plan, InForce plan organizationId db ∧
      activeCount kind organizationId db < quotaLimit kind plan.planKey := by
  cases kind with
  | projects =>
      have hproject : ProjectStep cfg tx db none new := hstep
      simp only [occupies, ProjectRepository.isActive, decide_true, Bool.true_and,
        Bool.and_eq_true, decide_eq_true_eq] at h
      obtain ⟨rfl, -⟩ := h
      cases hproject with
      | create hquota honly =>
          obtain ⟨-, plan, hplan, hid, hcount⟩ := hquota.counted hreserves
          have hle : activeCount .projects new.organizationId db ≤
              countRows .projects (occupies .projects new.organizationId) db :=
            activeCount_le_occupants
          exact ⟨plan, ⟨hplan, hid⟩, Nat.lt_of_le_of_lt hle hcount⟩
  | apiKeys =>
      have hkey : ApiKeyStep cfg tx db none new := hstep
      simp only [occupies, decide_true, Bool.true_and, Bool.and_eq_true, decide_eq_true_eq] at h
      obtain ⟨rfl, -⟩ := h
      cases hkey with
      | create hclock hquota honly =>
          obtain ⟨-, plan, hplan, hid, hcount⟩ := hquota.counted hreserves
          have hle : activeCount .apiKeys new.organizationId db ≤
              countAt .apiKeys new.organizationId _ db := countAt_anti hclock
          exact ⟨plan, ⟨hplan, hid⟩, Nat.lt_of_le_of_lt hle hcount⟩
  | members =>
      have hmember : MembershipStep cfg tx db none new := hstep
      simp only [occupies, decide_true, Bool.true_and, Bool.and_eq_true, decide_eq_true_eq] at h
      obtain ⟨rfl, -⟩ := h
      cases hmember with
      | found _ hnew _ _ => exact absurd hnew horganization
      | accept params _ _ _ _ _ _ hquota _ =>
          obtain ⟨-, plan, hplan, hid, hcount⟩ := hquota.counted hreserves
          exact ⟨plan, ⟨hplan, hid⟩, hcount⟩

/-- A commit adds at most one row to the quota. -/
theorem created_unique (hG : Guarantee cfg tx db)
    (hnew : (db.apply tx.writes).get (quotaTable kind) x = some new)
    (hnone : db.get (quotaTable kind) x = none) (h : occupies kind organizationId new)
    (horganization : db.get .organizations organizationId ≠ none)
    {other : Row (quotaTable kind)}
    (hother : (db.apply tx.writes).get (quotaTable kind) y = some other)
    (hnone' : db.get (quotaTable kind) y = none) (h' : occupies kind organizationId other) :
    y = x := by
  have hwritten := Database.get_writes_of_new hnone hnew
  have hwritten' := Database.get_writes_of_new hnone' hother
  have hid : rowId new = x := Database.id_of_get hnew
  have hstep := hnone ▸ hG hwritten
  have hstep' := hnone' ▸ hG hwritten'
  cases kind with
  | projects =>
      have hproject : ProjectStep cfg tx db none new := hstep
      cases hproject with
      | create _ honly => exact (honly (by simp [hwritten']) hnone').trans hid
  | apiKeys =>
      have hkey : ApiKeyStep cfg tx db none new := hstep
      cases hkey with
      | create _ _ honly => exact (honly (by simp [hwritten']) hnone').trans hid
  | members =>
      have hmember : MembershipStep cfg tx db none new := hstep
      have hmember' : MembershipStep cfg tx db none other := hstep'
      simp only [occupies, decide_true, Bool.true_and, Bool.and_eq_true, decide_eq_true_eq] at h h'
      cases hmember with
      | found _ hfresh _ _ =>
          rw [h.1] at hfresh
          exact absurd hfresh horganization
      | accept _ _ _ _ _ _ _ _ hfounders =>
          rcases hfounders hwritten' with heq | hfounder
          · exact heq.trans hid
          · cases hmember' with
            | found _ hfresh _ _ =>
                rw [h'.1] at hfresh
                exact absurd hfresh horganization
            | accept => simp [acceptedMembership] at hfounder

theorem plan_unique (hdb : Consistent db.tables) {plan other : OrganizationPlan}
    (h : InForce plan organizationId db) (h' : InForce other organizationId db) :
    plan = other := by
  by_cases hid : plan.id = other.id
  · exact stored_unique (t := .organizationPlans) h.1 h'.1 hid
  · have hconflict := hdb.unique h.1 h'.1 hid
    simp [rowConflict, h.2, h'.2] at hconflict

/-- The plan that is in force stays in force in a commit that adds a row. -/
theorem InForce.commit {plan : OrganizationPlan} (h : InForce plan organizationId db)
    (hG : Guarantee cfg tx db) {t : Table} {x : Id} (ht : t ≠ .organizationPlans)
    (hwritten : (tx.writes t).get x ≠ none) :
    InForce plan organizationId (db.apply tx.writes) := by
  obtain ⟨new, hnew, rfl | hstep⟩ := hG.step h.1
  · exact ⟨hnew, h.2⟩
  · have hplan : OrganizationPlanStep tx db (some plan) new := hstep
    cases hplan with
    | change halone => exact absurd (halone t x ht) hwritten

/-- A commit counts at most one row more, and if so it has created one. -/
theorem activeCount_commit (kind : OrganizationQuotaKind) (hG : Guarantee cfg tx db)
    (horganization : db.get .organizations organizationId ≠ none) :
    activeCount kind organizationId (db.apply tx.writes) ≤
        activeCount kind organizationId db + 1 ∧
      (activeCount kind organizationId (db.apply tx.writes) ≤
          activeCount kind organizationId db ∨
        ∃ x, Created kind organizationId x db (db.apply tx.writes)) := by
  -- a counted row that was there before was counted before
  have hstay : ∀ {y : Id} {row old : Row (quotaTable kind)},
      (db.apply tx.writes).get (quotaTable kind) y = some row →
      isCounted kind organizationId db.clock row → db.get (quotaTable kind) y = some old →
        isCounted kind organizationId db.clock old := by
    intro y row old hrow hp hold
    obtain ⟨row', hrow', rfl | hstep⟩ := hG.step hold
    · obtain rfl := Option.some_inj.mp (hrow.symm.trans hrow')
      exact hp
    · obtain rfl := Option.some_inj.mp (hrow.symm.trans hrow')
      exact isCounted_before hstep hp
  by_cases hnew : ∃ x row, (db.apply tx.writes).get (quotaTable kind) x = some row ∧
      db.get (quotaTable kind) x = none ∧ isCounted kind organizationId db.clock row
  · obtain ⟨x, new, hget, hnone, hp⟩ := hnew
    refine ⟨?_, .inr ⟨x, horganization, hnone, new, hget, occupies_of_isCounted _ hp⟩⟩
    unfold activeCount countAt countRows
    refine Relation.count_le_add [x] fun y row hrow hcounted => ?_
    · cases hold : db.get (quotaTable kind) y with
      | none =>
          have heq := created_unique hG hget hnone (occupies_of_isCounted _ hp) horganization hrow
            hold (occupies_of_isCounted _ hcounted)
          exact .inl (by simp [heq])
      | some old => exact .inr ⟨old, hold, hstay hrow hcounted hold⟩
  · have hle : activeCount kind organizationId (db.apply tx.writes) ≤
        activeCount kind organizationId db := by
      unfold activeCount countAt countRows
      refine Relation.count_le fun y row hrow hcounted => ?_
      cases hold : db.get (quotaTable kind) y with
      | none => exact absurd ⟨y, row, hrow, hold, hcounted⟩ hnew
      | some old => exact ⟨old, hold, hstay hrow hcounted hold⟩
    exact ⟨Nat.le_succ_of_le hle, .inl hle⟩

/-- Occupants refer to their organization. -/
theorem organization_of_occupies (kind : OrganizationQuotaKind)
    {new : Row (quotaTable kind)} (hdb : Consistent db.tables)
    (hrow : db.get (quotaTable kind) x = some new) (h : occupies kind organizationId new) :
    db.get .organizations organizationId ≠ none := by
  have hrefs := hdb.referential hrow (.organizations, organizationId)
  cases kind with
  | projects =>
      simp only [occupies, ProjectRepository.isActive, decide_true, Bool.true_and,
        Bool.and_eq_true, decide_eq_true_eq] at h
      exact hrefs (by simp [rowRefs, h.1])
  | apiKeys =>
      simp only [occupies, decide_true, Bool.true_and, Bool.and_eq_true, decide_eq_true_eq] at h
      exact hrefs (by simp [rowRefs, h.1])
  | members =>
      simp only [occupies, decide_true, Bool.true_and, Bool.and_eq_true, decide_eq_true_eq] at h
      exact hrefs (by simp [rowRefs, h.1])

/-- An organization is founded with one member. -/
theorem founder_unique (hdb : Consistent db.tables)
    (hafter : Consistent (db.apply tx.writes).tables) (hG : Guarantee cfg tx db)
    (hreserves : ∀ lock ∈ tx.locks, Reserves cfg lock db)
    (horganization : db.get .organizations organizationId = none) {membership other : Membership}
    (hnew : (db.apply tx.writes).get .memberships x = some membership)
    (h : occupies .members organizationId (t := .memberships) membership)
    (hother : (db.apply tx.writes).get .memberships y = some other)
    (h' : occupies .members organizationId (t := .memberships) other) : x = y := by
  -- who joins an organization that is not there yet is its creator
  have hcreator : ∀ {z : Id} {row : Membership},
      (db.apply tx.writes).get .memberships z = some row →
      occupies .members organizationId (t := .memberships) row →
        row.organizationId = organizationId ∧ row.status = .active ∧
          ∃ organization : Organization,
            (db.apply tx.writes).get .organizations organizationId = some organization ∧
            organization.createdByUserId = row.userId := by
    intro z row hrow hoccupies
    have hwhere := hoccupies
    simp only [occupies, decide_true, Bool.true_and, Bool.and_eq_true, decide_eq_true_eq] at hwhere
    refine ⟨hwhere.1, hwhere.2, ?_⟩
    rcases hG.origin hrow with ⟨old, hold, hstep⟩ | ⟨-, hstep⟩
    · have hbefore : occupies .members organizationId (t := .memberships) old := by
        rcases hstep with rfl | hstep
        · exact hoccupies
        · exact occupies_before hstep hoccupies
      exact absurd horganization (organization_of_occupies .members hdb hold hbefore)
    · have hmember : MembershipStep cfg tx db none row := hstep
      obtain ⟨rfl, -⟩ := hwhere
      cases hmember with
      | found _ _ hstored hfounder => exact ⟨_, hstored, hfounder⟩
      | accept _ _ _ _ _ _ _ hquota _ =>
          exact absurd horganization (hquota.counted hreserves).1
  obtain ⟨hid, hactive, organization, hstored, huser⟩ := hcreator hnew h
  obtain ⟨hid', hactive', organization', hstored', huser'⟩ := hcreator hother h'
  obtain rfl := Option.some_inj.mp (hstored.symm.trans hstored')
  by_contra hne
  have hconflict := hafter.unique hnew hother hne
  simp [rowConflict, hactive, hactive', hid, hid', ← huser, ← huser'] at hconflict

/-- Projects and keys are created in organizations that are there already. -/
theorem Guarantee.organization_of_created (hG : Guarantee cfg tx db)
    (hdb : Consistent db.tables) (hreserves : ∀ lock ∈ tx.locks, Reserves cfg lock db)
    (hkind : kind ≠ .members)
    (hnew : (db.apply tx.writes).get (quotaTable kind) x = some new)
    (h : occupies kind organizationId new) : db.get .organizations organizationId ≠ none := by
  rcases hG.origin hnew with ⟨old, hold, rfl | hstep⟩ | ⟨-, hstep⟩
  · exact organization_of_occupies _ hdb hold h
  · exact organization_of_occupies _ hdb hold (occupies_before hstep h)
  · cases kind with
    | projects =>
        have hproject : ProjectStep cfg tx db none new := hstep
        simp only [occupies, ProjectRepository.isActive, decide_true, Bool.true_and,
          Bool.and_eq_true, decide_eq_true_eq] at h
        obtain ⟨rfl, -⟩ := h
        cases hproject with
        | create hquota _ => exact (hquota.counted hreserves).1
    | apiKeys =>
        have hkey : ApiKeyStep cfg tx db none new := hstep
        simp only [occupies, decide_true, Bool.true_and, Bool.and_eq_true, decide_eq_true_eq] at h
        obtain ⟨rfl, -⟩ := h
        cases hkey with
        | create _ hquota _ => exact (hquota.counted hreserves).1
    | members => exact absurd rfl hkind

/-- A new organization starts within the limits of the free plan. -/
theorem activeCount_founded (kind : OrganizationQuotaKind) (hdb : Consistent db.tables)
    (hafter : Consistent (db.apply tx.writes).tables) (hG : Guarantee cfg tx db)
    (hreserves : ∀ lock ∈ tx.locks, Reserves cfg lock db)
    (horganization : db.get .organizations organizationId = none) :
    activeCount kind organizationId (db.apply tx.writes) ≤ quotaLimit kind .free := by
  have hempty : ∀ extra : List Id, (∀ y row,
      (db.apply tx.writes).get (quotaTable kind) y = some row →
        isCounted kind organizationId db.clock row → y ∈ extra) →
      activeCount kind organizationId (db.apply tx.writes) ≤ extra.length := by
    intro extra hall
    have hle : ((db.apply tx.writes).tables (quotaTable kind)).count
        (isCounted kind organizationId db.clock) ≤
          (noRows (quotaTable kind)).count (fun _ => false) + extra.length :=
      Relation.count_le_add extra fun y row hrow hp => .inl (hall y row hrow hp)
    simpa [activeCount, countAt, countRows, noRows, Relation.empty, Relation.count] using hle
  by_cases hany : ∃ x row, (db.apply tx.writes).get (quotaTable kind) x = some row ∧
      isCounted kind organizationId db.clock row
  · obtain ⟨x, new, hnew, hp⟩ := hany
    have hoccupies := occupies_of_isCounted _ hp
    cases kind with
    | members =>
        refine Nat.le_trans (hempty [x] fun y row hrow hcounted => ?_)
          (show 1 ≤ maxMembers .free by decide)
        have heq := founder_unique hdb hafter hG hreserves horganization hnew hoccupies hrow
          (occupies_of_isCounted .members hcounted)
        simp [heq]
    | projects =>
        exact absurd horganization
          (hG.organization_of_created hdb hreserves (by simp) hnew hoccupies)
    | apiKeys =>
        exact absurd horganization
          (hG.organization_of_created hdb hreserves (by simp) hnew hoccupies)
  · refine Nat.le_trans (hempty [] fun y row hrow hp => ?_) (Nat.zero_le _)
    exact absurd ⟨y, row, hrow, hp⟩ hany

/-- One commit, and the plan that is in force after it. -/
theorem overQuota_commit (hdb : Consistent db.tables)
    (hafter : Consistent (db.apply tx.writes).tables) (hG : Guarantee cfg tx db)
    (hreserves : ∀ lock ∈ tx.locks, Reserves cfg lock db)
    (h : OverQuota kind organizationId (db.apply tx.writes)) :
    OverQuota kind organizationId db ∨
      PlanChanged organizationId db (db.apply tx.writes) := by
  obtain ⟨plan, ⟨hplan, hid⟩, hover⟩ := h
  rcases hG.origin hplan with ⟨old, hold, hstep⟩ | ⟨-, hstep⟩
  · have hforce : InForce old organizationId db := by
      have hsame : OrganizationPlan.id old = plan.id := Database.id_of_get hold
      refine ⟨by rw [hsame]; exact hold, ?_⟩
      rcases hstep with rfl | hstep
      · exact hid
      · have hchange : OrganizationPlanStep tx db (some old) plan := hstep
        cases hchange with
        | change halone => exact hid
    by_cases hkey : old.planKey = plan.planKey
    · -- under the same plan the count has not grown past the limit
      have horganization : db.get .organizations organizationId ≠ none :=
        hdb.referential hold (.organizations, organizationId) (by simp [rowRefs, hforce.2])
      obtain ⟨hle, hkept | ⟨x, -, hnone, new, hnew, hoccupies⟩⟩ :=
        activeCount_commit kind hG horganization
      · exact .inl ⟨old, hforce, hkey ▸ Nat.lt_of_lt_of_le hover hkept⟩
      · have hwritten := Database.get_writes_of_new hnone hnew
        obtain ⟨checked, hchecked, hfree⟩ :=
          limit_checked hreserves (hnone ▸ hG hwritten) hoccupies horganization
        rw [plan_unique hdb hchecked hforce, hkey] at hfree
        omega
    · exact .inr ⟨_, old, plan, hold, hplan, hforce.2, hkey⟩
  · have hassign : OrganizationPlanStep tx db none plan := hstep
    cases hassign with
    | assign hfree hnew =>
        -- a new organization starts on the free plan
        have hle := activeCount_founded kind hdb hafter hG hreserves hnew
        rw [hid] at hle
        rw [hfree] at hover
        omega

/-- A new row leaves its organization within the limit. -/
theorem within_quota_commit (hG : Guarantee cfg tx db)
    (hreserves : ∀ lock ∈ tx.locks, Reserves cfg lock db)
    (h : Created kind organizationId x db (db.apply tx.writes)) :
    ∃ plan, InForce plan organizationId (db.apply tx.writes) ∧
      activeCount kind organizationId (db.apply tx.writes) ≤ quotaLimit kind plan.planKey := by
  obtain ⟨new, hnew, hoccupies⟩ := h.added
  have hwritten := Database.get_writes_of_new h.absent hnew
  obtain ⟨plan, hplan, hfree⟩ :=
    limit_checked hreserves (h.absent ▸ hG hwritten) hoccupies h.organization
  have hle := (activeCount_commit kind hG h.organization).1
  have ht : quotaTable kind ≠ .organizationPlans := by cases kind <;> simp
  exact ⟨plan, hplan.commit hG (x := x) ht (by simp [hwritten]), by omega⟩

end Commit

/-! ## Runs -/

/-- A database to start from: its constraints hold, and no quota is exceeded. -/
structure WithinQuotas (db : Database orgistry) : Prop where
  consistent : Consistent db.tables
  within : ∀ kind organizationId, ¬OverQuota kind organizationId db

structure QuotasKept (w : History orgistry) : Prop where
  created : ∀ step ∈ w.steps, ∀ kind organizationId x,
    Created kind organizationId x step.1 step.2 → ∃ plan, InForce plan organizationId step.2 ∧
      activeCount kind organizationId step.2 ≤ quotaLimit kind plan.planKey
  exceeded : ∀ step ∈ w.steps, ∀ kind organizationId, OverQuota kind organizationId step.2 →
    OverQuota kind organizationId step.1 ∨ PlanChanged organizationId step.1 step.2
  changed : ∀ kind organizationId, OverQuota kind organizationId w.now →
    ∃ step ∈ w.steps, PlanChanged organizationId step.1 step.2

variable {s : ServerState} {ok : Tx orgistry → Database orgistry → Prop}

/-- In every run, whatever requests race with each other, no creation exceeds a
quota. -/
theorem quotas_are_kept (h : Reachable cfg WithinQuotas ok s) : QuotasKept s.history := by
  have hinit : ∀ db : Database orgistry, WithinQuotas db → Consistent db.tables :=
    fun db hdb => hdb.consistent
  have htrace := Reachable.reserved hinit h
  -- time exceeds nothing
  have htick : ∀ {db : Database orgistry} {n kind organizationId},
      OverQuota kind organizationId (db.advance n) → OverQuota kind organizationId db := by
    rintro db n kind organizationId ⟨plan, hplan, hover⟩
    exact ⟨plan, hplan, Nat.lt_of_lt_of_le hover (activeCount_advance n)⟩
  refine ⟨?_, ?_, ?_⟩
  · refine htrace.forall_steps (P := fun before after => ∀ kind organizationId x,
      Created kind organizationId x before after → ∃ plan, InForce plan organizationId after ∧
        activeCount kind organizationId after ≤ quotaLimit kind plan.planKey) ?_ ?_
    · rintro w n - kind organizationId x hcreated
      obtain ⟨new, hnew, -⟩ := hcreated.added
      exact absurd (hcreated.absent.symm.trans hnew) (by simp)
    · rintro w tx hw - ⟨-, hG, hreserves⟩ kind organizationId x hcreated
      exact within_quota_commit hG hreserves hcreated
  · refine htrace.forall_steps (P := fun before after => ∀ kind organizationId,
      OverQuota kind organizationId after → OverQuota kind organizationId before ∨
        PlanChanged organizationId before after) ?_ ?_
    · exact fun w n _ kind organizationId hover => .inl (htick hover)
    · rintro w tx hw hsound ⟨-, hG, hreserves⟩ kind organizationId hover
      exact overQuota_commit (hw.consistent hinit)
        (hsound.consistent _ tx.current_mem_layers) hG hreserves hover
  · refine htrace.induction (P := fun w => ∀ kind organizationId,
      OverQuota kind organizationId w.now →
        ∃ step ∈ w.steps, PlanChanged organizationId step.1 step.2) ?_ ?_ ?_
    · exact fun db hdb kind organizationId hover => absurd hover (hdb.within kind organizationId)
    · intro w n hw kind organizationId hover
      obtain ⟨step, hstep, hchanged⟩ := hw kind organizationId (htick hover)
      exact ⟨step, List.mem_cons_of_mem _ hstep, hchanged⟩
    · rintro w tx hw hsound ⟨-, hG, hreserves⟩ ih kind organizationId hover
      rcases overQuota_commit (hw.consistent hinit)
        (hsound.consistent _ tx.current_mem_layers) hG hreserves hover with hbefore | hchanged
      · obtain ⟨step, hstep, hchanged⟩ := ih kind organizationId hbefore
        exact ⟨step, List.mem_cons_of_mem _ hstep, hchanged⟩
      · exact ⟨(w.now, w.now.apply tx.writes), by simp, hchanged⟩

/-- The organization of Alice and Bob with five unrevoked keys, one of them
expired. -/
def keyedOrganization : Database orgistry where
  tables
    | .apiKeys => ((noRows .apiKeys).put (sampleKey 11 none) |>.put (sampleKey 12 none)
        |>.put (sampleKey 13 none) |>.put (sampleKey 14 none) |>.put (sampleKey 15 (some 1)))
    | t => sampleOrganization.tables t
  clock := 1
where
  sampleKey (id : Id) (expiresAt : Option ℕ) : ApiKeyRow :=
    { id, organizationId := 1, secretHash := id, expiresAt, revokedAt := none,
      createdByUserId := 1 }

theorem keyedOrganization_withinQuotas : WithinQuotas keyedOrganization where
  consistent := .of_rows (by intro t; cases t <;> decide) (by intro t; cases t <;> decide)
  within kind organizationId := by
    rintro ⟨plan, ⟨hplan, rfl⟩, hover⟩
    have hall : ∀ plan ∈ (keyedOrganization.tables .organizationPlans).rows,
        ∀ kind, activeCount kind (OrganizationPlan.organizationId plan) keyedOrganization ≤
          quotaLimit kind (OrganizationPlan.planKey plan) := by
      intro plan hplan kind
      cases kind <;> revert plan <;> decide
    exact absurd hover (Nat.not_lt.mpr (hall plan (Relation.mem_of_get hplan) kind))

/-- Alice creates one more key. -/
def afterFifthKey : ServerState :=
  (State.replay (serve sampleConfig) State.Always
    [.start (.createApiKey (some ⟨1, 1⟩)
        { organizationId := 1, expiresAt := none, secretHash := 16 }), .steps 0 40 16]
    (State.initial keyedOrganization)).get (by decide)

theorem afterFifthKey_reachable :
    Reachable sampleConfig WithinQuotas State.Always afterFifthKey :=
  (State.Reach.init keyedOrganization_withinQuotas).later (.of_replay (Option.some_get _).symm)

theorem expired_key_takes_no_place :
    QuotasKept afterFifthKey.history ∧
      ∃ step ∈ afterFifthKey.history.steps, ∃ key ∈ (step.2.tables .apiKeys).rows,
        step.1.get .apiKeys (ApiKeyRow.id key) = none ∧
          activeCount .apiKeys 1 step.2 = quotaLimit .apiKeys .pro :=
  ⟨quotas_are_kept afterFifthKey_reachable, by decide⟩

/-- The unrevoked keys alone exceed the limit. -/
theorem six_unrevoked_keys :
    ¬∀ (cfg : Config) (s : ServerState), Reachable cfg WithinQuotas State.Always s →
      ∀ step ∈ s.history.steps, ∀ kind organizationId x,
        Created kind organizationId x step.1 step.2 →
          ∃ plan, InForce plan organizationId step.2 ∧
            countRows (quotaTable kind) (occupies kind organizationId) step.2 ≤
              quotaLimit kind plan.planKey := by
  intro hclaim
  obtain ⟨step, hstep, horganization, habsent, key, hkey, hid, hoccupies, hplans, hcount⟩ :
      ∃ step ∈ afterFifthKey.history.steps, step.1.get .organizations 1 ≠ none ∧
        step.1.get .apiKeys 16 = none ∧ ∃ key ∈ (step.2.tables .apiKeys).rows,
          ApiKeyRow.id key = 16 ∧ occupies .apiKeys 1 (t := .apiKeys) key ∧
          (∀ plan ∈ (step.2.tables .organizationPlans).rows,
            OrganizationPlan.planKey plan = .pro) ∧
          countRows .apiKeys (occupies .apiKeys 1) step.2 = 6 := by
    decide
  have hget : step.2.get .apiKeys 16 = some key := by
    rw [← hid]
    exact Relation.mem_rows_iff.mp hkey
  obtain ⟨plan, ⟨hplan, -⟩, hle⟩ := hclaim sampleConfig afterFifthKey afterFifthKey_reachable
    step hstep .apiKeys 1 16 ⟨horganization, habsent, key, hget, hoccupies⟩
  have hpro : plan.planKey = .pro := hplans plan (Relation.mem_of_get hplan)
  have hlimit : countRows .apiKeys (occupies .apiKeys 1) step.2 ≤ maxApiKeys plan.planKey := hle
  rw [hcount, hpro] at hlimit
  exact absurd hlimit (by decide)

end Orgistry.Model
