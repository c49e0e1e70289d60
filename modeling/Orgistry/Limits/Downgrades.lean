import Orgistry.Limits.Quotas

/-!
# Organizations above their limits

A downgrade deletes nothing, so it may leave an organization above the limits of
its new plan.  From then on its counts only fall, and they never exceed what some
plan of the organization has allowed.
-/

namespace Orgistry.Model

open ReadCommitted

variable {cfg : Config} {tx : Tx orgistry} {db : Database orgistry}
  {kind : OrganizationQuotaKind} {organizationId : Id}

/-- Every plan that is in force leaves no place. -/
def Exhausted (kind : OrganizationQuotaKind) (organizationId : Id) (db : Database orgistry) :
    Prop :=
  ∀ plan, InForce plan organizationId db →
    quotaLimit kind plan.planKey ≤ activeCount kind organizationId db

/-- Some plan that was in force during the run allows the count. -/
def OnceAllowed (kind : OrganizationQuotaKind) (organizationId : Id) (count : ℕ)
    (w : History orgistry) : Prop :=
  ∃ past ∈ w.timeline, ∃ plan, InForce plan organizationId past ∧
    count ≤ quotaLimit kind plan.planKey

theorem OnceAllowed.push {w : History orgistry} {count fewer : ℕ}
    (h : OnceAllowed kind organizationId count w) (hle : fewer ≤ count)
    (after : Database orgistry) : OnceAllowed kind organizationId fewer (w.push after) := by
  obtain ⟨past, hpast, plan, hplan, hcount⟩ := h
  exact ⟨past, List.mem_cons_of_mem _ hpast, plan, hplan, hle.trans hcount⟩

/-- A commit adds nothing where no place is left. -/
theorem Exhausted.commit (h : Exhausted kind organizationId db) (hG : Guarantee cfg tx db)
    (hreserves : ∀ lock ∈ tx.locks, Reserves cfg lock db)
    (horganization : db.get .organizations organizationId ≠ none) :
    activeCount kind organizationId (db.apply tx.writes) ≤ activeCount kind organizationId db := by
  obtain ⟨-, hkept | ⟨x, -, hnone, new, hnew, hoccupies⟩⟩ :=
    activeCount_commit kind hG horganization
  · exact hkept
  · have hwritten := Database.get_writes_of_new hnone hnew
    obtain ⟨plan, hplan, hfree⟩ :=
      limit_checked hreserves (hnone ▸ hG hwritten) hoccupies horganization
    exact absurd hfree (Nat.not_lt.mpr (h plan hplan))

/-- One commit, for an organization that has a plan after it. -/
theorem onceAllowed_commit {w : History orgistry} (hdb : Consistent w.now.tables)
    (hafter : Consistent (w.now.apply tx.writes).tables) (hG : Guarantee cfg tx w.now)
    (hreserves : ∀ lock ∈ tx.locks, Reserves cfg lock w.now)
    (h : ∀ plan, InForce plan organizationId w.now →
      OnceAllowed kind organizationId (activeCount kind organizationId w.now) w)
    {plan : OrganizationPlan} (hplan : InForce plan organizationId (w.now.apply tx.writes)) :
    OnceAllowed kind organizationId (activeCount kind organizationId (w.now.apply tx.writes))
      (w.push (w.now.apply tx.writes)) := by
  rcases hG.origin hplan.1 with ⟨old, hold, hstep⟩ | ⟨-, hstep⟩
  · have hforce : InForce old organizationId w.now := by
      have hsame : OrganizationPlan.id old = plan.id := Database.id_of_get hold
      refine ⟨by rw [hsame]; exact hold, ?_⟩
      rcases hstep with rfl | hstep
      · exact hplan.2
      · have hchange : OrganizationPlanStep tx w.now (some old) plan := hstep
        cases hchange with
        | change halone => exact hplan.2
    have horganization : w.now.get .organizations organizationId ≠ none :=
      hdb.referential hold (.organizations, organizationId) (by simp [rowRefs, hforce.2])
    obtain ⟨-, hkept | ⟨x, hcreated⟩⟩ := activeCount_commit kind hG horganization
    · exact (h old hforce).push hkept _
    · obtain ⟨checked, hchecked, hle⟩ := within_quota_commit hG hreserves hcreated
      exact ⟨_, List.mem_cons_self, checked, hchecked, hle⟩
  · have hassign : OrganizationPlanStep tx w.now none plan := hstep
    cases hassign with
    | assign hfree hnew =>
        -- a new organization starts on the free plan
        have hle := activeCount_founded kind hdb hafter hG hreserves hnew
        rw [hplan.2] at hle
        exact ⟨_, List.mem_cons_self, plan, hplan, hfree ▸ hle⟩

structure DowngradesKept (w : History orgistry) : Prop where
  falling : ∀ step ∈ w.steps, ∀ kind organizationId,
    step.1.get .organizations organizationId ≠ none → Exhausted kind organizationId step.1 →
      activeCount kind organizationId step.2 ≤ activeCount kind organizationId step.1
  bounded : ∀ kind organizationId plan, InForce plan organizationId w.now →
    OnceAllowed kind organizationId (activeCount kind organizationId w.now) w

variable {s : ServerState} {ok : Tx orgistry → Database orgistry → Prop}

/-- In every run, whatever plan changes and creations race with each other, an
organization at or above a limit does not grow, and it never grows beyond all the
plans that it has had. -/
theorem downgrades_are_kept (h : Reachable cfg WithinQuotas ok s) :
    DowngradesKept s.history := by
  have hinit : ∀ db : Database orgistry, WithinQuotas db → Consistent db.tables :=
    fun db hdb => hdb.consistent
  have htrace := Reachable.reserved hinit h
  constructor
  · refine htrace.forall_steps (P := fun (before after : Database orgistry) =>
      ∀ kind organizationId, before.get .organizations organizationId ≠ none →
        Exhausted kind organizationId before →
          activeCount kind organizationId after ≤ activeCount kind organizationId before) ?_ ?_
    · exact fun w n _ kind organizationId _ _ => activeCount_advance n
    · rintro w tx - - ⟨-, hG, hreserves⟩ kind organizationId horganization hexhausted
      exact hexhausted.commit hG hreserves horganization
  · refine htrace.induction (P := fun w => ∀ kind organizationId plan,
      InForce plan organizationId w.now →
        OnceAllowed kind organizationId (activeCount kind organizationId w.now) w) ?_ ?_ ?_
    · intro db hdb kind organizationId plan hplan
      have hwithin := hdb.within kind organizationId
      exact ⟨db, List.mem_cons_self, plan, hplan, Nat.not_lt.mp fun hover =>
        hwithin ⟨plan, hplan, hover⟩⟩
    · intro w n hw kind organizationId plan hplan
      exact (hw kind organizationId plan hplan).push (activeCount_advance n) _
    · rintro w tx hw hsound ⟨-, hG, hreserves⟩ ih kind organizationId plan hplan
      exact onceAllowed_commit (hw.consistent hinit)
        (hsound.consistent _ tx.current_mem_layers) hG hreserves
        (ih kind organizationId) hplan

/-- Alice takes the organization with its five keys back to the free plan, and asks
for a sixth key. -/
def afterDowngrade : ServerState :=
  (State.replay (serve sampleConfig) State.Always
    [.start (.changeDemoPlan (some ⟨1, 1⟩) 1 .free), .steps 0 40 0,
      .start (.createApiKey (some ⟨1, 1⟩)
        { organizationId := 1, expiresAt := none, secretHash := 16 }), .steps 1 40 16]
    (State.initial keyedOrganization)).get (by decide)

theorem keys_survive_a_downgrade :
    DowngradesKept afterDowngrade.history ∧
      activeCount .apiKeys 1 afterDowngrade.history.now = 4 ∧
        ∀ plan ∈ (afterDowngrade.history.now.tables .organizationPlans).rows,
          OrganizationPlan.planKey plan = .free :=
  ⟨downgrades_are_kept ((State.Reach.init keyedOrganization_withinQuotas).later
    (.of_replay (Option.some_get _).symm)), by decide⟩

end Orgistry.Model
