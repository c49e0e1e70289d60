import Orgistry.Commits.Organization

/-!
# Counting under a quota lock

What a transaction knows at its commit about a count that it took after it was
granted the quota lock and had locked the plan.
-/

namespace Orgistry.Model

open ReadCommitted

variable {cfg : Config} {tx : Tx orgistry} {u v w w' : History orgistry} {organizationId : Id}

theorem lt_of_evaluateCountQuota {current limit : ℕ}
    (h : ¬evaluateCountQuota current limit = .exceeded) : current < limit := by
  by_contra hge
  exact h (if_pos (Nat.not_lt.mp hge))

/-- An `UPDATE` writes keys of stored rows only. -/
theorem stored_of_updated {t : Table} {p : Row t → Bool} {f : Assignment orgistry t}
    {violation : ErrorCode} {got : List (Row t)} {start db : Database orgistry}
    {tx' final : Tx orgistry} (h : Selected p (.set f violation) tx start got tx')
    (hsound : final.Sound db) (hlocks : tx'.locks ⊆ final.locks)
    (hfirst : ∀ {x : Id}, (tx.writes t).get x = none) {x : Id}
    (hwritten : (tx'.writes t).get x ≠ none) : db.get t x ≠ none := by
  obtain ⟨new, hnew⟩ := Option.ne_none_iff_exists'.mp hwritten
  rw [h.writes] at hnew
  rcases Writes.get_putAll hnew with ⟨hmem, rfl⟩ | ⟨-, hown⟩
  · obtain ⟨old, -, hold, -⟩ := h.replaces hsound hlocks hmem hfirst
    simp [hold]
  · simp [hfirst] at hown

/-- An `INSERT` after writes on stored rows. -/
theorem onlyNew_add {t : Table} {row : Row t} {since db : Database orgistry}
    (h : ∀ {x : Id}, (tx.writes t).get x ≠ none → db.get t x ≠ none) :
    OnlyNew (tx.add row since) db t (rowId row) := by
  intro y hwritten hfresh
  by_contra hne
  rw [Tx.writes_add_self, Relation.get_put, if_neg hne] at hwritten
  exact h hwritten hfresh

/-- The transaction has locked the plan of the organization. -/
def PlanLocked (organizationId : Id) (planKey : PlanKey) (tx tx' : Tx orgistry) : Prop :=
  ∃ plan : OrganizationPlan, plan.organizationId = organizationId ∧ plan.planKey = planKey ∧
    ∀ {final : Tx orgistry} {db : Database orgistry}, final.Sound db →
      tx'.locks ⊆ final.locks → (db.view tx.writes .organizationPlans).get plan.id = some plan

/-- The plan that is read stays locked until the transaction ends. -/
theorem safe_lockOrganizationEntitlements
    {Q : Option PlanKey → Tx orgistry → History orgistry → Prop}
    (h : ∀ w' planKey tx', Moves (Guarantee cfg) w w' → tx.locks ⊆ tx'.locks →
      tx'.writes = tx.writes → tx'.saved = tx.saved →
      (∀ key, planKey = some key → PlanLocked organizationId key tx tx') → Q planKey tx' w') :
    Safe (Guarantee cfg) (lockOrganizationEntitlements organizationId) Q tx w := by
  refine safe_bind (safe_bind (safe_selectForShare fun w₁ plans tx' w₂ h₁ hplans h₂ => ?_))
  refine h w₂ _ tx' (h₁.moves.trans h₂.moves) hplans.locks hplans.writes hplans.saved ?_
  intro key hkey
  obtain ⟨plan, hplan, rfl⟩ := Option.map_eq_some_iff.mp hkey
  have hmem := List.mem_of_head? hplan
  refine ⟨plan, ?_, rfl, fun hsound hlocks => ?_⟩
  · obtain ⟨row, -, -, -, hp, rfl⟩ := hplans.found plan hmem
    simpa using hp
  · obtain ⟨row, hrow, -, rfl⟩ :=
      hplans.found_at (RowOp.exclusive_hold (by simp)) hsound hlocks hmem
    exact hrow

/-- The locked plan is the stored one, unless the transaction has inserted it. -/
theorem PlanLocked.stored {planKey : PlanKey} {tx' final : Tx orgistry}
    {db : Database orgistry} (h : PlanLocked organizationId planKey tx tx')
    (hsound : final.Sound db) (hlocks : tx'.locks ⊆ final.locks)
    (hown : ∀ {x : Id} {plan : OrganizationPlan},
      (tx.writes .organizationPlans).get x = some plan → plan.organizationId ≠ organizationId) :
    ∃ plan : OrganizationPlan, db.get .organizationPlans plan.id = some plan ∧
      plan.organizationId = organizationId ∧ plan.planKey = planKey := by
  obtain ⟨plan, horganization, hkey, hview⟩ := h
  refine ⟨plan, ?_, horganization, hkey⟩
  have hplan := hview hsound hlocks
  rw [Database.get_view] at hplan
  cases hwritten : (tx.writes .organizationPlans).get plan.id with
  | none => simpa [hwritten] using hplan
  | some own =>
      obtain rfl : own = plan := by simpa [hwritten] using hplan
      exact absurd horganization (hown hwritten)

/-- What the quota check of a transaction has found out, when it commits. -/
theorem PlanLocked.quotaChecked {kind : OrganizationQuotaKind} {planKey : PlanKey}
    {tx' final : Tx orgistry} {count : Database orgistry → ℕ} {limit : PlanKey → ℕ}
    (h : PlanLocked organizationId planKey tx tx') (hsound : final.Sound w.now)
    (hlocks : tx'.locks ⊆ final.locks)
    (hown : ∀ {x : Id} {plan : OrganizationPlan},
      (tx.writes .organizationPlans).get x = some plan → plan.organizationId ≠ organizationId)
    (hlock : (⟨.advisoryLocks, cfg.hashtextextended (quotaLockText kind organizationId),
      .update, u.now⟩ : Lock orgistry) ∈ final.locks)
    (horganization : u.now.get .organizations organizationId ≠ none)
    (hcount : KnownSince kind organizationId u.now w.now → count w.now < limit planKey) :
    QuotaChecked cfg final w.now kind organizationId count limit := by
  obtain ⟨plan, hstored, hid, rfl⟩ := h.stored hsound hlocks hown
  exact ⟨u.now, plan, hlock, horganization, hstored, hid, hcount⟩

/-- A row that counts at `w` and was there when the lock was granted, at `u`,
was counted at `v` in between. -/
theorem count_le_counted {t : Table} {p q : Row t → Bool} {R : Row t → Row t → Prop}
    (hbefore : Moves (Guarantee cfg) u v)
    (hpersists : ∀ {x : Id} {old : Row t}, v.now.get t x = some old →
      ∃ new : Row t, w.now.get t x = some new ∧ R old new)
    (hback : ∀ {old new : Row t}, R old new → p new → q old)
    (hfirst : ∀ {x : Id}, v.now.get t x ≠ none → (tx.writes t).get x = none)
    (hknown : ∀ {x : Id} {row : Row t}, w.now.get t x = some row → p row →
      u.now.get t x ≠ none) :
    countRows t p w.now ≤ (v.now.view tx.writes t).count q := by
  refine Relation.count_le fun x row hrow hp => ?_
  have hthere := hbefore.get_ne_none (hknown hrow hp)
  obtain ⟨old, hold⟩ := Option.ne_none_iff_exists'.mp hthere
  obtain ⟨new, hnew, hR⟩ := hpersists hold
  obtain rfl : row = new := Option.some_inj.mp (hrow.symm.trans hnew)
  refine ⟨old, ?_, hback hR hp⟩
  rw [Database.get_view, hfirst hthere, hold]
  rfl

/-- The predicate of `countActiveMembers`. -/
theorem occupies_memberships {membership : Membership} :
    occupies .members organizationId (t := .memberships) membership =
      (decide (membership.organizationId = organizationId) &&
        decide (membership.status = .active)) := by
  simp [occupies]

theorem safe_countActiveMembers {Q : ℕ → Tx orgistry → History orgistry → Prop}
    (h : ∀ w', Around (Guarantee cfg) tx w w' →
      Q ((w'.now.view tx.writes .memberships).count
        (occupies .members organizationId (t := .memberships))) tx w') :
    Safe (Guarantee cfg) (countActiveMembers organizationId) Q tx w := by
  refine safe_bind (safe_select fun w₁ h₁ => ?_)
  have hcount := h w₁ h₁
  rw [show (occupies .members organizationId (t := .memberships)) = fun (membership : Membership) =>
    decide (membership.organizationId = organizationId) && decide (membership.status = .active)
    from funext fun _ => occupies_memberships] at hcount
  exact hcount

/-- Members that count at `w` were counted at `v`. -/
theorem members_le_counted (hbefore : Moves (Guarantee cfg) u v)
    (hmoves : Moves (Guarantee cfg) v w)
    (hfirst : ∀ {x : Id}, v.now.get .memberships x ≠ none →
      (tx.writes .memberships).get x = none)
    (hknown : KnownSince .members organizationId u.now w.now) :
    countRows .memberships (occupies .members organizationId) w.now ≤
      (v.now.view tx.writes .memberships).count
        (occupies .members organizationId (t := .memberships)) := by
  refine count_le_counted (t := .memberships) (R := Membership.Later) hbefore
    (membership_persists hmoves) ?_ hfirst (fun hrow hp => hknown hrow hp)
  intro old new hlater hp
  simp only [occupies, decide_true, Bool.true_and, Bool.and_eq_true, decide_eq_true_eq] at hp ⊢
  refine ⟨hlater.organizationId.symm.trans hp.1, ?_⟩
  by_contra hended
  exact hlater.ended hended hp.2

end Orgistry.Model
