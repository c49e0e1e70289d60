import Orgistry.Commits.Quotas

/-!
# The commits of project, API-key and plan requests
-/

namespace Orgistry.Model

open ReadCommitted

variable {cfg : Config} {tx : Tx orgistry} {u v w w' : History orgistry} {organizationId : Id}

namespace ProjectRepository

/-- Projects that count at `w` were counted at `v`. -/
theorem projects_le_counted (hbefore : Moves (Guarantee cfg) u v)
    (hmoves : Moves (Guarantee cfg) v w) (hwrites : tx.writes = Writes.none)
    (hknown : KnownSince .projects organizationId u.now w.now) :
    countRows .projects (occupies .projects organizationId) w.now ≤
      (v.now.view tx.writes .projects).count (isActive organizationId) := by
  refine count_le_counted (t := .projects) (R := ProjectRow.Later) hbefore
    (project_persists hmoves) ?_ (fun _ => by rw [hwrites]; rfl) (fun hrow hp => hknown hrow hp)
  intro old new hlater hp
  simp only [occupies, isActive, decide_true, Bool.true_and, Bool.and_eq_true,
    decide_eq_true_eq, Option.isNone_iff_eq_none] at hp ⊢
  refine ⟨hlater.organizationId.symm.trans hp.1, ?_⟩
  by_contra hdeleted
  exact hlater.deleted hdeleted hp.2

/-- The projects are counted under the lock of the organization. -/
theorem safe_createProject {params : CreateProjectParams}
    {Q : ProjectRow → Tx orgistry → History orgistry → Prop}
    (horganization : w.now.get .organizations params.organizationId ≠ none)
    (h : ∀ w' project, Moves (Guarantee cfg) w w' → Q project .begin w') :
    Safe (Guarantee cfg) (createProject cfg params) Q .begin w := by
  refine safe_transaction (safe_bind (safe_advisoryLock fun w₁ h₁ => ?_))
  refine safe_bind (safe_lockOrganizationEntitlements
    fun w₂ planKey tx₁ h₂ hlocks₁ hwrites₁ _ hplan => ?_)
  have hwrites : tx₁.writes = Writes.none := hwrites₁
  split
  · exact safe_abortWith
  · refine safe_bind (safe_select fun w₃ h₃ => ?_)
    split
    · exact safe_abortWith
    · next hroom =>
        refine safe_insert fun w₄ x h₄ _ hinsertable => ?_
        generalize hrow : ProjectRow.mk x params.organizationId params.createdByUserId none
          params.createdAt = project at *
        have horganizationId : project.organizationId = params.organizationId := by
          rw [← hrow]
        refine commits_legal (fun w₅ h₅ => ?_) fun w' hmoves => h w' _
          (h₁.moves.trans (h₂.trans (h₃.moves.trans (h₄.moves.trans hmoves))))
        have hlocks := Tx.locks_subset_add tx₁ (t := Table.projects) project w₄.now
        refine LegalWrites.insert (hwrites ▸ legalWrites_none) hinsertable h₅.sound
          (List.Subset.refl _) (ProjectStep.create ?_ (onlyNew_add (t := Table.projects) ?_))
        · rw [horganizationId]
          refine (hplan _ rfl).quotaChecked (u := w₁) h₅.sound hlocks (fun h => by cases h)
            (hlocks (hlocks₁ List.mem_cons_self)) (h₁.moves.get_ne_none horganization)
            fun hknown => ?_
          exact Nat.lt_of_le_of_lt (projects_le_counted (v := w₃) (h₂.trans h₃.moves)
            (h₄.moves.trans h₅.moves) hwrites hknown) (lt_of_evaluateCountQuota hroom)
        · intro y hwritten
          rw [hwrites] at hwritten
          exact absurd rfl hwritten

theorem safe_softDeleteProject {projectId : Id}
    {Q : Unit → Tx orgistry → History orgistry → Prop}
    (h : ∀ w', Moves (Guarantee cfg) w w' → Q () .begin w') :
    Safe (Guarantee cfg) (softDeleteProject organizationId projectId) Q .begin w := by
  refine safe_transaction (safe_bind (safe_selectOneForUpdate
    fun w₁ got tx₁ w₂ h₁ hlocked h₂ => ?_))
  have hwrites₁ : tx₁.writes = Writes.none := hlocked.writes
  split
  · exact safe_abortWith
  · refine safe_bind (safe_clock fun w₃ h₃ => ?_)
    refine safe_bind (safe_update fun w₄ got' tx₂ w₅ h₄ hdeleted h₅ => ?_)
    refine commits_legal (fun w₆ h₆ => ?_) fun w' hmoves => h w' (h₁.moves.trans
      (h₂.moves.trans (h₃.moves.trans (h₄.moves.trans (h₅.moves.trans hmoves)))))
    exact LegalWrites.update (hwrites₁ ▸ legalWrites_none) hdeleted h₆.sound
      (List.Subset.refl _) (fun _ _ => by rw [hwrites₁]; rfl) fun _ _ _ => ProjectStep.delete

end ProjectRepository

namespace ApiKeyRepository

/-- Keys that count at `w` were counted at `v`. -/
theorem apiKeys_le_counted {now : ℕ} (hbefore : Moves (Guarantee cfg) u v)
    (hmoves : Moves (Guarantee cfg) v w) (hwrites : tx.writes = Writes.none)
    (hknown : KnownSince .apiKeys organizationId u.now w.now) :
    countRows .apiKeys (isActive organizationId now) w.now ≤
      (v.now.view tx.writes .apiKeys).count (isActive organizationId now) := by
  refine count_le_counted (t := .apiKeys) (R := ApiKeyRow.Later) hbefore
    (apiKey_persists hmoves) ?_ (fun _ => by rw [hwrites]; rfl) ?_
  · intro old new hlater hp
    simp only [isActive, Bool.and_eq_true, decide_eq_true_eq, Option.isNone_iff_eq_none] at hp ⊢
    refine ⟨⟨hlater.organizationId.symm.trans hp.1.1, ?_⟩, hlater.expiresAt ▸ hp.2⟩
    by_contra hrevoked
    exact hlater.revoked hrevoked hp.1.2
  · intro x row hrow hp
    refine hknown hrow ?_
    simp only [isActive, Bool.and_eq_true, decide_eq_true_eq] at hp
    simp [occupies, hp.1]

/-- The keys are counted under the lock of the organization. -/
theorem safe_createApiKey {params : CreateApiKeyParams}
    {Q : ApiKeyRow → Tx orgistry → History orgistry → Prop}
    (horganization : w.now.get .organizations params.organizationId ≠ none)
    (hclock : params.now ≤ w.now.clock)
    (h : ∀ w' key, Moves (Guarantee cfg) w w' → Q key .begin w') :
    Safe (Guarantee cfg) (createApiKey cfg params) Q .begin w := by
  refine safe_transaction (safe_bind (safe_advisoryLock fun w₁ h₁ => ?_))
  refine safe_bind (safe_lockOrganizationEntitlements
    fun w₂ planKey tx₁ h₂ hlocks₁ hwrites₁ _ hplan => ?_)
  have hwrites : tx₁.writes = Writes.none := hwrites₁
  split
  · exact safe_abortWith
  · split
    · refine safe_bind (safe_select fun w₃ h₃ => ?_)
      split
      · exact safe_abortWith
      · next hroom =>
          refine safe_insert fun w₄ x h₄ _ hinsertable => ?_
          generalize hrow : ApiKeyRow.mk x params.organizationId params.secretHash
            params.expiresAt none params.createdByUserId = key at *
          have horganizationId : key.organizationId = params.organizationId := by
            rw [← hrow]
          refine commits_legal (fun w₅ h₅ => ?_) fun w' hmoves => h w' _
            (h₁.moves.trans (h₂.trans (h₃.moves.trans (h₄.moves.trans hmoves))))
          have hlocks := Tx.locks_subset_add tx₁ (t := Table.apiKeys) key w₄.now
          have hmoves₅ := h₁.moves.trans (h₂.trans (h₃.moves.trans
            (h₄.moves.trans h₅.moves)))
          refine LegalWrites.insert (hwrites ▸ legalWrites_none) hinsertable h₅.sound
            (List.Subset.refl _) (ApiKeyStep.create (Nat.le_trans hclock hmoves₅.clock_le) ?_
              (onlyNew_add (t := Table.apiKeys) ?_))
          · rw [horganizationId]
            refine (hplan _ rfl).quotaChecked (u := w₁) h₅.sound hlocks (fun h => by cases h)
              (hlocks (hlocks₁ List.mem_cons_self)) (h₁.moves.get_ne_none horganization)
              fun hknown => ?_
            exact Nat.lt_of_le_of_lt (apiKeys_le_counted (v := w₃) (h₂.trans h₃.moves)
              (h₄.moves.trans h₅.moves) hwrites hknown) (lt_of_evaluateCountQuota hroom)
          · intro y hwritten
            rw [hwrites] at hwritten
            exact absurd rfl hwritten
    · exact safe_abortWith

theorem safe_revokeApiKey {apiKeyId : Id}
    {Q : Bool → Tx orgistry → History orgistry → Prop}
    (h : ∀ w' answer, Moves (Guarantee cfg) w w' → Q answer .begin w') :
    Safe (Guarantee cfg) (revokeApiKey organizationId apiKeyId) Q .begin w := by
  refine safe_transaction (safe_bind (safe_selectOneForUpdate
    fun w₁ got tx₁ w₂ h₁ hlocked h₂ => ?_))
  have hwrites₁ : tx₁.writes = Writes.none := hlocked.writes
  split
  · exact safe_abortWith
  · split
    · exact commits_nothing hwrites₁ fun w' hmoves =>
        h w' _ (h₁.moves.trans (h₂.moves.trans hmoves))
    · refine safe_bind (safe_clock fun w₃ h₃ => ?_)
      refine safe_bind (safe_update fun w₄ got' tx₂ w₅ h₄ hrevoked h₅ => ?_)
      refine commits_legal (fun w₆ h₆ => ?_) fun w' hmoves => h w' _ (h₁.moves.trans
        (h₂.moves.trans (h₃.moves.trans (h₄.moves.trans (h₅.moves.trans hmoves)))))
      exact LegalWrites.update (hwrites₁ ▸ legalWrites_none) hrevoked h₆.sound
        (List.Subset.refl _) (fun _ _ => by rw [hwrites₁]; rfl) fun _ _ _ => ApiKeyStep.revoke

end ApiKeyRepository

theorem EntitlementRepository.safe_changeOrganizationPlan {targetPlanKey : PlanKey}
    {Q : PlanKey → Tx orgistry → History orgistry → Prop}
    (h : ∀ w' previous, Moves (Guarantee cfg) w w' → Q previous .begin w') :
    Safe (Guarantee cfg) (changeOrganizationPlan organizationId targetPlanKey) Q .begin w := by
  refine safe_transaction (safe_bind (safe_selectOneForUpdate
    fun w₁ got tx₁ w₂ h₁ hlocked h₂ => ?_))
  have hwrites₁ : tx₁.writes = Writes.none := hlocked.writes
  split
  · exact safe_abortWith
  · refine safe_bind (safe_update fun w₃ got' tx₂ w₄ h₃ hchanged h₄ => ?_)
    refine commits_legal (fun w₅ h₅ => ?_) fun w' hmoves => h w' _
      (h₁.moves.trans (h₂.moves.trans (h₃.moves.trans (h₄.moves.trans hmoves))))
    refine LegalWrites.update (hwrites₁ ▸ legalWrites_none) hchanged h₅.sound
      (List.Subset.refl _) (fun _ _ => by rw [hwrites₁]; rfl) fun _ _ _ =>
        OrganizationPlanStep.change fun t x ht => ?_
    rw [hchanged.writes_of_ne ht, hwrites₁]
    rfl

variable {accessToken : Option AccessClaims}

namespace ProjectService

theorem safe_createProject {createdAt : ℤ}
    {Q : ProjectRow → Tx orgistry → History orgistry → Prop}
    (h : ∀ w' project, Moves (Guarantee cfg) w w' → AuthService.Granted cfg accessToken w w' →
      Q project .begin w') :
    Safe (Guarantee cfg) (createProject cfg accessToken organizationId createdAt) Q .begin w := by
  refine safe_bind (OrganizationService.safe_authorize fun w₁ actor h₁ hgranted hexists => ?_)
  refine ProjectRepository.safe_createProject hexists fun w₂ project h₂ => ?_
  exact h w₂ project (h₁.trans h₂) (hgranted.later h₂)

theorem safe_deleteProject {projectId : Id}
    {Q : Unit → Tx orgistry → History orgistry → Prop}
    (h : ∀ w', Moves (Guarantee cfg) w w' → AuthService.Granted cfg accessToken w w' →
      Q () .begin w') :
    Safe (Guarantee cfg) (deleteProject accessToken organizationId projectId) Q .begin w := by
  refine safe_bind (OrganizationService.safe_authorize fun w₁ actor h₁ hgranted _ => ?_)
  refine ProjectRepository.safe_softDeleteProject fun w₂ h₂ => ?_
  exact h w₂ (h₁.trans h₂) (hgranted.later h₂)

end ProjectService

namespace ApiKeyService

theorem safe_requireApiKeysAccess {Q : Unit → Tx orgistry → History orgistry → Prop}
    (h : ∀ w', Moves (Guarantee cfg) w w' → Q () tx w') :
    Safe (Guarantee cfg) (requireApiKeysAccess organizationId) Q tx w := by
  refine safe_bind (safe_bind (safe_selectOne fun w₁ found h₁ _ => ?_))
  cases found with
  | none => exact safe_abortWith
  | some plan =>
      change Safe (Guarantee cfg) (if _ then _ else _) _ tx w₁
      split
      · exact h w₁ h₁.moves
      · exact safe_abortWith

theorem safe_createApiKey {input : CreateApiKeyInput}
    {Q : ApiKeyRow → Tx orgistry → History orgistry → Prop}
    (h : ∀ w' key, Moves (Guarantee cfg) w w' → AuthService.Granted cfg accessToken w w' →
      Q key .begin w') :
    Safe (Guarantee cfg) (createApiKey cfg accessToken input) Q .begin w := by
  refine safe_bind (OrganizationService.safe_authorize fun w₁ actor h₁ hgranted hexists => ?_)
  refine safe_bind (safe_requireApiKeysAccess fun w₂ h₂ => ?_)
  refine safe_bind (safe_clock fun w₃ h₃ => ?_)
  have hmoves₃ := h₂.trans h₃.moves
  refine ApiKeyRepository.safe_createApiKey (hmoves₃.get_ne_none hexists) (Nat.le_refl _)
    fun w₄ key h₄ => ?_
  have hrest := hmoves₃.trans h₄
  exact h w₄ key (h₁.trans hrest) (hgranted.later hrest)

theorem safe_revokeApiKey {apiKeyId : Id} {Q : Bool → Tx orgistry → History orgistry → Prop}
    (h : ∀ w' answer, Moves (Guarantee cfg) w w' → AuthService.Granted cfg accessToken w w' →
      Q answer .begin w') :
    Safe (Guarantee cfg) (revokeApiKey accessToken organizationId apiKeyId) Q .begin w := by
  refine safe_bind (OrganizationService.safe_authorize fun w₁ actor h₁ hgranted _ => ?_)
  refine safe_bind (safe_requireApiKeysAccess fun w₂ h₂ => ?_)
  refine ApiKeyRepository.safe_revokeApiKey fun w₃ answer h₃ => ?_
  have hrest := h₂.trans h₃
  exact h w₃ answer (h₁.trans hrest) (hgranted.later hrest)

end ApiKeyService

theorem PlanService.safe_changeDemoPlan {targetPlanKey : PlanKey}
    {Q : PlanKey → Tx orgistry → History orgistry → Prop}
    (h : ∀ w' previous, Moves (Guarantee cfg) w w' → AuthService.Granted cfg accessToken w w' →
      Q previous .begin w') :
    Safe (Guarantee cfg) (changeDemoPlan accessToken organizationId targetPlanKey) Q .begin w := by
  refine safe_bind (OrganizationService.safe_authorize fun w₁ actor h₁ hgranted _ => ?_)
  refine EntitlementRepository.safe_changeOrganizationPlan fun w₂ previous h₂ => ?_
  exact h w₂ previous (h₁.trans h₂) (hgranted.later h₂)

end Orgistry.Model
