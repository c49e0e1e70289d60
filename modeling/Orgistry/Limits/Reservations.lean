import Orgistry.Commits.Server
import Orgistry.ReadCommitted.Guards

/-!
# What a quota lock reserves

While a transaction holds the quota lock of an organization, nobody else adds a
row that occupies the quota.  So what it has counted since the lock was granted
still bounds the rows at its commit.
-/

namespace Orgistry.Model

open ReadCommitted

variable {cfg : Config} {tx : Tx orgistry} {db : Database orgistry} {w : History orgistry}
  {kind : OrganizationQuotaKind} {organizationId : Id}

/-- An `UPDATE` only ever frees a place. -/
theorem occupies_before {t : Table} {old new : Row t}
    (hstep : Legal cfg tx db t (some old) new) (h : occupies kind organizationId new) :
    occupies kind organizationId old := by
  cases t with
  | memberships =>
      have hlater : Membership.Later old new := MembershipStep.later hstep
      simp only [occupies, Bool.and_eq_true, decide_eq_true_eq] at h ⊢
      refine ⟨⟨h.1.1, hlater.organizationId.symm.trans h.1.2⟩, ?_⟩
      by_contra hended
      exact hlater.ended hended h.2
  | invitations =>
      have hlater : Invitation.Later old new := InvitationStep.later hstep
      simp only [occupies, Bool.and_eq_true, decide_eq_true_eq] at h ⊢
      refine ⟨⟨h.1.1, hlater.organizationId.symm.trans h.1.2⟩, ?_⟩
      by_contra hsettled
      exact hlater.settled hsettled h.2
  | projects =>
      have hlater : ProjectRow.Later old new := ProjectStep.later hstep
      simp only [occupies, ProjectRepository.isActive, Bool.and_eq_true, decide_eq_true_eq,
        Option.isNone_iff_eq_none] at h ⊢
      refine ⟨h.1, hlater.organizationId.symm.trans h.2.1, ?_⟩
      by_contra hdeleted
      exact hlater.deleted hdeleted h.2.2
  | apiKeys =>
      have hlater : ApiKeyRow.Later old new := ApiKeyStep.later hstep
      simp only [occupies, Bool.and_eq_true, decide_eq_true_eq,
        Option.isNone_iff_eq_none] at h ⊢
      refine ⟨⟨h.1.1, hlater.organizationId.symm.trans h.1.2⟩, ?_⟩
      by_contra hrevoked
      exact hlater.revoked hrevoked h.2
  | users => simp [occupies] at h
  | sessions => simp [occupies] at h
  | refreshTokens => simp [occupies] at h
  | emailVerificationTokens => simp [occupies] at h
  | passwordResetTokens => simp [occupies] at h
  | pendingRegistrations => simp [occupies] at h
  | organizations => simp [occupies] at h
  | organizationPlans => simp [occupies] at h
  | advisoryLocks => simp [occupies] at h

/-- Whoever adds an occupant of the quota of an organization that is there
already holds its quota lock. -/
theorem quotaLock_of_occupies {t : Table} {new : Row t} (hstep : Legal cfg tx db t none new)
    (h : occupies kind organizationId new)
    (horganization : db.get .organizations organizationId ≠ none) :
    Holds tx.locks .advisoryLocks (cfg.hashtextextended (quotaLockText kind organizationId))
      .update := by
  cases t with
  | memberships =>
      have hmember : MembershipStep cfg tx db none new := hstep
      simp only [occupies, Bool.and_eq_true, decide_eq_true_eq] at h
      obtain ⟨⟨rfl, rfl⟩, -⟩ := h
      cases hmember with
      | found _ hnew _ _ => exact absurd hnew horganization
      | accept _ _ _ _ _ _ _ hquota _ =>
          obtain ⟨since, -, hlock, -⟩ := hquota
          exact ⟨since, hlock⟩
  | invitations =>
      have hinvited : InvitationStep cfg tx db none new := hstep
      simp only [occupies, Bool.and_eq_true, decide_eq_true_eq] at h
      obtain ⟨⟨rfl, rfl⟩, -⟩ := h
      cases hinvited with
      | create _ _ hquota _ _ =>
          obtain ⟨since, -, hlock, -⟩ := hquota
          exact ⟨since, hlock⟩
  | projects =>
      have hproject : ProjectStep cfg tx db none new := hstep
      simp only [occupies, ProjectRepository.isActive, Bool.and_eq_true, decide_eq_true_eq] at h
      obtain ⟨rfl, rfl, -⟩ := h
      cases hproject with
      | create hquota _ =>
          obtain ⟨since, -, hlock, -⟩ := hquota
          exact ⟨since, hlock⟩
  | apiKeys =>
      have hkey : ApiKeyStep cfg tx db none new := hstep
      simp only [occupies, Bool.and_eq_true, decide_eq_true_eq] at h
      obtain ⟨⟨rfl, rfl⟩, -⟩ := h
      cases hkey with
      | create _ hquota _ =>
          obtain ⟨since, -, hlock, -⟩ := hquota
          exact ⟨since, hlock⟩
  | users => simp [occupies] at h
  | sessions => simp [occupies] at h
  | refreshTokens => simp [occupies] at h
  | emailVerificationTokens => simp [occupies] at h
  | passwordResetTokens => simp [occupies] at h
  | pendingRegistrations => simp [occupies] at h
  | organizations => simp [occupies] at h
  | organizationPlans => simp [occupies] at h
  | advisoryLocks => simp [occupies] at h

/-- The occupants of a quota are those that the lock has found. -/
def Reserves (cfg : Config) (lock : Lock orgistry) (db : Database orgistry) : Prop :=
  ∀ ⦃kind : OrganizationQuotaKind⦄ ⦃organizationId : Id⦄, lock.table = .advisoryLocks →
    lock.id = cfg.hashtextextended (quotaLockText kind organizationId) →
    lock.mode = .update → lock.since.get .organizations organizationId ≠ none →
      db.get .organizations organizationId ≠ none ∧
        KnownSince kind organizationId lock.since db

/-- One commit of somebody else. -/
theorem Reserves.commit {lock : Lock orgistry} {holder : Tx orgistry}
    (h : Reserves cfg lock db) (hlock : lock ∈ holder.locks)
    (hcompatible : Compatible holder.locks tx.locks) (hG : Guarantee cfg tx db) :
    Reserves cfg lock (db.apply tx.writes) := by
  intro kind organizationId htable hid hmode hsince
  obtain ⟨horganization, hknown⟩ := h htable hid hmode hsince
  refine ⟨Database.get_apply_ne_none horganization _, fun t x new hnew hoccupies => ?_⟩
  rcases hG.origin hnew with ⟨old, hold, rfl | hstep⟩ | ⟨-, hstep⟩
  · exact hknown hold hoccupies
  · exact hknown hold (occupies_before hstep hoccupies)
  · have hheld : Holds holder.locks .advisoryLocks
        (cfg.hashtextextended (quotaLockText kind organizationId)) .update := by
      obtain ⟨table, id, mode, since⟩ := lock
      dsimp only at htable hid hmode
      subst htable hid hmode
      exact ⟨since, hlock⟩
    have hconflict := hcompatible hheld (quotaLock_of_occupies hstep hoccupies horganization)
    simp [LockMode.conflicts] at hconflict

theorem reserves_guards : Guards (Guarantee cfg) (Reserves cfg) where
  grant _ _ _ _ _ _ hsince := ⟨hsince, fun _ _ _ hrow _ => by simp [hrow]⟩
  tick _ _ _ h _ _ htable hid hmode hsince := h htable hid hmode hsince
  commit hlock _ _ hcompatible hG h := h.commit hlock hcompatible hG

/-- The commits of a run, with the promises of their quota locks. -/
def Reserved (cfg : Config) (ok : Tx orgistry → Database orgistry → Prop) (tx : Tx orgistry)
    (db : Database orgistry) : Prop :=
  ok tx db ∧ Guarantee cfg tx db ∧ ∀ lock ∈ tx.locks, Reserves cfg lock db

theorem Reachable.reserved {Init : Database orgistry → Prop}
    {ok : Tx orgistry → Database orgistry → Prop} {s : ServerState}
    (hinit : ∀ db, Init db → Consistent db.tables) (h : Reachable cfg Init ok s) :
    Trace (Reserved cfg ok) Init s.history :=
  State.Reach.guardedTrace reserves_guards hinit
    (fun request r _ htrace => safe_serve (htrace.consistent hinit) request r) h

/-- The quota check of a transaction is right about the rows at its commit. -/
theorem QuotaChecked.counted {count : Database orgistry → ℕ} {limit : PlanKey → ℕ}
    (h : QuotaChecked cfg tx db kind organizationId count limit)
    (hreserves : ∀ lock ∈ tx.locks, Reserves cfg lock db) :
    db.get .organizations organizationId ≠ none ∧ ∃ plan : OrganizationPlan,
      db.get .organizationPlans plan.id = some plan ∧ plan.organizationId = organizationId ∧
        count db < limit plan.planKey := by
  obtain ⟨since, plan, hlock, hsince, hplan, hid, hcount⟩ := h
  obtain ⟨horganization, hknown⟩ := hreserves _ hlock rfl rfl rfl hsince
  exact ⟨horganization, plan, hplan, hid, hcount hknown⟩

end Orgistry.Model
