import Mathlib.Algebra.Order.BigOperators.Group.List
import Mathlib.Logic.Function.Iterate
import Mathlib.Tactic.Push
import Orgistry.Model.Retention

/-!
# Retention deletes what is old, and when it comes to rest

Whatever a run does, it removes only rows past the cutoff of their own table, and
no session before everything that refers to it.  Repeated runs come to rest unless
sessions are swept without security events: an old event that nobody deletes
holds its session by the foreign key, and the batch that selects it fails.
-/

namespace Orgistry.Maintenance

open Model

/-- The category that deletes from a table. -/
def categoryOf : RetentionTable → RetentionCategory
  | .securityEvents => .securityEvents
  | .refreshTokens => .expiredRefreshTokens
  | .sessions => .expiredSessions
  | .emailVerificationTokens => .expiredEmailVerificationTokens
  | .passwordResetTokens => .expiredPasswordResetTokens
  | .pendingRegistrations => .expiredPendingRegistrations

section Swept

variable (windows : RetentionWindows) (now : ℤ)

def PastCutoff (table : RetentionTable) (row : RetainedRow) : Prop :=
  row.retentionAt < retentionCutoff (categoryOf table) windows now

/-- The row is past its own cutoff, and so is every row that refers to it. -/
def Removable (database : RetentionDatabase) (table : RetentionTable) (row : RetainedRow) : Prop :=
  PastCutoff windows now table row ∧
    (table = .sessions → ∀ other, ∀ referrer ∈ database.rows other,
      referrer.sessionId = some row.id → PastCutoff windows now other referrer)

/-- What sweeping the categories may turn a database into. -/
structure Swept (categories : List RetentionCategory) (before after : RetentionDatabase) :
    Prop where
  sublist : ∀ table, (after.rows table).Sublist (before.rows table)
  removed : ∀ table, ∀ row ∈ before.rows table, row ∉ after.rows table →
    Removable windows now before table row
  events : .securityEvents ∉ categories →
    after.rows .securityEvents = before.rows .securityEvents

variable {windows now} {categories : List RetentionCategory}
  {before between after : RetentionDatabase}

theorem Swept.refl (database : RetentionDatabase) :
    Swept windows now categories database database :=
  ⟨fun _ => .refl _, fun _ _ hrow hgone => absurd hrow hgone, fun _ => rfl⟩

/-- What refers to a row that goes later was past its cutoff from the start. -/
theorem Swept.trans (hfirst : Swept windows now categories before between)
    (hsecond : Swept windows now categories between after) :
    Swept windows now categories before after := by
  refine ⟨fun table => (hsecond.sublist table).trans (hfirst.sublist table), ?_,
    fun hevents => (hsecond.events hevents).trans (hfirst.events hevents)⟩
  intro table row hrow hgone
  by_cases hbetween : row ∈ between.rows table
  · obtain ⟨hpast, hreferrers⟩ := hsecond.removed table row hbetween hgone
    refine ⟨hpast, fun hsessions other referrer hreferrer hrefers => ?_⟩
    by_cases hstays : referrer ∈ between.rows other
    · exact hreferrers hsessions other referrer hstays hrefers
    · exact (hfirst.removed other referrer hreferrer hstays).1
  · exact hfirst.removed table row hrow hbetween

theorem Swept.antisymm (hfirst : Swept windows now categories before after)
    (hsecond : Swept windows now categories after before) : after = before :=
  RetentionDatabase.ext (funext fun table =>
    (hfirst.sublist table).antisymm (hsecond.sublist table))

theorem Swept.mono {categories' : List RetentionCategory}
    (h : Swept windows now categories before after) (hsub : categories ⊆ categories') :
    Swept windows now categories' before after :=
  ⟨h.sublist, h.removed, fun hevents => h.events fun hmem => hevents (hsub hmem)⟩

end Swept

section Delete

variable {table : RetentionTable} {ids : List String} {database next : RetentionDatabase} {n : ℕ}

theorem deleteIds_eq_ok (h : deleteIds table ids database = .ok (n, next)) :
    n = ((database.rows table).filter fun row => row.id ∈ ids).length ∧
      next.rows = database.kept table ids := by
  unfold deleteIds at h
  split at h
  · cases h
    exact ⟨rfl, rfl⟩
  · cases h

theorem deleteIds_eq_error {failure : RetentionFailure}
    (h : deleteIds table ids database = .error failure) :
    failure = foreignKeyViolation ∧ table = .sessions ∧ database.Referenced ids := by
  unfold deleteIds at h
  split at h
  · cases h
  next hnot =>
    cases h
    obtain ⟨hsessions, hreferenced⟩ := Classical.not_imp.mp hnot
    exact ⟨rfl, hsessions, not_not.mp hreferenced⟩

theorem kept_sublist (other : RetentionTable) :
    (database.kept table ids other).Sublist (database.rows other) := by
  unfold RetentionDatabase.kept
  split
  · exact List.filter_sublist
  · exact .refl _

theorem mem_kept {other : RetentionTable} {row : RetainedRow} :
    row ∈ database.kept table ids other ↔
      row ∈ database.rows other ∧ ¬(other = table ∧ row.id ∈ ids) := by
  unfold RetentionDatabase.kept
  split
  next hsame => simp [hsame]
  next hne => simp [hne]

theorem kept_nil : database.kept table [] = database.rows := by
  funext other
  simp [RetentionDatabase.kept]

end Delete

section Batch

variable {windows : RetentionWindows} {now : ℤ} {category : RetentionCategory} {batchSize : ℕ}
  {database next : RetentionDatabase} {n : ℕ}

@[simp]
theorem categoryOf_table (category : RetentionCategory) :
    categoryOf category.table = category := by
  cases category <;> rfl

theorem category_eq_of_table {table : RetentionTable} (h : category.table = table) :
    category = categoryOf table :=
  h ▸ (categoryOf_table category).symm

theorem row_eq_of_id {table : RetentionTable} {row other : RetainedRow}
    (hrow : row ∈ database.rows table) (hother : other ∈ database.rows table)
    (hid : row.id = other.id) : row = other :=
  List.inj_on_of_nodup_map (database.distinct table) hrow hother hid

theorem mem_eligibleRows {row : RetainedRow} :
    row ∈ eligibleRows windows now category database ↔
      row ∈ database.rows category.table ∧ Eligible windows now category database row := by
  simp [eligibleRows]

/-- A selected row is eligible. -/
theorem eligible_of_mem_selectBatch {row : RetainedRow}
    (hrow : row ∈ database.rows category.table)
    (h : row.id ∈ selectBatch windows now category batchSize database) :
    Eligible windows now category database row := by
  obtain ⟨selected, hselected, hid⟩ := List.mem_map.mp h
  have hsorted := List.mem_of_mem_take hselected
  obtain ⟨hmem, heligible⟩ := mem_eligibleRows.mp ((List.mem_insertionSort _).mp hsorted)
  rwa [row_eq_of_id hrow hmem hid.symm]

/-- While something is eligible, a batch selects something. -/
theorem exists_selected (heligible : countEligible windows now category database ≠ 0)
    (hbatch : 0 < batchSize) : ∃ row ∈ database.rows category.table,
      row.id ∈ selectBatch windows now category batchSize database := by
  have hlength : (((eligibleRows windows now category database).insertionSort fun left right =>
      left.retentionAt ≤ right.retentionAt).take batchSize).length ≠ 0 := by
    rw [List.length_take, List.length_insertionSort]
    unfold countEligible at heligible
    omega
  obtain ⟨row, hrow⟩ := List.exists_mem_of_length_pos (Nat.pos_of_ne_zero hlength)
  have hmem := (List.mem_insertionSort _).mp (List.mem_of_mem_take hrow)
  exact ⟨row, (mem_eligibleRows.mp hmem).1, List.mem_map_of_mem hrow⟩

/-- The eligible rows of an aged category are those past its cutoff. -/
theorem eligible_aged (hne : category ≠ .expiredSessions) {row : RetainedRow} :
    Eligible windows now category database row ↔
      PastCutoff windows now category.table row := by
  rw [PastCutoff, categoryOf_table]
  cases category <;> first | rfl | exact absurd rfl hne

theorem deleteAgedBatch_swept (hne : category ≠ .expiredSessions)
    (h : deleteAgedBatch windows now category batchSize database = .ok (n, next)) :
    Swept windows now [category] database next := by
  obtain ⟨-, hrows⟩ := deleteIds_eq_ok h
  refine ⟨fun table => hrows ▸ kept_sublist table, ?_, ?_⟩
  · intro table row hrow hgone
    rw [hrows, mem_kept, not_and, not_not] at hgone
    obtain ⟨rfl, hselected⟩ := hgone hrow
    refine ⟨(eligible_aged hne).mp (eligible_of_mem_selectBatch hrow hselected), ?_⟩
    intro hsessions
    exact absurd (category_eq_of_table hsessions) hne
  · intro hevents
    rw [hrows, RetentionDatabase.kept, if_neg]
    intro hsame
    exact hevents (List.mem_singleton.mpr (category_eq_of_table hsame.symm).symm)

/-- What refers to a deletable session is past its own cutoff. -/
theorem referrers_past {session : RetainedRow}
    (h : Eligible windows now .expiredSessions database session) (table : RetentionTable)
    {referrer : RetainedRow} (hreferrer : referrer ∈ database.rows table)
    (hrefers : referrer.sessionId = some session.id) : PastCutoff windows now table referrer := by
  obtain ⟨-, htokens, hevents⟩ := h
  have hkind := (database.refers table referrer hreferrer _ hrefers).1
  cases table with
  | securityEvents => exact hevents referrer hreferrer hrefers
  | refreshTokens => exact htokens referrer hreferrer hrefers
  | sessions => cases hkind
  | emailVerificationTokens => cases hkind
  | passwordResetTokens => cases hkind
  | pendingRegistrations => cases hkind

theorem tokensOf_refers {sessionIds : List String} {token : RetainedRow}
    (htoken : token ∈ database.rows .refreshTokens)
    (h : token.id ∈ tokensOf sessionIds database) :
    ∃ session ∈ sessionIds, token.sessionId = some session := by
  obtain ⟨found, hfound, hid⟩ := List.mem_map.mp h
  obtain ⟨hmem, hany⟩ := List.mem_filter.mp hfound
  obtain rfl := row_eq_of_id hmem htoken hid
  obtain ⟨session, hsession, hselected⟩ := (Option.any_eq_true _ _).mp hany
  exact ⟨session, by simpa using hselected, hsession⟩

/-- The tokens go before their sessions, and nothing else goes. -/
theorem deleteSessionBatch_eq_ok
    (h : deleteSessionBatch windows now batchSize database = .ok (n, next)) :
    let sessionIds := selectBatch windows now .expiredSessions batchSize database
    n = ((database.rows .sessions).filter fun row => row.id ∈ sessionIds).length ∧
      ∃ cleared : RetentionDatabase,
        cleared.rows = database.kept .refreshTokens (tokensOf sessionIds database) ∧
          next.rows = cleared.kept .sessions sessionIds := by
  simp only [deleteSessionBatch] at h
  split at h
  next hnone =>
    cases h
    intro sessionIds
    have hempty : sessionIds = [] := List.length_eq_zero_iff.mp hnone
    have htokens : tokensOf sessionIds database = [] := by simp [tokensOf, hempty]
    exact ⟨by simp [hempty], database, by rw [htokens, kept_nil], by rw [hempty, kept_nil]⟩
  · split at h
    · cases h
    next cleared hcleared =>
      have hrows := (deleteIds_eq_ok hcleared).2
      have hsessions : cleared.rows .sessions = database.rows .sessions := by
        rw [hrows, RetentionDatabase.kept, if_neg nofun]
      exact ⟨hsessions ▸ (deleteIds_eq_ok h).1, cleared, hrows, (deleteIds_eq_ok h).2⟩

/-- A batch of sessions sweeps them and their tokens. -/
theorem deleteSessionBatch_swept
    (h : deleteSessionBatch windows now batchSize database = .ok (n, next)) :
    Swept windows now [.expiredSessions] database next := by
  obtain ⟨-, cleared, hcleared, hnext⟩ := deleteSessionBatch_eq_ok h
  have hselected : ∀ session ∈ database.rows .sessions,
      session.id ∈ selectBatch windows now .expiredSessions batchSize database →
      Eligible windows now .expiredSessions database session :=
    fun session hsession => eligible_of_mem_selectBatch hsession
  refine ⟨fun table => ?_, ?_, fun _ => ?_⟩
  · exact hnext ▸ (kept_sublist table).trans (hcleared ▸ kept_sublist table)
  · intro table row hrow hgone
    by_cases htokens : row ∈ cleared.rows table
    · rw [hnext, mem_kept, not_and, not_not] at hgone
      obtain ⟨rfl, hdoomed⟩ := hgone htokens
      have heligible := hselected row hrow hdoomed
      exact ⟨heligible.1, fun _ other referrer hreferrer =>
        referrers_past heligible other hreferrer⟩
    · rw [hcleared, mem_kept, not_and, not_not] at htokens
      obtain ⟨rfl, hdoomed⟩ := htokens hrow
      obtain ⟨session, hsession, hrefers⟩ := tokensOf_refers hrow hdoomed
      obtain ⟨-, referred, hreferred, rfl⟩ := database.refers _ row hrow session hrefers
      exact ⟨referrers_past (hselected referred hreferred hsession) _ hrow hrefers, nofun⟩
  · rw [hnext, RetentionDatabase.kept, if_neg nofun, hcleared, RetentionDatabase.kept, if_neg nofun]

/-- A batch of sessions fails only on a security event that nobody has deleted. -/
theorem deleteSessionBatch_eq_error {failure : RetentionFailure}
    (h : deleteSessionBatch windows now batchSize database = .error failure) :
    failure = foreignKeyViolation ∧ ∃ session ∈ database.rows .sessions,
      session.id ∈ selectBatch windows now .expiredSessions batchSize database ∧
        ∃ event ∈ database.rows .securityEvents, event.sessionId = some session.id := by
  simp only [deleteSessionBatch] at h
  split at h
  · cases h
  split at h
  next hcleared => cases (deleteIds_eq_error hcleared).2.1
  next cleared hcleared =>
    have hrows := (deleteIds_eq_ok hcleared).2
    obtain ⟨hfailure, -, hreferenced⟩ := deleteIds_eq_error h
    rcases hreferenced with ⟨event, hevent, session, hselected, hrefers⟩ |
      ⟨token, htoken, session, hselected, hrefers⟩
    · rw [hrows, mem_kept] at hevent
      obtain ⟨-, referred, hreferred, rfl⟩ := database.refers _ event hevent.1 session hrefers
      exact ⟨hfailure, referred, hreferred, hselected, event, hevent.1, hrefers⟩
    · rw [hrows, mem_kept] at htoken
      refine absurd ⟨rfl, List.mem_map_of_mem (List.mem_filter.mpr ⟨htoken.1, ?_⟩)⟩ htoken.2
      rw [hrefers]
      exact decide_eq_true hselected

theorem deleteBatch_of_ne (hne : category ≠ .expiredSessions) :
    deleteBatch windows now category = deleteAgedBatch windows now category := by
  cases category <;> first | rfl | exact absurd rfl hne

theorem deleteBatch_swept
    (h : deleteBatch windows now category batchSize database = .ok (n, next)) :
    Swept windows now [category] database next := by
  by_cases hsessions : category = .expiredSessions
  · subst hsessions
    exact deleteSessionBatch_swept h
  · rw [deleteBatch_of_ne hsessions] at h
    exact deleteAgedBatch_swept hsessions h

/-- Only sessions have rows that refer to them. -/
theorem deleteBatch_eq_error {failure : RetentionFailure}
    (h : deleteBatch windows now category batchSize database = .error failure) :
    category = .expiredSessions ∧ failure = foreignKeyViolation ∧
      ∃ session ∈ database.rows .sessions,
        session.id ∈ selectBatch windows now .expiredSessions batchSize database ∧
          ∃ event ∈ database.rows .securityEvents, event.sessionId = some session.id := by
  by_cases hsessions : category = .expiredSessions
  · subst hsessions
    exact ⟨rfl, deleteSessionBatch_eq_error h⟩
  · rw [deleteBatch_of_ne hsessions] at h
    exact absurd (category_eq_of_table (deleteIds_eq_error h).2.1) hsessions

theorem countEligible_ne_zero {row : RetainedRow} (hrow : row ∈ database.rows category.table)
    (heligible : Eligible windows now category database row) :
    countEligible windows now category database ≠ 0 :=
  (List.length_pos_of_mem (mem_eligibleRows.mpr ⟨hrow, heligible⟩)).ne'

theorem selected_gone (h : deleteBatch windows now category batchSize database = .ok (n, next))
    {row : RetainedRow}
    (hselected : row.id ∈ selectBatch windows now category batchSize database) :
    row ∉ next.rows category.table := by
  by_cases hsessions : category = .expiredSessions
  · subst hsessions
    obtain ⟨-, cleared, -, hnext⟩ := deleteSessionBatch_eq_ok h
    rw [hnext, mem_kept]
    exact fun hkept => hkept.2 ⟨rfl, hselected⟩
  · rw [deleteBatch_of_ne hsessions] at h
    rw [(deleteIds_eq_ok h).2, mem_kept]
    exact fun hkept => hkept.2 ⟨rfl, hselected⟩

/-- A batch that succeeds and changes nothing had nothing to delete. -/
theorem none_of_deleteBatch_rest (hbatch : 0 < batchSize)
    (h : deleteBatch windows now category batchSize database = .ok (n, database)) :
    countEligible windows now category database = 0 := by
  by_contra hsome
  obtain ⟨row, hrow, hselected⟩ := exists_selected hsome hbatch
  exact selected_gone h hselected hrow

end Batch

/-! ## A run -/

section Run

variable (options : RetentionRunOptions)

def applying : RetentionRunOptions := { options with mode := .apply }

/-- The database after an apply. -/
def applied (faults : ℕ → BatchFaults) (database : RetentionDatabase) : RetentionDatabase :=
  (runRetentionCleanup (applying options) faults database).1

/-- What a dry run reports. -/
def reported (database : RetentionDatabase) : List RetentionCategoryResult :=
  (runRetentionCleanup { options with mode := .dryRun } noFaults database).2.results

/-- A security event holds a session that is to go, and the run deletes no events. -/
def Blocked (database : RetentionDatabase) : Prop :=
  .expiredSessions ∈ options.categories ∧ .securityEvents ∉ options.categories ∧
    ∃ session ∈ database.rows .sessions,
      Eligible options.windows options.now .expiredSessions database session ∧
        ∃ event ∈ database.rows .securityEvents, event.sessionId = some session.id

variable {options} {category : RetentionCategory} {categories : List RetentionCategory}
  {faults : BatchFaults} {database next : RetentionDatabase} {n : ℕ}

theorem transactBatch_eq_ok
    {deleteBatch : RetentionDatabase → Except RetentionFailure (ℕ × RetentionDatabase)}
    {batch : ℕ} (h : transactBatch faults deleteBatch batch database = .ok (n, next)) :
    deleteBatch database = .ok (n, next) := by
  unfold transactBatch at h
  split at h
  · cases h
  · exact h

/-- By induction on the batches that are left. -/
theorem runApplyCategory_swept (left : ℕ) : ∀ (outcome : ApplyOutcome) (database),
    Swept options.windows options.now [category] database
      (runApplyCategory faults
        (deleteBatch options.windows options.now category options.batchSize)
        options.batchSize left outcome database).1 := by
  induction left with
  | zero => exact fun _ database => .refl database
  | succ left ih =>
      intro outcome database
      rw [runApplyCategory]
      split
      · exact .refl database
      next batchDeleted next hbatch =>
        have hswept := deleteBatch_swept (transactBatch_eq_ok hbatch)
        dsimp only
        split
        · exact hswept
        · exact hswept.trans (ih _ next)

/-- A category that changed nothing had nothing to delete, or its first batch failed. -/
theorem runApplyCategory_rest {left : ℕ} {outcome : ApplyOutcome}
    (h : (runApplyCategory (noFaults 0)
      (deleteBatch options.windows options.now category options.batchSize)
      options.batchSize (left + 1) outcome database).1 = database) :
    countEligible options.windows options.now category database = 0 ∨
      ∃ failure, deleteBatch options.windows options.now category options.batchSize database =
        .error failure := by
  rw [runApplyCategory] at h
  split at h
  next failure hbatch => exact .inr ⟨failure, hbatch⟩
  next batchDeleted next hbatch =>
    replace hbatch := transactBatch_eq_ok hbatch
    have hswept := deleteBatch_swept hbatch
    have hback : Swept options.windows options.now [category] next database := by
      dsimp only at h
      split at h
      · exact h ▸ .refl next
      · exact h ▸ runApplyCategory_swept left _ next
    rw [hswept.antisymm hback] at hbatch
    exact .inl (none_of_deleteBatch_rest options.batchSize_pos hbatch)

theorem runCategory_applying : (runCategory (applying options) faults category database).1 =
    (runApplyCategory faults (deleteBatch options.windows options.now category options.batchSize)
      options.batchSize options.maxBatchesPerCategory ⟨0, 0, false⟩ database).1 := by
  simp only [runCategory, applying]
  split <;> next hrun => rw [hrun]

theorem runCategory_swept (options : RetentionRunOptions) (faults : BatchFaults)
    (category : RetentionCategory) (database : RetentionDatabase) :
    Swept options.windows options.now [category] database
      (runCategory (applying options) faults category database).1 :=
  runCategory_applying ▸ runApplyCategory_swept _ _ _

theorem runCategory_swept_cons (faults : BatchFaults) (database : RetentionDatabase) :
    Swept options.windows options.now (category :: categories) database
      (runCategory (applying options) faults category database).1 :=
  (runCategory_swept options faults category database).mono (by simp)

theorem runCategories_swept (options : RetentionRunOptions)
    (categories : List RetentionCategory) : ∀ faults database,
    Swept options.windows options.now categories database
      (runCategories (applying options) faults categories database).1 := by
  induction categories with
  | nil => exact fun _ database => .refl database
  | cons category categories ih =>
      intro faults database
      exact (runCategory_swept_cons (faults 0) database).trans
        ((ih _ _).mono (List.subset_cons_self _ _))

theorem applied_swept (faults : ℕ → BatchFaults) (database : RetentionDatabase) :
    Swept options.windows options.now options.categories database
      (applied options faults database) :=
  runCategories_swept options options.categories faults database

theorem iterate_applied_swept (database : RetentionDatabase) (k : ℕ) :
    Swept options.windows options.now options.categories database
      ((applied options noFaults)^[k] database) := by
  induction k with
  | zero => exact .refl database
  | succ k ih =>
      rw [Function.iterate_succ_apply']
      exact ih.trans (applied_swept _ _)

/-- A run that changes nothing changes nothing in any of its categories. -/
theorem runCategories_rest (categories : List RetentionCategory) :
    (runCategories (applying options) noFaults categories database).1 = database →
      ∀ category ∈ categories,
        (runCategory (applying options) (noFaults 0) category database).1 = database := by
  induction categories with
  | nil => exact fun _ _ hmem => absurd hmem List.not_mem_nil
  | cons category categories ih =>
      intro h
      have hlast : (runCategories (applying options) noFaults categories
          (runCategory (applying options) (noFaults 0) category database).1).1 = database := h
      have hfirst : (runCategory (applying options) (noFaults 0) category database).1 =
          database := by
        have hrest := runCategories_swept options categories noFaults
          (runCategory (applying options) (noFaults 0) category database).1
        rw [hlast] at hrest
        exact (runCategory_swept_cons _ database).antisymm
          (hrest.mono (List.subset_cons_self category _))
      rw [hfirst] at hlast
      exact List.forall_mem_cons.mpr ⟨hfirst, ih hlast⟩

/-- A run at rest has nothing to delete, unless a foreign key stops it. -/
theorem none_of_applied_rest (h : applied options noFaults database = database)
    (hfree : ¬Blocked options database) : ∀ category ∈ options.categories,
      countEligible options.windows options.now category database = 0 := by
  have hrest := runCategories_rest options.categories h
  intro category hcategory
  by_contra hsome
  have hstuck (category) (hcategory : category ∈ options.categories)
      (hsome : countEligible options.windows options.now category database ≠ 0) :
      ∃ failure, deleteBatch options.windows options.now category options.batchSize database =
        .error failure := by
    obtain ⟨left, hleft⟩ := Nat.exists_eq_succ_of_ne_zero options.maxBatches_pos.ne'
    have hsame := hrest category hcategory
    rw [runCategory_applying, hleft] at hsame
    exact (runApplyCategory_rest hsame).resolve_left hsome
  obtain ⟨failure, hfailure⟩ := hstuck category hcategory hsome
  obtain ⟨rfl, -, session, hsession, hselected, event, hevent, hrefers⟩ :=
    deleteBatch_eq_error hfailure
  have heligible := eligible_of_mem_selectBatch hsession hselected
  by_cases hevents : .securityEvents ∈ options.categories
  · -- the event is past its own cutoff, so the run would have deleted events
    have heventEligible : Eligible options.windows options.now .securityEvents database event :=
      referrers_past heligible .securityEvents hevent hrefers
    obtain ⟨failure, hevents⟩ := hstuck .securityEvents hevents
      (countEligible_ne_zero hevent heventEligible)
    cases (deleteBatch_eq_error hevents).1
  · exact hfree ⟨hcategory, hevents, session, hsession, heligible, event, hevent, hrefers⟩

/-- The rows that are left. -/
def retained (database : RetentionDatabase) : ℕ :=
  (retentionCategories.map fun category => (database.rows category.table).length).sum

theorem retained_lt (h : Swept options.windows options.now categories database next)
    (hne : next ≠ database) : retained next < retained database := by
  obtain ⟨table, htable⟩ : ∃ table, (next.rows table).length ≠ (database.rows table).length := by
    by_contra hsame
    push Not at hsame
    exact hne (RetentionDatabase.ext (funext fun table =>
      (h.sublist table).eq_of_length (hsame table)))
  refine List.sum_lt_sum _ _ (fun category _ => (h.sublist _).length_le) ⟨categoryOf table, ?_, ?_⟩
  · cases table <;> simp [categoryOf, retentionCategories]
  · have hback : (categoryOf table).table = table := by cases table <;> rfl
    rw [hback]
    exact lt_of_le_of_ne (h.sublist table).length_le htable

/-- Repeated runs come to rest. -/
theorem exists_rest (options : RetentionRunOptions) (database : RetentionDatabase) :
    ∃ k, applied options noFaults ((applied options noFaults)^[k] database) =
      (applied options noFaults)^[k] database := by
  induction hsize : retained database using Nat.strong_induction_on generalizing database with
  | _ size ih =>
      by_cases hrest : applied options noFaults database = database
      · exact ⟨0, hrest⟩
      · have hless := retained_lt (applied_swept noFaults database) hrest
        obtain ⟨k, hk⟩ := ih _ (hsize ▸ hless) (applied options noFaults database) rfl
        exact ⟨k + 1, hk⟩

/-- A sweep frees no session that an event blocks. -/
theorem Blocked.swept (hblocked : Blocked options database)
    (hswept : Swept options.windows options.now options.categories database next) :
    Blocked options next := by
  obtain ⟨hsessions, hevents, session, hsession, heligible, event, hevent, hrefers⟩ := hblocked
  have hheld : event ∈ next.rows .securityEvents := hswept.events hevents ▸ hevent
  obtain ⟨-, referred, hreferred, hid⟩ := next.refers _ event hheld _ hrefers
  have hsame := row_eq_of_id ((hswept.sublist _).subset hreferred) hsession hid
  refine ⟨hsessions, hevents, session, hsame ▸ hreferred, ?_, event, hheld, hrefers⟩
  exact ⟨heligible.1, fun token htoken => heligible.2.1 token ((hswept.sublist _).subset htoken),
    fun event hevent => heligible.2.2 event ((hswept.sublist _).subset hevent)⟩

/-- A sweep blocks no session either: the tokens that it deletes were past the cutoff
of sessions. -/
theorem Blocked.of_swept (hblocked : Blocked options next)
    (hswept : Swept options.windows options.now options.categories database next) :
    Blocked options database := by
  obtain ⟨hsessions, hevents, session, hsession, heligible, event, hevent, hrefers⟩ := hblocked
  have hsame := hswept.events hevents
  refine ⟨hsessions, hevents, session, (hswept.sublist _).subset hsession, ?_, event,
    hsame ▸ hevent, hrefers⟩
  refine ⟨heligible.1, fun token htoken hrefers => ?_, fun event hevent => ?_⟩
  · by_cases hstays : token ∈ next.rows .refreshTokens
    · exact heligible.2.1 token hstays hrefers
    · exact (hswept.removed _ token htoken hstays).1
  · exact heligible.2.2 event (hsame ▸ hevent)

/-- A dry run counts, and changes nothing. -/
theorem runCategories_dryRun (hdry : options.mode = .dryRun) (categories : List RetentionCategory) :
    runCategories options noFaults categories database =
      (database, categories.map fun category =>
        (runCategory options (noFaults 0) category database).2) := by
  induction categories with
  | nil => rfl
  | cons category categories ih =>
      have hsame : (runCategory options (noFaults 0) category database).1 = database := by
        simp only [runCategory, hdry, noFaults]
      have hcategory : runCategory options (noFaults 0) category database =
          (database, (runCategory options (noFaults 0) category database).2) :=
        Prod.ext hsame rfl
      have hrest : runCategories options (fun place => noFaults (place + 1)) categories database =
          _ := ih
      rw [runCategories, hcategory]
      dsimp only
      rw [hrest, List.map_cons]

theorem reported_eligible_iff : (∀ result ∈ reported options database, result.eligible = some 0) ↔
    ∀ category ∈ options.categories,
      countEligible options.windows options.now category database = 0 := by
  rw [reported, runRetentionCleanup, runCategories_dryRun rfl]
  simp only [List.forall_mem_map, runCategory, noFaults, Option.some.injEq]

/-- Whatever is removed may be removed, and repeated runs reach a state with nothing
to delete in which further runs change nothing, unless a session that is to go is
blocked. -/
theorem retention_converges_iff (options : RetentionRunOptions) (database : RetentionDatabase) :
    (∀ faults table, ∀ row ∈ database.rows table,
      row ∉ (applied options faults database).rows table →
        Removable options.windows options.now database table row) ∧
    ((∃ k, (∀ result ∈ reported options ((applied options noFaults)^[k] database),
        result.eligible = some 0) ∧
      ∀ j, (applied options noFaults)^[j] ((applied options noFaults)^[k] database) =
        (applied options noFaults)^[k] database) ↔ ¬Blocked options database) := by
  refine ⟨fun faults => (applied_swept faults database).removed,
    fun ⟨k, hnone, _⟩ hblocked => ?_, fun hfree => ?_⟩
  · have hstill := hblocked.swept (iterate_applied_swept database k)
    obtain ⟨hsessions, -, session, hsession, heligible, -⟩ := hstill
    exact countEligible_ne_zero hsession heligible (reported_eligible_iff.mp hnone _ hsessions)
  · obtain ⟨k, hrest⟩ := exists_rest options database
    refine ⟨k, reported_eligible_iff.mpr (none_of_applied_rest hrest fun hblocked => ?_), fun j =>
      Function.iterate_fixed hrest j⟩
    exact hfree (hblocked.of_swept (iterate_applied_swept database k))

end Run

/-- A session that ended a year ago, with the security event of its login. -/
def endedSession : RetentionDatabase where
  rows
    | .sessions => [{ id := "s", retentionAt := 0, sessionId := none }]
    | .securityEvents => [{ id := "e", retentionAt := 0, sessionId := some "s" }]
    | _ => []
  distinct table := by cases table <;> decide
  refers table := by cases table <;> simp [RetentionTable.refersToSessions]

def sessionsAlone : RetentionRunOptions where
  mode := .apply
  windows := { securityEventDays := 180, expiredAuthTokenDays := 7, endedSessionDays := 90 }
  batchSize := 500
  maxBatchesPerCategory := 200
  categories := [.expiredSessions]
  now := 365 * microsecondsPerDay
  batchSize_pos := by decide
  maxBatches_pos := by decide

/-- Every run reports the session, selects it and fails. -/
theorem sessions_alone_never_converge :
    ¬∃ k, (∀ result ∈ reported sessionsAlone ((applied sessionsAlone noFaults)^[k] endedSession),
        result.eligible = some 0) ∧
      ∀ j, (applied sessionsAlone noFaults)^[j] ((applied sessionsAlone noFaults)^[k]
        endedSession) = (applied sessionsAlone noFaults)^[k] endedSession := by
  have hblocked : Blocked sessionsAlone endedSession := by
    refine ⟨by decide, by decide, { id := "s", retentionAt := 0, sessionId := none },
      List.mem_singleton_self _, by decide, { id := "e", retentionAt := 0, sessionId := some "s" },
      List.mem_singleton_self _, rfl⟩
  rintro ⟨k, hnone, -⟩
  obtain ⟨hsessions, -, session, hsession, heligible, -⟩ :=
    hblocked.swept (iterate_applied_swept endedSession k)
  exact countEligible_ne_zero hsession heligible (reported_eligible_iff.mp hnone _ hsessions)

end Orgistry.Maintenance
