import Orgistry.Maintenance.Accounting

/-!
# Sessions and their foreign keys

The delete of sessions is refused while a security event refers to one of them.
Every category takes its rows off the front of its own queue, so that the queues of
the first database tell which sessions come to their turn at a place of the run and
which of their events have gone by then.
-/

namespace Orgistry.Maintenance

open Batching Model

section Condition

variable (options : RetentionRunOptions)

/-- The batches before the first statement that fails, from the batch with that
number on, if the data let all of them pass. -/
def batchesExecuted (faults : BatchFaults) : ℕ → ℕ → ℕ
  | 0, _ => 0
  | left + 1, batch =>
      match faults batch with
      | some _ => 0
      | none => batchesExecuted faults left (batch + 1) + 1

/-- The rows for which a category has batches. -/
def rowsCovered (faults : BatchFaults) : ℕ :=
  batchesExecuted faults options.maxBatchesPerCategory 0 * options.batchSize

/-- By the time at which sessions come to their turn, the batches of security events
have covered all events of theirs.  Both queues are those of the given database;
`events` and `sessions` are the rows that earlier places of the run have covered. -/
def EventsGoFirst (database : RetentionDatabase) :
    (ℕ → BatchFaults) → List RetentionCategory → ℕ → ℕ → Prop
  | _, [], _, _ => True
  | faults, category :: categories, events, sessions =>
      let rows := rowsCovered options (faults 0)
      (category = .expiredSessions →
        ∀ session ∈ ((due options .expiredSessions database).drop sessions).take rows,
          ∀ event ∈ (due options .securityEvents database).drop events,
            event.sessionId ≠ some session.id) ∧
      EventsGoFirst database (fun place => faults (place + 1)) categories
        (if category = .securityEvents then events + rows else events)
        (if category = .expiredSessions then sessions + rows else sessions)

end Condition

section Queues

variable {options : RetentionRunOptions} {faults : BatchFaults} {category : RetentionCategory}
  {database next : RetentionDatabase}

/-- A batch is executed when none up to it fails. -/
theorem lt_batchesExecuted_iff {left batch k : ℕ} : k < batchesExecuted faults left batch ↔
    k < left ∧ ∀ j ≤ k, faults (batch + j) = none := by
  induction left generalizing batch k with
  | zero => simp [batchesExecuted]
  | succ left ih =>
      rw [batchesExecuted]
      cases hfault : faults batch with
      | some fault =>
          refine iff_of_false (Nat.not_lt_zero k) fun h => ?_
          have hfirst := h.2 0 (Nat.zero_le k)
          rw [Nat.add_zero, hfault] at hfirst
          cases hfirst
      | none =>
          cases k with
          | zero => simp [hfault]
          | succ k =>
              dsimp only
              rw [Nat.add_lt_add_iff_right, Nat.add_lt_add_iff_right, ih]
              refine and_congr_right fun _ => ⟨fun h j hj => ?_, fun h j hj => ?_⟩
              · cases j with
                | zero => exact hfault
                | succ j =>
                    rw [← Nat.succ_add_eq_add_succ]
                    exact h j (Nat.le_of_succ_le_succ hj)
              · have hlater := h (j + 1) (Nat.succ_le_succ hj)
                rwa [← Nat.succ_add_eq_add_succ] at hlater

/-- The category takes the covered rows off its queue, if the data let the batches
pass. -/
theorem runApplyCategory_due (left : ℕ) : ∀ (outcome : ApplyOutcome) (database),
    (∀ k < batchesExecuted faults left outcome.batches, batchFailure category database
      (nthBatch options.batchSize (due options category database) k) = none) →
    due options category (runApplyCategory faults
        (deleteBatch options.windows options.now category options.batchSize)
        options.batchSize left outcome database).1 =
      (due options category database).drop
        (batchesExecuted faults left outcome.batches * options.batchSize) := by
  induction left with
  | zero => exact fun _ _ _ => by simp [runApplyCategory, batchesExecuted]
  | succ left ih =>
      intro outcome database hpasses
      rw [batchesExecuted] at hpasses ⊢
      rw [runApplyCategory, transactBatch]
      cases hfault : faults outcome.batches with
      | some fault => simp
      | none =>
          rw [hfault] at hpasses
          have hfirst := hpasses 0 (Nat.succ_pos _)
          rw [nthBatch_zero] at hfirst
          rcases deleteBatch_cases options.windows options.now category options.batchSize
              database with ⟨failure, hfails, -⟩ | ⟨-, next, hbatch, hdone⟩
          · exact absurd (hfails.symm.trans hfirst) (Option.some_ne_none _)
          · have hdue : due options category next =
                (due options category database).drop options.batchSize := hdone.due
            simp only [hbatch]
            split
            · next hshort =>
                rw [List.length_take] at hshort
                have hlength : (due options category database).length < options.batchSize :=
                  (min_lt_iff.mp hshort).resolve_left (lt_irrefl _)
                rw [hdue, List.drop_eq_nil_of_le hlength.le, List.drop_eq_nil_of_le]
                rw [Nat.succ_mul]
                omega
            · rw [ih _ next, hdue, List.drop_drop, Nat.succ_mul, Nat.add_comm]
              intro k hk
              rw [hdone.failure, hdue, ← nthBatch_succ]
              exact hpasses (k + 1) (Nat.succ_lt_succ hk)

theorem deleteBatch_rows {n : ℕ} {table : RetentionTable} (hother : category.table ≠ table)
    (htokens : table ≠ .refreshTokens)
    (h : deleteBatch options.windows options.now category options.batchSize database =
      .ok (n, next)) : next.rows table = database.rows table := by
  by_cases hsessions : category = .expiredSessions
  · subst hsessions
    obtain ⟨-, cleared, hcleared, hnext⟩ := deleteSessionBatch_eq_ok h
    rw [hnext, RetentionDatabase.kept, if_neg (fun hsame => hother hsame.symm), hcleared,
      RetentionDatabase.kept, if_neg htokens]
  · rw [deleteBatch_of_ne hsessions] at h
    rw [(deleteIds_eq_ok h).2, RetentionDatabase.kept, if_neg fun hsame => hother hsame.symm]

/-- A category touches its own table, and that of refresh tokens. -/
theorem runCategory_rows {table : RetentionTable} (hother : category.table ≠ table)
    (htokens : table ≠ .refreshTokens) :
    (runCategory (applying options) faults category database).1.rows table =
      database.rows table := by
  have hrun (left : ℕ) : ∀ (outcome : ApplyOutcome) (database),
      (runApplyCategory faults
        (deleteBatch options.windows options.now category options.batchSize)
        options.batchSize left outcome database).1.rows table = database.rows table := by
    induction left with
    | zero => exact fun _ _ => rfl
    | succ left ih =>
        intro outcome database
        rw [runApplyCategory]
        split
        · rfl
        · next n next hbatch =>
            have hrows := deleteBatch_rows hother htokens (transactBatch_eq_ok hbatch)
            dsimp only
            split
            · exact hrows
            · exact (ih _ next).trans hrows
  rw [runCategory_applying]
  exact hrun _ _ _

theorem due_events_congr (h : next.rows .securityEvents = database.rows .securityEvents) :
    due options .securityEvents next = due options .securityEvents database := by
  have heligible : eligibleRows options.windows options.now .securityEvents next =
      eligibleRows options.windows options.now .securityEvents database := by
    rw [eligibleRows, show next.rows RetentionCategory.securityEvents.table = _ from h]
    rfl
  rw [due, dueRows, heligible]
  rfl

/-- What is swept was past its cutoff, and so did not keep a session from being
due. -/
theorem due_sessions_congr {categories : List RetentionCategory}
    (hswept : Swept options.windows options.now categories database next)
    (h : next.rows .sessions = database.rows .sessions) :
    due options .expiredSessions next = due options .expiredSessions database := by
  have hsame (session : RetainedRow) :
      Eligible options.windows options.now .expiredSessions next session ↔
        Eligible options.windows options.now .expiredSessions database session := by
    refine and_congr_right fun _ => and_congr ?_ ?_
    · refine ⟨fun hnext token htoken hrefers => ?_, fun hall token htoken =>
        hall token ((hswept.sublist _).subset htoken)⟩
      by_cases hstays : token ∈ next.rows .refreshTokens
      · exact hnext token hstays hrefers
      · exact (hswept.removed _ token htoken hstays).1
    · refine ⟨fun hnext event hevent hrefers => ?_, fun hall event hevent =>
        hall event ((hswept.sublist _).subset hevent)⟩
      by_cases hstays : event ∈ next.rows .securityEvents
      · exact hnext event hstays hrefers
      · exact (hswept.removed _ event hevent hstays).1
  have heligible : eligibleRows options.windows options.now .expiredSessions next =
      eligibleRows options.windows options.now .expiredSessions database := by
    rw [eligibleRows, show next.rows RetentionCategory.expiredSessions.table = _ from h]
    exact List.filter_congr fun session _ => decide_eq_decide.mpr (hsame session)
  rw [due, dueRows, heligible]
  rfl

theorem runCategory_due (hpasses : ∀ k < batchesExecuted faults options.maxBatchesPerCategory 0,
      batchFailure category database
        (nthBatch options.batchSize (due options category database) k) = none) :
    due options category (runCategory (applying options) faults category database).1 =
      (due options category database).drop (rowsCovered options faults) := by
  rw [runCategory_applying]
  exact runApplyCategory_due options.maxBatchesPerCategory ⟨0, 0, false⟩ database hpasses

/-- A session that is due is only held by events that are due as well. -/
theorem held_iff_of_due {session : RetainedRow}
    (h : session ∈ due options .expiredSessions database) : Held database session ↔
      ∃ event ∈ due options .securityEvents database, event.sessionId = some session.id := by
  constructor
  · rintro ⟨event, hevent, hrefers⟩
    exact ⟨event, mem_dueRows.mpr ⟨hevent,
      referrers_past (mem_dueRows.mp h).2 .securityEvents hevent hrefers⟩, hrefers⟩
  · rintro ⟨event, hevent, hrefers⟩
    exact ⟨event, (mem_dueRows.mp hevent).1, hrefers⟩

end Queues

section ForeignKeys

variable {options : RetentionRunOptions} {faults : BatchFaults} {category : RetentionCategory}
  {database : RetentionDatabase}

theorem batchFails_foreignKey_iff {batch : ℕ} {rows : List RetainedRow} :
    batchFails category database faults batch rows = some foreignKeyViolation ↔
      faults batch = none ∧ category = .expiredSessions ∧
        ∃ session ∈ rows, Held database session := by
  unfold batchFails
  split
  · next fault hfault => simp [hfault, fault.outside]
  · next hfault =>
      unfold batchFailure
      split
      · next hheld => simp [hfault, hheld]
      · next hheld => simp [hfault, hheld]

theorem faults_of_batchFails_eq_none {batch : ℕ} {rows : List RetainedRow}
    (h : batchFails category database faults batch rows = none) : faults batch = none := by
  unfold batchFails at h
  split at h
  · cases h
  · next hfault => exact hfault

/-- Without a fault a batch only fails on the foreign key. -/
theorem eq_foreignKey_of_batchFails {batch : ℕ} {rows : List RetainedRow}
    {failure : RetentionFailure} (hfault : faults batch = none)
    (h : batchFails category database faults batch rows = some failure) :
    failure = foreignKeyViolation := by
  rw [batchFails, hfault] at h
  dsimp only at h
  unfold batchFailure at h
  split at h
  · exact (Option.some_injective _ h).symm
  · cases h

/-- A category violates a foreign key when a session is held among the rows for
which it has batches. -/
theorem runCategory_violates_iff :
    (runCategory (applying options) faults category database).2.failure ≠
        some foreignKeyViolation ↔
      (category = .expiredSessions →
        ∀ session ∈ (due options category database).take (rowsCovered options faults),
          ¬Held database session) := by
  simp only [rowsCovered, mem_take_mul_iff, lt_batchesExecuted_iff, Nat.zero_add]
  have hreported : Reported options faults category database
    (runCategory (applying options) faults category database) := runCategory_reported
  rcases drain_cases (batchFails category database faults) options.batchSize
      options.maxBatchesPerCategory 0 (due options category database) with
    ⟨k, failure, hfails, hdrain⟩ | ⟨hnone, -, hending⟩
  · rw [(hreported.failed failure (congrArg Prod.snd hdrain)).1]
    have hfailing := hfails.failing
    rw [Nat.zero_add] at hfailing
    constructor
    · -- the batch that fails first would fail on the foreign key
      rintro hne hsessions session ⟨j, ⟨hj, hfaults⟩, hsession⟩ hheld
      have hfirst : k ≤ j := by
        by_contra hlater
        have hpassed := hfails.first j (by omega)
        rw [Nat.zero_add] at hpassed
        have hviolates := batchFails_foreignKey_iff.mpr
          ⟨hfaults j le_rfl, hsessions, session, hsession, hheld⟩
        exact absurd (hviolates.symm.trans hpassed) nofun
      exact hne (congrArg some (eq_foreignKey_of_batchFails (hfaults k hfirst) hfailing))
    · rintro hholds heq
      obtain rfl := Option.some_injective _ heq
      obtain ⟨hfault, hsessions, session, hsession, hheld⟩ :=
        batchFails_foreignKey_iff.mp hfailing
      refine hholds hsessions session ⟨k, ⟨hfails.within, fun j hj => ?_⟩, hsession⟩ hheld
      rcases Nat.lt_or_eq_of_le hj with hearlier | rfl
      · have hpassed := hfails.first j hearlier
        rw [Nat.zero_add] at hpassed
        exact faults_of_batchFails_eq_none hpassed
      · exact hfault
  · rw [(hreported.finished hending).1]
    refine iff_of_true nofun ?_
    rintro hsessions session ⟨k, ⟨hk, hfaults⟩, hsession⟩ hheld
    have hpassed := hnone k hk (reached_of_mem_nthBatch hsession)
    rw [Nat.zero_add] at hpassed
    have hviolates := batchFails_foreignKey_iff.mpr
      ⟨hfaults k le_rfl, hsessions, session, hsession, hheld⟩
    exact absurd (hviolates.symm.trans hpassed) nofun

/-- A place of the run in terms of the queues that the run has started with. -/
theorem results_violate_iff (start : RetentionDatabase) (categories : List RetentionCategory) :
    ∀ (faults : ℕ → BatchFaults) (database : RetentionDatabase) (events sessions : ℕ),
      due options .securityEvents database = (due options .securityEvents start).drop events →
      due options .expiredSessions database = (due options .expiredSessions start).drop sessions →
      ((∀ result ∈ (runCategories (applying options) faults categories database).2,
        result.failure ≠ some foreignKeyViolation) ↔
          EventsGoFirst options start faults categories events sessions) := by
  induction categories with
  | nil => exact fun _ _ _ _ _ _ => by simp [runCategories, EventsGoFirst]
  | cons category categories ih =>
      intro faults database events sessions hevents hsessions
      have hresults : (∀ result ∈ (runCategories (applying options) faults (category :: categories)
          database).2, result.failure ≠ some foreignKeyViolation) ↔
          (runCategory (applying options) (faults 0) category database).2.failure ≠
            some foreignKeyViolation ∧
          ∀ result ∈ (runCategories (applying options) (fun place => faults (place + 1)) categories
            (runCategory (applying options) (faults 0) category database).1).2,
            result.failure ≠ some foreignKeyViolation := List.forall_mem_cons
      have hnow : (category = .expiredSessions →
          ∀ session ∈ (due options category database).take (rowsCovered options (faults 0)),
            ¬Held database session) ↔
          (category = .expiredSessions → ∀ session ∈
            ((due options .expiredSessions start).drop sessions).take
              (rowsCovered options (faults 0)),
            ∀ event ∈ (due options .securityEvents start).drop events,
              event.sessionId ≠ some session.id) := by
        refine forall_congr' fun hcategory => ?_
        subst hcategory
        rw [← hsessions, ← hevents]
        refine forall₂_congr fun session hsession => ?_
        rw [held_iff_of_due (List.mem_of_mem_take hsession)]
        push Not
        rfl
      rw [hresults, runCategory_violates_iff, EventsGoFirst, hnow]
      refine and_congr_right fun hspared => ?_
      have hpasses : ∀ k < batchesExecuted (faults 0) options.maxBatchesPerCategory 0,
          batchFailure category database
            (nthBatch options.batchSize (due options category database) k) = none := by
        intro k hk
        refine if_neg ?_
        rintro ⟨hcategory, session, hsession, hheld⟩
        exact hnow.mpr hspared hcategory session (mem_take_mul_iff.mpr ⟨k, hk, hsession⟩) hheld
      refine ih _ _ _ _ ?_ ?_
      · split
        · next hcategory =>
            subst hcategory
            rw [runCategory_due hpasses, hevents, List.drop_drop]
        · next hcategory =>
            rw [due_events_congr (runCategory_rows (fun htable => hcategory
              (category_eq_of_table htable)) (by decide)), hevents]
      · split
        · next hcategory =>
            subst hcategory
            rw [runCategory_due hpasses, hsessions, List.drop_drop]
        · next hcategory =>
            rw [due_sessions_congr (runCategory_swept options (faults 0) category database)
              (runCategory_rows (fun htable => hcategory (category_eq_of_table htable))
                (by decide)), hsessions]

/-- The delete of sessions violates no foreign key exactly when the batches of
security events go first. -/
theorem sessions_violate_nothing_iff (options : RetentionRunOptions) (faults : ℕ → BatchFaults)
    (database : RetentionDatabase) :
    (∀ result ∈ (runRetentionCleanup (applying options) faults database).2.results,
      result.failure ≠ some foreignKeyViolation) ↔
    EventsGoFirst options database faults options.categories 0 0 :=
  results_violate_iff database options.categories faults database 0 0 rfl rfl

/-- The event is old enough to go, and nobody has deleted it. -/
theorem sessions_alone_violate_foreign_key :
    ¬∀ result ∈ (runRetentionCleanup (applying sessionsAlone) noFaults endedSession).2.results,
      result.failure ≠ some foreignKeyViolation := by
  decide +kernel

end ForeignKeys

end Orgistry.Maintenance
