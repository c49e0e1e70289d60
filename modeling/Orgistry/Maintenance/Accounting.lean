import Orgistry.Maintenance.Batches

/-!
# Numbers and bounds

What an apply run may promise of its summary and of its statements: that the summary
says how many rows are gone, and that no statement deletes more rows than a batch
has.  Both depend on the rows that hang off the sessions that are due.
-/

namespace Orgistry.Maintenance

open Batching Model

section Category

variable (options : RetentionRunOptions) (faults : BatchFaults) (category : RetentionCategory)
  (database : RetentionDatabase)

def due : List RetainedRow := dueRows options.windows options.now category database

/-- What goes of the category's queue and how its loop ends. -/
def queue : List RetainedRow × Ending RetentionFailure :=
  drain (batchFails category database faults) options.batchSize options.maxBatchesPerCategory 0
    (due options category database)

/-- The result of a category against its queue. -/
structure Reported (result : RetentionDatabase × RetentionCategoryResult) : Prop where
  removed : retained database = retained result.1 +
    (queue options faults category database).1.length +
      tokensWith category database (queue options faults category database).1
  failed : ∀ failure, (queue options faults category database).2 = .failed failure →
    result.2.failure = some failure ∧ result.2.deleted = 0
  finished : (∀ failure, (queue options faults category database).2 ≠ .failed failure) →
    result.2.failure = none ∧
      result.2.deleted = (queue options faults category database).1.length

variable {options faults category database}

/-- A category reports what its batches have deleted. -/
theorem runCategory_reported : Reported options faults category database
    (runCategory (applying options) faults category database) := by
  have hdrained : Drained category database 0
      (drain (batchFails category database faults) options.batchSize
        options.maxBatchesPerCategory 0 (due options category database))
      (runApplyCategory faults
        (deleteBatch options.windows options.now category options.batchSize) options.batchSize
        options.maxBatchesPerCategory ⟨0, 0, false⟩ database) :=
    runApplyCategory_drained options.maxBatchesPerCategory ⟨0, 0, false⟩ database
  refine ⟨runCategory_applying ▸ hdrained.removed, fun failure hfailed => ?_, fun hending => ?_⟩
  · have herror := hdrained.failed failure hfailed
    simp only [runCategory, applying]
    split
    · next hran =>
        rw [hran] at herror
        cases herror
    · next hran =>
        rw [hran] at herror
        cases herror
        exact ⟨rfl, rfl⟩
  · obtain ⟨outcome, hok, hdeleted⟩ := hdrained.finished hending
    simp only [runCategory, applying]
    split
    · next hran =>
        rw [hran] at hok
        cases hok
        exact ⟨rfl, hdeleted.trans (Nat.zero_add _)⟩
    · next hran =>
        rw [hran] at hok
        cases hok

end Category

/-- `P` of the faults, the category and the database that it finds, at every place of
an apply run. -/
def EveryPlace (options : RetentionRunOptions)
    (P : BatchFaults → RetentionCategory → RetentionDatabase → Prop) :
    (ℕ → BatchFaults) → List RetentionCategory → RetentionDatabase → Prop
  | _, [], _ => True
  | faults, category :: categories, database =>
      P (faults 0) category database ∧
        EveryPlace options P (fun place => faults (place + 1)) categories
          (runCategory (applying options) (faults 0) category database).1

section Numbers

variable {options : RetentionRunOptions} {faults : BatchFaults} {category : RetentionCategory}
  {database : RetentionDatabase}

/-- The rows that each category removes. -/
def removals (options : RetentionRunOptions) :
    (ℕ → BatchFaults) → List RetentionCategory → RetentionDatabase → List ℕ
  | _, [], _ => []
  | faults, category :: categories, database =>
      let next := (runCategory (applying options) (faults 0) category database).1
      (retained database - retained next) ::
        removals options (fun place => faults (place + 1)) categories next

/-- No session that the cap lets go has a refresh token left. -/
def Tokenless (options : RetentionRunOptions) (category : RetentionCategory)
    (database : RetentionDatabase) : Prop :=
  category = .expiredSessions → ∀ session ∈ (due options category database).take
      (options.maxBatchesPerCategory * options.batchSize),
    ∀ token ∈ database.rows .refreshTokens, token.sessionId ≠ some session.id

/-- The first batch of the category fails, or no batch fails and no token goes along
with its session. -/
def Accountable (options : RetentionRunOptions) (faults : BatchFaults)
    (category : RetentionCategory) (database : RetentionDatabase) : Prop :=
  (batchFails category database faults 0
      (nthBatch options.batchSize (due options category database) 0)).isSome ∨
    NoneFails (batchFails category database faults) options.batchSize
      options.maxBatchesPerCategory 0 (due options category database) ∧
    Tokenless options category database

/-- Only sessions take other rows with them. -/
theorem tokensWith_eq_zero_iff {rows : List RetainedRow} :
    tokensWith category database rows = 0 ↔ (category = .expiredSessions → ∀ session ∈ rows,
      ∀ token ∈ database.rows .refreshTokens, token.sessionId ≠ some session.id) := by
  unfold tokensWith
  split
  · next hsessions =>
      rw [tokensOf_length, List.length_eq_zero_iff, List.filter_eq_nil_iff]
      simp only [hsessions, true_imp_iff, tokenOf, Option.any_eq_true, decide_eq_true_eq,
        List.mem_map]
      constructor
      · exact fun h session hsession token htoken hrefers =>
          h token htoken ⟨_, hrefers, session, hsession, rfl⟩
      · rintro h token htoken ⟨_, hrefers, session, hsession, rfl⟩
        exact h session hsession token htoken hrefers
  · next hne => simp [hne]

/-- The count of a category is what is gone exactly when its batches are accountable. -/
theorem runCategory_exact_iff :
    (runCategory (applying options) faults category database).2.deleted =
      retained database - retained (runCategory (applying options) faults category database).1 ↔
    Accountable options faults category database := by
  have hreported : Reported options faults category database
    (runCategory (applying options) faults category database) := runCategory_reported
  rcases drain_cases (batchFails category database faults) options.batchSize
      options.maxBatchesPerCategory 0 (due options category database) with
    ⟨k, failure, hfails, hdrain⟩ | ⟨hnone, hgone, hending⟩
  · have hqueue : (queue options faults category database).1 =
        (due options category database).take (k * options.batchSize) := congrArg Prod.fst hdrain
    have hremoved := hreported.removed
    rw [(hreported.failed failure (congrArg Prod.snd hdrain)).2]
    rw [hqueue] at hremoved
    cases k with
    | zero =>
        rw [Nat.zero_mul, List.take_zero, tokensWith_nil] at hremoved
        refine iff_of_true ?_ (.inl (by rw [hfails.failing]; rfl))
        rw [hremoved]
        simp
    | succ k =>
        -- what the batches before the failing one removed is not reported
        have hlength := hfails.reached
        have hsize := options.batchSize_pos
        rw [Nat.succ_mul] at hlength
        rw [List.length_take, Nat.succ_mul, Nat.min_eq_left hlength] at hremoved
        refine iff_of_false (by omega) ?_
        rintro (hfirst | ⟨hnone, -⟩)
        · rw [hfails.first 0 (Nat.succ_pos k)] at hfirst
          cases hfirst
        · have hpassed := hnone _ hfails.within hfails.reached
          exact absurd (hfails.failing.symm.trans hpassed) nofun
  · have hremoved := hreported.removed
    have hqueue : (queue options faults category database).1 =
        (due options category database).take
          (options.maxBatchesPerCategory * options.batchSize) := hgone
    have hpassed := hnone 0 options.maxBatches_pos (by simp)
    rw [(hreported.finished hending).2]
    have hzero : (queue options faults category database).1.length = retained database -
        retained (runCategory (applying options) faults category database).1 ↔
          tokensWith category database (queue options faults category database).1 = 0 := by
      omega
    rw [hzero, hqueue, tokensWith_eq_zero_iff]
    refine ⟨fun htokenless => .inr ⟨hnone, htokenless⟩, ?_⟩
    rintro (hfirst | ⟨-, htokenless⟩)
    · rw [hpassed] at hfirst
      cases hfirst
    · exact htokenless

theorem deleted_eq_removals_iff (categories : List RetentionCategory) : ∀ faults database,
    (runCategories (applying options) faults categories database).2.map
        RetentionCategoryResult.deleted = removals options faults categories database ↔
      EveryPlace options (Accountable options) faults categories database := by
  induction categories with
  | nil => exact fun _ _ => by simp [runCategories, removals, EveryPlace]
  | cons category categories ih =>
      intro faults database
      exact List.cons_eq_cons.trans (and_congr runCategory_exact_iff (ih _ _))

/-- The summary gives the removed rows, for each category and in total, exactly when
every category fails at its first batch or not at all, and no refresh token goes along
with its session. -/
theorem summary_exact_iff (options : RetentionRunOptions) (faults : ℕ → BatchFaults)
    (database : RetentionDatabase) :
    let summary := (runRetentionCleanup (applying options) faults database).2
    let removed := removals options faults options.categories database
    (summary.results.map RetentionCategoryResult.deleted = removed ∧
      summary.totalDeleted = removed.sum) ↔
    EveryPlace options (Accountable options) faults options.categories database := by
  intro summary removed
  rw [← deleted_eq_removals_iff]
  exact ⟨And.left, fun h => ⟨h, congrArg List.sum h⟩⟩

/-- Two old events in batches of one. -/
def oldEvents : RetentionDatabase where
  rows
    | .securityEvents => [{ id := "a", retentionAt := 0, sessionId := none },
        { id := "b", retentionAt := 0, sessionId := none }]
    | _ => []
  distinct table := by cases table <;> decide
  refers table := by cases table <;> simp

def oneByOne : RetentionRunOptions :=
  { sessionsAlone with batchSize := 1, categories := [.securityEvents], batchSize_pos := by decide }

/-- The connection is lost at the second batch. -/
def secondBatchLost : ℕ → BatchFaults := fun _ batch =>
  if batch = 1 then some ⟨{ code := "08006" }, by decide⟩ else none

/-- One event is gone, and the summary says that none is. -/
theorem lost_batch_reports_nothing :
    let summary := (runRetentionCleanup (applying oneByOne) secondBatchLost oldEvents).2
    let removed := removals oneByOne secondBatchLost oneByOne.categories oldEvents
    ¬(summary.results.map RetentionCategoryResult.deleted = removed ∧
      summary.totalDeleted = removed.sum) := by
  decide +kernel

end Numbers

/-! ## Bounds -/

section Bounds

/-- A delete statement by the ids of its `where` clause. -/
structure DeleteStatement where
  table : RetentionTable
  ids : List String

/-- The delete statements of a batch. -/
def batchStatements (windows : RetentionWindows) (now : ℤ) (category : RetentionCategory)
    (batchSize : ℕ) (database : RetentionDatabase) : List DeleteStatement :=
  let ids := selectBatch windows now category batchSize database
  match category with
  | .expiredSessions =>
      if ids.length = 0 then []
      else [⟨.refreshTokens, tokensOf ids database⟩, ⟨.sessions, ids⟩]
  | category => [⟨category.table, ids⟩]

/-- How many rows each of the statements removes, up to the first that fails, and the
database after them. -/
def executeDeletes : List DeleteStatement → RetentionDatabase →
    List ℕ × Except RetentionFailure RetentionDatabase
  | [], database => ([], .ok database)
  | statement :: statements, database =>
      match deleteIds statement.table statement.ids database with
      | .error failure => ([], .error failure)
      | .ok (n, next) =>
          (n :: (executeDeletes statements next).1, (executeDeletes statements next).2)

variable {windows : RetentionWindows} {now : ℤ} {category : RetentionCategory} {batchSize : ℕ}
  {database : RetentionDatabase}

theorem batchStatements_of_ne (hne : category ≠ .expiredSessions) :
    batchStatements windows now category batchSize database =
      [⟨category.table, selectBatch windows now category batchSize database⟩] := by
  cases category <;> first | rfl | exact absurd rfl hne

/-- These are the statements that a batch executes; it counts the rows of the last. -/
theorem deleteBatch_eq_executeDeletes : deleteBatch windows now category batchSize database =
    let executed :=
      executeDeletes (batchStatements windows now category batchSize database) database
    executed.2.map fun next => (executed.1.getLast?.getD 0, next) := by
  by_cases hsessions : category = .expiredSessions
  · subst hsessions
    simp only [deleteBatch, deleteSessionBatch, batchStatements]
    split
    · rfl
    · simp only [executeDeletes]
      cases hcleared : deleteIds .refreshTokens
          (tokensOf (selectBatch windows now .expiredSessions batchSize database) database)
          database with
      | error failure => rfl
      | ok cleared =>
          dsimp only
          cases deleteIds .sessions
            (selectBatch windows now .expiredSessions batchSize database) cleared.2 <;> rfl
  · rw [deleteBatch_of_ne hsessions, batchStatements_of_ne hsessions]
    simp only [deleteAgedBatch, executeDeletes]
    cases deleteIds category.table (selectBatch windows now category batchSize database)
      database <;> rfl

/-- At most as many rows of the table are selected as a batch has. -/
theorem filter_selectBatch_le : ((database.rows category.table).filter fun row =>
    row.id ∈ selectBatch windows now category batchSize database).length ≤ batchSize := by
  rw [filter_mem_selectBatch, List.length_take]
  exact min_le_left _ _

/-- Every delete statement of a batch removes at most as many rows as a batch has,
unless the sessions of the batch have more refresh tokens than that. -/
theorem statements_bounded_iff (windows : RetentionWindows) (now : ℤ)
    (category : RetentionCategory) (batchSize : ℕ) (database : RetentionDatabase) :
    (∀ removed ∈ (executeDeletes (batchStatements windows now category batchSize database)
      database).1, removed ≤ batchSize) ↔
    (category = .expiredSessions →
      (tokensOf (selectBatch windows now category batchSize database) database).length ≤
        batchSize) := by
  by_cases hsessions : category = .expiredSessions
  · subst hsessions
    simp only [batchStatements, true_imp_iff]
    split
    · next hnone =>
        rw [List.length_eq_zero_iff.mp hnone]
        simp [executeDeletes, tokensOf]
    · simp only [executeDeletes]
      split
      · next hcleared => cases (deleteIds_eq_error hcleared).2.1
      · next n cleared hcleared =>
          obtain ⟨hn, hrows⟩ := deleteIds_eq_ok hcleared
          rw [filter_tokensOf_length] at hn
          rw [List.forall_mem_cons, hn, and_iff_left]
          split
          · simp
          · next m next hdelete =>
              rw [List.forall_mem_singleton, (deleteIds_eq_ok hdelete).1, hrows,
                RetentionDatabase.kept, if_neg (by decide)]
              exact filter_selectBatch_le
  · rw [batchStatements_of_ne hsessions]
    refine iff_of_true ?_ fun h => absurd h hsessions
    simp only [executeDeletes]
    split
    · simp
    · next n next hdelete =>
        rw [List.forall_mem_singleton, (deleteIds_eq_ok hdelete).1]
        exact filter_selectBatch_le

/-- An expired session whose refresh token was rotated once. -/
def rotatedSession : RetentionDatabase where
  rows
    | .sessions => [{ id := "s", retentionAt := 0, sessionId := none }]
    | .refreshTokens => [{ id := "a", retentionAt := 0, sessionId := some "s" },
        { id := "b", retentionAt := 0, sessionId := some "s" }]
    | _ => []
  distinct table := by cases table <;> decide
  refers table := by cases table <;> simp [RetentionTable.refersToSessions]

theorem tokens_exceed_batch :
    ¬∀ removed ∈ (executeDeletes (batchStatements sessionsAlone.windows sessionsAlone.now
      .expiredSessions 1 rotatedSession) rotatedSession).1, removed ≤ 1 := by
  decide +kernel

end Bounds

end Orgistry.Maintenance
