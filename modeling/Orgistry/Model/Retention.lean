import Mathlib.Algebra.Order.Ring.Int
import Mathlib.Algebra.Order.Ring.Nat
import Mathlib.Data.List.Sort
import Mathlib.Tactic.Common

/-!
# Retention

The categories of `maintenance/retention-policy.ts` and the executor of
`maintenance/retention.ts` on the tables that they delete from.  Of a row only
the columns are kept that the categories read.  Times are microseconds.  A batch
takes rows of the same age in the order of their table, which is any order.
-/

namespace Orgistry.Model

inductive RetentionTable
  | securityEvents
  | refreshTokens
  | sessions
  | emailVerificationTokens
  | passwordResetTokens
  | pendingRegistrations
  deriving DecidableEq

/-- The retention column is `created_at` of security events and `expires_at` of the
others; `session_id` is null where the table has none. -/
structure RetainedRow where
  id : String
  retentionAt : ℤ
  sessionId : Option String
  deriving DecidableEq

def RetentionTable.refersToSessions : RetentionTable → Bool
  | .securityEvents => true
  | .refreshTokens => true
  | _ => false

/-- The rows with their primary keys and the foreign keys to `sessions`. -/
@[ext]
structure RetentionDatabase where
  rows : RetentionTable → List RetainedRow
  distinct : ∀ table, ((rows table).map RetainedRow.id).Nodup
  refers : ∀ table, ∀ row ∈ rows table, ∀ session, row.sessionId = some session →
    table.refersToSessions = true ∧ ∃ referred ∈ rows .sessions, referred.id = session

namespace RetentionDatabase

variable (database : RetentionDatabase)

/-- A row other than those to be deleted refers to one of them. -/
def Referenced (ids : List String) : Prop :=
  (∃ row ∈ database.rows .securityEvents, ∃ session ∈ ids, row.sessionId = some session) ∨
    ∃ row ∈ database.rows .refreshTokens, ∃ session ∈ ids, row.sessionId = some session

instance (ids : List String) : Decidable (database.Referenced ids) :=
  inferInstanceAs (Decidable (_ ∨ _))

def kept (table : RetentionTable) (ids : List String) (other : RetentionTable) :
    List RetainedRow :=
  if other = table then (database.rows other).filter fun row => row.id ∉ ids
  else database.rows other

/-- `delete from … where id in (…)` that violates no foreign key. -/
def deleting (table : RetentionTable) (ids : List String)
    (h : table = .sessions → ¬database.Referenced ids) : RetentionDatabase where
  rows := database.kept table ids
  distinct other := by
    unfold kept
    split
    · exact (database.distinct other).sublist (List.filter_sublist.map _)
    · exact database.distinct other
  refers other row hrow session hsession := by
    have hold : row ∈ database.rows other := by
      unfold kept at hrow
      split at hrow
      · exact List.mem_of_mem_filter hrow
      · exact hrow
    obtain ⟨hrefers, referred, hreferred, rfl⟩ := database.refers other row hold session hsession
    refine ⟨hrefers, referred, ?_, rfl⟩
    unfold kept
    split
    next htable =>
      refine List.mem_filter.mpr ⟨hreferred, decide_eq_true fun hdeleted => ?_⟩
      refine h htable.symm ?_
      cases other with
      | securityEvents => exact .inl ⟨row, hold, referred.id, hdeleted, hsession⟩
      | refreshTokens => exact .inr ⟨row, hold, referred.id, hdeleted, hsession⟩
      | sessions => cases hrefers
      | emailVerificationTokens => cases hrefers
      | passwordResetTokens => cases hrefers
      | pendingRegistrations => cases hrefers
    · exact hreferred

end RetentionDatabase

/-- What `describeFailure` takes from the error of a foreign key. -/
structure RetentionFailure where
  code : String
  deriving DecidableEq

def foreignKeyViolation : RetentionFailure := { code := "23503" }

/-- `delete … returning id`: the number of deleted rows and what is left. -/
def deleteIds (table : RetentionTable) (ids : List String) (database : RetentionDatabase) :
    Except RetentionFailure (ℕ × RetentionDatabase) :=
  if h : table = .sessions → ¬database.Referenced ids then
    .ok (((database.rows table).filter fun row => row.id ∈ ids).length,
      database.deleting table ids h)
  else .error foreignKeyViolation

structure RetentionWindows where
  securityEventDays : ℕ
  expiredAuthTokenDays : ℕ
  endedSessionDays : ℕ

inductive RetentionCategory
  | securityEvents
  | expiredRefreshTokens
  | expiredSessions
  | expiredEmailVerificationTokens
  | expiredPasswordResetTokens
  | expiredPendingRegistrations
  deriving DecidableEq

namespace RetentionCategory

def name : RetentionCategory → String
  | securityEvents => "security_events"
  | expiredRefreshTokens => "expired_refresh_tokens"
  | expiredSessions => "expired_sessions"
  | expiredEmailVerificationTokens => "expired_email_verification_tokens"
  | expiredPasswordResetTokens => "expired_password_reset_tokens"
  | expiredPendingRegistrations => "expired_pending_registrations"

def table : RetentionCategory → RetentionTable
  | securityEvents => .securityEvents
  | expiredRefreshTokens => .refreshTokens
  | expiredSessions => .sessions
  | expiredEmailVerificationTokens => .emailVerificationTokens
  | expiredPasswordResetTokens => .passwordResetTokens
  | expiredPendingRegistrations => .pendingRegistrations

def windowDays : RetentionCategory → RetentionWindows → ℕ
  | securityEvents, windows => windows.securityEventDays
  | expiredRefreshTokens, windows => windows.endedSessionDays
  | expiredSessions, windows => windows.endedSessionDays
  | expiredEmailVerificationTokens, windows => windows.expiredAuthTokenDays
  | expiredPasswordResetTokens, windows => windows.expiredAuthTokenDays
  | expiredPendingRegistrations, windows => windows.expiredAuthTokenDays

end RetentionCategory

/-- `RETENTION_CATEGORIES`. -/
def retentionCategories : List RetentionCategory :=
  [.securityEvents, .expiredRefreshTokens, .expiredSessions, .expiredEmailVerificationTokens,
    .expiredPasswordResetTokens, .expiredPendingRegistrations]

def microsecondsPerDay : ℤ := 24 * 60 * 60 * 1000 * 1000

def retentionCutoff (category : RetentionCategory) (windows : RetentionWindows) (now : ℤ) : ℤ :=
  now - category.windowDays windows * microsecondsPerDay

/-- `deletableSessionsWhere`, with the cutoffs of sessions and their tokens and of
security events. -/
def DeletableSession (cutoff securityEventCutoff : ℤ) (database : RetentionDatabase)
    (session : RetainedRow) : Prop :=
  session.retentionAt < cutoff ∧
    (∀ token ∈ database.rows .refreshTokens, token.sessionId = some session.id →
      token.retentionAt < cutoff) ∧
    ∀ event ∈ database.rows .securityEvents, event.sessionId = some session.id →
      event.retentionAt < securityEventCutoff

instance (cutoff securityEventCutoff : ℤ) (database : RetentionDatabase) (session : RetainedRow) :
    Decidable (DeletableSession cutoff securityEventCutoff database session) :=
  inferInstanceAs (Decidable (_ ∧ _ ∧ _))

section Categories

variable (windows : RetentionWindows) (now : ℤ)

/-- The predicate of a category: the age of the row alone, or of everything that
refers to the session. -/
def Eligible (category : RetentionCategory) (database : RetentionDatabase) (row : RetainedRow) :
    Prop :=
  match category with
  | .expiredSessions =>
      DeletableSession (retentionCutoff .expiredSessions windows now)
        (retentionCutoff .securityEvents windows now) database row
  | category => row.retentionAt < retentionCutoff category windows now

instance (category : RetentionCategory) (database : RetentionDatabase) :
    DecidablePred (Eligible windows now category database) := fun _ =>
  match category with
  | .expiredSessions => inferInstanceAs (Decidable (DeletableSession _ _ _ _))
  | .securityEvents => inferInstanceAs (Decidable (_ < _))
  | .expiredRefreshTokens => inferInstanceAs (Decidable (_ < _))
  | .expiredEmailVerificationTokens => inferInstanceAs (Decidable (_ < _))
  | .expiredPasswordResetTokens => inferInstanceAs (Decidable (_ < _))
  | .expiredPendingRegistrations => inferInstanceAs (Decidable (_ < _))

def eligibleRows (category : RetentionCategory) (database : RetentionDatabase) :
    List RetainedRow :=
  (database.rows category.table).filter fun row => Eligible windows now category database row

def countEligible (category : RetentionCategory) (database : RetentionDatabase) : ℕ :=
  (eligibleRows windows now category database).length

/-- The ids of the oldest eligible rows, as many as a batch takes. -/
def selectBatch (category : RetentionCategory) (batchSize : ℕ) (database : RetentionDatabase) :
    List String :=
  (((eligibleRows windows now category database).insertionSort fun left right =>
    left.retentionAt ≤ right.retentionAt).take batchSize).map RetainedRow.id

/-- `deleteBatch` of `ageBasedCategory`. -/
def deleteAgedBatch (category : RetentionCategory) (batchSize : ℕ) (database : RetentionDatabase) :
    Except RetentionFailure (ℕ × RetentionDatabase) :=
  deleteIds category.table (selectBatch windows now category batchSize database) database

/-- The tokens of the sessions that are about to go. -/
def tokensOf (sessionIds : List String) (database : RetentionDatabase) : List String :=
  ((database.rows .refreshTokens).filter fun token =>
    token.sessionId.any fun session => session ∈ sessionIds).map RetainedRow.id

/-- `deleteBatch` of `expiredSessions`: the tokens of the selected sessions, and then
the sessions. -/
def deleteSessionBatch (batchSize : ℕ) (database : RetentionDatabase) :
    Except RetentionFailure (ℕ × RetentionDatabase) :=
  let sessionIds := selectBatch windows now .expiredSessions batchSize database
  if sessionIds.length = 0 then .ok (0, database)
  else
    match deleteIds .refreshTokens (tokensOf sessionIds database) database with
    | .error failure => .error failure
    | .ok (_, database) => deleteIds .sessions sessionIds database

def deleteBatch : RetentionCategory → ℕ → RetentionDatabase →
    Except RetentionFailure (ℕ × RetentionDatabase)
  | .expiredSessions => deleteSessionBatch windows now
  | category => deleteAgedBatch windows now category

end Categories

/-! ## The executor -/

structure ApplyOutcome where
  deleted : ℕ
  batches : ℕ
  truncated : Bool
  deriving DecidableEq

/-- A statement that fails for a reason outside the data, such as a timeout or a lost
connection. -/
structure StatementFault where
  failure : RetentionFailure
  outside : failure ≠ foreignKeyViolation

/-- The faults of a category's statements, by the number of the batch. -/
abbrev BatchFaults := ℕ → Option StatementFault

/-- `client.db.transaction` around a batch: nothing stays of a batch of which a
statement fails. -/
def transactBatch (faults : BatchFaults)
    (deleteBatch : RetentionDatabase → Except RetentionFailure (ℕ × RetentionDatabase))
    (batch : ℕ) (database : RetentionDatabase) : Except RetentionFailure (ℕ × RetentionDatabase) :=
  match faults batch with
  | some fault => .error fault.failure
  | none => deleteBatch database

/-- `runApplyCategory` from its first batch on, with the batches that are left until
the cap.  What has been committed stays when a later batch fails. -/
def runApplyCategory (faults : BatchFaults)
    (deleteBatch : RetentionDatabase → Except RetentionFailure (ℕ × RetentionDatabase))
    (batchSize : ℕ) :
    ℕ → ApplyOutcome → RetentionDatabase → RetentionDatabase × Except RetentionFailure ApplyOutcome
  | 0, outcome, database => (database, .ok { outcome with truncated := true })
  | left + 1, outcome, database =>
      match transactBatch faults deleteBatch outcome.batches database with
      | .error failure => (database, .error failure)
      | .ok (batchDeleted, next) =>
          let outcome := { outcome with
            deleted := outcome.deleted + batchDeleted, batches := outcome.batches + 1 }
          if batchDeleted < batchSize then (next, .ok { outcome with truncated := false })
          else runApplyCategory faults deleteBatch batchSize left outcome next

inductive RetentionMode
  | dryRun
  | apply
  deriving DecidableEq

/-- The options of a run; the command line accepts no empty batch and no cap of
zero. -/
structure RetentionRunOptions where
  mode : RetentionMode
  windows : RetentionWindows
  batchSize : ℕ
  maxBatchesPerCategory : ℕ
  categories : List RetentionCategory
  now : ℤ
  batchSize_pos : 0 < batchSize
  maxBatches_pos : 0 < maxBatchesPerCategory

structure RetentionCategoryResult where
  category : RetentionCategory
  retentionDays : ℕ
  cutoff : ℤ
  eligible : Option ℕ
  deleted : ℕ
  batches : ℕ
  truncated : Bool
  failure : Option RetentionFailure
  deriving DecidableEq

structure RetentionRunSummary where
  mode : RetentionMode
  batchSize : ℕ
  results : List RetentionCategoryResult
  totalDeleted : ℕ
  failedCategories : ℕ
  deriving DecidableEq

/-- No statement fails for a reason outside the data. -/
def noFaults : ℕ → BatchFaults := fun _ _ => none

section Run

variable (options : RetentionRunOptions)

def runCategory (faults : BatchFaults) (category : RetentionCategory)
    (database : RetentionDatabase) : RetentionDatabase × RetentionCategoryResult :=
  let common : RetentionCategoryResult :=
    { category, retentionDays := category.windowDays options.windows
      cutoff := retentionCutoff category options.windows options.now
      eligible := none, deleted := 0, batches := 0, truncated := false, failure := none }
  match options.mode with
  | .dryRun =>
      match faults 0 with
      | some fault => (database, { common with failure := some fault.failure })
      | none =>
          (database, { common with
            eligible := some (countEligible options.windows options.now category database) })
  | .apply =>
      match runApplyCategory faults
          (deleteBatch options.windows options.now category options.batchSize)
          options.batchSize options.maxBatchesPerCategory ⟨0, 0, false⟩ database with
      | (database, .ok outcome) =>
          (database, { common with
            deleted := outcome.deleted, batches := outcome.batches
            truncated := outcome.truncated })
      | (database, .error failure) => (database, { common with failure := some failure })

/-- The loop over the categories, with the faults by the place of the category. -/
def runCategories : (ℕ → BatchFaults) → List RetentionCategory → RetentionDatabase →
    RetentionDatabase × List RetentionCategoryResult
  | _, [], database => (database, [])
  | faults, category :: categories, database =>
      let (database, result) := runCategory options (faults 0) category database
      let (database, results) :=
        runCategories (fun place => faults (place + 1)) categories database
      (database, result :: results)

/-- `runRetentionCleanup`, without the clock of its summary. -/
def runRetentionCleanup (faults : ℕ → BatchFaults) (database : RetentionDatabase) :
    RetentionDatabase × RetentionRunSummary :=
  let (database, results) := runCategories options faults options.categories database
  (database,
    { mode := options.mode, batchSize := options.batchSize, results
      totalDeleted := (results.map RetentionCategoryResult.deleted).sum
      failedCategories := (results.filter fun result => result.failure.isSome).length })

end Run

end Orgistry.Model
