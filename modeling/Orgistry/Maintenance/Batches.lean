import Orgistry.Batching.Drain
import Orgistry.Maintenance.Retention
import Orgistry.Sorting.Stable

/-!
# The queue of due rows

A category works off the rows that are due, the oldest first.  A batch takes its rows
off the front of that queue and leaves the rest of it as it was; a batch of sessions
takes their refresh tokens along, and fails on a session that a security event still
refers to.
-/

namespace Orgistry.Maintenance

open Batching Model Sorting

section Due

variable (windows : RetentionWindows) (now : ℤ) (category : RetentionCategory)
  (database : RetentionDatabase)

/-- The eligible rows, the oldest first. -/
def dueRows : List RetainedRow :=
  (eligibleRows windows now category database).insertionSort fun left right =>
    left.retentionAt ≤ right.retentionAt

theorem selectBatch_eq (batchSize : ℕ) : selectBatch windows now category batchSize database =
    ((dueRows windows now category database).take batchSize).map RetainedRow.id := rfl

variable {windows now category database}

theorem mem_dueRows {row : RetainedRow} : row ∈ dueRows windows now category database ↔
    row ∈ database.rows category.table ∧ Eligible windows now category database row := by
  rw [dueRows, List.mem_insertionSort, mem_eligibleRows]

theorem dueRows_nodup : ((dueRows windows now category database).map RetainedRow.id).Nodup := by
  have hperm := (List.perm_insertionSort (fun left right : RetainedRow =>
    left.retentionAt ≤ right.retentionAt) (eligibleRows windows now category database)).map
      RetainedRow.id
  exact hperm.nodup_iff.mpr
    ((database.distinct category.table).sublist (List.filter_sublist.map _))

end Due

/-- Dropping the rows that have been taken. -/
theorem filter_notMem_take {rows : List RetainedRow} (hrows : (rows.map RetainedRow.id).Nodup)
    (n : ℕ) : rows.filter (fun row => row.id ∉ (rows.take n).map RetainedRow.id) =
      rows.drop n := by
  have hsplit : ((rows.take n).map RetainedRow.id ++ (rows.drop n).map RetainedRow.id).Nodup := by
    rwa [← List.map_append, List.take_append_drop]
  have htaken : ∀ row ∈ rows.take n, ¬row.id ∉ (rows.take n).map RetainedRow.id :=
    fun row hrow hnot => hnot (List.mem_map_of_mem hrow)
  have hleft : ∀ row ∈ rows.drop n, row.id ∉ (rows.take n).map RetainedRow.id :=
    fun row hrow hmem => List.disjoint_of_nodup_append hsplit hmem (List.mem_map_of_mem hrow)
  calc rows.filter (fun row => row.id ∉ (rows.take n).map RetainedRow.id)
      = (rows.take n ++ rows.drop n).filter
          (fun row => row.id ∉ (rows.take n).map RetainedRow.id) := by
        rw [List.take_append_drop]
    _ = rows.drop n := by
        rw [List.filter_append, List.filter_eq_nil_iff.mpr fun row hrow => by
            simpa using htaken row hrow,
          List.filter_eq_self.mpr fun row hrow => by simpa using hleft row hrow, List.nil_append]

/-- As many rows have a selected id as ids are selected. -/
theorem length_filter_mem {rows selected : List RetainedRow}
    (hrows : (rows.map RetainedRow.id).Nodup) (hselected : (selected.map RetainedRow.id).Nodup)
    (hsub : selected ⊆ rows) :
    (rows.filter fun row => row.id ∈ selected.map RetainedRow.id).length = selected.length := by
  have hperm : ((rows.filter fun row => row.id ∈ selected.map RetainedRow.id).map
      RetainedRow.id).Perm (selected.map RetainedRow.id) := by
    refine (List.perm_ext_iff_of_nodup (hrows.sublist (List.filter_sublist.map _)) hselected).mpr
      fun id => ⟨fun hid => ?_, fun hid => ?_⟩
    · obtain ⟨row, hrow, rfl⟩ := List.mem_map.mp hid
      exact of_decide_eq_true (List.mem_filter.mp hrow).2
    · obtain ⟨row, hrow, rfl⟩ := List.mem_map.mp hid
      exact List.mem_map_of_mem (List.mem_filter.mpr ⟨hsub hrow, decide_eq_true hid⟩)
  simpa using hperm.length_eq

/-- A security event refers to the session. -/
def Held (database : RetentionDatabase) (session : RetainedRow) : Prop :=
  ∃ event ∈ database.rows .securityEvents, event.sessionId = some session.id

instance (database : RetentionDatabase) : DecidablePred (Held database) := fun _ =>
  inferInstanceAs (Decidable (∃ _ ∈ _, _))

/-- What the data make the batch of these rows fail with. -/
def batchFailure (category : RetentionCategory) (database : RetentionDatabase)
    (rows : List RetainedRow) : Option RetentionFailure :=
  if category = .expiredSessions ∧ ∃ session ∈ rows, Held database session then
    some foreignKeyViolation
  else none

/-- The rows that a batch of these rows deletes besides them. -/
def tokensWith (category : RetentionCategory) (database : RetentionDatabase)
    (rows : List RetainedRow) : ℕ :=
  if category = .expiredSessions then (tokensOf (rows.map RetainedRow.id) database).length else 0

section Batch

variable (windows : RetentionWindows) (now : ℤ) (category : RetentionCategory)
  (database next : RetentionDatabase) (batchSize : ℕ)

/-- A batch that has gone through. -/
structure BatchDone : Prop where
  due : dueRows windows now category next =
    (dueRows windows now category database).drop batchSize
  failure : batchFailure category next = batchFailure category database
  tokens : ∀ rows, tokensWith category database
      ((dueRows windows now category database).take batchSize ++ rows) =
    tokensWith category database ((dueRows windows now category database).take batchSize) +
      tokensWith category next rows
  removed : retained database = retained next +
    ((dueRows windows now category database).take batchSize).length +
    tokensWith category database ((dueRows windows now category database).take batchSize)

variable {windows now category database next batchSize} {n : ℕ}

theorem filter_mem_selectBatch : ((database.rows category.table).filter fun row =>
    row.id ∈ selectBatch windows now category batchSize database).length =
      ((dueRows windows now category database).take batchSize).length := by
  rw [selectBatch_eq]
  exact length_filter_mem (database.distinct _)
    (dueRows_nodup.sublist ((List.take_sublist _ _).map _))
    fun row hrow => (mem_dueRows.mp (List.mem_of_mem_take hrow)).1

/-- Eligibility stays, and sorting commutes with dropping rows. -/
theorem dueRows_next (hrows : next.rows category.table = (database.rows category.table).filter
      fun row => row.id ∉ selectBatch windows now category batchSize database)
    (heligible : ∀ row ∈ next.rows category.table,
      (Eligible windows now category next row ↔ Eligible windows now category database row)) :
    dueRows windows now category next =
      (dueRows windows now category database).drop batchSize := by
  have hfilter : eligibleRows windows now category next =
      (eligibleRows windows now category database).filter
        fun row => row.id ∉ selectBatch windows now category batchSize database := by
    rw [eligibleRows, List.filter_congr fun row hrow => decide_eq_decide.mpr (heligible row hrow),
      hrows, eligibleRows, List.filter_comm]
  rw [dueRows, hfilter, ← filter_insertionSort, ← filter_notMem_take dueRows_nodup]
  rfl

/-- The rows of a delete statement are gone, and no others. -/
theorem retained_kept {table : RetentionTable} {ids : List String}
    (hrows : next.rows = database.kept table ids) : retained database =
      retained next + ((database.rows table).filter fun row => row.id ∈ ids).length := by
  have hlength := List.length_eq_length_filter_add
    (l := database.rows table) fun row => decide (row.id ∈ ids)
  cases table <;> simp [retained, retentionCategories, hrows, RetentionDatabase.kept,
    RetentionCategory.table] at hlength ⊢ <;> omega

theorem deleteAgedBatch_done (hne : category ≠ .expiredSessions)
    (hnext : deleteAgedBatch windows now category batchSize database = .ok (n, next)) :
    n = ((dueRows windows now category database).take batchSize).length ∧
      BatchDone windows now category database next batchSize := by
  obtain ⟨hn, hrows⟩ := deleteIds_eq_ok hnext
  rw [filter_mem_selectBatch] at hn
  have htokens (database) (rows) : tokensWith category database rows = 0 := if_neg hne
  refine ⟨hn, ⟨dueRows_next ?_ fun row _ => ?_, ?_, fun rows => ?_, ?_⟩⟩
  · rw [hrows, RetentionDatabase.kept, if_pos rfl]
  · rw [eligible_aged hne, eligible_aged hne]
  · funext rows
    rw [batchFailure, batchFailure, if_neg fun h => hne h.1, if_neg fun h => hne h.1]
  · rw [htokens, htokens, htokens]
  · rw [retained_kept hrows, filter_mem_selectBatch, htokens, Nat.add_zero]

/-- Whether a token is one of the sessions. -/
def tokenOf (ids : List String) (token : RetainedRow) : Bool :=
  token.sessionId.any fun session => session ∈ ids

theorem tokensOf_length (ids : List String) :
    (tokensOf ids database).length = ((database.rows .refreshTokens).filter (tokenOf ids)).length :=
  List.length_map _

theorem mem_tokensOf_iff {ids : List String} {token : RetainedRow}
    (htoken : token ∈ database.rows .refreshTokens) :
    token.id ∈ tokensOf ids database ↔ tokenOf ids token = true := by
  constructor
  · intro hmem
    obtain ⟨session, hsession, hrefers⟩ := tokensOf_refers htoken hmem
    simp [tokenOf, hrefers, hsession]
  · exact fun hof => List.mem_map_of_mem (List.mem_filter.mpr ⟨htoken, hof⟩)

theorem filter_tokensOf_length (ids : List String) (database : RetentionDatabase) :
    ((database.rows .refreshTokens).filter fun token => token.id ∈ tokensOf ids database).length =
      (tokensOf ids database).length := by
  rw [tokensOf_length, List.filter_congr fun token htoken => ?_]
  simp only [mem_tokensOf_iff htoken, Bool.decide_eq_true]

theorem length_filter_append (left right : List String) (tokens : List RetainedRow) :
    (tokens.filter (tokenOf (left ++ right))).length = (tokens.filter (tokenOf left)).length +
      ((tokens.filter fun token => !tokenOf left token).filter (tokenOf right)).length := by
  have hor (token) :
      tokenOf (left ++ right) token = (tokenOf left token || tokenOf right token) := by
    cases h : token.sessionId <;> simp [tokenOf, h]
  have hleft (token) :
      (tokenOf left token && tokenOf (left ++ right) token) = tokenOf left token := by
    rw [hor]
    cases tokenOf left token <;> simp
  have hright (token) : (!tokenOf left token && tokenOf (left ++ right) token) =
      (tokenOf right token && !tokenOf left token) := by
    rw [hor]
    cases tokenOf left token <;> simp
  rw [List.length_eq_length_filter_add (tokenOf left), List.filter_filter, List.filter_filter,
    List.filter_filter]
  simp only [hleft, hright]

/-- The tokens of the selected sessions are gone, and no others. -/
theorem tokens_next {cleared : RetentionDatabase} {ids : List String}
    (hcleared : cleared.rows = database.kept .refreshTokens (tokensOf ids database))
    (hnext : next.rows = cleared.kept .sessions ids) : next.rows .refreshTokens =
      (database.rows .refreshTokens).filter fun token => !tokenOf ids token := by
  rw [hnext, RetentionDatabase.kept, if_neg (by decide), hcleared, RetentionDatabase.kept,
    if_pos rfl]
  refine List.filter_congr fun token htoken => ?_
  simp only [mem_tokensOf_iff htoken, Bool.not_eq_true, Bool.decide_eq_false]

/-- A batch of sessions takes the oldest ones that are due. -/
theorem deleteSessionBatch_done
    (hdone : deleteSessionBatch windows now batchSize database = .ok (n, next)) :
    n = ((dueRows windows now .expiredSessions database).take batchSize).length ∧
      BatchDone windows now .expiredSessions database next batchSize := by
  obtain ⟨hn, cleared, hcleared, hnext⟩ := deleteSessionBatch_eq_ok hdone
  have hcount : ((database.rows .sessions).filter fun row =>
      row.id ∈ selectBatch windows now .expiredSessions batchSize database).length =
        ((dueRows windows now .expiredSessions database).take batchSize).length :=
    filter_mem_selectBatch
  have hevents : next.rows .securityEvents = database.rows .securityEvents := by
    rw [hnext, RetentionDatabase.kept, if_neg (by decide), hcleared, RetentionDatabase.kept,
      if_neg (by decide)]
  have hsessions : next.rows .sessions = (database.rows .sessions).filter fun row =>
      row.id ∉ selectBatch windows now .expiredSessions batchSize database := by
    rw [hnext, RetentionDatabase.kept, if_pos rfl, hcleared, RetentionDatabase.kept,
      if_neg (by decide)]
  have htokens := tokens_next hcleared hnext
  refine ⟨hn.trans hcount, ⟨dueRows_next hsessions fun session hsession => ?_, ?_, fun rows => ?_,
    ?_⟩⟩
  · -- the tokens that went refer to selected sessions, and this one is not selected
    have hkept : session.id ∉ selectBatch windows now .expiredSessions batchSize database := by
      rw [show RetentionCategory.expiredSessions.table = .sessions from rfl, hsessions] at hsession
      exact of_decide_eq_true (List.mem_filter.mp hsession).2
    have hsame (token : RetainedRow) (hrefers : token.sessionId = some session.id) :
        token ∈ next.rows .refreshTokens ↔ token ∈ database.rows .refreshTokens := by
      rw [htokens, List.mem_filter, and_iff_left]
      simp [tokenOf, hrefers, hkept]
    refine and_congr_right fun _ => and_congr (forall_congr' fun token => ?_) ?_
    · exact ⟨fun h hmem hrefers => h ((hsame token hrefers).mpr hmem) hrefers,
        fun h hmem hrefers => h ((hsame token hrefers).mp hmem) hrefers⟩
    · rw [hevents]
  · funext rows
    simp only [batchFailure, Held, hevents]
  · rw [selectBatch_eq] at htokens
    simp only [tokensWith, if_pos, tokensOf_length, List.map_append, length_filter_append, htokens]
  · have hsecond : cleared.rows .sessions = database.rows .sessions := by
      rw [hcleared, RetentionDatabase.kept, if_neg (by decide)]
    rw [retained_kept hcleared, retained_kept hnext, filter_tokensOf_length, hsecond, tokensWith,
      if_pos rfl, ← hcount]
    rfl

theorem deleteBatch_done
    (hnext : deleteBatch windows now category batchSize database = .ok (n, next)) :
    n = ((dueRows windows now category database).take batchSize).length ∧
      BatchDone windows now category database next batchSize := by
  by_cases hsessions : category = .expiredSessions
  · subst hsessions
    exact deleteSessionBatch_done hnext
  · rw [deleteBatch_of_ne hsessions] at hnext
    exact deleteAgedBatch_done hsessions hnext

/-- A batch that has gone through held no session: the event would refer to nothing. -/
theorem batchFailure_eq_none
    (hnext : deleteBatch windows now category batchSize database = .ok (n, next)) :
    batchFailure category database
      ((dueRows windows now category database).take batchSize) = none := by
  refine if_neg ?_
  rintro ⟨rfl, session, hsession, event, hevent, hrefers⟩
  have hselected : session.id ∈ selectBatch windows now .expiredSessions batchSize database :=
    List.mem_map_of_mem hsession
  have hkept : event ∈ next.rows .securityEvents :=
    (deleteBatch_swept hnext).events (by simp) ▸ hevent
  obtain ⟨-, referred, hreferred, hid⟩ := next.refers _ event hkept _ hrefers
  have hstill := ((deleteBatch_swept hnext).sublist _).subset hreferred
  have hsame := row_eq_of_id hstill (mem_dueRows.mp (List.mem_of_mem_take hsession)).1 hid
  exact selected_gone hnext hselected (hsame ▸ hreferred)

/-- A batch fails on what the data say, or goes through. -/
theorem deleteBatch_cases (windows : RetentionWindows) (now : ℤ) (category : RetentionCategory)
    (batchSize : ℕ) (database : RetentionDatabase) :
    (∃ failure, batchFailure category database
        ((dueRows windows now category database).take batchSize) = some failure ∧
      deleteBatch windows now category batchSize database = .error failure) ∨
    batchFailure category database
        ((dueRows windows now category database).take batchSize) = none ∧
      ∃ next, deleteBatch windows now category batchSize database =
          .ok (((dueRows windows now category database).take batchSize).length, next) ∧
        BatchDone windows now category database next batchSize := by
  cases hbatch : deleteBatch windows now category batchSize database with
  | error failure =>
      obtain ⟨rfl, rfl, session, hsession, hselected, hheld⟩ := deleteBatch_eq_error hbatch
      obtain ⟨row, hrow, hid⟩ := List.mem_map.mp hselected
      have hdue := (mem_dueRows.mp (List.mem_of_mem_take hrow)).1
      obtain rfl := row_eq_of_id hdue hsession hid
      exact .inl ⟨_, if_pos ⟨rfl, row, hrow, hheld⟩, rfl⟩
  | ok done =>
      obtain ⟨n, next⟩ := done
      obtain ⟨rfl, hdone⟩ := deleteBatch_done hbatch
      exact .inr ⟨batchFailure_eq_none hbatch, next, rfl, hdone⟩

end Batch

/-! ## A category drains its queue -/

/-- What makes the batch of these rows fail: a fault of a statement, or the data. -/
def batchFails (category : RetentionCategory) (database : RetentionDatabase) (faults : BatchFaults)
    (batch : ℕ) (rows : List RetainedRow) : Option RetentionFailure :=
  match faults batch with
  | some fault => some fault.failure
  | none => batchFailure category database rows

section Drain

variable {windows : RetentionWindows} {now : ℤ} {category : RetentionCategory} {batchSize : ℕ}
  {faults : BatchFaults} {database next : RetentionDatabase}

theorem BatchDone.fails (h : BatchDone windows now category database next batchSize) :
    batchFails category next faults = batchFails category database faults := by
  funext batch rows
  rw [batchFails, batchFails, h.failure]

/-- What a category has done to the database and what it reports, against its queue. -/
structure Drained (category : RetentionCategory) (database : RetentionDatabase) (deleted : ℕ)
    (queue : List RetainedRow × Ending RetentionFailure)
    (ran : RetentionDatabase × Except RetentionFailure ApplyOutcome) : Prop where
  removed : retained database =
    retained ran.1 + queue.1.length + tokensWith category database queue.1
  failed : ∀ failure, queue.2 = .failed failure → ran.2 = .error failure
  finished : (∀ failure, queue.2 ≠ .failed failure) →
    ∃ outcome, ran.2 = .ok outcome ∧ outcome.deleted = deleted + queue.1.length

theorem tokensWith_nil : tokensWith category database [] = 0 := by
  unfold tokensWith
  split <;> simp [tokensOf]

/-- By induction on the batches that are left: each takes the next of the queue. -/
theorem runApplyCategory_drained (left : ℕ) : ∀ (outcome : ApplyOutcome) (database),
    Drained category database outcome.deleted
      (drain (batchFails category database faults) batchSize left outcome.batches
        (dueRows windows now category database))
      (runApplyCategory faults (deleteBatch windows now category batchSize) batchSize left outcome
        database) := by
  induction left with
  | zero =>
      intro outcome database
      refine ⟨by simp [drain, runApplyCategory, tokensWith_nil], fun failure h => ?_,
        fun _ => ⟨_, rfl, by simp [drain]⟩⟩
      cases h
  | succ left ih =>
      intro outcome database
      rw [drain, runApplyCategory, transactBatch, batchFails]
      cases hfault : faults outcome.batches with
      | some fault =>
          refine ⟨by simp [tokensWith_nil], fun failure h => ?_, fun h => absurd rfl (h _)⟩
          cases h
          rfl
      | none =>
          rcases deleteBatch_cases windows now category batchSize database with
            ⟨failure, hfails, hbatch⟩ | ⟨hnone, next, hbatch, hdone⟩
          · simp only [hfails, hbatch]
            refine ⟨by simp [tokensWith_nil], fun failure h => ?_, fun h => absurd rfl (h _)⟩
            cases h
            rfl
          · simp only [hnone, hbatch]
            split
            · refine ⟨hdone.removed, fun failure h => ?_, fun _ => ⟨_, rfl, rfl⟩⟩
              cases h
            · have hnext := ih { outcome with
                deleted := outcome.deleted +
                  ((dueRows windows now category database).take batchSize).length
                batches := outcome.batches + 1 } next
              rw [hdone.due, hdone.fails] at hnext
              refine ⟨?_, hnext.failed, fun hending => ?_⟩
              · have hremoved := hnext.removed
                dsimp only at hremoved
                rw [hdone.tokens, hdone.removed, hremoved, List.length_append]
                omega
              · obtain ⟨final, hfinal, hdeleted⟩ := hnext.finished hending
                exact ⟨final, hfinal, by rw [hdeleted, List.length_append, Nat.add_assoc]⟩

end Drain

end Orgistry.Maintenance
