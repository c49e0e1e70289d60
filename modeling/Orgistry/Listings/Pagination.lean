import Orgistry.Model.Listing

/-!
# Pagination

What a client gets who follows `nextCursor` from the first page of a listing to
its end, while nothing is written.  A cursor names the millisecond of the last
row shown, while rows are ordered by microseconds.
-/

namespace Orgistry.Model

open Keyset

variable {K : Type} [LinearOrder K]

section

variable {Row : Type} (createdAt : Row → Timestamp) (id : Row → K)

/-- The cursor that a page ending in `row` hands out. -/
def cursorOf (row : Row) : ListCursor K := ⟨getTime (createdAt row), id row⟩

/-- The keyset clause. -/
def beyond (cursor : ListCursor K) (row : Row) : Bool := older createdAt id cursor.position row

/-- Wherever a full page ends, the next row lies before the millisecond of the
last row shown, or at the very start of it under a smaller id. -/
def BoundariesClear (limit : PageLimit) (rows : List Row) : Prop :=
  ∀ k last next, 0 < k → rows[k * limit.value - 1]? = some last →
    rows[k * limit.value]? = some next →
      createdAt next < ofMillis (getTime (createdAt last)) ∨
        createdAt next = ofMillis (getTime (createdAt last)) ∧ id next < id last

variable {createdAt id} {rows : List Row} {limit : PageLimit}

theorem ofMillis_getTime_le (t : Timestamp) : ofMillis (getTime t) ≤ t :=
  Int.ediv_mul_le t (by decide)

theorem boundariesClear_iff :
    BoundariesClear createdAt id limit rows ↔
      Unbroken limit.value (cursorOf createdAt id) (beyond createdAt id) rows := by
  simp only [BoundariesClear, Unbroken, beyond, older_iff, cursorOf, ListCursor.position]

theorem ordered_rows (hrows : (rows.map id).Nodup) :
    Ordered (Newer createdAt id) (cursorOf createdAt id) (beyond createdAt id)
      (newestFirst createdAt id rows) :=
  ordered_newestFirst ListCursor.position hrows
    (fun _ => ofMillis_getTime_le _) fun _ => rfl

/-- Rows whose instants are whole milliseconds are listed without gaps. -/
theorem boundariesClear_of_wholeMillis (hrows : (rows.map id).Nodup)
    (hmillis : ∀ row ∈ rows, ofMillis (getTime (createdAt row)) = createdAt row) :
    BoundariesClear createdAt id limit (newestFirst createdAt id rows) :=
  boundariesClear_iff.mpr (unbroken_of_exact ListCursor.position hrows limit.min
    fun row hrow => congrArg (Position.mk · (id row)) (hmillis row hrow))

/-- The rows that a query fetches for a page. -/
theorem fetched_eq (hrows : (rows.map id).Nodup) (conditions : Row → Bool)
    (cursor : Option (ListCursor K)) (n : ℕ) :
    (newestFirst createdAt id
        (rows.filter fun row => conditions row && Within (beyond createdAt id) cursor row)).take n =
      ((newestFirst createdAt id (rows.filter conditions)).filter
        (Within (beyond createdAt id) cursor)).take n := by
  rw [← newestFirst_filter ((List.filter_sublist.map id).nodup hrows), List.filter_filter]
  simp only [Bool.and_comm]

end

/-- The events that the filters of a request select, in order. -/
def auditRows (table : SecurityEvents K) (input : AuditService.ListAuditEventsInput K) :
    List (SecurityEvent K) :=
  newestFirst SecurityEvent.createdAt SecurityEvent.id
    (table.rows.filter (AuditRepository.conditions (AuditService.queryParams input none)))

/-- The active projects of an organization, in order. -/
def projectRows (table : Projects K) (organizationId : String) : List (Project K) :=
  newestFirst Project.createdAt Project.id
    (table.rows.filter (ProjectRepository.conditions organizationId))

theorem auditRows_of_no_eventTypes {table : SecurityEvents K}
    {input : AuditService.ListAuditEventsInput K}
    (h : resolvePersistedEventTypes input.eventType input.targetType = []) :
    auditRows table input = [] := by
  have hnone : table.rows.filter
      (AuditRepository.conditions (AuditService.queryParams input none)) = [] := by
    rw [List.filter_eq_nil_iff]
    intro row _
    simp [AuditRepository.conditions, AuditService.queryParams, h]
  rw [auditRows, hnone]
  rfl

/-- The query of the audit log reads a page of its ordered rows. -/
theorem AuditService.listAuditEvents_eq (table : SecurityEvents K)
    (input : ListAuditEventsInput K) (cursor : Option (ListCursor K)) :
    (listAuditEvents table { input with cursor := cursor.map encodeCursor }).toOption =
      (some (pageFrom input.limit.value (cursorOf SecurityEvent.createdAt SecurityEvent.id)
        (beyond SecurityEvent.createdAt SecurityEvent.id) (auditRows table input) cursor)).map
          (Page.mapCursor encodeCursor) := by
  have hdecode : decodeAuditCursor (cursor.map encodeCursor) = .ok cursor := by
    cases cursor <;> rfl
  unfold listAuditEvents
  split
  · next hempty =>
      have hrows : auditRows table input = [] :=
        auditRows_of_no_eventTypes (List.isEmpty_iff.mp hempty)
      rw [hrows]
      simp [pageFrom, Page.ofFetched, Page.mapCursor, Except.toOption]
  · simp only [hdecode, Option.map_some, pageFrom, Page.mapCursor_ofFetched]
    exact congrArg (fun rows => some (Page.ofFetched _ _ rows))
      (fetched_eq table.nodup _ cursor _)

theorem ProjectService.listProjects_eq (table : Projects K) (input : ListProjectsInput K)
    (cursor : Option (ListCursor K)) :
    (listProjects table { input with cursor := cursor.map encodeCursor }).toOption =
      (some (pageFrom input.limit.value (cursorOf Project.createdAt Project.id)
        (beyond Project.createdAt Project.id) (projectRows table input.organizationId)
          cursor)).map (Page.mapCursor encodeCursor) := by
  have hdecode : decodeProjectCursor (cursor.map encodeCursor) = .ok cursor := by
    cases cursor <;> rfl
  unfold listProjects
  simp only [hdecode, Option.map_some, pageFrom, Page.mapCursor_ofFetched]
  exact congrArg (fun rows => some (Page.ofFetched _ _ rows))
    (fetched_eq table.nodup _ cursor _)

/-- The answers of the audit log, cursor by cursor. -/
def auditPages (table : SecurityEvents K) (input : AuditService.ListAuditEventsInput K)
    (cursor : Option (CursorText K)) : Option (Page (SecurityEvent K) (CursorText K)) :=
  (AuditService.listAuditEvents table { input with cursor }).toOption

/-- The answers of the project list of members. -/
def projectPages (table : Projects K) (input : ListProjectsInput K)
    (cursor : Option (CursorText K)) : Option (Page (Project K) (CursorText K)) :=
  (ProjectService.listProjects table { input with cursor }).toOption

/-- The answers of the project list for API keys. -/
def externalProjectPages (table : Projects K) (input : ListProjectsInput K)
    (cursor : Option (CursorText K)) : Option (Page (Project K) (CursorText K)) :=
  (ExternalProjectsService.listProjects table { input with cursor }).toOption

theorem auditRows_ordered (table : SecurityEvents K)
    (input : AuditService.ListAuditEventsInput K) :
    Ordered (Newer SecurityEvent.createdAt SecurityEvent.id)
      (cursorOf SecurityEvent.createdAt SecurityEvent.id)
      (beyond SecurityEvent.createdAt SecurityEvent.id) (auditRows table input) :=
  ordered_rows ((List.filter_sublist.map _).nodup table.nodup)

theorem projectRows_ordered (table : Projects K) (organizationId : String) :
    Ordered (Newer Project.createdAt Project.id) (cursorOf Project.createdAt Project.id)
      (beyond Project.createdAt Project.id) (projectRows table organizationId) :=
  ordered_rows ((List.filter_sublist.map _).nodup table.nodup)

/-- Whatever the boundaries, pages never repeat a row and keep the order. -/
theorem auditPages_sublist (table : SecurityEvents K)
    (input : AuditService.ListAuditEventsInput K) {n : ℕ}
    (hn : (auditRows table input).length < n) :
    ∃ collected, follow (auditPages table input) n none = some collected ∧
      collected.Sublist (auditRows table input) := by
  have hall : (auditRows table input).filter
      (Within (beyond SecurityEvent.createdAt SecurityEvent.id) none) = auditRows table input :=
    List.filter_eq_self.mpr fun _ _ => rfl
  rw [← hall] at hn
  obtain ⟨collected, hfollow, hsublist, -⟩ :=
    (auditRows_ordered table input).follow input.limit.min hn
  rw [hall] at hsublist
  refine ⟨collected, ?_, hsublist⟩
  rw [← hfollow]
  exact follow_encode (AuditService.listAuditEvents_eq table input) n none

/-- Following the cursors of a listing yields every matching row exactly once and
in order if and only if no page ends inside a millisecond that the next row
belongs to. -/
theorem pages_exact_iff :
    (∀ (table : SecurityEvents K) (input : AuditService.ListAuditEventsInput K),
      ReadsExactly (auditPages table input) (auditRows table input) ↔
        BoundariesClear SecurityEvent.createdAt SecurityEvent.id input.limit
          (auditRows table input)) ∧
    (∀ (table : Projects K) (input : ListProjectsInput K),
      ReadsExactly (projectPages table input) (projectRows table input.organizationId) ↔
        BoundariesClear Project.createdAt Project.id input.limit
          (projectRows table input.organizationId)) ∧
    ∀ (table : Projects K) (input : ListProjectsInput K),
      ReadsExactly (externalProjectPages table input)
          (projectRows table input.organizationId) ↔
        BoundariesClear Project.createdAt Project.id input.limit
          (projectRows table input.organizationId) := by
  have hprojects : ∀ (table : Projects K) (input : ListProjectsInput K),
      ReadsExactly (projectPages table input) (projectRows table input.organizationId) ↔
        BoundariesClear Project.createdAt Project.id input.limit
          (projectRows table input.organizationId) := by
    intro table input
    rw [boundariesClear_iff,
      ← (projectRows_ordered table input.organizationId).readsExactly_iff input.limit.min]
    exact readsExactly_encode (ProjectService.listProjects_eq table input)
  refine ⟨fun table input => ?_, hprojects, hprojects⟩
  rw [boundariesClear_iff, ← (auditRows_ordered table input).readsExactly_iff input.limit.min]
  exact readsExactly_encode (AuditService.listAuditEvents_eq table input)

def acceptanceEvent (id : ℕ) (eventType : String) : SecurityEvent ℕ :=
  { id, organizationId := some "org", eventType, actorType := .user, userId := some "user",
    metadata := [], requestId := none, createdAt := 1700000000000500 }

/-- An accepted invitation and its membership, at the same instant. -/
def acceptanceEvents : SecurityEvents ℕ where
  rows := [acceptanceEvent 1 "invitation.accepted",
    acceptanceEvent 2 "membership.created_from_invitation"]
  nodup := by decide

/-- One event a page, no filters. -/
def oneByOne : AuditService.ListAuditEventsInput ℕ where
  organizationId := "org"
  limit := ⟨1, by decide, by decide⟩
  cursor := none
  eventType := none
  actorType := none
  targetType := none
  actorId := none
  targetId := none
  createdAfter := none
  createdBefore := none

theorem second_event_is_skipped :
    ¬∀ (K : Type) [LinearOrder K] (table : SecurityEvents K)
      (input : AuditService.ListAuditEventsInput K),
      ReadsExactly (auditPages table input) (auditRows table input) := by
  intro hclaim
  have hexact := hclaim ℕ acceptanceEvents oneByOne 3 (by decide)
  have hskips : follow (auditPages acceptanceEvents oneByOne) 3 none ≠
      some (auditRows acceptanceEvents oneByOne) := by
    decide
  exact hskips hexact

end Orgistry.Model
