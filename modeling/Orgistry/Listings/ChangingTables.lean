import Orgistry.Keyset.Changing
import Orgistry.Listings.Pagination

/-!
# Pagination while rows are written

The tables may change in any way between the requests of one client: events are
recorded and purged, projects are created, renamed and deleted.
-/

namespace Orgistry.Model

open Keyset

variable {K : Type} [LinearOrder K]

section

variable {Row : Type} (createdAt : Row → Timestamp) (id : Row → K)

/-- Where a row stands in a listing. -/
def placeOf (row : Row) : Position Timestamp K := ⟨createdAt row, id row⟩

/-- `p` stands before `q`. -/
def NewerPlace (p q : Position Timestamp K) : Prop :=
  Newer Position.time Position.id p q

/-- The keyset clause, for a place. -/
def beyondPlace (cursor : ListCursor K) (p : Position Timestamp K) : Bool :=
  older Position.time Position.id cursor.position p

/-- What a client gets who follows the cursors of a listing, whatever is written
between the requests; request number `i` reads `listing i`. -/
structure ReadsWhileWritten (limit : PageLimit)
    (fetch : ℕ → Option (CursorText K) → Option (Page Row (CursorText K)))
    (listing : ℕ → List Row) : Prop where
  /-- No row is shown twice, and all of them stand in the order of the listing. -/
  sorted : ∀ {n : ℕ} {pages : List (List Row)}, pagesFrom fetch n 0 none = some pages →
    pages.flatten.Pairwise (Newer createdAt id)
  /-- A row that is shown was in the listing when its page was requested. -/
  shown : ∀ {n j : ℕ} {pages : List (List Row)} {page : List Row} {row : Row},
    pagesFrom fetch n 0 none = some pages → pages[j]? = some page → row ∈ page →
      row ∈ listing j
  /-- A row that stays is shown, unless a page ended on a newer row and the row is neither older
  than the start of that row's millisecond nor exactly there with a smaller id. -/
  stays : ∀ {n : ℕ} {pages : List (List Row)} {p : Position Timestamp K},
    pagesFrom fetch n 0 none = some pages →
      (∀ j < pages.length, ∃ row ∈ listing j, placeOf createdAt id row = p) →
      ((∃ row ∈ pages.flatten, placeOf createdAt id row = p) ↔
        ∀ page ∈ pages, ∀ last ∈ page.getLast?, NewerPlace (placeOf createdAt id last) p →
          p.time < ofMillis (getTime (createdAt last)) ∨
            p.time = ofMillis (getTime (createdAt last)) ∧ p.id < id last)
  /-- Among finitely many places the last page is reached. -/
  ends : ∀ {n : ℕ} {among : Finset (Position Timestamp K)},
    (∀ i, ∀ row ∈ listing i, placeOf createdAt id row ∈ among) →
      among.card < n * limit.value → (pagesFrom fetch n 0 none).isSome

variable {createdAt id}

theorem NewerPlace.trans {p q r : Position Timestamp K} (hpq : NewerPlace p q)
    (hqr : NewerPlace q r) : NewerPlace p r := by
  rcases hpq with hlt | ⟨heq, hid⟩
  · rcases hqr with hlt' | ⟨heq', -⟩
    · exact .inl (hlt'.trans hlt)
    · exact .inl (heq' ▸ hlt)
  · rcases hqr with hlt' | ⟨heq', hid'⟩
    · exact .inl (heq ▸ hlt')
    · exact .inr ⟨heq.trans heq', hid'.trans hid⟩

/-- Cursors in milliseconds agree with the order of places. -/
theorem places : Places NewerPlace (placeOf createdAt id) (cursorOf createdAt id)
    beyondPlace where
  trans := NewerPlace.trans
  asymm := Newer.asymm
  after {a p} h := by
    rcases older_iff.mp h with hlt | ⟨heq, hlt⟩
    · exact .inl (lt_of_lt_of_le hlt (ofMillis_getTime_le _))
    · rcases lt_or_eq_of_le (ofMillis_getTime_le (createdAt a)) with hearlier | hsame
      · exact .inl (lt_of_eq_of_lt heq hearlier)
      · exact .inr ⟨(heq.trans hsame).symm, hlt⟩
  closed {cursor p q} hpq h := by
    refine older_iff.mpr ?_
    rcases older_iff.mp h with hlt | ⟨heq, hlt⟩
    · rcases hpq with hnewer | ⟨hsame, -⟩
      · exact .inl (hnewer.trans hlt)
      · exact .inl (lt_of_eq_of_lt hsame.symm hlt)
    · rcases hpq with hnewer | ⟨hsame, hid⟩
      · exact .inl (lt_of_lt_of_eq hnewer heq)
      · exact .inr ⟨hsame.symm.trans heq, hid.trans hlt⟩

/-- For every listing that answers page by page in this order. -/
theorem readsWhileWritten {limit : PageLimit}
    {fetch : ℕ → Option (CursorText K) → Option (Page Row (CursorText K))}
    {listing : ℕ → List Row}
    (hsorted : ∀ i, (listing i).Pairwise (Newer createdAt id))
    (hfetch : ∀ i (cursor : Option (ListCursor K)), fetch i (cursor.map encodeCursor) =
      (some (pageFrom limit.value (cursorOf createdAt id) (beyond createdAt id) (listing i)
        cursor)).map (Page.mapCursor encodeCursor)) :
    ReadsWhileWritten createdAt id limit fetch listing := by
  have hpages : ∀ n, pagesFrom fetch n 0 none =
      pagesFrom (fetchAt (placeOf createdAt id) (cursorOf createdAt id) beyondPlace
        limit.value listing) n 0 none :=
    fun n => pagesFrom_encode hfetch n 0 none
  have hall : Ahead beyondPlace (none : Option (ListCursor K)) =
      fun _ : Position Timestamp K => true := rfl
  constructor
  · intro n pages h
    rw [hpages] at h
    exact places.sorted_pages limit.min hsorted h
  · intro n j pages page row h hpage hrow
    rw [hpages] at h
    simpa using (places.shown limit.min h hpage hrow).1
  · intro n pages p h hstays
    rw [hpages] at h
    have hstays' : ∀ j < pages.length, ∃ row ∈ listing (0 + j), placeOf createdAt id row = p := by
      simpa using hstays
    rw [places.collected_iff limit.min hsorted h hstays' rfl]
    refine forall₂_congr fun page _ => ?_
    simp only [Hides, not_exists, not_and, not_not, beyondPlace, older_iff, cursorOf,
      ListCursor.position]
  · intro n among hamong hn
    rw [hpages]
    refine places.ends limit.min hsorted hamong ?_
    rwa [hall, Finset.filter_true_of_mem fun _ _ => rfl]

end

/-- The audit log and both project lists, for every history of their tables. -/
theorem listings_read_while_written :
    (∀ (tables : ℕ → SecurityEvents K) (input : AuditService.ListAuditEventsInput K),
      ReadsWhileWritten SecurityEvent.createdAt SecurityEvent.id input.limit
        (fun i => auditPages (tables i) input) (fun i => auditRows (tables i) input)) ∧
    (∀ (tables : ℕ → Projects K) (input : ListProjectsInput K),
      ReadsWhileWritten Project.createdAt Project.id input.limit
        (fun i => projectPages (tables i) input)
        (fun i => projectRows (tables i) input.organizationId)) ∧
    ∀ (tables : ℕ → Projects K) (input : ListProjectsInput K),
      ReadsWhileWritten Project.createdAt Project.id input.limit
        (fun i => externalProjectPages (tables i) input)
        (fun i => projectRows (tables i) input.organizationId) := by
  have hprojects : ∀ (tables : ℕ → Projects K) (input : ListProjectsInput K),
      ReadsWhileWritten Project.createdAt Project.id input.limit
        (fun i => projectPages (tables i) input)
        (fun i => projectRows (tables i) input.organizationId) := fun tables input =>
    readsWhileWritten (fun i => (projectRows_ordered (tables i) input.organizationId).sorted)
      fun i => ProjectService.listProjects_eq (tables i) input
  refine ⟨fun tables input => ?_, hprojects, hprojects⟩
  exact readsWhileWritten (fun i => (auditRows_ordered (tables i) input).sorted)
    fun i => AuditService.listAuditEvents_eq (tables i) input

end Orgistry.Model
