import Mathlib.Data.Finset.Card
import Orgistry.Keyset.Traversal

/-!
# Following cursors while the listing changes

Each request of a traversal may meet a listing of its own.  Rows are identified
by their place in the order, which never changes, while everything else about a
row may.  This file says what such a client collects: no place twice, and every
place that stays, unless a page has ended right before it with a cursor that
does not let it through.
-/

namespace Orgistry.Keyset

variable {Row Cursor P : Type}

/-- The pages that a client gets in at most `n` requests, of which the first has
number `i`; nothing when a request fails or `n` requests do not reach the end. -/
def pagesFrom (fetch : ℕ → Option Cursor → Option (Page Row Cursor)) :
    ℕ → ℕ → Option Cursor → Option (List (List Row))
  | 0, _, _ => none
  | n + 1, i, cursor =>
      match fetch i cursor with
      | none => none
      | some page =>
          match page.nextCursor with
          | none => some [page.items]
          | some next => (pagesFrom fetch n (i + 1) (some next)).map (page.items :: ·)

/-- Whoever follows encoded cursors gets the pages of the cursors themselves. -/
theorem pagesFrom_encode {Text : Type} {encode : Cursor → Text}
    {fetch : ℕ → Option Cursor → Option (Page Row Cursor)}
    {fetchText : ℕ → Option Text → Option (Page Row Text)}
    (h : ∀ i cursor, fetchText i (cursor.map encode) =
      (fetch i cursor).map (Page.mapCursor encode)) (n i : ℕ) (cursor : Option Cursor) :
    pagesFrom fetchText n i (cursor.map encode) = pagesFrom fetch n i cursor := by
  induction n generalizing i cursor with
  | zero => rfl
  | succ n ih =>
      rw [pagesFrom, pagesFrom, h]
      cases fetch i cursor with
      | none => rfl
      | some page =>
          simp only [Option.map_some, Page.mapCursor]
          cases page.nextCursor with
          | none => rfl
          | some next => exact congrArg (Option.map (page.items :: ·)) (ih (i + 1) (some next))

/-- The order of places, and cursors that agree with it. -/
structure Places (before : P → P → Prop) (place : Row → P) (cursorOf : Row → Cursor)
    (beyond : Cursor → P → Bool) : Prop where
  trans : ∀ {a b c : P}, before a b → before b c → before a c
  asymm : ∀ {a b : P}, before a b → ¬before b a
  after : ∀ {a : Row} {p : P}, beyond (cursorOf a) p → before (place a) p
  closed : ∀ {cursor : Cursor} {p q : P}, before p q → beyond cursor p → beyond cursor q

/-- The place is on the pages from this cursor on. -/
def Ahead (beyond : Cursor → P → Bool) (cursor : Option Cursor) (p : P) : Bool :=
  cursor.all (beyond · p)

/-- The page ends before the place, and its cursor does not let the place through. -/
def Hides (before : P → P → Prop) (place : Row → P) (cursorOf : Row → Cursor)
    (beyond : Cursor → P → Bool) (page : List Row) (p : P) : Prop :=
  ∃ last ∈ page.getLast?, before (place last) p ∧ ¬beyond (cursorOf last) p

variable {before : P → P → Prop} {place : Row → P} {cursorOf : Row → Cursor}
  {beyond : Cursor → P → Bool} {limit : ℕ} {listing : ℕ → List Row}

/-- The listings stand in the order of places. -/
def Sorted (before : P → P → Prop) (place : Row → P) (rows : List Row) : Prop :=
  rows.Pairwise fun a b => before (place a) (place b)

variable (limit cursorOf beyond place listing) in
/-- Request number `i` is answered from the listing of its time. -/
def fetchAt (i : ℕ) (cursor : Option Cursor) : Option (Page Row Cursor) :=
  some (pageFrom limit cursorOf (fun cursor row => beyond cursor (place row)) (listing i) cursor)

/-- One request answers with the last page, or with a full page and the cursor
of its last row. -/
theorem pagesFrom_fetchAt {n i : ℕ} {cursor : Option Cursor} {pages : List (List Row)}
    (hlimit : 0 < limit)
    (h : pagesFrom (fetchAt place cursorOf beyond limit listing) n i cursor = some pages) :
    ∃ m ahead, n = m + 1 ∧
      ahead = (listing i).filter (fun row => Ahead beyond cursor (place row)) ∧
      ((ahead.length ≤ limit ∧ pages = [ahead]) ∨
        ∃ (last : Row) (rest : List (List Row)), (ahead.take limit).getLast? = some last ∧
          pages = ahead.take limit :: rest ∧
          pagesFrom (fetchAt place cursorOf beyond limit listing) m (i + 1)
            (some (cursorOf last)) = some rest) := by
  cases n with
  | zero => cases h
  | succ m =>
      generalize hahead :
        (listing i).filter (fun row => Ahead beyond cursor (place row)) = ahead
      refine ⟨m, ahead, rfl, rfl, ?_⟩
      have hpage : fetchAt place cursorOf beyond limit listing i cursor =
          some (.ofFetched limit cursorOf (ahead.take (limit + 1))) := by
        rw [← hahead]
        rfl
      rw [pagesFrom, hpage] at h
      by_cases hmore : limit < ahead.length
      · rw [Page.ofFetched_more hlimit hmore] at h
        obtain ⟨rest, hrest, rfl⟩ := Option.map_eq_some_iff.mp h
        refine .inr ⟨_, rest, ?_, rfl, hrest⟩
        rw [List.getLast?_eq_getElem?, List.length_take, Nat.min_eq_left (by omega),
          List.getElem?_take_of_lt (by omega), List.getElem?_eq_getElem (by omega)]
      · rw [Page.ofFetched_last (Nat.le_of_not_lt hmore)] at h
        exact .inl ⟨Nat.le_of_not_lt hmore, (Option.some_inj.mp h).symm⟩

/-- No row of a page stands after its last row. -/
theorem le_last {rows : List Row} (hsorted : Sorted before place rows) {last row : Row}
    (hlast : rows.getLast? = some last) (hrow : row ∈ rows) :
    row = last ∨ before (place row) (place last) := by
  obtain ⟨init, rfl⟩ := List.getLast?_eq_some_iff.mp hlast
  rcases List.mem_append.mp hrow with hinit | hsame
  · exact .inr ((List.pairwise_append.mp hsorted).2.2 row hinit last (List.mem_singleton_self _))
  · exact .inl (List.mem_singleton.mp hsame)

variable (hplaces : Places before place cursorOf beyond)

include hplaces

/-- What lies beyond the last row of a page is ahead of the cursor of that page. -/
theorem Places.ahead {cursor : Option Cursor} {last : Row} {p : P}
    (hlast : Ahead beyond cursor (place last)) (h : beyond (cursorOf last) p) :
    Ahead beyond cursor p := by
  cases cursor with
  | none => rfl
  | some c => exact hplaces.closed (hplaces.after h) hlast

theorem Places.ne {p q : P} (h : before p q) : p ≠ q := by
  rintro rfl
  exact hplaces.asymm h h

/-- A page that shows the place does not end before it. -/
theorem Places.not_hides {page : List Row} (hpage : Sorted before place page) {row : Row}
    (hrow : row ∈ page) : ¬Hides before place cursorOf beyond page (place row) := by
  rintro ⟨last, hlast, hbefore, -⟩
  rcases le_last hpage hlast hrow with rfl | hafter
  · exact hplaces.asymm hbefore hbefore
  · exact hplaces.asymm hbefore hafter

variable {n i : ℕ} {cursor : Option Cursor} {pages : List (List Row)} (hlimit : 0 < limit)
  (hsorted : ∀ i, Sorted before place (listing i))

include hlimit

/-- Every row that is shown stands in the listing of its request, and ahead of
the cursor that the traversal began with. -/
theorem Places.shown
    (h : pagesFrom (fetchAt place cursorOf beyond limit listing) n i cursor = some pages)
    {j : ℕ} {page : List Row} (hpage : pages[j]? = some page) {row : Row} (hrow : row ∈ page) :
    row ∈ listing (i + j) ∧ Ahead beyond cursor (place row) := by
  induction pages generalizing n i j cursor with
  | nil => cases hpage
  | cons first rest ih =>
      obtain ⟨m, ahead, rfl, rfl, ⟨-, hlast⟩ | ⟨last, rest', hlast, hmore, hrest⟩⟩ :=
        pagesFrom_fetchAt hlimit h
      · obtain ⟨rfl, rfl⟩ := List.cons.inj hlast
        cases j with
        | zero =>
            obtain rfl := Option.some_inj.mp hpage
            exact List.mem_filter.mp hrow
        | succ j => cases hpage
      · obtain ⟨rfl, rfl⟩ := List.cons.inj hmore
        cases j with
        | zero =>
            obtain rfl := Option.some_inj.mp hpage
            exact List.mem_filter.mp (List.mem_of_mem_take hrow)
        | succ j =>
            obtain ⟨hmem, hbeyond⟩ := ih hrest hpage
            have hmem_last := List.mem_of_mem_take (List.mem_of_getLast? hlast)
            refine ⟨by rwa [Nat.add_right_comm] at hmem, ?_⟩
            exact hplaces.ahead (List.mem_filter.mp hmem_last).2 hbeyond

include hsorted

/-- The client gets rows in order and no place twice, however the listing changes
between the requests. -/
theorem Places.sorted_pages
    (h : pagesFrom (fetchAt place cursorOf beyond limit listing) n i cursor = some pages) :
    Sorted before place pages.flatten := by
  induction pages generalizing n i cursor with
  | nil => exact List.Pairwise.nil
  | cons first rest ih =>
      obtain ⟨m, ahead, rfl, rfl, ⟨-, hlast⟩ | ⟨last, rest', hlast, hmore, hrest⟩⟩ :=
        pagesFrom_fetchAt hlimit h
      · obtain ⟨rfl, rfl⟩ := List.cons.inj hlast
        rw [List.flatten_singleton]
        exact (hsorted i).filter _
      · obtain ⟨rfl, rfl⟩ := List.cons.inj hmore
        have hfirst : Sorted before place
            (((listing i).filter fun row => Ahead beyond cursor (place row)).take limit) :=
          ((hsorted i).filter _).take
        rw [List.flatten_cons]
        refine List.pairwise_append.mpr ⟨hfirst, ih hrest, fun a ha b hb => ?_⟩
        -- all later rows lie beyond the last row of the first page
        obtain ⟨page, hmem, hbpage⟩ := List.mem_flatten.mp hb
        obtain ⟨j, hj⟩ := List.mem_iff_getElem?.mp hmem
        have hafter : before (place last) (place b) :=
          hplaces.after (hplaces.shown hlimit hrest hj hbpage).2
        rcases le_last hfirst hlast ha with rfl | hbefore
        · exact hafter
        · exact hplaces.trans hbefore hafter

/-- A place that every request finds in the listing is shown if and only if no
page ends before it with a cursor that does not let it through. -/
theorem Places.collected_iff
    (h : pagesFrom (fetchAt place cursorOf beyond limit listing) n i cursor = some pages) {p : P}
    (hstays : ∀ j < pages.length, ∃ row ∈ listing (i + j), place row = p)
    (hahead : Ahead beyond cursor p) :
    (∃ row ∈ pages.flatten, place row = p) ↔
      ∀ page ∈ pages, ¬Hides before place cursorOf beyond page p := by
  induction pages generalizing n i cursor with
  | nil =>
      obtain ⟨m, ahead, -, -, ⟨-, hlast⟩ | ⟨last, rest, -, hmore, -⟩⟩ :=
        pagesFrom_fetchAt hlimit h
      · cases hlast
      · cases hmore
  | cons first rest ih =>
      obtain ⟨row, hrow, rfl⟩ := hstays 0 (Nat.succ_pos _)
      have hmem : row ∈ (listing i).filter fun row => Ahead beyond cursor (place row) :=
        List.mem_filter.mpr ⟨hrow, hahead⟩
      have hordered : Sorted before place
          ((listing i).filter fun row => Ahead beyond cursor (place row)) :=
        (hsorted i).filter _
      obtain ⟨m, ahead, rfl, rfl, ⟨-, hlast⟩ | ⟨last, rest', hlast, hmore, hrest⟩⟩ :=
        pagesFrom_fetchAt hlimit h
      · obtain ⟨rfl, rfl⟩ := List.cons.inj hlast
        refine iff_of_true ⟨row, by simpa using hmem, rfl⟩ fun page hpage => ?_
        obtain rfl := List.mem_singleton.mp hpage
        exact hplaces.not_hides hordered hmem
      · obtain ⟨rfl, rfl⟩ := List.cons.inj hmore
        have hfirst := List.Pairwise.take (i := limit) hordered
        by_cases hshown : row ∈
            ((listing i).filter fun row => Ahead beyond cursor (place row)).take limit
        · refine iff_of_true ⟨row, List.mem_append_left _ hshown, rfl⟩ fun page hpage => ?_
          rcases List.mem_cons.mp hpage with rfl | hpage
          · exact hplaces.not_hides hfirst hshown
          · -- later pages end behind the place
            rintro ⟨end', hend, hbefore, -⟩
            obtain ⟨j, hj⟩ := List.mem_iff_getElem?.mp hpage
            have hlater : before (place last) (place end') :=
              hplaces.after
                (hplaces.shown hlimit hrest hj (List.mem_of_getLast? hend)).2
            have hpast : before (place row) (place end') := by
              rcases le_last hfirst hlast hshown with rfl | hrowlast
              · exact hlater
              · exact hplaces.trans hrowlast hlater
            exact hplaces.asymm hbefore hpast
        · -- the place comes after the page
          have hbefore : before (place last) (place row) := by
            have hsplit := List.take_append_drop limit
              ((listing i).filter fun row => Ahead beyond cursor (place row))
            rw [← hsplit] at hmem hordered
            rcases List.mem_append.mp hmem with htake | hdrop
            · exact absurd htake hshown
            · exact (List.pairwise_append.mp hordered).2.2 last (List.mem_of_getLast? hlast)
                row hdrop
          have hflatten : (∃ a ∈ (((listing i).filter fun row =>
                Ahead beyond cursor (place row)).take limit :: rest).flatten,
              place a = place row) ↔ ∃ a ∈ rest.flatten, place a = place row := by
            refine ⟨?_, fun ⟨a, ha, heq⟩ => ⟨a, List.mem_append_right _ ha, heq⟩⟩
            rintro ⟨a, ha, heq⟩
            rcases List.mem_append.mp ha with hpage | hrest
            · rcases le_last hfirst hlast hpage with rfl | hle
              · exact absurd heq (hplaces.ne hbefore)
              · exact absurd (heq ▸ hle) (hplaces.asymm hbefore)
            · exact ⟨a, hrest, heq⟩
          rw [hflatten]
          by_cases hthrough : beyond (cursorOf last) (place row)
          · rw [ih hrest (fun j hj => ?_) hthrough]
            · refine ⟨fun hnone page hpage => ?_, fun hnone page hpage =>
                hnone page (List.mem_cons_of_mem _ hpage)⟩
              rcases List.mem_cons.mp hpage with rfl | hpage
              · rintro ⟨last', hlast', -, hhidden⟩
                obtain rfl : last = last' := Option.some_inj.mp (hlast.symm.trans hlast')
                exact hhidden hthrough
              · exact hnone page hpage
            · have hstay := hstays (j + 1) (Nat.succ_lt_succ hj)
              rwa [← Nat.add_assoc, Nat.add_right_comm] at hstay
          · refine iff_of_false ?_ fun hnone =>
              hnone _ List.mem_cons_self ⟨last, hlast, hbefore, hthrough⟩
            rintro ⟨a, ha, heq⟩
            obtain ⟨page, hpage, hapage⟩ := List.mem_flatten.mp ha
            obtain ⟨j, hj⟩ := List.mem_iff_getElem?.mp hpage
            have hbeyond := (hplaces.shown hlimit hrest hj hapage).2
            rw [heq] at hbeyond
            exact hthrough hbeyond

/-- Among finitely many places a traversal comes to an end: each request but the
last leaves a full page of them behind. -/
theorem Places.ends [DecidableEq P] {among : Finset P}
    (hamong : ∀ i, ∀ row ∈ listing i, place row ∈ among)
    (hn : (among.filter fun p => Ahead beyond cursor p).card < n * limit) :
    (pagesFrom (fetchAt place cursorOf beyond limit listing) n i cursor).isSome := by
  induction n generalizing i cursor with
  | zero => simp at hn
  | succ n ih =>
      generalize hahead :
        (listing i).filter (fun row => Ahead beyond cursor (place row)) = ahead
      have hordered : Sorted before place ahead := hahead ▸ (hsorted i).filter _
      have hpage : fetchAt place cursorOf beyond limit listing i cursor =
          some (.ofFetched limit cursorOf (ahead.take (limit + 1))) := by
        rw [← hahead]
        rfl
      rw [pagesFrom, hpage]
      by_cases hmore : limit < ahead.length
      · rw [Page.ofFetched_more hlimit hmore]
        simp only [Option.isSome_map]
        refine ih ?_
        generalize hlast : ahead[limit - 1] = last
        have hlast? : (ahead.take limit).getLast? = some last := by
          rw [List.getLast?_eq_getElem?, List.length_take, Nat.min_eq_left (by omega),
            List.getElem?_take_of_lt (by omega), List.getElem?_eq_getElem (by omega), hlast]
        have hmem_ahead : ∀ row ∈ ahead, Ahead beyond cursor (place row) ∧ row ∈ listing i :=
          fun row hrow => (List.mem_filter.mp (hahead ▸ hrow)).symm
        -- the places of the page are ahead of its cursor, and behind the next one
        have hnodup : ((ahead.take limit).map place).Nodup :=
          List.pairwise_map.mpr (hordered.take.imp hplaces.ne)
        have hshown : ((ahead.take limit).map place).toFinset ⊆
            (among.filter fun p => Ahead beyond cursor p) \
              among.filter fun p => Ahead beyond (some (cursorOf last)) p := by
          intro p hp
          obtain ⟨row, hrow, rfl⟩ := List.mem_map.mp (List.mem_toFinset.mp hp)
          obtain ⟨hbeyond, hlisted⟩ := hmem_ahead row (List.mem_of_mem_take hrow)
          have hin := hamong i row hlisted
          refine Finset.mem_sdiff.mpr ⟨Finset.mem_filter.mpr ⟨hin, hbeyond⟩, fun hstill => ?_⟩
          have hafter := hplaces.after (Finset.mem_filter.mp hstill).2
          rcases le_last hordered.take hlast? hrow with rfl | hle
          · exact hplaces.asymm hafter hafter
          · exact hplaces.asymm hafter hle
        have hsubset : (among.filter fun p => Ahead beyond (some (cursorOf last)) p) ⊆
            among.filter fun p => Ahead beyond cursor p := by
          intro p hp
          obtain ⟨hin, hbeyond⟩ := Finset.mem_filter.mp hp
          refine Finset.mem_filter.mpr ⟨hin, hplaces.ahead ?_ hbeyond⟩
          exact (hmem_ahead last (List.mem_of_mem_take (List.mem_of_getLast? hlast?))).1
        have hcard := Finset.card_le_card hshown
        rw [List.toFinset_card_of_nodup hnodup, List.length_map, List.length_take,
          Nat.min_eq_left (by omega), Finset.card_sdiff_of_subset hsubset] at hcard
        have hle := Finset.card_le_card hsubset
        rw [Nat.succ_mul] at hn
        omega
      · rw [Page.ofFetched_last (Nat.le_of_not_lt hmore)]
        rfl

end Orgistry.Keyset
