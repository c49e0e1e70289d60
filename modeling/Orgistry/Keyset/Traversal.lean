import Mathlib.Data.List.Basic
import Mathlib.Tactic.Common

/-!
# Following page cursors

A listing answers one page at a time.  It fetches one row more than it shows,
and when there is such a row it hands out a cursor for the last row shown; the
next request asks for the rows beyond that cursor.  This file says what a client
collects who follows the cursors to the end.
-/

namespace Orgistry.Keyset

variable {Row Cursor : Type}

structure Page (Row Cursor : Type) where
  items : List Row
  nextCursor : Option Cursor
  hasMore : Bool
  deriving DecidableEq

/-- The page made of up to `limit + 1` fetched rows. -/
def Page.ofFetched (limit : ℕ) (cursorOf : Row → Cursor) (rows : List Row) : Page Row Cursor :=
  let hasMore : Bool := limit < rows.length
  let page := if hasMore then rows.take limit else rows
  { items := page
    nextCursor := if hasMore then page.getLast?.map cursorOf else none
    hasMore }

/-- All rows that a client collects in at most `n` requests, starting from a
cursor; nothing when a request fails or `n` requests do not reach the end. -/
def follow (fetch : Option Cursor → Option (Page Row Cursor)) :
    ℕ → Option Cursor → Option (List Row)
  | 0, _ => none
  | n + 1, cursor =>
      match fetch cursor with
      | none => none
      | some page =>
          match page.nextCursor with
          | none => some page.items
          | some next => (follow fetch n (some next)).map (page.items ++ ·)

/-- The row is on the pages from this cursor on. -/
def Within (beyond : Cursor → Row → Bool) (cursor : Option Cursor) (row : Row) : Bool :=
  cursor.all (beyond · row)

/-- The page of the ordered `rows` from a cursor on. -/
def pageFrom (limit : ℕ) (cursorOf : Row → Cursor) (beyond : Cursor → Row → Bool)
    (rows : List Row) (cursor : Option Cursor) : Page Row Cursor :=
  .ofFetched limit cursorOf ((rows.filter (Within beyond cursor)).take (limit + 1))

/-- Wherever a full page ends, its cursor lets the next row through. -/
def Unbroken (limit : ℕ) (cursorOf : Row → Cursor) (beyond : Cursor → Row → Bool)
    (rows : List Row) : Prop :=
  ∀ k last next, 0 < k → rows[k * limit - 1]? = some last → rows[k * limit]? = some next →
    beyond (cursorOf last) next

/-- The rows stand in the order `before`, and cursors agree with it: what lies
beyond a row comes after it, and what comes after a row beyond a cursor lies
beyond that cursor, too. -/
structure Ordered (before : Row → Row → Prop) (cursorOf : Row → Cursor)
    (beyond : Cursor → Row → Bool) (rows : List Row) : Prop where
  sorted : rows.Pairwise before
  asymm : ∀ {a b : Row}, before a b → ¬before b a
  after : ∀ {a b : Row}, beyond (cursorOf a) b → before a b
  closed : ∀ {cursor : Cursor} {a b : Row}, before a b → beyond cursor a → beyond cursor b

variable {limit : ℕ} {cursorOf : Row → Cursor} {beyond : Cursor → Row → Bool}
  {before : Row → Row → Prop} {rows : List Row}

theorem Page.ofFetched_last (h : rows.length ≤ limit) :
    Page.ofFetched limit cursorOf (rows.take (limit + 1)) = ⟨rows, none, false⟩ := by
  have htake : rows.take (limit + 1) = rows := List.take_of_length_le (by omega)
  rw [htake, ofFetched]
  simp [Nat.not_lt.mpr h]

theorem Page.ofFetched_more (hlimit : 0 < limit) (h : limit < rows.length) :
    Page.ofFetched limit cursorOf (rows.take (limit + 1)) =
      ⟨rows.take limit, some (cursorOf rows[limit - 1]), true⟩ := by
  have hmore : limit < (rows.take (limit + 1)).length := by
    rw [List.length_take]
    omega
  have hlast : (rows.take limit).getLast? = some rows[limit - 1] := by
    rw [List.getLast?_eq_getElem?, List.length_take, Nat.min_eq_left (by omega),
      List.getElem?_take_of_lt (by omega), List.getElem?_eq_getElem (by omega)]
  simp only [ofFetched, hmore, decide_true, if_true, List.take_take,
    Nat.min_eq_left (Nat.le_succ limit), hlast, Option.map_some]

/-- The page shows the first of the listed rows, as many as the limit allows, and
says whether it has left any. -/
structure Page.Shows (before : Row → Row → Prop) (listed : Row → Prop) (limit : ℕ)
    (cursorOf : Row → Cursor) (page : Page Row Cursor) : Prop where
  sorted : page.items.Pairwise before
  shown : ∀ row ∈ page.items, listed row
  within : page.items.length ≤ limit
  left : ∀ row, listed row → row ∉ page.items →
    page.items.length = limit ∧ ∀ shown ∈ page.items, before shown row
  more : page.hasMore = true ↔ ∃ row, listed row ∧ row ∉ page.items
  next : page.nextCursor = if page.hasMore then page.items.getLast?.map cursorOf else none

/-- One row more than the limit tells whether there are more. -/
theorem Page.shows_ofFetched {listed : Row → Prop} (hlimit : 0 < limit)
    (hsorted : rows.Pairwise before) (hirrefl : ∀ row, ¬before row row)
    (hlisted : ∀ row, row ∈ rows ↔ listed row) :
    (Page.ofFetched limit cursorOf (rows.take (limit + 1))).Shows before listed limit
      cursorOf := by
  rcases Nat.lt_or_ge limit rows.length with hmore | hlast
  · have hsplit := hsorted
    rw [← List.take_append_drop limit rows, List.pairwise_append] at hsplit
    have hdropped {row : Row} (hrow : listed row) (hnot : row ∉ rows.take limit) :
        row ∈ rows.drop limit := by
      have hmem := (hlisted row).mpr hrow
      rw [← List.take_append_drop limit rows] at hmem
      exact (List.mem_append.mp hmem).resolve_left hnot
    have hlength : (rows.take limit).length = limit := by
      rw [List.length_take]
      omega
    rw [ofFetched_more hlimit hmore]
    refine ⟨hsplit.1, fun row hrow => (hlisted row).mp (List.mem_of_mem_take hrow),
      Nat.le_of_eq hlength,
      fun row hrow hnot => ⟨hlength, fun shown hshown =>
        hsplit.2.2 shown hshown row (hdropped hrow hnot)⟩, iff_of_true rfl ?_, ?_⟩
    · have hnext : rows[limit] ∈ rows.drop limit :=
        List.mem_drop_iff_getElem.mpr ⟨0, by omega, by simp⟩
      exact ⟨rows[limit], (hlisted _).mp (List.getElem_mem hmore), fun hmem =>
        hirrefl _ (hsplit.2.2 _ hmem _ hnext)⟩
    · have hend : (rows.take limit).getLast? = some rows[limit - 1] := by
        rw [List.getLast?_eq_getElem?, hlength, List.getElem?_take_of_lt (by omega),
          List.getElem?_eq_getElem (by omega)]
      simp [hend]
  · rw [ofFetched_last hlast]
    refine ⟨hsorted, fun row => (hlisted row).mp, hlast,
      fun row hrow hnot => absurd ((hlisted row).mpr hrow) hnot, iff_of_false nofun ?_, rfl⟩
    rintro ⟨row, hrow, hnot⟩
    exact hnot ((hlisted row).mpr hrow)

/-- The rows beyond the last row of a page are among those that the page left. -/
theorem Ordered.filter_within (h : Ordered before cursorOf beyond rows)
    {cursor : Option Cursor} {shown : List Row} {last : Row}
    (hshown : rows.filter (Within beyond cursor) = shown)
    (hlast : shown[limit - 1]? = some last) :
    rows.filter (Within beyond (some (cursorOf last))) =
      (shown.drop limit).filter (beyond (cursorOf last)) := by
  obtain ⟨hbound, hvalue⟩ := List.getElem?_eq_some_iff.mp hlast
  have hmem : last ∈ rows.filter (Within beyond cursor) :=
    hshown ▸ hvalue ▸ List.getElem_mem hbound
  -- what lies beyond the last row lies beyond the cursor of the page
  have hfilter : rows.filter (Within beyond (some (cursorOf last))) =
      shown.filter (beyond (cursorOf last)) := by
    rw [← hshown, List.filter_filter]
    refine List.filter_congr fun row _ => ?_
    have hwithin : beyond (cursorOf last) row → Within beyond cursor row := by
      intro hbeyond
      cases cursor with
      | none => rfl
      | some c => exact h.closed (h.after hbeyond) (List.mem_filter.mp hmem).2
    cases hbeyond : beyond (cursorOf last) row with
    | false => simp [Within, hbeyond]
    | true => simpa [Within, hbeyond] using hwithin hbeyond
  -- the rows of the page itself do not lie beyond its last row
  have hsorted : shown.Pairwise before := hshown ▸ h.sorted.filter _
  have hpage : (shown.take limit).filter (beyond (cursorOf last)) = [] := by
    rw [List.filter_eq_nil_iff]
    intro row hrow hbeyond
    obtain ⟨i, hi, rfl⟩ := List.getElem_of_mem hrow
    rw [List.length_take] at hi
    rw [List.getElem_take] at hbeyond
    have hafter := h.after hbeyond
    rcases Nat.lt_or_eq_of_le (show i ≤ limit - 1 by omega) with hlt | heq
    · have hbefore := List.pairwise_iff_getElem.mp hsorted i (limit - 1) (by omega) hbound hlt
      exact h.asymm hafter (hvalue ▸ hbefore)
    · subst heq
      rw [hvalue] at hafter
      exact h.asymm hafter hafter
  have hparts := List.filter_append (p := beyond (cursorOf last)) (shown.take limit)
    (shown.drop limit)
  rwa [List.take_append_drop, hpage, List.nil_append, ← hfilter] at hparts

/-- The boundaries of `rows` are the first one and those of the rest. -/
theorem unbroken_iff (hlimit : 0 < limit) (h : limit < rows.length) :
    Unbroken limit cursorOf beyond rows ↔
      beyond (cursorOf rows[limit - 1]) rows[limit] ∧
        Unbroken limit cursorOf beyond (rows.drop limit) := by
  constructor
  · intro hall
    refine ⟨?_, ?_⟩
    · refine hall 1 _ _ Nat.one_pos ?_ ?_
      · rw [Nat.one_mul, List.getElem?_eq_getElem (by omega)]
      · rw [Nat.one_mul, List.getElem?_eq_getElem h]
    · intro k last next hk hlast hnext
      have hmul : limit ≤ k * limit := Nat.le_mul_of_pos_left _ hk
      rw [List.getElem?_drop] at hlast hnext
      refine hall (k + 1) last next (Nat.succ_pos k) ?_ ?_
      · rw [← hlast, Nat.succ_mul]
        congr 1
        omega
      · rw [← hnext, Nat.succ_mul, Nat.add_comm]
  · rintro ⟨hfirst, hrest⟩ k last next hk hlast hnext
    obtain ⟨k, rfl⟩ : ∃ j, k = j + 1 := ⟨k - 1, by omega⟩
    rcases Nat.eq_zero_or_pos k with rfl | hk
    · rw [Nat.zero_add, Nat.one_mul, List.getElem?_eq_getElem (by omega)] at hlast
      rw [Nat.zero_add, Nat.one_mul, List.getElem?_eq_getElem h] at hnext
      cases hlast
      cases hnext
      exact hfirst
    · have hmul : limit ≤ k * limit := Nat.le_mul_of_pos_left _ hk
      refine hrest k last next hk ?_ ?_
      · rw [List.getElem?_drop, ← hlast, Nat.succ_mul]
        congr 1
        omega
      · rw [List.getElem?_drop, ← hnext, Nat.succ_mul, Nat.add_comm]

/-- A closed filter keeps a sorted list whole when it keeps its first row. -/
theorem Ordered.filter_eq_self_iff {rest : List Row} (hrest : rest.Pairwise before)
    (h : Ordered before cursorOf beyond rows) {cursor : Cursor} (hne : 0 < rest.length) :
    rest.filter (beyond cursor) = rest ↔ beyond cursor rest[0] := by
  rw [List.filter_eq_self]
  constructor
  · exact fun hall => hall _ (List.getElem_mem _)
  · intro hfirst row hrow
    cases rest with
    | nil => cases hrow
    | cons head tail =>
        rcases List.mem_cons.mp hrow with rfl | htail
        · exact hfirst
        · exact h.closed (List.rel_of_pairwise_cons hrest htail) hfirst

/-- Whoever follows the cursors reaches the end, and gets rows in order without
repetition; nothing is skipped exactly when no boundary breaks the rest. -/
theorem Ordered.follow (h : Ordered before cursorOf beyond rows) (hlimit : 0 < limit) {n : ℕ}
    {cursor : Option Cursor} (hn : (rows.filter (Within beyond cursor)).length < n) :
    ∃ collected, follow (fun cursor => some (pageFrom limit cursorOf beyond rows cursor)) n
        cursor = some collected ∧
      collected.Sublist (rows.filter (Within beyond cursor)) ∧
      (collected = rows.filter (Within beyond cursor) ↔
        Unbroken limit cursorOf beyond (rows.filter (Within beyond cursor))) := by
  induction n generalizing cursor with
  | zero => omega
  | succ n ih =>
      generalize hS : rows.filter (Within beyond cursor) = shown at hn ⊢
      rw [Keyset.follow, pageFrom, hS]
      by_cases hmore : limit < shown.length
      · -- the page is full, and the rest is collected from its cursor
        simp only [Page.ofFetched_more hlimit hmore]
        have hfilter := h.filter_within hS
          (List.getElem?_eq_getElem (show limit - 1 < shown.length by omega))
        generalize hc : cursorOf shown[limit - 1] = c at hfilter
        have hrest : (rows.filter (Within beyond (some c))).Sublist (shown.drop limit) := by
          rw [hfilter]
          exact List.filter_sublist
        have hshorter : (rows.filter (Within beyond (some c))).length < n := by
          have hle := hrest.length_le
          rw [List.length_drop] at hle
          omega
        obtain ⟨collected, hfollow, hsublist, hexact⟩ := ih hshorter
        rw [hfollow]
        refine ⟨shown.take limit ++ collected, rfl, ?_, ?_⟩
        · conv_rhs => rw [← List.take_append_drop limit shown]
          exact (List.Sublist.refl _).append (hsublist.trans hrest)
        · have hdrop : (shown.drop limit).Pairwise before :=
            (hS ▸ h.sorted.filter _ : shown.Pairwise before).drop
          have hhead : (shown.drop limit).filter (beyond c) = shown.drop limit ↔
              beyond c shown[limit] := by
            rw [h.filter_eq_self_iff hdrop (by rw [List.length_drop]; omega)]
            simp
          have hsplit : shown.take limit ++ collected = shown ↔
              collected = shown.drop limit := by
            refine ⟨fun heq => ?_, fun heq => heq ▸ List.take_append_drop limit shown⟩
            exact List.append_cancel_left (heq.trans (List.take_append_drop limit shown).symm)
          rw [hsplit, unbroken_iff hlimit hmore, hc, ← hhead]
          constructor
          · intro heq
            have hall : rows.filter (Within beyond (some c)) = shown.drop limit :=
              hrest.antisymm (heq ▸ hsublist)
            refine ⟨hfilter ▸ hall, ?_⟩
            rw [← hall]
            exact hexact.mp (heq.trans hall.symm)
          · rintro ⟨hall, hunbroken⟩
            rw [← hfilter] at hall
            rw [← hall] at hunbroken ⊢
            exact hexact.mpr hunbroken
      · -- the last page
        simp only [Page.ofFetched_last (Nat.le_of_not_lt hmore)]
        refine ⟨shown, rfl, List.Sublist.refl _, ?_⟩
        refine iff_of_true rfl fun k last next hk _ hnext => ?_
        have hmul : limit ≤ k * limit := Nat.le_mul_of_pos_left _ hk
        rw [List.getElem?_eq_none (by omega)] at hnext
        cases hnext

/-- The client gets every row of the listing exactly once and in order, in any
number of requests that suffices for one row each. -/
def ReadsExactly (fetch : Option Cursor → Option (Page Row Cursor)) (rows : List Row) : Prop :=
  ∀ n, rows.length < n → follow fetch n none = some rows

/-- Reading page by page gives every row once exactly when no full page hides the next row. -/
theorem Ordered.readsExactly_iff (h : Ordered before cursorOf beyond rows)
    (hlimit : 0 < limit) :
    ReadsExactly (fun cursor => some (pageFrom limit cursorOf beyond rows cursor)) rows ↔
      Unbroken limit cursorOf beyond rows := by
  have hall : rows.filter (Within beyond none) = rows :=
    List.filter_eq_self.mpr fun _ _ => rfl
  constructor
  · intro hexact
    have hn : (rows.filter (Within beyond none)).length < rows.length + 1 := by
      rw [hall]
      exact Nat.lt_succ_self _
    obtain ⟨collected, hfollow, -, hiff⟩ := h.follow hlimit hn
    rw [hall] at hiff
    rw [hexact _ (Nat.lt_succ_self _)] at hfollow
    exact hiff.mp (Option.some_inj.mp hfollow).symm
  · intro hunbroken n hn
    rw [← hall] at hn
    obtain ⟨collected, hfollow, -, hiff⟩ := h.follow hlimit hn
    rw [hall] at hiff
    rw [hfollow, hiff.mpr hunbroken]

def Page.mapCursor {Text : Type} (encode : Cursor → Text) (page : Page Row Cursor) :
    Page Row Text :=
  { page with nextCursor := page.nextCursor.map encode }

theorem Page.mapCursor_ofFetched {Text : Type} (encode : Cursor → Text) :
    (Page.ofFetched limit cursorOf rows).mapCursor encode =
      Page.ofFetched limit (fun row => encode (cursorOf row)) rows := by
  simp only [mapCursor, ofFetched]
  congr 1
  split
  · rw [Option.map_map]
    rfl
  · rfl

/-- A client who follows encoded cursors follows the cursors themselves. -/
theorem follow_encode {Text : Type} {encode : Cursor → Text}
    {fetch : Option Cursor → Option (Page Row Cursor)}
    {fetchText : Option Text → Option (Page Row Text)}
    (h : ∀ cursor, fetchText (cursor.map encode) = (fetch cursor).map (Page.mapCursor encode))
    (n : ℕ) (cursor : Option Cursor) :
    follow fetchText n (cursor.map encode) = follow fetch n cursor := by
  induction n generalizing cursor with
  | zero => rfl
  | succ n ih =>
      rw [follow, follow, h]
      cases fetch cursor with
      | none => rfl
      | some page =>
          simp only [Option.map_some, Page.mapCursor]
          cases page.nextCursor with
          | none => rfl
          | some next => exact congrArg (Option.map (page.items ++ ·)) (ih (some next))

theorem readsExactly_encode {Text : Type} {encode : Cursor → Text}
    {fetch : Option Cursor → Option (Page Row Cursor)}
    {fetchText : Option Text → Option (Page Row Text)}
    (h : ∀ cursor, fetchText (cursor.map encode) = (fetch cursor).map (Page.mapCursor encode)) :
    ReadsExactly fetchText rows ↔ ReadsExactly fetch rows :=
  forall₂_congr fun n _ => by rw [← follow_encode h n none]; rfl

end Orgistry.Keyset
