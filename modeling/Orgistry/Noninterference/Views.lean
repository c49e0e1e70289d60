import Mathlib.Data.List.Basic
import Mathlib.Logic.Function.Basic
import Mathlib.Tactic.Common

/-!
# Keyed views of tables

What the rows of a table say about each key: the entry of the first row that has it.
Rows without a key are not in the view.
-/

namespace Orgistry.Noninterference

variable {Row Key Entry : Type} [DecidableEq Key]
variable {key : Row → Option Key} {entry : Row → Entry}

def view (key : Row → Option Key) (entry : Row → Entry) (rows : List Row) (k : Key) :
    Option Entry :=
  (rows.find? fun row => key row = some k).map entry

theorem view_cons (row : Row) (rows : List Row) (k : Key) :
    view key entry (row :: rows) k =
      if key row = some k then some (entry row) else view key entry rows k := by
  by_cases hkey : key row = some k
  · simp [view, hkey]
  · simp [view, hkey]

theorem view_append (rows : List Row) (row : Row) (k : Key) :
    view key entry (rows ++ [row]) k =
      (view key entry rows k).or (if key row = some k then some (entry row) else none) := by
  induction rows with
  | nil => rw [List.nil_append, view_cons]; rfl
  | cons first rows ih =>
      rw [List.cons_append, view_cons, view_cons, ih]
      split <;> rfl

theorem view_eq_none {rows : List Row} {k : Key} (h : ∀ row ∈ rows, key row ≠ some k) :
    view key entry rows k = none := by
  rw [view, List.find?_eq_none.mpr fun row hrow => by simpa using h row hrow]
  rfl

/-- A new row with a new key. -/
theorem view_added {rows : List Row} {row : Row} {k : Key} (hkey : key row = some k)
    (hfresh : ∀ other ∈ rows, key other ≠ some k) :
    view key entry (rows ++ [row]) =
      Function.update (view key entry rows) k (some (entry row)) := by
  funext k'
  rw [view_append, hkey]
  by_cases hk : k' = k
  · subst hk
    rw [view_eq_none hfresh, if_pos rfl, Function.update_self]
    rfl
  · rw [if_neg fun h => hk (Option.some.inj h).symm, Function.update_of_ne hk, Option.or_none]

/-- A new row without a key. -/
theorem view_added_none {rows : List Row} {row : Row} (hkey : key row = none) :
    view key entry (rows ++ [row]) = view key entry rows := by
  funext k
  rw [view_append, hkey, if_neg (Option.some_ne_none k).symm, Option.or_none]

/-- Changed rows that say what they said. -/
theorem view_map {rows : List Row} {f : Row → Row} (hkey : ∀ row ∈ rows, key (f row) = key row)
    (hentry : ∀ row ∈ rows, key row ≠ none → entry (f row) = entry row) :
    view key entry (rows.map f) = view key entry rows := by
  funext k
  induction rows with
  | nil => rfl
  | cons row rows ih =>
      rw [List.map_cons, view_cons, view_cons, hkey row List.mem_cons_self,
        ih (fun r hr => hkey r (List.mem_cons_of_mem _ hr))
          fun r hr => hentry r (List.mem_cons_of_mem _ hr)]
      split
      · next hk => rw [hentry row List.mem_cons_self (by rw [hk]; exact Option.some_ne_none _)]
      · rfl

/-- The rows with one key change what they say. -/
theorem view_map_at {rows : List Row} {f : Row → Row} {k : Key} {g : Entry → Entry}
    (hkey : ∀ row ∈ rows, key (f row) = key row)
    (hat : ∀ row ∈ rows, key row = some k → entry (f row) = g (entry row))
    (helse : ∀ row ∈ rows, key row ≠ none → key row ≠ some k → entry (f row) = entry row) :
    view key entry (rows.map f) =
      Function.update (view key entry rows) k ((view key entry rows k).map g) := by
  funext k'
  induction rows with
  | nil =>
      by_cases hk : k' = k
      · subst hk
        rw [Function.update_self]
        rfl
      · rw [Function.update_of_ne hk]
        rfl
  | cons row rows ih =>
      have hrest := ih (fun r hr => hkey r (List.mem_cons_of_mem _ hr))
        (fun r hr => hat r (List.mem_cons_of_mem _ hr))
        fun r hr => helse r (List.mem_cons_of_mem _ hr)
      by_cases hk : k' = k
      · subst hk
        rw [Function.update_self] at hrest ⊢
        rw [List.map_cons, view_cons, view_cons, hkey row List.mem_cons_self, hrest]
        split
        · next hrow => rw [hat row List.mem_cons_self hrow]; rfl
        · rfl
      · rw [Function.update_of_ne hk] at hrest ⊢
        rw [List.map_cons, view_cons, view_cons, hkey row List.mem_cons_self, hrest]
        split
        · next hrow =>
            have hother : key row ≠ some k := fun h => hk (Option.some.inj (hrow.symm.trans h))
            rw [helse row List.mem_cons_self (by rw [hrow]; exact Option.some_ne_none _) hother]
        · rfl

section Owned

variable {Owner : Type} [DecidableEq Owner] {owner : Row → Owner} {id : Row → Key}

/-- What the rows of one owner say about each of their ids. -/
def ownedView (owner : Row → Owner) (id : Row → Key) (entry : Row → Entry) (o : Owner)
    (rows : List Row) : Key → Option Entry :=
  view (fun row => if owner row = o then some (id row) else none) entry rows

/-- An id that a row has is in the view of its owner. -/
theorem ownedView_isSome {rows : List Row} {row : Row} (hrow : row ∈ rows) :
    (ownedView owner id entry (owner row) rows (id row)).isSome := by
  rw [ownedView, view, Option.isSome_map, List.find?_isSome]
  exact ⟨row, hrow, by simp⟩

/-- A new row is seen by its owner. -/
theorem ownedView_added {rows : List Row} {row : Row} (hfresh : ∀ other ∈ rows, id other ≠ id row)
    (o : Owner) :
    ownedView owner id entry o (rows ++ [row]) =
      if owner row = o then
        Function.update (ownedView owner id entry o rows) (id row) (some (entry row))
      else ownedView owner id entry o rows := by
  split
  · next howner =>
      refine view_added (if_pos howner) fun other hother hkey => ?_
      split at hkey
      · exact hfresh other hother (Option.some.inj hkey)
      · exact Option.some_ne_none _ hkey.symm
  · next howner => exact view_added_none (if_neg howner)

/-- The update of one row of `o` is seen by `o` alone. -/
theorem ownedView_updated {rows : List Row} {p : Row → Bool} {f : Row → Row} {g : Entry → Entry}
    {o : Owner} {k : Key} (hp : ∀ row ∈ rows, p row ↔ owner row = o ∧ id row = k)
    (howner : ∀ row, owner (f row) = owner row) (hid : ∀ row, id (f row) = id row)
    (hentry : ∀ row, entry (f row) = g (entry row)) (o' : Owner) :
    ownedView owner id entry o' (rows.map fun row => if p row then f row else row) =
      if o = o' then
        Function.update (ownedView owner id entry o rows) k
          ((ownedView owner id entry o rows k).map g)
      else ownedView owner id entry o' rows := by
  have hkey : ∀ row ∈ rows,
      (if owner (if p row then f row else row) = o' then
        some (id (if p row then f row else row)) else none) =
        if owner row = o' then some (id row) else none := by
    intro row _
    split
    · rw [howner, hid]
    · rfl
  split
  · next ho =>
      subst ho
      refine view_map_at hkey (fun row hrow hk => ?_) fun row hrow _ hk => ?_
      · have hrow' : owner row = o ∧ id row = k := by
          split at hk
          · next h => exact ⟨h, Option.some.inj hk⟩
          · exact absurd hk.symm (Option.some_ne_none _)
        rw [if_pos ((hp row hrow).mpr hrow'), hentry]
      · rw [if_neg fun hpr => hk ?_]
        rw [if_pos ((hp row hrow).mp hpr).1, ((hp row hrow).mp hpr).2]
  · next ho =>
      refine view_map hkey fun row hrow hk => ?_
      rw [if_neg fun hpr => hk ?_]
      exact if_neg fun hrow' => ho (((hp row hrow).mp hpr).1.symm.trans hrow')

/-- An update that changes nothing of what is said. -/
theorem ownedView_eq {rows : List Row} {p : Row → Bool} {f : Row → Row}
    (howner : ∀ row, owner (f row) = owner row) (hid : ∀ row, id (f row) = id row)
    (hentry : ∀ row, p row → entry (f row) = entry row) (o : Owner) :
    ownedView owner id entry o (rows.map fun row => if p row then f row else row) =
      ownedView owner id entry o rows := by
  refine view_map (fun row _ => ?_) fun row _ _ => ?_
  · split
    · rw [howner, hid]
    · rfl
  · split
    · next hpr => exact hentry row hpr
    · rfl

end Owned

end Orgistry.Noninterference
