import Mathlib.Data.List.Sort
import Mathlib.Tactic.Common

/-!
# Stable sorting

Insertion sort by a total preorder keeps the elements that the preorder does
not tell apart in the order in which they came.
-/

namespace Orgistry.Sorting

variable {α : Type} {r : α → α → Prop}

section Filter

variable [DecidableRel r]

/-- An element that the filter drops is inserted without a trace. -/
private theorem filter_orderedInsert_of_neg {p : α → Bool} {a : α} (ha : ¬p a) (l : List α) :
    (l.orderedInsert r a).filter p = l.filter p := by
  induction l with
  | nil => simp [ha]
  | cons b l ih =>
      rw [List.orderedInsert_cons]
      split
      · simp [ha]
      · simp only [List.filter_cons, ih]

/-- In a sorted list, an element that is kept goes where it would go among the
kept ones. -/
private theorem filter_orderedInsert_of_pos [IsTrans α r] {p : α → Bool} {a : α} (ha : p a)
    {l : List α} (hl : l.Pairwise r) :
    (l.orderedInsert r a).filter p = (l.filter p).orderedInsert r a := by
  induction l with
  | nil => simp [ha]
  | cons b l ih =>
      have htail := List.pairwise_cons.mp hl
      rw [List.orderedInsert_cons]
      split
      · next hab =>
          -- everything that follows is at least `b`, kept or not
          have hleast : ∀ c ∈ (b :: l).filter p, r a c := by
            intro c hc
            rcases List.mem_cons.mp (List.mem_filter.mp hc).1 with rfl | hmem
            · exact hab
            · exact trans_of r hab (htail.1 c hmem)
          rw [List.filter_cons_of_pos ha]
          cases hkept : (b :: l).filter p with
          | nil => rfl
          | cons c kept => rw [List.orderedInsert_cons, if_pos (hleast c (by simp [hkept]))]
      · next hab =>
          by_cases hb : p b
          · simp only [List.filter_cons_of_pos hb, List.orderedInsert_cons, if_neg hab, ih htail.2]
          · simp only [List.filter_cons_of_neg hb, ih htail.2]

/-- Filtering commutes with sorting. -/
theorem filter_insertionSort [Std.Total r] [IsTrans α r] (p : α → Bool) (l : List α) :
    (l.insertionSort r).filter p = (l.filter p).insertionSort r := by
  induction l with
  | nil => rfl
  | cons a l ih =>
      rw [List.insertionSort_cons]
      by_cases ha : p a
      · rw [filter_orderedInsert_of_pos ha (List.pairwise_insertionSort r l), ih,
          List.filter_cons_of_pos ha, List.insertionSort_cons]
      · rw [filter_orderedInsert_of_neg ha, ih, List.filter_cons_of_neg ha]

end Filter

/-- The head of a sorted list is one of its least elements. -/
theorem head_le [Std.Refl r] {l : List α} {a b : α} (hsorted : l.Pairwise r) (ha : l.head? = some a)
    (hb : b ∈ l) : r a b := by
  cases l with
  | nil => cases hb
  | cons c l =>
      obtain rfl : c = a := by simpa using ha
      rcases List.mem_cons.mp hb with rfl | hb
      · exact refl_of r b
      · exact (List.pairwise_cons.mp hsorted).1 b hb

/-- The last element of a sorted list is one of its greatest. -/
theorem le_getLast [Std.Refl r] {l : List α} {a b : α} (hsorted : l.Pairwise r)
    (ha : l.getLast? = some a) (hb : b ∈ l) : r b a := by
  obtain ⟨front, rfl⟩ := List.getLast?_eq_some_iff.mp ha
  rcases List.mem_append.mp hb with hb | hb
  · exact (List.pairwise_append.mp hsorted).2.2 b hb a (by simp)
  · obtain rfl := List.mem_singleton.mp hb
    exact refl_of r b

end Orgistry.Sorting
