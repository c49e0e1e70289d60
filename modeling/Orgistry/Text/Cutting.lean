import Mathlib.Data.List.Basic
import Mathlib.Tactic.Common

/-!
# Cutting texts

Cutting a text at the first separator, splitting it at every one, and taking off what
encloses it, over any alphabet.
-/

namespace Orgistry.Text

variable {α : Type} [DecidableEq α]

/-- What stands before and after the first separator. -/
def cut (sep : α) : List α → Option (List α × List α)
  | [] => none
  | a :: rest =>
      if a = sep then some ([], rest)
      else (cut sep rest).map fun (front, back) => (a :: front, back)

/-- The pieces between the separators, one at least. -/
def splitOn (sep : α) : List α → List (List α)
  | [] => [[]]
  | a :: rest =>
      if a = sep then [] :: splitOn sep rest
      else
        match splitOn sep rest with
        | [] => [[a]]
        | piece :: pieces => (a :: piece) :: pieces

/-- The pieces with a separator between them. -/
def joinWith (sep : α) : List (List α) → List α
  | [] => []
  | [piece] => piece
  | piece :: pieces => piece ++ sep :: joinWith sep pieces

/-- The text without one `c` at its end. -/
def chomp (c : α) (text : List α) : List α :=
  if text.getLast? = some c then text.dropLast else text

/-- What stands between two quotes. -/
def unquote (quote : α) : List α → Option (List α)
  | [] => none
  | a :: rest => if a = quote ∧ rest.getLast? = some quote then some rest.dropLast else none

variable {sep : α} {front back text : List α}

theorem cut_append (h : sep ∉ front) : cut sep (front ++ sep :: back) = some (front, back) := by
  induction front with
  | nil => simp [cut]
  | cons a front ih =>
      rw [List.mem_cons, not_or] at h
      rw [List.cons_append, cut, if_neg (Ne.symm h.1), ih h.2]
      rfl

theorem cut_of_notMem (h : sep ∉ text) : cut sep text = none := by
  induction text with
  | nil => rfl
  | cons a text ih =>
      rw [List.mem_cons, not_or] at h
      rw [cut, if_neg (Ne.symm h.1), ih h.2]
      rfl

theorem eq_of_cut (h : cut sep text = some (front, back)) : text = front ++ sep :: back := by
  induction text generalizing front with
  | nil => cases h
  | cons a text ih =>
      unfold cut at h
      split at h
      · next ha =>
          cases h
          rw [ha]
          rfl
      · obtain ⟨⟨front, back⟩, hcut, hpair⟩ := Option.map_eq_some_iff.mp h
        cases hpair
        rw [ih hcut]
        rfl

theorem notMem_of_cut (h : cut sep text = some (front, back)) : sep ∉ front := by
  induction text generalizing front with
  | nil => cases h
  | cons a text ih =>
      unfold cut at h
      split at h
      · cases h
        exact List.not_mem_nil
      · next ha =>
          obtain ⟨⟨front, back⟩, hcut, hpair⟩ := Option.map_eq_some_iff.mp h
          cases hpair
          rw [List.mem_cons, not_or]
          exact ⟨Ne.symm ha, ih hcut⟩

theorem splitOn_append (h : sep ∉ front) :
    splitOn sep (front ++ sep :: back) = front :: splitOn sep back := by
  induction front with
  | nil => simp [splitOn]
  | cons a front ih =>
      rw [List.mem_cons, not_or] at h
      rw [List.cons_append, splitOn, if_neg (Ne.symm h.1), ih h.2]

theorem splitOn_of_notMem (h : sep ∉ text) : splitOn sep text = [text] := by
  induction text with
  | nil => rfl
  | cons a text ih =>
      rw [List.mem_cons, not_or] at h
      rw [splitOn, if_neg (Ne.symm h.1), ih h.2]

omit [DecidableEq α] in
theorem joinWith_cons (sep : α) (piece : List α) (pieces : List (List α)) :
    joinWith sep (piece :: pieces) = piece ++ pieces.flatMap (sep :: ·) := by
  induction pieces generalizing piece with
  | nil => simp [joinWith]
  | cons next pieces ih =>
      change piece ++ sep :: joinWith sep (next :: pieces) = _
      rw [ih, List.flatMap_cons, List.cons_append]

omit [DecidableEq α] in
theorem notMem_joinWith {a : α} {pieces : List (List α)} (hsep : a ≠ sep)
    (hpieces : ∀ piece ∈ pieces, a ∉ piece) : a ∉ joinWith sep pieces := by
  cases pieces with
  | nil => exact List.not_mem_nil
  | cons piece pieces =>
      rw [joinWith_cons, List.mem_append, not_or]
      refine ⟨hpieces piece List.mem_cons_self, fun h => ?_⟩
      obtain ⟨next, hnext, h⟩ := List.mem_flatMap.mp h
      rcases List.mem_cons.mp h with h | h
      · exact hsep h
      · exact hpieces next (List.mem_cons_of_mem _ hnext) h

omit [DecidableEq α] in
theorem mem_joinWith {a : α} {piece : List α} {pieces : List (List α)} (hpiece : piece ∈ pieces)
    (ha : a ∈ piece) : a ∈ joinWith sep pieces := by
  cases pieces with
  | nil => cases hpiece
  | cons first pieces =>
      rw [joinWith_cons, List.mem_append]
      rcases List.mem_cons.mp hpiece with rfl | hpiece
      · exact Or.inl ha
      · exact Or.inr (List.mem_flatMap.mpr ⟨piece, hpiece, List.mem_cons_of_mem _ ha⟩)

theorem splitOn_joinWith {pieces : List (List α)} (hne : pieces ≠ [])
    (hpieces : ∀ piece ∈ pieces, sep ∉ piece) : splitOn sep (joinWith sep pieces) = pieces := by
  induction pieces with
  | nil => exact absurd rfl hne
  | cons piece pieces ih =>
      have hpiece := hpieces piece List.mem_cons_self
      cases pieces with
      | nil => exact splitOn_of_notMem hpiece
      | cons next pieces =>
          change splitOn sep (piece ++ sep :: joinWith sep (next :: pieces)) = _
          rw [splitOn_append hpiece,
            ih (List.cons_ne_nil _ _) fun other h => hpieces other (List.mem_cons_of_mem _ h)]

theorem splitOn_ne_nil (sep : α) (text : List α) : splitOn sep text ≠ [] := by
  cases text with
  | nil => exact List.cons_ne_nil _ _
  | cons a text =>
      unfold splitOn
      split
      · exact List.cons_ne_nil _ _
      · split <;> exact List.cons_ne_nil _ _

/-- A separator that occurs at all occurs a first time. -/
theorem exists_first (h : sep ∈ text) :
    ∃ front back, text = front ++ sep :: back ∧ sep ∉ front := by
  induction text with
  | nil => cases h
  | cons a text ih =>
      by_cases ha : sep = a
      · exact ⟨[], text, by rw [ha]; rfl, List.not_mem_nil⟩
      · obtain ⟨front, back, rfl, hfront⟩ := ih ((List.mem_cons.mp h).resolve_left ha)
        exact ⟨a :: front, back, rfl, by simp [ha, hfront]⟩

theorem joinWith_splitOn (sep : α) (text : List α) : joinWith sep (splitOn sep text) = text := by
  by_cases h : sep ∈ text
  · obtain ⟨front, back, rfl, hfront⟩ := exists_first h
    rw [splitOn_append hfront]
    obtain ⟨piece, pieces, hpieces⟩ := List.exists_cons_of_ne_nil (splitOn_ne_nil sep back)
    have ih := joinWith_splitOn sep back
    rw [hpieces] at ih ⊢
    change front ++ sep :: joinWith sep (piece :: pieces) = _
    rw [ih]
  · rw [splitOn_of_notMem h]
    rfl
termination_by text.length
decreasing_by simp [*]; omega

/-- What stands before and after the first two separators in a row. -/
def cutDouble (sep : α) : List α → Option (List α × List α)
  | [] | [_] => none
  | a :: b :: rest =>
      if a = sep ∧ b = sep then some ([], rest)
      else (cutDouble sep (b :: rest)).map fun (front, back) => (a :: front, back)

theorem eq_of_cutDouble (h : cutDouble sep text = some (front, back)) :
    text = front ++ sep :: sep :: back := by
  induction text generalizing front with
  | nil => cases h
  | cons a text ih =>
      cases text with
      | nil => cases h
      | cons b rest =>
          rw [cutDouble] at h
          split at h
          · next hsep =>
              cases h
              rw [hsep.1, hsep.2]
              rfl
          · obtain ⟨⟨first, other⟩, hcut, hpair⟩ := Option.map_eq_some_iff.mp h
            cases hpair
            rw [ih hcut]
            rfl

/-- No two separators stand in a row, and none at the end. -/
def Single (sep : α) (text : List α) : Prop := cutDouble sep (text ++ [sep]) = none

theorem Single.of_cons {a : α} (h : Single sep (a :: text)) : Single sep text := by
  unfold Single at h ⊢
  cases text with
  | nil => rfl
  | cons b rest =>
      rw [List.cons_append, List.cons_append, cutDouble] at h
      split at h
      · cases h
      · exact Option.map_eq_none_iff.mp h

/-- The first doubled separator cuts. -/
theorem Single.cutDouble_append (h : Single sep front) :
    cutDouble sep (front ++ sep :: sep :: back) = some (front, back) := by
  induction front with
  | nil => rw [List.nil_append, cutDouble, if_pos ⟨rfl, rfl⟩]
  | cons a front ih =>
      have hrest := ih h.of_cons
      cases front with
      | nil =>
          have ha : ¬(a = sep ∧ sep = sep) := fun hsep => by
            unfold Single at h
            rw [List.cons_append, List.nil_append, cutDouble, if_pos hsep] at h
            cases h
          rw [List.cons_append, List.nil_append, cutDouble, if_neg ha]
          rw [List.nil_append] at hrest
          rw [hrest]
          rfl
      | cons b front =>
          have ha : ¬(a = sep ∧ b = sep) := fun hsep => by
            unfold Single at h
            rw [List.cons_append, List.cons_append, cutDouble, if_pos hsep] at h
            cases h
          rw [List.cons_append, List.cons_append, cutDouble, if_neg ha]
          rw [List.cons_append] at hrest
          rw [hrest]
          rfl

/-- Without a doubled separator nothing is cut. -/
theorem Single.cutDouble_eq_none (h : Single sep text) : cutDouble sep text = none := by
  induction text with
  | nil => rfl
  | cons a text ih =>
      cases text with
      | nil => rfl
      | cons b rest =>
          unfold Single at h
          rw [List.cons_append, List.cons_append, cutDouble] at h
          rw [cutDouble]
          split at h
          · cases h
          · next hsep =>
              rw [if_neg hsep, ih (Option.map_eq_none_iff.mp h)]
              rfl

theorem single_append (hfront : sep ∉ front) (h : Single sep text) :
    Single sep (front ++ text) := by
  induction front with
  | nil => exact h
  | cons a front ih =>
      rw [List.mem_cons, not_or] at hfront
      have hrest := ih hfront.2
      unfold Single at hrest ⊢
      cases hcases : front ++ text with
      | nil => simp [hcases, cutDouble, Ne.symm hfront.1]
      | cons b rest =>
          rw [hcases] at hrest
          rw [List.cons_append, hcases, List.cons_append, List.cons_append, cutDouble,
            if_neg fun hsep => hfront.1 hsep.1.symm, ← List.cons_append, hrest]
          rfl

theorem single_cons_sep (hhead : text.head?.any (· ≠ sep)) (h : Single sep text) :
    Single sep (sep :: text) := by
  cases text with
  | nil => cases hhead
  | cons b rest =>
      have hb : ¬(sep = sep ∧ b = sep) := fun hsep => of_decide_eq_true hhead hsep.2
      unfold Single at h ⊢
      rw [List.cons_append, List.cons_append, cutDouble, if_neg hb, ← List.cons_append, h]
      rfl

/-- Pieces that are not empty have single separators between them. -/
theorem single_joinWith {pieces : List (List α)}
    (hpieces : ∀ piece ∈ pieces, piece ≠ [] ∧ sep ∉ piece) : Single sep (joinWith sep pieces) := by
  induction pieces with
  | nil => rfl
  | cons piece pieces ih =>
      have hpiece := hpieces piece List.mem_cons_self
      have hrest := ih fun other hother => hpieces other (List.mem_cons_of_mem _ hother)
      cases pieces with
      | nil =>
          change Single sep piece
          rw [← List.append_nil piece]
          exact single_append hpiece.2 rfl
      | cons next pieces =>
          refine single_append hpiece.2 (single_cons_sep ?_ hrest)
          have hnext := hpieces next (List.mem_cons_of_mem _ List.mem_cons_self)
          obtain ⟨c, more, rfl⟩ := List.exists_cons_of_ne_nil hnext.1
          rw [joinWith_cons, List.cons_append, List.head?_cons]
          exact decide_eq_true fun hsep => hnext.2 (by rw [hsep]; exact List.mem_cons_self)

theorem chomp_append (c : α) (text : List α) : chomp c (text ++ [c]) = text := by
  simp [chomp]

theorem chomp_of_ne {c : α} (h : text.getLast? ≠ some c) : chomp c text = text := if_neg h

theorem unquote_eq_some_iff {quote : α} {inner : List α} :
    unquote quote text = some inner ↔ text = quote :: (inner ++ [quote]) := by
  cases text with
  | nil => simp [unquote]
  | cons a rest =>
      simp only [unquote, List.cons.injEq]
      split
      · next h =>
          obtain ⟨rfl, hlast⟩ := h
          obtain ⟨before, rfl⟩ := List.getLast?_eq_some_iff.mp hlast
          simp
      · next h =>
          refine iff_of_false nofun ?_
          rintro ⟨rfl, rfl⟩
          exact h ⟨rfl, by simp⟩

end Orgistry.Text
