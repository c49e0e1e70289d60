import Orgistry.Text.Cutting
import Mathlib.Data.List.Chain
import Mathlib.Data.List.DropRight

/-!
# Slugs

Texts of words with single separators between them, over any alphabet: making one of any
text, cutting it short and putting two together.
-/

namespace Orgistry.Text

variable {α : Type}

/-- Every run of what is not kept becomes one separator; `inRun` says that one has just
been written. -/
def collapse (keep : α → Bool) (sep : α) : Bool → List α → List α
  | _, [] => []
  | inRun, a :: rest =>
      if keep a then a :: collapse keep sep false rest
      else if inRun then collapse keep sep true rest
      else sep :: collapse keep sep true rest

/-- Kept characters and single separators, none of them at the front. -/
structure Begun (keep : α → Bool) (sep : α) (text : List α) : Prop where
  chars : ∀ a ∈ text, keep a = true ∨ a = sep
  single : text.IsChain fun a b => a = sep → b ≠ sep
  first : text.head? ≠ some sep

/-- And none of them at the end; the text may be empty. -/
structure Tidy (keep : α → Bool) (sep : α) (text : List α) : Prop extends
    Begun keep sep text where
  last : text.getLast? ≠ some sep

variable {keep : α → Bool} {sep : α} {text other : List α}

theorem mem_collapse {inRun : Bool} {a : α} (h : a ∈ collapse keep sep inRun text) :
    keep a = true ∨ a = sep := by
  induction text generalizing inRun with
  | nil => cases h
  | cons b rest ih =>
      rw [collapse] at h
      split at h
      · next hkeep =>
          rcases List.mem_cons.mp h with rfl | h
          · exact Or.inl hkeep
          · exact ih h
      · split at h
        · exact ih h
        · rcases List.mem_cons.mp h with rfl | h
          · exact Or.inr rfl
          · exact ih h

/-- Behind a separator, and anywhere else. -/
theorem collapse_chain (hsep : keep sep = false) (inRun : Bool) (text : List α) :
    (collapse keep sep inRun text).IsChain (fun a b => a = sep → b ≠ sep) ∧
      (inRun = true → (collapse keep sep inRun text).head? ≠ some sep) := by
  induction text generalizing inRun with
  | nil => exact ⟨List.isChain_nil, fun _ => nofun⟩
  | cons a rest ih =>
      rw [collapse]
      split
      · next hkeep =>
          have ha : a ≠ sep := fun h => by rw [h, hsep] at hkeep; cases hkeep
          refine ⟨List.isChain_cons.mpr ⟨fun b _ h => absurd h ha, (ih false).1⟩, fun _ => ?_⟩
          simpa using ha
      · split
        · next hrun =>
            exact ⟨(ih true).1, fun _ => (ih true).2 rfl⟩
        · next hrun =>
            refine ⟨List.isChain_cons.mpr ⟨fun b hb _ => ?_, (ih true).1⟩, fun h => absurd h hrun⟩
            rintro rfl
            exact (ih true).2 rfl hb

/-- A text without runs of separators is left as it is. -/
theorem collapse_of_single (hchars : ∀ a ∈ text, keep a = true ∨ a = sep)
    (hsingle : text.IsChain fun a b => a = sep → b ≠ sep) {inRun : Bool}
    (hrun : inRun = true → text.head? ≠ some sep) : collapse keep sep inRun text = text := by
  induction text generalizing inRun with
  | nil => rfl
  | cons a rest ih =>
      obtain ⟨ha, hrest⟩ := List.forall_mem_cons.mp hchars
      obtain ⟨hnext, hsingle⟩ := List.isChain_cons.mp hsingle
      rw [collapse]
      by_cases hkeep : keep a = true
      · rw [if_pos hkeep, ih hrest hsingle fun h => by cases h]
      · have hseparator : a = sep := ha.resolve_left hkeep
        have hfresh : ¬inRun = true := fun h => hrun h (by rw [hseparator]; rfl)
        rw [if_neg hkeep, if_neg hfresh, ih hrest hsingle fun _ h => hnext _ h hseparator rfl,
          hseparator]

theorem Begun.of_front (h : Begun keep sep text) (hfront : other <+: text) :
    Begun keep sep other where
  chars a ha := h.chars a (hfront.subset ha)
  single := List.IsChain.prefix h.single hfront
  first hfirst := by
    obtain ⟨rest, rfl⟩ := List.head?_eq_some_iff.mp hfirst
    obtain ⟨back, rfl⟩ := hfront
    exact h.first rfl

variable [DecidableEq α]

/-- The text without separators at its ends. -/
def trimEnds (sep : α) (text : List α) : List α :=
  (text.dropWhile (· = sep)).rdropWhile (· = sep)

/-- Words of kept characters, none of them empty, with one separator between any two. -/
def isSlug (keep : α → Bool) (sep : α) (text : List α) : Bool :=
  (splitOn sep text).all fun word => !word.isEmpty && word.all keep

theorem Begun.rdropWhile (h : Begun keep sep text) :
    Tidy keep sep (text.rdropWhile (· = sep)) where
  toBegun := h.of_front (List.rdropWhile_prefix _ _)
  last hlast := by
    obtain ⟨front, hfront⟩ := List.getLast?_eq_some_iff.mp hlast
    have hne : text.rdropWhile (· = sep) ≠ [] := by
      rw [hfront]
      exact List.append_ne_nil_of_right_ne_nil _ (List.cons_ne_nil _ _)
    have hnot := List.rdropWhile_last_not (fun a => decide (a = sep)) text hne
    simp only [hfront, List.getLast_append_singleton, decide_true, not_true_eq_false] at hnot

theorem tidy_trimEnds_collapse (hsep : keep sep = false) (text : List α) :
    Tidy keep sep (trimEnds sep (collapse keep sep false text)) := by
  refine Begun.rdropWhile ⟨fun a ha => ?_, ?_, fun hfirst => ?_⟩
  · exact mem_collapse ((List.dropWhile_suffix _).subset ha)
  · exact (collapse_chain hsep false text).1.suffix (List.dropWhile_suffix _)
  · have hnot := List.head?_dropWhile_not (fun a => decide (a = sep))
      (collapse keep sep false text)
    rw [hfirst] at hnot
    simp at hnot

theorem Tidy.rdropWhile_eq (h : Tidy keep sep text) : text.rdropWhile (· = sep) = text := by
  refine List.rdropWhile_eq_self_iff.mpr fun hne hlast => h.last ?_
  rw [List.getLast?_eq_some_getLast hne, of_decide_eq_true hlast]

theorem Tidy.trimEnds_collapse (h : Tidy keep sep text) :
    trimEnds sep (collapse keep sep false text) = text := by
  have hdrop : text.dropWhile (fun a => decide (a = sep)) = text := by
    cases text with
    | nil => rfl
    | cons a rest =>
        refine List.dropWhile_cons_of_neg fun ha => h.first ?_
        rw [of_decide_eq_true ha]
        rfl
  have hcollapse : collapse keep sep false text = text :=
    collapse_of_single h.chars h.single nofun
  rw [hcollapse, trimEnds, hdrop, h.rdropWhile_eq]

theorem splitOn_append_sep (text other : List α) :
    splitOn sep (text ++ sep :: other) = splitOn sep text ++ splitOn sep other := by
  induction text with
  | nil => simp [splitOn]
  | cons a text ih =>
      rw [List.cons_append, splitOn, splitOn, ih]
      split
      · rfl
      · cases hpieces : splitOn sep text with
        | nil => exact absurd hpieces (splitOn_ne_nil sep text)
        | cons piece pieces => rfl

theorem isSlug_append (htext : isSlug keep sep text = true)
    (hother : isSlug keep sep other = true) :
    isSlug keep sep (text ++ sep :: other) = true := by
  rw [isSlug] at *
  rw [splitOn_append_sep, List.all_append, htext, hother, Bool.and_true]

theorem isSlug_of_all (hkeep : text.all keep = true) (hsep : keep sep = false) (hne : text ≠ []) :
    isSlug keep sep text = true := by
  have hword : sep ∉ text := fun hmem => by
    have := List.all_eq_true.mp hkeep sep hmem
    rw [hsep] at this
    cases this
  rw [isSlug, splitOn_of_notMem hword, List.all_cons, List.all_nil, hkeep]
  simpa using hne

/-- The word at the front, which a separator cuts off, and the words behind it. -/
theorem splitOn_of_single (hchars : ∀ a ∈ text, keep a = true ∨ a = sep)
    (hsingle : text.IsChain fun a b => a = sep → b ≠ sep) (hlast : text.getLast? ≠ some sep) :
    ∃ word words, splitOn sep text = word :: words ∧ word.all keep = true ∧
      (word = [] → text = [] ∨ text.head? = some sep) ∧
      words.all (fun word => !word.isEmpty && word.all keep) = true := by
  induction text with
  | nil => exact ⟨[], [], rfl, rfl, fun _ => Or.inl rfl, rfl⟩
  | cons a rest ih =>
      obtain ⟨ha, hrest⟩ := List.forall_mem_cons.mp hchars
      obtain ⟨hnext, hsingle⟩ := List.isChain_cons.mp hsingle
      have hrestLast : rest.getLast? ≠ some sep := fun h => hlast <| by
        rw [List.getLast?_cons, h]
        rfl
      obtain ⟨word, words, hsplit, hword, hempty, hwords⟩ := ih hrest hsingle hrestLast
      rw [splitOn, hsplit]
      by_cases hseparator : a = sep
      · have hne : rest ≠ [] := fun hnil => hlast (by rw [hnil, hseparator]; rfl)
        have hfull : word ≠ [] := fun hnil =>
          (hempty hnil).elim hne fun hhead => hnext sep hhead hseparator rfl
        refine ⟨[], word :: words, if_pos hseparator, rfl, fun _ => Or.inr ?_, ?_⟩
        · rw [hseparator]
          rfl
        · rw [List.all_cons, hword, hwords]
          simpa using hfull
      · refine ⟨a :: word, words, if_neg hseparator, ?_,
          fun hnil => absurd hnil (List.cons_ne_nil a word), hwords⟩
        rw [List.all_cons, hword, ha.resolve_right hseparator]
        rfl

theorem Tidy.isSlug (h : Tidy keep sep text) (hne : text ≠ []) : isSlug keep sep text = true := by
  obtain ⟨word, words, hsplit, hword, hempty, hwords⟩ :=
    splitOn_of_single h.chars h.single h.last
  have hfull : word ≠ [] := fun hnil => (hempty hnil).elim hne h.first
  rw [Text.isSlug, hsplit, List.all_cons, hword, hwords]
  simpa using hfull

/-- Cutting a tidy text leaves at most one separator to drop. -/
theorem Tidy.length_cut (h : Tidy keep sep text) {n : ℕ} (hlt : n < text.length) :
    ((text.take (n + 1)).rdropWhile (· = sep)).length =
      if text[n]? = some sep then n else n + 1 := by
  have hget : text[n]? = some text[n] := List.getElem?_eq_getElem hlt
  have htake : text.take (n + 1) = text.take n ++ [text[n]] := by
    rw [List.take_add_one, hget]
    rfl
  have hlength : (text.take n).length = n := List.length_take_of_le hlt.le
  rw [htake, List.rdropWhile_concat, hget]
  by_cases hsep : text[n] = sep
  · have hchain := h.single.take (n + 1)
    rw [htake, hsep] at hchain
    have hfront : Tidy keep sep (text.take n) :=
      { h.toBegun.of_front (List.take_prefix _ _) with
        last := fun hlast => by
          obtain ⟨front, hfront⟩ := List.getLast?_eq_some_iff.mp hlast
          rw [hfront, List.append_assoc] at hchain
          exact (List.isChain_append_cons_cons.mp hchain).2.1 rfl rfl }
    rw [if_pos (decide_eq_true hsep), if_pos (congrArg some hsep), hfront.rdropWhile_eq, hlength]
  · rw [if_neg (by simpa only [decide_eq_true_eq] using hsep), if_neg (by simpa using hsep),
      List.length_append, hlength, List.length_singleton]

end Orgistry.Text
