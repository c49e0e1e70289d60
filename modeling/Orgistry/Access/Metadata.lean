import Orgistry.Model.SecurityMetadata
import Mathlib.Data.Nat.Basic

/-!
# Sanitized metadata

The sanitizer's outputs are described by their shape at each depth, and values of that
shape are the ones it leaves alone.
-/

namespace Orgistry.Model.SecurityMetadata

open Text (CodeUnits codeUnits)

variable {P : Type} {toLowerCase : CodeUnits → CodeUnits} {depth level : ℕ} {text : CodeUnits}
  {value inner : Value P} {metadata : List (CodeUnits × Value P)}

/-- At most 1024 code units, or as many and the ellipsis. -/
def Short (text : CodeUnits) : Prop :=
  text.length ≤ 1024 ∨ ∃ front, front.length = 1024 ∧ text = front ++ [ellipsis]

/-- The key of an entry that stays. -/
def Stays (toLowerCase : CodeUnits → CodeUnits) (key : CodeUnits) : Prop :=
  isForbiddenKey toLowerCase key = false ∧ key ≠ codeUnits "__proto__"

/-- What a sanitized value at this depth looks like. -/
inductive Sanitized (toLowerCase : CodeUnits → CodeUnits) : ℕ → Value P → Prop
  | truncated {depth : ℕ} (h : maxDepth < depth) :
      Sanitized toLowerCase depth (.string truncatedText)
  | string {depth : ℕ} {text : CodeUnits} (h : depth ≤ maxDepth) (htext : Short text) :
      Sanitized toLowerCase depth (.string text)
  | array {depth : ℕ} {items : List (Value P)} (h : depth ≤ maxDepth)
      (hitems : ∀ item ∈ items, Sanitized toLowerCase (depth + 1) item) :
      Sanitized toLowerCase depth (.array items)
  | object {depth : ℕ} {entries : List (CodeUnits × Value P)} (h : depth ≤ maxDepth)
      (hkeys : ∀ entry ∈ entries, Stays toLowerCase entry.1)
      (hentries : ∀ entry ∈ entries, Sanitized toLowerCase (depth + 1) entry.2) :
      Sanitized toLowerCase depth (.object entries)
  | primitive {depth : ℕ} (h : depth ≤ maxDepth) (value : P) :
      Sanitized toLowerCase depth (.primitive value)

theorem short_sanitizeString (text : CodeUnits) : Short (sanitizeString text) := by
  unfold sanitizeString
  split
  · next hlong => exact Or.inr ⟨_, List.length_take_of_le (le_of_lt hlong), rfl⟩
  · next hshort => exact Or.inl (not_lt.mp hshort)

theorem sanitizeString_of_short (h : Short text) : sanitizeString text = text := by
  rcases h with hshort | ⟨front, hlength, rfl⟩
  · exact if_neg (not_lt.mpr hshort)
  · have hlong : maxStringLength < (front ++ [ellipsis]).length := by
      rw [List.length_append, hlength]
      decide
    have htake : (front ++ [ellipsis]).take maxStringLength = front := List.take_left' hlength
    rw [sanitizeString, if_pos hlong, htake]

theorem short_truncatedText : Short truncatedText := Or.inl (by decide)

mutual

/-- By induction on the value, with the depth that is left. -/
theorem sanitizeValue_sanitized (depth : ℕ) :
    ∀ value : Value P, Sanitized toLowerCase depth (sanitizeValue toLowerCase depth value)
  | .string text => by
      rw [sanitizeValue]
      split
      · next hdeep => exact .truncated hdeep
      · next hdepth => exact .string (not_lt.mp hdepth) (short_sanitizeString text)
  | .array items => by
      rw [sanitizeValue]
      split
      · next hdeep => exact .truncated hdeep
      · next hdepth => exact .array (not_lt.mp hdepth) (sanitizeItems_sanitized _ items)
  | .object entries => by
      rw [sanitizeValue]
      split
      · next hdeep => exact .truncated hdeep
      · next hdepth =>
          have hentries := sanitizeObject_sanitized (depth + 1) entries
          exact .object (not_lt.mp hdepth) (fun entry hentry => (hentries entry hentry).1)
            fun entry hentry => (hentries entry hentry).2
  | .primitive value => by
      rw [sanitizeValue]
      split
      · next hdeep => exact .truncated hdeep
      · next hdepth => exact .primitive (not_lt.mp hdepth) value

theorem sanitizeItems_sanitized (depth : ℕ) : ∀ items : List (Value P),
    ∀ item ∈ sanitizeItems toLowerCase depth items, Sanitized toLowerCase depth item
  | [] => fun _ hitem => absurd hitem List.not_mem_nil
  | first :: items => by
      rw [sanitizeItems, List.forall_mem_cons]
      exact ⟨sanitizeValue_sanitized depth first, sanitizeItems_sanitized depth items⟩

theorem sanitizeObject_sanitized (depth : ℕ) : ∀ entries : List (CodeUnits × Value P),
    ∀ entry ∈ sanitizeObject toLowerCase depth entries,
      Stays toLowerCase entry.1 ∧ Sanitized toLowerCase depth entry.2
  | [] => fun _ hentry => absurd hentry List.not_mem_nil
  | (key, value) :: entries => by
      rw [sanitizeObject]
      split
      · exact sanitizeObject_sanitized depth entries
      · next hkey =>
          split
          · exact sanitizeObject_sanitized depth entries
          · next hproto =>
              rw [List.forall_mem_cons]
              exact ⟨⟨⟨Bool.not_eq_true _ ▸ hkey, hproto⟩, sanitizeValue_sanitized depth value⟩,
                sanitizeObject_sanitized depth entries⟩

end

theorem sanitizeItems_of_forall {items : List (Value P)}
    (h : ∀ item ∈ items, sanitizeValue toLowerCase depth item = item) :
    sanitizeItems toLowerCase depth items = items := by
  induction items with
  | nil => rfl
  | cons item items ih =>
      rw [List.forall_mem_cons] at h
      rw [sanitizeItems, h.1, ih h.2]

theorem sanitizeObject_of_forall (hkeys : ∀ entry ∈ metadata, Stays toLowerCase entry.1)
    (h : ∀ entry ∈ metadata, sanitizeValue toLowerCase depth entry.2 = entry.2) :
    sanitizeObject toLowerCase depth metadata = metadata := by
  induction metadata with
  | nil => rfl
  | cons entry entries ih =>
      obtain ⟨key, value⟩ := entry
      rw [List.forall_mem_cons] at hkeys h
      rw [sanitizeObject, if_neg (by rw [hkeys.1.1]; exact Bool.false_ne_true), if_neg hkeys.1.2,
        h.1, ih hkeys.2 h.2]

theorem sanitizeValue_of_sanitized (h : Sanitized toLowerCase depth value) :
    sanitizeValue toLowerCase depth value = value := by
  induction h with
  | truncated h => rw [sanitizeValue, if_pos h]
  | string h htext => rw [sanitizeValue, if_neg (not_lt.mpr h), sanitizeString_of_short htext]
  | array h _ ih => rw [sanitizeValue, if_neg (not_lt.mpr h), sanitizeItems_of_forall ih]
  | object h hkeys _ ih =>
      rw [sanitizeValue, if_neg (not_lt.mpr h), sanitizeObject_of_forall hkeys ih]
  | primitive h value => rw [sanitizeValue, if_neg (not_lt.mpr h)]

/-- `inner` occurs in `value` inside of so many arrays and objects. -/
inductive Occurs (inner : Value P) : ℕ → Value P → Prop
  | here : Occurs inner 0 inner
  | item {level : ℕ} {items : List (Value P)} {item : Value P} (hitem : item ∈ items)
      (h : Occurs inner level item) : Occurs inner (level + 1) (.array items)
  | entry {level : ℕ} {entries : List (CodeUnits × Value P)} {key : CodeUnits} {item : Value P}
      (hitem : (key, item) ∈ entries) (h : Occurs inner level item) :
      Occurs inner (level + 1) (.object entries)

theorem Sanitized.occurs (h : Sanitized toLowerCase depth value)
    (hinner : Occurs inner level value) :
    Sanitized toLowerCase (depth + level) inner := by
  induction hinner generalizing depth with
  | here => exact h
  | item hitem _ ih =>
      cases h with
      | array _ hitems =>
          have := ih (hitems _ hitem)
          rwa [Nat.add_right_comm] at this
  | entry hitem _ ih =>
      cases h with
      | object _ _ hentries =>
          have := ih (hentries _ hitem)
          rwa [Nat.add_right_comm] at this

theorem Sanitized.truncated_of_deep (h : Sanitized toLowerCase depth value)
    (hdeep : maxDepth < depth) : value = .string truncatedText := by
  cases h with
  | truncated _ => rfl
  | string h _ => exact absurd hdeep (not_lt.mpr h)
  | array h _ => exact absurd hdeep (not_lt.mpr h)
  | object h _ _ => exact absurd hdeep (not_lt.mpr h)
  | primitive h _ => exact absurd hdeep (not_lt.mpr h)

theorem Sanitized.short (h : Sanitized toLowerCase depth (.string text : Value P)) :
    Short text := by
  cases h with
  | truncated _ => exact short_truncatedText
  | string _ htext => exact htext

theorem Sanitized.keys (h : Sanitized toLowerCase depth (.object metadata)) :
    ∀ entry ∈ metadata, isForbiddenKey toLowerCase entry.1 = false := by
  cases h with
  | object _ hkeys _ => exact fun entry hentry => (hkeys entry hentry).1

theorem sanitizeSecurityMetadata_sanitized (metadata : List (CodeUnits × Value P)) :
    Sanitized toLowerCase 0 (.object (sanitizeSecurityMetadata toLowerCase metadata)) :=
  have hentries := sanitizeObject_sanitized 1 metadata
  .object (Nat.zero_le _) (fun entry hentry => (hentries entry hentry).1)
    fun entry hentry => (hentries entry hentry).2

/-- No object in an output has a forbidden key, what lies deeper than the bound is the
marker, its strings are short, and sanitizing it again, also when it is read, gives it
back. -/
theorem sanitizeSecurityMetadata_sound (toLowerCase : CodeUnits → CodeUnits)
    (metadata : List (CodeUnits × Value P)) :
    let output := sanitizeSecurityMetadata toLowerCase metadata
    (∀ level inner, Occurs inner level (.object output) →
      (∀ entries, inner = .object entries →
        ∀ entry ∈ entries, isForbiddenKey toLowerCase entry.1 = false) ∧
      (maxDepth < level → inner = .string truncatedText) ∧
      ∀ text, inner = .string text → Short text) ∧
    sanitizeSecurityMetadata toLowerCase output = output ∧
    auditMetadata toLowerCase (some output) = output := by
  intro output
  have hsanitized : Sanitized toLowerCase 0 (.object output) :=
    sanitizeSecurityMetadata_sanitized metadata
  have hagain : sanitizeSecurityMetadata toLowerCase output = output := by
    have hvalue := sanitizeValue_of_sanitized hsanitized
    rw [sanitizeValue, if_neg (by decide)] at hvalue
    exact Value.object.inj hvalue
  refine ⟨fun level inner hoccurs => ?_, hagain, hagain⟩
  have hinner := hsanitized.occurs hoccurs
  rw [Nat.zero_add] at hinner
  refine ⟨?_, hinner.truncated_of_deep, ?_⟩
  · rintro entries rfl
    exact hinner.keys
  · rintro text rfl
    exact hinner.short

end Orgistry.Model.SecurityMetadata
