import Mathlib.Algebra.Order.Ring.Nat
import Mathlib.Tactic.Common

/-!
# Draining a queue in capped batches

A loop takes batches off the front of a queue until one comes back short, the cap
is reached or a batch fails.  What goes is a prefix of the queue, cut at the cap or
at the first batch that fails.
-/

namespace Orgistry.Batching

variable {α F : Type}

inductive Ending (F : Type)
  | drained
  | capped
  | failed (failure : F)

/-- The batch with that number. -/
def nthBatch (size : ℕ) (queue : List α) (k : ℕ) : List α := (queue.drop (k * size)).take size

/-- What goes and how the loop ends, with the batches that are left until the cap and
the number of the next one.  A batch that fails takes nothing. -/
def drain (fails : ℕ → List α → Option F) (size : ℕ) : ℕ → ℕ → List α → List α × Ending F
  | 0, _, _ => ([], .capped)
  | left + 1, batch, queue =>
      match fails batch (queue.take size) with
      | some failure => ([], .failed failure)
      | none =>
          if (queue.take size).length < size then (queue.take size, .drained)
          else
            let (gone, ending) := drain fails size left (batch + 1) (queue.drop size)
            (queue.take size ++ gone, ending)

section

variable {fails : ℕ → List α → Option F} {size : ℕ}

@[simp]
theorem nthBatch_zero (queue : List α) : nthBatch size queue 0 = queue.take size := by
  simp [nthBatch]

theorem nthBatch_succ (queue : List α) (k : ℕ) :
    nthBatch size queue (k + 1) = nthBatch size (queue.drop size) k := by
  rw [nthBatch, nthBatch, List.drop_drop, Nat.add_comm size, Nat.succ_mul]

theorem reached_of_mem_nthBatch {queue : List α} {k : ℕ} {a : α}
    (h : a ∈ nthBatch size queue k) : k * size ≤ queue.length := by
  have hdrop := List.length_pos_of_mem (List.mem_of_mem_take h)
  rw [List.length_drop] at hdrop
  omega

/-- What is in one of the first batches. -/
theorem mem_take_mul_iff {queue : List α} {a : α} {n : ℕ} :
    a ∈ queue.take (n * size) ↔ ∃ k < n, a ∈ nthBatch size queue k := by
  induction n with
  | zero => simp
  | succ n ih =>
      rw [Nat.succ_mul, List.take_add, List.mem_append, ih]
      simp only [Nat.lt_succ_iff_lt_or_eq, or_and_right, exists_or, exists_eq_left]
      rfl

/-- The first batch that fails ends the loop. -/
structure FailsAt (fails : ℕ → List α → Option F) (size left batch : ℕ) (queue : List α) (k : ℕ)
    (failure : F) : Prop where
  within : k < left
  reached : k * size ≤ queue.length
  failing : fails (batch + k) (nthBatch size queue k) = some failure
  first : ∀ j < k, fails (batch + j) (nthBatch size queue j) = none

/-- No batch fails before the loop ends. -/
def NoneFails (fails : ℕ → List α → Option F) (size left batch : ℕ) (queue : List α) : Prop :=
  ∀ k < left, k * size ≤ queue.length → fails (batch + k) (nthBatch size queue k) = none

theorem FailsAt.succ {left batch : ℕ} {queue : List α} {k : ℕ} {failure : F}
    (hnone : fails batch (queue.take size) = none) (hlong : size ≤ queue.length)
    (h : FailsAt fails size left (batch + 1) (queue.drop size) k failure) :
    FailsAt fails size (left + 1) batch queue (k + 1) failure where
  within := Nat.succ_lt_succ h.within
  reached := by
    have hreached := h.reached
    rw [List.length_drop] at hreached
    rw [Nat.succ_mul]
    omega
  failing := by
    rw [nthBatch_succ, ← h.failing, Nat.add_right_comm, Nat.add_assoc]
  first j hj := by
    cases j with
    | zero => simpa using hnone
    | succ j =>
        rw [nthBatch_succ, ← h.first j (Nat.lt_of_succ_lt_succ hj), Nat.add_right_comm,
          Nat.add_assoc]

theorem NoneFails.succ {left batch : ℕ} {queue : List α}
    (hnone : fails batch (queue.take size) = none)
    (h : size ≤ queue.length → NoneFails fails size left (batch + 1) (queue.drop size)) :
    NoneFails fails size (left + 1) batch queue := by
  intro k hk hreached
  cases k with
  | zero => simpa using hnone
  | succ k =>
      rw [Nat.succ_mul] at hreached
      have hnext := h (by omega) k (Nat.lt_of_succ_lt_succ hk) (by rw [List.length_drop]; omega)
      rw [nthBatch_succ, ← hnext, Nat.add_right_comm, Nat.add_assoc]

/-- Either some batch is the first one to fail, and what came before it goes, or
everything goes as far as the cap allows. -/
theorem drain_cases (fails : ℕ → List α → Option F) (size left batch : ℕ) (queue : List α) :
    (∃ k failure, FailsAt fails size left batch queue k failure ∧
      drain fails size left batch queue = (queue.take (k * size), .failed failure)) ∨
    NoneFails fails size left batch queue ∧
      (drain fails size left batch queue).1 = queue.take (left * size) ∧
      ∀ failure, (drain fails size left batch queue).2 ≠ .failed failure := by
  induction left generalizing batch queue with
  | zero =>
      exact .inr ⟨fun k hk => absurd hk (Nat.not_lt_zero k), by simp [drain], by simp [drain]⟩
  | succ left ih =>
      rw [drain]
      split
      · next failure hfails =>
          refine .inl ⟨0, failure, ⟨Nat.succ_pos left, by simp, by simpa using hfails, ?_⟩, by simp⟩
          exact fun j hj => absurd hj (Nat.not_lt_zero j)
      · next hnone =>
          split
          · next hshort =>
              rw [List.length_take] at hshort
              refine .inr ⟨.succ hnone (fun hlong => by omega), ?_, nofun⟩
              have hall : queue.length ≤ (left + 1) * size := by
                rw [Nat.succ_mul]
                omega
              rw [List.take_of_length_le hall, List.take_of_length_le (by omega)]
          · next hfull =>
              have hlong : size ≤ queue.length := by
                rw [List.length_take] at hfull
                omega
              have hsplit (k : ℕ) : queue.take size ++ (queue.drop size).take (k * size) =
                  queue.take ((k + 1) * size) := by
                rw [Nat.succ_mul, Nat.add_comm, List.take_add]
              rcases ih (batch + 1) (queue.drop size) with ⟨k, failure, hfails, hdrain⟩ | hrest
              · refine .inl ⟨k + 1, failure, hfails.succ hnone hlong, ?_⟩
                rw [hdrain, ← hsplit]
              · obtain ⟨hnoneFails, hgone, hending⟩ := hrest
                refine .inr ⟨.succ hnone (fun _ => hnoneFails), ?_, hending⟩
                rw [← hsplit, ← hgone]

end

end Orgistry.Batching
