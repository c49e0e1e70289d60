import Mathlib.Algebra.Order.Group.Defs
import Mathlib.Data.Int.Order.Basic
import Mathlib.Tactic.Common

/-!
# Fixed windows

A counter of hits that starts anew with the first hit at or after its reset, and a limit
on the count.  In an interval as long as a window there are hits of two windows at most,
so that twice the limit bounds what it admits.
-/

namespace Orgistry.FixedWindow

variable {T : Type} [LinearOrder T]

/-- The hits so far, and the time from which on they no longer count. -/
structure Window (T : Type) where
  count : ℤ
  resetAt : T

/-- How many hits of the interval may still be admitted: those that the window leaves and,
when it ends within the interval, those of the next one. -/
def allowance (start stop : T) (limit : ℤ) : Option (Window T) → ℕ
  | none => 2 * limit.toNat
  | some window =>
      if window.resetAt ≤ start then 2 * limit.toNat
      else (limit - window.count).toNat + if window.resetAt < stop then limit.toNat else 0

section Allowance

variable {start stop now : T} {limit : ℤ}

theorem allowance_some (w : Window T) : allowance start stop limit (some w) =
    if w.resetAt ≤ start then 2 * limit.toNat
    else (limit - w.count).toNat + if w.resetAt < stop then limit.toNat else 0 := rfl

/-- A hit in a window that has begun. -/
theorem allowance_running {w : Window T} (hreset : now < w.resetAt) :
    (if start ≤ now ∧ now < stop ∧ w.count + 1 ≤ limit then 1 else 0) +
      allowance start stop limit (some { w with count := w.count + 1 }) ≤
        allowance start stop limit (some w) := by
  simp only [allowance_some]
  by_cases hstart : w.resetAt ≤ start
  · rw [if_pos hstart, if_pos hstart,
      if_neg fun hin => absurd (hstart.trans hin.1) (not_le.mpr hreset)]
    omega
  · rw [if_neg hstart, if_neg hstart]
    by_cases hlimit : start ≤ now ∧ now < stop ∧ w.count + 1 ≤ limit
    · rw [if_pos hlimit]
      have := hlimit.2.2
      omega
    · rw [if_neg hlimit]
      omega

end Allowance

variable [AddCommGroup T]

/-- The window after a hit. -/
def hit (length now : T) : Option (Window T) → Window T
  | none => ⟨1, now + length⟩
  | some window =>
      if window.resetAt ≤ now then ⟨1, now + length⟩ else { window with count := window.count + 1 }

/-- The hits from `start` on and before `stop` whose count is within the limit. -/
def admitted (length start stop : T) (limit : ℤ) : Option (Window T) → List T → ℕ
  | _, [] => 0
  | window, now :: times =>
      (if start ≤ now ∧ now < stop ∧ (hit length now window).count ≤ limit then 1 else 0) +
        admitted length start stop limit (some (hit length now window)) times

section Bound

variable {length start stop now : T} {limit : ℤ} {window : Option (Window T)} {times : List T}

theorem admitted_of_stop_le (h : ∀ time ∈ times, stop ≤ time) :
    admitted length start stop limit window times = 0 := by
  induction times generalizing window with
  | nil => rfl
  | cons now times ih =>
      obtain ⟨hnow, htimes⟩ := List.forall_mem_cons.mp h
      rw [admitted, if_neg fun hin => absurd hin.2.1 (not_lt.mpr hnow), ih htimes]

variable [IsOrderedAddMonoid T]

/-- A hit that starts a window. -/
theorem allowance_fresh (hlength : 0 < length) (hstop : stop = start + length)
    (hold : limit.toNat ≤ allowance start stop limit window)
    (hbefore : now < start → allowance start stop limit window = 2 * limit.toNat) :
    (if start ≤ now ∧ now < stop ∧ (1 : ℤ) ≤ limit then 1 else 0) +
      allowance start stop limit (some ⟨1, now + length⟩) ≤ allowance start stop limit window := by
  by_cases hstart : start ≤ now
  · have hend : stop ≤ now + length := by
      rw [hstop]
      exact add_le_add_left hstart length
    have hafter : ¬now + length ≤ start := by
      refine not_le.mpr (lt_of_lt_of_le ?_ hend)
      rw [hstop]
      exact lt_add_of_pos_right start hlength
    simp only [allowance_some, if_neg hafter, if_neg (not_lt.mpr hend)]
    split <;> omega
  · have hend : now + length < stop := by
      rw [hstop]
      exact add_lt_add_left (not_le.mp hstart) length
    rw [if_neg fun hin => hstart hin.1, hbefore (not_le.mp hstart)]
    simp only [allowance_some, if_pos hend]
    split <;> omega

/-- An interval admits what its windows allow, by induction on the times of the hits. -/
theorem admitted_le_allowance (hlength : 0 < length) (hstop : stop = start + length)
    (hsorted : times.Pairwise (· ≤ ·)) :
    admitted length start stop limit window times ≤ allowance start stop limit window := by
  induction times generalizing window with
  | nil => exact Nat.zero_le _
  | cons now times ih =>
      obtain ⟨hlater, hsorted⟩ := List.pairwise_cons.mp hsorted
      by_cases hnow : now < stop
      · rw [admitted]
        refine (Nat.add_le_add_left (ih hsorted) _).trans ?_
        cases window with
        | none =>
            refine allowance_fresh hlength hstop ?_ fun _ => rfl
            rw [allowance]
            omega
        | some w =>
            by_cases hreset : w.resetAt ≤ now
            · rw [hit, if_pos hreset]
              refine allowance_fresh hlength hstop ?_ fun hstart => ?_
              · rw [allowance_some, if_pos (hreset.trans_lt hnow)]
                split <;> omega
              · rw [allowance_some, if_pos (hreset.trans hstart.le)]
            · rw [hit, if_neg hreset]
              exact allowance_running (not_le.mp hreset)
      · have hpast : ∀ time ∈ now :: times, stop ≤ time :=
          List.forall_mem_cons.mpr ⟨not_lt.mp hnow, fun time htime =>
            (not_lt.mp hnow).trans (hlater time htime)⟩
        rw [admitted_of_stop_le hpast]
        exact Nat.zero_le _

/-- Hits that start without a window. -/
theorem admitted_le (hlength : 0 < length) (hsorted : times.Pairwise (· ≤ ·)) :
    admitted length start (start + length) limit none times ≤ 2 * limit.toNat :=
  admitted_le_allowance hlength rfl hsorted

end Bound

end Orgistry.FixedWindow
