import Mathlib.Data.Nat.Notation
import Mathlib.Tactic.Common

/-!
# UTF-8

Encoding of characters and the decoder that replaces what is not UTF-8, as a
machine that takes one byte after the other.  Decoding undoes encoding.
-/

namespace Orgistry.Text

abbrev Byte := Fin 256

/-- The byte of a number below 256. -/
def byte (n : ℕ) : Byte := Fin.ofNat 256 n

theorem val_byte {n : ℕ} (h : n < 256) : (byte n).val = n := Nat.mod_eq_of_lt h

def encodeChar (c : Char) : List Byte :=
  let n := c.toNat
  if n < 0x80 then [byte n]
  else if n < 0x800 then [byte (0xC0 + n / 64), byte (0x80 + n % 64)]
  else if n < 0x10000 then
    [byte (0xE0 + n / 4096), byte (0x80 + n / 64 % 64), byte (0x80 + n % 64)]
  else
    [byte (0xF0 + n / 262144), byte (0x80 + n / 4096 % 64), byte (0x80 + n / 64 % 64),
      byte (0x80 + n % 64)]

def encodeUtf8 (text : List Char) : List Byte := text.flatMap encodeChar

/-- How many bytes of the character are to come, what the ones before say, and
the bounds of the next one. -/
structure Utf8State where
  needed : ℕ
  codePoint : ℕ
  lower : ℕ
  upper : ℕ
  deriving DecidableEq

namespace Utf8State

def initial : Utf8State := ⟨0, 0, 0x80, 0xBF⟩

def replacement : Char := Char.ofNat 0xFFFD

/-- The first byte of a character. -/
def lead (b : ℕ) : List Char × Utf8State :=
  if b < 0x80 then ([Char.ofNat b], initial)
  else if 0xC2 ≤ b ∧ b ≤ 0xDF then ([], ⟨1, b - 0xC0, 0x80, 0xBF⟩)
  else if 0xE0 ≤ b ∧ b ≤ 0xEF then
    ([], ⟨2, b - 0xE0, if b = 0xE0 then 0xA0 else 0x80, if b = 0xED then 0x9F else 0xBF⟩)
  else if 0xF0 ≤ b ∧ b ≤ 0xF4 then
    ([], ⟨3, b - 0xF0, if b = 0xF0 then 0x90 else 0x80, if b = 0xF4 then 0x8F else 0xBF⟩)
  else ([replacement], initial)

def step (state : Utf8State) (b : ℕ) : List Char × Utf8State :=
  if state.needed = 0 then lead b
  else if state.lower ≤ b ∧ b ≤ state.upper then
    let codePoint := state.codePoint * 64 + (b - 0x80)
    if state.needed = 1 then ([Char.ofNat codePoint], initial)
    else ([], ⟨state.needed - 1, codePoint, 0x80, 0xBF⟩)
  else (replacement :: (lead b).1, (lead b).2)

def run : Utf8State → List Byte → List Char
  | state, [] => if state.needed = 0 then [] else [replacement]
  | state, b :: rest => (state.step b).1 ++ run (state.step b).2 rest

end Utf8State

def decodeUtf8 (bytes : List Byte) : List Char := Utf8State.initial.run bytes

section RoundTrip

open Utf8State

theorem char_bounds (c : Char) :
    c.toNat < 0xD800 ∨ (0xDFFF < c.toNat ∧ c.toNat < 0x110000) := by
  have hvalid := c.valid
  simp only [UInt32.isValidChar, Nat.isValidChar] at hvalid
  exact hvalid

theorem run_cons (state : Utf8State) (b : Byte) (rest : List Byte) :
    state.run (b :: rest) = (state.step b).1 ++ (state.step b).2.run rest := rfl

theorem step_initial (b : ℕ) : initial.step b = lead b := rfl

theorem lead_one {k : ℕ} (h : k < 0x80) : initial.step k = ([Char.ofNat k], initial) := by
  rw [step_initial, lead, if_pos h]

theorem lead_two {k : ℕ} (hlow : 2 ≤ k) (hhigh : k ≤ 31) :
    initial.step (0xC0 + k) = ([], ⟨1, k, 0x80, 0xBF⟩) := by
  rw [step_initial, lead, if_neg (by omega), if_pos (by omega), Nat.add_sub_cancel_left]

theorem lead_three {k : ℕ} (h : k ≤ 15) : initial.step (0xE0 + k) =
    ([], ⟨2, k, if k = 0 then 0xA0 else 0x80, if k = 13 then 0x9F else 0xBF⟩) := by
  have hfirst : 0xE0 + k = 0xE0 ↔ k = 0 := by omega
  have hsurrogates : 0xE0 + k = 0xED ↔ k = 13 := by omega
  rw [step_initial, lead, if_neg (by omega), if_neg (by omega), if_pos (by omega),
    Nat.add_sub_cancel_left]
  simp only [hfirst, hsurrogates]

theorem lead_four {k : ℕ} (h : k ≤ 4) : initial.step (0xF0 + k) =
    ([], ⟨3, k, if k = 0 then 0x90 else 0x80, if k = 4 then 0x8F else 0xBF⟩) := by
  have hfirst : 0xF0 + k = 0xF0 ↔ k = 0 := by omega
  have hlast : 0xF0 + k = 0xF4 ↔ k = 4 := by omega
  rw [step_initial, lead, if_neg (by omega), if_neg (by omega), if_neg (by omega),
    if_pos (by omega), Nat.add_sub_cancel_left]
  simp only [hfirst, hlast]

theorem step_last {k codePoint lower upper : ℕ} (hlower : lower ≤ 0x80 + k)
    (hupper : 0x80 + k ≤ upper) : step ⟨1, codePoint, lower, upper⟩ (0x80 + k) =
      ([Char.ofNat (codePoint * 64 + k)], initial) := by
  simp only [step, Nat.one_ne_zero, if_false, hlower, hupper, and_self, if_true,
    Nat.add_sub_cancel_left]

theorem step_more {k codePoint lower upper needed : ℕ} (hlower : lower ≤ 0x80 + k)
    (hupper : 0x80 + k ≤ upper) : step ⟨needed + 2, codePoint, lower, upper⟩ (0x80 + k) =
      ([], ⟨needed + 1, codePoint * 64 + k, 0x80, 0xBF⟩) := by
  simp only [step, hlower, hupper, and_self, if_true, Nat.add_sub_cancel_left]
  simp

/-- After the bytes of a character the machine is where it was before. -/
theorem run_encodeChar (c : Char) (rest : List Byte) :
    initial.run (encodeChar c ++ rest) = c :: initial.run rest := by
  have hbounds := char_bounds c
  have hc : Char.ofNat c.toNat = c := Char.ofNat_toNat c
  generalize hn : c.toNat = n at hbounds hc
  unfold encodeChar
  simp only [hn]
  split
  · next h =>
      rw [List.singleton_append, run_cons, val_byte (by omega), lead_one h, hc]
      rfl
  · split
    · next h =>
        simp only [List.cons_append, List.nil_append, run_cons]
        rw [val_byte (by omega), val_byte (by omega), lead_two (by omega) (by omega),
          step_last (by omega) (by omega), show n / 64 * 64 + n % 64 = n by omega, hc]
        rfl
    · split
      · next h =>
          simp only [List.cons_append, List.nil_append, run_cons]
          rw [val_byte (by omega), val_byte (by omega), val_byte (by omega),
            lead_three (by omega)]
          rw [step_more (by split <;> omega) (by split <;> omega),
            step_last (by omega) (by omega),
            show (n / 4096 * 64 + n / 64 % 64) * 64 + n % 64 = n by omega, hc]
          rfl
      · next h =>
          simp only [List.cons_append, List.nil_append, run_cons]
          rw [val_byte (by omega), val_byte (by omega), val_byte (by omega),
            val_byte (by omega), lead_four (by omega)]
          rw [step_more (by split <;> omega) (by split <;> omega),
            step_more (by omega) (by omega), step_last (by omega) (by omega),
            show ((n / 262144 * 64 + n / 4096 % 64) * 64 + n / 64 % 64) * 64 + n % 64 = n by
              omega, hc]
          rfl

theorem decodeUtf8_encodeUtf8 (text : List Char) : decodeUtf8 (encodeUtf8 text) = text := by
  unfold decodeUtf8 encodeUtf8
  induction text with
  | nil => rfl
  | cons c text ih => rw [List.flatMap_cons, run_encodeChar, ih]

end RoundTrip

end Orgistry.Text
