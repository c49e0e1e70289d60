import Mathlib.Order.Basic
import Mathlib.Tactic.Common

/-!
# Lower case

The lower case of texts, of which only the ASCII part is spelled out.
-/

namespace Orgistry.Text

/-- `toLowerCase`: ASCII letters are mapped as usual, and of the other characters only the
Kelvin sign becomes an ASCII text, the letter `k`. -/
structure LowerCase where
  lower : List Char → List Char
  ascii : ∀ text : List Char, (∀ c ∈ text, c.toNat < 128) → lower text = text.map Char.toLower
  beyond : ∀ text : List Char, (∃ c ∈ text, 128 ≤ c.toNat) →
    ∃ d ∈ lower text, 128 ≤ d.toNat ∨ d = 'k'

variable (lowerCase : LowerCase) {text target : List Char}

theorem toLower_of_long {c : Char} (h : 128 ≤ c.toNat) : c.toLower = c := by
  unfold Char.toLower
  rw [dif_neg]
  intro hupper
  have hle : c.toNat ≤ 90 := hupper.2
  omega

/-- The texts whose lower case is a given ASCII text without the letter `k`. -/
theorem LowerCase.lower_eq_iff (h : ∀ d ∈ target, d.toNat < 128 ∧ d ≠ 'k') :
    lowerCase.lower text = target ↔ text.map Char.toLower = target := by
  by_cases hascii : ∀ c ∈ text, c.toNat < 128
  · rw [lowerCase.ascii text hascii]
  · simp only [not_forall, Nat.not_lt] at hascii
    obtain ⟨c, hc, hlong⟩ := hascii
    refine iff_of_false ?_ ?_
    · rintro rfl
      obtain ⟨d, hd, hbeyond⟩ := lowerCase.beyond text ⟨c, hc, hlong⟩
      have hshort := h d hd
      exact hbeyond.elim (Nat.not_le.mpr hshort.1) hshort.2
    · rintro rfl
      have hshort := (h _ (List.mem_map_of_mem hc)).1
      rw [toLower_of_long hlong] at hshort
      exact Nat.not_le.mpr hshort hlong

/-- Only ASCII letters and the Kelvin sign have a lower case. -/
def asciiLowerCase : LowerCase where
  lower text := text.map fun c => if c.toNat = 0x212A then 'k' else c.toLower
  ascii text h := List.map_congr_left fun c hc => if_neg (by have := h c hc; omega)
  beyond text h := by
    obtain ⟨c, hc, hlong⟩ := h
    refine ⟨_, List.mem_map_of_mem hc, ?_⟩
    split
    · exact Or.inr rfl
    · rw [toLower_of_long hlong]
      exact Or.inl hlong

end Orgistry.Text
