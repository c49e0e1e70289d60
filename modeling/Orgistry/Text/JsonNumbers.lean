import Orgistry.Text.JsonRoundTrip
import Orgistry.Text.JsonValue
import Mathlib.Data.List.TakeWhile
import Mathlib.Data.Rat.Floor

/-!
# Natural numbers in JSON

A natural number is read as it was printed.
-/

namespace Orgistry.Text.Json

theorem digitsValue_map {digits : List ℕ} (h : ∀ d ∈ digits, d < 10) :
    digitsValue (digits.reverse.map fun d => Char.ofNat (48 + d)) = Nat.ofDigits 10 digits := by
  have hdigit : ∀ d : Fin 10, (Char.ofNat (48 + d.val)).toNat - 48 = d.val := by decide
  unfold digitsValue
  rw [List.foldl_map, List.foldl_reverse]
  induction digits with
  | nil => rfl
  | cons d digits ih =>
      obtain ⟨hd, hdigits⟩ := List.forall_mem_cons.mp h
      have hvalue : (Char.ofNat (48 + d)).toNat - 48 = d := hdigit ⟨d, hd⟩
      rw [List.foldr_cons, ih hdigits, hvalue, Nat.ofDigits_cons, Nat.add_comm]

theorem digitsValue_decimal (n : ℕ) : digitsValue (decimal n) = n := by
  unfold decimal
  split
  · next h =>
      rw [h]
      rfl
  · rw [digitsValue_map fun d hd => Nat.digits_lt_base (by decide) hd, Nat.ofDigits_digits]

theorem decimal_eq_cons (n : ℕ) : ∃ c digits, decimal n = c :: digits ∧ c.isDigit := by
  obtain ⟨c, digits, h⟩ : ∃ c digits, decimal n = c :: digits := by
    rcases decimal_cases n with hzero | ⟨c, digits, h, -⟩
    · exact ⟨'0', [], hzero⟩
    · exact ⟨c, digits, h⟩
  exact ⟨c, digits, h, decimal_digits n c (by simp [h])⟩

theorem naturalOf_decimal (n : ℕ) : naturalOf (decimal n) = some n := by
  obtain ⟨c, digits, h, -⟩ := decimal_eq_cons n
  have hparse : parseDigits (decimal n) = some (decimal n, []) := by
    have hends : EndsNumber [] := nofun
    have hall := parseDigits_append (decimal_digits n) (by simp [h]) hends
    rwa [List.append_nil] at hall
  unfold naturalOf
  rw [hparse]
  simp [parseFraction, parseExponent, exponentValue, digitsValue_decimal]

/-- A natural number is printed as an integer. -/
theorem integerOf_decimal (n : ℕ) : integerOf (some (.number (decimal n))) = some (n : ℤ) := by
  obtain ⟨c, digits, h, hc⟩ := decimal_eq_cons n
  unfold integerOf
  split
  · next literal heq =>
      rw [h] at heq
      injection heq with heq
      injection heq with heq
      obtain ⟨rfl, -⟩ := List.cons.inj heq
      cases hc
  · next heq =>
      injection heq with heq
      injection heq with heq
      rw [← heq, naturalOf_decimal]
      rfl
  · next hno => exact absurd rfl (hno _)

def isExponentMark (c : Char) : Bool := c = 'e' || c = 'E'

/-- What a number stands for without its sign. -/
def magnitude (literal : List Char) : ℚ :=
  let digits := literal.takeWhile fun c => !isExponentMark c
  let whole := digits.takeWhile (· ≠ '.')
  let decimals := (digits.dropWhile (· ≠ '.')).drop 1
  let exponent := exponentValue (literal.dropWhile fun c => !isExponentMark c)
  digitsValue (whole ++ decimals) * 10 ^ (exponent - decimals.length)

theorem ne_of_isDigit {c d : Char} (hc : c.isDigit) (hd : d.isDigit = false) : c ≠ d := by
  rintro rfl
  rw [hc] at hd
  cases hd

theorem notMark_of_isDigit {c : Char} (hc : c.isDigit) : (!isExponentMark c) = true := by
  rw [Bool.not_eq_true', isExponentMark, Bool.or_eq_false_iff]
  exact ⟨decide_eq_false (ne_of_isDigit hc (by decide)),
    decide_eq_false (ne_of_isDigit hc (by decide))⟩

theorem magnitude_digits {digits : List Char} (h : ∀ c ∈ digits, c.isDigit) :
    magnitude digits = digitsValue digits := by
  have hmark : ∀ c ∈ digits, (!isExponentMark c) = true := fun c hc => notMark_of_isDigit (h c hc)
  have hpoint : ∀ c ∈ digits, decide (c ≠ '.') = true := fun c hc =>
    decide_eq_true (ne_of_isDigit (h c hc) (by decide))
  have hexponent : digits.dropWhile (fun c => !isExponentMark c) = [] :=
    List.dropWhile_eq_nil_iff.mpr hmark
  have hdecimals : digits.dropWhile (· ≠ '.') = [] := List.dropWhile_eq_nil_iff.mpr hpoint
  simp only [magnitude, List.takeWhile_eq_self_iff.mpr hmark, List.takeWhile_eq_self_iff.mpr hpoint,
    hexponent, hdecimals, List.drop_nil, List.append_nil, exponentValue, List.length_nil,
    Nat.cast_zero, sub_zero, zpow_zero, mul_one]

theorem magnitude_decimal (n : ℕ) : magnitude (decimal n) = n := by
  rw [magnitude_digits (decimal_digits n), digitsValue_decimal]

end Orgistry.Text.Json
