import Mathlib.Data.Int.Log
import Mathlib.Data.Rat.Floor
import Mathlib.Tactic.Linarith
import Mathlib.Tactic.Positivity

/-!
# Rounding to binary formats

A rational number to the nearest integer, the even one of two, and a magnitude to the
nearest number of a binary format without an upper bound.
-/

namespace Orgistry.Numbers

def roundEven (x : ℚ) : ℤ :=
  if x < ⌊x⌋ + 1 / 2 ∨ x = ⌊x⌋ + 1 / 2 ∧ Even ⌊x⌋ then ⌊x⌋ else ⌊x⌋ + 1

section

variable {x : ℚ} {n : ℤ}

theorem floor_le_roundEven (x : ℚ) : ⌊x⌋ ≤ roundEven x := by
  unfold roundEven
  split
  · exact le_rfl
  · exact Int.le_add_one le_rfl

theorem le_roundEven (h : (n : ℚ) ≤ x) : n ≤ roundEven x :=
  (Int.le_floor.mpr h).trans (floor_le_roundEven x)

theorem roundEven_le_iff (heven : Even n) : roundEven x ≤ n ↔ x ≤ n + 1 / 2 := by
  have hlow := Int.floor_le x
  have hhigh := Int.lt_floor_add_one x
  unfold roundEven
  split
  · next hdown =>
      refine ⟨fun hle => ?_, fun hle => ?_⟩
      · have hcast : (⌊x⌋ : ℚ) ≤ n := by exact_mod_cast hle
        rcases hdown with hlt | ⟨heq, -⟩ <;> linarith
      · have hcast : (⌊x⌋ : ℚ) < n + 1 := by linarith
        exact Int.lt_add_one_iff.mp (by exact_mod_cast hcast)
  · next hup =>
      obtain ⟨hge, htie⟩ := not_or.mp hup
      refine ⟨fun hle => ?_, fun hle => ?_⟩
      · have hcast : (⌊x⌋ : ℚ) + 1 ≤ n := by exact_mod_cast hle
        linarith
      · have hcast : (⌊x⌋ : ℚ) ≤ n := by linarith
        have hne : ⌊x⌋ ≠ n := by
          rintro rfl
          exact htie ⟨le_antisymm hle (not_lt.mp hge), heven⟩
        exact Int.add_one_le_iff.mpr (lt_of_le_of_ne (by exact_mod_cast hcast) hne)

theorem roundEven_intCast (n : ℤ) : roundEven n = n := by
  rw [roundEven, Int.floor_intCast, if_pos (Or.inl (by linarith))]

theorem roundEven_le (h : x ≤ n) : roundEven x ≤ n := by
  have hlow := Int.floor_le x
  rcases h.eq_or_lt with rfl | hlt
  · exact (roundEven_intCast n).le
  · have hfloor : ⌊x⌋ + 1 ≤ n := Int.add_one_le_iff.mpr (Int.floor_lt.mpr hlt)
    unfold roundEven
    split
    · omega
    · exact hfloor

end

/-- The digits of a significand and the least exponent of its last one. -/
structure Format where
  precision : ℕ
  minExponent : ℤ

def Format.binary64 : Format := ⟨53, -1074⟩

namespace Format

variable (format : Format)

/-- The exponent of the last digit of a magnitude's significand. -/
def exponent (x : ℚ) : ℤ := max (Int.log 2 x - (format.precision - 1)) format.minExponent

def nearest (x : ℚ) : ℚ := roundEven (x / 2 ^ format.exponent x) * 2 ^ format.exponent x

variable {format} {x : ℚ} {e : ℤ}

theorem zpow_eq_mul {low : ℤ} (h : low ≤ e) :
    ∃ n : ℕ, (2 : ℚ) ^ e = ((2 ^ n : ℤ) : ℚ) * 2 ^ low := by
  obtain ⟨n, rfl⟩ := Int.le.dest h
  refine ⟨n, ?_⟩
  rw [zpow_add₀ two_ne_zero, mul_comm]
  simp

theorem nearest_le_zpow (hexponent : format.exponent x ≤ e) (h : x ≤ 2 ^ e) :
    format.nearest x ≤ 2 ^ e := by
  have hpos : (0 : ℚ) < 2 ^ format.exponent x := zpow_pos two_pos _
  obtain ⟨n, hsplit⟩ := zpow_eq_mul hexponent
  rw [hsplit] at h ⊢
  have hround : roundEven (x / 2 ^ format.exponent x) ≤ 2 ^ n :=
    roundEven_le ((div_le_iff₀ hpos).mpr h)
  exact mul_le_mul_of_nonneg_right (by exact_mod_cast hround) hpos.le

theorem zpow_le_nearest (hexponent : format.exponent x ≤ e) (h : 2 ^ e ≤ x) :
    2 ^ e ≤ format.nearest x := by
  have hpos : (0 : ℚ) < 2 ^ format.exponent x := zpow_pos two_pos _
  obtain ⟨n, hsplit⟩ := zpow_eq_mul hexponent
  rw [hsplit] at h ⊢
  have hround : 2 ^ n ≤ roundEven (x / 2 ^ format.exponent x) :=
    le_roundEven ((le_div_iff₀ hpos).mpr h)
  exact mul_le_mul_of_nonneg_right (by exact_mod_cast hround) hpos.le

theorem nearest_nonneg (hx : 0 ≤ x) : 0 ≤ format.nearest x := by
  have hpos : (0 : ℚ) < 2 ^ format.exponent x := zpow_pos two_pos _
  have hround : 0 ≤ roundEven (x / 2 ^ format.exponent x) :=
    le_roundEven (by rw [Int.cast_zero]; exact div_nonneg hx hpos.le)
  exact mul_nonneg (by exact_mod_cast hround) hpos.le

theorem nearest_of_exponent (h : format.exponent x = 0) : format.nearest x = roundEven x := by
  rw [nearest, h, zpow_zero, div_one, mul_one]

section

variable (hmin : format.minExponent ≤ 0) (hprecision : 0 < format.precision)
include hmin hprecision

theorem exponent_le_log (hx : 1 ≤ x) : format.exponent x ≤ Int.log 2 x := by
  have hlog : 0 ≤ Int.log 2 x := by
    rw [Int.log_of_one_le_right 2 hx]
    exact Int.natCast_nonneg _
  exact max_le (by omega) (hmin.trans hlog)

/-- Where the digits are units, rounding decides as with integers. -/
theorem nearest_le_iff {bound : ℕ} (heven : Even bound)
    (hlow : 2 ^ (format.precision - 1) ≤ bound) (hhigh : bound < 2 ^ format.precision)
    (hx : 0 ≤ x) : format.nearest x ≤ bound ↔ x ≤ bound + 1 / 2 := by
  have hlow' : (2 : ℚ) ^ (format.precision - 1) ≤ bound := by exact_mod_cast hlow
  have hhigh' : (bound : ℚ) + 1 ≤ 2 ^ format.precision := by exact_mod_cast hhigh
  rcases lt_or_ge x (2 ^ (format.precision - 1)) with hsmall | hlarge
  · have hexponent : format.exponent x ≤ (format.precision - 1 : ℕ) := by
      rcases hx.eq_or_lt with rfl | hpos
      · simp only [exponent, Int.log_zero_right]
        omega
      · have hlog : Int.log 2 x < (format.precision - 1 : ℕ) :=
          (Int.lt_zpow_iff_log_lt one_lt_two hpos).mp (by rw [zpow_natCast]; exact_mod_cast hsmall)
        exact max_le (by omega) (by omega)
    have hle := nearest_le_zpow hexponent (by rw [zpow_natCast]; exact hsmall.le)
    rw [zpow_natCast] at hle
    exact iff_of_true (hle.trans hlow') (by linarith)
  · have hone : (1 : ℚ) ≤ x := (one_le_pow₀ one_le_two).trans hlarge
    have hpos : 0 < x := one_pos.trans_le hone
    rcases lt_or_ge x (2 ^ format.precision) with hunits | hhuge
    · have hexponent : format.exponent x = 0 := by
        have hge : ((format.precision - 1 : ℕ) : ℤ) ≤ Int.log 2 x :=
          (Int.zpow_le_iff_le_log one_lt_two hpos).mp (by rw [zpow_natCast]; exact_mod_cast hlarge)
        have hlt : Int.log 2 x < (format.precision : ℕ) :=
          (Int.lt_zpow_iff_log_lt one_lt_two hpos).mp (by rw [zpow_natCast]; exact_mod_cast hunits)
        rw [exponent]
        omega
      rw [nearest_of_exponent hexponent]
      have hround := roundEven_le_iff (x := x) (n := bound) (by exact_mod_cast heven)
      exact_mod_cast hround
    · have hge : (format.precision : ℤ) ≤ Int.log 2 x :=
        (Int.zpow_le_iff_le_log one_lt_two hpos).mp (by rw [zpow_natCast]; exact_mod_cast hhuge)
      have hself : (2 : ℚ) ^ Int.log 2 x ≤ x := Int.zpow_log_le_self one_lt_two hpos
      have hnearest := zpow_le_nearest (exponent_le_log hmin hprecision hone) hself
      have hpower : (2 : ℚ) ^ format.precision ≤ 2 ^ Int.log 2 x := by
        rw [← zpow_natCast]
        exact zpow_le_zpow_right₀ one_le_two hge
      exact iff_of_false (by linarith) (by linarith)

/-- Integers of no more digits are kept. -/
theorem nearest_natCast {n : ℕ} (h : n < 2 ^ format.precision) : format.nearest n = n := by
  have hexponent : format.exponent n ≤ 0 := by
    refine max_le ?_ hmin
    rcases Nat.eq_zero_or_pos n with rfl | hpos
    · simp only [Nat.cast_zero, Int.log_zero_right]
      omega
    · have hlt : Int.log 2 (n : ℚ) < (format.precision : ℕ) :=
        (Int.lt_zpow_iff_log_lt one_lt_two (by exact_mod_cast hpos)).mp
          (by rw [zpow_natCast]; exact_mod_cast h)
      omega
  obtain ⟨k, hsplit⟩ := zpow_eq_mul hexponent
  rw [zpow_zero] at hsplit
  have hne : (2 : ℚ) ^ format.exponent n ≠ 0 := (zpow_pos two_pos _).ne'
  have hdiv : (n : ℚ) / 2 ^ format.exponent n = ((n * 2 ^ k : ℤ) : ℚ) := by
    rw [div_eq_iff hne, Int.cast_mul, mul_assoc, ← hsplit, mul_one, Int.cast_natCast]
  rw [nearest, hdiv, roundEven_intCast, Int.cast_mul, mul_assoc, ← hsplit, mul_one,
    Int.cast_natCast]

end

end Format

/-- A magnitude as a double, and nothing where it is rounded to infinity. -/
def double (x : ℚ) : Option ℚ :=
  let value := Format.binary64.nearest x
  if value < 2 ^ 1024 then some value else none

/-- A double in an even bound of 53 digits. -/
theorem double_any_le_iff {x : ℚ} {bound : ℕ} (heven : Even bound) (hlow : 2 ^ 52 ≤ bound)
    (hhigh : bound < 2 ^ 53) (hx : 0 ≤ x) :
    (∃ value, double x = some value ∧ |value| ≤ bound) ↔ x ≤ bound + 1 / 2 := by
  have hnearest : Format.binary64.nearest x ≤ bound ↔ x ≤ bound + 1 / 2 :=
    Format.nearest_le_iff (by decide) (by decide) heven hlow hhigh hx
  have hnonneg : 0 ≤ Format.binary64.nearest x := Format.nearest_nonneg hx
  have hcast : (bound : ℚ) < 2 ^ 53 := by exact_mod_cast hhigh
  have hlimit : (bound : ℚ) < 2 ^ 1024 :=
    hcast.trans (pow_lt_pow_right₀ one_lt_two (Nat.lt_of_sub_ne_zero (by decide)))
  rw [← hnearest]
  refine ⟨?_, fun hle => ⟨_, if_pos (hle.trans_lt hlimit), by rwa [abs_of_nonneg hnonneg]⟩⟩
  rintro ⟨value, hvalue, hle⟩
  dsimp only [double] at hvalue
  split at hvalue
  · cases hvalue
    rwa [abs_of_nonneg hnonneg] at hle
  · cases hvalue

theorem double_natCast {n : ℕ} (h : n < 2 ^ 53) : double n = some (n : ℚ) := by
  have hnearest : Format.binary64.nearest n = n :=
    Format.nearest_natCast (by decide) (by decide) h
  have hcast : (n : ℚ) < 2 ^ 53 := by exact_mod_cast h
  have hlt : (n : ℚ) < 2 ^ 1024 :=
    hcast.trans (pow_lt_pow_right₀ one_lt_two (Nat.lt_of_sub_ne_zero (by decide)))
  rw [double, hnearest]
  exact if_pos hlt

end Orgistry.Numbers
