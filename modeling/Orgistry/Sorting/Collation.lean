import Mathlib.Algebra.Order.Ring.Nat
import Mathlib.Data.List.Sort
import Mathlib.Tactic.Common

/-!
# Comparing strings as `localeCompare` does

The root collation on ASCII: first the characters by their order without case,
then, when these are all equal, lower case before upper case.  The second half
of the file is about numbers that are written with a fixed number of
hexadecimal digits.
-/

namespace Orgistry.Sorting

/-- Punctuation and digits in the order of the root collation. -/
def collationOrder : List Char :=
  [' ', '_', '-', ',', ';', ':', '!', '?', '.', '\'', '"', '(', ')', '[', ']', '{', '}', '@', '*',
    '/', '\\', '&', '#', '%', '`', '^', '+', '<', '=', '>', '|', '~', '$',
    '0', '1', '2', '3', '4', '5', '6', '7', '8', '9']

def primaryWeight (c : Char) : ℕ :=
  if c.isAlpha then 50 + (c.toLower.toNat - 'a'.toNat)
  else if c ∈ collationOrder then collationOrder.idxOf c
  else 100 + c.toNat

def caseWeight (c : Char) : ℕ := if c.isUpper then 1 else 0

def primaryWeights (s : String) : List ℕ := s.toList.map primaryWeight

def caseWeights (s : String) : List ℕ := s.toList.map caseWeight

def localeCompare (left right : String) : Ordering :=
  compareLex (compareOn primaryWeights) (compareOn caseWeights) left right

instance : Std.TransCmp localeCompare :=
  inferInstanceAs (Std.TransCmp (compareLex (compareOn primaryWeights) (compareOn caseWeights)))

theorem localeCompare_swap (left right : String) :
    localeCompare left right = (localeCompare right left).swap := Std.OrientedCmp.eq_swap

/-- The order of a list sorted by a string of its elements. -/
def NotAfter {α : Type*} (text : α → String) (left right : α) : Prop :=
  (localeCompare (text left) (text right)).isLE

section NotAfter

variable {α : Type*} {text : α → String}

instance : DecidableRel (NotAfter text) := fun _ _ => inferInstanceAs (Decidable (_ = true))

instance : Std.Total (NotAfter text) where
  total left right := by
    unfold NotAfter
    rw [localeCompare_swap (text right) (text left)]
    cases localeCompare (text left) (text right) <;> simp

instance : IsTrans α (NotAfter text) where
  trans _ _ _ hab hbc := Std.TransCmp.isLE_trans hab hbc

end NotAfter

theorem compare_append {α : Type*} [Ord α] {front front' back back' : List α}
    (h : front.length = front'.length) :
    compare (front ++ back) (front' ++ back') =
      (compare front front').then (compare back back') := by
  induction front generalizing front' with
  | nil =>
      obtain rfl := List.length_eq_zero_iff.mp h.symm
      rfl
  | cons x front ih =>
      cases front' with
      | nil => cases h
      | cons x' front' =>
          simp only [List.length_cons, Nat.add_right_cancel_iff] at h
          simp only [List.cons_append, List.compare_cons_cons, ih h, Ordering.then_assoc]

/-- Strings that begin alike compare as what follows does. -/
theorem localeCompare_append_left (front left right : String) :
    localeCompare (front ++ left) (front ++ right) = localeCompare left right := by
  simp only [localeCompare, compareLex, compareOn, primaryWeights, caseWeights,
    String.toList_append, List.map_append, compare_append rfl, Std.ReflOrd.compare_self,
    Ordering.eq_then]

/-- The primary weights decide as soon as they differ. -/
theorem localeCompare_of_primary {left right : String} {order : Ordering}
    (h : compare (primaryWeights left) (primaryWeights right) = order) (horder : order ≠ .eq) :
    localeCompare left right = order := by
  unfold localeCompare compareLex compareOn
  rw [h]
  cases order <;> first | rfl | exact absurd rfl horder

def hexDigit (n : ℕ) : Char := if n < 10 then Char.ofNat (48 + n) else Char.ofNat (55 + n)

def hexDigits : ℕ → ℕ → List Char
  | 0, _ => []
  | width + 1, n => hexDigits width (n / 16) ++ [hexDigit (n % 16)]

@[simp]
theorem length_hexDigits (width n : ℕ) : (hexDigits width n).length = width := by
  induction width generalizing n with
  | zero => rfl
  | succ width ih => simp [hexDigits, ih]

/-- The digits from the other end. -/
theorem hexDigits_succ (width n : ℕ) :
    hexDigits (width + 1) n = hexDigit (n / 16 ^ width % 16) :: hexDigits width n := by
  induction width generalizing n with
  | zero => simp [hexDigits]
  | succ width ih =>
      rw [hexDigits, ih, hexDigits, Nat.div_div_eq_div_mul, ← Nat.pow_succ', List.cons_append]

theorem primaryWeight_hexDigit : ∀ m n : Fin 16,
    compare (primaryWeight (hexDigit m)) (primaryWeight (hexDigit n)) = compare m.val n.val := by
  decide

/-- The quotients decide, and then the remainders do. -/
theorem compare_div_mod (k m n : ℕ) :
    (compare (m / k) (n / k)).then (compare (m % k) (n % k)) = compare m n := by
  have hm := Nat.div_add_mod m k
  have hn := Nat.div_add_mod n k
  rcases Nat.lt_trichotomy (m / k) (n / k) with hdiv | hdiv | hdiv
  · have hlt : m < n := Nat.lt_of_div_lt_div hdiv
    rw [Nat.compare_eq_lt.mpr hdiv, Nat.compare_eq_lt.mpr hlt, Ordering.lt_then]
  · rw [hdiv] at hm
    rw [Nat.compare_eq_eq.mpr hdiv, Ordering.eq_then]
    rcases Nat.lt_trichotomy (m % k) (n % k) with hmod | hmod | hmod
    · rw [Nat.compare_eq_lt.mpr hmod, Nat.compare_eq_lt.mpr (by omega)]
    · rw [Nat.compare_eq_eq.mpr hmod, Nat.compare_eq_eq.mpr (by omega)]
    · rw [Nat.compare_eq_gt.mpr hmod, Nat.compare_eq_gt.mpr (by omega)]
  · have hlt : n < m := Nat.lt_of_div_lt_div hdiv
    rw [Nat.compare_eq_gt.mpr hdiv, Nat.compare_eq_gt.mpr hlt, Ordering.gt_then]

/-- Numbers of one width compare as their digits do. -/
theorem compare_hexDigits {width m n : ℕ} (hm : m < 16 ^ width) (hn : n < 16 ^ width) :
    compare ((hexDigits width m).map primaryWeight) ((hexDigits width n).map primaryWeight) =
      compare m n := by
  induction width generalizing m n with
  | zero =>
      obtain rfl : m = 0 := by omega
      obtain rfl : n = 0 := by omega
      rfl
  | succ width ih =>
      have hm' : m / 16 < 16 ^ width := Nat.div_lt_of_lt_mul (by rwa [Nat.pow_succ'] at hm)
      have hn' : n / 16 < 16 ^ width := Nat.div_lt_of_lt_mul (by rwa [Nat.pow_succ'] at hn)
      rw [hexDigits, hexDigits, List.map_append, List.map_append, compare_append (by simp),
        ih hm' hn']
      have hdigit := primaryWeight_hexDigit ⟨m % 16, Nat.mod_lt m (by decide)⟩
        ⟨n % 16, Nat.mod_lt n (by decide)⟩
      simp only [List.map_cons, List.map_nil, List.compare_cons_cons, hdigit,
        List.compare_nil_nil, Ordering.then_eq, compare_div_mod]

end Orgistry.Sorting
