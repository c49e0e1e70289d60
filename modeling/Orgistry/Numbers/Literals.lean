import Orgistry.Numbers.Doubles
import Orgistry.Text.Encodings
import Orgistry.Text.JsonNumbers
import Mathlib.Data.Bool.AllAny

/-!
# Texts as doubles

The number that a text without surrounding blanks stands for, as a script engine converts
strings.
-/

namespace Orgistry.Numbers

open Text Text.Json

inductive Number
  | nan
  | infinity (negative : Bool)
  | finite (value : ℚ)
  deriving DecidableEq

def ofMagnitude (negative : Bool) (x : ℚ) : Number :=
  match double x with
  | some value => .finite (if negative then -value else value)
  | none => .infinity negative

/-- Digits with a point before, between or behind them, or with none. -/
def isMantissa (text : List Char) : Bool :=
  match cut '.' text with
  | none => text.all Char.isDigit && !text.isEmpty
  | some (whole, decimals) =>
      whole.all Char.isDigit && decimals.all Char.isDigit && !(whole ++ decimals).isEmpty

/-- Nothing, or a mark and an integer with or without a sign. -/
def isExponentPart : List Char → Bool
  | [] => true
  | _ :: exponent =>
      let digits := if exponent.head?.any (· ∈ ['+', '-']) then exponent.tail else exponent
      digits.all Char.isDigit && !digits.isEmpty

def isDecimalLiteral (text : List Char) : Bool :=
  isMantissa (text.takeWhile fun c => !isExponentMark c) &&
    isExponentPart (text.dropWhile fun c => !isExponentMark c)

def radix (mark : Char) : Option ℕ :=
  if mark ∈ ['x', 'X'] then some 16
  else if mark ∈ ['o', 'O'] then some 8
  else if mark ∈ ['b', 'B'] then some 2
  else none

/-- The digits of a base, none of them left over. -/
def ofBase (base : ℕ) (digits : List Char) : Option ℕ :=
  digits.foldl (fun value c => do
    let n ← value
    let d ← hexValue c
    if d < base then return base * n + d else none) (some 0)

/-- Zero, a letter for the base, and digits. -/
def radixLiteral : List Char → Option ℕ
  | '0' :: mark :: digit :: digits => (radix mark).bind fun base =>
      ofBase base (digit :: digits)
  | _ => none

def signed (negative : Bool) (text : List Char) : Number :=
  if text = "Infinity".toList then .infinity negative
  else if isDecimalLiteral text then ofMagnitude negative (magnitude text)
  else .nan

/-- `Number` -/
def numberOf (text : List Char) : Number :=
  match text with
  | [] => .finite 0
  | c :: rest =>
      match radixLiteral text with
      | some n => ofMagnitude false n
      | none =>
          if c = '+' then signed false rest
          else if c = '-' then signed true rest
          else signed false text

section Digits

variable {digits : List Char}

theorem isDecimalLiteral_digits (hne : digits ≠ []) (h : ∀ c ∈ digits, c.isDigit) :
    isDecimalLiteral digits := by
  have hmark : ∀ c ∈ digits, (!isExponentMark c) = true := fun c hc => notMark_of_isDigit (h c hc)
  have hpoint : '.' ∉ digits := fun hdot => absurd (h '.' hdot) (by decide)
  rw [isDecimalLiteral, List.takeWhile_eq_self_iff.mpr hmark,
    List.dropWhile_eq_nil_iff.mpr hmark, isMantissa, cut_of_notMem hpoint]
  simp only [isExponentPart, Bool.and_true, Bool.and_eq_true, Bool.not_eq_true',
    List.isEmpty_eq_false_iff]
  exact ⟨List.all_eq_true.mpr h, hne⟩

/-- A row of digits is the double nearest to its value. -/
theorem numberOf_digits (hne : digits ≠ []) (h : ∀ c ∈ digits, c.isDigit) :
    numberOf digits = ofMagnitude false (digitsValue digits) := by
  obtain ⟨c, rest, rfl⟩ := List.exists_cons_of_ne_nil hne
  have hc := h c List.mem_cons_self
  have hradix : radixLiteral (c :: rest) = none := by
    unfold radixLiteral
    split
    · next mark digit digits heq =>
        have hmark : mark.isDigit := h mark (by rw [heq]; simp)
        have hnone : radix mark = none := by
          have hall : ∀ d ∈ ['x', 'X', 'o', 'O', 'b', 'B'], mark ≠ d := by
            intro d hd
            refine ne_of_isDigit hmark ?_
            have hletters : ∀ d ∈ ['x', 'X', 'o', 'O', 'b', 'B'], d.isDigit = false :=
              List.all_iff_forall_prop.mp (by decide)
            exact hletters d hd
          simp only [List.forall_mem_cons] at hall
          obtain ⟨hx, hX, ho, hO, hb, hB, -⟩ := hall
          simp [radix, hx, hX, ho, hO, hb, hB]
        rw [hnone]
        rfl
    · rfl
  have hinfinity : c :: rest ≠ "Infinity".toList := by
    intro heq
    have hhead : c = 'I' := (List.cons.inj heq).1
    exact ne_of_isDigit hc (by decide) hhead
  rw [numberOf, hradix]
  dsimp only
  rw [if_neg (ne_of_isDigit hc (by decide)), if_neg (ne_of_isDigit hc (by decide)), signed,
    if_neg hinfinity, if_pos (isDecimalLiteral_digits hne h), magnitude_digits h]

/-- Its double lies in a small range exactly when the value does. -/
theorem exists_ofMagnitude_le_iff {n bound : ℕ} (hbound : bound < 2 ^ 52) :
    (∃ value : ℚ, ofMagnitude false n = .finite value ∧ 1 ≤ value ∧ value ≤ bound) ↔
      1 ≤ n ∧ n ≤ bound := by
  have hfinite {value : ℚ} :
      ofMagnitude false n = .finite value ↔ double n = some value := by
    unfold ofMagnitude
    cases double (n : ℚ) <;> simp
  simp only [hfinite]
  by_cases hsmall : n < 2 ^ 53
  · rw [double_natCast hsmall]
    simp only [Option.some.injEq, exists_eq_left', Nat.one_le_cast, Nat.cast_le]
  · refine iff_of_false ?_ fun h => hsmall (h.2.trans_lt (hbound.trans (by decide)))
    rintro ⟨value, hdouble, hone, hle⟩
    have hlimit : (bound : ℚ) ≤ (2 ^ 52 : ℕ) := by exact_mod_cast hbound.le
    have habs : |value| ≤ (2 ^ 52 : ℕ) := by
      rw [abs_of_nonneg (zero_le_one.trans hone)]
      exact hle.trans hlimit
    have hupper := (double_any_le_iff (by decide) le_rfl (by decide) (Nat.cast_nonneg n)).mp
      ⟨value, hdouble, habs⟩
    have hlower : (2 : ℚ) ^ 53 ≤ n := by exact_mod_cast Nat.not_lt.mp hsmall
    norm_num at hupper
    linarith

end Digits

end Orgistry.Numbers
