import Mathlib.Tactic.Common
import Orgistry.Text.CodeUnits

/-!
# UTF-16

The code units of a text, and the text that well-formed code units stand for.
-/

namespace Orgistry.Text

/-- The code units of one character. -/
def utf16Units (c : Char) : CodeUnits :=
  if c.toNat < 0x10000 then [codeUnit c]
  else
    [UInt16.ofNat (0xD800 + (c.toNat - 0x10000) / 0x400),
      UInt16.ofNat (0xDC00 + (c.toNat - 0x10000) % 0x400)]

/-- The code units of a text. -/
def encodeUtf16 (text : String) : CodeUnits := text.toList.flatMap utf16Units

/-- The characters that code units stand for; a surrogate without its partner stands
for the null character. -/
def utf16Chars : CodeUnits → List Char
  | [] => []
  | [unit] => [Char.ofNat unit.toNat]
  | high :: low :: rest =>
      if 0xD800 ≤ high ∧ high < 0xDC00 then
        Char.ofNat (0x10000 + (high.toNat - 0xD800) * 0x400 + (low.toNat - 0xDC00)) ::
          utf16Chars rest
      else Char.ofNat high.toNat :: utf16Chars (low :: rest)

def decodeUtf16 (units : CodeUnits) : String := String.ofList (utf16Chars units)

theorem toNat_codeUnit {c : Char} (h : c.toNat < 0x10000) : (codeUnit c).toNat = c.toNat := by
  rw [codeUnit, UInt16.toNat_ofNat']
  exact Nat.mod_eq_of_lt h

/-- No character of the basic plane is a surrogate. -/
theorem not_high_codeUnit {c : Char} (h : c.toNat < 0x10000) :
    ¬(0xD800 ≤ codeUnit c ∧ codeUnit c < 0xDC00) := by
  rintro ⟨hlow, hhigh⟩
  have hlow' : 0xD800 ≤ c.toNat := by
    rw [← toNat_codeUnit h]
    exact UInt16.le_iff_toNat_le.mp hlow
  have hhigh' : c.toNat < 0xDC00 := by
    rw [← toNat_codeUnit h]
    exact UInt16.lt_iff_toNat_lt.mp hhigh
  have hvalid : c.toNat < 0xD800 ∨ 0xDFFF < c.toNat ∧ c.toNat < 0x110000 := c.valid
  omega

theorem utf16Chars_basic {c : Char} (h : c.toNat < 0x10000) (rest : CodeUnits) :
    utf16Chars (codeUnit c :: rest) = c :: utf16Chars rest := by
  have hchar : Char.ofNat (codeUnit c).toNat = c := by
    rw [toNat_codeUnit h]
    exact Char.ofNat_toNat c
  cases rest with
  | nil => rw [utf16Chars, utf16Chars, hchar]
  | cons next rest => rw [utf16Chars, if_neg (not_high_codeUnit h), hchar]

/-- The units of a character are read back as that character. -/
theorem utf16Chars_units (c : Char) (rest : CodeUnits) :
    utf16Chars (utf16Units c ++ rest) = c :: utf16Chars rest := by
  unfold utf16Units
  split
  · next h => exact utf16Chars_basic h rest
  · next h =>
      have hvalid : c.toNat < 0xD800 ∨ 0xDFFF < c.toNat ∧ c.toNat < 0x110000 := c.valid
      have hquotient : (c.toNat - 0x10000) / 0x400 < 0x400 := by omega
      have hremainder : (c.toNat - 0x10000) % 0x400 < 0x400 := Nat.mod_lt _ (by decide)
      have hhigh : (UInt16.ofNat (0xD800 + (c.toNat - 0x10000) / 0x400)).toNat =
          0xD800 + (c.toNat - 0x10000) / 0x400 := by
        rw [UInt16.toNat_ofNat']
        exact Nat.mod_eq_of_lt (by omega)
      have hlow : (UInt16.ofNat (0xDC00 + (c.toNat - 0x10000) % 0x400)).toNat =
          0xDC00 + (c.toNat - 0x10000) % 0x400 := by
        rw [UInt16.toNat_ofNat']
        exact Nat.mod_eq_of_lt (by omega)
      have hsurrogate : 0xD800 ≤ UInt16.ofNat (0xD800 + (c.toNat - 0x10000) / 0x400) ∧
          UInt16.ofNat (0xD800 + (c.toNat - 0x10000) / 0x400) < 0xDC00 := by
        rw [UInt16.le_iff_toNat_le, UInt16.lt_iff_toNat_lt, hhigh]
        constructor
        · exact Nat.le_add_right _ _
        · change _ < 0xDC00
          omega
      have hvalue : 0x10000 + (0xD800 + (c.toNat - 0x10000) / 0x400 - 0xD800) * 0x400 +
          (0xDC00 + (c.toNat - 0x10000) % 0x400 - 0xDC00) = c.toNat := by
        omega
      rw [List.cons_append, List.cons_append, List.nil_append, utf16Chars, if_pos hsurrogate,
        hhigh, hlow, hvalue, Char.ofNat_toNat]

/-- Decoding gives every text back. -/
theorem decodeUtf16_encodeUtf16 (text : String) : decodeUtf16 (encodeUtf16 text) = text := by
  have hchars : ∀ chars : List Char, utf16Chars (chars.flatMap utf16Units) = chars := by
    intro chars
    induction chars with
    | nil => rfl
    | cons c chars ih => rw [List.flatMap_cons, utf16Chars_units, ih]
  rw [decodeUtf16, encodeUtf16, hchars, String.ofList_toList]

end Orgistry.Text
