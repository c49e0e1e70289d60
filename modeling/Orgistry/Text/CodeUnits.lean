import Mathlib.Data.Nat.Notation

/-!
# Code units

Strings as a script engine keeps them: sequences of 16-bit units, in which surrogates need
no partner.
-/

namespace Orgistry.Text

abbrev CodeUnits := List UInt16

/-- The unit of a character of the basic plane. -/
def codeUnit (c : Char) : UInt16 := UInt16.ofNat c.toNat

/-- The units of a text of the basic plane. -/
def codeUnits (text : String) : CodeUnits := text.toList.map codeUnit

/-- An ASCII letter in lower case. -/
def asciiLower (unit : UInt16) : UInt16 :=
  if 65 ≤ unit ∧ unit ≤ 90 then unit + 32 else unit

/-- The Unicode operations on strings, of which only the ASCII part is spelled out. -/
structure UnicodeStrings where
  toLowerCase : CodeUnits → CodeUnits
  nfkd : CodeUnits → CodeUnits
  toLowerCase_ascii : ∀ text : CodeUnits, (∀ unit ∈ text, unit < 128) →
    toLowerCase text = text.map asciiLower
  nfkd_ascii : ∀ text : CodeUnits, (∀ unit ∈ text, unit < 128) → nfkd text = text

end Orgistry.Text
