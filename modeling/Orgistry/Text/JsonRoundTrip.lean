import Orgistry.Text.Json
import Mathlib.Data.Nat.Digits.Lemmas

/-!
# Parsing what was stringified

`Json.parse` reads from the text of an object the members that were printed.
-/

namespace Orgistry.Text.Json

theorem scanString_plain {c : Char} (hquote : c ≠ '"') (hslash : c ≠ '\\') (h : ¬c.toNat < 0x20)
    (rest : List Char) : scanString (c :: rest) =
      (scanString rest).map fun (units, rest) => (c.toNat :: units, rest) := by
  rw [scanString.eq_def]
  split
  · next heq => cases heq
  · next heq => exact absurd (List.cons.inj heq).1 hquote
  · next heq => exact absurd (List.cons.inj heq).1 hslash
  · next heq => exact absurd (List.cons.inj heq).1 hslash
  · next heq =>
      obtain ⟨rfl, rfl⟩ := List.cons.inj heq
      rw [if_neg (not_or.mpr ⟨h, hslash⟩)]

/-- An escaped character is read as the character. -/
theorem scanString_escapeChar (c : Char) (rest : List Char) : scanString (escapeChar c ++ rest) =
    (scanString rest).map fun (units, rest) => (c.toNat :: units, rest) := by
  have hcode (n : ℕ) (h : c.toNat = n) : Char.ofNat n = c := by rw [← h, Char.ofNat_toNat]
  unfold escapeChar
  split
  · next h => subst h; rfl
  · next hquote =>
      split
      · next h => subst h; rfl
      · next hslash =>
          split
          · next h => obtain rfl := hcode 8 h; rfl
          · split
            · next h => subst h; rfl
            · split
              · next h => subst h; rfl
              · split
                · next h => obtain rfl := hcode 12 h; rfl
                · split
                  · next h => subst h; rfl
                  · split
                    · next h =>
                        have hdigits : hex4 '0' '0' (lowerHexDigit (c.toNat / 16))
                            (lowerHexDigit (c.toNat % 16)) = some c.toNat := by
                          have hzero : hexValue '0' = some 0 := rfl
                          simp only [hex4, hzero, hexValue_lowerHexDigit
                            (show c.toNat / 16 < 16 by omega), hexValue_lowerHexDigit
                            (show c.toNat % 16 < 16 by omega), Option.bind_eq_bind,
                            Option.bind_some, Option.pure_def, Option.some.injEq]
                          omega
                        simp only [List.cons_append, List.nil_append, scanString, hdigits,
                          Option.bind_some]
                    · next h => exact scanString_plain hquote hslash h rest

theorem scanString_quote (text rest : List Char) :
    scanString (text.flatMap escapeChar ++ '"' :: rest) = some (text.map Char.toNat, rest) := by
  induction text with
  | nil => rfl
  | cons c text ih =>
      rw [List.flatMap_cons, List.append_assoc, scanString_escapeChar, ih]
      rfl

theorem charOfUnit_toNat (c : Char) : charOfUnit c.toNat = c := by
  have hbounds := char_bounds c
  rw [charOfUnit, if_neg, Char.ofNat_toNat]
  simp only [isHighSurrogate, isLowSurrogate, Bool.or_eq_true, Bool.and_eq_true,
    decide_eq_true_eq]
  omega

/-- Characters are no surrogates. -/
theorem joinSurrogates_toNat (text : List Char) :
    joinSurrogates (text.map Char.toNat) = text := by
  induction text with
  | nil => rfl
  | cons c text ih =>
      cases text with
      | nil => rw [List.map_singleton, joinSurrogates, charOfUnit_toNat]
      | cons d text =>
          have hbounds := char_bounds c
          have hhigh : isHighSurrogate c.toNat = false := by
            simp only [isHighSurrogate, Bool.and_eq_false_iff, decide_eq_false_iff_not]
            omega
          rw [List.map_cons, List.map_cons, joinSurrogates, hhigh, Bool.false_and,
            if_neg Bool.false_ne_true, charOfUnit_toNat, ← List.map_cons, ih]

theorem parseString_quote (text rest : List Char) :
    parseString (text.flatMap escapeChar ++ '"' :: rest) = some (text, rest) := by
  rw [parseString, scanString_quote, Option.map_some]
  simp only [joinSurrogates_toNat]

/-- What may not follow a number. -/
def EndsNumber (rest : List Char) : Prop :=
  ∀ c ∈ rest.head?, c.isDigit = false ∧ c ≠ '.' ∧ c ≠ 'e' ∧ c ≠ 'E'

theorem decimal_digits (n : ℕ) : ∀ c ∈ decimal n, c.isDigit = true := by
  have hdigit : ∀ d : Fin 10, (Char.ofNat (48 + d)).isDigit = true := by decide
  intro c hc
  unfold decimal at hc
  split at hc
  · obtain rfl := List.mem_singleton.mp hc
    rfl
  · obtain ⟨d, hd, rfl⟩ := List.mem_map.mp hc
    exact hdigit ⟨d, Nat.digits_lt_base (by decide) (List.mem_reverse.mp hd)⟩

/-- A number that is not zero does not begin with a zero. -/
theorem decimal_cases (n : ℕ) : decimal n = ['0'] ∨ ∃ c rest, decimal n = c :: rest ∧ c ≠ '0' := by
  have hdigit : ∀ d : Fin 10, d.val ≠ 0 → Char.ofNat (48 + d) ≠ '0' := by decide
  unfold decimal
  split
  · exact .inl rfl
  · next h =>
      have hne : Nat.digits 10 n ≠ [] := Nat.digits_ne_nil_iff_ne_zero.mpr h
      have hlast := Nat.getLast_digit_ne_zero 10 h
      have hlt : (Nat.digits 10 n).getLast hne < 10 :=
        Nat.digits_lt_base (by decide) (List.getLast_mem hne)
      refine .inr ⟨Char.ofNat (48 + (Nat.digits 10 n).getLast hne),
        ((Nat.digits 10 n).dropLast.reverse.map fun d => Char.ofNat (48 + d)), ?_,
        hdigit ⟨_, hlt⟩ hlast⟩
      conv_lhs => rw [← List.dropLast_append_getLast hne]
      rw [List.reverse_append, List.reverse_singleton, List.map_append, List.map_singleton,
        List.singleton_append]

theorem parseDigits_append {digits rest : List Char} (hdigits : ∀ c ∈ digits, c.isDigit = true)
    (hne : digits ≠ []) (hrest : EndsNumber rest) :
    parseDigits (digits ++ rest) = some (digits, rest) := by
  have htake : rest.takeWhile Char.isDigit = [] := by
    cases rest with
    | nil => rfl
    | cons c rest =>
        rw [List.takeWhile_cons_of_neg]
        simp [(hrest c rfl).1]
  have hdrop : rest.dropWhile Char.isDigit = rest := by
    cases rest with
    | nil => rfl
    | cons c rest =>
        rw [List.dropWhile_cons_of_neg]
        simp [(hrest c rfl).1]
  rw [parseDigits, List.takeWhile_append_of_pos hdigits, List.dropWhile_append_of_pos hdigits,
    htake, hdrop, List.append_nil, if_neg hne]

theorem parseNumber_decimal (n : ℕ) {rest : List Char} (hrest : EndsNumber rest) :
    parseNumber (decimal n ++ rest) = some (decimal n, rest) := by
  have hfraction : parseFraction rest = some ([], rest) := by
    unfold parseFraction
    split
    · next heq => exact absurd rfl (hrest '.' (by simp)).2.1
    · rfl
  have hexponent : parseExponent rest = some ([], rest) := by
    cases rest with
    | nil => rfl
    | cons e rest =>
        have he := hrest e rfl
        rw [parseExponent, if_neg (not_or.mpr he.2.2)]
  have hunsigned : parseUnsigned (decimal n ++ rest) = some (decimal n, rest) := by
    have hinteger : parseInteger (decimal n ++ rest) = some (decimal n, rest) := by
      rcases decimal_cases n with hzero | ⟨c, digits, hdecimal, hc⟩
      · rw [hzero]
        rfl
      · have hdigits := parseDigits_append (decimal_digits n) (by simp [hdecimal]) hrest
        rw [hdecimal, List.cons_append] at hdigits ⊢
        unfold parseInteger
        split
        · next heq => exact absurd (List.cons.inj heq).1 hc
        · exact hdigits
    simp [parseUnsigned, hinteger, hfraction, hexponent]
  unfold parseNumber
  split
  · next heq =>
      have hminus : '-' ∈ decimal n := by
        rcases decimal_cases n with hzero | ⟨c, digits, hdecimal, -⟩
        · rw [hzero] at heq
          cases heq
        · rw [hdecimal] at heq ⊢
          rw [(List.cons.inj heq).1]
          exact List.mem_cons_self
      exact absurd (decimal_digits n '-' hminus) (by decide)
  · exact hunsigned

theorem skipSpace_cons {c : Char} (h : isSpace c = false) (rest : List Char) :
    skipSpace (c :: rest) = c :: rest := List.dropWhile_cons_of_neg (by simp [h])

theorem isSpace_of_isDigit {c : Char} (h : c.isDigit = true) : isSpace c = false := by
  have hdigit : c ≠ ' ' ∧ c ≠ '\t' ∧ c ≠ '\n' ∧ c ≠ '\r' := by
    refine ⟨?_, ?_, ?_, ?_⟩ <;>
      · rintro rfl
        cases h
  simp [isSpace, hdigit]

/-- Decimals are read back up to their end. -/
theorem parseValue_decimal (n : ℕ) {rest : List Char} (hrest : EndsNumber rest) (fuel : ℕ) :
    parseValue (fuel + 1) (decimal n ++ rest) = some (.number (decimal n), rest) := by
  obtain ⟨c, digits, hdecimal⟩ : ∃ c digits, decimal n = c :: digits := by
    rcases decimal_cases n with hzero | ⟨c, digits, hdecimal, -⟩
    · exact ⟨'0', [], hzero⟩
    · exact ⟨c, digits, hdecimal⟩
  have hc : c.isDigit = true := decimal_digits n c (by simp [hdecimal])
  have hother (d : Char) (hd : d.isDigit = false) : c ≠ d := by
    rintro rfl
    rw [hc] at hd
    cases hd
  have hnumber := parseNumber_decimal n hrest
  rw [hdecimal, List.cons_append] at hnumber ⊢
  rw [parseValue, skipSpace_cons (isSpace_of_isDigit hc)]
  split
  · next heq => exact absurd (List.cons.inj heq).1 (hother 'n' rfl)
  · next heq => exact absurd (List.cons.inj heq).1 (hother 't' rfl)
  · next heq => exact absurd (List.cons.inj heq).1 (hother 'f' rfl)
  · next heq => exact absurd (List.cons.inj heq).1 (hother '"' rfl)
  · next heq => exact absurd (List.cons.inj heq).1 (hother '[' rfl)
  · next heq => exact absurd (List.cons.inj heq).1 (hother '{' rfl)
  · rw [hnumber]
    rfl

theorem parseValue_print (scalar : Scalar) {rest : List Char} (hrest : EndsNumber rest)
    (fuel : ℕ) : parseValue (fuel + 1) (scalar.print ++ rest) = some (scalar.toJson, rest) := by
  cases scalar with
  | natural value => exact parseValue_decimal value hrest fuel
  | text value =>
      rw [Scalar.print, quote, List.cons_append, List.append_assoc, parseValue,
        skipSpace_cons rfl]
      simp only [List.singleton_append, parseString_quote]
      rfl

def members (printed : List (String × Scalar)) : List (List Char × Json) :=
  printed.map fun member => (member.1.toList, member.2.toJson)

theorem endsNumber_cons {c : Char} (h : c = ',' ∨ c = '}') (rest : List Char) :
    EndsNumber (c :: rest) := by
  rintro _ ⟨⟩
  rcases h with rfl | rfl <;> decide

/-- The last member. -/
theorem parseMembers_last (member : String × Scalar) (rest : List Char) (fuel : ℕ) :
    parseMembers (fuel + 2) (printMember member ++ '}' :: rest) =
      some ([(member.1.toList, member.2.toJson)], rest) := by
  have hvalue := parseValue_print member.2 (endsNumber_cons (.inr rfl) rest) fuel
  rw [printMember, quote, List.cons_append, List.cons_append, List.append_assoc, List.append_assoc,
    parseMembers, skipSpace_cons rfl]
  simp only [List.nil_append, List.cons_append, parseString_quote, Option.bind_eq_bind,
    Option.bind_some, skipSpace_cons (show isSpace ':' = false from rfl), hvalue,
    skipSpace_cons (show isSpace '}' = false from rfl), Option.pure_def]

/-- A member before another one. -/
theorem parseMembers_cons (member : String × Scalar) (rest : List Char) (fuel : ℕ) :
    parseMembers (fuel + 2) (printMember member ++ ',' :: rest) =
      (parseMembers (fuel + 1) rest).map fun (members, rest) =>
        ((member.1.toList, member.2.toJson) :: members, rest) := by
  have hvalue := parseValue_print member.2 (endsNumber_cons (.inl rfl) rest) fuel
  rw [printMember, quote, List.cons_append, List.cons_append, List.append_assoc, List.append_assoc,
    parseMembers, skipSpace_cons rfl]
  simp only [List.nil_append, List.cons_append, parseString_quote, Option.bind_eq_bind,
    Option.bind_some, skipSpace_cons (show isSpace ':' = false from rfl), hvalue,
    skipSpace_cons (show isSpace ',' = false from rfl), Option.pure_def]
  cases parseMembers (fuel + 1) rest <;> rfl

/-- Printed members are read back. -/
theorem parseMembers_print {printed : List (String × Scalar)} (hne : printed ≠ [])
    (rest : List Char) {fuel : ℕ} (hfuel : printed.length + 1 ≤ fuel) :
    parseMembers fuel (printMembers printed ++ '}' :: rest) = some (members printed, rest) := by
  induction printed generalizing fuel with
  | nil => exact absurd rfl hne
  | cons member printed ih =>
      simp only [List.length_cons] at hfuel
      obtain ⟨fuel, rfl⟩ := Nat.exists_eq_add_of_le' (show 2 ≤ fuel by omega)
      cases printed with
      | nil => exact parseMembers_last member rest fuel
      | cons next printed =>
          rw [printMembers, List.append_assoc, List.cons_append, parseMembers_cons,
            ih (List.cons_ne_nil _ _) (by simp only [List.length_cons] at hfuel ⊢; omega)]
          · rfl
          · simp

theorem length_le_printMembers (printed : List (String × Scalar)) :
    printed.length ≤ (printMembers printed).length := by
  have hmember (member : String × Scalar) : 1 ≤ (printMember member).length := by
    simp [printMember, quote]
  induction printed with
  | nil => exact Nat.zero_le _
  | cons member printed ih =>
      cases printed with
      | nil => exact hmember member
      | cons next printed =>
          have hfirst := hmember member
          simp only [printMembers, List.length_append, List.length_cons] at ih ⊢
          omega

/-- Parsing undoes stringifying. -/
theorem parse_stringify {printed : List (String × Scalar)} (hne : printed ≠ []) :
    parse (stringify printed) = some (.object (members printed)) := by
  obtain ⟨rest, hhead⟩ : ∃ rest, printMembers printed ++ ['}'] = '"' :: rest := by
    cases printed with
    | nil => exact absurd rfl hne
    | cons member printed =>
        cases printed <;> exact ⟨_, rfl⟩
  have hlength := length_le_printMembers printed
  have hfuel : printed.length + 1 ≤ (stringify printed).length := by
    simp [stringify]
    omega
  have hmembers := parseMembers_print hne [] hfuel
  rw [hhead] at hmembers
  rw [parse, parseValue, stringify, hhead, skipSpace_cons rfl]
  simp only [skipSpace_cons (show isSpace '"' = false from rfl)]
  rw [stringify, hhead] at hmembers
  rw [hmembers]
  rfl

end Orgistry.Text.Json
