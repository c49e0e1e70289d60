import Orgistry.Text.Utf16
import Orgistry.Text.Utf8
import Mathlib.Data.List.TakeWhile

/-!
# Hexadecimal and base64

The encodings of bytes as text and the lenient decoders of `Buffer.from`.  They read
the low byte of every UTF-16 code unit, so that `ť` is an `e` to them: base64 skips
what is not of its alphabet and stops at the padding, hexadecimal stops at the first
pair that is none.
-/

namespace Orgistry.Text

/-- A byte is what its number says. -/
theorem byte_eq {n : ℕ} {b : Byte} (h : n = b.val) : byte n = b := by
  subst h
  exact Fin.ext (val_byte b.isLt)

/-- The low bytes of the code units, as characters. -/
def lowBytes (text : List Char) : List Char :=
  (text.flatMap utf16Units).map fun unit => Char.ofNat (unit.toNat % 256)

theorem lowBytes_of_lt {text : List Char} (h : ∀ c ∈ text, c.toNat < 256) :
    lowBytes text = text := by
  induction text with
  | nil => rfl
  | cons c text ih =>
      have hc : c.toNat < 256 := h c List.mem_cons_self
      have hbasic : c.toNat < 0x10000 := by omega
      have hlow : Char.ofNat ((codeUnit c).toNat % 256) = c := by
        rw [toNat_codeUnit hbasic, Nat.mod_eq_of_lt hc, Char.ofNat_toNat]
      have ih := ih fun c hc => h c (List.mem_cons_of_mem _ hc)
      unfold lowBytes at ih ⊢
      rw [List.flatMap_cons, utf16Units, if_pos hbasic, List.singleton_append, List.map_cons,
        hlow, ih]

def lowerHexDigit (n : ℕ) : Char :=
  if n < 10 then Char.ofNat (48 + n) else Char.ofNat (87 + n)

def hexValue (c : Char) : Option ℕ :=
  if '0' ≤ c ∧ c ≤ '9' then some (c.toNat - 48)
  else if 'a' ≤ c ∧ c ≤ 'f' then some (c.toNat - 87)
  else if 'A' ≤ c ∧ c ≤ 'F' then some (c.toNat - 55)
  else none

def encodeHex (bytes : List Byte) : List Char :=
  bytes.flatMap fun b => [lowerHexDigit (b.val / 16), lowerHexDigit (b.val % 16)]

/-- The bytes of the pairs of digits in front. -/
def packNibbles : List Char → List Byte
  | high :: low :: rest =>
      match hexValue high, hexValue low with
      | some h, some l => byte (16 * h + l) :: packNibbles rest
      | _, _ => []
  | _ => []

def decodeHex (text : List Char) : List Byte := packNibbles (lowBytes text)

theorem hexValue_lowerHexDigit {n : ℕ} (h : n < 16) :
    (lowerHexDigit n).toNat < 256 ∧ hexValue (lowerHexDigit n) = some n := by
  have hall : ∀ d : Fin 16,
      (lowerHexDigit d).toNat < 256 ∧ hexValue (lowerHexDigit d) = some d.val := by
    decide
  exact hall ⟨n, h⟩

theorem hexValue_lt {c : Char} {n : ℕ} (h : hexValue c = some n) : n < 16 := by
  unfold hexValue at h
  simp only [Char.le_def, UInt32.le_iff_toNat_le] at h
  change (if 48 ≤ c.toNat ∧ c.toNat ≤ 57 then some (c.toNat - 48)
    else if 97 ≤ c.toNat ∧ c.toNat ≤ 102 then some (c.toNat - 87)
    else if 65 ≤ c.toNat ∧ c.toNat ≤ 70 then some (c.toNat - 55) else none) = some n at h
  split at h
  · cases h
    omega
  · split at h
    · cases h
      omega
    · split at h
      · cases h
        omega
      · cases h

theorem lowBytes_encodeHex (bytes : List Byte) : lowBytes (encodeHex bytes) = encodeHex bytes := by
  refine lowBytes_of_lt fun c hc => ?_
  obtain ⟨b, -, hc⟩ := List.mem_flatMap.mp hc
  have hb := b.isLt
  simp only [List.mem_cons, List.not_mem_nil, or_false] at hc
  rcases hc with rfl | rfl
  · exact (hexValue_lowerHexDigit (by omega)).1
  · exact (hexValue_lowerHexDigit (by omega)).1

theorem packNibbles_encodeHex (bytes : List Byte) : packNibbles (encodeHex bytes) = bytes := by
  induction bytes with
  | nil => rfl
  | cons b rest ih =>
      have hb := b.isLt
      have hbyte : byte (16 * (b.val / 16) + b.val % 16) = b := byte_eq (by omega)
      unfold encodeHex at ih ⊢
      rw [List.flatMap_cons]
      simp only [List.cons_append, List.nil_append, packNibbles,
        (hexValue_lowerHexDigit (show b.val / 16 < 16 by omega)).2,
        (hexValue_lowerHexDigit (show b.val % 16 < 16 by omega)).2, hbyte, ih]

theorem decodeHex_encodeHex (bytes : List Byte) : decodeHex (encodeHex bytes) = bytes := by
  rw [decodeHex, lowBytes_encodeHex, packNibbles_encodeHex]

def base64Digit (n : ℕ) : Char :=
  if n < 26 then Char.ofNat (65 + n)
  else if n < 52 then Char.ofNat (71 + n)
  else if n < 62 then Char.ofNat (n - 4)
  else if n = 62 then '+' else '/'

/-- The value of a digit of either alphabet. -/
def base64Value (c : Char) : Option ℕ :=
  if 'A' ≤ c ∧ c ≤ 'Z' then some (c.toNat - 65)
  else if 'a' ≤ c ∧ c ≤ 'z' then some (c.toNat - 71)
  else if '0' ≤ c ∧ c ≤ '9' then some (c.toNat + 4)
  else if c = '+' ∨ c = '-' then some 62
  else if c = '/' ∨ c = '_' then some 63
  else none

def encodeBase64 : List Byte → List Char
  | a :: b :: c :: rest =>
      base64Digit (a.val / 4) :: base64Digit (a.val % 4 * 16 + b.val / 16) ::
        base64Digit (b.val % 16 * 4 + c.val / 64) :: base64Digit (c.val % 64) :: encodeBase64 rest
  | [a, b] =>
      [base64Digit (a.val / 4), base64Digit (a.val % 4 * 16 + b.val / 16),
        base64Digit (b.val % 16 * 4), '=']
  | [a] => [base64Digit (a.val / 4), base64Digit (a.val % 4 * 16), '=', '=']
  | [] => []

/-- The digits of the URL alphabet, and no padding. -/
def encodeBase64Url (bytes : List Byte) : List Char :=
  ((encodeBase64 bytes).filter (· ≠ '=')).map fun c =>
    if c = '+' then '-' else if c = '/' then '_' else c

/-- Four digits are three bytes; fewer at the end are as many whole bytes as they
hold. -/
def packSextets : List ℕ → List Byte
  | a :: b :: c :: d :: rest =>
      byte (a * 4 + b / 16) :: byte (b % 16 * 16 + c / 4) :: byte (c % 4 * 64 + d) ::
        packSextets rest
  | [a, b, c] => [byte (a * 4 + b / 16), byte (b % 16 * 16 + c / 4)]
  | [a, b] => [byte (a * 4 + b / 16)]
  | _ => []

def decodeBase64 (text : List Char) : List Byte :=
  packSextets (((lowBytes text).takeWhile (· ≠ '=')).filterMap base64Value)

theorem base64Digit_lt (n : ℕ) : (base64Digit n).toNat < 256 := by
  by_cases hn : n < 62
  · have hall : ∀ d : Fin 62, (base64Digit d).toNat < 256 := by decide
    exact hall ⟨n, hn⟩
  · rw [base64Digit, if_neg (by omega), if_neg (by omega), if_neg hn]
    split <;> decide

theorem base64Value_base64Digit {n : ℕ} (h : n < 64) :
    base64Digit n ≠ '=' ∧ base64Value (base64Digit n) = some n := by
  have hall : ∀ d : Fin 64, base64Digit d ≠ '=' ∧ base64Value (base64Digit d) = some d.val := by
    decide
  exact hall ⟨n, h⟩

/-- A digit in front is read before the rest. -/
theorem sextets_cons {n : ℕ} (h : n < 64) (rest : List Char) :
    ((base64Digit n :: rest).takeWhile (· ≠ '=')).filterMap base64Value =
      n :: (rest.takeWhile (· ≠ '=')).filterMap base64Value := by
  obtain ⟨hne, hvalue⟩ := base64Value_base64Digit h
  rw [List.takeWhile_cons_of_pos (by simpa using hne), List.filterMap_cons_some hvalue]

theorem encodeBase64Url_ne_nil {bytes : List Byte} (h : bytes ≠ []) :
    encodeBase64Url bytes ≠ [] := by
  obtain ⟨b, bytes, rfl⟩ := List.exists_cons_of_ne_nil h
  have hfirst : ∃ rest, encodeBase64 (b :: bytes) = base64Digit (b.val / 4) :: rest := by
    rcases bytes with _ | ⟨c, _ | ⟨d, bytes⟩⟩ <;> exact ⟨_, rfl⟩
  obtain ⟨rest, hrest⟩ := hfirst
  have hb := b.isLt
  have hdigit := (base64Value_base64Digit (n := b.val / 4) (by omega)).1
  rw [encodeBase64Url, hrest, List.filter_cons_of_pos (by simpa using hdigit), List.map_cons]
  exact List.cons_ne_nil _ _

theorem lt_of_mem_encodeBase64 {bytes : List Byte} {c : Char} (h : c ∈ encodeBase64 bytes) :
    c.toNat < 256 := by
  fun_induction encodeBase64 bytes with
  | case1 a b d rest ih =>
      simp only [List.mem_cons] at h
      rcases h with rfl | rfl | rfl | rfl | h
      · exact base64Digit_lt _
      · exact base64Digit_lt _
      · exact base64Digit_lt _
      · exact base64Digit_lt _
      · exact ih h
  | case2 a b =>
      simp only [List.mem_cons, List.not_mem_nil, or_false] at h
      rcases h with rfl | rfl | rfl | rfl
      · exact base64Digit_lt _
      · exact base64Digit_lt _
      · exact base64Digit_lt _
      · decide
  | case3 a =>
      simp only [List.mem_cons, List.not_mem_nil, or_false, or_self] at h
      rcases h with rfl | rfl | rfl
      · exact base64Digit_lt _
      · exact base64Digit_lt _
      · decide
  | case4 => cases h

theorem packSextets_encodeBase64 (bytes : List Byte) :
    packSextets (((encodeBase64 bytes).takeWhile (· ≠ '=')).filterMap base64Value) = bytes := by
  fun_induction encodeBase64 bytes with
  | case1 a b c rest ih =>
      have ha := a.isLt
      have hb := b.isLt
      have hc := c.isLt
      rw [sextets_cons (by omega), sextets_cons (by omega), sextets_cons (by omega),
        sextets_cons (by omega), packSextets, ih, byte_eq (b := a) (by omega),
        byte_eq (b := b) (by omega), byte_eq (b := c) (by omega)]
  | case2 a b =>
      have ha := a.isLt
      have hb := b.isLt
      rw [sextets_cons (by omega), sextets_cons (by omega), sextets_cons (by omega),
        List.takeWhile_cons_of_neg (by simp), List.filterMap_nil, packSextets,
        byte_eq (b := a) (by omega), byte_eq (b := b) (by omega)]
  | case3 a =>
      have ha := a.isLt
      rw [sextets_cons (by omega), sextets_cons (by omega),
        List.takeWhile_cons_of_neg (by simp), List.filterMap_nil, packSextets,
        byte_eq (b := a) (by omega)]
  | case4 => rfl

theorem decodeBase64_encodeBase64 (bytes : List Byte) :
    decodeBase64 (encodeBase64 bytes) = bytes := by
  rw [decodeBase64, lowBytes_of_lt fun _ => lt_of_mem_encodeBase64, packSextets_encodeBase64]

/-- All padding stands at the end. -/
theorem takeWhile_encodeBase64 (bytes : List Byte) :
    (encodeBase64 bytes).takeWhile (· ≠ '=') = (encodeBase64 bytes).filter (· ≠ '=') := by
  have hkeep : ∀ {n : ℕ}, n < 64 → decide (base64Digit n ≠ '=') = true := fun h =>
    decide_eq_true (base64Value_base64Digit h).1
  fun_induction encodeBase64 bytes with
  | case1 a b c rest ih =>
      have ha := a.isLt
      have hb := b.isLt
      have hc := c.isLt
      simp only [List.takeWhile_cons, List.filter_cons, ih, hkeep (n := a.val / 4) (by omega),
        hkeep (n := a.val % 4 * 16 + b.val / 16) (by omega),
        hkeep (n := b.val % 16 * 4 + c.val / 64) (by omega), hkeep (n := c.val % 64) (by omega),
        if_true]
  | case2 a b =>
      have ha := a.isLt
      have hb := b.isLt
      simp only [List.takeWhile_cons, List.filter_cons, hkeep (n := a.val / 4) (by omega),
        hkeep (n := a.val % 4 * 16 + b.val / 16) (by omega),
        hkeep (n := b.val % 16 * 4) (by omega), if_true]
      rfl
  | case3 a =>
      have ha := a.isLt
      simp only [List.takeWhile_cons, List.filter_cons, hkeep (n := a.val / 4) (by omega),
        hkeep (n := a.val % 4 * 16) (by omega), if_true]
      rfl
  | case4 => rfl

/-- The lenient decoder undoes the strict encoder. -/
theorem decodeBase64_encodeBase64Url (bytes : List Byte) :
    decodeBase64 (encodeBase64Url bytes) = bytes := by
  have hvalue (c : Char) : base64Value (if c = '+' then '-' else if c = '/' then '_' else c) =
      base64Value c := by
    split
    · next h =>
        rw [h]
        rfl
    · split
      · next h =>
          rw [h]
          rfl
      · rfl
  have hpadding : ∀ c ∈ encodeBase64Url bytes, decide (c ≠ '=') = true := by
    intro c hc
    obtain ⟨digit, hdigit, rfl⟩ := List.mem_map.mp hc
    obtain ⟨-, hne⟩ := List.mem_filter.mp hdigit
    split
    · rfl
    · split
      · rfl
      · exact hne
  have hlow : lowBytes (encodeBase64Url bytes) = encodeBase64Url bytes := by
    refine lowBytes_of_lt fun c hc => ?_
    obtain ⟨digit, hdigit, rfl⟩ := List.mem_map.mp hc
    have hlt := lt_of_mem_encodeBase64 (List.mem_filter.mp hdigit).1
    split
    · decide
    · split
      · decide
      · exact hlt
  rw [decodeBase64, hlow, List.takeWhile_eq_self_iff.mpr hpadding, encodeBase64Url,
    List.filterMap_map]
  calc packSextets (((encodeBase64 bytes).filter (· ≠ '=')).filterMap
          (base64Value ∘ fun c => if c = '+' then '-' else if c = '/' then '_' else c))
      = packSextets (((encodeBase64 bytes).takeWhile (· ≠ '=')).filterMap base64Value) := by
        rw [takeWhile_encodeBase64]
        exact congrArg (fun value => packSextets (List.filterMap value _)) (funext hvalue)
    _ = bytes := packSextets_encodeBase64 bytes

end Orgistry.Text
