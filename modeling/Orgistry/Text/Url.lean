import Mathlib.Data.Bool.AllAny
import Mathlib.Data.List.DropRight
import Mathlib.Data.List.Infix
import Orgistry.Text.Cutting
import Orgistry.Text.Encodings

/-!
# Percent-encoding and URLs

Percent-encoding of texts, lists of names and values as queries write them, and the path
of a URL as the parser of the URL standard makes it, with its dot segments removed.
-/

namespace Orgistry.Text

def upperHexDigit (n : ℕ) : Char :=
  if n < 10 then Char.ofNat (48 + n) else Char.ofNat (55 + n)

def percentByte (b : Byte) : List Char :=
  ['%', upperHexDigit (b.val / 16), upperHexDigit (b.val % 16)]

/-- The characters to keep as they are, the UTF-8 bytes of the others with a percent
sign. -/
def percentEncode (keep : Char → Bool) (text : List Char) : List Char :=
  text.flatMap fun c => if keep c then [c] else (encodeChar c).flatMap percentByte

/-- A percent sign without two digits stands for itself. -/
def percentBytes : List Char → List Byte
  | [] => []
  | [c] => encodeChar c
  | [c, d] => encodeChar c ++ encodeChar d
  | c :: high :: low :: text =>
      match if c = '%' then (hexValue high).bind fun h => (hexValue low).map (16 * h + ·)
        else none with
      | some n => byte n :: percentBytes text
      | none => encodeChar c ++ percentBytes (high :: low :: text)

def percentDecode (text : List Char) : List Char := decodeUtf8 (percentBytes text)

/-- The bytes of a text in which every percent sign has two digits. -/
def strictPercentBytes : List Char → Option (List Byte)
  | [] => some []
  | [c] => if c = '%' then none else some (encodeChar c)
  | [c, d] => if c = '%' ∨ d = '%' then none else some (encodeChar c ++ encodeChar d)
  | c :: high :: low :: text =>
      if c = '%' then
        (hexValue high).bind fun h => (hexValue low).bind fun l =>
          (strictPercentBytes text).map (byte (16 * h + l) :: ·)
      else (strictPercentBytes (high :: low :: text)).map (encodeChar c ++ ·)

/-- The text whose bytes they are. -/
def strictPercentDecode (text : List Char) : Option (List Char) :=
  (strictPercentBytes text).bind fun bytes =>
    if encodeUtf8 (decodeUtf8 bytes) = bytes then some (decodeUtf8 bytes) else none

section Percent

theorem hexValue_upperHexDigit {n : ℕ} (h : n < 16) : hexValue (upperHexDigit n) = some n := by
  have hall : ∀ d : Fin 16, hexValue (upperHexDigit d) = some d.val := by decide
  exact hall ⟨n, h⟩

theorem percentBytes_cons {c : Char} (hc : c ≠ '%') (text : List Char) :
    percentBytes (c :: text) = encodeChar c ++ percentBytes text := by
  match text with
  | [] => simp [percentBytes]
  | [d] => simp [percentBytes]
  | d :: e :: text => rw [percentBytes, if_neg hc]

theorem percentBytes_percentByte (b : Byte) (text : List Char) :
    percentBytes (percentByte b ++ text) = b :: percentBytes text := by
  have hb := b.isLt
  have hbyte : byte (16 * (b.val / 16) + b.val % 16) = b := byte_eq (by omega)
  change percentBytes ('%' :: _ :: _ :: text) = _
  rw [percentBytes, if_pos rfl, hexValue_upperHexDigit (by omega), Option.bind_some,
    hexValue_upperHexDigit (by omega), Option.map_some]
  dsimp only
  rw [hbyte]

theorem percentBytes_flatMap (bytes : List Byte) (text : List Char) :
    percentBytes (bytes.flatMap percentByte ++ text) = bytes ++ percentBytes text := by
  induction bytes with
  | nil => rfl
  | cons b bytes ih =>
      rw [List.flatMap_cons, List.append_assoc, percentBytes_percentByte, ih, List.cons_append]

/-- Decoding undoes encoding when percent signs are encoded. -/
theorem percentDecode_percentEncode {keep : Char → Bool} (hkeep : keep '%' = false)
    (text : List Char) : percentDecode (percentEncode keep text) = text := by
  have hbytes : percentBytes (percentEncode keep text) = encodeUtf8 text := by
    induction text with
    | nil => rfl
    | cons c text ih =>
        unfold percentEncode encodeUtf8 at ih ⊢
        rw [List.flatMap_cons, List.flatMap_cons, ← ih]
        split
        · next hc =>
            exact percentBytes_cons (fun heq => by simp [heq, hkeep] at hc) _
        · exact percentBytes_flatMap _ _
  rw [percentDecode, hbytes, decodeUtf8_encodeUtf8]

theorem strictPercentBytes_cons {c : Char} (hc : c ≠ '%') (text : List Char) :
    strictPercentBytes (c :: text) = (strictPercentBytes text).map (encodeChar c ++ ·) := by
  match text with
  | [] => simp [strictPercentBytes, hc]
  | [d] => by_cases hd : d = '%' <;> simp [strictPercentBytes, hc, hd]
  | d :: e :: text => rw [strictPercentBytes, if_neg hc]

theorem strictPercentBytes_percentByte (b : Byte) (text : List Char) :
    strictPercentBytes (percentByte b ++ text) = (strictPercentBytes text).map (b :: ·) := by
  have hb := b.isLt
  have hbyte : byte (16 * (b.val / 16) + b.val % 16) = b := byte_eq (by omega)
  change strictPercentBytes ('%' :: _ :: _ :: text) = _
  rw [strictPercentBytes, if_pos rfl, hexValue_upperHexDigit (by omega), Option.bind_some,
    hexValue_upperHexDigit (by omega), Option.bind_some, hbyte]

theorem strictPercentBytes_flatMap (bytes : List Byte) (text : List Char) :
    strictPercentBytes (bytes.flatMap percentByte ++ text) =
      (strictPercentBytes text).map (bytes ++ ·) := by
  induction bytes with
  | nil => simp
  | cons b bytes ih =>
      rw [List.flatMap_cons, List.append_assoc, strictPercentBytes_percentByte, ih, Option.map_map]
      rfl

theorem strictPercentDecode_percentEncode {keep : Char → Bool} (hkeep : keep '%' = false)
    (text : List Char) : strictPercentDecode (percentEncode keep text) = some text := by
  have hbytes : strictPercentBytes (percentEncode keep text) = some (encodeUtf8 text) := by
    induction text with
    | nil => rfl
    | cons c text ih =>
        unfold percentEncode encodeUtf8 at ih ⊢
        rw [List.flatMap_cons, List.flatMap_cons]
        split
        · next hc =>
            have hne : c ≠ '%' := fun heq => by simp [heq, hkeep] at hc
            rw [List.singleton_append, strictPercentBytes_cons hne, ih, Option.map_some]
        · rw [strictPercentBytes_flatMap, ih, Option.map_some]
  rw [strictPercentDecode, hbytes, Option.bind_some, decodeUtf8_encodeUtf8, if_pos rfl]

/-- Exactly the bytes of a text are decoded. -/
theorem strictPercentDecode_eq_some_iff {text decoded : List Char} :
    strictPercentDecode text = some decoded ↔
      strictPercentBytes text = some (encodeUtf8 decoded) := by
  unfold strictPercentDecode
  cases strictPercentBytes text with
  | none => simp
  | some bytes =>
      rw [Option.bind_some, Option.some.injEq]
      refine ⟨fun h => ?_, ?_⟩
      · split at h
        · next hbytes => rw [← Option.some.inj h, hbytes]
        · cases h
      · rintro rfl
        rw [decodeUtf8_encodeUtf8, if_pos rfl]

/-- An encoded text has characters to keep, percent signs and digits. -/
theorem mem_percentEncode {keep : Char → Bool} {text : List Char} {c : Char}
    (h : c ∈ percentEncode keep text) :
    keep c ∨ c = '%' ∨ ∃ n < 16, c = upperHexDigit n := by
  obtain ⟨d, -, hc⟩ := List.mem_flatMap.mp h
  split at hc
  · next hd =>
      rw [List.mem_singleton.mp hc]
      exact Or.inl hd
  · obtain ⟨b, -, hb⟩ := List.mem_flatMap.mp hc
    have hlt := b.isLt
    unfold percentByte at hb
    rcases List.mem_cons.mp hb with rfl | hb
    · exact Or.inr (Or.inl rfl)
    rcases List.mem_cons.mp hb with rfl | hb
    · exact Or.inr (Or.inr ⟨b.val / 16, by omega, rfl⟩)
    · exact Or.inr (Or.inr ⟨b.val % 16, by omega, List.mem_singleton.mp hb⟩)

/-- Where all of them satisfy a predicate, so does the encoded text. -/
theorem forall_mem_percentEncode {keep : Char → Bool} {P : Char → Prop}
    (hkeep : ∀ c, keep c → P c) (hpercent : P '%')
    (hdigit : ∀ n : Fin 16, P (upperHexDigit n)) (text : List Char) :
    ∀ c ∈ percentEncode keep text, P c := by
  intro c hc
  rcases mem_percentEncode hc with h | rfl | ⟨n, hn, rfl⟩
  · exact hkeep c h
  · exact hpercent
  · exact hdigit ⟨n, hn⟩

theorem flatMap_eq_self {f : Char → List Char} {text : List Char}
    (h : ∀ c ∈ text, f c = [c]) : text.flatMap f = text := by
  induction text with
  | nil => rfl
  | cons c text ih =>
      rw [List.flatMap_cons, h c List.mem_cons_self,
        ih fun d hd => h d (List.mem_cons_of_mem c hd), List.singleton_append]

theorem percentEncode_eq_self {keep : Char → Bool} {text : List Char}
    (h : ∀ c ∈ text, keep c) : percentEncode keep text = text :=
  flatMap_eq_self fun c hc => if_pos (h c hc)

end Percent

def joinPairs (encode : List Char → List Char) (pairs : List (List Char × List Char)) :
    List Char :=
  joinWith '&' (pairs.map fun (name, value) => encode name ++ '=' :: encode value)

def readPairs (decode : List Char → List Char) (text : List Char) :
    List (List Char × List Char) :=
  ((splitOn '&' text).filter (· ≠ [])).map fun piece =>
    match cut '=' piece with
    | some (name, value) => (decode name, decode value)
    | none => (decode piece, decode [])

/-- What is written is read again. -/
theorem readPairs_joinPairs {encode decode : List Char → List Char}
    (hdecode : ∀ text, decode (encode text) = text) (hand : ∀ text, '&' ∉ encode text)
    (hequals : ∀ text, '=' ∉ encode text) (pairs : List (List Char × List Char)) :
    readPairs decode (joinPairs encode pairs) = pairs := by
  cases hpairs : pairs with
  | nil => rfl
  | cons first rest =>
      rw [← hpairs]
      unfold readPairs joinPairs
      rw [splitOn_joinWith (by simp [hpairs])]
      · rw [List.filter_eq_self.mpr, List.map_map]
        · refine (List.map_congr_left fun pair _ => ?_).trans (List.map_id _)
          simp only [Function.comp_apply, cut_append (hequals _), hdecode, id_eq]
        · intro piece hpiece
          obtain ⟨pair, -, rfl⟩ := List.mem_map.mp hpiece
          simp
      · intro piece hpiece
        obtain ⟨pair, -, rfl⟩ := List.mem_map.mp hpiece
        simp [hand]

/-- The characters that `application/x-www-form-urlencoded` keeps. -/
def formKeep (c : Char) : Bool := c.isAlphanum || c ∈ "*-._".toList

/-- A space is a plus sign. -/
def formEncode (text : List Char) : List Char :=
  (percentEncode (fun c => formKeep c || c = ' ') text).map fun c => if c = ' ' then '+' else c

def formDecode (text : List Char) : List Char :=
  percentDecode (text.map fun c => if c = '+' then ' ' else c)

theorem isAlphanum_bounds {c : Char} (h : c.isAlphanum) :
    (48 ≤ c.toNat ∧ c.toNat ≤ 57) ∨ (65 ≤ c.toNat ∧ c.toNat ≤ 90) ∨
      (97 ≤ c.toNat ∧ c.toNat ≤ 122) := by
  unfold Char.isAlphanum Char.isAlpha Char.isUpper Char.isLower Char.isDigit at h
  simp only [Bool.or_eq_true, Bool.and_eq_true, decide_eq_true_eq, ge_iff_le,
    UInt32.le_iff_toNat_le] at h
  change ((65 ≤ c.toNat ∧ c.toNat ≤ 90) ∨ (97 ≤ c.toNat ∧ c.toNat ≤ 122)) ∨
    (48 ≤ c.toNat ∧ c.toNat ≤ 57) at h
  omega

theorem ne_of_isAlphanum {c d : Char} (h : c.isAlphanum) (hd : d.isAlphanum = false) : c ≠ d := by
  rintro rfl
  rw [h] at hd
  exact nomatch hd

theorem forall_mem_formEncode {P : Char → Prop} (halphanum : ∀ c, c.isAlphanum → P c)
    (hsigns : ∀ c ∈ "*-._%+".toList, P c) (text : List Char) : ∀ c ∈ formEncode text, P c := by
  intro c hc
  obtain ⟨d, hd, rfl⟩ := List.mem_map.mp hc
  have hkind : d = ' ' ∨ d.isAlphanum ∨ d ∈ "*-._%".toList := by
    rcases mem_percentEncode hd with hkeep | rfl | ⟨n, hn, rfl⟩
    · simp only [formKeep, Bool.or_eq_true, decide_eq_true_eq] at hkeep
      rcases hkeep with (hkeep | hkeep) | hkeep
      · exact Or.inr (Or.inl hkeep)
      · exact Or.inr (Or.inr (List.mem_append_left ['%'] hkeep))
      · exact Or.inl hkeep
    · exact Or.inr (Or.inr (by decide))
    · have hdigits : ∀ n : Fin 16, (upperHexDigit n).isAlphanum := by decide
      exact Or.inr (Or.inl (hdigits ⟨n, hn⟩))
  rcases hkind with rfl | halnum | hsign
  · exact hsigns _ (by decide)
  · rw [if_neg (ne_of_isAlphanum halnum (by decide))]
    exact halphanum d halnum
  · rw [if_neg (by rintro rfl; exact absurd hsign (by decide))]
    exact hsigns d (List.mem_append_left ['+'] hsign)

/-- A form value is read back, whatever its characters. -/
theorem formDecode_formEncode (text : List Char) : formDecode (formEncode text) = text := by
  unfold formDecode formEncode
  rw [List.map_map]
  have hplus : ∀ c ∈ percentEncode (fun c => formKeep c || c = ' ') text, c ≠ '+' := by
    refine forall_mem_percentEncode (fun c hc => ?_) (by decide) (by decide) text
    rintro rfl
    exact absurd hc (by decide)
  have hself : (percentEncode (fun c => formKeep c || c = ' ') text).map
      ((fun c => if c = '+' then ' ' else c) ∘ fun c => if c = ' ' then '+' else c) =
        percentEncode (fun c => formKeep c || c = ' ') text := by
    refine (List.map_congr_left fun c hc => ?_).trans (List.map_id _)
    rw [Function.comp_apply, id_eq]
    by_cases hspace : c = ' '
    · rw [if_pos hspace, if_pos rfl, hspace]
    · rw [if_neg hspace, if_neg (hplus c hc)]
  rw [hself]
  exact percentDecode_percentEncode (by decide) text

/-! ## Paths -/

def singleDots : List (List Char) := [".".toList, "%2e".toList, "%2E".toList]

def doubleDots : List (List Char) :=
  singleDots.flatMap fun first => singleDots.map fun second => first ++ second

/-- The characters of a path that are kept. -/
def pathKeep (c : Char) : Bool :=
  0x21 ≤ c.toNat && c.toNat ≤ 0x7E && c ∉ ['"', '#', '<', '>', '?', '^', Char.ofNat 96, '{', '}']

/-- A segment is read: dot segments lead to the same or to the upper directory. -/
def pathStep (path : List (List Char)) (segment : List Char) (last : Bool) :
    List (List Char) :=
  if segment ∈ doubleDots then if last then path.dropLast ++ [[]] else path.dropLast
  else if segment ∈ singleDots then if last then path ++ [[]] else path
  else path ++ [segment]

def parseSegments : List (List Char) → List (List Char) → List (List Char)
  | path, [] => path
  | path, [segment] => pathStep path segment true
  | path, segment :: next :: rest =>
      parseSegments (pathStep path segment false) (next :: rest)

/-- The path of a URL with the scheme `http` or `https`, from what follows its host. -/
def parsePath (text : List Char) : List (List Char) :=
  let trimmed := text.rdropWhile fun c => c.toNat ≤ 0x20
  let kept := trimmed.filter fun c => c ∉ ['\t', '\n', '\r']
  let slashed := (kept.takeWhile fun c => c ≠ '?' ∧ c ≠ '#').map
    fun c => if c = '\\' then '/' else c
  parseSegments [] ((splitOn '/' (slashed.drop 1)).map (percentEncode pathKeep))

def pathname (path : List (List Char)) : List Char := path.flatMap ('/' :: ·)

section Path

/-- Characters that the parser does not touch. -/
def PathPlain (c : Char) : Prop := pathKeep c ∧ c ≠ '/' ∧ c ≠ '\\'

instance : DecidablePred PathPlain := fun c =>
  inferInstanceAs (Decidable (pathKeep c ∧ c ≠ '/' ∧ c ≠ '\\'))

theorem pathPlain_of_isAlphanum {c : Char} (h : c.isAlphanum) : PathPlain c := by
  have hbounds := isAlphanum_bounds h
  refine ⟨?_, ne_of_isAlphanum h (by decide), ne_of_isAlphanum h (by decide)⟩
  simp only [pathKeep, Bool.and_eq_true, decide_eq_true_eq]
  refine ⟨⟨by omega, by omega⟩, fun hsign => ?_⟩
  have hsigns : ∀ d ∈ ['"', '#', '<', '>', '?', '^', Char.ofNat 96, '{', '}'],
      d.isAlphanum = false := List.all_iff_forall_prop.mp (by decide +kernel)
  exact ne_of_isAlphanum h (hsigns c hsign) rfl

theorem PathPlain.bounds {c : Char} (h : PathPlain c) : 0x21 ≤ c.toNat ∧ c ≠ '?' ∧ c ≠ '#' := by
  obtain ⟨hkeep, -⟩ := h
  simp only [pathKeep, Bool.and_eq_true, decide_eq_true_eq] at hkeep
  exact ⟨hkeep.1.1, by rintro rfl; exact hkeep.2 (by decide),
    by rintro rfl; exact hkeep.2 (by decide)⟩

variable {segments path : List (List Char)}

theorem pathname_eq (hne : segments ≠ []) : pathname segments = '/' :: joinWith '/' segments := by
  cases segments with
  | nil => exact absurd rfl hne
  | cons segment rest =>
      rw [joinWith_cons]
      rfl

theorem mem_pathname (hplain : ∀ segment ∈ segments, ∀ c ∈ segment, PathPlain c) :
    ∀ c ∈ pathname segments, c = '/' ∨ PathPlain c := by
  intro c hc
  obtain ⟨segment, hsegment, hc⟩ := List.mem_flatMap.mp hc
  exact (List.mem_cons.mp hc).imp id (hplain segment hsegment c)

/-- A plain path is read back segment by segment. -/
theorem parsePath_pathname (hne : segments ≠ [])
    (hplain : ∀ segment ∈ segments, ∀ c ∈ segment, PathPlain c) :
    parsePath (pathname segments) = parseSegments [] segments := by
  have hmem := mem_pathname hplain
  have hbounds : ∀ c ∈ pathname segments, 0x21 ≤ c.toNat ∧ c ≠ '?' ∧ c ≠ '#' ∧ c ≠ '\\' := by
    intro c hc
    rcases hmem c hc with rfl | h
    · decide
    · exact ⟨h.bounds.1, h.bounds.2.1, h.bounds.2.2, h.2.2⟩
  have htrim : (pathname segments).rdropWhile (fun c => c.toNat ≤ 0x20) = pathname segments := by
    rw [List.rdropWhile_eq_self_iff]
    intro h
    have := (hbounds _ (List.getLast_mem h)).1
    simp only [decide_eq_true_eq]
    omega
  have hfilter : (pathname segments).filter (fun c => c ∉ ['\t', '\n', '\r']) =
      pathname segments := by
    refine List.filter_eq_self.mpr fun c hc => decide_eq_true ?_
    intro hcontrol
    have := (hbounds c hc).1
    simp only [List.mem_cons, List.not_mem_nil, or_false] at hcontrol
    rcases hcontrol with rfl | rfl | rfl <;> exact absurd this (by decide)
  have htake : (pathname segments).takeWhile (fun c => c ≠ '?' ∧ c ≠ '#') =
      pathname segments := by
    refine List.takeWhile_eq_self_iff.mpr fun c hc => decide_eq_true ?_
    exact ⟨(hbounds c hc).2.1, (hbounds c hc).2.2.1⟩
  have hslash : (pathname segments).map (fun c => if c = '\\' then '/' else c) =
      pathname segments := by
    refine (List.map_congr_left fun c hc => ?_).trans (List.map_id _)
    exact if_neg (hbounds c hc).2.2.2
  unfold parsePath
  dsimp only
  rw [htrim, hfilter, htake, hslash]
  have hdrop : (pathname segments).drop 1 = joinWith '/' segments := by
    rw [pathname_eq hne, List.drop_one, List.tail_cons]
  rw [hdrop, splitOn_joinWith hne fun segment hsegment hmem =>
    (hplain segment hsegment _ hmem).2.1 rfl]
  congr 1
  refine (List.map_congr_left fun segment hsegment => ?_).trans (List.map_id _)
  exact percentEncode_eq_self fun c hc => (hplain segment hsegment c hc).1

/-- Segments other than dot segments. -/
def Dotless (path : List (List Char)) : Prop :=
  ∀ segment ∈ path, segment ∉ singleDots ∧ segment ∉ doubleDots

theorem pathStep_eq {segment : List Char} (h : segment ∉ singleDots ∧ segment ∉ doubleDots)
    (path : List (List Char)) (last : Bool) : pathStep path segment last = path ++ [segment] := by
  rw [pathStep, if_neg h.2, if_neg h.1]

theorem parseSegments_eq (h : Dotless segments) (path : List (List Char)) :
    parseSegments path segments = path ++ segments := by
  induction segments generalizing path with
  | nil => rw [parseSegments, List.append_nil]
  | cons segment rest ih =>
      have hsegment := h segment List.mem_cons_self
      cases rest with
      | nil => rw [parseSegments, pathStep_eq hsegment]
      | cons next rest =>
          rw [parseSegments, pathStep_eq hsegment,
            ih fun other hother => h other (List.mem_cons_of_mem _ hother), List.append_assoc]
          rfl

/-- What the parser puts into a path. -/
theorem mem_pathStep {segment other : List Char} {last : Bool}
    (h : other ∈ pathStep path segment last) :
    other ∈ path ∨ other = [] ∨
      (other = segment ∧ segment ∉ singleDots ∧ segment ∉ doubleDots) := by
  unfold pathStep at h
  split at h
  · split at h
    · rcases List.mem_append.mp h with h | h
      · exact Or.inl (List.mem_of_mem_dropLast h)
      · exact Or.inr (Or.inl (List.mem_singleton.mp h))
    · exact Or.inl (List.mem_of_mem_dropLast h)
  · next hdouble =>
      split at h
      · split at h
        · rcases List.mem_append.mp h with h | h
          · exact Or.inl h
          · exact Or.inr (Or.inl (List.mem_singleton.mp h))
        · exact Or.inl h
      · next hsingle =>
          rcases List.mem_append.mp h with h | h
          · exact Or.inl h
          · exact Or.inr (Or.inr ⟨List.mem_singleton.mp h, hsingle, hdouble⟩)

/-- A parsed path has segments of the text and empty ones, and no dot segments. -/
theorem mem_parseSegments {other : List Char} (h : other ∈ parseSegments path segments) :
    other ∈ path ∨ ((other = [] ∨ other ∈ segments) ∧
      other ∉ singleDots ∧ other ∉ doubleDots) := by
  induction segments generalizing path with
  | nil =>
      rw [parseSegments] at h
      exact Or.inl h
  | cons segment rest ih =>
      have hstep : ∀ last, other ∈ pathStep path segment last →
          other ∈ path ∨ ((other = [] ∨ other ∈ segment :: rest) ∧
            other ∉ singleDots ∧ other ∉ doubleDots) := by
        intro last hother
        rcases mem_pathStep hother with hother | rfl | ⟨rfl, hdots⟩
        · exact Or.inl hother
        · exact Or.inr ⟨Or.inl rfl, by decide, by decide⟩
        · exact Or.inr ⟨Or.inr List.mem_cons_self, hdots⟩
      cases rest with
      | nil =>
          rw [parseSegments] at h
          exact hstep true h
      | cons next rest =>
          rw [parseSegments] at h
          rcases ih h with h | ⟨hmem, hdots⟩
          · exact hstep false h
          · exact Or.inr ⟨hmem.imp id (List.mem_cons_of_mem _), hdots⟩

/-- Different paths have different texts. -/
theorem pathname_injective {other : List (List Char)} (hpath : ∀ segment ∈ path, '/' ∉ segment)
    (hother : ∀ segment ∈ other, '/' ∉ segment) (h : pathname path = pathname other) :
    path = other := by
  cases path with
  | nil =>
      cases other with
      | nil => rfl
      | cons => exact nomatch h
  | cons segment rest =>
      cases other with
      | nil => exact nomatch h
      | cons first more =>
          rw [pathname_eq (List.cons_ne_nil _ _), pathname_eq (List.cons_ne_nil _ _),
            List.cons.injEq] at h
          have hsplit := congrArg (splitOn '/') h.2
          rwa [splitOn_joinWith (List.cons_ne_nil _ _) hpath,
            splitOn_joinWith (List.cons_ne_nil _ _) hother] at hsplit

/-- The parser keeps a path exactly when it has no dot segment. -/
theorem pathname_parsePath_iff (hne : segments ≠ [])
    (hplain : ∀ segment ∈ segments, ∀ c ∈ segment, PathPlain c) :
    pathname (parsePath (pathname segments)) = pathname segments ↔ Dotless segments := by
  have hslash : ∀ segment ∈ segments, '/' ∉ segment := fun segment hsegment hmem =>
    (hplain segment hsegment _ hmem).2.1 rfl
  rw [parsePath_pathname hne hplain]
  constructor
  · intro h
    have hsame := pathname_injective (fun segment hsegment => ?_) hslash h
    · intro segment hsegment
      rw [← hsame] at hsegment
      exact ((mem_parseSegments hsegment).resolve_left List.not_mem_nil).2
    · rcases (mem_parseSegments hsegment).resolve_left List.not_mem_nil with ⟨rfl | hmem, -⟩
      · exact List.not_mem_nil
      · exact hslash segment hmem
  · intro h
    rw [parseSegments_eq h, List.nil_append]

end Path

end Orgistry.Text
