import Orgistry.Addresses.Blocks
import Orgistry.Model.TrustProxy
import Mathlib.Data.List.Dedup
import Mathlib.Data.Finset.Dedup

/-!
# Nobody trusts every proxy

The setting is a word, a number of hops, or a list of addresses and blocks, and nothing
else.  A list leaves a peer outside exactly when its outermost blocks do not add up to
all addresses of a family; two halves of the address space are a list that does not.
-/

namespace Orgistry.Model.TrustProxy

open Addresses Text

/-- The addresses that a text denotes, all of its family having `base` leading bits. -/
inductive AddressText : List Char → ℕ → ℕ → Prop
  | ipv4 {text : List Char} {address : ℕ} (h : Ipv4Text text address) :
      AddressText text (mappedIpv4 address) 96
  | ipv6 {text : List Char} {address : ℕ} (h : Ipv6Text text address) :
      AddressText text address 0
  | zoned {text zone : List Char} {address : ℕ} (h : Ipv6Text text address) (hne : zone ≠ [])
      (hzone : ∀ c ∈ zone, isZoneChar c) : AddressText (text ++ '%' :: zone) address 0

/-- An address by itself, or with the length of a prefix. -/
def EntryText (entry : List Char) (block : Block 128) : Prop :=
  ∃ text address base, AddressText text address base ∧ address ∈ block.addresses ∧
    ((entry = text ∧ block.length = 128) ∨
      ∃ n, entry = text ++ '/' :: Json.decimal n ∧ block.length = base + n)

def addressOf (text : List Char) : Option (ℕ × ℕ) :=
  match ipv4 text with
  | some address => some (mappedIpv4 address, 96)
  | none => (zonedIpv6 text).map fun address => (address, 0)

def blockAround (address length : ℕ) : Option (Block 128) :=
  if h : length ≤ 128 ∧ address < 2 ^ 128 then some (Block.around address length h.1 h.2) else none

def entryBlock (entry : List Char) : Option (Block 128) :=
  match cut '/' entry with
  | none => (addressOf entry).bind fun (address, _) => blockAround address 128
  | some (text, suffix) => (addressOf text).bind fun (address, base) =>
      (unpadded suffix).bind fun n => blockAround address (base + n)

section Entries

variable {text entry : List Char} {address base : ℕ} {block : Block 128}

theorem zonedIpv6_eq_some_iff : zonedIpv6 text = some address ↔
    Ipv6Text text address ∨ ∃ front zone, text = front ++ '%' :: zone ∧ Ipv6Text front address ∧
      zone ≠ [] ∧ ∀ c ∈ zone, isZoneChar c := by
  have hpercent {text : List Char} {address : ℕ} (h : Ipv6Text text address) : '%' ∉ text :=
    fun hc => absurd (h.addressChars '%' hc) (by decide)
  constructor
  · intro h
    unfold zonedIpv6 at h
    split at h
    · exact Or.inl (ipv6_eq_some_iff.mp h)
    · next front zone hcut =>
        split at h
        · next hzone =>
            exact Or.inr ⟨front, zone, eq_of_cut hcut, ipv6_eq_some_iff.mp h, hzone.1,
              List.all_eq_true.mp hzone.2⟩
        · cases h
  · rintro (h | ⟨front, zone, rfl, h, hne, hzone⟩)
    · rw [zonedIpv6, cut_of_notMem (hpercent h)]
      exact ipv6_eq_some_iff.mpr h
    · rw [zonedIpv6, cut_append (hpercent h)]
      dsimp only
      rw [if_pos ⟨hne, List.all_eq_true.mpr hzone⟩]
      exact ipv6_eq_some_iff.mpr h

theorem colon_of_zonedIpv6 (h : zonedIpv6 text = some address) : ':' ∈ text := by
  rcases zonedIpv6_eq_some_iff.mp h with h | ⟨front, zone, rfl, h, -⟩
  · exact h.colon
  · exact List.mem_append_left _ h.colon

/-- The parser of addresses accepts exactly the texts of addresses. -/
theorem addressOf_eq_some_iff : addressOf text = some (address, base) ↔
    AddressText text address base := by
  unfold addressOf
  constructor
  · intro h
    split at h
    · next hipv4 =>
        cases h
        exact .ipv4 (ipv4_eq_some_iff.mp hipv4)
    · obtain ⟨n, hzoned, hpair⟩ := Option.map_eq_some_iff.mp h
      cases hpair
      rcases zonedIpv6_eq_some_iff.mp hzoned with h | ⟨front, zone, rfl, h, hne, hzone⟩
      · exact .ipv6 h
      · exact .zoned h hne hzone
  · intro h
    have hipv6 {text : List Char} {n : ℕ} (hzoned : zonedIpv6 text = some n) :
        (match ipv4 text with
          | some address => some (mappedIpv4 address, 96)
          | none => (zonedIpv6 text).map fun address => (address, 0)) = some (n, 0) := by
      cases hipv4 : ipv4 text with
      | some other =>
          exact absurd (colon_of_zonedIpv6 hzoned) (ipv4_eq_some_iff.mp hipv4).colon_notMem
      | none => rw [hzoned]; rfl
    cases h with
    | ipv4 h => rw [ipv4_eq_some_iff.mpr h]
    | ipv6 h => exact hipv6 (zonedIpv6_eq_some_iff.mpr (Or.inl h))
    | zoned h hne hzone =>
        exact hipv6 (zonedIpv6_eq_some_iff.mpr (Or.inr ⟨_, _, rfl, h, hne, hzone⟩))

theorem AddressText.lt (h : AddressText text address base) : address < 2 ^ 128 := by
  cases h with
  | ipv4 h =>
      have hlt := h.lt
      unfold mappedIpv4
      omega
  | ipv6 h => exact h.lt
  | zoned h => exact h.lt

theorem AddressText.slash_notMem (h : AddressText text address base) : '/' ∉ text := by
  intro hc
  cases h with
  | ipv4 h => exact absurd (h.addressChars '/' hc) (by decide)
  | ipv6 h => exact absurd (h.addressChars '/' hc) (by decide)
  | zoned h hne hzone =>
      rcases List.mem_append.mp hc with hc | hc
      · exact absurd (h.addressChars '/' hc) (by decide)
      · rcases List.mem_cons.mp hc with hc | hc
        · exact absurd hc (by decide)
        · exact absurd (hzone '/' hc) (by decide)

theorem blockAround_eq_some_iff {length : ℕ} (haddress : address < 2 ^ 128) :
    blockAround address length = some block ↔
      address ∈ block.addresses ∧ block.length = length := by
  unfold blockAround
  constructor
  · intro h
    split at h
    · next hbounds =>
        cases h
        exact ⟨Block.mem_around hbounds.1 hbounds.2, rfl⟩
    · cases h
  · rintro ⟨hmem, rfl⟩
    rw [dif_pos ⟨block.length_le, haddress⟩, Option.some.injEq]
    exact Block.ext rfl (Block.mem_addresses_iff.mp hmem)

/-- The parser of entries accepts exactly the texts of blocks. -/
theorem entryBlock_eq_some_iff : entryBlock entry = some block ↔ EntryText entry block := by
  unfold entryBlock
  constructor
  · intro h
    split at h
    · obtain ⟨⟨address, base⟩, htext, hblock⟩ := Option.bind_eq_some_iff.mp h
      have haddress := addressOf_eq_some_iff.mp htext
      obtain ⟨hmem, hlength⟩ := (blockAround_eq_some_iff haddress.lt).mp hblock
      exact ⟨entry, address, base, haddress, hmem, Or.inl ⟨rfl, hlength⟩⟩
    · next text suffix hcut =>
        obtain ⟨⟨address, base⟩, htext, h⟩ := Option.bind_eq_some_iff.mp h
        obtain ⟨n, hsuffix, hblock⟩ := Option.bind_eq_some_iff.mp h
        have haddress := addressOf_eq_some_iff.mp htext
        obtain ⟨hmem, hlength⟩ := (blockAround_eq_some_iff haddress.lt).mp hblock
        refine ⟨text, address, base, haddress, hmem, Or.inr ⟨n, ?_, hlength⟩⟩
        rw [eq_of_cut hcut, unpadded_eq_some_iff.mp hsuffix]
  · rintro ⟨text, address, base, haddress, hmem, ⟨rfl, hlength⟩ | ⟨n, rfl, hlength⟩⟩
    · rw [cut_of_notMem haddress.slash_notMem]
      dsimp only
      rw [addressOf_eq_some_iff.mpr haddress, Option.bind_some]
      exact (blockAround_eq_some_iff haddress.lt).mpr ⟨hmem, hlength⟩
    · rw [cut_append haddress.slash_notMem]
      dsimp only
      rw [addressOf_eq_some_iff.mpr haddress, Option.bind_some,
        unpadded_eq_some_iff.mpr rfl, Option.bind_some]
      exact (blockAround_eq_some_iff haddress.lt).mpr ⟨hmem, hlength⟩

end Entries

section Accepted

variable {text entry raw : List Char} {address base : ℕ} {block : Block 128}

theorem isIP_eq_zero_iff : isIP text = 0 ↔ addressOf text = none := by
  unfold isIP addressOf
  cases ipv4 text with
  | some address => simp
  | none => cases zonedIpv6 text <;> simp

/-- The limit of a prefix is what the family leaves of 128 bits. -/
theorem prefix_limit (h : addressOf text = some (address, base)) :
    (if isIP text = 4 then 32 else 128) = 128 - base := by
  unfold addressOf at h
  unfold isIP
  cases hipv4 : ipv4 text with
  | some other =>
      rw [hipv4] at h
      cases h
      rfl
  | none =>
      rw [hipv4] at h
      obtain ⟨n, hzoned, hpair⟩ := Option.map_eq_some_iff.mp h
      cases hpair
      rw [hzoned]
      rfl

theorem AddressText.base_le (h : AddressText text address base) : base ≤ 128 := by
  cases h <;> decide

theorem length_decimal_le {n : ℕ} (h : n ≤ 128) : (Json.decimal n).length ≤ 3 := by
  unfold Json.decimal
  split
  · decide
  · rw [List.length_map, List.length_reverse, Nat.digits_length_le_iff (by decide)]
    omega

/-- Every entry that the configuration lets pass denotes a block of addresses. -/
theorem isIpOrCidr_iff : isIpOrCidr entry ↔ ∃ block, EntryText entry block := by
  have hsome : (∃ block, EntryText entry block) ↔ (entryBlock entry).isSome := by
    rw [Option.isSome_iff_exists]
    exact exists_congr fun block => entryBlock_eq_some_iff.symm
  rw [hsome]
  have hblock {address base n : ℕ} {text : List Char} (h : addressOf text = some (address, base)) :
      (blockAround address (base + n)).isSome ↔ n ≤ 128 - base := by
    have haddress := addressOf_eq_some_iff.mp h
    have hbase := haddress.base_le
    unfold blockAround
    rw [Option.isSome_dite]
    have hlt := haddress.lt
    omega
  unfold isIpOrCidr entryBlock
  cases cut '/' entry with
  | none =>
      dsimp only
      cases h : addressOf entry with
      | none => simp [isIP_eq_zero_iff.mpr h]
      | some pair =>
          obtain ⟨address, base⟩ := pair
          have hne : isIP entry ≠ 0 := fun hzero => by
            rw [isIP_eq_zero_iff.mp hzero] at h
            cases h
          have hbase := (addressOf_eq_some_iff.mp h).base_le
          have hwhole := (hblock (n := 128 - base) h).mpr le_rfl
          rw [Nat.add_sub_cancel' hbase] at hwhole
          rw [if_neg hne, Option.bind_some]
          exact iff_of_true rfl hwhole
  | some cutting =>
      obtain ⟨text, suffix⟩ := cutting
      dsimp only
      cases h : addressOf text with
      | none => simp [isIP_eq_zero_iff.mpr h]
      | some pair =>
          obtain ⟨address, base⟩ := pair
          have hne : isIP text ≠ 0 := fun hzero => by
            rw [isIP_eq_zero_iff.mp hzero] at h
            cases h
          rw [if_neg hne, Option.bind_some, prefix_limit h]
          cases hsuffix : unpadded suffix with
          | none =>
              have hno : isUnpadded suffix = false := by
                unfold unpadded at hsuffix
                split at hsuffix
                · cases hsuffix
                · next hno => exact Bool.eq_false_iff.mpr hno
              simp [hno]
          | some n =>
              obtain rfl := unpadded_eq_some_iff.mp hsuffix
              rw [Option.bind_some, hblock h, isUnpadded_decimal, Json.digitsValue_decimal]
              by_cases hle : n ≤ 128 - base
              · have hlength := length_decimal_le (hle.trans (Nat.sub_le _ _))
                simp [hle, hlength]
              · simp [hle]

/-- The entries of a list. -/
def entriesOf (raw : List Char) : List (List Char) :=
  (splitOn ',' (BackupConfig.trim raw)).map BackupConfig.trim

/-- The texts that the setting allows. -/
inductive Acceptable (raw : List Char) : Prop
  | direct (h : (BackupConfig.trim raw).map Char.toLower = "false".toList)
  | hops (hne : BackupConfig.trim raw ≠ []) (hdigits : ∀ c ∈ BackupConfig.trim raw, c.isDigit)
      (hmin : 1 ≤ Json.digitsValue (BackupConfig.trim raw))
      (hmax : Json.digitsValue (BackupConfig.trim raw) ≤ trustProxyMaxHops)
  | proxies (h : ∀ entry ∈ entriesOf raw, ∃ block, EntryText entry block)

/-- Every entry has a point or a colon. -/
theorem EntryText.mark (h : EntryText entry block) : '.' ∈ entry ∨ ':' ∈ entry := by
  obtain ⟨text, address, base, haddress, -, hentry⟩ := h
  have htext : '.' ∈ text ∨ ':' ∈ text := by
    cases haddress with
    | ipv4 h => exact Or.inl h.chars.1
    | ipv6 h => exact Or.inr h.colon
    | zoned h => exact Or.inr (List.mem_append_left _ h.colon)
  rcases hentry with ⟨rfl, -⟩ | ⟨n, rfl, -⟩
  · exact htext
  · exact htext.imp (List.mem_append_left _) (List.mem_append_left _)

theorem mem_of_mem_trim {c : Char} (h : c ∈ BackupConfig.trim text) : c ∈ text := by
  have hstart : c ∈ BackupConfig.trimStart text :=
    List.mem_reverse.mp ((List.dropWhile_sublist _).subset (List.mem_reverse.mp h))
  exact (List.dropWhile_sublist _).subset hstart

theorem mark_of_entries (h : ∀ entry ∈ entriesOf raw, ∃ block, EntryText entry block) :
    '.' ∈ BackupConfig.trim raw ∨ ':' ∈ BackupConfig.trim raw := by
  obtain ⟨piece, pieces, hpieces⟩ :=
    List.exists_cons_of_ne_nil (splitOn_ne_nil ',' (BackupConfig.trim raw))
  have hpiece : piece ∈ splitOn ',' (BackupConfig.trim raw) := by
    rw [hpieces]
    exact List.mem_cons_self
  obtain ⟨block, hblock⟩ := h _ (List.mem_map_of_mem hpiece)
  have hmem {c : Char} (hc : c ∈ BackupConfig.trim piece) : c ∈ BackupConfig.trim raw := by
    rw [← joinWith_splitOn ',' (BackupConfig.trim raw)]
    exact mem_joinWith hpiece (mem_of_mem_trim hc)
  exact hblock.mark.imp hmem hmem

/-- What the branches before the list leave to it. -/
theorem not_word_of_mark (h : '.' ∈ text ∨ ':' ∈ text) :
    text ≠ [] ∧ text.map Char.toLower ≠ "true".toList ∧
      text.map Char.toLower ≠ "false".toList ∧ ¬∀ c ∈ text, c.isDigit := by
  have hword {word : List Char} (hdot : '.' ∉ word) (hcolon : ':' ∉ word) :
      text.map Char.toLower ≠ word := by
    rintro rfl
    rcases h with h | h
    · exact hdot (List.mem_map_of_mem (f := Char.toLower) h)
    · exact hcolon (List.mem_map_of_mem (f := Char.toLower) h)
  refine ⟨?_, hword (by decide) (by decide), hword (by decide) (by decide), fun hdigits => ?_⟩
  · rintro rfl
    exact h.elim List.not_mem_nil List.not_mem_nil
  · rcases h with h | h
    · exact absurd (hdigits '.' h) (by decide)
    · exact absurd (hdigits ':' h) (by decide)

variable (lowerCase : LowerCase)

theorem lower_true_iff : lowerCase.lower text = "true".toList ↔
    text.map Char.toLower = "true".toList :=
  lowerCase.lower_eq_iff (List.all_iff_forall_prop.mp (by decide))

theorem lower_false_iff : lowerCase.lower text = "false".toList ↔
    text.map Char.toLower = "false".toList :=
  lowerCase.lower_eq_iff (List.all_iff_forall_prop.mp (by decide))

/-- The hop counts that are accepted. -/
theorem parseHops_eq (hne : text ≠ []) (hdigits : ∀ c ∈ text, c.isDigit) :
    parseHops text =
      if 1 ≤ Json.digitsValue text ∧ Json.digitsValue text ≤ trustProxyMaxHops then
        some (.hops (Json.digitsValue text))
      else none := by
  unfold parseHops
  rw [Numbers.numberOf_digits hne hdigits]
  generalize Json.digitsValue text = n
  by_cases hrange : 1 ≤ n ∧ n ≤ trustProxyMaxHops
  · have hvalue : Numbers.ofMagnitude false n = .finite n := by
      rw [Numbers.ofMagnitude, Numbers.double_natCast
        (hrange.2.trans_lt (by decide : trustProxyMaxHops < 2 ^ 53))]
      rfl
    have hone : (1 : ℚ) ≤ n := by exact_mod_cast hrange.1
    have hmax : (n : ℚ) ≤ trustProxyMaxHops := by exact_mod_cast hrange.2
    have hsafe : isSafeInteger n := by
      have hlimit : (trustProxyMaxHops : ℚ) ≤ 2 ^ 53 - 1 := by norm_num [trustProxyMaxHops]
      rw [isSafeInteger, Rat.den_natCast, abs_of_nonneg (zero_le_one.trans hone)]
      exact Bool.and_eq_true_iff.mpr ⟨rfl, decide_eq_true (hmax.trans hlimit)⟩
    rw [hvalue, if_pos hrange]
    dsimp only
    rw [hsafe, if_neg (by simp [not_lt.mpr hone, not_lt.mpr hmax]), Rat.num_natCast,
      Int.toNat_natCast]
  · rw [if_neg hrange]
    cases hvalue : Numbers.ofMagnitude false n with
    | nan => rfl
    | infinity negative => rfl
    | finite value =>
        refine if_pos ?_
        by_contra hinside
        simp only [not_or, not_lt] at hinside
        exact hrange ((Numbers.exists_ofMagnitude_le_iff (by decide)).mp
          ⟨value, hvalue, hinside.2.1, hinside.2.2⟩)

theorem entries_all_iff :
    ((entriesOf raw).all fun entry => !entry.isEmpty && isIpOrCidr entry) = true ↔
      ∀ entry ∈ entriesOf raw, ∃ block, EntryText entry block := by
  rw [List.all_eq_true]
  refine forall₂_congr fun entry _ => ?_
  rw [Bool.and_eq_true, isIpOrCidr_iff]
  refine and_iff_right_of_imp ?_
  rintro ⟨block, h⟩
  cases entry with
  | nil => exact absurd h.mark (by simp)
  | cons => rfl

/-- A list is accepted for what its entries are. -/
theorem parseTrustProxy_of_mark (h : '.' ∈ BackupConfig.trim raw ∨ ':' ∈ BackupConfig.trim raw) :
    parseTrustProxy lowerCase raw =
      if (entriesOf raw).all fun entry => !entry.isEmpty && isIpOrCidr entry then
        some (.proxies (entriesOf raw))
      else none := by
  obtain ⟨hne, htrue, hfalse, hdigits⟩ := not_word_of_mark h
  unfold parseTrustProxy
  simp only [lower_true_iff, lower_false_iff]
  rw [if_neg (not_or.mpr ⟨hne, htrue⟩), if_neg hfalse,
    if_neg fun hall => hdigits (List.all_eq_true.mp hall)]
  rfl

/-- The words and the rows of digits. -/
theorem parseTrustProxy_of_not_mark
    (h : ¬('.' ∈ BackupConfig.trim raw ∨ ':' ∈ BackupConfig.trim raw)) :
    parseTrustProxy lowerCase raw =
      if (BackupConfig.trim raw).map Char.toLower = "false".toList then some .direct
      else if BackupConfig.trim raw ≠ [] ∧ (BackupConfig.trim raw).all Char.isDigit then
        parseHops (BackupConfig.trim raw)
      else none := by
  have hlist : ¬((entriesOf raw).all fun entry => !entry.isEmpty && isIpOrCidr entry) = true :=
    fun hall => h (mark_of_entries (entries_all_iff.mp hall))
  unfold parseTrustProxy
  simp only [lower_true_iff, lower_false_iff]
  by_cases hempty : BackupConfig.trim raw = []
  · simp [hempty]
  · by_cases htrue : (BackupConfig.trim raw).map Char.toLower = "true".toList
    · have hfalse : (BackupConfig.trim raw).map Char.toLower ≠ "false".toList := by
        rw [htrue]
        decide
      have hdigits : ¬(BackupConfig.trim raw).all Char.isDigit := by
        intro hall
        have hmem : 't' ∈ (BackupConfig.trim raw).map Char.toLower := by
          rw [htrue]
          decide
        obtain ⟨c, hc, hlower⟩ := List.mem_map.mp hmem
        have hdigit := List.all_eq_true.mp hall c hc
        obtain ⟨d, hd, rfl, -⟩ := digit_val hdigit
        have hall : ∀ d : Fin 10, (Char.ofNat (48 + d)).toLower ≠ 't' := by decide
        exact hall ⟨d, hd⟩ hlower
      rw [if_pos (Or.inr htrue), if_neg hfalse, if_neg fun hand => hdigits hand.2]
    · rw [if_neg (not_or.mpr ⟨hempty, htrue⟩)]
      refine if_congr Iff.rfl rfl ?_
      by_cases hdigits : (BackupConfig.trim raw).all Char.isDigit
      · rw [if_pos hdigits, if_pos ⟨hempty, hdigits⟩]
      · have hneither :
            ¬(BackupConfig.trim raw ≠ [] ∧ (BackupConfig.trim raw).all Char.isDigit) := fun hand =>
          hdigits hand.2
        rw [if_neg hdigits, if_neg hneither]
        exact if_neg hlist

/-- A list of proxies is configured exactly when all entries are texts of blocks. -/
theorem parseTrustProxy_eq_proxies_iff {entries : List (List Char)} :
    parseTrustProxy lowerCase raw = some (.proxies entries) ↔
      (∀ entry ∈ entriesOf raw, ∃ block, EntryText entry block) ∧ entries = entriesOf raw := by
  by_cases hmark : '.' ∈ BackupConfig.trim raw ∨ ':' ∈ BackupConfig.trim raw
  · rw [parseTrustProxy_of_mark lowerCase hmark, ← entries_all_iff]
    split
    · next hall =>
        rw [and_iff_right hall, Option.some.injEq, TrustProxySetting.proxies.injEq, eq_comm]
    · next hall => exact iff_of_false nofun fun h => hall h.1
  · refine iff_of_false (fun h => ?_) fun h => hmark (mark_of_entries h.1)
    rw [parseTrustProxy_of_not_mark lowerCase hmark] at h
    split at h
    · cases h
    · split at h
      · next hdigits =>
          rw [parseHops_eq hdigits.1 (List.all_eq_true.mp hdigits.2)] at h
          split at h <;> cases h
      · cases h

/-- Exactly the allowed texts are accepted. -/
theorem parseTrustProxy_isSome_iff (raw : List Char) :
    (parseTrustProxy lowerCase raw).isSome ↔ Acceptable raw := by
  by_cases hmark : '.' ∈ BackupConfig.trim raw ∨ ':' ∈ BackupConfig.trim raw
  · obtain ⟨-, -, hfalse, hdigits⟩ := not_word_of_mark hmark
    rw [parseTrustProxy_of_mark lowerCase hmark]
    constructor
    · intro h
      split at h
      · next hall => exact .proxies (entries_all_iff.mp hall)
      · cases h
    · rintro (h | ⟨-, h⟩ | h)
      · exact absurd h hfalse
      · exact absurd h hdigits
      · rw [if_pos (entries_all_iff.mpr h)]
        rfl
  · rw [parseTrustProxy_of_not_mark lowerCase hmark]
    by_cases hfalse : (BackupConfig.trim raw).map Char.toLower = "false".toList
    · rw [if_pos hfalse]
      exact iff_of_true rfl (.direct hfalse)
    rw [if_neg hfalse]
    by_cases hdigits : BackupConfig.trim raw ≠ [] ∧ (BackupConfig.trim raw).all Char.isDigit
    · rw [if_pos hdigits, parseHops_eq hdigits.1 (List.all_eq_true.mp hdigits.2)]
      constructor
      · intro h
        split at h
        · next hrange =>
            exact .hops hdigits.1 (List.all_eq_true.mp hdigits.2) hrange.1 hrange.2
        · cases h
      · rintro (h | ⟨-, -, hmin, hmax⟩ | h)
        · exact absurd h hfalse
        · rw [if_pos ⟨hmin, hmax⟩]
          rfl
        · exact absurd (mark_of_entries h) hmark
    · rw [if_neg hdigits]
      refine iff_of_false nofun ?_
      rintro (h | ⟨hne, h, -, -⟩ | h)
      · exact hfalse h
      · exact hdigits ⟨hne, List.all_eq_true.mpr h⟩
      · exact hmark (mark_of_entries h)

end Accepted

/-! ## Peers outside a list -/

/-- The IPv4-mapped addresses. -/
def ipv4Block : Block 128 where
  length := 96
  network := 0xFFFF
  length_le := by decide
  network_lt := by decide

/-- The peers of each family. -/
inductive IpFamily
  | ipv4
  | ipv6

def IpFamily.Has : IpFamily → ℕ → Prop
  | .ipv4, peer => peer ∈ ipv4Block.addresses
  | .ipv6, peer => peer < 2 ^ 128 ∧ peer ∉ ipv4Block.addresses

/-- An entry of the list has the peer in its range. -/
def Listed (entries : List (List Char)) (peer : ℕ) : Prop :=
  ∃ entry ∈ entries, ∃ block, EntryText entry block ∧ peer ∈ block.addresses

/-- What `proxy-addr` documents: a list trusts only what it lists, and a request is from
the closest hop that is not trusted. -/
structure Documented (proxyAddr : ProxyAddr) : Prop where
  trusts_listed : ∀ entries, (∀ entry ∈ entries, ∃ block, EntryText entry block) →
    ∀ peer, proxyAddr.compile entries (some peer) = true → Listed entries peer
  closest : ∀ (trust : Hop → ℕ → Bool) (trusted rest : List Hop) (hop : Hop),
    (∀ (i : ℕ) (other : Hop), trusted[i]? = some other → trust other i = true) →
      trust hop trusted.length = false → proxyAddr.resolve trust (trusted ++ hop :: rest) = hop

/-- The setting accepts what it should, and under an accepted list there are peers of both
families outside it, who are taken for themselves whatever header they send. -/
structure NeverTrustsEveryone (lowerCase : LowerCase) (proxyAddr : ProxyAddr)
    (raw : List Char) : Prop where
  accepts : (parseTrustProxy lowerCase raw).isSome ↔ Acceptable raw
  outside : ∀ entries, parseTrustProxy lowerCase raw = some (.proxies entries) →
    ∀ family : IpFamily, ∃ peer, family.Has peer ∧ ¬Listed entries peer
  itself : ∀ entries, parseTrustProxy lowerCase raw = some (.proxies entries) →
    ∀ peer, ¬Listed entries peer → ∀ forwarded : List Hop,
      requestIp proxyAddr (.proxies entries) peer forwarded = some peer

/-- The blocks of the entries of a text. -/
def listedBlocks (raw : List Char) : Finset (Block 128) :=
  ((entriesOf raw).filterMap entryBlock).toFinset

/-- The outermost blocks do not add up to the addresses of a family. -/
def LeavesRoom (raw : List Char) : Prop :=
  (∀ entry ∈ entriesOf raw, isIpOrCidr entry = true) →
    ∑ block ∈ outermost (listedBlocks raw), Block.common block ipv4Block < 2 ^ 32 ∧
      ∑ block ∈ outermost (listedBlocks raw), (block.size - Block.common block ipv4Block) <
        2 ^ 128 - 2 ^ 32

instance (raw : List Char) : Decidable (LeavesRoom raw) :=
  inferInstanceAs (Decidable ((∀ entry ∈ entriesOf raw, isIpOrCidr entry = true) → _))

theorem listed_iff {raw : List Char} {peer : ℕ} :
    Listed (entriesOf raw) peer ↔ ∃ block ∈ listedBlocks raw, peer ∈ block.addresses := by
  unfold Listed listedBlocks
  simp only [List.mem_toFinset, List.mem_filterMap, entryBlock_eq_some_iff]
  constructor
  · rintro ⟨entry, hentry, block, hblock, hpeer⟩
    exact ⟨block, ⟨entry, hentry, hblock⟩, hpeer⟩
  · rintro ⟨block, ⟨entry, hentry, hblock⟩, hpeer⟩
    exact ⟨entry, hentry, block, hblock, hpeer⟩

/-- The count of the outermost blocks decides whether a family has a peer outside. -/
theorem outside_iff (raw : List Char) :
    (∀ family : IpFamily, ∃ peer, family.Has peer ∧ ¬Listed (entriesOf raw) peer) ↔
      ∑ block ∈ outermost (listedBlocks raw), Block.common block ipv4Block < 2 ^ 32 ∧
        ∑ block ∈ outermost (listedBlocks raw), (block.size - Block.common block ipv4Block) <
          2 ^ 128 - 2 ^ 32 := by
  have hsize : ipv4Block.size = 2 ^ 32 := by decide
  rw [← hsize, ← Block.exists_uncovered_in_iff, ← Block.exists_uncovered_outside_iff]
  simp only [listed_iff, not_exists, not_and]
  constructor
  · intro h
    obtain ⟨peer, ⟨hlt, hout⟩, hunlisted⟩ := h .ipv6
    exact ⟨h .ipv4, peer, hlt, hout, hunlisted⟩
  · rintro ⟨hipv4, peer, hlt, hout, hunlisted⟩ family
    cases family with
    | ipv4 => exact hipv4
    | ipv6 => exact ⟨peer, ⟨hlt, hout⟩, hunlisted⟩

/-- A peer that no entry lists is the closest hop that is not trusted. -/
theorem requestIp_of_not_listed {proxyAddr : ProxyAddr} (hproxy : Documented proxyAddr)
    {entries : List (List Char)} (hentries : ∀ entry ∈ entries, ∃ block, EntryText entry block)
    {peer : ℕ} (hpeer : ¬Listed entries peer) (forwarded : List Hop) :
    requestIp proxyAddr (.proxies entries) peer forwarded = some peer := by
  have huntrusted : proxyAddr.compile entries (some peer) = false :=
    Bool.eq_false_iff.mpr fun htrusted =>
      hpeer (hproxy.trusts_listed entries hentries peer htrusted)
  exact hproxy.closest (fun hop _ => proxyAddr.compile entries hop) [] forwarded (some peer)
    nofun huntrusted

/-- The setting never trusts everyone exactly when the outermost blocks of a list leave
room in both families. -/
theorem never_trusts_everyone_iff (lowerCase : LowerCase) (proxyAddr : ProxyAddr)
    (hproxy : Documented proxyAddr) (raw : List Char) :
    NeverTrustsEveryone lowerCase proxyAddr raw ↔ LeavesRoom raw := by
  have hlist : (∀ entry ∈ entriesOf raw, isIpOrCidr entry = true) ↔
      ∀ entry ∈ entriesOf raw, ∃ block, EntryText entry block :=
    forall₂_congr fun entry _ => isIpOrCidr_iff
  constructor
  · intro h hentries
    refine (outside_iff raw).mp (h.outside _ ?_)
    exact (parseTrustProxy_eq_proxies_iff lowerCase).mpr ⟨hlist.mp hentries, rfl⟩
  · intro h
    refine ⟨parseTrustProxy_isSome_iff lowerCase raw, fun entries hparse => ?_,
      fun entries hparse peer hpeer => ?_⟩
    · obtain ⟨hentries, rfl⟩ := (parseTrustProxy_eq_proxies_iff lowerCase).mp hparse
      exact (outside_iff raw).mpr (h (hlist.mpr hentries))
    · obtain ⟨hentries, rfl⟩ := (parseTrustProxy_eq_proxies_iff lowerCase).mp hparse
      exact requestIp_of_not_listed hproxy hentries hpeer

/-- The first hop that is not trusted, and else the farthest one. -/
def closestFrom (trust : Hop → ℕ → Bool) : ℕ → List Hop → Hop
  | _, [] => none
  | distance, hop :: rest =>
      if trust hop distance && !rest.isEmpty then closestFrom trust (distance + 1) rest else hop

def listedProxies (entries : List (List Char)) : Hop → Bool
  | none => false
  | some peer => entries.any fun entry => (entryBlock entry).any fun block =>
      peer / block.size = block.network

def plainProxyAddr : ProxyAddr where
  compile := listedProxies
  resolve trust := closestFrom trust 0

/-- Behind trusted hops only, the first one that is not trusted is taken. -/
theorem closestFrom_append {trust : Hop → ℕ → Bool} {hop : Hop} (rest trusted : List Hop)
    (distance : ℕ)
    (htrusted : ∀ (i : ℕ) (other : Hop), trusted[i]? = some other →
      trust other (distance + i) = true)
    (huntrusted : trust hop (distance + trusted.length) = false) :
    closestFrom trust distance (trusted ++ hop :: rest) = hop := by
  induction trusted generalizing distance with
  | nil =>
      rw [List.length_nil, Nat.add_zero] at huntrusted
      rw [List.nil_append, closestFrom, huntrusted]
      rfl
  | cons first trusted ih =>
      have hfirst : trust first distance = true := htrusted 0 first rfl
      have hrest : (trusted ++ hop :: rest).isEmpty = false := by simp
      rw [List.cons_append, closestFrom, hfirst, hrest]
      refine ih (distance + 1) (fun i other hother => ?_) ?_
      · rw [Nat.add_assoc, Nat.add_comm 1]
        exact htrusted (i + 1) other hother
      · rw [Nat.add_assoc, Nat.add_comm 1]
        exact huntrusted

theorem documented_plainProxyAddr : Documented plainProxyAddr where
  trusts_listed entries _ peer h := by
    obtain ⟨entry, hentry, h⟩ := List.any_eq_true.mp h
    cases hblock : entryBlock entry with
    | none =>
        rw [hblock] at h
        cases h
    | some block =>
        rw [hblock] at h
        exact ⟨entry, hentry, block, entryBlock_eq_some_iff.mp hblock,
          Block.mem_addresses_iff.mpr (of_decide_eq_true h)⟩
  closest trust trusted rest hop htrusted huntrusted := by
    refine closestFrom_append rest trusted 0 (fun i other hother => ?_) ?_
    · rw [Nat.zero_add]
      exact htrusted i other hother
    · rw [Nat.zero_add]
      exact huntrusted

theorem never_trusts_everyone_at_private :
    NeverTrustsEveryone asciiLowerCase plainProxyAddr "10.0.0.0/8, 172.16.0.0/12, ::1".toList :=
  (never_trusts_everyone_iff _ _ documented_plainProxyAddr _).mpr (by decide +kernel)

/-- The two halves of the IPv4 addresses. -/
def halves : List Char := "0.0.0.0/1,128.0.0.0/1".toList

theorem halves_trust_everyone :
    ¬∀ (lowerCase : LowerCase) (proxyAddr : ProxyAddr) (raw : List Char),
      Documented proxyAddr → NeverTrustsEveryone lowerCase proxyAddr raw := by
  intro h
  have hall := h asciiLowerCase plainProxyAddr halves documented_plainProxyAddr
  have hvalid : ∀ entry ∈ entriesOf halves, isIpOrCidr entry = true := by decide +kernel
  have hparse : parseTrustProxy asciiLowerCase halves = some (.proxies (entriesOf halves)) :=
    (parseTrustProxy_eq_proxies_iff _).mpr
      ⟨fun entry hentry => isIpOrCidr_iff.mp (hvalid entry hentry), rfl⟩
  have hroom := (outside_iff halves).mp (hall.outside _ hparse)
  exact absurd hroom.1 (by decide +kernel)

end Orgistry.Model.TrustProxy
