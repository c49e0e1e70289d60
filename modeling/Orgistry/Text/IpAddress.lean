import Orgistry.Text.Encodings
import Orgistry.Text.JsonNumbers

/-!
# Addresses as text

Decimal numbers without padding, dotted quads, and IPv6 addresses with their compressed
groups.  Each notation is a relation between texts and what they denote, with a function
that reads it.
-/

namespace Orgistry.Text

open Json

/-- `/^(0|[1-9]\d*)$/` -/
def isUnpadded (text : List Char) : Bool :=
  text.all Char.isDigit && (text = ['0'] || text.head?.any (· ≠ '0'))

def unpadded (text : List Char) : Option ℕ :=
  if isUnpadded text then some (digitsValue text) else none

section Unpadded

theorem digit_val {c : Char} (h : c.isDigit) :
    ∃ d < 10, c = Char.ofNat (48 + d) ∧ c.toNat - 48 = d := by
  unfold Char.isDigit at h
  simp only [Bool.and_eq_true, decide_eq_true_eq, ge_iff_le, UInt32.le_iff_toNat_le] at h
  change 48 ≤ c.toNat ∧ c.toNat ≤ 57 at h
  refine ⟨c.toNat - 48, by omega, ?_, rfl⟩
  rw [Nat.add_sub_cancel' h.1, Char.ofNat_toNat]

/-- Digits without padding are the decimal of their value. -/
theorem decimal_digitsValue {text : List Char} (h : isUnpadded text) :
    decimal (digitsValue text) = text := by
  obtain ⟨hdigits, hhead⟩ := Bool.and_eq_true_iff.mp h
  rw [List.all_eq_true] at hdigits
  rcases Bool.or_eq_true_iff.mp hhead with hzero | hhead
  · rw [of_decide_eq_true hzero]
    rfl
  · have hdigit : ∀ c ∈ text, Char.ofNat (48 + (c.toNat - 48)) = c ∧ c.toNat - 48 < 10 := by
      intro c hc
      obtain ⟨d, hd, hchar, hval⟩ := digit_val (hdigits c hc)
      rw [hval]
      exact ⟨hchar.symm, hd⟩
    have hmap : (text.map fun c => c.toNat - 48).map (fun d => Char.ofNat (48 + d)) = text := by
      rw [List.map_map]
      exact (List.map_congr_left fun c hc => (hdigit c hc).1).trans (List.map_id _)
    have hbound : ∀ d ∈ (text.map fun c => c.toNat - 48).reverse, d < 10 := by
      intro d hd
      obtain ⟨c, hc, rfl⟩ := List.mem_map.mp (List.mem_reverse.mp hd)
      exact (hdigit c hc).2
    have hvalue : digitsValue text =
        Nat.ofDigits 10 (text.map fun c => c.toNat - 48).reverse := by
      rw [← digitsValue_map hbound, List.reverse_reverse, hmap]
    cases text with
    | nil => cases hhead
    | cons c rest =>
        have hlast : ∀ hne : ((c :: rest).map fun c => c.toNat - 48).reverse ≠ [],
            ((c :: rest).map fun c => c.toNat - 48).reverse.getLast hne ≠ 0 := by
          intro hne hzero
          rw [List.getLast_reverse, List.head_map, List.head_cons] at hzero
          have hc := (hdigit c List.mem_cons_self).1
          rw [hzero] at hc
          exact of_decide_eq_true hhead hc.symm
        have hdigits := Nat.digits_ofDigits 10 (by decide) _ hbound hlast
        rw [decimal, hvalue, hdigits, List.reverse_reverse, hmap, if_neg]
        intro hzero
        rw [hzero, Nat.digits_zero] at hdigits
        simp at hdigits

theorem isUnpadded_decimal (n : ℕ) : isUnpadded (decimal n) := by
  refine Bool.and_eq_true_iff.mpr ⟨List.all_eq_true.mpr (decimal_digits n), ?_⟩
  rcases decimal_cases n with hzero | ⟨c, digits, hdigits, hc⟩
  · rw [hzero]
    rfl
  · rw [hdigits]
    exact Bool.or_eq_true_iff.mpr (Or.inr (decide_eq_true hc))

theorem unpadded_eq_some_iff {text : List Char} {n : ℕ} :
    unpadded text = some n ↔ text = decimal n := by
  unfold unpadded
  split
  · next h =>
      rw [Option.some.injEq]
      constructor
      · rintro rfl
        exact (decimal_digitsValue h).symm
      · rintro rfl
        exact digitsValue_decimal n
  · next h =>
      refine iff_of_false nofun ?_
      rintro rfl
      exact h (isUnpadded_decimal n)

end Unpadded

def octet (text : List Char) : Option ℕ := (unpadded text).filter (· ≤ 255)

/-- The number of four octets, the first one highest. -/
def ofOctets (a b c d : ℕ) : ℕ := ((a * 256 + b) * 256 + c) * 256 + d

def dotted (a b c d : ℕ) : List Char :=
  joinWith '.' [decimal a, decimal b, decimal c, decimal d]

/-- `/^(?:SEG\.){3}SEG$/` where `SEG` is `25[0-5]|2[0-4]\d|1\d\d|[1-9]\d|\d`. -/
def ipv4 (text : List Char) : Option ℕ :=
  match splitOn '.' text with
  | [a, b, c, d] => do return ofOctets (← octet a) (← octet b) (← octet c) (← octet d)
  | _ => none

/-- The dotted decimal notation of an IPv4 address. -/
def Ipv4Text (text : List Char) (address : ℕ) : Prop :=
  ∃ a ≤ 255, ∃ b ≤ 255, ∃ c ≤ 255, ∃ d ≤ 255,
    text = dotted a b c d ∧ address = ofOctets a b c d

section Ipv4

theorem octet_eq_some_iff {text : List Char} {n : ℕ} :
    octet text = some n ↔ text = decimal n ∧ n ≤ 255 := by
  unfold octet
  rw [Option.filter_eq_some_iff, unpadded_eq_some_iff, decide_eq_true_eq]

theorem dot_notMem_decimal (n : ℕ) : '.' ∉ decimal n := fun h =>
  absurd (decimal_digits n '.' h) (by decide)

theorem splitOn_dotted (a b c d : ℕ) :
    splitOn '.' (dotted a b c d) = [decimal a, decimal b, decimal c, decimal d] := by
  refine splitOn_joinWith (List.cons_ne_nil _ _) fun piece hpiece => ?_
  simp only [List.mem_cons, List.not_mem_nil, or_false] at hpiece
  rcases hpiece with rfl | rfl | rfl | rfl <;> exact dot_notMem_decimal _

/-- The parser accepts exactly four decimal numbers below 256. -/
theorem ipv4_eq_some_iff {text : List Char} {address : ℕ} :
    ipv4 text = some address ↔ Ipv4Text text address := by
  constructor
  · intro h
    have hjoin := joinWith_splitOn '.' text
    unfold ipv4 at h
    split at h
    · next a b c d hsplit =>
        simp only [Option.bind_eq_bind, Option.bind_eq_some_iff, octet_eq_some_iff] at h
        obtain ⟨a', ⟨rfl, ha⟩, b', ⟨rfl, hb⟩, c', ⟨rfl, hc⟩, d', ⟨rfl, hd⟩, hvalue⟩ := h
        rw [hsplit] at hjoin
        exact ⟨a', ha, b', hb, c', hc, d', hd, hjoin.symm, (Option.some.inj hvalue).symm⟩
    · cases h
  · rintro ⟨a, ha, b, hb, c, hc, d, hd, rfl, rfl⟩
    have hoctet {n : ℕ} (hn : n ≤ 255) : octet (decimal n) = some n :=
      octet_eq_some_iff.mpr ⟨rfl, hn⟩
    rw [ipv4, splitOn_dotted]
    simp only [hoctet ha, hoctet hb, hoctet hc, hoctet hd]
    rfl

theorem Ipv4Text.lt {text : List Char} {address : ℕ} (h : Ipv4Text text address) :
    address < 2 ^ 32 := by
  obtain ⟨a, ha, b, hb, c, hc, d, hd, -, rfl⟩ := h
  unfold ofOctets
  omega

end Ipv4

/-- `/^[0-9a-fA-F]{1,4}$/`, with the number it stands for. -/
def hexGroup (text : List Char) : Option ℕ :=
  if 1 ≤ text.length ∧ text.length ≤ 4 ∧ text.all fun c => (hexValue c).isSome then
    some (text.foldl (fun n c => 16 * n + (hexValue c).getD 0) 0)
  else none

/-- The numbers of the pieces between colons; where a quad may end them, it is two groups. -/
def readGroups (quad : Bool) : List (List Char) → Option (List ℕ)
  | [] => some []
  | [last] =>
      match hexGroup last with
      | some n => some [n]
      | none =>
          if quad then (ipv4 last).map fun address => [address / 65536, address % 65536] else none
  | piece :: next :: pieces => do
      return (← hexGroup piece) :: (← readGroups quad (next :: pieces))

/-- What stands on one side of two colons. -/
def readSide (quad : Bool) (text : List Char) : Option (List ℕ) :=
  if text = [] then some [] else readGroups quad (splitOn ':' text)

/-- The eight groups, with zeros for two colons in a row. -/
def ipv6Groups (text : List Char) : Option (List ℕ) :=
  match cutDouble ':' text with
  | none => (readGroups true (splitOn ':' text)).filter fun groups => groups.length = 8
  | some (left, right) => do
      let front ← readSide false left
      let back ← readSide true right
      if front.length + back.length ≤ 7 then
        return front ++ List.replicate (8 - (front.length + back.length)) 0 ++ back
      else none

def ofGroups (groups : List ℕ) : ℕ := groups.foldl (fun n group => 65536 * n + group) 0

def ipv6 (text : List Char) : Option ℕ := (ipv6Groups text).map ofGroups

/-- Pieces and the groups they denote. -/
inductive Groups : Bool → List (List Char) → List ℕ → Prop
  | group {quad : Bool} {piece : List Char} {n : ℕ} (h : hexGroup piece = some n) :
      Groups quad [piece] [n]
  | quad {piece : List Char} {address : ℕ} (h : Ipv4Text piece address) :
      Groups true [piece] [address / 65536, address % 65536]
  | cons {quad : Bool} {piece : List Char} {n : ℕ} {pieces : List (List Char)} {groups : List ℕ}
      (h : hexGroup piece = some n) (hrest : Groups quad pieces groups) :
      Groups quad (piece :: pieces) (n :: groups)

/-- Groups with single colons between them. -/
def GroupsText (quad : Bool) (text : List Char) (groups : List ℕ) : Prop :=
  ∃ pieces, text = joinWith ':' pieces ∧ Groups quad pieces groups

def SideText (quad : Bool) (text : List Char) (groups : List ℕ) : Prop :=
  (text = [] ∧ groups = []) ∨ GroupsText quad text groups

/-- The notations of an IPv6 address: eight groups, or fewer around two colons, the last
two of them as a quad if one likes. -/
def Ipv6Text (text : List Char) (address : ℕ) : Prop :=
  ∃ groups, address = ofGroups groups ∧
    ((GroupsText true text groups ∧ groups.length = 8) ∨
      ∃ left right front back, text = left ++ ':' :: ':' :: right ∧ SideText false left front ∧
        SideText true right back ∧ front.length + back.length ≤ 7 ∧
        groups = front ++ List.replicate (8 - (front.length + back.length)) 0 ++ back)

section Ipv6

variable {quad : Bool} {text piece : List Char} {pieces : List (List Char)} {groups : List ℕ}
  {n address : ℕ}

theorem hexGroup_eq_some (h : hexGroup piece = some n) :
    piece ≠ [] ∧ (∀ c ∈ piece, (hexValue c).isSome) ∧ n < 65536 := by
  unfold hexGroup at h
  split at h
  · next hgroup =>
      obtain ⟨hmin, hmax, hall⟩ := hgroup
      have hbound : ∀ (text : List Char) (start : ℕ),
          text.foldl (fun n c => 16 * n + (hexValue c).getD 0) start <
            16 ^ text.length * (start + 1) := by
        intro text
        induction text with
        | nil => simp
        | cons c text ih =>
            intro start
            have hdigit : (hexValue c).getD 0 < 16 := by
              cases hvalue : hexValue c with
              | none => simp
              | some value => exact hexValue_lt hvalue
            calc text.foldl (fun n c => 16 * n + (hexValue c).getD 0)
                  (16 * start + (hexValue c).getD 0)
                < 16 ^ text.length * (16 * start + (hexValue c).getD 0 + 1) := ih _
              _ ≤ 16 ^ text.length * (16 * (start + 1)) := Nat.mul_le_mul_left _ (by omega)
              _ = 16 ^ (c :: text).length * (start + 1) := by
                  rw [List.length_cons, pow_succ, Nat.mul_assoc]
      refine ⟨List.length_pos_iff.mp hmin, List.all_eq_true.mp hall, ?_⟩
      rw [← Option.some.inj h]
      refine (hbound piece 0).trans_le ?_
      rw [Nat.zero_add, Nat.mul_one]
      exact Nat.pow_le_pow_right (by decide) hmax
  · cases h

/-- The characters of a quad. -/
theorem Ipv4Text.chars (h : Ipv4Text piece address) :
    '.' ∈ piece ∧ ∀ c ∈ piece, c = '.' ∨ c.isDigit := by
  obtain ⟨a, -, b, -, c, -, d, -, rfl, -⟩ := h
  unfold dotted
  rw [joinWith_cons]
  refine ⟨by simp, fun e he => ?_⟩
  simp only [List.flatMap_cons, List.flatMap_nil, List.mem_append, List.mem_cons,
    List.not_mem_nil, or_false] at he
  rcases he with he | he | he | he
  · exact Or.inr (decimal_digits a e he)
  · exact he.imp_right (decimal_digits b e)
  · exact he.imp_right (decimal_digits c e)
  · exact he.imp_right (decimal_digits d e)

theorem Ipv4Text.hexGroup_eq_none (h : Ipv4Text piece address) : hexGroup piece = none := by
  cases hgroup : hexGroup piece with
  | none => rfl
  | some n => exact absurd ((hexGroup_eq_some hgroup).2.1 '.' h.chars.1) (by decide)

/-- No piece is empty or has a colon, and every group has 16 bits. -/
theorem Groups.sound (h : Groups quad pieces groups) :
    pieces ≠ [] ∧ (∀ piece ∈ pieces, piece ≠ [] ∧ ':' ∉ piece) ∧ ∀ n ∈ groups, n < 65536 := by
  have hpiece {piece : List Char} {n : ℕ} (h : hexGroup piece = some n) :
      piece ≠ [] ∧ ':' ∉ piece :=
    ⟨(hexGroup_eq_some h).1, fun hc => absurd ((hexGroup_eq_some h).2.1 ':' hc) (by decide)⟩
  induction h with
  | group h =>
      refine ⟨List.cons_ne_nil _ _, ?_, ?_⟩
      · exact List.forall_mem_singleton.mpr (hpiece h)
      · exact List.forall_mem_singleton.mpr (hexGroup_eq_some h).2.2
  | @quad piece address h =>
      refine ⟨List.cons_ne_nil _ _, List.forall_mem_singleton.mpr ⟨?_, fun hc => ?_⟩, ?_⟩
      · rintro rfl
        exact nomatch h.chars.1
      · rcases h.chars.2 ':' hc with hdot | hdigit
        · exact absurd hdot (by decide)
        · exact absurd hdigit (by decide)
      · have hlt := h.lt
        intro n hn
        simp only [List.mem_cons, List.not_mem_nil, or_false] at hn
        rcases hn with rfl | rfl <;> omega
  | cons h _ ih =>
      obtain ⟨-, hpieces, hgroups⟩ := ih
      exact ⟨List.cons_ne_nil _ _, List.forall_mem_cons.mpr ⟨hpiece h, hpieces⟩,
        List.forall_mem_cons.mpr ⟨(hexGroup_eq_some h).2.2, hgroups⟩⟩

/-- By induction on the pieces between colons. -/
theorem groups_of_readGroups (hne : pieces ≠ []) (h : readGroups quad pieces = some groups) :
    Groups quad pieces groups := by
  induction pieces generalizing groups with
  | nil => exact absurd rfl hne
  | cons piece pieces ih =>
      cases pieces with
      | nil =>
          rw [readGroups] at h
          cases hgroup : hexGroup piece with
          | some n =>
              rw [hgroup] at h
              rw [← Option.some.inj h]
              exact .group hgroup
          | none =>
              rw [hgroup] at h
              cases quad with
              | false => cases h
              | true =>
                  obtain ⟨address, haddress, rfl⟩ := Option.map_eq_some_iff.mp h
                  exact .quad (ipv4_eq_some_iff.mp haddress)
      | cons next pieces =>
          simp only [readGroups, Option.bind_eq_bind, Option.bind_eq_some_iff] at h
          obtain ⟨n, hgroup, rest, hrest, hgroups⟩ := h
          rw [← Option.some.inj hgroups]
          exact .cons hgroup (ih (List.cons_ne_nil _ _) hrest)

theorem Groups.read (h : Groups quad pieces groups) : readGroups quad pieces = some groups := by
  induction h with
  | group h => rw [readGroups, h]
  | quad h =>
      rw [readGroups, h.hexGroup_eq_none]
      dsimp only
      rw [if_pos rfl, ipv4_eq_some_iff.mpr h, Option.map_some]
  | @cons quad piece n pieces groups h hrest ih =>
      obtain ⟨next, more, rfl⟩ := List.exists_cons_of_ne_nil hrest.sound.1
      rw [readGroups, h, ih]
      rfl

theorem readGroups_splitOn_iff :
    readGroups quad (splitOn ':' text) = some groups ↔ GroupsText quad text groups := by
  constructor
  · intro h
    exact ⟨_, (joinWith_splitOn ':' text).symm, groups_of_readGroups (splitOn_ne_nil _ _) h⟩
  · rintro ⟨pieces, rfl, h⟩
    rw [splitOn_joinWith h.sound.1 fun piece hpiece => (h.sound.2.1 piece hpiece).2]
    exact h.read

theorem GroupsText.single (h : GroupsText quad text groups) : Single ':' text := by
  obtain ⟨pieces, rfl, h⟩ := h
  exact single_joinWith h.sound.2.1

theorem GroupsText.ne_nil (h : GroupsText quad text groups) : text ≠ [] := by
  obtain ⟨pieces, rfl, h⟩ := h
  obtain ⟨piece, rest, rfl⟩ := List.exists_cons_of_ne_nil h.sound.1
  rw [joinWith_cons]
  exact List.append_ne_nil_of_left_ne_nil (h.sound.2.1 piece List.mem_cons_self).1 _

theorem readSide_eq_some_iff : readSide quad text = some groups ↔ SideText quad text groups := by
  unfold readSide SideText
  split
  · next hnil =>
      rw [Option.some.injEq, eq_comm, and_iff_right hnil]
      exact ⟨Or.inl, fun h => h.resolve_right fun htext => htext.ne_nil hnil⟩
  · next hne =>
      rw [readGroups_splitOn_iff]
      exact ⟨Or.inr, fun h => h.resolve_left fun hnil => hne hnil.1⟩

theorem SideText.single (h : SideText quad text groups) : Single ':' text := by
  rcases h with ⟨rfl, -⟩ | h
  · rfl
  · exact h.single

/-- The parser accepts exactly the texts of addresses and gives their numbers. -/
theorem ipv6_eq_some_iff : ipv6 text = some address ↔ Ipv6Text text address := by
  unfold ipv6
  rw [Option.map_eq_some_iff]
  constructor
  · rintro ⟨groups, h, rfl⟩
    refine ⟨groups, rfl, ?_⟩
    unfold ipv6Groups at h
    split at h
    · obtain ⟨hread, hlength⟩ := Option.filter_eq_some_iff.mp h
      exact Or.inl ⟨readGroups_splitOn_iff.mp hread, of_decide_eq_true hlength⟩
    · next left right hcut =>
        simp only [Option.bind_eq_bind, Option.bind_eq_some_iff] at h
        obtain ⟨front, hfront, back, hback, h⟩ := h
        split at h
        · next hlength =>
            exact Or.inr ⟨left, right, front, back, eq_of_cutDouble hcut,
              readSide_eq_some_iff.mp hfront, readSide_eq_some_iff.mp hback, hlength,
              (Option.some.inj h).symm⟩
        · cases h
  · rintro ⟨groups, rfl, ⟨htext, hlength⟩ |
      ⟨left, right, front, back, rfl, hfront, hback, hlength, rfl⟩⟩
    · refine ⟨groups, ?_, rfl⟩
      rw [ipv6Groups, htext.single.cutDouble_eq_none]
      exact Option.filter_eq_some_iff.mpr
        ⟨readGroups_splitOn_iff.mpr htext, decide_eq_true hlength⟩
    · refine ⟨_, ?_, rfl⟩
      rw [ipv6Groups, hfront.single.cutDouble_append]
      dsimp only
      rw [readSide_eq_some_iff.mpr hfront, readSide_eq_some_iff.mpr hback]
      exact if_pos hlength

theorem ofGroups_lt (h : ∀ n ∈ groups, n < 65536) : ofGroups groups < 65536 ^ groups.length := by
  have hbound : ∀ start, groups.foldl (fun n group => 65536 * n + group) start <
      65536 ^ groups.length * (start + 1) := by
    induction groups with
    | nil => simp
    | cons n groups ih =>
        obtain ⟨hn, hgroups⟩ := List.forall_mem_cons.mp h
        intro start
        calc groups.foldl (fun n group => 65536 * n + group) (65536 * start + n)
            < 65536 ^ groups.length * (65536 * start + n + 1) := ih hgroups _
          _ ≤ 65536 ^ groups.length * (65536 * (start + 1)) :=
              Nat.mul_le_mul_left _ (by omega)
          _ = 65536 ^ (n :: groups).length * (start + 1) := by
              rw [List.length_cons, pow_succ, Nat.mul_assoc]
  have h0 := hbound 0
  rwa [Nat.zero_add, Nat.mul_one] at h0

theorem SideText.lt (h : SideText quad text groups) : ∀ n ∈ groups, n < 65536 := by
  rcases h with ⟨-, rfl⟩ | ⟨pieces, -, h⟩
  · exact List.forall_mem_nil _
  · exact h.sound.2.2

theorem Ipv6Text.lt (h : Ipv6Text text address) : address < 2 ^ 128 := by
  obtain ⟨groups, rfl, ⟨⟨pieces, -, hgroups⟩, hlength⟩ |
    ⟨left, right, front, back, -, hfront, hback, hlength, rfl⟩⟩ := h
  · have hlt := ofGroups_lt hgroups.sound.2.2
    rw [hlength] at hlt
    exact hlt.trans_eq (by norm_num)
  · have hall : ∀ n ∈ front ++ List.replicate (8 - (front.length + back.length)) 0 ++ back,
        n < 65536 := by
      intro n hn
      rcases List.mem_append.mp hn with hn | hn
      · rcases List.mem_append.mp hn with hn | hn
        · exact hfront.lt n hn
        · rw [List.eq_of_mem_replicate hn]
          decide
      · exact hback.lt n hn
    have hlt := ofGroups_lt hall
    have height : (front ++ List.replicate (8 - (front.length + back.length)) 0 ++ back).length =
        8 := by
      simp only [List.length_append, List.length_replicate]
      omega
    rw [height] at hlt
    exact hlt.trans_eq (by norm_num)

/-- The characters of addresses. -/
def isAddressChar (c : Char) : Bool := c = ':' || c = '.' || (hexValue c).isSome

theorem isAddressChar_of_isDigit {c : Char} (h : c.isDigit) : isAddressChar c := by
  obtain ⟨d, hd, rfl, -⟩ := digit_val h
  have hall : ∀ d : Fin 10, isAddressChar (Char.ofNat (48 + d)) := by decide
  exact hall ⟨d, hd⟩

theorem Ipv4Text.addressChars (h : Ipv4Text text address) : ∀ c ∈ text, isAddressChar c := by
  intro c hc
  rcases h.chars.2 c hc with rfl | hdigit
  · rfl
  · exact isAddressChar_of_isDigit hdigit

theorem Groups.addressChars (h : Groups quad pieces groups) :
    ∀ piece ∈ pieces, ∀ c ∈ piece, isAddressChar c := by
  have hgroup {piece : List Char} {n : ℕ} (h : hexGroup piece = some n) :
      ∀ c ∈ piece, isAddressChar c := fun c hc =>
    Bool.or_eq_true_iff.mpr (Or.inr ((hexGroup_eq_some h).2.1 c hc))
  induction h with
  | group h => exact List.forall_mem_singleton.mpr (hgroup h)
  | quad h => exact List.forall_mem_singleton.mpr h.addressChars
  | cons h _ ih => exact List.forall_mem_cons.mpr ⟨hgroup h, ih⟩

theorem GroupsText.addressChars (h : GroupsText quad text groups) :
    ∀ c ∈ text, isAddressChar c := by
  obtain ⟨pieces, rfl, h⟩ := h
  intro c hc
  by_contra hno
  refine notMem_joinWith ?_ (fun piece hpiece hmem => hno (h.addressChars piece hpiece c hmem)) hc
  rintro rfl
  exact hno rfl

theorem SideText.addressChars (h : SideText quad text groups) : ∀ c ∈ text, isAddressChar c := by
  rcases h with ⟨rfl, -⟩ | h
  · exact List.forall_mem_nil _
  · exact h.addressChars

theorem Ipv6Text.addressChars (h : Ipv6Text text address) : ∀ c ∈ text, isAddressChar c := by
  obtain ⟨groups, -, ⟨htext, -⟩ | ⟨left, right, front, back, rfl, hfront, hback, -, -⟩⟩ := h
  · exact htext.addressChars
  · intro c hc
    rcases List.mem_append.mp hc with hc | hc
    · exact hfront.addressChars c hc
    · rcases List.mem_cons.mp hc with rfl | hc
      · rfl
      · rcases List.mem_cons.mp hc with rfl | hc
        · rfl
        · exact hback.addressChars c hc

theorem Ipv6Text.colon (h : Ipv6Text text address) : ':' ∈ text := by
  obtain ⟨groups, -, ⟨⟨pieces, rfl, hgroups⟩, hlength⟩ | ⟨left, right, _, _, rfl, -⟩⟩ := h
  · -- eight groups stand in more than one piece
    cases hgroups with
    | group => cases hlength
    | quad => cases hlength
    | cons _ hrest =>
        obtain ⟨next, more, rfl⟩ := List.exists_cons_of_ne_nil hrest.sound.1
        rw [joinWith_cons]
        simp
  · simp

theorem Ipv4Text.colon_notMem (h : Ipv4Text text address) : ':' ∉ text := fun hc => by
  rcases h.chars.2 ':' hc with hdot | hdigit
  · exact absurd hdot (by decide)
  · exact absurd hdigit (by decide)

end Ipv6

end Orgistry.Text
