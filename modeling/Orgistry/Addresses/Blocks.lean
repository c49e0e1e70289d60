import Mathlib.Algebra.BigOperators.Group.Finset.Basic
import Mathlib.Algebra.Order.BigOperators.Group.Finset
import Mathlib.Order.Interval.Finset.Nat
import Mathlib.Order.Preorder.Finite
import Mathlib.Tactic.Ring

/-!
# Blocks of addresses

What a finite family of sets covers when any two of its members are nested or disjoint:
only the outermost members count, and these are disjoint.  The blocks of addresses with a
common prefix are such a family.
-/

namespace Orgistry.Addresses

section Laminar

variable {ι α : Type} [PartialOrder ι] [DecidableEq ι] [DecidableLE ι] [DecidableEq α]

/-- A family of parts, ordered by inclusion, of which any two are nested or disjoint. -/
structure Laminar (part : ι → Finset α) : Prop where
  subset_of_le : ∀ {i j : ι}, i ≤ j → part i ⊆ part j
  nested_or_disjoint : ∀ i j : ι, i ≤ j ∨ j ≤ i ∨ Disjoint (part i) (part j)

/-- The members inside no other one. -/
def outermost (family : Finset ι) : Finset ι :=
  family.filter fun i => ∀ j ∈ family, i ≤ j → j = i

def covered (part : ι → Finset α) (family : Finset ι) : Finset α := family.biUnion part

variable {part : ι → Finset α} (h : Laminar part) (family : Finset ι)

omit [DecidableEq α] in
theorem exists_outermost {i : ι} (hi : i ∈ family) : ∃ j ∈ outermost family, i ≤ j := by
  obtain ⟨j, hij, hmaximal⟩ := family.exists_le_maximal hi
  refine ⟨j, Finset.mem_filter.mpr ⟨hmaximal.prop, fun k hk hjk => ?_⟩, hij⟩
  exact le_antisymm (hmaximal.le_of_ge hk hjk) hjk

include h

theorem covered_outermost : covered part (outermost family) = covered part family := by
  ext a
  unfold covered
  rw [Finset.mem_biUnion, Finset.mem_biUnion]
  constructor
  · rintro ⟨i, hi, ha⟩
    exact ⟨i, (Finset.mem_filter.mp hi).1, ha⟩
  · rintro ⟨i, hi, ha⟩
    obtain ⟨j, hj, hij⟩ := exists_outermost family hi
    exact ⟨j, hj, h.subset_of_le hij ha⟩

omit [DecidableEq α] in
theorem outermost_disjoint {i j : ι} (hi : i ∈ outermost family) (hj : j ∈ outermost family)
    (hne : i ≠ j) : Disjoint (part i) (part j) := by
  obtain ⟨hi, houter⟩ := Finset.mem_filter.mp hi
  obtain ⟨hj, houter'⟩ := Finset.mem_filter.mp hj
  rcases h.nested_or_disjoint i j with hle | hle | hdisjoint
  · exact absurd (houter j hj hle).symm hne
  · exact absurd (houter' i hi hle) hne
  · exact hdisjoint

/-- The outermost members share out what a family covers of a region. -/
theorem card_covered_inter (region : Finset α) :
    (covered part family ∩ region).card =
      ∑ i ∈ outermost family, (part i ∩ region).card := by
  rw [← covered_outermost h, covered, Finset.biUnion_inter]
  refine Finset.card_biUnion fun i hi j hj hne => ?_
  exact (outermost_disjoint h family hi hj hne).mono Finset.inter_subset_left
    Finset.inter_subset_left

/-- Something of a region is left exactly when the outermost members do not add up to it. -/
theorem exists_uncovered_iff (region : Finset α) :
    (∃ a ∈ region, ∀ i ∈ family, a ∉ part i) ↔
      ∑ i ∈ outermost family, (part i ∩ region).card < region.card := by
  rw [← card_covered_inter h]
  constructor
  · rintro ⟨a, ha, hout⟩
    refine Finset.card_lt_card ⟨Finset.inter_subset_right, fun hsubset => ?_⟩
    obtain ⟨i, hi, hin⟩ := Finset.mem_biUnion.mp (Finset.mem_inter.mp (hsubset ha)).1
    exact hout i hi hin
  · intro hlt
    obtain ⟨a, ha, hout⟩ := Finset.exists_mem_notMem_of_card_lt_card hlt
    refine ⟨a, ha, fun i hi hin => hout ?_⟩
    exact Finset.mem_inter.mpr ⟨Finset.mem_biUnion.mpr ⟨i, hi, hin⟩, ha⟩

end Laminar

/-- The addresses of `width` bits that begin with the bits of `network`, `length` many. -/
@[ext]
structure Block (width : ℕ) where
  length : ℕ
  network : ℕ
  length_le : length ≤ width
  network_lt : network < 2 ^ length
  deriving DecidableEq

namespace Block

variable {width : ℕ} (block other : Block width)

/-- The number of its addresses. -/
def size : ℕ := 2 ^ (width - block.length)

def addresses : Finset ℕ :=
  Finset.Ico (block.network * block.size) ((block.network + 1) * block.size)

/-- The block of an address with a prefix of the given length. -/
def around (address length : ℕ) (hlength : length ≤ width) (haddress : address < 2 ^ width) :
    Block width where
  length := length
  network := address / 2 ^ (width - length)
  length_le := hlength
  network_lt := by
    rw [Nat.div_lt_iff_lt_mul (Nat.two_pow_pos _), ← pow_add, Nat.add_sub_cancel' hlength]
    exact haddress

instance : LE (Block width) where
  le block other :=
    other.length ≤ block.length ∧
      block.network / 2 ^ (block.length - other.length) = other.network

instance : DecidableLE (Block width) := fun block other =>
  inferInstanceAs (Decidable (other.length ≤ block.length ∧
    block.network / 2 ^ (block.length - other.length) = other.network))

variable {block other}

theorem size_pos : 0 < block.size := Nat.two_pow_pos _

theorem card_addresses (block : Block width) : block.addresses.card = block.size := by
  rw [addresses, Nat.card_Ico, Nat.add_mul, Nat.one_mul, Nat.add_sub_cancel_left]

theorem mem_addresses_iff {a : ℕ} : a ∈ block.addresses ↔ a / block.size = block.network := by
  rw [addresses, Finset.mem_Ico, Nat.div_eq_iff size_pos, Nat.add_mul, Nat.one_mul]
  have hpos : 0 < block.size := size_pos
  omega

theorem mem_around {a length : ℕ} (hlength : length ≤ width) (ha : a < 2 ^ width) :
    a ∈ (around a length hlength ha).addresses :=
  mem_addresses_iff.mpr rfl

theorem addresses_lt {a : ℕ} (ha : a ∈ block.addresses) : a < 2 ^ width := by
  have hwidth : 2 ^ width = 2 ^ block.length * block.size := by
    rw [size, ← pow_add, Nat.add_sub_cancel' block.length_le]
  rw [hwidth, ← Nat.div_lt_iff_lt_mul size_pos, mem_addresses_iff.mp ha]
  exact block.network_lt

theorem size_eq_mul (h : other.length ≤ block.length) :
    other.size = block.size * 2 ^ (block.length - other.length) := by
  have hle := block.length_le
  rw [size, size, ← pow_add]
  congr 1
  omega

theorem div_size (h : other.length ≤ block.length) (a : ℕ) :
    a / other.size = a / block.size / 2 ^ (block.length - other.length) := by
  rw [size_eq_mul h, Nat.div_div_eq_div_mul]

instance : PartialOrder (Block width) where
  le_refl block := ⟨le_rfl, by rw [Nat.sub_self, pow_zero, Nat.div_one]⟩
  le_trans a b c := by
    rintro ⟨hab, hnetwork⟩ ⟨hbc, hnetwork'⟩
    refine ⟨hbc.trans hab, ?_⟩
    rw [← hnetwork', ← hnetwork, Nat.div_div_eq_div_mul, ← pow_add]
    congr 2
    omega
  le_antisymm a b := by
    rintro ⟨hab, hnetwork⟩ ⟨hba, -⟩
    have hlength := le_antisymm hba hab
    rw [hlength, Nat.sub_self, pow_zero, Nat.div_one] at hnetwork
    exact Block.ext hlength hnetwork

theorem addresses_subset (h : block ≤ other) : block.addresses ⊆ other.addresses := by
  obtain ⟨hlength, hnetwork⟩ := h
  intro a ha
  rw [mem_addresses_iff] at ha ⊢
  rw [div_size hlength, ha, hnetwork]

/-- A block of a longer prefix is inside one of a shorter prefix, or apart from it. -/
theorem le_or_disjoint (h : other.length ≤ block.length) :
    block ≤ other ∨ Disjoint block.addresses other.addresses := by
  by_cases hnetwork : block.network / 2 ^ (block.length - other.length) = other.network
  · exact Or.inl ⟨h, hnetwork⟩
  · refine Or.inr (Finset.disjoint_left.mpr fun a ha hother => hnetwork ?_)
    rw [mem_addresses_iff] at ha hother
    rw [← ha, ← hother, div_size h]

theorem laminar : Laminar (addresses : Block width → Finset ℕ) where
  subset_of_le := addresses_subset
  nested_or_disjoint block other := by
    rcases le_total other.length block.length with h | h
    · exact (le_or_disjoint h).imp_right Or.inr
    · exact Or.inr ((le_or_disjoint h).imp_right fun hdisjoint => hdisjoint.symm)

/-- The number of common addresses. -/
def common (block other : Block width) : ℕ :=
  if block ≤ other then block.size else if other ≤ block then other.size else 0

theorem card_inter (block other : Block width) :
    (block.addresses ∩ other.addresses).card = common block other := by
  unfold common
  split
  · next h =>
      rw [Finset.inter_eq_left.mpr (addresses_subset h), card_addresses]
  · next hblock =>
      split
      · next h =>
          rw [Finset.inter_eq_right.mpr (addresses_subset h), card_addresses]
      · next hother =>
          rcases laminar.nested_or_disjoint block other with h | h | h
          · exact absurd h hblock
          · exact absurd h hother
          · rw [Finset.disjoint_iff_inter_eq_empty.mp h, Finset.card_empty]

theorem card_inter_outside (block other : Block width) :
    (block.addresses ∩ (Finset.range (2 ^ width) \ other.addresses)).card =
      block.size - common block other := by
  have hsplit : block.addresses ∩ (Finset.range (2 ^ width) \ other.addresses) =
      block.addresses \ other.addresses := by
    ext a
    simp only [Finset.mem_inter, Finset.mem_sdiff, Finset.mem_range]
    exact ⟨fun h => ⟨h.1, h.2.2⟩, fun h => ⟨h.1, addresses_lt h.1, h.2⟩⟩
  rw [hsplit, Finset.card_sdiff, Finset.inter_comm, card_inter, card_addresses]

theorem card_outside (block : Block width) :
    (Finset.range (2 ^ width) \ block.addresses).card = 2 ^ width - block.size := by
  rw [Finset.card_sdiff_of_subset, Finset.card_range, card_addresses]
  exact fun a ha => Finset.mem_range.mpr (addresses_lt ha)

variable (family : Finset (Block width)) (block)

/-- A block is not covered when its share of the outermost blocks is less than the block. -/
theorem exists_uncovered_in_iff :
    (∃ a ∈ block.addresses, ∀ b ∈ family, a ∉ b.addresses) ↔
      ∑ b ∈ outermost family, common b block < block.size := by
  rw [exists_uncovered_iff laminar, card_addresses]
  simp only [card_inter]

theorem exists_uncovered_outside_iff :
    (∃ a < 2 ^ width, a ∉ block.addresses ∧ ∀ b ∈ family, a ∉ b.addresses) ↔
      ∑ b ∈ outermost family, (b.size - common b block) < 2 ^ width - block.size := by
  have hregion := exists_uncovered_iff laminar family (Finset.range (2 ^ width) \ block.addresses)
  rw [card_outside] at hregion
  simp only [card_inter_outside, Finset.mem_sdiff, Finset.mem_range, and_assoc] at hregion
  exact hregion

end Block

end Orgistry.Addresses
