import Mathlib.Data.List.Sort
import Mathlib.Order.Lattice
import Orgistry.Keyset.Traversal

/-!
# Newest first

Listings in descending order of an instant, with a descending unique key for
rows of the same instant, and cursors that may remember the instant of a row only
roughly.
-/

namespace Orgistry.Keyset

variable {Row T K : Type} [LinearOrder T] [LinearOrder K]

/-- A point between two rows of a listing. -/
structure Position (T K : Type) where
  time : T
  id : K
  deriving DecidableEq

section

variable (time : Row → T) (id : Row → K)

/-- `a` stands before `b`. -/
def Newer (a b : Row) : Prop := time b < time a ∨ time a = time b ∧ id b < id a

/-- The relation to sort by; it differs from `Newer` on equal keys only. -/
def NotOlder (a b : Row) : Prop := time b < time a ∨ time a = time b ∧ id b ≤ id a

instance : DecidableRel (NotOlder time id) := fun _ _ =>
  inferInstanceAs (Decidable (_ ∨ _))

instance : Std.Total (NotOlder time id) where
  total a b := by
    unfold NotOlder
    rcases lt_trichotomy (time a) (time b) with hlt | heq | hlt
    · exact .inr (.inl hlt)
    · rcases le_total (id a) (id b) with hle | hle
      · exact .inr (.inr ⟨heq.symm, hle⟩)
      · exact .inl (.inr ⟨heq, hle⟩)
    · exact .inl (.inl hlt)

instance : IsTrans Row (NotOlder time id) where
  trans a b c := by
    rintro (hab | ⟨hab, hid⟩) (hbc | ⟨hbc, hid'⟩)
    · exact .inl (hbc.trans hab)
    · exact .inl (hbc ▸ hab)
    · exact .inl (hab ▸ hbc)
    · exact .inr ⟨hab.trans hbc, hid'.trans hid⟩

/-- `ORDER BY time DESC, id DESC`. -/
def newestFirst (rows : List Row) : List Row := rows.insertionSort (NotOlder time id)

/-- `time < position.time OR (time = position.time AND id < position.id)`. -/
def older (position : Position T K) (row : Row) : Bool :=
  time row < position.time || (time row = position.time && id row < position.id)

end

variable {time : Row → T} {id : Row → K} {rows : List Row}

theorem older_iff {position : Position T K} {row : Row} :
    older time id position row ↔
      time row < position.time ∨ time row = position.time ∧ id row < position.id := by
  simp only [older, Bool.or_eq_true, Bool.and_eq_true, decide_eq_true_eq]

theorem NotOlder.newer {a b : Row} (h : NotOlder time id a b) (hne : id a ≠ id b) :
    Newer time id a b := by
  rcases h with hlt | ⟨heq, hle⟩
  · exact .inl hlt
  · exact .inr ⟨heq, lt_of_le_of_ne hle hne.symm⟩

theorem Newer.asymm {a b : Row} (h : Newer time id a b) : ¬Newer time id b a := by
  rintro (hba | ⟨hba, hid'⟩)
  · rcases h with hab | ⟨hab, hid⟩
    · exact lt_asymm hab hba
    · exact lt_irrefl _ (hab ▸ hba)
  · rcases h with hab | ⟨hab, hid⟩
    · exact lt_irrefl _ (hba ▸ hab)
    · exact lt_asymm hid hid'

/-- Rows with distinct ids stand in one strict order. -/
theorem pairwise_newestFirst (hrows : (rows.map id).Nodup) :
    (newestFirst time id rows).Pairwise (Newer time id) := by
  have hids : (newestFirst time id rows).Pairwise fun a b => id a ≠ id b := by
    have hperm : ((newestFirst time id rows).map id).Nodup :=
      ((List.perm_insertionSort _ rows).map id).nodup_iff.mpr hrows
    exact List.pairwise_map.mp hperm
  exact ((List.pairwise_insertionSort (NotOlder time id) rows).and hids).imp
    fun h => h.1.newer h.2

/-- One strict order allows one list of given rows. -/
theorem eq_of_newer {a b : List Row} (h : a.Perm b) (ha : a.Pairwise (Newer time id))
    (hb : b.Pairwise (Newer time id)) : a = b :=
  h.eq_of_pairwise (fun _ _ _ _ hab hba => absurd hba hab.asymm) ha hb

/-- A listing does not depend on how the rows lay in the table. -/
theorem newestFirst_perm {rows' : List Row} (h : rows.Perm rows') (hrows : (rows.map id).Nodup) :
    newestFirst time id rows = newestFirst time id rows' :=
  eq_of_newer
    (((List.perm_insertionSort _ rows).trans h).trans (List.perm_insertionSort _ rows').symm)
    (pairwise_newestFirst hrows) (pairwise_newestFirst ((h.map id).nodup_iff.mp hrows))

/-- A selection of the rows in order is the ordered selection. -/
theorem newestFirst_filter (hrows : (rows.map id).Nodup) (p : Row → Bool) :
    newestFirst time id (rows.filter p) = (newestFirst time id rows).filter p := by
  have hfiltered : ((rows.filter p).map id).Nodup :=
    (List.filter_sublist.map id).nodup hrows
  refine eq_of_newer ?_ (pairwise_newestFirst hfiltered) ((pairwise_newestFirst hrows).filter p)
  exact (List.perm_insertionSort _ _).trans
    ((List.perm_insertionSort _ rows).filter p).symm

section

variable {Cursor : Type} {cursorOf : Row → Cursor} (position : Cursor → Position T K)

/-- Cursors that remember the id of a row, and its instant or an earlier one,
agree with the order. -/
theorem ordered_newestFirst (hrows : (rows.map id).Nodup)
    (htime : ∀ row, (position (cursorOf row)).time ≤ time row)
    (hid : ∀ row, (position (cursorOf row)).id = id row) :
    Ordered (Newer time id) cursorOf (fun cursor => older time id (position cursor))
      (newestFirst time id rows) where
  sorted := pairwise_newestFirst hrows
  asymm := Newer.asymm
  after {a b} h := by
    rw [older_iff, hid] at h
    rcases h with hlt | ⟨heq, hlt⟩
    · exact .inl (lt_of_lt_of_le hlt (htime a))
    · rcases lt_or_eq_of_le (heq ▸ htime a : time b ≤ time a) with hearlier | hsame
      · exact .inl hearlier
      · exact .inr ⟨hsame.symm, hlt⟩
  closed {cursor a b} hab h := by
    rw [older_iff] at h ⊢
    rcases hab with hlt | ⟨hsame, hlt⟩
    · rcases h with ha | ⟨ha, -⟩
      · exact .inl (hlt.trans ha)
      · exact .inl (ha ▸ hlt)
    · rcases h with ha | ⟨ha, haid⟩
      · exact .inl (hsame ▸ ha)
      · exact .inr ⟨hsame ▸ ha, hlt.trans haid⟩

/-- Cursors that remember the instant exactly break nothing. -/
theorem unbroken_of_exact (hrows : (rows.map id).Nodup) {limit : ℕ} (hlimit : 0 < limit)
    (hexact : ∀ row ∈ rows, position (cursorOf row) = ⟨time row, id row⟩) :
    Unbroken limit cursorOf (fun cursor => older time id (position cursor))
      (newestFirst time id rows) := by
  intro k last next hk hlast hnext
  obtain ⟨hi, hlast⟩ := List.getElem?_eq_some_iff.mp hlast
  obtain ⟨hj, hnext⟩ := List.getElem?_eq_some_iff.mp hnext
  have hpos : 0 < k * limit := Nat.mul_pos hk hlimit
  have hnewer := List.pairwise_iff_getElem.mp (pairwise_newestFirst hrows) _ _ hi hj (by omega)
  have hmem : last ∈ rows :=
    (List.perm_insertionSort _ rows).mem_iff.mp (hlast ▸ List.getElem_mem hi)
  rw [hlast, hnext] at hnewer
  rw [older_iff, hexact last hmem]
  exact hnewer.imp_right fun h => ⟨h.1.symm, h.2⟩

end

end Orgistry.Keyset
