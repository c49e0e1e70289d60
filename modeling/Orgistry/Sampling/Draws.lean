import Mathlib.Data.Fintype.BigOperators
import Mathlib.Data.Fintype.Fin
import Mathlib.Data.Int.CardIntervalMod

/-!
# Draws from a finite source

How many values of the source give one output: counted for independent draws and for
remainders.  An output map is unbiased when no output has more sources than another one.
-/

namespace Orgistry.Sampling

section Sources

variable {A B C : Type*} [Fintype A] [DecidableEq B] [DecidableEq C]

/-- The values of the source that give `b`. -/
def sources (f : A → B) (b : B) : Finset A := Finset.univ.filter fun a => f a = b

/-- All these outputs have the same number of sources. -/
def Unbiased (f : A → B) (outputs : Set B) : Prop :=
  ∃ count, ∀ b ∈ outputs, (sources f b).card = count

theorem sources_comp {g : B → C} (hg : Function.Injective g) (f : A → B) (b : B) :
    sources (fun a => g (f a)) (g b) = sources f b := by
  ext a
  simp only [sources, Finset.mem_filter, hg.eq_iff]

/-- One draw after the other. -/
def draws (f : A → B) {length : ℕ} (run : Fin length → A) : Fin length → B := fun i => f (run i)

theorem sources_draws (f : A → B) {length : ℕ} (out : Fin length → B) :
    sources (draws f) out = Fintype.piFinset fun i => sources f (out i) := by
  ext run
  simp only [sources, draws, Finset.mem_filter, Finset.mem_univ, true_and, Fintype.mem_piFinset,
    funext_iff]

theorem card_sources_draws (f : A → B) {length : ℕ} (out : Fin length → B) :
    (sources (draws f) out).card = ∏ i, (sources f (out i)).card := by
  rw [sources_draws, Fintype.card_piFinset]

end Sources

section Remainders

variable {m n : ℕ}

/-- The remainders below `m % n` have one source more than the others. -/
theorem card_sources_mod (hn : 0 < n) {r : ℕ} (hr : r < n) :
    (sources (fun a : Fin m => a.val % n) r).card = m / n + if r < m % n then 1 else 0 := by
  have hcount : (sources (fun a : Fin m => a.val % n) r).card = m.count (· ≡ r [MOD n]) := by
    rw [Nat.count_eq_card_filter_range, ← Nat.Iio_eq_range, ← Fin.map_valEmbedding_univ,
      Finset.filter_map, Finset.card_map]
    apply congrArg Finset.card
    ext a
    simp [sources, Nat.ModEq, Nat.mod_eq_of_lt hr]
  rw [hcount, Nat.count_modEq_card m hn, Nat.mod_eq_of_lt hr]

end Remainders

end Orgistry.Sampling
