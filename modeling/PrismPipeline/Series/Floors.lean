import Mathlib.Algebra.Order.BigOperators.Group.List
import Mathlib.Algebra.Order.Floor.Ring

/-!
# Sums of integer parts

What a sum of amounts loses when each amount is cut to its integer part before it is added:
the integer part of the sum of the fractions, which is nothing exactly when the fractions
together stay below one.
-/

namespace PrismPipeline.Series

variable {𝕜 : Type*} [Field 𝕜] [LinearOrder 𝕜] [FloorRing 𝕜]

def floors (amounts : List 𝕜) : ℕ := (amounts.map Nat.floor).sum

def fractions (amounts : List 𝕜) : 𝕜 := (amounts.map Int.fract).sum

@[simp] theorem floors_snoc (amounts : List 𝕜) (amount : 𝕜) :
    floors (amounts ++ [amount]) = floors amounts + ⌊amount⌋₊ := by
  simp [floors]

variable {amounts : List 𝕜}

/-- A sum is what its integer parts and its fractions add up to. -/
theorem sum_eq_floors_add_fractions (nonneg : ∀ amount ∈ amounts, 0 ≤ amount) :
    amounts.sum = floors amounts + fractions amounts := by
  induction amounts with
  | nil => simp [floors, fractions]
  | cons amount amounts ih =>
      obtain ⟨first, later⟩ := List.forall_mem_cons.mp nonneg
      have split : amount = ⌊amount⌋₊ + Int.fract amount := by
        rw [natCast_floor_eq_intCast_floor first, Int.floor_add_fract]
      have tail : amounts.sum = floors amounts + fractions amounts := ih later
      unfold floors fractions at tail ⊢
      rw [List.sum_cons, List.map_cons, List.sum_cons, List.map_cons, List.sum_cons, Nat.cast_add,
        tail, add_add_add_comm, ← split]

/-! ## What is lost -/

variable [IsStrictOrderedRing 𝕜]

theorem fractions_nonneg (amounts : List 𝕜) : 0 ≤ fractions amounts := by
  apply List.sum_nonneg
  intro part member
  obtain ⟨amount, -, rfl⟩ := List.mem_map.mp member
  exact Int.fract_nonneg amount

/-- What is lost by cutting every amount. -/
theorem floor_sum_eq (nonneg : ∀ amount ∈ amounts, 0 ≤ amount) :
    ⌊amounts.sum⌋₊ = floors amounts + ⌊fractions amounts⌋₊ := by
  rw [sum_eq_floors_add_fractions nonneg, add_comm,
    Nat.floor_add_natCast (fractions_nonneg amounts), add_comm]

theorem floors_le_floor_sum (nonneg : ∀ amount ∈ amounts, 0 ≤ amount) :
    floors amounts ≤ ⌊amounts.sum⌋₊ := by
  rw [floor_sum_eq nonneg]
  exact Nat.le_add_right _ _

theorem floors_eq_floor_sum_iff (nonneg : ∀ amount ∈ amounts, 0 ≤ amount) :
    floors amounts = ⌊amounts.sum⌋₊ ↔ fractions amounts < 1 := by
  rw [floor_sum_eq nonneg, ← Nat.floor_eq_zero]
  constructor
  · intro same
    exact Nat.left_eq_add.mp same
  · intro zero
    rw [zero, Nat.add_zero]

/-- Amounts below one leave no integer part behind, however many there are. -/
theorem floors_eq_zero (small : ∀ amount ∈ amounts, amount < 1) : floors amounts = 0 := by
  induction amounts with
  | nil => rfl
  | cons amount amounts ih =>
      obtain ⟨first, later⟩ := List.forall_mem_cons.mp small
      have rest : floors amounts = 0 := ih later
      unfold floors at rest ⊢
      rw [List.map_cons, List.sum_cons, rest, Nat.floor_eq_zero.mpr first]

end PrismPipeline.Series
