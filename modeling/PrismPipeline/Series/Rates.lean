import Mathlib.Data.List.GetD
import Mathlib.Algebra.GroupWithZero.Nat
import Mathlib.Order.Lattice

/-!
# Rates of a counter

A counter is read from time to time, and for each reading the growth since the last one
is shown, divided by the length of a period.  The divisions lose less than one period's
worth for each reading, so the rates shown account for the counter up to that much.
-/

namespace PrismPipeline.Series

/-- What is shown for the readings after a reading of `last`. -/
def rates (period : ℕ) : ℕ → List ℕ → List ℕ
  | _, [] => []
  | last, count :: rest => (count - last) / period :: rates period count rest

section Rates

variable {period last : ℕ} {counts : List ℕ}

theorem rates_snoc (period last : ℕ) (counts : List ℕ) (count : ℕ) :
    rates period last (counts ++ [count]) =
      rates period last counts ++ [(count - counts.getLastD last) / period] := by
  induction counts generalizing last with
  | nil => rfl
  | cons first rest ih =>
      rw [List.cons_append, rates, ih, rates, List.getLastD_cons]
      rfl

/-- The last reading of a counter that never falls. -/
theorem le_getLastD (rising : (last :: counts).Pairwise (· ≤ ·)) :
    last ≤ counts.getLastD last := by
  induction counts generalizing last with
  | nil => exact le_refl last
  | cons first rest ih =>
      obtain ⟨below, later⟩ := List.pairwise_cons.mp rising
      rw [List.getLastD_cons]
      exact (below first List.mem_cons_self).trans (ih later)

/-- One more reading, no lower than the last. -/
theorem rising_snoc (rising : (last :: counts).Pairwise (· ≤ ·)) {count : ℕ}
    (grown : counts.getLastD last ≤ count) : (last :: (counts ++ [count])).Pairwise (· ≤ ·) := by
  induction counts generalizing last with
  | nil => exact List.pairwise_pair.mpr grown
  | cons first rest ih =>
      obtain ⟨below, later⟩ := List.pairwise_cons.mp rising
      rw [List.getLastD_cons] at grown
      have longer := ih later grown
      have highest : first ≤ count := (le_getLastD later).trans grown
      refine List.pairwise_cons.mpr ⟨fun value member => ?_, longer⟩
      have split : value ∈ (first :: rest) ++ [count] := member
      rcases List.mem_append.mp split with earlier | newest
      · exact below value earlier
      · rw [List.mem_singleton.mp newest]
        exact (below first List.mem_cons_self).trans highest

/-- The rates show nothing that was not counted. -/
theorem sum_rates_le (rising : (last :: counts).Pairwise (· ≤ ·)) :
    last + period * (rates period last counts).sum ≤ counts.getLastD last := by
  induction counts generalizing last with
  | nil => exact le_refl last
  | cons first rest ih =>
      obtain ⟨below, later⟩ := List.pairwise_cons.mp rising
      have grown := below first List.mem_cons_self
      have shown := Nat.mul_div_le (first - last) period
      have others := ih later
      rw [rates, List.sum_cons, List.getLastD_cons, Nat.mul_add]
      omega

/-- What the rates do not show is less than one period's worth for each reading. -/
theorem le_sum_rates (positive : 0 < period) :
    counts.getLastD last ≤
      last + period * (rates period last counts).sum + (period - 1) * counts.length := by
  induction counts generalizing last with
  | nil => simp
  | cons first rest ih =>
      have lost : first - last ≤ period * ((first - last) / period) + (period - 1) := by
        have rest := Nat.div_add_mod (first - last) period
        have small := Nat.mod_lt (first - last) positive
        omega
      have others : rest.getLastD first ≤ first + period * (rates period first rest).sum +
          (period - 1) * rest.length := ih
      rw [rates, List.sum_cons, List.getLastD_cons, Nat.mul_add, List.length_cons, Nat.mul_add]
      omega

end Rates

/-- In a rising sequence a later number is ahead by its distance at least. -/
theorem add_distance_le {numbers : List ℕ} (rising : numbers.Pairwise (· < ·)) {i j : ℕ}
    (order : i ≤ j) (inside : j < numbers.length) :
    numbers.getD i 0 + (j - i) ≤ numbers.getD j 0 := by
  induction j, order using Nat.le_induction with
  | base => rw [Nat.sub_self, Nat.add_zero]
  | succ j order ih =>
      have earlier := ih (by omega)
      have step := List.pairwise_iff_getElem.mp rising j (j + 1) (by omega) inside
        (Nat.lt_succ_self j)
      rw [← List.getD_eq_getElem _ 0, ← List.getD_eq_getElem _ 0] at step
      omega

end PrismPipeline.Series
