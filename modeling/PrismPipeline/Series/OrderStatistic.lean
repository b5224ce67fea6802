import Mathlib.Data.List.Perm.Basic
import Mathlib.Order.Lattice

/-!
# Order statistics

The value at a position of the sorted list has at least so many values below or equal to
it, and at most so many strictly below it.
-/

namespace PrismPipeline.Series

variable {α : Type*} [LinearOrder α]

/-- The values in order. -/
def ordered (values : List α) : List α := values.mergeSort (· ≤ ·)

theorem ordered_perm (values : List α) : (ordered values).Perm values :=
  List.mergeSort_perm values _

@[simp] theorem ordered_length (values : List α) : (ordered values).length = values.length :=
  (ordered_perm values).length_eq

theorem ordered_sorted (values : List α) : (ordered values).Pairwise (· ≤ ·) := by
  have sorted : (ordered values).Pairwise fun a b => decide (a ≤ b) = true := by
    refine List.pairwise_mergeSort ?_ ?_ values
    · intro a b c ab bc
      exact decide_eq_true ((of_decide_eq_true ab).trans (of_decide_eq_true bc))
    · intro a b
      rw [Bool.or_eq_true, decide_eq_true_iff, decide_eq_true_iff]
      exact le_total a b
  exact sorted.imp fun ab => of_decide_eq_true ab

/-- Sorting a sorted list changes nothing. -/
theorem ordered_ordered (values : List α) : ordered (ordered values) = ordered values := by
  apply List.mergeSort_of_pairwise
  exact (ordered_sorted values).imp fun ab => decide_eq_true ab

section Position

variable {sorted : List α} {i j : ℕ}

theorem getElem_mono (rising : sorted.Pairwise (· ≤ ·)) (order : i ≤ j)
    (below : j < sorted.length) : sorted[i] ≤ sorted[j] := by
  rcases Nat.lt_or_eq_of_le order with earlier | rfl
  · exact List.pairwise_iff_getElem.mp rising i j (order.trans_lt below) below earlier
  · exact le_refl _

/-- The values up to the position are no greater. -/
theorem le_countP_le (rising : sorted.Pairwise (· ≤ ·)) (below : i < sorted.length) :
    i + 1 ≤ sorted.countP (· ≤ sorted[i]) := by
  have upTo : (sorted.take (i + 1)).countP (· ≤ sorted[i]) = (sorted.take (i + 1)).length := by
    refine List.countP_eq_length.mpr fun value member => ?_
    obtain ⟨j, within, rfl⟩ := List.mem_iff_getElem.mp member
    rw [List.length_take] at within
    rw [List.getElem_take]
    exact decide_eq_true (getElem_mono rising (by omega) below)
  rw [List.length_take, min_eq_left (Nat.succ_le_of_lt below)] at upTo
  exact upTo.ge.trans (List.take_sublist (i + 1) sorted).countP_le

/-- The values from the position on are no smaller. -/
theorem countP_lt_le (rising : sorted.Pairwise (· ≤ ·)) (below : i < sorted.length) :
    sorted.countP (· < sorted[i]) ≤ i := by
  have onwards : (sorted.drop i).countP (· < sorted[i]) = 0 := by
    refine List.countP_eq_zero.mpr fun value member => ?_
    obtain ⟨j, within, rfl⟩ := List.mem_iff_getElem.mp member
    rw [List.length_drop] at within
    rw [List.getElem_drop, decide_eq_true_iff, not_lt]
    exact getElem_mono rising (Nat.le_add_right i j) (by omega)
  have split : sorted.countP (· < sorted[i]) =
      (sorted.take i).countP (· < sorted[i]) + (sorted.drop i).countP (· < sorted[i]) := by
    rw [← List.countP_append, List.take_append_drop]
  rw [split, onwards, Nat.add_zero]
  exact List.countP_le_length.trans (List.length_take_le i sorted)

end Position

end PrismPipeline.Series
