import Mathlib.Algebra.Order.BigOperators.Group.List
import Mathlib.Algebra.Order.Field.Basic
import Mathlib.Tactic.Linarith
import Mathlib.Tactic.Ring

/-!
# The weighted mean of a list

The mean of values under positive weights, kept up entry by entry: the old mean
times the old weight is the old total, so no total needs to be stored.
-/

namespace PrismPipeline.Series

variable {α 𝕜 : Type*} [Field 𝕜] (value weight : α → 𝕜)

def totalWeight (entries : List α) : 𝕜 := (entries.map weight).sum

def weightedTotal (entries : List α) : 𝕜 :=
  (entries.map fun entry => value entry * weight entry).sum

def weightedMean (entries : List α) : 𝕜 :=
  weightedTotal value weight entries / totalWeight weight entries

@[simp] theorem totalWeight_snoc (entries : List α) (entry : α) :
    totalWeight weight (entries ++ [entry]) = totalWeight weight entries + weight entry := by
  simp [totalWeight]

@[simp] theorem weightedTotal_snoc (entries : List α) (entry : α) :
    weightedTotal value weight (entries ++ [entry]) =
      weightedTotal value weight entries + value entry * weight entry := by
  simp [weightedTotal]

variable {value weight}

/-- Multiplying the mean by its weight gives the total back. -/
theorem weightedMean_mul {entries : List α} (nonzero : totalWeight weight entries ≠ 0) :
    weightedMean value weight entries * totalWeight weight entries =
      weightedTotal value weight entries :=
  div_mul_cancel₀ _ nonzero

/-- The recurrence that re-multiplies the previous ratio. -/
theorem weightedMean_snoc {entries : List α} {entry : α}
    (nonzero : totalWeight weight entries ≠ 0) :
    weightedMean value weight (entries ++ [entry]) =
      (weightedMean value weight entries * totalWeight weight entries +
        value entry * weight entry) / (totalWeight weight entries + weight entry) := by
  rw [weightedMean_mul nonzero]
  unfold weightedMean
  rw [weightedTotal_snoc, totalWeight_snoc]

section Bounds

variable [LinearOrder 𝕜] [IsStrictOrderedRing 𝕜] {entries : List α}

theorem totalWeight_pos (nonempty : entries ≠ [])
    (positive : ∀ entry ∈ entries, 0 < weight entry) : 0 < totalWeight weight entries := by
  refine List.sum_pos _ ?_ (by simpa using nonempty)
  intro x member
  obtain ⟨entry, inside, rfl⟩ := List.mem_map.mp member
  exact positive entry inside

theorem weightedTotal_le {upper : 𝕜} (positive : ∀ entry ∈ entries, 0 < weight entry)
    (bound : ∀ entry ∈ entries, value entry ≤ upper) :
    weightedTotal value weight entries ≤ upper * totalWeight weight entries := by
  induction entries with
  | nil => simp [weightedTotal, totalWeight]
  | cons entry rest ih =>
      obtain ⟨first, later⟩ := List.forall_mem_cons.mp positive
      obtain ⟨below, bound⟩ := List.forall_mem_cons.mp bound
      have restBound := ih later bound
      have firstBound := mul_le_mul_of_nonneg_right below first.le
      simp only [weightedTotal, totalWeight, List.map_cons, List.sum_cons] at restBound ⊢
      linarith [mul_add upper (weight entry) (rest.map weight).sum]

theorem le_weightedTotal {lower : 𝕜} (positive : ∀ entry ∈ entries, 0 < weight entry)
    (bound : ∀ entry ∈ entries, lower ≤ value entry) :
    lower * totalWeight weight entries ≤ weightedTotal value weight entries := by
  have negated : weightedTotal (fun entry => -value entry) weight entries ≤
      -lower * totalWeight weight entries :=
    weightedTotal_le positive fun entry member => neg_le_neg (bound entry member)
  have flip : weightedTotal (fun entry => -value entry) weight entries =
      -weightedTotal value weight entries := by
    unfold weightedTotal
    rw [List.sum_neg, List.map_map]
    simp [Function.comp_def]
  rw [flip] at negated
  linarith

/-- A mean under positive weights lies between any two bounds of the values. -/
theorem weightedMean_mem_Icc {lower upper : 𝕜} (nonempty : entries ≠ [])
    (positive : ∀ entry ∈ entries, 0 < weight entry)
    (low : ∀ entry ∈ entries, lower ≤ value entry)
    (high : ∀ entry ∈ entries, value entry ≤ upper) :
    lower ≤ weightedMean value weight entries ∧ weightedMean value weight entries ≤ upper := by
  have total := totalWeight_pos nonempty positive
  exact ⟨(le_div_iff₀ total).mpr (le_weightedTotal positive low),
    (div_le_iff₀ total).mpr (weightedTotal_le positive high)⟩

end Bounds

end PrismPipeline.Series
