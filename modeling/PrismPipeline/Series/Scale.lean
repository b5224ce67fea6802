import Mathlib.Algebra.Order.Field.Basic

/-!
# Quantities under a change of unit

A change of unit multiplies every quantity of a kind by one positive factor.  Signs stay
what they are, and an absolute value or a running maximum changes with the quantities it
is taken over.
-/

namespace PrismPipeline.Series

variable {𝕜 : Type*} [Field 𝕜] [LinearOrder 𝕜] [IsStrictOrderedRing 𝕜] {c : 𝕜} (pos : 0 < c)
include pos

theorem scaled_nonpos_iff (x : 𝕜) : c * x ≤ 0 ↔ x ≤ 0 := by
  rw [← not_lt, mul_pos_iff_of_pos_left pos, not_lt]

omit [IsStrictOrderedRing 𝕜] in
/-- A difference measured against a quantity of the same kind. -/
theorem scaled_ratio (x y unit : 𝕜) : (c * x - c * y) / (c * unit) = (x - y) / unit := by
  rw [← mul_sub, mul_div_mul_left _ _ pos.ne']

theorem scaled_abs (x : 𝕜) : |c * x| = c * |x| := by
  rw [abs_mul, abs_of_pos pos]

/-- A running maximum of scaled values from a scaled seed. -/
theorem scaled_foldl_max {ι : Type*} (value : ι → 𝕜) (seed : 𝕜) (positions : List ι) :
    positions.foldl (fun high i => max high (c * value i)) (c * seed) =
      c * positions.foldl (fun high i => max high (value i)) seed := by
  induction positions generalizing seed with
  | nil => rfl
  | cons first rest ih =>
      rw [List.foldl_cons, List.foldl_cons, ← mul_max_of_nonneg _ _ pos.le, ih]

end PrismPipeline.Series
