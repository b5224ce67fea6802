import Mathlib.Algebra.BigOperators.Group.List.Basic
import Mathlib.Algebra.Order.Group.Basic
import Mathlib.Order.Bounds.Basic

/-!
# Drawdown of a series of gains

The cumulative value of a series starts at zero and moves by one gain at a time.
Its drawdown is the largest fall from an earlier cumulative value to a later
one, over all pairs of positions.  The incremental rule keeps the running peak
and the deepest fall below it; appending one gain is all a correctness proof of
such an accumulator has to consider.
-/

namespace PrismPipeline.Series

variable {α : Type*} [AddCommGroup α]

/-- Cumulative value after the first `p` gains. -/
def cumulative (gains : List α) (p : ℕ) : α := (gains.take p).sum

/-- The cumulative values at all positions of the series. -/
def levels (gains : List α) : Set α :=
  {x | ∃ p ≤ gains.length, x = cumulative gains p}

/-- The falls from an earlier position to a later one. -/
def drops (gains : List α) : Set α :=
  {x | ∃ p q, p ≤ q ∧ q ≤ gains.length ∧ x = cumulative gains p - cumulative gains q}

theorem cumulative_append_left {gains : List α} (later : List α) {p : ℕ}
    (inside : p ≤ gains.length) :
    cumulative (gains ++ later) p = cumulative gains p := by
  rw [cumulative, List.take_append_of_le_length inside, cumulative]

theorem cumulative_snoc (gains : List α) (gain : α) :
    cumulative (gains ++ [gain]) (gains.length + 1) = gains.sum + gain := by
  simp [cumulative]

theorem drops_subset_snoc (gains : List α) (gain : α) :
    drops gains ⊆ drops (gains ++ [gain]) := by
  rintro x ⟨p, q, order, inside, rfl⟩
  refine ⟨p, q, order, by simp; omega, ?_⟩
  rw [cumulative_append_left _ inside, cumulative_append_left _ (order.trans inside)]

/-- A fall of the extended series is an old one, or ends at the new position. -/
theorem mem_drops_snoc {gains : List α} {gain x : α} (member : x ∈ drops (gains ++ [gain])) :
    x ∈ drops gains ∨ x = 0 ∨
      ∃ level ∈ levels gains, x = level - (gains.sum + gain) := by
  obtain ⟨p, q, order, inside, rfl⟩ := member
  rw [List.length_append, List.length_singleton] at inside
  rcases Nat.lt_or_ge gains.length q with last | old
  · obtain rfl : q = gains.length + 1 := by omega
    rcases Nat.lt_or_ge gains.length p with same | before
    · obtain rfl : p = gains.length + 1 := by omega
      exact Or.inr (Or.inl (sub_self _))
    · refine Or.inr (Or.inr ⟨cumulative gains p, ⟨p, before, rfl⟩, ?_⟩)
      rw [cumulative_snoc, cumulative_append_left _ before]
  · refine Or.inl ⟨p, q, order, old, ?_⟩
    rw [cumulative_append_left _ old, cumulative_append_left _ (order.trans old)]

/-- The fall from an old level to the new position is one of the extended series. -/
theorem drop_to_end_mem {gains : List α} {level : α} (member : level ∈ levels gains)
    (gain : α) : level - (gains.sum + gain) ∈ drops (gains ++ [gain]) := by
  obtain ⟨p, inside, rfl⟩ := member
  refine ⟨p, gains.length + 1, by omega, by simp, ?_⟩
  rw [cumulative_snoc, cumulative_append_left _ inside]

theorem zero_mem_drops (gains : List α) : (0 : α) ∈ drops gains :=
  ⟨0, 0, le_rfl, Nat.zero_le _, (sub_self _).symm⟩

variable [LinearOrder α]

/-- The largest fall of the cumulative value. -/
def IsMaxDrawdown (gains : List α) (depth : α) : Prop := IsGreatest (drops gains) depth

theorem isGreatest_levels_nil : IsGreatest (levels ([] : List α)) 0 := by
  constructor
  · exact ⟨0, le_rfl, by simp [cumulative]⟩
  · rintro x ⟨p, _, rfl⟩
    simp [cumulative]

theorem isMaxDrawdown_nil : IsMaxDrawdown ([] : List α) 0 := by
  constructor
  · exact ⟨0, 0, le_rfl, le_rfl, by simp [cumulative]⟩
  · rintro x ⟨p, q, _, _, rfl⟩
    simp [cumulative]

theorem IsMaxDrawdown.nonneg {gains : List α} {depth : α}
    (deepest : IsMaxDrawdown gains depth) : 0 ≤ depth :=
  deepest.2 (zero_mem_drops gains)

/-- The running peak after one more gain. -/
theorem isGreatest_levels_snoc {gains : List α} {peak : α}
    (highest : IsGreatest (levels gains) peak) (gain : α) :
    IsGreatest (levels (gains ++ [gain])) (max peak (gains.sum + gain)) := by
  constructor
  · rcases le_total peak (gains.sum + gain) with above | under
    · rw [max_eq_right above]
      exact ⟨gains.length + 1, by simp, (cumulative_snoc gains gain).symm⟩
    · rw [max_eq_left under]
      obtain ⟨p, inside, rfl⟩ := highest.1
      exact ⟨p, by simp; omega, (cumulative_append_left _ inside).symm⟩
  · rintro x ⟨p, inside, rfl⟩
    rw [List.length_append, List.length_singleton] at inside
    rcases Nat.lt_or_ge gains.length p with last | old
    · obtain rfl : p = gains.length + 1 := by omega
      rw [cumulative_snoc]
      exact le_max_right _ _
    · rw [cumulative_append_left _ old]
      exact le_max_of_le_left (highest.2 ⟨p, old, rfl⟩)

/-- An accumulator that ignores the last gain is still right exactly when that
gain does not fall further below any earlier level than the series ever did. -/
theorem isMaxDrawdown_snoc_iff {gains : List α} {depth : α}
    (deepest : IsMaxDrawdown gains depth) (gain : α) :
    IsMaxDrawdown (gains ++ [gain]) depth ↔
      ∀ level ∈ levels gains, ∃ drop ∈ drops gains, level - (gains.sum + gain) ≤ drop := by
  constructor
  · intro still level atLevel
    exact ⟨depth, deepest.1, still.2 (drop_to_end_mem atLevel gain)⟩
  · intro bounded
    refine ⟨drops_subset_snoc gains gain deepest.1, ?_⟩
    intro x member
    rcases mem_drops_snoc member with old | rfl | ⟨level, atLevel, rfl⟩
    · exact deepest.2 old
    · exact deepest.nonneg
    · obtain ⟨drop, isDrop, below⟩ := bounded level atLevel
      exact below.trans (deepest.2 isDrop)

variable [IsOrderedAddMonoid α]

/-- The incremental rule: after one more gain the drawdown is the old one or the
distance of the new value below the new peak. -/
theorem isMaxDrawdown_snoc {gains : List α} {peak depth : α}
    (highest : IsGreatest (levels gains) peak) (deepest : IsMaxDrawdown gains depth)
    (gain : α) :
    IsMaxDrawdown (gains ++ [gain])
      (max depth (max peak (gains.sum + gain) - (gains.sum + gain))) := by
  constructor
  · rcases le_total depth (max peak (gains.sum + gain) - (gains.sum + gain)) with
      deeper | shallower
    · rw [max_eq_right deeper]
      rcases le_total peak (gains.sum + gain) with above | under
      · rw [max_eq_right above, sub_self]
        exact zero_mem_drops _
      · rw [max_eq_left under]
        exact drop_to_end_mem highest.1 gain
    · rw [max_eq_left shallower]
      exact drops_subset_snoc gains gain deepest.1
  · intro x member
    rcases mem_drops_snoc member with old | rfl | ⟨level, atLevel, rfl⟩
    · exact le_max_of_le_left (deepest.2 old)
    · exact le_max_of_le_left deepest.nonneg
    · refine le_max_of_le_right (sub_le_sub_right ?_ _)
      exact le_max_of_le_left (highest.2 atLevel)

end PrismPipeline.Series
