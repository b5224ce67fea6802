import Mathlib.Data.Finset.Card
import Mathlib.Data.List.Nodup
import Mathlib.Order.Interval.Finset.Nat

/-!
# Numbers that a sequence leaves out

A distance between two numbers is made of the numbers a sequence visits on the way
and of those it leaves out.  Whatever the order of the visits, the two together are
no less than the distance, and they are the distance for an increasing sequence.
-/

namespace PrismPipeline.Series

/-- How many numbers strictly between `first` and `last` are not among the values. -/
def gaps (first last : ℕ) (values : List ℕ) : ℕ :=
  ((Finset.Ioo first last).filter (· ∉ values)).card

section Gaps

variable {first last : ℕ} {values : List ℕ}

/-- Every number on the way to a visited one is visited or left out. -/
theorem le_length_add_gaps (arrives : last ∈ values) :
    last ≤ first + (values.length + gaps first last values) := by
  have covered : Finset.Ioc first last ⊆
      values.toFinset ∪ (Finset.Ioo first last).filter (· ∉ values) := by
    intro k way
    obtain ⟨after, upTo⟩ := Finset.mem_Ioc.mp way
    by_cases visited : k ∈ values
    · exact Finset.mem_union_left _ (List.mem_toFinset.mpr visited)
    · have before : k < last :=
        lt_of_le_of_ne upTo fun same => visited (same ▸ arrives)
      exact Finset.mem_union_right _
        (Finset.mem_filter.mpr ⟨Finset.mem_Ioo.mpr ⟨after, before⟩, visited⟩)
  have distance : last - first ≤ values.toFinset.card + gaps first last values := by
    rw [← Nat.card_Ioc]
    exact (Finset.card_le_card covered).trans (Finset.card_union_le _ _)
  have visits : values.toFinset.card ≤ values.length := List.toFinset_card_le values
  omega

/-- An increasing sequence is at its last number after its visits and its gaps. -/
theorem length_add_gaps (increasing : (first :: values).Pairwise (· < ·))
    (arrives : last ∈ values) (newest : ∀ k ∈ values, k ≤ last) :
    first + (values.length + gaps first last values) = last := by
  obtain ⟨after, rising⟩ := List.pairwise_cons.mp increasing
  have inside : values.toFinset ∪ (Finset.Ioo first last).filter (· ∉ values) ⊆
      Finset.Ioc first last := by
    intro k either
    rcases Finset.mem_union.mp either with visited | left
    · have member := List.mem_toFinset.mp visited
      exact Finset.mem_Ioc.mpr ⟨after k member, newest k member⟩
    · exact Finset.Ioo_subset_Ioc_self (Finset.mem_filter.mp left).1
  have apart : Disjoint values.toFinset ((Finset.Ioo first last).filter (· ∉ values)) := by
    refine Finset.disjoint_left.mpr fun k visited left => ?_
    exact (Finset.mem_filter.mp left).2 (List.mem_toFinset.mp visited)
  have once : values.toFinset.card = values.length :=
    List.toFinset_card_of_nodup (rising.imp ne_of_lt)
  have fits : values.length + gaps first last values ≤ last - first := by
    rw [← Nat.card_Ioc, ← once]
    exact (Finset.card_union_of_disjoint apart).symm.le.trans (Finset.card_le_card inside)
  have reached : last ≤ first + (values.length + gaps first last values) :=
    le_length_add_gaps arrives
  have start := after last arrives
  omega

end Gaps

end PrismPipeline.Series
