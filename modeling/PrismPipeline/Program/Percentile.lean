import Mathlib.Data.Rat.Floor
import Mathlib.Tactic.Linarith
import PrismPipeline.Program.BenchmarkRun
import PrismPipeline.Series.OrderStatistic

/-!
# The percentiles of the benchmark

`percentile` sorts the vector it is given and reads the entry at a fraction of its last
index.  The benchmark calls it four times on one vector.
-/

namespace PrismPipeline.Program

open PrismPipeline.Machine PrismPipeline.Queue PrismPipeline.Live PrismPipeline.Series

/-- The index that is read out of so many values. -/
def percentileIndex (p : ℚ) (count : ℕ) : ℕ := ⌊p / 100 * ((count - 1 : ℕ) : ℚ)⌋₊

/-- `percentile`: the vector as it is left behind, and the value returned. -/
def percentile (values : List ℕ) (p : ℚ) : List ℕ × ℕ :=
  if values.isEmpty then (values, 0)
  else (ordered values, (ordered values).getD (percentileIndex p values.length) 0)

/-- The values of one vector at several percentages, one call after the other. -/
def percentiles : List ℕ → List ℚ → List ℕ
  | _, [] => []
  | values, p :: rest => (percentile values p).2 :: percentiles (percentile values p).1 rest

/-- The percentages the benchmark prints. -/
def printedPercentages : List ℚ := [50, 90, 99, 999 / 10]

section Percentile

variable {values : List ℕ} {p q : ℚ}

theorem percentileIndex_mono (order : p ≤ q) (count : ℕ) :
    percentileIndex p count ≤ percentileIndex q count := by
  apply Nat.floor_mono
  apply mul_le_mul_of_nonneg_right _ (Nat.cast_nonneg _)
  linarith

/-- A percentage up to one hundred stays within the vector. -/
theorem percentileIndex_lt (atMost : p ≤ 100) {count : ℕ} (positive : 0 < count) :
    percentileIndex p count < count := by
  have last : percentileIndex p count ≤ percentileIndex 100 count :=
    percentileIndex_mono atMost count
  have whole : percentileIndex 100 count = count - 1 := by
    unfold percentileIndex
    rw [div_self (by norm_num), one_mul, Nat.floor_natCast]
  omega

/-- What a call returns on a vector that is not empty. -/
theorem percentile_eq (nonempty : values ≠ []) (atMost : p ≤ 100) :
    ∃ within : percentileIndex p values.length < (ordered values).length,
      percentile values p =
        (ordered values, (ordered values)[percentileIndex p values.length]) := by
  have within : percentileIndex p values.length < (ordered values).length := by
    rw [ordered_length]
    exact percentileIndex_lt atMost (List.length_pos_iff.mpr nonempty)
  refine ⟨within, ?_⟩
  unfold percentile
  rw [if_neg (by simpa using nonempty), List.getD_eq_getElem?_getD,
    List.getElem?_eq_getElem within, Option.getD_some]

/-- A call that finds the vector sorted by an earlier one returns the same. -/
theorem percentile_ordered (values : List ℕ) (p : ℚ) :
    (percentile (ordered values) p).2 = (percentile values p).2 := by
  unfold percentile
  rw [ordered_ordered, ordered_length]
  cases values with
  | nil =>
      have none : ordered ([] : List ℕ) = [] := List.length_eq_zero_iff.mp (ordered_length [])
      rw [none]
  | cons first rest =>
      have filled : (ordered (first :: rest)).isEmpty = false := by
        rw [List.isEmpty_eq_false_iff, ← List.length_pos_iff, ordered_length]
        exact Nat.succ_pos _
      rw [filled]
      rfl

/-- The calls one after the other return what each returns on the vector as it was. -/
theorem percentiles_eq (values : List ℕ) (percentages : List ℚ) :
    percentiles values percentages = percentages.map fun p => (percentile values p).2 := by
  induction percentages generalizing values with
  | nil => rfl
  | cons p rest ih =>
      rw [percentiles, ih, List.map_cons]
      congr 1
      apply List.map_congr_left
      intro q _
      by_cases empty : values.isEmpty
      · unfold percentile
        rw [if_pos empty]
      · have left : (percentile values p).1 = ordered values := by
          unfold percentile
          rw [if_neg empty]
        rw [left, percentile_ordered]

/-- The rank of a percentile: so many values, and one more, are no greater, and no more than
so many are smaller. -/
theorem percentile_rank (nonempty : values ≠ []) (atMost : p ≤ 100) :
    let v := (percentile values p).2
    v ∈ values ∧ percentileIndex p values.length + 1 ≤ values.countP (· ≤ v) ∧
      values.countP (· < v) ≤ percentileIndex p values.length := by
  obtain ⟨within, result⟩ := percentile_eq nonempty atMost
  rw [result]
  intro v
  have member : v ∈ ordered values := List.getElem_mem within
  have sorted := ordered_sorted values
  refine ⟨(ordered_perm values).mem_iff.mp member, ?_, ?_⟩
  · rw [← (ordered_perm values).countP_eq]
    exact le_countP_le sorted within
  · rw [← (ordered_perm values).countP_eq]
    exact countP_lt_le sorted within

/-- A higher percentage returns no lower value. -/
theorem percentile_mono (order : p ≤ q) (atMost : q ≤ 100) :
    (percentile values p).2 ≤ (percentile values q).2 := by
  by_cases nonempty : values = []
  · rw [nonempty]
    exact le_refl 0
  · obtain ⟨_, lower⟩ := percentile_eq nonempty (order.trans atMost)
    obtain ⟨within, upper⟩ := percentile_eq nonempty atMost
    rw [lower, upper]
    exact getElem_mono (ordered_sorted values) (percentileIndex_mono order _) within

end Percentile

/-- What the benchmark prints of the latencies, in every run.  The four percentiles never
fall; unless no message was counted each is the time from the stamp to the receipt of some
packet received, at least its share of the latencies is no greater, and at most its share is
smaller. -/
theorem printed_percentiles (config : BenchConfig) (k startNs : ℕ)
    (buffer : ℕ → TradePacket) (schedule : List BenchAction) :
    let s := benchAfter config k startNs buffer schedule
    let latencies := s.consumer.latencies.map UInt64.toNat
    let printed := percentiles latencies printedPercentages
    printed.Pairwise (· ≤ ·) ∧
    (latencies ≠ [] → ∀ p ∈ printedPercentages,
      let v := (percentile latencies p).2
      v ∈ printed ∧
      (∃ receipt ∈ s.consumer.received, ∃ i stampedAt,
        receipt.1 = stampedPacket i stampedAt ∧ stampedAt ≤ receipt.2 ∧
        v = (receipt.2 - stampedAt) % 2 ^ 64) ∧
      percentileIndex p latencies.length + 1 ≤ latencies.countP (· ≤ v) ∧
      latencies.countP (· < v) ≤ percentileIndex p latencies.length) := by
  intro s latencies printed
  have coherent : s.Coherent config k startNs :=
    benchAfter_coherent config k startNs buffer schedule
  have calls : printed = printedPercentages.map fun p => (percentile latencies p).2 :=
    percentiles_eq latencies printedPercentages
  have bounded : ∀ p ∈ printedPercentages, p ≤ 100 := by decide +kernel
  have rising : printedPercentages.Pairwise (· ≤ ·) := by decide +kernel
  refine ⟨?_, fun nonempty p member => ?_⟩
  · rw [calls, List.pairwise_map]
    exact rising.imp_of_mem fun _ upper order => percentile_mono order (bounded _ upper)
  · intro v
    obtain ⟨value, enough, few⟩ := percentile_rank nonempty (bounded p member)
    refine ⟨?_, ?_, enough, few⟩
    · rw [calls]
      exact List.mem_map_of_mem member
    · obtain ⟨latency, kept, shown⟩ := List.mem_map.mp value
      rw [coherent.consumer.latencies] at kept
      obtain ⟨receipt, received, rfl⟩ := List.mem_map.mp (List.mem_of_mem_take kept)
      obtain ⟨i, stampedAt, packet, order, _⟩ := coherent.consumer.inTime receipt received
      refine ⟨receipt, received, i, stampedAt, packet, order, ?_⟩
      change (percentile latencies p).2 = _
      rw [← shown, packet, latencyOf_stamped order, UInt64.toNat_ofNat']

end PrismPipeline.Program
