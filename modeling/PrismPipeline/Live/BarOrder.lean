import PrismPipeline.Live.BarPartition

/-!
# When the delivered bars move forward in time

A bar is closed as soon as a trade of any other bucket arrives, also of an older
one.  The bars handed to the strategy are in order exactly for the streams in
which no finished run is followed by an older bucket.
-/

namespace PrismPipeline.Live

open PrismPipeline.Machine PrismPipeline.Series

/-- Starts of the buckets of the bars handed to the strategy, in order. -/
def EngineWorld.deliveredStarts (w : EngineWorld) : List UInt64 :=
  w.delivered.map DeliveredBar.startNs

/-- The accepted trades before the last change of bucket. -/
def beforeLastSwitch (length : BarLength) (packets : List TradePacket) : List TradePacket :=
  (bucketRuns length packets).dropLast.flatten

/-- Exchange times of these trades never fall back into an earlier bucket. -/
def InBucketOrder (length : BarLength) (trades : List TradePacket) : Prop :=
  trades.Pairwise fun a b => length.bucket a ≤ length.bucket b

section Starts

variable {length : BarLength}

/-- Starts are in order as their numbers are. -/
theorem starts_pairwise_iff (delivered : List DeliveredBar) :
    (delivered.map DeliveredBar.startNs).Pairwise (· < ·) ↔
      (delivered.map fun d => d.startNs.toNat).Pairwise (· < ·) := by
  rw [List.pairwise_map, List.pairwise_map]
  simp only [UInt64.lt_iff_toNat_lt]

/-- Bucket order is the order of the starts. -/
theorem inBucketOrder_iff (trades : List TradePacket) :
    InBucketOrder length trades ↔
      trades.Pairwise fun a b =>
        (length.tradeBarStart a).toNat ≤ (length.tradeBarStart b).toNat := by
  unfold InBucketOrder
  simp only [BarLength.tradeBarStart_toNat, Nat.mul_le_mul_right_iff length.span_pos]

/-- Finished runs are labelled by the starts of their bars. -/
theorem describes_hasKey {closed : List (List TradePacket)} {delivered : List DeliveredBar}
    (described : List.Forall₂ (Describes length) closed delivered) :
    List.Forall₂ (HasKey fun trade => (length.tradeBarStart trade).toNat) closed
      (delivered.map fun d => d.startNs.toNat) := by
  rw [List.forall₂_map_right_iff]
  refine described.imp fun run d describes => ⟨describes.1.nonempty, fun trade member => ?_⟩
  exact congrArg UInt64.toNat (describes.2 trade member)

/-- A sequence of runs that describe the delivered bars, neighbours in different
buckets: the starts increase exactly when the trades are in bucket order. -/
theorem starts_increasing_iff {closed : List (List TradePacket)} {delivered : List DeliveredBar}
    (described : List.Forall₂ (Describes length) closed delivered)
    (boundary : closed.IsChain fun first second =>
      ∀ a ∈ first, ∀ b ∈ second, length.bucket a ≠ length.bucket b) :
    (delivered.map DeliveredBar.startNs).Pairwise (· < ·) ↔
      InBucketOrder length closed.flatten := by
  have keyed := describes_hasKey described
  have differ : (delivered.map fun d => d.startNs.toNat).IsChain (· ≠ ·) := by
    refine labels_isChain keyed (boundary.imp fun first second differ a left b right same => ?_)
    exact differ a left b right
      ((length.tradeBarStart_eq_iff a b).mp (UInt64.toNat_inj.mp same))
  rw [starts_pairwise_iff, ← pairwise_le_iff_lt differ, ← pairwise_flatten_iff keyed,
    inBucketOrder_iff]

end Starts

/-- The delivered bars move forward in time exactly when the accepted trades before
the last change of bucket arrive in bucket order. -/
theorem deliveredStarts_increasing_iff (length : BarLength) (packets : List TradePacket) :
    (engineAfter length packets).deliveredStarts.Pairwise (· < ·) ↔
      InBucketOrder length (beforeLastSwitch length packets) := by
  have tracks := engineAfter_tracks length packets
  cases phase : (engineAfter length packets).prism.hasCurrentBar with
  | false =>
      have noBars := tracks.untouched phase
      have noRuns : bucketRuns length packets = [] := by
        have described := tracks.described
        rw [EngineWorld.allBars, noBars, EngineWorld.openBars, phase] at described
        exact List.forall₂_nil_right_iff.mp described
      simp [EngineWorld.deliveredStarts, beforeLastSwitch, InBucketOrder, noBars, noRuns]
  | true =>
      obtain ⟨closed, run, eq, described, _⟩ := tracks.building phase
      have boundary : (bucketRuns length packets).IsChain fun first second =>
          ∀ a ∈ first, ∀ b ∈ second, length.bucket a ≠ length.bucket b := runs_boundary
      rw [eq] at boundary
      have finished : beforeLastSwitch length packets = closed.flatten := by
        rw [beforeLastSwitch, eq, List.dropLast_concat]
      rw [finished]
      exact starts_increasing_iff described (List.isChain_append.mp boundary).1

/-- Trades of two neighbouring ten second buckets; the third one comes late. -/
def lateTrades : List TradePacket :=
  [1700000001000000000, 1700000011000000000, 1700000002000000000, 1700000012000000000].map
    fun ts => { price := 100, volume := 1, exchangeTsNs := ts }

/-- A late trade makes the engine deliver a bucket twice and go back in time. -/
theorem lateTrades_deliveredStarts :
    ¬ (engineAfter prismBarSeconds lateTrades).deliveredStarts.Pairwise (· < ·) ∧
      ¬ (engineAfter prismBarSeconds lateTrades).deliveredStarts.Nodup := by
  decide +kernel

end PrismPipeline.Live
