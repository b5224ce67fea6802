import PrismPipeline.Backtest.BoundedOutcome
import PrismPipeline.Backtest.Passes
import PrismPipeline.Backtest.RoundTrips

/-!
# Fills

A stop or a target is filled at its level, wherever the bar that triggers it trades.
The price lies within the bar unless the bar lies wholly beyond the level: below the
stop, above the second target, or between the two targets.
-/

namespace PrismPipeline.Backtest

open PrismPipeline.Machine

/-- Open and close lie within the range of the bar. -/
structure PricesInRange (b : Bar) : Prop where
  low_le_open : b.low ≤ b.openPrice
  open_le_high : b.openPrice ≤ b.high
  low_le_close : b.low ≤ b.close
  close_le_high : b.close ≤ b.high

instance (b : Bar) : Decidable (PricesInRange b) :=
  decidable_of_iff ((b.low ≤ b.openPrice ∧ b.openPrice ≤ b.high) ∧ b.low ≤ b.close ∧
      b.close ≤ b.high)
    ⟨fun ⟨⟨a, b⟩, c, d⟩ => ⟨a, b, c, d⟩, fun ⟨a, b, c, d⟩ => ⟨⟨a, b⟩, c, d⟩⟩

/-- A price the bar traded at. -/
def Attainable (b : Bar) (price : ℚ) : Prop := b.low ≤ price ∧ price ≤ b.high

instance (b : Bar) (price : ℚ) : Decidable (Attainable b price) :=
  inferInstanceAs (Decidable (_ ∧ _))

/-- Every trade of the log was closed at a price of its exit bar. -/
def FillsAttainable (bars : List Bar) : Prop :=
  ∀ trade ∈ tradeBars bars, Attainable (barAt bars trade.1) trade.2.exitPrice

/-- The bar lies wholly beyond a level of the open trade. -/
inductive GapsBeyond (b : Bar) (s : LoopState) : Prop where
  | stop (below : b.high < s.stop) : GapsBeyond b s
  | target2 (above : s.t2 < b.low) : GapsBeyond b s
  | target1 (above : s.t1 < b.low) (under : b.high < s.t2) : GapsBeyond b s

/-- No bar of the run finds an open trade and lies wholly beyond one of its levels. -/
def NoGaps (bars : List Bar) : Prop :=
  ∀ i < bars.length, (stateAfter bars i).tradeOpen = true →
    ¬ GapsBeyond (barAt bars i) (stateAfter bars i)

section Exit

variable {b : Bar} {i : ℕ} {s : LoopState} {reason : ExitReason} {price : ℚ}

/-- A fill on a bar that is not beyond a level. -/
theorem attainable_of_fires (inRange : CloseInRange b) (noGap : ¬ GapsBeyond b s)
    (fires : ExitFires b i s reason price) : Attainable b price := by
  cases fires with
  | stopHit hit => exact ⟨hit, not_lt.mp fun below => noGap (.stop below)⟩
  | target2Hit _ hit => exact ⟨not_lt.mp fun above => noGap (.target2 above), hit⟩
  | target1Hit _ under hit => exact ⟨not_lt.mp fun above => noGap (.target1 above under), hit⟩
  | closeBelow | shock | trendDown | block | expired => exact inRange

/-- A bar beyond a level closes the trade at a price it did not trade at. -/
theorem unattainable_of_gap (levels : OrderedLevels s) (inRange : CloseInRange b)
    (gap : GapsBeyond b s) :
    ∃ reason price, exitTest b i s = some (reason, price) ∧ ¬ Attainable b price := by
  have stop_lt_t1 : s.stop < s.t1 := levels.stop_lt_entry.trans levels.entry_lt_t1
  have t1_lt_t2 := levels.t1_lt_t2
  have range : b.low ≤ b.high := inRange.1.trans inRange.2
  unfold exitTest
  cases gap with
  | stop below =>
      refine ⟨.stopHit, s.stop, if_pos (range.trans below.le), fun fill => ?_⟩
      exact absurd fill.2 (not_le.mpr below)
  | target2 above =>
      have notStopped : ¬ b.low ≤ s.stop := by
        intro hit
        linarith
      refine ⟨.target2Hit, s.t2, ?_, fun fill => absurd fill.1 (not_le.mpr above)⟩
      rw [if_neg notStopped]
      exact if_pos (above.le.trans range)
  | target1 above under =>
      have notStopped : ¬ b.low ≤ s.stop := by
        intro hit
        linarith
      refine ⟨.target1Hit, s.t1, ?_, fun fill => absurd fill.1 (not_le.mpr above)⟩
      rw [if_neg notStopped, if_neg (not_le.mpr under)]
      exact if_pos (above.le.trans range)

end Exit

section Run

variable {bars : List Bar}

/-- A trade closed by the loop is one its exit bar triggered. -/
theorem exitRow_fires {i : ℕ} {row : TradeLog} (closed : exitRow bars i = some row) :
    (stateAfter bars i).tradeOpen = true ∧
      ∃ reason, ExitFires (barAt bars i) i (stateAfter bars i) reason row.exitPrice := by
  unfold exitRow at closed
  cases isOpen : (stateAfter bars i).tradeOpen with
  | false =>
      rw [isOpen, if_neg Bool.false_ne_true] at closed
      cases closed
  | true =>
      rw [isOpen, if_pos rfl] at closed
      obtain ⟨⟨reason, price⟩, test, rfl⟩ := Option.map_eq_some_iff.mp closed
      exact ⟨rfl, reason, exitTest_some test⟩

/-- The row written after the loop is closed at the close of the last bar. -/
theorem dataEnd_attainable (inRange : ∀ b ∈ bars, CloseInRange b) {trade : ℕ × TradeLog}
    (written : trade ∈
      ((runBacktest bars).logs.trades.drop (runLoop bars).logs.trades.length).map fun row =>
        (bars.length - 1, row)) :
    Attainable (barAt bars trade.1) trade.2.exitPrice := by
  obtain ⟨row, member, rfl⟩ := List.mem_map.mp written
  cases isOpen : (runLoop bars).tradeOpen with
  | false =>
      rw [runBacktest_flat isOpen, List.drop_length] at member
      cases member
  | true =>
      obtain ⟨entered, _⟩ := (stateAfter_risk bars bars.length).entered isOpen
      rw [runBacktest_trades isOpen, List.drop_left, List.mem_singleton] at member
      subst member
      exact inRange _ (barAt_mem (by omega))

/-- The fills of a run are attainable exactly when no bar gaps beyond a level of the
trade it finds open. -/
theorem fillsAttainable_iff (bars : List Bar) (inRange : ∀ b ∈ bars, PricesInRange b) :
    FillsAttainable bars ↔ NoGaps bars := by
  have closes : ∀ b ∈ bars, CloseInRange b := fun b member =>
    ⟨(inRange b member).low_le_close, (inRange b member).close_le_high⟩
  constructor
  · intro attainable i inside isOpen gap
    have levels := (stateAfter_risk bars i).levels isOpen
    obtain ⟨reason, price, test, beyond⟩ :=
      unattainable_of_gap (i := i) levels (closes _ (barAt_mem inside)) gap
    have closed : exitRow bars i = some (tradeRow bars i (stateAfter bars i) reason price) := by
      unfold exitRow
      rw [if_pos isOpen, test]
      rfl
    have logged := (mem_tradesBy_iff _).mpr ⟨inside, closed⟩
    exact beyond (attainable _ (List.mem_append_left _ logged))
  · rintro noGaps ⟨i, row⟩ logged
    rcases List.mem_append.mp logged with inLoop | atEnd
    · obtain ⟨inside, closed⟩ := (mem_tradesBy_iff row).mp inLoop
      obtain ⟨isOpen, reason, fires⟩ := exitRow_fires closed
      exact attainable_of_fires (closes _ (barAt_mem inside)) (noGaps i inside isOpen) fires
    · exact dataEnd_attainable closes atEnd

end Run

/-- The trade of `losingBars` meets a bar between 85 and 95, below its stop at 99.9. -/
def gapBars : List Bar :=
  losingBars.take 21 ++ [{ openPrice := 90, high := 95, low := 85, close := 90, volume := 100 }]

/-- The stop is filled at 99.9 on a bar whose high is 95. -/
theorem gapBars_fill :
    (∀ b ∈ gapBars, PricesInRange b) ∧ ¬ FillsAttainable gapBars := by
  have inRange : ∀ b ∈ gapBars, PricesInRange b := by
    decide +kernel
  have closed : exitRow gapBars 21 =
      some (tradeRow gapBars 21 (stateAfter gapBars 21) .stopHit 99.9) := by
    decide +kernel
  have under : ¬ Attainable (barAt gapBars 21) 99.9 := by
    decide +kernel
  refine ⟨inRange, fun attainable => under ?_⟩
  have logged := (mem_tradesBy_iff (n := gapBars.length) _).mpr ⟨by decide, closed⟩
  exact attainable _ (List.mem_append_left _ logged)

/-- On `losingBars` itself no bar gaps, and the one fill is attainable. -/
theorem losingBars_fills : FillsAttainable losingBars := by
  refine (fillsAttainable_iff losingBars (by decide +kernel)).mpr ?_
  intro i inside isOpen gap
  have only : i = 21 := by
    have flat : ∀ j < 21, (stateAfter losingBars j).tradeOpen = false := by decide +kernel
    by_contra other
    have size : losingBars.length = 22 := rfl
    exact absurd ((flat i (by omega)).symm.trans isOpen) Bool.false_ne_true
  subst only
  cases gap with
  | stop below => exact absurd below (by decide +kernel)
  | target2 above => exact absurd above (by decide +kernel)
  | target1 above => exact absurd above (by decide +kernel)

end PrismPipeline.Backtest
