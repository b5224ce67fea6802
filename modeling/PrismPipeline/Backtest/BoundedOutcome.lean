import PrismPipeline.Backtest.MaxDrawdown
import PrismPipeline.Backtest.Moves

/-!
# Bounded outcome of a trade

On bars whose close lies within their range a trade makes between -1 and 2.5 R.  An
exit at the close is only reached by a bar that stayed above the stop and below the
first target, and the same holds of the last bar under a trade that the end of the data
closes: it either survived that bar or was entered at its close.
-/

namespace PrismPipeline.Backtest

open PrismPipeline.Machine

/-- The close lies within the range of the bar. -/
def CloseInRange (b : Bar) : Prop := b.low ≤ b.close ∧ b.close ≤ b.high

/-- What a row of the trade log says about its R multiple. -/
structure BoundedOutcome (row : TradeLog) : Prop where
  risk_pos : 0 < row.entryPrice - row.stopLoss
  r_eq : row.rMultiple = (row.exitPrice - row.entryPrice) / (row.entryPrice - row.stopLoss)
  lower : -1 ≤ row.rMultiple
  upper : row.rMultiple ≤ 2.5
  stopHit : row.exitReason = .stopHit → row.rMultiple = -1
  target1Hit : row.exitReason = .target1Hit → row.rMultiple = 1.5
  target2Hit : row.exitReason = .target2Hit → row.rMultiple = 2.5
  otherwise : row.exitReason ≠ .stopHit → row.exitReason ≠ .target1Hit →
    row.exitReason ≠ .target2Hit → -1 < row.rMultiple ∧ row.rMultiple < 1.5

/-! ## R multiples of the exits -/

section Levels

variable {s : LoopState} (levels : OrderedLevels s)
include levels

theorem r_at_stop : (s.stop - s.entry) / s.R = -1 := by
  have distance : s.stop - s.entry = -s.R := by
    rw [levels.R_eq]
    ring
  rw [distance, neg_div, div_self levels.R_pos.ne']

theorem r_at_t1 : (s.t1 - s.entry) / s.R = 1.5 := by
  rw [levels.t1_eq, add_sub_cancel_left, mul_div_cancel_right₀ _ levels.R_pos.ne']

theorem r_at_t2 : (s.t2 - s.entry) / s.R = 2.5 := by
  rw [levels.t2_eq, add_sub_cancel_left, mul_div_cancel_right₀ _ levels.R_pos.ne']

/-- Between the stop and the first target the outcome lies between theirs. -/
theorem r_inside {price : ℚ} (above : s.stop < price) (under : price < s.t1) :
    -1 < (price - s.entry) / s.R ∧ (price - s.entry) / s.R < 1.5 := by
  constructor
  · rw [← r_at_stop levels]
    exact div_lt_div_of_pos_right (sub_lt_sub_right above _) levels.R_pos
  · rw [← r_at_t1 levels]
    exact div_lt_div_of_pos_right (sub_lt_sub_right under _) levels.R_pos

variable {bars : List Bar} {i : ℕ}

/-- The outcome of an exit at a level. -/
theorem tradeRow_r (reason : ExitReason) (exitPrice : ℚ) :
    0 < (tradeRow bars i s reason exitPrice).entryPrice -
        (tradeRow bars i s reason exitPrice).stopLoss ∧
      (tradeRow bars i s reason exitPrice).rMultiple = (exitPrice - s.entry) / (s.entry - s.stop) := by
  have risk := levels.R_pos
  have divisor := levels.R_eq
  refine ⟨?_, ?_⟩
  · rwa [divisor] at risk
  · rw [← divisor]
    rfl

/-- An exit at the close of a bar that stayed between the stop and the first target. -/
theorem boundedOutcome_close {reason : ExitReason} {price : ℚ} (above : s.stop < price)
    (under : price < s.t1) (noLevel : reason ≠ .stopHit ∧ reason ≠ .target1Hit ∧
      reason ≠ .target2Hit) : BoundedOutcome (tradeRow bars i s reason price) := by
  obtain ⟨risk, r_eq⟩ := tradeRow_r levels reason price
  have inside : -1 < (tradeRow bars i s reason price).rMultiple ∧
      (tradeRow bars i s reason price).rMultiple < 1.5 := r_inside levels above under
  refine ⟨risk, r_eq, inside.1.le, inside.2.le.trans (by norm_num), fun hit => ?_, fun hit => ?_,
    fun hit => ?_, fun _ _ _ => inside⟩
  · exact absurd hit noLevel.1
  · exact absurd hit noLevel.2.1
  · exact absurd hit noLevel.2.2

/-- Every exit of the chain has a bounded outcome. -/
theorem boundedOutcome_fires {reason : ExitReason} {exitPrice : ℚ}
    (inRange : CloseInRange (barAt bars i)) (fires : ExitFires (barAt bars i) i s reason exitPrice) :
    BoundedOutcome (tradeRow bars i s reason exitPrice) := by
  have atClose : ∀ {reason : ExitReason}, s.stop < (barAt bars i).low →
      (barAt bars i).high < s.t1 →
      (reason ≠ .stopHit ∧ reason ≠ .target1Hit ∧ reason ≠ .target2Hit) →
      BoundedOutcome (tradeRow bars i s reason (barAt bars i).close) := by
    intro reason above under noLevel
    exact boundedOutcome_close levels (above.trans_le inRange.1) (inRange.2.trans_lt under) noLevel
  cases fires with
  | stopHit =>
      obtain ⟨risk, r_eq⟩ := tradeRow_r levels .stopHit s.stop
      have r : (tradeRow bars i s .stopHit s.stop).rMultiple = -1 := r_at_stop levels
      exact ⟨risk, r_eq, r.ge, r.le.trans (by norm_num), fun _ => r, nofun, nofun,
        fun other => absurd rfl other⟩
  | target2Hit =>
      obtain ⟨risk, r_eq⟩ := tradeRow_r levels .target2Hit s.t2
      have r : (tradeRow bars i s .target2Hit s.t2).rMultiple = 2.5 := r_at_t2 levels
      exact ⟨risk, r_eq, le_trans (by norm_num) r.ge, r.le, nofun, nofun, fun _ => r,
        fun _ _ other => absurd rfl other⟩
  | target1Hit =>
      obtain ⟨risk, r_eq⟩ := tradeRow_r levels .target1Hit s.t1
      have r : (tradeRow bars i s .target1Hit s.t1).rMultiple = 1.5 := r_at_t1 levels
      exact ⟨risk, r_eq, le_trans (by norm_num) r.ge, r.le.trans (by norm_num), nofun, fun _ => r,
        nofun, fun _ other => absurd rfl other⟩
  | closeBelow above under | shock above under | trendDown above under | block above under
  | expired above under => exact atClose above under ⟨nofun, nofun, nofun⟩

end Levels

/-! ## The close of the last bar -/

/-- After each pass the close lies between the stop and the first target of an open trade. -/
theorem close_inside {bars : List Bar} {i : ℕ} (inRange : CloseInRange (barAt bars i))
    (isOpen : (stateAfter bars (i + 1)).tradeOpen = true) :
    (stateAfter bars (i + 1)).stop < (barAt bars i).close ∧
      (barAt bars i).close < (stateAfter bars (i + 1)).t1 := by
  rw [stateAfter_add_one] at isOpen ⊢
  generalize logScore (barScore bars i) (stateAfter bars i) = scored at *
  rcases entryStep_cases bars i (barScore bars i) (exitStep bars i scored) with
    ⟨_, same⟩ | ⟨gated, rfl, _, flat, decided⟩
  · rw [same] at isOpen ⊢
    rcases exitStep_cases bars i scored with
      ⟨flat, stays⟩ | ⟨_, survives, stays⟩ | ⟨reason, exitPrice, _, _, closed⟩
    · rw [stays] at isOpen
      exact absurd (flat.symm.trans isOpen) Bool.false_ne_true
    · rw [stays]
      exact ⟨survives.above_stop.trans_le inRange.1, inRange.2.trans_lt survives.under_t1⟩
    · rw [closed] at isOpen
      exact Bool.noConfusion isOpen
  · have gateFlat := (gate_tradeOpen bars i (exitStep bars i scored)).trans flat
    generalize expireBreakout bars i (detectBreakout bars i (exitStep bars i scored)) = gated at *
    rcases decided with same | ⟨_, same⟩
    · rw [same] at isOpen
      exact absurd (gateFlat.symm.trans isOpen) Bool.false_ne_true
    · rw [same] at isOpen ⊢
      rcases takeRetest_cases bars i (barScore bars i) gated with
        ⟨admits, taken⟩ | ⟨reasons, _, rejected⟩
      · -- The trade was entered at this very close.
        have levels := setLevels_ordered admits.risk_pos
        rw [taken]
        exact ⟨levels.stop_lt_entry, levels.entry_lt_t1⟩
      · rw [rejected] at isOpen
        exact absurd (gateFlat.symm.trans isOpen) Bool.false_ne_true

/-- The rows written by the loop. -/
theorem runLoop_outcomes {bars : List Bar} (inRange : ∀ b ∈ bars, CloseInRange b) :
    ∀ row ∈ (runLoop bars).logs.trades, BoundedOutcome row := by
  intro row logged
  obtain ⟨moves, timeline⟩ := exists_timeline bars bars.length
  rw [runLoop, timeline.trades_eq] at logged
  obtain ⟨m, member, shown⟩ := List.mem_filterMap.mp logged
  obtain ⟨before, after, step⟩ := timeline.run.step_of_mem member
  have inside := timeline.stamp_lt m member
  cases step with
  | exit _ levels _ _ _ fires =>
      obtain rfl := Option.some.inj shown
      exact boundedOutcome_fires levels (inRange _ (barAt_mem inside)) fires
  | score | breakout | expire | accept | reject => cases shown

/-- Outcomes over a whole run: every row is bounded, and whenever a trade is open, so that
its R may be divided by, R is not zero. -/
theorem bounded_outcomes (bars : List Bar) (inRange : ∀ b ∈ bars, CloseInRange b) :
    (∀ row ∈ (runBacktest bars).logs.trades, BoundedOutcome row) ∧
      ∀ n ≤ bars.length, (stateAfter bars n).tradeOpen = true → (stateAfter bars n).R ≠ 0 := by
  refine ⟨fun row logged => ?_, fun n _ isOpen => ?_⟩
  · cases isOpen : (runLoop bars).tradeOpen with
    | false =>
        rw [runBacktest_flat isOpen] at logged
        exact runLoop_outcomes inRange row logged
    | true =>
        have risk := stateAfter_risk bars bars.length
        obtain ⟨last, size⟩ : ∃ last, bars.length = last + 1 :=
          Nat.exists_eq_add_of_le' (Nat.zero_lt_of_lt (risk.entered isOpen).1)
        rw [runBacktest_trades isOpen] at logged
        rcases List.mem_append.mp logged with earlier | newest
        · exact runLoop_outcomes inRange row earlier
        · have here : CloseInRange (barAt bars last) := inRange _ (barAt_mem (by omega))
          have run : runLoop bars = stateAfter bars (last + 1) := by rw [runLoop, size]
          obtain ⟨above, under⟩ := close_inside here (run ▸ isOpen)
          obtain rfl := List.mem_singleton.mp newest
          rw [size, Nat.add_sub_cancel, run]
          rw [size] at risk
          exact boundedOutcome_close (risk.levels (run ▸ isOpen)) above under
            ⟨nofun, nofun, nofun⟩
  · exact ((stateAfter_risk bars n).levels isOpen).R_pos.ne'

/-- The hypothesis holds of the bars of `losingBars`, whose one trade loses less than R. -/
theorem losingBars_outcomes :
    (∀ b ∈ losingBars, CloseInRange b) ∧
      ∀ row ∈ (runBacktest losingBars).logs.trades, BoundedOutcome row := by
  have inRange : ∀ b ∈ losingBars, CloseInRange b := by
    unfold CloseInRange
    decide +kernel
  exact ⟨inRange, (bounded_outcomes losingBars inRange).1⟩

end PrismPipeline.Backtest
