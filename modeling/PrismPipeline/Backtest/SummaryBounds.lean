import PrismPipeline.Backtest.Reconcile
import PrismPipeline.Backtest.Summary

/-!
# The sums of a summary against its counters

The loop counts its exits as it makes them, and the end of the program sums up the R multiples
of the rows.  What a row was closed by fixes its sign, so each counter is bounded by a sum.
-/

namespace PrismPipeline.Backtest

open PrismPipeline.Machine PrismPipeline.Series

/-! ## Rows and counters -/

/-- What the reason of an exit says about the R multiple, and how long a trade is held. -/
structure LevelRow (row : TradeLog) : Prop where
  stopHit : row.exitReason = .stopHit → row.rMultiple = -1
  target1Hit : row.exitReason = .target1Hit → row.rMultiple = 1.5
  target2Hit : row.exitReason = .target2Hit → row.rMultiple = 2.5
  held : 0 ≤ row.holdingBars ∧ row.holdingBars ≤ 20

section Step

variable {bars : List Bar} {s t : LoopState} {m : ℕ × Move}

/-- No trade is held for more than twenty bars. -/
theorem tradeRow_held (bars : List Bar) (s : LoopState) {i : ℕ} (reason : ExitReason)
    (exitPrice : ℚ) (recent : i ≤ s.entryI + 20) :
    0 ≤ (tradeRow bars i s reason exitPrice).holdingBars ∧
      (tradeRow bars i s reason exitPrice).holdingBars ≤ 20 := by
  rw [tradeRow_holdingBars bars reason exitPrice recent]
  omega

theorem levelRow_fires {b : Bar} {i : ℕ} {reason : ExitReason} {exitPrice : ℚ}
    (levels : OrderedLevels s) (recent : i ≤ s.entryI + 20)
    (fires : ExitFires b i s reason exitPrice) : LevelRow (tradeRow bars i s reason exitPrice) := by
  have held := tradeRow_held bars s reason exitPrice recent
  cases fires with
  | stopHit => exact ⟨fun _ => r_at_stop levels, nofun, nofun, held⟩
  | target1Hit => exact ⟨nofun, fun _ => r_at_t1 levels, nofun, held⟩
  | target2Hit => exact ⟨nofun, nofun, fun _ => r_at_t2 levels, held⟩
  | closeBelow | shock | trendDown | block | expired => exact ⟨nofun, nofun, nofun, held⟩

theorem LoopMove.levelRows (step : LoopMove bars s m t)
    (rows : ∀ row ∈ s.logs.trades, LevelRow row) : ∀ row ∈ t.logs.trades, LevelRow row := by
  cases step with
  | score | breakout | expire | accept | reject => exact rows
  | exit _ levels _ _ recent fires =>
      refine List.forall_mem_append.mpr ⟨rows, ?_⟩
      rw [List.forall_mem_singleton]
      exact levelRow_fires levels recent fires

end Step

theorem runLoop_levelRows (bars : List Bar) : ∀ row ∈ (runLoop bars).logs.trades, LevelRow row := by
  refine stateAfter_of_moves (fun s => ∀ row ∈ s.logs.trades, LevelRow row) ?_
    (fun _ _ _ rows step => step.levelRows rows) bars.length
  exact fun _ member => absurd member List.not_mem_nil

/-- The end of the data closes at no level. -/
theorem runBacktest_levelRows (bars : List Bar) :
    ∀ row ∈ (runBacktest bars).logs.trades, LevelRow row := by
  have rows := runLoop_levelRows bars
  cases isOpen : (runLoop bars).tradeOpen with
  | false =>
      rw [runBacktest_flat isOpen]
      exact rows
  | true =>
      obtain ⟨before, recent⟩ := (stateAfter_risk bars bars.length).entered isOpen
      change (runLoop bars).entryI < bars.length at before
      change bars.length ≤ (runLoop bars).entryI + 20 at recent
      have held {exitPrice : ℚ} := tradeRow_held bars (runLoop bars)
        (i := bars.length - 1) .dataEndExit exitPrice (by omega)
      rw [runBacktest_trades isOpen]
      refine List.forall_mem_append.mpr ⟨rows, ?_⟩
      rw [List.forall_mem_singleton]
      refine ⟨fun hit => ?_, fun hit => ?_, fun hit => ?_, held⟩
      all_goals cases hit

/-! ## Counters and sums -/

/-- Hits and stops against the signs and the amounts of the R multiples. -/
structure LevelBounds (trades : List TradeLog) : Prop where
  won : exitsBy .target1Hit trades + exitsBy .target2Hit trades ≤ gained (rMultiples trades)
  stopped : exitsBy .stopHit trades ≤ lost (rMultiples trades)
  amount : 1.5 * (exitsBy .target1Hit trades : ℚ) + 2.5 * exitsBy .target2Hit trades ≤
    gain (rMultiples trades)
  risked : (exitsBy .stopHit trades : ℚ) ≤ loss (rMultiples trades)

theorem LevelBounds.append {first second : List TradeLog} (left : LevelBounds first)
    (right : LevelBounds second) : LevelBounds (first ++ second) := by
  have multiples : rMultiples (first ++ second) = rMultiples first ++ rMultiples second :=
    List.map_append
  have exits (reason : ExitReason) : exitsBy reason (first ++ second) =
      exitsBy reason first + exitsBy reason second := List.countP_append
  obtain ⟨won, stopped, amount, risked⟩ := left
  obtain ⟨won', stopped', amount', risked'⟩ := right
  constructor
  · rw [multiples, gained_append, exits, exits]
    omega
  · rw [multiples, lost_append, exits]
    omega
  · rw [multiples, gain_append, exits, exits]
    push_cast
    linarith
  · rw [multiples, loss_append, exits]
    push_cast
    linarith

theorem LevelRow.bounds {row : TradeLog} (levels : LevelRow row) : LevelBounds [row] := by
  have multiples : rMultiples [row] = [row.rMultiple] := rfl
  have gains : 0 ≤ gain [row.rMultiple] := gain_nonneg _
  have losses : 0 ≤ loss [row.rMultiple] := loss_nonneg _
  cases reason : row.exitReason with
  | stopHit =>
      have r := levels.stopHit reason
      have counts : exitsBy .stopHit [row] = 1 ∧ exitsBy .target1Hit [row] = 0 ∧
          exitsBy .target2Hit [row] = 0 := by simp [exitsBy, reason]
      obtain ⟨stops, first, second⟩ := counts
      constructor <;> norm_num [multiples, stops, first, second, r, gained_singleton,
        lost_singleton, gain_singleton, loss_singleton]
  | target1Hit =>
      have r := levels.target1Hit reason
      have counts : exitsBy .stopHit [row] = 0 ∧ exitsBy .target1Hit [row] = 1 ∧
          exitsBy .target2Hit [row] = 0 := by simp [exitsBy, reason]
      obtain ⟨stops, first, second⟩ := counts
      constructor <;> norm_num [multiples, stops, first, second, r, gained_singleton,
        lost_singleton, gain_singleton, loss_singleton]
  | target2Hit =>
      have r := levels.target2Hit reason
      have counts : exitsBy .stopHit [row] = 0 ∧ exitsBy .target1Hit [row] = 0 ∧
          exitsBy .target2Hit [row] = 1 := by simp [exitsBy, reason]
      obtain ⟨stops, first, second⟩ := counts
      constructor <;> norm_num [multiples, stops, first, second, r, gained_singleton,
        lost_singleton, gain_singleton, loss_singleton]
  | _ => constructor <;> simp [multiples, exitsBy, reason, gains, losses]

theorem levelBounds {trades : List TradeLog} (rows : ∀ row ∈ trades, LevelRow row) :
    LevelBounds trades := by
  induction trades with
  | nil => exact ⟨le_refl _, le_refl _, by simp [exitsBy, rMultiples], le_refl _⟩
  | cons row trades ih =>
      obtain ⟨first, later⟩ := List.forall_mem_cons.mp rows
      exact first.bounds.append (ih later)

/-! ## The summary -/

/-- The drawdown that is reported is made of losses. -/
theorem maxDd_le_loss (bars : List Bar) :
    0 ≤ (runBacktest bars).account.maxDd ∧
      (runBacktest bars).account.maxDd ≤ loss (rMultiples (runBacktest bars).logs.trades) := by
  have tracks : Tracks _ _ := runLoop_accountExact bars
  cases isOpen : (runLoop bars).tradeOpen with
  | false =>
      rw [runBacktest_flat isOpen]
      exact ⟨tracks.depth.nonneg, tracks.depth.le_loss⟩
  | true =>
      obtain ⟨multiples, same⟩ := runBacktest_open isOpen
      rw [multiples, same, loss_append]
      exact ⟨tracks.depth.nonneg,
        le_trans tracks.depth.le_loss (le_add_of_nonneg_right (loss_nonneg _))⟩

theorem perTrade_mul (trades : List TradeLog) (total : ℚ) (none : trades = [] → total = 0) :
    trades.length * perTrade trades total = total := by
  unfold perTrade
  split_ifs with empty
  · rw [mul_zero, none empty]
  · have some : (trades.length : ℚ) ≠ 0 := by
      exact_mod_cast (List.length_pos_iff.mpr empty).ne'
    exact mul_div_cancel₀ total some

theorem perTrade_bounds {trades : List TradeLog} {total bound : ℚ} (positive : 0 ≤ bound)
    (low : 0 ≤ total) (high : total ≤ trades.length * bound) :
    0 ≤ perTrade trades total ∧ perTrade trades total ≤ bound := by
  unfold perTrade
  split_ifs with empty
  · exact ⟨le_refl _, positive⟩
  · have some : (0 : ℚ) < trades.length := by exact_mod_cast List.length_pos_iff.mpr empty
    refine ⟨div_nonneg low some.le, (div_le_iff₀ some).mpr ?_⟩
    rwa [mul_comm]

/-- Wins, losses and their amounts cover so many hits of the levels. -/
structure LevelsCovered (t1hits t2hits stops : ℤ) (stats : TradeStats) : Prop where
  won : (t1hits : ℚ) + t2hits ≤ stats.wins
  stopped : (stops : ℚ) ≤ stats.losses
  amount : 1.5 * (t1hits : ℚ) + 2.5 * t2hits ≤ stats.posR
  risked : (stops : ℚ) ≤ stats.negR

theorem LevelsCovered.mono {t1hits t2hits stops t1shown t2shown stopsShown : ℤ}
    {stats : TradeStats} (covered : LevelsCovered t1hits t2hits stops stats)
    (first : t1shown ≤ t1hits) (second : t2shown ≤ t2hits) (stop : stopsShown ≤ stops) :
    LevelsCovered t1shown t2shown stopsShown stats := by
  obtain ⟨won, stopped, amount, risked⟩ := covered
  have fewer1 : (t1shown : ℚ) ≤ t1hits := by exact_mod_cast first
  have fewer2 : (t2shown : ℚ) ≤ t2hits := by exact_mod_cast second
  have fewerStops : (stopsShown : ℚ) ≤ stops := by exact_mod_cast stop
  exact ⟨by linarith, by linarith, by linarith, by linarith⟩

/-- What the members of a summary say about one another. -/
structure SoundSummary (s : LoopState) (stats : TradeStats) : Prop where
  results : stats.wins + stats.losses ≤ s.logs.trades.length
  gross : stats.grossR = s.account.equity ∧ stats.grossR = stats.posR - stats.negR
  average : s.logs.trades.length * perTrade s.logs.trades stats.grossR = stats.grossR
  profit : 0 < stats.negR → (1 < profitFactor stats ↔ 0 < stats.grossR)
  losing : 0 < stats.negR ↔ 0 < stats.losses
  drawdown : 0 ≤ s.account.maxDd ∧ s.account.maxDd ≤ stats.negR
  levels : LevelsCovered (exitsBy .target1Hit s.logs.trades) (exitsBy .target2Hit s.logs.trades)
    (exitsBy .stopHit s.logs.trades) stats
  counters : LevelsCovered s.counters.t1hits.toInt s.counters.t2hits.toInt s.counters.stops.toInt
    stats
  rate : 0 ≤ perTrade s.logs.trades stats.wins ∧ perTrade s.logs.trades stats.wins ≤ 1
  holding : 0 ≤ perTrade s.logs.trades stats.hold ∧ perTrade s.logs.trades stats.hold ≤ 20

theorem holding_bounds {trades : List TradeLog} (rows : ∀ row ∈ trades, LevelRow row) :
    0 ≤ (trades.map fun t => (t.holdingBars : ℚ)).sum ∧
      (trades.map fun t => (t.holdingBars : ℚ)).sum ≤ trades.length * 20 := by
  induction trades with
  | nil => simp
  | cons row trades ih =>
      obtain ⟨first, later⟩ := List.forall_mem_cons.mp rows
      obtain ⟨low, high⟩ := ih later
      have least : (0 : ℚ) ≤ row.holdingBars := by exact_mod_cast first.held.1
      have most : (row.holdingBars : ℚ) ≤ 20 := by exact_mod_cast first.held.2
      rw [List.map_cons, List.sum_cons, List.length_cons]
      push_cast
      exact ⟨by linarith, by linarith⟩

/-- More was won than lost exactly where the factor exceeds one. -/
theorem profitFactor_gt_one {stats : TradeStats} (some : 0 < stats.negR) :
    1 < profitFactor stats ↔ 0 < stats.posR - stats.negR := by
  rw [profitFactor, if_pos some, one_lt_div some, sub_pos]

/-- Over every run the members of the summary agree. -/
theorem summary_sound (bars : List Bar) :
    SoundSummary (runBacktest bars) (tradeStats (runBacktest bars).logs.trades) := by
  have equity := runBacktest_equity bars
  have drawdown := maxDd_le_loss bars
  have rows := runBacktest_levelRows bars
  obtain ⟨gross, wins, losses, pos, neg, hold⟩ := tradeStats_sums (runBacktest bars).logs.trades
  obtain ⟨won, stopped, amount, risked⟩ := levelBounds rows
  obtain ⟨held, short⟩ := holding_bounds rows
  have split := gain_sub_loss (rMultiples (runBacktest bars).logs.trades)
  have counts := gained_add_lost_add_unchanged (rMultiples (runBacktest bars).logs.trades)
  have size : (rMultiples (runBacktest bars).logs.trades).length =
      (runBacktest bars).logs.trades.length := List.length_map _
  rw [size] at counts
  have balance : (tradeStats (runBacktest bars).logs.trades).grossR =
      (tradeStats (runBacktest bars).logs.trades).posR -
        (tradeStats (runBacktest bars).logs.trades).negR := by rw [gross, pos, neg, split]
  have levels : LevelsCovered (exitsBy .target1Hit (runBacktest bars).logs.trades)
      (exitsBy .target2Hit (runBacktest bars).logs.trades)
      (exitsBy .stopHit (runBacktest bars).logs.trades)
      (tradeStats (runBacktest bars).logs.trades) := by
    constructor
    · rw [wins]
      exact_mod_cast won
    · rw [losses]
      exact_mod_cast stopped
    · rw [pos]
      exact_mod_cast amount
    · rw [neg]
      exact_mod_cast risked
  constructor
  · rw [wins, losses]
    exact_mod_cast (by omega : _ ≤ (runBacktest bars).logs.trades.length)
  · exact ⟨gross.trans equity.symm, balance⟩
  · refine perTrade_mul _ _ fun empty => ?_
    rw [gross, empty]
    rfl
  · intro some
    rw [profitFactor_gt_one some, balance]
  · rw [neg, losses, loss_pos_iff, Nat.cast_pos]
  · rw [neg]
    exact drawdown
  · exact levels
  · rw [runBacktest_counters]
    exact levels.mono (toInt_ofNat_le _) (toInt_ofNat_le _) (toInt_ofNat_le _)
  · refine perTrade_bounds zero_le_one ?_ ?_
    · rw [wins]
      exact Nat.cast_nonneg _
    · rw [wins, mul_one]
      exact_mod_cast (by omega : _ ≤ (runBacktest bars).logs.trades.length)
  · refine perTrade_bounds (by norm_num) ?_ ?_
    · rw [hold]
      exact held
    · rw [hold]
      exact short

end PrismPipeline.Backtest
