import Mathlib.Algebra.BigOperators.Ring.List
import Mathlib.Data.List.GetD
import Mathlib.Tactic.Ring
import PrismPipeline.Live.TradeOutcome
import PrismPipeline.Series.Scale

/-!
# Prices and volumes in another unit

Every comparison of the live path is between prices, between volumes, or of a ratio with
a constant.  So a run on packets with all prices in one unit and a run with them in
another go through corresponding states: what is a price changes with the unit, and
everything else is the same.
-/

namespace PrismPipeline.Live

open PrismPipeline.Machine PrismPipeline.Series

/-! ## The other unit -/

section Units

variable (c d : ℚ)

def TradePacket.scale (p : TradePacket) : TradePacket :=
  { p with price := c * p.price, volume := d * p.volume }

def PrismBar.scale (b : PrismBar) : PrismBar :=
  { b with
    openPrice := c * b.openPrice
    high := c * b.high
    low := c * b.low
    close := c * b.close
    volume := d * b.volume
    vwap := c * b.vwap
    atr14 := c * b.atr14 }

def Bar.scale (b : Bar) : Bar :=
  { b with
    openPrice := c * b.openPrice
    high := c * b.high
    low := c * b.low
    close := c * b.close
    volume := d * b.volume
    atr14 := c * b.atr14 }

def Signal.scale (s : Signal) : Signal :=
  { s with
    entryPrice := c * s.entryPrice
    stopLoss := c * s.stopLoss
    target1 := c * s.target1
    target2 := c * s.target2 }

def PrismSignal.scale (s : PrismSignal) : PrismSignal :=
  { s with
    entryPrice := c * s.entryPrice
    stopLoss := c * s.stopLoss
    target1 := c * s.target1
    target2 := c * s.target2 }

def PrismStrategy.scale (s : PrismStrategy) : PrismStrategy :=
  { s with
    history := s.history.map (Bar.scale c d)
    signal := s.signal.scale c
    breakoutLevel := c * s.breakoutLevel }

def DeliveredBar.scale (b : DeliveredBar) : DeliveredBar := { b with bar := b.bar.scale c d }

def EngineWorld.scale (w : EngineWorld) : EngineWorld where
  prism :=
    { w.prism with
      currentBar := w.prism.currentBar.scale c d
      bars := w.prism.bars.map (PrismBar.scale c d)
      lastSignal := w.prism.lastSignal.scale c }
  strategyInstance := w.strategyInstance.scale c d
  delivered := w.delivered.map (DeliveredBar.scale c d)

def ManagedTrade.scale (t : ManagedTrade) : ManagedTrade :=
  { t with
    entryPrice := c * t.entryPrice
    stopLoss := c * t.stopLoss
    initialStopLoss := c * t.initialStopLoss
    initialRisk := c * t.initialRisk
    target1 := c * t.target1
    target2 := c * t.target2
    exitPrice := c * t.exitPrice }

def CsvRow.scale (r : CsvRow) : CsvRow :=
  { r with
    entry := c * r.entry
    exit := c * r.exit
    initialStop := c * r.initialStop
    finalStop := c * r.finalStop
    target1 := c * r.target1
    target2 := c * r.target2 }

def TradeManager.scale (m : TradeManager) : TradeManager :=
  { m with
    trade := m.trade.scale c
    csv := m.csv.map fun rows => rows.map (CsvRow.scale c)
    closedTrades := m.closedTrades.map (ManagedTrade.scale c) }

def LiveState.scale (s : LiveState) : LiveState :=
  { s with
    world := s.world.scale c d
    tradeManager := s.tradeManager.scale c
    signalCalls := s.signalCalls.map (PrismSignal.scale c) }

/-- Zero is zero in every unit. -/
theorem Bar.scale_default : Bar.scale c d {} = {} := by
  simp [Bar.scale]

theorem PrismBar.scale_default : PrismBar.scale c d {} = {} := by
  simp [PrismBar.scale]

end Units

variable {c d : ℚ}

/-! ## The strategy -/

namespace PrismStrategy

theorem previousHigh_scale (pos : 0 < c) (history : List Bar) :
    previousHigh (history.map (Bar.scale c d)) = c * previousHigh history := by
  have entry (i : ℕ) : ((history.map (Bar.scale c d)).getD i {}).high =
      c * (history.getD i {}).high := by
    have moved : (history.map (Bar.scale c d)).getD i (Bar.scale c d {}) =
      Bar.scale c d (history.getD i {}) := List.getD_map _ _ _
    rw [Bar.scale_default] at moved
    rw [moved]
    rfl
  unfold previousHigh
  simp only [List.length_map, entry]
  exact scaled_foldl_max pos _ _ _

variable (s : PrismStrategy) (bar : Bar)

theorem receive_scale : (s.scale c d).receive (bar.scale c d) = (s.receive bar).scale c d := by
  have history := pushTrim_map (Bar.scale c d) historyBound s.history bar
  have signal : ({} : Signal).scale c = {} := by simp [Signal.scale]
  unfold receive PrismStrategy.scale
  dsimp only
  rw [history, signal]

theorem detectBreakout_scale (pos : 0 < c) :
    (s.scale c d).detectBreakout (bar.scale c d) = (s.detectBreakout bar).scale c d := by
  have high := previousHigh_scale (d := d) pos s.history
  have above : previousHigh (s.scale c d).history < (bar.scale c d).close ↔
      previousHigh s.history < bar.close := by
    change previousHigh (s.history.map (Bar.scale c d)) < c * bar.close ↔ _
    rw [high, mul_lt_mul_iff_right₀ pos]
  unfold detectBreakout
  by_cases cooling : s.coolingDown
  · rw [if_pos cooling]
    exact if_pos cooling
  · rw [if_neg cooling]
    refine (if_neg cooling).trans ?_
    by_cases breaks : previousHigh s.history < bar.close
    · rw [if_pos breaks, if_pos (above.mpr breaks)]
      change { s.scale c d with
        breakoutLevel := previousHigh (s.history.map (Bar.scale c d))
        breakoutBarIndex := s.barsProcessed
        state := .breakout } = _
      rw [high]
      rfl
    · rw [if_neg breaks, if_neg (mt above.mp breaks)]

/-- Open, high, low and close only enter the score by their ratios and their order. -/
theorem calculateScore_scale (pos : 0 < c) :
    calculateScore (bar.scale c d) = calculateScore bar := by
  have range : c * bar.high - c * bar.low = c * (bar.high - bar.low) := (mul_sub _ _ _).symm
  unfold calculateScore Bar.scale
  dsimp only
  simp only [range, scaled_ratio pos, mul_pos_iff_of_pos_left pos, mul_le_mul_iff_right₀ pos]

theorem retestAccepted_scale (pos : 0 < c) (level : ℚ) :
    retestAccepted (c * level) (bar.scale c d) ↔ retestAccepted level bar := by
  have range : c * bar.high - c * bar.low = c * (bar.high - bar.low) := (mul_sub _ _ _).symm
  have reach : c * level + c * level * retestTolerancePct =
      c * (level + level * retestTolerancePct) := by ring
  unfold retestAccepted Bar.scale
  dsimp only
  simp only [range, reach, scaled_ratio pos, mul_le_mul_iff_right₀ pos]

theorem stopLevel_scale (pos : 0 < c) : stopLevel (bar.scale c d) = c * stopLevel bar := by
  have range : c * bar.high - c * bar.low = c * (bar.high - bar.low) := (mul_sub _ _ _).symm
  unfold stopLevel Bar.scale
  dsimp only
  simp only [range, mul_pos_iff_of_pos_left pos, mul_assoc]
  rw [← mul_ite, ← mul_sub, ← mul_sub, ← mul_min_of_nonneg _ _ pos.le]

theorem retestSignal_scale (pos : 0 < c) :
    retestSignal (bar.scale c d) = (retestSignal bar).scale c := by
  have stop := stopLevel_scale (d := d) bar pos
  have score := calculateScore_scale (d := d) bar pos
  have close : (bar.scale c d).close = c * bar.close := rfl
  unfold retestSignal Signal.scale
  dsimp only
  rw [stop, score, close]
  congr 1 <;> ring

theorem detectRetest_scale (pos : 0 < c) :
    (s.scale c d).detectRetest (bar.scale c d) = (s.detectRetest bar).scale c d := by
  have level : (s.scale c d).breakoutLevel ≤ 0 ↔ s.breakoutLevel ≤ 0 :=
    scaled_nonpos_iff pos s.breakoutLevel
  have flat : (bar.scale c d).high - (bar.scale c d).low ≤ 0 ↔ bar.high - bar.low ≤ 0 := by
    change c * bar.high - c * bar.low ≤ 0 ↔ _
    rw [← mul_sub, scaled_nonpos_iff pos]
  have accepted : retestAccepted (s.scale c d).breakoutLevel (bar.scale c d) ↔
      retestAccepted s.breakoutLevel bar := retestAccepted_scale bar pos s.breakoutLevel
  have score := calculateScore_scale (d := d) bar pos
  have risk : (bar.scale c d).close - stopLevel (bar.scale c d) ≤ 0 ↔
      bar.close - stopLevel bar ≤ 0 := by
    rw [stopLevel_scale (d := d) bar pos]
    change c * bar.close - c * stopLevel bar ≤ 0 ↔ _
    rw [← mul_sub, scaled_nonpos_iff pos]
  have signal := retestSignal_scale (d := d) bar pos
  have zero : ∀ t : PrismStrategy, { t.scale c d with
      state := .idle, breakoutLevel := 0, breakoutBarIndex := 0 } =
      { t with state := .idle, breakoutLevel := 0, breakoutBarIndex := 0 }.scale c d := by
    intro t
    simp [PrismStrategy.scale]
  have age : (s.scale c d).barsProcessed - (s.scale c d).breakoutBarIndex =
    s.barsProcessed - s.breakoutBarIndex := rfl
  have cooling : (s.scale c d).coolingDown ↔ s.coolingDown := Iff.rfl
  unfold detectRetest
  simp only [level, age, cooling, flat, accepted, score, risk]
  split
  · rfl
  split
  · exact zero s
  split
  · exact zero s
  split
  · rfl
  split
  · rfl
  split
  · rfl
  split
  · rfl
  rw [signal]
  exact zero { s with signal := retestSignal bar, lastSignalBar := s.barsProcessed }

theorem onNewBar_scale (pos : 0 < c) :
    (s.scale c d).onNewBar (bar.scale c d) = (s.onNewBar bar).scale c d := by
  have received := receive_scale (c := c) (d := d) s bar
  have size : ((s.receive bar).scale c d).history.length = (s.receive bar).history.length :=
    List.length_map _
  have same : ((s.receive bar).scale c d).state = (s.receive bar).state := rfl
  unfold onNewBar
  dsimp only
  rw [received, size, same]
  split
  · rfl
  cases (s.receive bar).state with
  | idle => exact detectBreakout_scale _ bar pos
  | breakout | retest => exact detectRetest_scale _ bar pos

end PrismStrategy

/-! ## The bar builder -/

theorem toStrategyBar_scale (b : PrismBar) :
    toStrategyBar (b.scale c d) = (toStrategyBar b).scale c d := rfl

theorem startNewBar_scale (trade : TradePacket) :
    startNewBar (trade.scale c d) = (startNewBar trade).scale c d := by
  simp [startNewBar, PrismBar.scale, TradePacket.scale]

/-- The traded value changes with both units, so its ratio to the volume is a price. -/
theorem updateCurrentBar_scale (posPrice : 0 < c) (posVolume : 0 < d) (b : PrismBar)
    (trade : TradePacket) :
    updateCurrentBar (b.scale c d) (trade.scale c d) = (updateCurrentBar b trade).scale c d := by
  have value : c * b.vwap * (d * b.volume) + c * trade.price * (d * trade.volume) =
      d * (c * (b.vwap * b.volume + trade.price * trade.volume)) := by ring
  have volume : d * b.volume + d * trade.volume = d * (b.volume + trade.volume) := by ring
  unfold updateCurrentBar PrismBar.scale TradePacket.scale
  dsimp only
  rw [value, volume, mul_div_mul_left _ _ posVolume.ne', mul_div_assoc,
    mul_max_of_nonneg _ _ posPrice.le, mul_min_of_nonneg _ _ posPrice.le, mul_ite]
  simp only [mul_pos_iff_of_pos_left posVolume]

theorem trueRange_scale (pos : 0 < c) (prev bar : PrismBar) :
    trueRange (prev.scale c d) (bar.scale c d) = c * trueRange prev bar := by
  unfold trueRange PrismBar.scale
  dsimp only
  rw [← mul_sub, ← mul_sub, ← mul_sub, scaled_abs pos, scaled_abs pos,
    ← mul_max_of_nonneg _ _ pos.le, ← mul_max_of_nonneg _ _ pos.le]

theorem newest_scale (bars : List PrismBar) :
    (bars.map (PrismBar.scale c d)).getLastD {} = (bars.getLastD {}).scale c d := by
  cases bars using List.reverseRecOn with
  | nil => exact (PrismBar.scale_default c d).symm
  | append_singleton older newest =>
      rw [List.map_append, List.map_singleton, List.getLastD_concat, List.getLastD_concat]

theorem atrOf_scale (pos : 0 < c) (bars : List PrismBar) :
    atrOf (bars.map (PrismBar.scale c d)) = c * atrOf bars := by
  have entry (i : ℕ) : (bars.map (PrismBar.scale c d)).getD i {} =
      (bars.getD i {}).scale c d := by
    have moved : (bars.map (PrismBar.scale c d)).getD i (PrismBar.scale c d {}) =
      PrismBar.scale c d (bars.getD i {}) := List.getD_map _ _ _
    rwa [PrismBar.scale_default] at moved
  unfold atrOf
  dsimp only
  rw [newest_scale, List.length_map]
  split
  · exact (mul_sub _ _ _).symm
  · simp only [entry, trueRange_scale pos]
    rw [List.sum_map_mul_left, mul_div_assoc]

theorem computeAtr_scale (pos : 0 < c) (bars : List PrismBar) :
    computeAtr (bars.map (PrismBar.scale c d)) =
      (computeAtr bars).map (PrismBar.scale c d) := by
  cases bars using List.reverseRecOn with
  | nil => rfl
  | append_singleton older newest =>
      have atr := atrOf_scale (d := d) pos (older ++ [newest])
      rw [List.map_append, List.map_singleton] at atr
      rw [List.map_append, List.map_singleton, computeAtr_snoc, computeAtr_snoc, atr,
        List.map_append, List.map_singleton]
      rfl

/-! ## The engine -/

theorem Signal.activated_scale (s : Signal) : (s.scale c).activated = s.activated.scale c := rfl

namespace EngineWorld

variable (w : EngineWorld) (trade : TradePacket)

theorem openBar_scale (start : UInt64) :
    (w.scale c d).openBar start (trade.scale c d) = (w.openBar start trade).scale c d := by
  unfold openBar scale
  dsimp only
  rw [startNewBar_scale]

theorem joinBar_scale (posPrice : 0 < c) (posVolume : 0 < d) :
    (w.scale c d).joinBar (trade.scale c d) = (w.joinBar trade).scale c d := by
  unfold joinBar scale
  dsimp only
  rw [updateCurrentBar_scale posPrice posVolume]

theorem closeCurrentBar_scale (pos : 0 < c) :
    (w.scale c d).closeCurrentBar = w.closeCurrentBar.scale c d := by
  have kept : computeAtr (pushTrim historyBound (w.scale c d).prism.bars
      (w.scale c d).prism.currentBar) =
      (computeAtr (pushTrim historyBound w.prism.bars w.prism.currentBar)).map
        (PrismBar.scale c d) := by
    change computeAtr (pushTrim historyBound (w.prism.bars.map (PrismBar.scale c d))
      (w.prism.currentBar.scale c d)) = _
    rw [pushTrim_map, computeAtr_scale pos]
  have strategy (bar : PrismBar) : (w.scale c d).strategyInstance.onNewBar
      (toStrategyBar (bar.scale c d)) =
      (w.strategyInstance.onNewBar (toStrategyBar bar)).scale c d := by
    rw [toStrategyBar_scale]
    exact w.strategyInstance.onNewBar_scale (toStrategyBar bar) pos
  have shown (s : PrismStrategy) :
      (if (s.scale c d).hasSignal then (s.scale c d).currentSignal.activated else {}) =
        (if s.hasSignal then s.currentSignal.activated else {} : PrismSignal).scale c := by
    have level : (s.scale c d).hasSignal = s.hasSignal := rfl
    rw [level]
    split
    · exact Signal.activated_scale s.currentSignal
    · simp [PrismSignal.scale]
  unfold closeCurrentBar
  dsimp only
  rw [kept, newest_scale, strategy, shown]
  simp [scale, DeliveredBar.scale]

theorem onTrade_scale (posPrice : 0 < c) (posVolume : 0 < d) :
    (w.scale c d).onTrade (trade.scale c d) = (w.onTrade trade).scale c d := by
  have refused : (trade.scale c d).price ≤ 0 ∨ (trade.scale c d).volume ≤ 0 ↔
      trade.price ≤ 0 ∨ trade.volume ≤ 0 :=
    or_congr (scaled_nonpos_iff posPrice _) (scaled_nonpos_iff posVolume _)
  have stamp : (trade.scale c d).exchangeTsNs = trade.exchangeTsNs := rfl
  have start : (w.scale c d).prism.barSeconds.tradeBarStart (trade.scale c d) =
    w.prism.barSeconds.tradeBarStart trade := rfl
  have building : (w.scale c d).prism.hasCurrentBar = w.prism.hasCurrentBar := rfl
  have current : (w.scale c d).prism.currentBarStartNs = w.prism.currentBarStartNs := rfl
  unfold onTrade
  dsimp only
  rw [stamp, start, building, current]
  simp only [refused]
  split
  · rfl
  split
  · rfl
  split
  · exact w.openBar_scale trade _
  split
  · rw [closeCurrentBar_scale w posPrice]
    exact openBar_scale _ trade _
  · exact w.joinBar_scale trade posPrice posVolume

theorem scale_fresh (length : BarLength) : (fresh length).scale c d = fresh length := by
  simp [fresh, scale, PrismBar.scale_default, PrismSignal.scale, PrismStrategy.scale, Signal.scale]

end EngineWorld

/-! ## The trade manager -/

namespace ManagedTrade

variable (t : ManagedTrade) (price : ℚ)

theorem touchTarget1_scale (pos : 0 < c) :
    (t.scale c).touchTarget1 (c * price) = (t.touchTarget1 price).scale c := by
  have reached : (t.scale c).target1 ≤ c * price ↔ t.target1 ≤ price :=
    mul_le_mul_iff_right₀ pos
  have hit : (t.scale c).target1Hit = t.target1Hit := rfl
  unfold touchTarget1
  simp only [reached, hit]
  split
  · rfl
  · rfl

/-- An R multiple is a ratio of prices. -/
theorem settle_scale (pos : 0 < c) (reason : ExitReason) :
    (t.scale c).settle (c * price) reason = (t.settle price reason).scale c := by
  unfold settle scale
  dsimp only
  rw [scaled_ratio pos]
  simp only [mul_pos_iff_of_pos_left pos]

end ManagedTrade

namespace TradeManager

variable (m : TradeManager) (signal : PrismSignal) (price : ℚ)

theorem closeTrade_scale (pos : 0 < c) (reason : ExitReason) :
    (m.scale c).closeTrade (c * price) reason = (m.closeTrade price reason).scale c := by
  have settled : (m.scale c).trade.settle (c * price) reason =
    (m.trade.settle price reason).scale c := m.trade.settle_scale price pos reason
  have multiple : ((m.trade.settle price reason).scale c).rMultiple =
    (m.trade.settle price reason).rMultiple := rfl
  have logged : ((m.trade.settle price reason).scale c).csvRow =
    (m.trade.settle price reason).csvRow.scale c := rfl
  unfold closeTrade writeTradeCloseCsv
  dsimp only
  rw [settled, multiple, logged]
  cases rows : m.csv with
  | none => simp [scale, rows]
  | some rows => simp [scale, rows]

theorem openTrade_scale :
    (m.scale c).openTrade (signal.scale c) = (m.openTrade signal).scale c := by
  have risk : c * signal.entryPrice - c * signal.stopLoss =
    c * (signal.entryPrice - signal.stopLoss) := (mul_sub _ _ _).symm
  simp [openTrade, openedTrade, scale, ManagedTrade.scale, PrismSignal.scale, risk]

theorem onSignal_scale (pos : 0 < c) :
    (m.scale c).onSignal (signal.scale c) = (m.onSignal signal).scale c := by
  have worthless : (signal.scale c).entryPrice - (signal.scale c).stopLoss ≤ 0 ↔
      signal.entryPrice - signal.stopLoss ≤ 0 := by
    change c * signal.entryPrice - c * signal.stopLoss ≤ 0 ↔ _
    rw [← mul_sub, scaled_nonpos_iff pos]
  have active : (signal.scale c).active = signal.active := rfl
  have phase : (m.scale c).state = m.state := rfl
  unfold onSignal
  simp only [worthless, active, phase]
  split
  · rfl
  split
  · rfl
  split
  · rfl
  · exact m.openTrade_scale signal

theorem touched_scale (pos : 0 < c) :
    (m.scale c).touched (c * price) = (m.touched price).scale c :=
  congrArg (fun t => ({ m.scale c with trade := t } : TradeManager))
    (m.trade.touchTarget1_scale price pos)

theorem onPrice_open (isOpen : m.state = .longOpen) :
    m.onPrice price =
      if (m.touched price).trade.target2 ≤ price then
        (m.touched price).closeTrade price .target2Hit
      else if price ≤ (m.touched price).trade.stopLoss then
        (m.touched price).closeTrade price (stopReason (m.touched price).trade)
      else m.touched price :=
  if_neg (not_not.mpr isOpen)

theorem onPrice_scale (pos : 0 < c) :
    (m.scale c).onPrice (c * price) = (m.onPrice price).scale c := by
  cases phase : m.state with
  | flat =>
      have flat : m.state ≠ .longOpen := by
        rw [phase]
        decide
      have same : m.onPrice price = m := if_pos flat
      rw [same]
      exact if_pos flat
  | longOpen =>
      have alsoOpen : (m.scale c).state = .longOpen := phase
      rw [onPrice_open _ _ phase, onPrice_open _ _ alsoOpen, m.touched_scale price pos]
      generalize m.touched price = next
      have reached : (next.scale c).trade.target2 ≤ c * price ↔ next.trade.target2 ≤ price :=
        mul_le_mul_iff_right₀ pos
      have stopped : c * price ≤ (next.scale c).trade.stopLoss ↔ price ≤ next.trade.stopLoss :=
        mul_le_mul_iff_right₀ pos
      have reason : stopReason (next.scale c).trade = stopReason next.trade := rfl
      simp only [reached, stopped, reason]
      split
      · exact next.closeTrade_scale price pos _
      split
      · exact next.closeTrade_scale price pos _
      · rfl

theorem scale_fresh (opened : Bool) : (fresh opened).scale c = fresh opened := by
  cases opened with
  | false => simp [fresh, scale, ManagedTrade.scale]
  | true => simp [fresh, scale, ManagedTrade.scale]

end TradeManager

/-! ## The engine thread -/

namespace LiveState

theorem processPacket_scale (posPrice : 0 < c) (posVolume : 0 < d) (s : LiveState)
    (p : TradePacket) :
    (s.scale c d).processPacket (p.scale c d) = (s.processPacket p).scale c d := by
  have world : (s.scale c d).world.onTrade (p.scale c d) = (s.world.onTrade p).scale c d :=
    s.world.onTrade_scale p posPrice posVolume
  have manager : (s.scale c d).tradeManager.onPrice (p.scale c d).price =
      (s.tradeManager.onPrice p.price).scale c :=
    s.tradeManager.onPrice_scale p.price posPrice
  have signalled : ((s.tradeManager.onPrice p.price).scale c).onSignal
      ((s.world.onTrade p).scale c d).lastSignal =
      ((s.tradeManager.onPrice p.price).onSignal (s.world.onTrade p).lastSignal).scale c :=
    TradeManager.onSignal_scale _ (s.world.onTrade p).lastSignal posPrice
  by_cases rises : s.Rises p
  · have also : (s.scale c d).Rises (p.scale c d) := by
      unfold Rises
      rw [world]
      exact rises
    rw [processPacket_rises s p rises, processPacket_rises _ _ also, world, manager, signalled]
    simp [scale, EngineWorld.lastSignal, EngineWorld.scale]
  · have also : ¬ (s.scale c d).Rises (p.scale c d) := by
      unfold Rises
      rw [world]
      exact rises
    rw [processPacket_quiet s p rises, processPacket_quiet _ _ also, world, manager]
    rfl

theorem scale_fresh (length : BarLength) (opened : Bool) :
    (fresh length opened).scale c d = fresh length opened := by
  unfold fresh scale
  dsimp only
  rw [EngineWorld.scale_fresh, TradeManager.scale_fresh]
  rfl

end LiveState

theorem liveAfter_scale (posPrice : 0 < c) (posVolume : 0 < d) (length : BarLength)
    (opened : Bool) (packets : List TradePacket) :
    liveAfter length opened (packets.map (TradePacket.scale c d)) =
      (liveAfter length opened packets).scale c d := by
  have run := liveMachine.after_simulates liveMachine (LiveState.scale c d)
    (TradePacket.scale c d) (LiveState.processPacket_scale posPrice posVolume)
    (.fresh length opened) packets
  rwa [LiveState.scale_fresh] at run

/-- The same trade in another unit. -/
structure SameTrade (c : ℚ) (t scaled : ManagedTrade) : Prop where
  tradeId : scaled.tradeId = t.tradeId
  entryPrice : scaled.entryPrice = c * t.entryPrice
  stopLoss : scaled.stopLoss = c * t.stopLoss
  initialStopLoss : scaled.initialStopLoss = c * t.initialStopLoss
  initialRisk : scaled.initialRisk = c * t.initialRisk
  target1 : scaled.target1 = c * t.target1
  target2 : scaled.target2 = c * t.target2
  exitPrice : scaled.exitPrice = c * t.exitPrice
  rMultiple : scaled.rMultiple = t.rMultiple
  target1Hit : scaled.target1Hit = t.target1Hit
  exitReason : scaled.exitReason = t.exitReason

theorem ManagedTrade.sameTrade_scale (t : ManagedTrade) : SameTrade c t (t.scale c) :=
  ⟨rfl, rfl, rfl, rfl, rfl, rfl, rfl, rfl, rfl, rfl, rfl⟩

/-- The counters of the manager and of the thread. -/
def LiveState.counters (s : LiveState) : List ℕ × ℚ :=
  ([s.tradeManager.nextTradeId, s.tradeManager.totalTrades, s.tradeManager.wins,
    s.tradeManager.losses, s.tradeManager.breakevens, s.prismSignals, s.processed],
    s.tradeManager.grossR)

/-- Two states of the thread that differ in the unit only. -/
structure SameInUnit (c d : ℚ) (s scaled : LiveState) : Prop where
  whole : scaled = s.scale c d
  phase : scaled.world.strategyInstance.state = s.world.strategyInstance.state
  level : scaled.world.strategyInstance.breakoutLevel =
    c * s.world.strategyInstance.breakoutLevel
  position : scaled.tradeManager.state = s.tradeManager.state
  current : SameTrade c s.tradeManager.trade scaled.tradeManager.trade
  trades : List.Forall₂ (SameTrade c) s.tradeManager.closedTrades scaled.tradeManager.closedTrades
  counters : scaled.counters = s.counters

theorem LiveState.sameInUnit_scale (s : LiveState) : SameInUnit c d s (s.scale c d) where
  whole := rfl
  phase := rfl
  level := rfl
  position := rfl
  current := s.tradeManager.trade.sameTrade_scale
  trades := by
    refine List.forall₂_map_right_iff.mpr (List.forall₂_same.mpr ?_)
    intro t _
    exact t.sameTrade_scale
  counters := rfl

/-- After every packet the thread in the new unit is where the one in the old unit is. -/
theorem live_scale_free (posPrice : 0 < c) (posVolume : 0 < d) (length : BarLength)
    (opened : Bool) (packets : List TradePacket) (n : ℕ) :
    SameInUnit c d (liveAfter length opened (packets.take n))
      (liveAfter length opened ((packets.map (TradePacket.scale c d)).take n)) := by
  rw [← List.map_take, liveAfter_scale posPrice posVolume]
  exact LiveState.sameInUnit_scale _

/-- A trade stopped out in one unit, in another with the prices doubled. -/
theorem stoppedRun_doubled :
    (liveAfter prismBarSeconds true (stoppedRun.take 15)).tradeManager.totalTrades = 1 ∧
      SameInUnit 2 3 (liveAfter prismBarSeconds true (stoppedRun.take 15))
        (liveAfter prismBarSeconds true ((stoppedRun.map (TradePacket.scale 2 3)).take 15)) :=
  ⟨by decide +kernel, live_scale_free (by decide) (by decide) prismBarSeconds true stoppedRun 15⟩

end PrismPipeline.Live
