import PrismPipeline.Live.Delivery
import PrismPipeline.Live.StrategySignals
import PrismPipeline.Series.Checked

/-!
# No read out of range

The functions of the live path that read the two deques, once more with every
subtraction of unsigned numbers and every index checked.  On no sequence of trades does
a check fail, so the checked run is the run.
-/

namespace PrismPipeline.Live

open PrismPipeline.Machine PrismPipeline.Series

/-! ## The strategy -/

namespace PrismStrategy

/-- Mean volume of the last `lookback` entries; the source prints it only. -/
def averageVolume (history : List Bar) (lookback : ℕ) : ℚ :=
  if history = [] then 0
  else
    let n := min lookback history.length
    ((List.range' (history.length - n) n).map fun i => (history.getD i {}).volume).sum / n

def averageVolumeChecked (history : List Bar) (lookback : ℕ) : Option ℚ :=
  if history = [] then some 0
  else do
    let n := min lookback history.length
    let start ← checkedSub history.length n
    let sum ← (List.range' start (history.length - start)).foldlM
      (fun sum i => do
        let bar ← history[i]?
        return sum + bar.volume) 0
    return sum / n

def previousHighChecked (history : List Bar) : Option ℚ := do
  let start ← checkedSub history.length lookbackBars
  let oldest ← checkedSub start 1
  let seed ← history[oldest]?
  let stop ← checkedSub history.length 1
  (List.range' start (stop - start)).foldlM
    (fun high i => do
      let bar ← history[i]?
      return max high bar.high) seed.high

def detectBreakoutChecked (s : PrismStrategy) (bar : Bar) : Option PrismStrategy := do
  let sinceSignal ← checkedSub s.barsProcessed s.lastSignalBar
  if sinceSignal < signalCooldownBars then return s
  else
    let high ← previousHighChecked s.history
    return if high < bar.close then
        { s with breakoutLevel := high, breakoutBarIndex := s.barsProcessed, state := .breakout }
      else s

/-- What `detect_retest` subtracts and reads before it decides, in its order. -/
def retestReads (s : PrismStrategy) (bar : Bar) : Option Unit :=
  if s.breakoutLevel ≤ 0 then some ()
  else do
    let sinceBreakout ← checkedSub s.barsProcessed s.breakoutBarIndex
    if maxRetestBars < sinceBreakout then return ()
    else
      let sinceSignal ← checkedSub s.barsProcessed s.lastSignalBar
      if sinceSignal < signalCooldownBars then return ()
      else if bar.high - bar.low ≤ 0 then return ()
      else
        let _ ← averageVolumeChecked s.history lookbackBars
        return ()

def detectRetestChecked (s : PrismStrategy) (bar : Bar) : Option PrismStrategy :=
  (s.retestReads bar).map fun _ => s.detectRetest bar

def onNewBarChecked (s : PrismStrategy) (bar : Bar) : Option PrismStrategy :=
  let s := s.receive bar
  if s.history.length < lookbackBars + 1 then some s
  else
    match s.state with
    | .idle => s.detectBreakoutChecked bar
    | .breakout | .retest => s.detectRetestChecked bar

theorem averageVolumeChecked_eq (history : List Bar) (lookback : ℕ) :
    averageVolumeChecked history lookback = some (averageVolume history lookback) := by
  unfold averageVolumeChecked averageVolume
  split
  · rfl
  have inside : min lookback history.length ≤ history.length := min_le_right _ _
  have count : history.length - (history.length - min lookback history.length) =
      min lookback history.length := by omega
  dsimp only
  rw [checkedSub_of_le inside]
  simp only [Option.bind_eq_bind, Option.bind_some, count]
  rw [foldlM_eq_some fun sum i => sum + (history.getD i {}).volume]
  · rw [foldl_add_eq_sum]
    rfl
  · intro sum i member
    have range := List.mem_range'_1.mp member
    rw [getElem?_eq_getD (by omega) {}]
    rfl

theorem previousHighChecked_eq {history : List Bar} (warm : lookbackBars + 1 ≤ history.length) :
    previousHighChecked history = some (previousHigh history) := by
  have warm' : 11 ≤ history.length := warm
  have count : history.length - 1 - (history.length - lookbackBars) = lookbackBars - 1 := by
    rw [lookbackBars]
    omega
  unfold previousHighChecked previousHigh
  rw [checkedSub_of_le (by rw [lookbackBars]; omega)]
  simp only [Option.bind_eq_bind, Option.bind_some]
  rw [checkedSub_of_le (by rw [lookbackBars]; omega)]
  simp only [Option.bind_some]
  rw [getElem?_eq_getD (by rw [lookbackBars]; omega) {}, checkedSub_of_le (by omega)]
  simp only [Option.bind_some, count]
  refine foldlM_eq_some _ _ (fun high i member => ?_) _
  have range := List.mem_range'_1.mp member
  change _ ∧ i < history.length - 10 + 9 at range
  rw [getElem?_eq_getD (by omega) {}]
  rfl

theorem detectBreakoutChecked_eq {s : PrismStrategy} (bar : Bar)
    (counted : s.lastSignalBar ≤ s.barsProcessed) (warm : lookbackBars + 1 ≤ s.history.length) :
    s.detectBreakoutChecked bar = some (s.detectBreakout bar) := by
  unfold detectBreakoutChecked
  rw [checkedSub_of_le counted, previousHighChecked_eq warm]
  simp only [Option.bind_eq_bind, Option.bind_some]
  split
  · next cooling => exact congrArg some (if_pos cooling).symm
  · next cool => exact congrArg some (if_neg cool).symm

theorem retestReads_eq {s : PrismStrategy} (bar : Bar)
    (counted : s.lastSignalBar ≤ s.barsProcessed) (found : s.breakoutBarIndex ≤ s.barsProcessed) :
    s.retestReads bar = some () := by
  unfold retestReads
  rw [checkedSub_of_le counted, checkedSub_of_le found, averageVolumeChecked_eq]
  simp only [Option.bind_eq_bind, Option.bind_some]
  split
  · rfl
  split
  · rfl
  split
  · rfl
  split <;> rfl

theorem detectRetestChecked_eq {s : PrismStrategy} (bar : Bar)
    (counted : s.lastSignalBar ≤ s.barsProcessed) (found : s.breakoutBarIndex ≤ s.barsProcessed) :
    s.detectRetestChecked bar = some (s.detectRetest bar) := by
  unfold detectRetestChecked
  rw [retestReads_eq bar counted found]
  rfl

/-- One bar, provided the remembered bar numbers are those of bars already seen. -/
theorem onNewBarChecked_eq {s : PrismStrategy} (bar : Bar)
    (counted : s.lastSignalBar ≤ s.barsProcessed)
    (found : s.state ≠ .idle → s.breakoutBarIndex ≤ s.barsProcessed) :
    s.onNewBarChecked bar = some (s.onNewBar bar) := by
  have later : (s.receive bar).lastSignalBar ≤ (s.receive bar).barsProcessed :=
    counted.trans (Nat.le_succ _)
  have same : (s.receive bar).state = s.state := rfl
  unfold onNewBarChecked onNewBar
  dsimp only
  split
  · rfl
  next warm =>
  rw [same]
  cases phase : s.state with
  | idle => exact detectBreakoutChecked_eq bar later (not_lt.mp warm)
  | breakout | retest =>
      have waiting : s.state ≠ .idle := by simp [phase]
      exact detectRetestChecked_eq bar later ((found waiting).trans (Nat.le_succ _))

end PrismStrategy

/-! ## The engine -/

def atrOfChecked (bars : List PrismBar) : Option ℚ := do
  let newest ← bars.getLast?
  if bars.length < 2 then return newest.high - newest.low
  else
    let others ← checkedSub bars.length 1
    let count := min 14 others
    let start ← checkedSub bars.length count
    let sum ← (List.range' start (bars.length - start)).foldlM
      (fun sum i => do
        let bar ← bars[i]?
        let before ← checkedSub i 1
        let prev ← bars[before]?
        return sum + trueRange prev bar) 0
    return sum / count

def computeAtrChecked (bars : List PrismBar) : Option (List PrismBar) :=
  if bars = [] then some bars
  else (atrOfChecked bars).map fun atr =>
    bars.modify (bars.length - 1) fun newest => { newest with atr14 := atr }

theorem atrOfChecked_eq {bars : List PrismBar} (nonempty : bars ≠ []) :
    atrOfChecked bars = some (atrOf bars) := by
  have last : bars.getLast? = some (bars.getLastD {}) := by
    rw [List.getLast?_eq_some_getLast nonempty, List.getLastD_eq_getLast?,
      List.getLast?_eq_some_getLast nonempty]
    rfl
  unfold atrOfChecked atrOf
  rw [last]
  simp only [Option.bind_eq_bind, Option.bind_some]
  split
  · rfl
  next several =>
  have count : bars.length - (bars.length - min 14 (bars.length - 1)) =
      min 14 (bars.length - 1) := by omega
  rw [checkedSub_of_le (by omega)]
  simp only [Option.bind_some]
  rw [checkedSub_of_le (by omega)]
  simp only [Option.bind_some, count]
  rw [foldlM_eq_some fun sum i => sum + trueRange (bars.getD (i - 1) {}) (bars.getD i {})]
  · rw [foldl_add_eq_sum]
    rfl
  · intro sum i member
    have range := List.mem_range'_1.mp member
    rw [getElem?_eq_getD (by omega) {}, checkedSub_of_le (by omega)]
    simp only [Option.bind_some]
    rw [getElem?_eq_getD (by omega) {}]
    rfl

theorem computeAtrChecked_eq (bars : List PrismBar) :
    computeAtrChecked bars = some (computeAtr bars) := by
  unfold computeAtrChecked
  split
  · next empty =>
      subst empty
      rfl
  · next nonempty =>
      rw [atrOfChecked_eq nonempty]
      rfl

namespace EngineWorld

def closeCurrentBarChecked (w : EngineWorld) : Option EngineWorld := do
  let bars ← computeAtrChecked (pushTrim historyBound w.prism.bars w.prism.currentBar)
  let closed ← bars.getLast?
  let strategy ← w.strategyInstance.onNewBarChecked (toStrategyBar closed)
  return {
    prism :=
      { w.prism with
        bars := bars
        lastSignal := if strategy.hasSignal then strategy.currentSignal.activated else {} }
    strategyInstance := strategy
    delivered := w.delivered ++ [⟨w.prism.currentBarStartNs, closed⟩] }

def onTradeChecked (w : EngineWorld) (trade : TradePacket) : Option EngineWorld :=
  if trade.price ≤ 0 ∨ trade.volume ≤ 0 then some w
  else if normalizeTimestampNs trade.exchangeTsNs = 0 then some w
  else
    let tradeBarStart := w.prism.barSeconds.tradeBarStart trade
    if ¬ w.prism.hasCurrentBar then some (w.openBar tradeBarStart trade)
    else if tradeBarStart ≠ w.prism.currentBarStartNs then
      w.closeCurrentBarChecked.map fun closed => closed.openBar tradeBarStart trade
    else some (w.joinBar trade)

/-- The strategy's bar numbers are those of bars it has seen. -/
theorem Delivery.remembers {w : EngineWorld} (delivery : Delivery w) :
    Remembers w.strategyBars w.strategyInstance := by
  rw [delivery.strategy]
  exact strategyAfter_remembers w.strategyBars

theorem closeCurrentBarChecked_eq {w : EngineWorld} (delivery : Delivery w) :
    w.closeCurrentBarChecked = some w.closeCurrentBar := by
  have memory := delivery.remembers
  have counted : w.strategyInstance.lastSignalBar ≤ w.strategyInstance.barsProcessed := by
    rw [memory.counted]
    exact memory.last_le
  have found : w.strategyInstance.state ≠ .idle →
      w.strategyInstance.breakoutBarIndex ≤ w.strategyInstance.barsProcessed := by
    rw [memory.counted]
    exact fun waiting => (memory.waiting waiting).2.1
  obtain ⟨older, eq⟩ := pushTrim_eq_snoc 199 w.prism.bars w.prism.currentBar
  have closed : (computeAtr (pushTrim historyBound w.prism.bars w.prism.currentBar)).getLast? =
      some w.closedBar := by
    unfold closedBar historyBound
    rw [eq, computeAtr_snoc, List.getLast?_concat, List.getLastD_concat]
  unfold closeCurrentBarChecked
  rw [computeAtrChecked_eq]
  simp only [Option.bind_eq_bind, Option.bind_some]
  rw [closed]
  simp only [Option.bind_some]
  rw [PrismStrategy.onNewBarChecked_eq _ counted found]
  rfl

theorem onTradeChecked_eq {w : EngineWorld} (delivery : Delivery w) (trade : TradePacket) :
    w.onTradeChecked trade = some (w.onTrade trade) := by
  unfold onTradeChecked onTrade
  rw [closeCurrentBarChecked_eq delivery]
  split
  · rfl
  split
  · rfl
  dsimp only
  split
  · rfl
  split <;> rfl

end EngineWorld

/-- The checked run of a fresh engine. -/
def engineRunChecked (length : BarLength) (packets : List TradePacket) : Option EngineWorld :=
  packets.foldlM EngineWorld.onTradeChecked (.fresh length)

/-- No check ever fails. -/
theorem engineRunChecked_eq (length : BarLength) (packets : List TradePacket) :
    engineRunChecked length packets = some (engineAfter length packets) := by
  induction packets using List.reverseRecOn with
  | nil => rfl
  | append_singleton packets trade ih =>
      have delivery := engineAfter_delivery length packets
      have step : engineAfter length (packets ++ [trade]) =
          (engineAfter length packets).onTrade trade := engineMachine.after_snoc _ _ _
      unfold engineRunChecked at ih ⊢
      rw [List.foldlM_append, ih, step]
      simp only [Option.bind_eq_bind, Option.bind_some, List.foldlM_cons, List.foldlM_nil]
      rw [EngineWorld.onTradeChecked_eq delivery]
      rfl

end PrismPipeline.Live
