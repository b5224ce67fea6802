import PrismPipeline.Live.IndexSafety

/-!
# Eviction is unobservable

The engine and the strategy keep the last 200 bars only.  A second pair of definitions
keeps all of them; forgetting all but the last 200 turns a run of the second pair into
the run of the first.  Every reader counts from the end of its deque and reaches back at
most fifteen places, which is why the forgotten bars are never missed.
-/

namespace PrismPipeline.Live

open PrismPipeline.Machine PrismPipeline.Series

/-! ## The same program without eviction -/

namespace PrismStrategy

def receiveUntrimmed (s : PrismStrategy) (bar : Bar) : PrismStrategy :=
  { s with
    barsProcessed := s.barsProcessed + 1
    history := s.history ++ [bar]
    signal := {} }

def onNewBarUntrimmed (s : PrismStrategy) (bar : Bar) : PrismStrategy :=
  let s := s.receiveUntrimmed bar
  if s.history.length < lookbackBars + 1 then s
  else
    match s.state with
    | .idle => s.detectBreakout bar
    | .breakout | .retest => s.detectRetest bar

/-- The strategy with all but the last 200 bars forgotten. -/
def evict (s : PrismStrategy) : PrismStrategy :=
  { s with history := s.history.rtake historyBound }

end PrismStrategy

namespace EngineWorld

def closeCurrentBarUntrimmed (w : EngineWorld) : EngineWorld :=
  let bars := computeAtr (w.prism.bars ++ [w.prism.currentBar])
  let closed := bars.getLastD {}
  let strategy := w.strategyInstance.onNewBarUntrimmed (toStrategyBar closed)
  { prism :=
      { w.prism with
        bars := bars
        lastSignal := if strategy.hasSignal then strategy.currentSignal.activated else {} }
    strategyInstance := strategy
    delivered := w.delivered ++ [⟨w.prism.currentBarStartNs, closed⟩] }

def onTradeUntrimmed (w : EngineWorld) (trade : TradePacket) : EngineWorld :=
  if trade.price ≤ 0 ∨ trade.volume ≤ 0 then w
  else if normalizeTimestampNs trade.exchangeTsNs = 0 then w
  else
    let tradeBarStart := w.prism.barSeconds.tradeBarStart trade
    if ¬ w.prism.hasCurrentBar then w.openBar tradeBarStart trade
    else if tradeBarStart ≠ w.prism.currentBarStartNs then
      w.closeCurrentBarUntrimmed.openBar tradeBarStart trade
    else w.joinBar trade

/-- The engine and its strategy with all but the last 200 bars forgotten. -/
def evict (w : EngineWorld) : EngineWorld :=
  { w with
    prism := { w.prism with bars := w.prism.bars.rtake historyBound }
    strategyInstance := w.strategyInstance.evict }

end EngineWorld

def untrimmedMachine : Mealy EngineWorld TradePacket PrismSignal where
  step w trade := w.onTradeUntrimmed trade
  output w trade := (w.onTradeUntrimmed trade).lastSignal

/-- A fresh engine that never evicts, after a sequence of trades. -/
def untrimmedAfter (length : BarLength) (packets : List TradePacket) : EngineWorld :=
  untrimmedMachine.after (.fresh length) packets

/-! ## Readers look back from the end -/

/-- The scan for the previous high reads the last eleven bars. -/
theorem previousHigh_rtake {history : List Bar} (warm : lookbackBars + 1 ≤ history.length) :
    PrismStrategy.previousHigh (history.rtake historyBound) =
      PrismStrategy.previousHigh history := by
  have warm' : 11 ≤ history.length := warm
  have kept : ∀ j, (history.rtake historyBound).getD j {} =
      history.getD (history.length - min historyBound history.length + j) {} :=
    fun j => getD_rtake historyBound history j {}
  have bound : 11 ≤ min historyBound history.length :=
    le_min (by norm_num [historyBound]) warm'
  have oldest : history.length - min historyBound history.length +
      (min historyBound history.length - lookbackBars - 1) =
      history.length - lookbackBars - 1 := by
    rw [lookbackBars]
    omega
  have start : history.length - min historyBound history.length +
      (min historyBound history.length - lookbackBars) = history.length - lookbackBars := by
    rw [lookbackBars]
    omega
  unfold PrismStrategy.previousHigh
  simp only [length_rtake, kept]
  rw [oldest, ← start, ← List.map_add_range', List.foldl_map]

/-- The mean true range reads the last fifteen bars. -/
theorem atrOf_rtake (bars : List PrismBar) : atrOf (bars.rtake historyBound) = atrOf bars := by
  have kept : ∀ j, (bars.rtake historyBound).getD j {} =
      bars.getD (bars.length - min historyBound bars.length + j) {} :=
    fun j => getD_rtake historyBound bars j {}
  have newest : (bars.rtake historyBound).getLastD {} = bars.getLastD {} := by
    rw [List.getLastD_eq_getLast?, List.getLastD_eq_getLast?, getLast?_rtake (by decide)]
  have few : min historyBound bars.length < 2 ↔ bars.length < 2 := by
    rw [historyBound]
    omega
  have count : min 14 (min historyBound bars.length - 1) = min 14 (bars.length - 1) := by
    rw [historyBound]
    omega
  unfold atrOf
  simp only [newest, length_rtake, few, count]
  split
  · rfl
  next several =>
  have enough : min 14 (bars.length - 1) < min historyBound bars.length := by
    rw [historyBound]
    omega
  have start : bars.length - min historyBound bars.length +
      (min historyBound bars.length - min 14 (bars.length - 1)) =
      bars.length - min 14 (bars.length - 1) := by omega
  rw [← start, ← List.map_add_range', List.map_map]
  refine congrArg (fun ranges : List ℚ => ranges.sum / ((min 14 (bars.length - 1) : ℕ) : ℚ))
    (List.map_congr_left fun i member => ?_)
  have range := List.mem_range'_1.mp member
  have before : bars.length - min historyBound bars.length + (i - 1) =
      bars.length - min historyBound bars.length + i - 1 := by omega
  rw [kept, kept, before]
  rfl

theorem computeAtr_rtake (older : List PrismBar) (newest : PrismBar) :
    computeAtr ((older ++ [newest]).rtake historyBound) =
      (computeAtr (older ++ [newest])).rtake historyBound := by
  have cut : ∀ last : PrismBar, (older ++ [last]).rtake historyBound =
      older.rtake 199 ++ [last] := fun last => List.rtake_concat_succ older 199 last
  have same := atrOf_rtake (older ++ [newest])
  rw [cut newest] at same ⊢
  rw [computeAtr_snoc, computeAtr_snoc, cut, same]

/-! ## Forgetting commutes with running -/

/-- The newest bar is never the one forgotten. -/
theorem getLastD_rtake (bars : List PrismBar) :
    (bars.rtake historyBound).getLastD {} = bars.getLastD {} := by
  rw [List.getLastD_eq_getLast?, List.getLastD_eq_getLast?, getLast?_rtake (by decide)]

-- Without this `rfl` counts the bound down one by one.
attribute [local irreducible] historyBound

namespace PrismStrategy

@[simp] theorem evict_history (s : PrismStrategy) :
    s.evict.history = s.history.rtake historyBound := rfl

theorem evict_fresh : ({} : PrismStrategy).evict = {} := by
  rw [evict, List.rtake_nil]

theorem evict_receiveUntrimmed (s : PrismStrategy) (bar : Bar) :
    (s.receiveUntrimmed bar).evict = s.evict.receive bar := by
  have history : pushTrim historyBound (s.history.rtake historyBound) bar =
      (s.history ++ [bar]).rtake historyBound := pushTrim_rtake historyBound s.history bar
  unfold receive evict receiveUntrimmed
  dsimp only
  rw [history]

theorem evict_coolingDown (s : PrismStrategy) : s.evict.coolingDown ↔ s.coolingDown := by
  unfold coolingDown evict
  rfl

theorem evict_detectBreakout {s : PrismStrategy} (bar : Bar)
    (warm : lookbackBars + 1 ≤ s.history.length) :
    (s.detectBreakout bar).evict = s.evict.detectBreakout bar := by
  have high : previousHigh s.evict.history = previousHigh s.history := by
    rw [evict_history, previousHigh_rtake warm]
  unfold detectBreakout
  rw [high]
  simp only [evict_coolingDown]
  split
  · rfl
  split <;> rfl

theorem evict_detectRetest (s : PrismStrategy) (bar : Bar) :
    (s.detectRetest bar).evict = s.evict.detectRetest bar := by
  have level : s.evict.breakoutLevel = s.breakoutLevel := rfl
  have index : s.evict.breakoutBarIndex = s.breakoutBarIndex := rfl
  have processed : s.evict.barsProcessed = s.barsProcessed := rfl
  unfold detectRetest
  simp only [evict_coolingDown, level, index, processed]
  split
  · rfl
  split
  · rfl
  split
  · rfl
  split
  · rfl
  split
  · rfl
  split
  · rfl
  split <;> rfl

theorem evict_onNewBarUntrimmed (s : PrismStrategy) (bar : Bar) :
    (s.onNewBarUntrimmed bar).evict = s.evict.onNewBar bar := by
  have received := s.evict_receiveUntrimmed bar
  have few : (s.receiveUntrimmed bar).evict.history.length < lookbackBars + 1 ↔
      (s.receiveUntrimmed bar).history.length < lookbackBars + 1 := by
    unfold evict
    rw [length_rtake, historyBound, lookbackBars]
    omega
  have same : (s.receiveUntrimmed bar).evict.state = (s.receiveUntrimmed bar).state := rfl
  unfold onNewBar onNewBarUntrimmed
  rw [← received]
  dsimp only
  simp only [few, same]
  split
  · rfl
  next warm =>
  cases (s.receiveUntrimmed bar).state with
  | idle => exact evict_detectBreakout bar (not_lt.mp warm)
  | breakout | retest => exact evict_detectRetest _ bar

end PrismStrategy

namespace EngineWorld

theorem evict_closeCurrentBarUntrimmed (w : EngineWorld) :
    w.closeCurrentBarUntrimmed.evict = w.evict.closeCurrentBar := by
  have pushed : pushTrim historyBound (w.prism.bars.rtake historyBound) w.prism.currentBar =
      (w.prism.bars ++ [w.prism.currentBar]).rtake historyBound := pushTrim_rtake _ _ _
  have bars := computeAtr_rtake w.prism.bars w.prism.currentBar
  unfold closeCurrentBar evict
  dsimp only
  rw [pushed, bars, getLastD_rtake, ← PrismStrategy.evict_onNewBarUntrimmed]
  rfl

theorem evict_onTradeUntrimmed (w : EngineWorld) (trade : TradePacket) :
    (w.onTradeUntrimmed trade).evict = w.evict.onTrade trade := by
  have closed := w.evict_closeCurrentBarUntrimmed
  have building : w.evict.prism.hasCurrentBar = w.prism.hasCurrentBar := rfl
  have start : w.evict.prism.currentBarStartNs = w.prism.currentBarStartNs := rfl
  have length : w.evict.prism.barSeconds = w.prism.barSeconds := rfl
  unfold onTradeUntrimmed onTrade
  simp only [building, start, length, ← closed]
  split
  · rfl
  split
  · rfl
  split
  · rfl
  split <;> rfl

end EngineWorld

/-- The run of the engine is the run without eviction, seen through the last 200 bars. -/
theorem engineAfter_eq_evict (length : BarLength) (packets : List TradePacket) :
    engineAfter length packets = (untrimmedAfter length packets).evict := by
  have fresh : (EngineWorld.fresh length).evict = .fresh length := by
    rw [EngineWorld.evict, EngineWorld.fresh, PrismStrategy.evict_fresh, List.rtake_nil]
  have run := untrimmedMachine.after_map engineMachine EngineWorld.evict
    EngineWorld.evict_onTradeUntrimmed (.fresh length) packets
  rw [fresh] at run
  exact run.symm

/-! ## The mean true range of the stream -/

/-- Closed bar number `k` of a stream; the first one has number 1. -/
def prismBarNo (bars : List PrismBar) (k : ℕ) : PrismBar := bars.getD (k - 1) {}

/-- The mean of the true ranges of the last at most fourteen bars up to number `k`, over
the whole stream; the first bar has no bar before it and gives its own range. -/
def streamAtr (bars : List PrismBar) (k : ℕ) : ℚ :=
  if k = 1 then (prismBarNo bars 1).high - (prismBarNo bars 1).low
  else
    let count := min 14 (k - 1)
    ((List.range' (k + 1 - count) count).map fun j =>
      trueRange (prismBarNo bars (j - 1)) (prismBarNo bars j)).sum / count

/-- What `compute_atr` stores, read as a position of the stream. -/
theorem atrOf_eq_streamAtr {bars : List PrismBar} (nonempty : bars ≠ []) :
    atrOf bars = streamAtr bars bars.length := by
  have size : 0 < bars.length := List.length_pos_iff.mpr nonempty
  unfold atrOf streamAtr
  dsimp only
  by_cases single : bars.length = 1
  · obtain ⟨bar, rfl⟩ := List.length_eq_one_iff.mp single
    rfl
  · have shift : bars.length + 1 - min 14 (bars.length - 1) =
        1 + (bars.length - min 14 (bars.length - 1)) := by omega
    rw [if_neg (by omega), if_neg single, shift, ← List.map_add_range', List.map_map]
    refine congrArg (fun ranges : List ℚ => ranges.sum / ((min 14 (bars.length - 1) : ℕ) : ℚ))
      (List.map_congr_left fun i _ => ?_)
    have here : 1 + i - 1 = i := Nat.add_sub_cancel_left 1 i
    simp only [Function.comp_apply, prismBarNo, here]

/-- Two bars with the same high, low and close. -/
def SameRange (a b : PrismBar) : Prop := a.high = b.high ∧ a.low = b.low ∧ a.close = b.close

/-- The mean true range at a bar depends on the ranges up to that bar only. -/
theorem streamAtr_congr {first second : List PrismBar} {k : ℕ} (started : 1 ≤ k)
    (same : ∀ j, 1 ≤ j → j ≤ k → SameRange (prismBarNo first j) (prismBarNo second j)) :
    streamAtr first k = streamAtr second k := by
  unfold streamAtr
  split
  · obtain ⟨high, low, _⟩ := same 1 le_rfl started
    rw [high, low]
  · refine congrArg (fun ranges : List ℚ => ranges.sum / ((min 14 (k - 1) : ℕ) : ℚ))
      (List.map_congr_left fun j member => ?_)
    have range := List.mem_range'_1.mp member
    obtain ⟨high, low, _⟩ := same j (by omega) (by omega)
    obtain ⟨_, _, close⟩ := same (j - 1) (by omega) (by omega)
    unfold trueRange
    rw [high, low, close]

theorem prismBarNo_snoc_old (bars : List PrismBar) (newest : PrismBar) {k : ℕ} (started : 1 ≤ k)
    (inside : k ≤ bars.length) : prismBarNo (bars ++ [newest]) k = prismBarNo bars k := by
  unfold prismBarNo
  rw [List.getD_append bars [newest] {} (k - 1) (by omega)]

theorem prismBarNo_snoc_new (bars : List PrismBar) (newest : PrismBar) :
    prismBarNo (bars ++ [newest]) (bars.length + 1) = newest := by
  unfold prismBarNo
  rw [Nat.add_sub_cancel, List.getD_append_right bars [newest] {} _ le_rfl, Nat.sub_self]
  rfl

namespace EngineWorld

/-- The closed bars of the whole stream. -/
def closedBars (w : EngineWorld) : List PrismBar := w.delivered.map DeliveredBar.bar

/-- Each closed bar carries the mean true range of the whole stream at that bar. -/
def AtrExact (w : EngineWorld) : Prop :=
  ∀ k, 1 ≤ k → k ≤ w.closedBars.length →
    (prismBarNo w.closedBars k).atr14 = streamAtr w.closedBars k

theorem Delivery.closedBar_eq {w : EngineWorld} (delivery : Delivery w) :
    w.closedBar =
      { w.prism.currentBar with atr14 := atrOf (w.closedBars ++ [w.prism.currentBar]) } := by
  have pushed : pushTrim historyBound w.prism.bars w.prism.currentBar =
      (w.closedBars ++ [w.prism.currentBar]).rtake historyBound := by
    rw [delivery.kept, closedBars, pushTrim_rtake]
  rw [closedBar, pushed, computeAtr_rtake, getLastD_rtake, computeAtr_snoc, List.getLastD_concat]

theorem AtrExact.close {w : EngineWorld} (correct : AtrExact w) (delivery : Delivery w) :
    AtrExact w.closeCurrentBar := by
  have closed : w.closeCurrentBar.closedBars = w.closedBars ++ [w.closedBar] := List.map_append
  have sameRange : SameRange w.prism.currentBar w.closedBar := by
    rw [delivery.closedBar_eq]
    exact ⟨rfl, rfl, rfl⟩
  intro k started inside
  rw [closed] at inside ⊢
  rw [List.length_append, List.length_singleton] at inside
  rcases Nat.lt_or_eq_of_le inside with older | rfl
  · rw [prismBarNo_snoc_old _ _ started (by omega), correct k started (by omega)]
    refine streamAtr_congr started fun j first last => ?_
    rw [prismBarNo_snoc_old _ _ first (by omega)]
    exact ⟨rfl, rfl, rfl⟩
  · have size : (w.closedBars ++ [w.prism.currentBar]).length = w.closedBars.length + 1 := by
      rw [List.length_append, List.length_singleton]
    have stored : w.closedBar.atr14 = atrOf (w.closedBars ++ [w.prism.currentBar]) := by
      rw [delivery.closedBar_eq]
    rw [prismBarNo_snoc_new, stored, atrOf_eq_streamAtr (by simp), size]
    refine streamAtr_congr started fun j first last => ?_
    rcases Nat.lt_or_eq_of_le last with older | rfl
    · rw [prismBarNo_snoc_old _ _ first (by omega), prismBarNo_snoc_old _ _ first (by omega)]
      exact ⟨rfl, rfl, rfl⟩
    · rw [prismBarNo_snoc_new, prismBarNo_snoc_new]
      exact sameRange

theorem AtrExact.onTrade {w : EngineWorld} (correct : AtrExact w) (delivery : Delivery w)
    (trade : TradePacket) : AtrExact (w.onTrade trade) := by
  have effect := w.onTrade_effect trade
  generalize w.onTrade trade = next at *
  cases effect with
  | ignored | opens | updates => exact correct
  | switches => exact correct.close delivery

end EngineWorld

theorem engineAfter_atrExact (length : BarLength) (packets : List TradePacket) :
    (engineAfter length packets).AtrExact := by
  have both : (engineAfter length packets).Delivery ∧ (engineAfter length packets).AtrExact := by
    refine engineMachine.after_invariant (fun w => w.Delivery ∧ w.AtrExact) ?_ ?_ packets
    · refine ⟨EngineWorld.delivery_fresh length, fun k started inside => ?_⟩
      have none : k ≤ 0 := inside
      omega
    · intro w trade good
      exact ⟨good.1.onTrade trade, good.2.onTrade good.1 trade⟩
  exact both.2

/-! ## The breakout level -/

/-- An idle strategy that breaks out on a bar stores the greatest of the ten highs
before it. -/
theorem breakout_level {bars : List Bar} {bar : Bar} (idle : (strategyAfter bars).state = .idle)
    (found : (strategyAfter (bars ++ [bar])).state = .breakout) :
    BreakoutBar (bars ++ [bar]) (bars.length + 1)
      (strategyAfter (bars ++ [bar])).breakoutLevel := by
  have memory := strategyAfter_remembers (bars ++ [bar])
  have waiting : (strategyAfter (bars ++ [bar])).state ≠ .idle := by
    rw [found]
    exact State.noConfusion
  obtain ⟨breakout, _⟩ := memory.waiting waiting
  have counted := (strategyAfter_remembers bars).counted
  have now : (strategyAfter (bars ++ [bar])).breakoutBarIndex = bars.length + 1 := by
    rw [strategyAfter_snoc] at found ⊢
    have outcome := PrismStrategy.onNewBar_outcome (strategyAfter bars) bar
    generalize (strategyAfter bars).onNewBar bar = next at *
    cases outcome with
    | idles | signals => cases found
    | waits _ busy => exact absurd idle busy
    | breaksOut => exact congrArg (· + 1) counted
  rw [now] at breakout
  exact breakout

/-! ## The whole path -/

/-- A run against the run that never evicts, and what its readers compute. -/
structure EvictionUnobservable (length : BarLength) (packets : List TradePacket) : Prop where
  closed : (engineAfter length packets).delivered = (untrimmedAfter length packets).delivered
  strategy : (engineAfter length packets).strategyInstance =
    { (untrimmedAfter length packets).strategyInstance with
      history := (engineAfter length packets).strategyInstance.history }
  signal : (engineAfter length packets).lastSignal = (untrimmedAfter length packets).lastSignal
  atr : ∀ k, 1 ≤ k → k ≤ (engineAfter length packets).closedBars.length →
    (prismBarNo (engineAfter length packets).closedBars k).atr14 =
      streamAtr (engineAfter length packets).closedBars k
  run : (engineAfter length packets).strategyInstance =
    strategyAfter (engineAfter length packets).strategyBars
  level : ∀ bars bar, bars ++ [bar] <+: (engineAfter length packets).strategyBars →
    (strategyAfter bars).state = .idle → (strategyAfter (bars ++ [bar])).state = .breakout →
    IsGreatest (highsBefore (bars ++ [bar]) (bars.length + 1))
      (strategyAfter (bars ++ [bar])).breakoutLevel
  inRange : engineRunChecked length packets = some (engineAfter length packets)

/-- Trimming the deques changes nothing that is ever shown, and no read is out of range. -/
theorem eviction_unobservable (length : BarLength) (packets : List TradePacket) :
    EvictionUnobservable length packets := by
  have same := engineAfter_eq_evict length packets
  have delivery := engineAfter_delivery length packets
  exact
    { closed := by rw [same]; rfl
      strategy := by rw [same]; rfl
      signal := by rw [same]; rfl
      atr := engineAfter_atrExact length packets
      run := delivery.strategy
      level := fun bars bar _ idle found => (breakout_level idle found).greatest
      inRange := engineRunChecked_eq length packets }

end PrismPipeline.Live
