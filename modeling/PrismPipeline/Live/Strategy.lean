import Mathlib.Algebra.Order.Field.Rat
import Mathlib.Data.List.ReduceOption
import PrismPipeline.Machine.Mealy
import PrismPipeline.Series.Window

/-!
# The breakout and retest strategy

`PrismStrategy` of the live path as a machine fed with closed bars.  Prices are
exact rationals.  The counters of type `uint64_t` are natural numbers: they count
bars, and their differences are only taken where the first is the larger one.
What the source computes for its console lines alone is left out.
-/

namespace PrismPipeline.Live

open PrismPipeline.Machine PrismPipeline.Series

def lookbackBars : ℕ := 10
def maxRetestBars : ℕ := 30
def signalCooldownBars : ℕ := 5
def minScore : ℚ := 5.5
def retestTolerancePct : ℚ := 0.001
def minClosePosition : ℚ := 0.50

/-- Bound on the number of bars a component keeps. -/
def historyBound : ℕ := 200

/-- A closed bar as the strategy receives it. -/
structure Bar where
  ts : UInt64 := 0
  openPrice : ℚ := 0
  high : ℚ := 0
  low : ℚ := 0
  close : ℚ := 0
  volume : ℚ := 0
  atr14 : ℚ := 0
  deriving Inhabited, DecidableEq

inductive State where
  | idle
  | breakout
  | retest
  deriving Inhabited, DecidableEq, Repr

structure Signal where
  valid : Bool := false
  entryPrice : ℚ := 0
  stopLoss : ℚ := 0
  target1 : ℚ := 0
  target2 : ℚ := 0
  setupScore : ℚ := 0
  reason : String := ""
  deriving Inhabited, DecidableEq

structure PrismStrategy where
  history : List Bar := []
  state : State := .idle
  signal : Signal := {}
  barsProcessed : ℕ := 0
  breakoutBarIndex : ℕ := 0
  lastSignalBar : ℕ := 0
  breakoutLevel : ℚ := 0
  deriving Inhabited, DecidableEq

namespace PrismStrategy

/-- Still inside the cooldown after the last signal. -/
def coolingDown (s : PrismStrategy) : Prop :=
  s.barsProcessed - s.lastSignalBar < signalCooldownBars

instance (s : PrismStrategy) : Decidable s.coolingDown :=
  inferInstanceAs (Decidable (_ < _))

/-- The running maximum of `detect_breakout`: the highs of the `lookbackBars`
entries just before the last one. -/
def previousHigh (history : List Bar) : ℚ :=
  let size := history.length
  (List.range' (size - lookbackBars) (lookbackBars - 1)).foldl
    (fun high i => max high (history.getD i {}).high)
    (history.getD (size - lookbackBars - 1) {}).high

def detectBreakout (s : PrismStrategy) (bar : Bar) : PrismStrategy :=
  if s.coolingDown then s
  else if previousHigh s.history < bar.close then
    { s with
      breakoutLevel := previousHigh s.history
      breakoutBarIndex := s.barsProcessed
      state := .breakout }
  else s

def calculateScore (bar : Bar) : ℚ :=
  let range := bar.high - bar.low
  let position := (bar.close - bar.low) / range
  let score : ℚ := (if 0 < range ∧ 0.50 ≤ position then 3 else 0) +
    (if 0 < range ∧ 0.75 ≤ position then 1 else 0) +
    (if bar.openPrice ≤ bar.close then 2 else 0) + 1.5 + 2
  min score 10

/-- The retest test proper: the level was touched and held, and the bar closes
high in its range. -/
def retestAccepted (level : ℚ) (bar : Bar) : Prop :=
  bar.low ≤ level + level * retestTolerancePct ∧
    minClosePosition ≤ (bar.close - bar.low) / (bar.high - bar.low) ∧ level ≤ bar.close

instance (level : ℚ) (bar : Bar) : Decidable (retestAccepted level bar) :=
  inferInstanceAs (Decidable (_ ∧ _))

/-- The lower one of the structure stop and the ATR stop. -/
def stopLevel (bar : Bar) : ℚ :=
  let range := bar.high - bar.low
  let atrComponent := if 0 < bar.atr14 then bar.atr14 * 0.75 else range * 1.25
  min (bar.low - range * 0.25) (bar.close - atrComponent)

/-- The signal of a retest taken on `bar`. -/
def retestSignal (bar : Bar) : Signal :=
  let risk := bar.close - stopLevel bar
  { valid := true
    entryPrice := bar.close
    stopLoss := stopLevel bar
    target1 := bar.close + risk * 1.5
    target2 := bar.close + risk * 2.5
    setupScore := calculateScore bar
    reason := "PRISM_ATR_BREAKOUT_RETEST_TEST_MODE" }

def detectRetest (s : PrismStrategy) (bar : Bar) : PrismStrategy :=
  if s.breakoutLevel ≤ 0 then { s with state := .idle }
  else if maxRetestBars < s.barsProcessed - s.breakoutBarIndex then
    { s with state := .idle, breakoutLevel := 0, breakoutBarIndex := 0 }
  else if s.coolingDown then
    { s with state := .idle, breakoutLevel := 0, breakoutBarIndex := 0 }
  else if bar.high - bar.low ≤ 0 then s
  else if ¬ retestAccepted s.breakoutLevel bar then { s with state := .retest }
  else if calculateScore bar < minScore then { s with state := .retest }
  else if bar.close - stopLevel bar ≤ 0 then { s with state := .retest }
  else
    { s with
      signal := retestSignal bar
      lastSignalBar := s.barsProcessed
      state := .idle
      breakoutLevel := 0
      breakoutBarIndex := 0 }

/-- The bookkeeping at the start of `on_new_bar`. -/
def receive (s : PrismStrategy) (bar : Bar) : PrismStrategy :=
  { s with
    barsProcessed := s.barsProcessed + 1
    history := pushTrim historyBound s.history bar
    signal := {} }

def onNewBar (s : PrismStrategy) (bar : Bar) : PrismStrategy :=
  let s := s.receive bar
  if s.history.length < lookbackBars + 1 then s
  else
    match s.state with
    | .idle => s.detectBreakout bar
    | .breakout | .retest => s.detectRetest bar

def hasSignal (s : PrismStrategy) : Bool := s.signal.valid

def currentSignal (s : PrismStrategy) : Signal := s.signal

/-! ## What one bar can do -/

/-- Outcomes of a bar, with what the strategy knows when each of them happens. -/
inductive BarOutcome (s : PrismStrategy) (bar : Bar) : PrismStrategy → Prop where
  /-- It waits for a breakout. -/
  | idles (level : ℚ) (index : ℕ) :
      BarOutcome s bar
        { s.receive bar with
          state := .idle, breakoutLevel := level, breakoutBarIndex := index }
  /-- It goes on waiting for a retest of the same level. -/
  | waits (state : State) (waiting : s.state ≠ .idle) :
      BarOutcome s bar { s.receive bar with state := state }
  | breaksOut
      (warm : lookbackBars + 1 ≤ (s.receive bar).history.length)
      (cool : s.lastSignalBar + signalCooldownBars ≤ s.barsProcessed + 1)
      (above : previousHigh (s.receive bar).history < bar.close) :
      BarOutcome s bar
        { s.receive bar with
          breakoutLevel := previousHigh (s.receive bar).history
          breakoutBarIndex := s.barsProcessed + 1
          state := .breakout }
  | signals (waiting : s.state ≠ .idle) (level_pos : 0 < s.breakoutLevel)
      (recent : s.barsProcessed + 1 ≤ s.breakoutBarIndex + maxRetestBars)
      (range : bar.low < bar.high) (accepted : retestAccepted s.breakoutLevel bar) :
      BarOutcome s bar
        { s.receive bar with
          signal := retestSignal bar
          lastSignalBar := s.barsProcessed + 1
          state := .idle
          breakoutLevel := 0
          breakoutBarIndex := 0 }

/-- An idle strategy that only files the bar idles. -/
theorem BarOutcome.rests {s : PrismStrategy} (bar : Bar) (idle : s.state = .idle) :
    BarOutcome s bar (s.receive bar) := by
  have idles : BarOutcome s bar { s.receive bar with state := .idle } :=
    .idles s.breakoutLevel s.breakoutBarIndex
  rwa [← idle] at idles

theorem detectBreakout_outcome (s : PrismStrategy) (bar : Bar) (idle : s.state = .idle)
    (warm : lookbackBars + 1 ≤ (s.receive bar).history.length) :
    BarOutcome s bar ((s.receive bar).detectBreakout bar) := by
  unfold detectBreakout
  split
  · exact .rests bar idle
  next cool =>
  split
  · next above =>
      refine .breaksOut warm ?_ above
      change ¬ s.barsProcessed + 1 - s.lastSignalBar < 5 at cool
      change s.lastSignalBar + 5 ≤ s.barsProcessed + 1
      omega
  · exact .rests bar idle

theorem detectRetest_outcome (s : PrismStrategy) (bar : Bar) (waiting : s.state ≠ .idle) :
    BarOutcome s bar ((s.receive bar).detectRetest bar) := by
  unfold detectRetest
  split
  · exact .idles s.breakoutLevel s.breakoutBarIndex
  next level_pos =>
  split
  · exact .idles 0 0
  next recent =>
  split
  · exact .idles 0 0
  split
  · exact .waits s.state waiting
  next range =>
  split
  · exact .waits .retest waiting
  next accepted =>
  split
  · exact .waits .retest waiting
  split
  · exact .waits .retest waiting
  refine .signals waiting (not_le.mp level_pos) ?_ (sub_pos.mp (not_le.mp range))
    (not_not.mp accepted)
  change ¬ maxRetestBars < s.barsProcessed + 1 - s.breakoutBarIndex at recent
  omega

/-- Every bar has one of the four outcomes. -/
theorem onNewBar_outcome (s : PrismStrategy) (bar : Bar) :
    BarOutcome s bar (s.onNewBar bar) := by
  have same : (s.receive bar).state = s.state := rfl
  unfold onNewBar
  dsimp only
  split
  · cases phase : s.state with
    | idle => exact .rests bar phase
    | breakout | retest => exact .waits s.state (by simp [phase])
  next warm =>
  rw [same]
  cases phase : s.state with
  | idle => exact detectBreakout_outcome s bar phase (not_lt.mp warm)
  | breakout | retest => exact detectRetest_outcome s bar (by simp [phase])

/-- What a strategy that signals was waiting for, and what the bar did. -/
theorem onNewBar_signal {s : PrismStrategy} {bar : Bar}
    (signalled : (s.onNewBar bar).hasSignal = true) :
    s.state ≠ .idle ∧ 0 < s.breakoutLevel ∧
      s.barsProcessed + 1 ≤ s.breakoutBarIndex + maxRetestBars ∧ bar.low < bar.high ∧
      retestAccepted s.breakoutLevel bar ∧
      (s.onNewBar bar).currentSignal = retestSignal bar ∧ (s.onNewBar bar).state = .idle := by
  have outcome := onNewBar_outcome s bar
  generalize s.onNewBar bar = next at *
  cases outcome with
  | idles | waits | breaksOut => exact absurd signalled Bool.false_ne_true
  | signals waiting level_pos recent range accepted =>
      exact ⟨waiting, level_pos, recent, range, accepted, rfl, rfl⟩

/-- An idle strategy never signals on its next bar. -/
theorem onNewBar_idle_silent {s : PrismStrategy} (idle : s.state = .idle) (bar : Bar) :
    (s.onNewBar bar).hasSignal = false := by
  by_contra signalled
  obtain ⟨waiting, _⟩ := onNewBar_signal (Bool.not_eq_false _ ▸ signalled)
  exact waiting idle

end PrismStrategy

/-- The strategy as a machine that shows the signal a bar produces. -/
def strategyMachine : Mealy PrismStrategy Bar (Option Signal) where
  step s bar := s.onNewBar bar
  output s bar :=
    if (s.onNewBar bar).hasSignal then some (s.onNewBar bar).currentSignal else none

/-- A fresh strategy after a sequence of bars. -/
def strategyAfter (bars : List Bar) : PrismStrategy := strategyMachine.after {} bars

theorem strategyAfter_snoc (bars : List Bar) (bar : Bar) :
    strategyAfter (bars ++ [bar]) = (strategyAfter bars).onNewBar bar :=
  strategyMachine.after_snoc {} bars bar

/-- The strategy never signals on two consecutive bars. -/
theorem strategyAfter_silent_after_signal {bars : List Bar}
    (signalled : (strategyAfter bars).hasSignal = true) (bar : Bar) :
    ((strategyAfter bars).onNewBar bar).hasSignal = false := by
  refine PrismStrategy.onNewBar_idle_silent ?_ bar
  cases bars using List.reverseRecOn with
  | nil => rfl
  | append_singleton earlier last =>
      rw [strategyAfter_snoc] at signalled ⊢
      obtain ⟨_, _, _, _, _, _, idle⟩ := PrismStrategy.onNewBar_signal signalled
      exact idle

/-- The signals of a run over a sequence of bars, in order. -/
def strategySignals (bars : List Bar) : List Signal :=
  (strategyMachine.outputs {} bars).reduceOption

theorem strategySignals_snoc (bars : List Bar) (bar : Bar) :
    strategySignals (bars ++ [bar]) =
      strategySignals bars ++ (strategyMachine.output (strategyAfter bars) bar).toList := by
  unfold strategySignals
  rw [Mealy.outputs_snoc, List.reduceOption_append, List.reduceOption_singleton]
  rfl

end PrismPipeline.Live
