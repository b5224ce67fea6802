import Mathlib.Data.List.GetD
import Mathlib.Tactic.Linarith
import Mathlib.Tactic.NormNum
import PrismPipeline.Live.Strategy

/-!
# Every signal has a breakout behind it

The strategy remembers one level and one bar number for up to thirty bars.  The
invariant of this file says what they mean in terms of the bars seen so far, and
the run of the strategy then justifies each signal by bars long past.
-/

namespace PrismPipeline.Live

open PrismPipeline.Machine PrismPipeline.Series

/-- Bar number `n` of a run; the first one has number 1. -/
def barNo (bars : List Bar) (n : ℕ) : Bar := bars.getD (n - 1) {}

/-- Highs of the ten bars before bar number `b`. -/
def highsBefore (bars : List Bar) (b : ℕ) : Set ℚ :=
  {x | ∃ m, b ≤ m + 10 ∧ m < b ∧ x = (barNo bars m).high}

/-- The signal up after bar number `n`. -/
def signalAt (bars : List Bar) (n : ℕ) : Signal := (strategyAfter (bars.take n)).currentSignal

def hasSignalAt (bars : List Bar) (n : ℕ) : Prop := (strategyAfter (bars.take n)).hasSignal = true

instance (bars : List Bar) (n : ℕ) : Decidable (hasSignalAt bars n) :=
  inferInstanceAs (Decidable (_ = _))

/-- Bar `b` closes above the greatest high of the ten bars before it. -/
structure BreakoutBar (bars : List Bar) (b : ℕ) (level : ℚ) : Prop where
  warm : 11 ≤ b
  greatest : IsGreatest (highsBefore bars b) level
  above : level < (barNo bars b).close

/-- A signal at bar `n` and the breakout at bar `b` it rests on. -/
structure LegitimateSignal (bars : List Bar) (n b : ℕ) (level : ℚ) (signal : Signal) : Prop
    extends BreakoutBar bars b level where
  later : 1 ≤ n - b
  recent : n - b ≤ 30
  level_pos : 0 < level
  quiet : ∀ m, b - 4 ≤ m → m ≤ n - 1 → ¬ hasSignalAt bars m
  touched : (barNo bars n).low ≤ 1.001 * level
  held : level ≤ (barNo bars n).close
  range_pos : (barNo bars n).low < (barNo bars n).high
  upper_half : ((barNo bars n).low + (barNo bars n).high) / 2 ≤ (barNo bars n).close
  entry_eq : signal.entryPrice = (barNo bars n).close
  stop_lt : signal.stopLoss < (barNo bars n).low
  target1_eq : signal.target1 =
    signal.entryPrice + 1.5 * (signal.entryPrice - signal.stopLoss)
  target2_eq : signal.target2 =
    signal.entryPrice + 2.5 * (signal.entryPrice - signal.stopLoss)

/-! ## Facts about a prefix outlive it -/

section Extension

variable (bars later : List Bar)

@[simp] theorem barNo_snoc (bar : Bar) : barNo (bars ++ [bar]) (bars.length + 1) = bar := by
  simp [barNo]

theorem barNo_append {n : ℕ} (first : 1 ≤ n) (inside : n ≤ bars.length) :
    barNo (bars ++ later) n = barNo bars n := by
  unfold barNo
  rw [List.getD_append bars later {} (n - 1) (by omega)]

theorem hasSignalAt_append {n : ℕ} (inside : n ≤ bars.length) :
    hasSignalAt (bars ++ later) n ↔ hasSignalAt bars n := by
  unfold hasSignalAt
  rw [List.take_append_of_le_length inside]

theorem hasSignalAt_take (n : ℕ) : hasSignalAt (bars.take n) n ↔ hasSignalAt bars n := by
  unfold hasSignalAt
  rw [List.take_take, Nat.min_self]

theorem signalAt_take (n : ℕ) : signalAt (bars.take n) n = signalAt bars n := by
  unfold signalAt
  rw [List.take_take, Nat.min_self]

theorem highsBefore_append {b : ℕ} (warm : 11 ≤ b) (inside : b ≤ bars.length + 1) :
    highsBefore (bars ++ later) b = highsBefore bars b := by
  ext x
  constructor
  · rintro ⟨m, recent, before, rfl⟩
    exact ⟨m, recent, before, by rw [barNo_append bars later (by omega) (by omega)]⟩
  · rintro ⟨m, recent, before, rfl⟩
    exact ⟨m, recent, before, by rw [barNo_append bars later (by omega) (by omega)]⟩

theorem BreakoutBar.append {b : ℕ} {level : ℚ} (breakout : BreakoutBar bars b level)
    (inside : b ≤ bars.length) : BreakoutBar (bars ++ later) b level := by
  obtain ⟨warm, greatest, above⟩ := breakout
  refine ⟨warm, ?_, ?_⟩
  · rwa [highsBefore_append bars later warm (by omega)]
  · rwa [barNo_append bars later (by omega) inside]

end Extension

/-- A legitimate signal of the first `n` bars is one of the whole run. -/
theorem LegitimateSignal.of_take {bars : List Bar} {n b : ℕ} {level : ℚ} {signal : Signal}
    (inside : n ≤ bars.length) (legit : LegitimateSignal (bars.take n) n b level signal) :
    LegitimateSignal bars n b level signal := by
  have whole : bars.take n ++ bars.drop n = bars := List.take_append_drop n bars
  have size : (bars.take n).length = n := List.length_take_of_le inside
  have later := legit.later
  have last : barNo bars n = barNo (bars.take n) n := by
    conv_lhs => rw [← whole]
    exact barNo_append _ _ (by omega) (by omega)
  have breakout : BreakoutBar bars b level := by
    have kept := legit.toBreakoutBar.append (bars.take n) (bars.drop n) (by omega)
    rwa [whole] at kept
  have quiet : ∀ m, b - 4 ≤ m → m ≤ n - 1 → ¬ hasSignalAt bars m := by
    intro m after before signalled
    rw [← whole, hasSignalAt_append _ _ (by omega)] at signalled
    exact legit.quiet m after before signalled
  exact
    { toBreakoutBar := breakout
      later := later
      recent := legit.recent
      level_pos := legit.level_pos
      quiet := quiet
      touched := last ▸ legit.touched
      held := last ▸ legit.held
      range_pos := last ▸ legit.range_pos
      upper_half := last ▸ legit.upper_half
      entry_eq := last ▸ legit.entry_eq
      stop_lt := last ▸ legit.stop_lt
      target1_eq := legit.target1_eq
      target2_eq := legit.target2_eq }

/-! ## What the strategy remembers -/

/-- The highs before the last bar, read off a buffer of the last `size` bars. -/
theorem highsBefore_eq_buffered {bars : List Bar} {size : ℕ} (warm : 11 ≤ size)
    (short : size ≤ bars.length) :
    highsBefore bars bars.length =
      {x | x = (bars.getD (bars.length - size + (size - 10 - 1)) {}).high ∨
        ∃ i ∈ List.range' (size - 10) 9,
          x = (bars.getD (bars.length - size + i) {}).high} := by
  ext x
  constructor
  · rintro ⟨m, recent, before, rfl⟩
    by_cases oldest : m + 10 = bars.length
    · refine Or.inl (congrArg (fun i => (bars.getD i {}).high) ?_)
      omega
    · refine Or.inr ⟨size - 1 - (bars.length - m), List.mem_range'_1.mpr (by omega), ?_⟩
      refine congrArg (fun i => (bars.getD i {}).high) ?_
      omega
  · rintro (rfl | ⟨i, position, rfl⟩)
    · refine ⟨bars.length - 10, by omega, by omega, ?_⟩
      refine congrArg (fun i => (bars.getD i {}).high) ?_
      omega
    · have range := List.mem_range'_1.mp position
      exact ⟨bars.length - size + i + 1, by omega, by omega, rfl⟩

/-- The scan over the trimmed history finds the greatest of the ten highs before
the last bar. -/
theorem previousHigh_isGreatest (bars : List Bar) (warm : 11 ≤ bars.length) :
    IsGreatest (highsBefore bars bars.length)
      (PrismStrategy.previousHigh (bars.rtake historyBound)) := by
  have kept : ∀ j, (bars.rtake historyBound).getD j {} =
      bars.getD (bars.length - min historyBound bars.length + j) {} :=
    fun j => getD_rtake historyBound bars j {}
  have bound : 11 ≤ min historyBound bars.length := le_min (by norm_num [historyBound]) warm
  have short : min historyBound bars.length ≤ bars.length := min_le_right _ _
  rw [highsBefore_eq_buffered bound short]
  unfold PrismStrategy.previousHigh
  simp only [length_rtake, kept]
  exact isGreatest_foldl_max
    (fun i => (bars.getD (bars.length - min historyBound bars.length + i) {}).high) _ _

/-- The strategy's memory in terms of the bars it was given. -/
structure Remembers (bars : List Bar) (s : PrismStrategy) : Prop where
  counted : s.barsProcessed = bars.length
  kept : s.history = bars.rtake historyBound
  last_le : s.lastSignalBar ≤ bars.length
  quiet : ∀ m, s.lastSignalBar < m → m ≤ bars.length → ¬ hasSignalAt bars m
  waiting : s.state ≠ .idle →
    BreakoutBar bars s.breakoutBarIndex s.breakoutLevel ∧
      s.breakoutBarIndex ≤ bars.length ∧
      s.lastSignalBar + signalCooldownBars ≤ s.breakoutBarIndex

theorem remembers_nil : Remembers [] {} where
  counted := rfl
  kept := rfl
  last_le := le_rfl
  quiet := fun _ after inside => absurd inside (not_le.mpr after)
  waiting := fun waiting => absurd rfl waiting

theorem hasSignalAt_snoc (bars : List Bar) (bar : Bar) :
    hasSignalAt (bars ++ [bar]) (bars.length + 1) ↔
      ((strategyAfter bars).onNewBar bar).hasSignal = true := by
  unfold hasSignalAt
  rw [List.take_of_length_le (by simp), strategyAfter_snoc]

section Step

variable {bars : List Bar} {bar : Bar}

/-- The history after filing one more bar. -/
theorem Remembers.receive_history {s : PrismStrategy} (memory : Remembers bars s) :
    (s.receive bar).history = (bars ++ [bar]).rtake historyBound := by
  change pushTrim historyBound s.history bar = _
  rw [memory.kept, pushTrim_rtake]

/-- A bar without a signal leaves the strategy as quiet as it was. -/
theorem Remembers.quiet_snoc {s : PrismStrategy} (memory : Remembers bars s)
    (silent : ¬ hasSignalAt (bars ++ [bar]) (bars.length + 1)) (m : ℕ)
    (after : s.lastSignalBar < m) (inside : m ≤ (bars ++ [bar]).length) :
    ¬ hasSignalAt (bars ++ [bar]) m := by
  rw [List.length_append, List.length_singleton] at inside
  rcases Nat.lt_or_eq_of_le inside with old | rfl
  · rw [hasSignalAt_append bars [bar] (by omega)]
    exact memory.quiet m after (by omega)
  · exact silent

/-- A close above the scanned high makes the bar a breakout bar. -/
theorem breakoutBar_snoc
    (warm : lookbackBars + 1 ≤ ((bars ++ [bar]).rtake historyBound).length)
    (above : PrismStrategy.previousHigh ((bars ++ [bar]).rtake historyBound) < bar.close) :
    BreakoutBar (bars ++ [bar]) (bars.length + 1)
      (PrismStrategy.previousHigh ((bars ++ [bar]).rtake historyBound)) := by
  have size : (bars ++ [bar]).length = bars.length + 1 := by simp
  have full : 11 ≤ (bars ++ [bar]).length := by
    rw [length_rtake] at warm
    exact warm.trans (min_le_right _ _)
  have greatest := previousHigh_isGreatest _ full
  rw [size] at full greatest
  refine ⟨full, greatest, ?_⟩
  rw [barNo_snoc]
  exact above

/-- One more bar keeps the memory right. -/
theorem remembers_snoc (memory : Remembers bars (strategyAfter bars)) :
    Remembers (bars ++ [bar]) ((strategyAfter bars).onNewBar bar) := by
  have signalled := hasSignalAt_snoc bars bar
  have outcome := PrismStrategy.onNewBar_outcome (strategyAfter bars) bar
  have kept : ((strategyAfter bars).receive bar).history = _ := memory.receive_history
  have size : (bars ++ [bar]).length = bars.length + 1 := by simp
  have counted : (strategyAfter bars).barsProcessed + 1 = (bars ++ [bar]).length := by
    rw [size, memory.counted]
  have last_le : (strategyAfter bars).lastSignalBar ≤ (bars ++ [bar]).length := by
    have := memory.last_le
    omega
  generalize (strategyAfter bars).onNewBar bar = next at *
  cases outcome with
  | idles level index =>
      have silent := mt signalled.mp Bool.false_ne_true
      exact ⟨counted, kept, last_le, memory.quiet_snoc silent, fun waiting => absurd rfl waiting⟩
  | waits state waiting =>
      have silent := mt signalled.mp Bool.false_ne_true
      obtain ⟨breakout, inside, cool⟩ := memory.waiting waiting
      exact ⟨counted, kept, last_le, memory.quiet_snoc silent,
        fun _ => ⟨breakout.append bars [bar] inside, inside.trans (by omega), cool⟩⟩
  | breaksOut warm cool above =>
      have silent := mt signalled.mp Bool.false_ne_true
      rw [kept] at warm above
      refine ⟨counted, kept, last_le, memory.quiet_snoc silent, fun _ => ?_⟩
      dsimp only
      rw [kept, counted, size]
      exact ⟨breakoutBar_snoc warm above, le_rfl, size ▸ counted ▸ cool⟩
  | signals waiting level_pos recent range accepted =>
      -- The last signal is on this very bar, so no later bar is left to be quiet.
      refine ⟨counted, kept, counted.le, fun m after inside => ?_, fun waiting => ?_⟩
      · change (strategyAfter bars).barsProcessed + 1 < m at after
        omega
      · exact absurd rfl waiting

end Step

theorem strategyAfter_remembers (bars : List Bar) : Remembers bars (strategyAfter bars) :=
  strategyMachine.after_induction Remembers remembers_nil (fun _ _ memory => remembers_snoc memory)
    bars

/-! ## Signals -/

theorem stopLevel_lt_low {bar : Bar} (range : bar.low < bar.high) :
    PrismStrategy.stopLevel bar < bar.low := by
  refine lt_of_le_of_lt (min_le_left _ _) ?_
  linarith

theorem retestAccepted_upper_half {level : ℚ} {bar : Bar}
    (accepted : PrismStrategy.retestAccepted level bar) (range : bar.low < bar.high) :
    (bar.low + bar.high) / 2 ≤ bar.close := by
  have position := (le_div_iff₀ (sub_pos.mpr range)).mp accepted.2.1
  norm_num [minClosePosition] at position
  linarith

/-- No signal falls between shortly before the remembered breakout and the last bar. -/
theorem Remembers.quiet_since_breakout {bars : List Bar} {s : PrismStrategy} {bar : Bar}
    (memory : Remembers bars s) (waiting : s.state ≠ .idle) :
    ∀ m, s.breakoutBarIndex - 4 ≤ m → m ≤ bars.length → ¬ hasSignalAt (bars ++ [bar]) m := by
  intro m after before
  obtain ⟨breakout, _, cool⟩ := memory.waiting waiting
  have warm := breakout.warm
  rw [hasSignalAt_append bars [bar] before]
  change _ + 5 ≤ _ at cool
  exact memory.quiet m (by omega) before

/-- A signal on the bar just read rests on the remembered breakout. -/
theorem signal_snoc_legitimate {bars : List Bar} {bar : Bar}
    (signalled : hasSignalAt (bars ++ [bar]) (bars.length + 1)) :
    ∃ b level, LegitimateSignal (bars ++ [bar]) (bars.length + 1) b level
      (signalAt (bars ++ [bar]) (bars.length + 1)) := by
  have memory := strategyAfter_remembers bars
  rw [hasSignalAt_snoc] at signalled
  obtain ⟨waiting, level_pos, recent, range, accepted, signal, _⟩ :=
    PrismStrategy.onNewBar_signal signalled
  obtain ⟨breakout, inside, _⟩ := memory.waiting waiting
  have shown : signalAt (bars ++ [bar]) (bars.length + 1) = PrismStrategy.retestSignal bar := by
    unfold signalAt
    rw [List.take_of_length_le (by simp), strategyAfter_snoc, signal]
  have last : barNo (bars ++ [bar]) (bars.length + 1) = bar := barNo_snoc bars bar
  have touched := accepted.1
  norm_num [retestTolerancePct] at touched
  rw [memory.counted] at recent
  rw [shown]
  refine ⟨_, _,
    { toBreakoutBar := breakout.append bars [bar] inside
      later := by omega
      recent := by change _ ≤ _ + 30 at recent; omega
      level_pos := level_pos
      quiet := memory.quiet_since_breakout waiting
      touched := ?_
      held := ?_
      range_pos := ?_
      upper_half := ?_
      entry_eq := ?_
      stop_lt := ?_
      target1_eq := congrArg _ (mul_comm _ _)
      target2_eq := congrArg _ (mul_comm _ _) }⟩
  all_goals rw [last]
  · linarith
  · exact accepted.2.2
  · exact range
  · exact retestAccepted_upper_half accepted range
  · rfl
  · exact stopLevel_lt_low range

/-- The same at any bar of a run. -/
theorem signal_legitimate {bars : List Bar} {n : ℕ} (inside : n ≤ bars.length)
    (signalled : hasSignalAt bars n) :
    ∃ b level, LegitimateSignal bars n b level (signalAt bars n) := by
  cases n with
  | zero => exact absurd signalled Bool.false_ne_true
  | succ k =>
      have last : bars.take (k + 1) = bars.take k ++ [bars[k]] :=
        (List.take_append_getElem inside).symm
      have size : (bars.take k).length = k := List.length_take_of_le (by omega)
      have signalledLast : hasSignalAt (bars.take k ++ [bars[k]]) ((bars.take k).length + 1) := by
        rwa [size, ← last, hasSignalAt_take]
      obtain ⟨b, level, legit⟩ := signal_snoc_legitimate signalledLast
      rw [size, ← last, signalAt_take] at legit
      exact ⟨b, level, legit.of_take inside⟩

/-- Every signal rests on a breakout at most thirty bars earlier whose level the
signal bar touched and held, with no signal in between nor shortly before; so
two signals are at least six bars apart. -/
theorem signals_have_breakout (bars : List Bar) {n : ℕ} (inside : n ≤ bars.length)
    (signalled : hasSignalAt bars n) :
    (∃ b level, LegitimateSignal bars n b level (signalAt bars n)) ∧
      ∀ m < n, hasSignalAt bars m → m + 6 ≤ n := by
  obtain ⟨b, level, legit⟩ := signal_legitimate inside signalled
  refine ⟨⟨b, level, legit⟩, fun m before earlier => ?_⟩
  have warm := legit.warm
  have later := legit.later
  by_contra close
  exact legit.quiet m (by omega) (by omega) earlier

/-- Ten quiet bars, a close above them and a retest that holds. -/
def retestBars : List Bar :=
  List.replicate 10 { openPrice := 99, high := 100, low := 98, close := 99, volume := 1 } ++
    [{ openPrice := 99, high := 106, low := 99, close := 105, volume := 1 },
     { openPrice := 101, high := 104, low := 100, close := 103, volume := 1 }]

theorem retestBars_signal :
    (∃ b level, LegitimateSignal retestBars 12 b level (signalAt retestBars 12)) ∧
      ∀ m < 12, hasSignalAt retestBars m → m + 6 ≤ 12 :=
  signals_have_breakout retestBars (by decide) (by decide +kernel)

end PrismPipeline.Live
