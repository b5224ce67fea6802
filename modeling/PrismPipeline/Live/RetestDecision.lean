import Mathlib.Tactic.Ring
import PrismPipeline.Live.StrategySignals

/-!
# What decides a retest

Three of the tests of `detect_retest` never fail where it reaches them: the
cooldown is over before a breakout is remembered, and a bar that holds the level
in the upper half of its range scores enough and leaves a risk.  What is left is
the retest test proper.
-/

namespace PrismPipeline.Live

open PrismPipeline.Series

namespace PrismStrategy

/-- The retest test in terms of the level and the bar alone. -/
def takesRetest (level : ℚ) (bar : Bar) : Prop :=
  bar.low ≤ 1.001 * level ∧ level ≤ bar.close ∧
    0.5 ≤ (bar.close - bar.low) / (bar.high - bar.low)

instance (level : ℚ) (bar : Bar) : Decidable (takesRetest level bar) :=
  inferInstanceAs (Decidable (_ ∧ _))

/-- `detect_retest` without the cooldown, the score and the risk test. -/
def detectRetestUngated (s : PrismStrategy) (bar : Bar) : PrismStrategy :=
  if s.breakoutLevel ≤ 0 then { s with state := .idle }
  else if maxRetestBars < s.barsProcessed - s.breakoutBarIndex then
    { s with state := .idle, breakoutLevel := 0, breakoutBarIndex := 0 }
  else if bar.high - bar.low ≤ 0 then s
  else if ¬ retestAccepted s.breakoutLevel bar then { s with state := .retest }
  else
    { s with
      signal := retestSignal bar
      lastSignalBar := s.barsProcessed
      state := .idle
      breakoutLevel := 0
      breakoutBarIndex := 0 }

theorem retestAccepted_iff_takesRetest (level : ℚ) (bar : Bar) :
    retestAccepted level bar ↔ takesRetest level bar := by
  have tolerance : level + level * retestTolerancePct = 1.001 * level := by
    norm_num [retestTolerancePct]
    ring
  have half : minClosePosition = 0.5 := by norm_num [minClosePosition]
  unfold retestAccepted takesRetest
  rw [tolerance, half, and_comm (b := level ≤ bar.close)]

/-! ## The score and the risk -/

variable {level : ℚ} {bar : Bar}

/-- The close position alone brings the score to `3 + 1.5 + 2`. -/
theorem minScore_le_calculateScore (range : bar.low < bar.high)
    (accepted : retestAccepted level bar) : minScore ≤ calculateScore bar := by
  have upper : 0 < bar.high - bar.low ∧ 0.50 ≤ (bar.close - bar.low) / (bar.high - bar.low) :=
    ⟨sub_pos.mpr range, accepted.2.1⟩
  have third : (0 : ℚ) ≤ if 0 < bar.high - bar.low ∧
      0.75 ≤ (bar.close - bar.low) / (bar.high - bar.low) then 1 else 0 := by
    split <;> norm_num
  have green : (0 : ℚ) ≤ if bar.openPrice ≤ bar.close then 2 else 0 := by
    split <;> norm_num
  unfold calculateScore minScore
  dsimp only
  rw [if_pos upper]
  apply le_min
  · linarith
  · norm_num

/-- The stop lies below the bar's low, and the close does not. -/
theorem risk_pos_of_accepted (range : bar.low < bar.high)
    (accepted : retestAccepted level bar) : 0 < bar.close - stopLevel bar := by
  have stop := stopLevel_lt_low range
  have upper := retestAccepted_upper_half accepted range
  linarith

/-- The retest without its three idle tests, on a bar with a range within the
retest window. -/
theorem detectRetestUngated_fresh {s : PrismStrategy} (level_pos : 0 < s.breakoutLevel)
    (recent : s.barsProcessed - s.breakoutBarIndex ≤ maxRetestBars)
    (range : bar.low < bar.high) :
    s.detectRetestUngated bar =
      if takesRetest s.breakoutLevel bar then
        { s with
          signal := retestSignal bar
          lastSignalBar := s.barsProcessed
          state := .idle
          breakoutLevel := 0
          breakoutBarIndex := 0 }
      else { s with state := .retest } := by
  unfold detectRetestUngated
  rw [if_neg (not_le.mpr level_pos), if_neg (not_lt.mpr recent),
    if_neg (not_le.mpr (sub_pos.mpr range))]
  simp only [retestAccepted_iff_takesRetest]
  by_cases taken : takesRetest s.breakoutLevel bar
  · rw [if_neg (not_not.mpr taken), if_pos taken]
  · rw [if_pos taken, if_neg taken]

end PrismStrategy

/-! ## The cooldown -/

section Waiting

variable {bars : List Bar} {s : PrismStrategy}

/-- A breakout is only remembered once the cooldown is over, and no signal
restarts it while the strategy waits. -/
theorem Remembers.not_coolingDown (memory : Remembers bars s) (waiting : s.state ≠ .idle)
    (bar : Bar) : ¬ (s.receive bar).coolingDown := by
  obtain ⟨_, inside, cool⟩ := memory.waiting waiting
  have counted := memory.counted
  change ¬ s.barsProcessed + 1 - s.lastSignalBar < 5
  change s.lastSignalBar + 5 ≤ s.breakoutBarIndex at cool
  omega

/-- The history is long enough from the remembered breakout on. -/
theorem Remembers.warm (memory : Remembers bars s) (waiting : s.state ≠ .idle) (bar : Bar) :
    ¬ (s.receive bar).history.length < lookbackBars + 1 := by
  obtain ⟨breakout, inside, _⟩ := memory.waiting waiting
  have first := breakout.warm
  rw [memory.receive_history, length_rtake, not_lt]
  apply le_min
  · norm_num [lookbackBars, historyBound]
  · simp only [List.length_append, List.length_singleton, lookbackBars]
    omega

/-- The three tests never change what `detect_retest` does. -/
theorem Remembers.detectRetest_eq (memory : Remembers bars s) (waiting : s.state ≠ .idle)
    (bar : Bar) :
    (s.receive bar).detectRetest bar = (s.receive bar).detectRetestUngated bar := by
  have cool := memory.not_coolingDown waiting bar
  unfold PrismStrategy.detectRetest PrismStrategy.detectRetestUngated
  rw [if_neg cool]
  by_cases flat : bar.high - bar.low ≤ 0
  · rw [if_pos flat, if_pos flat]
  have range : bar.low < bar.high := sub_pos.mp (not_le.mp flat)
  by_cases accepted : PrismStrategy.retestAccepted (s.receive bar).breakoutLevel bar
  · have score := PrismStrategy.minScore_le_calculateScore range accepted
    have risk := PrismStrategy.risk_pos_of_accepted range accepted
    rw [if_neg (not_lt.mpr score), if_neg (not_le.mpr risk)]
  · simp only [accepted, not_false_eq_true, if_true]

/-- A waiting strategy goes straight to the retest. -/
theorem Remembers.onNewBar_eq (memory : Remembers bars s) (waiting : s.state ≠ .idle)
    (bar : Bar) : s.onNewBar bar = (s.receive bar).detectRetestUngated bar := by
  have same : (s.receive bar).state = s.state := rfl
  rw [← memory.detectRetest_eq waiting bar]
  unfold PrismStrategy.onNewBar
  dsimp only
  rw [if_neg (memory.warm waiting bar), same]
  cases phase : s.state with
  | idle => exact absurd phase waiting
  | breakout | retest => rfl

/-- A strategy that remembers its bars signals exactly on the bars it takes as a
retest. -/
theorem Remembers.signals_iff (memory : Remembers bars s) (bar : Bar) :
    (s.onNewBar bar).hasSignal = true ↔
      s.state ≠ .idle ∧ 0 < s.breakoutLevel ∧
        s.barsProcessed + 1 - s.breakoutBarIndex ≤ maxRetestBars ∧ bar.low < bar.high ∧
        PrismStrategy.retestAccepted s.breakoutLevel bar := by
  constructor
  · intro signalled
    obtain ⟨waiting, level_pos, recent, range, accepted, _⟩ :=
      PrismStrategy.onNewBar_signal signalled
    exact ⟨waiting, level_pos, Nat.sub_le_iff_le_add'.mpr recent, range, accepted⟩
  · rintro ⟨waiting, level_pos, recent, range, accepted⟩
    have taken : PrismStrategy.takesRetest (s.receive bar).breakoutLevel bar :=
      (PrismStrategy.retestAccepted_iff_takesRetest s.breakoutLevel bar).mp accepted
    have fresh : (s.receive bar).detectRetestUngated bar = _ :=
      PrismStrategy.detectRetestUngated_fresh level_pos recent range
    rw [if_pos taken] at fresh
    rw [memory.onNewBar_eq waiting bar, fresh]
    rfl

end Waiting

open PrismStrategy in
/-- A reachable strategy that waits for the retest of a positive level signals on
the next bar exactly when the bar takes the retest; the cooldown, the score and the
risk decide nothing. -/
theorem retest_decision (bars : List Bar) (bar : Bar)
    (waiting : (strategyAfter bars).state ≠ .idle)
    (level_pos : 0 < (strategyAfter bars).breakoutLevel)
    (recent : (strategyAfter bars).barsProcessed + 1 -
      (strategyAfter bars).breakoutBarIndex ≤ 30)
    (range : bar.low < bar.high) :
    (((strategyAfter bars).onNewBar bar).hasSignal = true ↔
        takesRetest (strategyAfter bars).breakoutLevel bar) ∧
      (strategyAfter bars).onNewBar bar =
        ((strategyAfter bars).receive bar).detectRetestUngated bar ∧
      ((strategyAfter bars).onNewBar bar).state =
        if ((strategyAfter bars).onNewBar bar).hasSignal then .idle else .retest := by
  have memory := strategyAfter_remembers bars
  have ungated := memory.onNewBar_eq waiting bar
  have decided := ungated.trans
    (detectRetestUngated_fresh (s := (strategyAfter bars).receive bar) level_pos recent range)
  refine ⟨?_, ungated, ?_⟩
  · rw [memory.signals_iff bar, ← retestAccepted_iff_takesRetest]
    constructor
    · rintro ⟨_, _, _, _, accepted⟩
      exact accepted
    · intro accepted
      exact ⟨waiting, level_pos, recent, range, accepted⟩
  · rw [decided]
    by_cases taken : takesRetest ((strategyAfter bars).receive bar).breakoutLevel bar
    · rw [if_pos taken]
      rfl
    · rw [if_neg taken]
      rfl

/-- The last bar of `retestBars` is within the window of a positive level. -/
theorem retestBars_decision :
    ((strategyAfter (retestBars.take 11)).onNewBar retestBars[11]).hasSignal = true ↔
      PrismStrategy.takesRetest (strategyAfter (retestBars.take 11)).breakoutLevel
        retestBars[11] :=
  (retest_decision (retestBars.take 11) retestBars[11] (by decide +kernel) (by decide +kernel)
    (by decide +kernel) (by decide +kernel)).1

end PrismPipeline.Live
