import Mathlib.Data.List.GetD
import Mathlib.Tactic.NormNum
import PrismPipeline.Backtest.Causality
import PrismPipeline.Backtest.EntryDiscipline
import PrismPipeline.Backtest.MaxDrawdown
import PrismPipeline.Series.Window

/-!
# When the window of a re-entry wraps

The cast in the window test needs 2^31 bars between a breakout and a retest before it
goes wrong, so no shorter list of bars meets it.  A list that long does: after a trade
was stopped out nothing happens for 2^31 bars, and then a retest is taken as a re-entry.
-/

namespace PrismPipeline.Backtest

open PrismPipeline.Machine PrismPipeline.Series

/-- The first bar on which the cast can go wrong. -/
theorem WrappedReentry.far {bars : List Bar} {i : ℕ} (late : WrappedReentry bars i) :
    2 ^ 31 + 20 ≤ i := by
  have inv := gateState_gate late.warm late.flat
  have found : 20 ≤ (gateState bars i).breakoutI := inv.pending (Or.inr (Or.inr late.rearmed))
  have closed := late.closed
  have wrapped := late.wrapped
  by_contra near
  rw [castInt_of_lt (by omega), entryTtl] at wrapped
  omega

/-- The discipline is only broken by lists of more than 2^31 + 20 bars. -/
theorem noWrappedReentry_of_length {bars : List Bar} (short : bars.length ≤ 2 ^ 31 + 20) :
    NoWrappedReentry bars := by
  intro i inside late
  have far := late.far
  omega

/-! ## Waiting for a retest -/

/-- A setup whose first trade was closed and may be followed by one more. -/
structure Waiting (level : ℚ) (found : ℕ) (s : LoopState) : Prop where
  flat : s.tradeOpen = false
  idle : s.priorBreakout = false
  rearmed : s.canReentry = true
  unused : s.reentryUsed = false
  level_eq : s.breakout = level
  found_eq : s.breakoutI = found

section Wait

variable {bars : List Bar} {i : ℕ} {level : ℚ} {found : ℕ}

/-- Without a new breakout the gate leaves the setup waiting. -/
theorem Waiting.gate (waiting : Waiting level found (stateAfter bars i))
    (noBreakout : ¬ newBreakout bars i) :
    gateState bars i = logScore (barScore bars i) (stateAfter bars i) := by
  have exited : exitStep bars i (logScore (barScore bars i) (stateAfter bars i)) =
      logScore (barScore bars i) (stateAfter bars i) :=
    if_neg fun isOpen => absurd (waiting.flat.symm.trans isOpen) Bool.false_ne_true
  have detected : detectBreakout bars i (logScore (barScore bars i) (stateAfter bars i)) =
      logScore (barScore bars i) (stateAfter bars i) := if_neg noBreakout
  unfold gateState
  rw [exited, detected]
  exact if_neg fun late => absurd (waiting.idle.symm.trans late.1) Bool.false_ne_true

theorem Waiting.scored {s : LoopState} (waiting : Waiting level found s) (sc : ScoreRow) :
    Waiting level found (logScore sc s) :=
  ⟨waiting.flat, waiting.idle, waiting.rearmed, waiting.unused, waiting.level_eq,
    waiting.found_eq⟩

/-- A bar on which there is neither a breakout nor a retest in time leaves it waiting. -/
theorem Waiting.pass (waiting : Waiting level found (stateAfter bars i))
    (noBreakout : ¬ newBreakout bars i)
    (noRetest : castInt (i - found) ≤ entryTtl + 10 → ¬ isRetest (barAt bars i) level) :
    Waiting level found (stateAfter bars (i + 1)) := by
  have gated := waiting.gate noBreakout
  have logged := waiting.scored (barScore bars i)
  rw [stateAfter_add_one]
  rcases entryStep_cases bars i (barScore bars i)
    (exitStep bars i (logScore (barScore bars i) (stateAfter bars i))) with
    ⟨_, same⟩ | ⟨_, rfl, _, _, same | ⟨⟨window, retest⟩, _⟩⟩
  · rw [same]
    have exited : exitStep bars i (logScore (barScore bars i) (stateAfter bars i)) =
        logScore (barScore bars i) (stateAfter bars i) :=
      if_neg fun isOpen => absurd (logged.flat.symm.trans isOpen) Bool.false_ne_true
    rwa [exited]
  · rw [same]
    change Waiting level found (gateState bars i)
    rwa [gated]
  · change eligibleWindow i (gateState bars i) at window
    change isRetest (barAt bars i) (gateState bars i).breakout at retest
    rw [gated] at window retest
    rw [logged.level_eq] at retest
    rcases window with armed | ⟨_, _, inTime⟩
    · exact absurd (logged.idle.symm.trans armed) Bool.false_ne_true
    · rw [logged.found_eq] at inTime
      exact absurd retest (noRetest inTime)

/-- A stretch of such bars. -/
theorem Waiting.stretch {first last : ℕ} (order : first ≤ last)
    (waiting : Waiting level found (stateAfter bars first))
    (quiet : ∀ i, first ≤ i → i < last → ¬ newBreakout bars i ∧
      (castInt (i - found) ≤ entryTtl + 10 → ¬ isRetest (barAt bars i) level)) :
    Waiting level found (stateAfter bars last) := by
  induction order with
  | refl => exact waiting
  | step order ih =>
      obtain ⟨noBreakout, noRetest⟩ := quiet _ order (Nat.lt_succ_self _)
      refine Waiting.pass (ih fun i after before => quiet i after ?_) noBreakout noRetest
      exact before.trans (Nat.lt_succ_self _)

/-- The highs before a bar bound its running maximum from below. -/
theorem high_le_prevHigh {j : ℕ} (warm : lookback ≤ i) (inside : i - lookback ≤ j)
    (before : j < i) : (barAt bars j).high ≤ prevHigh bars i := by
  unfold prevHigh
  rw [if_pos warm]
  have greatest := isGreatest_foldl_max (fun j => (barAt bars j).high) 0
    (List.range' (i - lookback) lookback)
  exact greatest.2 (Or.inr ⟨j, List.mem_range'_1.mpr (by omega), rfl⟩)

/-- A close below an earlier high of the window is no breakout. -/
theorem not_newBreakout {j : ℕ} (warm : lookback ≤ i) (inside : i - lookback ≤ j)
    (before : j < i) (under : (barAt bars i).close ≤ (barAt bars j).high) :
    ¬ newBreakout bars i := fun broken =>
  absurd broken.2 (not_lt.mpr (under.trans (high_le_prevHigh warm inside before)))

/-- Behind the window the mean is over twenty volumes. -/
theorem avgVolume_eq (warm : 20 ≤ i) :
    avgVolume bars i 20 =
      ((List.range' (i - 20) 20).map fun j => (barAt bars j).volume).sum / 20 := by
  have start : (if 20 < i then i - 20 else 0) = i - 20 := by
    split <;> omega
  have size : i - (i - 20) = 20 := by omega
  unfold avgVolume
  dsimp only
  rw [if_neg (by omega), start, size, List.length_map, List.length_range', if_neg (by decide)]
  rfl

/-- The mean of equal volumes. -/
theorem avgVolume_const {volume : ℚ} (warm : 20 ≤ i)
    (same : ∀ j, i - 20 ≤ j → j < i → (barAt bars j).volume = volume) :
    avgVolume bars i 20 = volume := by
  have volumes : (List.range' (i - 20) 20).map (fun j => (barAt bars j).volume) =
      List.replicate 20 volume := by
    refine List.eq_replicate_iff.mpr ⟨by simp, fun v member => ?_⟩
    obtain ⟨j, inside, rfl⟩ := List.mem_map.mp member
    have range := List.mem_range'_1.mp inside
    exact same j range.1 (by omega)
  rw [avgVolume_eq warm, volumes, List.sum_replicate, nsmul_eq_mul]
  exact mul_div_cancel_left₀ volume (by norm_num)

end Wait

/-! ## A list of bars that waits long enough -/

theorem barAt_append_right {bars later : List Bar} {i : ℕ} (past : bars.length ≤ i) :
    barAt (bars ++ later) i = barAt later (i - bars.length) :=
  List.getD_append_right _ _ _ _ past

/-- A bar that crosses 100 and on which a retest of 100 is taken. -/
def takenBar : Bar where
  openPrice := 100
  high := 105
  low := 100
  close := 105
  volume := 200
  vwap := 100
  atr14 := 1
  spreadPct := 0.2
  liquidityScore := 0.8
  mseState := "TREND_UP"
  regime := "NORMAL"
  ipseAlignment := "ALIGNED"
  microstructureState := "HEALTHY"
  mpsState := "PASS"

/-- A bar below 100 that hits the stop and never comes back to the level. -/
def calmBar : Bar where
  openPrice := 99
  high := 99
  low := 90
  close := 97
  volume := 100

/-- The same with a high above 105, so that the bar after it is no breakout. -/
def liftBar : Bar := { calmBar with high := 106 }

/-- A breakout whose trade is taken at once and stopped out on the next bar. -/
def stoppedBars : List Bar := List.replicate 20 quietBar ++ [takenBar, calmBar]

/-- Afterwards `calm` bars pass before the level is tested again. -/
def lateBars (calm : ℕ) : List Bar :=
  stoppedBars ++ (List.replicate calm calmBar ++ [liftBar, takenBar])

section Late

variable {calm i : ℕ}

theorem lateBars_length : (lateBars calm).length = calm + 24 := by
  simp only [lateBars, stoppedBars, List.length_append, List.length_replicate,
    List.length_cons, List.length_nil]
  omega

theorem lateBars_calm (after : 21 ≤ i) (before : i < calm + 22) :
    barAt (lateBars calm) i = calmBar := by
  have size : stoppedBars.length = 22 := rfl
  rcases Nat.lt_or_ge i 22 with first | later
  · obtain rfl : i = 21 := by omega
    exact barAt_append_left (by rw [size]; decide)
  · have inside : i - 22 < (List.replicate calm calmBar).length := by
      rw [List.length_replicate]
      omega
    rw [lateBars, barAt_append_right (by omega), size, barAt_append_left inside, barAt,
      List.getD_replicate _ (by omega)]

theorem lateBars_after (past : calm + 22 ≤ i) :
    barAt (lateBars calm) i = barAt [liftBar, takenBar] (i - (calm + 22)) := by
  have size : stoppedBars.length = 22 := rfl
  have inside : (List.replicate calm calmBar).length ≤ i - 22 := by
    rw [List.length_replicate]
    omega
  have offset : i - 22 - calm = i - (calm + 22) := by omega
  rw [lateBars, barAt_append_right (by omega), size, barAt_append_right inside,
    List.length_replicate, offset]

theorem lateBars_lift : barAt (lateBars calm) (calm + 22) = liftBar := by
  rw [lateBars_after le_rfl, Nat.sub_self]
  rfl

theorem lateBars_last : barAt (lateBars calm) (calm + 23) = takenBar := by
  have offset : calm + 23 - (calm + 22) = 1 := by omega
  rw [lateBars_after (by omega), offset]
  rfl

/-- The stopped trade leaves its setup waiting. -/
theorem stoppedBars_waiting : Waiting 100 20 (stateAfter stoppedBars 22) := by
  constructor <;> decide +kernel

/-- Nothing happens to it for as long as the calm lasts. -/
theorem lateBars_waiting (long : 18 ≤ calm) (short : calm + 2 < 2 ^ 31) :
    Waiting 100 20 (stateAfter (lateBars calm) (calm + 23)) := by
  have start : Waiting 100 20 (stateAfter (lateBars calm) 22) := by
    have inside : 22 ≤ stoppedBars.length := le_rfl
    rw [lateBars, stateAfter_append _ _ inside]
    exact stoppedBars_waiting
  refine start.stretch (by omega) fun i after before => ?_
  have warm : lookback ≤ i := le_trans (by decide) after
  have previous : barAt (lateBars calm) (i - 1) = calmBar := lateBars_calm (by omega) (by omega)
  have window : i - lookback ≤ i - 1 := Nat.sub_le_sub_left (by decide) i
  rcases Nat.lt_or_ge i (calm + 22) with isCalm | lifted
  · have here : barAt (lateBars calm) i = calmBar := lateBars_calm (by omega) isCalm
    refine ⟨not_newBreakout warm window (by omega) ?_, fun _ => ?_⟩
    · rw [here, previous]
      decide +kernel
    · rw [here]
      decide +kernel
  · obtain rfl : i = calm + 22 := by omega
    refine ⟨not_newBreakout warm window (by omega) ?_, fun inTime => ?_⟩
    · rw [lateBars_lift, previous]
      decide +kernel
    · rw [castInt_of_lt (by omega), entryTtl] at inTime
      omega

theorem lateBars_volRatio (long : 18 ≤ calm) : volRatio (lateBars calm) (calm + 23) = 2 := by
  have mean : avgVolume (lateBars calm) (calm + 23) 20 = 100 := by
    refine avgVolume_const (by omega) fun j after before => ?_
    rcases Nat.lt_or_ge j (calm + 22) with isCalm | lifted
    · rw [lateBars_calm (by omega) isCalm]
      rfl
    · obtain rfl : j = calm + 22 := by omega
      rw [lateBars_lift]
      rfl
  rw [volRatio, mean, lateBars_last, if_pos (by norm_num)]
  norm_num [takenBar]

/-- Whatever the level, the bar scores enough on its volume and its shape. -/
theorem scoreBar_taken {bars : List Bar} (level : ℚ) (here : barAt bars i = takenBar)
    (loud : volRatio bars i = 2) : 6.5 ≤ (scoreBar bars i level).setupScore := by
  have pass : "PASS" ≠ "BLOCK" := by decide
  have loudEnough : (1.2 : ℚ) ≤ 2 := by norm_num
  unfold scoreBar
  rw [here, loud, if_pos loudEnough]
  rcases em (level < 105) with above | under
  · norm_num [takenBar, closePos, clamp10, pass, above]
  · norm_num [takenBar, closePos, clamp10, pass, under]

/-- When the cast wraps, the retest is taken. -/
theorem lateBars_wrapped (wraps : calm + 3 = 2 ^ 31) :
    WrappedReentry (lateBars calm) (calm + 23) := by
  have waiting : Waiting 100 20 (gateState (lateBars calm) (calm + 23)) := by
    have state : Waiting 100 20 (stateAfter (lateBars calm) (calm + 23)) :=
      lateBars_waiting (by omega) (by omega)
    have warm : lookback ≤ calm + 23 := le_trans (by decide) (Nat.le_add_left 23 calm)
    have window : calm + 23 - lookback ≤ calm + 22 := by
      rw [lookback]
      omega
    rw [state.gate (not_newBreakout warm window (Nat.lt_succ_self _) ?_)]
    · exact state.scored _
    · rw [lateBars_last, lateBars_lift]
      decide +kernel
  have distance : calm + 23 - 20 = 2 ^ 31 := by omega
  refine ⟨le_trans (by decide) (Nat.le_add_left 23 calm), waiting.flat, waiting.rearmed,
    waiting.unused, ?_, ?_, ?_, ?_⟩
  · rw [waiting.found_eq]
    omega
  · rw [waiting.found_eq, distance]
    decide +kernel
  · rw [waiting.level_eq, lateBars_last]
    decide +kernel
  · have scored : 6.5 ≤ (barScore (lateBars calm) (calm + 23)).setupScore :=
      scoreBar_taken _ lateBars_last (lateBars_volRatio (by omega))
    generalize barScore (lateBars calm) (calm + 23) = sc at *
    have level := waiting.level_eq
    have states : "PASS" ≠ "BLOCK" ∧ "NORMAL" ≠ "SHOCK" ∧ "TREND_UP" ≠ "TREND_DOWN" := by decide
    norm_num at scored
    unfold rejectReasons
    rw [lateBars_last, lateBars_volRatio (by omega)]
    norm_num [scored, states, setLevels, level, midpoint_eq, zoneLow, takenBar, closePos, atrMult]

end Late

/-- After 2^31 - 3 calm bars a re-entry is taken 2^31 bars after its breakout. -/
theorem lateBars_reentry : ¬ EntryDiscipline (lateBars (2 ^ 31 - 3)) := by
  have late : WrappedReentry (lateBars (2 ^ 31 - 3)) (2 ^ 31 - 3 + 23) :=
    lateBars_wrapped (by norm_num)
  refine late.breaks ?_
  rw [lateBars_length]
  omega

end PrismPipeline.Backtest
