import PrismPipeline.Backtest.BreakoutEvents
import PrismPipeline.Backtest.ReentryWrap
import PrismPipeline.Backtest.RoundTrips

/-!
# When the counters run out

On bars that rise by one each time every bar is a breakout and a retest of it.  With loud
and quiet bars in turn every second bar opens a trade and the next one stops it out, so a
list of `n + 20` bars makes `n` retests and half as many trades.  No `int` holds the
retests of a list of 2^31 + 20 bars, or the numbers of the trades of a list of 2^32 + 20.
-/

namespace PrismPipeline.Backtest

open PrismPipeline.Machine PrismPipeline.Series

/-- Bar `i` of the rise, loud on the even bars. -/
def swingBar (i : ℕ) : Bar where
  openPrice := i
  high := i + 3
  low := i
  close := i + 3
  volume := if i % 2 = 0 then 3 else 1
  vwap := i + 1
  atr14 := 1
  spreadPct := 0.2
  liquidityScore := 0.8
  mseState := "TREND_UP"
  regime := "NORMAL"
  ipseAlignment := "ALIGNED"
  microstructureState := "HEALTHY"
  mpsState := "PASS"

def swingBars (n : ℕ) : List Bar := (List.range n).map swingBar

section Bars

variable {n i : ℕ}

theorem swingBars_length : (swingBars n).length = n := by
  rw [swingBars, List.length_map, List.length_range]

theorem swingBars_at (inside : i < n) : barAt (swingBars n) i = swingBar i := by
  simp [barAt, swingBars, List.getD_eq_getElem?_getD, inside]

theorem swingBars_under : ∀ b ∈ swingBars n, ClosesUnderHigh b := by
  intro b member
  obtain ⟨i, _, rfl⟩ := List.mem_map.mp member
  have low : (0 : ℚ) ≤ i := Nat.cast_nonneg i
  have close : (i : ℚ) ≤ i + 3 := by linarith
  exact ⟨low, close, le_rfl⟩

/-- The highest bar before a bar is the last one. -/
theorem swingBars_prevHigh (warm : 20 ≤ i) (inside : i < n) : prevHigh (swingBars n) i = i + 2 := by
  have within : i < (swingBars n).length := by rwa [swingBars_length]
  have greatest := prevHigh_isGreatest swingBars_under within warm
  refine greatest.unique ⟨⟨i - 1, by omega, by omega, ?_⟩, ?_⟩
  · rw [swingBars_at (by omega), swingBar]
    push_cast [Nat.cast_sub (by omega : 1 ≤ i)]
    ring
  · rintro x ⟨j, low, before, rfl⟩
    rw [swingBars_at (by omega), swingBar]
    have earlier : (j : ℚ) + 1 ≤ i := by exact_mod_cast before
    dsimp only
    linarith

theorem swingBars_newBreakout (warm : 20 ≤ i) (inside : i < n) : newBreakout (swingBars n) i := by
  rw [newBreakout, swingBars_prevHigh warm inside, swingBars_at (by omega), swingBars_at inside]
  constructor
  · simp only [swingBar]
    push_cast [Nat.cast_sub (by omega : 1 ≤ i)]
    linarith
  · simp only [swingBar]
    linarith

/-- A loud and a quiet bar have the volume 4. -/
theorem swing_volumes (first pairs : ℕ) :
    ((List.range' first (2 * pairs)).map fun j => (swingBar j).volume).sum = 4 * pairs := by
  induction pairs generalizing first with
  | zero => norm_num
  | succ pairs ih =>
      have two : List.range' first (2 * (pairs + 1)) =
          first :: (first + 1) :: List.range' (first + 2) (2 * pairs) := rfl
      have pair : (swingBar first).volume + (swingBar (first + 1)).volume = 4 := by
        simp only [swingBar]
        rcases Nat.mod_two_eq_zero_or_one first with even | odd
        · rw [if_pos even, if_neg (by omega)]
          norm_num
        · rw [if_neg (by omega), if_pos (by omega)]
          norm_num
      rw [two, List.map_cons, List.map_cons, List.sum_cons, List.sum_cons, ih]
      push_cast
      linarith

theorem swingBars_volRatio (warm : 20 ≤ i) (inside : i < n) :
    volRatio (swingBars n) i = if i % 2 = 0 then 1.5 else 0.5 := by
  have volumes : (List.range' (i - 20) 20).map (fun j => (barAt (swingBars n) j).volume) =
      (List.range' (i - 20) (2 * 10)).map fun j => (swingBar j).volume := by
    refine List.map_congr_left fun j member => ?_
    have range := List.mem_range'_1.mp member
    rw [swingBars_at (by omega)]
  have mean : avgVolume (swingBars n) i 20 = 2 := by
    rw [avgVolume_eq warm, volumes, swing_volumes]
    norm_num
  rw [volRatio, mean, if_pos (by norm_num), swingBars_at inside, swingBar]
  dsimp only
  split_ifs <;> norm_num

end Bars

/-! ## One pass -/

section Pass

variable {n i : ℕ}

theorem swingBars_score (warm : 20 ≤ i) (inside : i < n) (even : i % 2 = 0) :
    6.5 ≤ (barScore (swingBars n) i).setupScore := by
  have ratio := swingBars_volRatio warm inside
  rw [if_pos even] at ratio
  have level : barScore (swingBars n) i = scoreBar (swingBars n) i (i + 2) := by
    have behind : lookback ≤ i := warm
    rw [barScore, if_pos behind, swingBars_prevHigh warm inside]
  have range : (i : ℚ) + 3 - i = 3 := by ring
  have states : "PASS" ≠ "BLOCK" := by decide
  rw [level]
  unfold scoreBar
  rw [swingBars_at inside, ratio]
  norm_num [swingBar, closePos, clamp10, states, range]

/-- Every bar is the breakout that its retest is about. -/
theorem swingBars_level (warm : 20 ≤ i) (inside : i < n) :
    (gateState (swingBars n) i).breakout = i + 2 := by
  rw [gateState_found (swingBars n) i (swingBars_newBreakout warm inside)]
  exact swingBars_prevHigh warm inside

/-- A bar on which no trade is open is a retest. -/
theorem swingBars_logsIntent (warm : 20 ≤ i) (inside : i < n)
    (flat : (afterExit (swingBars n) i).tradeOpen = false) : LogsIntent (swingBars n) i := by
  refine ⟨⟨warm, flat⟩, Or.inl ?_, ?_⟩
  · rw [gateState_found (swingBars n) i (swingBars_newBreakout warm inside)]
    rfl
  · rw [swingBars_level warm inside, swingBars_at inside]
    constructor <;> norm_num [swingBar, zoneLow, zoneHigh] <;> linarith

/-- The retest of a bar is taken when the bar is loud, and refused for its volume when it is
quiet. -/
theorem swingBars_reasons (warm : 20 ≤ i) (inside : i < n) {s : LoopState}
    (level : s.breakout = i + 2) :
    rejectReasons (swingBars n) i (barScore (swingBars n) i)
      (setLevels (barAt (swingBars n) i) s) = [] ↔ i % 2 = 0 := by
  have ratio := swingBars_volRatio warm inside
  rcases Nat.mod_two_eq_zero_or_one i with even | odd
  · refine iff_of_true ?_ even
    have scored := swingBars_score warm inside even
    generalize barScore (swingBars n) i = sc at *
    have range : (i : ℚ) + 3 - i = 3 := by ring
    have states : "PASS" ≠ "BLOCK" ∧ "NORMAL" ≠ "SHOCK" ∧ "TREND_UP" ≠ "TREND_DOWN" := by decide
    rw [if_pos even] at ratio
    norm_num at scored
    unfold rejectReasons
    rw [swingBars_at inside, ratio]
    norm_num [scored, states, setLevels, level, midpoint_eq, zoneLow, swingBar, closePos, atrMult,
      range]
  · refine iff_of_false (fun clean => ?_) (by omega)
    rw [if_neg (by omega)] at ratio
    simp only [rejectReasons, List.map_eq_nil_iff, List.filter_eq_nil_iff, List.forall_mem_cons,
      Bool.not_eq_true, Bool.not_eq_false', decide_eq_true_eq, ratio] at clean
    obtain ⟨_, _, _, _, _, loud, _⟩ := clean
    norm_num at loud

/-- The state after bar `i - 1`: its trade is open if the bar was loud. -/
structure Swinging (i : ℕ) (s : LoopState) : Prop where
  isOpen : s.tradeOpen = decide (i % 2 = 1)
  stop : s.tradeOpen = true → s.stop = i + 0.8
  trades : s.logs.trades.length = (i - 20) / 2
  intents : s.logs.intents.length = i - 20

theorem swingBars_start : Swinging 20 (stateAfter (swingBars n) 20) := by
  have few := intents_length_le (swingBars n) 20
  obtain ⟨retests, trades, _, _⟩ := stateAfter_tradeTally (swingBars n) 20
  generalize stateAfter (swingBars n) 20 = s at *
  have none : s.logs.intents.length = 0 := Nat.le_zero.mp few
  change s.logs.intents.length = _ at retests
  have flat : s.tradeOpen = false := by
    by_contra isOpen
    rw [Bool.eq_true_of_not_eq_false isOpen, Bool.toNat_true] at trades
    omega
  refine ⟨flat, fun isOpen => absurd (flat.symm.trans isOpen) Bool.false_ne_true, ?_, none⟩
  omega

/-- The next bar falls through the stop of an open trade. -/
theorem Swinging.exits (swinging : Swinging i (stateAfter (swingBars n) i)) (inside : i < n) :
    (exitRow (swingBars n) i).toList.length = i % 2 ∧
      (afterExit (swingBars n) i).tradeOpen = false := by
  unfold exitRow afterExit exitStep
  have kept : (logScore (barScore (swingBars n) i) (stateAfter (swingBars n) i)).tradeOpen =
    (stateAfter (swingBars n) i).tradeOpen := rfl
  rw [kept]
  rcases Nat.mod_two_eq_zero_or_one i with even | odd
  · have flat : (stateAfter (swingBars n) i).tradeOpen = false :=
      swinging.isOpen.trans (decide_eq_false (by omega))
    rw [flat, even, if_neg Bool.false_ne_true, if_neg Bool.false_ne_true]
    exact ⟨rfl, flat⟩
  · have isOpen : (stateAfter (swingBars n) i).tradeOpen = true :=
      swinging.isOpen.trans (decide_eq_true odd)
    have hit : (barAt (swingBars n) i).low ≤ (stateAfter (swingBars n) i).stop := by
      rw [swinging.stop isOpen, swingBars_at inside, swingBar]
      norm_num
    have test : exitTest (barAt (swingBars n) i) i (stateAfter (swingBars n) i) =
        some (.stopHit, (stateAfter (swingBars n) i).stop) := if_pos hit
    have scored : exitTest (barAt (swingBars n) i) i
        (logScore (barScore (swingBars n) i) (stateAfter (swingBars n) i)) =
        some (.stopHit, (stateAfter (swingBars n) i).stop) := if_pos hit
    rw [isOpen, odd, if_pos rfl, if_pos rfl, test, scored]
    exact ⟨rfl, rfl⟩

theorem Swinging.pass (swinging : Swinging i (stateAfter (swingBars n) i)) (warm : 20 ≤ i)
    (inside : i < n) : Swinging (i + 1) (stateAfter (swingBars n) (i + 1)) := by
  obtain ⟨closed, flat⟩ := swinging.exits inside
  have level := swingBars_level warm inside
  have logs := swingBars_logsIntent warm inside flat
  have next : stateAfter (swingBars n) (i + 1) =
      takeRetest (swingBars n) i (barScore (swingBars n) i) (gateState (swingBars n) i) := by
    rcases stateAfter_succ_cases (swingBars n) i with ⟨skipped, _⟩ | ⟨_, quiet, _⟩ | ⟨_, same⟩
    · exact absurd logs.1 skipped
    · exact absurd logs quiet
    · exact same
  have reasons := swingBars_reasons warm inside level
  have trades : (stateAfter (swingBars n) (i + 1)).logs.trades.length = (i + 1 - 20) / 2 := by
    rw [pass_trades, List.length_append, closed, swinging.trades]
    omega
  have intents : (stateAfter (swingBars n) (i + 1)).logs.intents.length = i + 1 - 20 := by
    rw [pass_intents, if_pos logs, List.length_append, swinging.intents, List.length_singleton]
    omega
  rcases Nat.mod_two_eq_zero_or_one i with even | odd
  · have taken : takeRetest (swingBars n) i (barScore (swingBars n) i) (gateState (swingBars n) i) =
        acceptTrade _ _ _ _ := if_pos (reasons.mpr even)
    refine ⟨?_, fun _ => ?_, trades, intents⟩
    · rw [next, taken, decide_eq_true (by omega)]
      rfl
    · rw [next, taken]
      change min ((barAt (swingBars n) i).close - (barAt (swingBars n) i).atr14 * atrMult)
        (zoneLow (barAt (swingBars n) i) (gateState (swingBars n) i).breakout) = _
      rw [level, swingBars_at inside, min_eq_left] <;>
        norm_num [swingBar, zoneLow, atrMult] <;> linarith
  · have refused : takeRetest (swingBars n) i (barScore (swingBars n) i)
        (gateState (swingBars n) i) = rejectTrade _ _ _ :=
      if_neg fun clean => absurd (reasons.mp clean) (by omega)
    have stillFlat : (stateAfter (swingBars n) (i + 1)).tradeOpen = false := by
      rw [next, refused]
      exact (gateState_frame (swingBars n) i).2.2.trans flat
    refine ⟨?_, fun isOpen => absurd (stillFlat.symm.trans isOpen) Bool.false_ne_true, trades,
      intents⟩
    rw [stillFlat, decide_eq_false (by omega)]

end Pass

/-! ## The run -/

section Run

variable {n i : ℕ}

theorem swingBars_swinging (warm : 20 ≤ i) (inside : i ≤ n) :
    Swinging i (stateAfter (swingBars n) i) := by
  induction warm with
  | refl => exact swingBars_start
  | @step i warm ih => exact (ih (by omega)).pass warm inside

/-- So many bars behind the window make so many retests. -/
theorem swingBars_intents (n : ℕ) :
    (runBacktest (swingBars (n + 20))).logs.intents.length = n := by
  have swinging : Swinging (n + 20) (stateAfter (swingBars (n + 20)) (n + 20)) :=
    swingBars_swinging (Nat.le_add_left 20 n) le_rfl
  rw [(runBacktest_logs _).2.1, runLoop, swingBars_length, swinging.intents]
  omega

/-- Two bars make a trade. -/
theorem swingBars_trades (n : ℕ) :
    (runBacktest (swingBars (2 * n + 20))).logs.trades.length = n := by
  have swinging : Swinging (2 * n + 20) (stateAfter (swingBars (2 * n + 20)) (2 * n + 20)) :=
    swingBars_swinging (Nat.le_add_left 20 _) le_rfl
  have flat : (runLoop (swingBars (2 * n + 20))).tradeOpen = false := by
    rw [runLoop, swingBars_length, swinging.isOpen]
    exact decide_eq_false (by omega)
  rw [runBacktest_flat flat, runLoop, swingBars_length, swinging.trades]
  omega

end Run

/-- No `int` holds the retests of 2^31 + 20 bars. -/
theorem swingBars_unreconciled : ¬ Reconciled (runBacktest (swingBars (2 ^ 31 + 20))) := by
  intro reconciled
  have shown := reconciled.intents
  have most := Int32.toInt_lt (runBacktest (swingBars (2 ^ 31 + 20))).counters.retests
  rw [swingBars_intents] at shown
  rw [← shown] at most
  norm_num at most

/-- No `int` holds the number of the last trade of 2^32 + 20 bars. -/
theorem swingBars_unnumbered :
    ¬ (TradesMatchIntents (swingBars (2 ^ 32 + 20)) ∧ RowsNumbered (swingBars (2 ^ 32 + 20))) := by
  rintro ⟨_, numbered⟩
  have few := (rowsNumbered_iff _).mp numbered
  have double : 2 ^ 32 + 20 = 2 * 2 ^ 31 + 20 := by norm_num
  rw [double, swingBars_trades] at few
  exact lt_irrefl _ few

end PrismPipeline.Backtest
