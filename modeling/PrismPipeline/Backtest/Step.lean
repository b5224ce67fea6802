import PrismPipeline.Backtest.Loop

/-!
# What one pass of the bar loop can do

Inversion lemmas for the exit chain and the entry gate, one for each function of
the loop body.  Every invariant of the loop is derived from these; no later
module unfolds the loop body again.
-/

namespace PrismPipeline.Backtest

/-- One more pass. -/
theorem stateAfter_add_one (bars : List Bar) (i : ℕ) :
    stateAfter bars (i + 1) = entryStep bars i (barScore bars i)
      (exitStep bars i (logScore (barScore bars i) (stateAfter bars i))) := rfl

/-! ## Exit chain -/

/-- The tests of the exit chain in order; each also says that the ones before it
failed, as far as later results need it. -/
inductive ExitFires (b : Bar) (i : ℕ) (s : LoopState) : ExitReason → ℚ → Prop where
  | stopHit (hit : b.low ≤ s.stop) : ExitFires b i s .stopHit s.stop
  | target2Hit (above : s.stop < b.low) (hit : s.t2 ≤ b.high) :
      ExitFires b i s .target2Hit s.t2
  | target1Hit (above : s.stop < b.low) (under : b.high < s.t2) (hit : s.t1 ≤ b.high) :
      ExitFires b i s .target1Hit s.t1
  | closeBelow (above : s.stop < b.low) (under : b.high < s.t1)
      (hit : b.close < s.breakout) : ExitFires b i s .invalidCloseBelowBreakout b.close
  | shock (above : s.stop < b.low) (under : b.high < s.t1)
      (hit : b.regime = "SHOCK") : ExitFires b i s .invalidRegimeShock b.close
  | trendDown (above : s.stop < b.low) (under : b.high < s.t1)
      (hit : b.mseState = "TREND_DOWN") : ExitFires b i s .invalidMseTrendDown b.close
  | block (above : s.stop < b.low) (under : b.high < s.t1)
      (hit : b.mpsState = "BLOCK") : ExitFires b i s .invalidMpsBlock b.close
  | expired (above : s.stop < b.low) (under : b.high < s.t1)
      (hit : tradeTtl ≤ castInt (i - s.entryI)) : ExitFires b i s .timeExit b.close

/-- What a bar satisfies when an open trade survives it. -/
structure Survives (b : Bar) (i : ℕ) (s : LoopState) : Prop where
  above_stop : s.stop < b.low
  under_t1 : b.high < s.t1
  close_ge : s.breakout ≤ b.close
  not_shock : b.regime ≠ "SHOCK"
  not_trendDown : b.mseState ≠ "TREND_DOWN"
  not_block : b.mpsState ≠ "BLOCK"
  young : castInt (i - s.entryI) < tradeTtl

theorem exitTest_some {b : Bar} {i : ℕ} {s : LoopState} {reason : ExitReason}
    {exitPrice : ℚ} (fires : exitTest b i s = some (reason, exitPrice)) :
    ExitFires b i s reason exitPrice := by
  unfold exitTest at fires
  split at fires
  · next hit => cases fires; exact .stopHit hit
  next above =>
  rw [not_le] at above
  split at fires
  · next hit => cases fires; exact .target2Hit above hit
  next under2 =>
  rw [not_le] at under2
  split at fires
  · next hit => cases fires; exact .target1Hit above under2 hit
  next under1 =>
  rw [not_le] at under1
  split at fires
  · next hit => cases fires; exact .closeBelow above under1 hit
  split at fires
  · next hit => cases fires; exact .shock above under1 hit
  split at fires
  · next hit => cases fires; exact .trendDown above under1 hit
  split at fires
  · next hit => cases fires; exact .block above under1 hit
  split at fires
  · next hit => cases fires; exact .expired above under1 hit
  · cases fires

theorem exitTest_none {b : Bar} {i : ℕ} {s : LoopState} (quiet : exitTest b i s = none) :
    Survives b i s := by
  unfold exitTest at quiet
  split at quiet
  · cases quiet
  next above =>
  split at quiet
  · cases quiet
  split at quiet
  · cases quiet
  next under =>
  split at quiet
  · cases quiet
  next close =>
  split at quiet
  · cases quiet
  next shock =>
  split at quiet
  · cases quiet
  next down =>
  split at quiet
  · cases quiet
  next block =>
  split at quiet
  · cases quiet
  next young =>
  exact ⟨not_le.mp above, not_le.mp under, not_lt.mp close, shock, down, block,
    not_le.mp young⟩

/-- The exit step leaves a flat state alone, keeps a surviving trade open, or
closes the trade. -/
theorem exitStep_cases (bars : List Bar) (i : ℕ) (s : LoopState) :
    (s.tradeOpen = false ∧ exitStep bars i s = s) ∨
    (s.tradeOpen = true ∧ Survives (barAt bars i) i s ∧ exitStep bars i s = s) ∨
    (∃ reason exitPrice, s.tradeOpen = true ∧
      ExitFires (barAt bars i) i s reason exitPrice ∧
      exitStep bars i s = closeTrade bars i reason exitPrice s) := by
  unfold exitStep
  cases isOpen : s.tradeOpen with
  | false => exact Or.inl ⟨rfl, rfl⟩
  | true =>
      cases test : exitTest (barAt bars i) i s with
      | none => exact Or.inr (Or.inl ⟨rfl, exitTest_none test, rfl⟩)
      | some exit =>
          obtain ⟨reason, exitPrice⟩ := exit
          exact Or.inr (Or.inr ⟨reason, exitPrice, rfl, exitTest_some test, rfl⟩)

/-- The row of a trade that was not open for long shows its bars. -/
theorem tradeRow_holdingBars (bars : List Bar) {i : ℕ} {s : LoopState} (reason : ExitReason)
    (exitPrice : ℚ) (recent : i ≤ s.entryI + 20) :
    (tradeRow bars i s reason exitPrice).holdingBars = ((i - s.entryI : ℕ) : ℤ) := by
  have young : i - s.entryI < 2 ^ 31 := by omega
  simp only [tradeRow, castInt_of_lt young]

/-! ## Entry gate -/

theorem midpoint_eq (b : Bar) (level : ℚ) : midpoint b level = level := by
  unfold midpoint zoneLow zoneHigh
  ring

/-- What a bar and its levels satisfy when a retest on it is taken. -/
structure Admits (b : Bar) (s : LoopState) : Prop where
  breakout_lt : s.breakout < b.close
  close_gt_vwap : b.vwap < b.close
  not_block : b.mpsState ≠ "BLOCK"
  not_shock : b.regime ≠ "SHOCK"
  not_trendDown : b.mseState ≠ "TREND_DOWN"
  risk_pos : 0 < s.R

theorem rejectReasons_nil {bars : List Bar} {i : ℕ} {sc : ScoreRow} {s : LoopState}
    (none : rejectReasons bars i sc s = []) : Admits (barAt bars i) s := by
  simp only [rejectReasons, List.map_eq_nil_iff, List.filter_eq_nil_iff,
    List.forall_mem_cons, Bool.not_eq_true, Bool.not_eq_false', decide_eq_true_eq,
    decide_eq_false_iff_not, not_le, midpoint_eq] at none
  obtain ⟨aboveMid, aboveVwap, _, _, _, _, _, block, shock, down, risk, _⟩ := none
  exact ⟨aboveMid, aboveVwap, block, shock, down, risk⟩

/-- The gate is skipped while the window is filling or a trade is open.
Otherwise detection and expiry run, and then at most one retest is decided. -/
theorem entryStep_cases (bars : List Bar) (i : ℕ) (sc : ScoreRow) (s : LoopState) :
    ((i < lookback ∨ s.tradeOpen = true) ∧ entryStep bars i sc s = s) ∨
    (∃ gated, gated = expireBreakout bars i (detectBreakout bars i s) ∧
      lookback ≤ i ∧ s.tradeOpen = false ∧
      (entryStep bars i sc s = gated ∨
        ((eligibleWindow i gated ∧ isRetest (barAt bars i) gated.breakout) ∧
          entryStep bars i sc s = takeRetest bars i sc gated))) := by
  unfold entryStep
  split
  · next runs =>
      refine Or.inr ⟨_, rfl, runs.1, runs.2, ?_⟩
      unfold retestStep
      split
      · next retest => exact Or.inr ⟨retest, rfl⟩
      · exact Or.inl rfl
  · next skipped =>
      refine Or.inl ⟨?_, rfl⟩
      by_cases filling : i < lookback
      · exact Or.inl filling
      · refine Or.inr ?_
        cases isOpen : s.tradeOpen with
        | false => exact absurd ⟨not_lt.mp filling, isOpen⟩ skipped
        | true => rfl

/-- A retest is logged and then either taken, with every test passed, or rejected
for at least one reason. -/
theorem takeRetest_cases (bars : List Bar) (i : ℕ) (sc : ScoreRow) (s : LoopState) :
    (Admits (barAt bars i) (setLevels (barAt bars i) s) ∧
      takeRetest bars i sc s = acceptTrade (barAt bars i) i sc
        (logIntent (barAt bars i) sc [] (setLevels (barAt bars i) s))) ∨
    (∃ reasons, reasons ≠ [] ∧
      takeRetest bars i sc s = rejectTrade (barAt bars i) reasons
        (logIntent (barAt bars i) sc reasons (setLevels (barAt bars i) s))) := by
  unfold takeRetest
  by_cases none : rejectReasons bars i sc (setLevels (barAt bars i) s) = []
  · refine Or.inl ⟨rejectReasons_nil none, ?_⟩
    simp only [none, if_true]
  · exact Or.inr ⟨_, none, by simp only [none, if_false]⟩

/-! ## The end of the run -/

/-- A run that ends flat reports and logs what the loop left. -/
theorem runBacktest_flat {bars : List Bar} (flat : (runLoop bars).tradeOpen = false) :
    runBacktest bars = runLoop bars := by
  simp [runBacktest, dataEnd, flat]

/-- A run that ends with a trade open logs one more row. -/
theorem runBacktest_trades {bars : List Bar} (isOpen : (runLoop bars).tradeOpen = true) :
    (runBacktest bars).logs.trades = (runLoop bars).logs.trades ++
      [tradeRow bars (bars.length - 1) (runLoop bars) .dataEndExit
        (barAt bars (bars.length - 1)).close] := by
  simp [runBacktest, dataEnd, isOpen]

/-- Closing the last trade touches no log but the trade log. -/
theorem runBacktest_logs (bars : List Bar) :
    (runBacktest bars).logs.scores = (runLoop bars).logs.scores ∧
      (runBacktest bars).logs.intents = (runLoop bars).logs.intents ∧
      (runBacktest bars).logs.audit = (runLoop bars).logs.audit := by
  unfold runBacktest dataEnd
  split <;> exact ⟨rfl, rfl, rfl⟩

end PrismPipeline.Backtest
