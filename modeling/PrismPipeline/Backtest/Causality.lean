import PrismPipeline.Backtest.RiskInvariant

/-!
# The backtest never looks ahead

The loop body is handed the whole list of bars and indexes into it freely.  Two
facts make the run causal nevertheless.  A pass over bar `i` gives the same
result on every list that extends the bars up to `i`, because each window it
reads ends at or before `i` and an open trade was entered earlier.  And a pass
only ever appends to the four logs.
-/

namespace PrismPipeline.Backtest

open PrismPipeline.Machine

/-! ## A pass reads no later bar -/

section Extension

variable {bars : List Bar} (later : List Bar) {i : ℕ} (inside : i < bars.length)
include inside

theorem barScore_append : barScore (bars ++ later) i = barScore bars i := by
  simp only [barScore, prevHigh_append later inside, scoreBar_append later inside,
    barAt_append_left inside]

theorem exitStep_append {s : LoopState} (entered : s.tradeOpen = true → s.entryI < i) :
    exitStep (bars ++ later) i s = exitStep bars i s := by
  unfold exitStep
  cases isOpen : s.tradeOpen with
  | false => rfl
  | true =>
      have earlier : s.entryI < bars.length := (entered isOpen).trans inside
      have sameClose (reason : ExitReason) (exitPrice : ℚ) :
          closeTrade (bars ++ later) i reason exitPrice s =
            closeTrade bars i reason exitPrice s := by
        simp only [closeTrade, tradeRow, barAt_append_left inside,
          barAt_append_left earlier]
      simp only [barAt_append_left inside, sameClose]

theorem newBreakout_append : newBreakout (bars ++ later) i ↔ newBreakout bars i := by
  have previous : i - 1 < bars.length := (Nat.sub_le i 1).trans_lt inside
  simp only [newBreakout, prevHigh_append later inside, barAt_append_left inside,
    barAt_append_left previous]

theorem gate_append (s : LoopState) :
    expireBreakout (bars ++ later) i (detectBreakout (bars ++ later) i s) =
      expireBreakout bars i (detectBreakout bars i s) := by
  simp only [expireBreakout, detectBreakout, newBreakout_append later inside,
    prevHigh_append later inside, barAt_append_left inside]

theorem rejectReasons_append (sc : ScoreRow) (s : LoopState) :
    rejectReasons (bars ++ later) i sc s = rejectReasons bars i sc s := by
  simp only [rejectReasons, volRatio_append later inside, barAt_append_left inside]

theorem takeRetest_append (sc : ScoreRow) (s : LoopState) :
    takeRetest (bars ++ later) i sc s = takeRetest bars i sc s := by
  dsimp only [takeRetest]
  rw [barAt_append_left inside, rejectReasons_append later inside]

theorem entryStep_append (sc : ScoreRow) (s : LoopState) :
    entryStep (bars ++ later) i sc s = entryStep bars i sc s := by
  simp only [entryStep, retestStep, gate_append later inside,
    takeRetest_append later inside, barAt_append_left inside]

theorem barStep_append {s : LoopState} (inv : RiskInvariant i s) :
    barStep (bars ++ later) i s = barStep bars i s := by
  have entered : (logScore (barScore bars i) s).tradeOpen = true →
      (logScore (barScore bars i) s).entryI < i :=
    fun isOpen => (inv.entered isOpen).1
  simp only [barStep, barScore_append later inside, exitStep_append later inside entered,
    entryStep_append later inside]

end Extension

/-- The state after the bars of a prefix does not depend on what follows. -/
theorem stateAfter_append (bars later : List Bar) {n : ℕ} (inside : n ≤ bars.length) :
    stateAfter (bars ++ later) n = stateAfter bars n :=
  forLoop_congr RiskInvariant bars.length riskInvariant_initial
    (fun _ _ _ inv => (barStep_risk bars inv).1)
    (fun _ _ below inv => barStep_append later below inv) n inside

/-! ## The logs only grow -/

/-- Every log of the first state is a prefix of that log of the second. -/
structure LogsGrow (s t : LoopState) : Prop where
  scores : s.logs.scores <+: t.logs.scores
  intents : s.logs.intents <+: t.logs.intents
  trades : s.logs.trades <+: t.logs.trades
  audit : s.logs.audit <+: t.logs.audit

theorem LogsGrow.refl (s : LoopState) : LogsGrow s s :=
  ⟨List.prefix_rfl, List.prefix_rfl, List.prefix_rfl, List.prefix_rfl⟩

theorem LogsGrow.trans {s t u : LoopState} (first : LogsGrow s t) (second : LogsGrow t u) :
    LogsGrow s u :=
  ⟨first.scores.trans second.scores, first.intents.trans second.intents,
    first.trades.trans second.trades, first.audit.trans second.audit⟩

theorem logScore_grows (sc : ScoreRow) (s : LoopState) : LogsGrow s (logScore sc s) := by
  constructor <;> simp [logScore]

theorem exitStep_grows (bars : List Bar) (i : ℕ) (s : LoopState) :
    LogsGrow s (exitStep bars i s) := by
  rcases exitStep_cases bars i s with ⟨_, same⟩ | ⟨_, _, same⟩ | ⟨_, _, _, _, same⟩
  · rw [same]
    exact LogsGrow.refl s
  · rw [same]
    exact LogsGrow.refl s
  · rw [same]
    constructor <;> simp [closeTrade]

theorem gate_grows (bars : List Bar) (i : ℕ) (s : LoopState) :
    LogsGrow s (expireBreakout bars i (detectBreakout bars i s)) := by
  have detected : LogsGrow s (detectBreakout bars i s) := by
    unfold detectBreakout
    split
    · constructor <;> simp [LoopState.pushAudit]
    · exact LogsGrow.refl s
  refine detected.trans ?_
  unfold expireBreakout
  split
  · constructor <;> simp [LoopState.pushAudit]
  · exact LogsGrow.refl _

theorem takeRetest_grows (bars : List Bar) (i : ℕ) (sc : ScoreRow) (s : LoopState) :
    LogsGrow s (takeRetest bars i sc s) := by
  rcases takeRetest_cases bars i sc s with ⟨_, taken⟩ | ⟨_, _, rejected⟩
  · rw [taken]
    constructor <;> simp [acceptTrade, LoopState.pushAudit, logIntent, setLevels]
  · rw [rejected]
    constructor <;> simp [rejectTrade, LoopState.pushAudit, logIntent, setLevels]

theorem entryStep_grows (bars : List Bar) (i : ℕ) (sc : ScoreRow) (s : LoopState) :
    LogsGrow s (entryStep bars i sc s) := by
  rcases entryStep_cases bars i sc s with ⟨_, same⟩ | ⟨gated, rfl, _, _, same | ⟨_, same⟩⟩
  · rw [same]
    exact LogsGrow.refl s
  · rw [same]
    exact gate_grows bars i s
  · rw [same]
    exact (gate_grows bars i s).trans (takeRetest_grows bars i sc _)

theorem barStep_grows (bars : List Bar) (i : ℕ) (s : LoopState) :
    LogsGrow s (barStep bars i s) :=
  (logScore_grows _ s).trans
    ((exitStep_grows bars i _).trans (entryStep_grows bars i _ _))

theorem stateAfter_grows (bars : List Bar) {first last : ℕ} (order : first ≤ last) :
    LogsGrow (stateAfter bars first) (stateAfter bars last) :=
  forLoop_grows LogsGrow LogsGrow.refl (fun _ _ _ => LogsGrow.trans)
    (barStep_grows bars) order

theorem dataEnd_grows (bars : List Bar) (s : LoopState) : LogsGrow s (dataEnd bars s) := by
  unfold dataEnd
  split
  · constructor <;> simp
  · exact LogsGrow.refl s

/-- The loop on a prefix of the bars ends in the state the longer run passes
through, so its logs are prefixes of the longer run's logs. -/
theorem runLoop_grows (bars later : List Bar) :
    LogsGrow (runLoop bars) (runBacktest (bars ++ later)) := by
  have passed : stateAfter (bars ++ later) bars.length = runLoop bars :=
    stateAfter_append bars later le_rfl
  rw [← passed]
  have order : bars.length ≤ (bars ++ later).length := by simp
  exact (stateAfter_grows _ order).trans (dataEnd_grows _ _)

/-- No look-ahead.  Whatever bars follow, the run on `bars` has already written
the beginning of every log: score rows, intents and audit events as they stand
in its own files, and trades up to the one that only the end of the data closes.
The whole state of the loop after `bars` is the same in both runs. -/
theorem no_lookahead (bars later : List Bar) :
    (runBacktest bars).logs.scores <+: (runBacktest (bars ++ later)).logs.scores ∧
    (runBacktest bars).logs.intents <+: (runBacktest (bars ++ later)).logs.intents ∧
    (runBacktest bars).logs.audit <+: (runBacktest (bars ++ later)).logs.audit ∧
    (runLoop bars).logs.trades <+: (runBacktest (bars ++ later)).logs.trades ∧
    (runLoop bars).logs.trades <+: (runLoop (bars ++ later)).logs.trades ∧
    stateAfter (bars ++ later) bars.length = stateAfter bars bars.length := by
  obtain ⟨scores, intents, audit⟩ := runBacktest_logs bars
  have grows := runLoop_grows bars later
  have passed : stateAfter (bars ++ later) bars.length = stateAfter bars bars.length :=
    stateAfter_append bars later le_rfl
  have order : bars.length ≤ (bars ++ later).length := by simp
  have inLoop := stateAfter_grows (bars ++ later) order
  rw [passed] at inLoop
  rw [scores, intents, audit]
  exact ⟨grows.scores, grows.intents, grows.audit, grows.trades, inLoop.trades, passed⟩

end PrismPipeline.Backtest
