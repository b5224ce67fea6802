import PrismPipeline.Backtest.Passes

/-!
# Where the logged texts come from

Every text in a row of a log is the timestamp or the regime of a bar, or a text the program
makes itself.  The score log has one row for each bar, the intents and trades have theirs from
the bars on which they were made, and the regimes in the trade log are those of the bars on
which a retest was taken.
-/

namespace PrismPipeline.Backtest

open PrismPipeline.Machine

/-! ## Scores -/

/-- The row of a bar is logged in front of the exit chain, which logs none. -/
theorem afterExit_scores (bars : List Bar) (i : ℕ) :
    (afterExit bars i).logs.scores = (stateAfter bars i).logs.scores ++ [barScore bars i] := by
  unfold afterExit
  rcases exitStep_cases bars i (logScore (barScore bars i) (stateAfter bars i)) with
    ⟨_, same⟩ | ⟨_, _, same⟩ | ⟨reason, exitPrice, _, _, same⟩
  · rw [same]
    rfl
  · rw [same]
    rfl
  · rw [same]
    rfl

theorem gateState_scores (bars : List Bar) (i : ℕ) :
    (gateState bars i).logs.scores = (afterExit bars i).logs.scores := by
  have gate : gateState bars i = expireBreakout bars i (detectBreakout bars i (afterExit bars i)) :=
    rfl
  rcases gate_cases bars i (afterExit bars i) with ⟨_, same⟩ | ⟨_, _, same⟩ | ⟨_, same⟩
  · rw [gate, same]
    rfl
  · rw [gate, same]
    rfl
  · rw [gate, same]

theorem takeRetest_scores (bars : List Bar) (i : ℕ) (s : LoopState) :
    (takeRetest bars i (barScore bars i) s).logs.scores = s.logs.scores := by
  unfold takeRetest
  dsimp only
  split
  · rfl
  · rfl

/-- The exit chain, the gate and a retest leave the score log alone. -/
theorem pass_scores (bars : List Bar) (i : ℕ) :
    (stateAfter bars (i + 1)).logs.scores =
      (stateAfter bars i).logs.scores ++ [barScore bars i] := by
  rw [← afterExit_scores]
  rcases stateAfter_succ_cases bars i with ⟨_, same⟩ | ⟨_, _, same⟩ | ⟨_, same⟩
  · rw [same]
  · rw [same, gateState_scores]
  · rw [same, takeRetest_scores, gateState_scores]

theorem stateAfter_scores (bars : List Bar) (n : ℕ) :
    (stateAfter bars n).logs.scores = (List.range n).map (barScore bars) := by
  induction n with
  | zero => rfl
  | succ n ih => rw [pass_scores, ih, List.range_succ, List.map_append, List.map_singleton]

/-- The score log has one row for each bar. -/
theorem runBacktest_scores (bars : List Bar) :
    (runBacktest bars).logs.scores = (List.range bars.length).map (barScore bars) := by
  rw [(runBacktest_logs bars).1]
  exact stateAfter_scores bars bars.length

/-! ## Intents -/

/-- The letters of the joined reasons are those of the reasons. -/
theorem reasonJoin_letters {P : Char → Prop}
    (texts : ∀ reason : RejectReason, ∀ c ∈ reason.text.toList, P c) (bar : P '|')
    (accepted : ∀ c ∈ "ACCEPTED".toList, P c) (reasons : List RejectReason) :
    ∀ c ∈ (reasonJoin reasons).toList, P c := by
  have joined : ∀ c ∈ ("|".intercalate (reasons.map RejectReason.text)).toList, P c := by
    induction reasons with
    | nil =>
        intro c member
        cases member
    | cons reason reasons ih =>
        cases reasons with
        | nil => simpa using texts reason
        | cons next others =>
            rw [List.map_cons, List.map_cons, String.intercalate_cons_cons, String.toList_append,
              String.toList_append]
            refine List.forall_mem_append.mpr ⟨List.forall_mem_append.mpr ⟨texts reason, ?_⟩, ih⟩
            exact List.forall_mem_singleton.mpr bar
  unfold reasonJoin
  dsimp only
  split
  · exact accepted
  · exact joined

/-- Every intent is the row of a retest on a bar of the file. -/
theorem exists_of_mem_intents {bars : List Bar} {row : IntentLog}
    (member : row ∈ (runBacktest bars).logs.intents) :
    ∃ i < bars.length, ∃ reasons s, row = retestRow bars i reasons s := by
  obtain ⟨moves, timeline⟩ := exists_timeline bars bars.length
  rw [(runBacktest_logs bars).2.1, runLoop, timeline.intents_eq] at member
  obtain ⟨m, inMoves, shown⟩ := List.mem_filterMap.mp member
  obtain ⟨s, t, step⟩ := timeline.run.step_of_mem inMoves
  have inside := timeline.stamp_lt m inMoves
  cases step with
  | score | exit | breakout | expire => cases shown
  | accept | reject =>
      cases shown
      exact ⟨_, inside, _, _, rfl⟩

/-! ## Trades -/

/-- Every trade was entered and closed on bars of the file. -/
theorem exists_of_mem_trades {bars : List Bar} {row : TradeLog}
    (member : row ∈ (runBacktest bars).logs.trades) :
    ∃ e < bars.length, ∃ i < bars.length, row.entryTime = (barAt bars e).timestamp ∧
      row.exitTime = (barAt bars i).timestamp := by
  obtain ⟨moves, timeline⟩ := exists_timeline bars bars.length
  have inLoop : row ∈ (runLoop bars).logs.trades → ∃ e < bars.length, ∃ i < bars.length,
      row.entryTime = (barAt bars e).timestamp ∧ row.exitTime = (barAt bars i).timestamp := by
    intro earlier
    rw [runLoop, timeline.trades_eq] at earlier
    obtain ⟨m, inMoves, shown⟩ := List.mem_filterMap.mp earlier
    obtain ⟨s, t, step⟩ := timeline.run.step_of_mem inMoves
    have inside := timeline.stamp_lt m inMoves
    cases step with
    | score | breakout | expire | accept | reject => cases shown
    | exit _ _ _ entered =>
        cases shown
        exact ⟨_, entered.trans inside, _, inside, rfl, rfl⟩
  cases isOpen : (runLoop bars).tradeOpen with
  | false =>
      rw [runBacktest_flat isOpen] at member
      exact inLoop member
  | true =>
      rw [runBacktest_trades isOpen] at member
      rcases List.mem_append.mp member with earlier | last
      · exact inLoop earlier
      · obtain ⟨entered, -⟩ := (stateAfter_risk bars bars.length).entered isOpen
        rw [List.mem_singleton.mp last]
        exact ⟨_, entered, _, Nat.sub_lt (Nat.zero_lt_of_lt entered) Nat.one_pos, rfl, rfl⟩

/-! ## Regimes -/

/-- The regime of the bar of each retest that was taken. -/
def acceptedRegimes (bars : List Bar) (accepted : List (ℕ × IntentLog)) : List String :=
  accepted.map fun entry => (barAt bars entry.1).regime

/-- The regimes in the trade log, and that of an open trade, are those of the bars on which a
retest was taken. -/
def RegimesKept (bars : List Bar) (moves : List (ℕ × Move)) (s : LoopState) : Prop :=
  (s.logs.trades.map fun row => row.regimeAtEntry) ++
      (if s.tradeOpen then [s.entryRegime] else []) =
    acceptedRegimes bars (moves.filterMap fun m => m.2.accepted?.map fun row => (m.1, row))

theorem RegimesKept.snoc {bars : List Bar} {moves : List (ℕ × Move)} {s t : LoopState}
    {m : ℕ × Move} (kept : RegimesKept bars moves s) (step : LoopMove bars s m t) :
    RegimesKept bars (moves ++ [m]) t := by
  unfold RegimesKept acceptedRegimes at kept ⊢
  rw [List.filterMap_append, List.map_append, ← kept]
  cases step with
  | score | breakout | expire | reject => exact (List.append_nil _).symm
  | exit isOpen =>
      rw [isOpen]
      change (s.logs.trades ++ [_]).map _ ++ [] = _
      simp [tradeRow, Move.accepted?]
  | accept _ _ flat =>
      rw [flat]
      change s.logs.trades.map _ ++ [_] = _
      simp [Move.accepted?, acceptTrade, LoopState.pushAudit]

theorem runBacktest_regimes (bars : List Bar) :
    ((runBacktest bars).logs.trades.map fun row => row.regimeAtEntry) =
      acceptedRegimes bars (acceptedBy bars bars.length) := by
  obtain ⟨moves, timeline⟩ := exists_timeline bars bars.length
  have kept : RegimesKept bars moves (runLoop bars) :=
    timeline.run.history (RegimesKept bars) rfl fun _ _ _ _ before step => before.snoc step
  rw [timeline.acceptedBy_eq, ← kept]
  cases isOpen : (runLoop bars).tradeOpen with
  | false =>
      rw [runBacktest_flat isOpen]
      exact (List.append_nil _).symm
  | true =>
      rw [runBacktest_trades isOpen, List.map_append]
      rfl

end PrismPipeline.Backtest
