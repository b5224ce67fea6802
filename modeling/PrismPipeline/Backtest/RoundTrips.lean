import PrismPipeline.Backtest.Reconcile
import PrismPipeline.Series.Rounds

/-!
# Round trips

Every accepted intent becomes one row of the trade log, in the same order and with the
levels it was accepted at.  Entry, stop and targets are variables that every retest
writes, and the row is built from them when the trade is closed; they still hold the
accepted values then, because no retest is looked at while a trade is open.  The rows are
numbered by an `int`.
-/

namespace PrismPipeline.Backtest

open PrismPipeline.Machine PrismPipeline.Series

/-- The rows of the final trade log with the bar each was closed on; the row written
after the loop belongs to the last bar. -/
def tradeBars (bars : List Bar) : List (ℕ × TradeLog) :=
  tradesBy bars bars.length ++
    ((runBacktest bars).logs.trades.drop (runLoop bars).logs.trades.length).map fun row =>
      (bars.length - 1, row)

/-- Row `k` of the trade log carries what accepted intent `k` fixed. -/
structure Carries (k : ℕ) (intent : ℕ × IntentLog) (trade : ℕ × TradeLog) : Prop where
  tradeId : trade.2.tradeId = .ofNat (k + 1)
  entryTime : trade.2.entryTime = intent.2.timestamp
  entryPrice : trade.2.entryPrice = intent.2.entryPrice
  stopLoss : trade.2.stopLoss = intent.2.stopLoss
  target1 : trade.2.target1 = intent.2.target1
  target2 : trade.2.target2 = intent.2.target2
  setupScore : trade.2.setupScore = intent.2.setupScore
  ordered : intent.1 ≤ trade.1
  holdingBars : trade.2.holdingBars = ((trade.1 - intent.1 : ℕ) : ℤ)
  short : trade.2.holdingBars ≤ 20

/-- A trade is closed no later than the bar of the next entry. -/
def ClosedBy (trade : ℕ × TradeLog) (next : ℕ × IntentLog) : Prop := trade.1 ≤ next.1

/-- The variables of an open trade still hold what its intent was logged with. -/
structure Frozen (bars : List Bar) (intent : ℕ × IntentLog) (s : LoopState) : Prop where
  bar : intent.1 = s.entryI
  timestamp : intent.2.timestamp = (barAt bars s.entryI).timestamp
  entryPrice : intent.2.entryPrice = s.entry
  stopLoss : intent.2.stopLoss = s.stop
  target1 : intent.2.target1 = s.t1
  target2 : intent.2.target2 = s.t2
  setupScore : intent.2.setupScore = s.entryScore.setupScore

/-- The accepted intents and the trades among the moves so far. -/
def acceptedMoves (moves : List (ℕ × Move)) : List (ℕ × IntentLog) :=
  moves.filterMap fun m => m.2.accepted?.map fun row => (m.1, row)

def tradeMoves (moves : List (ℕ × Move)) : List (ℕ × TradeLog) :=
  moves.filterMap fun m => m.2.trade?.map fun row => (m.1, row)

/-- The two logs are in step, up to the trade that is open. -/
structure InStep (bars : List Bar) (moves : List (ℕ × Move)) (s : LoopState) : Prop where
  number : s.tradeId = .ofNat (acceptedMoves moves).length
  flat : s.tradeOpen = false →
    Rounds Carries ClosedBy (acceptedMoves moves) (tradeMoves moves)
  held : s.tradeOpen = true → ∃ earlier intent, acceptedMoves moves = earlier ++ [intent] ∧
    Rounds Carries ClosedBy earlier (tradeMoves moves) ∧
    (∀ last ∈ (tradeMoves moves).getLast?, ClosedBy last intent) ∧ Frozen bars intent s

section Step

variable {bars : List Bar} {moves : List (ℕ × Move)} {s t : LoopState} {m : ℕ × Move}

theorem acceptedMoves_snoc (moves : List (ℕ × Move)) (m : ℕ × Move) :
    acceptedMoves (moves ++ [m]) =
      acceptedMoves moves ++ (m.2.accepted?.map fun row => (m.1, row)).toList := by
  obtain ⟨i, move⟩ := m
  rw [acceptedMoves, List.filterMap_append]
  cases move <;> rfl

theorem tradeMoves_snoc (moves : List (ℕ × Move)) (m : ℕ × Move) :
    tradeMoves (moves ++ [m]) =
      tradeMoves moves ++ (m.2.trade?.map fun row => (m.1, row)).toList := by
  obtain ⟨i, move⟩ := m
  rw [tradeMoves, List.filterMap_append]
  cases move <;> rfl

/-- The row built when an open trade is closed on bar `i` carries its intent. -/
theorem Frozen.carries {intent : ℕ × IntentLog} {k i : ℕ} {reason : ExitReason} {exitPrice : ℚ}
    (frozen : Frozen bars intent s) (number : s.tradeId = .ofNat (k + 1)) (entered : s.entryI ≤ i)
    (recent : i ≤ s.entryI + 20) :
    Carries k intent (i, tradeRow bars i s reason exitPrice) := by
  obtain ⟨bar, row⟩ := intent
  obtain rfl : bar = s.entryI := frozen.bar
  have young : i - s.entryI ≤ 20 := by omega
  have holding := tradeRow_holdingBars bars reason exitPrice recent
  refine ⟨number, frozen.timestamp.symm, frozen.entryPrice.symm, frozen.stopLoss.symm,
    frozen.target1.symm, frozen.target2.symm, frozen.setupScore.symm, entered, holding, ?_⟩
  rw [holding]
  exact_mod_cast young

/-- A move that neither takes nor closes a trade, and changes no variable of an open one. -/
theorem InStep.other (books : InStep bars moves s) (quiet : m.2.accepted? = none ∧ m.2.trade? = none)
    (number : t.tradeId = s.tradeId) (isOpen : t.tradeOpen = s.tradeOpen)
    (kept : s.tradeOpen = true → ∀ intent, Frozen bars intent s → Frozen bars intent t) :
    InStep bars (moves ++ [m]) t := by
  have accepted : acceptedMoves (moves ++ [m]) = acceptedMoves moves := by
    rw [acceptedMoves_snoc, quiet.1]
    exact List.append_nil _
  have trades : tradeMoves (moves ++ [m]) = tradeMoves moves := by
    rw [tradeMoves_snoc, quiet.2]
    exact List.append_nil _
  refine ⟨?_, fun flat => ?_, fun held => ?_⟩
  · rw [number, accepted, books.number]
  · rw [accepted, trades]
    exact books.flat (isOpen ▸ flat)
  · obtain ⟨earlier, intent, log, rounds, after, frozen⟩ := books.held (isOpen ▸ held)
    rw [accepted, trades]
    exact ⟨earlier, intent, log, rounds, after, kept (isOpen ▸ held) intent frozen⟩

/-- Closing the open trade completes its round. -/
theorem InStep.exit {i : ℕ} {reason : ExitReason} {exitPrice : ℚ} (books : InStep bars moves s)
    (isOpen : s.tradeOpen = true) (entered : s.entryI ≤ i) (recent : i ≤ s.entryI + 20) :
    Rounds Carries ClosedBy (acceptedMoves moves)
      (tradeMoves moves ++ [(i, tradeRow bars i s reason exitPrice)]) := by
  obtain ⟨earlier, intent, log, rounds, after, frozen⟩ := books.held isOpen
  have number : s.tradeId = .ofNat (earlier.length + 1) := by
    rw [books.number, log, List.length_append, List.length_singleton]
  rw [log]
  exact .snoc rounds after (frozen.carries number entered recent)

theorem InStep.snoc (books : InStep bars moves s) (ordered : ∀ old ∈ moves, old.1 ≤ m.1)
    (step : LoopMove bars s m t) : InStep bars (moves ++ [m]) t := by
  cases step with
  | score =>
      refine books.other ⟨rfl, rfl⟩ rfl rfl fun _ intent frozen => ?_
      exact ⟨frozen.bar, frozen.timestamp, frozen.entryPrice, frozen.stopLoss, frozen.target1,
        frozen.target2, frozen.setupScore⟩
  | breakout _ flat | expire _ flat | reject flat =>
      refine books.other ⟨rfl, rfl⟩ rfl rfl fun isOpen => ?_
      exact absurd (flat.symm.trans isOpen) Bool.false_ne_true
  | @exit i _ reason exitPrice isOpen _ _ entered recent =>
      have accepted : acceptedMoves (moves ++ [(i, Move.exit (tradeRow bars i s reason exitPrice))]) =
          acceptedMoves moves := by
        rw [acceptedMoves_snoc]
        exact List.append_nil _
      refine ⟨?_, fun _ => ?_, fun held => Bool.noConfusion held⟩
      · rw [accepted]
        exact books.number
      · rw [accepted, tradeMoves_snoc]
        exact books.exit isOpen entered.le recent
  | @accept i _ _ _ _ flat =>
      have trades : tradeMoves (moves ++ [(i, Move.accept (retestRow bars i [] s) (s.tradeId + 1))]) =
          tradeMoves moves := by
        rw [tradeMoves_snoc]
        exact List.append_nil _
      refine ⟨?_, fun stillFlat => Bool.noConfusion stillFlat, fun _ => ?_⟩
      · change s.tradeId + 1 = _
        rw [acceptedMoves_snoc, List.length_append, books.number]
        exact (Int32.ofNat_add _ _).symm
      · refine ⟨acceptedMoves moves, (i, retestRow bars i [] s), ?_, ?_, fun last member => ?_, ?_⟩
        · rw [acceptedMoves_snoc]
          rfl
        · rw [trades]
          exact books.flat flat
        · rw [trades] at member
          obtain ⟨old, inMoves, shown⟩ :=
            List.mem_filterMap.mp (List.mem_of_mem_getLast? member)
          obtain ⟨row, _, rfl⟩ := Option.map_eq_some_iff.mp shown
          exact ordered old inMoves
        · constructor <;> rfl

end Step

theorem Timeline.inStep {bars : List Bar} {n : ℕ} {moves : List (ℕ × Move)}
    (timeline : Timeline bars n moves) : InStep bars moves (stateAfter bars n) := by
  have initial : InStep bars [] {} := ⟨rfl, fun _ => .nil, fun held => Bool.noConfusion held⟩
  exact timeline.run.history_of_pairwise timeline.sorted (InStep bars) initial
    fun _ _ _ _ books ordered step => books.snoc ordered step

/-- At the end of the run every accepted intent has its trade. -/
theorem rounds_of_run (bars : List Bar) :
    Rounds Carries ClosedBy (acceptedBy bars bars.length) (tradeBars bars) := by
  obtain ⟨moves, timeline⟩ := exists_timeline bars bars.length
  have books := timeline.inStep
  rw [timeline.acceptedBy_eq, tradeBars, timeline.tradesBy_eq]
  change Rounds _ _ (acceptedMoves moves) (tradeMoves moves ++ _)
  cases isOpen : (runLoop bars).tradeOpen with
  | false =>
      rw [runBacktest_flat isOpen, List.drop_length, List.map_nil, List.append_nil]
      exact books.flat isOpen
  | true =>
      rw [runBacktest_trades isOpen, List.drop_left]
      obtain ⟨entered, recent⟩ := (stateAfter_risk bars bars.length).entered isOpen
      refine books.exit isOpen ?_ ?_
      · exact Nat.le_sub_one_of_lt entered
      · exact (Nat.sub_le _ _).trans recent

/-- What the two logs of a run say of each other. -/
structure TradesMatchIntents (bars : List Bar) : Prop where
  trade_log : (tradeBars bars).map Prod.snd = (runBacktest bars).logs.trades
  accepted_log : (acceptedBy bars bars.length).map Prod.snd =
    (runBacktest bars).logs.intents.filter fun intent => intent.reasonCodes = "ACCEPTED"
  same_number : (runBacktest bars).logs.trades.length =
    ((runBacktest bars).logs.intents.filter fun intent => intent.reasonCodes = "ACCEPTED").length
  carries : ∀ k intent trade, (acceptedBy bars bars.length)[k]? = some intent →
    (tradeBars bars)[k]? = some trade → Carries k intent trade
  closed_by : ∀ k trade next, (tradeBars bars)[k]? = some trade →
    (acceptedBy bars bars.length)[k + 1]? = some next → trade.1 ≤ next.1

theorem tradeBars_rows (bars : List Bar) :
    (tradeBars bars).map Prod.snd = (runBacktest bars).logs.trades := by
  obtain ⟨moves, timeline⟩ := exists_timeline bars bars.length
  have inLoop : (tradesBy bars bars.length).map Prod.snd = (runLoop bars).logs.trades := by
    rw [timeline.tradesBy_eq, runLoop, timeline.trades_eq, List.map_filterMap]
    refine List.filterMap_congr fun m _ => ?_
    cases m.2.trade? <;> rfl
  have appended : (runLoop bars).logs.trades <+: (runBacktest bars).logs.trades := by
    cases isOpen : (runLoop bars).tradeOpen with
    | false => exact runBacktest_flat isOpen ▸ List.prefix_rfl
    | true => exact runBacktest_trades isOpen ▸ List.prefix_append _ _
  obtain ⟨rest, whole⟩ := appended
  rw [tradeBars, List.map_append, inLoop, List.map_map, ← whole, List.drop_left]
  exact congrArg _ (List.map_id rest)

theorem acceptedBy_rows (bars : List Bar) :
    (acceptedBy bars bars.length).map Prod.snd =
      (runBacktest bars).logs.intents.filter fun intent => intent.reasonCodes = "ACCEPTED" := by
  obtain ⟨moves, timeline⟩ := exists_timeline bars bars.length
  obtain ⟨_, same, _⟩ := runBacktest_logs bars
  have logged : (intentsBy bars bars.length).map Prod.snd = (runLoop bars).logs.intents := by
    rw [timeline.intentsBy_eq, runLoop, timeline.intents_eq, List.map_filterMap]
    refine List.filterMap_congr fun m _ => ?_
    cases m.2.intent? <;> rfl
  rw [same, ← logged, List.filter_map]
  rfl

/-- Row by row the trade log is the list of accepted intents with the levels frozen at
acceptance, and the trades of a run follow one another. -/
theorem rows_match (bars : List Bar) : TradesMatchIntents bars := by
  have rounds := rounds_of_run bars
  refine ⟨tradeBars_rows bars, acceptedBy_rows bars, ?_, fun k intent trade => rounds.fits,
    fun k trade next => rounds.after⟩
  rw [← tradeBars_rows, ← acceptedBy_rows, List.length_map, List.length_map]
  exact rounds.length_eq.symm

/-! ## The numbers of the rows -/

/-- The rows are numbered one after the other. -/
def RowsNumbered (bars : List Bar) : Prop :=
  ∀ (k : ℕ) (row : TradeLog), (runBacktest bars).logs.trades[k]? = some row →
    row.tradeId.toInt = k + 1

/-- Row `k` has the number `k + 1` in the arithmetic of `int`. -/
theorem row_tradeId {bars : List Bar} {k : ℕ} {row : TradeLog}
    (written : (runBacktest bars).logs.trades[k]? = some row) :
    row.tradeId = .ofNat (k + 1) := by
  have rounds := rounds_of_run bars
  rw [← tradeBars_rows, List.getElem?_map] at written
  obtain ⟨trade, inLog, rfl⟩ := Option.map_eq_some_iff.mp written
  have inside : k < (acceptedBy bars bars.length).length := by
    rw [rounds.length_eq]
    exact (List.getElem?_eq_some_iff.mp inLog).1
  exact (rounds.fits (List.getElem?_eq_getElem inside) inLog).tradeId

/-- The numbers run out with the row 2^31. -/
theorem rowsNumbered_iff (bars : List Bar) :
    RowsNumbered bars ↔ (runBacktest bars).logs.trades.length < 2 ^ 31 := by
  constructor
  · intro numbered
    by_contra long
    have inside : 2 ^ 31 - 1 < (runBacktest bars).logs.trades.length := by omega
    have last := List.getElem?_eq_getElem inside
    have number := numbered _ _ last
    have most := Int32.toInt_lt (runBacktest bars).logs.trades[2 ^ 31 - 1].tradeId
    rw [number] at most
    norm_num at most
  · intro short k row written
    have inside := (List.getElem?_eq_some_iff.mp written).1
    rw [row_tradeId written, Int32.toInt_ofNat_of_lt (by omega)]
    push_cast
    rfl

/-- Every trade was a retest behind the window. -/
theorem trades_length_le (bars : List Bar) :
    (runBacktest bars).logs.trades.length ≤ bars.length - lookback := by
  have agrees := tally_agrees bars
  have bounded := (tally_bounded bars).1
  rw [← agrees.trades]
  rw [agrees.retests] at bounded
  exact (Nat.le_add_right _ _).trans bounded

/-- The rows carry the accepted intents in every run, and are numbered one after the other
as long as an `int` holds the numbers. -/
theorem trades_match_intents (bars : List Bar) :
    TradesMatchIntents bars ∧
      (RowsNumbered bars ↔ (runBacktest bars).logs.trades.length < 2 ^ 31) ∧
      (bars.length < 2 ^ 31 + 20 → RowsNumbered bars) := by
  refine ⟨rows_match bars, rowsNumbered_iff bars, fun short => (rowsNumbered_iff bars).mpr ?_⟩
  have few : (runBacktest bars).logs.trades.length ≤ bars.length - 20 := trades_length_le bars
  omega

end PrismPipeline.Backtest
