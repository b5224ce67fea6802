import Mathlib.Algebra.Order.Field.Rat
import Mathlib.Order.Basic
import PrismPipeline.Live.TradeLedger

/-!
# The books of the trade manager

Counters, ids, the position and the log rows are moved by three functions.  The books
relate all of them to the list of closed trades, and a closed trade is classified by
the sign of its R multiple, which the counters and the text of its row both read.
-/

namespace PrismPipeline.Live

open PrismPipeline.Machine

/-- The class of a closed trade, by the sign of its R multiple. -/
inductive TradeResult where
  | win
  | loss
  | breakeven
  deriving DecidableEq, Repr

namespace TradeResult

def text : TradeResult → String
  | win => "WIN"
  | loss => "LOSS"
  | breakeven => "BREAKEVEN"

theorem text_injective : Function.Injective text := by
  intro a b same
  cases a <;> cases b <;> first | rfl | exact absurd same (by decide)

def of (rMultiple : ℚ) : TradeResult :=
  if 0 < rMultiple then win else if rMultiple < 0 then loss else breakeven

theorem of_eq_win {r : ℚ} : of r = win ↔ 0 < r := by
  unfold of
  split
  · next positive => exact iff_of_true rfl positive
  next notPositive =>
  split <;> exact iff_of_false nofun notPositive

theorem of_eq_loss {r : ℚ} : of r = loss ↔ r < 0 := by
  unfold of
  split
  · next positive => exact iff_of_false nofun positive.not_gt
  split
  · next negative => exact iff_of_true rfl negative
  · next notNegative => exact iff_of_false nofun notNegative

theorem of_eq_breakeven {r : ℚ} : of r = breakeven ↔ r = 0 := by
  unfold of
  split
  · next positive => exact iff_of_false nofun positive.ne'
  next notPositive =>
  split
  · next negative => exact iff_of_false nofun negative.ne
  · next notNegative => exact iff_of_true rfl (le_antisymm (not_lt.mp notPositive)
      (not_lt.mp notNegative))

/-- The text of a row is that of the class of its trade. -/
theorem resultText_eq (r : ℚ) : resultText r = (of r).text := by
  unfold resultText of
  split
  · rfl
  split <;> rfl

end TradeResult

namespace TradeManager

/-- What a manager shows after any calls. -/
structure Bookkeeping (opened : Bool) (m : TradeManager) : Prop where
  total : m.totalTrades = m.wins + m.losses + m.breakevens
  nextId : m.nextTradeId = m.totalTrades + 1 + m.hasOpenTrade.toNat
  ids : m.closedTrades.map ManagedTrade.tradeId = List.range' 1 m.totalTrades
  gross : m.grossR = (m.closedTrades.map ManagedTrade.rMultiple).sum
  wins : m.wins = m.closedTrades.countP fun t => 0 < t.rMultiple
  losses : m.losses = m.closedTrades.countP fun t => t.rMultiple < 0
  breakevens : m.breakevens = m.closedTrades.countP fun t => t.rMultiple = 0
  log : m.csv = if opened then some (m.closedTrades.map ManagedTrade.csvRow) else none
  texts : ∀ t ∈ m.closedTrades, (t.csvRow.result = "WIN" ↔ 0 < t.rMultiple) ∧
    (t.csvRow.result = "LOSS" ↔ t.rMultiple < 0) ∧
    (t.csvRow.result = "BREAKEVEN" ↔ t.rMultiple = 0)
  winRows : m.wins =
    (m.closedTrades.map ManagedTrade.csvRow).countP fun row => row.result = "WIN"
  lossRows : m.losses =
    (m.closedTrades.map ManagedTrade.csvRow).countP fun row => row.result = "LOSS"
  breakevenRows : m.breakevens =
    (m.closedTrades.map ManagedTrade.csvRow).countP fun row => row.result = "BREAKEVEN"
  risk_pos : m.hasOpenTrade = true → 0 < m.trade.initialRisk

/-- Calls that find nothing to do. -/
structure Inert (m : TradeManager) : Prop where
  busy : ∀ signal, m.hasOpenTrade = true → m.onSignal signal = m
  inactive : ∀ signal, signal.active = false → m.onSignal signal = m
  riskless : ∀ signal, signal.entryPrice - signal.stopLoss ≤ 0 → m.onSignal signal = m
  flat : ∀ price, m.hasOpenTrade = false → m.onPrice price = m

/-! ## Counting -/

/-- Number of closed trades of one class. -/
def countResult (m : TradeManager) (result : TradeResult) : ℕ :=
  m.closedTrades.countP fun t => TradeResult.of t.rMultiple = result

/-- Counters and ids against the closed trades and the open one. -/
structure Tallied (m : TradeManager) : Prop where
  total : m.totalTrades = m.closedTrades.length
  wins : m.wins = m.countResult .win
  losses : m.losses = m.countResult .loss
  breakevens : m.breakevens = m.countResult .breakeven
  ids : m.closedTrades.map ManagedTrade.tradeId = List.range' 1 m.totalTrades
  nextId : m.nextTradeId = m.totalTrades + 1 + m.hasOpenTrade.toNat
  openId : m.hasOpenTrade = true → m.trade.tradeId = m.totalTrades + 1

theorem tallied_fresh (opened : Bool) : Tallied (fresh opened) where
  total := rfl
  wins := rfl
  losses := rfl
  breakevens := rfl
  ids := rfl
  nextId := rfl
  openId := fun isOpen => by cases isOpen

section Step

variable {m : TradeManager}

theorem hasOpenTrade_iff : m.hasOpenTrade = true ↔ m.state = .longOpen := decide_eq_true_iff

theorem hasOpenTrade_false_iff : m.hasOpenTrade = false ↔ m.state = .flat := by
  unfold hasOpenTrade
  cases m.state <;> decide

/-- The counter of the class of the settled trade goes up by one, the others stay. -/
theorem countResult_closeTrade (price : ℚ) (reason : ExitReason) (result : TradeResult) :
    (m.closeTrade price reason).countResult result = m.countResult result +
      if TradeResult.of (m.trade.settle price reason).rMultiple = result then 1 else 0 := by
  have closed : (m.closeTrade price reason).closedTrades =
      m.closedTrades ++ [m.trade.settle price reason] := rfl
  unfold countResult
  rw [closed, List.countP_append, List.countP_singleton]
  simp only [decide_eq_true_eq]

theorem Tallied.touched (tally : Tallied m) (price : ℚ) : Tallied (m.touched price) := by
  refine ⟨tally.total, tally.wins, tally.losses, tally.breakevens, tally.ids, tally.nextId,
    fun isOpen => ?_⟩
  exact (touchTarget1_tradeId m.trade price).trans (tally.openId isOpen)

theorem Tallied.close (tally : Tallied m) (isOpen : m.state = .longOpen) (price : ℚ)
    (reason : ExitReason) : Tallied (m.closeTrade price reason) := by
  have busy : m.hasOpenTrade = true := hasOpenTrade_iff.mpr isOpen
  have nextId := tally.nextId
  rw [busy] at nextId
  refine ⟨?_, ?_, ?_, ?_, ?_, nextId, fun stillOpen => Bool.noConfusion stillOpen⟩
  · change m.totalTrades + 1 = (m.closedTrades ++ [_]).length
    rw [List.length_append, tally.total]
    rfl
  · rw [countResult_closeTrade, ← tally.wins]
    change (if 0 < (m.trade.settle price reason).rMultiple then m.wins + 1 else m.wins) = _
    split
    · next positive => rw [if_pos (TradeResult.of_eq_win.mpr positive)]
    · next other => rw [if_neg fun won => other (TradeResult.of_eq_win.mp won), Nat.add_zero]
  · rw [countResult_closeTrade, ← tally.losses]
    change (if (m.trade.settle price reason).rMultiple < 0 then m.losses + 1 else m.losses) = _
    split
    · next negative => rw [if_pos (TradeResult.of_eq_loss.mpr negative)]
    · next other => rw [if_neg fun lost => other (TradeResult.of_eq_loss.mp lost), Nat.add_zero]
  · rw [countResult_closeTrade, ← tally.breakevens]
    change (if 0 < (m.trade.settle price reason).rMultiple ∨
      (m.trade.settle price reason).rMultiple < 0 then m.breakevens else m.breakevens + 1) = _
    split
    · next signed =>
        have notEven : TradeResult.of (m.trade.settle price reason).rMultiple ≠ .breakeven :=
          fun even => (lt_or_lt_iff_ne.mp signed.symm) (TradeResult.of_eq_breakeven.mp even)
        rw [if_neg notEven, Nat.add_zero]
    · next unsigned =>
        have even : (m.trade.settle price reason).rMultiple = 0 :=
          not_not.mp fun nonzero => unsigned (lt_or_lt_iff_ne.mpr nonzero).symm
        rw [if_pos (TradeResult.of_eq_breakeven.mpr even)]
  · change (m.closedTrades ++ [m.trade.settle price reason]).map ManagedTrade.tradeId =
      List.range' 1 (m.totalTrades + 1)
    have id : (m.trade.settle price reason).tradeId = 1 + 1 * m.totalTrades := by
      rw [one_mul, Nat.add_comm]
      exact tally.openId busy
    rw [List.map_append, List.map_singleton, tally.ids, List.range'_concat, id]

theorem Tallied.onPrice (tally : Tallied m) (price : ℚ) : Tallied (m.onPrice price) := by
  have effect := m.onPrice_effect price
  generalize m.onPrice price = next at *
  cases effect with
  | flat => exact tally
  | holds => exact tally.touched price
  | wins isOpen => exact (tally.touched price).close isOpen price _
  | stops isOpen => exact (tally.touched price).close isOpen price _

theorem Tallied.onSignal (tally : Tallied m) (signal : PrismSignal) :
    Tallied (m.onSignal signal) := by
  have effect := m.onSignal_effect signal
  generalize m.onSignal signal = next at *
  cases effect with
  | ignored => exact tally
  | opens _ flat =>
      have nextId := tally.nextId
      rw [hasOpenTrade_false_iff.mpr flat] at nextId
      refine ⟨tally.total, tally.wins, tally.losses, tally.breakevens, tally.ids, ?_,
        fun _ => nextId⟩
      exact congrArg (· + 1) nextId

/-- A row shows the class of its trade. -/
theorem csvRow_result (t : ManagedTrade) (result : TradeResult) :
    t.csvRow.result = result.text ↔ TradeResult.of t.rMultiple = result := by
  have shown : t.csvRow.result = (TradeResult.of t.rMultiple).text :=
    TradeResult.resultText_eq t.rMultiple
  rw [shown]
  exact TradeResult.text_injective.eq_iff

theorem countResult_eq_rows (m : TradeManager) (result : TradeResult) :
    m.countResult result = (m.closedTrades.map ManagedTrade.csvRow).countP
      fun row => row.result = result.text := by
  unfold countResult
  rw [List.countP_map]
  refine List.countP_congr fun t _ => ?_
  simp only [Function.comp_apply, csvRow_result]

/-- The three classes are disjoint and exhaust the closed trades. -/
theorem countResult_sum (m : TradeManager) :
    m.closedTrades.length =
      m.countResult .win + m.countResult .loss + m.countResult .breakeven := by
  unfold countResult
  induction m.closedTrades with
  | nil => rfl
  | cons t rest ih =>
      rw [List.length_cons, ih, List.countP_cons, List.countP_cons, List.countP_cons]
      cases TradeResult.of t.rMultiple <;> simp <;> omega

/-- A signal that may not open a trade changes nothing. -/
theorem onSignal_refused {signal : PrismSignal}
    (refused : signal.active = true → m.state = .flat →
      ¬ signal.stopLoss < signal.entryPrice) : m.onSignal signal = m := by
  have effect := m.onSignal_effect signal
  generalize m.onSignal signal = next at *
  cases effect with
  | ignored => rfl
  | opens active flat risk => exact absurd risk (refused active flat)

theorem inert (m : TradeManager) : Inert m := by
  constructor
  · intro signal busy
    apply onSignal_refused
    intro _ flat
    exact absurd ((hasOpenTrade_false_iff.mpr flat).symm.trans busy) Bool.false_ne_true
  · intro signal inactive
    apply onSignal_refused
    intro active
    exact absurd (inactive.symm.trans active) Bool.false_ne_true
  · intro signal riskless
    apply onSignal_refused
    intro _ _ risk
    exact absurd (sub_nonpos.mp riskless) (not_le.mpr risk)
  · intro price flat
    apply if_pos
    intro isOpen
    exact PositionState.noConfusion ((hasOpenTrade_false_iff.mp flat).symm.trans isOpen)

end Step

end TradeManager

theorem managerAfter_tallied (opened : Bool) (calls : List ManagerCall) :
    TradeManager.Tallied (managerAfter opened calls) := by
  refine managerMachine.after_invariant _ (TradeManager.tallied_fresh opened) ?_ calls
  intro m call tally
  cases call with
  | onSignal signal => exact tally.onSignal signal
  | onPrice price => exact tally.onPrice price

/-- After any calls the books of the manager are in order, and the calls that find
nothing to do leave it as it is. -/
theorem managerAfter_bookkeeping (opened : Bool) (calls : List ManagerCall) :
    TradeManager.Bookkeeping opened (managerAfter opened calls) ∧
      TradeManager.Inert (managerAfter opened calls) := by
  have tally := managerAfter_tallied opened calls
  have ledger := managerAfter_ledger opened calls
  generalize managerAfter opened calls = m at *
  have signs : (m.countResult .win = m.closedTrades.countP fun t => 0 < t.rMultiple) ∧
      (m.countResult .loss = m.closedTrades.countP fun t => t.rMultiple < 0) ∧
      (m.countResult .breakeven = m.closedTrades.countP fun t => t.rMultiple = 0) := by
    simp only [TradeManager.countResult, TradeResult.of_eq_win, TradeResult.of_eq_loss,
      TradeResult.of_eq_breakeven, and_self]
  refine ⟨?_, m.inert⟩
  exact
    { total := by
        rw [tally.total, tally.wins, tally.losses, tally.breakevens]
        exact m.countResult_sum
      nextId := tally.nextId
      ids := tally.ids
      gross := by
        rw [ledger.gross, TradeManager.rows, List.map_map]
        rfl
      wins := tally.wins.trans signs.1
      losses := tally.losses.trans signs.2.1
      breakevens := tally.breakevens.trans signs.2.2
      log := ledger.written
      texts := fun t _ =>
        ⟨(TradeManager.csvRow_result t .win).trans TradeResult.of_eq_win,
          (TradeManager.csvRow_result t .loss).trans TradeResult.of_eq_loss,
          (TradeManager.csvRow_result t .breakeven).trans TradeResult.of_eq_breakeven⟩
      winRows := tally.wins.trans (m.countResult_eq_rows .win)
      lossRows := tally.losses.trans (m.countResult_eq_rows .loss)
      breakevenRows := tally.breakevens.trans (m.countResult_eq_rows .breakeven)
      risk_pos := fun busy => (ledger.risk (TradeManager.hasOpenTrade_iff.mp busy)).2 }

end PrismPipeline.Live
