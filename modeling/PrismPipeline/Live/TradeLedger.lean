import Mathlib.Algebra.BigOperators.Group.List.Basic
import PrismPipeline.Live.TradeManager

/-!
# The R multiples of the trade log

The manager adds up R multiples as it closes trades, and writes each trade's prices
to the log.  This file compares the total with what the logged prices imply.
-/

namespace PrismPipeline.Live

open PrismPipeline.Machine

namespace CsvRow

/-- The R multiple the prices of a row imply. -/
def impliedR (row : CsvRow) : ℚ := (row.exit - row.entry) / (row.entry - row.initialStop)

/-- The R multiple by the rule of the code: a stop at breakeven counts for nothing,
at whatever price it was filled. -/
def settledR (row : CsvRow) : ℚ :=
  if row.exitReason = ExitReason.breakevenStop.text then 0 else row.impliedR

end CsvRow

namespace TradeManager

/-- The rows of the closed trades, in order. -/
def rows (m : TradeManager) : List CsvRow := m.closedTrades.map ManagedTrade.csvRow

/-- The books of a manager. -/
structure Ledger (opened : Bool) (m : TradeManager) : Prop where
  risk : m.state = .longOpen →
    m.trade.initialRisk = m.trade.entryPrice - m.trade.initialStopLoss ∧ 0 < m.trade.initialRisk
  recorded : ∀ row ∈ m.rows, row.rMultiple = row.settledR
  gross : m.grossR = (m.rows.map CsvRow.rMultiple).sum
  written : m.csv = if opened then some m.rows else none

theorem ledger_fresh (opened : Bool) : Ledger opened (fresh opened) where
  risk := fun isOpen => by cases isOpen
  recorded := fun row member => absurd member List.not_mem_nil
  gross := rfl
  written := rfl

/-- A settled trade is recorded by the rule. -/
theorem settle_recorded {t : ManagedTrade} (price : ℚ) (reason : ExitReason)
    (riskEq : t.initialRisk = t.entryPrice - t.initialStopLoss) (risk : 0 < t.initialRisk) :
    (t.settle price reason).csvRow.rMultiple = (t.settle price reason).csvRow.settledR := by
  have marked : (t.settle price reason).csvRow.exitReason = ExitReason.breakevenStop.text ↔
      reason = .breakevenStop := ExitReason.text_injective.eq_iff
  unfold CsvRow.settledR
  by_cases breakeven : reason = .breakevenStop
  · rw [if_pos (marked.mpr breakeven)]
    exact if_pos breakeven
  · rw [if_neg (mt marked.mp breakeven)]
    have implied : (t.settle price reason).rMultiple = (price - t.entryPrice) / t.initialRisk :=
      (if_neg breakeven).trans (if_pos risk)
    rw [riskEq] at implied
    exact implied

section Step

variable {opened : Bool} {m : TradeManager}

theorem Ledger.touched (books : Ledger opened m) (price : ℚ) : Ledger opened (m.touched price) := by
  refine ⟨fun isOpen => ?_, books.recorded, books.gross, books.written⟩
  obtain ⟨hit, stop, eq⟩ := touchTarget1_frame m.trade price
  have risk := books.risk isOpen
  unfold TradeManager.touched
  rwa [eq]

theorem rows_closeTrade (price : ℚ) (reason : ExitReason) :
    (m.closeTrade price reason).rows = m.rows ++ [(m.trade.settle price reason).csvRow] :=
  List.map_append

/-- Closing a trade books it. -/
theorem Ledger.close (books : Ledger opened m) (isOpen : m.state = .longOpen) (price : ℚ)
    (reason : ExitReason) : Ledger opened (m.closeTrade price reason) := by
  obtain ⟨riskEq, risk⟩ := books.risk isOpen
  refine ⟨fun stillOpen => PositionState.noConfusion stillOpen, ?_, ?_, ?_⟩
  · rw [rows_closeTrade, List.forall_mem_append, List.forall_mem_singleton]
    exact ⟨books.recorded, settle_recorded price reason riskEq risk⟩
  · rw [rows_closeTrade, List.map_append, List.sum_append, ← books.gross]
    simp only [List.map_singleton, List.sum_singleton]
    rfl
  · rw [rows_closeTrade]
    change m.csv.map _ = _
    rw [books.written]
    cases opened <;> rfl

theorem Ledger.onPrice (books : Ledger opened m) (price : ℚ) : Ledger opened (m.onPrice price) := by
  have effect := m.onPrice_effect price
  generalize m.onPrice price = next at *
  cases effect with
  | flat => exact books
  | holds => exact books.touched price
  | wins isOpen => exact (books.touched price).close isOpen price _
  | stops isOpen => exact (books.touched price).close isOpen price _

theorem Ledger.onSignal (books : Ledger opened m) (signal : PrismSignal) :
    Ledger opened (m.onSignal signal) := by
  have effect := m.onSignal_effect signal
  generalize m.onSignal signal = next at *
  cases effect with
  | ignored => exact books
  | opens _ _ risk =>
      exact ⟨fun _ => ⟨rfl, sub_pos.mpr risk⟩, books.recorded, books.gross, books.written⟩

end Step

end TradeManager

theorem managerAfter_ledger (opened : Bool) (calls : List ManagerCall) :
    TradeManager.Ledger opened (managerAfter opened calls) := by
  refine managerMachine.after_invariant _ (TradeManager.ledger_fresh opened) ?_ calls
  intro m call books
  cases call with
  | onSignal signal => exact books.onSignal signal
  | onPrice price => exact books.onPrice price

/-- The realised total.  After any calls, the log holds the rows of the closed trades,
each row records the R multiple the rule gives for its own prices, and the total is
their sum: the one the prices imply, except that a stop at breakeven counts zero. -/
theorem grossR_eq_settledR (calls : List ManagerCall) :
    ∃ rows, (managerAfter true calls).csv = some rows ∧
      rows = (managerAfter true calls).closedTrades.map ManagedTrade.csvRow ∧
      (∀ row ∈ rows, row.rMultiple = row.settledR) ∧
      (managerAfter true calls).grossR = (rows.map CsvRow.settledR).sum := by
  have books := managerAfter_ledger true calls
  refine ⟨_, books.written, rfl, books.recorded, ?_⟩
  rw [books.gross, List.map_congr_left books.recorded]

/-- A trade that reaches target 1 and is stopped below its entry. -/
def gapThroughBreakeven : List ManagerCall :=
  [.onSignal
      { active := true, entryPrice := 100, stopLoss := 90, target1 := 115, target2 := 125 },
    .onPrice 115, .onPrice 95]

/-- Its prices imply a loss of half an R, the total says zero. -/
theorem gapThroughBreakeven_grossR :
    (managerAfter true gapThroughBreakeven).grossR ≠
      ((managerAfter true gapThroughBreakeven).rows.map CsvRow.impliedR).sum := by
  decide +kernel

end PrismPipeline.Live
