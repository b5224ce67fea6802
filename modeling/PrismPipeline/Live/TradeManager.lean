import PrismPipeline.Live.Engine

/-!
# The trade manager

`TradeManager` opens a position on a signal and closes it on prices.  Prices and R
multiples are exact rationals.  The ids and the counters of type `uint64_t` are natural
numbers: each goes up by one at most for a packet, and no program handles 2^64 packets.
`csv` holds the rows written to the log, or nothing when the file could not be opened;
`closedTrades` is a trace of the records closed so far and not a variable of the source.
-/

namespace PrismPipeline.Live

open PrismPipeline.Machine

inductive PositionState where
  | flat
  | longOpen
  deriving Inhabited, DecidableEq, Repr

inductive ExitReason where
  | target2Hit
  | stopLoss
  | breakevenStop
  deriving DecidableEq, Repr

def ExitReason.text : ExitReason → String
  | target2Hit => "TARGET2_HIT"
  | stopLoss => "STOP_LOSS"
  | breakevenStop => "BREAKEVEN_STOP"

theorem ExitReason.text_injective : Function.Injective ExitReason.text := by
  intro a b same
  cases a <;> cases b <;> first | rfl | exact absurd same (by decide)

structure ManagedTrade where
  tradeId : ℕ := 0
  entryPrice : ℚ := 0
  stopLoss : ℚ := 0
  initialStopLoss : ℚ := 0
  initialRisk : ℚ := 0
  target1 : ℚ := 0
  target2 : ℚ := 0
  exitPrice : ℚ := 0
  rMultiple : ℚ := 0
  target1Hit : Bool := false
  closed : Bool := false
  entryReason : String := ""
  exitReason : Option ExitReason := none
  deriving Inhabited, DecidableEq

/-- A row of `trade_log.csv`. -/
structure CsvRow where
  tradeId : ℕ
  entry : ℚ
  exit : ℚ
  initialStop : ℚ
  finalStop : ℚ
  target1 : ℚ
  target2 : ℚ
  rMultiple : ℚ
  result : String
  entryReason : String
  exitReason : String
  deriving DecidableEq

structure TradeManager where
  state : PositionState := .flat
  trade : ManagedTrade := {}
  nextTradeId : ℕ := 1
  totalTrades : ℕ := 0
  wins : ℕ := 0
  losses : ℕ := 0
  breakevens : ℕ := 0
  grossR : ℚ := 0
  csv : Option (List CsvRow) := none
  closedTrades : List ManagedTrade := []
  deriving DecidableEq

/-- The text `write_trade_close_csv` chooses by the sign of the R multiple. -/
def resultText (rMultiple : ℚ) : String :=
  if 0 < rMultiple then "WIN" else if rMultiple < 0 then "LOSS" else "BREAKEVEN"

namespace ManagedTrade

def csvRow (t : ManagedTrade) : CsvRow where
  tradeId := t.tradeId
  entry := t.entryPrice
  exit := t.exitPrice
  initialStop := t.initialStopLoss
  finalStop := t.stopLoss
  target1 := t.target1
  target2 := t.target2
  rMultiple := t.rMultiple
  result := resultText t.rMultiple
  entryReason := t.entryReason
  exitReason := (t.exitReason.map ExitReason.text).getD ""

/-- The record after the exit fields and the R multiple are filled in. -/
def settle (t : ManagedTrade) (price : ℚ) (reason : ExitReason) : ManagedTrade :=
  let implied :=
    if 0 < t.initialRisk then (price - t.entryPrice) / t.initialRisk else t.rMultiple
  { t with
    closed := true
    exitPrice := price
    exitReason := some reason
    rMultiple := if reason = .breakevenStop then 0 else implied }

/-- Target 1 moves the stop to the entry, once. -/
def touchTarget1 (t : ManagedTrade) (price : ℚ) : ManagedTrade :=
  if ¬ t.target1Hit ∧ t.target1 ≤ price then
    { t with target1Hit := true, stopLoss := t.entryPrice }
  else t

end ManagedTrade

namespace TradeManager

/-- A manager just constructed, with or without its log file. -/
def fresh (opened : Bool) : TradeManager := { csv := if opened then some [] else none }

def writeTradeCloseCsv (m : TradeManager) : TradeManager :=
  { m with csv := m.csv.map fun rows => rows ++ [m.trade.csvRow] }

def closeTrade (m : TradeManager) (price : ℚ) (reason : ExitReason) : TradeManager :=
  let trade := m.trade.settle price reason
  let booked :=
    { m with
      trade := trade
      totalTrades := m.totalTrades + 1
      grossR := m.grossR + trade.rMultiple
      wins := if 0 < trade.rMultiple then m.wins + 1 else m.wins
      losses := if trade.rMultiple < 0 then m.losses + 1 else m.losses
      breakevens := if 0 < trade.rMultiple ∨ trade.rMultiple < 0 then m.breakevens
        else m.breakevens + 1
      closedTrades := m.closedTrades ++ [trade] }
  { booked.writeTradeCloseCsv with state := .flat }

/-- The record `on_signal` sets up. -/
def openedTrade (m : TradeManager) (signal : PrismSignal) : ManagedTrade where
  tradeId := m.nextTradeId
  entryPrice := signal.entryPrice
  stopLoss := signal.stopLoss
  initialStopLoss := signal.stopLoss
  initialRisk := signal.entryPrice - signal.stopLoss
  target1 := signal.target1
  target2 := signal.target2
  entryReason := signal.reason

def openTrade (m : TradeManager) (signal : PrismSignal) : TradeManager :=
  { m with
    trade := m.openedTrade signal
    nextTradeId := m.nextTradeId + 1
    state := .longOpen }

def onSignal (m : TradeManager) (signal : PrismSignal) : TradeManager :=
  if ¬ signal.active then m
  else if m.state ≠ .flat then m
  else if signal.entryPrice - signal.stopLoss ≤ 0 then m
  else m.openTrade signal

def onPrice (m : TradeManager) (price : ℚ) : TradeManager :=
  if m.state ≠ .longOpen then m
  else
    let m := { m with trade := m.trade.touchTarget1 price }
    if m.trade.target2 ≤ price then m.closeTrade price .target2Hit
    else if price ≤ m.trade.stopLoss then
      m.closeTrade price (if m.trade.target1Hit then .breakevenStop else .stopLoss)
    else m

def hasOpenTrade (m : TradeManager) : Bool := m.state = .longOpen

/-! ## What one call can do -/

/-- The open trade as a price finds it, after the target 1 test. -/
def touched (m : TradeManager) (price : ℚ) : TradeManager :=
  { m with trade := m.trade.touchTarget1 price }

/-- The reason of a stop: the stop stands at the entry once target 1 was reached. -/
def stopReason (t : ManagedTrade) : ExitReason :=
  if t.target1Hit then .breakevenStop else .stopLoss

/-- Effects of a signal. -/
inductive SignalEffect (m : TradeManager) (signal : PrismSignal) : TradeManager → Prop where
  | ignored (refused : signal.active = false ∨ m.state = .longOpen ∨
      signal.entryPrice ≤ signal.stopLoss) : SignalEffect m signal m
  | opens (active : signal.active = true) (flat : m.state = .flat)
      (risk : signal.stopLoss < signal.entryPrice) :
      SignalEffect m signal (m.openTrade signal)

theorem onSignal_effect (m : TradeManager) (signal : PrismSignal) :
    SignalEffect m signal (m.onSignal signal) := by
  unfold onSignal
  split
  · next inactive => exact .ignored (Or.inl (Bool.eq_false_iff.mpr inactive))
  next active =>
  split
  · next busy =>
      refine .ignored (Or.inr (Or.inl ?_))
      cases phase : m.state with
      | flat => exact absurd phase busy
      | longOpen => rfl
  next flat =>
  split
  · next worthless => exact .ignored (Or.inr (Or.inr (sub_nonpos.mp worthless)))
  · next risk => exact .opens (not_not.mp active) (not_not.mp flat) (sub_pos.mp (not_le.mp risk))

/-- Effects of a price. -/
inductive PriceEffect (m : TradeManager) (price : ℚ) : TradeManager → Prop where
  | flat (isFlat : m.state = .flat) : PriceEffect m price m
  | holds (isOpen : m.state = .longOpen) (below : price < m.trade.target2)
      (above : (m.trade.touchTarget1 price).stopLoss < price) :
      PriceEffect m price (m.touched price)
  | wins (isOpen : m.state = .longOpen) (reached : m.trade.target2 ≤ price) :
      PriceEffect m price ((m.touched price).closeTrade price .target2Hit)
  | stops (isOpen : m.state = .longOpen) (below : price < m.trade.target2)
      (stopped : price ≤ (m.trade.touchTarget1 price).stopLoss) :
      PriceEffect m price
        ((m.touched price).closeTrade price (stopReason (m.trade.touchTarget1 price)))

/-- A price changes nothing of an open trade but its stop and its target 1 flag. -/
theorem touchTarget1_frame (t : ManagedTrade) (price : ℚ) :
    ∃ hit stop, t.touchTarget1 price = { t with target1Hit := hit, stopLoss := stop } := by
  unfold ManagedTrade.touchTarget1
  split
  · exact ⟨true, t.entryPrice, rfl⟩
  · exact ⟨t.target1Hit, t.stopLoss, rfl⟩

theorem touchTarget1_target2 (t : ManagedTrade) (price : ℚ) :
    (t.touchTarget1 price).target2 = t.target2 := by
  obtain ⟨hit, stop, eq⟩ := touchTarget1_frame t price
  rw [eq]

theorem touchTarget1_tradeId (t : ManagedTrade) (price : ℚ) :
    (t.touchTarget1 price).tradeId = t.tradeId := by
  obtain ⟨hit, stop, eq⟩ := touchTarget1_frame t price
  rw [eq]

theorem onPrice_effect (m : TradeManager) (price : ℚ) :
    PriceEffect m price (m.onPrice price) := by
  unfold onPrice
  split
  · next notOpen =>
      refine .flat ?_
      cases phase : m.state with
      | flat => rfl
      | longOpen => exact absurd phase notOpen
  next isOpen =>
  rw [not_not] at isOpen
  dsimp only
  rw [touchTarget1_target2]
  split
  · next reached => exact .wins isOpen reached
  next below =>
  split
  · next stopped => exact .stops isOpen (not_le.mp below) stopped
  · next above => exact .holds isOpen (not_le.mp below) (not_le.mp above)

end TradeManager

/-- A call of the manager. -/
inductive ManagerCall where
  | onSignal (signal : PrismSignal)
  | onPrice (price : ℚ)

/-- The manager as a machine; its calls return nothing. -/
def managerMachine : Mealy TradeManager ManagerCall Unit where
  step
    | m, .onSignal signal => m.onSignal signal
    | m, .onPrice price => m.onPrice price
  output _ _ := ()

/-- A fresh manager after a sequence of calls. -/
def managerAfter (opened : Bool) (calls : List ManagerCall) : TradeManager :=
  managerMachine.after (.fresh opened) calls

end PrismPipeline.Live
