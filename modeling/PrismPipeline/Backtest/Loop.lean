import PrismPipeline.Backtest.Score
import PrismPipeline.Machine.Loop

/-!
# The bar loop

The main loop of the backtest as a counted loop over the indices of the bars.
One pass over a bar scores it, runs the exit chain on an open trade and then,
when no trade is open, the entry gate: breakout detection, expiry of a pending
breakout, and the retest test with its list of rejections.  `zone_low`,
`zone_high` and `midpoint` are written before every read of the same pass, so
they are functions of the bar and of the level here.
-/

namespace PrismPipeline.Backtest

open PrismPipeline.Machine

def entryTtl : ℤ := 5
def tradeTtl : ℤ := 20
def atrMult : ℚ := 1.2

/-- `static_cast<int>` of a difference of two indices: 32 bits, two's complement. -/
def castInt (n : ℕ) : ℤ := (n : ℤ).bmod (2 ^ 32)

theorem castInt_of_lt {n : ℕ} (small : n < 2 ^ 31) : castInt n = n := by
  unfold castInt
  rw [Int.bmod_eq_of_le_mul_two] <;> omega

/-- The counters of `backtest_summary.json`, each an `int`. -/
structure Counters where
  breakouts : Int32 := 0
  retests : Int32 := 0
  entries : Int32 := 0
  reentries : Int32 := 0
  rejections : Int32 := 0
  invalidations : Int32 := 0
  expired : Int32 := 0
  t1hits : Int32 := 0
  t2hits : Int32 := 0
  stops : Int32 := 0
  timeexits : Int32 := 0
  deriving Inhabited, DecidableEq

/-- The four vectors the run appends to. -/
structure RunLogs where
  scores : List ScoreRow := []
  intents : List IntentLog := []
  trades : List TradeLog := []
  audit : List AuditEvent := []
  deriving Inhabited, DecidableEq

/-- Cumulative R of the closed trades, its peak, and the deepest fall below it. -/
structure Account where
  equity : ℚ := 0
  peakEquity : ℚ := 0
  maxDd : ℚ := 0
  deriving Inhabited, DecidableEq

/-- The mutable variables of the loop. -/
structure LoopState where
  logs : RunLogs := {}
  counters : Counters := {}
  account : Account := {}
  priorBreakout : Bool := false
  tradeOpen : Bool := false
  reentryUsed : Bool := false
  canReentry : Bool := false
  breakout : ℚ := 0
  entry : ℚ := 0
  stop : ℚ := 0
  t1 : ℚ := 0
  t2 : ℚ := 0
  R : ℚ := 0
  breakoutI : ℕ := 0
  entryI : ℕ := 0
  tradeId : Int32 := 0
  entryScore : ScoreRow := {}
  entryRegime : String := ""
  deriving Inhabited, DecidableEq

def LoopState.pushAudit (s : LoopState) (event : AuditEvent) : LoopState :=
  { s with logs := { s.logs with audit := s.logs.audit ++ [event] } }

/-! ## Exit chain -/

/-- The first exit test that holds, with the price the trade is closed at. -/
def exitTest (b : Bar) (i : ℕ) (s : LoopState) : Option (ExitReason × ℚ) :=
  if b.low ≤ s.stop then some (.stopHit, s.stop)
  else if s.t2 ≤ b.high then some (.target2Hit, s.t2)
  else if s.t1 ≤ b.high then some (.target1Hit, s.t1)
  else if b.close < s.breakout then some (.invalidCloseBelowBreakout, b.close)
  else if b.regime = "SHOCK" then some (.invalidRegimeShock, b.close)
  else if b.mseState = "TREND_DOWN" then some (.invalidMseTrendDown, b.close)
  else if b.mpsState = "BLOCK" then some (.invalidMpsBlock, b.close)
  else if tradeTtl ≤ castInt (i - s.entryI) then some (.timeExit, b.close)
  else none

def Counters.countExit (c : Counters) : ExitReason → Counters
  | .stopHit => { c with stops := c.stops + 1 }
  | .target2Hit => { c with t2hits := c.t2hits + 1 }
  | .target1Hit => { c with t1hits := c.t1hits + 1 }
  | .invalidCloseBelowBreakout | .invalidRegimeShock | .invalidMseTrendDown
  | .invalidMpsBlock => { c with invalidations := c.invalidations + 1 }
  | .timeExit => { c with timeexits := c.timeexits + 1 }
  | .dataEndExit => c

/-- The row written when the open trade is closed on bar `i`. -/
def tradeRow (bars : List Bar) (i : ℕ) (s : LoopState) (reason : ExitReason)
    (exitPrice : ℚ) : TradeLog where
  tradeId := s.tradeId
  entryTime := (barAt bars s.entryI).timestamp
  entryPrice := s.entry
  stopLoss := s.stop
  target1 := s.t1
  target2 := s.t2
  exitTime := (barAt bars i).timestamp
  exitPrice := exitPrice
  exitReason := reason
  rMultiple := (exitPrice - s.entry) / s.R
  setupScore := s.entryScore.setupScore
  regimeAtEntry := s.entryRegime
  holdingBars := castInt (i - s.entryI)

/-- Book the R multiple of a closed trade. -/
def Account.book (a : Account) (r : ℚ) : Account :=
  let equity := a.equity + r
  let peakEquity := max a.peakEquity equity
  { equity, peakEquity, maxDd := max a.maxDd (peakEquity - equity) }

def closeTrade (bars : List Bar) (i : ℕ) (reason : ExitReason) (exitPrice : ℚ)
    (s : LoopState) : LoopState :=
  let row := tradeRow bars i s reason exitPrice
  { s with
    counters := s.counters.countExit reason
    account := s.account.book row.rMultiple
    logs := { s.logs with
      trades := s.logs.trades ++ [row]
      audit := s.logs.audit ++ [.tradeExit (barAt bars i).timestamp reason s.tradeId] }
    tradeOpen := false
    canReentry := decide (reason = .stopHit ∨ reason = .timeExit) }

def exitStep (bars : List Bar) (i : ℕ) (s : LoopState) : LoopState :=
  if s.tradeOpen then
    match exitTest (barAt bars i) i s with
    | some (reason, exitPrice) => closeTrade bars i reason exitPrice s
    | none => s
  else s

/-! ## Entry gate -/

/-- The close crosses the running maximum of the bars before. -/
def newBreakout (bars : List Bar) (i : ℕ) : Prop :=
  (barAt bars (i - 1)).close ≤ prevHigh bars i ∧ prevHigh bars i < (barAt bars i).close

instance (bars : List Bar) (i : ℕ) : Decidable (newBreakout bars i) :=
  inferInstanceAs (Decidable (_ ∧ _))

def detectBreakout (bars : List Bar) (i : ℕ) (s : LoopState) : LoopState :=
  if newBreakout bars i then
    { s with
      priorBreakout := true
      breakout := prevHigh bars i
      breakoutI := i
      counters := { s.counters with breakouts := s.counters.breakouts + 1 }
      canReentry := false
      reentryUsed := false }.pushAudit
        (.breakout (barAt bars i).timestamp (prevHigh bars i))
  else s

def expireBreakout (bars : List Bar) (i : ℕ) (s : LoopState) : LoopState :=
  if s.priorBreakout = true ∧ entryTtl < castInt (i - s.breakoutI) then
    { s with
      priorBreakout := false
      counters := { s.counters with expired := s.counters.expired + 1 } }.pushAudit
        (.entryExpired (barAt bars i).timestamp)
  else s

def eligibleWindow (i : ℕ) (s : LoopState) : Prop :=
  s.priorBreakout = true ∨
    (s.canReentry = true ∧ s.reentryUsed = false ∧
      castInt (i - s.breakoutI) ≤ entryTtl + 10)

instance (i : ℕ) (s : LoopState) : Decidable (eligibleWindow i s) :=
  inferInstanceAs (Decidable (_ ∨ _))

def zoneLow (b : Bar) (level : ℚ) : ℚ := level - 0.10 * b.atr14
def zoneHigh (b : Bar) (level : ℚ) : ℚ := level + 0.10 * b.atr14
def midpoint (b : Bar) (level : ℚ) : ℚ := (zoneLow b level + zoneHigh b level) / 2

def isRetest (b : Bar) (level : ℚ) : Prop :=
  b.low ≤ zoneHigh b level ∧ zoneLow b level ≤ b.high

instance (b : Bar) (level : ℚ) : Decidable (isRetest b level) :=
  inferInstanceAs (Decidable (_ ∧ _))

/-- Entry, stop, risk and targets of a retest on bar `b`; they are written
whether the retest is taken or not. -/
def setLevels (b : Bar) (s : LoopState) : LoopState :=
  let entry := b.close
  let stop := min (entry - b.atr14 * atrMult) (zoneLow b s.breakout)
  let R := entry - stop
  { s with entry, stop, R, t1 := entry + 1.5 * R, t2 := entry + 2.5 * R }

/-- The reasons against a retest on bar `i`; `s` already carries its levels. -/
def rejectReasons (bars : List Bar) (i : ℕ) (sc : ScoreRow) (s : LoopState) :
    List RejectReason :=
  let b := barAt bars i
  let tests : List (Bool × RejectReason) :=
    [(!decide (midpoint b s.breakout < b.close), .closeBelowRetestMidpoint),
      (!decide (b.vwap < b.close), .closeBelowVwap),
      (!decide (0.60 ≤ closePos b), .closePositionLt),
      (!decide (6.5 ≤ sc.setupScore), .setupScoreLt),
      (!decide (0.60 ≤ b.liquidityScore), .liquidityLt),
      (!decide (1.20 ≤ volRatio bars i), .volumeRatioLt),
      (!decide (b.spreadPct ≤ 0.50), .spreadGt),
      (decide (b.mpsState = "BLOCK"), .mpsBlock),
      (decide (b.regime = "SHOCK"), .regimeShock),
      (decide (b.mseState = "TREND_DOWN"), .mseTrendDown),
      (decide (s.R ≤ 0), .riskNotPositive)]
  (tests.filter Prod.fst).map Prod.snd

def intentRow (b : Bar) (sc : ScoreRow) (reasons : List RejectReason) (s : LoopState) :
    IntentLog where
  timestamp := b.timestamp
  entryType := if s.canReentry then .reEntry else .retestEntry
  breakoutLevel := s.breakout
  retestZone := "[" ++ toStdString (zoneLow b s.breakout) ++ "," ++
    toStdString (zoneHigh b s.breakout) ++ "]"
  entryPrice := s.entry
  stopLoss := s.stop
  target1 := s.t1
  target2 := s.t2
  setupScore := sc.setupScore
  reasonCodes := reasonJoin reasons

/-- Count the retest and log it as an intent. -/
def logIntent (b : Bar) (sc : ScoreRow) (reasons : List RejectReason) (s : LoopState) :
    LoopState :=
  { s with
    counters := { s.counters with retests := s.counters.retests + 1 }
    logs := { s.logs with intents := s.logs.intents ++ [intentRow b sc reasons s] } }

def acceptTrade (b : Bar) (i : ℕ) (sc : ScoreRow) (s : LoopState) : LoopState :=
  { s with
    tradeOpen := true
    entryI := i
    entryScore := sc
    entryRegime := b.regime
    tradeId := s.tradeId + 1
    counters := { s.counters with
      entries := s.counters.entries + 1
      reentries := if s.canReentry then s.counters.reentries + 1 else s.counters.reentries }
    reentryUsed := s.canReentry || s.reentryUsed
    priorBreakout := false
    canReentry := false }.pushAudit (.tradeAccepted b.timestamp (s.tradeId + 1))

def rejectTrade (b : Bar) (reasons : List RejectReason) (s : LoopState) : LoopState :=
  { s with
    counters := { s.counters with rejections := s.counters.rejections + 1 } }.pushAudit
      (.tradeRejected b.timestamp (reasonJoin reasons))

/-- The body of the retest test: levels, reasons, intent, decision. -/
def takeRetest (bars : List Bar) (i : ℕ) (sc : ScoreRow) (s : LoopState) : LoopState :=
  let b := barAt bars i
  let priced := setLevels b s
  let reasons := rejectReasons bars i sc priced
  let logged := logIntent b sc reasons priced
  if reasons = [] then acceptTrade b i sc logged else rejectTrade b reasons logged

def retestStep (bars : List Bar) (i : ℕ) (sc : ScoreRow) (s : LoopState) : LoopState :=
  if eligibleWindow i s ∧ isRetest (barAt bars i) s.breakout then
    takeRetest bars i sc s
  else s

def entryStep (bars : List Bar) (i : ℕ) (sc : ScoreRow) (s : LoopState) : LoopState :=
  if lookback ≤ i ∧ s.tradeOpen = false then
    retestStep bars i sc (expireBreakout bars i (detectBreakout bars i s))
  else s

/-! ## The loop and the end of the data -/

/-- The score of bar `i`; before the window is full the level is its own close. -/
def barScore (bars : List Bar) (i : ℕ) : ScoreRow :=
  scoreBar bars i (if lookback ≤ i then prevHigh bars i else (barAt bars i).close)

def logScore (sc : ScoreRow) (s : LoopState) : LoopState :=
  { s with logs := { s.logs with scores := s.logs.scores ++ [sc] } }

/-- One pass of the loop body. -/
def barStep (bars : List Bar) (i : ℕ) (s : LoopState) : LoopState :=
  entryStep bars i (barScore bars i) (exitStep bars i (logScore (barScore bars i) s))

/-- The state after the loop body has run for the first `n` bars. -/
def stateAfter (bars : List Bar) (n : ℕ) : LoopState :=
  forLoop (barStep bars) {} n

/-- The state after the whole loop. -/
def runLoop (bars : List Bar) : LoopState := stateAfter bars bars.length

/-- The trade still open after the last bar is closed at its close.  Unlike
`closeTrade` this books the equity only. -/
def dataEnd (bars : List Bar) (s : LoopState) : LoopState :=
  if s.tradeOpen then
    let last := bars.length - 1
    let row := tradeRow bars last s .dataEndExit (barAt bars last).close
    { s with
      logs := { s.logs with trades := s.logs.trades ++ [row] }
      account := { s.account with equity := s.account.equity + row.rMultiple } }
  else s

/-- The final state of a run, from which all output files are written. -/
def runBacktest (bars : List Bar) : LoopState := dataEnd bars (runLoop bars)

end PrismPipeline.Backtest
