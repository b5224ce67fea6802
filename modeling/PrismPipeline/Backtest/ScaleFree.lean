import Mathlib.Algebra.BigOperators.Ring.List
import Mathlib.Data.List.GetD
import PrismPipeline.Backtest.MaxDrawdown
import PrismPipeline.Backtest.Moves
import PrismPipeline.Series.Scale

/-!
# The backtest in another unit

The same bars with their prices in one unit and in another, and their volumes likewise:
the two runs score, take and close the same trades on the same bars.
-/

namespace PrismPipeline.Backtest

open PrismPipeline.Machine PrismPipeline.Series

/-! ## The other unit -/

section Units

variable (c d : ℚ)

def Bar.scale (b : Bar) : Bar :=
  { b with
    openPrice := c * b.openPrice
    high := c * b.high
    low := c * b.low
    close := c * b.close
    volume := d * b.volume
    vwap := c * b.vwap
    atr14 := c * b.atr14 }

def TradeLog.scale (t : TradeLog) : TradeLog :=
  { t with
    entryPrice := c * t.entryPrice
    stopLoss := c * t.stopLoss
    target1 := c * t.target1
    target2 := c * t.target2
    exitPrice := c * t.exitPrice }

def AuditEvent.scale : AuditEvent → AuditEvent
  | .breakout timestamp level => .breakout timestamp (c * level)
  | .tradeExit timestamp reason tradeId => .tradeExit timestamp reason tradeId
  | .entryExpired timestamp => .entryExpired timestamp
  | .tradeAccepted timestamp tradeId => .tradeAccepted timestamp tradeId
  | .tradeRejected timestamp reasonCodes => .tradeRejected timestamp reasonCodes

/-- The variables of the loop in the new unit.  An intent carries the text of its retest
zone, from which the prices cannot be read back, so the intents stand apart. -/
def LoopState.scale (intents : List IntentLog) (s : LoopState) : LoopState :=
  { s with
    logs :=
      { s.logs with
        intents := intents
        trades := s.logs.trades.map (TradeLog.scale c)
        audit := s.logs.audit.map (AuditEvent.scale c) }
    breakout := c * s.breakout
    entry := c * s.entry
    stop := c * s.stop
    t1 := c * s.t1
    t2 := c * s.t2
    R := c * s.R }

/-- Zero is zero in every unit. -/
theorem Bar.scale_default : Bar.scale c d {} = {} := by
  simp [Bar.scale]

theorem barAt_scale (bars : List Bar) (i : ℕ) :
    barAt (bars.map (Bar.scale c d)) i = (barAt bars i).scale c d := by
  have moved : (bars.map (Bar.scale c d)).getD i (Bar.scale c d {}) =
    Bar.scale c d (bars.getD i {}) := List.getD_map _ _ _
  rwa [Bar.scale_default] at moved

end Units

variable {c d : ℚ} (posPrice : 0 < c) (posVolume : 0 < d)

/-! ## The score -/

section Score

variable (bars : List Bar) (i : ℕ)

theorem avgVolume_scale (stop n : ℕ) :
    avgVolume (bars.map (Bar.scale c d)) stop n = d * avgVolume bars stop n := by
  have volume (j : ℕ) : (barAt (bars.map (Bar.scale c d)) j).volume =
      d * (barAt bars j).volume := by
    rw [barAt_scale]
    rfl
  unfold avgVolume
  split
  · exact (mul_zero d).symm
  dsimp only
  generalize (if n < stop then stop - n else 0) = start
  simp only [volume, List.length_map]
  split
  · exact (mul_zero d).symm
  · rw [List.sum_map_mul_left, mul_div_assoc]

include posVolume in
theorem volRatio_scale : volRatio (bars.map (Bar.scale c d)) i = volRatio bars i := by
  have volume : (barAt (bars.map (Bar.scale c d)) i).volume = d * (barAt bars i).volume := by
    rw [barAt_scale]
    rfl
  unfold volRatio
  rw [avgVolume_scale, volume, mul_div_mul_left _ _ posVolume.ne']
  simp only [mul_pos_iff_of_pos_left posVolume]

include posPrice in
/-- The position of the close is a ratio of prices. -/
theorem closePos_scale (b : Bar) : closePos (b.scale c d) = closePos b := by
  have range : c * b.high - c * b.low = c * (b.high - b.low) := (mul_sub _ _ _).symm
  unfold closePos Bar.scale
  dsimp only
  rw [range, scaled_ratio posPrice]
  simp only [mul_lt_mul_iff_right₀ posPrice]

include posPrice posVolume in
theorem scoreBar_scale (level : ℚ) :
    scoreBar (bars.map (Bar.scale c d)) i (c * level) = scoreBar bars i level := by
  have above : c * level < ((barAt bars i).scale c d).close ↔ level < (barAt bars i).close :=
    mul_lt_mul_iff_right₀ posPrice
  have aboveVwap : ((barAt bars i).scale c d).vwap < ((barAt bars i).scale c d).close ↔
      (barAt bars i).vwap < (barAt bars i).close :=
    mul_lt_mul_iff_right₀ posPrice
  unfold scoreBar
  dsimp only
  rw [barAt_scale, closePos_scale posPrice, volRatio_scale posVolume]
  simp only [above, aboveVwap]
  rfl

include posPrice in
theorem prevHigh_scale : prevHigh (bars.map (Bar.scale c d)) i = c * prevHigh bars i := by
  have high (j : ℕ) : (barAt (bars.map (Bar.scale c d)) j).high = c * (barAt bars j).high := by
    rw [barAt_scale]
    rfl
  have zero : c * (0 : ℚ) = 0 := mul_zero c
  unfold prevHigh
  split
  · have fold := scaled_foldl_max posPrice (fun j => (barAt bars j).high) 0
      (List.range' (i - lookback) lookback)
    rw [zero] at fold
    simp only [high]
    exact fold
  · exact zero.symm

include posPrice posVolume in
theorem barScore_scale : barScore (bars.map (Bar.scale c d)) i = barScore bars i := by
  have close : (barAt (bars.map (Bar.scale c d)) i).close = c * (barAt bars i).close := by
    rw [barAt_scale]
    rfl
  unfold barScore
  rw [prevHigh_scale posPrice, close, ← mul_ite]
  exact scoreBar_scale posPrice posVolume bars i _

end Score

/-! ## The exit chain -/

section Exits

variable (bars : List Bar) (i : ℕ) (intents : List IntentLog) (s : LoopState)

include posPrice in
/-- The same test fires, at the same price. -/
theorem exitTest_scale (b : Bar) :
    exitTest (b.scale c d) i (s.scale c intents) =
      (exitTest b i s).map fun exit => (exit.1, c * exit.2) := by
  have stopped : (b.scale c d).low ≤ (s.scale c intents).stop ↔ b.low ≤ s.stop :=
    mul_le_mul_iff_right₀ posPrice
  have second : (s.scale c intents).t2 ≤ (b.scale c d).high ↔ s.t2 ≤ b.high :=
    mul_le_mul_iff_right₀ posPrice
  have first : (s.scale c intents).t1 ≤ (b.scale c d).high ↔ s.t1 ≤ b.high :=
    mul_le_mul_iff_right₀ posPrice
  have below : (b.scale c d).close < (s.scale c intents).breakout ↔ b.close < s.breakout :=
    mul_lt_mul_iff_right₀ posPrice
  have regime : (b.scale c d).regime = b.regime := rfl
  have trend : (b.scale c d).mseState = b.mseState := rfl
  have block : (b.scale c d).mpsState = b.mpsState := rfl
  have entered : (s.scale c intents).entryI = s.entryI := rfl
  unfold exitTest
  simp only [stopped, second, first, below, regime, trend, block, entered]
  repeat' split
  all_goals rfl

include posPrice in
theorem tradeRow_scale (reason : ExitReason) (exitPrice : ℚ) :
    tradeRow (bars.map (Bar.scale c d)) i (s.scale c intents) reason (c * exitPrice) =
      (tradeRow bars i s reason exitPrice).scale c := by
  have multiple := scaled_ratio posPrice exitPrice s.entry s.R
  have stamp (j : ℕ) : (barAt (bars.map (Bar.scale c d)) j).timestamp =
      (barAt bars j).timestamp := by
    rw [barAt_scale]
    rfl
  unfold tradeRow TradeLog.scale LoopState.scale
  dsimp only
  rw [multiple, stamp, stamp]

include posPrice in
theorem closeTrade_scale (reason : ExitReason) (exitPrice : ℚ) :
    closeTrade (bars.map (Bar.scale c d)) i reason (c * exitPrice) (s.scale c intents) =
      (closeTrade bars i reason exitPrice s).scale c intents := by
  have row := tradeRow_scale (d := d) posPrice bars i intents s reason exitPrice
  have stamp : (barAt (bars.map (Bar.scale c d)) i).timestamp = (barAt bars i).timestamp := by
    rw [barAt_scale]
    rfl
  unfold closeTrade
  dsimp only
  rw [row, stamp]
  simp [LoopState.scale, TradeLog.scale, AuditEvent.scale]

include posPrice in
theorem exitStep_scale :
    exitStep (bars.map (Bar.scale c d)) i (s.scale c intents) =
      (exitStep bars i s).scale c intents := by
  have isOpen : (s.scale c intents).tradeOpen = s.tradeOpen := rfl
  unfold exitStep
  rw [barAt_scale, exitTest_scale posPrice, isOpen]
  split
  · cases test : exitTest (barAt bars i) i s with
    | none => rfl
    | some exit => exact closeTrade_scale posPrice bars i intents s exit.1 exit.2
  · rfl

end Exits

/-! ## Levels and zones -/

section Levels

theorem zoneLow_scale (b : Bar) (level : ℚ) :
    zoneLow (b.scale c d) (c * level) = c * zoneLow b level := by
  unfold zoneLow Bar.scale
  ring

theorem zoneHigh_scale (b : Bar) (level : ℚ) :
    zoneHigh (b.scale c d) (c * level) = c * zoneHigh b level := by
  unfold zoneHigh Bar.scale
  ring

include posPrice in
theorem isRetest_scale (b : Bar) (level : ℚ) :
    isRetest (b.scale c d) (c * level) ↔ isRetest b level := by
  unfold isRetest
  rw [zoneLow_scale, zoneHigh_scale]
  exact and_congr (mul_le_mul_iff_right₀ posPrice) (mul_le_mul_iff_right₀ posPrice)

include posPrice in
theorem setLevels_scale (b : Bar) (intents : List IntentLog) (s : LoopState) :
    setLevels (b.scale c d) (s.scale c intents) = (setLevels b s).scale c intents := by
  have zone : zoneLow (b.scale c d) (s.scale c intents).breakout = c * zoneLow b s.breakout :=
    zoneLow_scale b s.breakout
  have atrStop : (b.scale c d).close - (b.scale c d).atr14 * atrMult =
      c * (b.close - b.atr14 * atrMult) := by
    change c * b.close - c * b.atr14 * atrMult = _
    ring
  have close : (b.scale c d).close = c * b.close := rfl
  unfold setLevels
  dsimp only
  rw [zone, atrStop, close, ← mul_min_of_nonneg _ _ posPrice.le]
  unfold LoopState.scale
  congr 1 <;> ring

end Levels

/-! ## The entry gate -/

/-- The same intent in another unit; the text of the zone shows the new prices. -/
structure SameIntent (c : ℚ) (row scaled : IntentLog) : Prop where
  timestamp : scaled.timestamp = row.timestamp
  entryType : scaled.entryType = row.entryType
  reasonCodes : scaled.reasonCodes = row.reasonCodes
  setupScore : scaled.setupScore = row.setupScore
  breakoutLevel : scaled.breakoutLevel = c * row.breakoutLevel
  entryPrice : scaled.entryPrice = c * row.entryPrice
  stopLoss : scaled.stopLoss = c * row.stopLoss
  target1 : scaled.target1 = c * row.target1
  target2 : scaled.target2 = c * row.target2
  retestZone : ∃ low high,
    row.retestZone = "[" ++ toStdString low ++ "," ++ toStdString high ++ "]" ∧
      scaled.retestZone = "[" ++ toStdString (c * low) ++ "," ++ toStdString (c * high) ++ "]"

section Gate

variable (bars : List Bar) (i : ℕ) (sc : ScoreRow) (intents : List IntentLog) (s : LoopState)

include posPrice posVolume in
theorem rejectReasons_scale :
    rejectReasons (bars.map (Bar.scale c d)) i sc (s.scale c intents) =
      rejectReasons bars i sc s := by
  have middle (b : Bar) : midpoint (b.scale c d) (s.scale c intents).breakout <
      (b.scale c d).close ↔ midpoint b s.breakout < b.close := by
    have moved : midpoint (b.scale c d) (c * s.breakout) = c * midpoint b s.breakout := by
      unfold midpoint
      rw [zoneLow_scale, zoneHigh_scale, ← mul_add, mul_div_assoc]
    change midpoint (b.scale c d) (c * s.breakout) < c * b.close ↔ _
    rw [moved, mul_lt_mul_iff_right₀ posPrice]
  have aboveVwap (b : Bar) : (b.scale c d).vwap < (b.scale c d).close ↔ b.vwap < b.close :=
    mul_lt_mul_iff_right₀ posPrice
  have risk : (s.scale c intents).R ≤ 0 ↔ s.R ≤ 0 := scaled_nonpos_iff posPrice s.R
  unfold rejectReasons
  dsimp only
  rw [barAt_scale, closePos_scale posPrice, volRatio_scale posVolume]
  simp only [middle, aboveVwap, risk]
  rfl

theorem intentRow_scale (b : Bar) (reasons : List RejectReason) :
    SameIntent c (intentRow b sc reasons s)
      (intentRow (b.scale c d) sc reasons (s.scale c intents)) where
  timestamp := rfl
  entryType := rfl
  reasonCodes := rfl
  setupScore := rfl
  breakoutLevel := rfl
  entryPrice := rfl
  stopLoss := rfl
  target1 := rfl
  target2 := rfl
  retestZone := by
    refine ⟨zoneLow b s.breakout, zoneHigh b s.breakout, rfl, ?_⟩
    rw [← zoneLow_scale (d := d), ← zoneHigh_scale (d := d)]
    rfl

/-- Two states of the loop that differ in the unit only. -/
def SameState (c : ℚ) (s scaled : LoopState) : Prop :=
  ∃ intents, scaled = s.scale c intents ∧ List.Forall₂ (SameIntent c) s.logs.intents intents

theorem pushAudit_scale (event : AuditEvent) :
    (s.scale c intents).pushAudit (event.scale c) = (s.pushAudit event).scale c intents := by
  unfold LoopState.pushAudit LoopState.scale
  dsimp only
  rw [List.map_append, List.map_singleton]

theorem acceptTrade_scale (b : Bar) :
    acceptTrade (b.scale c d) i sc (s.scale c intents) =
      (acceptTrade b i sc s).scale c intents := by
  refine Eq.trans ?_ (pushAudit_scale intents _ (.tradeAccepted b.timestamp (s.tradeId + 1)))
  rfl

theorem rejectTrade_scale (b : Bar) (reasons : List RejectReason) :
    rejectTrade (b.scale c d) reasons (s.scale c intents) =
      (rejectTrade b reasons s).scale c intents := by
  refine Eq.trans ?_ (pushAudit_scale intents _ (.tradeRejected b.timestamp (reasonJoin reasons)))
  rfl

include posPrice in
theorem detectBreakout_scale :
    detectBreakout (bars.map (Bar.scale c d)) i (s.scale c intents) =
      (detectBreakout bars i s).scale c intents := by
  have crosses : newBreakout (bars.map (Bar.scale c d)) i ↔ newBreakout bars i := by
    unfold newBreakout
    rw [prevHigh_scale posPrice, barAt_scale, barAt_scale]
    exact and_congr (mul_le_mul_iff_right₀ posPrice) (mul_lt_mul_iff_right₀ posPrice)
  unfold detectBreakout
  by_cases broke : newBreakout bars i
  · rw [if_pos broke, if_pos (crosses.mpr broke), prevHigh_scale posPrice, barAt_scale]
    refine Eq.trans ?_
      (pushAudit_scale intents _ (.breakout (barAt bars i).timestamp (prevHigh bars i)))
    rfl
  · rw [if_neg broke, if_neg (mt crosses.mp broke)]

theorem expireBreakout_scale :
    expireBreakout (bars.map (Bar.scale c d)) i (s.scale c intents) =
      (expireBreakout bars i s).scale c intents := by
  unfold expireBreakout
  by_cases due : s.priorBreakout = true ∧ entryTtl < castInt (i - s.breakoutI)
  · rw [if_pos due, barAt_scale]
    refine (if_pos due).trans ?_
    refine Eq.trans ?_ (pushAudit_scale intents _ (.entryExpired (barAt bars i).timestamp))
    rfl
  · rw [if_neg due]
    exact if_neg due

variable {s}

include posPrice posVolume in
theorem SameState.takeRetest {scaled : LoopState} (same : SameState c s scaled) :
    SameState c (takeRetest bars i sc s) (takeRetest (bars.map (Bar.scale c d)) i sc scaled) := by
  obtain ⟨intents, rfl, rows⟩ := same
  have levels := setLevels_scale (d := d) posPrice (barAt bars i) intents s
  have reasons := rejectReasons_scale posPrice posVolume bars i sc intents
    (setLevels (barAt bars i) s)
  unfold Backtest.takeRetest
  dsimp only
  rw [barAt_scale, levels, reasons]
  generalize rejectReasons bars i sc (setLevels (barAt bars i) s) = against
  generalize priced : setLevels (barAt bars i) s = levelled
  have kept : levelled.logs.intents = s.logs.intents := by
    rw [← priced]
    rfl
  have row := intentRow_scale (c := c) (d := d) sc intents levelled (barAt bars i) against
  have logged : List.Forall₂ (SameIntent c)
      (levelled.logs.intents ++ [intentRow (barAt bars i) sc against levelled])
      (intents ++
        [intentRow ((barAt bars i).scale c d) sc against (levelled.scale c intents)]) := by
    rw [kept]
    exact List.rel_append rows (.cons row .nil)
  have intent : logIntent ((barAt bars i).scale c d) sc against (levelled.scale c intents) =
      (logIntent (barAt bars i) sc against levelled).scale c
        (intents ++ [intentRow ((barAt bars i).scale c d) sc against (levelled.scale c intents)]) :=
    rfl
  rw [intent]
  split
  · rw [acceptTrade_scale]
    exact ⟨_, rfl, logged⟩
  · rw [rejectTrade_scale]
    exact ⟨_, rfl, logged⟩

include posPrice posVolume in
theorem SameState.retestStep {scaled : LoopState} (same : SameState c s scaled) :
    SameState c (retestStep bars i sc s) (retestStep (bars.map (Bar.scale c d)) i sc scaled) := by
  obtain ⟨intents, rfl, rows⟩ := same
  have eligible : eligibleWindow i (s.scale c intents) ↔ eligibleWindow i s := Iff.rfl
  have retest : isRetest ((barAt bars i).scale c d) (s.scale c intents).breakout ↔
      isRetest (barAt bars i) s.breakout :=
    isRetest_scale posPrice (barAt bars i) s.breakout
  unfold Backtest.retestStep
  rw [barAt_scale]
  simp only [eligible, retest]
  split
  · exact SameState.takeRetest posPrice posVolume bars i sc ⟨intents, rfl, rows⟩
  · exact ⟨intents, rfl, rows⟩

include posPrice posVolume in
theorem SameState.entryStep {scaled : LoopState} (same : SameState c s scaled) :
    SameState c (entryStep bars i sc s) (entryStep (bars.map (Bar.scale c d)) i sc scaled) := by
  obtain ⟨intents, rfl, rows⟩ := same
  have isOpen : (s.scale c intents).tradeOpen = s.tradeOpen := rfl
  have gated : SameState c (expireBreakout bars i (detectBreakout bars i s))
      (expireBreakout (bars.map (Bar.scale c d)) i
        (detectBreakout (bars.map (Bar.scale c d)) i (s.scale c intents))) := by
    refine ⟨intents, ?_, ?_⟩
    · rw [detectBreakout_scale posPrice, expireBreakout_scale]
    · have kept : (expireBreakout bars i (detectBreakout bars i s)).logs.intents =
          s.logs.intents := by
        rcases gate_cases bars i s with ⟨_, eq⟩ | ⟨_, _, eq⟩ | ⟨_, eq⟩
        · rw [eq]
          rfl
        · rw [eq]
          rfl
        · rw [eq]
      rw [kept]
      exact rows
  unfold Backtest.entryStep
  rw [isOpen]
  split
  · exact gated.retestStep posPrice posVolume bars i sc
  · exact ⟨intents, rfl, rows⟩

end Gate

/-! ## The loop -/

section Run

variable (bars : List Bar) {s scaled : LoopState}

include posPrice posVolume in
theorem SameState.barStep (same : SameState c s scaled) (i : ℕ) :
    SameState c (barStep bars i s) (barStep (bars.map (Bar.scale c d)) i scaled) := by
  obtain ⟨intents, rfl, rows⟩ := same
  have logged : logScore (barScore bars i) (s.scale c intents) =
    (logScore (barScore bars i) s).scale c intents := rfl
  unfold Backtest.barStep
  rw [barScore_scale posPrice posVolume, logged, exitStep_scale posPrice]
  refine SameState.entryStep posPrice posVolume bars i _ ⟨intents, rfl, ?_⟩
  rcases exitStep_cases bars i (logScore (barScore bars i) s) with
    ⟨_, eq⟩ | ⟨_, _, eq⟩ | ⟨_, _, _, _, eq⟩
  · rw [eq]
    exact rows
  · rw [eq]
    exact rows
  · rw [eq]
    exact rows

include posPrice posVolume in
theorem stateAfter_scale (n : ℕ) :
    SameState c (stateAfter bars n) (stateAfter (bars.map (Bar.scale c d)) n) := by
  refine forLoop_related (SameState c) ⟨[], ?_, .nil⟩ ?_ n
  · simp [LoopState.scale]
  · intro i s scaled same
    exact same.barStep posPrice posVolume bars i

include posPrice in
theorem SameState.dataEnd (same : SameState c s scaled) :
    SameState c (dataEnd bars s) (dataEnd (bars.map (Bar.scale c d)) scaled) := by
  obtain ⟨intents, rfl, rows⟩ := same
  have isOpen : (s.scale c intents).tradeOpen = s.tradeOpen := rfl
  have close : (barAt (bars.map (Bar.scale c d)) (bars.length - 1)).close =
      c * (barAt bars (bars.length - 1)).close := by
    rw [barAt_scale]
    rfl
  unfold Backtest.dataEnd
  dsimp only
  rw [isOpen, List.length_map, close, tradeRow_scale posPrice]
  split
  · refine ⟨intents, ?_, rows⟩
    simp [LoopState.scale, TradeLog.scale]
  · exact ⟨intents, rfl, rows⟩

end Run

/-- Two final states of a backtest that differ in the unit only. -/
structure SameReport (c : ℚ) (run scaled : LoopState) : Prop where
  scores : scaled.logs.scores = run.logs.scores
  intents : List.Forall₂ (SameIntent c) run.logs.intents scaled.logs.intents
  trades : scaled.logs.trades = run.logs.trades.map (TradeLog.scale c)
  audit : scaled.logs.audit = run.logs.audit.map (AuditEvent.scale c)
  counters : scaled.counters = run.counters
  account : scaled.account = run.account

/-- The unit of the prices and the unit of the volumes make no difference to what is
traded, when, and with which result in multiples of the risk. -/
theorem backtest_scale_free (posPrice : 0 < c) (posVolume : 0 < d) (bars : List Bar) :
    SameReport c (runBacktest bars) (runBacktest (bars.map (Bar.scale c d))) := by
  have loop := stateAfter_scale posPrice posVolume bars bars.length
  have final := loop.dataEnd posPrice (d := d) bars
  unfold runBacktest runLoop
  rw [List.length_map]
  obtain ⟨intents, eq, rows⟩ := final
  rw [eq]
  exact ⟨rfl, rows, rfl, rfl, rfl, rfl⟩

/-- The trade of `losingBars` with the prices in cents and the volumes in lots of 20. -/
theorem losingBars_inCents :
    (runBacktest losingBars).logs.trades.length = 1 ∧
      SameReport 100 (runBacktest losingBars)
        (runBacktest (losingBars.map (Bar.scale 100 0.05))) :=
  ⟨by decide +kernel, backtest_scale_free (by decide) (by decide +kernel) losingBars⟩

end PrismPipeline.Backtest
