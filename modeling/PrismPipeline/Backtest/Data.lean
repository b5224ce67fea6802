import Mathlib.Algebra.Order.Field.Rat
import Mathlib.Tactic.FieldSimp
import Mathlib.Tactic.Linarith
import Mathlib.Tactic.Ring

/-!
# Data of the bar backtest

The records of `prism_backtest.cpp`.  Prices and scores are exact rationals in
place of `double`.  A variable of type `int` that is only ever incremented is an
`Int32`: the increment past the last value is undefined in the source, and wraps
round here as it does on the machines it runs on.  The free texts of the input
file (time stamps, regime and state columns) stay texts; the fixed texts that the
program itself chooses (exit reasons, rejection reasons, entry labels, tiers) are
enumerations with their text beside them.
-/

namespace PrismPipeline.Backtest

/-- One row of the market data file. -/
structure Bar where
  timestamp : String := ""
  openPrice : ℚ := 0
  high : ℚ := 0
  low : ℚ := 0
  close : ℚ := 0
  volume : ℚ := 0
  vwap : ℚ := 0
  atr14 : ℚ := 0
  spreadPct : ℚ := 0
  liquidityScore : ℚ := 0
  oi : ℚ := 0
  mseState : String := ""
  regime : String := ""
  ipseAlignment : String := ""
  microstructureState : String := ""
  mpsState : String := ""
  deriving Inhabited, DecidableEq

/-- The element `bars[i]`; the default bar stands for a read past the end. -/
def barAt (bars : List Bar) (i : ℕ) : Bar := bars.getD i {}

theorem barAt_append_left {bars later : List Bar} {i : ℕ} (inside : i < bars.length) :
    barAt (bars ++ later) i = barAt bars i := by
  simp [barAt, List.getD_eq_getElem?_getD, List.getElem?_append_left inside]

theorem barAt_mem {bars : List Bar} {i : ℕ} (inside : i < bars.length) : barAt bars i ∈ bars := by
  have bar : barAt bars i = bars[i] := by
    simp [barAt, List.getD_eq_getElem?_getD, inside]
  rw [bar]
  exact List.getElem_mem inside

/-- The four tiers of a setup score, worst first. -/
inductive Tier where
  | ignore
  | minimum
  | strong
  | premium
  deriving Inhabited, DecidableEq, Repr

def Tier.text : Tier → String
  | .ignore => "IGNORE"
  | .minimum => "MINIMUM"
  | .strong => "STRONG"
  | .premium => "PREMIUM"

/-- A row of `setup_score_log.csv`.  The component called `structure` in the
source is `structureScore` here. -/
structure ScoreRow where
  timestamp : String := ""
  tier : Tier := .ignore
  structureScore : ℚ := 0
  positioning : ℚ := 0
  regime : ℚ := 0
  microstructure : ℚ := 0
  interaction : ℚ := 0
  setupScore : ℚ := 0
  deriving Inhabited, DecidableEq

/-- Why a retest is not taken, in the order in which the reasons are collected. -/
inductive RejectReason where
  | closeBelowRetestMidpoint
  | closeBelowVwap
  | closePositionLt
  | setupScoreLt
  | liquidityLt
  | volumeRatioLt
  | spreadGt
  | mpsBlock
  | regimeShock
  | mseTrendDown
  | riskNotPositive
  deriving DecidableEq, Repr

def RejectReason.text : RejectReason → String
  | .closeBelowRetestMidpoint => "CLOSE_BELOW_RETEST_MIDPOINT"
  | .closeBelowVwap => "CLOSE_BELOW_VWAP"
  | .closePositionLt => "CLOSE_POSITION_LT_0_60"
  | .setupScoreLt => "SETUP_SCORE_LT_6_5"
  | .liquidityLt => "LIQUIDITY_LT_0_60"
  | .volumeRatioLt => "VOLUME_RATIO_LT_1_20"
  | .spreadGt => "SPREAD_GT_0_50"
  | .mpsBlock => "MPS_BLOCK"
  | .regimeShock => "REGIME_SHOCK"
  | .mseTrendDown => "MSE_TREND_DOWN"
  | .riskNotPositive => "RISK_NOT_POSITIVE"

/-- The `reason_codes` text: the reasons joined by `|`, or `ACCEPTED`. -/
def reasonJoin (reasons : List RejectReason) : String :=
  let joined := "|".intercalate (reasons.map RejectReason.text)
  if joined.isEmpty then "ACCEPTED" else joined

/-- The joined text begins with the first reason. -/
theorem reasonJoin_cons (first : RejectReason) (rest : List RejectReason) :
    ∃ tail, reasonJoin (first :: rest) = first.text ++ tail := by
  have joined : ∃ tail, "|".intercalate ((first :: rest).map RejectReason.text) =
      first.text ++ tail := by
    cases rest with
    | nil => exact ⟨"", by simp⟩
    | cons second others =>
        refine ⟨"|" ++ "|".intercalate (second.text :: others.map RejectReason.text), ?_⟩
        rw [List.map_cons, List.map_cons, String.intercalate_cons_cons, String.append_assoc]
  obtain ⟨tail, eq⟩ := joined
  refine ⟨tail, ?_⟩
  unfold reasonJoin
  dsimp only
  rw [eq, if_neg]
  intro empty
  cases first <;> simp [RejectReason.text] at empty

/-- Exactly an empty list of reasons reads `ACCEPTED`. -/
theorem reasonJoin_eq_accepted (reasons : List RejectReason) :
    reasonJoin reasons = "ACCEPTED" ↔ reasons = [] := by
  constructor
  · intro accepted
    cases reasons with
    | nil => rfl
    | cons first rest =>
        obtain ⟨tail, eq⟩ := reasonJoin_cons first rest
        have begins : first.text.toList <+: "ACCEPTED".toList := by
          rw [← accepted, eq, String.toList_append]
          exact List.prefix_append _ _
        cases first <;> exact absurd begins (by decide)
  · rintro rfl
    decide

inductive EntryType where
  | retestEntry
  | reEntry
  deriving Inhabited, DecidableEq, Repr

def EntryType.text : EntryType → String
  | .retestEntry => "RETEST_ENTRY"
  | .reEntry => "RE_ENTRY"

/-- Rounding to the nearest integer, ties to the even one. -/
def roundHalfEven (x : ℚ) : ℤ :=
  let lower := x.floor
  if x - lower < 1 / 2 then lower
  else if 1 / 2 < x - lower then lower + 1
  else if lower % 2 = 0 then lower
  else lower + 1

/-- `std::to_string` of a floating-point value: `%f`, so six decimals. -/
def toStdString (x : ℚ) : String :=
  let units := (roundHalfEven (|x| * 1000000)).toNat
  let decimals := (toString (units % 1000000)).toList.leftpad 6 '0'
  (if x < 0 then "-" else "") ++ toString (units / 1000000) ++ "." ++
    String.ofList decimals

/-- A row of `entry_intent_log.csv`: every retest, taken or not. -/
structure IntentLog where
  timestamp : String := ""
  entryType : EntryType := .retestEntry
  retestZone : String := ""
  reasonCodes : String := ""
  breakoutLevel : ℚ := 0
  entryPrice : ℚ := 0
  stopLoss : ℚ := 0
  target1 : ℚ := 0
  target2 : ℚ := 0
  setupScore : ℚ := 0
  deriving Inhabited, DecidableEq

/-- Why a trade is closed. -/
inductive ExitReason where
  | stopHit
  | target2Hit
  | target1Hit
  | invalidCloseBelowBreakout
  | invalidRegimeShock
  | invalidMseTrendDown
  | invalidMpsBlock
  | timeExit
  | dataEndExit
  deriving Inhabited, DecidableEq, Repr

def ExitReason.text : ExitReason → String
  | .stopHit => "STOP_HIT"
  | .target2Hit => "TARGET2_HIT"
  | .target1Hit => "TARGET1_HIT"
  | .invalidCloseBelowBreakout => "INVALID_CLOSE_BELOW_BREAKOUT"
  | .invalidRegimeShock => "INVALID_REGIME_SHOCK"
  | .invalidMseTrendDown => "INVALID_MSE_TREND_DOWN"
  | .invalidMpsBlock => "INVALID_MPS_BLOCK"
  | .timeExit => "TIME_EXIT"
  | .dataEndExit => "DATA_END_EXIT"

/-- A row of `trade_log.csv`. -/
structure TradeLog where
  tradeId : Int32 := 0
  entryTime : String := ""
  exitTime : String := ""
  exitReason : ExitReason := .stopHit
  regimeAtEntry : String := ""
  entryPrice : ℚ := 0
  stopLoss : ℚ := 0
  target1 : ℚ := 0
  target2 : ℚ := 0
  exitPrice : ℚ := 0
  rMultiple : ℚ := 0
  setupScore : ℚ := 0
  holdingBars : ℤ := 0
  deriving Inhabited, DecidableEq

/-- The events of `audit_log.json`, each with the data its line shows. -/
inductive AuditEvent where
  | tradeExit (timestamp : String) (reason : ExitReason) (tradeId : Int32)
  | breakout (timestamp : String) (level : ℚ)
  | entryExpired (timestamp : String)
  | tradeAccepted (timestamp : String) (tradeId : Int32)
  | tradeRejected (timestamp : String) (reasonCodes : String)
  deriving DecidableEq

/-- The character escaper of the audit lines. -/
def esc (s : String) : String :=
  String.ofList (s.toList.flatMap fun c =>
    if c = '"' then ['\\', '"'] else if c = '\\' then ['\\', '\\'] else [c])

/-- The text pushed to the audit vector for an event. -/
def AuditEvent.render : AuditEvent → String
  | .tradeExit timestamp reason tradeId =>
      "\x7b\"timestamp\":\"" ++ esc timestamp ++
        "\",\"event\":\"TRADE_EXIT\",\"reason_code\":\"" ++ reason.text ++
        "\",\"trade_id\":" ++ toString tradeId ++ "\x7d"
  | .breakout timestamp level =>
      "\x7b\"timestamp\":\"" ++ esc timestamp ++
        "\",\"event\":\"BREAKOUT\",\"breakout_level\":" ++ toStdString level ++ "\x7d"
  | .entryExpired timestamp =>
      "\x7b\"timestamp\":\"" ++ esc timestamp ++
        "\",\"event\":\"ENTRY_EXPIRED\",\"reason_code\":\"TTL_EXPIRED\"\x7d"
  | .tradeAccepted timestamp tradeId =>
      "\x7b\"timestamp\":\"" ++ esc timestamp ++
        "\",\"event\":\"TRADE_ACCEPTED\",\"reason_code\":\"ACCEPTED\",\"trade_id\":" ++
        toString tradeId ++ "\x7d"
  | .tradeRejected timestamp reasonCodes =>
      "\x7b\"timestamp\":\"" ++ esc timestamp ++
        "\",\"event\":\"TRADE_REJECTED\",\"reason_code\":\"" ++ esc reasonCodes ++ "\"\x7d"

end PrismPipeline.Backtest
