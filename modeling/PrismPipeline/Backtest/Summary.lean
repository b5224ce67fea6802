import PrismPipeline.Backtest.BoundedOutcome
import PrismPipeline.Backtest.Reports
import PrismPipeline.Series.GainLoss

/-!
# The summary of a backtest

`backtest_summary.json`: the counters of the loop, and sums over the rows of the trade log.
The counters and the sums come from different places of the source; over every run they fit
together.  The file itself is written from doubles, and is JSON for just those that are finite.
-/

namespace PrismPipeline.Backtest

open PrismPipeline.Machine PrismPipeline.Series PrismPipeline.Text.Json

/-! ## The sums -/

/-- The sums over the trades, all of them doubles. -/
structure TradeStats where
  grossR : ℚ := 0
  wins : ℚ := 0
  losses : ℚ := 0
  posR : ℚ := 0
  negR : ℚ := 0
  hold : ℚ := 0

def TradeStats.add (s : TradeStats) (t : TradeLog) : TradeStats :=
  let s := { s with grossR := s.grossR + t.rMultiple, hold := s.hold + t.holdingBars }
  if 0 < t.rMultiple then { s with wins := s.wins + 1, posR := s.posR + t.rMultiple }
  else if t.rMultiple < 0 then { s with losses := s.losses + 1, negR := s.negR + |t.rMultiple| }
  else s

def tradeStats (trades : List TradeLog) : TradeStats := trades.foldl TradeStats.add {}

/-- A sum for each trade, or zero where there is none. -/
def perTrade (trades : List TradeLog) (total : ℚ) : ℚ :=
  if trades = [] then 0 else total / trades.length

def profitFactor (stats : TradeStats) : ℚ :=
  if 0 < stats.negR then stats.posR / stats.negR else stats.posR

/-! ## The file -/

/-- The doubles that are streamed into the summary. -/
structure SummaryFigures where
  wins : Double
  losses : Double
  winRate : Double
  averageR : Double
  grossR : Double
  maxDrawdownInR : Double
  expectedValueInR : Double
  profitFactor : Double
  averageHoldingBars : Double

namespace SummaryFigures

def all (figures : SummaryFigures) : List Double :=
  [figures.wins, figures.losses, figures.winRate, figures.averageR, figures.grossR,
    figures.maxDrawdownInR, figures.expectedValueInR, figures.profitFactor,
    figures.averageHoldingBars]

def Finite (figures : SummaryFigures) : Prop := ∀ x ∈ figures.all, x.IsFinite

/-- The figures of a run without any rounding. -/
def exact (s : LoopState) : SummaryFigures :=
  let trades := s.logs.trades
  let stats := tradeStats trades
  { wins := .finite stats.wins
    losses := .finite stats.losses
    winRate := .finite (perTrade trades stats.wins)
    averageR := .finite (perTrade trades stats.grossR)
    grossR := .finite stats.grossR
    maxDrawdownInR := .finite s.account.maxDd
    expectedValueInR := .finite (perTrade trades stats.grossR)
    profitFactor := .finite (Backtest.profitFactor stats)
    averageHoldingBars := .finite (perTrade trades stats.hold) }

theorem exact_finite (s : LoopState) : (exact s).Finite := by
  intro x member
  simp only [all, exact, List.mem_cons, List.not_mem_nil, or_false] at member
  rcases member with rfl | rfl | rfl | rfl | rfl | rfl | rfl | rfl | rfl
  all_goals exact ⟨_, rfl⟩

end SummaryFigures

section File

variable (bars : List Bar) (s : LoopState) (figures : SummaryFigures)

/-- The members of `backtest_summary.json`. -/
def summaryFields : List (String × Entry) :=
  [("bars_processed", .count bars.length),
    ("breakouts", .count s.counters.breakouts.toInt),
    ("retests", .count s.counters.retests.toInt),
    ("entries", .count s.counters.entries.toInt),
    ("re_entries", .count s.counters.reentries.toInt),
    ("rejections", .count s.counters.rejections.toInt),
    ("invalidations", .count s.counters.invalidations.toInt),
    ("entry_expired", .count s.counters.expired.toInt),
    ("target1_hits", .count s.counters.t1hits.toInt),
    ("target2_hits", .count s.counters.t2hits.toInt),
    ("stop_hits", .count s.counters.stops.toInt),
    ("time_exits", .count s.counters.timeexits.toInt),
    ("total_trades", .count s.logs.trades.length),
    ("wins", .number figures.wins),
    ("losses", .number figures.losses),
    ("win_rate", .number figures.winRate),
    ("average_R", .number figures.averageR),
    ("gross_R", .number figures.grossR),
    ("max_drawdown_in_R", .number figures.maxDrawdownInR),
    ("expected_value_in_R", .number figures.expectedValueInR),
    ("profit_factor", .number figures.profitFactor),
    ("average_holding_bars", .number figures.averageHoldingBars)]

/-- `backtest_summary.json` with the figures that the sums come to. -/
def backtestSummary : List Char := reportFile (summaryFields bars (runBacktest bars) figures)

theorem summary_keys : PlainKeys ((summaryFields bars s figures).map Prod.fst) := by
  have keys : (summaryFields bars s figures).map Prod.fst =
      ["bars_processed", "breakouts", "retests", "entries", "re_entries", "rejections",
        "invalidations", "entry_expired", "target1_hits", "target2_hits", "stop_hits",
        "time_exits", "total_trades", "wins", "losses", "win_rate", "average_R", "gross_R",
        "max_drawdown_in_R", "expected_value_in_R", "profit_factor", "average_holding_bars"] := rfl
  rw [keys]
  exact ⟨by decide, by decide, by decide⟩

theorem summaryFields_finite_iff :
    (∀ field ∈ summaryFields bars s figures, field.2.Finite) ↔ figures.Finite := by
  simp only [summaryFields, SummaryFigures.Finite, SummaryFigures.all, List.forall_mem_cons,
    List.not_mem_nil, Entry.Finite, true_and, false_imp_iff, implies_true]

end File

/-! ## The sums and the rows -/

theorem tradeStats_snoc (trades : List TradeLog) (t : TradeLog) :
    tradeStats (trades ++ [t]) = (tradeStats trades).add t := by
  unfold tradeStats
  rw [List.foldl_append]
  rfl

/-- The sums are those of the R multiples. -/
structure SumsOf (trades : List TradeLog) (stats : TradeStats) : Prop where
  gross : stats.grossR = (rMultiples trades).sum
  wins : stats.wins = gained (rMultiples trades)
  losses : stats.losses = lost (rMultiples trades)
  pos : stats.posR = gain (rMultiples trades)
  neg : stats.negR = loss (rMultiples trades)
  hold : stats.hold = (trades.map fun t => (t.holdingBars : ℚ)).sum

theorem tradeStats_sums (trades : List TradeLog) : SumsOf trades (tradeStats trades) := by
  induction trades using List.reverseRecOn with
  | nil => exact ⟨rfl, rfl, rfl, rfl, rfl, rfl⟩
  | append_singleton trades t ih =>
      obtain ⟨gross, wins, losses, pos, neg, hold⟩ := ih
      rw [tradeStats_snoc]
      unfold TradeStats.add
      dsimp only
      rw [gross, wins, losses, pos, neg, hold]
      have held : ((trades ++ [t]).map fun t => (t.holdingBars : ℚ)).sum =
          (trades.map fun t => (t.holdingBars : ℚ)).sum + t.holdingBars := by
        rw [List.map_append, List.sum_append, List.map_singleton, List.sum_singleton]
      rcases lt_trichotomy t.rMultiple 0 with below | zero | above
      · rw [if_neg below.not_gt, if_pos below]
        constructor
        · simp
        · simp [gained_append, gained_singleton, below.not_gt]
        · simp [lost_append, lost_singleton, below]
        · simp [gain_append, gain_singleton, below.le]
        · simp [loss_append, loss_singleton, below.le, abs_of_neg below]
        · exact held.symm
      · rw [if_neg zero.not_gt, if_neg zero.not_lt]
        constructor
        · simp
        · simp [gained_append, gained_singleton, zero]
        · simp [lost_append, lost_singleton, zero]
        · simp [gain_append, gain_singleton, zero]
        · simp [loss_append, loss_singleton, zero]
        · exact held.symm
      · rw [if_pos above]
        constructor
        · simp
        · simp [gained_append, gained_singleton, above]
        · simp [lost_append, lost_singleton, above.not_gt]
        · simp [gain_append, gain_singleton, above.le]
        · simp [loss_append, loss_singleton, above.le]
        · exact held.symm

/-- Whatever doubles the sums of a run come to, its summary is a value of JSON, and an object
that shows its members, exactly when they are finite; without rounding they are. -/
theorem backtestSummary_shows (bars : List Bar) :
    (∀ figures, (∃ v, Spells (.element v) (backtestSummary bars figures)) ↔ figures.Finite) ∧
    (∀ figures, (∃ members, ShowsReport (summaryFields bars (runBacktest bars) figures)
      (backtestSummary bars figures) members) ↔ figures.Finite) ∧
    (SummaryFigures.exact (runBacktest bars)).Finite := by
  refine ⟨fun figures => ?_, fun figures => ?_, SummaryFigures.exact_finite _⟩
  · rw [backtestSummary, reportFile_value_iff (summary_keys bars _ figures)]
    exact summaryFields_finite_iff bars _ figures
  · rw [backtestSummary, reportFile_shows_iff (summary_keys bars _ figures)]
    exact summaryFields_finite_iff bars _ figures

end PrismPipeline.Backtest
