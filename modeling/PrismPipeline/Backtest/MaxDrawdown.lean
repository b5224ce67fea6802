import PrismPipeline.Backtest.RiskInvariant
import PrismPipeline.Series.Drawdown

/-!
# The reported drawdown

The loop keeps equity, peak and drawdown incrementally at every exit, and there
the account is exact.  The trade that only the end of the data closes is booked
by a separate piece of code which moves the equity alone.  The reported value
therefore is the drawdown of the trades closed inside the loop, and the theorem
of this file says for which runs that is also the drawdown of the trade log.
-/

namespace PrismPipeline.Backtest

open PrismPipeline.Machine PrismPipeline.Series

/-- The R multiples of a trade log. -/
def rMultiples (trades : List TradeLog) : List ℚ := trades.map TradeLog.rMultiple

@[simp] theorem rMultiples_snoc (trades : List TradeLog) (row : TradeLog) :
    rMultiples (trades ++ [row]) = rMultiples trades ++ [row.rMultiple] := by
  simp [rMultiples]

/-- The account agrees with the series of gains booked so far. -/
structure Tracks (a : Account) (gains : List ℚ) : Prop where
  equity : a.equity = gains.sum
  peak : IsGreatest (levels gains) a.peakEquity
  depth : IsMaxDrawdown gains a.maxDd

theorem tracks_initial : Tracks {} [] :=
  ⟨rfl, isGreatest_levels_nil, isMaxDrawdown_nil⟩

/-- Booking one R multiple keeps the account exact. -/
theorem Account.book_tracks {a : Account} {gains : List ℚ} (tracks : Tracks a gains)
    (r : ℚ) : Tracks (a.book r) (gains ++ [r]) := by
  have equity : (a.book r).equity = gains.sum + r := by
    rw [Account.book, tracks.equity]
  refine ⟨by simp [equity], ?_, ?_⟩
  · have highest := isGreatest_levels_snoc tracks.peak r
    rwa [← tracks.equity] at highest
  · have deepest := isMaxDrawdown_snoc tracks.peak tracks.depth r
    rwa [← tracks.equity] at deepest

/-- The loop invariant: the account tracks the trade log. -/
def AccountExact (s : LoopState) : Prop := Tracks s.account (rMultiples s.logs.trades)

theorem exitStep_accountExact (bars : List Bar) (i : ℕ) {s : LoopState}
    (tracked : AccountExact s) : AccountExact (exitStep bars i s) := by
  rcases exitStep_cases bars i s with
    ⟨_, same⟩ | ⟨_, _, same⟩ | ⟨reason, exitPrice, _, _, same⟩
  · rwa [same]
  · rwa [same]
  · rw [same]
    have booked := Account.book_tracks tracked (tradeRow bars i s reason exitPrice).rMultiple
    rwa [← rMultiples_snoc] at booked

/-- The entry gate books nothing. -/
theorem entryStep_books (bars : List Bar) (i : ℕ) (sc : ScoreRow) (s : LoopState) :
    (entryStep bars i sc s).account = s.account ∧
      (entryStep bars i sc s).logs.trades = s.logs.trades := by
  have gate : (expireBreakout bars i (detectBreakout bars i s)).account = s.account ∧
      (expireBreakout bars i (detectBreakout bars i s)).logs.trades = s.logs.trades := by
    unfold expireBreakout detectBreakout
    split <;> split <;> exact ⟨rfl, rfl⟩
  rcases entryStep_cases bars i sc s with ⟨_, same⟩ | ⟨gated, rfl, _, _, same | ⟨_, same⟩⟩
  · rw [same]
    exact ⟨rfl, rfl⟩
  · rwa [same]
  · rw [same]
    rcases takeRetest_cases bars i sc (expireBreakout bars i (detectBreakout bars i s)) with
      ⟨_, taken⟩ | ⟨_, _, rejected⟩
    · rw [taken]
      exact gate
    · rw [rejected]
      exact gate

theorem barStep_accountExact (bars : List Bar) (i : ℕ) {s : LoopState}
    (tracked : AccountExact s) : AccountExact (barStep bars i s) := by
  have afterExit : AccountExact (exitStep bars i (logScore (barScore bars i) s)) :=
    exitStep_accountExact bars i tracked
  obtain ⟨account, trades⟩ := entryStep_books bars i (barScore bars i)
    (exitStep bars i (logScore (barScore bars i) s))
  unfold AccountExact barStep
  rwa [account, trades]

theorem runLoop_accountExact (bars : List Bar) : AccountExact (runLoop bars) := by
  have initial : AccountExact {} := tracks_initial
  exact forLoop_invariant (fun _ s => AccountExact s) bars.length initial
    (fun i _ _ tracked => barStep_accountExact bars i tracked) _ le_rfl

/-- R multiple at which the last close leaves a trade that is still open. -/
def openR (bars : List Bar) : ℚ :=
  ((barAt bars (bars.length - 1)).close - (runLoop bars).entry) / (runLoop bars).R

/-- The run ends flat, or the trade still open at the last close falls no further
below any earlier cumulative R than the trades closed in the loop already did
between two positions of their own. -/
def DataEndWithinDrawdown (bars : List Bar) : Prop :=
  (runLoop bars).tradeOpen = true →
    ∀ level ∈ levels (rMultiples (runLoop bars).logs.trades),
      ∃ drop ∈ drops (rMultiples (runLoop bars).logs.trades),
        level - ((rMultiples (runLoop bars).logs.trades).sum + openR bars) ≤ drop

/-- A run that ends with a trade open logs one more trade and reports the same
drawdown. -/
theorem runBacktest_open {bars : List Bar} (isOpen : (runLoop bars).tradeOpen = true) :
    rMultiples (runBacktest bars).logs.trades =
        rMultiples (runLoop bars).logs.trades ++ [openR bars] ∧
      (runBacktest bars).account.maxDd = (runLoop bars).account.maxDd := by
  rw [runBacktest_trades isOpen]
  constructor
  · rw [rMultiples, List.map_append]
    rfl
  · simp [runBacktest, dataEnd, isOpen]

/-- The reported `max_drawdown_in_R` is the drawdown of the trade log of the same
run exactly when the trade closed by the end of the data stays within the
drawdown of the trades before it. -/
theorem maxDd_isMaxDrawdown_iff (bars : List Bar) :
    IsMaxDrawdown (rMultiples (runBacktest bars).logs.trades)
        (runBacktest bars).account.maxDd ↔
      DataEndWithinDrawdown bars := by
  have tracks : Tracks _ _ := runLoop_accountExact bars
  cases isOpen : (runLoop bars).tradeOpen with
  | false =>
      rw [runBacktest_flat isOpen]
      exact iff_of_true tracks.depth (by simp [DataEndWithinDrawdown, isOpen])
  | true =>
      obtain ⟨log, depth⟩ := runBacktest_open isOpen
      rw [log, depth, isMaxDrawdown_snoc_iff tracks.depth, DataEndWithinDrawdown]
      exact ⟨fun bounded _ => bounded, fun bounded => bounded isOpen⟩

/-- A bar of the flat stretch in front of the breakout of `losingBars`. -/
def quietBar : Bar where
  openPrice := 100
  high := 100
  low := 99
  close := 100
  volume := 100
  vwap := 100
  atr14 := 1
  mseState := "RANGE"
  regime := "NORMAL"

/-- Twenty quiet bars, a breakout bar on which the retest is taken at 105, and a
last bar that closes at 102 with the trade still open. -/
def losingBars : List Bar :=
  List.replicate 20 quietBar ++
    [{ openPrice := 100, high := 105, low := 100, close := 105, volume := 200, vwap := 100,
        atr14 := 1, spreadPct := 0.2, liquidityScore := 0.8, mseState := "TREND_UP",
        regime := "NORMAL", ipseAlignment := "ALIGNED", microstructureState := "HEALTHY",
        mpsState := "PASS" },
      { openPrice := 105, high := 105, low := 101, close := 102, volume := 100, vwap := 102,
        atr14 := 1, mseState := "RANGE", regime := "NORMAL", mpsState := "PASS" }]

/-- On `losingBars` the log holds one trade of `-10/17` R, closed by the end of the
data, and the report says that there was no drawdown. -/
theorem losingBars_maxDd :
    ¬ IsMaxDrawdown (rMultiples (runBacktest losingBars).logs.trades)
      (runBacktest losingBars).account.maxDd := by
  have log : rMultiples (runBacktest losingBars).logs.trades = [-10 / 17] := by
    decide +kernel
  have reported : (runBacktest losingBars).account.maxDd = 0 := by
    decide +kernel
  rw [log, reported]
  intro deepest
  have fall : (10 / 17 : ℚ) ∈ drops [(-10 / 17 : ℚ)] :=
    ⟨0, 1, by simp, by simp, by norm_num [cumulative]⟩
  have bound := deepest.2 fall
  norm_num at bound

end PrismPipeline.Backtest
