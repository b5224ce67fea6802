import PrismPipeline.Backtest.OutputLogs
import PrismPipeline.Backtest.Reports
import PrismPipeline.Live.Bookkeeping
import PrismPipeline.Live.TradeOutcome

/-!
# The files of the live program

`trade_log.csv`, which the manager writes row by row as it closes trades, and
`performance_summary.json`, which it writes at the end from its counters.  The log can be read
back, and the summary is the one that the records in the rows of the log make.
-/

namespace PrismPipeline.Live

open PrismPipeline.Machine PrismPipeline.Text PrismPipeline.Text.Json
open PrismPipeline.Backtest (LogColumn Double Entry ReadsBack ShowsReport PlainKeys Plain
  SoundColumns logFile ostreamDouble sixthDigit reportFile reportFile_shows
  reportFile_value_iff readsBack_iff plain_double plain_number abs_sum_read_sub_le)

/-! ## The files -/

/-- The columns of `trade_log.csv`. -/
def tradeLogColumns : List (LogColumn CsvRow) :=
  [{ name := "trade_id", text := fun row => toString row.tradeId },
    .number "entry" fun row => row.entry,
    .number "exit" fun row => row.exit,
    .number "initial_stop" fun row => row.initialStop,
    .number "final_stop" fun row => row.finalStop,
    .number "target1" fun row => row.target1,
    .number "target2" fun row => row.target2,
    .number "R_multiple" fun row => row.rMultiple,
    { name := "result", text := fun row => row.result },
    { name := "entry_reason", text := fun row => row.entryReason },
    { name := "exit_reason", text := fun row => row.exitReason }]

/-- The doubles that are streamed into the summary. -/
structure PerformanceFigures where
  winRate : Double
  grossR : Double
  averageR : Double

def PerformanceFigures.Finite (figures : PerformanceFigures) : Prop :=
  figures.winRate.IsFinite ∧ figures.grossR.IsFinite ∧ figures.averageR.IsFinite

namespace TradeManager

/-- The log on the disk, where it could be opened. -/
def tradeLogFile (m : TradeManager) : Option (List Char) := m.csv.map (logFile tradeLogColumns)

def averageR (m : TradeManager) : ℚ := if m.totalTrades = 0 then 0 else m.grossR / m.totalTrades

def winRate (m : TradeManager) : ℚ := if m.totalTrades = 0 then 0 else m.wins / m.totalTrades

/-- The figures without any rounding. -/
def figures (m : TradeManager) : PerformanceFigures where
  winRate := .finite m.winRate
  grossR := .finite m.grossR
  averageR := .finite m.averageR

section Summary

variable (m : TradeManager) (figures : PerformanceFigures)

def summaryFields : List (String × Entry) :=
  [("total_trades", .count m.totalTrades), ("wins", .count m.wins), ("losses", .count m.losses),
    ("breakevens", .count m.breakevens), ("win_rate", .number figures.winRate),
    ("gross_R", .number figures.grossR), ("average_R", .number figures.averageR),
    ("open_trade", .flag m.hasOpenTrade)]

/-- `write_summary_json` with the figures that the sums come to. -/
def writeSummaryJson : List Char := reportFile (m.summaryFields figures)

theorem summaryFields_keys : PlainKeys ((m.summaryFields figures).map Prod.fst) := by
  have keys : (m.summaryFields figures).map Prod.fst =
      ["total_trades", "wins", "losses", "breakevens", "win_rate", "gross_R", "average_R",
        "open_trade"] := rfl
  rw [keys]
  exact ⟨by decide, by decide, by decide⟩

theorem summaryFields_finite_iff :
    (∀ field ∈ m.summaryFields figures, field.2.Finite) ↔ figures.Finite := by
  simp only [summaryFields, PerformanceFigures.Finite, List.forall_mem_cons, List.not_mem_nil,
    Entry.Finite, true_and, false_imp_iff, implies_true, and_true]

end Summary

end TradeManager

/-! ## The summary of a log -/

/-- Number of rows with a result. -/
def rowsWith (result : TradeResult) (rows : List CsvRow) : ℕ :=
  rows.countP fun row => row.result = result.text

def totalR (rows : List CsvRow) : ℚ := (rows.map CsvRow.rMultiple).sum

/-- The summary that the rows of a log make. -/
def summaryOfRows (rows : List CsvRow) (isOpen : Bool) : List (String × Entry) :=
  [("total_trades", .count rows.length), ("wins", .count (rowsWith .win rows)),
    ("losses", .count (rowsWith .loss rows)), ("breakevens", .count (rowsWith .breakeven rows)),
    ("win_rate",
      .number (.finite (if rows.length = 0 then 0 else rowsWith .win rows / rows.length))),
    ("gross_R", .number (.finite (totalR rows))),
    ("average_R", .number (.finite (if rows.length = 0 then 0 else totalR rows / rows.length))),
    ("open_trade", .flag isOpen)]

/-- The R multiple that a reader of a row gets. -/
def printedR (row : CsvRow) : ℚ := readDecimal (ostreamDouble row.rMultiple).toList

theorem printedR_total (rows : List CsvRow) : |(rows.map printedR).sum - totalR rows| ≤
    (rows.map fun row => sixthDigit row.rMultiple / 2).sum := by
  have sums := abs_sum_read_sub_le (rows.map CsvRow.rMultiple)
  rwa [List.map_map, List.map_map] at sums

namespace TradeManager

variable {m : TradeManager}

/-- The counters of a manager are those of its rows. -/
theorem summaryFields_eq {opened : Bool} (tally : Tallied m) (books : Ledger opened m) :
    m.summaryFields m.figures = summaryOfRows m.rows m.hasOpenTrade := by
  have total : m.rows.length = m.totalTrades := by
    rw [rows, List.length_map, tally.total]
  have wins : rowsWith .win m.rows = m.wins := by
    rw [tally.wins, countResult_eq_rows]
    rfl
  have losses : rowsWith .loss m.rows = m.losses := by
    rw [tally.losses, countResult_eq_rows]
    rfl
  have breakevens : rowsWith .breakeven m.rows = m.breakevens := by
    rw [tally.breakevens, countResult_eq_rows]
    rfl
  unfold summaryOfRows summaryFields figures winRate averageR totalR
  rw [total, wins, losses, breakevens, books.gross]

theorem rows_ids (tally : Tallied m) :
    m.rows.map CsvRow.tradeId = List.range' 1 m.rows.length := by
  have ids : m.rows.map CsvRow.tradeId = m.closedTrades.map ManagedTrade.tradeId := by
    rw [rows, List.map_map]
    rfl
  have total : m.rows.length = m.totalTrades := by
    rw [rows, List.length_map, tally.total]
  rw [ids, total]
  exact tally.ids

end TradeManager

/-! ## Texts of a row -/

/-- The reason of every signal of the strategy. -/
def retestReason : String := (PrismStrategy.retestSignal default).reason

/-- Every trade was entered for the one reason there is. -/
structure OneReason (m : TradeManager) : Prop where
  current : m.state = .longOpen → m.trade.entryReason = retestReason
  closed : ∀ t ∈ m.closedTrades, t.entryReason = retestReason

theorem touchTarget1_entryReason (t : ManagedTrade) (price : ℚ) :
    (t.touchTarget1 price).entryReason = t.entryReason := by
  obtain ⟨hit, stop, eq⟩ := TradeManager.touchTarget1_frame t price
  rw [eq]

section Step

variable {m : TradeManager}

theorem OneReason.close (one : OneReason m) (isOpen : m.state = .longOpen) (price : ℚ)
    (reason : ExitReason) : OneReason ((m.touched price).closeTrade price reason) := by
  refine ⟨fun stillOpen => PositionState.noConfusion stillOpen, ?_⟩
  refine List.forall_mem_append.mpr ⟨one.closed, fun t member => ?_⟩
  obtain rfl := List.mem_singleton.mp member
  exact (touchTarget1_entryReason m.trade price).trans (one.current isOpen)

theorem OneReason.onPrice (one : OneReason m) (price : ℚ) : OneReason (m.onPrice price) := by
  have effect := m.onPrice_effect price
  generalize m.onPrice price = next at *
  cases effect with
  | flat => exact one
  | holds isOpen =>
      refine ⟨fun _ => ?_, one.closed⟩
      exact (touchTarget1_entryReason m.trade price).trans (one.current isOpen)
  | wins isOpen => exact one.close isOpen price _
  | stops isOpen => exact one.close isOpen price _

theorem OneReason.onSignal (one : OneReason m) {signal : PrismSignal}
    (reason : signal.active = true → signal.reason = retestReason) :
    OneReason (m.onSignal signal) := by
  have effect := m.onSignal_effect signal
  generalize m.onSignal signal = next at *
  cases effect with
  | ignored => exact one
  | opens active => exact ⟨fun _ => reason active, one.closed⟩

end Step

/-- The engine hands the reason over. -/
theorem EngineWorld.Delivery.reason {w : EngineWorld} (delivery : w.Delivery)
    (signalled : w.hasSignal = true) : w.lastSignal.reason = retestReason := by
  have level := delivery.hasSignal_eq
  have shown := delivery.shown
  rw [signalled] at level
  rw [if_pos level.symm] at shown
  unfold EngineWorld.lastSignal
  rw [shown]
  rw [delivery.strategy] at level ⊢
  cases bars : w.strategyBars using List.reverseRecOn with
  | nil =>
      rw [bars] at level
      exact absurd level.symm Bool.false_ne_true
  | append_singleton earlier last =>
      rw [bars, strategyAfter_snoc] at level
      obtain ⟨_, _, _, _, _, signal, _⟩ := PrismStrategy.onNewBar_signal level.symm
      rw [strategyAfter_snoc, signal]
      rfl

/-! ## Runs -/

/-- What the files of a manager rest on. -/
structure Books (m : TradeManager) : Prop where
  tally : TradeManager.Tallied m
  ledger : TradeManager.Ledger true m
  one : OneReason m

theorem managerAt_books (length : BarLength) (packets : List TradePacket) :
    Books (managerAt length true packets) := by
  refine liveMachine.after_induction (fun _ s => Books s.tradeManager) ?_ ?_ packets
  · exact ⟨TradeManager.tallied_fresh true, TradeManager.ledger_fresh true,
      fun isOpen => PositionState.noConfusion isOpen,
      fun t member => absurd member List.not_mem_nil⟩
  · intro packets p books
    have delivery := (liveAfter_acts length true packets).delivery.onTrade p
    change Books (liveAfter length true packets).tradeManager at books
    change Books ((liveAfter length true packets).processPacket p).tradeManager
    generalize liveAfter length true packets = s at *
    obtain ⟨tally, ledger, one⟩ := books
    by_cases rises : s.Rises p
    · rw [LiveState.processPacket_rises s p rises]
      exact ⟨(tally.onPrice p.price).onSignal _, (ledger.onPrice p.price).onSignal _,
        (one.onPrice p.price).onSignal fun _ => delivery.reason rises.1⟩
    · rw [LiveState.processPacket_quiet s p rises]
      exact ⟨tally.onPrice p.price, ledger.onPrice p.price, one.onPrice p.price⟩

theorem tradeLogColumns_sound : SoundColumns tradeLogColumns :=
  ⟨by decide, by decide, by decide⟩

/-- The texts of a row have neither quotes nor commas nor line breaks. -/
theorem csvRow_plain {t : ManagedTrade} (one : t.entryReason = retestReason) :
    ∀ column ∈ tradeLogColumns, Plain (column.text t.csvRow) ∧
      ',' ∉ (column.text t.csvRow).toList := by
  have tradeId := plain_number (.nat t.csvRow.tradeId)
  have result : Plain t.csvRow.result ∧ ',' ∉ t.csvRow.result.toList := by
    change Plain (resultText t.rMultiple) ∧ ',' ∉ (resultText t.rMultiple).toList
    rw [TradeResult.resultText_eq]
    cases TradeResult.of t.rMultiple <;> decide
  have entryReason : Plain t.csvRow.entryReason ∧ ',' ∉ t.csvRow.entryReason.toList := by
    change Plain t.entryReason ∧ ',' ∉ t.entryReason.toList
    rw [one]
    decide
  have exitReason : Plain t.csvRow.exitReason ∧ ',' ∉ t.csvRow.exitReason.toList := by
    change Plain ((t.exitReason.map ExitReason.text).getD "") ∧
      ',' ∉ ((t.exitReason.map ExitReason.text).getD "").toList
    cases t.exitReason with
    | none => decide
    | some reason => cases reason <;> decide
  simp only [tradeLogColumns, LogColumn.number, List.forall_mem_cons]
  exact ⟨tradeId, plain_double _, plain_double _, plain_double _, plain_double _, plain_double _,
    plain_double _, plain_double _, result, entryReason, exitReason,
    fun column member => absurd member List.not_mem_nil⟩

/-- What the two files of a run say. -/
structure FilesAgree (m : TradeManager) (rows : List CsvRow) : Prop where
  log : m.tradeLogFile = some (logFile tradeLogColumns rows)
  reads : ReadsBack tradeLogColumns rows
  ids : rows.map CsvRow.tradeId = List.range' 1 rows.length
  json : ∀ figures, (∃ v, Spells (.element v) (m.writeSummaryJson figures)) ↔ figures.Finite
  summary : ∃ members,
    ShowsReport (summaryOfRows rows m.hasOpenTrade) (m.writeSummaryJson m.figures) members
  printed : |(rows.map printedR).sum - totalR rows| ≤
    (rows.map fun row => sixthDigit row.rMultiple / 2).sum

/-- After any packets the log has a row for each closed trade and reads back row by row.  The
summary is JSON for just those doubles that are finite, and without rounding it shows what the
rows add up to. -/
theorem live_files (length : BarLength) (packets : List TradePacket) :
    FilesAgree (managerAt length true packets) (managerAt length true packets).rows := by
  obtain ⟨tally, ledger, one⟩ := managerAt_books length packets
  generalize managerAt length true packets = m at *
  have texts : ∀ row ∈ m.rows, ∀ column ∈ tradeLogColumns, Plain (column.text row) ∧
      ',' ∉ (column.text row).toList :=
    List.forall_mem_map.mpr fun t member => csvRow_plain (one.closed t member)
  refine ⟨?_, ?_, TradeManager.rows_ids tally, fun figures => ?_, ?_, printedR_total m.rows⟩
  · rw [TradeManager.tradeLogFile, ledger.written]
    rfl
  · rw [readsBack_iff tradeLogColumns_sound fun row logged column member =>
      (texts row logged column member).1]
    exact fun row logged column member _ => (texts row logged column member).2
  · rw [TradeManager.writeSummaryJson, reportFile_value_iff (m.summaryFields_keys figures)]
    exact m.summaryFields_finite_iff figures
  · rw [← TradeManager.summaryFields_eq tally ledger]
    refine reportFile_shows (m.summaryFields_keys m.figures) ?_
    exact (m.summaryFields_finite_iff m.figures).mpr ⟨⟨_, rfl⟩, ⟨_, rfl⟩, ⟨_, rfl⟩⟩

end PrismPipeline.Live
