import PrismPipeline.Backtest.LineEndings
import PrismPipeline.Backtest.PrintedNumbers
import PrismPipeline.Backtest.Provenance
import PrismPipeline.Text.Rows

/-!
# The output logs

The three files with rows, and what the program's own reader makes of them.  A writer puts
quotes around the zone and the reasons of an intent and around nothing else; texts that come
from the market data are written as they are.
-/

namespace PrismPipeline.Backtest

open PrismPipeline.Text

/-! ## Writing -/

/-- A column of a log, and what is written in it for a row. -/
structure LogColumn (ρ : Type) where
  name : String
  text : ρ → String
  quoted : Bool := false

def LogColumn.number {ρ : Type} (name : String) (value : ρ → ℚ) : LogColumn ρ where
  name := name
  text row := ostreamDouble (value row)

section Writing

variable {ρ : Type} (columns : List (LogColumn ρ))

def headerLine : List Char :=
  writeRow '"' ',' (columns.map fun column => (false, column.name.toList))

def rowLine (row : ρ) : List Char :=
  writeRow '"' ',' (columns.map fun column => (column.quoted, (column.text row).toList))

def logFile (rows : List ρ) : List Char :=
  endedBy ['\n'] (headerLine columns :: rows.map (rowLine columns))

end Writing

/-- `setup_score_log.csv` -/
def setupScoreLog : List (LogColumn ScoreRow) :=
  [{ name := "timestamp", text := fun s => s.timestamp },
    .number "structure" fun s => s.structureScore,
    .number "positioning" fun s => s.positioning,
    .number "regime" fun s => s.regime,
    .number "microstructure" fun s => s.microstructure,
    .number "interaction" fun s => s.interaction,
    .number "setup_score" fun s => s.setupScore,
    { name := "tier", text := fun s => s.tier.text }]

/-- `entry_intent_log.csv` -/
def entryIntentLog : List (LogColumn IntentLog) :=
  [{ name := "timestamp", text := fun i => i.timestamp },
    { name := "entry_type", text := fun i => i.entryType.text },
    .number "breakout_level" fun i => i.breakoutLevel,
    { name := "retest_zone", text := fun i => i.retestZone, quoted := true },
    .number "entry_price" fun i => i.entryPrice,
    .number "stop_loss" fun i => i.stopLoss,
    .number "target1" fun i => i.target1,
    .number "target2" fun i => i.target2,
    .number "setup_score" fun i => i.setupScore,
    { name := "reason_codes", text := fun i => i.reasonCodes, quoted := true }]

/-- `trade_log.csv` -/
def tradeLog : List (LogColumn TradeLog) :=
  [{ name := "trade_id", text := fun t => toString t.tradeId },
    { name := "entry_time", text := fun t => t.entryTime },
    .number "entry_price" fun t => t.entryPrice,
    .number "stop_loss" fun t => t.stopLoss,
    .number "target1" fun t => t.target1,
    .number "target2" fun t => t.target2,
    { name := "exit_time", text := fun t => t.exitTime },
    .number "exit_price" fun t => t.exitPrice,
    { name := "exit_reason", text := fun t => t.exitReason.text },
    .number "r_multiple" fun t => t.rMultiple,
    .number "setup_score_at_entry" fun t => t.setupScore,
    { name := "regime_at_entry", text := fun t => t.regimeAtEntry },
    { name := "holding_bars", text := fun t => toString t.holdingBars }]

/-! ## Reading back -/

/-- The line has a cell for each column, and each cell is what was logged. -/
def RowReadsBack {ρ : Type} (columns : List (LogColumn ρ)) (header : List String) (row : ρ)
    (line : List Char) : Prop :=
  (splitCsvLine line).length = header.length ∧ ∀ column ∈ columns,
    getCell (columnIndex header) (splitCsvLine line) column.name = column.text row

/-- The file has a line for each row, and each reads back under the header of the file. -/
def ReadsBack {ρ : Type} (columns : List (LogColumn ρ)) (rows : List ρ) : Prop :=
  List.Forall₂ (RowReadsBack columns
      (splitCsvLine ((linesOf '\n' (logFile columns rows)).headD [])))
    rows (linesOf '\n' (logFile columns rows)).tail

/-- A text without quotes on one line. -/
def Plain (s : String) : Prop := '"' ∉ s.toList ∧ '\n' ∉ s.toList

instance (s : String) : Decidable (Plain s) := inferInstanceAs (Decidable (_ ∧ _))

/-- Columns with distinct names that need no quotes. -/
structure SoundColumns {ρ : Type} (columns : List (LogColumn ρ)) : Prop where
  some : columns ≠ []
  distinct : (columns.map fun column => column.name).Nodup
  plain : ∀ column ∈ columns, Plain column.name ∧ ',' ∉ column.name.toList

section Reading

variable {ρ : Type} {columns : List (LogColumn ρ)} {row : ρ}

theorem splitCsvLine_header (sound : SoundColumns columns) :
    splitCsvLine (headerLine columns) = columns.map fun column => column.name := by
  have clear : ∀ entry ∈ columns.map (fun column => (false, column.name.toList)),
      '"' ∉ entry.2 :=
    List.forall_mem_map.mpr fun column member => (sound.plain column member).1.1
  have free : ∀ entry ∈ columns.map (fun column => (false, column.name.toList)),
      entry.1 = false → ',' ∉ entry.2 :=
    List.forall_mem_map.mpr fun column member _ => (sound.plain column member).2
  rw [splitCsvLine, headerLine,
    splitQuoted_writeRow (by decide) (by simpa using sound.some) clear free]
  simp

/-- The cells of a row have no quotes of their own. -/
theorem cells_noQuote (plain : ∀ column ∈ columns, Plain (column.text row)) :
    ∀ entry ∈ columns.map fun column => (column.quoted, (column.text row).toList),
      '"' ∉ entry.2 :=
  List.forall_mem_map.mpr fun column member => (plain column member).1

theorem splitCsvLine_row_length_iff (some : columns ≠ [])
    (plain : ∀ column ∈ columns, Plain (column.text row)) :
    (splitCsvLine (rowLine columns row)).length = columns.length ↔
      ∀ column ∈ columns, column.quoted = false → ',' ∉ (column.text row).toList := by
  have clear := cells_noQuote plain
  have iff := splitQuoted_writeRow_length_iff (by decide : ',' ≠ '"') (by simpa using some) clear
  rw [List.length_map, List.forall_mem_map] at iff
  rw [splitCsvLine, List.length_map, rowLine]
  exact iff

theorem splitCsvLine_row (some : columns ≠ [])
    (plain : ∀ column ∈ columns, Plain (column.text row))
    (free : ∀ column ∈ columns, column.quoted = false → ',' ∉ (column.text row).toList) :
    splitCsvLine (rowLine columns row) = columns.map fun column => column.text row := by
  have clear := cells_noQuote plain
  have loose : ∀ entry ∈ columns.map (fun column => (column.quoted, (column.text row).toList)),
      entry.1 = false → ',' ∉ entry.2 := List.forall_mem_map.mpr free
  rw [splitCsvLine, rowLine, splitQuoted_writeRow (by decide) (by simpa using some) clear loose]
  simp

/-- The cell under the name of a column is the text of the column. -/
theorem getCell_column (sound : SoundColumns columns) {column : LogColumn ρ}
    (member : column ∈ columns) :
    getCell (columnIndex (columns.map fun column => column.name))
      (columns.map fun column => column.text row) column.name = column.text row := by
  obtain ⟨i, inside, rfl⟩ := List.mem_iff_getElem.mp member
  have found : columnIndex (columns.map fun column => column.name) columns[i].name = some i := by
    have index := columnIndex_getElem sound.distinct (i := i) (by simpa using inside)
    rw [List.getElem_map] at index
    exact index
  unfold getCell
  rw [found]
  simp [List.getD_eq_getElem?_getD, inside]

theorem rowReadsBack_iff (sound : SoundColumns columns)
    (plain : ∀ column ∈ columns, Plain (column.text row)) :
    RowReadsBack columns (columns.map fun column => column.name) row (rowLine columns row) ↔
      ∀ column ∈ columns, column.quoted = false → ',' ∉ (column.text row).toList := by
  unfold RowReadsBack
  rw [List.length_map, splitCsvLine_row_length_iff sound.some plain, and_iff_left_iff_imp]
  intro free column member
  rw [splitCsvLine_row sound.some plain free]
  exact getCell_column sound member

theorem rowLine_noBreak (plain : ∀ column ∈ columns, Plain (column.text row)) :
    '\n' ∉ rowLine columns row := by
  apply writeRow_notMem (by decide) (by decide)
  exact List.forall_mem_map.mpr fun column member => (plain column member).2

theorem headerLine_noBreak (sound : SoundColumns columns) : '\n' ∉ headerLine columns := by
  apply writeRow_notMem (by decide) (by decide)
  exact List.forall_mem_map.mpr fun column member => (sound.plain column member).1.2

/-- A log reads back exactly when no cell without quotes has a comma. -/
theorem readsBack_iff (sound : SoundColumns columns) {rows : List ρ}
    (plain : ∀ row ∈ rows, ∀ column ∈ columns, Plain (column.text row)) :
    ReadsBack columns rows ↔ ∀ row ∈ rows, ∀ column ∈ columns, column.quoted = false →
      ',' ∉ (column.text row).toList := by
  have free : ∀ line ∈ headerLine columns :: rows.map (rowLine columns), '\n' ∉ line := by
    rw [List.forall_mem_cons, List.forall_mem_map]
    exact ⟨headerLine_noBreak sound, fun row member => rowLine_noBreak (plain row member)⟩
  have lines : linesOf '\n' (logFile columns rows) =
      headerLine columns :: rows.map (rowLine columns) :=
    (endedBy_written _).linesOf_eq free
  unfold ReadsBack
  rw [lines, List.headD_cons, List.tail_cons, splitCsvLine_header sound,
    List.forall₂_map_right_iff, List.forall₂_same]
  exact forall₂_congr fun row member => rowReadsBack_iff sound (plain row member)

end Reading

/-! ## The texts of a run -/

/-- No text that `read_csv` has read has a quote or a line break. -/
theorem readCsv_plain {stod : String → Option ℚ} {path : String} {file : Option (List Char)}
    {bars : List Bar} (read : readCsv stod path file = .ok bars) (field : TextField) :
    ∀ bar ∈ bars, Plain (field.value bar) := by
  cases file with
  | none => cases read
  | some text =>
      cases read
      intro bar member
      obtain ⟨line, inside, rfl⟩ := List.mem_map.mp member
      have oneLine : '\n' ∉ line :=
        stop_notMem_linesOf text line (List.mem_of_mem_tail (List.mem_of_mem_filter inside))
      have cells : ∀ cell ∈ splitCsvLine line, Plain cell := by
        intro cell found
        obtain ⟨letters, split, rfl⟩ := List.mem_map.mp found
        have only := mem_splitQuoted line letters split
        rw [Plain, String.toList_ofList]
        exact ⟨fun quote => (only _ quote).2 rfl, fun stop => oneLine (only _ stop).1⟩
      have empty : Plain "" := by decide
      rw [field.readBar_value]
      unfold getCell
      split
      · exact empty
      · next i _ =>
          split
          · exact empty
          · next long =>
              rw [List.getD_eq_getElem?_getD, List.getElem?_eq_getElem (not_le.mp long),
                Option.getD_some]
              exact cells _ (List.getElem_mem _)

section Texts

theorem plain_number {text : String} (number : NumberText text.toList) :
    Plain text ∧ ',' ∉ text.toList :=
  ⟨⟨number.notMem rfl, number.notMem rfl⟩, number.notMem rfl⟩

theorem plain_double (x : ℚ) : Plain (ostreamDouble x) ∧ ',' ∉ (ostreamDouble x).toList :=
  plain_number (.ostreamDouble x)

theorem plain_tier (tier : Tier) : Plain tier.text ∧ ',' ∉ tier.text.toList := by
  cases tier with
  | ignore | minimum | strong | premium => decide

theorem plain_entryType (entryType : EntryType) :
    Plain entryType.text ∧ ',' ∉ entryType.text.toList := by
  cases entryType with
  | retestEntry | reEntry => decide

theorem plain_exitReason (reason : ExitReason) :
    Plain reason.text ∧ ',' ∉ reason.text.toList := by
  cases reason with
  | stopHit | target2Hit | target1Hit | invalidCloseBelowBreakout | invalidRegimeShock
  | invalidMseTrendDown | invalidMpsBlock | timeExit | dataEndExit => decide

theorem Plain.append {a b : String} (first : Plain a) (second : Plain b) : Plain (a ++ b) := by
  unfold Plain
  rw [String.toList_append, List.mem_append, List.mem_append, not_or, not_or]
  exact ⟨⟨first.1, second.1⟩, first.2, second.2⟩

/-- The zone has a comma in it, and stands in quotes. -/
theorem plain_zone (low high : ℚ) :
    Plain ("[" ++ toStdString low ++ "," ++ toStdString high ++ "]") := by
  have numbers (x : ℚ) : Plain (toStdString x) := (plain_number (.toStdString x)).1
  have opening : Plain "[" := by decide
  have middle : Plain "," := by decide
  have closing : Plain "]" := by decide
  exact (((opening.append (numbers low)).append middle).append (numbers high)).append closing

theorem Plain.letters {s : String} (plain : Plain s) : ∀ c ∈ s.toList, c ≠ '"' ∧ c ≠ '\n' := by
  intro c member
  constructor
  · rintro rfl
    exact plain.1 member
  · rintro rfl
    exact plain.2 member

theorem plain_reason (reason : RejectReason) : Plain reason.text := by
  cases reason with
  | closeBelowRetestMidpoint | closeBelowVwap | closePositionLt | setupScoreLt | liquidityLt
  | volumeRatioLt | spreadGt | mpsBlock | regimeShock | mseTrendDown | riskNotPositive => decide

theorem plain_reasons (reasons : List RejectReason) : Plain (reasonJoin reasons) := by
  have accepted : Plain "ACCEPTED" := by decide
  have letters : ∀ c ∈ (reasonJoin reasons).toList, c ≠ '"' ∧ c ≠ '\n' :=
    reasonJoin_letters (fun reason => (plain_reason reason).letters) (by decide)
      accepted.letters reasons
  exact ⟨fun quote => (letters _ quote).1 rfl, fun stop => (letters _ stop).2 rfl⟩

end Texts

/-! ## The logs of a run -/

section Rows

/-- What is needed of the cells of a row. -/
structure GoodRow {ρ : Type} (columns : List (LogColumn ρ)) (row : ρ) (fromFile : List String) :
    Prop where
  plain : (∀ text ∈ fromFile, Plain text) → ∀ column ∈ columns, Plain (column.text row)
  loose : (∀ column ∈ columns, column.quoted = false → ',' ∉ (column.text row).toList) ↔
    ∀ text ∈ fromFile, ',' ∉ text.toList

theorem setupScoreLog_row (row : ScoreRow) : GoodRow setupScoreLog row [row.timestamp] where
  plain texts := by
    rw [List.forall_mem_singleton] at texts
    simp only [setupScoreLog, LogColumn.number, List.forall_mem_cons]
    simp [texts, plain_double, plain_tier]
  loose := by
    simp only [setupScoreLog, LogColumn.number, List.forall_mem_cons]
    simp [plain_double, plain_tier]

theorem tradeLog_row (row : TradeLog) :
    GoodRow tradeLog row [row.entryTime, row.exitTime, row.regimeAtEntry] where
  plain texts := by
    have tradeId : Plain (toString row.tradeId) := (plain_number (.int row.tradeId.toInt)).1
    have holdingBars : Plain row.holdingBars.repr := (plain_number (.int row.holdingBars)).1
    simp only [List.forall_mem_cons] at texts
    simp only [tradeLog, LogColumn.number, List.forall_mem_cons]
    simp [texts, plain_double, plain_exitReason, tradeId, holdingBars]
  loose := by
    have tradeId : ',' ∉ (toString row.tradeId).toList :=
      (plain_number (.int row.tradeId.toInt)).2
    have holdingBars : ',' ∉ row.holdingBars.repr.toList :=
      (plain_number (.int row.holdingBars)).2
    simp only [tradeLog, LogColumn.number, List.forall_mem_cons]
    simp [plain_double, plain_exitReason, tradeId, holdingBars]

theorem entryIntentLog_row (bars : List Bar) (i : ℕ) (reasons : List RejectReason)
    (s : LoopState) :
    GoodRow entryIntentLog (retestRow bars i reasons s) [(barAt bars i).timestamp] where
  plain texts := by
    have zone : Plain (retestRow bars i reasons s).retestZone := plain_zone _ _
    have codes : Plain (retestRow bars i reasons s).reasonCodes := plain_reasons reasons
    have time : Plain (retestRow bars i reasons s).timestamp :=
      texts _ (List.mem_singleton_self _)
    simp only [entryIntentLog, LogColumn.number, List.forall_mem_cons]
    simp [plain_double, plain_entryType, zone, codes, time]
  loose := by
    have time : (retestRow bars i reasons s).timestamp = (barAt bars i).timestamp := rfl
    simp only [entryIntentLog, LogColumn.number, List.forall_mem_cons]
    simp [plain_double, plain_entryType, time]

end Rows

theorem setupScoreLog_sound : SoundColumns setupScoreLog :=
  ⟨by decide, by decide, by decide⟩

theorem entryIntentLog_sound : SoundColumns entryIntentLog :=
  ⟨by decide, by decide, by decide⟩

theorem tradeLog_sound : SoundColumns tradeLog :=
  ⟨by decide, by decide, by decide⟩

/-- A log of good rows reads back exactly when its texts from the file have no comma. -/
theorem readsBack_iff_texts {ρ : Type} {columns : List (LogColumn ρ)} {rows : List ρ}
    (sound : SoundColumns columns) (fromFile : ρ → List String)
    (good : ∀ row ∈ rows, GoodRow columns row (fromFile row))
    (plain : ∀ row ∈ rows, ∀ text ∈ fromFile row, Plain text) :
    ReadsBack columns rows ↔ ∀ row ∈ rows, ∀ text ∈ fromFile row, ',' ∉ text.toList := by
  rw [readsBack_iff sound fun row member => (good row member).plain (plain row member)]
  exact forall₂_congr fun row member => (good row member).loose

/-- The three logs of a run read back. -/
structure LogsReadBack (s : LoopState) : Prop where
  scores : ReadsBack setupScoreLog s.logs.scores
  intents : ReadsBack entryIntentLog s.logs.intents
  trades : ReadsBack tradeLog s.logs.trades

section Run

variable {bars : List Bar} (timestamps : ∀ bar ∈ bars, Plain bar.timestamp)

include timestamps

theorem scores_readBack_iff :
    ReadsBack setupScoreLog (runBacktest bars).logs.scores ↔
      ∀ bar ∈ bars, ',' ∉ bar.timestamp.toList := by
  have texts : ∀ {P : String → Prop}, (∀ row ∈ (runBacktest bars).logs.scores,
      ∀ text ∈ [row.timestamp], P text) ↔ ∀ bar ∈ bars, P bar.timestamp := by
    intro P
    rw [runBacktest_scores, List.forall_mem_map]
    simp only [List.mem_range, List.forall_mem_singleton]
    constructor
    · intro all bar member
      obtain ⟨i, inside, rfl⟩ := List.mem_iff_getElem.mp member
      have here : (barScore bars i).timestamp = bars[i].timestamp := by
        change (barAt bars i).timestamp = _
        simp [barAt, List.getD_eq_getElem?_getD, inside]
      exact here ▸ all i inside
    · intro all i inside
      exact all (barAt bars i) (barAt_mem inside)
  rw [readsBack_iff_texts setupScoreLog_sound (fun row => [row.timestamp])
    (fun row _ => setupScoreLog_row row) (texts.mpr timestamps)]
  exact texts

/-- The texts of an intent that come from the file are timestamps. -/
theorem intents_readBack (free : ∀ bar ∈ bars, ',' ∉ bar.timestamp.toList) :
    ReadsBack entryIntentLog (runBacktest bars).logs.intents := by
  have texts : ∀ {P : String → Prop}, (∀ bar ∈ bars, P bar.timestamp) →
      ∀ row ∈ (runBacktest bars).logs.intents, ∀ text ∈ [row.timestamp], P text := by
    intro P all row member
    obtain ⟨i, inside, reasons, s, rfl⟩ := exists_of_mem_intents member
    rw [List.forall_mem_singleton]
    exact all (barAt bars i) (barAt_mem inside)
  refine (readsBack_iff_texts entryIntentLog_sound (fun row => [row.timestamp]) ?_
    (texts timestamps)).mpr (texts free)
  intro row member
  obtain ⟨i, inside, reasons, s, rfl⟩ := exists_of_mem_intents member
  exact entryIntentLog_row bars i reasons s

/-- Those of a trade are two timestamps and a regime. -/
theorem trades_readBack_iff (regimes : ∀ bar ∈ bars, Plain bar.regime)
    (free : ∀ bar ∈ bars, ',' ∉ bar.timestamp.toList) :
    ReadsBack tradeLog (runBacktest bars).logs.trades ↔
      ∀ entry ∈ acceptedBy bars bars.length, ',' ∉ (barAt bars entry.1).regime.toList := by
  have times (P : String → Prop) (all : ∀ bar ∈ bars, P bar.timestamp) :
      ∀ row ∈ (runBacktest bars).logs.trades, P row.entryTime ∧ P row.exitTime := by
    intro row member
    obtain ⟨e, entered, i, closed, entryTime, exitTime⟩ := exists_of_mem_trades member
    rw [entryTime, exitTime]
    exact ⟨all _ (barAt_mem entered), all _ (barAt_mem closed)⟩
  have kept (P : String → Prop) :
      (∀ row ∈ (runBacktest bars).logs.trades, P row.regimeAtEntry) ↔
        ∀ entry ∈ acceptedBy bars bars.length, P (barAt bars entry.1).regime := by
    have same := congrArg (fun texts => ∀ text ∈ texts, P text) (runBacktest_regimes bars)
    dsimp only [acceptedRegimes] at same
    rw [List.forall_mem_map, List.forall_mem_map] at same
    exact iff_of_eq same
  have plainRegime : ∀ i, Plain (barAt bars i).regime := by
    intro i
    by_cases inside : i < bars.length
    · exact regimes _ (barAt_mem inside)
    · have outside : barAt bars i = {} := by
        simp [barAt, List.getD_eq_getElem?_getD, not_lt.mp inside]
      rw [outside]
      decide
  have plain : ∀ row ∈ (runBacktest bars).logs.trades,
      ∀ text ∈ [row.entryTime, row.exitTime, row.regimeAtEntry], Plain text := by
    intro row member
    obtain ⟨entryTime, exitTime⟩ := times Plain timestamps row member
    have regime := (kept Plain).mpr (fun entry _ => plainRegime entry.1) row member
    simp [entryTime, exitTime, regime]
  rw [readsBack_iff_texts tradeLog_sound _ (fun row _ => tradeLog_row row) plain,
    ← kept fun text => ',' ∉ text.toList]
  refine forall₂_congr fun row member => ?_
  obtain ⟨entryTime, exitTime⟩ := times (fun text => ',' ∉ text.toList) free row member
  simp [entryTime, exitTime]

end Run

/-- The logs of a run on a file read back exactly when no timestamp of the file has a comma
and no regime of a bar on which a retest was taken has one. -/
theorem logs_readBack_iff {stod : String → Option ℚ} {path : String}
    {file : Option (List Char)} {bars : List Bar} (read : readCsv stod path file = .ok bars) :
    LogsReadBack (runBacktest bars) ↔
      (∀ bar ∈ bars, ',' ∉ bar.timestamp.toList) ∧
        ∀ entry ∈ acceptedBy bars bars.length, ',' ∉ (barAt bars entry.1).regime.toList := by
  have timestamps : ∀ bar ∈ bars, Plain bar.timestamp := readCsv_plain read .timestamp
  have regimes : ∀ bar ∈ bars, Plain bar.regime := readCsv_plain read .regime
  constructor
  · intro logs
    have free := (scores_readBack_iff timestamps).mp logs.scores
    exact ⟨free, (trades_readBack_iff timestamps regimes free).mp logs.trades⟩
  · rintro ⟨free, entries⟩
    exact ⟨(scores_readBack_iff timestamps).mpr free, intents_readBack timestamps free,
      (trades_readBack_iff timestamps regimes free).mpr entries⟩

/-! ## A timestamp with a comma -/

/-- One bar whose timestamp is quoted. -/
def commaFile : List Char := "timestamp,close\n\"Jun 5, 09:15\",100".toList

theorem commaFile_read :
    readCsv leadingDigits "market.csv" (some commaFile) =
      .ok [{ timestamp := "Jun 5, 09:15", close := 100 }] := by
  decide +kernel

/-- The row of the score log has nine cells under eight names. -/
theorem commaFile_drifts :
    ∃ bars, readCsv leadingDigits "market.csv" (some commaFile) = .ok bars ∧
      ¬ LogsReadBack (runBacktest bars) := by
  refine ⟨_, commaFile_read, ?_⟩
  intro logs
  have free := (scores_readBack_iff (by decide)).mp logs.scores
  exact absurd free (by decide)

theorem plainFile_readsBack :
    LogsReadBack (runBacktest [{ timestamp := "09:15", close := 100, mpsState := "PASS, late" },
      { timestamp := "09:16" }]) := by
  have read : readCsv sampleStod "market.csv" (some sampleFile) =
      .ok [{ timestamp := "09:15", close := 100, mpsState := "PASS, late" },
        { timestamp := "09:16" }] := by
    decide +kernel
  exact (logs_readBack_iff read).mpr ⟨by decide, by decide +kernel⟩

end PrismPipeline.Backtest
