import Mathlib.Data.Fin.VecNotation
import Mathlib.Data.List.FinRange
import Mathlib.Data.List.Forall2
import Mathlib.Data.List.Induction
import Mathlib.Data.List.OfFn
import Mathlib.Logic.Equiv.Basic
import PrismPipeline.Backtest.Data
import PrismPipeline.Text.Csv

/-!
# The market data file

`read_csv` and what it calls.  The file is a text, or nothing when it cannot be opened.
`stod` stands for the reading of a decimal number by the standard library, with no value
where that throws; of it only the empty text matters here.
-/

namespace PrismPipeline.Backtest

open PrismPipeline.Text

/-! ## Reading -/

def splitCsvLine (line : List Char) : List String :=
  (splitQuoted '"' ',' line).map String.ofList

def tod (stod : String → Option ℚ) (s : String) : ℚ := (stod s).getD 0

/-- The map `idx`: a name that occurs twice stands for its last column. -/
def columnIndex (header : List String) : String → Option ℕ :=
  header.zipIdx.foldl (fun idx entry => Function.update idx entry.1 (some entry.2)) fun _ => none

/-- The lambda `get`: the cell under a name, or nothing if the row is too short. -/
def getCell (idx : String → Option ℕ) (row : List String) (k : String) : String :=
  match idx k with
  | none => ""
  | some i => if row.length ≤ i then "" else row.getD i ""

/-- The bar of a row, column by column. -/
def readBar (stod : String → Option ℚ) (get : String → String) : Bar where
  timestamp := get "timestamp"
  openPrice := tod stod (get "open")
  high := tod stod (get "high")
  low := tod stod (get "low")
  close := tod stod (get "close")
  volume := tod stod (get "volume")
  vwap := tod stod (get "vwap")
  atr14 := tod stod (get "atr_14")
  spreadPct := tod stod (get "spread_pct")
  liquidityScore := tod stod (get "liquidity_score")
  oi := tod stod (get "oi")
  mseState := get "mse_state"
  regime := get "regime"
  ipseAlignment := get "ipse_alignment"
  microstructureState := get "microstructure_state"
  mpsState := get "mps_state"

/-- The first line is the header, also when there is none, and empty lines are skipped. -/
def readCsv (stod : String → Option ℚ) (path : String) (file : Option (List Char)) :
    Except String (List Bar) :=
  match file with
  | none => .error ("Cannot open market data CSV: " ++ path)
  | some text =>
      let lines := linesOf '\n' text
      let idx := columnIndex (splitCsvLine (lines.headD []))
      .ok ((lines.tail.filter fun line => line ≠ []).map fun line =>
        readBar stod (getCell idx (splitCsvLine line)))

/-! ## Finding a column -/

theorem columnIndex_snoc (header : List String) (name : String) :
    columnIndex (header ++ [name]) =
      Function.update (columnIndex header) name (some header.length) := by
  unfold columnIndex
  rw [List.zipIdx_append, List.foldl_append, Nat.zero_add]
  rfl

theorem columnIndex_absent {header : List String} {name : String} (absent : name ∉ header) :
    columnIndex header name = none := by
  induction header using List.reverseRecOn with
  | nil => rfl
  | append_singleton header last ih =>
      rw [List.mem_append, not_or, List.mem_singleton] at absent
      rw [columnIndex_snoc, Function.update_of_ne absent.2, ih absent.1]

/-- Distinct names find their own column. -/
theorem columnIndex_getElem {header : List String} (distinct : header.Nodup) {i : ℕ}
    (inside : i < header.length) : columnIndex header header[i] = some i := by
  induction header using List.reverseRecOn with
  | nil => exact absurd inside (Nat.not_lt_zero i)
  | append_singleton header last ih =>
      have old : last ∉ header := fun member =>
        (List.nodup_append.mp distinct).2.2 last member last (List.mem_singleton_self last) rfl
      rw [List.length_append, List.length_singleton] at inside
      rcases Nat.lt_succ_iff_lt_or_eq.mp inside with before | rfl
      · have other : header[i] ≠ last := fun same => old (same ▸ List.getElem_mem before)
        rw [List.getElem_append_left before, columnIndex_snoc, Function.update_of_ne other,
          ih (List.nodup_append.mp distinct).1 before]
      · rw [List.getElem_concat_length rfl, columnIndex_snoc, Function.update_self]

/-! ## Tables -/

/-- The text of a cell: without a quote, and on one line. -/
structure Cell where
  text : String
  noQuote : '"' ∉ text.toList
  noBreak : '\n' ∉ text.toList

/-- A table with `n` columns under distinct names. -/
structure Table (n : ℕ) where
  names : Fin n → Cell
  distinct : Function.Injective fun j => (names j).text
  rows : List (Fin n → Cell)

/-- The ways to write the cells of a row in one line. -/
def WrittenCells {n : ℕ} (row : Fin n → Cell) (line : List Char) : Prop :=
  WrittenRow '"' ',' (List.ofFn fun j => (row j).text.toList) line

/-- The ways to write a table. -/
inductive Table.Written {n : ℕ} (t : Table n) (file : List Char) : Prop
  | intro {header : List Char} {lines : List (List Char)} (names : WrittenCells t.names header)
      (rows : List.Forall₂ WrittenCells t.rows lines)
      (layout : WrittenLines '\n' (header :: lines) file)

/-- The columns that are taken as they are. -/
inductive TextField where
  | timestamp
  | mseState
  | regime
  | ipseAlignment
  | microstructureState
  | mpsState

/-- The columns that are read as numbers. -/
inductive NumberField where
  | openPrice
  | high
  | low
  | close
  | volume
  | vwap
  | atr14
  | spreadPct
  | liquidityScore
  | oi

namespace TextField

def column : TextField → String
  | timestamp => "timestamp"
  | mseState => "mse_state"
  | regime => "regime"
  | ipseAlignment => "ipse_alignment"
  | microstructureState => "microstructure_state"
  | mpsState => "mps_state"

def value (b : Bar) : TextField → String
  | timestamp => b.timestamp
  | mseState => b.mseState
  | regime => b.regime
  | ipseAlignment => b.ipseAlignment
  | microstructureState => b.microstructureState
  | mpsState => b.mpsState

theorem readBar_value (stod : String → Option ℚ) (get : String → String) (field : TextField) :
    field.value (readBar stod get) = get field.column := by
  cases field with
  | timestamp | mseState | regime | ipseAlignment | microstructureState | mpsState => rfl

end TextField

namespace NumberField

def column : NumberField → String
  | openPrice => "open"
  | high => "high"
  | low => "low"
  | close => "close"
  | volume => "volume"
  | vwap => "vwap"
  | atr14 => "atr_14"
  | spreadPct => "spread_pct"
  | liquidityScore => "liquidity_score"
  | oi => "oi"

def value (b : Bar) : NumberField → ℚ
  | openPrice => b.openPrice
  | high => b.high
  | low => b.low
  | close => b.close
  | volume => b.volume
  | vwap => b.vwap
  | atr14 => b.atr14
  | spreadPct => b.spreadPct
  | liquidityScore => b.liquidityScore
  | oi => b.oi

theorem readBar_value (stod : String → Option ℚ) (get : String → String) (field : NumberField) :
    field.value (readBar stod get) = tod stod (get field.column) := by
  cases field with
  | openPrice | high | low | close | volume | vwap | atr14 | spreadPct | liquidityScore | oi => rfl

end NumberField

/-- A bar is its fields. -/
theorem Bar.eq_of_fields {a b : Bar} (texts : ∀ field : TextField, field.value a = field.value b)
    (numbers : ∀ field : NumberField, field.value a = field.value b) : a = b := by
  cases a
  cases b
  rw [Bar.mk.injEq]
  exact ⟨texts .timestamp, numbers .openPrice, numbers .high, numbers .low, numbers .close,
    numbers .volume, numbers .vwap, numbers .atr14, numbers .spreadPct, numbers .liquidityScore,
    numbers .oi, texts .mseState, texts .regime, texts .ipseAlignment,
    texts .microstructureState, texts .mpsState⟩

/-! ## Reading what was written -/

namespace Table

variable {n : ℕ}

/-- The bar has in each field the cell under the name of the field. -/
structure Carries (stod : String → Option ℚ) (t : Table n) (row : Fin n → Cell) (bar : Bar) :
    Prop where
  text : ∀ (field : TextField) (j : Fin n), (t.names j).text = field.column →
    field.value bar = (row j).text
  noText : ∀ field : TextField, (∀ j, (t.names j).text ≠ field.column) → field.value bar = ""
  number : ∀ (field : NumberField) (j : Fin n), (t.names j).text = field.column →
    field.value bar = tod stod (row j).text
  noNumber : ∀ field : NumberField, (∀ j, (t.names j).text ≠ field.column) → field.value bar = 0

/-- The same table with its columns in another order. -/
def reorder (t : Table n) (order : Equiv.Perm (Fin n)) : Table n where
  names j := t.names (order j)
  distinct := t.distinct.comp order.injective
  rows := t.rows.map fun row j => row (order j)

section Fields

variable {stod : String → Option ℚ} {t : Table n} {row : Fin n → Cell}

theorem Carries.unique {a b : Bar} (first : t.Carries stod row a) (second : t.Carries stod row b) :
    a = b := by
  refine Bar.eq_of_fields ?_ ?_
  · intro field
    by_cases present : ∃ j, (t.names j).text = field.column
    · obtain ⟨j, named⟩ := present
      rw [first.text field j named, second.text field j named]
    · have absent : ∀ j, (t.names j).text ≠ field.column := not_exists.mp present
      rw [first.noText field absent, second.noText field absent]
  · intro field
    by_cases present : ∃ j, (t.names j).text = field.column
    · obtain ⟨j, named⟩ := present
      rw [first.number field j named, second.number field j named]
    · have absent : ∀ j, (t.names j).text ≠ field.column := not_exists.mp present
      rw [first.noNumber field absent, second.noNumber field absent]

/-- The cells under the names do not depend on the order of the columns. -/
theorem Carries.of_reorder {order : Equiv.Perm (Fin n)} {bar : Bar}
    (carries : (t.reorder order).Carries stod (fun j => row (order j)) bar) :
    t.Carries stod row bar where
  text field j named := by
    obtain ⟨k, rfl⟩ := order.surjective j
    exact carries.text field k named
  noText field absent := carries.noText field fun k => absent (order k)
  number field j named := by
    obtain ⟨k, rfl⟩ := order.surjective j
    exact carries.number field k named
  noNumber field absent := carries.noNumber field fun k => absent (order k)

end Fields

end Table

section Written

variable {n : ℕ} {row : Fin n → Cell} {line : List Char}

theorem WrittenCells.splitCsvLine_eq (written : WrittenCells row line) :
    splitCsvLine line = List.ofFn fun j => (row j).text := by
  have clear : ∀ cell ∈ List.ofFn fun j => (row j).text.toList, '"' ∉ cell := by
    intro cell member
    obtain ⟨j, rfl⟩ := List.mem_ofFn.mp member
    exact (row j).noQuote
  unfold splitCsvLine
  rw [WrittenRow.splitQuoted_eq written (by decide) clear, List.map_ofFn]
  congr 1
  funext j
  exact String.ofList_toList

theorem WrittenCells.noBreak (written : WrittenCells row line) : '\n' ∉ line := by
  refine WrittenRow.notMem written (by decide) (by decide) ?_
  intro cell member
  obtain ⟨j, rfl⟩ := List.mem_ofFn.mp member
  exact (row j).noBreak

theorem exists_row {rows : List (Fin n → Cell)} {lines : List (List Char)}
    (written : List.Forall₂ WrittenCells rows lines) (member : line ∈ lines) :
    ∃ row : Fin n → Cell, WrittenCells row line := by
  induction written with
  | nil => cases member
  | cons first _ ih =>
      rcases List.mem_cons.mp member with rfl | later
      · exact ⟨_, first⟩
      · exact ih later

theorem WrittenCells.ne_nil (wide : 2 ≤ n) (written : WrittenCells row line) : line ≠ [] := by
  refine WrittenRow.ne_nil written ?_
  rw [List.length_ofFn]
  exact wide

end Written

namespace Table

variable {n : ℕ} {t : Table n} {row : Fin n → Cell}

theorem getCell_named (j : Fin n) :
    getCell (columnIndex (List.ofFn fun j => (t.names j).text)) (List.ofFn fun j => (row j).text)
      (t.names j).text = (row j).text := by
  have distinct : (List.ofFn fun j => (t.names j).text).Nodup := List.nodup_ofFn.mpr t.distinct
  have inside : j.val < (List.ofFn fun j => (t.names j).text).length := by
    rw [List.length_ofFn]
    exact j.isLt
  have found := columnIndex_getElem distinct inside
  rw [List.getElem_ofFn] at found
  have long : ¬ (List.ofFn fun j => (row j).text).length ≤ j.val := by
    rw [List.length_ofFn]
    exact not_le.mpr j.isLt
  unfold getCell
  rw [found]
  dsimp only
  rw [if_neg long]
  simp [List.getD_eq_getElem?_getD]

theorem getCell_absent {name : String} (absent : ∀ j, (t.names j).text ≠ name)
    (row : List String) :
    getCell (columnIndex (List.ofFn fun j => (t.names j).text)) row name = "" := by
  have missing : name ∉ List.ofFn fun j => (t.names j).text := by
    rw [List.mem_ofFn]
    rintro ⟨j, named⟩
    exact absent j named
  unfold getCell
  rw [columnIndex_absent missing]

theorem carries_readBar {stod : String → Option ℚ} (empty : stod "" = none) :
    t.Carries stod row (readBar stod (getCell (columnIndex (List.ofFn fun j => (t.names j).text))
      (List.ofFn fun j => (row j).text))) where
  text field j named := by
    rw [TextField.readBar_value, ← named, getCell_named]
  noText field absent := by
    rw [TextField.readBar_value, getCell_absent absent]
  number field j named := by
    rw [NumberField.readBar_value, ← named, getCell_named]
  noNumber field absent := by
    rw [NumberField.readBar_value, getCell_absent absent, tod, empty]
    rfl

/-- One bar is read for each row, in order. -/
theorem Written.readCsv {stod : String → Option ℚ} (empty : stod "" = none) (path : String)
    (wide : 2 ≤ n) {file : List Char} (written : t.Written file) :
    ∃ bars, readCsv stod path (some file) = .ok bars ∧
      List.Forall₂ (t.Carries stod) t.rows bars := by
  cases written with
  | @intro header lines names rows layout =>
      have noBreak : ∀ line ∈ header :: lines, '\n' ∉ line := by
        rw [List.forall_mem_cons]
        refine ⟨names.noBreak, ?_⟩
        intro line member
        obtain ⟨row, writtenRow⟩ := exists_row rows member
        exact writtenRow.noBreak
      have visible : lines.filter (fun line => line ≠ []) = lines := by
        apply List.filter_eq_self.mpr
        intro line member
        obtain ⟨row, writtenRow⟩ := exists_row rows member
        exact decide_eq_true (writtenRow.ne_nil wide)
      refine ⟨_, rfl, ?_⟩
      rw [layout.linesOf_eq noBreak, List.headD_cons, List.tail_cons, visible,
        names.splitCsvLine_eq, List.forall₂_map_right_iff]
      refine rows.imp ?_
      intro row line writtenRow
      rw [writtenRow.splitCsvLine_eq]
      exact carries_readBar empty

end Table

/-- What `read_csv` makes of a table, however it was written: a bar for each row with the
cells of the row under the names of the fields, the same for every order of the columns. -/
theorem readCsv_inverts {stod : String → Option ℚ} (empty : stod "" = none) (path : String)
    {n : ℕ} (wide : 2 ≤ n) (t : Table n) {file : List Char} (written : t.Written file) :
    (∃ bars, readCsv stod path (some file) = .ok bars ∧
      List.Forall₂ (t.Carries stod) t.rows bars) ∧
    ∀ (order : Equiv.Perm (Fin n)) (other : List Char), (t.reorder order).Written other →
      readCsv stod path (some other) = readCsv stod path (some file) := by
  obtain ⟨bars, read, carried⟩ := written.readCsv empty path wide
  refine ⟨⟨bars, read, carried⟩, ?_⟩
  intro order other writtenOther
  obtain ⟨bars', readOther, carriedOther⟩ := writtenOther.readCsv empty path wide
  have back : List.Forall₂ (t.Carries stod) t.rows bars' := by
    refine List.Forall₂.imp ?_ (List.forall₂_map_left_iff.mp carriedOther)
    intro row bar carries
    exact carries.of_reorder
  have unique : Relator.RightUnique (t.Carries stod) := fun _ _ _ first second =>
    first.unique second
  rw [read, readOther, List.right_unique_forall₂' unique back carried]

def Cell.of (text : String)
    (plain : text.toList.all (fun c => c ≠ '"' ∧ c ≠ '\n') = true) : Cell where
  text := text
  noQuote member := (of_decide_eq_true (List.all_eq_true.mp plain _ member)).1 rfl
  noBreak member := (of_decide_eq_true (List.all_eq_true.mp plain _ member)).2 rfl

/-- A closing price with a text behind it that has a comma, and one that is no number. -/
def sampleTable : Table 3 where
  names := ![.of "close" (by decide), .of "mps_state" (by decide), .of "timestamp" (by decide)]
  distinct := by
    unfold Function.Injective
    decide
  rows :=
    [![.of "100" (by decide), .of "PASS, late" (by decide), .of "09:15" (by decide)],
      ![.of "n/a" (by decide), .of "" (by decide), .of "09:16" (by decide)]]

/-- The table with quotes where they are needed and in one place where they are not. -/
def sampleFile : List Char :=
  "close,\"mps_state\",timestamp\n100,\"PASS, late\",09:15\nn/a,,09:16".toList

/-- The numbers of that table. -/
def sampleStod (s : String) : Option ℚ := if s = "100" then some 100 else none

theorem sampleTable_written : sampleTable.Written sampleFile := by
  have header : WrittenCells sampleTable.names
      ("close".toList ++ ',' ::
        (('"' :: ("mps_state".toList ++ ['"'])) ++ ',' :: "timestamp".toList)) :=
    .cons (.bare (by decide)) (.cons .quoted (.last (.bare (by decide))))
  have first : WrittenCells sampleTable.rows[0]
      ("100".toList ++ ',' ::
        (('"' :: ("PASS, late".toList ++ ['"'])) ++ ',' :: "09:15".toList)) :=
    .cons (.bare (by decide)) (.cons .quoted (.last (.bare (by decide))))
  have second : WrittenCells sampleTable.rows[1]
      ("n/a".toList ++ ',' :: ("".toList ++ ',' :: "09:16".toList)) :=
    .cons (.bare (by decide)) (.cons (.bare (by decide)) (.last (.bare (by decide))))
  have written : sampleTable.Written _ :=
    .intro header (.cons first (.cons second .nil))
      (.ended _ (.ended _ (.unended (second.ne_nil (by decide)))))
  exact written

theorem sampleTable_read :
    (readCsv sampleStod "market.csv" (some sampleFile)).toOption =
      some [{ timestamp := "09:15", close := 100, mpsState := "PASS, late" },
        { timestamp := "09:16" }] ∧
    ∃ bars, readCsv sampleStod "market.csv" (some sampleFile) = .ok bars ∧
      List.Forall₂ (sampleTable.Carries sampleStod) sampleTable.rows bars :=
  ⟨by decide +kernel,
    (readCsv_inverts rfl "market.csv" (by decide) sampleTable sampleTable_written).1⟩

end PrismPipeline.Backtest
