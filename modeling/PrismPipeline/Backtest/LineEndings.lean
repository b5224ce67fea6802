import PrismPipeline.Backtest.MarketData

/-!
# Line endings of the market data file

`std::getline` stops at a line feed and keeps a carriage return before it.  The carriage
return of the first line then belongs to the name of the last column, that of any other line
to its last cell, and a line with nothing else is not empty.
-/

namespace PrismPipeline.Backtest

open PrismPipeline.Text

/-! ## The carriage return in a line -/

theorem splitCsvLine_return (line : List Char) :
    ∃ (cells : List String) (last : String), splitCsvLine line = cells ++ [last] ∧
      splitCsvLine (line ++ ['\r']) = cells ++ [last ++ "\r"] := by
  have plain : '\r' ≠ '"' ∧ '\r' ≠ ',' := by decide
  obtain ⟨cells, last, whole, longer⟩ := splitQuoted_snoc plain.1 plain.2 line
  refine ⟨cells.map String.ofList, String.ofList last, ?_, ?_⟩
  · rw [splitCsvLine, whole, List.map_append, List.map_singleton]
  · rw [splitCsvLine, longer, List.map_append, List.map_singleton, String.ofList_append]

theorem append_return_ne (s : String) : s ++ "\r" ≠ s := by
  intro same
  have letters := congrArg (fun text => text.toList.length) same
  simp at letters

/-- No column that is read has a name with a carriage return at its end. -/
theorem ne_append_return {name : String} (plain : name.toList.getLast? ≠ some '\r') (s : String) :
    name ≠ s ++ "\r" := by
  rintro rfl
  apply plain
  rw [String.toList_append]
  exact List.getLast?_concat

theorem TextField.column_ne (field : TextField) (s : String) : field.column ≠ s ++ "\r" := by
  apply ne_append_return
  cases field with
  | timestamp | mseState | regime | ipseAlignment | microstructureState | mpsState => decide

theorem NumberField.column_ne (field : NumberField) (s : String) : field.column ≠ s ++ "\r" := by
  apply ne_append_return
  cases field with
  | openPrice | high | low | close | volume | vwap | atr14 | spreadPct | liquidityScore | oi =>
      decide

/-! ## Columns and cells -/

theorem columnIndex_lt {names : List String} {name : String} {i : ℕ}
    (found : columnIndex names name = some i) : i < names.length := by
  induction names using List.reverseRecOn with
  | nil => cases found
  | append_singleton names last ih =>
      rw [columnIndex_snoc] at found
      rw [List.length_append, List.length_singleton]
      by_cases same : name = last
      · rw [same, Function.update_self] at found
        cases found
        exact Nat.lt_succ_self _
      · rw [Function.update_of_ne same] at found
        exact Nat.lt_succ_of_lt (ih found)

section Cells

variable {idx : String → Option ℕ} {cells : List String} {name : String}

theorem getCell_last (found : idx name = some cells.length) (last : String) :
    getCell idx (cells ++ [last]) name = last := by
  unfold getCell
  rw [found]
  simp

/-- Every other cell is the same whatever the last one is. -/
theorem getCell_init (other : idx name ≠ some cells.length) (last last' : String) :
    getCell idx (cells ++ [last]) name = getCell idx (cells ++ [last']) name := by
  unfold getCell
  cases found : idx name with
  | none => rfl
  | some i =>
      have apart : i ≠ cells.length := fun same => other (found.trans (congrArg some same))
      dsimp only
      by_cases inside : i < cells.length
      · simp [List.getD_eq_getElem?_getD, List.getElem?_append_left inside]
      · have outside : (cells ++ [last]).length ≤ i := by
          rw [List.length_append, List.length_singleton]
          omega
        have outside' : (cells ++ [last']).length ≤ i := by
          rw [List.length_append, List.length_singleton]
          omega
        rw [if_pos outside, if_pos outside']

theorem getCell_out (short : ∀ i, idx name = some i → cells.length ≤ i) :
    getCell idx cells name = "" := by
  unfold getCell
  cases found : idx name with
  | none => rfl
  | some i => exact if_pos (short i found)

end Cells

/-! ## One row -/

/-- The row is read the same without the name of the last column, and it does not end in a
column that is read as text. -/
structure EndsSafely (stod : String → Option ℚ) (header row : List String) : Prop where
  unended : ∀ field : TextField, columnIndex header.dropLast field.column ≠ some (row.length - 1)
  text : ∀ field : TextField, getCell (columnIndex header.dropLast) row field.column =
    getCell (columnIndex header) row field.column
  number : ∀ field : NumberField,
    tod stod (getCell (columnIndex header.dropLast) row field.column) =
      tod stod (getCell (columnIndex header) row field.column)

section Row

variable {stod : String → Option ℚ} {names cells : List String} {name last : String}

/-- A column with another name is not found. -/
theorem getCell_renamed {column name' : String} (named : column ≠ name') (row : List String) :
    getCell (columnIndex (names ++ [name'])) row column =
      getCell (columnIndex names) row column := by
  unfold getCell
  rw [columnIndex_snoc, Function.update_of_ne named]

/-- A text field loses its column, or gets the carriage return. -/
theorem getCell_return_iff {column : String} (named : column ≠ name ++ "\r") :
    getCell (columnIndex (names ++ [name ++ "\r"])) (cells ++ [last ++ "\r"]) column =
        getCell (columnIndex (names ++ [name])) (cells ++ [last]) column ↔
      columnIndex names column ≠ some cells.length ∧
        getCell (columnIndex names) (cells ++ [last]) column =
          getCell (columnIndex (names ++ [name])) (cells ++ [last]) column := by
  rw [getCell_renamed named]
  by_cases ended : columnIndex names column = some cells.length
  · rw [getCell_last ended]
    refine iff_of_false ?_ fun both => both.1 ended
    intro same
    by_cases twice : column = name
    · -- The column that counts lies behind the end of the row.
      have long := columnIndex_lt ended
      have empty : getCell (columnIndex (names ++ [name])) (cells ++ [last]) column = "" := by
        apply getCell_out
        intro i found
        rw [columnIndex_snoc, twice, Function.update_self] at found
        cases found
        rw [List.length_append, List.length_singleton]
        exact long
      rw [empty] at same
      have letters := congrArg (fun text => text.toList.length) same
      simp at letters
    · have kept : columnIndex (names ++ [name]) column = some cells.length := by
        rw [columnIndex_snoc, Function.update_of_ne twice, ended]
      rw [getCell_last kept] at same
      exact append_return_ne last same
  · rw [getCell_init ended (last ++ "\r") last]
    exact (and_iff_right ended).symm

/-- A number may end in a carriage return, but not its name. -/
theorem tod_return {column : String} (trailing : ∀ s, stod (s ++ "\r") = stod s)
    (named : column ≠ name ++ "\r") :
    tod stod (getCell (columnIndex (names ++ [name ++ "\r"])) (cells ++ [last ++ "\r"]) column) =
      tod stod (getCell (columnIndex names) (cells ++ [last]) column) := by
  rw [getCell_renamed named]
  by_cases ended : columnIndex names column = some cells.length
  · rw [getCell_last ended, getCell_last ended, tod, tod, trailing]
  · rw [getCell_init ended (last ++ "\r") last]

theorem readBar_eq_iff {get get' : String → String} :
    readBar stod get = readBar stod get' ↔
      (∀ field : TextField, get field.column = get' field.column) ∧
      ∀ field : NumberField, tod stod (get field.column) = tod stod (get' field.column) := by
  constructor
  · intro same
    constructor
    · intro field
      rw [← field.readBar_value stod get, same, field.readBar_value]
    · intro field
      rw [← field.readBar_value stod get, same, field.readBar_value]
  · rintro ⟨texts, numbers⟩
    apply Bar.eq_of_fields
    · intro field
      rw [field.readBar_value, field.readBar_value, texts]
    · intro field
      rw [field.readBar_value, field.readBar_value, numbers]

end Row

/-- When a row is read the same with carriage returns behind it and behind the header. -/
theorem readBar_return_iff {stod : String → Option ℚ} (trailing : ∀ s, stod (s ++ "\r") = stod s)
    (header line : List Char) :
    readBar stod (getCell (columnIndex (splitCsvLine (header ++ ['\r'])))
        (splitCsvLine (line ++ ['\r']))) =
      readBar stod (getCell (columnIndex (splitCsvLine header)) (splitCsvLine line)) ↔
      EndsSafely stod (splitCsvLine header) (splitCsvLine line) := by
  obtain ⟨names, name, headerCells, longHeader⟩ := splitCsvLine_return header
  obtain ⟨cells, last, lineCells, longLine⟩ := splitCsvLine_return line
  have position : (cells ++ [last]).length - 1 = cells.length := by simp
  rw [headerCells, longHeader, lineCells, longLine, readBar_eq_iff]
  constructor
  · rintro ⟨texts, numbers⟩
    refine ⟨?_, ?_, ?_⟩
    · intro field
      rw [List.dropLast_concat, position]
      exact ((getCell_return_iff (field.column_ne name)).mp (texts field)).1
    · intro field
      rw [List.dropLast_concat]
      exact ((getCell_return_iff (field.column_ne name)).mp (texts field)).2
    · intro field
      rw [List.dropLast_concat, ← tod_return trailing (field.column_ne name)]
      exact numbers field
  · intro safe
    constructor
    · intro field
      have unended := safe.unended field
      have text := safe.text field
      rw [List.dropLast_concat] at text
      rw [List.dropLast_concat, position] at unended
      exact (getCell_return_iff (field.column_ne name)).mpr ⟨unended, text⟩
    · intro field
      have number := safe.number field
      rw [List.dropLast_concat] at number
      rw [tod_return trailing (field.column_ne name)]
      exact number

/-! ## The file -/

section File

variable {lines : List (List Char)}

theorem readCsv_lf (stod : String → Option ℚ) (path : String)
    (free : ∀ line ∈ lines, '\n' ∉ line) :
    readCsv stod path (some (endedBy ['\n'] lines)) =
      .ok ((lines.tail.filter fun line => line ≠ []).map fun line =>
        readBar stod (getCell (columnIndex (splitCsvLine (lines.headD []))) (splitCsvLine line)))
      := by
  have read : linesOf '\n' (endedBy ([] ++ ['\n']) lines) = _ :=
    linesOf_endedBy List.not_mem_nil free
  rw [List.nil_append] at read
  unfold readCsv
  dsimp only
  rw [read]
  simp

/-- No line is empty: each has its carriage return. -/
theorem readCsv_crlf (stod : String → Option ℚ) (path : String) {header : List Char}
    (free : ∀ line ∈ header :: lines, '\n' ∉ line) :
    readCsv stod path (some (endedBy ['\r', '\n'] (header :: lines))) =
      .ok (lines.map fun line =>
        readBar stod (getCell (columnIndex (splitCsvLine (header ++ ['\r'])))
          (splitCsvLine (line ++ ['\r'])))) := by
  have apart : '\n' ∉ ['\r'] := by decide
  have read := linesOf_endedBy apart free
  have visible : (lines.map fun line => line ++ ['\r']).filter (fun line => line ≠ []) =
      lines.map fun line => line ++ ['\r'] := by
    apply List.filter_eq_self.mpr
    intro long member
    obtain ⟨line, -, rfl⟩ := List.mem_map.mp member
    simp
  unfold readCsv
  dsimp only
  rw [show ['\r', '\n'] = ['\r'] ++ ['\n'] from rfl, read, List.map_cons, List.headD_cons,
    List.tail_cons, visible, List.map_map]
  rfl

end File

/-- The two files are read the same exactly when no line below the header is empty and every
row ends safely. -/
theorem readCsv_lineEndings_iff {stod : String → Option ℚ}
    (trailing : ∀ s, stod (s ++ "\r") = stod s) (path : String) (lines : List (List Char))
    (free : ∀ line ∈ lines, '\n' ∉ line) :
    readCsv stod path (some (endedBy ['\r', '\n'] lines)) =
        readCsv stod path (some (endedBy ['\n'] lines)) ↔
      ∀ line ∈ lines.tail,
        line ≠ [] ∧ EndsSafely stod (splitCsvLine (lines.headD [])) (splitCsvLine line) := by
  cases lines with
  | nil =>
      refine iff_of_true rfl ?_
      intro line member
      cases member
  | cons header rows =>
      rw [readCsv_crlf stod path free, readCsv_lf stod path free, Except.ok.injEq, List.tail_cons,
        List.headD_cons]
      constructor
      · intro same line member
        have count := congrArg List.length same
        rw [List.length_map, List.length_map] at count
        have visible := List.length_filter_eq_length_iff.mp count.symm
        have all : rows.filter (fun line => line ≠ []) = rows := List.filter_eq_self.mpr visible
        rw [all] at same
        exact ⟨of_decide_eq_true (visible line member),
          (readBar_return_iff trailing header line).mp (List.map_inj_left.mp same line member)⟩
      · intro safe
        have all : rows.filter (fun line => line ≠ []) = rows := by
          apply List.filter_eq_self.mpr
          intro line member
          exact decide_eq_true (safe line member).1
        rw [all]
        apply List.map_congr_left
        intro line member
        exact (readBar_return_iff trailing header line).mpr (safe line member).2

/-! ## Which files are safe -/

section Safety

variable {stod : String → Option ℚ} {names cells : List String} {name : String}

/-- A last column that is not read, and rows that reach it. -/
theorem EndsSafely.of_unused (text : ∀ field : TextField, field.column ≠ name)
    (number : ∀ field : NumberField, field.column ≠ name) {row : List String}
    (full : names.length < row.length) : EndsSafely stod (names ++ [name]) row where
  unended field ended := by
    rw [List.dropLast_concat] at ended
    have inside := columnIndex_lt ended
    omega
  text field := by
    rw [List.dropLast_concat, getCell_renamed (text field)]
  number field := by
    rw [List.dropLast_concat, getCell_renamed (number field)]

/-- A file whose last column is one of the texts, as in the one the program generates, is not
safe unless that text is empty. -/
theorem EndsSafely.last_eq_empty (field : TextField) (fresh : field.column ∉ names)
    {last : String} (wide : cells.length = names.length)
    (safe : EndsSafely stod (names ++ [field.column]) (cells ++ [last])) : last = "" := by
  have text := safe.text field
  rw [List.dropLast_concat] at text
  have found : columnIndex (names ++ [field.column]) field.column = some cells.length := by
    rw [columnIndex_snoc, Function.update_self, wide]
  rw [getCell_last found] at text
  rw [← text]
  apply getCell_out
  intro i missing
  rw [columnIndex_absent fresh] at missing
  cases missing

end Safety

/-! ## A blocked bar and an empty line -/

/-- `std::stod` on texts that begin with decimal digits. -/
def leadingDigits (s : String) : Option ℚ :=
  match s.toList.takeWhile Char.isDigit with
  | [] => none
  | digits => some (Nat.ofDigitChars 10 digits 0 : ℕ)

theorem leadingDigits_return (s : String) : leadingDigits (s ++ "\r") = leadingDigits s := by
  have front : (s ++ "\r").toList.takeWhile Char.isDigit = s.toList.takeWhile Char.isDigit := by
    rw [String.toList_append, List.takeWhile_append]
    by_cases all : (s.toList.takeWhile Char.isDigit).length = s.toList.length
    · rw [if_pos all, (List.takeWhile_prefix _).eq_of_length all]
      exact List.append_nil _
    · rw [if_neg all]
  unfold leadingDigits
  rw [front]

/-- A bar that is blocked, and an empty line. -/
def blockedLines : List (List Char) := ["close,mps_state".toList, "100,BLOCK".toList, []]

theorem blockedLines_lf :
    (readCsv leadingDigits "market.csv" (some (endedBy ['\n'] blockedLines))).toOption =
      some [{ close := 100, mpsState := "BLOCK" }] := by
  decide +kernel

/-- With carriage returns the block is not seen, and the empty line makes a bar of zeros. -/
theorem blockedLines_crlf :
    (readCsv leadingDigits "market.csv" (some (endedBy ['\r', '\n'] blockedLines))).toOption =
      some [{ close := 100 }, {}] := by
  decide +kernel

theorem blockedBar_unseen :
    (∀ line ∈ blockedLines, '\n' ∉ line) ∧
    readCsv leadingDigits "market.csv" (some (endedBy ['\r', '\n'] blockedLines)) ≠
      readCsv leadingDigits "market.csv" (some (endedBy ['\n'] blockedLines)) := by
  constructor
  · decide
  · intro same
    have bars := blockedLines_crlf
    rw [same, blockedLines_lf] at bars
    exact absurd bars (by decide +kernel)

/-- A comment behind the state keeps it safe. -/
theorem commentedBar_seen :
    readCsv leadingDigits "market.csv" (some (endedBy ['\r', '\n']
        ["close,mps_state,note".toList, "100,BLOCK,late".toList])) =
      readCsv leadingDigits "market.csv" (some (endedBy ['\n']
        ["close,mps_state,note".toList, "100,BLOCK,late".toList])) := by
  have free : ∀ line ∈ ["close,mps_state,note".toList, "100,BLOCK,late".toList], '\n' ∉ line := by
    decide
  refine (readCsv_lineEndings_iff leadingDigits_return "market.csv" _ free).mpr ?_
  intro line member
  obtain rfl := List.mem_singleton.mp member
  refine ⟨by decide, ?_⟩
  have cells : splitCsvLine "close,mps_state,note".toList = ["close", "mps_state"] ++ ["note"] := by
    decide +kernel
  rw [List.headD_cons, cells]
  apply EndsSafely.of_unused
  · intro field
    cases field <;> decide
  · intro field
    cases field <;> decide
  · decide +kernel

end PrismPipeline.Backtest
