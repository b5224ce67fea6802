import Mathlib.Data.List.Basic

/-!
# Lines of separated cells

A text is read line by line, and a line cell by cell.  The reader of a line toggles at
every quote: between two quotes a separator is a letter like any other, and the quotes
themselves are dropped.  What the reader makes of a text that was written from cells is
those cells, whichever of them were quoted, as long as none contains a quote.
-/

namespace PrismPipeline.Text

variable {α : Type*} [DecidableEq α]

/-! ## Lines -/

/-- The lines of a text.  The last one need not be ended. -/
def linesOf (stop : α) : List α → List (List α)
  | [] => []
  | letter :: rest =>
      if letter = stop then [] :: linesOf stop rest
      else
        match linesOf stop rest with
        | [] => [[letter]]
        | line :: others => (letter :: line) :: others

/-- The ways to write lines one below the other. -/
inductive WrittenLines (stop : α) : List (List α) → List α → Prop
  | done : WrittenLines stop [] []
  | unended {line : List α} (visible : line ≠ []) : WrittenLines stop [line] line
  | ended {lines : List (List α)} {text : List α} (line : List α)
      (others : WrittenLines stop lines text) :
      WrittenLines stop (line :: lines) (line ++ stop :: text)

/-- Lines of which each has the same ending. -/
def endedBy (ending : List α) (lines : List (List α)) : List α :=
  lines.flatMap fun line => line ++ ending

section Lines

variable {stop : α}

theorem linesOf_ended {line : List α} (free : stop ∉ line) (rest : List α) :
    linesOf stop (line ++ stop :: rest) = line :: linesOf stop rest := by
  induction line with
  | nil => exact if_pos rfl
  | cons letter line ih =>
      obtain ⟨first, later⟩ := List.ne_and_not_mem_of_not_mem_cons free
      rw [List.cons_append, linesOf, if_neg (Ne.symm first), ih later]

theorem linesOf_unended {line : List α} (free : stop ∉ line) (visible : line ≠ []) :
    linesOf stop line = [line] := by
  induction line with
  | nil => exact absurd rfl visible
  | cons letter line ih =>
      obtain ⟨first, later⟩ := List.ne_and_not_mem_of_not_mem_cons free
      rw [linesOf, if_neg (Ne.symm first)]
      cases line with
      | nil => rfl
      | cons second others => rw [ih later (List.cons_ne_nil _ _)]

/-- The lines that were written are read back. -/
theorem WrittenLines.linesOf_eq {lines : List (List α)} {text : List α}
    (written : WrittenLines stop lines text) (free : ∀ line ∈ lines, stop ∉ line) :
    linesOf stop text = lines := by
  induction written with
  | done => rfl
  | unended visible => exact linesOf_unended (free _ List.mem_cons_self) visible
  | ended line others ih =>
      obtain ⟨first, later⟩ := List.forall_mem_cons.mp free
      rw [linesOf_ended first, ih later]

omit [DecidableEq α] in
theorem endedBy_written (lines : List (List α)) :
    WrittenLines stop lines (endedBy [stop] lines) := by
  induction lines with
  | nil => exact .done
  | cons line lines ih =>
      have text : endedBy [stop] (line :: lines) = line ++ stop :: endedBy [stop] lines := by
        simp [endedBy]
      rw [text]
      exact .ended line ih

/-- A longer ending leaves its front at the end of each line. -/
theorem linesOf_endedBy {lines : List (List α)} {front : List α} (apart : stop ∉ front)
    (free : ∀ line ∈ lines, stop ∉ line) :
    linesOf stop (endedBy (front ++ [stop]) lines) = lines.map fun line => line ++ front := by
  have text : endedBy (front ++ [stop]) lines =
      endedBy [stop] (lines.map fun line => line ++ front) := by
    simp [endedBy, List.flatMap_map]
  rw [text]
  apply (endedBy_written _).linesOf_eq
  intro long member
  obtain ⟨line, inside, rfl⟩ := List.mem_map.mp member
  rw [List.mem_append, not_or]
  exact ⟨free line inside, apart⟩

end Lines

/-! ## Cells -/

/-- The reader inside a line: the cells it has finished, the letters of the next one, and
whether it stands between two quotes. -/
structure Splitter (α : Type*) where
  out : List (List α) := []
  cur : List α := []
  quoted : Bool := false

namespace Splitter

variable (quote sep : α)

def step (s : Splitter α) (letter : α) : Splitter α :=
  if letter = quote then { s with quoted := !s.quoted }
  else if letter = sep ∧ s.quoted = false then { s with out := s.out ++ [s.cur], cur := [] }
  else { s with cur := s.cur ++ [letter] }

/-- The cells at the end of the line. -/
def finish (s : Splitter α) : List (List α) := s.out ++ [s.cur]

end Splitter

/-- The cells of a line. -/
def splitQuoted (quote sep : α) (line : List α) : List (List α) :=
  (line.foldl (Splitter.step quote sep) {}).finish

/-- The ways to write a cell: between quotes, or bare if it has no separator. -/
inductive WrittenCell (quote sep : α) (cell : List α) : List α → Prop
  | quoted : WrittenCell quote sep cell (quote :: (cell ++ [quote]))
  | bare (free : sep ∉ cell) : WrittenCell quote sep cell cell

/-- The ways to write a row of cells, at least one. -/
inductive WrittenRow (quote sep : α) : List (List α) → List α → Prop
  | last {cell text : List α} (written : WrittenCell quote sep cell text) :
      WrittenRow quote sep [cell] text
  | cons {cell text line : List α} {cells : List (List α)}
      (written : WrittenCell quote sep cell text) (others : WrittenRow quote sep cells line) :
      WrittenRow quote sep (cell :: cells) (text ++ sep :: line)

section Cells

variable {quote sep : α} {cell text line : List α}

/-- Letters that neither toggle the quotes nor end the cell are read into it. -/
theorem Splitter.foldl_cell {quoted : Bool} (clear : quote ∉ cell)
    (free : quoted = false → sep ∉ cell) (out : List (List α)) (cur : List α) :
    cell.foldl (step quote sep) ⟨out, cur, quoted⟩ = ⟨out, cur ++ cell, quoted⟩ := by
  induction cell generalizing cur with
  | nil => rw [List.append_nil, List.foldl_nil]
  | cons letter cell ih =>
      obtain ⟨notQuote, later⟩ := List.ne_and_not_mem_of_not_mem_cons clear
      have kept : step quote sep ⟨out, cur, quoted⟩ letter = ⟨out, cur ++ [letter], quoted⟩ := by
        unfold step
        rw [if_neg (Ne.symm notQuote), if_neg]
        rintro ⟨rfl, bare⟩
        exact free bare List.mem_cons_self
      have others : quoted = false → sep ∉ cell := fun bare member =>
        free bare (List.mem_cons_of_mem letter member)
      rw [List.foldl_cons, kept, ih later others, List.append_assoc, List.singleton_append]

/-- A written cell is read as the cell, and the quotes are balanced behind it. -/
theorem WrittenCell.foldl_step (written : WrittenCell quote sep cell text)
    (clear : quote ∉ cell) (out : List (List α)) :
    text.foldl (Splitter.step quote sep) ⟨out, [], false⟩ = ⟨out, cell, false⟩ := by
  have toggles (cur : List α) (quoted : Bool) :
      Splitter.step quote sep ⟨out, cur, quoted⟩ quote = ⟨out, cur, !quoted⟩ := if_pos rfl
  cases written with
  | quoted =>
      rw [List.foldl_cons, toggles, Bool.not_false, List.foldl_append,
        Splitter.foldl_cell clear (fun bare => Bool.noConfusion bare), List.foldl_cons, toggles]
      rfl
  | bare free => exact Splitter.foldl_cell clear (fun _ => free) out []

/-- A plain letter behind a line belongs to its last cell. -/
theorem splitQuoted_snoc {letter : α} (notQuote : letter ≠ quote) (notSep : letter ≠ sep)
    (line : List α) :
    ∃ (cells : List (List α)) (last : List α), splitQuoted quote sep line = cells ++ [last] ∧
      splitQuoted quote sep (line ++ [letter]) = cells ++ [last ++ [letter]] := by
  refine ⟨_, _, rfl, ?_⟩
  have kept (s : Splitter α) :
      Splitter.step quote sep s letter = { s with cur := s.cur ++ [letter] } := by
    simp [Splitter.step, notQuote, notSep]
  rw [splitQuoted, List.foldl_append, List.foldl_cons, kept]
  rfl

theorem WrittenRow.foldl_step {cells : List (List α)} (written : WrittenRow quote sep cells line)
    (apart : sep ≠ quote) (clear : ∀ cell ∈ cells, quote ∉ cell) (out : List (List α)) :
    (line.foldl (Splitter.step quote sep) ⟨out, [], false⟩).finish = out ++ cells := by
  induction written generalizing out with
  | last cell =>
      rw [cell.foldl_step (clear _ List.mem_cons_self)]
      rfl
  | @cons cell text line cells written others ih =>
      obtain ⟨first, later⟩ := List.forall_mem_cons.mp clear
      have cut : Splitter.step quote sep ⟨out, cell, false⟩ sep = ⟨out ++ [cell], [], false⟩ := by
        simp [Splitter.step, apart]
      rw [List.foldl_append, written.foldl_step first, List.foldl_cons, cut, ih later,
        List.append_assoc, List.singleton_append]

/-- The cells that were written are read back. -/
theorem WrittenRow.splitQuoted_eq {cells : List (List α)}
    (written : WrittenRow quote sep cells line) (apart : sep ≠ quote)
    (clear : ∀ cell ∈ cells, quote ∉ cell) : splitQuoted quote sep line = cells :=
  written.foldl_step apart clear []

omit [DecidableEq α] in
/-- A line has the letters of its cells, quotes and separators. -/
theorem WrittenRow.notMem {cells : List (List α)} (written : WrittenRow quote sep cells line)
    {letter : α} (notQuote : letter ≠ quote) (notSep : letter ≠ sep)
    (free : ∀ cell ∈ cells, letter ∉ cell) : letter ∉ line := by
  have cellwise : ∀ {cell text : List α}, WrittenCell quote sep cell text → letter ∉ cell →
      letter ∉ text := by
    intro cell text written free
    cases written with
    | quoted => simp [free, notQuote]
    | bare => exact free
  induction written with
  | last cell => exact cellwise cell (free _ List.mem_cons_self)
  | cons cell others ih =>
      obtain ⟨first, later⟩ := List.forall_mem_cons.mp free
      simp [cellwise cell first, notSep, ih later]

omit [DecidableEq α] in
/-- Two cells never make an empty line. -/
theorem WrittenRow.ne_nil {cells : List (List α)} (written : WrittenRow quote sep cells line)
    (wide : 2 ≤ cells.length) : line ≠ [] := by
  cases written with
  | last => exact absurd wide (Nat.not_succ_le_self 1)
  | cons => exact List.append_ne_nil_of_right_ne_nil _ (List.cons_ne_nil _ _)

end Cells

end PrismPipeline.Text
