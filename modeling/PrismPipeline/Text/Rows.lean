import Mathlib.Algebra.BigOperators.Group.List.Basic
import Mathlib.Algebra.GroupWithZero.Nat
import PrismPipeline.Text.Csv

/-!
# Rows with fixed quotes

A writer that decides once for each column whether to put quotes around it writes more cells
than it has columns when a bare cell has a separator in it: one more for each.  A reader never
sees a quote or a line break in what it has read.
-/

namespace PrismPipeline.Text

variable {α : Type*}

/-! ## Writing -/

/-- The letters of a cell, with quotes if it is marked. -/
def writeCell (quote : α) (entry : Bool × List α) : List α :=
  if entry.1 then quote :: (entry.2 ++ [quote]) else entry.2

def writeRow (quote sep : α) : List (Bool × List α) → List α
  | [] => []
  | [entry] => writeCell quote entry
  | entry :: next :: others => writeCell quote entry ++ sep :: writeRow quote sep (next :: others)

section Written

variable {quote sep : α} {entries : List (Bool × List α)}

theorem writeCell_written {entry : Bool × List α} (free : entry.1 = false → sep ∉ entry.2) :
    WrittenCell quote sep entry.2 (writeCell quote entry) := by
  obtain ⟨quoted, cell⟩ := entry
  cases quoted with
  | true => exact .quoted
  | false => exact .bare (free rfl)

/-- Without loose separators the row is one of the ways to write its cells. -/
theorem writeRow_written (some : entries ≠ [])
    (free : ∀ entry ∈ entries, entry.1 = false → sep ∉ entry.2) :
    WrittenRow quote sep (entries.map Prod.snd) (writeRow quote sep entries) := by
  induction entries with
  | nil => exact absurd rfl some
  | cons entry entries ih =>
      obtain ⟨first, later⟩ := List.forall_mem_cons.mp free
      cases entries with
      | nil => exact .last (writeCell_written first)
      | cons next others =>
          exact .cons (writeCell_written first) (ih (List.cons_ne_nil _ _) later)

theorem writeCell_notMem {letter : α} {entry : Bool × List α} (notQuote : letter ≠ quote)
    (free : letter ∉ entry.2) : letter ∉ writeCell quote entry := by
  obtain ⟨quoted, cell⟩ := entry
  cases quoted with
  | true => simpa [writeCell, notQuote] using free
  | false => exact free

theorem writeRow_notMem {letter : α} (notQuote : letter ≠ quote) (notSep : letter ≠ sep)
    (free : ∀ entry ∈ entries, letter ∉ entry.2) : letter ∉ writeRow quote sep entries := by
  induction entries with
  | nil => exact List.not_mem_nil
  | cons entry entries ih =>
      obtain ⟨first, later⟩ := List.forall_mem_cons.mp free
      cases entries with
      | nil => exact writeCell_notMem notQuote first
      | cons next others =>
          rw [writeRow, List.mem_append, List.mem_cons, not_or, not_or]
          exact ⟨writeCell_notMem notQuote first, notSep, ih later⟩

end Written

variable [DecidableEq α]

/-! ## Counting cells -/

section Counted

variable {quote sep : α} {entries : List (Bool × List α)}

/-- The separators of a cell that a reader sees. -/
def looseSeps (sep : α) (entry : Bool × List α) : ℕ :=
  if entry.1 then 0 else entry.2.count sep

/-- Every separator of a bare cell ends a cell. -/
theorem Splitter.foldl_loose {cell : List α} (clear : quote ∉ cell) (out : List (List α))
    (cur : List α) :
    ∃ out' cur', cell.foldl (step quote sep) ⟨out, cur, false⟩ = ⟨out', cur', false⟩ ∧
      out'.length = out.length + cell.count sep := by
  induction cell generalizing out cur with
  | nil => exact ⟨out, cur, rfl, rfl⟩
  | cons letter cell ih =>
      obtain ⟨first, later⟩ := List.ne_and_not_mem_of_not_mem_cons clear
      by_cases ends : letter = sep
      · have cut : step quote sep ⟨out, cur, false⟩ letter = ⟨out ++ [cur], [], false⟩ := by
          simp [step, ends ▸ Ne.symm first, ends]
        obtain ⟨out', cur', read, count⟩ := ih later (out ++ [cur]) []
        refine ⟨out', cur', ?_, ?_⟩
        · rw [List.foldl_cons, cut, read]
        · rw [count, ends, List.count_cons_self, List.length_append, List.length_singleton]
          omega
      · have kept : step quote sep ⟨out, cur, false⟩ letter = ⟨out, cur ++ [letter], false⟩ := by
          simp [step, Ne.symm first, ends]
        obtain ⟨out', cur', read, count⟩ := ih later out (cur ++ [letter])
        refine ⟨out', cur', ?_, ?_⟩
        · rw [List.foldl_cons, kept, read]
        · rw [count, List.count_cons_of_ne ends]

theorem Splitter.foldl_writeCell (sep : α) {entry : Bool × List α} (clear : quote ∉ entry.2)
    (out : List (List α)) :
    ∃ out' cur', (writeCell quote entry).foldl (step quote sep) ⟨out, [], false⟩ =
        ⟨out', cur', false⟩ ∧
      out'.length = out.length + looseSeps sep entry := by
  obtain ⟨quoted, cell⟩ := entry
  cases quoted with
  | true => exact ⟨out, cell, WrittenCell.quoted.foldl_step clear out, rfl⟩
  | false => exact foldl_loose clear out []

theorem Splitter.foldl_writeRow (apart : sep ≠ quote) (some : entries ≠ [])
    (clear : ∀ entry ∈ entries, quote ∉ entry.2) (out : List (List α)) :
    ((writeRow quote sep entries).foldl (step quote sep) ⟨out, [], false⟩).finish.length =
      out.length + entries.length + (entries.map (looseSeps sep)).sum := by
  induction entries generalizing out with
  | nil => exact absurd rfl some
  | cons entry entries ih =>
      obtain ⟨first, later⟩ := List.forall_mem_cons.mp clear
      obtain ⟨out', cur', read, count⟩ := foldl_writeCell sep first out
      cases entries with
      | nil =>
          rw [writeRow, read, finish, List.length_append, count]
          simp only [List.length_singleton, List.map_singleton, List.sum_singleton]
          omega
      | cons next others =>
          have cut : step quote sep ⟨out', cur', false⟩ sep = ⟨out' ++ [cur'], [], false⟩ := by
            simp [step, apart]
          have whole := ih (List.cons_ne_nil _ _) later (out' ++ [cur'])
          rw [writeRow, List.foldl_append, read, List.foldl_cons, cut, whole]
          simp only [List.length_append, List.length_cons, List.length_nil, List.map_cons,
            List.sum_cons, count]
          omega

/-- A row has as many cells as columns exactly when no bare cell has a separator. -/
theorem splitQuoted_writeRow_length_iff (apart : sep ≠ quote) (some : entries ≠ [])
    (clear : ∀ entry ∈ entries, quote ∉ entry.2) :
    (splitQuoted quote sep (writeRow quote sep entries)).length = entries.length ↔
      ∀ entry ∈ entries, entry.1 = false → sep ∉ entry.2 := by
  have count : (splitQuoted quote sep (writeRow quote sep entries)).length = _ :=
    Splitter.foldl_writeRow apart some clear []
  have loose (entry : Bool × List α) :
      looseSeps sep entry = 0 ↔ (entry.1 = false → sep ∉ entry.2) := by
    obtain ⟨quoted, cell⟩ := entry
    cases quoted with
    | true => simp [looseSeps]
    | false => simp [looseSeps, List.count_eq_zero]
  rw [count, List.length_nil, Nat.zero_add, Nat.add_eq_left, List.sum_eq_zero_iff_forall_eq_nat,
    List.forall_mem_map]
  exact forall₂_congr fun entry _ => loose entry

/-- Without loose separators the cells come back. -/
theorem splitQuoted_writeRow (apart : sep ≠ quote) (some : entries ≠ [])
    (clear : ∀ entry ∈ entries, quote ∉ entry.2)
    (free : ∀ entry ∈ entries, entry.1 = false → sep ∉ entry.2) :
    splitQuoted quote sep (writeRow quote sep entries) = entries.map Prod.snd := by
  apply (writeRow_written some free).splitQuoted_eq apart
  intro cell member
  obtain ⟨entry, inside, rfl⟩ := List.mem_map.mp member
  exact clear entry inside

end Counted

/-! ## Letters that are read -/

section Letters

variable {quote sep stop : α}

theorem stop_notMem_linesOf (text : List α) : ∀ line ∈ linesOf stop text, stop ∉ line := by
  induction text with
  | nil =>
      intro line member
      cases member
  | cons letter text ih =>
      unfold linesOf
      by_cases ends : letter = stop
      · rw [if_pos ends, List.forall_mem_cons]
        exact ⟨List.not_mem_nil, ih⟩
      · rw [if_neg ends]
        cases rest : linesOf stop text with
        | nil =>
            intro line member
            rw [List.mem_singleton.mp member, List.mem_singleton]
            exact Ne.symm ends
        | cons line others =>
            rw [rest] at ih
            obtain ⟨first, later⟩ := List.forall_mem_cons.mp ih
            dsimp only
            rw [List.forall_mem_cons]
            refine ⟨?_, later⟩
            rw [List.mem_cons, not_or]
            exact ⟨Ne.symm ends, first⟩

/-- What a splitter holds has only letters of a kind. -/
def Splitter.Holds (P : α → Prop) (s : Splitter α) : Prop :=
  (∀ cell ∈ s.out, ∀ letter ∈ cell, P letter) ∧ ∀ letter ∈ s.cur, P letter

theorem Splitter.Holds.step {P : α → Prop} {s : Splitter α} (holds : s.Holds P) {letter : α}
    (good : letter ≠ quote → P letter) : (s.step quote sep letter).Holds P := by
  unfold Splitter.step
  by_cases toggles : letter = quote
  · rw [if_pos toggles]
    exact holds
  · rw [if_neg toggles]
    split
    · refine ⟨?_, by simp⟩
      intro cell member
      rcases List.mem_append.mp member with old | new
      · exact holds.1 cell old
      · rw [List.mem_singleton.mp new]
        exact holds.2
    · refine ⟨holds.1, ?_⟩
      intro other member
      rcases List.mem_append.mp member with old | new
      · exact holds.2 other old
      · rw [List.mem_singleton.mp new]
        exact good toggles

/-- A cell that was read has letters of its line, and never a quote. -/
theorem mem_splitQuoted (line : List α) :
    ∀ cell ∈ splitQuoted quote sep line, ∀ letter ∈ cell, letter ∈ line ∧ letter ≠ quote := by
  have all : ∀ (rest : List α) (s : Splitter α),
      (∀ letter ∈ rest, letter ∈ line) → s.Holds (fun letter => letter ∈ line ∧ letter ≠ quote) →
      (rest.foldl (Splitter.step quote sep) s).Holds
        fun letter => letter ∈ line ∧ letter ≠ quote := by
    intro rest
    induction rest with
    | nil => exact fun s _ holds => holds
    | cons letter rest ih =>
        intro s inside holds
        obtain ⟨first, later⟩ := List.forall_mem_cons.mp inside
        exact ih _ later (holds.step fun notQuote => ⟨first, notQuote⟩)
  have empty : ({} : Splitter α).Holds fun letter => letter ∈ line ∧ letter ≠ quote := by
    simp [Splitter.Holds]
  have whole := all line {} (fun _ member => member) empty
  intro cell member
  rcases List.mem_append.mp member with old | new
  · exact whole.1 cell old
  · rw [List.mem_singleton.mp new]
    exact whole.2

end Letters

end PrismPipeline.Text
