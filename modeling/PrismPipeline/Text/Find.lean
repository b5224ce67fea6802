import Mathlib.Data.List.Basic
import Mathlib.Data.List.Infix

/-!
# Searching a text for a pattern

`find` gives the first position of a pattern in a text.  A stretch at which no
occurrence starts can be skipped, whatever the pattern does behind it, and cutting the
text at the back only loses the occurrences that reach over the cut.
-/

namespace PrismPipeline.Text

variable {α : Type*}

section Find

variable [DecidableEq α]

/-- The first position at which the pattern occurs. -/
def find (pattern : List α) : List α → Option ℕ
  | [] => if pattern = [] then some 0 else none
  | first :: rest =>
      if pattern <+: first :: rest then some 0 else (find pattern rest).map (· + 1)

theorem find_append_self (pattern rest : List α) : find pattern (pattern ++ rest) = some 0 := by
  cases whole : pattern ++ rest with
  | nil => exact if_pos (List.append_eq_nil_iff.mp whole).1
  | cons first others => exact if_pos (whole ▸ List.prefix_append pattern rest)

/-- Behind a cut no occurrence is found that reaches over it, and no other is lost. -/
theorem find_take (pattern text : List α) (cut : ℕ) :
    find pattern (text.take cut) =
      (find pattern text).filter fun position => position + pattern.length ≤ cut := by
  induction text generalizing cut with
  | nil =>
      rw [List.take_nil]
      cases pattern with
      | nil => rfl
      | cons mark marks => rfl
  | cons first rest ih =>
      cases cut with
      | zero =>
          rw [List.take_zero]
          cases pattern with
          | nil => rfl
          | cons mark marks =>
              symm
              apply Option.filter_eq_none_iff.mpr
              simp
      | succ cut =>
          have reach : pattern <+: first :: rest.take cut ↔
              pattern <+: first :: rest ∧ pattern.length ≤ cut + 1 := by
            rw [← List.take_succ_cons]
            exact List.prefix_take_iff
          rw [List.take_succ_cons, find, find, ih]
          by_cases here : pattern <+: first :: rest
          · rw [if_pos here]
            by_cases short : pattern.length ≤ cut + 1
            · rw [if_pos (reach.mpr ⟨here, short⟩), Option.filter_some_pos]
              simpa using short
            · rw [if_neg fun found => short (reach.mp found).2, Option.filter_some_neg]
              · apply Option.map_eq_none_iff.mpr
                apply Option.filter_eq_none_iff.mpr
                intro position _
                simp only [decide_eq_true_eq]
                omega
              · simpa using short
          · rw [if_neg here, if_neg fun found => here (reach.mp found).1, Option.filter_map]
            congr 2
            funext position
            simp only [Function.comp_apply, decide_eq_decide]
            omega

theorem find_take_of_find {pattern text : List α} {position : ℕ}
    (found : find pattern text = some position) (cut : ℕ) :
    find pattern (text.take cut) =
      if position + pattern.length ≤ cut then some position else none := by
  rw [find_take, found, Option.filter_some]
  simp only [decide_eq_true_eq]

end Find

/-- No occurrence of the pattern starts in the stretch, when `rest` stands behind it. -/
def Skips (pattern : List α) : List α → List α → Prop
  | [], _ => True
  | first :: others, rest => ¬ pattern <+: first :: (others ++ rest) ∧ Skips pattern others rest

section Skips

variable {pattern stretch rest : List α}

theorem find_skip [DecidableEq α] (skips : Skips pattern stretch rest) :
    find pattern (stretch ++ rest) = (find pattern rest).map (stretch.length + ·) := by
  induction stretch with
  | nil => simp
  | cons first others ih =>
      rw [List.cons_append, find, if_neg skips.1, ih skips.2, Option.map_map]
      congr 1
      funext position
      simp only [Function.comp_apply, List.length_cons]
      omega

theorem Skips.append {front back : List α} (first : Skips pattern front (back ++ rest))
    (second : Skips pattern back rest) : Skips pattern (front ++ back) rest := by
  induction front with
  | nil => exact second
  | cons head others ih =>
      constructor
      · rw [List.append_eq, List.append_assoc]
        exact first.1
      · exact ih first.2

/-- A stretch without the pattern's first letter is skipped. -/
theorem skips_of_notMem {mark : α} {marks : List α} (absent : mark ∉ stretch) :
    Skips (mark :: marks) stretch rest := by
  induction stretch with
  | nil => trivial
  | cons first others ih =>
      constructor
      · intro found
        exact absent (List.mem_cons.mpr (Or.inl (List.cons_prefix_cons.mp found).1))
      · exact ih fun member => absent (List.mem_cons_of_mem first member)

/-- A single letter is found where it first stands. -/
theorem find_letter [DecidableEq α] {mark : α} (absent : mark ∉ stretch) :
    find [mark] (stretch ++ mark :: rest) = some stretch.length := by
  have here : find [mark] (mark :: rest) = some 0 := find_append_self [mark] rest
  rw [find_skip (skips_of_notMem absent), here]
  rfl

/-- Blocks that are skipped before anything are skipped one after the other. -/
theorem skips_flatMap {β : Type*} {block : β → List α} {items : List β}
    (each : ∀ item ∈ items, ∀ behind, Skips pattern (block item) behind) :
    Skips pattern (items.flatMap block) rest := by
  induction items with
  | nil => trivial
  | cons item others ih =>
      obtain ⟨head, tail⟩ := List.forall_mem_cons.mp each
      rw [List.flatMap_cons]
      exact (head _).append (ih tail)

end Skips

/-- Two words closed by the same mark, neither containing it: one can only stand at the
front of the other when they are equal. -/
theorem closed_prefix {mark : α} {word other behind rest : List α} (clear : mark ∉ word)
    (clearOther : mark ∉ other) (found : word ++ mark :: behind <+: other ++ mark :: rest) :
    word = other ∧ behind <+: rest := by
  induction word generalizing other with
  | nil =>
      cases other with
      | nil => exact ⟨rfl, (List.cons_prefix_cons.mp found).2⟩
      | cons letter others =>
          have same := (List.cons_prefix_cons.mp found).1
          exact (clearOther (same ▸ List.mem_cons_self)).elim
  | cons letter letters ih =>
      cases other with
      | nil =>
          have same := (List.cons_prefix_cons.mp found).1
          exact (clear (same ▸ List.mem_cons_self)).elim
      | cons letter' letters' =>
          obtain ⟨rfl, later⟩ := List.cons_prefix_cons.mp found
          obtain ⟨rfl, behind⟩ := ih (fun member => clear (List.mem_cons_of_mem _ member))
            (fun member => clearOther (List.mem_cons_of_mem _ member)) later
          exact ⟨rfl, behind⟩

end PrismPipeline.Text
