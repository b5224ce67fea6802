import Mathlib.Algebra.BigOperators.Group.List.Basic
import Mathlib.Data.List.GetD

/-!
# Checked reads and subtractions

A loop over the positions of a buffer written with the operations that can go wrong
made explicit: a subtraction of unsigned numbers that would wrap and a read past the
end give nothing.  Where none of them happens the loop is the plain fold.
-/

namespace PrismPipeline.Series

/-- A subtraction of unsigned numbers; nothing where it would wrap. -/
def checkedSub (a b : ℕ) : Option ℕ := if b ≤ a then some (a - b) else none

theorem checkedSub_of_le {a b : ℕ} (order : b ≤ a) : checkedSub a b = some (a - b) := if_pos order

theorem getElem?_eq_getD {α : Type*} {buffer : List α} {i : ℕ} (inside : i < buffer.length)
    (fallback : α) : buffer[i]? = some (buffer.getD i fallback) := by
  rw [List.getElem?_eq_getElem inside, List.getD_eq_getElem buffer fallback inside]

/-- A loop whose steps all succeed. -/
theorem foldlM_eq_some {α β : Type*} {checked : β → α → Option β} (plain : β → α → β)
    (entries : List α) (succeeds : ∀ acc, ∀ x ∈ entries, checked acc x = some (plain acc x))
    (init : β) : entries.foldlM checked init = some (entries.foldl plain init) := by
  induction entries generalizing init with
  | nil => rfl
  | cons first rest ih =>
      rw [List.foldlM_cons, succeeds init first List.mem_cons_self]
      exact ih (fun acc x member => succeeds acc x (List.mem_cons_of_mem first member)) _

/-- A running sum is the sum of the values seen. -/
theorem foldl_add_eq_sum {α β : Type*} [AddMonoid β] (value : α → β) (entries : List α) :
    entries.foldl (fun sum x => sum + value x) 0 = (entries.map value).sum := by
  rw [List.sum_eq_foldl, List.foldl_map]

end PrismPipeline.Series
