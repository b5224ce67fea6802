import Mathlib.Data.Nat.Notation
import Mathlib.Logic.Function.Basic
import Mathlib.Tactic.SplitIfs

/-!
# Circular windows

Slots `0, ..., C - 1` on a circle, a head slot and a tail slot.  The occupied
window runs from the head to just before the tail, so equal indices mean an
empty window and one slot always stays free.  The lemmas say how the window
moves when either index advances and that a write outside it is not seen.
-/

namespace PrismPipeline.Queue.Ring

/-- The slot `j` steps after `head`. -/
def slot (C head j : ℕ) : ℕ := (head + j) % C

/-- Number of slots from `head` up to `tail`. -/
def fill (C head tail : ℕ) : ℕ := (tail + C - head) % C

/-- The values stored in `n` slots from `head` on. -/
def window {T : Type*} (C : ℕ) (buffer : ℕ → T) (head n : ℕ) : List T :=
  (List.range n).map fun j => buffer (slot C head j)

variable {C head tail : ℕ}

theorem fill_lt (positive : 0 < C) (head tail : ℕ) : fill C head tail < C :=
  Nat.mod_lt _ positive

/-- The fill as a plain difference, with at most one wrap. -/
theorem fill_eq (headLt : head < C) (tailLt : tail < C) :
    fill C head tail = if head ≤ tail then tail - head else tail + C - head := by
  unfold fill
  split
  · next order =>
      have shift : tail + C - head = tail - head + C := by omega
      rw [shift, Nat.add_mod_right, Nat.mod_eq_of_lt (by omega)]
  · exact Nat.mod_eq_of_lt (by omega)

/-- Advancing an index by one, with at most one wrap. -/
theorem succ_mod_eq {i : ℕ} (inside : i < C) :
    (i + 1) % C = if i + 1 = C then 0 else i + 1 := by
  split
  · next wraps => rw [wraps, Nat.mod_self]
  · exact Nat.mod_eq_of_lt (by omega)

theorem fill_eq_zero_iff (headLt : head < C) (tailLt : tail < C) :
    fill C head tail = 0 ↔ head = tail := by
  rw [fill_eq headLt tailLt]
  split <;> omega

/-- The slot behind the window is the tail. -/
theorem slot_fill (headLt : head < C) (tailLt : tail < C) :
    slot C head (fill C head tail) = tail := by
  rw [fill_eq headLt tailLt, slot]
  split
  · rw [Nat.add_sub_cancel' (by assumption), Nat.mod_eq_of_lt tailLt]
  · have around : head + (tail + C - head) = tail + C := by omega
    rw [around, Nat.add_mod_right, Nat.mod_eq_of_lt tailLt]

/-- The tail is none of the slots of the window. -/
theorem slot_ne_tail (headLt : head < C) (tailLt : tail < C) {j : ℕ}
    (inside : j < fill C head tail) : slot C head j ≠ tail := by
  rw [fill_eq headLt tailLt] at inside
  unfold slot
  rcases Nat.lt_or_ge (head + j) C with low | high
  · rw [Nat.mod_eq_of_lt low]
    split at inside <;> omega
  · rw [Nat.mod_eq_sub_mod high, Nat.mod_eq_of_lt (by split at inside <;> omega)]
    split at inside <;> omega

/-- The tail advances: the window grows by one, unless it would close the circle. -/
theorem fill_tail_succ (headLt : head < C) (tailLt : tail < C)
    (room : (tail + 1) % C ≠ head) :
    fill C head ((tail + 1) % C) = fill C head tail + 1 := by
  have advanced : (tail + 1) % C < C := Nat.mod_lt _ (by omega)
  rw [fill_eq headLt advanced, fill_eq headLt tailLt]
  rw [succ_mod_eq tailLt] at room ⊢
  split_ifs at room ⊢ <;> omega

/-- The window is full exactly when the next tail is the head. -/
theorem fill_of_full (headLt : head < C) (tailLt : tail < C)
    (full : (tail + 1) % C = head) : fill C head tail = C - 1 := by
  rw [fill_eq headLt tailLt]
  rw [succ_mod_eq tailLt] at full
  split_ifs at full ⊢ <;> omega

/-- The head advances: the window of a nonempty ring shrinks by one. -/
theorem fill_head_succ (headLt : head < C) (tailLt : tail < C) (nonempty : head ≠ tail) :
    fill C head tail = fill C ((head + 1) % C) tail + 1 := by
  have advanced : (head + 1) % C < C := Nat.mod_lt _ (by omega)
  rw [fill_eq headLt tailLt, fill_eq advanced tailLt, succ_mod_eq headLt]
  split_ifs <;> omega

section Window

variable {T : Type*} (buffer : ℕ → T)

@[simp] theorem window_length (n : ℕ) : (window C buffer head n).length = n := by
  simp [window]

/-- The window grows at its far end. -/
theorem window_succ_right (n : ℕ) :
    window C buffer head (n + 1) = window C buffer head n ++ [buffer (slot C head n)] := by
  simp [window, List.range_succ]

/-- The window shrinks at its near end. -/
theorem window_succ_left (headLt : head < C) (n : ℕ) :
    window C buffer head (n + 1) =
      buffer head :: window C buffer ((head + 1) % C) n := by
  have near : slot C head 0 = head := Nat.mod_eq_of_lt headLt
  have shift (j : ℕ) : slot C head (j + 1) = slot C ((head + 1) % C) j := by
    unfold slot
    rw [Nat.mod_add_mod]
    congr 1
    omega
  unfold window
  rw [List.range_succ_eq_map, List.map_cons, near, List.map_map]
  congr 1
  exact List.map_congr_left fun j _ => congrArg buffer (shift j)

/-- A write outside the window is not seen. -/
theorem window_update {target n : ℕ} (outside : ∀ j < n, slot C head j ≠ target)
    (value : T) :
    window C (Function.update buffer target value) head n = window C buffer head n := by
  refine List.map_congr_left fun j member => ?_
  exact Function.update_of_ne (outside j (List.mem_range.mp member)) value buffer

end Window

end PrismPipeline.Queue.Ring
