import Mathlib.Data.List.DropRight
import Mathlib.Order.Bounds.Basic
import Mathlib.Order.MinMax

/-!
# Trailing windows of a stream

A buffer that drops its oldest entry when it outgrows a bound holds the last
entries of the stream it was fed.  A maximum accumulated over a list of
positions is the greatest of the values found there.
-/

namespace PrismPipeline.Series

variable {α : Type*}

/-- Append at the back and drop the front when the bound is exceeded. -/
def pushTrim (bound : ℕ) (kept : List α) (entry : α) : List α :=
  if bound < (kept ++ [entry]).length then (kept ++ [entry]).tail else kept ++ [entry]

@[simp] theorem length_rtake (bound : ℕ) (stream : List α) :
    (stream.rtake bound).length = min bound stream.length := by
  simp only [List.rtake, List.length_drop]
  omega

/-- A trimmed buffer holds the last entries of its stream. -/
theorem pushTrim_rtake (bound : ℕ) (stream : List α) (entry : α) :
    pushTrim bound (stream.rtake bound) entry = (stream ++ [entry]).rtake bound := by
  unfold pushTrim
  rw [List.length_append, length_rtake, List.length_singleton]
  split
  · next full =>
      have cut : (stream ++ [entry]).length - bound = stream.length - bound + 1 := by
        rw [List.length_append, List.length_singleton]
        omega
      rw [List.rtake, List.rtake, cut,
        ← List.drop_append_of_le_length (Nat.sub_le stream.length bound), List.tail_drop]
  · next under =>
      have all : stream.length - bound = 0 := by omega
      have allAfter : (stream ++ [entry]).length - bound = 0 := by
        rw [List.length_append, List.length_singleton]
        omega
      rw [List.rtake, List.rtake, all, allAfter, List.drop_zero, List.drop_zero]

/-- The newest entry stands at the end of a trimmed buffer. -/
theorem pushTrim_eq_snoc (bound : ℕ) (kept : List α) (entry : α) :
    ∃ older, pushTrim (bound + 1) kept entry = older ++ [entry] := by
  unfold pushTrim
  split
  · next full =>
      cases kept with
      | nil => simp at full
      | cons oldest rest => exact ⟨rest, rfl⟩
  · exact ⟨kept, rfl⟩

/-- Trimming looks at the number of entries only. -/
theorem pushTrim_map {β : Type*} (f : α → β) (bound : ℕ) (kept : List α) (entry : α) :
    pushTrim bound (kept.map f) (f entry) = (pushTrim bound kept entry).map f := by
  have grown : kept.map f ++ [f entry] = (kept ++ [entry]).map f := by simp
  unfold pushTrim
  rw [grown, List.length_map]
  split
  · exact List.map_tail.symm
  · rfl

/-- Positions of the buffer counted from its end are positions of the stream
counted from its end. -/
theorem getD_rtake (bound : ℕ) (stream : List α) (j : ℕ) (fallback : α) :
    (stream.rtake bound).getD j fallback =
      stream.getD (stream.length - min bound stream.length + j) fallback := by
  have start : stream.length - bound = stream.length - min bound stream.length := by omega
  rw [List.getD_eq_getElem?_getD, List.getD_eq_getElem?_getD, List.rtake,
    List.getElem?_drop, start]

/-- The newest entry survives the cut. -/
theorem getLast?_rtake {bound : ℕ} (keeps : 0 < bound) (stream : List α) :
    (stream.rtake bound).getLast? = stream.getLast? := by
  cases stream using List.reverseRecOn with
  | nil => rw [List.rtake_nil]
  | append_singleton older newest =>
      obtain ⟨rest, rfl⟩ := Nat.exists_eq_add_of_lt keeps
      rw [Nat.zero_add, List.rtake_concat_succ, List.getLast?_concat, List.getLast?_concat]

variable [LinearOrder α]

/-- A running maximum is the greatest of its seed and the values it has seen. -/
theorem isGreatest_foldl_max {ι : Type*} (value : ι → α) (seed : α) (positions : List ι) :
    IsGreatest {x | x = seed ∨ ∃ i ∈ positions, x = value i}
      (positions.foldl (fun high i => max high (value i)) seed) := by
  induction positions generalizing seed with
  | nil => exact ⟨Or.inl rfl, by rintro x (rfl | ⟨i, member, _⟩) <;> simp_all⟩
  | cons first rest ih =>
      rw [List.foldl_cons]
      obtain ⟨found, bound⟩ := ih (max seed (value first))
      constructor
      · rcases found with isSeed | ⟨i, member, eq⟩
        · rcases max_choice seed (value first) with left | right
          · exact Or.inl (isSeed.trans left)
          · exact Or.inr ⟨first, List.mem_cons_self, isSeed.trans right⟩
        · exact Or.inr ⟨i, List.mem_cons_of_mem first member, eq⟩
      · rintro x (rfl | ⟨i, member, rfl⟩)
        · exact (le_max_left _ _).trans (bound (Or.inl rfl))
        · rcases List.mem_cons.mp member with rfl | later
          · exact (le_max_right _ _).trans (bound (Or.inl rfl))
          · exact bound (Or.inr ⟨i, later, rfl⟩)

end PrismPipeline.Series
