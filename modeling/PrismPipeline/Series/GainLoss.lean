import PrismPipeline.Series.Drawdown

/-!
# Gains and losses of a series

A series of results splits into what it gained, what it lost and what left it where it was.
The three counts add up, the two amounts differ by the sum, and a fall of the cumulative value
between two positions is made of losses.
-/

namespace PrismPipeline.Series

/-! ## Counts -/

section Counts

variable {α : Type*} [Zero α] [LinearOrder α]

def gained (results : List α) : ℕ := results.countP fun r => decide (0 < r)

def lost (results : List α) : ℕ := results.countP fun r => decide (r < 0)

def unchanged (results : List α) : ℕ := results.countP fun r => decide (r = 0)

theorem gained_add_lost_add_unchanged (results : List α) :
    gained results + lost results + unchanged results = results.length := by
  induction results with
  | nil => rfl
  | cons r results ih =>
      unfold gained lost unchanged at ih ⊢
      rw [List.countP_cons, List.countP_cons, List.countP_cons, List.length_cons]
      rcases lt_trichotomy 0 r with above | rfl | below
      · simp only [above, above.not_gt, above.ne', decide_true, decide_false, if_true, if_false,
          Bool.false_eq_true]
        omega
      · simp only [lt_irrefl, decide_true, decide_false, if_true, if_false, Bool.false_eq_true]
        omega
      · simp only [below, below.not_gt, below.ne, decide_true, decide_false, if_true, if_false,
          Bool.false_eq_true]
        omega

theorem gained_append (first second : List α) :
    gained (first ++ second) = gained first + gained second := List.countP_append

theorem lost_append (first second : List α) :
    lost (first ++ second) = lost first + lost second := List.countP_append

theorem gained_singleton (r : α) : gained [r] = if 0 < r then 1 else 0 := by
  unfold gained
  rw [List.countP_singleton]
  simp only [decide_eq_true_eq]

theorem lost_singleton (r : α) : lost [r] = if r < 0 then 1 else 0 := by
  unfold lost
  rw [List.countP_singleton]
  simp only [decide_eq_true_eq]

end Counts

/-! ## Amounts -/

section Amounts

variable {α : Type*} [AddCommGroup α] [LinearOrder α]

def gain (results : List α) : α := (results.map fun r => max r 0).sum

def loss (results : List α) : α := (results.map fun r => max (-r) 0).sum

@[simp] theorem gain_nil : gain ([] : List α) = 0 := rfl

@[simp] theorem loss_nil : loss ([] : List α) = 0 := rfl

theorem gain_cons (r : α) (results : List α) : gain (r :: results) = max r 0 + gain results :=
  List.sum_cons

theorem loss_cons (r : α) (results : List α) : loss (r :: results) = max (-r) 0 + loss results :=
  List.sum_cons

theorem gain_singleton (r : α) : gain [r] = max r 0 := List.sum_singleton

theorem loss_singleton (r : α) : loss [r] = max (-r) 0 := List.sum_singleton

theorem gain_append (first second : List α) :
    gain (first ++ second) = gain first + gain second := by
  unfold gain
  rw [List.map_append, List.sum_append]

theorem loss_append (first second : List α) :
    loss (first ++ second) = loss first + loss second := by
  unfold loss
  rw [List.map_append, List.sum_append]

variable [IsOrderedAddMonoid α]

theorem gain_nonneg (results : List α) : 0 ≤ gain results := by
  induction results with
  | nil => exact le_refl _
  | cons r results ih =>
      rw [gain_cons]
      exact add_nonneg (le_max_right _ _) ih

theorem loss_nonneg (results : List α) : 0 ≤ loss results := by
  induction results with
  | nil => exact le_refl _
  | cons r results ih =>
      rw [loss_cons]
      exact add_nonneg (le_max_right _ _) ih

theorem gain_sub_loss (results : List α) : gain results - loss results = results.sum := by
  induction results with
  | nil => simp
  | cons r results ih =>
      have split : max r 0 - max (-r) 0 = r := by
        rcases le_total 0 r with above | below
        · rw [max_eq_left above, max_eq_right (neg_nonpos.mpr above), sub_zero]
        · rw [max_eq_right below, max_eq_left (neg_nonneg.mpr below), zero_sub, neg_neg]
      rw [gain_cons, loss_cons, List.sum_cons, add_sub_add_comm, split, ih]

/-- Nothing was lost exactly where no result is negative. -/
theorem loss_pos_iff (results : List α) : 0 < loss results ↔ 0 < lost results := by
  induction results with
  | nil => simp [lost]
  | cons r results ih =>
      have later := loss_nonneg results
      unfold lost at ih ⊢
      rw [loss_cons, List.countP_cons]
      rcases lt_or_ge r 0 with below | above
      · rw [max_eq_left (neg_pos.mpr below).le]
        simp only [below, decide_true, if_true]
        exact ⟨fun _ => Nat.succ_pos _, fun _ => add_pos_of_pos_of_nonneg (neg_pos.mpr below) later⟩
      · rw [max_eq_right (neg_nonpos.mpr above), zero_add]
        simpa [above.not_gt] using ih

/-! ## Falls -/

theorem neg_sum_le_loss (results : List α) : -results.sum ≤ loss results := by
  rw [← gain_sub_loss, neg_sub]
  exact sub_le_self _ (gain_nonneg results)

/-- A fall is made of losses. -/
theorem drop_le_loss {results : List α} {drop : α} (member : drop ∈ drops results) :
    drop ≤ loss results := by
  obtain ⟨p, q, order, inside, rfl⟩ := member
  have between : results.take q = results.take p ++ (results.drop p).take (q - p) := by
    rw [← List.take_add, Nat.add_sub_cancel' order]
  have fall : cumulative results p - cumulative results q =
      -((results.drop p).take (q - p)).sum := by
    rw [cumulative, cumulative, between, List.sum_append, sub_add_cancel_left]
  have whole : results = results.take p ++ ((results.drop p).take (q - p) ++
      results.drop q) := by
    rw [← List.append_assoc, ← between, List.take_append_drop]
  rw [fall]
  conv_rhs => rw [whole, loss_append, loss_append]
  calc -((results.drop p).take (q - p)).sum
      ≤ loss ((results.drop p).take (q - p)) := neg_sum_le_loss _
    _ ≤ loss ((results.drop p).take (q - p)) + loss (results.drop q) :=
        le_add_of_nonneg_right (loss_nonneg _)
    _ ≤ _ := le_add_of_nonneg_left (loss_nonneg _)

/-- The deepest fall does not exceed the losses. -/
theorem IsMaxDrawdown.le_loss {results : List α} {depth : α}
    (deepest : IsMaxDrawdown results depth) : depth ≤ loss results := drop_le_loss deepest.1

end Amounts

end PrismPipeline.Series
