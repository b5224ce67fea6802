import Mathlib.Data.List.Induction

/-!
# Attempts and successes

Something is tried again and again, and some of the attempts succeed.  If every attempt
fits the number of the successes before it, then the successes on their own fit the
numbers `0, 1, 2, ...`: a failed attempt leaves no gap and no number is used twice.
-/

namespace PrismPipeline.Series

variable {α : Type*}

/-- Every attempt fits the number of the successes before it. -/
def Numbered (Fits : ℕ → α → Prop) (ok : α → Bool) (attempts : List α) : Prop :=
  ∀ i attempt, attempts[i]? = some attempt → Fits ((attempts.take i).countP ok) attempt

section Numbered

variable {Fits : ℕ → α → Prop} {ok : α → Bool} {attempts : List α} {attempt : α}

theorem Numbered.nil : Numbered Fits ok [] := by
  intro i attempt found
  cases found

/-- An entry of a longer list is an old one or the new one. -/
theorem getElem?_snoc {i : ℕ} {entry : α} (found : (attempts ++ [attempt])[i]? = some entry) :
    attempts[i]? = some entry ∨ i = attempts.length ∧ entry = attempt := by
  have inside : i < (attempts ++ [attempt]).length := (List.getElem?_eq_some_iff.mp found).1
  rw [List.length_append, List.length_singleton] at inside
  rcases Nat.lt_succ_iff_lt_or_eq.mp inside with earlier | rfl
  · rw [List.getElem?_append_left earlier] at found
    exact Or.inl found
  · rw [List.getElem?_concat_length] at found
    exact Or.inr ⟨rfl, (Option.some.inj found).symm⟩

theorem numbered_snoc :
    Numbered Fits ok (attempts ++ [attempt]) ↔
      Numbered Fits ok attempts ∧ Fits (attempts.countP ok) attempt := by
  constructor
  · intro numbered
    constructor
    · intro i earlier found
      have inside : i < attempts.length := (List.getElem?_eq_some_iff.mp found).1
      have fits := numbered i earlier (by rw [List.getElem?_append_left inside, found])
      rwa [List.take_append_of_le_length (Nat.le_of_lt inside)] at fits
    · have fits := numbered attempts.length attempt List.getElem?_concat_length
      rwa [List.take_left] at fits
  · rintro ⟨numbered, fits⟩ i entry found
    rcases getElem?_snoc found with earlier | ⟨rfl, rfl⟩
    · have inside : i < attempts.length := (List.getElem?_eq_some_iff.mp earlier).1
      rw [List.take_append_of_le_length (Nat.le_of_lt inside)]
      exact numbered i entry earlier
    · rw [List.take_left]
      exact fits

/-- The successes fit `0, 1, 2, ...` in their order. -/
theorem Numbered.successes (numbered : Numbered Fits ok attempts) {i : ℕ} {success : α}
    (found : (attempts.filter ok)[i]? = some success) : Fits i success := by
  induction attempts using List.reverseRecOn generalizing i with
  | nil => cases found
  | append_singleton attempts attempt ih =>
      obtain ⟨earlier, fits⟩ := numbered_snoc.mp numbered
      rw [List.filter_append] at found
      cases answer : ok attempt with
      | false =>
          rw [List.filter_cons_of_neg (by simp [answer]), List.filter_nil,
            List.append_nil] at found
          exact ih earlier found
      | true =>
          rw [List.filter_cons_of_pos answer, List.filter_nil] at found
          rcases getElem?_snoc found with old | ⟨rfl, rfl⟩
          · exact ih earlier old
          · rw [← List.countP_eq_length_filter]
            exact fits

end Numbered

end PrismPipeline.Series
