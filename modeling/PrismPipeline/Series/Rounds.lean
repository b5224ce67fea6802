import Mathlib.Data.List.Basic

/-!
# Two logs in step

Two logs that grow in turn: an entry of the first opens a round and an entry of the
second closes it.  What every closing says of the opening of its round, and every
opening of the closing before it, can then be read off the two logs by position.
-/

namespace PrismPipeline.Series

variable {α β : Type*}

/-- `opened` and `closed` hold the two halves of the same rounds. -/
inductive Rounds (Fits : ℕ → α → β → Prop) (After : β → α → Prop) : List α → List β → Prop where
  | nil : Rounds Fits After [] []
  | snoc {opened : List α} {closed : List β} {a : α} {b : β}
      (earlier : Rounds Fits After opened closed) (after : ∀ last ∈ closed.getLast?, After last a)
      (fits : Fits opened.length a b) : Rounds Fits After (opened ++ [a]) (closed ++ [b])

namespace Rounds

variable {Fits : ℕ → α → β → Prop} {After : β → α → Prop} {opened : List α} {closed : List β}

theorem length_eq (rounds : Rounds Fits After opened closed) : opened.length = closed.length := by
  induction rounds with
  | nil => rfl
  | snoc _ _ _ ih => rw [List.length_append, List.length_append, ih, List.length_singleton,
      List.length_singleton]

/-- An entry of a log one longer is an older entry or the new one. -/
theorem getElem?_snoc {γ : Type*} {log : List γ} {new found : γ} {k : ℕ}
    (at_k : (log ++ [new])[k]? = some found) :
    log[k]? = some found ∨ (k = log.length ∧ new = found) := by
  rcases Nat.lt_trichotomy k log.length with inside | rfl | past
  · rw [List.getElem?_append_left inside] at at_k
    exact Or.inl at_k
  · rw [List.getElem?_concat_length] at at_k
    exact Or.inr ⟨rfl, Option.some.inj at_k⟩
  · have size : (log ++ [new]).length ≤ k := by
      rw [List.length_append, List.length_singleton]
      exact past
    rw [List.getElem?_eq_none size] at at_k
    cases at_k

theorem lt_of_getElem? {γ : Type*} {log : List γ} {found : γ} {k : ℕ}
    (at_k : log[k]? = some found) : k < log.length :=
  (List.getElem?_eq_some_iff.mp at_k).1

/-- The closing of a round fits its opening. -/
theorem fits (rounds : Rounds Fits After opened closed) {k : ℕ} {a : α} {b : β}
    (opening : opened[k]? = some a) (closing : closed[k]? = some b) : Fits k a b := by
  induction rounds with
  | nil => cases opening
  | snoc earlier _ fits ih =>
      have size := earlier.length_eq
      rcases getElem?_snoc opening with older | ⟨newest, rfl⟩
      · rcases getElem?_snoc closing with older' | ⟨newest', _⟩
        · exact ih older older'
        · have inside := lt_of_getElem? older
          omega
      · rcases getElem?_snoc closing with older' | ⟨_, rfl⟩
        · have inside := lt_of_getElem? older'
          omega
        · exact newest ▸ fits

/-- A round is opened after the one before it was closed. -/
theorem after (rounds : Rounds Fits After opened closed) {k : ℕ} {a : α} {b : β}
    (closing : closed[k]? = some b) (opening : opened[k + 1]? = some a) : After b a := by
  induction rounds with
  | nil => cases closing
  | @snoc opened closed _ _ earlier after _ ih =>
      have size := earlier.length_eq
      rcases getElem?_snoc opening with older | ⟨newest, rfl⟩
      · rcases getElem?_snoc closing with older' | ⟨newest', _⟩
        · exact ih older' older
        · have inside := lt_of_getElem? older
          omega
      · rcases getElem?_snoc closing with older' | ⟨newest', _⟩
        · have last : closed.getLast? = some b := by
            rw [List.getLast?_eq_getElem?, ← size, ← newest]
            exact older'
          exact after b last
        · omega

end Rounds

end PrismPipeline.Series
