import Mathlib.Order.WellFounded
import PrismPipeline.Machine.Mealy

/-!
# Termination under a fair schedule

An endless schedule is fair when every thread is scheduled again and again.  A rank proves
that the goal is reached if in every state short of the goal one thread is helpful: its step
lowers the rank, and a step of another thread lowers the rank too or changes neither the
rank nor who is helpful.
-/

namespace PrismPipeline.Machine

/-- Every thread is scheduled again and again. -/
def Fair {ι τ : Type*} (thread : ι → τ) (schedule : ℕ → ι) : Prop :=
  ∀ t n, ∃ m, n ≤ m ∧ thread (schedule m) = t

namespace Mealy

variable {σ ι ο τ α : Type*}

/-- The state after the first `n` inputs of an endless schedule. -/
def stateAt (machine : Mealy σ ι ο) (start : σ) (schedule : ℕ → ι) : ℕ → σ
  | 0 => start
  | n + 1 => machine.step (machine.stateAt start schedule n) (schedule n)

/-- It is the state after these inputs as a list. -/
theorem stateAt_eq_after (machine : Mealy σ ι ο) (start : σ) (schedule : ℕ → ι) (n : ℕ) :
    machine.stateAt start schedule n = machine.after start ((List.range n).map schedule) := by
  induction n with
  | zero => rfl
  | succ n ih => rw [stateAt, ih, List.range_succ, List.map_append, List.map_singleton, after_snoc]

/-- A rank with a helpful thread, on the good states short of the goal. -/
structure Ranked [Preorder α] (machine : Mealy σ ι ο) (Good Goal : σ → Prop) (thread : ι → τ)
    (rank : σ → α) (helpful : σ → τ) : Prop where
  kept : ∀ state input, Good state → Good (machine.step state input)
  progress : ∀ state input, Good state → ¬ Goal state →
    rank (machine.step state input) < rank state ∨
      rank (machine.step state input) = rank state ∧
        helpful (machine.step state input) = helpful state ∧ thread input ≠ helpful state

section Ranked

variable [Preorder α] {machine : Mealy σ ι ο} {Good Goal : σ → Prop} {thread : ι → τ}
  {rank : σ → α} {helpful : σ → τ} {start : σ} {schedule : ℕ → ι}

theorem Ranked.good_stateAt (ranked : machine.Ranked Good Goal thread rank helpful)
    (good : Good start) (n : ℕ) : Good (machine.stateAt start schedule n) := by
  induction n with
  | zero => exact good
  | succ n ih => exact ranked.kept _ _ ih

/-- Until the rank falls the same thread stays helpful, and is not scheduled. -/
theorem Ranked.waits (ranked : machine.Ranked Good Goal thread rank helpful) (good : Good start)
    (short : ∀ n, ¬ Goal (machine.stateAt start schedule n)) (n d : ℕ)
    (level : ∀ j ≤ d,
      ¬ rank (machine.stateAt start schedule (n + j)) < rank (machine.stateAt start schedule n)) :
    rank (machine.stateAt start schedule (n + d)) = rank (machine.stateAt start schedule n) ∧
    helpful (machine.stateAt start schedule (n + d)) =
      helpful (machine.stateAt start schedule n) := by
  induction d with
  | zero => exact ⟨rfl, rfl⟩
  | succ d ih =>
      obtain ⟨sameRank, sameHelp⟩ := ih fun j below => level j (Nat.le_succ_of_le below)
      rcases ranked.progress _ (schedule (n + d)) (ranked.good_stateAt good (n + d))
          (short (n + d)) with falls | ⟨still, help, _⟩
      · rw [sameRank] at falls
        exact absurd falls (level (d + 1) (le_refl _))
      · exact ⟨still.trans sameRank, help.trans sameHelp⟩

/-- The goal is reached. -/
theorem Ranked.reaches [WellFoundedLT α]
    (ranked : machine.Ranked Good Goal thread rank helpful) (good : Good start)
    (fair : Fair thread schedule) : ∃ n, Goal (machine.stateAt start schedule n) := by
  by_contra never
  have short : ∀ n, ¬ Goal (machine.stateAt start schedule n) := fun n goal => never ⟨n, goal⟩
  have falls : ∀ n, ∃ m,
      rank (machine.stateAt start schedule m) < rank (machine.stateAt start schedule n) := by
    intro n
    by_contra stuck
    have level : ∀ m,
        ¬ rank (machine.stateAt start schedule m) < rank (machine.stateAt start schedule n) :=
      fun m lower => stuck ⟨m, lower⟩
    obtain ⟨m, later, turn⟩ := fair (helpful (machine.stateAt start schedule n)) n
    obtain ⟨d, rfl⟩ := Nat.exists_eq_add_of_le later
    obtain ⟨sameRank, sameHelp⟩ := ranked.waits good short n d fun j _ => level (n + j)
    rcases ranked.progress _ (schedule (n + d)) (ranked.good_stateAt good (n + d))
        (short (n + d)) with lower | ⟨_, _, other⟩
    · rw [sameRank] at lower
      exact level (n + d + 1) lower
    · exact other (turn.trans sameHelp.symm)
  have none : ∀ bound : α, ∀ n, rank (machine.stateAt start schedule n) = bound → False := by
    intro bound
    induction bound using WellFoundedLT.induction with
    | ind bound ih =>
        intro n same
        obtain ⟨m, lower⟩ := falls n
        exact ih _ (same ▸ lower) m rfl
  exact none _ 0 rfl

end Ranked

end Mealy

end PrismPipeline.Machine
