import Mathlib.Data.Nat.Notation
import Mathlib.Tactic.TypeStar

/-!
# Counted loops

`forLoop body start n` is the state after the bodies `0, 1, ..., n - 1` of a
counted loop have run.  The rules below are the ones a verification of such a
loop needs: an invariant indexed by the number of bodies run, agreement of two
loops whose bodies agree where they are run, and growth along a preorder, which
is how append-only logs are treated.
-/

namespace PrismPipeline.Machine

/-- The state after the first `n` bodies of a counted loop. -/
def forLoop {σ : Type*} (body : ℕ → σ → σ) (start : σ) : ℕ → σ
  | 0 => start
  | n + 1 => body n (forLoop body start n)

variable {σ : Type*} {body : ℕ → σ → σ} {start : σ}

@[simp] theorem forLoop_zero : forLoop body start 0 = start := rfl

theorem forLoop_succ (n : ℕ) :
    forLoop body start (n + 1) = body n (forLoop body start n) := rfl

/-- An indexed invariant that every body below the bound carries one index on. -/
theorem forLoop_invariant (Good : ℕ → σ → Prop) (bound : ℕ)
    (initial : Good 0 start)
    (step : ∀ i state, i < bound → Good i state → Good (i + 1) (body i state)) :
    ∀ n, n ≤ bound → Good n (forLoop body start n) := by
  intro n
  induction n with
  | zero => exact fun _ => initial
  | succ n ih =>
      intro inside
      exact step n _ inside (ih (Nat.le_of_succ_le inside))

/-- Two loops agree as long as their bodies agree on the states of an invariant
of the first. -/
theorem forLoop_congr {other : ℕ → σ → σ} (Good : ℕ → σ → Prop) (bound : ℕ)
    (initial : Good 0 start)
    (step : ∀ i state, i < bound → Good i state → Good (i + 1) (body i state))
    (same : ∀ i state, i < bound → Good i state → other i state = body i state) :
    ∀ n, n ≤ bound → forLoop other start n = forLoop body start n := by
  intro n
  induction n with
  | zero => exact fun _ => rfl
  | succ n ih =>
      intro inside
      have below : n ≤ bound := Nat.le_of_succ_le inside
      rw [forLoop_succ, forLoop_succ, ih below]
      exact same n _ inside
        (forLoop_invariant Good bound initial step n below)

/-- Two loops run side by side: a relation between their states that every pair of bodies
carries on. -/
theorem forLoop_related {π : Type*} {shadow : ℕ → π → π} {shadowStart : π}
    (Same : σ → π → Prop) (initial : Same start shadowStart)
    (step : ∀ i state other, Same state other → Same (body i state) (shadow i other)) (n : ℕ) :
    Same (forLoop body start n) (forLoop shadow shadowStart n) := by
  induction n with
  | zero => exact initial
  | succ n ih => exact step n _ _ ih

/-- Growth: if every body moves the state up in a preorder, so does any stretch
of the loop. -/
theorem forLoop_grows (below : σ → σ → Prop) (refl : ∀ state, below state state)
    (trans : ∀ first middle last, below first middle → below middle last →
      below first last)
    (step : ∀ i state, below state (body i state)) {first last : ℕ}
    (order : first ≤ last) :
    below (forLoop body start first) (forLoop body start last) := by
  induction order with
  | refl => exact refl _
  | step _ ih => exact trans _ _ _ ih (step _ _)

end PrismPipeline.Machine
