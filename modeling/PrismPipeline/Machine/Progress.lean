import Mathlib.Algebra.GroupWithZero.Nat
import PrismPipeline.Machine.Mealy

/-!
# Progress of one thread among the others

A schedule mixes the steps of a thread with those of others.  A measure of what the
thread still has to do falls with every step of its own; a step of another thread may
raise it, by a charge that stands in the schedule.  Once the thread has taken more steps
than the measure and the charges amount to, nothing is left to do, whatever the order.
-/

namespace PrismPipeline.Machine

theorem countP_cons_toNat {ι : Type*} (kind : ι → Bool) (input : ι) (rest : List ι) :
    (input :: rest).countP kind = rest.countP kind + (kind input).toNat := by
  rw [List.countP_cons]
  cases kind input with
  | false => rfl
  | true => rfl

/-- The same charge for every input of a kind. -/
theorem sum_charges {ι : Type*} (kind : ι → Bool) (price : ℕ) (inputs : List ι) :
    (inputs.map fun input => price * (kind input).toNat).sum = price * inputs.countP kind := by
  induction inputs with
  | nil => rfl
  | cons input rest ih =>
      rw [List.map_cons, List.sum_cons, ih, countP_cons_toNat, Nat.mul_add, Nat.add_comm]

namespace Mealy

variable {σ ι ο : Type*}

/-- The measure is worn down by the own inputs among the allowed ones, on good states. -/
structure Wears (machine : Mealy σ ι ο) (Good : σ → Prop) (Allowed : ι → Prop)
    (own : ι → Bool) (charge : ι → ℕ) (measure : σ → ℕ) : Prop where
  kept : ∀ state input, Good state → Allowed input → Good (machine.step state input)
  rests : ∀ state input, Good state → Allowed input → measure state = 0 →
    measure (machine.step state input) = 0
  wears : ∀ state input, Good state → Allowed input → measure state ≠ 0 →
    measure (machine.step state input) + (own input).toNat ≤ measure state + charge input

variable {machine : Mealy σ ι ο} {Good : σ → Prop} {Allowed : ι → Prop} {own : ι → Bool}
  {charge : ι → ℕ} {measure : σ → ℕ}

theorem Wears.good_after (wears : machine.Wears Good Allowed own charge measure) {start : σ}
    (good : Good start) {inputs : List ι} (allowed : ∀ input ∈ inputs, Allowed input) :
    Good (machine.after start inputs) := by
  induction inputs generalizing start with
  | nil => exact good
  | cons input rest ih =>
      obtain ⟨now, later⟩ := List.forall_mem_cons.mp allowed
      exact ih (wears.kept start input good now) later

theorem Wears.stays_zero (wears : machine.Wears Good Allowed own charge measure) {start : σ}
    (good : Good start) (zero : measure start = 0) {inputs : List ι}
    (allowed : ∀ input ∈ inputs, Allowed input) :
    measure (machine.after start inputs) = 0 := by
  induction inputs generalizing start with
  | nil => exact zero
  | cons input rest ih =>
      obtain ⟨now, later⟩ := List.forall_mem_cons.mp allowed
      exact ih (wears.kept start input good now) (wears.rests start input good now zero) later

/-- Enough own inputs bring the measure to zero, in whatever order all inputs come. -/
theorem Wears.reaches_zero (wears : machine.Wears Good Allowed own charge measure) {start : σ}
    (good : Good start) {inputs : List ι} (allowed : ∀ input ∈ inputs, Allowed input)
    (enough : measure start + (inputs.map charge).sum ≤ inputs.countP own) :
    measure (machine.after start inputs) = 0 := by
  induction inputs generalizing start with
  | nil =>
      rw [List.countP_nil] at enough
      exact Nat.le_zero.mp (Nat.le_of_add_right_le enough)
  | cons input rest ih =>
      obtain ⟨now, later⟩ := List.forall_mem_cons.mp allowed
      have goodNext := wears.kept start input good now
      by_cases zero : measure start = 0
      · exact wears.stays_zero goodNext (wears.rests start input good now zero) later
      · apply ih goodNext later
        have worn := wears.wears start input good now zero
        rw [List.map_cons, List.sum_cons, countP_cons_toNat] at enough
        omega

/-- Where no input raises the measure. -/
theorem Wears.reaches_zero_free (wears : machine.Wears Good Allowed own (fun _ => 0) measure)
    {start : σ} (good : Good start) {inputs : List ι} (allowed : ∀ input ∈ inputs, Allowed input)
    (enough : measure start ≤ inputs.countP own) :
    measure (machine.after start inputs) = 0 := by
  have free : ∀ rest : List ι, (rest.map fun _ => 0).sum = 0 := by
    intro rest
    induction rest with
    | nil => rfl
    | cons input rest ih => exact (Nat.zero_add _).trans ih
  apply wears.reaches_zero good allowed
  rw [free]
  exact enough

end Mealy

end PrismPipeline.Machine
