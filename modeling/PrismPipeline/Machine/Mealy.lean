import Mathlib.Data.List.Induction

/-!
# Deterministic machines with one output per input

A component that is driven call by call is a Mealy machine: a call moves the
state and shows one observation.  The run of a machine is a left fold, so every
statement about all runs is an induction that appends one input at the end.
This file packages that induction once, together with the causality of the
observations: what is shown for a prefix of the inputs never depends on the
rest.
-/

namespace PrismPipeline.Machine

/-- A transition function together with what one call shows. -/
structure Mealy (σ ι ο : Type*) where
  step : σ → ι → σ
  output : σ → ι → ο

namespace Mealy

variable {σ ι ο : Type*} (machine : Mealy σ ι ο)

/-- The state reached after all inputs were read. -/
def after (start : σ) (inputs : List ι) : σ :=
  inputs.foldl machine.step start

/-- The observations of a run, one for each input. -/
def outputs : σ → List ι → List ο
  | _, [] => []
  | state, input :: rest =>
      machine.output state input :: outputs (machine.step state input) rest

@[simp] theorem after_nil (start : σ) : machine.after start [] = start := rfl

@[simp] theorem after_cons (start : σ) (input : ι) (rest : List ι) :
    machine.after start (input :: rest) =
      machine.after (machine.step start input) rest := rfl

theorem after_append (start : σ) (first second : List ι) :
    machine.after start (first ++ second) =
      machine.after (machine.after start first) second :=
  List.foldl_append

@[simp] theorem after_snoc (start : σ) (inputs : List ι) (input : ι) :
    machine.after start (inputs ++ [input]) =
      machine.step (machine.after start inputs) input := by
  rw [after_append]
  rfl

@[simp] theorem outputs_nil (start : σ) : machine.outputs start [] = [] := rfl

@[simp] theorem outputs_cons (start : σ) (input : ι) (rest : List ι) :
    machine.outputs start (input :: rest) =
      machine.output start input ::
        machine.outputs (machine.step start input) rest := rfl

theorem outputs_append (start : σ) (first second : List ι) :
    machine.outputs start (first ++ second) =
      machine.outputs start first ++
        machine.outputs (machine.after start first) second := by
  induction first generalizing start with
  | nil => rfl
  | cons input rest ih =>
      rw [List.cons_append, outputs_cons, ih]
      rfl

@[simp] theorem outputs_snoc (start : σ) (inputs : List ι) (input : ι) :
    machine.outputs start (inputs ++ [input]) =
      machine.outputs start inputs ++
        [machine.output (machine.after start inputs) input] := by
  rw [outputs_append]
  rfl

/-- A view of the states under which the calls, seen through a view of the inputs, are
those of another machine. -/
theorem after_simulates {π κ ω : Type*} (shadow : Mealy π κ ω) (view : σ → π) (seen : ι → κ)
    (moves : ∀ state input,
      shadow.step (view state) (seen input) = view (machine.step state input))
    (start : σ) (inputs : List ι) :
    shadow.after (view start) (inputs.map seen) = view (machine.after start inputs) := by
  induction inputs generalizing start with
  | nil => rfl
  | cons input rest ih => rw [List.map_cons, after_cons, moves, ih, after_cons]

/-- A view that every call moves as another machine would. -/
theorem after_map {π ω : Type*} (shadow : Mealy π ι ω) (view : σ → π)
    (moves : ∀ state input, view (machine.step state input) = shadow.step (view state) input)
    (start : σ) (inputs : List ι) :
    view (machine.after start inputs) = shadow.after (view start) inputs := by
  have same := machine.after_simulates shadow view id
    (fun state input => (moves state input).symm) start inputs
  rw [List.map_id] at same
  exact same.symm

/-- Induction over runs: a relation between the inputs read so far and the
state reached that one more call keeps. -/
theorem after_induction {start : σ} (Good : List ι → σ → Prop)
    (initial : Good [] start)
    (step : ∀ (inputs : List ι) (input : ι),
      Good inputs (machine.after start inputs) →
      Good (inputs ++ [input])
        (machine.step (machine.after start inputs) input))
    (inputs : List ι) : Good inputs (machine.after start inputs) := by
  induction inputs using List.reverseRecOn with
  | nil => exact initial
  | append_singleton inputs input ih =>
      rw [after_snoc]
      exact step inputs input ih

/-- An invariant of the start state that every call keeps holds after every run. -/
theorem after_invariant {start : σ} (Good : σ → Prop) (initial : Good start)
    (step : ∀ (state : σ) (input : ι), Good state → Good (machine.step state input))
    (inputs : List ι) : Good (machine.after start inputs) :=
  machine.after_induction (fun _ state => Good state) initial
    (fun _ input good => step _ input good) inputs

end Mealy

end PrismPipeline.Machine
