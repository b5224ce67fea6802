import PrismPipeline.Machine.Mealy

/-!
# Refinement of a labelled specification

A specification is a step relation whose steps carry the event they show.  A
machine whose calls show an event or nothing refines it when every silent call
keeps the abstract state and every other call is a specified step with the event
it shows.  Every run of the machine then is a run of the specification on the
events shown: each operation takes effect at one call of the run.
-/

namespace PrismPipeline.Machine

/-- Finite runs of a labelled step relation, with the events in order. -/
inductive LabelledRun {α ε : Type*} (Step : α → ε → α → Prop) : α → List ε → α → Prop where
  | nil (state : α) : LabelledRun Step state [] state
  | snoc {first middle last : α} {events : List ε} {event : ε}
      (run : LabelledRun Step first events middle) (step : Step middle event last) :
      LabelledRun Step first (events ++ [event]) last

/-- Two runs one after the other. -/
theorem LabelledRun.append {α ε : Type*} {Step : α → ε → α → Prop} {first middle last : α}
    {earlier later : List ε} (before : LabelledRun Step first earlier middle)
    (after : LabelledRun Step middle later last) :
    LabelledRun Step first (earlier ++ later) last := by
  induction after with
  | nil => rwa [List.append_nil]
  | snoc _ step ih =>
      rw [← List.append_assoc]
      exact .snoc ih step

/-- Induction over runs: a relation between the events so far and the state reached
that every step keeps. -/
theorem LabelledRun.history {α ε : Type*} {Step : α → ε → α → Prop} {first last : α}
    {events : List ε} (run : LabelledRun Step first events last) (Good : List ε → α → Prop)
    (initial : Good [] first)
    (preserved : ∀ earlier event before after, Good earlier before →
      Step before event after → Good (earlier ++ [event]) after) : Good events last := by
  induction run with
  | nil => exact initial
  | snoc _ step ih => exact preserved _ _ _ _ ih step

/-- The same along events that stand in an order. -/
theorem LabelledRun.history_of_pairwise {α ε : Type*} {Step : α → ε → α → Prop}
    {first last : α} {events : List ε} (run : LabelledRun Step first events last)
    {order : ε → ε → Prop} (ordered : events.Pairwise order) (Good : List ε → α → Prop)
    (initial : Good [] first)
    (preserved : ∀ earlier event before after, Good earlier before →
      (∀ old ∈ earlier, order old event) → Step before event after →
      Good (earlier ++ [event]) after) : Good events last := by
  induction run with
  | nil => exact initial
  | snoc _ step ih =>
      obtain ⟨earlier, _, newest⟩ := List.pairwise_append.mp ordered
      refine preserved _ _ _ _ (ih earlier) (fun old member => ?_) step
      exact newest old member _ List.mem_cons_self

/-- Every event of a run is shown by one of its steps. -/
theorem LabelledRun.step_of_mem {α ε : Type*} {Step : α → ε → α → Prop} {first last : α}
    {events : List ε} (run : LabelledRun Step first events last) {event : ε}
    (shown : event ∈ events) : ∃ before after, Step before event after := by
  induction run with
  | nil => cases shown
  | snoc _ step ih =>
      rcases List.mem_append.mp shown with earlier | newest
      · exact ih earlier
      · rw [List.mem_singleton.mp newest]
        exact ⟨_, _, step⟩

/-- A log to which each step appends what its event shows. -/
theorem LabelledRun.log_eq {α β ε : Type*} {Step : α → ε → α → Prop} {log : α → List β}
    {shown : ε → Option β}
    (appends : ∀ before event after, Step before event after →
      log after = log before ++ (shown event).toList)
    {first last : α} {events : List ε} (run : LabelledRun Step first events last) :
    log last = log first ++ events.filterMap shown := by
  induction run with
  | nil => exact (List.append_nil _).symm
  | snoc _ step ih =>
      rw [appends _ _ _ step, ih, List.filterMap_append, List.append_assoc]
      rfl

/-- What every step keeps holds at the end of every run. -/
theorem LabelledRun.invariant {α ε : Type*} {Step : α → ε → α → Prop} (Good : α → Prop)
    (preserved : ∀ before event after, Good before → Step before event after → Good after)
    {first last : α} {events : List ε} (run : LabelledRun Step first events last)
    (initial : Good first) : Good last := by
  induction run with
  | nil => exact initial
  | snoc _ step ih => exact preserved _ _ _ ih step

/-- What one call of a refining machine does to the abstract state. -/
def Matches {α ε : Type*} (Step : α → ε → α → Prop) (before : α) :
    Option ε → α → Prop
  | none, after => after = before
  | some event, after => Step before event after

/-- A run whose steps are matched one by one is a specified run on the events it
shows. -/
theorem LabelledRun.refines {σ α δ ε : Type*} {Concrete : σ → δ → σ → Prop}
    {Step : α → ε → α → Prop} {first last : σ} {labels : List δ}
    (run : LabelledRun Concrete first labels last) (abstraction : σ → α)
    (shown : δ → Option ε)
    (matched : ∀ before label after, Concrete before label after →
      Matches Step (abstraction before) (shown label) (abstraction after)) :
    LabelledRun Step (abstraction first) (labels.filterMap shown) (abstraction last) := by
  induction run with
  | nil => exact .nil _
  | @snoc middle last _ label _ move ih =>
      have step := matched _ _ _ move
      rw [List.filterMap_append]
      cases event : shown label with
      | none =>
          rw [event] at step
          have silent : abstraction last = abstraction middle := step
          rw [silent, List.filterMap_cons_none event, List.filterMap_nil, List.append_nil]
          exact ih
      | some seen =>
          rw [event] at step
          rw [List.filterMap_cons_some event, List.filterMap_nil]
          exact .snoc ih step

/-- The events shown by a run, the silent calls left out. -/
def Mealy.events {σ ι ε : Type*} (machine : Mealy σ ι (Option ε)) (start : σ)
    (inputs : List ι) : List ε :=
  (machine.outputs start inputs).filterMap id

section Refinement

variable {σ ι ε α : Type*} (machine : Mealy σ ι (Option ε))

@[simp] theorem Mealy.events_nil (start : σ) : machine.events start [] = [] := rfl

theorem Mealy.events_snoc (start : σ) (inputs : List ι) (input : ι) :
    machine.events start (inputs ++ [input]) =
      machine.events start inputs ++
        (machine.output (machine.after start inputs) input).toList := by
  unfold Mealy.events
  rw [Mealy.outputs_snoc, List.filterMap_append]
  cases machine.output (machine.after start inputs) input <;> rfl

/-- Refinement along an abstraction that holds on the states of an invariant. -/
theorem Mealy.refines {start : σ} (Step : α → ε → α → Prop) (abstraction : σ → α)
    (Good : σ → Prop) (initial : Good start)
    (preserved : ∀ state input, Good state → Good (machine.step state input))
    (matched : ∀ state input, Good state →
      Matches Step (abstraction state) (machine.output state input)
        (abstraction (machine.step state input)))
    (inputs : List ι) :
    LabelledRun Step (abstraction start) (machine.events start inputs)
      (abstraction (machine.after start inputs)) := by
  induction inputs using List.reverseRecOn with
  | nil => exact .nil _
  | append_singleton inputs input ih =>
      have good := machine.after_invariant Good initial preserved inputs
      have step := matched _ input good
      rw [Mealy.events_snoc, Mealy.after_snoc]
      cases shown : machine.output (machine.after start inputs) input with
      | none =>
          rw [shown] at step
          have silent : abstraction (machine.step (machine.after start inputs) input) =
              abstraction (machine.after start inputs) := step
          rw [silent, Option.toList_none, List.append_nil]
          exact ih
      | some event =>
          rw [shown] at step
          exact .snoc ih step

end Refinement

end PrismPipeline.Machine
