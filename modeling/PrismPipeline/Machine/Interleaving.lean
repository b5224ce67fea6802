import PrismPipeline.Machine.Mealy

/-!
# Machines driven in turn

Calls to several machines arrive in one sequence, each tagged with the machine it is
meant for.  A view of the joint state that the calls of one tag move as some machine
would, and that no other call moves, is after every interleaving what that machine
shows after its own calls alone.
-/

namespace PrismPipeline.Machine

/-- The calls with tag `i`, in order. -/
def ownCalls {ι α : Type*} [DecidableEq ι] (i : ι) (calls : List (ι × α)) : List α :=
  calls.filterMap fun call => if call.1 = i then some call.2 else none

section Own

variable {ι α : Type*} [DecidableEq ι] {i j : ι}

theorem ownCalls_append (first second : List (ι × α)) :
    ownCalls i (first ++ second) = ownCalls i first ++ ownCalls i second :=
  List.filterMap_append

theorem ownCalls_cons_own (input : α) (rest : List (ι × α)) :
    ownCalls i ((i, input) :: rest) = input :: ownCalls i rest :=
  List.filterMap_cons_some (if_pos rfl)

theorem ownCalls_cons_other (other : j ≠ i) (input : α) (rest : List (ι × α)) :
    ownCalls i ((j, input) :: rest) = ownCalls i rest :=
  List.filterMap_cons_none (if_neg other)

theorem ownCalls_tagged (inputs : List α) :
    ownCalls i (inputs.map fun input => (i, input)) = inputs := by
  induction inputs with
  | nil => rfl
  | cons input rest ih => rw [List.map_cons, ownCalls_cons_own, ih]

theorem ownCalls_other (other : j ≠ i) (inputs : List α) :
    ownCalls i (inputs.map fun input => (j, input)) = [] := by
  induction inputs with
  | nil => rfl
  | cons input rest ih => rw [List.map_cons, ownCalls_cons_other other, ih]

/-- Calls that all have one tag are its own. -/
theorem ownCalls_of_forall {calls : List (ι × α)} (own : ∀ call ∈ calls, call.1 = i) :
    ownCalls i calls = calls.map Prod.snd := by
  induction calls with
  | nil => rfl
  | cons call rest ih =>
      obtain ⟨tag, input⟩ := call
      obtain ⟨rfl, others⟩ := List.forall_mem_cons.mp own
      rw [ownCalls_cons_own, ih others, List.map_cons]

end Own

namespace Mealy

variable {σ π ι α ο ω : Type*}

/-- A view that only the calls of one tag move. -/
theorem view_after [DecidableEq ι] (joint : Mealy σ (ι × α) ο) (own : Mealy π α ω) (i : ι)
    (view : σ → π)
    (moves : ∀ state input, view (joint.step state (i, input)) = own.step (view state) input)
    (frame : ∀ state j input, j ≠ i → view (joint.step state (j, input)) = view state)
    (start : σ) (calls : List (ι × α)) :
    view (joint.after start calls) = own.after (view start) (ownCalls i calls) := by
  induction calls generalizing start with
  | nil => rfl
  | cons call rest ih =>
      obtain ⟨j, input⟩ := call
      rw [after_cons, ih]
      by_cases mine : j = i
      · subst mine
        rw [moves, ownCalls_cons_own, after_cons]
      · rw [frame _ _ _ mine, ownCalls_cons_other mine]

end Mealy

end PrismPipeline.Machine
