import PrismPipeline.Machine.Refinement

/-!
# A bounded first-in first-out queue

The specification of a bounded queue by its events: an item is accepted at the
back while there is room, a push is refused exactly on a full queue, the item at
the front is delivered, and a pop is refused exactly on an empty queue.  In
every run from the empty queue the accepted items are the delivered ones
followed by the contents.
-/

namespace PrismPipeline.Queue

open PrismPipeline.Machine

/-- The results a caller of the queue can see. -/
inductive Event (T : Type*) where
  | pushed (item : T)
  | pushFull
  | popped (item : T)
  | popEmpty

/-- The steps of a queue that holds at most `bound` items. -/
inductive FifoStep {T : Type*} (bound : ℕ) : List T → Event T → List T → Prop where
  | pushed {contents : List T} (item : T) (room : contents.length < bound) :
      FifoStep bound contents (.pushed item) (contents ++ [item])
  | pushFull {contents : List T} (full : contents.length = bound) :
      FifoStep bound contents .pushFull contents
  | popped (item : T) (rest : List T) :
      FifoStep bound (item :: rest) (.popped item) rest
  | popEmpty : FifoStep bound [] .popEmpty []

def pushedItem? {T : Type*} : Event T → Option T
  | .pushed item => some item
  | .pushFull | .popped _ | .popEmpty => none

def poppedItem? {T : Type*} : Event T → Option T
  | .popped item => some item
  | .pushed _ | .pushFull | .popEmpty => none

/-- The items of the successful pushes, in order. -/
def pushedItems {T : Type*} (events : List (Event T)) : List T :=
  events.filterMap pushedItem?

/-- The items of the successful pops, in order. -/
def poppedItems {T : Type*} (events : List (Event T)) : List T :=
  events.filterMap poppedItem?

variable {T : Type*} {bound : ℕ} {contents : List T} {events : List (Event T)}

/-- Nothing is lost, duplicated or reordered. -/
theorem fifo_conservation (run : LabelledRun (FifoStep bound) [] events contents) :
    pushedItems events = poppedItems events ++ contents := by
  induction run with
  | nil => simp [pushedItems, poppedItems]
  | snoc run step ih =>
      unfold pushedItems poppedItems at ih ⊢
      rw [List.filterMap_append, List.filterMap_append, ih]
      cases step with
      | pushed item room => simp [pushedItem?, poppedItem?]
      | pushFull full => simp [pushedItem?, poppedItem?, List.filterMap_cons]
      | popped item rest => simp [pushedItem?, poppedItem?]
      | popEmpty => simp [pushedItem?, poppedItem?, List.filterMap_cons]

/-- The bound is never exceeded. -/
theorem fifo_length_le (run : LabelledRun (FifoStep bound) [] events contents) :
    contents.length ≤ bound := by
  refine run.invariant (fun contents => contents.length ≤ bound) ?_ (Nat.zero_le _)
  intro before event after within step
  cases step with
  | pushed item room =>
      rw [List.length_append, List.length_singleton]
      exact room
  | pushFull full => exact within
  | popped item rest =>
      rw [List.length_cons] at within
      exact Nat.le_of_succ_le within
  | popEmpty => exact within

end PrismPipeline.Queue
