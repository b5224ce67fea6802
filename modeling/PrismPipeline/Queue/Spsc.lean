import Mathlib.Algebra.Group.Nat.Defs
import Mathlib.Logic.Function.Basic
import PrismPipeline.Queue.Fifo

/-!
# The single-producer single-consumer queue

`SimpleSPSCQueue` as a machine whose calls are the individual memory accesses of
`push` and `pop`.  Each side keeps the locals of the call it is in; a schedule
decides which side makes its next access, so the runs are the interleavings of
one producer and one consumer in one global order of accesses.  An access of a
side that has no call in progress, and a call on a side that has one, changes
nothing.

The capacity is `2 ^ k`.  Indices stay below it, so `t + 1` does not leave
`size_t` for any capacity that fits in memory.
-/

namespace PrismPipeline.Queue

open PrismPipeline.Machine

def capacity (k : ℕ) : ℕ := 2 ^ k

def mask (k : ℕ) : ℕ := capacity k - 1

/-- `(i + 1) & Mask` -/
def nextIndex (k i : ℕ) : ℕ := (i + 1) &&& mask k

/-- Where the producer is inside `push`, with the locals of the call. -/
inductive PushState (T : Type*) where
  | idle
  | readHead (item : T) (t : ℕ)
  | writeSlot (item : T) (t : ℕ)
  | publishTail (item : T) (t : ℕ)

/-- Where the consumer is inside `pop`, with the locals of the call. -/
inductive PopState (T : Type*) where
  | idle
  | readTail (h : ℕ)
  | readSlot (h : ℕ)
  | publishHead (h : ℕ) (item : T)

structure QueueState (T : Type*) where
  buffer : ℕ → T
  head : ℕ
  tail : ℕ
  push : PushState T
  pop : PopState T

/-- A fresh queue; the slots hold whatever the memory held. -/
def freshQueue {T : Type*} (buffer : ℕ → T) : QueueState T :=
  ⟨buffer, 0, 0, .idle, .idle⟩

/-- One entry of a schedule. -/
inductive Access (T : Type*) where
  | callPush (item : T)
  | producer
  | callPop
  | consumer

variable {T : Type*}

/-- `push` starts by loading the tail. -/
def callPush (item : T) (q : QueueState T) : QueueState T :=
  match q.push with
  | .idle => { q with push := .readHead item q.tail }
  | .readHead _ _ | .writeSlot _ _ | .publishTail _ _ => q

/-- The remaining accesses of `push`, with the result when the call returns. -/
def producerAccess (k : ℕ) (q : QueueState T) : QueueState T × Option (Event T) :=
  match q.push with
  | .idle => (q, none)
  | .readHead item t =>
      if nextIndex k t = q.head then ({ q with push := .idle }, some .pushFull)
      else ({ q with push := .writeSlot item t }, none)
  | .writeSlot item t =>
      ({ q with buffer := Function.update q.buffer t item, push := .publishTail item t },
        none)
  | .publishTail item t =>
      ({ q with tail := nextIndex k t, push := .idle }, some (.pushed item))

/-- `pop` starts by loading the head. -/
def callPop (q : QueueState T) : QueueState T :=
  match q.pop with
  | .idle => { q with pop := .readTail q.head }
  | .readTail _ | .readSlot _ | .publishHead _ _ => q

/-- The remaining accesses of `pop`, with the result when the call returns. -/
def consumerAccess (k : ℕ) (q : QueueState T) : QueueState T × Option (Event T) :=
  match q.pop with
  | .idle => (q, none)
  | .readTail h =>
      if h = q.tail then ({ q with pop := .idle }, some .popEmpty)
      else ({ q with pop := .readSlot h }, none)
  | .readSlot h => ({ q with pop := .publishHead h (q.buffer h) }, none)
  | .publishHead h item =>
      ({ q with head := nextIndex k h, pop := .idle }, some (.popped item))

def access (k : ℕ) (q : QueueState T) : Access T → QueueState T × Option (Event T)
  | .callPush item => (callPush item q, none)
  | .producer => producerAccess k q
  | .callPop => (callPop q, none)
  | .consumer => consumerAccess k q

/-- The queue under a schedule of accesses. -/
def spscQueue (T : Type*) (k : ℕ) : Mealy (QueueState T) (Access T) (Option (Event T)) where
  step q a := (access k q a).1
  output q a := (access k q a).2

end PrismPipeline.Queue
