import PrismPipeline.Queue.SpscRefinement

/-!
# A queue in use

The queue together with the results its two users have been given.  The record is a trace
of the calls and not a variable of the source.  A user is in the middle of a call for as
long as its side of the queue is busy; one access brings the call nearer to its end or
ends it, and leaves the other side where it is.
-/

namespace PrismPipeline.Queue

open PrismPipeline.Machine

structure Channel (T : Type*) where
  queue : QueueState T
  events : List (Event T) := []

variable {T : Type*} {k : ℕ}

namespace Channel

def fresh (buffer : ℕ → T) : Channel T where
  queue := freshQueue buffer

/-- The items of the successful pushes, in order. -/
def pushed (c : Channel T) : List T := pushedItems c.events

/-- The items of the successful pops, in order. -/
def popped (c : Channel T) : List T := poppedItems c.events

def stored (k : ℕ) (c : Channel T) : List T := contents k c.queue

/-- The channel after an access, with what the access returned. -/
def record (c : Channel T) (result : QueueState T × Option (Event T)) : Channel T where
  queue := result.1
  events := c.events ++ result.2.toList

/-- The indices are in range, and the results are those of a bounded queue that now holds
the stored items. -/
structure Sound (k : ℕ) (c : Channel T) : Prop where
  invariant : QueueInvariant k c.queue
  run : LabelledRun (FifoStep (capacity k - 1)) [] c.events (c.stored k)

theorem fresh_sound (k : ℕ) (buffer : ℕ → T) : (fresh buffer).Sound k where
  invariant := freshQueue_invariant k buffer
  run := by
    have empty : (fresh buffer).stored k = [] :=
      contents_empty (freshQueue_invariant k buffer) rfl
    rw [empty]
    exact .nil []

section Sound

variable {c : Channel T}

theorem Sound.access (sound : c.Sound k) (a : Access T) :
    (c.record (access k c.queue a)).Sound k := by
  obtain ⟨invariant, step⟩ := access_refines sound.invariant a
  refine ⟨invariant, ?_⟩
  unfold record stored
  cases returned : (Queue.access k c.queue a).2 with
  | none =>
      rw [returned] at step
      have silent : contents k (Queue.access k c.queue a).1 = contents k c.queue := step
      rw [Option.toList_none, List.append_nil, silent]
      exact sound.run
  | some event =>
      rw [returned] at step
      exact .snoc sound.run step

/-- Nothing is lost, duplicated or reordered. -/
theorem Sound.conserved (sound : c.Sound k) : c.pushed = c.popped ++ c.stored k :=
  fifo_conservation sound.run

theorem Sound.stored_length_le (sound : c.Sound k) : (c.stored k).length ≤ capacity k - 1 :=
  fifo_length_le sound.run

end Sound

section Record

variable (c : Channel T) (q : QueueState T)

/-- What was pushed stays pushed. -/
theorem pushed_prefix_record (result : QueueState T × Option (Event T)) :
    c.pushed <+: (c.record result).pushed := by
  unfold pushed record pushedItems
  rw [List.filterMap_append]
  exact List.prefix_append _ _

@[simp] theorem record_queue (result : QueueState T × Option (Event T)) :
    (c.record result).queue = result.1 := rfl

@[simp] theorem record_none_pushed : (c.record (q, none)).pushed = c.pushed := by
  simp [record, pushed]

@[simp] theorem record_none_popped : (c.record (q, none)).popped = c.popped := by
  simp [record, popped]

@[simp] theorem record_pushed_pushed (item : T) :
    (c.record (q, some (.pushed item))).pushed = c.pushed ++ [item] := by
  simp [record, pushed, pushedItems, pushedItem?]

@[simp] theorem record_pushed_popped (item : T) :
    (c.record (q, some (.pushed item))).popped = c.popped := by
  simp [record, popped, poppedItems, poppedItem?, List.filterMap_cons]

@[simp] theorem record_pushFull_pushed :
    (c.record (q, some .pushFull)).pushed = c.pushed := by
  simp [record, pushed, pushedItems, pushedItem?, List.filterMap_cons]

@[simp] theorem record_pushFull_popped :
    (c.record (q, some .pushFull)).popped = c.popped := by
  simp [record, popped, poppedItems, poppedItem?, List.filterMap_cons]

@[simp] theorem record_popped_pushed (item : T) :
    (c.record (q, some (.popped item))).pushed = c.pushed := by
  simp [record, pushed, pushedItems, pushedItem?, List.filterMap_cons]

@[simp] theorem record_popped_popped (item : T) :
    (c.record (q, some (.popped item))).popped = c.popped ++ [item] := by
  simp [record, popped, poppedItems, poppedItem?]

@[simp] theorem record_popEmpty_pushed :
    (c.record (q, some .popEmpty)).pushed = c.pushed := by
  simp [record, pushed, pushedItems, pushedItem?, List.filterMap_cons]

@[simp] theorem record_popEmpty_popped :
    (c.record (q, some .popEmpty)).popped = c.popped := by
  simp [record, popped, poppedItems, poppedItem?, List.filterMap_cons]

end Record

end Channel

/-! ## A call in progress -/

/-- The item a call of `push` is about. -/
def PushState.item? : PushState T → Option T
  | .idle => none
  | .readHead item _ | .writeSlot item _ | .publishTail item _ => some item

/-- The accesses a call of `push` can still make. -/
def PushState.remaining : PushState T → ℕ
  | .idle => 0
  | .readHead _ _ => 3
  | .writeSlot _ _ => 2
  | .publishTail _ _ => 1

/-- The accesses a call of `pop` can still make. -/
def PopState.remaining : PopState T → ℕ
  | .idle => 0
  | .readTail _ => 3
  | .readSlot _ => 2
  | .publishHead _ _ => 1

theorem PopState.remaining_le (pop : PopState T) : pop.remaining ≤ 3 := by
  cases pop <;> simp [remaining]

theorem PushState.remaining_pos {push : PushState T} {item : T} (busy : push.item? = some item) :
    0 < push.remaining := by
  cases push with
  | idle => cases busy
  | _ => simp [remaining]

theorem PushState.remaining_le (push : PushState T) : push.remaining ≤ 3 := by
  cases push <;> simp [remaining]

/-- What `push` has returned, if it has. -/
def pushAnswer? : Option (Event T) → Option Bool
  | some (.pushed _) => some true
  | some .pushFull => some false
  | some (.popped _) | some .popEmpty | none => none

/-- What `pop` has returned, if it has: the item, or that there is none. -/
def popAnswer? : Option (Event T) → Option (Option T)
  | some (.popped item) => some (some item)
  | some .popEmpty => some none
  | some (.pushed _) | some .pushFull | none => none

/-- One access inside a call of `push` about `item`. -/
inductive PushEffect (item : T) (before after : PushState T) : Option (Event T) → Prop where
  | inside (same : after.item? = some item) (nearer : after.remaining + 1 = before.remaining) :
      PushEffect item before after none
  | full (left : after = .idle) : PushEffect item before after (some .pushFull)
  | pushed (left : after = .idle) : PushEffect item before after (some (.pushed item))

/-- One access inside a call of `pop` on a queue with these contents. -/
inductive PopEffect (stored : List T) (before after : PopState T) : Option (Event T) → Prop where
  | inside (busy : 0 < after.remaining) (nearer : after.remaining + 1 = before.remaining) :
      PopEffect stored before after none
  | empty (nothing : stored = []) (left : after = .idle) :
      PopEffect stored before after (some .popEmpty)
  | popped (item : T) (last : before.remaining = 1) (left : after = .idle) :
      PopEffect stored before after (some (.popped item))

/-- A push is refused on a full queue only, and changes nothing. -/
theorem FifoStep.of_pushFull {bound : ℕ} {before after : List T}
    (step : FifoStep bound before .pushFull after) : after = before ∧ before.length = bound := by
  cases step with
  | pushFull full => exact ⟨rfl, full⟩

/-- A pop is refused on an empty queue only, and changes nothing. -/
theorem FifoStep.of_popEmpty {bound : ℕ} {before after : List T}
    (step : FifoStep bound before .popEmpty after) : after = before := by
  cases step with
  | popEmpty => rfl

section Access

variable {q : QueueState T}

theorem callPush_push (idle : q.push = .idle) (item : T) :
    (callPush item q).push.item? = some item ∧ (callPush item q).push.remaining = 3 := by
  unfold callPush
  rw [idle]
  exact ⟨rfl, rfl⟩

@[simp] theorem callPush_pop (item : T) : (callPush item q).pop = q.pop := by
  unfold callPush
  cases q.push <;> rfl

theorem callPop_pop (idle : q.pop = .idle) : (callPop q).pop.remaining = 3 := by
  unfold callPop
  rw [idle]
  rfl

@[simp] theorem callPop_push : (callPop q).push = q.push := by
  unfold callPop
  cases q.pop <;> rfl

theorem producerAccess_effect {item : T} (busy : q.push.item? = some item) :
    PushEffect item q.push (producerAccess k q).1.push (producerAccess k q).2 := by
  unfold producerAccess
  cases pc : q.push with
  | idle => rw [pc] at busy; cases busy
  | readHead held t =>
      rw [pc] at busy
      obtain rfl := Option.some.inj busy
      dsimp only
      by_cases full : nextIndex k t = q.head
      · rw [if_pos full]
        exact .full rfl
      · rw [if_neg full]
        exact .inside rfl rfl
  | writeSlot held t =>
      rw [pc] at busy
      obtain rfl := Option.some.inj busy
      exact .inside rfl rfl
  | publishTail held t =>
      rw [pc] at busy
      obtain rfl := Option.some.inj busy
      exact .pushed rfl

@[simp] theorem producerAccess_pop : (producerAccess k q).1.pop = q.pop := by
  unfold producerAccess
  cases q.push with
  | idle => rfl
  | readHead held t => dsimp only; split <;> rfl
  | writeSlot held t => rfl
  | publishTail held t => rfl

theorem consumerAccess_effect (inv : QueueInvariant k q) (busy : 0 < q.pop.remaining) :
    PopEffect (contents k q) q.pop (consumerAccess k q).1.pop (consumerAccess k q).2 := by
  have pop := inv.pop
  unfold PopOk at pop
  unfold consumerAccess
  cases pc : q.pop with
  | idle => rw [pc] at busy; exact absurd busy (Nat.lt_irrefl 0)
  | readTail h =>
      simp only [pc] at pop
      dsimp only
      by_cases empty : h = q.tail
      · rw [if_pos empty]
        exact .empty (contents_empty inv (pop ▸ empty)) rfl
      · rw [if_neg empty]
        exact .inside Nat.two_pos rfl
  | readSlot h => exact .inside Nat.one_pos rfl
  | publishHead h item => exact .popped item rfl rfl

@[simp] theorem consumerAccess_push : (consumerAccess k q).1.push = q.push := by
  unfold consumerAccess
  cases q.pop with
  | idle => rfl
  | readTail h => dsimp only; split <;> rfl
  | readSlot h => rfl
  | publishHead h item => rfl

end Access

/-- The producer pops nothing. -/
theorem Channel.record_producer_popped (c : Channel T) :
    (c.record (producerAccess k c.queue)).popped = c.popped := by
  unfold producerAccess
  cases c.queue.push with
  | idle => exact c.record_none_popped _
  | readHead held t =>
      dsimp only
      split
      · exact c.record_pushFull_popped _
      · exact c.record_none_popped _
  | writeSlot held t => exact c.record_none_popped _
  | publishTail held t => exact c.record_pushed_popped _ held

/-- The consumer pushes nothing. -/
theorem Channel.record_consumer_pushed (c : Channel T) :
    (c.record (consumerAccess k c.queue)).pushed = c.pushed := by
  unfold consumerAccess
  cases c.queue.pop with
  | idle => exact c.record_none_pushed _
  | readTail h =>
      dsimp only
      split
      · exact c.record_popEmpty_pushed _
      · exact c.record_none_pushed _
  | readSlot h => exact c.record_none_pushed _
  | publishHead h item => exact c.record_popped_pushed _ item

end PrismPipeline.Queue
