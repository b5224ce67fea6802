import PrismPipeline.Queue.Ring
import PrismPipeline.Queue.Spsc

/-!
# The queue refines a bounded first-in first-out queue

Each side decides on its own copy of the other side's index, read some accesses
earlier.  The invariant says what such a copy is still worth: the index a side
owns is the one it read, and a nonfull (nonempty) verdict stays true because the
other side can only add room (items).  Every access then is a silent step or one
step of the bounded queue, and the slot written by the producer is never the slot
held by the consumer.
-/

namespace PrismPipeline.Queue

open PrismPipeline.Machine PrismPipeline.Queue.Ring

variable {T : Type*} {k : ℕ} {q : QueueState T}

theorem nextIndex_eq_mod (k i : ℕ) : nextIndex k i = (i + 1) % capacity k :=
  Nat.and_two_pow_sub_one_eq_mod _ _

theorem capacity_pos (k : ℕ) : 0 < capacity k := Nat.two_pow_pos k

theorem nextIndex_lt (k i : ℕ) : nextIndex k i < capacity k := by
  rw [nextIndex_eq_mod]
  exact Nat.mod_lt _ (capacity_pos k)

/-- The items from the head up to the tail, read off the slots. -/
def contents (k : ℕ) (q : QueueState T) : List T :=
  window (capacity k) q.buffer q.head (fill (capacity k) q.head q.tail)

/-- What the locals of the producer are worth. -/
def PushOk (k : ℕ) (q : QueueState T) : Prop :=
  match q.push with
  | .idle => True
  | .readHead _ t => t = q.tail
  | .writeSlot _ t => t = q.tail ∧ nextIndex k t ≠ q.head
  | .publishTail item t => t = q.tail ∧ nextIndex k t ≠ q.head ∧ q.buffer t = item

/-- What the locals of the consumer are worth. -/
def PopOk (q : QueueState T) : Prop :=
  match q.pop with
  | .idle => True
  | .readTail h => h = q.head
  | .readSlot h => h = q.head ∧ q.head ≠ q.tail
  | .publishHead h item => h = q.head ∧ q.head ≠ q.tail ∧ item = q.buffer h

structure QueueInvariant (k : ℕ) (q : QueueState T) : Prop where
  head_lt : q.head < capacity k
  tail_lt : q.tail < capacity k
  push : PushOk k q
  pop : PopOk q

theorem freshQueue_invariant (k : ℕ) (buffer : ℕ → T) :
    QueueInvariant k (freshQueue buffer) :=
  ⟨capacity_pos k, capacity_pos k, trivial, trivial⟩

/-! ## What each access does to the contents -/

/-- A write to the slot behind the window is not seen. -/
theorem contents_write (inv : QueueInvariant k q) (item : T) (push : PushState T) :
    contents k { q with buffer := Function.update q.buffer q.tail item, push := push } =
      contents k q :=
  window_update q.buffer (fun _ inside => slot_ne_tail inv.head_lt inv.tail_lt inside) item

/-- Publishing the tail appends the item in the slot behind the window. -/
theorem contents_publishTail (inv : QueueInvariant k q)
    (room : nextIndex k q.tail ≠ q.head) (push : PushState T) :
    contents k { q with tail := nextIndex k q.tail, push := push } =
      contents k q ++ [q.buffer q.tail] := by
  rw [nextIndex_eq_mod] at room ⊢
  unfold contents
  dsimp only
  rw [fill_tail_succ inv.head_lt inv.tail_lt room, window_succ_right,
    slot_fill inv.head_lt inv.tail_lt]

/-- Publishing the head removes the item in the first slot of the window. -/
theorem contents_publishHead (inv : QueueInvariant k q) (nonempty : q.head ≠ q.tail)
    (pop : PopState T) :
    contents k q =
      q.buffer q.head :: contents k { q with head := nextIndex k q.head, pop := pop } := by
  rw [nextIndex_eq_mod]
  unfold contents
  dsimp only
  rw [fill_head_succ inv.head_lt inv.tail_lt nonempty,
    window_succ_left q.buffer inv.head_lt]

theorem contents_length_lt (inv : QueueInvariant k q)
    (room : nextIndex k q.tail ≠ q.head) : (contents k q).length < capacity k - 1 := by
  rw [nextIndex_eq_mod] at room
  have grown := fill_tail_succ inv.head_lt inv.tail_lt room
  have below := fill_lt (capacity_pos k) q.head ((q.tail + 1) % capacity k)
  rw [contents, window_length]
  omega

theorem contents_length_full (inv : QueueInvariant k q)
    (full : nextIndex k q.tail = q.head) : (contents k q).length = capacity k - 1 := by
  rw [nextIndex_eq_mod] at full
  rw [contents, window_length]
  exact fill_of_full inv.head_lt inv.tail_lt full

theorem contents_empty (inv : QueueInvariant k q) (empty : q.head = q.tail) :
    contents k q = [] := by
  rw [contents, (fill_eq_zero_iff inv.head_lt inv.tail_lt).mpr empty]
  rfl

/-! ## The invariant and the refinement, access by access -/

/-- The nonfull verdict of the producer survives a head published by the consumer. -/
theorem room_after_pop (inv : QueueInvariant k q) (nonempty : q.head ≠ q.tail) :
    nextIndex k q.tail ≠ nextIndex k q.head := by
  intro same
  rw [nextIndex_eq_mod, nextIndex_eq_mod, succ_mod_eq inv.tail_lt,
    succ_mod_eq inv.head_lt] at same
  split_ifs at same <;> omega

theorem callPush_invariant (inv : QueueInvariant k q) (item : T) :
    QueueInvariant k (callPush item q) ∧ contents k (callPush item q) = contents k q := by
  unfold callPush
  cases pc : q.push with
  | idle => exact ⟨⟨inv.head_lt, inv.tail_lt, rfl, inv.pop⟩, rfl⟩
  | readHead _ _ => exact ⟨inv, rfl⟩
  | writeSlot _ _ => exact ⟨inv, rfl⟩
  | publishTail _ _ => exact ⟨inv, rfl⟩

theorem callPop_invariant (inv : QueueInvariant k q) :
    QueueInvariant k (callPop q) ∧ contents k (callPop q) = contents k q := by
  unfold callPop
  cases pc : q.pop with
  | idle => exact ⟨⟨inv.head_lt, inv.tail_lt, inv.push, rfl⟩, rfl⟩
  | readTail _ => exact ⟨inv, rfl⟩
  | readSlot _ => exact ⟨inv, rfl⟩
  | publishHead _ _ => exact ⟨inv, rfl⟩

/-- The producer writes the tail slot, which a consumer inside its window never holds. -/
theorem popOk_write (pop : PopOk q) (item : T) (push : PushState T) :
    PopOk { q with buffer := Function.update q.buffer q.tail item, push := push } := by
  unfold PopOk at pop ⊢
  cases pc : q.pop with
  | idle => trivial
  | readTail h => simpa only [pc] using pop
  | readSlot h => simpa only [pc] using pop
  | publishHead h held =>
      simp only [pc] at pop
      obtain ⟨rfl, nonempty, rfl⟩ := pop
      exact ⟨rfl, nonempty, (Function.update_of_ne nonempty item q.buffer).symm⟩

/-- A tail published into a free slot keeps a nonempty verdict of the consumer. -/
theorem popOk_publishTail (pop : PopOk q) (room : nextIndex k q.tail ≠ q.head)
    (push : PushState T) :
    PopOk { q with tail := nextIndex k q.tail, push := push } := by
  unfold PopOk at pop ⊢
  cases pc : q.pop with
  | idle => trivial
  | readTail h => simpa only [pc] using pop
  | readSlot h =>
      simp only [pc] at pop
      exact ⟨pop.1, room.symm⟩
  | publishHead h held =>
      simp only [pc] at pop
      exact ⟨pop.1, room.symm, pop.2.2⟩

/-- A head published out of a nonempty window keeps a nonfull verdict of the producer. -/
theorem pushOk_publishHead (inv : QueueInvariant k q) (nonempty : q.head ≠ q.tail)
    (pop : PopState T) :
    PushOk k { q with head := nextIndex k q.head, pop := pop } := by
  have push := inv.push
  have room := room_after_pop inv nonempty
  unfold PushOk at push ⊢
  cases pc : q.push with
  | idle => trivial
  | readHead item t => simpa only [pc] using push
  | writeSlot item t =>
      simp only [pc] at push
      exact ⟨push.1, push.1 ▸ room⟩
  | publishTail item t =>
      simp only [pc] at push
      exact ⟨push.1, push.1 ▸ room, push.2.2⟩

theorem producerAccess_refines (inv : QueueInvariant k q) :
    QueueInvariant k (producerAccess k q).1 ∧
      Matches (FifoStep (capacity k - 1)) (contents k q) (producerAccess k q).2
        (contents k (producerAccess k q).1) := by
  have push := inv.push
  unfold PushOk at push
  unfold producerAccess
  cases pc : q.push with
  | idle => exact ⟨inv, rfl⟩
  | readHead item t =>
      simp only [pc] at push
      subst push
      dsimp only
      by_cases full : nextIndex k q.tail = q.head
      · rw [if_pos full]
        exact ⟨⟨inv.head_lt, inv.tail_lt, trivial, inv.pop⟩,
          .pushFull (contents_length_full inv full)⟩
      · rw [if_neg full]
        exact ⟨⟨inv.head_lt, inv.tail_lt, ⟨rfl, full⟩, inv.pop⟩, rfl⟩
  | writeSlot item t =>
      simp only [pc] at push
      obtain ⟨rfl, room⟩ := push
      exact ⟨⟨inv.head_lt, inv.tail_lt, ⟨rfl, room, Function.update_self _ _ _⟩,
        popOk_write inv.pop item _⟩, contents_write inv item _⟩
  | publishTail item t =>
      simp only [pc] at push
      obtain ⟨rfl, room, rfl⟩ := push
      refine ⟨⟨inv.head_lt, nextIndex_lt k _, trivial, popOk_publishTail inv.pop room _⟩, ?_⟩
      have grown := contents_publishTail inv room .idle
      have step := FifoStep.pushed (q.buffer q.tail) (contents_length_lt inv room)
      rwa [← grown] at step

theorem consumerAccess_refines (inv : QueueInvariant k q) :
    QueueInvariant k (consumerAccess k q).1 ∧
      Matches (FifoStep (capacity k - 1)) (contents k q) (consumerAccess k q).2
        (contents k (consumerAccess k q).1) := by
  have pop := inv.pop
  unfold PopOk at pop
  unfold consumerAccess
  cases pc : q.pop with
  | idle => exact ⟨inv, rfl⟩
  | readTail h =>
      simp only [pc] at pop
      subst pop
      dsimp only
      by_cases empty : q.head = q.tail
      · rw [if_pos empty]
        have none := contents_empty inv empty
        have step : FifoStep (capacity k - 1) ([] : List T) .popEmpty [] := .popEmpty
        rw [← none] at step
        exact ⟨⟨inv.head_lt, inv.tail_lt, inv.push, trivial⟩, step⟩
      · rw [if_neg empty]
        exact ⟨⟨inv.head_lt, inv.tail_lt, inv.push, ⟨rfl, empty⟩⟩, rfl⟩
  | readSlot h =>
      simp only [pc] at pop
      obtain ⟨rfl, nonempty⟩ := pop
      exact ⟨⟨inv.head_lt, inv.tail_lt, inv.push, ⟨rfl, nonempty, rfl⟩⟩, rfl⟩
  | publishHead h item =>
      simp only [pc] at pop
      obtain ⟨rfl, nonempty, rfl⟩ := pop
      refine ⟨⟨nextIndex_lt k _, inv.tail_lt, pushOk_publishHead inv nonempty _, trivial⟩, ?_⟩
      have shrunk := contents_publishHead inv nonempty .idle
      have step : FifoStep (capacity k - 1)
          (q.buffer q.head :: contents k { q with head := nextIndex k q.head, pop := .idle })
          (.popped (q.buffer q.head))
          (contents k { q with head := nextIndex k q.head, pop := .idle }) := .popped _ _
      rwa [← shrunk] at step

theorem access_refines (inv : QueueInvariant k q) (a : Access T) :
    QueueInvariant k (access k q a).1 ∧
      Matches (FifoStep (capacity k - 1)) (contents k q) (access k q a).2
        (contents k (access k q a).1) := by
  cases a with
  | callPush item => exact callPush_invariant inv item
  | producer => exact producerAccess_refines inv
  | callPop => exact callPop_invariant inv
  | consumer => exact consumerAccess_refines inv

/-! ## Every interleaving -/

theorem schedule_invariant (k : ℕ) (buffer : ℕ → T) (schedule : List (Access T)) :
    QueueInvariant k ((spscQueue T k).after (freshQueue buffer) schedule) :=
  (spscQueue T k).after_invariant (QueueInvariant k) (freshQueue_invariant k buffer)
    (fun _ a inv => (access_refines inv a).1) schedule

/-- The queue is a linearizable bounded queue: in every schedule the results
returned so far are a run of the bounded queue that ends in the stored items. -/
theorem schedule_refines (k : ℕ) (buffer : ℕ → T) (schedule : List (Access T)) :
    LabelledRun (FifoStep (capacity k - 1)) []
      ((spscQueue T k).events (freshQueue buffer) schedule)
      (contents k ((spscQueue T k).after (freshQueue buffer) schedule)) := by
  have initial : contents k (freshQueue buffer) = [] :=
    contents_empty (freshQueue_invariant k buffer) rfl
  rw [← initial]
  exact (spscQueue T k).refines (FifoStep (capacity k - 1)) (contents k) (QueueInvariant k)
    (freshQueue_invariant k buffer) (fun _ a inv => (access_refines inv a).1)
    (fun _ a inv => (access_refines inv a).2) schedule

/-- The slot the consumer holds between its emptiness check and its publication. -/
def heldSlot? (pop : PopState T) : Option ℕ :=
  match pop with
  | .idle | .readTail _ => none
  | .readSlot h | .publishHead h _ => some h

/-- The slot the producer writes with its next access. -/
def writtenSlot? (push : PushState T) : Option ℕ :=
  match push with
  | .writeSlot _ t => some t
  | .idle | .readHead _ _ | .publishTail _ _ => none

theorem writtenSlot_eq_tail (inv : QueueInvariant k q) {slot : ℕ}
    (written : writtenSlot? q.push = some slot) : slot = q.tail := by
  have push := inv.push
  unfold PushOk at push
  cases pc : q.push with
  | writeSlot item t =>
      simp only [pc] at push
      rw [pc] at written
      exact (Option.some.inj written).symm.trans push.1
  | idle => rw [pc] at written; cases written
  | readHead item t => rw [pc] at written; cases written
  | publishTail item t => rw [pc] at written; cases written

theorem heldSlot_ne_tail (inv : QueueInvariant k q) {slot : ℕ}
    (held : heldSlot? q.pop = some slot) : slot = q.head ∧ slot ≠ q.tail := by
  have pop := inv.pop
  unfold PopOk at pop
  cases pc : q.pop with
  | idle => rw [pc] at held; cases held
  | readTail h => rw [pc] at held; cases held
  | readSlot h =>
      simp only [pc] at pop
      rw [pc] at held
      obtain rfl := Option.some.inj held
      exact ⟨pop.1, pop.1 ▸ pop.2⟩
  | publishHead h item =>
      simp only [pc] at pop
      rw [pc] at held
      obtain rfl := Option.some.inj held
      exact ⟨pop.1, pop.1 ▸ pop.2.1⟩

/-- In every interleaving of one producer and one consumer: the results are a run
of a bounded queue; the popped items are a prefix of the pushed ones; the items
pushed and not yet popped are the stored ones, in order, and at most
`capacity - 1`; and the producer never writes the slot the consumer holds. -/
theorem spsc_bounded_fifo (k : ℕ) (buffer : ℕ → T) (schedule : List (Access T)) :
    let q := (spscQueue T k).after (freshQueue buffer) schedule
    let events := (spscQueue T k).events (freshQueue buffer) schedule
    LabelledRun (FifoStep (capacity k - 1)) [] events (contents k q) ∧
    poppedItems events <+: pushedItems events ∧
    pushedItems events = poppedItems events ++ contents k q ∧
    (contents k q).length ≤ capacity k - 1 ∧
    (q.head < capacity k ∧ q.tail < capacity k) ∧
    ∀ slot, writtenSlot? q.push = some slot → heldSlot? q.pop ≠ some slot := by
  intro q events
  have inv : QueueInvariant k q := schedule_invariant k buffer schedule
  have run : LabelledRun (FifoStep (capacity k - 1)) [] events (contents k q) :=
    schedule_refines k buffer schedule
  have conserved := fifo_conservation run
  refine ⟨run, ?_, conserved, fifo_length_le run, ⟨inv.head_lt, inv.tail_lt⟩, ?_⟩
  · rw [conserved]
    exact List.prefix_append _ _
  · intro slot written held
    exact (heldSlot_ne_tail inv held).2 (writtenSlot_eq_tail inv written)

end PrismPipeline.Queue
