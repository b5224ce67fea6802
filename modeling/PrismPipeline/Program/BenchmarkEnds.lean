import Mathlib.Data.Prod.Lex
import PrismPipeline.Machine.Fairness
import PrismPipeline.Program.BenchmarkRun

/-!
# The benchmark comes to an end

The two threads and the clock need each other: a producer before a full queue spins until
the consumer has popped, a consumer before an empty queue spins until the producer has
pushed, and a producer ahead of its rate spins until the clock has moved.  In every state
one of the three is helpful, so under every fair schedule the benchmark ends.
-/

namespace PrismPipeline.Program

open PrismPipeline.Machine PrismPipeline.Queue PrismPipeline.Live

/-! ## The rank -/

/-- The steps to a push on a queue with room, `wait` being the time until the due time and
`inCall` the accesses left in `push`. -/
def ProducerPc.toPush (wait inCall : ℕ) : ProducerPc → ℕ
  | .next => 7 + wait
  | .waiting => 6 + wait
  | .stamping => 5
  | .calling _ => 4
  | .pushing _ => inCall
  | .joining | .done => 0

/-- The steps until the producer is done, once all is sent and received. -/
def ProducerPc.toDone : ProducerPc → ℕ
  | .next => 2
  | .joining => 1
  | .waiting | .stamping | .calling _ | .pushing _ | .done => 0

/-- Who moves the producer on. -/
def ProducerPc.mover (wait : ℕ) : ProducerPc → BenchThread
  | .waiting => if wait = 0 then .producer else .clock
  | .next | .stamping | .calling _ | .pushing _ | .joining | .done => .producer

/-- The consumer is after a packet. -/
def ConsumerPc.Searching : ConsumerPc → Prop
  | .loop | .calling | .popping => True
  | .receiving _ | .matching _ _ | .exited => False

/-- The steps to a pop on a queue that is not empty, with `inCall` accesses left in `pop`. -/
def ConsumerPc.toPop (inCall : ℕ) : ConsumerPc → ℕ
  | .loop => 5
  | .calling => 4
  | .popping => inCall
  | .receiving _ | .matching _ _ | .exited => 0

namespace BenchState

section Rank

variable (config : BenchConfig) (k startNs : ℕ) (s : BenchState)

/-- Only the consumer can go on: the queue is full, or everything is sent. -/
def Stuck : Prop :=
  (s.channel.stored k).length = capacity k - 1 ∨ s.producer.sent = config.total

instance : Decidable (s.Stuck config k) := inferInstanceAs (Decidable (_ ∨ _))

/-- The time until the next message is due. -/
def wait : ℕ := (config.due startNs s.producer.sent).toNat - s.clock

/-- The pushes, pops and counts to come. -/
def left : ℕ :=
  (config.total - s.producer.sent) + (config.total - s.channel.popped.length) +
    (config.total - s.consumer.processed)

/-- The steps to the next push or pop, while the consumer is after a packet. -/
def search : ℕ :=
  if s.Stuck config k then s.consumer.pc.toPop s.channel.queue.pop.remaining
  else s.producer.pc.toPush (s.wait config startNs) s.channel.queue.push.remaining

/-- The steps of the helpful thread to the next push, pop or count. -/
def stage : ℕ :=
  match s.consumer.pc with
  | .receiving _ => 2
  | .matching _ _ => 1
  | .exited => s.producer.pc.toDone
  | .loop | .calling | .popping => s.search config k startNs

/-- Who brings the search on. -/
def searcher : BenchThread :=
  if s.Stuck config k then .consumer else s.producer.pc.mover (s.wait config startNs)

/-- Who can bring the benchmark on. -/
def helpful : BenchThread :=
  match s.consumer.pc with
  | .receiving _ | .matching _ _ => .consumer
  | .exited => .producer
  | .loop | .calling | .popping => s.searcher config k startNs

def rank : ℕ ×ₗ ℕ := toLex (s.left config, s.stage config k startNs)

end Rank

/-- A state of the benchmark on a queue that can hold something. -/
structure Good (config : BenchConfig) (k startNs : ℕ) (s : BenchState) : Prop where
  coherent : s.Coherent config k startNs
  holds : 1 ≤ k

/-- What a step does to the rank: it falls, or another thread was helpful and still is. -/
def Advances (config : BenchConfig) (k startNs : ℕ) (thread : BenchThread)
    (s t : BenchState) : Prop :=
  t.rank config k startNs < s.rank config k startNs ∨
    t.rank config k startNs = s.rank config k startNs ∧
      t.helpful config k startNs = s.helpful config k startNs ∧
      thread ≠ s.helpful config k startNs

section Progress

variable {config : BenchConfig} {k startNs : ℕ} {s t : BenchState} {thread : BenchThread}

theorem advances_of_left (fewer : t.left config < s.left config) :
    Advances config k startNs thread s t :=
  Or.inl (Prod.Lex.toLex_lt_toLex.mpr (Or.inl fewer))

theorem advances_of_stage (same : t.left config = s.left config)
    (nearer : t.stage config k startNs < s.stage config k startNs) :
    Advances config k startNs thread s t :=
  Or.inl (Prod.Lex.toLex_lt_toLex.mpr (Or.inr ⟨same, nearer⟩))

theorem advances_of_helpful (same : t.left config = s.left config)
    (level : t.stage config k startNs = s.stage config k startNs)
    (help : t.helpful config k startNs = s.helpful config k startNs)
    (other : thread ≠ s.helpful config k startNs) : Advances config k startNs thread s t := by
  refine Or.inr ⟨?_, help, other⟩
  unfold rank
  rw [same, level]

theorem stage_of_searching (searching : s.consumer.pc.Searching) :
    s.stage config k startNs = s.search config k startNs := by
  unfold stage
  cases pc : s.consumer.pc with
  | loop | calling | popping => rfl
  | _ => rw [pc] at searching; exact searching.elim

theorem helpful_of_searching (searching : s.consumer.pc.Searching) :
    s.helpful config k startNs = s.searcher config k startNs := by
  unfold helpful
  cases pc : s.consumer.pc with
  | loop | calling | popping => rfl
  | _ => rw [pc] at searching; exact searching.elim

/-- A step beside a consumer that has a packet in hand. -/
theorem advances_beside (busy : s.consumer.pc.inHand ≠ []) (same : t.consumer.pc = s.consumer.pc)
    (level : t.left config = s.left config) (other : thread ≠ .consumer) :
    Advances config k startNs thread s t := by
  have stages : t.stage config k startNs = s.stage config k startNs := by
    unfold stage
    rw [same]
    cases pc : s.consumer.pc with
    | receiving p => rfl
    | matching p receiveNs => rfl
    | _ => rw [pc] at busy; exact absurd rfl busy
  have helps (u : BenchState) (pc : u.consumer.pc = s.consumer.pc) :
      u.helpful config k startNs = .consumer := by
    unfold helpful
    rw [pc]
    cases pc : s.consumer.pc with
    | receiving p => rfl
    | matching p receiveNs => rfl
    | _ => rw [pc] at busy; exact absurd rfl busy
  exact advances_of_helpful level stages ((helps t same).trans (helps s rfl).symm)
    ((helps s rfl).symm ▸ other)

/-! ## The clock -/

/-- While the consumer is after a packet a tick shortens the wait, or leaves all as it is. -/
theorem advances_tick_searching (searching : s.consumer.pc.Searching) (more : ℕ) :
    Advances config k startNs .clock s (s.act config k startNs (.tick more)) := by
  have searchingAfter : (s.act config k startNs (.tick more)).consumer.pc.Searching := searching
  have stuckAfter : (s.act config k startNs (.tick more)).Stuck config k ↔ s.Stuck config k :=
    Iff.rfl
  have shorter : (s.act config k startNs (.tick more)).wait config startNs =
      s.wait config startNs - (more + 1) := Nat.sub_add_eq _ _ _
  by_cases stuck : s.Stuck config k
  · refine advances_of_helpful rfl ?_ ?_ ?_
    · rw [stage_of_searching searching, stage_of_searching searchingAfter, search, search,
        if_pos stuck, if_pos (stuckAfter.mpr stuck)]
      rfl
    · rw [helpful_of_searching searching, helpful_of_searching searchingAfter, searcher, searcher,
        if_pos stuck, if_pos (stuckAfter.mpr stuck)]
    · rw [helpful_of_searching searching, searcher, if_pos stuck]
      exact fun same => nomatch same
  · have stages : s.stage config k startNs = s.producer.pc.toPush (s.wait config startNs)
        s.channel.queue.push.remaining := by
      rw [stage_of_searching searching, search, if_neg stuck]
    have stagesAfter : (s.act config k startNs (.tick more)).stage config k startNs =
        s.producer.pc.toPush (s.wait config startNs - (more + 1))
          s.channel.queue.push.remaining := by
      rw [stage_of_searching searchingAfter, search, if_neg (stuckAfter.not.mpr stuck), shorter]
      rfl
    have helps : s.helpful config k startNs = s.producer.pc.mover (s.wait config startNs) := by
      rw [helpful_of_searching searching, searcher, if_neg stuck]
    have helpsAfter : (s.act config k startNs (.tick more)).helpful config k startNs =
        s.producer.pc.mover (s.wait config startNs - (more + 1)) := by
      rw [helpful_of_searching searchingAfter, searcher, if_neg (stuckAfter.not.mpr stuck),
        shorter]
      rfl
    by_cases due : s.wait config startNs = 0
    · rw [due, Nat.zero_sub] at stagesAfter helpsAfter
      rw [due] at stages helps
      refine advances_of_helpful rfl (stagesAfter.trans stages.symm)
        (helpsAfter.trans helps.symm) ?_
      rw [helps]
      cases s.producer.pc <;> exact fun same => nomatch same
    · cases pc : s.producer.pc with
      | next =>
          rw [pc] at stages stagesAfter
          refine advances_of_stage rfl ?_
          rw [stages, stagesAfter]
          exact Nat.add_lt_add_left (Nat.sub_lt (Nat.pos_of_ne_zero due) (Nat.succ_pos _)) 7
      | waiting =>
          rw [pc] at stages stagesAfter
          refine advances_of_stage rfl ?_
          rw [stages, stagesAfter]
          exact Nat.add_lt_add_left (Nat.sub_lt (Nat.pos_of_ne_zero due) (Nat.succ_pos _)) 6
      | _ =>
          rw [pc] at stages stagesAfter helps helpsAfter
          refine advances_of_helpful rfl (stagesAfter.trans stages.symm)
            (helpsAfter.trans helps.symm) ?_
          rw [helps]
          exact fun same => nomatch same

theorem advances_tick (more : ℕ) :
    Advances config k startNs .clock s (s.act config k startNs (.tick more)) := by
  cases pc : s.consumer.pc with
  | receiving p =>
      refine advances_beside ?_ rfl rfl (fun same => nomatch same)
      rw [pc]
      exact List.cons_ne_nil _ _
  | matching p receiveNs =>
      refine advances_beside ?_ rfl rfl (fun same => nomatch same)
      rw [pc]
      exact List.cons_ne_nil _ _
  | exited =>
      have helps (u : BenchState) (exited : u.consumer.pc = .exited) :
          u.helpful config k startNs = .producer := by
        unfold helpful
        rw [exited]
      have helpsAfter := helps (s.act config k startNs (.tick more)) pc
      refine advances_of_helpful rfl ?_ (helpsAfter.trans (helps s pc).symm) ?_
      · simp only [stage, act, pc]
      · rw [helps s pc]
        exact fun same => nomatch same
  | _ =>
      apply advances_tick_searching
      rw [pc]
      trivial

/-! ## The producer -/

/-- A step of the producer puts the next message into the queue, or leaves what is stored. -/
theorem producer_pushes_or_not (coherent : s.Coherent config k startNs) :
    let t := s.act config k startNs .producer
    (t.producer.sent = s.producer.sent + 1 ∧ s.producer.sent < config.total) ∨
      t.producer.sent = s.producer.sent ∧ t.channel.stored k = s.channel.stored k := by
  have side := coherent.producer.side
  have ok := coherent.producer.ok
  change ((s.producer.step config k startNs s.clock s.channel s.consumer.pc).2.sent =
      s.producer.sent + 1 ∧ _) ∨
    (s.producer.step config k startNs s.clock s.channel s.consumer.pc).2.sent =
      s.producer.sent ∧
    contents k (s.producer.step config k startNs s.clock s.channel s.consumer.pc).1.queue =
      contents k s.channel.queue
  unfold ProducerThread.step
  cases pc : s.producer.pc with
  | calling p =>
      exact Or.inr ⟨rfl, (callPush_invariant coherent.sound.invariant p).2⟩
  | pushing p =>
      rw [pc] at side ok
      have effect := producerAccess_effect (k := k) side
      have step := (producerAccess_refines coherent.sound.invariant).2
      dsimp only
      generalize producerAccess k s.channel.queue = result at *
      obtain ⟨queue, returned⟩ := result
      cases effect with
      | inside same nearer => exact Or.inr ⟨rfl, step⟩
      | full left => exact Or.inr ⟨rfl, (FifoStep.of_pushFull step).1⟩
      | pushed left => exact Or.inl ⟨rfl, ok⟩
  | _ => exact Or.inr ⟨rfl, rfl⟩

/-- On a queue with room each step of the producer brings the next push nearer, unless the
message is not due yet. -/
theorem producer_nearer (coherent : s.Coherent config k startNs) (room : ¬ s.Stuck config k) :
    let t := s.act config k startNs .producer
    t.producer.sent = s.producer.sent + 1 ∨
      t.producer.pc.toPush (t.wait config startNs) t.channel.queue.push.remaining <
        s.producer.pc.toPush (s.wait config startNs) s.channel.queue.push.remaining ∨
      t = s ∧ s.producer.pc.mover (s.wait config startNs) = .clock := by
  have side := coherent.producer.side
  have ok := coherent.producer.ok
  have unsent : s.producer.sent ≠ config.total := fun all => room (Or.inr all)
  have more : s.producer.sent < config.total := Nat.lt_of_le_of_ne coherent.sent_le unsent
  unfold act ProducerThread.step
  cases pc : s.producer.pc with
  | next =>
      refine Or.inr (Or.inl ?_)
      simp only [if_pos more, wait]
      split_ifs
      · exact Nat.add_lt_add_right (by decide) _
      · exact lt_of_lt_of_le (Nat.lt_add_of_pos_right Nat.two_pos) (Nat.le_add_right 7 _)
  | waiting =>
      by_cases early : s.clock < (config.due startNs s.producer.sent).toNat
      · refine Or.inr (Or.inr ⟨?_, ?_⟩)
        · simp only [if_pos early]
          obtain ⟨clock, channel, producer, consumer⟩ := s
          obtain ⟨at', sent, stamps⟩ := producer
          cases pc
          rfl
        · exact if_neg (Nat.sub_ne_zero_of_lt early)
      · refine Or.inr (Or.inl ?_)
        simp only [if_neg early]
        exact Nat.lt_add_right _ (Nat.lt_succ_self 5)
  | stamping =>
      refine Or.inr (Or.inl ?_)
      exact Nat.lt_succ_self 4
  | calling p =>
      rw [pc] at side
      refine Or.inr (Or.inl ?_)
      simp only [ProducerPc.toPush, Channel.record_queue, (callPush_push side p).2]
      decide
  | pushing p =>
      rw [pc] at side
      have effect := producerAccess_effect (k := k) side
      have step := (producerAccess_refines coherent.sound.invariant).2
      dsimp only
      generalize producerAccess k s.channel.queue = result at *
      obtain ⟨queue, returned⟩ := result
      cases effect with
      | inside same nearer => exact Or.inr (Or.inl (Nat.lt_of_succ_le nearer.le))
      | full left => exact absurd (Or.inl (FifoStep.of_pushFull step).2) room
      | pushed left => exact Or.inl rfl
  | joining =>
      rw [pc] at ok
      exact absurd ok unsent
  | done =>
      rw [pc] at ok
      exact absurd ok unsent

/-- What the producer leaves alone. -/
theorem act_producer_frame (coherent : s.Coherent config k startNs) :
    let t := s.act config k startNs .producer
    t.consumer = s.consumer ∧ t.channel.popped = s.channel.popped ∧
      t.channel.queue.pop = s.channel.queue.pop := by
  obtain ⟨_, side, popped⟩ :=
    producerStep_channel config k startNs s.clock s.producer s.consumer.pc coherent.sound
  exact ⟨rfl, popped, side⟩

theorem left_of_push (coherent : s.Coherent config k startNs)
    (pushed : (s.act config k startNs .producer).producer.sent = s.producer.sent + 1)
    (more : s.producer.sent < config.total) :
    (s.act config k startNs .producer).left config < s.left config := by
  obtain ⟨consumer, popped, _⟩ := act_producer_frame coherent
  unfold left
  rw [consumer, popped, pushed]
  omega

theorem left_of_silent (coherent : s.Coherent config k startNs)
    (silent : (s.act config k startNs .producer).producer.sent = s.producer.sent) :
    (s.act config k startNs .producer).left config = s.left config := by
  obtain ⟨consumer, popped, _⟩ := act_producer_frame coherent
  unfold left
  rw [consumer, popped, silent]

/-- While the consumer is after a packet. -/
theorem advances_producer_searching (coherent : s.Coherent config k startNs)
    (searching : s.consumer.pc.Searching) :
    Advances config k startNs .producer s (s.act config k startNs .producer) := by
  obtain ⟨consumer, _, pop⟩ := act_producer_frame coherent
  rcases producer_pushes_or_not coherent with ⟨pushed, more⟩ | ⟨silent, stored⟩
  · exact advances_of_left (left_of_push coherent pushed more)
  · have level := left_of_silent coherent silent
    have searchingAfter : (s.act config k startNs .producer).consumer.pc.Searching :=
      consumer.symm ▸ searching
    have stuckAfter : (s.act config k startNs .producer).Stuck config k ↔ s.Stuck config k := by
      unfold Stuck
      rw [silent, stored]
    by_cases stuck : s.Stuck config k
    · refine advances_of_helpful level ?_ ?_ ?_
      · rw [stage_of_searching searching, stage_of_searching searchingAfter, search, search,
          if_pos stuck, if_pos (stuckAfter.mpr stuck), consumer, pop]
      · rw [helpful_of_searching searching, helpful_of_searching searchingAfter, searcher,
          searcher, if_pos stuck, if_pos (stuckAfter.mpr stuck)]
      · rw [helpful_of_searching searching, searcher, if_pos stuck]
        exact fun same => nomatch same
    · rcases producer_nearer coherent stuck with pushed | nearer | ⟨same, clock⟩
      · exact absurd (silent.symm.trans pushed) (Nat.ne_of_lt (Nat.lt_succ_self _))
      · refine advances_of_stage level ?_
        rw [stage_of_searching searching, stage_of_searching searchingAfter, search, search,
          if_neg stuck, if_neg (stuckAfter.not.mpr stuck)]
        exact nearer
      · rw [same]
        refine advances_of_helpful rfl rfl rfl ?_
        rw [helpful_of_searching searching, searcher, if_neg stuck, clock]
        exact fun same => nomatch same

/-- Once the consumer has exited the producer is joining. -/
theorem advances_producer_exited (coherent : s.Coherent config k startNs)
    (exited : s.consumer.pc = .exited) (going : s.producer.pc ≠ .done) :
    Advances config k startNs .producer s (s.act config k startNs .producer) := by
  have all : s.producer.sent = config.total := by
    have received := (coherent.all_received exited).1
    have split := coherent.sent_eq
    have atMost := coherent.sent_le
    omega
  have ok := coherent.producer.ok
  rcases producer_pushes_or_not coherent with ⟨_, more⟩ | ⟨silent, _⟩
  · exact absurd all more.ne
  · refine advances_of_stage (left_of_silent coherent silent) ?_
    have stages (u : BenchState) (pc : u.consumer.pc = .exited) :
        u.stage config k startNs = u.producer.pc.toDone := by
      unfold stage
      rw [pc]
    rw [stages s exited, stages (s.act config k startNs .producer) exited]
    change (s.producer.step config k startNs s.clock s.channel s.consumer.pc).2.pc.toDone < _
    unfold ProducerThread.step
    cases pc : s.producer.pc with
    | next =>
        rw [if_neg all.not_lt]
        exact Nat.lt_succ_self 1
    | joining =>
        rw [exited]
        exact Nat.lt_succ_self 0
    | done => exact absurd pc going
    | waiting =>
        rw [pc] at ok
        exact absurd all ok.ne
    | stamping =>
        rw [pc] at ok
        exact absurd all ok.1.ne
    | calling p =>
        rw [pc] at ok
        exact absurd all ok.ne
    | pushing p =>
        rw [pc] at ok
        exact absurd all ok.ne

theorem advances_producer (coherent : s.Coherent config k startNs)
    (going : s.producer.pc ≠ .done) :
    Advances config k startNs .producer s (s.act config k startNs .producer) := by
  have beside (busy : s.consumer.pc.inHand ≠ []) :
      Advances config k startNs .producer s (s.act config k startNs .producer) := by
    rcases producer_pushes_or_not coherent with ⟨pushed, more⟩ | ⟨silent, _⟩
    · exact advances_of_left (left_of_push coherent pushed more)
    · exact advances_beside busy rfl (left_of_silent coherent silent) fun same => nomatch same
  cases pc : s.consumer.pc with
  | receiving p => exact beside (pc ▸ List.cons_ne_nil _ _)
  | matching p receiveNs => exact beside (pc ▸ List.cons_ne_nil _ _)
  | exited => exact advances_producer_exited coherent pc going
  | _ => exact advances_producer_searching coherent (pc ▸ trivial)

/-! ## The consumer -/

theorem mover_ne_consumer (wait : ℕ) (pc : ProducerPc) : pc.mover wait ≠ .consumer := by
  cases pc with
  | waiting =>
      change (if wait = 0 then BenchThread.producer else .clock) ≠ .consumer
      split <;> exact fun same => nomatch same
  | _ => exact fun same => nomatch same

/-- A step of the search: it brings the next pop nearer if that is what is waited for. -/
theorem advances_search (searching : s.consumer.pc.Searching)
    (searchingAfter : t.consumer.pc.Searching)
    (frame : t.clock = s.clock ∧ t.producer = s.producer ∧
      t.channel.queue.push = s.channel.queue.push)
    (stored : t.channel.stored k = s.channel.stored k) (level : t.left config = s.left config)
    (nearer : s.Stuck config k →
      t.consumer.pc.toPop t.channel.queue.pop.remaining <
        s.consumer.pc.toPop s.channel.queue.pop.remaining) :
    Advances config k startNs .consumer s t := by
  obtain ⟨clock, producer, push⟩ := frame
  have stuckAfter : t.Stuck config k ↔ s.Stuck config k := by
    unfold Stuck
    rw [producer, stored]
  have waitAfter : t.wait config startNs = s.wait config startNs := by
    unfold wait
    rw [producer, clock]
  by_cases stuck : s.Stuck config k
  · refine advances_of_stage level ?_
    rw [stage_of_searching searching, stage_of_searching searchingAfter, search, search,
      if_pos stuck, if_pos (stuckAfter.mpr stuck)]
    exact nearer stuck
  · refine advances_of_helpful level ?_ ?_ ?_
    · rw [stage_of_searching searching, stage_of_searching searchingAfter, search, search,
        if_neg stuck, if_neg (stuckAfter.not.mpr stuck), producer, push, waitAfter]
    · rw [helpful_of_searching searching, helpful_of_searching searchingAfter, searcher, searcher,
        if_neg stuck, if_neg (stuckAfter.not.mpr stuck), producer, waitAfter]
    · rw [helpful_of_searching searching, searcher, if_neg stuck]
      exact (mover_ne_consumer _ _).symm

/-- A consumer that is stuck in `pop` finds a packet. -/
theorem Good.stored_ne_nil (good : s.Good config k startNs) (pc : s.consumer.pc = .popping)
    (stuck : s.Stuck config k) : s.channel.stored k ≠ [] := by
  intro empty
  rcases stuck with full | all
  · have holds : 2 ^ 1 ≤ capacity k := Nat.pow_le_pow_right Nat.two_pos good.holds
    rw [empty, List.length_nil] at full
    omega
  · have ok := good.coherent.consumer.ok
    have split := good.coherent.sent_eq
    rw [pc] at ok split
    rw [empty, all] at split
    exact absurd split.symm ok.ne

theorem advances_popping (good : s.Good config k startNs) (pc : s.consumer.pc = .popping) :
    Advances config k startNs .consumer s (s.act config k startNs .consumer) := by
  have side := good.coherent.consumer.side
  have ok := good.coherent.consumer.ok
  rw [pc] at side ok
  have effect := consumerAccess_effect good.coherent.sound.invariant side
  have step := (consumerAccess_refines good.coherent.sound.invariant).2
  have push : (consumerAccess k s.channel.queue).1.push = s.channel.queue.push :=
    consumerAccess_push
  have stuckFinds := good.stored_ne_nil pc
  have counted : s.channel.popped.length < config.total := by
    have popped := congrArg List.length good.coherent.consumer.popped
    rw [pc, List.length_append, List.length_map, ← good.coherent.consumer.processed] at popped
    exact popped.trans_lt ok
  unfold act ConsumerThread.step
  rw [pc]
  dsimp only
  generalize consumerAccess k s.channel.queue = result at *
  obtain ⟨queue, returned⟩ := result
  cases effect with
  | inside busy nearer =>
      refine advances_search (pc ▸ trivial) trivial ⟨rfl, rfl, push⟩ step ?_ fun _ => ?_
      · unfold left
        rw [Channel.record_none_popped]
      · rw [pc]
        exact Nat.lt_of_succ_le nearer.le
  | empty nothing idle =>
      have same := FifoStep.of_popEmpty step
      refine advances_search (pc ▸ trivial) trivial ⟨rfl, rfl, push⟩ same ?_ fun stuck => ?_
      · unfold left
        rw [Channel.record_popEmpty_popped]
      · exact absurd nothing (stuckFinds stuck)
  | popped item last idle =>
      apply advances_of_left
      unfold left
      rw [Channel.record_popped_popped, List.length_append, List.length_singleton]
      dsimp only
      omega

/-- The consumer leaves its loop, and the producer will join it. -/
theorem advances_loop_done (coherent : s.Coherent config k startNs)
    (pc : s.consumer.pc = .loop) (done : config.total ≤ s.consumer.processed) :
    Advances config k startNs .consumer s (s.act config k startNs .consumer) := by
  have all : s.Stuck config k := by
    have split := coherent.sent_eq
    have atMost := coherent.sent_le
    exact Or.inr (by omega)
  have now : s.stage config k startNs = 5 := by
    rw [stage_of_searching (pc ▸ trivial), search, if_pos all, pc]
    rfl
  have short : s.producer.pc.toDone < 5 := by
    cases s.producer.pc <;> simp [ProducerPc.toDone]
  have acted : s.act config k startNs .consumer =
      { s with consumer := { s.consumer with pc := .exited } } := by
    unfold act ConsumerThread.step
    rw [pc]
    simp only [if_neg (Nat.not_lt.mpr done)]
  rw [acted]
  refine advances_of_stage rfl ?_
  rw [now]
  exact short

theorem advances_consumer (good : s.Good config k startNs) :
    Advances config k startNs .consumer s (s.act config k startNs .consumer) := by
  have side := good.coherent.consumer.side
  have ok := good.coherent.consumer.ok
  cases pc : s.consumer.pc with
  | loop =>
      by_cases more : s.consumer.processed < config.total
      · unfold act ConsumerThread.step
        rw [pc]
        simp only [if_pos more]
        refine advances_search (pc ▸ trivial) trivial ⟨rfl, rfl, rfl⟩ rfl rfl fun _ => ?_
        rw [pc]
        exact Nat.lt_succ_self 4
      · exact advances_loop_done good.coherent pc (Nat.not_lt.mp more)
  | calling =>
      rw [pc] at side
      unfold act ConsumerThread.step
      rw [pc]
      refine advances_search (pc ▸ trivial) trivial ⟨rfl, rfl, callPop_push⟩
        (callPop_invariant good.coherent.sound.invariant).2 ?_ fun _ => ?_
      · unfold left
        rw [Channel.record_none_popped]
      · rw [pc, Channel.record_queue, callPop_pop side]
        exact Nat.lt_succ_self 3
  | popping => exact advances_popping good pc
  | receiving p =>
      unfold act ConsumerThread.step
      rw [pc]
      refine advances_of_stage rfl ?_
      simp only [stage, pc]
      exact Nat.lt_succ_self 1
  | matching p receiveNs =>
      rw [pc] at ok
      have counted : s.consumer.processed < config.total := ok.1
      unfold act ConsumerThread.step
      rw [pc]
      apply advances_of_left
      unfold left
      dsimp only
      omega
  | exited =>
      have same : s.act config k startNs .consumer = s := by
        unfold act ConsumerThread.step
        rw [pc]
      rw [same]
      refine advances_of_helpful rfl rfl rfl ?_
      unfold helpful
      rw [pc]
      exact fun same => nomatch same

end Progress

end BenchState

/-! ## Every fair schedule -/

section Fair

variable {config : BenchConfig} {k startNs : ℕ}

theorem benchmark_ranked :
    (benchmark config k startNs).Ranked (BenchState.Good config k startNs)
      (fun s => s.producer.pc = .done) BenchAction.thread
      (BenchState.rank config k startNs) (BenchState.helpful config k startNs) where
  kept _ action good := ⟨good.coherent.act action, good.holds⟩
  progress s action good going := by
    cases action with
    | tick more => exact BenchState.advances_tick more
    | producer => exact BenchState.advances_producer good.coherent going
    | consumer => exact BenchState.advances_consumer good

end Fair

/-- A producer that is done has joined the consumer. -/
def BenchState.Joined (s : BenchState) : Prop := s.producer.pc = .done → s.consumer.pc = .exited

theorem BenchState.Joined.act {config : BenchConfig} {k startNs : ℕ} {s : BenchState}
    (joined : s.Joined) (action : BenchAction) : (s.act config k startNs action).Joined := by
  intro done
  cases action with
  | tick more => exact joined done
  | consumer =>
      have exited := joined done
      change (s.consumer.step config k s.clock s.channel).2.pc = .exited
      unfold ConsumerThread.step
      rw [exited]
      exact exited
  | producer =>
      change s.consumer.pc = .exited
      change (s.producer.step config k startNs s.clock s.channel s.consumer.pc).2.pc = .done
        at done
      unfold ProducerThread.step at done
      cases pc : s.producer.pc with
      | joining =>
          rw [pc] at done
          cases consumer : s.consumer.pc with
          | exited => rfl
          | _ =>
              rw [consumer] at done
              cases done
      | done => exact joined pc
      | next =>
          rw [pc] at done
          dsimp only at done
          split_ifs at done
      | waiting =>
          rw [pc] at done
          dsimp only at done
          split_ifs at done
      | pushing p =>
          rw [pc] at done
          dsimp only at done
          split at done <;> cases done
      | stamping =>
          rw [pc] at done
          cases done
      | calling p =>
          rw [pc] at done
          cases done

/-- The book counts the packets, as far as words go. -/
theorem bookAfter_updates {trades : List TradePacket} {count : UInt64}
    (all : trades.length = count.toNat) : (bookAfter trades).updates = count := by
  apply UInt64.toNat_inj.mp
  refine (bookAfter_shows trades).count.trans ?_
  rw [all]
  exact Nat.mod_eq_of_lt count.toNat_lt

/-- The benchmark ends under every schedule in which the clock and both threads take a step
again and again, in whatever order, and then the book has seen every message once. -/
theorem benchmark_ends (config : BenchConfig) (k startNs : ℕ) (buffer : ℕ → TradePacket)
    (holds : 1 ≤ k) (schedule : ℕ → BenchAction) (fair : Fair BenchAction.thread schedule) :
    ∃ n, let s := (benchmark config k startNs).stateAt (.fresh startNs buffer) schedule n
      s.producer.pc = .done ∧ s.consumer.pc = .exited ∧
      s.consumer.received.map Prod.fst = stampedPackets s.producer.stamps ∧
      s.producer.stamps.length = config.total ∧
      s.consumer.book.updates = config.totalMessages ∧
      s.consumer.latencies.length = min config.latencyRoom config.total := by
  have start : BenchState.Good config k startNs (.fresh startNs buffer) :=
    ⟨BenchState.coherent_fresh buffer, holds⟩
  obtain ⟨n, done⟩ := benchmark_ranked.reaches start fair
  have coherent : ((benchmark config k startNs).stateAt (.fresh startNs buffer) schedule
      n).Coherent config k startNs := (benchmark_ranked.good_stateAt start n).coherent
  have joined : ((benchmark config k startNs).stateAt (.fresh startNs buffer) schedule
      n).Joined := by
    rw [Mealy.stateAt_eq_after]
    exact (benchmark config k startNs).after_invariant BenchState.Joined
      (fun done => by cases done) (fun _ action joined => joined.act action) _
  refine ⟨n, ?_⟩
  generalize (benchmark config k startNs).stateAt (.fresh startNs buffer) schedule n = s at *
  intro s'
  have exited := joined done
  obtain ⟨processed, packets⟩ := coherent.all_received exited
  have count : s.consumer.received.length = config.total :=
    coherent.consumer.processed.symm.trans processed
  have stamps : s.producer.stamps.length = config.total := by
    rw [← count, ← List.length_map (f := Prod.fst), packets, stampedPackets, List.length_mapIdx]
  refine ⟨done, exited, packets, stamps, ?_, ?_⟩
  · change s.consumer.book.updates = _
    rw [coherent.consumer.book]
    apply bookAfter_updates
    rw [List.length_map, count]
    rfl
  · change s.consumer.latencies.length = _
    rw [coherent.consumer.latencies, List.length_take, List.length_map, count]

/-- The clock, the producer and the consumer in turn. -/
def roundRobin (n : ℕ) : BenchAction :=
  match n % 3 with
  | 0 => .tick 0
  | 1 => .producer
  | _ => .consumer

theorem roundRobin_fair : Fair BenchAction.thread roundRobin := by
  intro t n
  have turn (r : ℕ) (small : r < 3) : (3 * n + r) % 3 = r := by omega
  cases t with
  | clock =>
      refine ⟨3 * n + 0, by omega, ?_⟩
      rw [roundRobin, turn 0 (by decide)]
      rfl
  | producer =>
      refine ⟨3 * n + 1, by omega, ?_⟩
      rw [roundRobin, turn 1 (by decide)]
      rfl
  | consumer =>
      refine ⟨3 * n + 2, by omega, ?_⟩
      rw [roundRobin, turn 2 (by decide)]
      rfl

/-- The benchmark without arguments, its threads in turn. -/
theorem roundRobin_ends :
    ∃ n, ((benchmark ⟨10000000, 0, 5000000⟩ 22 0).stateAt (.fresh 0 fun _ => {}) roundRobin
      n).consumer.book.updates = 10000000 := by
  obtain ⟨n, _, _, _, _, updates, _⟩ := benchmark_ends ⟨10000000, 0, 5000000⟩ 22 0 (fun _ => {})
    (by decide) roundRobin roundRobin_fair
  exact ⟨n, updates⟩

end PrismPipeline.Program
