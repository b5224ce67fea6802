import PrismPipeline.Program.Benchmark

/-!
# What the benchmark measures

In every interleaving the consumer receives the packets in the order in which they were
stamped, each once, and no packet before it was stamped: a latency is the time from the
stamp to the receipt and never wraps.  The book is that of the packets received.
-/

namespace PrismPipeline.Program

open PrismPipeline.Machine PrismPipeline.Queue PrismPipeline.Live

/-- The packets with these stamps, in the order of sending. -/
def stampedPackets (stamps : List ℕ) : List TradePacket := stamps.mapIdx stampedPacket

theorem stampedPackets_snoc (stamps : List ℕ) (now : ℕ) :
    stampedPackets (stamps ++ [now]) = stampedPackets stamps ++ [stampedPacket stamps.length now] :=
  List.mapIdx_concat

theorem mem_stampedPackets {stamps : List ℕ} {p : TradePacket}
    (member : p ∈ stampedPackets stamps) :
    ∃ i, ∃ now ∈ stamps, p = stampedPacket i now := by
  obtain ⟨i, below, rfl⟩ := List.mem_mapIdx.mp member
  exact ⟨i, stamps[i], List.getElem_mem below, rfl⟩

/-- A packet that is received after it was stamped has a latency that does not wrap. -/
theorem latencyOf_stamped {i sentAt receivedAt : ℕ} (order : sentAt ≤ receivedAt) :
    latencyOf (stampedPacket i sentAt) receivedAt = .ofNat (receivedAt - sentAt) :=
  (UInt64.ofNat_sub order).symm

/-! ## The producer side -/

namespace ProducerPc

/-- The packet that is stamped and not yet in the queue. -/
def inWork : ProducerPc → List TradePacket
  | .calling p | .pushing p => [p]
  | .next | .waiting | .stamping | .joining | .done => []

def PushSide (pc : ProducerPc) (push : PushState TradePacket) : Prop :=
  match pc with
  | .pushing p => push.item? = some p
  | .next | .waiting | .stamping | .calling _ | .joining | .done => push = .idle

/-- How the messages sent compare with the total, and that the time has come. -/
def Ok (config : BenchConfig) (startNs clock sent : ℕ) : ProducerPc → Prop
  | .next => sent ≤ config.total
  | .waiting | .calling _ | .pushing _ => sent < config.total
  | .stamping =>
      sent < config.total ∧ (0 < config.intervalNs → (config.due startNs sent).toNat ≤ clock)
  | .joining | .done => sent = config.total

end ProducerPc

/-- The stamps never fall, none lies in the future, and none is before its due time. -/
structure StampsOk (config : BenchConfig) (startNs clock : ℕ) (stamps : List ℕ) : Prop where
  sorted : stamps.Pairwise (· ≤ ·)
  past : ∀ now ∈ stamps, now ≤ clock
  paced : 0 < config.intervalNs →
    ∀ i (below : i < stamps.length), (config.due startNs i).toNat ≤ stamps[i]

structure ProducerSide (config : BenchConfig) (startNs clock : ℕ)
    (channel : Channel TradePacket) (t : ProducerThread) : Prop where
  side : t.pc.PushSide channel.queue.push
  ok : t.pc.Ok config startNs clock t.sent
  sent : channel.pushed.length = t.sent
  packets : channel.pushed ++ t.pc.inWork = stampedPackets t.stamps
  stamps : StampsOk config startNs clock t.stamps

section Producer

variable {config : BenchConfig} {k startNs clock : ℕ} {channel : Channel TradePacket}
  {t : ProducerThread}

theorem StampsOk.later {stamps : List ℕ} (ok : StampsOk config startNs clock stamps) (more : ℕ) :
    StampsOk config startNs (clock + more) stamps where
  sorted := ok.sorted
  past now member := (ok.past now member).trans (Nat.le_add_right clock more)
  paced := ok.paced

/-- A stamp of the present. -/
theorem StampsOk.stamp {stamps : List ℕ} (ok : StampsOk config startNs clock stamps)
    (due : 0 < config.intervalNs → (config.due startNs stamps.length).toNat ≤ clock) :
    StampsOk config startNs clock (stamps ++ [clock]) where
  sorted := by
    refine List.pairwise_append.mpr ⟨ok.sorted, List.pairwise_singleton _ _, ?_⟩
    intro now member newest same
    rw [List.mem_singleton.mp same]
    exact ok.past now member
  past now member := by
    rcases List.mem_append.mp member with earlier | newest
    · exact ok.past now earlier
    · exact (List.mem_singleton.mp newest).le
  paced pacing i below := by
    rcases Nat.lt_or_ge i stamps.length with earlier | newest
    · rw [List.getElem_append_left earlier]
      exact ok.paced pacing i earlier
    · rw [List.length_append, List.length_singleton] at below
      obtain rfl : i = stamps.length := by omega
      rw [List.getElem_concat_length rfl]
      exact due pacing

theorem ProducerSide.later (producer : ProducerSide config startNs clock channel t) (more : ℕ) :
    ProducerSide config startNs (clock + more) channel t where
  side := producer.side
  ok := by
    have ok := producer.ok
    unfold ProducerPc.Ok at ok ⊢
    cases pc : t.pc with
    | stamping =>
        rw [pc] at ok
        exact ⟨ok.1, fun pacing => (ok.2 pacing).trans (Nat.le_add_right clock more)⟩
    | _ =>
        rw [pc] at ok
        exact ok
  sent := producer.sent
  packets := producer.packets
  stamps := producer.stamps.later more

theorem ProducerSide.congr (producer : ProducerSide config startNs clock channel t)
    {other : Channel TradePacket} (side : other.queue.push = channel.queue.push)
    (pushed : other.pushed = channel.pushed) :
    ProducerSide config startNs clock other t where
  side := side ▸ producer.side
  ok := producer.ok
  sent := pushed ▸ producer.sent
  packets := pushed ▸ producer.packets
  stamps := producer.stamps

theorem ProducerSide.step (producer : ProducerSide config startNs clock channel t)
    (consumer : ConsumerPc) :
    ProducerSide config startNs clock (t.step config k startNs clock channel consumer).1
      (t.step config k startNs clock channel consumer).2 := by
  have ⟨side, ok, sent, packets, stamps⟩ := producer
  unfold ProducerThread.step
  cases pc : t.pc with
  | next =>
      rw [pc] at side ok packets
      by_cases more : t.sent < config.total
      · by_cases pacing : 0 < config.intervalNs
        · simp only [if_pos more, if_pos pacing]
          exact ⟨side, more, sent, packets, stamps⟩
        · simp only [if_pos more, if_neg pacing]
          exact ⟨side, ⟨more, fun positive => absurd positive pacing⟩, sent, packets, stamps⟩
      · simp only [if_neg more]
        exact ⟨side, Nat.le_antisymm ok (Nat.not_lt.mp more), sent, packets, stamps⟩
  | waiting =>
      rw [pc] at side ok packets
      by_cases early : clock < (config.due startNs t.sent).toNat
      · simp only [if_pos early]
        exact ⟨side, ok, sent, packets, stamps⟩
      · simp only [if_neg early]
        exact ⟨side, ⟨ok, fun _ => Nat.not_lt.mp early⟩, sent, packets, stamps⟩
  | stamping =>
      rw [pc] at side ok packets
      have all : channel.pushed = stampedPackets t.stamps :=
        (List.append_nil _).symm.trans packets
      have count : t.stamps.length = t.sent := by
        rw [← sent, all, stampedPackets, List.length_mapIdx]
      refine ⟨side, ok.1, sent, ?_, stamps.stamp (count ▸ ok.2)⟩
      dsimp only
      rw [stampedPackets_snoc, all, count]
      rfl
  | calling p =>
      rw [pc] at side ok packets
      refine ⟨(callPush_push side p).1, ok, ?_, ?_, stamps⟩
      · rw [Channel.record_none_pushed]
        exact sent
      · rw [Channel.record_none_pushed]
        exact packets
  | pushing p =>
      rw [pc] at side ok packets
      have effect := producerAccess_effect (k := k) side
      dsimp only
      generalize producerAccess k channel.queue = result at *
      obtain ⟨queue, returned⟩ := result
      cases effect with
      | inside same nearer =>
          refine ⟨same, ok, ?_, ?_, stamps⟩ <;> rw [Channel.record_none_pushed]
          · exact sent
          · exact packets
      | full left =>
          refine ⟨left, ok, ?_, ?_, stamps⟩ <;> rw [Channel.record_pushFull_pushed]
          · exact sent
          · exact packets
      | pushed left =>
          refine ⟨left, ok, ?_, ?_, stamps⟩ <;> rw [Channel.record_pushed_pushed]
          · rw [List.length_append, sent]
            rfl
          · exact (List.append_nil _).trans packets
  | joining =>
      rw [pc] at side ok packets
      cases consumer <;> exact ⟨side, ok, sent, packets, stamps⟩
  | done => exact producer

end Producer

/-! ## The consumer side -/

/-- A receipt of a packet that was stamped before. -/
def InTime (clock : ℕ) (receipt : TradePacket × ℕ) : Prop :=
  ∃ i stampedAt, receipt.1 = stampedPacket i stampedAt ∧ stampedAt ≤ receipt.2 ∧
    receipt.2 ≤ clock

namespace ConsumerPc

/-- The packet that is popped and not yet counted. -/
def inHand : ConsumerPc → List TradePacket
  | .receiving p | .matching p _ => [p]
  | .loop | .calling | .popping | .exited => []

def PopSide (pc : ConsumerPc) (pop : PopState TradePacket) : Prop :=
  match pc with
  | .popping => 0 < pop.remaining
  | .loop | .calling | .receiving _ | .matching _ _ | .exited => pop = .idle

/-- How the messages counted compare with the total, and that a receipt is in time. -/
def Ok (config : BenchConfig) (clock processed : ℕ) : ConsumerPc → Prop
  | .loop => True
  | .calling | .popping | .receiving _ => processed < config.total
  | .matching p receiveNs => processed < config.total ∧ InTime clock (p, receiveNs)
  | .exited => config.total ≤ processed

end ConsumerPc

structure ConsumerSide (config : BenchConfig) (clock : ℕ) (channel : Channel TradePacket)
    (t : ConsumerThread) : Prop where
  side : t.pc.PopSide channel.queue.pop
  ok : t.pc.Ok config clock t.processed
  popped : channel.popped = t.received.map Prod.fst ++ t.pc.inHand
  processed : t.processed = t.received.length
  book : t.book = bookAfter (t.received.map Prod.fst)
  latencies : t.latencies =
    (t.received.map fun receipt => latencyOf receipt.1 receipt.2).take config.latencyRoom
  inTime : ∀ receipt ∈ t.received, InTime clock receipt

section Consumer

variable {config : BenchConfig} {k clock : ℕ} {channel : Channel TradePacket}
  {t : ConsumerThread}

theorem InTime.later {receipt : TradePacket × ℕ} (inTime : InTime clock receipt) (more : ℕ) :
    InTime (clock + more) receipt := by
  obtain ⟨i, stampedAt, packet, order, past⟩ := inTime
  exact ⟨i, stampedAt, packet, order, past.trans (Nat.le_add_right clock more)⟩

theorem ConsumerSide.later (consumer : ConsumerSide config clock channel t) (more : ℕ) :
    ConsumerSide config (clock + more) channel t := by
  obtain ⟨side, ok, popped, processed, book, latencies, inTime⟩ := consumer
  refine ⟨side, ?_, popped, processed, book, latencies, fun receipt member =>
    (inTime receipt member).later more⟩
  unfold ConsumerPc.Ok at ok ⊢
  cases pc : t.pc with
  | matching p receiveNs =>
      rw [pc] at ok
      exact ⟨ok.1, ok.2.later more⟩
  | _ =>
      rw [pc] at ok
      exact ok

theorem ConsumerSide.congr (consumer : ConsumerSide config clock channel t)
    {other : Channel TradePacket} (side : other.queue.pop = channel.queue.pop)
    (popped : other.popped = channel.popped) : ConsumerSide config clock other t :=
  { consumer with
    side := side ▸ consumer.side
    popped := popped.trans consumer.popped }

/-- One more latency, while there is room. -/
theorem take_snoc (room : ℕ) (latencies : List UInt64) (latency : UInt64) :
    (latencies ++ [latency]).take room =
      if (latencies.take room).length < room then latencies.take room ++ [latency]
      else latencies.take room := by
  rw [List.length_take]
  rcases Nat.lt_or_ge latencies.length room with free | full
  · rw [if_pos (lt_of_le_of_lt (Nat.min_le_right _ _) free), List.take_of_length_le free.le,
      List.take_of_length_le]
    rw [List.length_append, List.length_singleton]
    exact free
  · rw [if_neg (by omega), List.take_append_of_le_length full]

theorem ConsumerSide.step (consumer : ConsumerSide config clock channel t)
    (sound : channel.Sound k)
    (stamped : ∀ p ∈ channel.popped, ∃ i stampedAt, p = stampedPacket i stampedAt ∧
      stampedAt ≤ clock) :
    ConsumerSide config clock (t.step config k clock channel).1
      (t.step config k clock channel).2 := by
  have ⟨side, ok, popped, processed, book, latencies, inTime⟩ := consumer
  unfold ConsumerThread.step
  cases pc : t.pc with
  | loop =>
      rw [pc] at side ok popped
      by_cases more : t.processed < config.total
      · simp only [if_pos more]
        exact ⟨side, more, popped, processed, book, latencies, inTime⟩
      · simp only [if_neg more]
        exact ⟨side, Nat.not_lt.mp more, popped, processed, book, latencies, inTime⟩
  | calling =>
      rw [pc] at side ok popped
      refine ⟨?_, ok, ?_, processed, book, latencies, inTime⟩
      · change 0 < (callPop channel.queue).pop.remaining
        rw [callPop_pop side]
        decide
      · rw [Channel.record_none_popped]
        exact popped
  | popping =>
      rw [pc] at side ok popped
      have effect := consumerAccess_effect sound.invariant side
      dsimp only
      generalize consumerAccess k channel.queue = result at *
      obtain ⟨queue, returned⟩ := result
      cases effect with
      | inside busy nearer =>
          refine ⟨busy, ok, ?_, processed, book, latencies, inTime⟩
          rw [Channel.record_none_popped]
          exact popped
      | empty nothing left =>
          refine ⟨left, trivial, ?_, processed, book, latencies, inTime⟩
          rw [Channel.record_popEmpty_popped]
          exact popped
      | popped item last left =>
          refine ⟨left, ok, ?_, processed, book, latencies, inTime⟩
          rw [Channel.record_popped_popped, popped]
          exact congrArg (· ++ [item]) (List.append_nil _)
  | receiving p =>
      rw [pc] at side ok popped
      obtain ⟨i, stampedAt, packet, past⟩ := stamped p (by
        rw [popped]
        exact List.mem_append_right _ List.mem_cons_self)
      exact ⟨side, ⟨ok, i, stampedAt, packet, past, le_refl _⟩, popped, processed, book,
        latencies, inTime⟩
  | matching p receiveNs =>
      rw [pc] at side ok popped
      refine ⟨side, trivial, ?_, ?_, ?_, ?_, ?_⟩
      · dsimp only
        rw [popped, List.map_append]
        exact (List.append_nil _).symm
      · dsimp only
        rw [processed, List.length_append, List.length_singleton]
      · dsimp only
        rw [book, List.map_append, List.map_singleton, bookAfter, bookAfter, Mealy.after_snoc]
        rfl
      · dsimp only
        rw [List.map_append, List.map_singleton, take_snoc, ← latencies]
      · intro receipt member
        rcases List.mem_append.mp member with earlier | newest
        · exact inTime receipt earlier
        · rw [List.mem_singleton.mp newest]
          exact ok.2
  | exited => exact consumer

end Consumer

/-! ## Every interleaving -/

section Channel

variable (config : BenchConfig) (k startNs clock : ℕ) {channel : Channel TradePacket}

theorem producerStep_channel (t : ProducerThread) (consumer : ConsumerPc)
    (sound : channel.Sound k) :
    let after := (t.step config k startNs clock channel consumer).1
    after.Sound k ∧ after.queue.pop = channel.queue.pop ∧ after.popped = channel.popped := by
  unfold ProducerThread.step
  cases t.pc with
  | calling p =>
      exact ⟨sound.access (.callPush _), callPush_pop _, channel.record_none_popped _⟩
  | pushing p =>
      exact ⟨sound.access .producer, producerAccess_pop, channel.record_producer_popped⟩
  | _ => exact ⟨sound, rfl, rfl⟩

theorem consumerStep_channel (t : ConsumerThread) (sound : channel.Sound k) :
    let after := (t.step config k clock channel).1
    after.Sound k ∧ after.queue.push = channel.queue.push ∧ after.pushed = channel.pushed := by
  unfold ConsumerThread.step
  cases t.pc with
  | calling => exact ⟨sound.access .callPop, callPop_push, channel.record_none_pushed _⟩
  | popping =>
      exact ⟨sound.access .consumer, consumerAccess_push, channel.record_consumer_pushed⟩
  | _ => exact ⟨sound, rfl, rfl⟩

end Channel

/-- What holds in every state of the benchmark. -/
structure BenchState.Coherent (config : BenchConfig) (k startNs : ℕ) (s : BenchState) : Prop where
  sound : s.channel.Sound k
  producer : ProducerSide config startNs s.clock s.channel s.producer
  consumer : ConsumerSide config s.clock s.channel s.consumer

namespace BenchState

section Coherent

variable {config : BenchConfig} {k startNs : ℕ} {s : BenchState}

theorem coherent_fresh (buffer : ℕ → TradePacket) :
    (fresh startNs buffer).Coherent config k startNs where
  sound := Channel.fresh_sound k buffer
  producer :=
    { side := rfl
      ok := Nat.zero_le _
      sent := rfl
      packets := rfl
      stamps :=
        { sorted := .nil
          past := fun _ member => nomatch member
          paced := fun _ _ below => absurd below (Nat.not_lt_zero _) } }
  consumer :=
    { side := rfl
      ok := trivial
      popped := rfl
      processed := rfl
      book := rfl
      latencies := List.take_nil.symm
      inTime := fun _ member => nomatch member }

/-- The packets on their way, from the oldest to the newest. -/
theorem Coherent.onTheWay (coherent : s.Coherent config k startNs) :
    s.consumer.received.map Prod.fst ++ s.consumer.pc.inHand ++ s.channel.stored k ++
      s.producer.pc.inWork = stampedPackets s.producer.stamps := by
  rw [← coherent.producer.packets, coherent.sound.conserved, coherent.consumer.popped]

theorem Coherent.popped_stamped (coherent : s.Coherent config k startNs) :
    ∀ p ∈ s.channel.popped, ∃ i stampedAt, p = stampedPacket i stampedAt ∧
      stampedAt ≤ s.clock := by
  intro p member
  have stamped : p ∈ stampedPackets s.producer.stamps := by
    rw [← coherent.producer.packets, coherent.sound.conserved]
    exact List.mem_append_left _ (List.mem_append_left _ member)
  obtain ⟨i, stampedAt, inside, packet⟩ := mem_stampedPackets stamped
  exact ⟨i, stampedAt, packet, coherent.producer.stamps.past stampedAt inside⟩

theorem Coherent.act (coherent : s.Coherent config k startNs) (action : BenchAction) :
    (s.act config k startNs action).Coherent config k startNs := by
  have ⟨sound, producer, consumer⟩ := coherent
  cases action with
  | tick more => exact ⟨sound, producer.later _, consumer.later _⟩
  | producer =>
      obtain ⟨soundAfter, side, popped⟩ :=
        producerStep_channel config k startNs s.clock s.producer s.consumer.pc sound
      exact ⟨soundAfter, producer.step s.consumer.pc, consumer.congr side popped⟩
  | consumer =>
      obtain ⟨soundAfter, side, pushed⟩ :=
        consumerStep_channel config k s.clock s.consumer sound
      exact ⟨soundAfter, producer.congr side pushed,
        consumer.step sound coherent.popped_stamped⟩

theorem Coherent.sent_le (coherent : s.Coherent config k startNs) :
    s.producer.sent ≤ config.total := by
  have ok := coherent.producer.ok
  unfold ProducerPc.Ok at ok
  cases pc : s.producer.pc <;> rw [pc] at ok
  case next => exact ok
  case stamping => exact ok.1.le
  case joining => exact ok.le
  case done => exact ok.le
  all_goals exact ok.le

/-- Messages counted, in hand, stored, and sent. -/
theorem Coherent.sent_eq (coherent : s.Coherent config k startNs) :
    s.producer.sent = s.consumer.processed + s.consumer.pc.inHand.length +
      (s.channel.stored k).length := by
  rw [← coherent.producer.sent, coherent.sound.conserved, coherent.consumer.popped,
    coherent.consumer.processed]
  simp only [List.length_append, List.length_map]

/-- A consumer that has exited has received every message. -/
theorem Coherent.all_received (coherent : s.Coherent config k startNs)
    (exited : s.consumer.pc = .exited) :
    s.consumer.processed = config.total ∧
      s.consumer.received.map Prod.fst = stampedPackets s.producer.stamps := by
  have ok := coherent.consumer.ok
  rw [exited] at ok
  have enough : config.total ≤ s.consumer.processed := ok
  have sent := coherent.sent_le
  have split := coherent.sent_eq
  have stored : s.channel.stored k = [] := List.length_eq_zero_iff.mp (by omega)
  have hand : s.consumer.pc.inHand = [] := by rw [exited]; rfl
  have full : s.producer.sent = config.total := by omega
  have work : s.producer.pc.inWork = [] := by
    have producer := coherent.producer.ok
    unfold ProducerPc.Ok at producer
    cases pc : s.producer.pc with
    | calling p =>
        rw [pc] at producer
        exact absurd full producer.ne
    | pushing p =>
        rw [pc] at producer
        exact absurd full producer.ne
    | _ => rfl
  have way := coherent.onTheWay
  rw [hand, stored, work, List.append_nil, List.append_nil, List.append_nil] at way
  exact ⟨by omega, way⟩

end Coherent

end BenchState

/-- The benchmark after a schedule. -/
def benchAfter (config : BenchConfig) (k startNs : ℕ) (buffer : ℕ → TradePacket)
    (schedule : List BenchAction) : BenchState :=
  (benchmark config k startNs).after (.fresh startNs buffer) schedule

theorem benchAfter_coherent (config : BenchConfig) (k startNs : ℕ) (buffer : ℕ → TradePacket)
    (schedule : List BenchAction) :
    (benchAfter config k startNs buffer schedule).Coherent config k startNs :=
  (benchmark config k startNs).after_invariant _ (BenchState.coherent_fresh buffer)
    (fun _ action coherent => coherent.act action) schedule

/-- What the benchmark measures, in every interleaving.  The packets received, the one in the
consumer's hand, the ones stored and the one in the producer's work are the stamped packets
in the order of their numbers; with a target rate no packet is stamped before it is due; the
book is that of the packets received; the latencies kept are those of the first packets
received, each the time from the stamp to the receipt, without a wrap; and a consumer that
has exited has received all messages. -/
theorem benchmark_measures (config : BenchConfig) (k startNs : ℕ) (buffer : ℕ → TradePacket)
    (schedule : List BenchAction) :
    let s := benchAfter config k startNs buffer schedule
    s.consumer.received.map Prod.fst ++ s.consumer.pc.inHand ++ s.channel.stored k ++
      s.producer.pc.inWork = stampedPackets s.producer.stamps ∧
    StampsOk config startNs s.clock s.producer.stamps ∧
    s.consumer.book = bookAfter (s.consumer.received.map Prod.fst) ∧
    s.consumer.latencies = (s.consumer.received.map fun receipt =>
      latencyOf receipt.1 receipt.2).take config.latencyRoom ∧
    (∀ receipt ∈ s.consumer.received, ∃ i stampedAt, receipt.1 = stampedPacket i stampedAt ∧
      stampedAt ≤ receipt.2 ∧
      latencyOf receipt.1 receipt.2 = .ofNat (receipt.2 - stampedAt)) ∧
    (s.consumer.pc = .exited →
      s.consumer.processed = config.total ∧ s.consumer.received.length = config.total ∧
      s.consumer.received.map Prod.fst = stampedPackets s.producer.stamps) := by
  intro s
  have coherent : s.Coherent config k startNs :=
    benchAfter_coherent config k startNs buffer schedule
  refine ⟨coherent.onTheWay, coherent.producer.stamps, coherent.consumer.book,
    coherent.consumer.latencies, ?_, ?_⟩
  · intro receipt member
    obtain ⟨i, stampedAt, packet, order, _⟩ := coherent.consumer.inTime receipt member
    refine ⟨i, stampedAt, packet, order, ?_⟩
    rw [packet]
    exact latencyOf_stamped order
  · intro exited
    obtain ⟨processed, packets⟩ := coherent.all_received exited
    exact ⟨processed, coherent.consumer.processed ▸ processed, packets⟩

end PrismPipeline.Program
