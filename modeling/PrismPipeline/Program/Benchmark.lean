import PrismPipeline.Live.OrderBook
import PrismPipeline.Queue.Channel

/-!
# The benchmark

A producer stamps packets and pushes each until the queue takes it; a consumer pops them,
shows them to the order book and keeps the latencies.  Both read one clock, which only goes
forward.  The clock is a natural number of nanoseconds; a time that is stored is a word.

`stamps` and `received` are traces and not variables of the source.
-/

namespace PrismPipeline.Program

open PrismPipeline.Machine PrismPipeline.Queue PrismPipeline.Live

/-- The arguments, and the number of latencies the vector has room for. -/
structure BenchConfig where
  totalMessages : UInt64
  targetRatePerSec : UInt64
  latencyRoom : ℕ

def BenchConfig.total (config : BenchConfig) : ℕ := config.totalMessages.toNat

def BenchConfig.intervalNs (config : BenchConfig) : UInt64 :=
  if config.targetRatePerSec ≠ 0 then 1000000000 / config.targetRatePerSec else 0

/-- The time before which message `i` is not sent. -/
def BenchConfig.due (config : BenchConfig) (startNs i : ℕ) : UInt64 :=
  .ofNat startNs + .ofNat i * config.intervalNs

/-- Message `i` as it is sent at a time. -/
def stampedPacket (i now : ℕ) : TradePacket :=
  { benchmarkPacket i with ingestTsNs := .ofNat now, exchangeTsNs := .ofNat now }

/-! ## The producer -/

/-- Where the producer is. -/
inductive ProducerPc where
  /-- at the condition of the loop -/
  | next
  /-- before the clock is compared with the due time -/
  | waiting
  /-- before the packet is stamped -/
  | stamping
  /-- before an attempt to push -/
  | calling (p : TradePacket)
  /-- in `push` -/
  | pushing (p : TradePacket)
  | joining
  | done

structure ProducerThread where
  pc : ProducerPc := .next
  sent : ℕ := 0
  stamps : List ℕ := []

/-! ## The consumer -/

/-- Where the consumer is. -/
inductive ConsumerPc where
  /-- at the condition of the loop -/
  | loop
  /-- before `pop` -/
  | calling
  /-- in `pop` -/
  | popping
  /-- before the clock is read -/
  | receiving (p : TradePacket)
  /-- before the order book sees the packet -/
  | matching (p : TradePacket) (receiveNs : ℕ)
  | exited

structure ConsumerThread where
  pc : ConsumerPc := .loop
  book : FastOrderBook := {}
  latencies : List UInt64 := []
  processed : ℕ := 0
  received : List (TradePacket × ℕ) := []

/-- The latency of a packet received at a time. -/
def latencyOf (p : TradePacket) (receiveNs : ℕ) : UInt64 := .ofNat receiveNs - p.ingestTsNs

section Threads

variable (config : BenchConfig) (k startNs : ℕ)

/-- The next access of the producer. -/
def ProducerThread.step (t : ProducerThread) (clock : ℕ) (channel : Channel TradePacket)
    (consumer : ConsumerPc) : Channel TradePacket × ProducerThread :=
  match t.pc with
  | .next =>
      (channel,
        { t with
          pc := if t.sent < config.total then
              if 0 < config.intervalNs then .waiting else .stamping
            else .joining })
  | .waiting =>
      (channel,
        { t with
          pc := if clock < (config.due startNs t.sent).toNat then .waiting else .stamping })
  | .stamping =>
      (channel,
        { t with pc := .calling (stampedPacket t.sent clock), stamps := t.stamps ++ [clock] })
  | .calling p =>
      (channel.record (callPush p channel.queue, none), { t with pc := .pushing p })
  | .pushing p =>
      let result := producerAccess k channel.queue
      (channel.record result,
        match pushAnswer? result.2 with
        | some true => { t with sent := t.sent + 1, pc := .next }
        | some false => { t with pc := .calling p }
        | none => { t with pc := .pushing p })
  | .joining =>
      (channel, { t with pc := match consumer with | .exited => .done | _ => .joining })
  | .done => (channel, t)

/-- The next access of the consumer. -/
def ConsumerThread.step (t : ConsumerThread) (clock : ℕ) (channel : Channel TradePacket) :
    Channel TradePacket × ConsumerThread :=
  match t.pc with
  | .loop =>
      (channel, { t with pc := if t.processed < config.total then .calling else .exited })
  | .calling => (channel.record (callPop channel.queue, none), { t with pc := .popping })
  | .popping =>
      let result := consumerAccess k channel.queue
      (channel.record result,
        { t with
          pc := match popAnswer? result.2 with
            | some (some p) => .receiving p
            | some none => .loop
            | none => .popping })
  | .receiving p => (channel, { t with pc := .matching p clock })
  | .matching p receiveNs =>
      (channel,
        { pc := .loop
          book := t.book.matchTrade p
          latencies := if t.latencies.length < config.latencyRoom then
              t.latencies ++ [latencyOf p receiveNs]
            else t.latencies
          processed := t.processed + 1
          received := t.received ++ [(p, receiveNs)] })
  | .exited => (channel, t)

end Threads

/-! ## Both together -/

structure BenchState where
  clock : ℕ
  channel : Channel TradePacket
  producer : ProducerThread := {}
  consumer : ConsumerThread := {}

/-- One entry of a schedule; a tick moves the clock by one nanosecond and some more. -/
inductive BenchAction where
  | tick (more : ℕ)
  | producer
  | consumer

inductive BenchThread where
  | clock
  | producer
  | consumer
  deriving DecidableEq

/-- Who takes the step. -/
def BenchAction.thread : BenchAction → BenchThread
  | .tick _ => .clock
  | .producer => .producer
  | .consumer => .consumer

section Bench

variable (config : BenchConfig) (k startNs : ℕ)

def BenchState.act (s : BenchState) : BenchAction → BenchState
  | .tick more => { s with clock := s.clock + (more + 1) }
  | .producer =>
      let (channel, producer) := s.producer.step config k startNs s.clock s.channel s.consumer.pc
      { s with channel := channel, producer := producer }
  | .consumer =>
      let (channel, consumer) := s.consumer.step config k s.clock s.channel
      { s with channel := channel, consumer := consumer }

def benchmark : Mealy BenchState BenchAction Unit where
  step s action := s.act config k startNs action
  output _ _ := ()

/-- The benchmark before its first step. -/
def BenchState.fresh (buffer : ℕ → TradePacket) : BenchState where
  clock := startNs
  channel := .fresh buffer

end Bench

end PrismPipeline.Program
