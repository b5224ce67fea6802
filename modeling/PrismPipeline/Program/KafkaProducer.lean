import Mathlib.Data.Rat.Floor
import PrismPipeline.Machine.Progress
import PrismPipeline.Series.Attempts

/-!
# The Kafka producer

`main` of the Kafka producer: wait until the next trade is due, hand it to librdkafka, count
it if it was taken, and print the count from time to time.  What `produce` answers is given,
and so are the readings of the two clocks.  The steady clock is a natural number of
nanoseconds that only goes forward, and a handler may clear `running` at any time.

`offers` and `lines` are traces and not variables of the source.
-/

namespace PrismPipeline.Program

open PrismPipeline.Machine PrismPipeline.Series

/-- The message of `market_data.proto`. -/
structure Trade where
  exchangeId : String
  symbol : String
  timestampNs : Int64
  price : ℚ
  volume : ℚ
  tradeId : String

/-- The trade that is sent when `sent` trades were taken before it. -/
def simTrade (sent : UInt64) (timestampNs : Int64) : Trade where
  exchangeId := "SIM"
  symbol := "BTCUSDT"
  timestampNs := timestampNs
  price := 65000 + (sent % 10000).toNat * (1 / 100)
  volume := 1 / 100 + (sent % 100).toNat * (1 / 10000)
  tradeId := toString sent.toNat

/-- The answers of `produce` that the loop tells apart. -/
inductive ProduceAnswer where
  | noError
  | queueFull
  | failed
  deriving DecidableEq

/-- A call of `produce`, the time of the steady clock and the answer. -/
structure Offer where
  trade : Trade
  time : ℕ
  answer : ProduceAnswer

def Offer.taken (offer : Offer) : Bool := decide (offer.answer = .noError)

/-- The distance of two messages, in nanoseconds. -/
def intervalNs (ratePerSec : UInt64) : UInt64 :=
  if ratePerSec ≠ 0 then 1000000000 / ratePerSec else 0

/-- `due`; the product is a word, and a duration is signed. -/
def dueTime (ratePerSec : UInt64) (startNs : ℕ) (sent : UInt64) : ℤ :=
  startNs + (sent * intervalNs ratePerSec).toInt64.toInt

/-- Where the loop is. -/
inductive KafkaPc where
  /-- at the condition of the loop -/
  | loop
  /-- before the clock is compared with the due time -/
  | waiting
  /-- before the trade is stamped -/
  | building
  /-- before `produce` -/
  | producing (trade : Trade)
  /-- before `poll(0)` and the comparison with the last count printed -/
  | polling
  | flushed

structure KafkaProducer where
  clock : ℕ
  running : Bool := true
  pc : KafkaPc := .loop
  sent : UInt64 := 0
  lastPrint : UInt64 := 0
  offers : List Offer := []
  lines : List UInt64 := []

/-- One entry of a schedule: the clock goes on, the handler runs, or the loop makes its next
step and the outside answers. -/
inductive KafkaAction where
  | tick (more : ℕ)
  | interrupt
  | producer (timestampNs : Int64) (answer : ProduceAnswer)

def KafkaAction.own : KafkaAction → Bool
  | .producer _ _ => true
  | .tick _ | .interrupt => false

namespace KafkaProducer

section Steps

variable (ratePerSec : UInt64) (startNs : ℕ)

/-- The next step of the loop. -/
def advance (s : KafkaProducer) (timestampNs : Int64) (answer : ProduceAnswer) : KafkaProducer :=
  match s.pc with
  | .loop =>
      { s with
        pc := if s.running then
            if 0 < intervalNs ratePerSec then .waiting else .building
          else .flushed }
  | .waiting =>
      { s with
        pc := if (s.clock : ℤ) < dueTime ratePerSec startNs s.sent then .waiting else .building }
  | .building => { s with pc := .producing (simTrade s.sent timestampNs) }
  | .producing trade =>
      { s with
        offers := s.offers ++ [⟨trade, s.clock, answer⟩]
        sent := if answer = .noError then s.sent + 1 else s.sent
        pc := if answer = .queueFull then .loop else .polling }
  | .polling =>
      if ratePerSec ≤ s.sent - s.lastPrint then
        { s with lines := s.lines ++ [s.sent], lastPrint := s.sent, pc := .loop }
      else { s with pc := .loop }
  | .flushed => s

def act (s : KafkaProducer) : KafkaAction → KafkaProducer
  | .tick more => { s with clock := s.clock + (more + 1) }
  | .interrupt => { s with running := false }
  | .producer timestampNs answer => s.advance ratePerSec startNs timestampNs answer

end Steps

end KafkaProducer

def kafkaProducer (ratePerSec : UInt64) (startNs : ℕ) : Mealy KafkaProducer KafkaAction Unit where
  step s action := s.act ratePerSec startNs action
  output _ _ := ()

/-- The trades that were taken so far. -/
def KafkaProducer.takenOffers (s : KafkaProducer) : List Offer := s.offers.filter Offer.taken

/-- The number of trades that were taken so far. -/
def KafkaProducer.count (s : KafkaProducer) : ℕ := s.offers.countP Offer.taken

end PrismPipeline.Program
