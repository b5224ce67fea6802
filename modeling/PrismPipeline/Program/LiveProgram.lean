import Mathlib.Data.Rat.Floor
import PrismPipeline.Feed.Accounting
import PrismPipeline.Live.Pipeline
import PrismPipeline.Queue.Channel

/-!
# The live program

`main` of the live engine: a feed thread that runs the client, an engine thread, the
status loop of the main thread, and the interrupt that clears `running`.  A schedule says
whose next access to the shared variables comes next, so the runs are the interleavings of
the threads.  What libwebsockets does is given: how the calls of `connect` end, which
callbacks `lws_service` makes, and when it returns.

`messages`, `handled` and `lines` are traces and not variables of the source.  The flag
`connected_` is written and never read, and the latency counter is fed by the clock alone;
both are left out, and so are the fields of a status line that other threads may be
writing while they are read.
-/

namespace PrismPipeline.Program

open PrismPipeline.Machine PrismPipeline.Queue PrismPipeline.Live PrismPipeline.Feed

/-- The bytes of a received message, and the time its packet is stamped with. -/
structure Message where
  now : UInt64
  data : List Char

def Message.packet (strtod : String → ℚ) (m : Message) : TradePacket :=
  buildPacket strtod m.now m.data

/-! ## The feed thread -/

/-- Where the feed thread is. -/
inductive FeedPc where
  /-- at the condition of the loop in `run` -/
  | loop
  /-- in `connect` -/
  | connecting
  /-- in `lws_service`, between two callbacks -/
  | service
  /-- in `handle_message`, before an attempt to push -/
  | calling (m : Message) (retryCount : ℕ)
  /-- in `push` -/
  | pushing (m : Message) (retryCount : ℕ)
  /-- after a failed attempt -/
  | failed (m : Message) (retryCount : ℕ)
  /-- before `received_` is incremented -/
  | accepted (m : Message)
  /-- before `dropped_` is incremented -/
  | refused (m : Message)
  | exited

/-- `context` and `wsi` say whether the pointers of those names are set. -/
structure FeedThread where
  pc : FeedPc := .loop
  context : Bool := false
  wsi : Bool := false
  received : UInt64 := 0
  dropped : UInt64 := 0
  messages : List Message := []

/-- The reasons `callback_ws` looks at. -/
inductive Callback where
  | established
  | receive (m : Message)
  /-- the connection is closed or has failed -/
  | closed
  | other

namespace FeedThread

/-- `connect`, where `created` and `connected` are the answers of the library. -/
def connect (f : FeedThread) (created connected : Bool) : FeedThread :=
  if f.context ∨ created then
    { f with
      context := true
      wsi := connected
      pc := if connected then .service else .loop }
  else { f with pc := .loop }

/-- `callback_ws`.  The handler starts on a message that is not empty. -/
def onCallback (strtod : String → ℚ) (f : FeedThread) (callback : Callback) : FeedThread :=
  match f.pc with
  | .service =>
      match callback with
      | .receive m =>
          if m.data = [] then f
          else
            { f with
              messages := f.messages ++ [m]
              pc := if Refused (m.packet strtod) then .refused m else .calling m 0 }
      | .closed => { f with wsi := false }
      | .established | .other => f
  | .loop | .connecting | .calling _ _ | .pushing _ _ | .failed _ _ | .accepted _ | .refused _
  | .exited => f

/-- The next access of the thread. -/
def step (k : ℕ) (strtod : String → ℚ) (f : FeedThread) (running : Bool)
    (channel : Channel TradePacket) (created connected : Bool) :
    Channel TradePacket × FeedThread :=
  match f.pc with
  | .loop =>
      (channel,
        { f with
          pc := if running then
              if f.wsi then if f.context then .service else .loop else .connecting
            else .exited })
  | .connecting => (channel, f.connect created connected)
  | .service => (channel, { f with pc := .loop })
  | .calling m retryCount =>
      (channel.record (callPush (m.packet strtod) channel.queue, none),
        { f with pc := .pushing m retryCount })
  | .pushing m retryCount =>
      let result := producerAccess k channel.queue
      (channel.record result,
        { f with
          pc := match pushAnswer? result.2 with
            | some true => .accepted m
            | some false => .failed m retryCount
            | none => .pushing m retryCount })
  | .failed m retryCount =>
      (channel,
        { f with
          pc := if running then
              if maxRetries ≤ retryCount + 1 then .refused m else .calling m (retryCount + 1)
            else .service })
  | .accepted _ => (channel, { f with received := f.received + 1, pc := .service })
  | .refused _ => (channel, { f with dropped := f.dropped + 1, pc := .service })
  | .exited => (channel, f)

end FeedThread

/-! ## The engine thread -/

/-- Where the engine thread is. -/
inductive EnginePc where
  /-- at the condition of the loop -/
  | loop
  /-- before `pop` -/
  | calling
  /-- in `pop` -/
  | popping
  /-- with a packet for the engine and the manager -/
  | handling (p : TradePacket)
  /-- before the price of the packet is published -/
  | storing (p : TradePacket)
  | exited

structure EngineThread where
  pc : EnginePc := .loop
  live : LiveState
  lastPriceScaled : UInt64 := 0
  handled : List TradePacket := []

/-- The price in hundredths, cut to a word.  The product is the exact one; that of two doubles
is rounded, and where it falls short of a whole number the code stores one less (28 for the
double next to 0.29).  No proof looks into this function. -/
def priceScaled (p : TradePacket) : UInt64 := UInt64.ofNat ⌊p.price * 100⌋₊

/-- The next access of the thread. -/
def EngineThread.step (k : ℕ) (e : EngineThread) (running : Bool)
    (channel : Channel TradePacket) : Channel TradePacket × EngineThread :=
  match e.pc with
  | .loop => (channel, { e with pc := if running then .calling else .exited })
  | .calling => (channel.record (callPop channel.queue, none), { e with pc := .popping })
  | .popping =>
      let result := consumerAccess k channel.queue
      (channel.record result,
        { e with
          pc := match popAnswer? result.2 with
            | some (some p) => .handling p
            | some none => .loop
            | none => .popping })
  | .handling p =>
      (channel,
        { e with
          live := e.live.processPacket p
          handled := e.handled ++ [p]
          pc := .storing p })
  | .storing p => (channel, { e with lastPriceScaled := priceScaled p, pc := .loop })
  | .exited => (channel, e)

/-! ## The main thread -/

structure StatusLine where
  perSec : ℕ := 0
  totalProcessed : ℕ := 0
  signalsPerSec : ℕ := 0
  prismSignalsTotal : ℕ := 0
  lastPriceScaled : UInt64 := 0
  wsReceived : UInt64 := 0
  wsDropped : UInt64 := 0

/-- Where the main thread is; a line carries what has been read for it. -/
inductive MainPc where
  /-- at the condition of the status loop -/
  | loop
  /-- before `processed` is read -/
  | sampling
  /-- before `prism_signals` is read -/
  | readingSignals (line : StatusLine)
  /-- before `last_price_scaled` is read -/
  | readingPrice (line : StatusLine)
  /-- before `received_` is read -/
  | readingReceived (line : StatusLine)
  /-- before `dropped_` is read -/
  | readingDropped (line : StatusLine)
  | joiningFeed
  | joiningEngine
  /-- before `write_summary_json` -/
  | summarising
  | done

/-- `summary` is the manager whose figures were written to the summary file. -/
structure MainThread where
  pc : MainPc := .loop
  lastProcessed : ℕ := 0
  lastSignals : ℕ := 0
  lines : List StatusLine := []
  summary : Option TradeManager := none

/-- The next access of the thread.  It stays at a join until the other thread has exited. -/
def MainThread.step (t : MainThread) (running : Bool) (feed : FeedThread)
    (engine : EngineThread) : MainThread :=
  match t.pc with
  | .loop => { t with pc := if running then .sampling else .joiningFeed }
  | .sampling =>
      { t with
        lastProcessed := engine.live.processed
        pc := .readingSignals
          { perSec := (engine.live.processed - t.lastProcessed) / 2
            totalProcessed := engine.live.processed } }
  | .readingSignals line =>
      { t with
        lastSignals := engine.live.prismSignals
        pc := .readingPrice
          { line with
            signalsPerSec := (engine.live.prismSignals - t.lastSignals) / 2
            prismSignalsTotal := engine.live.prismSignals } }
  | .readingPrice line =>
      { t with pc := .readingReceived { line with lastPriceScaled := engine.lastPriceScaled } }
  | .readingReceived line =>
      { t with pc := .readingDropped { line with wsReceived := feed.received } }
  | .readingDropped line =>
      { t with lines := t.lines ++ [{ line with wsDropped := feed.dropped }], pc := .loop }
  | .joiningFeed =>
      { t with pc := match feed.pc with | .exited => .joiningEngine | _ => .joiningFeed }
  | .joiningEngine =>
      { t with pc := match engine.pc with | .exited => .summarising | _ => .joiningEngine }
  | .summarising => { t with summary := some engine.live.tradeManager, pc := .done }
  | .done => t

/-! ## The threads together -/

structure ProgramState where
  running : Bool := true
  channel : Channel TradePacket
  feed : FeedThread := {}
  engine : EngineThread
  main : MainThread := {}

/-- One entry of a schedule. -/
inductive Action where
  | interrupt
  | callback (callback : Callback)
  | feed (created connected : Bool)
  | engine
  | main

section Program

variable (k : ℕ) (strtod : String → ℚ)

def ProgramState.act (s : ProgramState) : Action → ProgramState
  | .interrupt => { s with running := false }
  | .callback callback => { s with feed := s.feed.onCallback strtod callback }
  | .feed created connected =>
      let (channel, feed) := s.feed.step k strtod s.running s.channel created connected
      { s with channel := channel, feed := feed }
  | .engine =>
      let (channel, engine) := s.engine.step k s.running s.channel
      { s with channel := channel, engine := engine }
  | .main => { s with main := s.main.step s.running s.feed s.engine }

def liveProgram : Mealy ProgramState Action Unit where
  step s action := s.act k strtod action
  output _ _ := ()

/-- The program before its first step: a fresh queue, engine and manager. -/
def ProgramState.fresh (buffer : ℕ → TradePacket) (length : BarLength) (opened : Bool) :
    ProgramState where
  channel := .fresh buffer
  engine := { live := .fresh length opened }

/-- The program after a schedule. -/
def programAfter (buffer : ℕ → TradePacket) (length : BarLength) (opened : Bool)
    (schedule : List Action) : ProgramState :=
  (liveProgram k strtod).after (.fresh buffer length opened) schedule

end Program

end PrismPipeline.Program
