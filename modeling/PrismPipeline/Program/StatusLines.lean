import PrismPipeline.Program.LiveRefinement
import PrismPipeline.Series.Rates

/-!
# The status lines

The main thread reads one counter after the other while the engine thread and the feed
thread go on, so a status line is no snapshot.  Each of its figures is the one of some
moment, and the moments follow each other; the rates of all lines together account for
the totals.
-/

namespace PrismPipeline.Program

open PrismPipeline.Machine PrismPipeline.Queue PrismPipeline.Live PrismPipeline.Feed
  PrismPipeline.Series

/-! ## What the counters show -/

/-- The last price that is published after a number of packets. -/
def priceShown (packets : List TradePacket) : UInt64 :=
  (packets.getLast?.map priceScaled).getD 0

theorem priceShown_snoc (packets : List TradePacket) (p : TradePacket) :
    priceShown (packets ++ [p]) = priceScaled p := by
  simp [priceShown]

theorem processPacket_processed (s : LiveState) (p : TradePacket) :
    (s.processPacket p).processed = s.processed + 1 := by
  by_cases rises : s.Rises p
  · rw [s.processPacket_rises p rises]
  · rw [s.processPacket_quiet p rises]

theorem prismSignals_le_processPacket (s : LiveState) (p : TradePacket) :
    s.prismSignals ≤ (s.processPacket p).prismSignals := by
  by_cases rises : s.Rises p
  · rw [s.processPacket_rises p rises]
    exact Nat.le_succ _
  · rw [s.processPacket_quiet p rises]

section Counters

variable (length : BarLength) (opened : Bool)

theorem liveAfter_processed (packets : List TradePacket) :
    (liveAfter length opened packets).processed = packets.length := by
  induction packets using List.reverseRecOn with
  | nil => rfl
  | append_singleton packets p ih =>
      rw [liveAfter_snoc, processPacket_processed, ih, List.length_append, List.length_singleton]

/-- The signals counted after a number of packets. -/
def signalsAfter (packets : List TradePacket) : ℕ := (liveAfter length opened packets).prismSignals

theorem signalsAfter_mono {earlier packets : List TradePacket} (grown : earlier <+: packets) :
    signalsAfter length opened earlier ≤ signalsAfter length opened packets := by
  obtain ⟨later, rfl⟩ := grown
  induction later using List.reverseRecOn with
  | nil => rw [List.append_nil]
  | append_singleton later p ih =>
      rw [← List.append_assoc]
      unfold signalsAfter at ih ⊢
      rw [liveAfter_snoc]
      exact ih.trans (prismSignals_le_processPacket _ p)

end Counters

/-- The counter of received messages is the number of packets accepted, as a word. -/
theorem feedAfter_received (strtod : String → ℚ) (arrivals : List Arrival) :
    (feedAfter strtod arrivals).received =
      .ofNat (feedAfter strtod arrivals).enqueued.length := by
  induction arrivals using List.reverseRecOn with
  | nil => rfl
  | append_singleton arrivals arrival ih =>
      rw [feedAfter_snoc]
      by_cases refused : Refused (arrival.packet strtod)
      · rw [handleMessage_refused refused]
        exact ih
      · rw [handleMessage_passed refused]
        cases pushLoop arrival.answers 0 with
        | enqueued =>
            dsimp only
            rw [ih, List.length_append, List.length_singleton]
            exact (UInt64.ofNat_add _ 1).symm
        | dropped => exact ih
        | abandoned => exact ih

/-- What the price counter shows: one packet at most is handled and not yet shown. -/
def EngineThread.Publishes (e : EngineThread) : Prop :=
  match e.pc with
  | .storing p => ∃ earlier, e.handled = earlier ++ [p] ∧ e.lastPriceScaled = priceShown earlier
  | .loop | .calling | .popping | .handling _ | .exited =>
      e.lastPriceScaled = priceShown e.handled

theorem EngineThread.Publishes.step {e : EngineThread} (publishes : e.Publishes) {k : ℕ}
    (running : Bool) (channel : Channel TradePacket) :
    (e.step k running channel).2.Publishes := by
  unfold EngineThread.Publishes at publishes ⊢
  unfold EngineThread.step
  cases pc : e.pc with
  | loop =>
      rw [pc] at publishes
      cases running <;> exact publishes
  | calling =>
      rw [pc] at publishes
      exact publishes
  | popping =>
      rw [pc] at publishes
      dsimp only
      generalize popAnswer? (consumerAccess k channel.queue).2 = answer
      rcases answer with _ | _ | p <;> exact publishes
  | handling p =>
      rw [pc] at publishes
      exact ⟨e.handled, rfl, publishes⟩
  | storing p =>
      rw [pc] at publishes
      obtain ⟨earlier, handled, _⟩ := publishes
      dsimp only
      rw [handled, priceShown_snoc]
  | exited =>
      rw [pc] at publishes
      dsimp only
      rw [pc]
      exact publishes

/-- The packets whose prices have been published. -/
theorem EngineThread.Publishes.shown {e : EngineThread} (publishes : e.Publishes) :
    ∃ n, e.handled.length ≤ n + 1 ∧ n ≤ e.handled.length ∧
      e.lastPriceScaled = priceShown (e.handled.take n) := by
  unfold EngineThread.Publishes at publishes
  cases pc : e.pc with
  | storing p =>
      rw [pc] at publishes
      obtain ⟨earlier, handled, shown⟩ := publishes
      refine ⟨earlier.length, ?_, ?_, ?_⟩
      · rw [handled, List.length_append, List.length_singleton]
      · rw [handled, List.length_append]
        exact Nat.le_add_right _ _
      · rw [handled, List.take_left, shown]
  | _ =>
      rw [pc] at publishes
      refine ⟨e.handled.length, Nat.le_succ _, le_refl _, ?_⟩
      rw [List.take_length]
      exact publishes

/-! ## What a line says -/

namespace StatusLine

section Line

variable (length : BarLength) (opened : Bool) (line : StatusLine) (handled : List TradePacket)

/-- The count of signals is the one after so many packets. -/
def SignalsAt (atSignals : ℕ) : Prop :=
  line.totalProcessed ≤ atSignals ∧ atSignals ≤ handled.length ∧
    line.prismSignalsTotal = signalsAfter length opened (handled.take atSignals)

/-- The price is the one after so many packets. -/
def PriceAt (atPrice : ℕ) : Prop :=
  atPrice ≤ handled.length ∧ line.lastPriceScaled = priceShown (handled.take atPrice)

/-- The figures of a line are those of moments that follow each other: the total, the
signals, the price, which may be one packet behind, and the messages received, of which one
may not have been counted yet. -/
def Describes : Prop :=
  ∃ atSignals atPrice received : ℕ,
    line.SignalsAt length opened handled atSignals ∧
    line.PriceAt handled atPrice ∧ atSignals ≤ atPrice + 1 ∧
    line.wsReceived = .ofNat received ∧ atSignals ≤ received + 1 ∧ atPrice ≤ received + 1

variable {length opened line handled} {more : List TradePacket}

theorem SignalsAt.mono {atSignals : ℕ} (at' : line.SignalsAt length opened handled atSignals)
    (grown : handled <+: more) : line.SignalsAt length opened more atSignals := by
  obtain ⟨later, rfl⟩ := grown
  refine ⟨at'.1, at'.2.1.trans ?_, ?_⟩
  · rw [List.length_append]
    exact Nat.le_add_right _ _
  · rw [List.take_append_of_le_length at'.2.1]
    exact at'.2.2

theorem PriceAt.mono {atPrice : ℕ} (at' : line.PriceAt handled atPrice)
    (grown : handled <+: more) : line.PriceAt more atPrice := by
  obtain ⟨later, rfl⟩ := grown
  refine ⟨at'.1.trans ?_, ?_⟩
  · rw [List.length_append]
    exact Nat.le_add_right _ _
  · rw [List.take_append_of_le_length at'.1]
    exact at'.2

theorem Describes.mono (describes : line.Describes length opened handled)
    (grown : handled <+: more) : line.Describes length opened more := by
  obtain ⟨atSignals, atPrice, received, signals, price, rest⟩ := describes
  exact ⟨atSignals, atPrice, received, signals.mono grown, price.mono grown, rest⟩

end Line

end StatusLine

/-- The readings of a counter so far, the rates shown for them, and how far it has come. -/
structure Readings (shown counts : List ℕ) (now : ℕ) : Prop where
  rising : (0 :: counts).Pairwise (· ≤ ·)
  shown : shown = rates 2 0 counts
  within : counts.getLastD 0 ≤ now

theorem Readings.mono {shown counts : List ℕ} {now later : ℕ}
    (readings : Readings shown counts now) (grown : now ≤ later) : Readings shown counts later :=
  { readings with within := readings.within.trans grown }

/-- The counter is read once more. -/
theorem Readings.read {shown counts : List ℕ} {now : ℕ} (readings : Readings shown counts now) :
    Readings (shown ++ [(now - counts.getLastD 0) / 2]) (counts ++ [now]) now where
  rising := rising_snoc readings.rising readings.within
  shown := by rw [rates_snoc, readings.shown]
  within := by rw [List.getLastD_concat]

/-- A reading taken back. -/
theorem Readings.unread {shown counts : List ℕ} {rate count now : ℕ}
    (readings : Readings (shown ++ [rate]) (counts ++ [count]) now) :
    Readings shown counts now := by
  obtain ⟨rising, rated, within⟩ := readings
  rw [rates_snoc] at rated
  rw [List.getLastD_concat] at within
  have whole : (0 :: counts) ++ [count] = 0 :: (counts ++ [count]) := rfl
  rw [← whole, List.pairwise_append] at rising
  refine ⟨rising.1, (List.append_inj' rated rfl).1, le_trans ?_ within⟩
  have member : counts.getLastD 0 ∈ 0 :: counts := List.getLastD_mem_cons
  exact rising.2.2 _ member count List.mem_cons_self

/-- What the rates of all readings account for. -/
theorem Readings.accounts {shown counts : List ℕ} {now : ℕ}
    (readings : Readings shown counts now) :
    2 * shown.sum ≤ counts.getLastD 0 ∧
      counts.getLastD 0 ≤ 2 * shown.sum + counts.length := by
  have above : 0 + 2 * (rates 2 0 counts).sum ≤ counts.getLastD 0 :=
    sum_rates_le readings.rising
  have below : counts.getLastD 0 ≤ 0 + 2 * (rates 2 0 counts).sum + (2 - 1) * counts.length :=
    le_sum_rates Nat.two_pos
  rw [readings.shown]
  omega

/-- The readings of the printed lines, without that of the next one. -/
theorem Readings.printed {shown count : StatusLine → ℕ} {lines next : List StatusLine} {now : ℕ}
    (atMostOne : next = [] ∨ ∃ line, next = [line])
    (readings : Readings ((lines ++ next).map shown) ((lines ++ next).map count) now) :
    Readings (lines.map shown) (lines.map count) now := by
  rcases atMostOne with rfl | ⟨line, rfl⟩
  · rwa [List.append_nil] at readings
  · rw [List.map_append, List.map_append] at readings
    exact readings.unread

namespace MainPc

/-- The line for which the total has been read. -/
def totalLine : MainPc → List StatusLine
  | .readingSignals line | .readingPrice line | .readingReceived line | .readingDropped line =>
      [line]
  | .loop | .sampling | .joiningFeed | .joiningEngine | .summarising | .done => []

/-- The line for which the signals have been read. -/
def signalsLine : MainPc → List StatusLine
  | .readingPrice line | .readingReceived line | .readingDropped line => [line]
  | .readingSignals _ | .loop | .sampling | .joiningFeed | .joiningEngine | .summarising
  | .done => []

/-- What is known of the line that is being filled in. -/
def LineSoFar (length : BarLength) (opened : Bool) (handled : List TradePacket) : MainPc → Prop
  | .readingSignals line => line.totalProcessed ≤ handled.length
  | .readingPrice line => ∃ atSignals, line.SignalsAt length opened handled atSignals
  | .readingReceived line =>
      ∃ atSignals atPrice, line.SignalsAt length opened handled atSignals ∧
        line.PriceAt handled atPrice ∧ atSignals ≤ atPrice + 1
  | .readingDropped line => line.Describes length opened handled
  | .loop | .sampling | .joiningFeed | .joiningEngine | .summarising | .done => True

end MainPc

/-- What the main thread has printed and what it has read for the next line. -/
structure MainThread.Reports (length : BarLength) (opened : Bool) (handled : List TradePacket)
    (t : MainThread) : Prop where
  totals : Readings ((t.lines ++ t.pc.totalLine).map StatusLine.perSec)
    ((t.lines ++ t.pc.totalLine).map StatusLine.totalProcessed) handled.length
  lastProcessed : t.lastProcessed =
    ((t.lines ++ t.pc.totalLine).map StatusLine.totalProcessed).getLastD 0
  signals : Readings ((t.lines ++ t.pc.signalsLine).map StatusLine.signalsPerSec)
    ((t.lines ++ t.pc.signalsLine).map StatusLine.prismSignalsTotal)
    (signalsAfter length opened handled)
  lastSignals : t.lastSignals =
    ((t.lines ++ t.pc.signalsLine).map StatusLine.prismSignalsTotal).getLastD 0
  knows : t.pc.LineSoFar length opened handled
  lines : ∀ line ∈ t.lines, line.Describes length opened handled

section Reports

variable {length : BarLength} {opened : Bool} {handled more : List TradePacket} {t : MainThread}

theorem MainThread.Reports.mono (reports : t.Reports length opened handled)
    (grown : handled <+: more) : t.Reports length opened more where
  totals := reports.totals.mono grown.length_le
  lastProcessed := reports.lastProcessed
  signals := reports.signals.mono (signalsAfter_mono length opened grown)
  lastSignals := reports.lastSignals
  knows := by
    have knows := reports.knows
    unfold MainPc.LineSoFar at knows ⊢
    cases pc : t.pc with
    | readingSignals line =>
        rw [pc] at knows
        exact knows.trans grown.length_le
    | readingPrice line =>
        rw [pc] at knows
        obtain ⟨atSignals, signals⟩ := knows
        exact ⟨atSignals, signals.mono grown⟩
    | readingReceived line =>
        rw [pc] at knows
        obtain ⟨atSignals, atPrice, signals, price, close⟩ := knows
        exact ⟨atSignals, atPrice, signals.mono grown, price.mono grown, close⟩
    | readingDropped line =>
        rw [pc] at knows
        exact StatusLine.Describes.mono knows grown
    | _ => trivial
  lines line member := (reports.lines line member).mono grown

/-- A step that reads nothing for a line. -/
theorem MainThread.Reports.still (reports : t.Reports length opened handled) {u : MainThread}
    (same : u.lines = t.lines ∧ u.lastProcessed = t.lastProcessed ∧
      u.lastSignals = t.lastSignals)
    (before : t.pc.totalLine = [] ∧ t.pc.signalsLine = [])
    (after : u.pc.totalLine = [] ∧ u.pc.signalsLine = [])
    (free : u.pc.LineSoFar length opened handled) : u.Reports length opened handled where
  totals := by
    rw [same.1, after.1, ← before.1]
    exact reports.totals
  lastProcessed := by
    rw [same.1, same.2.1, after.1, ← before.1]
    exact reports.lastProcessed
  signals := by
    rw [same.1, after.2, ← before.2]
    exact reports.signals
  lastSignals := by
    rw [same.1, same.2.2, after.2, ← before.2]
    exact reports.lastSignals
  knows := free
  lines := by
    rw [same.1]
    exact reports.lines

/-- A step that fills in a figure other than the two totals, or prints the line. -/
theorem MainThread.Reports.filled (reports : t.Reports length opened handled)
    {line filled : StatusLine} {u : MainThread}
    (before : t.pc.totalLine = [line] ∧ t.pc.signalsLine = [line])
    (after : u.lines ++ u.pc.totalLine = t.lines ++ [filled] ∧
      u.lines ++ u.pc.signalsLine = t.lines ++ [filled])
    (counters : u.lastProcessed = t.lastProcessed ∧ u.lastSignals = t.lastSignals)
    (same : filled.perSec = line.perSec ∧ filled.totalProcessed = line.totalProcessed ∧
      filled.signalsPerSec = line.signalsPerSec ∧
      filled.prismSignalsTotal = line.prismSignalsTotal)
    (knows : u.pc.LineSoFar length opened handled)
    (lines : ∀ line ∈ u.lines, line.Describes length opened handled) :
    u.Reports length opened handled := by
  have kept : ∀ {α : Type} (field : StatusLine → α), field filled = field line →
      (t.lines ++ [filled]).map field = (t.lines ++ [line]).map field := by
    intro α field unchanged
    rw [List.map_append, List.map_append, List.map_singleton, List.map_singleton, unchanged]
  have totals := reports.totals
  have last := reports.lastProcessed
  have signals := reports.signals
  have lastSignals := reports.lastSignals
  rw [before.1, ← kept StatusLine.totalProcessed same.2.1] at totals last
  rw [← kept StatusLine.perSec same.1] at totals
  rw [before.2, ← kept StatusLine.prismSignalsTotal same.2.2.2] at signals lastSignals
  rw [← kept StatusLine.signalsPerSec same.2.2.1] at signals
  rw [← after.1] at totals last
  rw [← after.2] at signals lastSignals
  exact ⟨totals, counters.1.trans last, signals, counters.2.trans lastSignals, knows, lines⟩

section Step

variable {engine : EngineThread} (reports : t.Reports length opened engine.handled)
  (live : engine.live = liveAfter length opened engine.handled) (running : Bool)
  (feed : FeedThread)

include reports live

theorem MainThread.Reports.step_sampling (pc : t.pc = .sampling) :
    (t.step running feed engine).Reports length opened engine.handled := by
  have totals := reports.totals
  have last := reports.lastProcessed
  have signals := reports.signals
  have lastSignals := reports.lastSignals
  have processed : engine.live.processed = engine.handled.length := by
    rw [live, liveAfter_processed]
  rw [pc, MainPc.totalLine, List.append_nil] at totals last
  rw [pc, MainPc.signalsLine] at signals lastSignals
  unfold MainThread.step
  rw [pc]
  dsimp only
  rw [processed, last]
  refine ⟨?_, ?_, signals, lastSignals, le_refl _, reports.lines⟩
  · rw [List.map_append, List.map_append]
    exact totals.read
  · rw [List.map_append]
    exact List.getLastD_concat.symm

theorem MainThread.Reports.step_readingSignals {line : StatusLine}
    (pc : t.pc = .readingSignals line) :
    (t.step running feed engine).Reports length opened engine.handled := by
  have totals := reports.totals
  have last := reports.lastProcessed
  have signals := reports.signals
  have lastSignals := reports.lastSignals
  have knows := reports.knows
  have counted : engine.live.prismSignals = signalsAfter length opened engine.handled := by
    rw [live]
    rfl
  rw [pc, MainPc.totalLine, List.map_append, List.map_append] at totals
  rw [pc, MainPc.totalLine, List.map_append] at last
  rw [pc, MainPc.signalsLine, List.append_nil] at signals lastSignals
  rw [pc] at knows
  unfold MainThread.step
  rw [pc]
  dsimp only
  rw [counted, lastSignals]
  refine ⟨?_, ?_, ?_, ?_, ⟨engine.handled.length, knows, le_refl _, ?_⟩, reports.lines⟩
  · rw [List.map_append, List.map_append]
    exact totals
  · rw [List.map_append]
    exact last
  · rw [List.map_append, List.map_append]
    exact signals.read
  · rw [List.map_append]
    exact List.getLastD_concat.symm
  · rw [List.take_length]

theorem MainThread.Reports.step (publishes : engine.Publishes)
    (counted : ∃ received, feed.received = .ofNat received ∧
      engine.handled.length ≤ received + 1) :
    (t.step running feed engine).Reports length opened engine.handled := by
  have knows := reports.knows
  cases pc : t.pc with
  | sampling => exact reports.step_sampling live running feed pc
  | readingSignals line => exact reports.step_readingSignals live running feed pc
  | readingPrice line =>
      rw [pc] at knows
      obtain ⟨atSignals, signals⟩ := knows
      obtain ⟨atPrice, close, within, shown⟩ := publishes.shown
      have before : t.pc.totalLine = [line] ∧ t.pc.signalsLine = [line] := by
        rw [pc]
        exact ⟨rfl, rfl⟩
      unfold MainThread.step
      rw [pc]
      exact reports.filled before ⟨rfl, rfl⟩ ⟨rfl, rfl⟩ ⟨rfl, rfl, rfl, rfl⟩
        ⟨atSignals, atPrice, signals, ⟨within, shown⟩, signals.2.1.trans close⟩ reports.lines
  | readingReceived line =>
      rw [pc] at knows
      obtain ⟨atSignals, atPrice, signals, price, close⟩ := knows
      obtain ⟨received, shown, enough⟩ := counted
      have before : t.pc.totalLine = [line] ∧ t.pc.signalsLine = [line] := by
        rw [pc]
        exact ⟨rfl, rfl⟩
      unfold MainThread.step
      rw [pc]
      exact reports.filled before ⟨rfl, rfl⟩ ⟨rfl, rfl⟩ ⟨rfl, rfl, rfl, rfl⟩
        ⟨atSignals, atPrice, received, signals, price, close, shown, signals.2.1.trans enough,
          price.1.trans enough⟩
        reports.lines
  | readingDropped line =>
      rw [pc] at knows
      have before : t.pc.totalLine = [line] ∧ t.pc.signalsLine = [line] := by
        rw [pc]
        exact ⟨rfl, rfl⟩
      unfold MainThread.step
      rw [pc]
      refine reports.filled before ⟨List.append_nil _, List.append_nil _⟩ ⟨rfl, rfl⟩
        ⟨rfl, rfl, rfl, rfl⟩ trivial ?_
      intro printed member
      rcases List.mem_append.mp member with earlier | newest
      · exact reports.lines printed earlier
      · rw [List.mem_singleton.mp newest]
        exact knows
  | loop =>
      have before : t.pc.totalLine = [] ∧ t.pc.signalsLine = [] := by
        rw [pc]
        exact ⟨rfl, rfl⟩
      unfold MainThread.step
      rw [pc]
      cases running <;> exact reports.still ⟨rfl, rfl, rfl⟩ before ⟨rfl, rfl⟩ trivial
  | joiningFeed =>
      have before : t.pc.totalLine = [] ∧ t.pc.signalsLine = [] := by
        rw [pc]
        exact ⟨rfl, rfl⟩
      unfold MainThread.step
      rw [pc]
      cases feed.pc <;> exact reports.still ⟨rfl, rfl, rfl⟩ before ⟨rfl, rfl⟩ trivial
  | joiningEngine =>
      have before : t.pc.totalLine = [] ∧ t.pc.signalsLine = [] := by
        rw [pc]
        exact ⟨rfl, rfl⟩
      unfold MainThread.step
      rw [pc]
      cases engine.pc <;> exact reports.still ⟨rfl, rfl, rfl⟩ before ⟨rfl, rfl⟩ trivial
  | summarising =>
      have before : t.pc.totalLine = [] ∧ t.pc.signalsLine = [] := by
        rw [pc]
        exact ⟨rfl, rfl⟩
      unfold MainThread.step
      rw [pc]
      exact reports.still ⟨rfl, rfl, rfl⟩ before ⟨rfl, rfl⟩ trivial
  | done =>
      unfold MainThread.step
      rw [pc]
      exact reports

end Step

end Reports

/-! ## Every interleaving -/

section Program

variable {k : ℕ} {strtod : String → ℚ} {buffer : ℕ → TradePacket} {length : BarLength}
  {opened : Bool}

/-- The packets handled were counted as received, the last of them perhaps not yet. -/
theorem ProgramState.Coherent.received {s : ProgramState}
    (coherent : s.Coherent k strtod length opened) :
    ∃ received, s.feed.received = .ofNat received ∧
      s.engine.handled.length ≤ received + 1 := by
  obtain ⟨arrivals, refines⟩ := coherent.feed.refines
  refine ⟨(feedAfter strtod arrivals).enqueued.length,
    refines.received.trans (feedAfter_received strtod arrivals), ?_⟩
  have one : (s.feed.pc.uncounted strtod).length ≤ 1 := by
    cases s.feed.pc <;> simp [FeedPc.uncounted]
  have pushed := congrArg List.length refines.pushed
  rw [coherent.sound.conserved, coherent.engine.popped] at pushed
  simp only [List.length_append] at pushed
  omega

/-- What holds of the printed lines in every state of the program. -/
structure ProgramState.Reported (k : ℕ) (strtod : String → ℚ) (length : BarLength)
    (opened : Bool) (s : ProgramState) : Prop where
  coherent : s.Coherent k strtod length opened
  publishes : s.engine.Publishes
  reports : s.main.Reports length opened s.engine.handled

theorem reported_fresh :
    (ProgramState.fresh buffer length opened).Reported k strtod length opened where
  coherent := coherent_fresh
  publishes := rfl
  reports := by
    refine ⟨⟨?_, rfl, le_refl 0⟩, rfl, ⟨?_, rfl, Nat.zero_le _⟩, rfl, trivial, ?_⟩
    · exact List.pairwise_singleton _ _
    · exact List.pairwise_singleton _ _
    · intro line member
      cases member

theorem ProgramState.Reported.act {s : ProgramState}
    (reported : s.Reported k strtod length opened) (action : Action) :
    (s.act k strtod action).Reported k strtod length opened := by
  obtain ⟨coherent, publishes, reports⟩ := reported
  refine ⟨coherent.act action, ?_, ?_⟩
  · cases action with
    | engine => exact publishes.step s.running s.channel
    | _ => exact publishes
  · cases action with
    | engine => exact reports.mono (act_handled_grows .engine)
    | main =>
        exact reports.step coherent.engine.live s.running s.feed publishes coherent.received
    | _ => exact reports

/-- The status lines of every interleaving.  The rates of messages and of signals are the
growth of the totals since the line before, halved; the totals never fall, so the rates of
all lines account for the last total, but for one message or signal for each line.  The
figures of a line are those of moments that follow each other: the total shown exceeds the
count of received messages by one at most, and the price shown is at most one packet older
than the total. -/
theorem status_lines (k : ℕ) (strtod : String → ℚ) (buffer : ℕ → TradePacket)
    (length : BarLength) (opened : Bool) (schedule : List Action) :
    let s := programAfter k strtod buffer length opened schedule
    let lines := s.main.lines
    let totals := lines.map StatusLine.totalProcessed
    let signals := lines.map StatusLine.prismSignalsTotal
    (lines.map StatusLine.perSec = rates 2 0 totals ∧
      lines.map StatusLine.signalsPerSec = rates 2 0 signals) ∧
    (2 * (lines.map StatusLine.perSec).sum ≤ totals.getLastD 0 ∧
      totals.getLastD 0 ≤ 2 * (lines.map StatusLine.perSec).sum + lines.length) ∧
    (2 * (lines.map StatusLine.signalsPerSec).sum ≤ signals.getLastD 0 ∧
      signals.getLastD 0 ≤ 2 * (lines.map StatusLine.signalsPerSec).sum + lines.length) ∧
    ((0 :: totals).Pairwise (· ≤ ·) ∧ (0 :: signals).Pairwise (· ≤ ·)) ∧
    ∀ line ∈ lines, line.Describes length opened s.engine.handled := by
  intro s lines totals signals
  have reported : s.Reported k strtod length opened :=
    (liveProgram k strtod).after_invariant _ reported_fresh
      (fun _ action reported => reported.act action) schedule
  have reports := reported.reports
  have total : Readings (lines.map StatusLine.perSec) totals s.engine.handled.length := by
    refine reports.totals.printed ?_
    cases s.main.pc <;> simp [MainPc.totalLine]
  have signal : Readings (lines.map StatusLine.signalsPerSec) signals
      (signalsAfter length opened s.engine.handled) := by
    refine reports.signals.printed ?_
    cases s.main.pc <;> simp [MainPc.signalsLine]
  have accounts := total.accounts
  have signalAccounts := signal.accounts
  rw [List.length_map] at accounts signalAccounts
  exact ⟨⟨total.shown, signal.shown⟩, accounts, signalAccounts,
    ⟨total.rising, signal.rising⟩, reports.lines⟩

end Program

end PrismPipeline.Program
