import PrismPipeline.Live.BarOrder
import PrismPipeline.Live.Delivery
import PrismPipeline.Live.EnginePool
import PrismPipeline.Live.RetestDecision
import PrismPipeline.Series.Gaps

/-!
# How long a breakout stays open

The strategy gives up a breakout after thirty bars, which its comment calls five
minutes.  Bars are built from trades only, so a ten second bucket without a trade
takes time and is no bar.  Bars and quiet buckets together measure the time since
the breakout.
-/

namespace PrismPipeline.Live

open PrismPipeline.Machine PrismPipeline.Series

/-- Number of the bucket that starts at a time. -/
def BarLength.startBucket (length : BarLength) (start : UInt64) : ℕ := start.toNat / length.span

namespace EngineWorld

/-- Start of the bar the strategy remembers as the breakout. -/
def breakoutStart (w : EngineWorld) : UInt64 :=
  w.deliveredStarts.getD (w.strategyInstance.breakoutBarIndex - 1) 0

/-- The `bars_since_breakout` of the call that closes the current bar. -/
def barsSince (w : EngineWorld) : ℕ :=
  w.strategyInstance.barsProcessed + 1 - w.strategyInstance.breakoutBarIndex

/-- Starts of the bars since the breakout, the current one last. -/
def startsSince (w : EngineWorld) : List UInt64 :=
  w.deliveredStarts.drop w.strategyInstance.breakoutBarIndex ++ [w.prism.currentBarStartNs]

/-- Buckets between the breakout bar and the current bar in which no bar was built. -/
def quietBuckets (w : EngineWorld) : ℕ :=
  gaps (w.prism.barSeconds.startBucket w.breakoutStart)
    (w.prism.barSeconds.startBucket w.prism.currentBarStartNs)
    (w.startsSince.map w.prism.barSeconds.startBucket)

/-- The packet closes bar `d` and the strategy signals on it. -/
structure SignalsOn (w : EngineWorld) (p : TradePacket) (d : DeliveredBar) : Prop where
  closes : (w.onTrade p).delivered = w.delivered ++ [d]
  shown : (w.onTrade p).hasSignal = true

/-- The packet closes the current bar, and the waiting strategy takes that bar as the
retest of its breakout. -/
structure TakesRetest (w : EngineWorld) (p : TradePacket) : Prop where
  accepted : Accepted p
  building : w.prism.hasCurrentBar = true
  other : w.prism.barSeconds.tradeBarStart p ≠ w.prism.currentBarStartNs
  waiting : w.strategyInstance.state ≠ .idle
  level_pos : 0 < w.strategyInstance.breakoutLevel
  recent : w.barsSince ≤ maxRetestBars
  range : (toStrategyBar w.closedBar).low < (toStrategyBar w.closedBar).high
  taken : PrismStrategy.retestAccepted w.strategyInstance.breakoutLevel
    (toStrategyBar w.closedBar)

end EngineWorld

/-- Exchange times never go back. -/
def InTimeOrder (packets : List TradePacket) : Prop :=
  packets.Pairwise fun a b =>
    normalizeTimestampNs a.exchangeTsNs ≤ normalizeTimestampNs b.exchangeTsNs

/-- Every signal comes from a bar that starts at most 300 seconds after the breakout
bar it retests. -/
def FiveMinuteWindow (packets : List TradePacket) : Prop :=
  ∀ before p after d, packets = before ++ p :: after →
    (engineAfter prismBarSeconds before).SignalsOn p d →
    d.startNs.toNat ≤
      (engineAfter prismBarSeconds before).breakoutStart.toNat + 300 * 10 ^ 9

/-- Whenever a retest is taken, the bars and the quiet buckets since the breakout are
together at most thirty. -/
def PromptRetests (packets : List TradePacket) : Prop :=
  ∀ before p after, packets = before ++ p :: after →
    (engineAfter prismBarSeconds before).TakesRetest p →
    (engineAfter prismBarSeconds before).barsSince +
      (engineAfter prismBarSeconds before).quietBuckets ≤ 30

/-! ## When a signal is produced -/

namespace EngineWorld

variable {w : EngineWorld} {p : TradePacket}

/-- The bar a packet closes, and what the packet had to be. -/
theorem closes_iff {d : DeliveredBar} :
    (w.onTrade p).delivered = w.delivered ++ [d] ↔
      (Accepted p ∧ w.prism.hasCurrentBar = true ∧
        w.prism.barSeconds.tradeBarStart p ≠ w.prism.currentBarStartNs) ∧
      d = ⟨w.prism.currentBarStartNs, w.closedBar⟩ := by
  have stays : w.delivered ≠ w.delivered ++ [d] := by
    intro same
    exact List.cons_ne_nil d [] (List.self_eq_append_right.mp same)
  have effect := w.onTrade_effect p
  generalize w.onTrade p = next at *
  cases effect with
  | ignored refused =>
      exact ⟨fun same => absurd same stays, fun closes => absurd closes.1.1 refused⟩
  | opens accepted empty =>
      refine ⟨fun same => absurd same stays, fun closes => ?_⟩
      exact absurd (empty.symm.trans closes.1.2.1) Bool.false_ne_true
  | updates accepted building same =>
      exact ⟨fun kept => absurd kept stays, fun closes => absurd same closes.1.2.2⟩
  | switches accepted building other =>
      rw [delivered_openBar, delivered_closeCurrentBar, List.append_cancel_left_eq]
      constructor
      · intro same
        exact ⟨⟨accepted, building, other⟩, (List.singleton_injective same).symm⟩
      · rintro ⟨_, rfl⟩
        rfl

/-- The strategy after a closed bar. -/
theorem strategyInstance_switch (accepted : Accepted p) (building : w.prism.hasCurrentBar = true)
    (other : w.prism.barSeconds.tradeBarStart p ≠ w.prism.currentBarStartNs) :
    (w.onTrade p).strategyInstance =
      w.strategyInstance.onNewBar (toStrategyBar w.closedBar) := by
  rw [(w.onTrade_effect p).unique (.switches accepted building other)]
  exact w.strategyInstance_closeCurrentBar

/-- Signals are produced by exactly the packets that close a retest. -/
theorem signalsOn_iff (delivery : w.Delivery) {d : DeliveredBar} :
    w.SignalsOn p d ↔ w.TakesRetest p ∧ d = ⟨w.prism.currentBarStartNs, w.closedBar⟩ := by
  have shown_eq := (delivery.onTrade p).hasSignal_eq
  have memory := strategyAfter_remembers w.strategyBars
  rw [← delivery.strategy] at memory
  have decided := memory.signals_iff (toStrategyBar w.closedBar)
  constructor
  · rintro ⟨closes, shown⟩
    obtain ⟨⟨accepted, building, other⟩, bar⟩ := closes_iff.mp closes
    rw [shown_eq, strategyInstance_switch accepted building other] at shown
    obtain ⟨waiting, level_pos, recent, range, taken⟩ := decided.mp shown
    exact ⟨⟨accepted, building, other, waiting, level_pos, recent, range, taken⟩, bar⟩
  · rintro ⟨retest, bar⟩
    refine ⟨closes_iff.mpr ⟨⟨retest.accepted, retest.building, retest.other⟩, bar⟩, ?_⟩
    rw [shown_eq, strategyInstance_switch retest.accepted retest.building retest.other]
    exact decided.mpr
      ⟨retest.waiting, retest.level_pos, retest.recent, retest.range, retest.taken⟩

end EngineWorld

/-! ## Time in bars and quiet buckets -/

section Time

variable {length : BarLength} {packets : List TradePacket}

/-- Every bar starts where its bucket does. -/
theorem startBucket_mul_span {w : EngineWorld} (tracks : Tracks length packets w)
    {d : DeliveredBar} (member : d ∈ w.allBars) :
    length.startBucket d.startNs * length.span = d.startNs.toNat := by
  obtain ⟨run, _, sums, starts⟩ := forall₂_exists_left tracks.described member
  obtain ⟨trade, inside⟩ := List.exists_mem_of_ne_nil run sums.nonempty
  rw [← starts trade inside, BarLength.startBucket, length.tradeBarStart_toNat,
    Nat.mul_div_cancel _ length.span_pos]

/-- Exchange times in order keep the buckets in order. -/
theorem InTimeOrder.buckets (ordered : InTimeOrder packets) :
    InBucketOrder length (packets.filter (Accepted ·)) := by
  refine (ordered.imp ?_).filter _
  intro a b before
  exact Nat.div_le_div_right (UInt64.le_iff_toNat_le.mp before)

/-- Then all bars start in order, the current one last. -/
theorem InTimeOrder.starts_increasing (ordered : InTimeOrder packets) {w : EngineWorld}
    (tracks : Tracks length packets w) :
    (w.allBars.map DeliveredBar.startNs).Pairwise (· < ·) := by
  have boundary : (bucketRuns length packets).IsChain fun first second =>
      ∀ a ∈ first, ∀ b ∈ second, length.bucket a ≠ length.bucket b := runs_boundary
  rw [starts_increasing_iff tracks.described boundary]
  have joined : (bucketRuns length packets).flatten = packets.filter (Accepted ·) :=
    flatten_runs _ _
  rw [joined]
  exact ordered.buckets

/-- What the waiting strategy remembers is a breakout of a closed bar. -/
theorem EngineWorld.Delivery.breakoutBar {w : EngineWorld} (delivery : w.Delivery)
    (waiting : w.strategyInstance.state ≠ .idle) :
    BreakoutBar w.strategyBars w.strategyInstance.breakoutBarIndex
        w.strategyInstance.breakoutLevel ∧
      w.strategyInstance.breakoutBarIndex ≤ w.strategyBars.length := by
  have memory := strategyAfter_remembers w.strategyBars
  rw [← delivery.strategy] at memory
  obtain ⟨breakout, inside, _⟩ := memory.waiting waiting
  exact ⟨breakout, inside⟩

/-- The breakout bar and the bars since then are the last of all bars. -/
theorem EngineWorld.Delivery.starts_since {w : EngineWorld} (delivery : w.Delivery)
    (building : w.prism.hasCurrentBar = true) (waiting : w.strategyInstance.state ≠ .idle) :
    w.startsSince.length = w.barsSince ∧
      ∃ earlier, w.allBars.map DeliveredBar.startNs =
        earlier ++ w.breakoutStart :: w.startsSince := by
  obtain ⟨breakout, inside⟩ := delivery.breakoutBar waiting
  have counted : w.strategyInstance.barsProcessed = w.strategyBars.length := by
    rw [delivery.strategy]
    exact (strategyAfter_remembers w.strategyBars).counted
  have size : w.deliveredStarts.length = w.strategyBars.length := by
    rw [EngineWorld.deliveredStarts, EngineWorld.strategyBars, List.length_map, List.length_map]
  have first := breakout.warm
  constructor
  · rw [EngineWorld.startsSince, List.length_append, List.length_drop, List.length_singleton,
      EngineWorld.barsSince, counted, size]
    omega
  · obtain ⟨k, index⟩ : ∃ k, w.strategyInstance.breakoutBarIndex = k + 1 :=
      Nat.exists_eq_add_of_le' (by omega)
    have below : k < w.deliveredStarts.length := by omega
    refine ⟨w.deliveredStarts.take k, ?_⟩
    have starts : w.allBars.map DeliveredBar.startNs =
        w.deliveredStarts ++ [w.prism.currentBarStartNs] := by
      rw [EngineWorld.allBars, EngineWorld.openBars_of_building building, List.map_append]
      rfl
    rw [starts, EngineWorld.breakoutStart, EngineWorld.startsSince, index,
      Nat.add_sub_cancel, List.getD_eq_getElem _ _ below, ← List.cons_append,
      ← List.append_assoc, List.getElem_cons_drop, List.take_append_drop]

/-- The last bar on the way is the current one. -/
theorem EngineWorld.current_mem_startsSince (w : EngineWorld) :
    w.prism.currentBarStartNs ∈ w.startsSince :=
  List.mem_append_right _ List.mem_cons_self

section Waiting

variable {w : EngineWorld} (tracks : Tracks length packets w) (delivery : w.Delivery)
  (building : w.prism.hasCurrentBar = true) (waiting : w.strategyInstance.state ≠ .idle)

include tracks delivery building waiting

/-- The breakout bar and those since then start where their buckets do. -/
theorem startBucket_since : ∀ start ∈ w.breakoutStart :: w.startsSince,
    length.startBucket start * length.span = start.toNat := by
  obtain ⟨_, earlier, starts⟩ := delivery.starts_since building waiting
  intro start since
  have member : start ∈ w.allBars.map DeliveredBar.startNs :=
    starts ▸ List.mem_append_right earlier since
  obtain ⟨d, inside, rfl⟩ := List.mem_map.mp member
  exact startBucket_mul_span tracks inside

/-- The current bucket is no further away than bars and quiet buckets together. -/
theorem current_le_bars_add_quiet :
    length.startBucket w.prism.currentBarStartNs ≤
      length.startBucket w.breakoutStart + (w.barsSince + w.quietBuckets) := by
  obtain ⟨size, _⟩ := delivery.starts_since building waiting
  have arrives : length.startBucket w.prism.currentBarStartNs ∈
      w.startsSince.map length.startBucket :=
    List.mem_map_of_mem w.current_mem_startsSince
  rw [EngineWorld.quietBuckets, tracks.sameLength, ← size,
    ← w.startsSince.length_map length.startBucket]
  exact le_length_add_gaps arrives

/-- In time order the buckets since the breakout increase. -/
theorem bucketsSince_increasing (ordered : InTimeOrder packets) :
    ((w.breakoutStart :: w.startsSince).map length.startBucket).Pairwise (· < ·) := by
  obtain ⟨_, earlier, starts⟩ := delivery.starts_since building waiting
  have aligned := startBucket_since tracks delivery building waiting
  have increasing := ordered.starts_increasing tracks
  rw [starts] at increasing
  rw [List.pairwise_map]
  refine (List.pairwise_append.mp increasing).2.1.imp_of_mem ?_
  intro a b left right before
  rw [UInt64.lt_iff_toNat_lt, ← aligned a left, ← aligned b right] at before
  exact Nat.lt_of_mul_lt_mul_right before

/-- In time order the current bucket is exactly so far away. -/
theorem bars_add_quiet_eq_current (ordered : InTimeOrder packets) :
    length.startBucket w.breakoutStart + (w.barsSince + w.quietBuckets) =
      length.startBucket w.prism.currentBarStartNs := by
  obtain ⟨size, _⟩ := delivery.starts_since building waiting
  have increasing := bucketsSince_increasing tracks delivery building waiting ordered
  have arrives : length.startBucket w.prism.currentBarStartNs ∈
      w.startsSince.map length.startBucket :=
    List.mem_map_of_mem w.current_mem_startsSince
  have newest : ∀ k ∈ w.startsSince.map length.startBucket,
      k ≤ length.startBucket w.prism.currentBarStartNs := by
    have rising := (List.pairwise_cons.mp increasing).2
    rw [EngineWorld.startsSince, List.map_append, List.pairwise_append] at rising
    intro k member
    rw [EngineWorld.startsSince, List.map_append] at member
    rcases List.mem_append.mp member with older | last
    · exact (rising.2.2 k older _ List.mem_cons_self).le
    · exact (List.mem_singleton.mp last).le
  rw [EngineWorld.quietBuckets, tracks.sameLength, ← size,
    ← w.startsSince.length_map length.startBucket]
  exact length_add_gaps increasing arrives newest

end Waiting

end Time

/-! ## The window -/

/-- A bar taken as a retest starts at most 300 seconds after its breakout when the bars
and the quiet buckets in between fit the window; in time order only then. -/
theorem retest_in_window {packets : List TradePacket} {p : TradePacket}
    (retest : (engineAfter prismBarSeconds packets).TakesRetest p) :
    ((engineAfter prismBarSeconds packets).barsSince +
        (engineAfter prismBarSeconds packets).quietBuckets ≤ 30 →
      (engineAfter prismBarSeconds packets).prism.currentBarStartNs.toNat ≤
        (engineAfter prismBarSeconds packets).breakoutStart.toNat + 300 * 10 ^ 9) ∧
    (InTimeOrder packets →
      (engineAfter prismBarSeconds packets).prism.currentBarStartNs.toNat ≤
        (engineAfter prismBarSeconds packets).breakoutStart.toNat + 300 * 10 ^ 9 →
      (engineAfter prismBarSeconds packets).barsSince +
        (engineAfter prismBarSeconds packets).quietBuckets ≤ 30) := by
  have tracks := engineAfter_tracks prismBarSeconds packets
  have delivery := engineAfter_delivery prismBarSeconds packets
  have aligned := startBucket_since tracks delivery retest.building retest.waiting
  have origin := aligned _ List.mem_cons_self
  have current := aligned _ (List.mem_cons_of_mem _ (EngineWorld.current_mem_startsSince _))
  have span : prismBarSeconds.span = 10 ^ 10 := rfl
  rw [span] at origin current
  constructor
  · intro fits
    have reached := current_le_bars_add_quiet tracks delivery retest.building retest.waiting
    omega
  · intro ordered inside
    have reached :=
      bars_add_quiet_eq_current tracks delivery retest.building retest.waiting ordered
    omega

/-- The window of thirty bars is five minutes in every run in which bars and quiet buckets
together keep within thirty whenever a retest is taken; and when exchange times never go
back it is so in no other run. -/
theorem retestWindow_exact (packets : List TradePacket) :
    (PromptRetests packets → FiveMinuteWindow packets) ∧
      (InTimeOrder packets → FiveMinuteWindow packets → PromptRetests packets) := by
  constructor
  · intro prompt before p after d split signals
    have delivery := engineAfter_delivery prismBarSeconds before
    obtain ⟨retest, rfl⟩ := (EngineWorld.signalsOn_iff delivery).mp signals
    exact (retest_in_window retest).1 (prompt before p after split retest)
  · intro ordered window before p after split retest
    have delivery := engineAfter_delivery prismBarSeconds before
    have orderedBefore : InTimeOrder before := by
      rw [split] at ordered
      exact (List.pairwise_append.mp ordered).1
    have signals := (EngineWorld.signalsOn_iff delivery).mpr ⟨retest, rfl⟩
    exact (retest_in_window retest).2 orderedBefore (window before p after _ split signals)

/-- The thirty bars are five minutes as long as no bucket stays without a trade. -/
theorem busyRun_in_window (packets : List TradePacket)
    (busy : ∀ before p after, packets = before ++ p :: after →
      (engineAfter prismBarSeconds before).TakesRetest p →
      (engineAfter prismBarSeconds before).quietBuckets = 0) : FiveMinuteWindow packets := by
  intro before p after d split signals
  have delivery := engineAfter_delivery prismBarSeconds before
  obtain ⟨retest, rfl⟩ := (EngineWorld.signalsOn_iff delivery).mp signals
  apply (retest_in_window retest).1
  rw [busy before p after split retest]
  exact retest.recent

/-- Ten quiet bars and a breakout; the next trade comes a quarter of an hour later and
its bar takes the retest. -/
def quietStretch : List TradePacket :=
  (List.range 10).map (fun bucket => tradeIn bucket 100) ++
    [tradeIn 10 105, tradeIn 100 100,
      { tradeIn 100 104 with exchangeTsNs := (tradeIn 100 104).exchangeTsNs + nsPerSecond },
      tradeIn 101 104]

/-- The breakout bar starts 900 seconds before the bar that signals. -/
theorem quietStretch_late :
    ¬ ∀ packets : List TradePacket,
      (packets.Pairwise fun a b => a.exchangeTsNs < b.exchangeTsNs) →
      FiveMinuteWindow packets := by
  intro window
  have increasing : quietStretch.Pairwise fun a b => a.exchangeTsNs < b.exchangeTsNs := by
    decide +kernel
  have signals : (engineAfter prismBarSeconds quietStretch.dropLast).SignalsOn (tradeIn 101 104)
      ⟨(engineAfter prismBarSeconds quietStretch.dropLast).prism.currentBarStartNs,
        (engineAfter prismBarSeconds quietStretch.dropLast).closedBar⟩ :=
    ⟨by decide +kernel, by decide +kernel⟩
  have inside := window quietStretch increasing quietStretch.dropLast (tradeIn 101 104) [] _ rfl
    signals
  have late : ¬ (engineAfter prismBarSeconds
      quietStretch.dropLast).prism.currentBarStartNs.toNat ≤
        (engineAfter prismBarSeconds quietStretch.dropLast).breakoutStart.toNat +
          300 * 10 ^ 9 := by
    decide +kernel
  exact late inside

end PrismPipeline.Live
