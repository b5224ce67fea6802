import PrismPipeline.Live.RetestWindow
import PrismPipeline.Live.TradeOutcome
import PrismPipeline.Series.Rates

/-!
# How often the live program signals

A signal needs a breakout after the cooldown and a retest after the breakout, so six bars lie
between two signals, and a bar takes ten seconds of exchange time at least.  Over every stretch
of a run this bounds the signals by the time, and the trades by the signals.
-/

namespace PrismPipeline.Live

open PrismPipeline.Machine PrismPipeline.Series

/-! ## Signals and bars -/

/-- The strategy on one more bar: silent, or a signal with its distances. -/
theorem strategySignals_step (bars : List Bar) (bar : Bar) :
    (strategySignals (bars ++ [bar]) = strategySignals bars ∧
      (strategyAfter (bars ++ [bar])).lastSignalBar = (strategyAfter bars).lastSignalBar) ∨
    ((strategySignals (bars ++ [bar])).length = (strategySignals bars).length + 1 ∧
      (strategyAfter (bars ++ [bar])).lastSignalBar = bars.length + 1 ∧
      11 ≤ bars.length ∧ (strategyAfter bars).lastSignalBar + 5 ≤ bars.length) := by
  have memory := strategyAfter_remembers bars
  have counted := memory.counted
  have outcome := PrismStrategy.onNewBar_outcome (strategyAfter bars) bar
  rw [strategySignals_snoc, strategyAfter_snoc]
  unfold strategyMachine
  dsimp only
  generalize (strategyAfter bars).onNewBar bar = next at *
  cases outcome with
  | idles | waits | breaksOut => exact Or.inl ⟨List.append_nil _, rfl⟩
  | signals waiting =>
      obtain ⟨breakout, inside, cool⟩ := memory.waiting waiting
      have warm := breakout.warm
      change _ + 5 ≤ _ at cool
      refine Or.inr ⟨List.length_append, ?_, by omega, by omega⟩
      exact congrArg (· + 1) counted

/-- No signal before the twelfth bar, and six bars from one to the next. -/
theorem strategySignals_warm (bars : List Bar) :
    strategySignals bars = [] ∨
      6 * (strategySignals bars).length + 6 ≤ (strategyAfter bars).lastSignalBar := by
  induction bars using List.reverseRecOn with
  | nil => exact Or.inl rfl
  | append_singleton bars bar ih =>
      rcases strategySignals_step bars bar with ⟨same, last⟩ | ⟨more, last, warm, cool⟩
      · rw [same, last]
        exact ih
      · right
        rw [more, last]
        rcases ih with none | paced
        · rw [none, List.length_nil]
          omega
        · omega

/-- A stretch of bars has at most one signal for each six bars it has begun. -/
theorem strategySignals_stretch (bars later : List Bar) :
    (strategySignals (bars ++ later)).length = (strategySignals bars).length ∨
      6 * (strategySignals (bars ++ later)).length + bars.length ≤
        6 * (strategySignals bars).length + (strategyAfter (bars ++ later)).lastSignalBar + 5 := by
  induction later using List.reverseRecOn with
  | nil => exact Or.inl (by rw [List.append_nil])
  | append_singleton later bar ih =>
      rw [← List.append_assoc]
      rcases strategySignals_step (bars ++ later) bar with ⟨same, last⟩ | ⟨more, last, _, cool⟩
      · rw [same, last]
        exact ih
      · right
        rw [List.length_append] at last cool
        rw [more, last]
        rcases ih with none | paced
        · omega
        · omega

/-- The bars handed to the strategy stay. -/
theorem strategyBars_grow (w : EngineWorld) (later : List TradePacket) :
    w.strategyBars <+: (engineMachine.after w later).strategyBars := by
  induction later generalizing w with
  | nil => exact List.prefix_rfl
  | cons p later ih =>
      refine List.IsPrefix.trans ?_ (ih (w.onTrade p))
      rcases w.onTrade_strategyBars p with ⟨same, _⟩ | newBar
      · rw [same]
      · rw [newBar]
        exact List.prefix_append _ _

/-! ## Bars and time -/

/-- The bars there were stay, with their starts; the current one when it is closed. -/
theorem allStarts_grow (w : EngineWorld) (later : List TradePacket) :
    w.allBars.map DeliveredBar.startNs <+:
      (engineMachine.after w later).allBars.map DeliveredBar.startNs := by
  induction later generalizing w with
  | nil => exact List.prefix_rfl
  | cons p later ih =>
      refine List.IsPrefix.trans ?_ (ih (w.onTrade p))
      have effect := w.onTrade_effect p
      generalize w.onTrade p = next at *
      cases effect with
      | ignored => exact List.prefix_rfl
      | opens accepted empty =>
          rw [EngineWorld.allBars, EngineWorld.allBars, EngineWorld.openBars, empty,
            if_neg Bool.false_ne_true, List.append_nil, List.map_append]
          exact List.prefix_append _ _
      | updates accepted building =>
          have still : (w.joinBar p).prism.hasCurrentBar = true := building
          rw [EngineWorld.allBars, EngineWorld.allBars, EngineWorld.openBars_of_building building,
            EngineWorld.openBars_of_building still, List.map_append, List.map_append]
          exact List.prefix_rfl
      | switches accepted building =>
          rw [EngineWorld.allBars, EngineWorld.allBars,
            EngineWorld.openBars_of_building building, EngineWorld.delivered_openBar,
            EngineWorld.delivered_closeCurrentBar, List.map_append, List.map_append,
            List.map_append]
          exact List.prefix_append _ _

/-- The start of the current bar among the starts of all bars. -/
theorem current_start {w : EngineWorld} (building : w.prism.hasCurrentBar = true) :
    (w.allBars.map DeliveredBar.startNs).length = w.delivered.length + 1 ∧
      (w.allBars.map DeliveredBar.startNs)[w.delivered.length]? =
        some w.prism.currentBarStartNs := by
  rw [EngineWorld.allBars, EngineWorld.openBars_of_building building, List.map_append]
  constructor
  · rw [List.length_append, List.length_map]
    rfl
  · rw [List.getElem?_append_right (by rw [List.length_map]), List.length_map, Nat.sub_self]
    rfl

/-- In time order the current bar moves on by a bucket at least for every bar that is closed. -/
theorem current_moves_on {length : BarLength} {before later : List TradePacket}
    (ordered : InTimeOrder (before ++ later))
    (building : (engineAfter length before).prism.hasCurrentBar = true) :
    (engineAfter length before).delivered.length ≤
        (engineAfter length (before ++ later)).delivered.length ∧
      (engineAfter length before).prism.currentBarStartNs.toNat +
          ((engineAfter length (before ++ later)).delivered.length -
            (engineAfter length before).delivered.length) * length.span ≤
        (engineAfter length (before ++ later)).prism.currentBarStartNs.toNat := by
  have tracks := engineAfter_tracks length (before ++ later)
  have grown := allStarts_grow (engineAfter length before) later
  have joined : engineMachine.after (engineAfter length before) later =
      engineAfter length (before ++ later) := (engineMachine.after_append _ before later).symm
  rw [joined] at grown
  have increasing := ordered.starts_increasing tracks
  have untouched := tracks.untouched
  have aligned : ∀ start ∈ (engineAfter length (before ++ later)).allBars.map DeliveredBar.startNs,
      length.startBucket start * length.span = start.toNat :=
    List.forall_mem_map.mpr fun d member => startBucket_mul_span tracks member
  generalize engineAfter length (before ++ later) = t at *
  generalize engineAfter length before = s at *
  obtain ⟨size, start⟩ := current_start building
  have still : t.prism.hasCurrentBar = true := by
    by_contra none
    have empty : t.allBars = [] := by
      rw [EngineWorld.allBars, untouched (Bool.not_eq_true _ ▸ none), EngineWorld.openBars,
        if_neg none]
      rfl
    have longer := grown.length_le
    rw [empty, size] at longer
    exact absurd longer (by simp)
  obtain ⟨size', start'⟩ := current_start still
  have longer := grown.length_le
  have since : (t.allBars.map DeliveredBar.startNs)[s.delivered.length]? =
      some s.prism.currentBarStartNs := by
    obtain ⟨rest, whole⟩ := grown
    rw [← whole, List.getElem?_append_left (by omega), start]
  generalize t.allBars.map DeliveredBar.startNs = starts at *
  have rising : (starts.map length.startBucket).Pairwise (· < ·) := by
    rw [List.pairwise_map]
    refine increasing.imp_of_mem fun {a b} left right before => ?_
    rw [UInt64.lt_iff_toNat_lt, ← aligned a left, ← aligned b right] at before
    exact Nat.lt_of_mul_lt_mul_right before
  have order : s.delivered.length ≤ t.delivered.length := by omega
  have steps := add_distance_le rising order (by rw [List.length_map]; omega)
  rw [List.getD_eq_getElem?_getD, List.getD_eq_getElem?_getD, List.getElem?_map,
    List.getElem?_map, since, start', Option.map_some, Option.map_some, Option.getD_some,
    Option.getD_some] at steps
  refine ⟨order, ?_⟩
  rw [← aligned _ (List.mem_of_getElem? since), ← aligned _ (List.mem_of_getElem? start'),
    ← Nat.add_mul]
  exact Nat.mul_le_mul_right _ steps

/-! ## The live program -/

section Live

variable (opened : Bool)

/-- The signals counted are those of the strategy on the bars handed to it. -/
theorem prismSignals_eq (length : BarLength) (packets : List TradePacket) :
    (liveAfter length opened packets).prismSignals =
      (strategySignals (engineAfter length packets).strategyBars).length := by
  have acts := liveAfter_acts length opened packets
  rw [acts.counted, acts.calls, List.length_map, liveAfter_world]

/-- Every trade was opened by a signal of its own. -/
theorem opened_le_signals (length : BarLength) (before later : List TradePacket) :
    (liveAfter length opened (before ++ later)).tradeManager.nextTradeId +
        (liveAfter length opened before).prismSignals ≤
      (liveAfter length opened before).tradeManager.nextTradeId +
        (liveAfter length opened (before ++ later)).prismSignals := by
  induction later using List.reverseRecOn with
  | nil => rw [List.append_nil]
  | append_singleton later p ih =>
      rw [← List.append_assoc, liveAfter_snoc]
      generalize liveAfter length opened (before ++ later) = s at *
      have kept := onPrice_nextTradeId s.tradeManager p.price
      by_cases rises : s.Rises p
      · have effect :=
          (s.tradeManager.onPrice p.price).onSignal_effect (s.world.onTrade p).lastSignal
        rw [LiveState.processPacket_rises s p rises]
        dsimp only
        generalize (s.tradeManager.onPrice p.price).onSignal _ = next at *
        cases effect with
        | ignored => omega
        | opens =>
            change (s.tradeManager.onPrice p.price).nextTradeId + 1 + _ ≤ _
            omega
      · rw [LiveState.processPacket_quiet s p rises]
        dsimp only
        omega

/-- A stretch of a run from `s` to `t`. -/
structure Paced (s t : LiveState) : Prop where
  warm : 0 < t.prismSignals → 6 * t.prismSignals + 6 ≤ t.world.delivered.length
  bars : 6 * t.prismSignals + s.world.delivered.length ≤
    6 * s.prismSignals + t.world.delivered.length + 5
  time : s.world.prism.hasCurrentBar = true →
    60 * 10 ^ 9 * t.prismSignals + s.world.prism.currentBarStartNs.toNat ≤
      60 * 10 ^ 9 * s.prismSignals + t.world.prism.currentBarStartNs.toNat + 50 * 10 ^ 9
  trades : t.tradeManager.nextTradeId + s.prismSignals ≤
    s.tradeManager.nextTradeId + t.prismSignals

/-- While exchange times never go back, no stretch of a run has more signals than one for every
sixty seconds and one more, and no more trades than signals. -/
theorem signal_rate (before later : List TradePacket) (ordered : InTimeOrder (before ++ later)) :
    Paced (liveAfter prismBarSeconds opened before)
      (liveAfter prismBarSeconds opened (before ++ later)) := by
  have trades := opened_le_signals opened prismBarSeconds before later
  have signals := prismSignals_eq opened prismBarSeconds before
  have signals' := prismSignals_eq opened prismBarSeconds (before ++ later)
  have last := (strategyAfter_remembers
    (engineAfter prismBarSeconds (before ++ later)).strategyBars).last_le
  have warm := strategySignals_warm (engineAfter prismBarSeconds (before ++ later)).strategyBars
  have moves := @current_moves_on prismBarSeconds before later ordered
  have size (packets : List TradePacket) :
      (engineAfter prismBarSeconds packets).strategyBars.length =
        (engineAfter prismBarSeconds packets).delivered.length := List.length_map _
  obtain ⟨more, extended⟩ := strategyBars_grow (engineAfter prismBarSeconds before) later
  rw [engineAfter, ← Mealy.after_append, ← engineAfter, ← engineAfter] at extended
  have stretch :=
    strategySignals_stretch (engineAfter prismBarSeconds before).strategyBars more
  rw [extended, ← signals, ← signals'] at stretch
  rw [← signals'] at warm
  have span : prismBarSeconds.span = 10 ^ 10 := rfl
  rw [span] at moves
  have longer : (engineAfter prismBarSeconds before).delivered.length ≤
      (engineAfter prismBarSeconds (before ++ later)).delivered.length := by
    rw [← size, ← size, ← extended, List.length_append]
    omega
  rw [size] at last stretch
  have bars : 6 * (liveAfter prismBarSeconds opened (before ++ later)).prismSignals +
      (engineAfter prismBarSeconds before).delivered.length ≤
      6 * (liveAfter prismBarSeconds opened before).prismSignals +
        (engineAfter prismBarSeconds (before ++ later)).delivered.length + 5 := by
    rcases stretch with same | paced
    · omega
    · omega
  refine ⟨fun some => ?_, ?_, fun building => ?_, trades⟩
  · rw [liveAfter_world]
    rcases warm with none | paced
    · rw [none] at signals'
      exact absurd signals' some.ne'
    · omega
  · rw [liveAfter_world, liveAfter_world]
    exact bars
  · rw [liveAfter_world] at building
    obtain ⟨_, reached⟩ := moves building
    rw [liveAfter_world, liveAfter_world]
    omega

/-- Behind its first packet the run of `quietStretch` is in order and signals once. -/
theorem quietStretch_paced :
    InTimeOrder quietStretch ∧
      (liveAfter prismBarSeconds true (quietStretch.take 1)).world.prism.hasCurrentBar = true ∧
      (liveAfter prismBarSeconds true (quietStretch.take 1)).prismSignals = 0 ∧
      (liveAfter prismBarSeconds true quietStretch).prismSignals = 1 ∧
      Paced (liveAfter prismBarSeconds true (quietStretch.take 1))
        (liveAfter prismBarSeconds true quietStretch) := by
  have ordered : InTimeOrder (quietStretch.take 1 ++ quietStretch.drop 1) := by
    unfold InTimeOrder
    decide +kernel
  have paced := signal_rate true (quietStretch.take 1) (quietStretch.drop 1) ordered
  rw [List.take_append_drop] at ordered paced
  exact ⟨ordered, by decide +kernel, by decide +kernel, by decide +kernel, paced⟩

end Live

end PrismPipeline.Live
