import PrismPipeline.Live.Engine
import PrismPipeline.Series.Segments
import PrismPipeline.Series.WeightedMean

/-!
# The bars partition the accepted trades

The engine keeps one bar open and closes it when a trade of another bucket
arrives.  Compared with the batch grouping of all accepted trades, the bars it
has handed on are the finished runs and its current bar is the last one.
-/

namespace PrismPipeline.Live

open PrismPipeline.Machine PrismPipeline.Series

/-- A bar that sums up a run of trades. -/
structure SumsUp (run : List TradePacket) (bar : PrismBar) : Prop where
  open_eq : run.head?.map TradePacket.price = some bar.openPrice
  close_eq : run.getLast?.map TradePacket.price = some bar.close
  high_greatest : IsGreatest {x | ∃ trade ∈ run, x = trade.price} bar.high
  low_least : IsLeast {x | ∃ trade ∈ run, x = trade.price} bar.low
  volume_eq : bar.volume = totalWeight TradePacket.volume run
  vwap_eq : bar.vwap = weightedMean TradePacket.price TradePacket.volume run

theorem sumsUp_startNewBar {trade : TradePacket} (traded : 0 < trade.volume) :
    SumsUp [trade] (startNewBar trade) where
  open_eq := rfl
  close_eq := rfl
  high_greatest := ⟨⟨trade, List.mem_cons_self, rfl⟩, by simp [startNewBar]⟩
  low_least := ⟨⟨trade, List.mem_cons_self, rfl⟩, by simp [startNewBar]⟩
  volume_eq := by simp [totalWeight, startNewBar]
  vwap_eq := by
    simp only [weightedMean, weightedTotal, totalWeight, List.map_singleton, List.sum_singleton]
    exact (mul_div_cancel_right₀ _ traded.ne').symm

/-- The average true range is no part of what a bar sums up. -/
theorem SumsUp.withAtr {run : List TradePacket} {bar : PrismBar} (sums : SumsUp run bar)
    (atr : ℚ) : SumsUp run { bar with atr14 := atr } :=
  ⟨sums.open_eq, sums.close_eq, sums.high_greatest, sums.low_least, sums.volume_eq, sums.vwap_eq⟩

section Update

variable {run : List TradePacket} {bar : PrismBar} {trade : TradePacket}

theorem SumsUp.nonempty (sums : SumsUp run bar) : run ≠ [] := by
  rintro rfl
  exact absurd sums.open_eq (by simp)

/-- The prices of a run after one more trade. -/
theorem prices_snoc (run : List TradePacket) (trade : TradePacket) :
    {x | ∃ t ∈ run ++ [trade], x = t.price} =
      insert trade.price {x | ∃ t ∈ run, x = t.price} := by
  ext x
  constructor
  · rintro ⟨t, member, rfl⟩
    rcases List.mem_append.mp member with old | new
    · exact Or.inr ⟨t, old, rfl⟩
    · exact Or.inl (congrArg _ (List.mem_singleton.mp new))
  · rintro (rfl | ⟨t, member, rfl⟩)
    · exact ⟨trade, by simp, rfl⟩
    · exact ⟨t, List.mem_append_left _ member, rfl⟩

/-- One more trade in the bar. -/
theorem SumsUp.update (sums : SumsUp run bar) (positive : ∀ t ∈ run, 0 < t.volume)
    (traded : 0 < trade.volume) : SumsUp (run ++ [trade]) (updateCurrentBar bar trade) := by
  have total := totalWeight_pos sums.nonempty positive
  have more : 0 < bar.volume + trade.volume := by
    rw [sums.volume_eq]
    exact add_pos total traded
  constructor
  · rw [List.head?_append_of_ne_nil _ sums.nonempty]
    exact sums.open_eq
  · rw [List.getLast?_concat]
    rfl
  · have high : (updateCurrentBar bar trade).high = max trade.price bar.high := max_comm _ _
    rw [prices_snoc, high]
    exact sums.high_greatest.insert trade.price
  · have low : (updateCurrentBar bar trade).low = min trade.price bar.low := min_comm _ _
    rw [prices_snoc, low]
    exact sums.low_least.insert trade.price
  · rw [totalWeight_snoc, ← sums.volume_eq]
    rfl
  · rw [weightedMean_snoc total.ne', ← sums.volume_eq, ← sums.vwap_eq]
    exact if_pos more

/-- The volume weighted price of a bar is one of its prices' averages. -/
theorem SumsUp.vwap_mem_Icc (sums : SumsUp run bar) (positive : ∀ t ∈ run, 0 < t.volume) :
    bar.low ≤ bar.vwap ∧ bar.vwap ≤ bar.high := by
  rw [sums.vwap_eq]
  exact weightedMean_mem_Icc sums.nonempty positive
    (fun t member => sums.low_least.2 ⟨t, member, rfl⟩)
    (fun t member => sums.high_greatest.2 ⟨t, member, rfl⟩)

end Update

/-! ## Bars and runs -/

/-- The accepted trades, grouped by bucket in order of arrival. -/
def bucketRuns (length : BarLength) (packets : List TradePacket) : List (List TradePacket) :=
  runs length.bucket (packets.filter (Accepted ·))

/-- A bar together with the start of its bucket describes a run. -/
def Describes (length : BarLength) (run : List TradePacket) (delivered : DeliveredBar) : Prop :=
  SumsUp run delivered.bar ∧ ∀ trade ∈ run, length.tradeBarStart trade = delivered.startNs

namespace EngineWorld

/-- The current bar, when there is one. -/
def openBars (w : EngineWorld) : List DeliveredBar :=
  if w.prism.hasCurrentBar then [⟨w.prism.currentBarStartNs, w.prism.currentBar⟩] else []

/-- The closed bars followed by the current one. -/
def allBars (w : EngineWorld) : List DeliveredBar := w.delivered ++ w.openBars

@[simp] theorem openBars_openBar (w : EngineWorld) (start : UInt64) (trade : TradePacket) :
    (w.openBar start trade).openBars = [⟨start, startNewBar trade⟩] := rfl

@[simp] theorem delivered_openBar (w : EngineWorld) (start : UInt64) (trade : TradePacket) :
    (w.openBar start trade).delivered = w.delivered := rfl

@[simp] theorem delivered_joinBar (w : EngineWorld) (trade : TradePacket) :
    (w.joinBar trade).delivered = w.delivered := rfl

theorem openBars_of_building {w : EngineWorld} (building : w.prism.hasCurrentBar = true) :
    w.openBars = [⟨w.prism.currentBarStartNs, w.prism.currentBar⟩] := if_pos building

end EngineWorld

/-- The bars of the engine against the runs of the trades it has read. -/
structure Tracks (length : BarLength) (packets : List TradePacket) (w : EngineWorld) : Prop where
  sameLength : w.prism.barSeconds = length
  described : List.Forall₂ (Describes length) (bucketRuns length packets) w.allBars
  untouched : w.prism.hasCurrentBar = false → w.delivered = []

theorem tracks_fresh (length : BarLength) : Tracks length [] (.fresh length) where
  sameLength := rfl
  described := List.Forall₂.nil
  untouched := fun _ => rfl

section Runs

variable {length : BarLength} {packets : List TradePacket} {trade : TradePacket}

theorem positive_of_mem_run {run : List TradePacket} (member : run ∈ bucketRuns length packets) :
    ∀ t ∈ run, 0 < t.volume := by
  intro t inside
  have accepted : t ∈ packets.filter (Accepted ·) := by
    rw [← flatten_runs length.bucket (packets.filter (Accepted ·))]
    exact List.mem_flatten_of_mem member inside
  exact (of_decide_eq_true (List.mem_filter.mp accepted).2).2.1

theorem bucketRuns_refused (refused : ¬ Accepted trade) :
    bucketRuns length (packets ++ [trade]) = bucketRuns length packets := by
  unfold bucketRuns
  rw [List.filter_append, List.filter_singleton]
  simp [refused]

theorem bucketRuns_accepted (accepted : Accepted trade) :
    bucketRuns length (packets ++ [trade]) =
      runs length.bucket (packets.filter (Accepted ·) ++ [trade]) := by
  unfold bucketRuns
  rw [List.filter_append, List.filter_singleton]
  simp [accepted]

/-- The last run is the one the current bar describes. -/
theorem Tracks.building {w : EngineWorld} (tracks : Tracks length packets w)
    (building : w.prism.hasCurrentBar = true) :
    ∃ closed run, bucketRuns length packets = closed ++ [run] ∧
      List.Forall₂ (Describes length) closed w.delivered ∧
      Describes length run ⟨w.prism.currentBarStartNs, w.prism.currentBar⟩ := by
  have described := tracks.described
  rw [EngineWorld.allBars, EngineWorld.openBars_of_building building] at described
  exact forall₂_snoc_right described

theorem describes_startNewBar (accepted : Accepted trade) :
    Describes length [trade] ⟨length.tradeBarStart trade, startNewBar trade⟩ :=
  ⟨sumsUp_startNewBar accepted.2.1, fun t member => by rw [List.mem_singleton.mp member]⟩

section Trade

variable {w : EngineWorld} (tracks : Tracks length packets w) (accepted : Accepted trade)

include tracks accepted

/-- The first accepted trade opens the first bar. -/
theorem Tracks.opens (empty : w.prism.hasCurrentBar = false) :
    Tracks length (packets ++ [trade]) (w.openBar (length.tradeBarStart trade) trade) := by
  have noBars : w.allBars = [] := by
    simp [EngineWorld.allBars, EngineWorld.openBars, empty, tracks.untouched empty]
  have noRuns : bucketRuns length packets = [] :=
    List.forall₂_nil_right_iff.mp (noBars ▸ tracks.described)
  have noTrades : packets.filter (Accepted ·) = [] := List.splitBy_eq_nil.mp noRuns
  refine ⟨tracks.sameLength, ?_, fun absent => Bool.noConfusion absent⟩
  rw [bucketRuns_accepted accepted, noTrades, EngineWorld.allBars,
    EngineWorld.delivered_openBar, EngineWorld.openBars_openBar, tracks.untouched empty]
  exact .cons (describes_startNewBar accepted) .nil

/-- A trade of another bucket finishes the last run and starts one of its own. -/
theorem Tracks.switches (building : w.prism.hasCurrentBar = true)
    (other : length.tradeBarStart trade ≠ w.prism.currentBarStartNs) :
    Tracks length (packets ++ [trade])
      (w.closeCurrentBar.openBar (length.tradeBarStart trade) trade) := by
  obtain ⟨closed, run, eq, before, sums, starts⟩ := tracks.building building
  obtain ⟨atr, delivered⟩ := w.closeCurrentBar_delivered
  have differs : ∀ a ∈ run, length.bucket a ≠ length.bucket trade := by
    intro a member same
    rw [← length.tradeBarStart_eq_iff, starts a member] at same
    exact other same.symm
  have closing : Describes length run
      ⟨w.prism.currentBarStartNs, { w.prism.currentBar with atr14 := atr }⟩ :=
    ⟨sums.withAtr atr, starts⟩
  refine ⟨tracks.sameLength, ?_, fun absent => Bool.noConfusion absent⟩
  rw [bucketRuns_accepted accepted, runs_snoc_other eq differs, EngineWorld.allBars,
    EngineWorld.delivered_openBar, EngineWorld.openBars_openBar, delivered]
  exact List.rel_append (List.rel_append before (.cons closing .nil))
    (.cons (describes_startNewBar accepted) .nil)

/-- A trade of the current bucket joins the last run. -/
theorem Tracks.joins (building : w.prism.hasCurrentBar = true)
    (same : length.tradeBarStart trade = w.prism.currentBarStartNs) :
    Tracks length (packets ++ [trade]) (w.joinBar trade) := by
  obtain ⟨closed, run, eq, before, sums, starts⟩ := tracks.building building
  have bucket : ∀ a ∈ run, length.bucket a = length.bucket trade := by
    intro a member
    rw [← length.tradeBarStart_eq_iff, starts a member, ← same]
  have last : run ∈ bucketRuns length packets := eq ▸ List.mem_append_right _ List.mem_cons_self
  have joined : Describes length (run ++ [trade])
      ⟨w.prism.currentBarStartNs, updateCurrentBar w.prism.currentBar trade⟩ :=
    ⟨sums.update (positive_of_mem_run last) accepted.2.1,
      List.forall_mem_append.mpr ⟨starts, List.forall_mem_singleton.mpr same⟩⟩
  refine ⟨tracks.sameLength, ?_, fun absent => Bool.noConfusion (building.symm.trans absent)⟩
  rw [bucketRuns_accepted accepted, runs_snoc_same eq bucket, EngineWorld.allBars,
    EngineWorld.delivered_joinBar, EngineWorld.openBars_of_building (w := w.joinBar trade) building]
  exact List.rel_append before (.cons joined .nil)

end Trade

/-- One more trade keeps the bars in step with the runs. -/
theorem tracks_snoc {w : EngineWorld} (tracks : Tracks length packets w) :
    Tracks length (packets ++ [trade]) (w.onTrade trade) := by
  obtain rfl := tracks.sameLength
  have effect := w.onTrade_effect trade
  generalize w.onTrade trade = next at *
  cases effect with
  | ignored refused =>
      refine ⟨tracks.sameLength, ?_, tracks.untouched⟩
      rw [bucketRuns_refused refused]
      exact tracks.described
  | opens accepted empty => exact tracks.opens accepted empty
  | switches accepted building other => exact tracks.switches accepted building other
  | updates accepted building same => exact tracks.joins accepted building same

end Runs

theorem engineAfter_tracks (length : BarLength) (packets : List TradePacket) :
    Tracks length packets (engineAfter length packets) :=
  engineMachine.after_induction (Tracks length) (tracks_fresh length)
    (fun _ _ tracks => tracks_snoc tracks) packets

/-- The live bars are an exact partition of the accepted trades: closed bars and
current bar describe, one by one and in order, the maximal runs of accepted trades
of one bucket, and the runs joined together are the accepted trades. -/
theorem live_bars_partition (length : BarLength) (packets : List TradePacket) :
    List.Forall₂ (Describes length) (bucketRuns length packets)
      (engineAfter length packets).allBars ∧
    (bucketRuns length packets).flatten = packets.filter (Accepted ·) ∧
    (∀ run ∈ bucketRuns length packets, run ≠ [] ∧
      ∀ a ∈ run, ∀ b ∈ run, length.bucket a = length.bucket b) ∧
    ((bucketRuns length packets).IsChain fun first second =>
      ∀ a ∈ first, ∀ b ∈ second, length.bucket a ≠ length.bucket b) ∧
    ∀ d ∈ (engineAfter length packets).allBars, d.bar.low ≤ d.bar.vwap ∧ d.bar.vwap ≤ d.bar.high := by
  have described := (engineAfter_tracks length packets).described
  refine ⟨described, flatten_runs _ _, ?_, runs_boundary, ?_⟩
  · intro run member
    exact ⟨run_ne_nil member, fun a left b right => key_eq_of_mem_run member left right⟩
  · intro d member
    obtain ⟨run, inside, sums, _⟩ := forall₂_exists_left described member
    exact sums.vwap_mem_Icc (positive_of_mem_run inside)

end PrismPipeline.Live
