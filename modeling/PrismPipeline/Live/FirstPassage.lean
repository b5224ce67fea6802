import PrismPipeline.Live.TradeOutcome
import PrismPipeline.Series.FirstEvent

/-!
# A trade ends at the first passage

The manager moves the stop inside the call that then tests it.  Seen from the price
path alone, a trade with ordered levels ends at the first price beyond target 2, at
the initial stop before target 1 was reached, or at the entry afterwards.
-/

namespace PrismPipeline.Live

open PrismPipeline.Series

/-- Levels in the order of a long trade. -/
structure Ordered (signal : PrismSignal) : Prop where
  stop_lt_entry : signal.stopLoss < signal.entryPrice
  entry_lt_target1 : signal.entryPrice < signal.target1
  target1_lt_target2 : signal.target1 < signal.target2

/-- Levels as the strategy places them are in order. -/
theorem Placed.ordered {signal : PrismSignal} (placed : Placed signal) : Ordered signal := by
  obtain ⟨stop_lt, target1_eq, target2_eq⟩ := placed
  refine ⟨stop_lt, ?_, ?_⟩
  · rw [target1_eq]
    linarith
  · rw [target1_eq, target2_eq]
    linarith

/-- The price path has reached target 1. -/
def Reached (signal : PrismSignal) (path : List ℚ) : Prop :=
  ∃ x ∈ path, signal.target1 ≤ x

instance (signal : PrismSignal) (path : List ℚ) : Decidable (Reached signal path) :=
  inferInstanceAs (Decidable (∃ x ∈ path, _))

/-- After the prices `earlier`, a price leaves the range of the trade. -/
def Leaves (signal : PrismSignal) (earlier : List ℚ) (price : ℚ) : ExitReason → Prop
  | .target2Hit => signal.target2 ≤ price
  | .stopLoss => price ≤ signal.stopLoss ∧ ¬ Reached signal earlier
  | .breakevenStop => price ≤ signal.entryPrice ∧ Reached signal earlier

instance (signal : PrismSignal) (earlier : List ℚ) (price : ℚ) :
    ∀ reason, Decidable (Leaves signal earlier price reason)
  | .target2Hit => inferInstanceAs (Decidable (_ ≤ _))
  | .stopLoss => inferInstanceAs (Decidable (_ ∧ _))
  | .breakevenStop => inferInstanceAs (Decidable (_ ∧ _))

namespace TradeManager

variable (m : TradeManager) (signal : PrismSignal)

/-- The open trade of a price path that has not left the range. -/
def pathTrade (path : List ℚ) : ManagedTrade :=
  { m.openedTrade signal with
    target1Hit := decide (Reached signal path)
    stopLoss := if Reached signal path then signal.entryPrice else signal.stopLoss }

/-- The manager while the price path stays in the range. -/
def holding (path : List ℚ) : TradeManager :=
  { m.openTrade signal with trade := m.pathTrade signal path }

/-- The manager once a price has left the range. -/
def exited (earlier : List ℚ) (price : ℚ) (reason : ExitReason) : TradeManager :=
  (m.holding signal (earlier ++ [price])).closeTrade price reason

theorem holding_nil : m.holding signal [] = m.openTrade signal := by
  have never : ¬ Reached signal [] := by simp [Reached]
  unfold holding pathTrade
  rw [decide_eq_false never, if_neg never]
  rfl

theorem reached_snoc (path : List ℚ) (price : ℚ) :
    Reached signal (path ++ [price]) ↔ Reached signal path ∨ signal.target1 ≤ price := by
  simp [Reached, or_and_right, exists_or]

/-- The target 1 test files one more price of the path. -/
theorem pathTrade_touchTarget1 (path : List ℚ) (price : ℚ) :
    (m.pathTrade signal path).touchTarget1 price = m.pathTrade signal (path ++ [price]) := by
  have files := reached_snoc signal path price
  have guard : ¬ (m.pathTrade signal path).target1Hit ∧
      (m.pathTrade signal path).target1 ≤ price ↔
      ¬ Reached signal path ∧ signal.target1 ≤ price := by
    simp [pathTrade, openedTrade]
  unfold ManagedTrade.touchTarget1
  by_cases touched : ¬ Reached signal path ∧ signal.target1 ≤ price
  · rw [if_pos (guard.mpr touched)]
    unfold pathTrade
    have now : Reached signal (path ++ [price]) := files.mpr (Or.inr touched.2)
    rw [decide_eq_true now, if_pos now]
    rfl
  · rw [if_neg (mt guard.mp touched)]
    have same : Reached signal (path ++ [price]) ↔ Reached signal path := by
      rw [files]
      tauto
    unfold pathTrade
    simp only [same]

theorem holding_touched (path : List ℚ) (price : ℚ) :
    (m.holding signal path).touched price = m.holding signal (path ++ [price]) := by
  unfold touched holding
  rw [pathTrade_touchTarget1]

variable {m signal}

/-- Below target 2 a price leaves the range exactly at the stop as it stands by now, for
the reason this stop gives. -/
theorem leaves_iff_stopped (ordered : Ordered signal) {path : List ℚ} {price : ℚ}
    (below : price < signal.target2) (reason : ExitReason) :
    Leaves signal path price reason ↔
      price ≤ (m.pathTrade signal (path ++ [price])).stopLoss ∧
        stopReason (m.pathTrade signal (path ++ [price])) = reason := by
  obtain ⟨stop_lt_entry, entry_lt_target1, _⟩ := ordered
  have files := reached_snoc signal path price
  by_cases hit : Reached signal (path ++ [price])
  · have stop : (m.pathTrade signal (path ++ [price])).stopLoss = signal.entryPrice := if_pos hit
    have why : stopReason (m.pathTrade signal (path ++ [price])) = .breakevenStop :=
      if_pos (decide_eq_true hit)
    -- A price at the entry or below it cannot be the one that reached target 1.
    have earlier : price ≤ signal.entryPrice → Reached signal path := by
      intro stopped
      rcases files.mp hit with earlier | now
      · exact earlier
      · linarith
    rw [stop, why]
    cases reason with
    | target2Hit => exact iff_of_false (not_le.mpr below) fun same => ExitReason.noConfusion same.2
    | stopLoss =>
        refine iff_of_false ?_ fun same => ExitReason.noConfusion same.2
        rintro ⟨stopped, missed⟩
        exact missed (earlier (stopped.trans stop_lt_entry.le))
    | breakevenStop =>
        constructor
        · rintro ⟨stopped, _⟩
          exact ⟨stopped, rfl⟩
        · rintro ⟨stopped, _⟩
          exact ⟨stopped, earlier stopped⟩
  · have stop : (m.pathTrade signal (path ++ [price])).stopLoss = signal.stopLoss := if_neg hit
    have why : stopReason (m.pathTrade signal (path ++ [price])) = .stopLoss :=
      if_neg (by simp [pathTrade, hit])
    have never : ¬ Reached signal path := fun earlier => hit (files.mpr (Or.inl earlier))
    rw [stop, why]
    cases reason with
    | target2Hit => exact iff_of_false (not_le.mpr below) fun same => ExitReason.noConfusion same.2
    | stopLoss =>
        constructor
        · rintro ⟨stopped, _⟩
          exact ⟨stopped, rfl⟩
        · rintro ⟨stopped, _⟩
          exact ⟨stopped, never⟩
    | breakevenStop =>
        exact iff_of_false (fun leaves => never leaves.2) fun same => ExitReason.noConfusion same.2

/-- A price on the open trade ends it exactly when it leaves the range of the path. -/
theorem holding_onPrice (ordered : Ordered signal) (path : List ℚ) (price : ℚ) :
    (∃ reason, Leaves signal path price reason ∧
      (m.holding signal path).onPrice price = m.exited signal path price reason) ∨
    (∀ reason, ¬ Leaves signal path price reason) ∧
      (m.holding signal path).onPrice price = m.holding signal (path ++ [price]) := by
  have effect := (m.holding signal path).onPrice_effect price
  have filed := m.pathTrade_touchTarget1 signal path price
  have target2 : (m.holding signal path).trade.target2 = signal.target2 := rfl
  have trade : (m.holding signal path).trade = m.pathTrade signal path := rfl
  generalize (m.holding signal path).onPrice price = next at *
  cases effect with
  | flat isFlat => exact absurd isFlat PositionState.noConfusion
  | holds _ below above =>
      rw [trade, filed] at above
      rw [target2] at below
      refine Or.inr ⟨fun reason leaves => ?_, m.holding_touched signal path price⟩
      exact absurd ((leaves_iff_stopped ordered below reason).mp leaves).1 (not_le.mpr above)
  | wins _ reached =>
      refine Or.inl ⟨.target2Hit, reached, ?_⟩
      rw [holding_touched]
      rfl
  | stops _ below stopped =>
      rw [trade, filed] at stopped ⊢
      rw [target2] at below
      refine Or.inl ⟨_, (leaves_iff_stopped ordered below _).mpr ⟨stopped, rfl⟩, ?_⟩
      rw [holding_touched]
      rfl

/-- A stop of either kind lies below target 2. -/
theorem leaves_below (ordered : Ordered signal) {path : List ℚ} {price : ℚ} {reason : ExitReason}
    (leaves : Leaves signal path price reason) (isStop : reason ≠ .target2Hit) :
    price < signal.target2 := by
  obtain ⟨stop_lt_entry, entry_lt_target1, target1_lt_target2⟩ := ordered
  cases reason with
  | target2Hit => exact absurd rfl isStop
  | stopLoss => linarith [leaves.1]
  | breakevenStop => linarith [leaves.1]

/-- A price leaves the range in one way only. -/
theorem leaves_unique (ordered : Ordered signal) {path : List ℚ} {price : ℚ}
    {first second : ExitReason} (one : Leaves signal path price first)
    (other : Leaves signal path price second) : first = second := by
  have won : Leaves signal path price .target2Hit → first = .target2Hit ∧ second = .target2Hit := by
    intro (reached : signal.target2 ≤ price)
    constructor
    · by_contra isStop
      exact absurd reached (not_le.mpr (leaves_below ordered one isStop))
    · by_contra isStop
      exact absurd reached (not_le.mpr (leaves_below ordered other isStop))
  cases first with
  | target2Hit => exact (won one).2.symm
  | stopLoss =>
      cases second with
      | target2Hit => exact (won other).1
      | stopLoss => rfl
      | breakevenStop => exact absurd other.2 one.2
  | breakevenStop =>
      cases second with
      | target2Hit => exact (won other).1
      | stopLoss => exact absurd one.2 other.2
      | breakevenStop => rfl

/-- The manager waits for the price path to leave the range. -/
theorem waitsForPassage (ordered : Ordered signal) :
    WaitsFor (Leaves signal) onPrice (m.holding signal) (m.exited signal) where
  holds := by
    intro path price still
    rcases holding_onPrice (m := m) ordered path price with ⟨reason, leaves, _⟩ | ⟨_, holds⟩
    · exact absurd leaves (still reason)
    · exact holds
  leaves := by
    intro path price reason leaves
    rcases holding_onPrice (m := m) ordered path price with ⟨other, leaves', exits⟩ | ⟨still, _⟩
    · rw [leaves_unique ordered leaves leaves']
      exact exits
    · exact absurd leaves (still reason)
  stays := by
    intro path price reason later
    exact if_pos (by simp [exited, closeTrade])

/-! ## The stop -/

/-- A price leaves the stop or raises it to the entry. -/
theorem onPrice_raises {m : TradeManager} (below : m.trade.stopLoss ≤ m.trade.entryPrice)
    (price : ℚ) :
    m.trade.stopLoss ≤ (m.onPrice price).trade.stopLoss ∧
      (m.onPrice price).trade.stopLoss ≤ (m.onPrice price).trade.entryPrice := by
  have touched : m.trade.stopLoss ≤ (m.trade.touchTarget1 price).stopLoss ∧
      (m.trade.touchTarget1 price).stopLoss ≤ (m.trade.touchTarget1 price).entryPrice := by
    unfold ManagedTrade.touchTarget1
    split
    · exact ⟨below, le_rfl⟩
    · exact ⟨le_rfl, below⟩
  have effect := m.onPrice_effect price
  generalize m.onPrice price = next at *
  cases effect with
  | flat => exact ⟨le_rfl, below⟩
  | holds | wins | stops => exact touched

theorem foldl_onPrice_raises {m : TradeManager} (below : m.trade.stopLoss ≤ m.trade.entryPrice)
    (prices : List ℚ) : m.trade.stopLoss ≤ (prices.foldl onPrice m).trade.stopLoss ∧
      (prices.foldl onPrice m).trade.stopLoss ≤ (prices.foldl onPrice m).trade.entryPrice := by
  induction prices generalizing m with
  | nil => exact ⟨le_rfl, below⟩
  | cons price rest ih =>
      obtain ⟨raised, still⟩ := onPrice_raises below price
      obtain ⟨later, last⟩ := ih still
      exact ⟨raised.trans later, last⟩

end TradeManager

/-- The manager after a signal and the prices that follow it. -/
def afterPrices (m : TradeManager) (signal : PrismSignal) (prices : List ℚ) : TradeManager :=
  prices.foldl TradeManager.onPrice (m.onSignal signal)

theorem afterPrices_opened {m : TradeManager} {signal : PrismSignal} (flat : m.state = .flat)
    (active : signal.active = true) (ordered : Ordered signal) (prices : List ℚ) :
    afterPrices m signal prices = prices.foldl TradeManager.onPrice (m.holding signal []) := by
  have risk : ¬ signal.entryPrice - signal.stopLoss ≤ 0 :=
    not_le.mpr (sub_pos.mpr ordered.stop_lt_entry)
  unfold afterPrices TradeManager.onSignal
  rw [if_neg (not_not.mpr active), if_neg (not_not.mpr flat), if_neg risk, m.holding_nil]

theorem afterPrices_stop_le {m : TradeManager} {signal : PrismSignal} (flat : m.state = .flat)
    (active : signal.active = true) (ordered : Ordered signal) {earlier prices : List ℚ}
    (isPrefix : earlier <+: prices) :
    (afterPrices m signal earlier).trade.stopLoss ≤
      (afterPrices m signal prices).trade.stopLoss := by
  obtain ⟨later, rfl⟩ := isPrefix
  have initial : (m.holding signal []).trade.stopLoss ≤ (m.holding signal []).trade.entryPrice := by
    rw [m.holding_nil]
    exact ordered.stop_lt_entry.le
  rw [afterPrices_opened flat active ordered, afterPrices_opened flat active ordered,
    List.foldl_append]
  exact (TradeManager.foldl_onPrice_raises
    (TradeManager.foldl_onPrice_raises initial earlier).2 later).1

/-- Every signal of the strategy has ordered levels.  A trade opened with such levels is
closed at the first price that leaves the range of the price path, at that price and
for that reason; until then it stays open with the stop at its first place or, once
target 1 was reached, at the entry; and the stop never moves down. -/
theorem exit_is_first_passage {m : TradeManager} {signal : PrismSignal} (flat : m.state = .flat)
    (active : signal.active = true) (ordered : Ordered signal) (prices : List ℚ) :
    (∀ bars, (strategyAfter bars).hasSignal = true →
      Ordered (strategyAfter bars).currentSignal.activated) ∧
    (∀ before price later reason, prices = before ++ price :: later →
      FirstEvent (Leaves signal) before price reason →
      (afterPrices m signal prices).state = .flat ∧
      ∃ t, (afterPrices m signal prices).closedTrades = m.closedTrades ++ [t] ∧
        t.tradeId = m.nextTradeId ∧ t.entryPrice = signal.entryPrice ∧ t.closed = true ∧
        t.exitPrice = price ∧ t.exitReason = some reason) ∧
    (Quiet (Leaves signal) prices →
      (afterPrices m signal prices).state = .longOpen ∧
      (afterPrices m signal prices).closedTrades = m.closedTrades ∧
      (afterPrices m signal prices).trade.tradeId = m.nextTradeId ∧
      (afterPrices m signal prices).trade.stopLoss =
        if ∃ x ∈ prices, signal.target1 ≤ x then signal.entryPrice else signal.stopLoss) ∧
    ∀ earlier, earlier <+: prices →
      (afterPrices m signal earlier).trade.stopLoss ≤
        (afterPrices m signal prices).trade.stopLoss := by
  have waits := TradeManager.waitsForPassage (m := m) ordered
  refine ⟨fun bars signalled => (strategyAfter_placed signalled).ordered, ?_, ?_, ?_⟩
  · rintro before price later reason rfl first
    rw [afterPrices_opened flat active ordered, waits.of_firstEvent first later]
    exact ⟨rfl, _, rfl, rfl, rfl, rfl, rfl, rfl⟩
  · intro quiet
    rw [afterPrices_opened flat active ordered, waits.of_quiet quiet]
    exact ⟨rfl, rfl, rfl, rfl⟩
  · intro earlier isPrefix
    exact afterPrices_stop_le flat active ordered isPrefix

/-- A signal at 100 with its stop at 98 and the targets at 103 and 105. -/
def sampleSignal : PrismSignal :=
  { active := true, entryPrice := 100, stopLoss := 98, target1 := 103, target2 := 105 }

/-- A price above target 1, and then one below the entry. -/
theorem sampleSignal_leaves :
    FirstEvent (Leaves sampleSignal) [101, 104] 99.5 .breakevenStop where
  quiet := by
    have first : Quiet (Leaves sampleSignal) ([] ++ [101]) := by
      apply quiet_snoc quiet_nil
      intro kind
      cases kind <;> decide +kernel
    apply quiet_snoc first
    intro kind
    cases kind <;> decide +kernel
  occurs := by decide +kernel

theorem sampleSignal_first_passage :
    (afterPrices (.fresh true) sampleSignal [101, 104, 99.5]).state = .flat :=
  ((@exit_is_first_passage (.fresh true) sampleSignal rfl rfl
    ⟨by decide +kernel, by decide +kernel, by decide +kernel⟩ [101, 104, 99.5]).2.1
      [101, 104] 99.5 [] .breakevenStop rfl sampleSignal_leaves).1

end PrismPipeline.Live
