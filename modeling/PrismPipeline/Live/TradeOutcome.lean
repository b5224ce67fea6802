import Mathlib.Data.List.Count
import Mathlib.Tactic.Linarith
import Mathlib.Tactic.NormNum
import PrismPipeline.Live.Pipeline
import PrismPipeline.Live.StrategySignals

/-!
# Outcomes of the live trades

The strategy places the stop below the entry and the targets 1.5 and 2.5 risks above
it; the engine hands these levels over unchanged; and the manager's order of tests
then leaves three ways to close a trade.
-/

namespace PrismPipeline.Live

open PrismPipeline.Machine

/-! ## Levels -/

/-- Levels as the strategy places them. -/
structure Placed (signal : PrismSignal) : Prop where
  stop_lt : signal.stopLoss < signal.entryPrice
  target1_eq : signal.target1 =
    signal.entryPrice + 1.5 * (signal.entryPrice - signal.stopLoss)
  target2_eq : signal.target2 =
    signal.entryPrice + 2.5 * (signal.entryPrice - signal.stopLoss)

/-- Every signal of the strategy is placed. -/
theorem onNewBar_placed {s : PrismStrategy} {bar : Bar}
    (signalled : (s.onNewBar bar).hasSignal = true) :
    Placed (s.onNewBar bar).currentSignal.activated := by
  obtain ⟨_, _, _, range, accepted, signal, _⟩ := PrismStrategy.onNewBar_signal signalled
  have below := stopLevel_lt_low range
  have half := retestAccepted_upper_half accepted range
  rw [signal]
  refine ⟨?_, congrArg _ (mul_comm _ _), congrArg _ (mul_comm _ _)⟩
  change PrismStrategy.stopLevel bar < bar.close
  linarith

theorem strategyAfter_placed {bars : List Bar} (signalled : (strategyAfter bars).hasSignal = true) :
    Placed (strategyAfter bars).currentSignal.activated := by
  cases bars using List.reverseRecOn with
  | nil => exact absurd signalled Bool.false_ne_true
  | append_singleton earlier last =>
      rw [strategyAfter_snoc] at signalled ⊢
      exact onNewBar_placed signalled

/-- The engine hands the levels over unchanged. -/
theorem EngineWorld.Delivery.placed {w : EngineWorld} (delivery : w.Delivery)
    (signalled : w.hasSignal = true) : Placed w.lastSignal := by
  have level := delivery.hasSignal_eq
  have shown := delivery.shown
  rw [signalled] at level
  rw [if_pos level.symm] at shown
  unfold EngineWorld.lastSignal
  rw [shown]
  rw [delivery.strategy] at level ⊢
  exact strategyAfter_placed level.symm

/-- The levels of an open trade. -/
structure ManagedTrade.Levels (t : ManagedTrade) : Prop where
  risk_eq : t.initialRisk = t.entryPrice - t.initialStopLoss
  risk_pos : 0 < t.initialRisk
  target1_eq : t.target1 = t.entryPrice + 1.5 * t.initialRisk
  target2_eq : t.target2 = t.entryPrice + 2.5 * t.initialRisk

theorem Placed.levels {signal : PrismSignal} (placed : Placed signal) (m : TradeManager) :
    (m.openedTrade signal).Levels :=
  ⟨rfl, sub_pos.mpr placed.stop_lt, placed.target1_eq, placed.target2_eq⟩

/-! ## An open trade and the prices since it was opened -/

/-- What an open trade remembers of the prices it has seen. -/
structure FollowsPrices (since : List ℚ) (t : ManagedTrade) : Prop where
  hit_iff : t.target1Hit = true ↔ ∃ x ∈ since, t.target1 ≤ x
  stop_eq : t.stopLoss = if t.target1Hit then t.entryPrice else t.initialStopLoss

theorem followsPrices_opened (m : TradeManager) (signal : PrismSignal) :
    FollowsPrices [] (m.openedTrade signal) := by
  constructor
  · simp [TradeManager.openedTrade]
  · rfl

section Touch

variable {t : ManagedTrade} {since : List ℚ}

theorem ManagedTrade.Levels.touch (levels : t.Levels) (price : ℚ) :
    (t.touchTarget1 price).Levels := by
  obtain ⟨hit, stop, eq⟩ := TradeManager.touchTarget1_frame t price
  rw [eq]
  exact ⟨levels.risk_eq, levels.risk_pos, levels.target1_eq, levels.target2_eq⟩

theorem FollowsPrices.touch (follows : FollowsPrices since t) (price : ℚ) :
    FollowsPrices (since ++ [price]) (t.touchTarget1 price) := by
  obtain ⟨hit_iff, stop_eq⟩ := follows
  unfold ManagedTrade.touchTarget1
  split
  · next touched =>
      refine ⟨?_, rfl⟩
      exact iff_of_true rfl ⟨price, by simp, touched.2⟩
  · next untouched =>
      refine ⟨hit_iff.trans ⟨?_, ?_⟩, stop_eq⟩
      · rintro ⟨x, member, reached⟩
        exact ⟨x, List.mem_append_left _ member, reached⟩
      · rintro ⟨x, member, reached⟩
        rcases List.mem_append.mp member with old | new
        · exact ⟨x, old, reached⟩
        · rw [List.mem_singleton.mp new] at reached
          exact hit_iff.mp (not_not.mp fun fresh => untouched ⟨fresh, reached⟩)

end Touch

/-! ## Closing a trade -/

/-- What a trade closed for a reason has recorded, and what the prices since it was
opened did. -/
def Recorded (since : List ℚ) (t : ManagedTrade) : ExitReason → Prop
  | .target2Hit => 2.5 ≤ t.rMultiple
  | .stopLoss => (∀ x ∈ since ++ [t.exitPrice], x < t.target1) ∧ t.rMultiple ≤ -1
  | .breakevenStop => (∃ x ∈ since, t.target1 ≤ x) ∧ t.rMultiple = 0

/-- The class of a closed trade: its reason, what it has recorded and the counter it
went into. -/
structure OutcomeClass (reason : ExitReason) (t : ManagedTrade) (since : List ℚ)
    (before after : TradeManager) : Prop where
  exitReason : t.exitReason = some reason
  recorded : Recorded since t reason
  wins : after.wins = before.wins + if reason = .target2Hit then 1 else 0
  losses : after.losses = before.losses + if reason = .stopLoss then 1 else 0
  breakevens : after.breakevens = before.breakevens + if reason = .breakevenStop then 1 else 0

/-- A trade is in one class only. -/
theorem OutcomeClass.unique {first second : ExitReason} {t : ManagedTrade} {since : List ℚ}
    {before after : TradeManager} (one : OutcomeClass first t since before after)
    (other : OutcomeClass second t since before after) : first = second :=
  Option.some.inj (one.exitReason.symm.trans other.exitReason)

section Close

variable {m : TradeManager} {since : List ℚ} {price : ℚ} {reason : ExitReason}

theorem settle_rMultiple {t : ManagedTrade} (levels : t.Levels) (price : ℚ)
    (notBreakeven : reason ≠ .breakevenStop) :
    (t.settle price reason).rMultiple = (price - t.entryPrice) / t.initialRisk :=
  (if_neg notBreakeven).trans (if_pos levels.risk_pos)

/-- The counters follow the sign of the R multiple, so they follow the reason
wherever the reason decides the sign. -/
theorem closeTrade_class
    (wins : 0 < (m.trade.settle price reason).rMultiple ↔ reason = .target2Hit)
    (losses : (m.trade.settle price reason).rMultiple < 0 ↔ reason = .stopLoss)
    (recorded : Recorded since (m.trade.settle price reason) reason) :
    OutcomeClass reason (m.trade.settle price reason) since m (m.closeTrade price reason) := by
  refine ⟨rfl, recorded, ?_, ?_, ?_⟩
  · change (if _ then m.wins + 1 else m.wins) = _
    simp only [wins]
    split <;> rfl
  · change (if _ then m.losses + 1 else m.losses) = _
    simp only [losses]
    split <;> rfl
  · change (if _ ∨ _ then m.breakevens else m.breakevens + 1) = _
    simp only [wins, losses]
    cases reason <;> rfl

theorem close_target2 (levels : m.trade.Levels) (reached : m.trade.target2 ≤ price) :
    OutcomeClass .target2Hit (m.trade.settle price .target2Hit) since m
      (m.closeTrade price .target2Hit) := by
  have value : (m.trade.settle price .target2Hit).rMultiple = _ :=
    settle_rMultiple levels price (by decide)
  have high : 2.5 ≤ (m.trade.settle price .target2Hit).rMultiple := by
    rw [value, le_div_iff₀ levels.risk_pos]
    linarith [levels.target2_eq]
  refine closeTrade_class (iff_of_true ?_ rfl) (iff_of_false ?_ (by decide)) high
  · linarith
  · linarith

theorem close_stopLoss (levels : m.trade.Levels) (follows : FollowsPrices (since ++ [price]) m.trade)
    (missed : m.trade.target1Hit = false) (stopped : price ≤ m.trade.stopLoss) :
    OutcomeClass .stopLoss (m.trade.settle price .stopLoss) since m
      (m.closeTrade price .stopLoss) := by
  have value : (m.trade.settle price .stopLoss).rMultiple = _ :=
    settle_rMultiple levels price (by decide)
  have stop := follows.stop_eq
  rw [missed, if_neg Bool.false_ne_true] at stop
  have low : (m.trade.settle price .stopLoss).rMultiple ≤ -1 := by
    rw [value, div_le_iff₀ levels.risk_pos]
    linarith [levels.risk_eq]
  have never : ∀ x ∈ since ++ [price], x < m.trade.target1 := by
    intro x member
    by_contra reached
    have hit := follows.hit_iff.mpr ⟨x, member, not_lt.mp reached⟩
    exact Bool.false_ne_true (missed.symm.trans hit)
  refine closeTrade_class (iff_of_false ?_ (by decide)) (iff_of_true ?_ rfl) ⟨never, low⟩
  · linarith
  · linarith

/-- A stop at the entry can only be reached after target 1: the price that reaches
target 1 is above the entry. -/
theorem close_breakevenStop (levels : m.trade.Levels)
    (follows : FollowsPrices (since ++ [price]) m.trade)
    (hit : m.trade.target1Hit = true) (stopped : price ≤ m.trade.stopLoss) :
    OutcomeClass .breakevenStop (m.trade.settle price .breakevenStop) since m
      (m.closeTrade price .breakevenStop) := by
  have value : (m.trade.settle price .breakevenStop).rMultiple = 0 := rfl
  have stop := follows.stop_eq
  rw [hit, if_pos rfl] at stop
  have earlier : ∃ x ∈ since, m.trade.target1 ≤ x := by
    obtain ⟨x, member, reached⟩ := follows.hit_iff.mp hit
    rcases List.mem_append.mp member with old | new
    · exact ⟨x, old, reached⟩
    · rw [List.mem_singleton.mp new, levels.target1_eq] at reached
      have risk := levels.risk_pos
      exact absurd reached (by rw [not_le]; linarith)
  refine closeTrade_class (iff_of_false ?_ (by decide)) (iff_of_false ?_ (by decide))
    ⟨earlier, value⟩
  · rw [value]
    exact lt_irrefl 0
  · rw [value]
    exact lt_irrefl 0

theorem close_stop (levels : m.trade.Levels) (follows : FollowsPrices (since ++ [price]) m.trade)
    (stopped : price ≤ m.trade.stopLoss) :
    OutcomeClass (TradeManager.stopReason m.trade)
      (m.trade.settle price (TradeManager.stopReason m.trade)) since m
      (m.closeTrade price (TradeManager.stopReason m.trade)) := by
  unfold TradeManager.stopReason
  split
  · next hit => exact close_breakevenStop levels follows hit stopped
  · next missed => exact close_stopLoss levels follows (Bool.eq_false_iff.mpr missed) stopped

/-- The target 1 test leaves the counters as they are. -/
theorem OutcomeClass.of_touched {t : ManagedTrade} {next : TradeManager}
    (outcome : OutcomeClass reason t since (m.touched price) next) :
    OutcomeClass reason t since m next :=
  ⟨outcome.exitReason, outcome.recorded, outcome.wins, outcome.losses, outcome.breakevens⟩

/-- A price on an open trade: it stays open, or is closed in one of the classes. -/
theorem onPrice_outcome (price : ℚ) (isOpen : m.state = .longOpen) (levels : m.trade.Levels)
    (follows : FollowsPrices since m.trade) :
    m.onPrice price = m.touched price ∨
    ∃ reason, m.onPrice price = (m.touched price).closeTrade price reason ∧
      OutcomeClass reason ((m.touched price).trade.settle price reason) since m
        (m.onPrice price) := by
  have levelsNow : (m.touched price).trade.Levels := levels.touch price
  have followsNow : FollowsPrices (since ++ [price]) (m.touched price).trade :=
    follows.touch price
  have effect := m.onPrice_effect price
  generalize m.onPrice price = next at *
  cases effect with
  | flat isFlat => exact absurd (isFlat.symm.trans isOpen) (by decide)
  | holds => exact Or.inl rfl
  | wins _ reached =>
      rw [← TradeManager.touchTarget1_target2 m.trade price] at reached
      exact Or.inr ⟨_, rfl, (close_target2 levelsNow reached).of_touched⟩
  | stops _ _ stopped =>
      exact Or.inr ⟨_, rfl, (close_stop levelsNow followsNow stopped).of_touched⟩

end Close

/-! ## Counters -/

/-- The three counters are the numbers of trades closed for the three reasons. -/
structure Counts (m : TradeManager) : Prop where
  wins : m.wins = m.closedTrades.countP (·.exitReason = some .target2Hit)
  losses : m.losses = m.closedTrades.countP (·.exitReason = some .stopLoss)
  breakevens : m.breakevens = m.closedTrades.countP (·.exitReason = some .breakevenStop)

theorem Counts.close {m next : TradeManager} (counts : Counts m) {reason : ExitReason}
    {t : ManagedTrade} {since : List ℚ} (outcome : OutcomeClass reason t since m next)
    (booked : next.closedTrades = m.closedTrades ++ [t]) : Counts next := by
  have marked : ∀ other, t.exitReason = some other ↔ reason = other := fun other => by
    rw [outcome.exitReason, Option.some_inj]
  constructor
  · rw [outcome.wins, booked, List.countP_append, counts.wins, List.countP_singleton]
    simp only [decide_eq_true_eq, marked]
  · rw [outcome.losses, booked, List.countP_append, counts.losses, List.countP_singleton]
    simp only [decide_eq_true_eq, marked]
  · rw [outcome.breakevens, booked, List.countP_append, counts.breakevens, List.countP_singleton]
    simp only [decide_eq_true_eq, marked]

/-- Two managers with the same closed trades and counters. -/
structure SameBooks (m next : TradeManager) : Prop where
  closedTrades : next.closedTrades = m.closedTrades
  wins : next.wins = m.wins
  losses : next.losses = m.losses
  breakevens : next.breakevens = m.breakevens

theorem SameBooks.counts {m next : TradeManager} (same : SameBooks m next) (counts : Counts m) :
    Counts next := by
  obtain ⟨closedTrades, wins, losses, breakevens⟩ := same
  constructor
  · rw [wins, closedTrades, counts.wins]
  · rw [losses, closedTrades, counts.losses]
  · rw [breakevens, closedTrades, counts.breakevens]

theorem SameBooks.outcome {m next before : TradeManager} (same : SameBooks m next)
    {reason : ExitReason} {t : ManagedTrade} {since : List ℚ}
    (outcome : OutcomeClass reason t since before m) : OutcomeClass reason t since before next :=
  ⟨outcome.exitReason, outcome.recorded, same.wins.trans outcome.wins,
    same.losses.trans outcome.losses, same.breakevens.trans outcome.breakevens⟩

theorem onPrice_nextTradeId (m : TradeManager) (price : ℚ) :
    (m.onPrice price).nextTradeId = m.nextTradeId := by
  have effect := m.onPrice_effect price
  generalize m.onPrice price = next at *
  cases effect <;> rfl

/-! ## Runs -/

section Run

variable (length : BarLength) (opened : Bool)

/-- The manager after a sequence of packets. -/
def managerAt (packets : List TradePacket) : TradeManager :=
  (liveAfter length opened packets).tradeManager

/-- A packet is a price, and perhaps then a signal that opens a trade. -/
theorem managerAt_snoc (packets : List TradePacket) (p : TradePacket) :
    managerAt length opened (packets ++ [p]) =
      (managerAt length opened packets).onPrice p.price ∨
    ∃ signal, Placed signal ∧
      ((managerAt length opened packets).onPrice p.price).state = .flat ∧
      managerAt length opened (packets ++ [p]) =
        ((managerAt length opened packets).onPrice p.price).openTrade signal := by
  have delivery := (liveAfter_acts length opened packets).delivery.onTrade p
  unfold managerAt
  rw [liveAfter_snoc]
  generalize liveAfter length opened packets = s at *
  by_cases rises : s.Rises p
  · rw [LiveState.processPacket_rises s p rises]
    dsimp only
    have placed := delivery.placed rises.1
    have effect := (s.tradeManager.onPrice p.price).onSignal_effect (s.world.onTrade p).lastSignal
    generalize (s.tradeManager.onPrice p.price).onSignal (s.world.onTrade p).lastSignal = next at *
    cases effect with
    | ignored => exact Or.inl rfl
    | opens _ flat => exact Or.inr ⟨_, placed, flat, rfl⟩
  · rw [LiveState.processPacket_quiet s p rises]
    exact Or.inl rfl

/-- Opening a trade touches no book. -/
theorem managerAt_snoc_sameBooks (packets : List TradePacket) (p : TradePacket) :
    SameBooks ((managerAt length opened packets).onPrice p.price)
      (managerAt length opened (packets ++ [p])) := by
  rcases managerAt_snoc length opened packets p with same | ⟨signal, _, _, same⟩
  · rw [same]
    exact ⟨rfl, rfl, rfl, rfl⟩
  · rw [same]
    exact ⟨rfl, rfl, rfl, rfl⟩

/-- Packet `o`, after the packets `earlier`, opens the trade. -/
def OpenedBy (earlier : List TradePacket) (o : TradePacket) (t : ManagedTrade) : Prop :=
  (managerAt length opened earlier).nextTradeId = t.tradeId ∧
    (managerAt length opened (earlier ++ [o])).nextTradeId = t.tradeId + 1

/-- A trade that is open after `packets`, with the prices since it was opened. -/
def OpenSince (packets : List TradePacket) (t : ManagedTrade) : Prop :=
  ∃ earlier o since, packets = earlier ++ o :: since ∧ OpenedBy length opened earlier o t ∧
    FollowsPrices (since.map TradePacket.price) t ∧ t.Levels

/-- A trade opened by one packet of the run and closed by a later one, in exactly one
of the classes; `since` are the packets in between. -/
def ClosedWithin (packets : List TradePacket) (t : ManagedTrade) : Prop :=
  ∃ earlier o since p later, packets = earlier ++ o :: since ++ p :: later ∧
    OpenedBy length opened earlier o t ∧
    (managerAt length opened (earlier ++ o :: since ++ [p])).closedTrades =
      (managerAt length opened (earlier ++ o :: since)).closedTrades ++ [t] ∧
    t.exitPrice = p.price ∧
    ∃! reason, OutcomeClass reason t (since.map TradePacket.price)
      (managerAt length opened (earlier ++ o :: since))
      (managerAt length opened (earlier ++ o :: since ++ [p]))

/-- The trades of a run and the counters. -/
structure OutcomeInvariant (packets : List TradePacket) (m : TradeManager) : Prop where
  openSince : m.state = .longOpen → OpenSince length opened packets m.trade
  closedWithin : ∀ t ∈ m.closedTrades, ClosedWithin length opened packets t
  counts : Counts m

variable {length opened}

theorem OpenSince.snoc {packets : List TradePacket} {p : TradePacket} {m : TradeManager}
    (openSince : OpenSince length opened packets m.trade) :
    OpenSince length opened (packets ++ [p]) (m.touched p.price).trade := by
  obtain ⟨earlier, o, since, rfl, openedBy, follows, levels⟩ := openSince
  have sameId : (m.touched p.price).trade.tradeId = m.trade.tradeId :=
    TradeManager.touchTarget1_tradeId m.trade p.price
  refine ⟨earlier, o, since ++ [p], by simp, ?_, ?_, levels.touch p.price⟩
  · rwa [OpenedBy, sameId]
  · rw [List.map_append]
    exact follows.touch p.price

theorem ClosedWithin.append {packets : List TradePacket} {t : ManagedTrade}
    (closedWithin : ClosedWithin length opened packets t) (more : List TradePacket) :
    ClosedWithin length opened (packets ++ more) t := by
  obtain ⟨earlier, o, since, p, later, rfl, rest⟩ := closedWithin
  exact ⟨earlier, o, since, p, later ++ more, by simp, rest⟩

/-- The manager's record of the trade it closes. -/
theorem closedTrades_of_closes {m : TradeManager} {price : ℚ} {reason : ExitReason}
    (closes : m.onPrice price = (m.touched price).closeTrade price reason) :
    (m.onPrice price).closedTrades =
      m.closedTrades ++ [(m.touched price).trade.settle price reason] := by
  rw [closes]
  rfl

/-- A packet that closes the open trade, in the class of its reason. -/
theorem closedWithin_of_closes {earlier since : List TradePacket} {o p : TradePacket}
    {m : TradeManager} {reason : ExitReason}
    (reached : managerAt length opened (earlier ++ o :: since) = m)
    (openedBy : OpenedBy length opened earlier o m.trade)
    (closes : m.onPrice p.price = (m.touched p.price).closeTrade p.price reason)
    (outcome : OutcomeClass reason ((m.touched p.price).trade.settle p.price reason)
      (since.map TradePacket.price) m (m.onPrice p.price)) :
    ClosedWithin length opened (earlier ++ o :: since ++ [p])
      ((m.touched p.price).trade.settle p.price reason) := by
  have sameBooks := managerAt_snoc_sameBooks length opened (earlier ++ o :: since) p
  rw [reached] at sameBooks
  have sameId : ((m.touched p.price).trade.settle p.price reason).tradeId = m.trade.tradeId :=
    TradeManager.touchTarget1_tradeId m.trade p.price
  refine ⟨earlier, o, since, p, [], rfl, ?_, ?_, rfl, reason, ?_, fun other otherOutcome => ?_⟩
  · rwa [OpenedBy, sameId]
  · rw [reached, sameBooks.closedTrades, closedTrades_of_closes closes]
  · dsimp only
    rw [reached]
    exact sameBooks.outcome outcome
  · rw [reached] at otherOutcome
    exact otherOutcome.unique (sameBooks.outcome outcome)

/-- What a price does to the trades of the run. -/
theorem OutcomeInvariant.price {packets : List TradePacket} {p : TradePacket}
    (inv : OutcomeInvariant length opened packets (managerAt length opened packets)) :
    OutcomeInvariant length opened (packets ++ [p])
      ((managerAt length opened packets).onPrice p.price) := by
  obtain ⟨openSince, closedWithin, counts⟩ := inv
  generalize reached : managerAt length opened packets = m at *
  have old : ∀ t ∈ m.closedTrades, ClosedWithin length opened (packets ++ [p]) t :=
    fun t member => (closedWithin t member).append [p]
  cases phase : m.state with
  | flat =>
      have still : m.onPrice p.price = m := if_pos (by simp [phase])
      rw [still]
      exact ⟨fun isOpen => absurd (phase.symm.trans isOpen) (by decide), old, counts⟩
  | longOpen =>
      have sinceOpen := openSince phase
      obtain ⟨earlier, o, since, rfl, openedBy, follows, levels⟩ := openSince phase
      rcases onPrice_outcome p.price phase levels follows with holds | ⟨reason, closes, outcome⟩
      · rw [holds]
        exact ⟨fun _ => sinceOpen.snoc, old, counts.wins, counts.losses, counts.breakevens⟩
      · have booked := closedTrades_of_closes closes
        refine ⟨fun isOpen => ?_, ?_, counts.close outcome booked⟩
        · rw [closes] at isOpen
          exact PositionState.noConfusion isOpen
        · rw [booked, List.forall_mem_append, List.forall_mem_singleton]
          exact ⟨old, closedWithin_of_closes reached openedBy closes outcome⟩

/-- A packet's price, and the trade a signal may open after it. -/
theorem OutcomeInvariant.step {packets : List TradePacket} {p : TradePacket}
    (inv : OutcomeInvariant length opened packets (managerAt length opened packets)) :
    OutcomeInvariant length opened (packets ++ [p])
      (managerAt length opened (packets ++ [p])) := by
  have afterPrice := inv.price (p := p)
  rcases managerAt_snoc length opened packets p with same | ⟨signal, placed, flat, opening⟩
  · rw [same]
    exact afterPrice
  · have counts := (managerAt_snoc_sameBooks length opened packets p).counts afterPrice.counts
    have sameTrades := (managerAt_snoc_sameBooks length opened packets p).closedTrades
    refine ⟨fun _ => ?_, fun t member => afterPrice.closedWithin t (sameTrades ▸ member), counts⟩
    refine ⟨packets, p, [], rfl, ⟨?_, ?_⟩, ?_, ?_⟩
    · rw [opening]
      exact (onPrice_nextTradeId _ p.price).symm
    · rw [opening]
      rfl
    · rw [opening]
      exact followsPrices_opened _ signal
    · rw [opening]
      exact placed.levels _

variable (length opened)

theorem managerAt_outcomes (packets : List TradePacket) :
    OutcomeInvariant length opened packets (managerAt length opened packets) := by
  refine liveMachine.after_induction
    (fun packets s => OutcomeInvariant length opened packets s.tradeManager) ?_ ?_ packets
  · exact ⟨fun isOpen => PositionState.noConfusion isOpen,
      fun t member => absurd member List.not_mem_nil, rfl, rfl, rfl⟩
  · intro packets p inv
    have stepped := OutcomeInvariant.step (p := p) inv
    rwa [managerAt, liveAfter_snoc] at stepped

/-- Outcome classes.  In every run each closed trade was opened by one packet and
closed by a later one, in exactly one of the three classes: target 2 with at least 2.5
R and a win, the initial stop with target 1 never reached, at most -1 R and a loss, or
the stop at breakeven after target 1, with 0 R and a breakeven.  The counters are the
numbers of trades closed for the three reasons. -/
theorem outcome_classes (packets : List TradePacket) :
    (∀ t ∈ (managerAt length opened packets).closedTrades,
      ClosedWithin length opened packets t) ∧
    Counts (managerAt length opened packets) :=
  ⟨(managerAt_outcomes length opened packets).closedWithin,
    (managerAt_outcomes length opened packets).counts⟩

end Run

/-- Eleven one-trade bars, a retest bar of two trades, and a price below the stop. -/
def stoppedRun : List TradePacket :=
  [100, 100, 100, 100, 100, 100, 100, 100, 100, 100, 105].zipIdx.map
      (fun (price, k) =>
        { price := price, volume := 1, exchangeTsNs := .ofNat (1700000000000 + 10000 * k) }) ++
    [{ price := 100.05, volume := 1, exchangeTsNs := 1700000110000 },
     { price := 101, volume := 1, exchangeTsNs := 1700000111000 },
     { price := 101, volume := 1, exchangeTsNs := 1700000120000 },
     { price := 90, volume := 1, exchangeTsNs := 1700000121000 }]

example : (managerAt prismBarSeconds true stoppedRun).closedTrades.map (·.exitReason) =
    [some .stopLoss] := by
  decide +kernel

end PrismPipeline.Live
