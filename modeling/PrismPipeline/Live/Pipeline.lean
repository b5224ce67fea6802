import PrismPipeline.Live.Delivery
import PrismPipeline.Live.TradeManager

/-!
# The engine thread

The consumer loop of the live program, one packet at a time: the engine sees the
trade, the manager sees its price, and a signal that has just come up is handed to
the manager.  `signalCalls` is a trace of the arguments of `on_signal` and not a
variable of the source.  Packets and signals are counted by natural numbers, as in the
manager.  The latency and last price counters are left out.
-/

namespace PrismPipeline.Live

open PrismPipeline.Machine

structure LiveState where
  world : EngineWorld
  tradeManager : TradeManager
  previousSignalState : Bool := false
  prismSignals : ℕ := 0
  processed : ℕ := 0
  signalCalls : List PrismSignal := []

namespace LiveState

/-- The state in which the thread starts. -/
def fresh (length : BarLength) (opened : Bool) : LiveState where
  world := .fresh length
  tradeManager := .fresh opened

/-- The body of the loop after a successful pop. -/
def processPacket (s : LiveState) (p : TradePacket) : LiveState :=
  let world := s.world.onTrade p
  let tradeManager := s.tradeManager.onPrice p.price
  let currentSignalState := world.hasSignal
  if currentSignalState ∧ ¬ s.previousSignalState then
    { world := world
      tradeManager := tradeManager.onSignal world.lastSignal
      previousSignalState := currentSignalState
      prismSignals := s.prismSignals + 1
      processed := s.processed + 1
      signalCalls := s.signalCalls ++ [world.lastSignal] }
  else
    { world := world
      tradeManager := tradeManager
      previousSignalState := currentSignalState
      prismSignals := s.prismSignals
      processed := s.processed + 1
      signalCalls := s.signalCalls }

end LiveState

/-- The thread as a machine that shows whether a position is open. -/
def liveMachine : Mealy LiveState TradePacket Bool where
  step s p := s.processPacket p
  output s p := (s.processPacket p).tradeManager.hasOpenTrade

/-- The thread after a sequence of packets, from a fresh start. -/
def liveAfter (length : BarLength) (opened : Bool) (packets : List TradePacket) : LiveState :=
  liveMachine.after (.fresh length opened) packets

theorem liveAfter_snoc (length : BarLength) (opened : Bool) (packets : List TradePacket)
    (p : TradePacket) :
    liveAfter length opened (packets ++ [p]) = (liveAfter length opened packets).processPacket p :=
  liveMachine.after_snoc _ packets p

namespace LiveState

section Step

variable (s : LiveState) (p : TradePacket)

@[simp] theorem processPacket_world : (s.processPacket p).world = s.world.onTrade p := by
  unfold processPacket
  dsimp only
  split <;> rfl

/-- A signal comes up with this packet. -/
def Rises : Prop := (s.world.onTrade p).hasSignal = true ∧ s.previousSignalState = false

theorem processPacket_rises (rises : s.Rises p) :
    s.processPacket p =
      { world := s.world.onTrade p
        tradeManager :=
          (s.tradeManager.onPrice p.price).onSignal (s.world.onTrade p).lastSignal
        previousSignalState := true
        prismSignals := s.prismSignals + 1
        processed := s.processed + 1
        signalCalls := s.signalCalls ++ [(s.world.onTrade p).lastSignal] } := by
  obtain ⟨up, down⟩ := rises
  unfold processPacket
  dsimp only
  rw [up, down, if_pos ⟨rfl, Bool.false_ne_true⟩]

theorem processPacket_quiet (quiet : ¬ s.Rises p) :
    s.processPacket p =
      { world := s.world.onTrade p
        tradeManager := s.tradeManager.onPrice p.price
        previousSignalState := (s.world.onTrade p).hasSignal
        prismSignals := s.prismSignals
        processed := s.processed + 1
        signalCalls := s.signalCalls } := by
  unfold processPacket
  dsimp only
  refine if_neg fun edge => quiet ⟨edge.1, ?_⟩
  exact Bool.eq_false_iff.mpr edge.2

end Step

/-! ## Signals and calls -/

/-- The thread against the bars its engine has delivered. -/
structure ActsOnSignals (s : LiveState) : Prop where
  delivery : s.world.Delivery
  level : s.previousSignalState = s.world.hasSignal
  calls : s.signalCalls = (strategySignals s.world.strategyBars).map Signal.activated
  counted : s.prismSignals = s.signalCalls.length

theorem actsOnSignals_fresh (length : BarLength) (opened : Bool) :
    ActsOnSignals (fresh length opened) :=
  ⟨EngineWorld.delivery_fresh length, rfl, rfl, rfl⟩

section Acts

variable {s : LiveState} {p : TradePacket}

/-- A packet that closes no bar leaves the level as it is, so nothing rises. -/
theorem ActsOnSignals.still (acts : ActsOnSignals s)
    (sameBars : (s.world.onTrade p).strategyBars = s.world.strategyBars)
    (sameLevel : (s.world.onTrade p).hasSignal = s.world.hasSignal) :
    ActsOnSignals (s.processPacket p) := by
  have quiet : ¬ s.Rises p := by
    rintro ⟨up, down⟩
    rw [acts.level, ← sameLevel, up] at down
    exact absurd down (by decide)
  rw [processPacket_quiet s p quiet]
  refine ⟨acts.delivery.onTrade p, rfl, ?_, acts.counted⟩
  change s.signalCalls = (strategySignals (s.world.onTrade p).strategyBars).map _
  rw [sameBars]
  exact acts.calls

section NewBar

variable (acts : ActsOnSignals s) {bar : Bar}
  (newBar : (s.world.onTrade p).strategyBars = s.world.strategyBars ++ [bar])

include acts newBar

/-- The signal shown after a bar is the strategy's on that bar. -/
theorem ActsOnSignals.level_after :
    (s.world.onTrade p).hasSignal =
        ((strategyAfter s.world.strategyBars).onNewBar bar).hasSignal ∧
      (((strategyAfter s.world.strategyBars).onNewBar bar).hasSignal = true →
        (s.world.onTrade p).lastSignal =
          ((strategyAfter s.world.strategyBars).onNewBar bar).currentSignal.activated) := by
  have delivery := acts.delivery.onTrade p
  have after : (s.world.onTrade p).strategyInstance =
      (strategyAfter s.world.strategyBars).onNewBar bar := by
    rw [delivery.strategy, newBar, strategyAfter_snoc]
  have level := delivery.hasSignal_eq
  have shown := delivery.shown
  rw [after] at level shown
  exact ⟨level, fun signalled => shown.trans (if_pos signalled)⟩

/-- A bar without a signal lets nothing rise. -/
theorem ActsOnSignals.closes_silent
    (silent : ((strategyAfter s.world.strategyBars).onNewBar bar).hasSignal = false) :
    ActsOnSignals (s.processPacket p) := by
  obtain ⟨level, _⟩ := acts.level_after newBar
  have quiet : ¬ s.Rises p := fun rises =>
    Bool.false_ne_true (silent.symm.trans (level.symm.trans rises.1))
  have output : strategyMachine.output (strategyAfter s.world.strategyBars) bar = none :=
    if_neg (Bool.eq_false_iff.mp silent)
  have signals := strategySignals_snoc s.world.strategyBars bar
  rw [← newBar, output, Option.toList_none, List.append_nil] at signals
  rw [processPacket_quiet s p quiet]
  refine ⟨acts.delivery.onTrade p, rfl, ?_, acts.counted⟩
  rw [acts.calls, signals]

/-- A signal rises: the level was down, for the strategy never signals twice in a row. -/
theorem ActsOnSignals.closes_signal
    (signalled : ((strategyAfter s.world.strategyBars).onNewBar bar).hasSignal = true) :
    ActsOnSignals (s.processPacket p) := by
  obtain ⟨level, shown⟩ := acts.level_after newBar
  have down : s.previousSignalState = false := by
    rw [acts.level, acts.delivery.hasSignal_eq, acts.delivery.strategy]
    by_contra up
    have silent := strategyAfter_silent_after_signal (Bool.not_eq_false _ ▸ up) bar
    exact Bool.false_ne_true (silent.symm.trans signalled)
  have output : strategyMachine.output (strategyAfter s.world.strategyBars) bar =
      some ((strategyAfter s.world.strategyBars).onNewBar bar).currentSignal :=
    if_pos signalled
  have signals := strategySignals_snoc s.world.strategyBars bar
  rw [← newBar, output, Option.toList_some] at signals
  rw [processPacket_rises s p ⟨level.trans signalled, down⟩]
  refine ⟨acts.delivery.onTrade p, (level.trans signalled).symm, ?_, ?_⟩
  · dsimp only
    rw [shown signalled, acts.calls, signals, List.map_append, List.map_singleton]
  · dsimp only
    rw [List.length_append, List.length_singleton, acts.counted]

end NewBar

theorem ActsOnSignals.step (acts : ActsOnSignals s) (p : TradePacket) :
    ActsOnSignals (s.processPacket p) := by
  rcases s.world.onTrade_strategyBars p with ⟨sameBars, sameLevel⟩ | newBar
  · exact acts.still sameBars sameLevel
  · cases signalled : ((strategyAfter s.world.strategyBars).onNewBar _).hasSignal with
    | false => exact acts.closes_silent newBar signalled
    | true => exact acts.closes_signal newBar signalled

end Acts

end LiveState

theorem liveAfter_acts (length : BarLength) (opened : Bool) (packets : List TradePacket) :
    (liveAfter length opened packets).ActsOnSignals :=
  liveMachine.after_invariant _ (LiveState.actsOnSignals_fresh length opened)
    (fun _ p acts => acts.step p) packets

/-- The engine of the thread is the engine run on the same packets. -/
theorem liveAfter_world (length : BarLength) (opened : Bool) (packets : List TradePacket) :
    (liveAfter length opened packets).world = engineAfter length packets := by
  refine liveMachine.after_induction
    (fun packets s => s.world = engineAfter length packets) rfl ?_ packets
  intro packets p same
  change ((liveAfter length opened packets).processPacket p).world = _
  rw [LiveState.processPacket_world, engineAfter, Mealy.after_snoc]
  exact congrArg (EngineWorld.onTrade · p) same

/-! ## The calls of the manager -/

def ManagerCall.price? : ManagerCall → Option ℚ
  | .onPrice price => some price
  | .onSignal _ => none

def ManagerCall.signal? : ManagerCall → Option PrismSignal
  | .onPrice _ => none
  | .onSignal signal => some signal

/-- The manager of a state is a fresh one run on these calls: the price of every packet and the
signals recorded. -/
structure CalledBy (opened : Bool) (packets : List TradePacket) (calls : List ManagerCall)
    (s : LiveState) : Prop where
  manager : s.tradeManager = managerAfter opened calls
  prices : calls.filterMap ManagerCall.price? = packets.map TradePacket.price
  signals : calls.filterMap ManagerCall.signal? = s.signalCalls

/-- A packet calls the manager with its price and then with the signal that rises. -/
theorem LiveState.processPacket_calls (s : LiveState) (p : TradePacket) :
    ∃ signals, (s.processPacket p).signalCalls = s.signalCalls ++ signals ∧
      (s.processPacket p).tradeManager =
        signals.foldl TradeManager.onSignal (s.tradeManager.onPrice p.price) := by
  by_cases rises : s.Rises p
  · rw [s.processPacket_rises p rises]
    exact ⟨[(s.world.onTrade p).lastSignal], rfl, rfl⟩
  · rw [s.processPacket_quiet p rises]
    exact ⟨[], (List.append_nil _).symm, rfl⟩

theorem CalledBy.step {opened : Bool} {packets : List TradePacket} {calls : List ManagerCall}
    {s : LiveState} (called : CalledBy opened packets calls s) (p : TradePacket) :
    ∃ more, CalledBy opened (packets ++ [p]) (calls ++ more) (s.processPacket p) := by
  obtain ⟨manager, prices, recorded⟩ := called
  by_cases rises : s.Rises p
  · rw [s.processPacket_rises p rises]
    refine ⟨[.onPrice p.price, .onSignal (s.world.onTrade p).lastSignal], ?_, ?_, ?_⟩
    · rw [managerAfter, managerMachine.after_append]
      exact congrArg (fun m => (TradeManager.onPrice m p.price).onSignal _) manager
    · rw [List.filterMap_append, prices, List.map_append]
      rfl
    · rw [List.filterMap_append, recorded]
      rfl
  · rw [s.processPacket_quiet p rises]
    refine ⟨[.onPrice p.price], ?_, ?_, ?_⟩
    · rw [managerAfter, managerMachine.after_append]
      exact congrArg (fun m => TradeManager.onPrice m p.price) manager
    · rw [List.filterMap_append, prices, List.map_append]
      rfl
    · rw [List.filterMap_append, recorded]
      exact List.append_nil _

theorem liveAfter_called (length : BarLength) (opened : Bool) (packets : List TradePacket) :
    ∃ calls, CalledBy opened packets calls (liveAfter length opened packets) := by
  refine liveMachine.after_induction
    (fun packets s => ∃ calls, CalledBy opened packets calls s) ⟨[], rfl, rfl, rfl⟩ ?_ packets
  rintro packets p ⟨calls, called⟩
  obtain ⟨more, next⟩ := called.step p
  exact ⟨calls ++ more, next⟩

/-- Every signal is acted on once.  At every point of every run the strategy is a
fresh one run over the bars the engine has closed, and the calls of `on_signal` are,
in order, the signals it produced on them; a packet that closes no bar makes no call,
and one that closes a bar makes a call exactly when the strategy signals on it.  The
calls recorded are those that the manager got, behind the price of their packet. -/
theorem signals_acted_on_once (length : BarLength) (opened : Bool)
    (packets : List TradePacket) :
    (liveAfter length opened packets).world.strategyInstance =
      strategyAfter (engineAfter length packets).strategyBars ∧
    (liveAfter length opened packets).signalCalls =
      (strategySignals (engineAfter length packets).strategyBars).map Signal.activated ∧
    (∃ calls, CalledBy opened packets calls (liveAfter length opened packets)) ∧
    (∀ p, ∃ signals, (liveAfter length opened (packets ++ [p])).signalCalls =
        (liveAfter length opened packets).signalCalls ++ signals ∧
      (liveAfter length opened (packets ++ [p])).tradeManager =
        signals.foldl TradeManager.onSignal
          ((liveAfter length opened packets).tradeManager.onPrice p.price)) ∧
    ∀ p, ((engineAfter length (packets ++ [p])).strategyBars =
          (engineAfter length packets).strategyBars ∧
        (liveAfter length opened (packets ++ [p])).signalCalls =
          (liveAfter length opened packets).signalCalls) ∨
      ∃ bar, (engineAfter length (packets ++ [p])).strategyBars =
          (engineAfter length packets).strategyBars ++ [bar] ∧
        (liveAfter length opened (packets ++ [p])).signalCalls =
          (liveAfter length opened packets).signalCalls ++
            (strategyMachine.output (strategyAfter (engineAfter length packets).strategyBars)
              bar).toList.map Signal.activated := by
  have calls : ∀ packets, (liveAfter length opened packets).signalCalls =
      (strategySignals (engineAfter length packets).strategyBars).map Signal.activated := by
    intro packets
    rw [← liveAfter_world length opened packets]
    exact (liveAfter_acts length opened packets).calls
  have strategy : (liveAfter length opened packets).world.strategyInstance =
      strategyAfter (engineAfter length packets).strategyBars := by
    rw [liveAfter_world]
    exact (engineAfter_delivery length packets).strategy
  refine ⟨strategy, calls packets, liveAfter_called length opened packets, fun p => ?_,
    fun p => ?_⟩
  · rw [liveAfter_snoc]
    exact (liveAfter length opened packets).processPacket_calls p
  have step : engineAfter length (packets ++ [p]) = (engineAfter length packets).onTrade p :=
    engineMachine.after_snoc _ packets p
  rw [calls packets, calls (packets ++ [p]), step]
  rcases (engineAfter length packets).onTrade_strategyBars p with ⟨sameBars, _⟩ | newBar
  · exact Or.inl ⟨sameBars, by rw [sameBars]⟩
  · refine Or.inr ⟨_, newBar, ?_⟩
    rw [newBar, strategySignals_snoc, List.map_append]

end PrismPipeline.Live
