import PrismPipeline.Live.Engine

/-!
# What the delivered bars determine

The deque of the engine, its strategy and the signal it shows are functions of the
bars handed on so far: the last 200 of them, a fresh strategy run over them, and
that strategy's signal.
-/

namespace PrismPipeline.Live

open PrismPipeline.Machine PrismPipeline.Series

namespace EngineWorld

/-- The delivered bars as the strategy received them. -/
def strategyBars (w : EngineWorld) : List Bar :=
  w.delivered.map fun d => toStrategyBar d.bar

/-- The engine's state against its trace. -/
structure Delivery (w : EngineWorld) : Prop where
  kept : w.prism.bars = (w.delivered.map DeliveredBar.bar).rtake historyBound
  strategy : w.strategyInstance = strategyAfter w.strategyBars
  shown : w.prism.lastSignal =
    if w.strategyInstance.hasSignal then w.strategyInstance.currentSignal.activated else {}

theorem delivery_fresh (length : BarLength) : Delivery (fresh length) :=
  ⟨(List.rtake_nil historyBound).symm, rfl, rfl⟩

/-- The engine shows a signal when its strategy has one. -/
theorem Delivery.hasSignal_eq {w : EngineWorld} (delivery : Delivery w) :
    w.hasSignal = w.strategyInstance.hasSignal := by
  unfold EngineWorld.hasSignal
  rw [delivery.shown]
  cases w.strategyInstance.hasSignal <;> rfl

/-- The newest bar as it is handed on. -/
def closedBar (w : EngineWorld) : PrismBar :=
  (computeAtr (pushTrim historyBound w.prism.bars w.prism.currentBar)).getLastD {}

theorem strategyBars_closeCurrentBar (w : EngineWorld) :
    w.closeCurrentBar.strategyBars = w.strategyBars ++ [toStrategyBar w.closedBar] :=
  List.map_append

/-- A trade closes one bar or none; without one the signal stays as it is. -/
theorem onTrade_strategyBars (w : EngineWorld) (trade : TradePacket) :
    ((w.onTrade trade).strategyBars = w.strategyBars ∧
      (w.onTrade trade).hasSignal = w.hasSignal) ∨
    (w.onTrade trade).strategyBars = w.strategyBars ++ [toStrategyBar w.closedBar] := by
  have effect := w.onTrade_effect trade
  generalize w.onTrade trade = next at *
  cases effect with
  | ignored | opens | updates => exact Or.inl ⟨rfl, rfl⟩
  | switches => exact Or.inr (strategyBars_closeCurrentBar w)

theorem Delivery.close {w : EngineWorld} (delivery : Delivery w) :
    Delivery w.closeCurrentBar := by
  refine ⟨?_, ?_, rfl⟩
  · have trimmed : pushTrim historyBound w.prism.bars w.prism.currentBar =
        (w.delivered.map DeliveredBar.bar).rtake 199 ++ [w.prism.currentBar] := by
      rw [delivery.kept, pushTrim_rtake]
      exact List.rtake_concat_succ _ 199 _
    unfold closeCurrentBar
    dsimp only
    rw [trimmed, computeAtr_snoc, List.getLastD_concat, List.map_append, List.map_singleton]
    exact (List.rtake_concat_succ _ 199 _).symm
  · rw [strategyBars_closeCurrentBar, strategyAfter_snoc, ← delivery.strategy]
    rfl

theorem Delivery.onTrade {w : EngineWorld} (delivery : Delivery w) (trade : TradePacket) :
    Delivery (w.onTrade trade) := by
  have effect := w.onTrade_effect trade
  generalize w.onTrade trade = next at *
  cases effect with
  | ignored => exact delivery
  | opens => exact ⟨delivery.kept, delivery.strategy, delivery.shown⟩
  | switches => exact ⟨delivery.close.kept, delivery.close.strategy, delivery.close.shown⟩
  | updates => exact ⟨delivery.kept, delivery.strategy, delivery.shown⟩

end EngineWorld

/-- The engine after any trades: the bars it keeps are the last 200 delivered, and
its strategy is a fresh one run over the delivered bars. -/
theorem engineAfter_delivery (length : BarLength) (packets : List TradePacket) :
    (engineAfter length packets).Delivery :=
  engineMachine.after_invariant _ (EngineWorld.delivery_fresh length)
    (fun _ trade delivery => delivery.onTrade trade) packets

end PrismPipeline.Live
