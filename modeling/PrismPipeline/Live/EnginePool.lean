import Mathlib.Data.List.DropRight
import PrismPipeline.Live.Delivery
import PrismPipeline.Machine.Interleaving

/-!
# Several engines and one strategy

Each `PrismLiveEngine` owns its bars, but `strategy_instance` is one static object
behind all of them.  Trades given to several engines in any order therefore build the
same bars as each engine would build alone, while all of the bars pass through the same
strategy, and an engine shows what that strategy said of its own last bar.
-/

namespace PrismPipeline.Live

open PrismPipeline.Machine PrismPipeline.Series

/-- Engines by name, the strategy they share, and the trace of all bars closed. -/
structure EnginePool (ι : Type*) where
  engines : ι → PrismLiveEngine
  strategyInstance : PrismStrategy := {}
  closings : List (ι × DeliveredBar) := []

namespace EnginePool

variable {ι : Type*} [DecidableEq ι]

/-- The bars one engine has closed. -/
def closedBars (p : EnginePool ι) (i : ι) : List DeliveredBar := ownCalls i p.closings

/-- What a member function of engine `i` can reach: its own members and the strategy. -/
def world (p : EnginePool ι) (i : ι) : EngineWorld where
  prism := p.engines i
  strategyInstance := p.strategyInstance
  delivered := p.closedBars i

/-- `on_trade` of engine `i`. -/
def onTrade (p : EnginePool ι) (i : ι) (trade : TradePacket) : EnginePool ι :=
  let w := (p.world i).onTrade trade
  { engines := Function.update p.engines i w.prism
    strategyInstance := w.strategyInstance
    closings := p.closings ++ (w.delivered.drop (p.closedBars i).length).map fun d => (i, d) }

/-- Engines just constructed. -/
def fresh (lengths : ι → BarLength) : EnginePool ι :=
  { engines := fun i => { barSeconds := lengths i } }

/-- The signal a fresh strategy shows after a sequence of closed bars. -/
def sharedSignal (closings : List (ι × DeliveredBar)) : PrismSignal :=
  let strategy := strategyAfter (closings.map fun c => toStrategyBar c.2.bar)
  if strategy.hasSignal then strategy.currentSignal.activated else {}

/-- The closings up to the last one of engine `i`. -/
def upToLast (i : ι) (closings : List (ι × DeliveredBar)) : List (ι × DeliveredBar) :=
  closings.rdropWhile fun c => c.1 ≠ i

end EnginePool

/-- The engines as one machine; a call shows the signal of the engine it is made on. -/
def poolMachine (ι : Type*) [DecidableEq ι] :
    Mealy (EnginePool ι) (ι × TradePacket) PrismSignal where
  step p call := p.onTrade call.1 call.2
  output p call := ((p.onTrade call.1 call.2).engines call.1).lastSignal

/-- Fresh engines after calls in any order. -/
def poolAfter {ι : Type*} [DecidableEq ι] (lengths : ι → BarLength)
    (calls : List (ι × TradePacket)) : EnginePool ι :=
  (poolMachine ι).after (.fresh lengths) calls

/-! ## Bars -/

namespace EngineWorld

/-- The part of a world that bars are built from. -/
def builder (w : EngineWorld) : EngineWorld :=
  { prism := { w.prism with lastSignal := {} }, delivered := w.delivered }

/-- The conditions of the effects exclude one another. -/
theorem TradeEffect.unique {w first second : EngineWorld} {trade : TradePacket}
    (one : TradeEffect w trade first) (other : TradeEffect w trade second) : first = second := by
  cases one with
  | ignored refused =>
      cases other with
      | ignored => rfl
      | opens accepted | switches accepted | updates accepted => exact absurd accepted refused
  | opens accepted empty =>
      cases other with
      | ignored refused => exact absurd accepted refused
      | opens => rfl
      | switches _ building | updates _ building =>
          exact absurd (empty.symm.trans building) Bool.false_ne_true
  | switches accepted building different =>
      cases other with
      | ignored refused => exact absurd accepted refused
      | opens _ empty => exact absurd (empty.symm.trans building) Bool.false_ne_true
      | switches => rfl
      | updates _ _ same => exact absurd same different
  | updates accepted building same =>
      cases other with
      | ignored refused => exact absurd accepted refused
      | opens _ empty => exact absurd (empty.symm.trans building) Bool.false_ne_true
      | switches _ _ different => exact absurd same different
      | updates => rfl

/-- Building bars reads neither the strategy nor the signal. -/
theorem builder_onTrade (w : EngineWorld) (trade : TradePacket) :
    (w.onTrade trade).builder = (w.builder.onTrade trade).builder := by
  have effect := w.onTrade_effect trade
  have shadow := w.builder.onTrade_effect trade
  generalize w.onTrade trade = next at *
  cases effect with
  | ignored refused => rw [shadow.unique (.ignored refused)]; rfl
  | opens accepted empty => rw [shadow.unique (.opens accepted empty)]; rfl
  | switches accepted building different =>
      rw [shadow.unique (.switches accepted building different)]; rfl
  | updates accepted building same => rw [shadow.unique (.updates accepted building same)]; rfl

theorem delivered_closeCurrentBar (w : EngineWorld) :
    w.closeCurrentBar.delivered =
      w.delivered ++ [⟨w.prism.currentBarStartNs, w.closedBar⟩] := rfl

theorem strategyInstance_closeCurrentBar (w : EngineWorld) :
    w.closeCurrentBar.strategyInstance =
      w.strategyInstance.onNewBar (toStrategyBar w.closedBar) := rfl

/-- A trade only ever adds closed bars. -/
theorem delivered_onTrade (w : EngineWorld) (trade : TradePacket) :
    w.delivered <+: (w.onTrade trade).delivered := by
  have effect := w.onTrade_effect trade
  generalize w.onTrade trade = next at *
  cases effect with
  | ignored | opens | updates => exact List.prefix_rfl
  | switches => exact List.prefix_append _ _

end EngineWorld

/-- The building of bars as a machine of its own. -/
def builderMachine : Mealy EngineWorld TradePacket Unit where
  step w trade := (w.onTrade trade).builder
  output _ _ := ()

namespace EnginePool

variable {ι : Type*} [DecidableEq ι]

theorem closedBars_onTrade (p : EnginePool ι) (i : ι) (trade : TradePacket) :
    (p.onTrade i trade).closedBars i = ((p.world i).onTrade trade).delivered := by
  obtain ⟨rest, whole⟩ := (p.world i).delivered_onTrade trade
  have added : ((p.world i).onTrade trade).delivered.drop (p.closedBars i).length = rest := by
    rw [← whole]
    exact List.drop_left
  have shown : (p.onTrade i trade).closings = p.closings ++ rest.map fun d => (i, d) := by
    unfold onTrade
    dsimp only
    rw [added]
  unfold closedBars
  rw [shown, ownCalls_append, ownCalls_tagged]
  exact whole

theorem world_onTrade (p : EnginePool ι) (i : ι) (trade : TradePacket) :
    (p.onTrade i trade).world i = (p.world i).onTrade trade := by
  have engine : (p.onTrade i trade).engines i = ((p.world i).onTrade trade).prism :=
    Function.update_self i _ _
  unfold world at *
  rw [engine, closedBars_onTrade]
  rfl

theorem builder_other (p : EnginePool ι) {i j : ι} (other : j ≠ i) (trade : TradePacket) :
    ((p.onTrade j trade).world i).builder = (p.world i).builder := by
  have engine : (p.onTrade j trade).engines i = p.engines i :=
    Function.update_of_ne other.symm _ _
  have closed : (p.onTrade j trade).closedBars i = p.closedBars i := by
    unfold closedBars onTrade
    rw [ownCalls_append, ownCalls_other other]
    exact List.append_nil _
  unfold world EngineWorld.builder
  rw [engine, closed]

/-- After any calls an engine has built the bars it would have built alone. -/
theorem builder_after (lengths : ι → BarLength) (calls : List (ι × TradePacket)) (i : ι) :
    ((poolAfter lengths calls).world i).builder =
      (engineAfter (lengths i) (ownCalls i calls)).builder := by
  have joint := (poolMachine ι).view_after builderMachine i (fun p => (p.world i).builder)
    (fun p trade => by
      change ((p.onTrade i trade).world i).builder = ((p.world i).builder.onTrade trade).builder
      rw [world_onTrade, EngineWorld.builder_onTrade])
    (fun p j trade other => p.builder_other other trade) (.fresh lengths) calls
  have alone := engineMachine.after_map builderMachine EngineWorld.builder
    EngineWorld.builder_onTrade (.fresh (lengths i)) (ownCalls i calls)
  exact joint.trans alone.symm

/-! ## Signals -/

/-- The shared strategy and the signals shown, in terms of the trace. -/
structure Shares (p : EnginePool ι) : Prop where
  strategy : p.strategyInstance = strategyAfter (p.closings.map fun c => toStrategyBar c.2.bar)
  shown : ∀ i, (p.engines i).lastSignal = sharedSignal (upToLast i p.closings)

theorem shares_fresh (lengths : ι → BarLength) : Shares (fresh lengths) := ⟨rfl, fun _ => rfl⟩

/-- A call that closes no bar. -/
theorem Shares.quiet {p q : EnginePool ι} (shares : Shares p)
    (strategy : q.strategyInstance = p.strategyInstance) (closings : q.closings = p.closings)
    (shown : ∀ i, (q.engines i).lastSignal = (p.engines i).lastSignal) : Shares q := by
  refine ⟨?_, fun i => ?_⟩
  · rw [strategy, closings]
    exact shares.strategy
  · rw [shown, closings]
    exact shares.shown i

/-- A call that closes a bar of engine `i`. -/
theorem Shares.close {p q : EnginePool ι} {i : ι} {d : DeliveredBar} (shares : Shares p)
    (closings : q.closings = p.closings ++ [(i, d)])
    (strategy : q.strategyInstance = p.strategyInstance.onNewBar (toStrategyBar d.bar))
    (own : (q.engines i).lastSignal = if q.strategyInstance.hasSignal then
      q.strategyInstance.currentSignal.activated else {})
    (others : ∀ j ≠ i, (q.engines j).lastSignal = (p.engines j).lastSignal) : Shares q := by
  have run : q.strategyInstance =
      strategyAfter (q.closings.map fun c => toStrategyBar c.2.bar) := by
    rw [strategy, closings, List.map_append, List.map_singleton, strategyAfter_snoc,
      ← shares.strategy]
  refine ⟨run, fun j => ?_⟩
  by_cases mine : j = i
  · subst mine
    have kept : upToLast j q.closings = q.closings := by
      rw [upToLast, closings, List.rdropWhile_concat_neg]
      simp
    rw [kept, own, sharedSignal, ← run]
  · have dropped : upToLast j q.closings = upToLast j p.closings := by
      rw [upToLast, closings, List.rdropWhile_concat_pos]
      · rfl
      · simpa using Ne.symm mine
    rw [dropped, others j mine]
    exact shares.shown j

theorem Shares.onTrade {p : EnginePool ι} (shares : Shares p) (i : ι) (trade : TradePacket) :
    Shares (p.onTrade i trade) := by
  have effect := (p.world i).onTrade_effect trade
  have others : ∀ j ≠ i, ((p.onTrade i trade).engines j).lastSignal =
      (p.engines j).lastSignal := fun j other =>
    congrArg PrismLiveEngine.lastSignal (Function.update_of_ne other _ _)
  have own : ((p.onTrade i trade).engines i).lastSignal =
      ((p.world i).onTrade trade).prism.lastSignal :=
    congrArg PrismLiveEngine.lastSignal (Function.update_self i _ _)
  have strategy : (p.onTrade i trade).strategyInstance =
      ((p.world i).onTrade trade).strategyInstance := rfl
  have closings : (p.onTrade i trade).closings = p.closings ++
      (((p.world i).onTrade trade).delivered.drop (p.closedBars i).length).map
        fun d => (i, d) := rfl
  generalize p.onTrade i trade = q at *
  generalize (p.world i).onTrade trade = next at *
  cases effect with
  | ignored | opens | updates =>
      refine shares.quiet strategy ?_ fun j => ?_
      · have nothing : (p.closedBars i).drop (p.closedBars i).length = [] := List.drop_length
        exact closings.trans ((congrArg _ (congrArg _ nothing)).trans (List.append_nil _))
      · by_cases mine : j = i
        · rw [mine]
          exact own
        · exact others j mine
  | switches =>
      change q.strategyInstance = (p.world i).closeCurrentBar.strategyInstance at strategy
      change q.closings = p.closings ++ ((p.world i).closeCurrentBar.delivered.drop
        (p.world i).delivered.length).map _ at closings
      change _ = (p.world i).closeCurrentBar.prism.lastSignal at own
      rw [EngineWorld.delivered_closeCurrentBar, List.drop_left] at closings
      rw [EngineWorld.strategyInstance_closeCurrentBar] at strategy
      refine shares.close closings strategy ?_ others
      rw [own, strategy]
      rfl

theorem poolAfter_shares (lengths : ι → BarLength) (calls : List (ι × TradePacket)) :
    Shares (poolAfter lengths calls) :=
  (poolMachine ι).after_invariant Shares (shares_fresh lengths)
    (fun _ call shares => shares.onTrade call.1 call.2) calls

end EnginePool

/-! ## Engines side by side -/

section Pool

variable {ι : Type*} [DecidableEq ι]

/-- What engine `i` shows after calls in any order. -/
structure SideBySide (lengths : ι → BarLength) (calls : List (ι × TradePacket)) (i : ι) : Prop where
  closed : (poolAfter lengths calls).closedBars i =
    (engineAfter (lengths i) (ownCalls i calls)).delivered
  members : { (poolAfter lengths calls).engines i with lastSignal := {} } =
    { (engineAfter (lengths i) (ownCalls i calls)).prism with lastSignal := {} }
  shown : ((poolAfter lengths calls).engines i).lastSignal =
    EnginePool.sharedSignal (EnginePool.upToLast i (poolAfter lengths calls).closings)
  undisturbed : (∀ closing ∈ (poolAfter lengths calls).closings, closing.1 = i) →
    ((poolAfter lengths calls).engines i).lastSignal =
      (engineAfter (lengths i) (ownCalls i calls)).lastSignal

/-- Every engine builds the bars it would build alone, and shows what the one strategy,
fed with the bars of all engines in the order of their closing, said of its last bar.
That is what it would show alone as long as no other engine has closed a bar. -/
theorem engines_side_by_side (lengths : ι → BarLength) (calls : List (ι × TradePacket)) (i : ι) :
    SideBySide lengths calls i := by
  have builder := EnginePool.builder_after lengths calls i
  have shares := EnginePool.poolAfter_shares lengths calls
  have delivery := engineAfter_delivery (lengths i) (ownCalls i calls)
  have closed : (poolAfter lengths calls).closedBars i =
      (engineAfter (lengths i) (ownCalls i calls)).delivered :=
    congrArg EngineWorld.delivered builder
  refine ⟨closed, congrArg EngineWorld.prism builder, shares.shown i, fun own => ?_⟩
  have all : EnginePool.upToLast i (poolAfter lengths calls).closings =
      (poolAfter lengths calls).closings := by
    refine List.rdropWhile_eq_self_iff.mpr fun nonempty => ?_
    simpa using own _ (List.getLast_mem nonempty)
  have bars : (poolAfter lengths calls).closings.map (fun c => toStrategyBar c.2.bar) =
      (engineAfter (lengths i) (ownCalls i calls)).strategyBars := by
    rw [EngineWorld.strategyBars, ← closed]
    change _ = (ownCalls i _).map _
    rw [ownCalls_of_forall own, List.map_map]
    rfl
  rw [shares.shown i, all, EnginePool.sharedSignal, bars, ← delivery.strategy]
  exact delivery.shown.symm

/-- Bars and signals of every engine are those it would show alone. -/
def NoInterference (lengths : ι → BarLength) : Prop :=
  ∀ calls i, (poolAfter lengths calls).closedBars i =
      (engineAfter (lengths i) (ownCalls i calls)).delivered ∧
    ((poolAfter lengths calls).engines i).lastSignal =
      (engineAfter (lengths i) (ownCalls i calls)).lastSignal

end Pool

/-- A trade in a ten second bucket. -/
def tradeIn (bucket : ℕ) (price : ℚ) : TradePacket :=
  { price, volume := 1, exchangeTsNs := UInt64.ofNat (1700000000000000000 + bucket * 10 ^ 10) }

/-- Engine `true` sees ten quiet bars, a breakout and a retest.  After the quiet bars
engine `false` closes one bar with a high above the breakout. -/
def disturbedCalls : List (Bool × TradePacket) :=
  (List.range 10).map (fun bucket => (true, tradeIn bucket 100)) ++
    [(false, tradeIn 0 200), (false, tradeIn 1 200)] ++
    [(true, tradeIn 10 105), (true, tradeIn 11 100), (true, tradeIn 11 104), (true, tradeIn 12 104)]

/-- Alone the first engine signals the retest; next to the other one it does not. -/
theorem disturbedCalls_signal : ¬ NoInterference fun _ : Bool => prismBarSeconds := by
  intro separate
  have same := congrArg PrismSignal.active (separate disturbedCalls true).2
  have alone : (engineAfter prismBarSeconds (ownCalls true disturbedCalls)).lastSignal.active =
      true := by
    decide +kernel
  have shared : ((poolAfter (fun _ => prismBarSeconds) disturbedCalls).engines
      true).lastSignal.active = false := by
    decide +kernel
  rw [alone, shared] at same
  exact Bool.false_ne_true same

end PrismPipeline.Live
