import Mathlib.Data.List.Chain
import PrismPipeline.Backtest.MaxDrawdown
import PrismPipeline.Backtest.Moves

/-!
# The audit log against the trade log

Inside the loop every row of the trade log goes with a `TRADE_EXIT` event.  The row of
the trade that only the end of the data closes goes with none, so the audit log tells
the story of the trade log exactly when the run ends flat.
-/

namespace PrismPipeline.Backtest

open PrismPipeline.Machine

/-- What an audit event tells of a trade. -/
inductive TradeEvent where
  | accepted (tradeId : Int32)
  | exited (tradeId : Int32) (reasonCode : String)
  deriving DecidableEq

namespace TradeEvent

def opens : TradeEvent → Bool
  | .accepted _ => true
  | .exited _ _ => false

def exit? : TradeEvent → Option (Int32 × String)
  | .accepted _ => none
  | .exited tradeId reasonCode => some (tradeId, reasonCode)

end TradeEvent

def AuditEvent.trade? : AuditEvent → Option TradeEvent
  | .tradeAccepted _ tradeId => some (.accepted tradeId)
  | .tradeExit _ reason tradeId => some (.exited tradeId reason.text)
  | .breakout _ _ | .entryExpired _ | .tradeRejected _ _ => none

/-- The `TRADE_ACCEPTED` and `TRADE_EXIT` events of an audit log. -/
def tradeEvents (audit : List AuditEvent) : List TradeEvent := audit.filterMap AuditEvent.trade?

/-- The numbers and exit reasons of the rows of a trade log. -/
def exitReasons (trades : List TradeLog) : List (Int32 × String) :=
  trades.map fun row => (row.tradeId, row.exitReason.text)

/-- The two logs of a final state tell the same story. -/
structure SameStory (s : LoopState) : Prop where
  starts : ∀ first ∈ (tradeEvents s.logs.audit).head?, first.opens = true
  alternate : (tradeEvents s.logs.audit).IsChain fun event next => event.opens ≠ next.opens
  exited : ∀ tradeId, .accepted tradeId ∈ tradeEvents s.logs.audit →
    ∃ reasonCode, .exited tradeId reasonCode ∈ tradeEvents s.logs.audit
  same_exits : (tradeEvents s.logs.audit).filterMap TradeEvent.exit? = exitReasons s.logs.trades

/-- The story so far, with one trade at most still without its end. -/
structure Told (s : LoopState) : Prop where
  starts : ∀ first ∈ (tradeEvents s.logs.audit).head?, first.opens = true
  alternate : (tradeEvents s.logs.audit).IsChain fun event next => event.opens ≠ next.opens
  ends : ∀ last ∈ (tradeEvents s.logs.audit).getLast?, last.opens = s.tradeOpen
  empty : tradeEvents s.logs.audit = [] → s.tradeOpen = false
  exited : ∀ tradeId, .accepted tradeId ∈ tradeEvents s.logs.audit →
    (∃ reasonCode, .exited tradeId reasonCode ∈ tradeEvents s.logs.audit) ∨
      (s.tradeOpen = true ∧ s.tradeId = tradeId)
  same_exits : (tradeEvents s.logs.audit).filterMap TradeEvent.exit? = exitReasons s.logs.trades

namespace Told

variable {s t : LoopState}

/-- Nothing is told of a trade. -/
theorem other (told : Told s) (audit : tradeEvents t.logs.audit = tradeEvents s.logs.audit)
    (trades : t.logs.trades = s.logs.trades) (isOpen : t.tradeOpen = s.tradeOpen)
    (number : t.tradeId = s.tradeId) : Told t := by
  refine ⟨?_, ?_, ?_, ?_, ?_, ?_⟩
  · rw [audit]
    exact told.starts
  · rw [audit]
    exact told.alternate
  · rw [audit, isOpen]
    exact told.ends
  · rw [audit, isOpen]
    exact told.empty
  · rw [audit, isOpen, number]
    exact told.exited
  · rw [audit, trades]
    exact told.same_exits

/-- The next event of a trade is of the other kind, and so the log goes on alternating. -/
theorem next {event : TradeEvent} (told : Told s)
    (audit : tradeEvents t.logs.audit = tradeEvents s.logs.audit ++ [event])
    (turn : event.opens ≠ s.tradeOpen) :
    (∀ first ∈ (tradeEvents t.logs.audit).head?, first.opens = true) ∧
      (tradeEvents t.logs.audit).IsChain fun event next => event.opens ≠ next.opens := by
  rw [audit]
  constructor
  · intro first member
    cases shape : tradeEvents s.logs.audit with
    | nil =>
        rw [shape] at member
        obtain rfl : event = first := Option.some.inj member
        rw [told.empty shape] at turn
        exact Bool.eq_true_of_not_eq_false turn
    | cons head rest =>
        rw [shape] at member
        refine told.starts first ?_
        rw [shape]
        exact member
  · refine List.isChain_append.mpr ⟨told.alternate, .singleton event, fun last isLast new isNew => ?_⟩
    obtain rfl : event = new := Option.some.inj isNew
    rw [told.ends last isLast]
    exact turn.symm

theorem exit {reasonCode : String} {row : TradeLog} (told : Told s) (isOpen : s.tradeOpen = true)
    (audit : tradeEvents t.logs.audit =
      tradeEvents s.logs.audit ++ [.exited s.tradeId reasonCode])
    (trades : t.logs.trades = s.logs.trades ++ [row])
    (shown : (row.tradeId, row.exitReason.text) = (s.tradeId, reasonCode))
    (closed : t.tradeOpen = false) : Told t := by
  have turn : (TradeEvent.exited s.tradeId reasonCode).opens ≠ s.tradeOpen := by
    rw [isOpen]
    exact Bool.false_ne_true
  obtain ⟨starts, alternate⟩ := told.next audit turn
  refine ⟨starts, alternate, fun last isLast => ?_, fun _ => closed, fun tradeId member => ?_, ?_⟩
  · rw [audit, List.getLast?_concat] at isLast
    obtain rfl := Option.some.inj isLast
    exact closed.symm
  · rw [audit] at member ⊢
    rcases List.mem_append.mp member with old | new
    · refine Or.inl ?_
      rcases told.exited tradeId old with ⟨code, before⟩ | ⟨_, rfl⟩
      · exact ⟨code, List.mem_append_left _ before⟩
      · exact ⟨reasonCode, List.mem_append_right _ List.mem_cons_self⟩
    · exact TradeEvent.noConfusion (List.mem_singleton.mp new)
  · rw [audit, trades, List.filterMap_append, told.same_exits, exitReasons, exitReasons,
      List.map_append, List.map_singleton, shown]
    rfl

theorem accept (told : Told s) (flat : s.tradeOpen = false) (opened : t.tradeOpen = true)
    (audit : tradeEvents t.logs.audit = tradeEvents s.logs.audit ++ [.accepted t.tradeId])
    (trades : t.logs.trades = s.logs.trades) : Told t := by
  have turn : (TradeEvent.accepted t.tradeId).opens ≠ s.tradeOpen := by
    rw [flat]
    exact Bool.noConfusion
  obtain ⟨starts, alternate⟩ := told.next audit turn
  refine ⟨starts, alternate, fun last isLast => ?_, fun empty => ?_, fun tradeId member => ?_, ?_⟩
  · rw [audit, List.getLast?_concat] at isLast
    obtain rfl := Option.some.inj isLast
    exact opened.symm
  · rw [audit] at empty
    exact absurd empty (List.append_ne_nil_of_right_ne_nil _ (List.cons_ne_nil _ _))
  · rw [audit] at member ⊢
    rcases List.mem_append.mp member with old | new
    · rcases told.exited tradeId old with ⟨code, before⟩ | ⟨isOpen, _⟩
      · exact Or.inl ⟨code, List.mem_append_left _ before⟩
      · exact absurd (flat.symm.trans isOpen) Bool.false_ne_true
    · obtain rfl := TradeEvent.accepted.inj (List.mem_singleton.mp new)
      exact Or.inr ⟨opened, rfl⟩
  · rw [audit, trades, List.filterMap_append, told.same_exits]
    exact List.append_nil _

end Told

theorem tradeEvents_snoc (audit : List AuditEvent) (event : AuditEvent) :
    tradeEvents (audit ++ [event]) = tradeEvents audit ++ event.trade?.toList := by
  rw [tradeEvents, List.filterMap_append]
  cases event <;> rfl

theorem LoopMove.told {bars : List Bar} {s t : LoopState} {m : ℕ × Move}
    (step : LoopMove bars s m t) (told : Told s) : Told t := by
  cases step with
  | score => exact told.other rfl rfl rfl rfl
  | exit isOpen => exact told.exit isOpen (tradeEvents_snoc _ _) rfl rfl rfl
  | accept _ _ flat => exact told.accept flat rfl (tradeEvents_snoc _ _) rfl
  | breakout | expire | reject =>
      refine told.other ?_ rfl rfl rfl
      exact (tradeEvents_snoc _ _).trans (List.append_nil _)

theorem stateAfter_told (bars : List Bar) (n : ℕ) : Told (stateAfter bars n) := by
  refine stateAfter_of_moves Told ?_ (fun _ _ _ told step => step.told told) n
  constructor <;> simp [tradeEvents, exitReasons]

/-- The row of a trade closed by the end of the data has no event. -/
theorem not_sameStory_of_open {bars : List Bar} (isOpen : (runLoop bars).tradeOpen = true) :
    ¬ SameStory (runBacktest bars) := by
  intro story
  have told : Told (runLoop bars) := stateAfter_told bars bars.length
  obtain ⟨_, _, audit⟩ := runBacktest_logs bars
  have trades : (runBacktest bars).logs.trades.length = (runLoop bars).logs.trades.length + 1 := by
    rw [runBacktest_trades isOpen, List.length_append, List.length_singleton]
  have same := story.same_exits
  rw [audit, told.same_exits] at same
  have size := congrArg List.length same
  rw [exitReasons, exitReasons, List.length_map, List.length_map, trades] at size
  omega

/-- The two logs tell the same story exactly when no trade is open after the last bar. -/
theorem sameStory_iff (bars : List Bar) :
    SameStory (runBacktest bars) ↔ (runLoop bars).tradeOpen = false := by
  constructor
  · intro story
    refine Bool.eq_false_of_not_eq_true fun isOpen => ?_
    exact not_sameStory_of_open isOpen story
  · intro flat
    have told : Told (runLoop bars) := stateAfter_told bars bars.length
    rw [runBacktest_flat flat]
    refine ⟨told.starts, told.alternate, fun tradeId member => ?_, told.same_exits⟩
    rcases told.exited tradeId member with closed | ⟨isOpen, _⟩
    · exact closed
    · exact absurd (flat.symm.trans isOpen) Bool.false_ne_true

/-- On `losingBars` the only trade is closed by the end of the data. -/
theorem losingBars_story : ¬ SameStory (runBacktest losingBars) := by
  have isOpen : (runLoop losingBars).tradeOpen = true := by
    decide +kernel
  exact not_sameStory_of_open isOpen

end PrismPipeline.Backtest
