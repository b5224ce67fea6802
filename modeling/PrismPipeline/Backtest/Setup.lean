import Mathlib.Data.List.DropRight
import PrismPipeline.Backtest.Data
import PrismPipeline.Machine.Refinement

/-!
# The life of a breakout

What a backtest may do with one breakout, apart from all prices: it waits for a first
trade or gives up, and a first trade that ends in a way that rearms the setup may be
followed by one more.  A breakout ends whatever the one before it had pending.  Trades
are numbered in the order in which they are entered, in the range of an `int`.
-/

namespace PrismPipeline.Backtest

open PrismPipeline.Machine

inductive SetupPhase where
  | idle
  | armed
  | first
  | rearmed
  | second
  deriving DecidableEq, Repr

/-- A trade is open in this phase. -/
def SetupPhase.Holding : SetupPhase → Prop
  | .first | .second => True
  | .idle | .armed | .rearmed => False

inductive SetupEvent where
  | breakout
  | expire
  | enter (label : EntryType) (trade : Int32)
  | leave (trade : Int32) (rearms : Bool)
  deriving DecidableEq, Repr

/-- Steps of a setup; the number counts the trades entered so far. -/
inductive SetupStep : SetupPhase × Int32 → SetupEvent → SetupPhase × Int32 → Prop where
  | breakout {phase : SetupPhase} (trades : Int32) (flat : ¬ phase.Holding) :
      SetupStep (phase, trades) .breakout (.armed, trades)
  | expire (trades : Int32) : SetupStep (.armed, trades) .expire (.idle, trades)
  | enter (trades : Int32) :
      SetupStep (.armed, trades) (.enter .retestEntry (trades + 1)) (.first, trades + 1)
  | rearm (trades : Int32) : SetupStep (.first, trades) (.leave trades true) (.rearmed, trades)
  | finish (trades : Int32) : SetupStep (.first, trades) (.leave trades false) (.idle, trades)
  | reenter (trades : Int32) :
      SetupStep (.rearmed, trades) (.enter .reEntry (trades + 1)) (.second, trades + 1)
  | finishSecond (trades : Int32) (rearms : Bool) :
      SetupStep (.second, trades) (.leave trades rearms) (.idle, trades)

/-- What has happened since the last breakout, phase by phase. -/
inductive Life : SetupPhase × Int32 → List SetupEvent → Prop where
  | armed (trades : Int32) : Life (.armed, trades) []
  | expired (trades : Int32) : Life (.idle, trades) [.expire]
  | first (trade : Int32) : Life (.first, trade) [.enter .retestEntry trade]
  | rearmed (trade : Int32) :
      Life (.rearmed, trade) [.enter .retestEntry trade, .leave trade true]
  | finished (trade : Int32) : Life (.idle, trade) [.enter .retestEntry trade, .leave trade false]
  | second (trade : Int32) :
      Life (.second, trade + 1)
        [.enter .retestEntry trade, .leave trade true, .enter .reEntry (trade + 1)]
  | finishedSecond (trade : Int32) (rearms : Bool) :
      Life (.idle, trade + 1)
        [.enter .retestEntry trade, .leave trade true, .enter .reEntry (trade + 1),
          .leave (trade + 1) rearms]

/-- The events after the last breakout. -/
def sinceBreakout (events : List SetupEvent) : List SetupEvent :=
  events.rtakeWhile (· ≠ .breakout)

theorem sinceBreakout_breakout (events : List SetupEvent) :
    sinceBreakout (events ++ [.breakout]) = [] :=
  List.rtakeWhile_concat_neg _ _ _ (by decide)

theorem sinceBreakout_snoc (events : List SetupEvent) {event : SetupEvent}
    (other : event ≠ .breakout) :
    sinceBreakout (events ++ [event]) = sinceBreakout events ++ [event] :=
  List.rtakeWhile_concat_pos _ _ _ (decide_eq_true other)

/-- Nothing happens before the first breakout, and after every breakout its life
begins anew. -/
def Lives (events : List SetupEvent) (state : SetupPhase × Int32) : Prop :=
  (events = [] ∧ state = (.idle, 0)) ∨
    (.breakout ∈ events ∧ Life state (sinceBreakout events))

theorem lives_step {events : List SetupEvent} {event : SetupEvent}
    {before after : SetupPhase × Int32} (lives : Lives events before)
    (step : SetupStep before event after) : Lives (events ++ [event]) after := by
  cases step with
  | breakout trades =>
      refine Or.inr ⟨List.mem_append_right _ List.mem_cons_self, ?_⟩
      rw [sinceBreakout_breakout]
      exact .armed trades
  | expire | enter | rearm | finish | reenter | finishSecond =>
      rcases lives with ⟨_, start⟩ | ⟨broken, life⟩
      · cases start
      refine Or.inr ⟨List.mem_append_left _ broken, ?_⟩
      rw [sinceBreakout_snoc events (by simp)]
      generalize sinceBreakout events = since at *
      cases life
      constructor

/-- Any other event comes after a breakout, in its life. -/
theorem Lives.snoc {events : List SetupEvent} {event : SetupEvent}
    {state : SetupPhase × Int32} (lives : Lives (events ++ [event]) state)
    (other : event ≠ .breakout) : events ≠ [] ∧ Life state (sinceBreakout (events ++ [event])) := by
  rcases lives with ⟨empty, _⟩ | ⟨broken, life⟩
  · exact absurd empty (List.append_ne_nil_of_right_ne_nil _ (List.cons_ne_nil _ _))
  · rcases List.mem_append.mp broken with earlier | newest
    · exact ⟨List.ne_nil_of_mem earlier, life⟩
    · exact absurd (List.mem_singleton.mp newest).symm other

/-- Every run from the start is a sequence of such lives. -/
theorem lives_of_run {events : List SetupEvent} {state : SetupPhase × Int32}
    (run : LabelledRun SetupStep (.idle, 0) events state) : Lives events state :=
  run.history Lives (Or.inl ⟨rfl, rfl⟩) fun _ _ _ _ lives step => lives_step lives step

/-- The labels of the trades entered. -/
def enteredLabels (events : List SetupEvent) : List EntryType :=
  events.filterMap fun
    | .enter label _ => some label
    | _ => none

theorem enteredLabels_snoc (events : List SetupEvent) (label : EntryType) (trade : Int32) :
    enteredLabels (events ++ [.enter label trade]) = enteredLabels events ++ [label] := by
  unfold enteredLabels
  rw [List.filterMap_append]
  rfl

theorem enteredLabels_snoc_other (events : List SetupEvent) {event : SetupEvent}
    (other : ∀ label trade, event ≠ .enter label trade) :
    enteredLabels (events ++ [event]) = enteredLabels events := by
  unfold enteredLabels
  rw [List.filterMap_append]
  cases event with
  | enter label trade => exact absurd rfl (other label trade)
  | breakout | expire | leave => exact List.append_nil _

/-- One breakout leads to at most one first trade and, after it, one more. -/
theorem Life.labels {state : SetupPhase × Int32} {since : List SetupEvent}
    (life : Life state since) : enteredLabels since <+: [.retestEntry, .reEntry] := by
  cases life with
  | armed | expired => exact ⟨[.retestEntry, .reEntry], rfl⟩
  | first | rearmed | finished => exact ⟨[.reEntry], rfl⟩
  | second | finishedSecond => exact ⟨[], rfl⟩

end PrismPipeline.Backtest
