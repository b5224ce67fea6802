import PrismPipeline.Backtest.Moves
import PrismPipeline.Backtest.Setup
import PrismPipeline.Series.Marks

/-!
# The breakout an entry belongs to

The flags of the loop run through the phases of a setup, so the moves since a breakout
are the life of that breakout.  With the bar numbers of the moves, each entry belongs to
the latest breakout at or before its bar.
-/

namespace PrismPipeline.Backtest

open PrismPipeline.Machine PrismPipeline.Series

/-! ## The phases of the loop -/

/-- The phase the flags of the loop stand for. -/
def LoopState.setupPhase (s : LoopState) : SetupPhase :=
  if s.tradeOpen then (if s.reentryUsed then .second else .first)
  else if s.priorBreakout then .armed
  else if s.canReentry && !s.reentryUsed then .rearmed
  else .idle

def LoopState.setup (s : LoopState) : SetupPhase × Int32 := (s.setupPhase, s.tradeId)

def Move.setup? : Move → Option SetupEvent
  | .score _ | .reject _ => none
  | .exit row =>
      some (.leave row.tradeId (row.exitReason = .stopHit ∨ row.exitReason = .timeExit))
  | .breakout _ => some .breakout
  | .expire => some .expire
  | .accept row tradeId => some (.enter row.entryType tradeId)

def setupEvents (moves : List (ℕ × Move)) : List SetupEvent :=
  moves.filterMap fun m => m.2.setup?

theorem setupPhase_flat {s : LoopState} (flat : s.tradeOpen = false) :
    ¬ s.setupPhase.Holding := by
  unfold LoopState.setupPhase
  rw [flat]
  split
  · next isOpen => exact absurd isOpen Bool.false_ne_true
  split
  · exact id
  split <;> exact id

section Phases

variable {bars : List Bar} {s t : LoopState} {m : ℕ × Move}

/-- Every move is a step of the setup or leaves it alone. -/
theorem LoopMove.setup_step (step : LoopMove bars s m t) :
    Matches SetupStep s.setup m.2.setup? t.setup := by
  cases step with
  | score | reject => exact rfl
  | @exit i _ reason exitPrice isOpen _ flags =>
      change SetupStep s.setup
        (.leave s.tradeId (decide (reason = .stopHit ∨ reason = .timeExit))) _
      unfold LoopState.setup LoopState.setupPhase closeTrade
      rw [isOpen, flags.1]
      cases used : s.reentryUsed with
      | true => simpa [used] using SetupStep.finishSecond s.tradeId _
      | false =>
          cases rearms : decide (reason = .stopHit ∨ reason = .timeExit) with
          | true => simpa [used, rearms] using SetupStep.rearm s.tradeId
          | false => simpa [used, rearms] using SetupStep.finish s.tradeId
  | @breakout i _ _ flat =>
      have armed : (markBreakout bars i s).setup = (.armed, s.tradeId) := by
        simp [LoopState.setup, LoopState.setupPhase, markBreakout, LoopState.pushAudit, flat]
      rw [armed]
      exact .breakout s.tradeId (setupPhase_flat flat)
  | @expire i _ armed flat notAgain =>
      have before : s.setup = (.armed, s.tradeId) := by
        simp [LoopState.setup, LoopState.setupPhase, flat, armed]
      have after : (markExpired bars i s).setup = (.idle, s.tradeId) := by
        simp [LoopState.setup, LoopState.setupPhase, markExpired, LoopState.pushAudit, flat,
          notAgain]
      rw [before, after]
      exact .expire s.tradeId
  | @accept i _ label _ _ flat _ _ window =>
      have entered : (retestRow bars i [] s).entryType = label := window.label_eq
      change SetupStep s.setup (.enter (retestRow bars i [] s).entryType (s.tradeId + 1)) _
      rw [entered]
      cases window with
      | fresh armed notAgain unused =>
          have before : s.setup = (.armed, s.tradeId) := by
            simp [LoopState.setup, LoopState.setupPhase, flat, armed]
          rw [before]
          simpa [LoopState.setup, LoopState.setupPhase, acceptTrade, LoopState.pushAudit,
            logIntent, setLevels, notAgain, unused] using SetupStep.enter s.tradeId
      | again idle rearmed unused =>
          have before : s.setup = (.rearmed, s.tradeId) := by
            simp [LoopState.setup, LoopState.setupPhase, flat, idle, rearmed, unused]
          rw [before]
          simpa [LoopState.setup, LoopState.setupPhase, acceptTrade, LoopState.pushAudit,
            logIntent, setLevels, rearmed] using SetupStep.reenter s.tradeId

/-- The loop refines the setup: its moves are lives of breakouts. -/
theorem setupEvents_lives {moves : List (ℕ × Move)} (run : LabelledRun (LoopMove bars) {} moves s) :
    Lives (setupEvents moves) s.setup :=
  lives_of_run (run.refines LoopState.setup (fun m => m.2.setup?)
    fun _ _ _ step => step.setup_step)

end Phases

/-! ## The breakout an entry belongs to -/

/-- The bars on which a breakout was found. -/
def breakoutMarks (moves : List (ℕ × Move)) : List ℕ :=
  moves.filterMap fun m => match m.2 with
    | .breakout _ => some m.1
    | _ => none

/-- The bars on which a trade was taken, with its label. -/
def entryMarks (moves : List (ℕ × Move)) : List (ℕ × EntryType) :=
  moves.filterMap fun m => m.2.accepted?.map fun row => (m.1, row.entryType)

section Marks

variable (moves : List (ℕ × Move)) (m : ℕ × Move)

theorem setupEvents_snoc : setupEvents (moves ++ [m]) = setupEvents moves ++ m.2.setup?.toList := by
  unfold setupEvents
  rw [List.filterMap_append]
  rfl

theorem breakoutMarks_snoc (i : ℕ) (level : ℚ) :
    breakoutMarks (moves ++ [(i, .breakout level)]) = breakoutMarks moves ++ [i] := by
  unfold breakoutMarks
  rw [List.filterMap_append]
  rfl

theorem breakoutMarks_snoc_other (other : ∀ level, m.2 ≠ .breakout level) :
    breakoutMarks (moves ++ [m]) = breakoutMarks moves := by
  unfold breakoutMarks
  rw [List.filterMap_append]
  obtain ⟨i, move⟩ := m
  cases move with
  | breakout level => exact absurd rfl (other level)
  | score | exit | expire | accept | reject => exact List.append_nil _

theorem entryMarks_snoc (i : ℕ) (row : IntentLog) (trade : Int32) :
    entryMarks (moves ++ [(i, .accept row trade)]) = entryMarks moves ++ [(i, row.entryType)] := by
  unfold entryMarks
  rw [List.filterMap_append]
  rfl

theorem entryMarks_snoc_other (other : ∀ row trade, m.2 ≠ .accept row trade) :
    entryMarks (moves ++ [m]) = entryMarks moves := by
  unfold entryMarks
  rw [List.filterMap_append]
  obtain ⟨i, move⟩ := m
  cases move with
  | accept row trade => exact absurd rfl (other row trade)
  | score | exit | breakout | expire | reject => exact List.append_nil _

end Marks

/-- Events, breakouts and entries so far against the variables that remember them;
`Good` is whatever each entry satisfies with the breakout it belongs to. -/
structure Attributed (Good : ℕ × EntryType → ℕ → Prop) (events : List SetupEvent)
    (marks : List ℕ) (entries : List (ℕ × EntryType)) (s : LoopState) : Prop where
  last : marks.getLast? = some s.breakoutI ∨ (events = [] ∧ marks = [] ∧ entries = [])
  marks_le : ∀ mark ∈ marks, mark ≤ s.breakoutI
  entries_le : ∀ entry ∈ entries, entry.1 ≤ s.entryI
  found : ∀ entry ∈ entries, latestMark marks entry.1 ≠ none
  good : ∀ entry ∈ entries, ∀ mark, latestMark marks entry.1 = some mark → Good entry mark
  current : entriesUnder marks entries s.breakoutI = enteredLabels (sinceBreakout events)
  atMostOnce : ∀ mark, entriesUnder marks entries mark <+: [.retestEntry, .reEntry]

namespace Attributed

variable {Good : ℕ × EntryType → ℕ → Prop} {events : List SetupEvent} {marks : List ℕ}
  {entries : List (ℕ × EntryType)} {s t : LoopState} {i : ℕ}

theorem initial : Attributed Good [] [] [] {} := by
  refine ⟨Or.inr ⟨rfl, rfl, rfl⟩, ?_, ?_, ?_, ?_, rfl, fun _ => List.nil_prefix⟩
    <;> simp

theorem mono {Better : ℕ × EntryType → ℕ → Prop} (before : Attributed Good events marks entries s)
    (improves : ∀ entry mark, Good entry mark → Better entry mark) :
    Attributed Better events marks entries s :=
  { before with
    good := fun entry member mark latest =>
      improves entry mark (before.good entry member mark latest) }

/-- A breakout takes over from the one before; no entry changes hands. -/
theorem breakout (before : Attributed Good events marks entries s)
    (entered : s.entryI < i) (seen : s.breakoutI ≤ i) (moved : t.breakoutI = i)
    (kept : t.entryI = s.entryI) :
    Attributed Good (events ++ [.breakout]) (marks ++ [i]) entries t := by
  have later : ∀ entry ∈ entries, entry.1 < i :=
    fun entry member => (before.entries_le entry member).trans_lt entered
  have same : ∀ entry ∈ entries, latestMark (marks ++ [i]) entry.1 = latestMark marks entry.1 :=
    fun entry member => latestMark_snoc_later marks (later entry member)
  refine ⟨?_, ?_, ?_, ?_, ?_, ?_, ?_⟩
  · exact Or.inl (moved ▸ List.getLast?_concat)
  · rw [List.forall_mem_append, List.forall_mem_singleton, moved]
    exact ⟨fun mark member => (before.marks_le mark member).trans seen, le_rfl⟩
  · exact kept ▸ before.entries_le
  · intro entry member
    rw [same entry member]
    exact before.found entry member
  · intro entry member
    rw [same entry member]
    exact before.good entry member
  · rw [moved, entriesUnder_snoc_mark later, entriesUnder_eq_nil later, sinceBreakout_breakout]
    rfl
  · intro mark
    rw [entriesUnder_snoc_mark later]
    exact before.atMostOnce mark

/-- An entry goes to the breakout in force. -/
theorem entry {label : EntryType} {trade : Int32} (before : Attributed Good events marks entries s)
    (lives : Lives (events ++ [.enter label trade]) t.setup) (entered : s.entryI ≤ i)
    (seen : s.breakoutI ≤ i) (good : Good (i, label) s.breakoutI)
    (kept : t.breakoutI = s.breakoutI) (moved : t.entryI = i) :
    Attributed Good (events ++ [.enter label trade]) marks (entries ++ [(i, label)]) t := by
  obtain ⟨known, life⟩ := lives.snoc SetupEvent.noConfusion
  have last : marks.getLast? = some s.breakoutI :=
    before.last.resolve_right fun nothing => known nothing.1
  have latest : latestMark marks i = some s.breakoutI := by
    rw [latestMark_of_le fun mark member => (before.marks_le mark member).trans seen, last]
  have labels : enteredLabels (sinceBreakout (events ++ [.enter label trade])) =
      enteredLabels (sinceBreakout events) ++ [label] := by
    rw [sinceBreakout_snoc events (by simp), enteredLabels_snoc]
  have current : entriesUnder marks (entries ++ [(i, label)]) s.breakoutI =
      enteredLabels (sinceBreakout (events ++ [.enter label trade])) := by
    rw [entriesUnder_snoc entries latest, if_pos rfl, before.current, labels]
  refine ⟨Or.inl (kept ▸ last), kept ▸ before.marks_le, ?_, ?_, ?_, kept ▸ current, ?_⟩
  · rw [List.forall_mem_append, List.forall_mem_singleton, moved]
    exact ⟨fun entry member => (before.entries_le entry member).trans entered, le_rfl⟩
  · rw [List.forall_mem_append, List.forall_mem_singleton]
    exact ⟨before.found, by simp [latest]⟩
  · rw [List.forall_mem_append, List.forall_mem_singleton]
    refine ⟨before.good, fun mark found => ?_⟩
    rw [latest] at found
    exact Option.some.inj found ▸ good
  · intro mark
    by_cases same : mark = s.breakoutI
    · rw [same, current]
      exact life.labels
    · rw [entriesUnder_snoc entries latest, if_neg same, List.append_nil]
      exact before.atMostOnce mark

/-- Any other move moves no entry. -/
theorem other {shown : Option SetupEvent} (before : Attributed Good events marks entries s)
    (lives : Lives (events ++ shown.toList) t.setup) (noBreakout : shown ≠ some .breakout)
    (noEntry : ∀ label trade, shown ≠ some (.enter label trade))
    (kept : t.breakoutI = s.breakoutI ∧ t.entryI = s.entryI) :
    Attributed Good (events ++ shown.toList) marks entries t := by
  cases shown with
  | none =>
      rw [Option.toList_none, List.append_nil]
      exact ⟨kept.1 ▸ before.last, kept.1 ▸ before.marks_le, kept.2 ▸ before.entries_le,
        before.found, before.good, kept.1 ▸ before.current, before.atMostOnce⟩
  | some event =>
      have quiet : event ≠ .breakout := fun same => noBreakout (congrArg some same)
      have labels : enteredLabels (sinceBreakout (events ++ [event])) =
          enteredLabels (sinceBreakout events) := by
        rw [sinceBreakout_snoc events quiet]
        exact enteredLabels_snoc_other _ fun label trade same =>
          noEntry label trade (congrArg some same)
      have last : marks.getLast? = some s.breakoutI :=
        before.last.resolve_right fun nothing => (lives.snoc quiet).1 nothing.1
      exact ⟨Or.inl (kept.1 ▸ last), kept.1 ▸ before.marks_le, kept.2 ▸ before.entries_le,
        before.found, before.good, kept.1 ▸ before.current.trans labels.symm, before.atMostOnce⟩

end Attributed

end PrismPipeline.Backtest
