import PrismPipeline.Backtest.Attribution

/-!
# Entry discipline

One breakout leads to at most one entry and one re-entry, each within its window, and
the re-entry follows the close of the first trade.  All of this holds in every run but
for one clause: the window of a re-entry is tested on a difference of bar numbers cast
to `int`, which comes out negative at 2^31 bars and lets a re-entry through long after
its window.
-/

namespace PrismPipeline.Backtest

open PrismPipeline.Machine PrismPipeline.Series

/-- The bars of the `BREAKOUT` events of a run. -/
def breakoutBars (bars : List Bar) : List ℕ :=
  (auditBy bars bars.length).filterMap fun event => match event.2 with
    | .breakout _ _ => some event.1
    | _ => none

/-- The bars of the accepted intents of a run, with their labels. -/
def entryBars (bars : List Bar) : List (ℕ × EntryType) :=
  (acceptedBy bars bars.length).map fun entry => (entry.1, entry.2.entryType)

/-- Entries of a run against its breakouts. -/
structure EntryDiscipline (bars : List Bar) : Prop where
  after_breakout : ∀ entry ∈ entryBars bars, latestMark (breakoutBars bars) entry.1 ≠ none
  at_most_once : ∀ b, entriesUnder (breakoutBars bars) (entryBars bars) b <+:
    [.retestEntry, .reEntry]
  retest_in_time : ∀ i b, (i, .retestEntry) ∈ entryBars bars →
    latestMark (breakoutBars bars) i = some b → i ≤ b + 5
  reentry_in_time : ∀ i b, (i, .reEntry) ∈ entryBars bars →
    latestMark (breakoutBars bars) i = some b → i ≤ b + 15
  reentry_follows : ∀ i b, (i, .reEntry) ∈ entryBars bars →
    latestMark (breakoutBars bars) i = some b →
    ∃ first close row timestamp, (first, .retestEntry) ∈ entryBars bars ∧ b ≤ first ∧
      (first, .tradeAccepted timestamp row.tradeId) ∈ auditBy bars bars.length ∧
      (close, row) ∈ tradesBy bars bars.length ∧
      row.holdingBars = ((close - first : ℕ) : ℤ) ∧ first < close ∧ close ≤ i

/-- On bar `i` a retest is taken as a re-entry although its window has closed: the bars
since the breakout are more than the fifteen allowed and wrap round in the cast. -/
structure WrappedReentry (bars : List Bar) (i : ℕ) : Prop where
  warm : lookback ≤ i
  flat : (gateState bars i).tradeOpen = false
  rearmed : (gateState bars i).canReentry = true
  unused : (gateState bars i).reentryUsed = false
  closed : (gateState bars i).breakoutI + 15 < i
  wrapped : castInt (i - (gateState bars i).breakoutI) ≤ entryTtl + 10
  retest : isRetest (barAt bars i) (gateState bars i).breakout
  clean : rejectReasons bars i (barScore bars i)
    (setLevels (barAt bars i) (gateState bars i)) = []

def NoWrappedReentry (bars : List Bar) : Prop := ∀ i < bars.length, ¬ WrappedReentry bars i

/-! ## What each entry satisfies -/

/-- A first trade was taken from bar `mark` on and closed again by bar `last`. -/
def ClosedFirst (moves : List (ℕ × Move)) (mark last : ℕ) : Prop :=
  ∃ first close row trade, (first, .accept row trade.tradeId) ∈ moves ∧
    row.entryType = .retestEntry ∧ (close, .exit trade) ∈ moves ∧
    trade.holdingBars = ((close - first : ℕ) : ℤ) ∧ mark ≤ first ∧ first < close ∧ close ≤ last

/-- Why an entry was let in, with the breakout it belongs to. -/
structure Justified (bars : List Bar) (moves : List (ℕ × Move)) (entry : ℕ × EntryType)
    (mark : ℕ) : Prop where
  current : (gateState bars entry.1).breakoutI = mark
  retest : entry.2 = .retestEntry → entry.1 ≤ mark + 5
  reentry : entry.2 = .reEntry →
    (entry.1 ≤ mark + 15 ∨ WrappedReentry bars entry.1) ∧ ClosedFirst moves mark entry.1

/-- What the variables say about the trade of the current setup. -/
structure TradeMemory (moves : List (ℕ × Move)) (s : LoopState) : Prop where
  opened : s.tradeOpen = true → ∃ row, (s.entryI, .accept row s.tradeId) ∈ moves ∧
    (s.reentryUsed = false → row.entryType = .retestEntry ∧ s.breakoutI ≤ s.entryI) ∧
    (s.reentryUsed = true → row.entryType = .reEntry)
  rearmed : s.canReentry = true → s.reentryUsed = false →
    ∃ last, ClosedFirst moves s.breakoutI last ∧ ∃ m ∈ moves, m.1 = last

section Step

variable {bars : List Bar} {moves : List (ℕ × Move)} {s t : LoopState} {m : ℕ × Move}

theorem ClosedFirst.snoc {mark last : ℕ} (closed : ClosedFirst moves mark last) (m : ℕ × Move) :
    ClosedFirst (moves ++ [m]) mark last := by
  obtain ⟨first, close, row, trade, taken, label, left, order⟩ := closed
  exact ⟨first, close, row, trade, List.mem_append_left _ taken, label,
    List.mem_append_left _ left, order⟩

theorem ClosedFirst.mono {mark last later : ℕ} (closed : ClosedFirst moves mark last)
    (order : last ≤ later) : ClosedFirst moves mark later := by
  obtain ⟨first, close, row, trade, taken, label, left, held, from_mark, after, by_last⟩ := closed
  exact ⟨first, close, row, trade, taken, label, left, held, from_mark, after,
    by_last.trans order⟩

theorem Justified.snoc {entry : ℕ × EntryType} {mark : ℕ}
    (justified : Justified bars moves entry mark) (m : ℕ × Move) :
    Justified bars (moves ++ [m]) entry mark :=
  ⟨justified.current, justified.retest, fun again =>
    ⟨(justified.reentry again).1, (justified.reentry again).2.snoc m⟩⟩

/-- A move that leaves the trade and the setup as they are keeps what is known. -/
theorem TradeMemory.other (memory : TradeMemory moves s) (m : ℕ × Move)
    (isOpen : t.tradeOpen = true → s.tradeOpen = true)
    (again : t.canReentry = true → s.canReentry = true)
    (kept : t.entryI = s.entryI ∧ t.tradeId = s.tradeId ∧ t.reentryUsed = s.reentryUsed ∧
      t.breakoutI = s.breakoutI) : TradeMemory (moves ++ [m]) t := by
  obtain ⟨entryI, tradeId, used, breakoutI⟩ := kept
  refine ⟨fun stillOpen => ?_, fun rearmed unused => ?_⟩
  · obtain ⟨row, taken, first⟩ := memory.opened (isOpen stillOpen)
    rw [entryI, tradeId, used, breakoutI]
    exact ⟨row, List.mem_append_left _ taken, first⟩
  · obtain ⟨last, closed, old, member, at_last⟩ := memory.rearmed (again rearmed) (used ▸ unused)
    rw [breakoutI]
    exact ⟨last, closed.snoc m, old, List.mem_append_left _ member, at_last⟩

theorem TradeMemory.snoc (memory : TradeMemory moves s) (step : LoopMove bars s m t) :
    TradeMemory (moves ++ [m]) t := by
  cases step with
  | score | reject | expire => exact memory.other _ id id ⟨rfl, rfl, rfl, rfl⟩
  | breakout _ flat =>
      refine ⟨fun isOpen => ?_, fun again => Bool.noConfusion again⟩
      exact absurd (flat.symm.trans isOpen) Bool.false_ne_true
  | @exit i _ reason exitPrice isOpen _ _ entered recent =>
      refine ⟨fun stillOpen => Bool.noConfusion stillOpen, fun _ unused => ?_⟩
      obtain ⟨row, taken, first, _⟩ := memory.opened isOpen
      obtain ⟨label, from_mark⟩ := first unused
      have newest : (i, Move.exit (tradeRow bars i s reason exitPrice)) ∈
          moves ++ [(i, Move.exit (tradeRow bars i s reason exitPrice))] :=
        List.mem_append_right _ List.mem_cons_self
      exact ⟨i, ⟨s.entryI, i, row, _, List.mem_append_left _ taken, label, newest,
        tradeRow_holdingBars bars reason exitPrice recent, from_mark, entered, le_rfl⟩,
        _, newest, rfl⟩
  | @accept i _ label _ _ _ _ seen window =>
      have taken : (retestRow bars i [] s).entryType = label := window.label_eq
      refine ⟨fun _ => ⟨retestRow bars i [] s, List.mem_append_right _ List.mem_cons_self, ?_, ?_⟩,
        fun again => Bool.noConfusion again⟩
      · intro unused
        have notAgain : s.canReentry = false := (Bool.or_eq_false_iff.mp unused).1
        cases window with
        | fresh => exact ⟨taken, seen⟩
        | again _ rearmed => exact absurd (notAgain.symm.trans rearmed) Bool.false_ne_true
      · intro used
        cases window with
        | fresh _ notAgain unused =>
            have neither : (s.canReentry || s.reentryUsed) = false := by rw [notAgain, unused]; rfl
            exact absurd (neither.symm.trans used) Bool.false_ne_true
        | again => exact taken

/-- A retest is taken for a reason. -/
theorem justified_of_window {i : ℕ} {label : EntryType} (memory : TradeMemory moves s)
    (ordered : ∀ old ∈ moves, old.1 ≤ i) (here : s = gateState bars i) (warm : lookback ≤ i)
    (flat : s.tradeOpen = false) (window : InWindow i s label)
    (retest : isRetest (barAt bars i) s.breakout)
    (clean : rejectReasons bars i (barScore bars i) (setLevels (barAt bars i) s) = []) :
    Justified bars moves (i, label) s.breakoutI := by
  cases window with
  | fresh _ _ _ recent =>
      exact ⟨congrArg _ here.symm, fun _ => recent, fun again => EntryType.noConfusion again⟩
  | again _ rearmed unused recent =>
      obtain ⟨last, closed, old, member, rfl⟩ := memory.rearmed rearmed unused
      refine ⟨congrArg _ here.symm, fun fresh => EntryType.noConfusion fresh, fun _ => ⟨?_, ?_⟩⟩
      · rcases Nat.lt_or_ge (s.breakoutI + 15) i with late | inTime
        · subst here
          exact Or.inr ⟨warm, flat, rearmed, unused, late, recent, retest, clean⟩
        · exact Or.inl inTime
      · exact closed.mono (ordered old member)

end Step

/-- The moves so far, attributed and remembered. -/
structure Story (bars : List Bar) (moves : List (ℕ × Move)) (s : LoopState) : Prop where
  run : LabelledRun (LoopMove bars) {} moves s
  attributed : Attributed (Justified bars moves) (setupEvents moves) (breakoutMarks moves)
    (entryMarks moves) s
  memory : TradeMemory moves s

namespace Story

variable {bars : List Bar} {moves : List (ℕ × Move)} {s t : LoopState} {m : ℕ × Move}

theorem initial (bars : List Bar) : Story bars [] {} := by
  refine ⟨.nil _, .initial, ?_, ?_⟩ <;> simp

/-- A move that neither finds a breakout nor takes a trade moves no entry. -/
theorem other (story : Story bars moves s) (step : LoopMove bars s m t)
    (noBreakout : ∀ level, m.2 ≠ .breakout level) (noEntry : ∀ row trade, m.2 ≠ .accept row trade)
    (kept : t.breakoutI = s.breakoutI ∧ t.entryI = s.entryI) : Story bars (moves ++ [m]) t := by
  have run := story.run.snoc step
  have lives := setupEvents_lives run
  refine ⟨run, ?_, story.memory.snoc step⟩
  rw [setupEvents_snoc] at lives ⊢
  rw [breakoutMarks_snoc_other moves m noBreakout,
    entryMarks_snoc_other moves m noEntry]
  have attributed := story.attributed.mono fun _ _ justified => justified.snoc m
  refine attributed.other lives (fun shown => ?_) (fun label trade shown => ?_) kept
  · obtain ⟨i, move⟩ := m
    cases move with
    | breakout level => exact noBreakout level rfl
    | score | exit | expire | accept | reject => cases shown
  · obtain ⟨i, move⟩ := m
    cases move with
    | accept row id => exact noEntry row id rfl
    | score | exit | expire | breakout | reject => cases shown

theorem snoc (story : Story bars moves s) (ordered : ∀ old ∈ moves, old.1 ≤ m.1)
    (step : LoopMove bars s m t) : Story bars (moves ++ [m]) t := by
  have run := story.run.snoc step
  have lives := setupEvents_lives run
  have attributed := story.attributed.mono fun _ _ justified => justified.snoc m
  have memory := story.memory.snoc step
  have other := story.other step
  cases step with
  | score | reject | expire | exit => exact other (by simp) (by simp) ⟨rfl, rfl⟩
  | breakout _ _ entered seen =>
      refine ⟨run, ?_, memory⟩
      rw [setupEvents_snoc, breakoutMarks_snoc, entryMarks_snoc_other _ _ (by simp)]
      exact attributed.breakout entered seen rfl rfl
  | @accept i _ label here warm flat entered seen window retest clean =>
      refine ⟨run, ?_, memory⟩
      have justified := justified_of_window story.memory ordered here warm flat window retest clean
      have taken : (retestRow bars i [] s).entryType = label := window.label_eq
      rw [← taken] at justified
      rw [setupEvents_snoc] at lives ⊢
      rw [breakoutMarks_snoc_other _ _ (by simp), entryMarks_snoc]
      exact attributed.entry lives entered seen (justified.snoc _) rfl rfl

end Story

theorem Timeline.story {bars : List Bar} {n : ℕ} {moves : List (ℕ × Move)}
    (timeline : Timeline bars n moves) : Story bars moves (stateAfter bars n) :=
  timeline.run.history_of_pairwise timeline.sorted (Story bars) (.initial bars)
    fun _ _ _ _ story ordered step => story.snoc ordered step

/-! ## The logs of a run -/

section Logs

variable {bars : List Bar} {moves : List (ℕ × Move)} (timeline : Timeline bars bars.length moves)
include timeline

theorem Timeline.breakoutBars_eq : breakoutBars bars = breakoutMarks moves := by
  unfold breakoutBars breakoutMarks
  rw [timeline.auditBy_eq, List.filterMap_filterMap]
  refine List.filterMap_congr fun m _ => ?_
  obtain ⟨i, move⟩ := m
  cases move <;> rfl

theorem Timeline.entryBars_eq : entryBars bars = entryMarks moves := by
  unfold entryBars entryMarks
  rw [timeline.acceptedBy_eq, List.map_filterMap]
  refine List.filterMap_congr fun m _ => ?_
  rw [Option.map_map]
  rfl

theorem Timeline.entry_lt {entry : ℕ × EntryType} (logged : entry ∈ entryBars bars) :
    entry.1 < bars.length := by
  rw [timeline.entryBars_eq] at logged
  obtain ⟨m, member, shown⟩ := List.mem_filterMap.mp logged
  obtain ⟨row, _, rfl⟩ := Option.map_eq_some_iff.mp shown
  exact timeline.stamp_lt m member

/-- What the moves tell of an early first trade can be read in the logs. -/
theorem Timeline.closedFirst_logged {mark last : ℕ} (closed : ClosedFirst moves mark last) :
    ∃ first close row timestamp, (first, .retestEntry) ∈ entryBars bars ∧ mark ≤ first ∧
      (first, .tradeAccepted timestamp row.tradeId) ∈ auditBy bars bars.length ∧
      (close, row) ∈ tradesBy bars bars.length ∧
      row.holdingBars = ((close - first : ℕ) : ℤ) ∧ first < close ∧ close ≤ last := by
  obtain ⟨first, close, row, trade, taken, label, left, held, from_mark, after, by_last⟩ := closed
  refine ⟨first, close, trade, (barAt bars first).timestamp, ?_, from_mark, ?_, ?_, held, after,
    by_last⟩
  · rw [timeline.entryBars_eq]
    exact List.mem_filterMap.mpr ⟨_, taken, congrArg (fun l => some (first, l)) label⟩
  · rw [timeline.auditBy_eq]
    exact List.mem_filterMap.mpr ⟨_, taken, rfl⟩
  · rw [timeline.tradesBy_eq]
    exact List.mem_filterMap.mpr ⟨_, left, rfl⟩

end Logs

/-- Where a re-entry is let in too late, the pass takes it. -/
theorem WrappedReentry.stateAfter_succ {bars : List Bar} {i : ℕ} (late : WrappedReentry bars i) :
    stateAfter bars (i + 1) = acceptTrade (barAt bars i) i (barScore bars i)
      (logIntent (barAt bars i) (barScore bars i) []
        (setLevels (barAt bars i) (gateState bars i))) := by
  have flat : (exitStep bars i (logScore (barScore bars i) (stateAfter bars i))).tradeOpen =
      false := (gate_tradeOpen bars i _).symm.trans late.flat
  have window : eligibleWindow i (gateState bars i) :=
    Or.inr ⟨late.rearmed, late.unused, late.wrapped⟩
  have gate : entryStep bars i (barScore bars i)
      (exitStep bars i (logScore (barScore bars i) (stateAfter bars i))) =
      takeRetest bars i (barScore bars i) (gateState bars i) :=
    (if_pos ⟨late.warm, flat⟩).trans (if_pos ⟨window, late.retest⟩)
  rw [stateAfter_add_one, gate]
  unfold takeRetest
  dsimp only
  rw [late.clean, if_pos rfl]

theorem WrappedReentry.logged {bars : List Bar} {i : ℕ} (late : WrappedReentry bars i)
    (inside : i < bars.length) : (i, EntryType.reEntry) ∈ entryBars bars := by
  obtain ⟨moves, timeline⟩ := exists_timeline bars (i + 1)
  have memory := timeline.story.memory
  rw [late.stateAfter_succ] at memory
  obtain ⟨row, taken, _, again⟩ := memory.opened rfl
  have label := again (by simp [acceptTrade, LoopState.pushAudit, logIntent, setLevels,
    late.rearmed])
  have accepted : (i, row) ∈ acceptedBy bars (i + 1) := by
    rw [timeline.acceptedBy_eq]
    exact List.mem_filterMap.mpr ⟨_, taken, rfl⟩
  have whole : acceptedBy bars (i + 1) <+: acceptedBy bars bars.length :=
    (stamped_mono _ bars inside).filter _
  exact List.mem_map.mpr ⟨_, whole.subset accepted, by rw [label]⟩

/-- A re-entry let in too late breaks the discipline of its run. -/
theorem WrappedReentry.breaks {bars : List Bar} {i : ℕ} (late : WrappedReentry bars i)
    (inside : i < bars.length) : ¬ EntryDiscipline bars := by
  intro discipline
  obtain ⟨moves, timeline⟩ := exists_timeline bars bars.length
  have attributed := timeline.story.attributed
  rw [← timeline.breakoutBars_eq, ← timeline.entryBars_eq] at attributed
  have logged := late.logged inside
  obtain ⟨mark, latest⟩ := Option.ne_none_iff_exists'.mp (attributed.found _ logged)
  have current := (attributed.good _ logged mark latest).current
  have closed := late.closed
  have inTime := discipline.reentry_in_time i mark logged latest
  rw [current] at closed
  omega

/-- The discipline holds in a run exactly when no re-entry slips through the cast. -/
theorem entryDiscipline_iff (bars : List Bar) : EntryDiscipline bars ↔ NoWrappedReentry bars := by
  constructor
  · intro discipline i inside late
    exact late.breaks inside discipline
  · intro unwrapped
    obtain ⟨moves, timeline⟩ := exists_timeline bars bars.length
    have attributed := timeline.story.attributed
    rw [← timeline.breakoutBars_eq, ← timeline.entryBars_eq] at attributed
    refine ⟨attributed.found, attributed.atMostOnce, fun i b entry latest => ?_,
      fun i b entry latest => ?_, fun i b entry latest => ?_⟩
    · exact (attributed.good _ entry b latest).retest rfl
    · obtain ⟨inTime | late, _⟩ := (attributed.good _ entry b latest).reentry rfl
      · exact inTime
      · exact absurd late (unwrapped i (timeline.entry_lt entry))
    · obtain ⟨_, closed⟩ := (attributed.good _ entry b latest).reentry rfl
      exact timeline.closedFirst_logged closed

end PrismPipeline.Backtest
