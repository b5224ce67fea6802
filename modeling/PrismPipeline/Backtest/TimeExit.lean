import PrismPipeline.Backtest.BreakoutEvents
import PrismPipeline.Backtest.ReentryWrap
import PrismPipeline.Backtest.RoundTrips

/-!
# What a time exit allows

Both a stop and a time exit arm the re-entry, but a trade that times out has been open
for twenty bars, and the window of a re-entry closes fifteen bars after the breakout.
So a re-entry follows a stop, unless the distance wraps in the cast to `int`.
-/

namespace PrismPipeline.Backtest

open PrismPipeline.Machine PrismPipeline.Series

/-- Re-entries follow stopped trades of their breakout, and none lies between a time
exit and the next breakout. -/
structure ReentriesFollowStops (bars : List Bar) : Prop where
  after_stop : ∀ i row, (i, row) ∈ intentsBy bars bars.length → row.entryType = .reEntry →
    ∃ b first close trade timestamp, latestMark (breakoutBars bars) i = some b ∧ b ≤ first ∧
      (first, .tradeAccepted timestamp trade.tradeId) ∈ auditBy bars bars.length ∧
      first < close ∧ (close, trade) ∈ tradesBy bars bars.length ∧
      trade.holdingBars = ((close - first : ℕ) : ℤ) ∧ trade.exitReason = .stopHit ∧ close ≤ i
  none_after_time : ∀ e trade i row, (e, trade) ∈ tradesBy bars bars.length →
    trade.exitReason = .timeExit → (i, row) ∈ intentsBy bars bars.length →
    row.entryType = .reEntry → e ≤ i → ∃ b ∈ breakoutBars bars, e ≤ b ∧ b ≤ i

/-- On bar `i` the level of a timed-out first trade is retested, and the bars since its
breakout, more than the fifteen allowed, wrap round in the cast. -/
structure TimedReentry (bars : List Bar) (i : ℕ) : Prop where
  runs : GateRuns bars i
  rearmed : (gateState bars i).canReentry = true
  unused : (gateState bars i).reentryUsed = false
  timed : ((tradesBy bars (i + 1)).getLast?.map fun trade => trade.2.exitReason) =
    some .timeExit
  closed : (gateState bars i).breakoutI + 15 < i
  wrapped : castInt (i - (gateState bars i).breakoutI) ≤ entryTtl + 10
  retest : isRetest (barAt bars i) (gateState bars i).breakout

/-! ## The last trade of a breakout -/

/-- The last trade closed so far was taken from bar `mark` on, and the ones before it
were closed by then. -/
structure LastTrade (moves : List (ℕ × Move)) (mark first close : ℕ) (trade : TradeLog)
    (earlier : List (ℕ × TradeLog)) : Prop where
  log : tradeMoves moves = earlier ++ [(close, trade)]
  before : ∀ old ∈ earlier, old.1 ≤ mark
  taken : ∃ row, (first, .accept row trade.tradeId) ∈ moves
  from_mark : mark ≤ first
  held : first < close
  holding : trade.holdingBars = ((close - first : ℕ) : ℤ)
  reason : trade.exitReason = .stopHit ∨ (trade.exitReason = .timeExit ∧ first + 20 ≤ close)

/-- What the variables say about the trades closed so far. -/
structure ExitMemory (moves : List (ℕ × Move)) (s : LoopState) : Prop where
  memory : TradeMemory moves s
  pending : s.priorBreakout = true ∨ (s.tradeOpen = true ∧ s.reentryUsed = false) →
    ∀ old ∈ tradeMoves moves, old.1 ≤ s.breakoutI
  rearmed : s.canReentry = true → s.reentryUsed = false →
    ∃ first close trade earlier, LastTrade moves s.breakoutI first close trade earlier

section Step

variable {bars : List Bar} {moves : List (ℕ × Move)} {s t : LoopState} {m : ℕ × Move}

theorem LastTrade.snoc {mark first close : ℕ} {trade : TradeLog} {earlier : List (ℕ × TradeLog)}
    (last : LastTrade moves mark first close trade earlier) (quiet : m.2.trade? = none) :
    LastTrade (moves ++ [m]) mark first close trade earlier := by
  obtain ⟨log, before, ⟨row, taken⟩, from_mark, held, holding, reason⟩ := last
  refine ⟨?_, before, ⟨row, List.mem_append_left _ taken⟩, from_mark, held, holding, reason⟩
  rw [tradeMoves_snoc, quiet, log]
  exact List.append_nil _

/-- A move that closes no trade and finds no breakout. -/
theorem ExitMemory.other (exits : ExitMemory moves s) (memory : TradeMemory (moves ++ [m]) t)
    (quiet : m.2.trade? = none) (sameIndex : t.breakoutI = s.breakoutI)
    (pending : t.priorBreakout = true ∨ (t.tradeOpen = true ∧ t.reentryUsed = false) →
      s.priorBreakout = true ∨ (s.tradeOpen = true ∧ s.reentryUsed = false))
    (rearmed : t.canReentry = true → t.reentryUsed = false →
      s.canReentry = true ∧ s.reentryUsed = false) : ExitMemory (moves ++ [m]) t := by
  refine ⟨memory, fun now => ?_, fun again unused => ?_⟩
  · rw [tradeMoves_snoc, quiet, sameIndex]
    intro old member
    rw [Option.map_none, Option.toList_none, List.append_nil] at member
    exact exits.pending (pending now) old member
  · obtain ⟨before, unusedBefore⟩ := rearmed again unused
    obtain ⟨first, close, trade, earlier, last⟩ := exits.rearmed before unusedBefore
    rw [sameIndex]
    exact ⟨first, close, trade, earlier, last.snoc quiet⟩

/-- A trade that times out was held for twenty bars. -/
theorem ExitFires.reason_of_rearms {b : Bar} {i : ℕ} {reason : ExitReason} {price : ℚ}
    (fires : ExitFires b i s reason price) (recent : i ≤ s.entryI + 20)
    (rearms : reason = .stopHit ∨ reason = .timeExit) :
    reason = .stopHit ∨ (reason = .timeExit ∧ s.entryI + 20 ≤ i) := by
  rcases rearms with rfl | rfl
  · exact Or.inl rfl
  · refine Or.inr ⟨rfl, ?_⟩
    cases fires with
    | expired _ _ hit =>
        rw [castInt_of_lt (by omega), tradeTtl] at hit
        omega

theorem ExitMemory.snoc (exits : ExitMemory moves s) (ordered : ∀ old ∈ moves, old.1 ≤ m.1)
    (step : LoopMove bars s m t) : ExitMemory (moves ++ [m]) t := by
  have memory := exits.memory.snoc step
  cases step with
  | score | reject => exact exits.other memory rfl rfl id fun again unused => ⟨again, unused⟩
  | expire _ flat =>
      refine exits.other memory rfl rfl ?_ fun again unused => ⟨again, unused⟩
      rintro (armed | ⟨isOpen, _⟩)
      · exact Bool.noConfusion armed
      · exact absurd (flat.symm.trans isOpen) Bool.false_ne_true
  | @breakout i _ _ flat =>
      refine ⟨memory, fun _ old member => ?_, fun again => Bool.noConfusion again⟩
      rw [tradeMoves_snoc] at member
      obtain ⟨move, inMoves, shown⟩ :=
        List.mem_filterMap.mp (by simpa [Move.trade?] using member : old ∈ tradeMoves moves)
      obtain ⟨row, _, rfl⟩ := Option.map_eq_some_iff.mp shown
      exact ordered move inMoves
  | @exit i _ reason exitPrice isOpen _ flags entered recent fires =>
      refine ⟨memory, ?_, fun again unused => ?_⟩
      · rintro (armed | ⟨stillOpen, _⟩)
        · exact absurd (flags.1.symm.trans armed) Bool.false_ne_true
        · exact Bool.noConfusion stillOpen
      · obtain ⟨row, taken, first, _⟩ := exits.memory.opened isOpen
        have rearms : reason = .stopHit ∨ reason = .timeExit := of_decide_eq_true again
        refine ⟨s.entryI, i, tradeRow bars i s reason exitPrice, tradeMoves moves, ?_,
          exits.pending (Or.inr ⟨isOpen, unused⟩), ⟨row, List.mem_append_left _ taken⟩,
          (first unused).2, entered, tradeRow_holdingBars bars reason exitPrice recent,
          fires.reason_of_rearms recent rearms⟩
        rw [tradeMoves_snoc]
        rfl
  | @accept i _ label _ _ flat _ _ window =>
      refine exits.other memory rfl rfl ?_ fun again => Bool.noConfusion again
      rintro (armed | ⟨_, unused⟩)
      · exact Bool.noConfusion armed
      · cases window with
        | fresh armed => exact Or.inl armed
        | again _ rearmed =>
            have used : (s.canReentry || s.reentryUsed) = true := by rw [rearmed]; rfl
            exact absurd (unused.symm.trans used) Bool.false_ne_true

end Step

/-! ## The gate of a pass -/

/-- The moves before the gate of pass `i`, with the memory they leave. -/
theorem gateState_exitMemory {bars : List Bar} {i : ℕ} (runs : GateRuns bars i) :
    ∃ earlier now, Timeline bars i earlier ∧ (∀ m ∈ now, m.1 = i) ∧
      tradeMoves (earlier ++ now) = tradesBy bars (i + 1) ∧
      ExitMemory (earlier ++ now) (gateState bars i) := by
  obtain ⟨earlier, timeline⟩ := exists_timeline bars i
  obtain ⟨now, run, stamp⟩ := gateState_moves runs
  refine ⟨earlier, now, timeline, stamp, ?_, ?_⟩
  · have trades : now.filterMap (fun m => m.2.trade?) = (exitRow bars i).toList := by
      have shown : (gateState bars i).logs.trades =
          (stateAfter bars i).logs.trades ++ now.filterMap fun m => m.2.trade? :=
        run.log_eq fun _ _ _ step => step.trades_eq
      rw [(gateState_frame bars i).1, afterExit_trades] at shown
      exact (List.append_cancel_left shown).symm
    have stamps : tradeMoves now = (now.filterMap fun m => m.2.trade?).map fun row => (i, row) := by
      unfold tradeMoves
      rw [List.map_filterMap]
      refine List.filterMap_congr fun m member => ?_
      rw [stamp m member]
    have split : tradeMoves (earlier ++ now) = tradeMoves earlier ++ tradeMoves now := by
      unfold tradeMoves
      exact List.filterMap_append
    have old : tradesBy bars i = tradeMoves earlier := timeline.tradesBy_eq
    rw [split, stamps, trades, ← old]
    unfold tradesBy
    rw [stamped_succ, pass_trades, List.drop_left]
  · have whole : LabelledRun (LoopMove bars) {} (earlier ++ now) (gateState bars i) :=
      timeline.run.append run
    have sorted : (earlier ++ now).Pairwise fun first second => first.1 ≤ second.1 := by
      refine List.pairwise_append.mpr ⟨timeline.sorted, ?_, fun m old m' newest => ?_⟩
      · refine List.pairwise_of_forall_mem_list fun m member m' member' => ?_
        rw [stamp m member, stamp m' member']
      · rw [stamp m' newest]
        exact (timeline.stamp_lt m old).le
    have initial : ExitMemory [] {} := by
      refine ⟨?_, ?_, ?_⟩
      · constructor <;> simp
      · simp [tradeMoves]
      · simp
    exact whole.history_of_pairwise sorted ExitMemory initial
      fun _ _ _ _ exits ordered step => exits.snoc ordered step

/-- The last trade up to bar `i` as the logs show it: entered on bar `first` of the
breakout and closed on bar `close`. -/
structure LastLogged (bars : List Bar) (i first close : ℕ) (trade : TradeLog) : Prop where
  log : ∃ earlier, tradesBy bars (i + 1) = earlier ++ [(close, trade)] ∧
    ∀ old ∈ earlier, old.1 ≤ (gateState bars i).breakoutI
  taken : ∃ timestamp,
    (first, .tradeAccepted timestamp trade.tradeId) ∈ auditBy bars bars.length
  from_mark : (gateState bars i).breakoutI ≤ first
  held : first < close
  holding : trade.holdingBars = ((close - first : ℕ) : ℤ)
  inTime : close ≤ i

section LastLogged

variable {bars : List Bar} {i first close : ℕ} {trade : TradeLog}
  (last : LastLogged bars i first close trade)
include last

theorem LastLogged.mem_tradesBy : (close, trade) ∈ tradesBy bars (i + 1) := by
  obtain ⟨earlier, log, _⟩ := last.log
  rw [log]
  exact List.mem_append_right _ List.mem_cons_self

/-- Any other trade was closed by the time of the breakout. -/
theorem LastLogged.eq_or_before {e : ℕ} {row : TradeLog}
    (member : (e, row) ∈ tradesBy bars (i + 1)) :
    (e = close ∧ row = trade) ∨ e ≤ (gateState bars i).breakoutI := by
  obtain ⟨earlier, log, before⟩ := last.log
  rw [log] at member
  rcases List.mem_append.mp member with old | new
  · exact Or.inr (before _ old)
  · exact Or.inl (Prod.mk.inj (List.mem_singleton.mp new))

theorem LastLogged.lastReason :
    (tradesBy bars (i + 1)).getLast?.map (fun row => row.2.exitReason) = some trade.exitReason := by
  obtain ⟨earlier, log, _⟩ := last.log
  rw [log, List.getLast?_concat, Option.map_some]

end LastLogged

/-- The last trade before a re-entry may be logged on bar `i`. -/
theorem lastTrade_logged {bars : List Bar} {i : ℕ} (inside : i < bars.length)
    (runs : GateRuns bars i) (rearmed : (gateState bars i).canReentry = true)
    (unused : (gateState bars i).reentryUsed = false) :
    ∃ first close trade, LastLogged bars i first close trade ∧
      (trade.exitReason = .stopHit ∨ (trade.exitReason = .timeExit ∧ first + 20 ≤ close)) := by
  obtain ⟨past, now, timeline, stamp, trades, exits⟩ := gateState_exitMemory runs
  obtain ⟨first, close, trade, earlier, last⟩ := exits.rearmed rearmed unused
  obtain ⟨log, before, ⟨row, taken⟩, from_mark, held, holding, reason⟩ := last
  rw [trades] at log
  have closing : (close, trade) ∈ tradesBy bars (i + 1) := by
    rw [log]
    exact List.mem_append_right _ List.mem_cons_self
  have inTime : close ≤ i := Nat.le_of_lt_succ ((mem_tradesBy_iff trade).mp closing).1
  have inPast : (first, Move.accept row trade.tradeId) ∈ past := by
    rcases List.mem_append.mp taken with old | new
    · exact old
    · have same := stamp _ new
      dsimp only at same
      omega
  have accepted : (first, .tradeAccepted (barAt bars first).timestamp trade.tradeId) ∈
      auditBy bars i := by
    rw [timeline.auditBy_eq]
    exact List.mem_filterMap.mpr ⟨_, inPast, rfl⟩
  refine ⟨first, close, trade, ?_, reason⟩
  exact ⟨⟨earlier, log, before⟩, ⟨_, (stamped_mono _ bars inside.le).subset accepted⟩, from_mark,
    held, holding, inTime⟩

/-! ## Re-entries -/

section Reentry

variable {bars : List Bar} {i : ℕ}

/-- A re-entry is only logged while the setup is rearmed. -/
theorem LogsIntent.again (logs : LogsIntent bars i)
    (label : (passIntent bars i).entryType = .reEntry) :
    (gateState bars i).canReentry = true ∧ (gateState bars i).reentryUsed = false ∧
      castInt (i - (gateState bars i).breakoutI) ≤ entryTtl + 10 := by
  obtain ⟨runs, window, _⟩ := logs
  have flat : (gateState bars i).tradeOpen = false := (gateState_frame bars i).2.2.trans runs.2
  have rearmed : (gateState bars i).canReentry = true := by
    change (if (gateState bars i).canReentry then EntryType.reEntry else .retestEntry) = _ at label
    cases again : (gateState bars i).canReentry with
    | true => rfl
    | false =>
        rw [again] at label
        exact EntryType.noConfusion label
  rcases window with armed | ⟨_, unused, recent⟩
  · obtain ⟨_, notAgain, _⟩ := (gateState_gate runs.1 flat).armed armed
    exact absurd (notAgain.symm.trans rearmed) Bool.false_ne_true
  · exact ⟨rearmed, unused, recent⟩

theorem TimedReentry.logsIntent (timed : TimedReentry bars i) :
    LogsIntent bars i ∧ (passIntent bars i).entryType = .reEntry :=
  ⟨⟨timed.runs, Or.inr ⟨timed.rearmed, timed.unused, timed.wrapped⟩, timed.retest⟩,
    if_pos timed.rearmed⟩

/-- After a time exit there is no stopped trade of the same breakout. -/
theorem TimedReentry.breaks (timed : TimedReentry bars i) (inside : i < bars.length) :
    ¬ ReentriesFollowStops bars := by
  intro follows
  obtain ⟨logs, label⟩ := timed.logsIntent
  have logged := (mem_intentsBy_iff (passIntent bars i)).mpr ⟨inside, logs, rfl⟩
  obtain ⟨b, first, close, trade, _, latest, from_mark, _, held, stopped, _, reason, inTime⟩ :=
    follows.after_stop i _ logged label
  obtain ⟨_, lastClose, lastRow, last, _⟩ :=
    lastTrade_logged inside timed.runs timed.rearmed timed.unused
  rw [latestMark_breakoutBars bars inside, logs.latest.1] at latest
  have mark : (gateState bars i).breakoutI = b := Option.some.inj latest
  have inLog : (close, trade) ∈ tradesBy bars (i + 1) :=
    (mem_tradesBy_iff trade).mpr
      ⟨Nat.lt_succ_of_le inTime, ((mem_tradesBy_iff trade).mp stopped).2⟩
  have lastReason := timed.timed
  rw [last.lastReason] at lastReason
  rcases last.eq_or_before inLog with ⟨rfl, rfl⟩ | early
  · rw [reason] at lastReason
    cases lastReason
  · omega

/-- Without a timed re-entry on bar `i` the last trade before a re-entry was stopped. -/
theorem LogsIntent.after_stop (logs : LogsIntent bars i) (inside : i < bars.length)
    (label : (passIntent bars i).entryType = .reEntry) (notTimed : ¬ TimedReentry bars i) :
    ∃ first close trade, LastLogged bars i first close trade ∧ trade.exitReason = .stopHit := by
  obtain ⟨rearmed, unused, recent⟩ := logs.again label
  obtain ⟨first, close, trade, last, reason⟩ := lastTrade_logged inside logs.1 rearmed unused
  refine ⟨first, close, trade, last, ?_⟩
  rcases reason with isStop | ⟨isTime, long⟩
  · exact isStop
  · have closed : (gateState bars i).breakoutI + 15 < i := by
      have from_mark := last.from_mark
      have inTime := last.inTime
      omega
    have timed := last.lastReason
    rw [isTime] at timed
    exact absurd ⟨logs.1, rearmed, unused, timed, closed, recent, logs.2.2⟩ notTimed

end Reentry

/-- Re-entries follow stops exactly in the runs in which no re-entry after a time exit
slips through the cast. -/
theorem reentriesFollowStops_iff (bars : List Bar) :
    ReentriesFollowStops bars ↔ ∀ i < bars.length, ¬ TimedReentry bars i := by
  constructor
  · intro follows i inside timed
    exact timed.breaks inside follows
  · intro noneTimed
    constructor
    · intro i row logged label
      obtain ⟨inside, logs, rfl⟩ := (mem_intentsBy_iff row).mp logged
      obtain ⟨first, close, trade, last, reason⟩ :=
        logs.after_stop inside label (noneTimed i inside)
      obtain ⟨timestamp, taken⟩ := last.taken
      refine ⟨_, first, close, trade, timestamp, ?_, last.from_mark, taken, last.held,
        (stamped_mono _ bars inside).subset last.mem_tradesBy, last.holding, reason, last.inTime⟩
      rw [latestMark_breakoutBars bars inside]
      exact logs.latest.1
    · intro e trade i row exited timeReason logged label order
      obtain ⟨inside, logs, rfl⟩ := (mem_intentsBy_iff row).mp logged
      obtain ⟨first, close, stopped, last, reason⟩ :=
        logs.after_stop inside label (noneTimed i inside)
      obtain ⟨mark_lt, found⟩ := found_of_lastBreakout bars logs.latest.1
      have inLog : (e, trade) ∈ tradesBy bars (i + 1) :=
        (mem_tradesBy_iff trade).mpr
          ⟨Nat.lt_succ_of_le order, ((mem_tradesBy_iff trade).mp exited).2⟩
      rcases last.eq_or_before inLog with ⟨rfl, rfl⟩ | before
      · rw [timeReason] at reason
        cases reason
      · refine ⟨(gateState bars i).breakoutI, ?_, before, Nat.le_of_lt_succ mark_lt⟩
        rw [breakoutBars_eq, mem_foundBars]
        exact ⟨by omega, found⟩

/-- The first bar on which it can happen, so that no shorter list of bars meets it. -/
theorem TimedReentry.far {bars : List Bar} {i : ℕ} (timed : TimedReentry bars i) :
    2 ^ 31 + 20 ≤ i := by
  have flat : (gateState bars i).tradeOpen = false :=
    (gateState_frame bars i).2.2.trans timed.runs.2
  have found : 20 ≤ (gateState bars i).breakoutI :=
    (gateState_gate timed.runs.1 flat).pending (Or.inr (Or.inr timed.rearmed))
  have closed := timed.closed
  have wrapped := timed.wrapped
  by_contra near
  rw [castInt_of_lt (by omega), entryTtl] at wrapped
  omega

/-! ## A list of bars that times out and waits -/

/-- A bar that stays within the levels of a trade at 105 and touches 100. -/
def holdBar : Bar where
  openPrice := 101
  high := 105
  low := 100
  close := 101
  volume := 100

/-- A breakout whose trade is taken at once, and bars that change nothing. -/
def timedBars (hold : ℕ) : List Bar :=
  List.replicate 20 quietBar ++ takenBar :: List.replicate hold holdBar

section Timed

variable {hold i : ℕ}

theorem timedBars_length : (timedBars hold).length = hold + 21 := by
  simp only [timedBars, List.length_append, List.length_replicate, List.length_cons]
  omega

theorem timedBars_hold (after : 21 ≤ i) (before : i < hold + 21) :
    barAt (timedBars hold) i = holdBar := by
  have size : (List.replicate 20 quietBar).length = 20 := List.length_replicate
  obtain ⟨k, rfl⟩ : ∃ k, i = 21 + k := Nat.exists_eq_add_of_le after
  have offset : 21 + k - 20 = k + 1 := by omega
  rw [timedBars, barAt_append_right (by omega), size, offset, barAt, List.getD_cons_succ,
    List.getD_replicate _ (by omega)]

theorem timedBars_add (more : ℕ) :
    timedBars (hold + more) = timedBars hold ++ List.replicate more holdBar := by
  unfold timedBars
  rw [List.append_assoc, List.cons_append, List.replicate_append_replicate]

theorem timedBars_stateAfter {more : ℕ} (early : i ≤ hold + 21) :
    stateAfter (timedBars (hold + more)) i = stateAfter (timedBars hold) i := by
  rw [timedBars_add]
  apply stateAfter_append
  rwa [timedBars_length]

/-- Bar 40 closes the trade by time. -/
theorem timedBars_timeExit (more : ℕ) :
    ∃ trade, (40, trade) ∈ tradesBy (timedBars (20 + more)) (timedBars (20 + more)).length ∧
      trade.exitReason = .timeExit := by
  have state : stateAfter (timedBars (20 + more)) 40 = stateAfter (timedBars 20) 40 :=
    timedBars_stateAfter (by decide)
  have bar : barAt (timedBars (20 + more)) 40 = holdBar := timedBars_hold (by decide) (by omega)
  have isOpen : (stateAfter (timedBars 20) 40).tradeOpen = true := by decide +kernel
  have test : exitTest holdBar 40 (stateAfter (timedBars 20) 40) = some (.timeExit, 101) := by
    decide +kernel
  have closed : exitRow (timedBars (20 + more)) 40 = some
      (tradeRow (timedBars (20 + more)) 40 (stateAfter (timedBars 20) 40) .timeExit 101) := by
    unfold exitRow
    rw [state, bar, if_pos isOpen, test]
    rfl
  exact ⟨_, (mem_tradesBy_iff _).mpr ⟨by rw [timedBars_length]; omega, closed⟩, rfl⟩

/-- From bar 22 on no bar closes above the high of the bar before it. -/
theorem timedBars_quiet (after : 22 ≤ i) (before : i < hold + 21) :
    ¬ newBreakout (timedBars hold) i := by
  have window : i - lookback ≤ i - 1 := Nat.sub_le_sub_left (by decide) i
  refine not_newBreakout (le_trans (by decide) after) window (by omega) ?_
  rw [timedBars_hold (by omega) before, timedBars_hold (by omega) (by omega)]
  decide +kernel

/-- The timed-out setup waits for as long as the cast is exact. -/
theorem timedBars_waiting {more : ℕ} (long : 1 ≤ more) (short : more + 20 ≤ 2 ^ 31) :
    Waiting 100 20 (stateAfter (timedBars (20 + more)) (more + 40)) := by
  have start : Waiting 100 20 (stateAfter (timedBars (20 + more)) 41) := by
    rw [timedBars_stateAfter (by decide)]
    constructor <;> decide +kernel
  refine start.stretch (by omega) fun i after before => ⟨?_, fun inTime => ?_⟩
  · exact timedBars_quiet (by omega) (by omega)
  · rw [castInt_of_lt (by omega), entryTtl] at inTime
    omega

/-- When the cast wraps, a re-entry is logged. -/
theorem timedBars_logsIntent {more : ℕ} (wraps : more + 20 = 2 ^ 31) :
    LogsIntent (timedBars (20 + more)) (more + 40) ∧
      (passIntent (timedBars (20 + more)) (more + 40)).entryType = .reEntry := by
  have waiting : Waiting 100 20 (stateAfter (timedBars (20 + more)) (more + 40)) :=
    timedBars_waiting (by omega) wraps.le
  have gate := waiting.gate (timedBars_quiet (by omega) (by omega))
  have scored := waiting.scored (barScore (timedBars (20 + more)) (more + 40))
  have bar : barAt (timedBars (20 + more)) (more + 40) = holdBar :=
    timedBars_hold (by omega) (by omega)
  have distance : more + 40 - 20 = 2 ^ 31 := by omega
  have flat : (afterExit (timedBars (20 + more)) (more + 40)).tradeOpen = false := by
    rw [← (gateState_frame _ _).2.2, gate]
    exact scored.flat
  refine ⟨⟨⟨le_trans (by decide) (Nat.le_add_left 40 more), flat⟩, Or.inr ⟨?_, ?_, ?_⟩, ?_⟩, ?_⟩
  · rw [gate]
    exact scored.rearmed
  · rw [gate]
    exact scored.unused
  · rw [gate, scored.found_eq, distance]
    decide +kernel
  · rw [gate, scored.level_eq, bar]
    decide +kernel
  · have label : (passIntent (timedBars (20 + more)) (more + 40)).entryType =
        if (gateState (timedBars (20 + more)) (more + 40)).canReentry then .reEntry
        else .retestEntry := rfl
    rw [label, gate, scored.rearmed]
    rfl

theorem timedBars_breaks {more : ℕ} (wraps : more + 20 = 2 ^ 31) :
    ¬ ReentriesFollowStops (timedBars (20 + more)) := by
  intro follows
  obtain ⟨logs, label⟩ := timedBars_logsIntent wraps
  obtain ⟨trade, exited, reason⟩ := timedBars_timeExit more
  have inside : more + 40 < (timedBars (20 + more)).length := by
    rw [timedBars_length]
    omega
  have logged := (mem_intentsBy_iff _).mpr ⟨inside, logs, rfl⟩
  obtain ⟨b, found, after, before⟩ :=
    follows.none_after_time 40 trade _ _ exited reason logged label
    (by omega)
  rw [breakoutBars_eq, mem_foundBars] at found
  exact timedBars_quiet (by omega) (by omega) found.2.2

end Timed

/-- After 2^31 bars that change nothing a re-entry follows the time exit. -/
theorem timedBars_reentry : ¬ ReentriesFollowStops (timedBars (2 ^ 31)) := by
  obtain ⟨more, bars⟩ : ∃ more, 2 ^ 31 = 20 + more := Nat.exists_eq_add_of_le (by norm_num)
  rw [bars]
  apply timedBars_breaks
  omega

end PrismPipeline.Backtest
