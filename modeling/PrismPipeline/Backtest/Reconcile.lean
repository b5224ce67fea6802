import PrismPipeline.Backtest.MaxDrawdown
import PrismPipeline.Backtest.Tally

/-!
# The counters of the summary

The summary counts at scattered places what the logs hold as rows.  The numbers behind
the counters agree with one another in every run; each group of them is settled by an
invariant of its own along the moves: the retests, the entries against the trades, and
the setups, where an armed breakout and an unused re-entry are the slack of the two
inequalities.  The counters themselves agree as long as an `int` holds the numbers.
-/

namespace PrismPipeline.Backtest

open PrismPipeline.Machine

/-- Whether the last row was written by the end of the data. -/
def endsWithData (trades : List TradeLog) : Bool :=
  trades.getLast?.map TradeLog.exitReason = some .dataEndExit

/-- The counters of a final state agree with its logs and with one another. -/
structure Reconciled (s : LoopState) : Prop where
  intents : s.logs.intents.length = s.counters.retests.toInt
  retests : s.counters.retests.toInt = s.counters.entries.toInt + s.counters.rejections.toInt
  trades : s.counters.entries.toInt = s.logs.trades.length
  exits : s.counters.entries.toInt = s.counters.t1hits.toInt + s.counters.t2hits.toInt +
    s.counters.stops.toInt + s.counters.invalidations.toInt + s.counters.timeexits.toInt +
    (endsWithData s.logs.trades).toNat
  breakouts : s.counters.entries.toInt - s.counters.reentries.toInt + s.counters.expired.toInt ≤
    s.counters.breakouts.toInt
  reentries : s.counters.reentries.toInt ≤ s.counters.entries.toInt - s.counters.reentries.toInt
  labelled : s.counters.reentries.toInt = acceptedReentries s.logs.intents
  equity : s.account.equity = (rMultiples s.logs.trades).sum

/-- The numbers of a tally agree with a trade log and with one another. -/
structure Tally.Agrees (n : Tally) (rows : List TradeLog) : Prop where
  retests : n.retests = n.entries + n.rejections
  trades : n.entries = rows.length
  exits : n.entries = n.exits + (endsWithData rows).toNat
  breakouts : n.entries - n.reentries + n.expired ≤ n.breakouts
  reentries : n.reentries ≤ n.entries - n.reentries

/-- Every counter shows the number it stands for. -/
structure Counters.Show (c : Counters) (n : Tally) : Prop where
  breakouts : c.breakouts.toInt = n.breakouts
  retests : c.retests.toInt = n.retests
  entries : c.entries.toInt = n.entries
  reentries : c.reentries.toInt = n.reentries
  rejections : c.rejections.toInt = n.rejections
  invalidations : c.invalidations.toInt = n.invalidations
  expired : c.expired.toInt = n.expired
  t1hits : c.t1hits.toInt = n.t1hits
  t2hits : c.t2hits.toInt = n.t2hits
  stops : c.stops.toInt = n.stops
  timeexits : c.timeexits.toInt = n.timeexits

/-- Retests and breakouts bound all the other numbers. -/
theorem Tally.Agrees.shown {n : Tally} {rows : List TradeLog} (agrees : n.Agrees rows)
    (retests : n.retests < 2 ^ 31) (breakouts : n.breakouts < 2 ^ 31) : n.counters.Show n := by
  obtain ⟨split, _, exits, ended, _⟩ := agrees
  unfold Tally.exits at exits
  constructor <;> exact Int32.toInt_ofNat_of_lt (by omega)

/-! ## Entries and trades -/

/-- The rows of the loop are the exits it counted, up to the trade that is open. -/
structure TradeTally (s : LoopState) : Prop where
  retests : s.logs.tally.retests = s.logs.tally.entries + s.logs.tally.rejections
  trades : s.logs.tally.entries = s.logs.trades.length + s.tradeOpen.toNat
  exits : s.logs.trades.length = s.logs.tally.exits
  reasons : ∀ row ∈ s.logs.trades, row.exitReason ≠ .dataEndExit

/-- The chain of exits counts each of its exits once. -/
theorem Tally.exits_countExit (n : Tally) {reason : ExitReason} (inChain : reason ≠ .dataEndExit) :
    (n.countExit reason).exits = n.exits + 1 := by
  cases reason with
  | dataEndExit => exact absurd rfl inChain
  | stopHit | target2Hit | target1Hit | invalidCloseBelowBreakout | invalidRegimeShock
  | invalidMseTrendDown | invalidMpsBlock | timeExit =>
      simp only [Tally.countExit, Tally.exits]
      omega

/-- Numbers that no exit touches. -/
structure SameEntries (n m : Tally) : Prop where
  breakouts : m.breakouts = n.breakouts
  retests : m.retests = n.retests
  entries : m.entries = n.entries
  reentries : m.reentries = n.reentries
  rejections : m.rejections = n.rejections
  expired : m.expired = n.expired

theorem Tally.countExit_kept (n : Tally) (reason : ExitReason) :
    SameEntries n (n.countExit reason) := by
  cases reason <;> exact ⟨rfl, rfl, rfl, rfl, rfl, rfl⟩

section Step

variable {bars : List Bar} {s t : LoopState} {m : ℕ × Move}

theorem LoopMove.tradeTally (step : LoopMove bars s m t) (tally : TradeTally s) :
    TradeTally t := by
  obtain ⟨retests, trades, exits, reasons⟩ := tally
  have counted := step.tally_eq
  cases step with
  | score => exact ⟨retests, trades, exits, reasons⟩
  | breakout | expire =>
      constructor
      · rw [counted]
        exact retests
      · rw [counted]
        exact trades
      · rw [counted]
        exact exits
      · exact reasons
  | reject =>
      constructor
      · rw [counted]
        change s.logs.tally.retests + 1 = s.logs.tally.entries + (s.logs.tally.rejections + 1)
        omega
      · rw [counted]
        exact trades
      · rw [counted]
        exact exits
      · exact reasons
  | accept _ _ flat =>
      rw [flat] at trades
      constructor
      · rw [counted]
        change s.logs.tally.retests + 1 = s.logs.tally.entries + 1 + s.logs.tally.rejections
        omega
      · rw [counted]
        change s.logs.tally.entries + 1 = s.logs.trades.length + 1
        rw [trades]
        rfl
      · rw [counted]
        exact exits
      · exact reasons
  | @exit i _ reason exitPrice isOpen _ _ _ _ fires =>
      have kept := s.logs.tally.countExit_kept reason
      rw [isOpen] at trades
      constructor
      · rw [counted]
        change (s.logs.tally.countExit reason).retests =
          (s.logs.tally.countExit reason).entries + (s.logs.tally.countExit reason).rejections
        rw [kept.retests, kept.entries, kept.rejections, retests]
      · rw [counted]
        change (s.logs.tally.countExit reason).entries = (s.logs.trades ++ [_]).length + 0
        rw [kept.entries, trades, List.length_append]
        rfl
      · rw [counted]
        change (s.logs.trades ++ [_]).length = (s.logs.tally.countExit reason).exits
        rw [Tally.exits_countExit _ fires.inChain, List.length_append, exits]
        rfl
      · refine List.forall_mem_append.mpr ⟨reasons, fun row newest => ?_⟩
        obtain rfl := List.mem_singleton.mp newest
        exact fires.inChain

/-! ## Setups -/

/-- An armed breakout will end at most once more, and a first trade leaves room for at
most one re-entry. -/
structure SetupTally (s : LoopState) : Prop where
  breakouts : s.logs.tally.entries + s.logs.tally.expired + s.priorBreakout.toNat ≤
    s.logs.tally.breakouts + s.logs.tally.reentries
  used : 2 * s.logs.tally.reentries ≤ s.logs.tally.entries
  unused : s.tradeOpen = true ∨ s.canReentry = true → s.reentryUsed = false →
    2 * s.logs.tally.reentries + 1 ≤ s.logs.tally.entries

/-- An entry through either window finds room for itself. -/
theorem SetupTally.room {i : ℕ} {label : EntryType} (tally : SetupTally s)
    (window : InWindow i s label) :
    2 * (s.logs.tally.reentries + if label = .reEntry then 1 else 0) ≤
        s.logs.tally.entries + 1 ∧
      s.logs.tally.entries + 1 + s.logs.tally.expired ≤ s.logs.tally.breakouts +
        (s.logs.tally.reentries + if label = .reEntry then 1 else 0) := by
  obtain ⟨breakouts, used, unused⟩ := tally
  cases window with
  | fresh armed =>
      rw [armed] at breakouts
      change s.logs.tally.entries + s.logs.tally.expired + 1 ≤ _ at breakouts
      rw [if_neg (by decide)]
      omega
  | again idle rearmed notUsed =>
      have room := unused (Or.inr rearmed) notUsed
      rw [idle] at breakouts
      change s.logs.tally.entries + s.logs.tally.expired + 0 ≤ _ at breakouts
      rw [if_pos rfl]
      omega

theorem LoopMove.setupTally (step : LoopMove bars s m t) (tally : SetupTally s) :
    SetupTally t := by
  obtain ⟨breakouts, used, unused⟩ := tally
  have counted := step.tally_eq
  cases step with
  | score => exact ⟨breakouts, used, unused⟩
  | reject =>
      constructor
      · rw [counted]
        exact breakouts
      · rw [counted]
        exact used
      · rw [counted]
        exact unused
  | @exit i _ reason _ isOpen =>
      have kept := s.logs.tally.countExit_kept reason
      constructor
      · rw [counted]
        change (s.logs.tally.countExit reason).entries + (s.logs.tally.countExit reason).expired +
          s.priorBreakout.toNat ≤ (s.logs.tally.countExit reason).breakouts +
            (s.logs.tally.countExit reason).reentries
        rwa [kept.entries, kept.expired, kept.breakouts, kept.reentries]
      · rw [counted]
        change 2 * (s.logs.tally.countExit reason).reentries ≤
          (s.logs.tally.countExit reason).entries
        rwa [kept.entries, kept.reentries]
      · intro _ notUsed
        rw [counted]
        change 2 * (s.logs.tally.countExit reason).reentries + 1 ≤
          (s.logs.tally.countExit reason).entries
        rw [kept.entries, kept.reentries]
        exact unused (Or.inl isOpen) notUsed
  | breakout _ flat =>
      constructor
      · have room := Bool.toNat_le s.priorBreakout
        rw [counted]
        change s.logs.tally.entries + s.logs.tally.expired + 1 ≤
          s.logs.tally.breakouts + 1 + s.logs.tally.reentries
        omega
      · rw [counted]
        exact used
      · intro busy _
        rcases busy with isOpen | again
        · exact absurd (flat.symm.trans isOpen) Bool.false_ne_true
        · exact Bool.noConfusion again
  | expire armed =>
      rw [armed] at breakouts
      constructor
      · rw [counted]
        change s.logs.tally.entries + (s.logs.tally.expired + 1) + 0 ≤
          s.logs.tally.breakouts + s.logs.tally.reentries
        exact breakouts
      · rw [counted]
        exact used
      · rw [counted]
        exact unused
  | @accept i _ label _ _ flat _ _ window =>
      have entered : (retestRow bars i [] s).entryType = label := window.label_eq
      have taken := SetupTally.room ⟨breakouts, used, unused⟩ window
      rw [← entered] at taken
      constructor
      · rw [counted]
        exact taken.2
      · rw [counted]
        exact taken.1
      · intro _ stillUnused
        -- A re-entry would be used now, so this was a first trade.
        have first : s.canReentry = false := (Bool.or_eq_false_iff.mp stillUnused).1
        have fresh : (retestRow bars i [] s).entryType = .retestEntry := by
          change (if s.canReentry then EntryType.reEntry else .retestEntry) = _
          rw [first]
          rfl
        rw [counted]
        change 2 * (s.logs.tally.reentries + if (retestRow bars i [] s).entryType = .reEntry
          then 1 else 0) + 1 ≤ s.logs.tally.entries + 1
        rw [fresh, if_neg (by decide)]
        exact Nat.succ_le_succ used

end Step

/-! ## The end of the run -/

section Run

variable (bars : List Bar)

theorem stateAfter_tradeTally (n : ℕ) : TradeTally (stateAfter bars n) := by
  have initial : TradeTally {} := ⟨rfl, rfl, rfl, fun _ member => absurd member List.not_mem_nil⟩
  exact stateAfter_of_moves TradeTally initial (fun _ _ _ tally step => step.tradeTally tally) n

theorem stateAfter_setupTally (n : ℕ) : SetupTally (stateAfter bars n) := by
  have initial : SetupTally {} := by
    refine ⟨le_rfl, le_rfl, fun busy => ?_⟩
    rcases busy with isOpen | again
    · exact Bool.noConfusion isOpen
    · exact Bool.noConfusion again
  exact stateAfter_of_moves SetupTally initial (fun _ _ _ tally step => step.setupTally tally) n

/-- Rows written by the loop never end with the data. -/
theorem TradeTally.endsWithData_eq {s : LoopState} (tally : TradeTally s) :
    endsWithData s.logs.trades = false := by
  refine decide_eq_false fun last => ?_
  obtain ⟨row, isLast, reason⟩ := Option.map_eq_some_iff.mp last
  exact tally.reasons row (List.mem_of_getLast? isLast) reason

/-- In every run the numbers agree. -/
theorem tally_agrees : (runBacktest bars).logs.tally.Agrees (runBacktest bars).logs.trades := by
  have rowsTally : TradeTally (runLoop bars) := stateAfter_tradeTally bars bars.length
  have setupTally : SetupTally (runLoop bars) := stateAfter_setupTally bars bars.length
  obtain ⟨retests, trades, exits, reasons⟩ := rowsTally
  obtain ⟨armed, used, _⟩ := setupTally
  have same : (runBacktest bars).logs.tally = (runLoop bars).logs.tally := dataEnd_tally bars _
  have rows : (runBacktest bars).logs.trades.length =
        (runLoop bars).logs.trades.length + (runLoop bars).tradeOpen.toNat ∧
      endsWithData (runBacktest bars).logs.trades = (runLoop bars).tradeOpen := by
    cases isOpen : (runLoop bars).tradeOpen with
    | false =>
        rw [runBacktest_flat isOpen]
        exact ⟨rfl, (stateAfter_tradeTally bars bars.length).endsWithData_eq⟩
    | true =>
        rw [runBacktest_trades isOpen, List.length_append]
        refine ⟨rfl, decide_eq_true ?_⟩
        rw [List.getLast?_concat]
        rfl
  rw [same]
  constructor
  · exact retests
  · rw [trades, rows.1]
  · rw [trades, rows.2, exits]
  · omega
  · omega

/-- No number exceeds the number of bars behind the window. -/
theorem tally_bounded : (runBacktest bars).logs.tally.retests ≤ bars.length - lookback ∧
    (runBacktest bars).logs.tally.breakouts ≤ bars.length - lookback := by
  have same : (runBacktest bars).logs.tally = (runLoop bars).logs.tally := dataEnd_tally bars _
  rw [same]
  exact ⟨intents_length_le bars bars.length, breakouts_le bars bars.length⟩

theorem runBacktest_equity :
    (runBacktest bars).account.equity = (rMultiples (runBacktest bars).logs.trades).sum := by
  have equity := (runLoop_accountExact bars).equity
  unfold runBacktest dataEnd
  split
  · change (runLoop bars).account.equity + _ =
      (rMultiples ((runLoop bars).logs.trades ++ [_])).sum
    rw [rMultiples_snoc, List.sum_append, List.sum_singleton, equity]
  · exact equity

/-- Numbers that an `int` holds are shown as they are. -/
theorem reconciled_of_lt (short : bars.length < 2 ^ 31 + 20) : Reconciled (runBacktest bars) := by
  have agrees := tally_agrees bars
  obtain ⟨fewRetests, fewBreakouts⟩ := tally_bounded bars
  change _ ≤ bars.length - 20 at fewRetests fewBreakouts
  have shown := agrees.shown (by omega) (by omega)
  rw [← runBacktest_counters] at shown
  obtain ⟨retests, trades, exits, breakouts, reentries⟩ := agrees
  unfold Tally.exits at exits
  constructor
  · rw [shown.retests]
    rfl
  · rw [shown.retests, shown.entries, shown.rejections, retests, Nat.cast_add]
  · rw [shown.entries, trades]
  · rw [shown.entries, shown.t1hits, shown.t2hits, shown.stops, shown.invalidations,
      shown.timeexits]
    exact_mod_cast exits
  · rw [shown.entries, shown.reentries, shown.expired, shown.breakouts]
    omega
  · rw [shown.entries, shown.reentries]
    omega
  · rw [shown.reentries]
    rfl
  · exact runBacktest_equity bars

end Run

/-- At the end of every run the numbers that the counters count agree, and each counter is
its number in the arithmetic of `int`; so the counters reconcile on every list whose
retests and breakouts an `int` can count. -/
theorem counters_reconcile (bars : List Bar) :
    (runBacktest bars).counters = (runBacktest bars).logs.tally.counters ∧
      (runBacktest bars).logs.tally.Agrees (runBacktest bars).logs.trades ∧
      (runBacktest bars).account.equity = (rMultiples (runBacktest bars).logs.trades).sum ∧
      (bars.length < 2 ^ 31 + 20 → Reconciled (runBacktest bars)) :=
  ⟨runBacktest_counters bars, tally_agrees bars, runBacktest_equity bars, reconciled_of_lt bars⟩

end PrismPipeline.Backtest
