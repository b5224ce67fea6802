import PrismPipeline.Backtest.Passes

/-!
# What the counters count

Each counter of the summary is an `int` that one kind of row or event increments.  The
logs hold all of these rows and events, so the numbers themselves can be read off the
logs at any time.  A counter is its number in the arithmetic of `int`, and the two are
equal as long as the bars cannot hold 2^31 retests or breakouts.
-/

namespace PrismPipeline.Backtest

open PrismPipeline.Machine

/-! ## Numbers of rows and events -/

inductive EventKind where
  | tradeExit
  | breakout
  | entryExpired
  | tradeAccepted
  | tradeRejected
  deriving DecidableEq, Repr

def AuditEvent.kind : AuditEvent → EventKind
  | .tradeExit _ _ _ => .tradeExit
  | .breakout _ _ => .breakout
  | .entryExpired _ => .entryExpired
  | .tradeAccepted _ _ => .tradeAccepted
  | .tradeRejected _ _ => .tradeRejected

/-- Number of events of a kind. -/
def eventsOf (kind : EventKind) (audit : List AuditEvent) : ℕ :=
  audit.countP fun event => event.kind = kind

/-- Number of rows with a reason. -/
def exitsBy (reason : ExitReason) (trades : List TradeLog) : ℕ :=
  trades.countP fun t => t.exitReason = reason

def ExitReason.invalidates : ExitReason → Bool
  | .invalidCloseBelowBreakout | .invalidRegimeShock | .invalidMseTrendDown
  | .invalidMpsBlock => true
  | .stopHit | .target2Hit | .target1Hit | .timeExit | .dataEndExit => false

/-- Number of rows closed because the setup no longer held. -/
def invalidated (trades : List TradeLog) : ℕ := trades.countP fun t => t.exitReason.invalidates

/-- Number of accepted intents with the label `RE_ENTRY`. -/
def acceptedReentries (intents : List IntentLog) : ℕ :=
  intents.countP fun intent => intent.reasonCodes = "ACCEPTED" ∧ intent.entryType = .reEntry

theorem eventsOf_snoc (kind : EventKind) (audit : List AuditEvent) (event : AuditEvent) :
    eventsOf kind (audit ++ [event]) =
      eventsOf kind audit + if event.kind = kind then 1 else 0 := by
  unfold eventsOf
  rw [List.countP_append, List.countP_singleton]
  simp only [decide_eq_true_eq]

theorem exitsBy_snoc (reason : ExitReason) (trades : List TradeLog) (t : TradeLog) :
    exitsBy reason (trades ++ [t]) =
      exitsBy reason trades + if t.exitReason = reason then 1 else 0 := by
  unfold exitsBy
  rw [List.countP_append, List.countP_singleton]
  simp only [decide_eq_true_eq]

theorem invalidated_snoc (trades : List TradeLog) (t : TradeLog) :
    invalidated (trades ++ [t]) =
      invalidated trades + if t.exitReason.invalidates then 1 else 0 := by
  unfold invalidated
  rw [List.countP_append, List.countP_singleton]

theorem acceptedReentries_snoc (intents : List IntentLog) (row : IntentLog) :
    acceptedReentries (intents ++ [row]) = acceptedReentries intents +
      if row.reasonCodes = "ACCEPTED" ∧ row.entryType = .reEntry then 1 else 0 := by
  unfold acceptedReentries
  rw [List.countP_append, List.countP_singleton]
  simp only [decide_eq_true_eq]

/-! ## The tally -/

/-- The numbers the counters stand for. -/
structure Tally where
  breakouts : ℕ
  retests : ℕ
  entries : ℕ
  reentries : ℕ
  rejections : ℕ
  invalidations : ℕ
  expired : ℕ
  t1hits : ℕ
  t2hits : ℕ
  stops : ℕ
  timeexits : ℕ

def RunLogs.tally (logs : RunLogs) : Tally where
  breakouts := eventsOf .breakout logs.audit
  retests := logs.intents.length
  entries := eventsOf .tradeAccepted logs.audit
  reentries := acceptedReentries logs.intents
  rejections := eventsOf .tradeRejected logs.audit
  invalidations := invalidated logs.trades
  expired := eventsOf .entryExpired logs.audit
  t1hits := exitsBy .target1Hit logs.trades
  t2hits := exitsBy .target2Hit logs.trades
  stops := exitsBy .stopHit logs.trades
  timeexits := exitsBy .timeExit logs.trades

/-- Trades the chain of exits counted. -/
def Tally.exits (n : Tally) : ℕ := n.t1hits + n.t2hits + n.stops + n.invalidations + n.timeexits

/-- The tally in the arithmetic of `int`. -/
def Tally.counters (n : Tally) : Counters where
  breakouts := .ofNat n.breakouts
  retests := .ofNat n.retests
  entries := .ofNat n.entries
  reentries := .ofNat n.reentries
  rejections := .ofNat n.rejections
  invalidations := .ofNat n.invalidations
  expired := .ofNat n.expired
  t1hits := .ofNat n.t1hits
  t2hits := .ofNat n.t2hits
  stops := .ofNat n.stops
  timeexits := .ofNat n.timeexits

/-- One more exit of the chain. -/
def Tally.countExit (n : Tally) : ExitReason → Tally
  | .stopHit => { n with stops := n.stops + 1 }
  | .target2Hit => { n with t2hits := n.t2hits + 1 }
  | .target1Hit => { n with t1hits := n.t1hits + 1 }
  | .invalidCloseBelowBreakout | .invalidRegimeShock | .invalidMseTrendDown
  | .invalidMpsBlock => { n with invalidations := n.invalidations + 1 }
  | .timeExit => { n with timeexits := n.timeexits + 1 }
  | .dataEndExit => n

/-- What a move adds to the tally. -/
def Tally.count (n : Tally) : Move → Tally
  | .score _ => n
  | .exit row => n.countExit row.exitReason
  | .breakout _ => { n with breakouts := n.breakouts + 1 }
  | .expire => { n with expired := n.expired + 1 }
  | .accept row _ =>
      { n with
        retests := n.retests + 1
        entries := n.entries + 1
        reentries := n.reentries + if row.entryType = .reEntry then 1 else 0 }
  | .reject _ => { n with retests := n.retests + 1, rejections := n.rejections + 1 }

theorem Tally.countExit_counters (n : Tally) (reason : ExitReason) :
    (n.countExit reason).counters = n.counters.countExit reason := by
  cases reason <;> simp [Tally.countExit, Counters.countExit, Tally.counters]

/-- A row more in the trade log. -/
theorem tally_snoc_trade (logs : RunLogs) (row : TradeLog) :
    ({ logs with trades := logs.trades ++ [row] } : RunLogs).tally =
      logs.tally.countExit row.exitReason := by
  cases reason : row.exitReason <;>
    simp [RunLogs.tally, Tally.countExit, exitsBy_snoc, invalidated_snoc,
      ExitReason.invalidates, reason]

theorem ExitFires.inChain {s : LoopState} {b : Bar} {i : ℕ} {reason : ExitReason} {exitPrice : ℚ}
    (fires : ExitFires b i s reason exitPrice) : reason ≠ .dataEndExit := by
  cases fires <;> exact fun same => ExitReason.noConfusion same

/-- A counter never shows more than its number. -/
theorem toInt_ofNat_le (n : ℕ) : (Int32.ofNat n).toInt ≤ n := by
  rw [Int32.toInt_ofNat', Int32.size, Int.bmod]
  split <;> omega

section Step

variable {bars : List Bar} {s t : LoopState} {m : ℕ × Move}

/-- An entry counts as a re-entry when it is labelled so. -/
theorem InWindow.reentries_eq {i : ℕ} {label : EntryType} (window : InWindow i s label) :
    (if s.canReentry then s.counters.reentries + 1 else s.counters.reentries) =
      s.counters.reentries + .ofNat (if label = .reEntry then 1 else 0) := by
  cases window with
  | fresh _ notAgain =>
      rw [notAgain]
      exact (Int32.add_zero _).symm
  | again _ rearmed => rw [rearmed]; rfl

/-- The logs grow by what the move counts. -/
theorem LoopMove.tally_eq (step : LoopMove bars s m t) :
    t.logs.tally = s.logs.tally.count m.2 := by
  cases step with
  | score => rfl
  | @exit i _ reason exitPrice =>
      refine Eq.trans ?_ (tally_snoc_trade s.logs (tradeRow bars i s reason exitPrice))
      simp [RunLogs.tally, closeTrade, eventsOf_snoc, AuditEvent.kind]
  | breakout | expire =>
      simp [RunLogs.tally, Tally.count, markBreakout, markExpired, LoopState.pushAudit,
        eventsOf_snoc, AuditEvent.kind]
  | @accept i =>
      have accepted : (retestRow bars i [] s).reasonCodes = "ACCEPTED" :=
        (reasonJoin_eq_accepted []).mpr rfl
      change ({ s.logs with
        intents := s.logs.intents ++ [retestRow bars i [] s]
        audit := s.logs.audit ++ [.tradeAccepted _ _] } : RunLogs).tally = _
      simp [RunLogs.tally, Tally.count, eventsOf_snoc, acceptedReentries_snoc, AuditEvent.kind,
        accepted]
  | @reject i _ _ reasons _ _ refused =>
      have notAccepted : (retestRow bars i reasons s).reasonCodes ≠ "ACCEPTED" := fun accepted =>
        refused ((reasonJoin_eq_accepted reasons).mp accepted)
      change ({ s.logs with
        intents := s.logs.intents ++ [retestRow bars i reasons s]
        audit := s.logs.audit ++ [.tradeRejected _ _] } : RunLogs).tally = _
      simp [RunLogs.tally, Tally.count, eventsOf_snoc, acceptedReentries_snoc, AuditEvent.kind,
        notAccepted]

/-- The counters count every move once. -/
theorem LoopMove.counted (step : LoopMove bars s m t)
    (same : s.counters = s.logs.tally.counters) : t.counters = t.logs.tally.counters := by
  rw [step.tally_eq]
  cases step with
  | score => exact same
  | @exit i _ reason =>
      change s.counters.countExit reason = (s.logs.tally.countExit reason).counters
      rw [Tally.countExit_counters, same]
  | breakout =>
      change { s.counters with breakouts := s.counters.breakouts + 1 } = _
      rw [same]
      simp [Tally.count, Tally.counters]
  | expire =>
      change { s.counters with expired := s.counters.expired + 1 } = _
      rw [same]
      simp [Tally.count, Tally.counters]
  | @accept i _ label _ _ _ _ _ window =>
      have taken : (retestRow bars i [] s).entryType = label := window.label_eq
      change { s.counters with
        retests := s.counters.retests + 1
        entries := s.counters.entries + 1
        reentries := if s.canReentry then s.counters.reentries + 1 else s.counters.reentries } = _
      rw [window.reentries_eq, same]
      simp [Tally.count, Tally.counters, taken]
  | reject =>
      change { s.counters with
        retests := s.counters.retests + 1
        rejections := s.counters.rejections + 1 } = _
      rw [same]
      simp [Tally.count, Tally.counters]

end Step

/-! ## The counters of a run -/

section Run

variable (bars : List Bar) (n : ℕ)

theorem stateAfter_counters :
    (stateAfter bars n).counters = (stateAfter bars n).logs.tally.counters :=
  stateAfter_of_moves (fun s => s.counters = s.logs.tally.counters) rfl
    (fun _ _ _ same step => step.counted same) n

/-- The row of the end of the data counts for nothing. -/
theorem dataEnd_tally (s : LoopState) : (dataEnd bars s).logs.tally = s.logs.tally := by
  unfold dataEnd
  split
  · exact tally_snoc_trade s.logs _
  · rfl

/-- Every counter of the summary is its number in the arithmetic of `int`. -/
theorem runBacktest_counters :
    (runBacktest bars).counters = (runBacktest bars).logs.tally.counters := by
  have kept : (runBacktest bars).counters = (runLoop bars).counters := by
    unfold runBacktest dataEnd
    split <;> rfl
  rw [kept, runBacktest, dataEnd_tally]
  exact stateAfter_counters bars bars.length

/-! ## Their range -/

/-- A pass behind the window logs at most one intent. -/
theorem intents_length_le : (stateAfter bars n).logs.intents.length ≤ n - lookback := by
  induction n with
  | zero => exact Nat.zero_le _
  | succ n ih =>
      rw [pass_intents, List.length_append]
      split
      · next logs =>
          have warm : lookback ≤ n := logs.1.1
          rw [List.length_singleton]
          omega
      · rw [List.length_nil]
        omega

/-- A pass behind the window finds at most one breakout. -/
theorem breakouts_le : eventsOf .breakout (stateAfter bars n).logs.audit ≤ n - lookback := by
  have none {events : List AuditEvent}
      (others : ∀ timestamp level, AuditEvent.breakout timestamp level ∉ events) :
      eventsOf .breakout events = 0 := by
    refine List.countP_eq_zero.mpr fun event member => ?_
    cases event with
    | breakout timestamp level => exact absurd member (others timestamp level)
    | tradeExit | entryExpired | tradeAccepted | tradeRejected => exact Bool.false_ne_true
  induction n with
  | zero => exact Nat.zero_le _
  | succ n ih =>
      obtain ⟨before, after, audit, others⟩ := pass_audit bars n
      have quiet := none others
      unfold eventsOf at ih quiet ⊢
      rw [List.countP_append] at quiet
      rw [audit, List.countP_append, List.countP_append, List.countP_append]
      split
      · next finds =>
          have warm : lookback ≤ n := finds.1.1
          rw [List.countP_singleton]
          split <;> omega
      · rw [List.countP_nil]
        omega

end Run

end PrismPipeline.Backtest
