import PrismPipeline.Backtest.RiskInvariant
import PrismPipeline.Machine.Refinement

/-!
# The moves of a run

A pass of the loop body is a short sequence of moves: the score is logged, an open
trade may be closed, a breakout may be found or given up, and a retest may be taken
or rejected.  Whatever the run writes, counts or remembers changes in one of these
moves.  This file takes the loop apart into them once; the results about the logs
are then inductions over runs of moves, with one case for each move.
-/

namespace PrismPipeline.Backtest

open PrismPipeline.Machine

/-- What the run does at one point of a pass, with the row it writes. -/
inductive Move where
  | score (row : ScoreRow)
  | exit (row : TradeLog)
  | breakout (level : ℚ)
  | expire
  | accept (row : IntentLog) (tradeId : Int32)
  | reject (row : IntentLog)
  deriving DecidableEq

namespace Move

def intent? : Move → Option IntentLog
  | .accept row _ | .reject row => some row
  | _ => none

def accepted? : Move → Option IntentLog
  | .accept row _ => some row
  | _ => none

def trade? : Move → Option TradeLog
  | .exit row => some row
  | _ => none

/-- The line of the audit log for a move on bar `b`. -/
def audit? (b : Bar) : Move → Option AuditEvent
  | .score _ => none
  | .exit row => some (.tradeExit b.timestamp row.exitReason row.tradeId)
  | .breakout level => some (.breakout b.timestamp level)
  | .expire => some (.entryExpired b.timestamp)
  | .accept _ tradeId => some (.tradeAccepted b.timestamp tradeId)
  | .reject row => some (.tradeRejected b.timestamp row.reasonCodes)

end Move

/-! ## The gate -/

/-- The state of pass `i` in which the entry gate tests its window. -/
def gateState (bars : List Bar) (i : ℕ) : LoopState :=
  expireBreakout bars i (detectBreakout bars i
    (exitStep bars i (logScore (barScore bars i) (stateAfter bars i))))

def markBreakout (bars : List Bar) (i : ℕ) (s : LoopState) : LoopState :=
  { s with
    priorBreakout := true
    breakout := prevHigh bars i
    breakoutI := i
    counters := { s.counters with breakouts := s.counters.breakouts + 1 }
    canReentry := false
    reentryUsed := false }.pushAudit
      (.breakout (barAt bars i).timestamp (prevHigh bars i))

def markExpired (bars : List Bar) (i : ℕ) (s : LoopState) : LoopState :=
  { s with
    priorBreakout := false
    counters := { s.counters with expired := s.counters.expired + 1 } }.pushAudit
      (.entryExpired (barAt bars i).timestamp)

/-- Detection and expiry find a breakout, give a pending one up, or do nothing. -/
theorem gate_cases (bars : List Bar) (i : ℕ) (s : LoopState) :
    (newBreakout bars i ∧
      expireBreakout bars i (detectBreakout bars i s) = markBreakout bars i s) ∨
    (s.priorBreakout = true ∧ entryTtl < castInt (i - s.breakoutI) ∧
      expireBreakout bars i (detectBreakout bars i s) = markExpired bars i s) ∨
    ((s.priorBreakout = true → castInt (i - s.breakoutI) ≤ entryTtl) ∧
      expireBreakout bars i (detectBreakout bars i s) = s) := by
  unfold detectBreakout
  by_cases found : newBreakout bars i
  · refine Or.inl ⟨found, ?_⟩
    have young : ¬ entryTtl < castInt (i - i) := by
      rw [Nat.sub_self]
      decide
    rw [if_pos found]
    exact if_neg fun late => young late.2
  · rw [if_neg found]
    unfold expireBreakout
    by_cases late : s.priorBreakout = true ∧ entryTtl < castInt (i - s.breakoutI)
    · exact Or.inr (Or.inl ⟨late.1, late.2, if_pos late⟩)
    · refine Or.inr (Or.inr ⟨fun armed => ?_, if_neg late⟩)
      exact not_lt.mp fun past => late ⟨armed, past⟩

/-- Where the indices of the pending breakout and of the trade stand after `n` bars. -/
structure GateInvariant (n : ℕ) (s : LoopState) : Prop where
  armed : s.priorBreakout = true → s.tradeOpen = false ∧ s.canReentry = false ∧
    s.reentryUsed = false ∧ n ≤ s.breakoutI + 6
  pending : s.priorBreakout = true ∨ s.tradeOpen = true ∨ s.canReentry = true →
    lookback ≤ s.breakoutI
  breakoutI_le : s.breakoutI ≤ n - 1
  entryI_le : s.entryI ≤ n - 1

section Pass

variable {bars : List Bar} {i : ℕ} {s : LoopState}

theorem exitStep_gate (inv : GateInvariant i s) : GateInvariant i (exitStep bars i s) := by
  rcases exitStep_cases bars i s with
    ⟨_, same⟩ | ⟨_, _, same⟩ | ⟨reason, exitPrice, isOpen, _, same⟩
  · rwa [same]
  · rwa [same]
  · have found := inv.pending (Or.inr (Or.inl isOpen))
    have unarmed : s.priorBreakout = false := by
      by_contra armed
      have flat := (inv.armed (Bool.not_eq_false _ ▸ armed)).1
      rw [isOpen] at flat
      exact absurd flat (by decide)
    rw [same]
    refine ⟨fun armed => ?_, fun _ => found, inv.breakoutI_le, inv.entryI_le⟩
    exact absurd (unarmed.symm.trans armed) Bool.false_ne_true

/-- The age of a pending breakout is far from the range of an `int`. -/
theorem GateInvariant.age {n : ℕ} (inv : GateInvariant n s) (armed : s.priorBreakout = true)
    (now : i ≤ n) : castInt (i - s.breakoutI) = ((i - s.breakoutI : ℕ) : ℤ) := by
  obtain ⟨_, _, _, recent⟩ := inv.armed armed
  exact castInt_of_lt (by omega)

theorem gate_gate (inv : GateInvariant i s) (warm : lookback ≤ i) (flat : s.tradeOpen = false) :
    GateInvariant (i + 1) (expireBreakout bars i (detectBreakout bars i s)) := by
  have entered : s.entryI ≤ i + 1 - 1 := inv.entryI_le.trans (by omega)
  have seen : s.breakoutI ≤ i + 1 - 1 := inv.breakoutI_le.trans (by omega)
  rcases gate_cases bars i s with ⟨_, same⟩ | ⟨armed, _, same⟩ | ⟨young, same⟩
  · rw [same]
    refine ⟨fun _ => ⟨flat, rfl, rfl, ?_⟩, fun _ => warm, le_rfl, entered⟩
    change i + 1 ≤ i + 6
    omega
  · rw [same]
    have found := inv.pending (Or.inl armed)
    exact ⟨fun armed => Bool.noConfusion armed, fun _ => found, seen, entered⟩
  · rw [same]
    refine ⟨fun armed => ?_, inv.pending, seen, entered⟩
    obtain ⟨_, notAgain, unused, _⟩ := inv.armed armed
    have recent := young armed
    rw [inv.age armed le_rfl, entryTtl] at recent
    exact ⟨flat, notAgain, unused, by omega⟩

theorem takeRetest_gate {sc : ScoreRow} (inv : GateInvariant (i + 1) s)
    (found : lookback ≤ s.breakoutI) :
    GateInvariant (i + 1) (takeRetest bars i sc s) := by
  rcases takeRetest_cases bars i sc s with ⟨_, taken⟩ | ⟨reasons, _, rejected⟩
  · rw [taken]
    exact ⟨fun armed => Bool.noConfusion armed, fun _ => found, inv.breakoutI_le, le_rfl⟩
  · rw [rejected]
    exact ⟨inv.armed, inv.pending, inv.breakoutI_le, inv.entryI_le⟩

theorem entryStep_gate {sc : ScoreRow} (inv : GateInvariant i s) :
    GateInvariant (i + 1) (entryStep bars i sc s) := by
  rcases entryStep_cases bars i sc s with ⟨skipped, same⟩ | ⟨gated, rfl, warm, flat, decided⟩
  · have seen := inv.breakoutI_le
    have entered := inv.entryI_le
    rw [same]
    refine ⟨fun armed => ?_, inv.pending, by omega, by omega⟩
    -- A pending breakout is never skipped: it lies behind the window and excludes a trade.
    obtain ⟨flat, _⟩ := inv.armed armed
    have found := inv.pending (Or.inl armed)
    rcases skipped with filling | isOpen
    · change 20 ≤ _ at found
      change i < 20 at filling
      omega
    · exact absurd (flat.symm.trans isOpen) Bool.false_ne_true
  · have gated : GateInvariant (i + 1) (expireBreakout bars i (detectBreakout bars i s)) :=
      gate_gate inv warm flat
    generalize expireBreakout bars i (detectBreakout bars i s) = g at *
    rcases decided with same | ⟨⟨window, _⟩, same⟩
    · rwa [same]
    · rw [same]
      refine takeRetest_gate gated (gated.pending ?_)
      rcases window with armed | ⟨rearmed, _⟩
      · exact Or.inl armed
      · exact Or.inr (Or.inr rearmed)

end Pass

theorem logScore_gate {n : ℕ} {sc : ScoreRow} {s : LoopState} (inv : GateInvariant n s) :
    GateInvariant n (logScore sc s) :=
  ⟨inv.armed, inv.pending, inv.breakoutI_le, inv.entryI_le⟩

theorem stateAfter_gate (bars : List Bar) (n : ℕ) : GateInvariant n (stateAfter bars n) := by
  have initial : GateInvariant 0 {} := by
    constructor <;> simp
  exact forLoop_invariant GateInvariant n initial
    (fun _ _ _ inv => entryStep_gate (exitStep_gate (logScore_gate inv))) n le_rfl

theorem gateState_gate {bars : List Bar} {i : ℕ} (warm : lookback ≤ i)
    (flat : (gateState bars i).tradeOpen = false) : GateInvariant (i + 1) (gateState bars i) := by
  have exited : GateInvariant i
      (exitStep bars i (logScore (barScore bars i) (stateAfter bars i))) :=
    exitStep_gate (logScore_gate (stateAfter_gate bars i))
  exact gate_gate exited warm ((gate_tradeOpen bars i _).symm.trans flat)

/-! ## Moves -/

/-- The window a retest of pass `i` falls into, with the label of a trade taken in it. -/
inductive InWindow (i : ℕ) (s : LoopState) : EntryType → Prop where
  | fresh (armed : s.priorBreakout = true) (notAgain : s.canReentry = false)
      (unused : s.reentryUsed = false) (recent : i ≤ s.breakoutI + 5) :
      InWindow i s .retestEntry
  | again (idle : s.priorBreakout = false) (rearmed : s.canReentry = true)
      (unused : s.reentryUsed = false)
      (recent : castInt (i - s.breakoutI) ≤ entryTtl + 10) : InWindow i s .reEntry

theorem InWindow.label_eq {i : ℕ} {s : LoopState} {label : EntryType}
    (window : InWindow i s label) :
    (if s.canReentry then EntryType.reEntry else .retestEntry) = label := by
  cases window with
  | fresh _ notAgain => rw [notAgain]; rfl
  | again _ rearmed => rw [rearmed]; rfl

/-- The intent logged for a retest on bar `i`. -/
def retestRow (bars : List Bar) (i : ℕ) (reasons : List RejectReason) (s : LoopState) :
    IntentLog :=
  intentRow (barAt bars i) (barScore bars i) reasons (setLevels (barAt bars i) s)

/-- The moves of pass `i`, each with what is known when it is made. -/
inductive LoopMove (bars : List Bar) : LoopState → ℕ × Move → LoopState → Prop where
  | score (i : ℕ) (s : LoopState) :
      LoopMove bars s (i, .score (barScore bars i)) (logScore (barScore bars i) s)
  | exit {i : ℕ} {s : LoopState} {reason : ExitReason} {exitPrice : ℚ}
      (isOpen : s.tradeOpen = true) (levels : OrderedLevels s)
      (flags : s.priorBreakout = false ∧ s.canReentry = false)
      (entered : s.entryI < i) (recent : i ≤ s.entryI + 20)
      (fires : ExitFires (barAt bars i) i s reason exitPrice) :
      LoopMove bars s (i, .exit (tradeRow bars i s reason exitPrice))
        (closeTrade bars i reason exitPrice s)
  | breakout {i : ℕ} {s : LoopState} (warm : lookback ≤ i) (flat : s.tradeOpen = false)
      (entered : s.entryI < i) (seen : s.breakoutI ≤ i) (found : newBreakout bars i) :
      LoopMove bars s (i, .breakout (prevHigh bars i)) (markBreakout bars i s)
  | expire {i : ℕ} {s : LoopState} (armed : s.priorBreakout = true)
      (flat : s.tradeOpen = false) (notAgain : s.canReentry = false) :
      LoopMove bars s (i, .expire) (markExpired bars i s)
  | accept {i : ℕ} {s : LoopState} {label : EntryType} (here : s = gateState bars i)
      (warm : lookback ≤ i) (flat : s.tradeOpen = false) (entered : s.entryI ≤ i)
      (seen : s.breakoutI ≤ i) (window : InWindow i s label) (retest : isRetest (barAt bars i) s.breakout)
      (clean : rejectReasons bars i (barScore bars i) (setLevels (barAt bars i) s) = []) :
      LoopMove bars s (i, .accept (retestRow bars i [] s) (s.tradeId + 1))
        (acceptTrade (barAt bars i) i (barScore bars i)
          (logIntent (barAt bars i) (barScore bars i) [] (setLevels (barAt bars i) s)))
  | reject {i : ℕ} {s : LoopState} {label : EntryType} {reasons : List RejectReason}
      (flat : s.tradeOpen = false) (window : InWindow i s label) (refused : reasons ≠ []) :
      LoopMove bars s (i, .reject (retestRow bars i reasons s))
        (rejectTrade (barAt bars i) reasons
          (logIntent (barAt bars i) (barScore bars i) reasons (setLevels (barAt bars i) s)))

/-- A stretch of moves within pass `i`. -/
def PassRun (bars : List Bar) (i : ℕ) (s t : LoopState) : Prop :=
  ∃ moves, LabelledRun (LoopMove bars) s moves t ∧ ∀ m ∈ moves, m.1 = i

namespace PassRun

variable {bars : List Bar} {i : ℕ} {s t u : LoopState}

theorem refl (s : LoopState) : PassRun bars i s s :=
  ⟨[], .nil s, fun _ member => absurd member List.not_mem_nil⟩

theorem single {move : Move} (step : LoopMove bars s (i, move) t) : PassRun bars i s t :=
  ⟨[(i, move)], .snoc (.nil s) step, fun m member => by rw [List.mem_singleton.mp member]⟩

theorem trans (first : PassRun bars i s t) (second : PassRun bars i t u) :
    PassRun bars i s u := by
  obtain ⟨earlier, before, stamped⟩ := first
  obtain ⟨later, after, stampedLater⟩ := second
  exact ⟨earlier ++ later, before.append after,
    List.forall_mem_append.mpr ⟨stamped, stampedLater⟩⟩

end PassRun

section Pass

variable {bars : List Bar} {i : ℕ} {s : LoopState}

theorem exitStep_moves (risk : RiskInvariant i s) :
    PassRun bars i s (exitStep bars i s) := by
  rcases exitStep_cases bars i s with
    ⟨_, same⟩ | ⟨_, _, same⟩ | ⟨reason, exitPrice, isOpen, fires, same⟩
  · rw [same]
    exact .refl s
  · rw [same]
    exact .refl s
  · rw [same]
    obtain ⟨entered, recent⟩ := risk.entered isOpen
    exact .single (.exit isOpen (risk.levels isOpen) (risk.flags isOpen) entered recent fires)

theorem gate_moves (inv : GateInvariant i s) (warm : lookback ≤ i) (flat : s.tradeOpen = false) :
    PassRun bars i s (expireBreakout bars i (detectBreakout bars i s)) := by
  rcases gate_cases bars i s with ⟨found, same⟩ | ⟨armed, _, same⟩ | ⟨_, same⟩
  · have entered := inv.entryI_le
    have seen := inv.breakoutI_le
    have late : 20 ≤ i := warm
    rw [same]
    exact .single (.breakout warm flat (by omega) (by omega) found)
  · rw [same]
    exact .single (.expire armed flat (inv.armed armed).2.1)
  · rw [same]
    exact .refl s

/-- An open window is one of the two. -/
theorem inWindow_of_eligible (inv : GateInvariant (i + 1) s) (window : eligibleWindow i s) :
    ∃ label, InWindow i s label := by
  by_cases armed : s.priorBreakout = true
  · obtain ⟨_, notAgain, unused, recent⟩ := inv.armed armed
    exact ⟨_, .fresh armed notAgain unused (by omega)⟩
  · rcases window with armed' | ⟨rearmed, unused, recent⟩
    · exact absurd armed' armed
    · exact ⟨_, .again (Bool.eq_false_iff.mpr armed) rearmed unused recent⟩

theorem takeRetest_moves (here : s = gateState bars i) (warm : lookback ≤ i)
    (flat : s.tradeOpen = false) (inv : GateInvariant (i + 1) s) (window : eligibleWindow i s)
    (retest : isRetest (barAt bars i) s.breakout) :
    PassRun bars i s (takeRetest bars i (barScore bars i) s) := by
  obtain ⟨label, inside⟩ := inWindow_of_eligible inv window
  unfold takeRetest
  dsimp only
  split
  · next clean =>
      rw [clean]
      exact .single
        (.accept here warm flat inv.entryI_le inv.breakoutI_le inside retest clean)
  · next refused => exact .single (.reject flat inside refused)

end Pass

/-- The moves of a pass up to its exit, and what holds behind it. -/
theorem exited_moves (bars : List Bar) (i : ℕ) :
    PassRun bars i (stateAfter bars i)
        (exitStep bars i (logScore (barScore bars i) (stateAfter bars i))) ∧
      GateInvariant i (exitStep bars i (logScore (barScore bars i) (stateAfter bars i))) := by
  have risk : RiskInvariant i (logScore (barScore bars i) (stateAfter bars i)) :=
    logScore_risk (stateAfter_risk bars i)
  have gate : GateInvariant i (logScore (barScore bars i) (stateAfter bars i)) :=
    logScore_gate (stateAfter_gate bars i)
  have scored : PassRun bars i (stateAfter bars i)
      (logScore (barScore bars i) (stateAfter bars i)) := .single (.score i _)
  exact ⟨scored.trans (exitStep_moves risk), exitStep_gate gate⟩

/-- One pass of the loop, move by move. -/
theorem pass_moves (bars : List Bar) (i : ℕ) :
    PassRun bars i (stateAfter bars i) (stateAfter bars (i + 1)) := by
  obtain ⟨exited, gateExited⟩ := exited_moves bars i
  refine exited.trans ?_
  rw [stateAfter_add_one]
  rcases entryStep_cases bars i (barScore bars i)
    (exitStep bars i (logScore (barScore bars i) (stateAfter bars i))) with
    ⟨_, same⟩ | ⟨gated, here, warm, flat, decided⟩
  · rw [same]
    exact .refl _
  · have gatedFlat : gated.tradeOpen = false := by
      rw [here, gate_tradeOpen, flat]
    have gatedGate : GateInvariant (i + 1) gated := by
      rw [here]
      exact gate_gate gateExited warm flat
    have opened : PassRun bars i
        (exitStep bars i (logScore (barScore bars i) (stateAfter bars i))) gated := by
      rw [here]
      exact gate_moves gateExited warm flat
    refine opened.trans ?_
    rcases decided with same | ⟨⟨window, retest⟩, same⟩
    · rw [same]
      exact .refl _
    · rw [same]
      exact takeRetest_moves here warm gatedFlat gatedGate window retest

namespace LoopMove

variable {bars : List Bar} {s t : LoopState} {m : ℕ × Move}

theorem intents_eq (step : LoopMove bars s m t) :
    t.logs.intents = s.logs.intents ++ m.2.intent?.toList := by
  cases step with
  | score | exit | breakout | expire => exact (List.append_nil _).symm
  | accept | reject => rfl

theorem trades_eq (step : LoopMove bars s m t) :
    t.logs.trades = s.logs.trades ++ m.2.trade?.toList := by
  cases step with
  | exit => rfl
  | score | breakout | expire | accept | reject => exact (List.append_nil _).symm

theorem audit_eq (step : LoopMove bars s m t) :
    t.logs.audit = s.logs.audit ++ (m.2.audit? (barAt bars m.1)).toList := by
  cases step with
  | score => exact (List.append_nil _).symm
  | exit | breakout | expire | accept | reject => rfl

end LoopMove

/-! ## The timeline -/

/-- The moves of the first `n` passes, pass by pass, each with the index of its bar. -/
inductive Timeline (bars : List Bar) : ℕ → List (ℕ × Move) → Prop where
  | start : Timeline bars 0 []
  | pass {n : ℕ} {earlier moves : List (ℕ × Move)} (before : Timeline bars n earlier)
      (run : LabelledRun (LoopMove bars) (stateAfter bars n) moves (stateAfter bars (n + 1)))
      (stamped : ∀ m ∈ moves, m.1 = n) : Timeline bars (n + 1) (earlier ++ moves)

theorem exists_timeline (bars : List Bar) (n : ℕ) : ∃ moves, Timeline bars n moves := by
  induction n with
  | zero => exact ⟨[], .start⟩
  | succ n ih =>
      obtain ⟨earlier, before⟩ := ih
      obtain ⟨moves, run, stamped⟩ := pass_moves bars n
      exact ⟨earlier ++ moves, .pass before run stamped⟩

/-- A log of the run with the index of the bar on which each entry was appended. -/
def stamped {α : Type*} (log : LoopState → List α) (bars : List Bar) (n : ℕ) : List (ℕ × α) :=
  (List.range n).flatMap fun i =>
    ((log (stateAfter bars (i + 1))).drop (log (stateAfter bars i)).length).map fun entry =>
      (i, entry)

theorem stamped_succ {α : Type*} (log : LoopState → List α) (bars : List Bar) (n : ℕ) :
    stamped log bars (n + 1) = stamped log bars n ++
      ((log (stateAfter bars (n + 1))).drop (log (stateAfter bars n)).length).map
        fun entry => (n, entry) := by
  unfold stamped
  rw [List.range_succ, List.flatMap_append, List.flatMap_singleton]

theorem stamped_mono {α : Type*} (log : LoopState → List α) (bars : List Bar) {m n : ℕ}
    (order : m ≤ n) : stamped log bars m <+: stamped log bars n := by
  induction order with
  | refl => exact List.prefix_rfl
  | step _ ih =>
      rw [stamped_succ]
      exact ih.trans (List.prefix_append _ _)

/-- The intents of the first `n` bars, with the bar each one was logged on. -/
def intentsBy (bars : List Bar) (n : ℕ) : List (ℕ × IntentLog) :=
  stamped (fun s => s.logs.intents) bars n

/-- The intents among them that were taken. -/
def acceptedBy (bars : List Bar) (n : ℕ) : List (ℕ × IntentLog) :=
  (intentsBy bars n).filter fun entry => entry.2.reasonCodes = "ACCEPTED"

/-- The trades closed on the first `n` bars, with the bar each one was closed on. -/
def tradesBy (bars : List Bar) (n : ℕ) : List (ℕ × TradeLog) :=
  stamped (fun s => s.logs.trades) bars n

/-- The audit events of the first `n` bars, each with its bar. -/
def auditBy (bars : List Bar) (n : ℕ) : List (ℕ × AuditEvent) :=
  stamped (fun s => s.logs.audit) bars n

namespace Timeline

variable {bars : List Bar} {n : ℕ} {moves : List (ℕ × Move)}

theorem run (timeline : Timeline bars n moves) :
    LabelledRun (LoopMove bars) {} moves (stateAfter bars n) := by
  induction timeline with
  | start => exact .nil _
  | pass _ run _ ih => exact ih.append run

theorem stamp_lt (timeline : Timeline bars n moves) : ∀ m ∈ moves, m.1 < n := by
  induction timeline with
  | start => exact fun _ member => absurd member List.not_mem_nil
  | pass _ _ stamped ih =>
      intro m member
      rcases List.mem_append.mp member with earlier | newest
      · exact (ih m earlier).trans (Nat.lt_succ_self _)
      · exact (stamped m newest).trans_lt (Nat.lt_succ_self _)

theorem sorted (timeline : Timeline bars n moves) :
    moves.Pairwise fun first second => first.1 ≤ second.1 := by
  induction timeline with
  | start => exact .nil
  | pass before _ stamped ih =>
      refine List.pairwise_append.mpr ⟨ih, ?_, fun m earlier m' newest => ?_⟩
      · refine List.pairwise_of_forall_mem_list fun m member m' member' => ?_
        rw [stamped m member, stamped m' member']
      · rw [stamped m' newest]
        exact (before.stamp_lt m earlier).le

/-- A log that grows by what its moves show, read off the timeline. -/
theorem stamped_eq {α : Type*} {log : LoopState → List α} {shown : ℕ × Move → Option α}
    (appends : ∀ s m t, LoopMove bars s m t → log t = log s ++ (shown m).toList)
    (timeline : Timeline bars n moves) :
    stamped log bars n = moves.filterMap fun m => (shown m).map fun entry => (m.1, entry) := by
  induction timeline with
  | start => rfl
  | pass _ run now ih =>
      rw [stamped_succ, ih, run.log_eq appends, List.drop_left, List.filterMap_append,
        List.map_filterMap]
      congr 1
      refine List.filterMap_congr fun m member => ?_
      rw [now m member]

variable (timeline : Timeline bars n moves)
include timeline

theorem intentsBy_eq : intentsBy bars n =
    moves.filterMap fun m => m.2.intent?.map fun row => (m.1, row) :=
  timeline.stamped_eq fun _ _ _ step => step.intents_eq

/-- The intents with the reason `ACCEPTED` are those of the trades taken. -/
theorem acceptedBy_eq : acceptedBy bars n =
    moves.filterMap fun m => m.2.accepted?.map fun row => (m.1, row) := by
  unfold acceptedBy
  rw [timeline.intentsBy_eq, List.filter_filterMap]
  refine List.filterMap_congr fun m member => ?_
  obtain ⟨before, after, step⟩ := timeline.run.step_of_mem member
  cases step with
  | score | exit | breakout | expire => rfl
  | accept =>
      refine Option.filter_some_pos (decide_eq_true ?_)
      exact (reasonJoin_eq_accepted []).mpr rfl
  | reject _ _ refused =>
      refine Option.filter_some_neg (decide_eq_false fun accepted => refused ?_)
      exact (reasonJoin_eq_accepted _).mp accepted

theorem tradesBy_eq : tradesBy bars n =
    moves.filterMap fun m => m.2.trade?.map fun row => (m.1, row) :=
  timeline.stamped_eq fun _ _ _ step => step.trades_eq

theorem auditBy_eq : auditBy bars n =
    moves.filterMap fun m => (m.2.audit? (barAt bars m.1)).map fun event => (m.1, event) :=
  timeline.stamped_eq fun _ _ _ step => step.audit_eq

theorem intents_eq : (stateAfter bars n).logs.intents = moves.filterMap fun m => m.2.intent? :=
  timeline.run.log_eq fun _ _ _ step => step.intents_eq

theorem trades_eq : (stateAfter bars n).logs.trades = moves.filterMap fun m => m.2.trade? :=
  timeline.run.log_eq fun _ _ _ step => step.trades_eq

theorem audit_eq : (stateAfter bars n).logs.audit =
    moves.filterMap fun m => m.2.audit? (barAt bars m.1) :=
  timeline.run.log_eq fun _ _ _ step => step.audit_eq

end Timeline

/-- What every move preserves holds after every pass. -/
theorem stateAfter_of_moves {bars : List Bar} (Inv : LoopState → Prop) (initial : Inv {})
    (moves : ∀ s m t, Inv s → LoopMove bars s m t → Inv t) (n : ℕ) : Inv (stateAfter bars n) := by
  obtain ⟨_, timeline⟩ := exists_timeline bars n
  exact timeline.run.invariant Inv moves initial

end PrismPipeline.Backtest
