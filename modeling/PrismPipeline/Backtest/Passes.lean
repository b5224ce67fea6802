import PrismPipeline.Backtest.Moves

/-!
# What one pass writes

A pass closes at most one trade, finds at most one breakout and logs at most one
intent.  Each of them is decided by a condition on the bars and on the state before;
the logs of a run are these decisions in the order of the bars.
-/

namespace PrismPipeline.Backtest

open PrismPipeline.Machine

/-- The state of pass `i` after the exit chain. -/
def afterExit (bars : List Bar) (i : ℕ) : LoopState :=
  exitStep bars i (logScore (barScore bars i) (stateAfter bars i))

/-- The entry gate runs in pass `i`. -/
def GateRuns (bars : List Bar) (i : ℕ) : Prop :=
  lookback ≤ i ∧ (afterExit bars i).tradeOpen = false

instance (bars : List Bar) (i : ℕ) : Decidable (GateRuns bars i) :=
  inferInstanceAs (Decidable (_ ∧ _))

def FindsBreakout (bars : List Bar) (i : ℕ) : Prop :=
  GateRuns bars i ∧ newBreakout bars i

instance (bars : List Bar) (i : ℕ) : Decidable (FindsBreakout bars i) :=
  inferInstanceAs (Decidable (_ ∧ _))

def LogsIntent (bars : List Bar) (i : ℕ) : Prop :=
  GateRuns bars i ∧ eligibleWindow i (gateState bars i) ∧
    isRetest (barAt bars i) (gateState bars i).breakout

instance (bars : List Bar) (i : ℕ) : Decidable (LogsIntent bars i) :=
  inferInstanceAs (Decidable (_ ∧ _))

/-- The row of the trade that pass `i` closes. -/
def exitRow (bars : List Bar) (i : ℕ) : Option TradeLog :=
  if (stateAfter bars i).tradeOpen then
    (exitTest (barAt bars i) i (stateAfter bars i)).map fun exit =>
      tradeRow bars i (stateAfter bars i) exit.1 exit.2
  else none

/-- The intent of pass `i`. -/
def passIntent (bars : List Bar) (i : ℕ) : IntentLog :=
  retestRow bars i
    (rejectReasons bars i (barScore bars i) (setLevels (barAt bars i) (gateState bars i)))
    (gateState bars i)

section Pass

variable (bars : List Bar) (i : ℕ)

/-- A pass ends after the exit chain, after the gate, or with a retest. -/
theorem stateAfter_succ_cases :
    (¬ GateRuns bars i ∧ stateAfter bars (i + 1) = afterExit bars i) ∨
    (GateRuns bars i ∧ ¬ LogsIntent bars i ∧ stateAfter bars (i + 1) = gateState bars i) ∨
    (LogsIntent bars i ∧
      stateAfter bars (i + 1) = takeRetest bars i (barScore bars i) (gateState bars i)) := by
  have pass : stateAfter bars (i + 1) = if GateRuns bars i then
      retestStep bars i (barScore bars i) (gateState bars i) else afterExit bars i := rfl
  by_cases runs : GateRuns bars i
  · rw [if_pos runs] at pass
    apply Or.inr
    by_cases retest : eligibleWindow i (gateState bars i) ∧
        isRetest (barAt bars i) (gateState bars i).breakout
    · exact Or.inr ⟨⟨runs, retest⟩, pass.trans (if_pos retest)⟩
    · exact Or.inl ⟨runs, fun logs => retest logs.2, pass.trans (if_neg retest)⟩
  · exact Or.inl ⟨runs, pass.trans (if_neg runs)⟩

/-! ## The steps of a pass -/

theorem afterExit_trades :
    (afterExit bars i).logs.trades =
      (stateAfter bars i).logs.trades ++ (exitRow bars i).toList := by
  have same : (logScore (barScore bars i) (stateAfter bars i)).tradeOpen =
    (stateAfter bars i).tradeOpen := rfl
  have test : exitTest (barAt bars i) i (logScore (barScore bars i) (stateAfter bars i)) =
    exitTest (barAt bars i) i (stateAfter bars i) := rfl
  unfold afterExit exitStep exitRow
  rw [same, test]
  cases (stateAfter bars i).tradeOpen with
  | false => exact (List.append_nil _).symm
  | true =>
      cases exitTest (barAt bars i) i (stateAfter bars i) with
      | none => exact (List.append_nil _).symm
      | some exit => rfl

/-- The exit chain leaves the breakout and the intents alone. -/
theorem afterExit_frame :
    (afterExit bars i).logs.intents = (stateAfter bars i).logs.intents ∧
      (afterExit bars i).breakout = (stateAfter bars i).breakout ∧
      (afterExit bars i).breakoutI = (stateAfter bars i).breakoutI ∧
      ∃ events, (afterExit bars i).logs.audit = (stateAfter bars i).logs.audit ++ events ∧
        ∀ timestamp level, AuditEvent.breakout timestamp level ∉ events := by
  unfold afterExit
  rcases exitStep_cases bars i (logScore (barScore bars i) (stateAfter bars i)) with
    ⟨_, same⟩ | ⟨_, _, same⟩ | ⟨reason, exitPrice, _, _, same⟩
  · rw [same]
    exact ⟨rfl, rfl, rfl, [], (List.append_nil _).symm, by simp⟩
  · rw [same]
    exact ⟨rfl, rfl, rfl, [], (List.append_nil _).symm, by simp⟩
  · rw [same]
    exact ⟨rfl, rfl, rfl, _, rfl, by simp⟩

/-- Detection and expiry write the breakout they find, and nothing else that counts. -/
theorem gateState_frame :
    (gateState bars i).logs.trades = (afterExit bars i).logs.trades ∧
      (gateState bars i).logs.intents = (afterExit bars i).logs.intents ∧
      (gateState bars i).tradeOpen = (afterExit bars i).tradeOpen := by
  have gate : gateState bars i = expireBreakout bars i (detectBreakout bars i (afterExit bars i)) :=
    rfl
  rcases gate_cases bars i (afterExit bars i) with ⟨_, same⟩ | ⟨_, _, same⟩ | ⟨_, same⟩
  · rw [gate, same]
    exact ⟨rfl, rfl, rfl⟩
  · rw [gate, same]
    exact ⟨rfl, rfl, rfl⟩
  · rw [gate, same]
    exact ⟨rfl, rfl, rfl⟩

theorem gateState_found (found : newBreakout bars i) :
    gateState bars i = markBreakout bars i (afterExit bars i) := by
  have detected : detectBreakout bars i (afterExit bars i) =
    markBreakout bars i (afterExit bars i) := if_pos found
  have young : ¬ entryTtl < castInt (i - i) := by
    rw [Nat.sub_self]
    decide
  change expireBreakout bars i (detectBreakout bars i (afterExit bars i)) = _
  rw [detected]
  exact if_neg fun late => young late.2

/-- Without a new breakout the gate keeps the one it had. -/
theorem gateState_kept (none : ¬ newBreakout bars i) :
    (gateState bars i).breakout = (afterExit bars i).breakout ∧
      (gateState bars i).breakoutI = (afterExit bars i).breakoutI ∧
      ∃ events, (gateState bars i).logs.audit = (afterExit bars i).logs.audit ++ events ∧
        ∀ timestamp level, AuditEvent.breakout timestamp level ∉ events := by
  have gate : gateState bars i = expireBreakout bars i (detectBreakout bars i (afterExit bars i)) :=
    rfl
  rcases gate_cases bars i (afterExit bars i) with ⟨found, _⟩ | ⟨_, _, same⟩ | ⟨_, same⟩
  · exact absurd found none
  · rw [gate, same]
    exact ⟨rfl, rfl, _, rfl, by simp⟩
  · rw [gate, same]
    exact ⟨rfl, rfl, [], (List.append_nil _).symm, by simp⟩

/-- A retest writes its intent and its decision. -/
theorem takeRetest_frame (s : LoopState) :
    (takeRetest bars i (barScore bars i) s).logs.trades = s.logs.trades ∧
      (takeRetest bars i (barScore bars i) s).logs.intents = s.logs.intents ++
        [retestRow bars i (rejectReasons bars i (barScore bars i) (setLevels (barAt bars i) s)) s] ∧
      (takeRetest bars i (barScore bars i) s).breakout = s.breakout ∧
      (takeRetest bars i (barScore bars i) s).breakoutI = s.breakoutI ∧
      ∃ events, (takeRetest bars i (barScore bars i) s).logs.audit = s.logs.audit ++ events ∧
        ∀ timestamp level, AuditEvent.breakout timestamp level ∉ events := by
  unfold takeRetest
  dsimp only
  split
  · next clean =>
      rw [clean]
      exact ⟨rfl, rfl, rfl, rfl, _, rfl, by simp⟩
  · exact ⟨rfl, rfl, rfl, rfl, _, rfl, by simp⟩

/-- The moves of a pass up to its gate. -/
theorem gateState_moves {bars : List Bar} {i : ℕ} (runs : GateRuns bars i) :
    PassRun bars i (stateAfter bars i) (gateState bars i) := by
  obtain ⟨exited, gate⟩ := exited_moves bars i
  have gated : PassRun bars i (afterExit bars i) (gateState bars i) :=
    gate_moves gate runs.1 runs.2
  exact exited.trans gated

/-! ## What the pass adds -/

theorem pass_trades :
    (stateAfter bars (i + 1)).logs.trades =
      (stateAfter bars i).logs.trades ++ (exitRow bars i).toList := by
  rw [← afterExit_trades]
  obtain ⟨gateTrades, _⟩ := gateState_frame bars i
  obtain ⟨retestTrades, _⟩ := takeRetest_frame bars i (gateState bars i)
  rcases stateAfter_succ_cases bars i with ⟨_, same⟩ | ⟨_, _, same⟩ | ⟨_, same⟩
  · rw [same]
  · rw [same, gateTrades]
  · rw [same, retestTrades, gateTrades]

theorem pass_intents :
    (stateAfter bars (i + 1)).logs.intents =
      (stateAfter bars i).logs.intents ++
        if LogsIntent bars i then [passIntent bars i] else [] := by
  obtain ⟨exitIntents, _⟩ := afterExit_frame bars i
  obtain ⟨_, gateIntents, _⟩ := gateState_frame bars i
  obtain ⟨_, retestIntents, _⟩ := takeRetest_frame bars i (gateState bars i)
  rw [← exitIntents]
  rcases stateAfter_succ_cases bars i with ⟨skipped, same⟩ | ⟨_, quiet, same⟩ | ⟨logs, same⟩
  · rw [same, if_neg fun logs => skipped logs.1]
    exact (List.append_nil _).symm
  · rw [same, gateIntents, if_neg quiet]
    exact (List.append_nil _).symm
  · rw [same, retestIntents, gateIntents, if_pos logs]
    rfl

/-- The level and the bar of the breakout the gate tests against. -/
theorem gate_breakout (runs : GateRuns bars i) :
    ((gateState bars i).breakout, (gateState bars i).breakoutI) =
      if FindsBreakout bars i then (prevHigh bars i, i)
      else ((stateAfter bars i).breakout, (stateAfter bars i).breakoutI) := by
  obtain ⟨_, exitLevel, exitIndex, _⟩ := afterExit_frame bars i
  by_cases found : newBreakout bars i
  · have finds : FindsBreakout bars i := ⟨runs, found⟩
    rw [if_pos finds, gateState_found bars i found]
    rfl
  · obtain ⟨level, index, _⟩ := gateState_kept bars i found
    rw [if_neg fun finds => found finds.2, level, index, exitLevel, exitIndex]

/-- The same for the loop. -/
theorem pass_breakout :
    ((stateAfter bars (i + 1)).breakout, (stateAfter bars (i + 1)).breakoutI) =
      if FindsBreakout bars i then (prevHigh bars i, i)
      else ((stateAfter bars i).breakout, (stateAfter bars i).breakoutI) := by
  obtain ⟨_, exitLevel, exitIndex, _⟩ := afterExit_frame bars i
  obtain ⟨_, _, retestLevel, retestIndex, _⟩ := takeRetest_frame bars i (gateState bars i)
  rcases stateAfter_succ_cases bars i with ⟨skipped, same⟩ | ⟨runs, _, same⟩ | ⟨logs, same⟩
  · rw [same, if_neg fun finds => skipped finds.1, exitLevel, exitIndex]
  · rw [same]
    exact gate_breakout bars i runs
  · rw [same, retestLevel, retestIndex]
    exact gate_breakout bars i logs.1

/-- The audit lines of a pass, with the breakout in the middle if there is one. -/
theorem pass_audit :
    ∃ before after, (stateAfter bars (i + 1)).logs.audit = (stateAfter bars i).logs.audit ++
        (before ++ (if FindsBreakout bars i then
          [AuditEvent.breakout (barAt bars i).timestamp (prevHigh bars i)] else []) ++ after) ∧
      ∀ timestamp level, AuditEvent.breakout timestamp level ∉ before ++ after := by
  obtain ⟨_, _, _, exits, exitAudit, noneExits⟩ := afterExit_frame bars i
  have gate (runs : GateRuns bars i) : ∃ events, (gateState bars i).logs.audit =
      (stateAfter bars i).logs.audit ++ (exits ++ (if FindsBreakout bars i then
        [AuditEvent.breakout (barAt bars i).timestamp (prevHigh bars i)] else []) ++ events) ∧
      ∀ timestamp level, AuditEvent.breakout timestamp level ∉ events := by
    by_cases found : newBreakout bars i
    · have finds : FindsBreakout bars i := ⟨runs, found⟩
      have line : (markBreakout bars i (afterExit bars i)).logs.audit =
          (afterExit bars i).logs.audit ++
            [AuditEvent.breakout (barAt bars i).timestamp (prevHigh bars i)] := rfl
      refine ⟨[], ?_, by simp⟩
      rw [if_pos finds, gateState_found bars i found, line, exitAudit]
      simp
    · obtain ⟨_, _, events, audit, noneEvents⟩ := gateState_kept bars i found
      refine ⟨events, ?_, noneEvents⟩
      rw [if_neg fun finds => found finds.2, audit, exitAudit]
      simp
  rcases stateAfter_succ_cases bars i with ⟨skipped, same⟩ | ⟨runs, _, same⟩ | ⟨logs, same⟩
  · refine ⟨exits, [], ?_, by simpa using noneExits⟩
    rw [same, if_neg fun finds => skipped finds.1, exitAudit]
    simp
  · obtain ⟨events, audit, noneEvents⟩ := gate runs
    refine ⟨exits, events, by rw [same, audit], fun timestamp level => ?_⟩
    simp [noneExits timestamp level, noneEvents timestamp level]
  · obtain ⟨events, audit, noneEvents⟩ := gate logs.1
    obtain ⟨_, _, _, _, decision, retestAudit, noneDecision⟩ :=
      takeRetest_frame bars i (gateState bars i)
    refine ⟨exits, events ++ decision, ?_, fun timestamp level => ?_⟩
    · rw [same, retestAudit, audit]
      simp only [List.append_assoc]
    · simp [noneExits timestamp level, noneEvents timestamp level, noneDecision timestamp level]

end Pass

/-! ## The logs of a run -/

section Logs

variable {bars : List Bar} {n i : ℕ}

theorem mem_stamped_iff {α : Type*} {log : LoopState → List α} {added : List α}
    (pass : log (stateAfter bars (i + 1)) = log (stateAfter bars i) ++ added) (x : α) :
    (i, x) ∈ stamped log bars n ↔ i < n ∧ x ∈ added := by
  unfold stamped
  constructor
  · intro member
    obtain ⟨j, inside, written⟩ := List.mem_flatMap.mp member
    obtain ⟨y, here, same⟩ := List.mem_map.mp written
    obtain ⟨rfl, rfl⟩ := Prod.mk.inj same
    rw [pass, List.drop_left] at here
    exact ⟨List.mem_range.mp inside, here⟩
  · rintro ⟨inside, here⟩
    refine List.mem_flatMap.mpr ⟨i, List.mem_range.mpr inside, List.mem_map.mpr ⟨x, ?_, rfl⟩⟩
    rwa [pass, List.drop_left]

theorem mem_tradesBy_iff (row : TradeLog) :
    (i, row) ∈ tradesBy bars n ↔ i < n ∧ exitRow bars i = some row := by
  unfold tradesBy
  rw [mem_stamped_iff (pass_trades bars i), Option.mem_toList]

theorem mem_intentsBy_iff (row : IntentLog) :
    (i, row) ∈ intentsBy bars n ↔ i < n ∧ LogsIntent bars i ∧ row = passIntent bars i := by
  unfold intentsBy
  rw [mem_stamped_iff (pass_intents bars i)]
  by_cases logs : LogsIntent bars i
  · rw [if_pos logs, List.mem_singleton]
    tauto
  · rw [if_neg logs]
    simp [logs]

theorem mem_auditBy_breakout_iff (timestamp : String) (level : ℚ) :
    (i, .breakout timestamp level) ∈ auditBy bars n ↔
      i < n ∧ FindsBreakout bars i ∧ timestamp = (barAt bars i).timestamp ∧
        level = prevHigh bars i := by
  obtain ⟨before, after, audit, others⟩ := pass_audit bars i
  have noBefore : AuditEvent.breakout timestamp level ∉ before := fun member =>
    others timestamp level (List.mem_append_left _ member)
  have noAfter : AuditEvent.breakout timestamp level ∉ after := fun member =>
    others timestamp level (List.mem_append_right _ member)
  unfold auditBy
  rw [mem_stamped_iff audit]
  by_cases finds : FindsBreakout bars i
  · rw [if_pos finds]
    simp [noBefore, noAfter, finds]
  · rw [if_neg finds]
    simp [noBefore, noAfter, finds]

end Logs

end PrismPipeline.Backtest
