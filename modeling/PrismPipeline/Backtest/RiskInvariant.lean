import PrismPipeline.Backtest.Step

/-!
# Risk discipline at the end of every bar

An open trade of the backtest always carries a positive risk, ordered levels and
a bounded age, and it is only ever carried over a bar that the entry gate itself
would not have banned.  The invariant of the loop speaks about the levels, the
age and the two eligibility flags; what the bar satisfies is read off the pass
that ran on it.
-/

namespace PrismPipeline.Backtest

/-- The levels of a trade were all derived from one positive risk. -/
structure OrderedLevels (s : LoopState) : Prop where
  R_pos : 0 < s.R
  R_eq : s.R = s.entry - s.stop
  t1_eq : s.t1 = s.entry + 1.5 * s.R
  t2_eq : s.t2 = s.entry + 2.5 * s.R

namespace OrderedLevels

variable {s : LoopState} (levels : OrderedLevels s)
include levels

theorem stop_lt_entry : s.stop < s.entry := by
  have := levels.R_eq
  linarith [levels.R_pos]

theorem entry_lt_t1 : s.entry < s.t1 := by
  rw [levels.t1_eq]
  linarith [levels.R_pos]

theorem t1_lt_t2 : s.t1 < s.t2 := by
  rw [levels.t1_eq, levels.t2_eq]
  linarith [levels.R_pos]

end OrderedLevels

theorem setLevels_ordered {b : Bar} {s : LoopState} (risk : 0 < (setLevels b s).R) :
    OrderedLevels (setLevels b s) :=
  ⟨risk, rfl, rfl, rfl⟩

/-- The loop invariant after `n` bars. -/
structure RiskInvariant (n : ℕ) (s : LoopState) : Prop where
  levels : s.tradeOpen = true → OrderedLevels s
  entered : s.tradeOpen = true → s.entryI < n ∧ n ≤ s.entryI + 20
  flags : s.tradeOpen = true → s.priorBreakout = false ∧ s.canReentry = false
  exclusive : ¬ (s.priorBreakout = true ∧ s.canReentry = true)

/-- What the bar just processed satisfies under an open trade. -/
structure CarriesTrade (b : Bar) (s : LoopState) : Prop where
  close_ge : s.breakout ≤ b.close
  not_shock : b.regime ≠ "SHOCK"
  not_trendDown : b.mseState ≠ "TREND_DOWN"
  not_block : b.mpsState ≠ "BLOCK"

theorem riskInvariant_initial : RiskInvariant 0 {} := by
  constructor <;> simp

/-- The exit chain re-establishes the invariant for the next index; a trade that
stays open was tested on this bar. -/
theorem exitStep_risk (bars : List Bar) {i : ℕ} {s : LoopState}
    (inv : RiskInvariant i s) :
    RiskInvariant (i + 1) (exitStep bars i s) ∧
      ((exitStep bars i s).tradeOpen = true →
        CarriesTrade (barAt bars i) (exitStep bars i s)) := by
  rcases exitStep_cases bars i s with
    ⟨flat, same⟩ | ⟨isOpen, survives, same⟩ | ⟨reason, exitPrice, isOpen, _, same⟩
  · rw [same]
    refine ⟨⟨?_, ?_, ?_, inv.exclusive⟩, ?_⟩ <;> simp [flat]
  · rw [same]
    obtain ⟨below, recent⟩ := inv.entered isOpen
    have age : castInt (i - s.entryI) = ((i - s.entryI : ℕ) : ℤ) :=
      castInt_of_lt (by omega)
    have young := survives.young
    rw [age, tradeTtl] at young
    refine ⟨⟨inv.levels, fun _ => ⟨by omega, by omega⟩, inv.flags, inv.exclusive⟩, ?_⟩
    exact fun _ => ⟨survives.close_ge, survives.not_shock, survives.not_trendDown,
      survives.not_block⟩
  · rw [same]
    have prior := (inv.flags isOpen).1
    refine ⟨⟨?_, ?_, ?_, ?_⟩, ?_⟩ <;> simp [closeTrade, prior]

/-- Detection and expiry never arm both ways into a trade. -/
theorem gate_exclusive (bars : List Bar) (i : ℕ) {s : LoopState}
    (exclusive : ¬ (s.priorBreakout = true ∧ s.canReentry = true)) :
    ¬ ((expireBreakout bars i (detectBreakout bars i s)).priorBreakout = true ∧
      (expireBreakout bars i (detectBreakout bars i s)).canReentry = true) := by
  have detected : ¬ ((detectBreakout bars i s).priorBreakout = true ∧
      (detectBreakout bars i s).canReentry = true) := by
    unfold detectBreakout
    split
    · simp [LoopState.pushAudit]
    · exact exclusive
  unfold expireBreakout
  split
  · simp [LoopState.pushAudit]
  · exact detected

@[simp] theorem gate_tradeOpen (bars : List Bar) (i : ℕ) (s : LoopState) :
    (expireBreakout bars i (detectBreakout bars i s)).tradeOpen = s.tradeOpen := by
  unfold expireBreakout detectBreakout
  split <;> split <;> rfl

/-- The entry gate keeps the invariant, and a trade it opens is one its own
tests admit. -/
theorem entryStep_risk {bars : List Bar} {i : ℕ} {sc : ScoreRow} {s : LoopState}
    (inv : RiskInvariant (i + 1) s)
    (carries : s.tradeOpen = true → CarriesTrade (barAt bars i) s) :
    RiskInvariant (i + 1) (entryStep bars i sc s) ∧
      ((entryStep bars i sc s).tradeOpen = true →
        CarriesTrade (barAt bars i) (entryStep bars i sc s)) := by
  rcases entryStep_cases bars i sc s with ⟨_, same⟩ | ⟨gated, rfl, _, flat, decided⟩
  · rw [same]
    exact ⟨inv, carries⟩
  have exclusive := gate_exclusive bars i inv.exclusive
  have gateFlat : (expireBreakout bars i (detectBreakout bars i s)).tradeOpen = false := by
    rw [gate_tradeOpen, flat]
  generalize expireBreakout bars i (detectBreakout bars i s) = gated at *
  rcases decided with same | ⟨_, same⟩
  · rw [same]
    refine ⟨⟨?_, ?_, ?_, exclusive⟩, ?_⟩ <;> simp [gateFlat]
  · rw [same]
    rcases takeRetest_cases bars i sc gated with ⟨admits, taken⟩ | ⟨reasons, _, rejected⟩
    · rw [taken]
      have levels := setLevels_ordered admits.risk_pos
      refine ⟨⟨fun _ => ⟨levels.R_pos, levels.R_eq, levels.t1_eq, levels.t2_eq⟩, ?_, ?_, ?_⟩,
        fun _ => ⟨admits.breakout_lt.le, admits.not_shock, admits.not_trendDown,
          admits.not_block⟩⟩ <;>
        simp [acceptTrade, LoopState.pushAudit]
    · rw [rejected]
      have stays : (rejectTrade (barAt bars i) reasons (logIntent (barAt bars i) sc reasons
          (setLevels (barAt bars i) gated))).tradeOpen = false := gateFlat
      refine ⟨⟨?_, ?_, ?_, exclusive⟩, ?_⟩ <;> simp [stays]

theorem logScore_risk {n : ℕ} {sc : ScoreRow} {s : LoopState} (inv : RiskInvariant n s) :
    RiskInvariant n (logScore sc s) :=
  ⟨fun isOpen => ⟨(inv.levels isOpen).R_pos, (inv.levels isOpen).R_eq,
    (inv.levels isOpen).t1_eq, (inv.levels isOpen).t2_eq⟩,
    inv.entered, inv.flags, inv.exclusive⟩

/-- One pass of the loop body. -/
theorem barStep_risk (bars : List Bar) {i : ℕ} {s : LoopState}
    (inv : RiskInvariant i s) :
    RiskInvariant (i + 1) (barStep bars i s) ∧
      ((barStep bars i s).tradeOpen = true →
        CarriesTrade (barAt bars i) (barStep bars i s)) := by
  obtain ⟨afterExit, carries⟩ := exitStep_risk bars (logScore_risk inv)
  exact entryStep_risk afterExit carries

theorem stateAfter_risk (bars : List Bar) (n : ℕ) :
    RiskInvariant n (stateAfter bars n) :=
  PrismPipeline.Machine.forLoop_invariant RiskInvariant n riskInvariant_initial
    (fun _ _ _ inv => (barStep_risk bars inv).1) n le_rfl

/-- An open trade at the end of bar `i`, in the words of the run's variables. -/
structure OpenTradeAtBarEnd (b : Bar) (i : ℕ) (s : LoopState) : Prop where
  R_pos : 0 < s.R
  R_eq : s.R = s.entry - s.stop
  stop_lt_entry : s.stop < s.entry
  entry_lt_t1 : s.entry < s.t1
  t1_lt_t2 : s.t1 < s.t2
  t1_eq : s.t1 = s.entry + 1.5 * s.R
  t2_eq : s.t2 = s.entry + 2.5 * s.R
  close_ge_breakout : s.breakout ≤ b.close
  not_shock : b.regime ≠ "SHOCK"
  not_trendDown : b.mseState ≠ "TREND_DOWN"
  not_block : b.mpsState ≠ "BLOCK"
  entered : s.entryI ≤ i
  young : i - s.entryI < 20
  no_prior_breakout : s.priorBreakout = false
  no_reentry : s.canReentry = false

/-- The risk discipline of the backtest: after the body has run for bar `i`, an
open trade has positive risk and ordered levels, sits on a bar without any ban,
is younger than its time to live and has disarmed both ways into a trade; and
those two ways are never armed together. -/
theorem openTrade_at_bar_end (bars : List Bar) (i : Fin bars.length) :
    ((stateAfter bars (i + 1)).tradeOpen = true →
      OpenTradeAtBarEnd (bars.get i) i (stateAfter bars (i + 1))) ∧
    ¬ ((stateAfter bars (i + 1)).priorBreakout = true ∧
      (stateAfter bars (i + 1)).canReentry = true) := by
  have inv := stateAfter_risk bars (i + 1)
  refine ⟨fun isOpen => ?_, inv.exclusive⟩
  have levels := inv.levels isOpen
  have entered := inv.entered isOpen
  have flags := inv.flags isOpen
  have bar : barAt bars i = bars.get i := by
    simp [barAt]
  have carries : CarriesTrade (bars.get i) (stateAfter bars (i + 1)) :=
    bar ▸ (barStep_risk bars (stateAfter_risk bars i)).2 isOpen
  exact
    { R_pos := levels.R_pos
      R_eq := levels.R_eq
      stop_lt_entry := levels.stop_lt_entry
      entry_lt_t1 := levels.entry_lt_t1
      t1_lt_t2 := levels.t1_lt_t2
      t1_eq := levels.t1_eq
      t2_eq := levels.t2_eq
      close_ge_breakout := carries.close_ge
      not_shock := carries.not_shock
      not_trendDown := carries.not_trendDown
      not_block := carries.not_block
      entered := by omega
      young := by omega
      no_prior_breakout := flags.1
      no_reentry := flags.2 }

end PrismPipeline.Backtest
