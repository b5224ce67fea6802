import PrismPipeline.Backtest.BreakoutEvents

/-!
# Retests and their breakouts

The entry gate looks for a breakout and then for a retest on the same bar.  A retest of
an earlier breakout comes later, as documented; but a bar that closes above the level
and still reaches down into its zone is taken as the retest of its own breakout.
-/

namespace PrismPipeline.Backtest

open PrismPipeline.Series

/-- Every first retest comes on a later bar than the breakout whose level it tests. -/
def RetestsLater (bars : List Bar) : Prop :=
  ∀ i row, (i, row) ∈ intentsBy bars bars.length → row.entryType = .retestEntry →
    ∃ b timestamp, latestMark (breakoutBars bars) i = some b ∧
      (b, .breakout timestamp row.breakoutLevel) ∈ auditBy bars bars.length ∧ b < i

/-- Bar `i` breaks a level out and reaches its retest zone. -/
def RetestsOwnBreakout (bars : List Bar) (i : ℕ) : Prop :=
  FindsBreakout bars i ∧ isRetest (barAt bars i) (prevHigh bars i)

instance (bars : List Bar) (i : ℕ) : Decidable (RetestsOwnBreakout bars i) :=
  inferInstanceAs (Decidable (_ ∧ _))

section Pass

variable {bars : List Bar} {i : ℕ}

/-- Such a bar logs the retest of its own breakout. -/
theorem RetestsOwnBreakout.logsIntent (own : RetestsOwnBreakout bars i) :
    LogsIntent bars i ∧ (passIntent bars i).entryType = .retestEntry := by
  obtain ⟨⟨runs, found⟩, retest⟩ := own
  have gate := gateState_found bars i found
  have label : (passIntent bars i).entryType =
    if (gateState bars i).canReentry then .reEntry else .retestEntry := rfl
  refine ⟨⟨runs, ?_, ?_⟩, ?_⟩
  · rw [gate]
    exact Or.inl rfl
  · rw [gate]
    exact retest
  · rw [label, gate]
    rfl

theorem RetestsOwnBreakout.breaks (own : RetestsOwnBreakout bars i) (inside : i < bars.length) :
    ¬ RetestsLater bars := by
  intro later
  obtain ⟨logs, label⟩ := own.logsIntent
  have logged := (mem_intentsBy_iff (passIntent bars i)).mpr ⟨inside, logs, rfl⟩
  obtain ⟨b, _, latest, _, before⟩ := later i _ logged label
  rw [latestMark_breakoutBars bars inside, lastBreakout_succ, if_pos own.1] at latest
  exact absurd (Option.some.inj latest) before.ne'

end Pass

/-- Retests come later than their breakouts exactly in the runs in which no bar retests
its own breakout. -/
theorem retestsLater_iff (bars : List Bar) :
    RetestsLater bars ↔ ∀ i < bars.length, ¬ RetestsOwnBreakout bars i := by
  constructor
  · intro later i inside own
    exact own.breaks inside later
  · intro noneOwn i row logged _
    obtain ⟨inside, logs, rfl⟩ := (mem_intentsBy_iff row).mp logged
    obtain ⟨latest, level⟩ := logs.latest
    obtain ⟨before, found⟩ := found_of_lastBreakout bars latest
    have level_eq : (passIntent bars i).breakoutLevel = (gateState bars i).breakout := rfl
    refine ⟨(gateState bars i).breakoutI, (barAt bars (gateState bars i).breakoutI).timestamp,
      ?_, ?_, ?_⟩
    · rw [latestMark_breakoutBars bars inside]
      exact latest
    · rw [mem_auditBy_breakout_iff, level_eq]
      exact ⟨by omega, found, rfl, level⟩
    · rcases Nat.lt_succ_iff_lt_or_eq.mp before with earlier | same
      · exact earlier
      · refine absurd ⟨same ▸ found, ?_⟩ (noneOwn i inside)
        have retest := logs.2.2
        rwa [level, same] at retest

/-- On `losingBars` the retest is taken on the breakout bar itself. -/
theorem losingBars_retest : ¬ RetestsLater losingBars :=
  RetestsOwnBreakout.breaks (i := 20) (by decide +kernel) (by decide)

end PrismPipeline.Backtest
