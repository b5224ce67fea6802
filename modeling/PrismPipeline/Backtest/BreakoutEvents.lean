import PrismPipeline.Backtest.EntryDiscipline
import PrismPipeline.Backtest.MaxDrawdown
import PrismPipeline.Backtest.Passes
import PrismPipeline.Series.Window

/-!
# Breakout events

A breakout is found on every bar that closes above the highs of the twenty bars before
it while no trade is open.  On bars whose close lies under their high the test on the
previous close is implied, so the event fires again on each such bar; and the loop
always remembers the latest one.
-/

namespace PrismPipeline.Backtest

open PrismPipeline.Machine PrismPipeline.Series

/-! ## The events of a run -/

section Run

variable (bars : List Bar)

/-- The bars of the `BREAKOUT` events among the first `n`. -/
def foundBars (n : ℕ) : List ℕ := (List.range n).filter fun i => FindsBreakout bars i

/-- The latest of them. -/
def lastBreakout (n : ℕ) : Option ℕ := (foundBars bars n).getLast?

theorem foundBars_succ (n : ℕ) :
    foundBars bars (n + 1) = foundBars bars n ++ if FindsBreakout bars n then [n] else [] := by
  unfold foundBars
  rw [List.range_succ, List.filter_append, List.filter_singleton]
  by_cases found : FindsBreakout bars n
  · rw [decide_eq_true found, if_pos found]
    rfl
  · rw [decide_eq_false found, if_neg found]
    rfl

theorem lastBreakout_succ (n : ℕ) :
    lastBreakout bars (n + 1) = if FindsBreakout bars n then some n else lastBreakout bars n := by
  unfold lastBreakout
  rw [foundBars_succ]
  by_cases found : FindsBreakout bars n
  · rw [if_pos found, if_pos found, List.getLast?_concat]
  · rw [if_neg found, if_neg found, List.append_nil]

/-- The bar of an audit event that is a breakout. -/
def breakoutBar? (event : ℕ × AuditEvent) : Option ℕ :=
  match event.2 with
  | .breakout _ _ => some event.1
  | _ => none

theorem breakoutBars_others {i : ℕ} {events : List AuditEvent}
    (others : ∀ timestamp level, AuditEvent.breakout timestamp level ∉ events) :
    (events.map fun event => (i, event)).filterMap breakoutBar? = [] := by
  rw [List.filterMap_eq_nil_iff]
  intro entry member
  obtain ⟨event, inEvents, rfl⟩ := List.mem_map.mp member
  cases event with
  | breakout timestamp level => exact absurd inEvents (others timestamp level)
  | tradeExit | entryExpired | tradeAccepted | tradeRejected => rfl

/-- The audit log shows exactly the breakouts that were found. -/
theorem auditBy_breakoutBars (n : ℕ) :
    (auditBy bars n).filterMap breakoutBar? = foundBars bars n := by
  induction n with
  | zero => rfl
  | succ n ih =>
      obtain ⟨before, after, audit, others⟩ := pass_audit bars n
      have noneBefore : (before.map fun event => (n, event)).filterMap breakoutBar? = [] :=
        breakoutBars_others fun timestamp level member =>
          others timestamp level (List.mem_append_left _ member)
      have noneAfter : (after.map fun event => (n, event)).filterMap breakoutBar? = [] :=
        breakoutBars_others fun timestamp level member =>
          others timestamp level (List.mem_append_right _ member)
      have split : auditBy bars (n + 1) = auditBy bars n ++
          (before ++ (if FindsBreakout bars n then
            [AuditEvent.breakout (barAt bars n).timestamp (prevHigh bars n)] else []) ++
            after).map fun event => (n, event) := by
        unfold auditBy
        rw [stamped_succ, audit, List.drop_left]
      rw [split, List.filterMap_append, ih, foundBars_succ, List.map_append, List.map_append,
        List.filterMap_append, List.filterMap_append, noneBefore, noneAfter, List.append_nil,
        List.nil_append]
      by_cases found : FindsBreakout bars n
      · rw [if_pos found, if_pos found]
        rfl
      · rw [if_neg found, if_neg found]
        rfl

theorem breakoutBars_eq : breakoutBars bars = foundBars bars bars.length :=
  auditBy_breakoutBars bars bars.length

/-- Up to a bar of the run the latest mark is the latest breakout found. -/
theorem latestMark_breakoutBars {i : ℕ} (inside : i < bars.length) :
    latestMark (breakoutBars bars) i = lastBreakout bars (i + 1) := by
  have upTo : ∀ n, i < n → (foundBars bars n).filter (· ≤ i) = foundBars bars (i + 1) := by
    intro n reached
    induction reached with
    | refl =>
        rw [List.filter_eq_self]
        intro j member
        have before := List.mem_range.mp (List.mem_filter.mp member).1
        exact decide_eq_true (Nat.le_of_lt_succ before)
    | @step n later ih =>
        have past : ¬ n ≤ i := by
          have : i + 1 ≤ n := later
          omega
        rw [foundBars_succ, List.filter_append, ih]
        by_cases found : FindsBreakout bars n
        · rw [if_pos found, List.filter_singleton, decide_eq_false past]
          exact List.append_nil _
        · rw [if_neg found]
          exact List.append_nil _
  rw [breakoutBars_eq]
  unfold latestMark lastBreakout
  rw [upTo bars.length inside]

/-! ## What the loop remembers -/

/-- Level and bar of the latest breakout; `0` for both before the first one. -/
def breakoutMemory (n : ℕ) : ℚ × ℕ :=
  match lastBreakout bars n with
  | some b => (prevHigh bars b, b)
  | none => (0, 0)

theorem breakoutMemory_succ (n : ℕ) :
    breakoutMemory bars (n + 1) =
      if FindsBreakout bars n then (prevHigh bars n, n) else breakoutMemory bars n := by
  unfold breakoutMemory
  rw [lastBreakout_succ]
  by_cases found : FindsBreakout bars n
  · rw [if_pos found, if_pos found]
  · rw [if_neg found, if_neg found]

theorem stateAfter_breakout (n : ℕ) :
    ((stateAfter bars n).breakout, (stateAfter bars n).breakoutI) = breakoutMemory bars n := by
  induction n with
  | zero => rfl
  | succ n ih => rw [pass_breakout, ih, breakoutMemory_succ]

theorem gateState_breakout {i : ℕ} (runs : GateRuns bars i) :
    ((gateState bars i).breakout, (gateState bars i).breakoutI) = breakoutMemory bars (i + 1) := by
  rw [gate_breakout bars i runs, stateAfter_breakout, breakoutMemory_succ]

/-- A gate with something pending looks at the latest breakout. -/
theorem gateState_latest {i : ℕ} (runs : GateRuns bars i)
    (pending : (gateState bars i).priorBreakout = true ∨ (gateState bars i).canReentry = true) :
    lastBreakout bars (i + 1) = some (gateState bars i).breakoutI ∧
      (gateState bars i).breakout = prevHigh bars (gateState bars i).breakoutI := by
  have flat : (gateState bars i).tradeOpen = false :=
    (gateState_frame bars i).2.2.trans runs.2
  have old : 20 ≤ (gateState bars i).breakoutI := by
    apply (gateState_gate runs.1 flat).pending
    rcases pending with armed | rearmed
    · exact Or.inl armed
    · exact Or.inr (Or.inr rearmed)
  have memory := gateState_breakout bars runs
  unfold breakoutMemory at memory
  cases last : lastBreakout bars (i + 1) with
  | none =>
      rw [last] at memory
      rw [(Prod.mk.inj memory).2] at old
      exact absurd old (by decide)
  | some b =>
      rw [last] at memory
      obtain ⟨level, index⟩ := Prod.mk.inj memory
      rw [index]
      exact ⟨rfl, level⟩

/-- An intent tests the level of the latest breakout. -/
theorem LogsIntent.latest {bars : List Bar} {i : ℕ} (logs : LogsIntent bars i) :
    lastBreakout bars (i + 1) = some (gateState bars i).breakoutI ∧
      (gateState bars i).breakout = prevHigh bars (gateState bars i).breakoutI := by
  obtain ⟨runs, window, _⟩ := logs
  apply gateState_latest bars runs
  rcases window with armed | ⟨rearmed, _⟩
  · exact Or.inl armed
  · exact Or.inr rearmed

theorem mem_foundBars {n i : ℕ} : i ∈ foundBars bars n ↔ i < n ∧ FindsBreakout bars i := by
  unfold foundBars
  rw [List.mem_filter, List.mem_range, decide_eq_true_iff]

/-- The latest breakout before the end of a pass was found on one of its bars. -/
theorem found_of_lastBreakout {n b : ℕ} (last : lastBreakout bars n = some b) :
    b < n ∧ FindsBreakout bars b :=
  (mem_foundBars bars).mp (List.mem_of_getLast? last)

end Run

/-! ## The detection test -/

/-- Highs of the twenty bars before bar `i`. -/
def windowHighs (bars : List Bar) (i : ℕ) : Set ℚ :=
  {x | ∃ j, i - 20 ≤ j ∧ j < i ∧ x = (barAt bars j).high}

/-- The close lies between a nonnegative low and the high. -/
structure ClosesUnderHigh (b : Bar) : Prop where
  low_nonneg : 0 ≤ b.low
  low_le_close : b.low ≤ b.close
  close_le_high : b.close ≤ b.high

instance (b : Bar) : Decidable (ClosesUnderHigh b) :=
  decidable_of_iff (0 ≤ b.low ∧ b.low ≤ b.close ∧ b.close ≤ b.high)
    ⟨fun ⟨a, b, c⟩ => ⟨a, b, c⟩, fun ⟨a, b, c⟩ => ⟨a, b, c⟩⟩

section Detection

variable {bars : List Bar} (under : ∀ b ∈ bars, ClosesUnderHigh b)
include under

/-- The seed of the running maximum never shows: no high is negative. -/
theorem prevHigh_isGreatest {i : ℕ} (inside : i < bars.length) (warm : 20 ≤ i) :
    IsGreatest (windowHighs bars i) (prevHigh bars i) := by
  have greatest := isGreatest_foldl_max (fun j => (barAt bars j).high) 0
    (List.range' (i - lookback) lookback)
  have value : prevHigh bars i = (List.range' (i - lookback) lookback).foldl
      (fun high j => max high (barAt bars j).high) 0 := if_pos warm
  have inWindow : ∀ j, j ∈ List.range' (i - lookback) lookback ↔ i - 20 ≤ j ∧ j < i := by
    intro j
    rw [List.mem_range'_1]
    simp only [lookback]
    omega
  rw [← value] at greatest
  constructor
  · rcases greatest.1 with seed | ⟨j, member, high⟩
    · -- A maximum of zero is the high of every bar of the window.
      have last : i - 1 ∈ List.range' (i - lookback) lookback := (inWindow _).mpr (by omega)
      have bound : (barAt bars (i - 1)).high ≤ prevHigh bars i :=
        greatest.2 (Or.inr ⟨i - 1, last, rfl⟩)
      have bar := under _ (barAt_mem (i := i - 1) (by omega))
      have nonneg : 0 ≤ (barAt bars (i - 1)).high :=
        bar.low_nonneg.trans (bar.low_le_close.trans bar.close_le_high)
      refine ⟨i - 1, by omega, by omega, ?_⟩
      rw [seed] at bound ⊢
      exact le_antisymm nonneg bound
    · obtain ⟨low, before⟩ := (inWindow j).mp member
      exact ⟨j, low, before, high⟩
  · rintro x ⟨j, low, before, rfl⟩
    exact greatest.2 (Or.inr ⟨j, (inWindow j).mpr ⟨low, before⟩, rfl⟩)

/-- The test on the previous close changes nothing. -/
theorem newBreakout_iff_above {i : ℕ} (inside : i < bars.length) (warm : 20 ≤ i) :
    newBreakout bars i ↔ prevHigh bars i < (barAt bars i).close := by
  have greatest := prevHigh_isGreatest under inside warm
  have bar := under _ (barAt_mem (i := i - 1) (by omega))
  have previous : (barAt bars (i - 1)).high ≤ prevHigh bars i :=
    greatest.2 ⟨i - 1, by omega, by omega, rfl⟩
  exact ⟨fun found => found.2, fun above => ⟨bar.close_le_high.trans previous, above⟩⟩

/-- When a breakout is found, in terms of the bars and of the trade. -/
theorem findsBreakout_iff {i : ℕ} (inside : i < bars.length) :
    FindsBreakout bars i ↔ 20 ≤ i ∧ (afterExit bars i).tradeOpen = false ∧
      prevHigh bars i < (barAt bars i).close := by
  constructor
  · rintro ⟨⟨warm, flat⟩, found⟩
    exact ⟨warm, flat, found.2⟩
  · rintro ⟨warm, flat, above⟩
    exact ⟨⟨warm, flat⟩, (newBreakout_iff_above under inside warm).mpr above⟩

end Detection

/-- On bars whose close lies between a nonnegative low and the high, a `BREAKOUT` event
is emitted on a bar exactly when twenty bars lie before it, no trade is open after its
exits and it closes above their greatest high, which is the level recorded; each bar
emits at most one; the test on the previous close filters nothing; and the event fires
again on every bar of a stretch that keeps closing above its own window. -/
theorem breakout_detection (bars : List Bar) (under : ∀ b ∈ bars, ClosesUnderHigh b) :
    (∀ i timestamp level, (i, .breakout timestamp level) ∈ auditBy bars bars.length ↔
      i < bars.length ∧ 20 ≤ i ∧ (afterExit bars i).tradeOpen = false ∧
        timestamp = (barAt bars i).timestamp ∧ IsGreatest (windowHighs bars i) level ∧
        level < (barAt bars i).close) ∧
    (breakoutBars bars).Pairwise (· < ·) ∧
    (∀ i < bars.length, 20 ≤ i →
      (newBreakout bars i ↔ prevHigh bars i < (barAt bars i).close)) ∧
    ∀ first last, last < bars.length →
      (∀ i, first ≤ i → i ≤ last → 20 ≤ i ∧ (afterExit bars i).tradeOpen = false ∧
        ∀ x ∈ windowHighs bars i, x < (barAt bars i).close) →
      ∀ i, first ≤ i → i ≤ last → i ∈ breakoutBars bars := by
  refine ⟨fun i timestamp level => ?_, ?_, fun i inside warm => ?_, ?_⟩
  · rw [mem_auditBy_breakout_iff]
    constructor
    · rintro ⟨inside, found, time, rfl⟩
      obtain ⟨warm, flat, above⟩ := (findsBreakout_iff under inside).mp found
      exact ⟨inside, warm, flat, time, prevHigh_isGreatest under inside warm, above⟩
    · rintro ⟨inside, warm, flat, time, greatest, above⟩
      obtain rfl := greatest.unique (prevHigh_isGreatest under inside warm)
      exact ⟨inside, (findsBreakout_iff under inside).mpr ⟨warm, flat, above⟩, time, rfl⟩
  · rw [breakoutBars_eq]
    exact List.Pairwise.filter _ List.pairwise_lt_range
  · exact newBreakout_iff_above under inside warm
  · intro first last within stretch i after before
    obtain ⟨warm, flat, above⟩ := stretch i after before
    have inside : i < bars.length := before.trans_lt within
    have greatest := prevHigh_isGreatest under inside warm
    rw [breakoutBars_eq, mem_foundBars]
    exact ⟨inside, (findsBreakout_iff under inside).mpr ⟨warm, flat, above _ greatest.1⟩⟩

/-- The bars of `losingBars` satisfy the hypothesis, and bar 20 is their one breakout. -/
theorem losingBars_detection :
    (20, .breakout "" 100) ∈ auditBy losingBars losingBars.length ∧
      IsGreatest (windowHighs losingBars 20) 100 := by
  have logged : (20, .breakout "" 100) ∈ auditBy losingBars losingBars.length := by
    decide +kernel
  have detected := (breakout_detection losingBars (by decide +kernel)).1 20 "" 100
  obtain ⟨_, _, _, _, greatest, _⟩ := detected.mp logged
  exact ⟨logged, greatest⟩

end PrismPipeline.Backtest
