import Mathlib.Tactic.Linarith
import Mathlib.Tactic.NormNum
import PrismPipeline.Backtest.Score

/-!
# Bounds and order of the setup score

Each component of the score is clamped or picked from a few values, and each grows with the
parts of the bar it looks at.  The setup score is a weighted mean of them, and the tier is
read off the score.
-/

namespace PrismPipeline.Backtest

/-! ## The pieces of a component -/

/-- A jump that is made more easily is at least as high. -/
theorem jump_mono {p q : Prop} [Decidable p] [Decidable q] (easier : p → q) {low high : ℚ}
    (up : low ≤ high) : (if p then high else low) ≤ if q then high else low := by
  by_cases jumps : p
  · rw [if_pos jumps, if_pos (easier jumps)]
  · rw [if_neg jumps]
    by_cases other : q
    · rw [if_pos other]
      exact up
    · rw [if_neg other]

theorem clamp10_mono {x y : ℚ} (le : x ≤ y) : clamp10 x ≤ clamp10 y :=
  max_le_max_left 0 (min_le_min_left 10 le)

theorem clamp10_mem (x : ℚ) : clamp10 x ∈ Set.Icc 0 10 :=
  ⟨le_max_left 0 _, max_le (by norm_num) (min_le_left 10 x)⟩

def Tier.rank : Tier → ℕ
  | .ignore => 0
  | .minimum => 1
  | .strong => 2
  | .premium => 3

theorem tier_mono {x y : ℚ} (le : x ≤ y) : (tier x).rank ≤ (tier y).rank := by
  unfold tier
  by_cases ignored : x < 5.5
  · rw [if_pos ignored]
    exact Nat.zero_le _
  rw [if_neg ignored, if_neg fun below => ignored (lt_of_le_of_lt le below)]
  by_cases minimal : x < 6.5
  · rw [if_pos minimal]
    split_ifs
    · exact le_rfl
    · decide
    · decide
  rw [if_neg minimal, if_neg fun below => minimal (lt_of_le_of_lt le below)]
  by_cases strong : y ≤ 7.5
  · rw [if_pos strong, if_pos (le.trans strong)]
  · rw [if_neg strong]
    split_ifs
    · decide
    · exact le_rfl

/-! ## Bounds -/

section Bounds

variable (bars : List Bar) (i : ℕ) (level : ℚ)

/-- The components of a score. -/
def ScoreRow.components (row : ScoreRow) : List ℚ :=
  [row.structureScore, row.positioning, row.regime, row.microstructure, row.interaction]

theorem regime_mem : (scoreBar bars i level).regime ∈ Set.Icc 0 10 := by
  change (if _ then _ else if _ then _ else _) ∈ _
  split_ifs
  · exact ⟨by norm_num, by norm_num⟩
  · exact ⟨le_rfl, by norm_num⟩
  · exact ⟨by norm_num, by norm_num⟩

theorem component_mem : ∀ score ∈ (scoreBar bars i level).components, score ∈ Set.Icc 0 10 := by
  unfold ScoreRow.components
  simp only [List.forall_mem_cons]
  refine ⟨clamp10_mem _, clamp10_mem _, regime_mem bars i level, clamp10_mem _, clamp10_mem _, ?_⟩
  intro score member
  cases member

theorem setupScore_eq :
    (scoreBar bars i level).setupScore =
      (scoreBar bars i level).structureScore * 0.25 + (scoreBar bars i level).positioning * 0.25 +
        (scoreBar bars i level).regime * 0.15 + (scoreBar bars i level).microstructure * 0.15 +
        (scoreBar bars i level).interaction * 0.20 := rfl

/-- The weights add up to one. -/
theorem setupScore_mem : (scoreBar bars i level).setupScore ∈ Set.Icc 0 10 := by
  have components := component_mem bars i level
  unfold ScoreRow.components at components
  simp only [List.forall_mem_cons] at components
  obtain ⟨⟨a, a'⟩, ⟨b, b'⟩, ⟨c, c'⟩, ⟨d, d'⟩, ⟨e, e'⟩, -⟩ := components
  rw [setupScore_eq]
  constructor
  · linarith
  · linarith

end Bounds

/-! ## A better bar -/

/-- The same bar with a higher close, volume or liquidity or a smaller spread. -/
structure Bar.Improves (better b : Bar) : Prop where
  close : b.close ≤ better.close
  volume : b.volume ≤ better.volume
  liquidity : b.liquidityScore ≤ better.liquidityScore
  spread : better.spreadPct ≤ b.spreadPct
  rest : better =
    { b with
      close := better.close
      volume := better.volume
      liquidityScore := better.liquidityScore
      spreadPct := better.spreadPct }

theorem barAt_set {bars : List Bar} {i : ℕ} (inside : i < bars.length) (bar : Bar) :
    barAt (bars.set i bar) i = bar := by
  simp [barAt, List.getD_eq_getElem?_getD, inside]

/-- The mean of the bars before a bar does not see the bar. -/
theorem avgVolume_set (bars : List Bar) (i : ℕ) (bar : Bar) (n : ℕ) :
    avgVolume (bars.set i bar) i n = avgVolume bars i n := by
  have same (start : ℕ) :
      (List.range' start (i - start)).map (fun j => (barAt (bars.set i bar) j).volume) =
        (List.range' start (i - start)).map (fun j => (barAt bars j).volume) := by
    apply List.map_congr_left
    intro j member
    have before : i ≠ j := by
      have := List.mem_range'_1.mp member
      omega
    rw [barAt, barAt, List.getD_eq_getElem?_getD, List.getD_eq_getElem?_getD,
      List.getElem?_set_ne before]
  simp only [avgVolume, same]

section Better

variable {bars : List Bar} {i : ℕ} {better : Bar} {level : ℚ}

theorem volRatio_mono (inside : i < bars.length) (improves : better.Improves (barAt bars i)) :
    volRatio bars i ≤ volRatio (bars.set i better) i := by
  unfold volRatio
  rw [avgVolume_set, barAt_set inside]
  by_cases traded : 0 < avgVolume bars i 20
  · rw [if_pos traded, if_pos traded]
    exact div_le_div_of_nonneg_right improves.volume traded.le
  · rw [if_neg traded, if_neg traded]

/-- The position may leave `[0, 1]`, but it grows with the close. -/
theorem closePos_mono {b : Bar} (improves : better.Improves b) : closePos b ≤ closePos better := by
  have high : better.high = b.high := (congrArg Bar.high improves.rest :)
  have low : better.low = b.low := (congrArg Bar.low improves.rest :)
  unfold closePos
  rw [high, low]
  by_cases wide : b.low < b.high
  · rw [if_pos wide, if_pos wide]
    exact div_le_div_of_nonneg_right (sub_le_sub_right improves.close _) (sub_pos.mpr wide).le
  · rw [if_neg wide, if_neg wide]

variable (inside : i < bars.length) (improves : better.Improves (barAt bars i))

include inside improves

theorem structureScore_mono :
    (scoreBar bars i level).structureScore ≤
      (scoreBar (bars.set i better) i level).structureScore := by
  have vwap : better.vwap = (barAt bars i).vwap := (congrArg Bar.vwap improves.rest :)
  have state : better.mseState = (barAt bars i).mseState := (congrArg Bar.mseState improves.rest :)
  unfold scoreBar
  dsimp only
  rw [barAt_set inside, vwap, state]
  apply clamp10_mono
  apply add_le_add_left
  apply add_le_add
  · apply jump_mono _ (by norm_num)
    intro above
    exact above.trans_le improves.close
  · apply jump_mono _ (by norm_num)
    intro above
    exact above.trans_le improves.close

theorem positioning_mono :
    (scoreBar bars i level).positioning ≤ (scoreBar (bars.set i better) i level).positioning := by
  unfold scoreBar
  dsimp only
  rw [barAt_set inside]
  apply clamp10_mono
  exact mul_le_mul_of_nonneg_right (closePos_mono improves) (by norm_num)

theorem regime_kept :
    (scoreBar (bars.set i better) i level).regime = (scoreBar bars i level).regime := by
  have regime : better.regime = (barAt bars i).regime := (congrArg Bar.regime improves.rest :)
  unfold scoreBar
  dsimp only
  rw [barAt_set inside, regime]

theorem microstructure_mono :
    (scoreBar bars i level).microstructure ≤
      (scoreBar (bars.set i better) i level).microstructure := by
  have state : better.microstructureState = (barAt bars i).microstructureState :=
    (congrArg Bar.microstructureState improves.rest :)
  unfold scoreBar
  dsimp only
  rw [barAt_set inside, state]
  apply clamp10_mono
  apply add_le_add_left
  apply add_le_add
  · exact mul_le_mul_of_nonneg_right improves.liquidity (by norm_num)
  · apply jump_mono _ (by norm_num)
    intro narrow
    exact improves.spread.trans narrow

theorem interaction_mono :
    (scoreBar bars i level).interaction ≤ (scoreBar (bars.set i better) i level).interaction := by
  have alignment : better.ipseAlignment = (barAt bars i).ipseAlignment :=
    (congrArg Bar.ipseAlignment improves.rest :)
  have state : better.mpsState = (barAt bars i).mpsState := (congrArg Bar.mpsState improves.rest :)
  unfold scoreBar
  dsimp only
  rw [barAt_set inside, alignment, state]
  apply clamp10_mono
  apply add_le_add_left
  apply add_le_add_left
  apply jump_mono _ (by norm_num)
  intro busy
  exact busy.trans (volRatio_mono inside improves)

theorem setupScore_mono :
    (scoreBar bars i level).setupScore ≤ (scoreBar (bars.set i better) i level).setupScore := by
  have a : (scoreBar bars i level).structureScore ≤ _ := structureScore_mono inside improves
  have b : (scoreBar bars i level).positioning ≤ _ := positioning_mono inside improves
  have c : (scoreBar _ i level).regime = _ := regime_kept inside improves
  have d : (scoreBar bars i level).microstructure ≤ _ := microstructure_mono inside improves
  have e : (scoreBar bars i level).interaction ≤ _ := interaction_mono inside improves
  rw [setupScore_eq, setupScore_eq, c]
  linarith

end Better

/-- All scores lie between 0 and 10, and a better bar scores no less and is in no lower
tier. -/
theorem scoreBar_bounded_monotone (bars : List Bar) (i : ℕ) (level : ℚ) :
    (∀ score ∈ (scoreBar bars i level).components, 0 ≤ score ∧ score ≤ 10) ∧
    (0 ≤ (scoreBar bars i level).setupScore ∧ (scoreBar bars i level).setupScore ≤ 10) ∧
    ∀ better : Bar, i < bars.length → better.Improves (barAt bars i) →
      (scoreBar bars i level).setupScore ≤ (scoreBar (bars.set i better) i level).setupScore ∧
      (scoreBar bars i level).tier.rank ≤ (scoreBar (bars.set i better) i level).tier.rank := by
  refine ⟨component_mem bars i level, setupScore_mem bars i level, ?_⟩
  intro better inside improves
  have raised : (scoreBar bars i level).setupScore ≤ _ := setupScore_mono inside improves
  exact ⟨raised, tier_mono raised⟩

/-- A closing price of 100 raised to 103 on a bar from 99 to 104. -/
theorem raisedClose_improves :
    ({ high := 104, low := 99, close := 103 } : Bar).Improves
      (barAt [{ high := 104, low := 99, close := 100 }] 0) := by
  refine ⟨?_, le_rfl, le_rfl, le_rfl, rfl⟩
  change (100 : ℚ) ≤ 103
  norm_num

theorem raisedClose_score :
    (scoreBar [{ high := 104, low := 99, close := 100 }] 0 101).setupScore ≤
      (scoreBar [{ high := 104, low := 99, close := 103 }] 0 101).setupScore :=
  ((scoreBar_bounded_monotone [{ high := 104, low := 99, close := 100 }] 0 101).2.2
    { high := 104, low := 99, close := 103 } (by decide) raisedClose_improves).1

end PrismPipeline.Backtest
