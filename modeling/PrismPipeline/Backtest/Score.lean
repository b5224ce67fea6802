import Mathlib.Data.List.Basic
import PrismPipeline.Backtest.Data

/-!
# Setup score of a bar

`tier`, `clamp10`, `avg_volume` and `score_bar` of the backtest, together with
the running maximum of the twenty bars before a bar.  All of them index into the
whole list of bars; the lemmas below say which part of it they read.
-/

namespace PrismPipeline.Backtest

def tier (s : ℚ) : Tier :=
  if s < 5.5 then .ignore else if s < 6.5 then .minimum
  else if s ≤ 7.5 then .strong else .premium

def clamp10 (x : ℚ) : ℚ := max 0 (min 10 x)

/-- Mean volume of the at most `n` bars before index `stop`. -/
def avgVolume (bars : List Bar) (stop n : ℕ) : ℚ :=
  if stop = 0 then 0
  else
    let start := if n < stop then stop - n else 0
    let volumes := (List.range' start (stop - start)).map fun i => (barAt bars i).volume
    if volumes.length = 0 then 0 else volumes.sum / volumes.length

/-- Position of the close inside the bar, `0` for a bar without range. -/
def closePos (b : Bar) : ℚ :=
  if b.low < b.high then (b.close - b.low) / (b.high - b.low) else 0

/-- Volume of bar `i` against the mean of the twenty bars before it. -/
def volRatio (bars : List Bar) (i : ℕ) : ℚ :=
  if 0 < avgVolume bars i 20 then (barAt bars i).volume / avgVolume bars i 20 else 1

def scoreBar (bars : List Bar) (i : ℕ) (breakoutLevel : ℚ) : ScoreRow :=
  let b := barAt bars i
  let structureScore := clamp10 ((if breakoutLevel < b.close then 6 else 3) +
    (if b.vwap < b.close then 2 else 0) + (if b.mseState = "TREND_UP" then 2 else 0))
  let positioning := clamp10 (closePos b * 10)
  let regime := if b.regime = "EXPANSION" ∨ b.regime = "NORMAL" then 8
    else if b.regime = "SHOCK" then 0 else 5.5
  let microstructure := clamp10 (b.liquidityScore * 6 +
    (if b.spreadPct ≤ 0.50 then 2 else 0) +
    (if b.microstructureState = "HEALTHY" then 2 else 0))
  let interaction := clamp10 ((if 1.2 ≤ volRatio bars i then 4 else 2) +
    (if b.ipseAlignment = "ALIGNED" then 3 else 1) +
    (if b.mpsState ≠ "BLOCK" then 3 else 0))
  let setupScore := structureScore * 0.25 + positioning * 0.25 + regime * 0.15 +
    microstructure * 0.15 + interaction * 0.20
  { timestamp := b.timestamp, tier := tier setupScore, structureScore, positioning,
    regime, microstructure, interaction, setupScore }

/-- Number of bars before a bar that a breakout has to exceed. -/
def lookback : ℕ := 20

/-- Running maximum of the highs of the `lookback` bars before bar `i`, seeded
with `0`; it stays `0` while there are fewer. -/
def prevHigh (bars : List Bar) (i : ℕ) : ℚ :=
  if lookback ≤ i then
    (List.range' (i - lookback) lookback).foldl
      (fun high j => max high (barAt bars j).high) 0
  else 0

/-! ## What the windows read -/

theorem avgVolume_append {bars : List Bar} (later : List Bar) {stop : ℕ}
    (inside : stop ≤ bars.length) (n : ℕ) :
    avgVolume (bars ++ later) stop n = avgVolume bars stop n := by
  have same (start : ℕ) :
      (List.range' start (stop - start)).map (fun i => (barAt (bars ++ later) i).volume) =
        (List.range' start (stop - start)).map (fun i => (barAt bars i).volume) := by
    apply List.map_congr_left
    intro i member
    have below : i < bars.length := by
      have := List.mem_range'_1.mp member
      omega
    rw [barAt_append_left below]
  simp only [avgVolume, same]

theorem volRatio_append {bars : List Bar} (later : List Bar) {i : ℕ}
    (inside : i < bars.length) : volRatio (bars ++ later) i = volRatio bars i := by
  simp only [volRatio, avgVolume_append later inside.le, barAt_append_left inside]

theorem scoreBar_append {bars : List Bar} (later : List Bar) {i : ℕ}
    (inside : i < bars.length) (level : ℚ) :
    scoreBar (bars ++ later) i level = scoreBar bars i level := by
  simp only [scoreBar, volRatio_append later inside, barAt_append_left inside]

theorem prevHigh_append {bars : List Bar} (later : List Bar) {i : ℕ}
    (inside : i < bars.length) : prevHigh (bars ++ later) i = prevHigh bars i := by
  have same : ∀ high : ℚ, ∀ j ∈ List.range' (i - lookback) lookback, lookback ≤ i →
      max high (barAt (bars ++ later) j).high = max high (barAt bars j).high := by
    intro high j member reached
    have below : j < bars.length := by
      have := List.mem_range'_1.mp member
      omega
    rw [barAt_append_left below]
  unfold prevHigh
  split
  · next reached =>
      exact List.foldl_ext _ _ _ fun high j member => same high j member reached
  · rfl

end PrismPipeline.Backtest
