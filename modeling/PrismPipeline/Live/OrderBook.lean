import Mathlib.Data.Rat.Floor
import PrismPipeline.Live.Engine
import PrismPipeline.Series.Floors

/-!
# Totals of the order book

`FastOrderBook` counts trades and adds up their volumes in 64 bit words.  A volume is cut to
its integer part before it is added, so the fractions of all trades are lost, each by itself.
-/

namespace PrismPipeline.Live

open PrismPipeline.Machine PrismPipeline.Series

structure FastOrderBook where
  lastPrice : ℚ := 0
  totalVolume : UInt64 := 0
  totalTrades : UInt64 := 0

namespace FastOrderBook

/-- `match`.  The conversion of a volume that fits a word drops its fraction. -/
def matchTrade (book : FastOrderBook) (trade : TradePacket) : FastOrderBook where
  lastPrice := trade.price
  totalVolume := book.totalVolume + UInt64.ofNat ⌊trade.volume⌋₊
  totalTrades := book.totalTrades + 1

def updates (book : FastOrderBook) : UInt64 := book.totalTrades

end FastOrderBook

/-- The book as a machine that shows its count of updates. -/
def bookMachine : Mealy FastOrderBook TradePacket UInt64 where
  step book trade := book.matchTrade trade
  output book trade := (book.matchTrade trade).updates

/-- A fresh book after a sequence of trades. -/
def bookAfter (trades : List TradePacket) : FastOrderBook := bookMachine.after {} trades

def volumes (trades : List TradePacket) : List ℚ := trades.map fun trade => trade.volume

/-! ## What the book holds -/

/-- The book shows these trades, as far as words go. -/
structure FastOrderBook.Shows (book : FastOrderBook) (trades : List TradePacket) : Prop where
  price : ∀ trade ∈ trades.getLast?, book.lastPrice = trade.price
  volume : book.totalVolume.toNat = floors (volumes trades) % 2 ^ 64
  count : book.totalTrades.toNat = trades.length % 2 ^ 64

theorem FastOrderBook.Shows.matchTrade {book : FastOrderBook} {trades : List TradePacket}
    (shows : book.Shows trades) (trade : TradePacket) :
    (book.matchTrade trade).Shows (trades ++ [trade]) where
  price last newest := by
    rw [List.getLast?_concat] at newest
    cases newest
    rfl
  volume := by
    change (book.totalVolume + UInt64.ofNat ⌊trade.volume⌋₊).toNat = _
    have parts : floors (volumes (trades ++ [trade])) =
        floors (volumes trades) + ⌊trade.volume⌋₊ := by
      rw [volumes, List.map_append, List.map_singleton, floors_snoc]
      rfl
    rw [UInt64.toNat_add, UInt64.toNat_ofNat', shows.volume, parts, ← Nat.add_mod]
  count := by
    change (book.totalTrades + 1).toNat = _
    rw [UInt64.toNat_add, shows.count, List.length_append, List.length_singleton]
    exact Nat.mod_add_mod _ _ _

theorem bookAfter_shows (trades : List TradePacket) : (bookAfter trades).Shows trades := by
  induction trades using List.reverseRecOn with
  | nil =>
      refine ⟨?_, rfl, rfl⟩
      intro trade newest
      cases newest
  | append_singleton trades trade ih =>
      rw [bookAfter, Mealy.after_snoc]
      exact ih.matchTrade trade

/-! ## The total volume -/

section Totals

variable {trades : List TradePacket}

theorem volumes_nonneg (nonneg : ∀ trade ∈ trades, 0 ≤ trade.volume) :
    ∀ amount ∈ volumes trades, 0 ≤ amount := by
  intro amount member
  obtain ⟨trade, inside, rfl⟩ := List.mem_map.mp member
  exact nonneg trade inside

/-- As long as the traded volume fits a word the total does not wrap. -/
theorem totalVolume_eq (nonneg : ∀ trade ∈ trades, 0 ≤ trade.volume)
    (fits : (volumes trades).sum < 2 ^ 64) :
    (bookAfter trades).totalVolume.toNat = floors (volumes trades) := by
  have below : ⌊(volumes trades).sum⌋₊ < 2 ^ 64 := by
    rw [Nat.floor_lt (List.sum_nonneg (volumes_nonneg nonneg))]
    exact_mod_cast fits
  have cut := floors_le_floor_sum (volumes_nonneg nonneg)
  rw [(bookAfter_shows trades).volume, Nat.mod_eq_of_lt (lt_of_le_of_lt cut below)]

/-- What is missing is the integer part of the fractions. -/
theorem totalVolume_missing (nonneg : ∀ trade ∈ trades, 0 ≤ trade.volume)
    (fits : (volumes trades).sum < 2 ^ 64) :
    (bookAfter trades).totalVolume.toNat + ⌊fractions (volumes trades)⌋₊ =
      ⌊(volumes trades).sum⌋₊ := by
  rw [totalVolume_eq nonneg fits, floor_sum_eq (volumes_nonneg nonneg)]

end Totals

/-- The totals are right exactly when the fractions of all volumes together stay below one
unit and the count fits a word. -/
theorem totals_exact_iff {trades : List TradePacket}
    (nonneg : ∀ trade ∈ trades, 0 ≤ trade.volume) (fits : (volumes trades).sum < 2 ^ 64) :
    (bookAfter trades).totalVolume.toNat = ⌊(volumes trades).sum⌋₊ ∧
        (bookAfter trades).totalTrades.toNat = trades.length ↔
      fractions (volumes trades) < 1 ∧ trades.length < 2 ^ 64 := by
  rw [totalVolume_eq nonneg fits, floors_eq_floor_sum_iff (volumes_nonneg nonneg),
    (bookAfter_shows trades).count, Nat.mod_eq_iff_lt (by decide)]

/-! ## Volumes below one -/

/-- The packets of the benchmark, from a price of 65000 upwards. -/
def benchmarkPacket (i : ℕ) : TradePacket where
  symbol := "BTCUSDT"
  price := 65000 + (i + 1) * (1 / 100)
  volume := 1 / 100 + (i % 100 : ℕ) * (1 / 10000)
  tradeId := UInt64.ofNat i

theorem benchmarkPacket_volume_lt (i : ℕ) : (benchmarkPacket i).volume < 1 := by
  have small : ((i % 100 : ℕ) : ℚ) < 100 := by
    exact_mod_cast Nat.mod_lt i (by decide)
  unfold benchmarkPacket
  dsimp only
  linarith

/-- The benchmark can run as long as it likes: the book never shows any volume. -/
theorem benchmark_totalVolume (messages : ℕ) :
    (bookAfter ((List.range messages).map benchmarkPacket)).totalVolume = 0 := by
  have none : floors (volumes ((List.range messages).map benchmarkPacket)) = 0 := by
    apply floors_eq_zero
    intro amount member
    rw [volumes, List.map_map] at member
    obtain ⟨i, -, rfl⟩ := List.mem_map.mp member
    exact benchmarkPacket_volume_lt i
  rw [← UInt64.toNat_inj, (bookAfter_shows _).volume, none]
  rfl

/-- Two halves make one unit, of which nothing is shown. -/
theorem twoHalves_lost :
    ∃ trades : List TradePacket, (∀ trade ∈ trades, 0 ≤ trade.volume) ∧
      (volumes trades).sum < 2 ^ 64 ∧
      ¬ ((bookAfter trades).totalVolume.toNat = ⌊(volumes trades).sum⌋₊ ∧
        (bookAfter trades).totalTrades.toNat = trades.length) := by
  refine ⟨[{ price := 100, volume := 1 / 2 }, { price := 100, volume := 1 / 2 }], ?_, ?_, ?_⟩
  · decide +kernel
  · decide +kernel
  · decide +kernel

/-- A half and a whole unit are shown as the integer part of their sum. -/
theorem halfAndWhole_shown :
    (bookAfter [{ price := 100, volume := 1 / 2 },
      { price := 100, volume := 1 }]).totalVolume.toNat = ⌊(3 / 2 : ℚ)⌋₊ := by
  have nonneg : ∀ trade ∈ [({ price := 100, volume := 1 / 2 } : TradePacket),
      { price := 100, volume := 1 }], 0 ≤ trade.volume := by decide +kernel
  have exact := (totals_exact_iff nonneg (by decide +kernel)).mpr ⟨by decide +kernel, by decide⟩
  exact exact.1.trans (by decide +kernel)

end PrismPipeline.Live
