import Mathlib.Tactic.Ring
import PrismPipeline.Feed.TradeMessage

/-!
# The time of a trade from the message to its bar

`handle_message` multiplies the time of a message by a million, and the engine then guesses
the unit of what it gets by its size.  A word is left as it is from 10^17 on, so the guess is
right for messages from 10^11 milliseconds on, and for no others.
-/

namespace PrismPipeline.Live

/-! ## Guessing the unit -/

theorem normalizeTimestampNs_large {ts : UInt64} (large : 10 ^ 17 ≤ ts.toNat) :
    normalizeTimestampNs ts = ts := by
  unfold normalizeTimestampNs
  rw [if_neg, if_neg]
  · rintro ⟨-, micro⟩
    exact absurd (UInt64.lt_iff_toNat_lt.mp micro) (not_lt.mpr large)
  · rintro ⟨-, milli⟩
    have below : ts.toNat < 10 ^ 14 := UInt64.lt_iff_toNat_lt.mp milli
    omega

/-- A second factor is noticed: the difference it makes has too few factors of two to be a
multiple of 2^64. -/
theorem rescaled_ne {ms extra : ℕ} (positive : 0 < ms) (small : ms < 2 ^ 58)
    (odd : Nat.Coprime 2 (15625 * extra)) :
    ms * 1000000 * (extra + 1) % 2 ^ 64 ≠ ms * 1000000 := by
  intro same
  have split := Nat.div_add_mod (ms * 1000000 * (extra + 1)) (2 ^ 64)
  rw [same] at split
  generalize ms * 1000000 * (extra + 1) / 2 ^ 64 = wraps at split
  have excess : 2 ^ 64 * wraps = ms * 1000000 * extra := by
    rw [Nat.mul_succ] at split
    exact Nat.add_right_cancel split
  have halved : 2 ^ 58 * wraps = ms * (15625 * extra) := by
    apply Nat.eq_of_mul_eq_mul_left (show 0 < 64 by decide)
    calc
      64 * (2 ^ 58 * wraps) = 2 ^ 64 * wraps := by ring
      _ = ms * 1000000 * extra := excess
      _ = 64 * (ms * (15625 * extra)) := by ring
  have divides : 2 ^ 58 ∣ ms * (15625 * extra) := ⟨wraps, halved.symm⟩
  have many := Nat.le_of_dvd positive ((odd.pow_left 58).dvd_of_dvd_mul_right divides)
  exact absurd many (not_le.mpr small)

/-- A smaller word is multiplied. -/
theorem normalizeTimestampNs_small {ms : ℕ} {ts : UInt64} (scaled : ts.toNat = ms * 1000000)
    (positive : 0 < ms) (small : ms < 100000000000) :
    (normalizeTimestampNs ts).toNat ≠ ms * 1000000 := by
  have few : ms < 2 ^ 58 := lt_trans small (by decide)
  have some : 0 < ts := by
    rw [UInt64.lt_iff_toNat_lt, scaled]
    exact Nat.mul_pos positive (by decide)
  have below : ts < 100000000000000000 := by
    rw [UInt64.lt_iff_toNat_lt, scaled]
    change ms * 1000000 < 100000000000000000
    omega
  unfold normalizeTimestampNs
  by_cases milli : ts < 100000000000000
  · rw [if_pos ⟨some, milli⟩, UInt64.toNat_mul, scaled]
    exact rescaled_ne positive few (by decide)
  · rw [if_neg fun both => milli both.2, if_pos ⟨UInt64.not_lt.mp milli, below⟩,
      UInt64.toNat_mul, scaled]
    exact rescaled_ne positive few (by decide)

/-- Whatever an accepted trade does to the engine, its own bucket is the current one then. -/
theorem EngineWorld.onTrade_currentBarStartNs {w : EngineWorld} {trade : TradePacket}
    (accepted : Accepted trade) :
    (w.onTrade trade).prism.currentBarStartNs = w.prism.barSeconds.tradeBarStart trade := by
  have effect := w.onTrade_effect trade
  generalize w.onTrade trade = w' at effect
  cases effect with
  | ignored refused => exact absurd accepted refused
  | opens => rfl
  | switches => rfl
  | updates _ _ same => exact same.symm

end PrismPipeline.Live

namespace PrismPipeline.Feed

open PrismPipeline.Text PrismPipeline.Live

/-! ## From the message to the bar -/

section Time

variable (strtod : String → ℚ) (now : UInt64) {message : TradeMessage}

/-- The first multiplication keeps within a word. -/
theorem buildPacket_exchangeTsNs (fits : message.tradeTime.toNat * 10 ^ 6 < 2 ^ 64) :
    (buildPacket strtod now message.text).exchangeTsNs.toNat =
      message.tradeTime.toNat * 10 ^ 6 := by
  rw [buildPacket_whole, UInt64.toNat_mul]
  exact Nat.mod_eq_of_lt fits

/-- There is no second one if the time is large enough, and only then. -/
theorem exchangeTime_eq_iff (positive : 0 < message.tradeTime.toNat)
    (fits : message.tradeTime.toNat * 10 ^ 6 < 2 ^ 64) :
    (normalizeTimestampNs (buildPacket strtod now message.text).exchangeTsNs).toNat =
        message.tradeTime.toNat * 10 ^ 6 ↔
      10 ^ 11 ≤ message.tradeTime.toNat := by
  have scaled := buildPacket_exchangeTsNs strtod now fits
  constructor
  · intro same
    by_contra small
    exact normalizeTimestampNs_small scaled positive (not_le.mp small) same
  · intro recent
    rw [normalizeTimestampNs_large, scaled]
    rw [scaled]
    omega

theorem bucket_eq (length : BarLength) (recent : 10 ^ 11 ≤ message.tradeTime.toNat)
    (fits : message.tradeTime.toNat * 10 ^ 6 < 2 ^ 64) :
    length.bucket (buildPacket strtod now message.text) =
      message.tradeTime.toNat * 10 ^ 6 / length.span := by
  have positive : 0 < message.tradeTime.toNat := by omega
  unfold BarLength.bucket
  rw [(exchangeTime_eq_iff strtod now positive fits).mpr recent]

/-- The start of the bar that is built once the trade of a message has come in. -/
theorem onTrade_startNs {w : EngineWorld} (recent : 10 ^ 11 ≤ message.tradeTime.toNat)
    (fits : message.tradeTime.toNat * 10 ^ 6 < 2 ^ 64)
    (price : 0 < strtod (numberText message.price))
    (quantity : 0 < strtod (numberText message.quantity)) :
    (w.onTrade (buildPacket strtod now message.text)).prism.currentBarStartNs.toNat =
      message.tradeTime.toNat * 10 ^ 6 / w.prism.barSeconds.span * w.prism.barSeconds.span := by
  have positive : 0 < message.tradeTime.toNat := by omega
  have kept := (exchangeTime_eq_iff strtod now positive fits).mpr recent
  have accepted : Accepted (buildPacket strtod now message.text) := by
    refine ⟨?_, ?_, ?_⟩
    · rw [buildPacket_whole]
      exact price
    · rw [buildPacket_whole]
      exact quantity
    · intro zero
      rw [zero] at kept
      have none : 0 = message.tradeTime.toNat * 10 ^ 6 := kept
      omega
  rw [EngineWorld.onTrade_currentBarStartNs accepted, BarLength.tradeBarStart_toNat,
    bucket_eq strtod now _ recent fits]

end Time

/-- Times from 10^11 milliseconds on, and no others, reach the engine as they are: neither
multiplication wraps, the trade goes to the bar of its own time, and two trades keep their
order. -/
theorem exchangeTime_survives (strtod : String → ℚ) (now : UInt64) (message : TradeMessage)
    (positive : 0 < message.tradeTime.toNat)
    (fits : message.tradeTime.toNat * 10 ^ 6 < 2 ^ 64) :
    (buildPacket strtod now message.text).exchangeTsNs.toNat =
      message.tradeTime.toNat * 10 ^ 6 ∧
    ((normalizeTimestampNs (buildPacket strtod now message.text).exchangeTsNs).toNat =
        message.tradeTime.toNat * 10 ^ 6 ↔
      10 ^ 11 ≤ message.tradeTime.toNat) ∧
    (10 ^ 11 ≤ message.tradeTime.toNat →
      (∀ w : EngineWorld, 0 < strtod (numberText message.price) →
        0 < strtod (numberText message.quantity) →
        (w.onTrade (buildPacket strtod now message.text)).prism.currentBarStartNs.toNat =
          message.tradeTime.toNat * 10 ^ 6 / w.prism.barSeconds.span *
            w.prism.barSeconds.span) ∧
      ∀ (later : UInt64) (other : TradeMessage), 10 ^ 11 ≤ other.tradeTime.toNat →
        other.tradeTime.toNat * 10 ^ 6 < 2 ^ 64 →
        (normalizeTimestampNs (buildPacket strtod now message.text).exchangeTsNs <
            normalizeTimestampNs (buildPacket strtod later other.text).exchangeTsNs ↔
          message.tradeTime < other.tradeTime)) := by
  refine ⟨buildPacket_exchangeTsNs strtod now fits,
    exchangeTime_eq_iff strtod now positive fits, fun recent => ⟨?_, ?_⟩⟩
  · intro w price quantity
    exact onTrade_startNs strtod now recent fits price quantity
  · intro later other recentOther fitsOther
    have positiveOther : 0 < other.tradeTime.toNat := by omega
    rw [UInt64.lt_iff_toNat_lt, UInt64.lt_iff_toNat_lt,
      (exchangeTime_eq_iff strtod now positive fits).mpr recent,
      (exchangeTime_eq_iff strtod later positiveOther fitsOther).mpr recentOther]
    omega

/-! ## Times the engine takes for another unit -/

/-- `{"s":"ETHUSDT","p":"40","q":"3","t":1,"T":…}` -/
def messageAt (tradeTime : UInt64) : TradeMessage where
  fields :=
    [⟨symbolKey, .text (.of ['E', 'T', 'H', 'U', 'S', 'D', 'T'] (by decide))⟩,
      ⟨priceKey, .text (.of ['4', '0'] (by decide))⟩,
      ⟨quantityKey, .text (.of ['3'] (by decide))⟩,
      ⟨tradeIdKey, .unsigned 1⟩,
      ⟨tradeTimeKey, .unsigned tradeTime.toNat⟩]
  distinct := by
    change [symbolKey, priceKey, quantityKey, tradeIdKey, tradeTimeKey].Nodup
    decide
  symbol := .of ['E', 'T', 'H', 'U', 'S', 'D', 'T'] (by decide)
  price := .of ['4', '0'] (by decide)
  quantity := .of ['3'] (by decide)
  tradeId := 1
  tradeTime := tradeTime
  symbol_mem := by simp
  price_mem := by simp
  quantity_mem := by simp
  tradeId_mem := by simp
  tradeTime_mem := by simp

theorem messageAt_exchangeTime (strtod : String → ℚ) (now tradeTime : UInt64) :
    normalizeTimestampNs (buildPacket strtod now (messageAt tradeTime).text).exchangeTsNs =
      normalizeTimestampNs (tradeTime * 1000000) := by
  rw [buildPacket_whole]
  rfl

/-- The smaller of these times is multiplied by a million once more and wraps, the larger
one by a thousand, and the later trade is put before the earlier one. -/
theorem earlyTimes_swapped :
    ∃ a b : TradeMessage, 0 < a.tradeTime ∧ a.tradeTime < b.tradeTime ∧
      b.tradeTime.toNat * 10 ^ 6 < 2 ^ 64 ∧
      ∀ (strtod : String → ℚ) (now : UInt64),
        (normalizeTimestampNs (buildPacket strtod now a.text).exchangeTsNs).toNat ≠
          a.tradeTime.toNat * 10 ^ 6 ∧
        normalizeTimestampNs (buildPacket strtod now b.text).exchangeTsNs <
          normalizeTimestampNs (buildPacket strtod now a.text).exchangeTsNs := by
  refine ⟨messageAt 99999999, messageAt 100000000, by decide, by decide, by decide, ?_⟩
  intro strtod now
  rw [messageAt_exchangeTime, messageAt_exchangeTime]
  constructor
  · decide
  · decide

/-- A trade of the year 2023. -/
theorem recentTime_survives :
    0 < (messageAt 1672515782136).tradeTime.toNat ∧
      (normalizeTimestampNs
        (buildPacket (fun _ => 1) 0 (messageAt 1672515782136).text).exchangeTsNs).toNat =
          1672515782136 * 10 ^ 6 :=
  ⟨by decide, ((exchangeTime_survives (fun _ => 1) 0 (messageAt 1672515782136) (by decide)
    (by decide)).2.1).mpr (by decide)⟩

end PrismPipeline.Feed
