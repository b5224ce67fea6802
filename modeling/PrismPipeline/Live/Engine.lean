import PrismPipeline.Live.Strategy

/-!
# The bar builder of the live path

`PrismLiveEngine` turns a stream of trades into bars and hands each closed bar to
the strategy.  The strategy is one static object behind `strategy_instance`, not a
member of the engine, so it stands beside the engine in the state.  Timestamps are
64 bit words and wrap as in the source; prices and volumes are exact rationals.
-/

namespace PrismPipeline.Live

open PrismPipeline.Machine PrismPipeline.Series

/-- A trade as the feed hands it over. -/
structure TradePacket where
  price : ℚ := 0
  volume : ℚ := 0
  symbol : String := ""
  exchangeTsNs : UInt64 := 0
  ingestTsNs : UInt64 := 0
  tradeId : UInt64 := 0
  deriving Inhabited, DecidableEq

structure PrismBar where
  timestamp : String := ""
  openPrice : ℚ := 0
  high : ℚ := 0
  low : ℚ := 0
  close : ℚ := 0
  volume : ℚ := 0
  vwap : ℚ := 0
  atr14 : ℚ := 0
  deriving Inhabited, DecidableEq

structure PrismSignal where
  active : Bool := false
  reason : String := ""
  entryPrice : ℚ := 0
  stopLoss : ℚ := 0
  target1 : ℚ := 0
  target2 : ℚ := 0
  setupScore : ℚ := 0
  deriving Inhabited, DecidableEq

/-- A bar length the engine can divide by: a positive `int` of seconds. -/
structure BarLength where
  seconds : ℕ
  pos : 1 ≤ seconds
  fits : seconds < 2 ^ 31

/-- The length the live program passes. -/
def prismBarSeconds : BarLength := ⟨10, by decide, by decide⟩

structure PrismLiveEngine where
  barSeconds : BarLength
  hasCurrentBar : Bool := false
  currentBarStartNs : UInt64 := 0
  currentBar : PrismBar := {}
  bars : List PrismBar := []
  lastSignal : PrismSignal := {}

/-- A bar at the moment it is passed to the strategy, with the start of its bucket. -/
structure DeliveredBar where
  startNs : UInt64
  bar : PrismBar
  deriving DecidableEq

/-- The engine, the strategy it drives, and the trace of the bars it has closed.
The trace is not a variable of the source, which keeps the last 200 bars only. -/
structure EngineWorld where
  prism : PrismLiveEngine
  strategyInstance : PrismStrategy := {}
  delivered : List DeliveredBar := []

/-! ## Time -/

def nsPerSecond : UInt64 := 1000000000

def nsToSimpleTime (ns : UInt64) : String := (ns / nsPerSecond).toNat.repr

/-- Milliseconds below 10^14 and microseconds below 10^17 become nanoseconds. -/
def normalizeTimestampNs (ts : UInt64) : UInt64 :=
  if 0 < ts ∧ ts < 100000000000000 then ts * 1000000
  else if 100000000000000 ≤ ts ∧ ts < 100000000000000000 then ts * 1000
  else ts

def BarLength.barNs (length : BarLength) : UInt64 := UInt64.ofNat length.seconds * nsPerSecond

/-- `trade_bar_start`: the start of the bucket a trade belongs to. -/
def BarLength.tradeBarStart (length : BarLength) (trade : TradePacket) : UInt64 :=
  normalizeTimestampNs trade.exchangeTsNs / length.barNs * length.barNs

/-! ## Text to number -/

def isSpace (c : Char) : Bool := c = ' ' ∨ 9 ≤ c.toNat ∧ c.toNat ≤ 13

/-- `strtoull` in base ten: leading space and one sign, then digits as far as they
go; too large a number becomes the largest one. -/
def strtoull (text : String) : UInt64 :=
  let body := text.toList.dropWhile isSpace
  let signed := body.head? = some '-' ∨ body.head? = some '+'
  let digits := (if signed then body.tail else body).takeWhile Char.isDigit
  let magnitude := Nat.ofDigitChars 10 digits 0
  if 2 ^ 64 ≤ magnitude then 0 - 1
  else if body.head? = some '-' then 0 - UInt64.ofNat magnitude
  else UInt64.ofNat magnitude

theorem isDigit_not_space {c : Char} (digit : c.isDigit = true) : isSpace c = false := by
  simp only [Char.isDigit, Bool.and_eq_true, decide_eq_true_eq, ge_iff_le, UInt32.le_iff_toNat_le]
    at digit
  have low : 48 ≤ c.toNat := digit.1
  simp only [isSpace, decide_eq_false_iff_not]
  rintro (rfl | ⟨_, high⟩)
  · exact absurd low (by decide)
  · omega

/-- Digits are read up to the first character that is none. -/
theorem strtoull_digits {digits rest : List Char} (all : ∀ c ∈ digits, c.isDigit = true)
    (stops : ∀ c ∈ rest.head?, c.isDigit = false ∧ isSpace c = false ∧ c ≠ '-' ∧ c ≠ '+')
    (fits : Nat.ofDigitChars 10 digits 0 < 2 ^ 64) :
    strtoull (String.ofList (digits ++ rest)) = UInt64.ofNat (Nat.ofDigitChars 10 digits 0) := by
  have first : ∀ c ∈ (digits ++ rest).head?, isSpace c = false ∧ c ≠ '-' ∧ c ≠ '+' := by
    intro c member
    cases digits with
    | nil => exact (stops c member).2
    | cons digit others =>
        obtain rfl : digit = c := Option.some.inj member
        have isDigit : digit.isDigit = true := all digit List.mem_cons_self
        refine ⟨isDigit_not_space isDigit, ?_, ?_⟩
        · rintro rfl
          exact absurd isDigit (by decide)
        · rintro rfl
          exact absurd isDigit (by decide)
  have body : (String.ofList (digits ++ rest)).toList.dropWhile isSpace = digits ++ rest := by
    rw [String.toList_ofList]
    cases whole : digits ++ rest with
    | nil => rfl
    | cons c others =>
        have notSpace : isSpace c = false := (first c (by rw [whole]; rfl)).1
        rw [List.dropWhile_cons_of_neg]
        rw [notSpace]
        exact Bool.false_ne_true
  have minus : (digits ++ rest).head? ≠ some '-' := fun sign => (first '-' sign).2.1 rfl
  have plus : (digits ++ rest).head? ≠ some '+' := fun sign => (first '+' sign).2.2 rfl
  have read : (digits ++ rest).takeWhile Char.isDigit = digits := by
    rw [List.takeWhile_append_of_pos all]
    cases rest with
    | nil => exact List.append_nil digits
    | cons c others =>
        have notDigit : c.isDigit = false := (stops c rfl).1
        rw [List.takeWhile_cons_of_neg, List.append_nil]
        rw [notDigit]
        exact Bool.false_ne_true
  unfold strtoull
  dsimp only
  rw [body, if_neg (not_or.mpr ⟨minus, plus⟩), read, if_neg (not_le.mpr fits), if_neg minus]

def toStrategyBar (b : PrismBar) : Bar where
  ts := strtoull b.timestamp
  openPrice := b.openPrice
  high := b.high
  low := b.low
  close := b.close
  volume := b.volume
  atr14 := b.atr14

/-! ## Building a bar -/

def startNewBar (trade : TradePacket) : PrismBar where
  timestamp := nsToSimpleTime (normalizeTimestampNs trade.exchangeTsNs)
  openPrice := trade.price
  high := trade.price
  low := trade.price
  close := trade.price
  volume := trade.volume
  vwap := trade.price
  atr14 := 0

def updateCurrentBar (bar : PrismBar) (trade : TradePacket) : PrismBar :=
  let oldValue := bar.vwap * bar.volume
  let newValue := trade.price * trade.volume
  let volume := bar.volume + trade.volume
  { bar with
    high := max bar.high trade.price
    low := min bar.low trade.price
    close := trade.price
    volume := volume
    vwap := if 0 < volume then (oldValue + newValue) / volume else bar.vwap }

def trueRange (prev bar : PrismBar) : ℚ :=
  max (bar.high - bar.low) (max |bar.high - prev.close| |bar.low - prev.close|)

/-- The value `compute_atr` stores in the newest of the bars. -/
def atrOf (bars : List PrismBar) : ℚ :=
  let newest := bars.getLastD {}
  if bars.length < 2 then newest.high - newest.low
  else
    let count := min 14 (bars.length - 1)
    let ranges := (List.range' (bars.length - count) count).map
      fun i => trueRange (bars.getD (i - 1) {}) (bars.getD i {})
    ranges.sum / count

def computeAtr (bars : List PrismBar) : List PrismBar :=
  bars.modify (bars.length - 1) fun newest => { newest with atr14 := atrOf bars }

/-- Only the newest bar changes. -/
theorem computeAtr_snoc (older : List PrismBar) (newest : PrismBar) :
    computeAtr (older ++ [newest]) =
      older ++ [{ newest with atr14 := atrOf (older ++ [newest]) }] := by
  unfold computeAtr
  have position : (older ++ [newest]).length - 1 = older.length := by simp
  have inside : older.length < (older ++ [newest]).length := by simp
  rw [position, List.modify_eq_take_cons_drop inside]
  simp

/-! ## The engine -/

/-- The engine's copy of a strategy signal. -/
def Signal.activated (sig : Signal) : PrismSignal where
  active := true
  reason := sig.reason
  entryPrice := sig.entryPrice
  stopLoss := sig.stopLoss
  target1 := sig.target1
  target2 := sig.target2
  setupScore := sig.setupScore

namespace EngineWorld

def closeCurrentBar (w : EngineWorld) : EngineWorld :=
  let bars := computeAtr (pushTrim historyBound w.prism.bars w.prism.currentBar)
  let closed := bars.getLastD {}
  let strategy := w.strategyInstance.onNewBar (toStrategyBar closed)
  { prism :=
      { w.prism with
        bars := bars
        lastSignal := if strategy.hasSignal then strategy.currentSignal.activated else {} }
    strategyInstance := strategy
    delivered := w.delivered ++ [⟨w.prism.currentBarStartNs, closed⟩] }

/-- The bar handed on is the current one with its `atr14` filled in. -/
theorem closeCurrentBar_delivered (w : EngineWorld) :
    ∃ atr, w.closeCurrentBar.delivered = w.delivered ++
      [⟨w.prism.currentBarStartNs, { w.prism.currentBar with atr14 := atr }⟩] := by
  obtain ⟨older, eq⟩ := pushTrim_eq_snoc 199 w.prism.bars w.prism.currentBar
  refine ⟨atrOf (older ++ [w.prism.currentBar]), ?_⟩
  unfold closeCurrentBar historyBound
  dsimp only
  rw [eq, computeAtr_snoc, List.getLastD_concat]

/-- Both places that open a bar: the bucket start is stored, then the bar begun. -/
def openBar (w : EngineWorld) (start : UInt64) (trade : TradePacket) : EngineWorld :=
  { w with
    prism :=
      { w.prism with
        currentBarStartNs := start
        hasCurrentBar := true
        currentBar := startNewBar trade } }

def joinBar (w : EngineWorld) (trade : TradePacket) : EngineWorld :=
  { w with prism := { w.prism with currentBar := updateCurrentBar w.prism.currentBar trade } }

def onTrade (w : EngineWorld) (trade : TradePacket) : EngineWorld :=
  if trade.price ≤ 0 ∨ trade.volume ≤ 0 then w
  else if normalizeTimestampNs trade.exchangeTsNs = 0 then w
  else
    let tradeBarStart := w.prism.barSeconds.tradeBarStart trade
    if ¬ w.prism.hasCurrentBar then w.openBar tradeBarStart trade
    else if tradeBarStart ≠ w.prism.currentBarStartNs then
      w.closeCurrentBar.openBar tradeBarStart trade
    else w.joinBar trade

def hasSignal (w : EngineWorld) : Bool := w.prism.lastSignal.active

def lastSignal (w : EngineWorld) : PrismSignal := w.prism.lastSignal

/-- An engine just constructed, before any strategy bar. -/
def fresh (length : BarLength) : EngineWorld := { prism := { barSeconds := length } }

end EngineWorld

/-! ## Time buckets -/

namespace BarLength

variable (length : BarLength)

/-- Nanoseconds in a bar. -/
def span : ℕ := length.seconds * 10 ^ 9

/-- Number of the bucket a trade belongs to. -/
def bucket (trade : TradePacket) : ℕ :=
  (normalizeTimestampNs trade.exchangeTsNs).toNat / length.span

theorem span_pos : 0 < length.span := Nat.mul_pos length.pos (by decide)

/-- A bar length in nanoseconds fits a word. -/
theorem barNs_toNat : length.barNs.toNat = length.span := by
  have fits := length.fits
  unfold barNs span nsPerSecond
  rw [UInt64.toNat_mul, UInt64.toNat_ofNat']
  change length.seconds % 2 ^ 64 * 1000000000 % 2 ^ 64 = _
  rw [Nat.mod_eq_of_lt (by omega), Nat.mod_eq_of_lt (by omega)]
  rfl

/-- The start of a bucket never wraps. -/
theorem tradeBarStart_toNat (trade : TradePacket) :
    (length.tradeBarStart trade).toNat = length.bucket trade * length.span := by
  unfold tradeBarStart bucket
  rw [UInt64.toNat_mul, UInt64.toNat_div, barNs_toNat]
  have below := (normalizeTimestampNs trade.exchangeTsNs).toNat_lt
  have floor := Nat.div_mul_le_self (normalizeTimestampNs trade.exchangeTsNs).toNat length.span
  exact Nat.mod_eq_of_lt (by omega)

theorem tradeBarStart_eq_iff (a b : TradePacket) :
    length.tradeBarStart a = length.tradeBarStart b ↔ length.bucket a = length.bucket b := by
  rw [← UInt64.toNat_inj, tradeBarStart_toNat, tradeBarStart_toNat]
  exact Nat.mul_left_inj length.span_pos.ne'

end BarLength

/-! ## What one trade can do -/

/-- The trades a bar is built from. -/
def Accepted (trade : TradePacket) : Prop :=
  0 < trade.price ∧ 0 < trade.volume ∧ normalizeTimestampNs trade.exchangeTsNs ≠ 0

instance (trade : TradePacket) : Decidable (Accepted trade) :=
  inferInstanceAs (Decidable (_ ∧ _))

namespace EngineWorld

/-- Effects of a trade on the engine. -/
inductive TradeEffect (w : EngineWorld) (trade : TradePacket) : EngineWorld → Prop where
  | ignored (refused : ¬ Accepted trade) : TradeEffect w trade w
  | opens (accepted : Accepted trade) (empty : w.prism.hasCurrentBar = false) :
      TradeEffect w trade (w.openBar (w.prism.barSeconds.tradeBarStart trade) trade)
  | switches (accepted : Accepted trade) (building : w.prism.hasCurrentBar = true)
      (other : w.prism.barSeconds.tradeBarStart trade ≠ w.prism.currentBarStartNs) :
      TradeEffect w trade
        (w.closeCurrentBar.openBar (w.prism.barSeconds.tradeBarStart trade) trade)
  | updates (accepted : Accepted trade) (building : w.prism.hasCurrentBar = true)
      (same : w.prism.barSeconds.tradeBarStart trade = w.prism.currentBarStartNs) :
      TradeEffect w trade (w.joinBar trade)

theorem onTrade_effect (w : EngineWorld) (trade : TradePacket) :
    TradeEffect w trade (w.onTrade trade) := by
  unfold onTrade
  split
  · next worthless =>
      refine .ignored fun accepted => ?_
      rcases worthless with price | volume
      · exact absurd accepted.1 (not_lt.mpr price)
      · exact absurd accepted.2.1 (not_lt.mpr volume)
  next worth =>
  split
  · next timeless => exact .ignored fun accepted => accepted.2.2 timeless
  next timed =>
  rw [not_or, not_le, not_le] at worth
  have accepted : Accepted trade := ⟨worth.1, worth.2, timed⟩
  dsimp only
  split
  · next empty => exact .opens accepted (Bool.eq_false_iff.mpr empty)
  next building =>
  rw [not_not] at building
  split
  · next other => exact .switches accepted building other
  · next same => exact .updates accepted building (not_not.mp same)

end EngineWorld

/-- The engine as a machine that shows its signal after each trade. -/
def engineMachine : Mealy EngineWorld TradePacket PrismSignal where
  step w trade := w.onTrade trade
  output w trade := (w.onTrade trade).lastSignal

/-- A fresh engine after a sequence of trades. -/
def engineAfter (length : BarLength) (packets : List TradePacket) : EngineWorld :=
  engineMachine.after (.fresh length) packets

end PrismPipeline.Live
