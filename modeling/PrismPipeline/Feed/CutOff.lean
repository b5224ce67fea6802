import Mathlib.Data.Nat.ModEq
import PrismPipeline.Feed.TradeMessage

/-!
# Messages that are cut off

What the handler does with the first bytes of a trade message.  A string value that is
not closed counts as missing, and the message is refused.  A number has no such end: the
digits in front of the cut are taken for the whole of it.
-/

namespace PrismPipeline.Feed

open PrismPipeline.Text PrismPipeline.Live

/-! ## Numbers in a word -/

theorem quotient_eq_iff (n : UInt64) (lost : ℕ) :
    UInt64.ofNat (n.toNat / 10 ^ lost) = n ↔ n = 0 ∨ lost = 0 := by
  have below : n.toNat / 10 ^ lost < 2 ^ 64 := lt_of_le_of_lt (Nat.div_le_self _ _) n.toNat_lt
  rw [← UInt64.toNat_inj, UInt64.toNat_ofNat_of_lt' below, Nat.div_eq_self, ← UInt64.toNat_inj]
  constructor
  · rintro (zero | one)
    · exact Or.inl zero
    · exact Or.inr ((Nat.pow_eq_one.mp one).resolve_left (by decide))
  · rintro (zero | none)
    · exact Or.inl zero
    · rw [none]
      exact Or.inr rfl

/-- A million is 2^6 times an odd number, so the product in a word only tells the factors
apart by their last 58 bits. -/
theorem million_eq_iff (a : ℕ) (n : UInt64) :
    UInt64.ofNat a * 1000000 = n * 1000000 ↔ a ≡ n.toNat [MOD 2 ^ 58] := by
  have words : UInt64.ofNat a * 1000000 = n * 1000000 ↔
      a * 1000000 ≡ n.toNat * 1000000 [MOD 2 ^ 64] := by
    rw [← UInt64.toNat_inj, UInt64.toNat_mul, UInt64.toNat_mul, UInt64.toNat_ofNat', Nat.ModEq,
      Nat.mod_mul_mod]
    rfl
  rw [words]
  constructor
  · intro same
    have share : 2 ^ 64 / Nat.gcd (2 ^ 64) 1000000 = 2 ^ 58 := by decide
    exact share ▸ same.cancel_right_div_gcd (by decide)
  · intro same
    have wide : a * 2 ^ 6 * 15625 ≡ n.toNat * 2 ^ 6 * 15625 [MOD 2 ^ 58 * 2 ^ 6] :=
      (same.mul_right' (2 ^ 6)).mul_right 15625
    rw [Nat.mul_assoc, Nat.mul_assoc] at wide
    exact wide

/-! ## What a cut leaves -/

section Cut

variable (strtod : String → ℚ) (now : UInt64) (message : TradeMessage) (cut : ℕ)

/-- The packets of one trade, up to the time of arrival. -/
def SameTrade (first second : TradePacket) : Prop :=
  first.symbol = second.symbol ∧ first.price = second.price ∧ first.volume = second.volume ∧
    first.tradeId = second.tradeId ∧ first.exchangeTsNs = second.exchangeTsNs

/-- The three string values stand in front of the cut with their closing quotes. -/
def ShowsStrings : Prop :=
  message.endOf symbolKey ≤ cut ∧ message.endOf priceKey ≤ cut ∧ message.endOf quantityKey ≤ cut

/-- The digits in front of the cut stand for the trade's own number and time. -/
def ShowsNumbers : Prop :=
  (message.tradeId = 0 ∨ message.endOf tradeIdKey ≤ cut) ∧
    message.tradeTime.toNat / 10 ^ (message.endOf tradeTimeKey - cut) ≡
      message.tradeTime.toNat [MOD 2 ^ 58]

/-- A trade the handler does not refuse when it sees the whole message. -/
def Tradable : Prop :=
  0 < strtod (numberText message.price) ∧ 0 < strtod (numberText message.quantity) ∧
    symbolText message.symbol ≠ ""

variable {strtod message cut}

theorem shown_nonpos_iff (shown : Prop) [Decidable shown] (value : ℚ) :
    (if shown then value else 0) ≤ 0 ↔ ¬ (shown ∧ 0 < value) := by
  by_cases seen : shown
  · rw [if_pos seen, ← not_lt]
    exact not_congr (and_iff_right seen).symm
  · rw [if_neg seen]
    exact iff_of_true le_rfl fun both => seen both.1

theorem shown_empty_iff (shown : Prop) [Decidable shown] (value : String) :
    (if shown then value else "") = "" ↔ ¬ (shown ∧ value ≠ "") := by
  by_cases seen : shown
  · rw [if_pos seen, and_iff_right seen, not_not]
  · rw [if_neg seen]
    exact iff_of_true rfl fun both => seen both.1

theorem refused_take_iff :
    Refused (buildPacket strtod now (message.text.take cut)) ↔
      ¬ (ShowsStrings message cut ∧ Tradable strtod message) := by
  rw [buildPacket_take, Refused, ShowsStrings, Tradable]
  dsimp only
  rw [shown_nonpos_iff, shown_nonpos_iff, shown_empty_iff]
  tauto

/-- The packet of a cut message that is not refused is that of the whole message exactly
when the numbers are the same. -/
theorem sameTrade_take_iff (shows : ShowsStrings message cut) :
    SameTrade (buildPacket strtod now (message.text.take cut))
        (buildPacket strtod now message.text) ↔
      ShowsNumbers message cut := by
  obtain ⟨symbol, price, quantity⟩ := shows
  have number := quotient_eq_iff message.tradeId (message.endOf tradeIdKey - cut)
  have time := million_eq_iff
    (message.tradeTime.toNat / 10 ^ (message.endOf tradeTimeKey - cut)) message.tradeTime
  rw [buildPacket_take, buildPacket_whole, SameTrade, ShowsNumbers]
  dsimp only
  rw [if_pos symbol, if_pos price, if_pos quantity, number, time, Nat.sub_eq_zero_iff_le]
  exact ⟨fun same => same.2.2.2, fun same => ⟨rfl, rfl, rfl, same⟩⟩

end Cut

/-! ## The handler on a cut message -/

section Handler

variable {strtod : String → ℚ} {now : UInt64} {answers : QueueAnswers} {feed : FeedState}
  {data : List Char}

/-- The bytes are counted as dropped and nothing is passed on, or what is passed on is this
packet up to its time of arrival. -/
def DroppedOr (feed after : FeedState) (packet : TradePacket) : Prop :=
  after.dropped = feed.dropped + 1 ∧ after.enqueued = feed.enqueued ∨
    ∃ passed, after.enqueued = feed.enqueued ++ [passed] ∧ SameTrade passed packet

theorem handleMessage_refused (refused : Refused (buildPacket strtod now data)) :
    feed.handleMessage strtod now answers data = { feed with dropped := feed.dropped + 1 } :=
  if_pos refused

theorem handleMessage_passed (passed : ¬ Refused (buildPacket strtod now data)) :
    feed.handleMessage strtod now answers data =
      match pushLoop answers 0 with
      | .enqueued =>
          { feed with
            received := feed.received + 1
            enqueued := feed.enqueued ++ [buildPacket strtod now data] }
      | .dropped => { feed with dropped := feed.dropped + 1 }
      | .abandoned => feed :=
  if_neg passed

/-- A packet that is not refused is left to the queue. -/
theorem droppedOr_of_passed (passed : ¬ Refused (buildPacket strtod now data))
    (packet : TradePacket) :
    DroppedOr feed (feed.handleMessage strtod now answers data) packet ↔
      answers.StaysFull ∨ answers.Accepts ∧ SameTrade (buildPacket strtod now data) packet := by
  have accepts : pushLoop answers 0 = .enqueued ↔ answers.Accepts :=
    QueueAnswers.pushLoop_eq_iff
  have full : pushLoop answers 0 = .dropped ↔ answers.StaysFull :=
    QueueAnswers.pushLoop_eq_iff
  rw [handleMessage_passed passed, ← accepts, ← full]
  cases pushLoop answers 0 with
  | enqueued =>
      constructor
      · rintro (⟨_, same⟩ | ⟨other, same, trade⟩)
        · exact absurd same (by simp)
        · obtain rfl := List.singleton_injective (List.append_cancel_left same)
          exact Or.inr ⟨rfl, trade⟩
      · rintro (dropped | ⟨_, trade⟩)
        · cases dropped
        · exact Or.inr ⟨_, rfl, trade⟩
  | dropped => exact iff_of_true (Or.inl ⟨rfl, rfl⟩) (Or.inl rfl)
  | abandoned =>
      constructor
      · rintro (⟨counted, _⟩ | ⟨other, same, _⟩)
        · exact absurd counted (by simp)
        · exact absurd same (by simp)
      · rintro (dropped | ⟨enqueued, _⟩)
        · cases dropped
        · cases enqueued

/-- A cut message that still shows a trade is left to the queue, with the numbers it shows. -/
theorem droppedOr_of_shown {message : TradeMessage} {cut : ℕ} (shows : ShowsStrings message cut)
    (tradable : Tradable strtod message) :
    DroppedOr feed (feed.handleMessage strtod now answers (message.text.take cut))
        (buildPacket strtod now message.text) ↔
      answers.StaysFull ∨ answers.Accepts ∧ ShowsNumbers message cut := by
  have passed : ¬ Refused (buildPacket strtod now (message.text.take cut)) :=
    fun refused => (refused_take_iff now).mp refused ⟨shows, tradable⟩
  rw [droppedOr_of_passed passed, sameTrade_take_iff now shows]

variable (strtod now answers feed)

/-- A cut message is dropped or passed on as the trade it was exactly when one of its three
strings is cut, or the whole message is refused as well, or the queue stays full, or the
packet is accepted with the number and the time of the trade. -/
theorem droppedOr_take_iff (message : TradeMessage) (cut : ℕ) :
    DroppedOr feed (feed.handleMessage strtod now answers (message.text.take cut))
        (buildPacket strtod now message.text) ↔
      (ShowsStrings message cut → Tradable strtod message →
        answers.StaysFull ∨ answers.Accepts ∧ ShowsNumbers message cut) := by
  by_cases passes : ShowsStrings message cut ∧ Tradable strtod message
  · obtain ⟨shows, tradable⟩ := passes
    rw [droppedOr_of_shown shows tradable]
    exact ⟨fun safe _ _ => safe, fun safe => safe shows tradable⟩
  · rw [handleMessage_refused ((refused_take_iff now).mpr passes)]
    exact iff_of_true (Or.inl ⟨rfl, rfl⟩) fun shows tradable => absurd ⟨shows, tradable⟩ passes

end Handler

/-! ## A cut inside the time of a trade -/

/-- `{"e":"trade","s":"BTCUSDT","t":12345,"p":"25","q":"100","T":1672515782136,"m":true}` -/
def sampleFields : List Field :=
  [⟨.of ['e'] (by decide), .text (.of ['t', 'r', 'a', 'd', 'e'] (by decide))⟩,
    ⟨symbolKey, .text (.of ['B', 'T', 'C', 'U', 'S', 'D', 'T'] (by decide))⟩,
    ⟨tradeIdKey, .unsigned 12345⟩,
    ⟨priceKey, .text (.of ['2', '5'] (by decide))⟩,
    ⟨quantityKey, .text (.of ['1', '0', '0'] (by decide))⟩,
    ⟨tradeTimeKey, .unsigned 1672515782136⟩,
    ⟨.of ['m'] (by decide), .boolean true⟩]

def sampleMessage : TradeMessage where
  fields := sampleFields
  distinct := by decide
  symbol := .of ['B', 'T', 'C', 'U', 'S', 'D', 'T'] (by decide)
  price := .of ['2', '5'] (by decide)
  quantity := .of ['1', '0', '0'] (by decide)
  tradeId := 12345
  tradeTime := 1672515782136
  symbol_mem := by simp [sampleFields]
  price_mem := by simp [sampleFields]
  quantity_mem := by simp [sampleFields]
  tradeId_mem := by simp [sampleFields]
  tradeTime_mem := by simp [sampleFields]

/-- `strtod` on texts that are decimal digits. -/
def digitsToNumber (text : String) : ℚ := (Nat.ofDigitChars 10 text.toList 0 : ℕ)

theorem sampleMessage_tradable : Tradable digitsToNumber sampleMessage := by
  have price : digitsToNumber (numberText sampleMessage.price) = 25 := by
    rw [digitsToNumber, numberText, String.toList_ofList]
    rfl
  have quantity : digitsToNumber (numberText sampleMessage.quantity) = 100 := by
    rw [digitsToNumber, numberText, String.toList_ofList]
    rfl
  refine ⟨?_, ?_, ?_⟩
  · rw [price]
    decide
  · rw [quantity]
    decide
  · intro empty
    have letters := congrArg String.toList empty
    rw [symbolText, String.toList_ofList] at letters
    exact absurd letters (by decide)

/-- A queue with room. -/
def freeQueue : QueueAnswers := ⟨fun _ => true, fun _ => true⟩

theorem freeQueue_accepts : freeQueue.Accepts :=
  ⟨0, by decide, fun j below => absurd below (Nat.not_lt_zero j), rfl⟩

/-- Cut behind `"T":1672515`, the message becomes a trade of that millisecond. -/
theorem sampleMessage_cut :
    67 < sampleMessage.text.length ∧
      ¬ DroppedOr {} (({} : FeedState).handleMessage digitsToNumber 0 freeQueue
          (sampleMessage.text.take 67))
        (buildPacket digitsToNumber 0 sampleMessage.text) := by
  have shows : ShowsStrings sampleMessage 67 := by
    unfold ShowsStrings
    decide
  have loses : ¬ ShowsNumbers sampleMessage 67 := by
    unfold ShowsNumbers
    decide
  constructor
  · decide
  · rw [droppedOr_of_shown shows sampleMessage_tradable]
    rintro (full | ⟨_, numbers⟩)
    · exact freeQueue_accepts.not_staysFull full
    · exact loses numbers

end PrismPipeline.Feed
