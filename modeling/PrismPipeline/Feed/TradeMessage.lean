import PrismPipeline.Feed.BinanceClient
import PrismPipeline.Text.FlatObject

/-!
# Trade messages and what is read of their front

A trade message is a flat object with string fields `s`, `p`, `q` and unsigned fields
`t`, `T`, among any others and in any order.  The reading functions are run on the first
bytes of it: a string is read as soon as its closing quote has arrived, and of a number
the digits that have arrived.
-/

namespace PrismPipeline.Feed

open PrismPipeline.Text PrismPipeline.Live

/-! ## Reading behind a mark -/

section Marked

variable {front key content digits rest : List Char}

theorem cString_append (clear : Char.ofNat 0 ∉ front) :
    cString (front ++ rest) = front ++ cString rest := by
  apply List.takeWhile_append_of_pos
  intro c member
  apply decide_eq_true
  rintro rfl
  exact clear member

/-- What stands behind the mark, when the text is cut. -/
theorem drop_mark (front mark value : List Char) (cut : ℕ) :
    ((front ++ (mark ++ value)).take cut).drop (front.length + mark.length) =
      value.take (cut - (front.length + mark.length)) := by
  rw [List.drop_take, ← List.append_assoc, ← List.length_append, List.drop_left]

theorem extractJsonString_marked (clear : '"' ∉ content)
    (marked : find (keyMark key ++ ['"'])
      (front ++ ((keyMark key ++ ['"']) ++ (content ++ '"' :: rest))) = some front.length)
    (size cut : ℕ) :
    extractJsonString ((front ++ ((keyMark key ++ ['"']) ++ (content ++ '"' :: rest))).take cut)
        key (size + 1) =
      if front.length + (keyMark key ++ ['"']).length + content.length + 1 ≤ cut then
        some (content.take size)
      else none := by
  have pattern : '"' :: (key ++ ['"', ':', '"']) = keyMark key ++ ['"'] := by
    simp [keyMark]
  unfold extractJsonString
  dsimp only
  rw [if_neg (Nat.succ_ne_zero size), pattern, find_take_of_find marked]
  by_cases opened : front.length + (keyMark key ++ ['"']).length ≤ cut
  · rw [if_pos opened]
    dsimp only
    rw [drop_mark, find_take_of_find (find_letter clear), List.length_singleton]
    by_cases closed : front.length + (keyMark key ++ ['"']).length + content.length + 1 ≤ cut
    · rw [if_pos closed, if_pos (by omega)]
      dsimp only
      rw [List.take_take, List.take_append_of_le_length (by omega), Nat.add_sub_cancel]
      congr 1
      by_cases fits : size ≤ content.length
      · congr 1
        omega
      · rw [List.take_of_length_le, List.take_of_length_le] <;> omega
    · rw [if_neg closed, if_neg (by omega)]
  · rw [if_neg opened, if_neg (by omega)]

/-- What stands behind a number ends it, also when it is cut. -/
theorem stops_number {stop : Char} (ends : stop = ',' ∨ stop = '}') (count : ℕ) :
    ∀ c ∈ (cString ((stop :: rest).take count)).head?,
      c.isDigit = false ∧ isSpace c = false ∧ c ≠ '-' ∧ c ≠ '+' := by
  intro c member
  rw [cString, List.head?_takeWhile, List.head?_take] at member
  have isStop : c = stop := by
    cases count with
    | zero => cases member
    | succ count => exact (Option.some.inj (Option.filter_eq_some_iff.mp member).1).symm
  rcases ends with rfl | rfl
  · exact isStop ▸ by decide
  · exact isStop ▸ by decide

/-- The digits of a number that stand in front of a cut. -/
theorem take_before_cut (start cut : ℕ) :
    digits.take (cut - start) = digits.take (digits.length - (start + digits.length - cut)) := by
  by_cases whole : start + digits.length ≤ cut
  · rw [List.take_of_length_le, List.take_of_length_le] <;> omega
  · congr 1
    omega

theorem extractJsonUint_marked {n : ℕ} (fits : n < 2 ^ 64) {stop : Char}
    (ends : stop = ',' ∨ stop = '}')
    (marked : find (keyMark key)
      (front ++ (keyMark key ++ (Nat.toDigits 10 n ++ stop :: rest))) = some front.length)
    (cut : ℕ) :
    extractJsonUint ((front ++ (keyMark key ++ (Nat.toDigits 10 n ++ stop :: rest))).take cut)
        key =
      UInt64.ofNat (n / 10 ^ (front.length + (keyMark key).length +
        (Nat.toDigits 10 n).length - cut)) := by
  have all : ∀ c ∈ Nat.toDigits 10 n, c.isDigit = true := fun c member =>
    Nat.isDigit_of_mem_toDigits (by decide) (by decide) member
  set lost := front.length + (keyMark key).length + (Nat.toDigits 10 n).length - cut with lost_def
  have read := ofDigitChars_take_toDigits n lost
  have pattern : '"' :: (key ++ ['"', ':']) = keyMark key := rfl
  unfold extractJsonUint
  dsimp only
  rw [pattern, find_take_of_find marked]
  by_cases opened : front.length + (keyMark key).length ≤ cut
  · rw [if_pos opened]
    dsimp only
    have shown : ∀ c ∈ (Nat.toDigits 10 n).take ((Nat.toDigits 10 n).length - lost),
        c.isDigit = true := fun c member => all c (List.mem_of_mem_take member)
    have noNul : Char.ofNat 0 ∉ (Nat.toDigits 10 n).take ((Nat.toDigits 10 n).length - lost) :=
      fun member => absurd (shown _ member) (by decide)
    have below : n / 10 ^ lost < 2 ^ 64 := lt_of_le_of_lt (Nat.div_le_self n _) fits
    rw [drop_mark, List.take_append, take_before_cut, cString_append noNul,
      strtoull_digits shown (stops_number ends _) (read.symm ▸ below), read]
  · rw [if_neg opened]
    dsimp only
    have none : (Nat.toDigits 10 n).length - lost = 0 := by omega
    rw [none] at read
    rw [← read]
    rfl

end Marked

/-! ## Reading one field -/

section Reading

variable {fields : List Field} {key content : PlainText}

theorem extractJsonString_take (distinct : (fields.map Field.key).Nodup)
    (member : ⟨key, .text content⟩ ∈ fields) (proper : ProperKey key) (size cut : ℕ) :
    extractJsonString ((renderObject fields).take cut) key.letters (size + 1) =
      if valueEnd key fields ≤ cut then some (content.letters.take size) else none := by
  obtain ⟨before, after, rfl, fresh⟩ := exists_split distinct member
  obtain ⟨stop, rest, -, text⟩ := renderObject_split before after ⟨key, .text content⟩
  have shape : renderObject (before ++ ⟨key, .text content⟩ :: after) =
      ('{' :: renderBefore before) ++
        ((keyMark key.letters ++ ['"']) ++ (content.letters ++ '"' :: (stop :: rest))) := by
    rw [text]
    simp [Field.render, Value.render]
  have ends : valueEnd key (before ++ ⟨key, .text content⟩ :: after) =
      ('{' :: renderBefore before).length + (keyMark key.letters ++ ['"']).length +
        content.letters.length + 1 := by
    rw [valueEnd_split fresh]
    simp only [Field.render, Value.render, List.length_append, List.length_cons, List.length_nil]
    omega
  rw [shape, ends]
  exact extractJsonString_marked content.quote_notMem (find_keyMark proper fresh _) size cut

theorem extractJsonUint_take {n : ℕ} (fits : n < 2 ^ 64)
    (distinct : (fields.map Field.key).Nodup) (member : ⟨key, .unsigned n⟩ ∈ fields)
    (proper : ProperKey key) (cut : ℕ) :
    extractJsonUint ((renderObject fields).take cut) key.letters =
      UInt64.ofNat (n / 10 ^ (valueEnd key fields - cut)) := by
  obtain ⟨before, after, rfl, fresh⟩ := exists_split distinct member
  obtain ⟨stop, rest, stops, text⟩ := renderObject_split before after ⟨key, .unsigned n⟩
  have shape : renderObject (before ++ ⟨key, .unsigned n⟩ :: after) =
      ('{' :: renderBefore before) ++
        (keyMark key.letters ++ (Nat.toDigits 10 n ++ stop :: rest)) := by
    rw [text]
    simp [Field.render, Value.render]
  have ends : valueEnd key (before ++ ⟨key, .unsigned n⟩ :: after) =
      ('{' :: renderBefore before).length + (keyMark key.letters).length +
        (Nat.toDigits 10 n).length := by
    rw [valueEnd_split fresh]
    simp only [Field.render, Value.render, List.length_append]
    omega
  have marked : find (keyMark key.letters ++ []) _ = _ :=
    find_keyMark proper fresh (Nat.toDigits 10 n ++ stop :: rest)
  rw [List.append_nil] at marked
  rw [shape, ends]
  exact extractJsonUint_marked fits stops marked cut

end Reading

/-! ## The message -/

def symbolKey : PlainText := .of ['s'] (by decide)
def priceKey : PlainText := .of ['p'] (by decide)
def quantityKey : PlainText := .of ['q'] (by decide)
def tradeIdKey : PlainText := .of ['t'] (by decide)
def tradeTimeKey : PlainText := .of ['T'] (by decide)

/-- A flat object that carries a trade. -/
structure TradeMessage where
  fields : List Field
  distinct : (fields.map Field.key).Nodup
  symbol : PlainText
  price : PlainText
  quantity : PlainText
  tradeId : UInt64
  tradeTime : UInt64
  symbol_mem : ⟨symbolKey, .text symbol⟩ ∈ fields
  price_mem : ⟨priceKey, .text price⟩ ∈ fields
  quantity_mem : ⟨quantityKey, .text quantity⟩ ∈ fields
  tradeId_mem : ⟨tradeIdKey, .unsigned tradeId.toNat⟩ ∈ fields
  tradeTime_mem : ⟨tradeTimeKey, .unsigned tradeTime.toNat⟩ ∈ fields

namespace TradeMessage

variable (message : TradeMessage)

/-- The bytes of the message. -/
def text : List Char := renderObject message.fields

/-- The number of bytes up to the end of the value of a key. -/
def endOf (key : PlainText) : ℕ := valueEnd key message.fields

end TradeMessage

/-- What `strtod` is given of a string value: its first 63 bytes. -/
def numberText (content : PlainText) : String := String.ofList (content.letters.take 63)

/-- What a packet has room for of a symbol: its first 15 bytes. -/
def symbolText (content : PlainText) : String := String.ofList (content.letters.take 15)

section Packet

variable (strtod : String → ℚ) (now : UInt64) (message : TradeMessage) (cut : ℕ)

theorem cString_take (content : PlainText) (size : ℕ) :
    cString (content.letters.take size) = content.letters.take size := by
  have clear : Char.ofNat 0 ∉ content.letters.take size :=
    fun member => content.nul_notMem (List.mem_of_mem_take member)
  have whole : cString (content.letters.take size ++ []) = _ := cString_append clear
  rw [List.append_nil] at whole
  exact whole.trans (List.append_nil _)

theorem extractJsonDoubleString_take {key content : PlainText} (proper : ProperKey key)
    (member : ⟨key, .text content⟩ ∈ message.fields) :
    extractJsonDoubleString strtod (message.text.take cut) key.letters =
      if message.endOf key ≤ cut then strtod (numberText content) else 0 := by
  unfold extractJsonDoubleString
  rw [TradeMessage.text, extractJsonString_take message.distinct member proper 63 cut]
  by_cases shown : valueEnd key message.fields ≤ cut
  · rw [if_pos shown, TradeMessage.endOf, if_pos shown]
    dsimp only
    rw [cString_take]
    rfl
  · rw [if_neg shown, TradeMessage.endOf, if_neg shown]

/-- The packet that is built from the first bytes of a message. -/
theorem buildPacket_take :
    buildPacket strtod now (message.text.take cut) =
      { symbol := if message.endOf symbolKey ≤ cut then symbolText message.symbol else ""
        price := if message.endOf priceKey ≤ cut then
          strtod (numberText message.price) else 0
        volume := if message.endOf quantityKey ≤ cut then
          strtod (numberText message.quantity) else 0
        tradeId := UInt64.ofNat (message.tradeId.toNat / 10 ^ (message.endOf tradeIdKey - cut))
        exchangeTsNs :=
          UInt64.ofNat (message.tradeTime.toNat / 10 ^ (message.endOf tradeTimeKey - cut)) * 1000000
        ingestTsNs := now } := by
  have price : extractJsonDoubleString strtod (message.text.take cut) ['p'] = _ :=
    extractJsonDoubleString_take strtod message cut ⟨by decide, by decide⟩ message.price_mem
  have quantity : extractJsonDoubleString strtod (message.text.take cut) ['q'] = _ :=
    extractJsonDoubleString_take strtod message cut ⟨by decide, by decide⟩ message.quantity_mem
  have tradeId : extractJsonUint (message.text.take cut) ['t'] =
      UInt64.ofNat (message.tradeId.toNat / 10 ^ (message.endOf tradeIdKey - cut)) :=
    extractJsonUint_take message.tradeId.toNat_lt message.distinct message.tradeId_mem
      ⟨by decide, by decide⟩ cut
  have tradeTime : extractJsonUint (message.text.take cut) ['T'] =
      UInt64.ofNat (message.tradeTime.toNat / 10 ^ (message.endOf tradeTimeKey - cut)) :=
    extractJsonUint_take message.tradeTime.toNat_lt message.distinct message.tradeTime_mem
      ⟨by decide, by decide⟩ cut
  have symbol : extractJsonString (message.text.take cut) ['s'] 16 =
      if message.endOf symbolKey ≤ cut then some (message.symbol.letters.take 15) else none :=
    extractJsonString_take message.distinct message.symbol_mem ⟨by decide, by decide⟩ 15 cut
  have symbolRead :
      String.ofList ((cString ((extractJsonString (message.text.take cut) ['s'] 16).getD [])).take
        15) = if message.endOf symbolKey ≤ cut then symbolText message.symbol else "" := by
    rw [symbol]
    by_cases shown : message.endOf symbolKey ≤ cut
    · rw [if_pos shown, if_pos shown, Option.getD_some, cString_take, List.take_take]
      rfl
    · rw [if_neg shown, if_neg shown]
      rfl
  unfold buildPacket
  rw [symbolRead, price, quantity, tradeId, tradeTime]

/-- The packet that is built from a whole message. -/
theorem buildPacket_whole :
    buildPacket strtod now message.text =
      { symbol := symbolText message.symbol
        price := strtod (numberText message.price)
        volume := strtod (numberText message.quantity)
        tradeId := message.tradeId
        exchangeTsNs := message.tradeTime * 1000000
        ingestTsNs := now } := by
  have ends : ∀ {key : PlainText} {value : Value}, ⟨key, value⟩ ∈ message.fields →
      message.endOf key ≤ message.text.length :=
    fun member => (valueEnd_lt message.distinct member).le
  have whole := buildPacket_take strtod now message message.text.length
  rw [List.take_length, if_pos (ends message.symbol_mem), if_pos (ends message.price_mem),
    if_pos (ends message.quantity_mem), Nat.sub_eq_zero_of_le (ends message.tradeId_mem),
    Nat.sub_eq_zero_of_le (ends message.tradeTime_mem), Nat.pow_zero, Nat.div_one, Nat.div_one,
    UInt64.ofNat_toNat, UInt64.ofNat_toNat] at whole
  exact whole

/-- A whole message is read exactly: every field of the packet comes from the value of its
own key, wherever the key stands and whatever the other fields hold. -/
theorem buildPacket_exact :
    (buildPacket strtod now message.text).symbol = symbolText message.symbol ∧
    (buildPacket strtod now message.text).price = strtod (numberText message.price) ∧
    (buildPacket strtod now message.text).volume = strtod (numberText message.quantity) ∧
    (buildPacket strtod now message.text).tradeId = message.tradeId ∧
    (buildPacket strtod now message.text).exchangeTsNs.toNat =
      message.tradeTime.toNat * 10 ^ 6 % 2 ^ 64 := by
  rw [buildPacket_whole]
  exact ⟨rfl, rfl, rfl, rfl, UInt64.toNat_mul message.tradeTime 1000000⟩

end Packet

end PrismPipeline.Feed
