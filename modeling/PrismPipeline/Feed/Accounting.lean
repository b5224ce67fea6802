import PrismPipeline.Feed.CutOff
import PrismPipeline.Machine.Mealy

/-!
# What the feed counts

The handler leaves a message in one of four ways.  A refused packet and one that found
the queue full to the end are counted as dropped, an accepted one as received.  The
fourth way out, when the program stops while the handler still retries, counts nothing.
The counters are words, so totals are compared as words.
-/

namespace PrismPipeline.Feed

open PrismPipeline.Machine PrismPipeline.Live

/-- A message as the handler meets it: its bytes, the time, and the answers of the
queue and of the `running` flag. -/
structure Arrival where
  now : UInt64
  answers : QueueAnswers
  data : List Char

section Feed

variable (strtod : String → ℚ)

/-- The client as a machine fed with messages; a call returns nothing. -/
def feedMachine : Mealy FeedState Arrival Unit where
  step feed arrival := feed.handleMessage strtod arrival.now arrival.answers arrival.data
  output _ _ := ()

/-- A fresh client after a sequence of messages. -/
def feedAfter (arrivals : List Arrival) : FeedState := (feedMachine strtod).after {} arrivals

def Arrival.packet (arrival : Arrival) : TradePacket :=
  buildPacket strtod arrival.now arrival.data

/-- The packet passes the validation, and the program stops before the queue has taken
it or the attempts are used up. -/
def Arrival.Abandoned (arrival : Arrival) : Prop :=
  ¬ Refused (arrival.packet strtod) ∧ arrival.answers.StopsFirst

end Feed

/-- One message is counted once: as received if its packet was enqueued, and as dropped
if it was not. -/
inductive CountsOnce (feed : FeedState) (packet : TradePacket) : FeedState → Prop where
  | received : CountsOnce feed packet
      { feed with received := feed.received + 1, enqueued := feed.enqueued ++ [packet] }
  | dropped : CountsOnce feed packet { feed with dropped := feed.dropped + 1 }

/-- The totals after a number of messages. -/
structure Accounted (handled : ℕ) (feed : FeedState) : Prop where
  total : feed.received + feed.dropped = .ofNat handled
  enqueued : feed.received = .ofNat feed.enqueued.length

/-- Every message of the sequence is counted once, and the totals are right after it. -/
def FeedAccounting (strtod : String → ℚ) (arrivals : List Arrival) : Prop :=
  ∀ earlier arrival, earlier ++ [arrival] <+: arrivals →
    CountsOnce (feedAfter strtod earlier) (arrival.packet strtod)
        (feedAfter strtod (earlier ++ [arrival])) ∧
      Accounted (earlier.length + 1) (feedAfter strtod (earlier ++ [arrival]))

section Step

variable {strtod : String → ℚ} {feed : FeedState} {packet : TradePacket}

/-- An abandoned message leaves the counters as they were. -/
theorem not_countsOnce_same : ¬ CountsOnce feed packet feed := by
  intro counts
  have counted : ∀ after, CountsOnce feed packet after →
      after.received = feed.received + 1 ∨ after.dropped = feed.dropped + 1 := by
    intro after counts
    cases counts with
    | received => exact Or.inl rfl
    | dropped => exact Or.inr rfl
  rcases counted feed counts with received | dropped
  · exact absurd received (by simp)
  · exact absurd dropped (by simp)

theorem handleMessage_countsOnce_iff (arrival : Arrival) :
    CountsOnce feed (arrival.packet strtod)
        (feed.handleMessage strtod arrival.now arrival.answers arrival.data) ↔
      ¬ arrival.Abandoned strtod := by
  by_cases refused : Refused (arrival.packet strtod)
  · rw [handleMessage_refused refused]
    exact iff_of_true .dropped fun abandoned => abandoned.1 refused
  · have explains := arrival.answers.explains_pushLoop
    rw [handleMessage_passed refused]
    generalize pushLoop arrival.answers 0 = outcome at *
    cases outcome with
    | enqueued =>
        exact iff_of_true .received fun abandoned => abandoned.2.not_accepts explains
    | dropped =>
        exact iff_of_true .dropped fun abandoned => abandoned.2.not_staysFull explains
    | abandoned =>
        exact iff_of_false not_countsOnce_same fun counted => counted ⟨refused, explains⟩

/-- One more message counted keeps the totals right. -/
theorem Accounted.step {handled : ℕ} {after : FeedState} (accounted : Accounted handled feed)
    (counts : CountsOnce feed packet after) : Accounted (handled + 1) after := by
  obtain ⟨total, enqueued⟩ := accounted
  have next (n : ℕ) : UInt64.ofNat (n + 1) = UInt64.ofNat n + 1 := UInt64.ofNat_add n 1
  cases counts with
  | received =>
      constructor
      · change feed.received + 1 + feed.dropped = _
        rw [next, ← total]
        ac_rfl
      · change feed.received + 1 = .ofNat (feed.enqueued ++ [packet]).length
        rw [List.length_append, List.length_singleton, next, enqueued]
  | dropped =>
      constructor
      · change feed.received + (feed.dropped + 1) = _
        rw [next, ← total]
        ac_rfl
      · exact enqueued

end Step

section Run

variable {strtod : String → ℚ}

theorem feedAfter_snoc (arrivals : List Arrival) (arrival : Arrival) :
    feedAfter strtod (arrivals ++ [arrival]) =
      (feedAfter strtod arrivals).handleMessage strtod arrival.now arrival.answers arrival.data :=
  (feedMachine strtod).after_snoc {} arrivals arrival

/-- As long as no message is abandoned the totals are right. -/
theorem feedAfter_accounted {arrivals : List Arrival}
    (kept : ∀ arrival ∈ arrivals, ¬ arrival.Abandoned strtod) :
    Accounted arrivals.length (feedAfter strtod arrivals) := by
  induction arrivals using List.reverseRecOn with
  | nil => exact ⟨rfl, rfl⟩
  | append_singleton earlier last ih =>
      have before := ih fun arrival member => kept arrival (List.mem_append_left _ member)
      have counts : CountsOnce (feedAfter strtod earlier) (last.packet strtod)
          ((feedAfter strtod earlier).handleMessage strtod last.now last.answers last.data) :=
        (handleMessage_countsOnce_iff last).mpr
          (kept last (List.mem_append_right _ List.mem_cons_self))
      rw [← feedAfter_snoc] at counts
      rw [List.length_append, List.length_singleton]
      exact before.step counts

/-- A message that is abandoned is not counted. -/
theorem Arrival.Abandoned.breaks {earlier later : List Arrival} {arrival : Arrival}
    (abandoned : arrival.Abandoned strtod) :
    ¬ FeedAccounting strtod (earlier ++ arrival :: later) := by
  intro accounting
  have isPrefix : earlier ++ [arrival] <+: earlier ++ arrival :: later := ⟨later, by simp⟩
  have counts := (accounting earlier arrival isPrefix).1
  rw [feedAfter_snoc] at counts
  exact (handleMessage_countsOnce_iff arrival).mp counts abandoned

end Run

/-- The accounting of a sequence of messages is right exactly when the handler abandons
none of them. -/
theorem feedAccounting_iff (strtod : String → ℚ) (arrivals : List Arrival) :
    FeedAccounting strtod arrivals ↔ ∀ arrival ∈ arrivals, ¬ arrival.Abandoned strtod := by
  constructor
  · intro accounting arrival member abandoned
    obtain ⟨earlier, later, rfl⟩ := List.append_of_mem member
    exact abandoned.breaks accounting
  · intro kept earlier arrival isPrefix
    have keptNow : ∀ a ∈ earlier ++ [arrival], ¬ a.Abandoned strtod :=
      fun a member => kept a (isPrefix.subset member)
    constructor
    · rw [feedAfter_snoc]
      exact (handleMessage_countsOnce_iff arrival).mpr
        (keptNow arrival (List.mem_append_right _ List.mem_cons_self))
    · have totals := feedAfter_accounted keptNow
      rwa [List.length_append, List.length_singleton] at totals

/-- The trade of `sampleMessage` meets a full queue, and the program has stopped. -/
def stoppedArrival : Arrival := ⟨0, ⟨fun _ => false, fun _ => false⟩, sampleMessage.text⟩

theorem stoppedArrival_passed : ¬ Refused (stoppedArrival.packet digitsToNumber) := by
  obtain ⟨price, quantity, symbol⟩ := sampleMessage_tradable
  have packet : stoppedArrival.packet digitsToNumber =
    buildPacket digitsToNumber 0 sampleMessage.text := rfl
  rw [packet, buildPacket_whole]
  rintro (low | low | empty)
  · exact absurd price (not_lt.mpr low)
  · exact absurd quantity (not_lt.mpr low)
  · exact symbol empty

theorem stoppedArrival_stops : stoppedArrival.answers.StopsFirst :=
  ⟨0, by decide, fun j below => absurd below (Nat.not_lt_zero j), rfl, rfl⟩

/-- It is counted neither as received nor as dropped. -/
theorem stoppedArrival_uncounted : ¬ FeedAccounting digitsToNumber [stoppedArrival] := by
  have abandoned : stoppedArrival.Abandoned digitsToNumber :=
    ⟨stoppedArrival_passed, stoppedArrival_stops⟩
  have alone : [stoppedArrival] = [] ++ stoppedArrival :: [] := rfl
  rw [alone]
  exact abandoned.breaks

end PrismPipeline.Feed
