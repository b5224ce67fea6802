import PrismPipeline.Live.Engine
import PrismPipeline.Text.Find

/-!
# The feed's message handler

`handle_message` reads five fields out of the bytes of a received message by searching
for their keys, and passes the packet to the trade queue.  A byte is a `Char` and a
buffer holds the bytes up to its closing NUL.  What the queue and the `running` flag
answer while the handler retries comes from the other threads and is given.
-/

namespace PrismPipeline.Feed

open PrismPipeline.Text PrismPipeline.Live

/-! ## Extraction -/

/-- A NUL ends a C string. -/
def cString (bytes : List Char) : List Char := bytes.takeWhile (· ≠ Char.ofNat 0)

/-- The bytes put into a buffer of `outSize` bytes in front of the NUL, or `none` where the
source leaves the buffer alone and returns false. -/
def extractJsonString (data key : List Char) (outSize : ℕ) : Option (List Char) :=
  if outSize = 0 then none
  else
    let pattern := '"' :: (key ++ ['"', ':', '"'])
    match find pattern data with
    | none => none
    | some pos =>
        let start := pos + pattern.length
        match find ['"'] (data.drop start) with
        | none => none
        | some length => some ((data.drop start).take (min (outSize - 1) length))

/-- `strtod` is the library's function, whatever numbers it gives.  The handler compares
them with zero and does nothing else with them. -/
def extractJsonDoubleString (strtod : String → ℚ) (data key : List Char) : ℚ :=
  match extractJsonString data key 64 with
  | none => 0
  | some tmp => strtod (String.ofList (cString tmp))

def extractJsonUint (data key : List Char) : UInt64 :=
  let pattern := '"' :: (key ++ ['"', ':'])
  match find pattern data with
  | none => 0
  | some pos => strtoull (String.ofList (cString (data.drop (pos + pattern.length))))

/-! ## The handler -/

/-- The packet `handle_message` builds: the symbol goes through a buffer of 16 bytes, and
at most 15 of them are copied. -/
def buildPacket (strtod : String → ℚ) (now : UInt64) (data : List Char) : TradePacket where
  symbol := String.ofList ((cString ((extractJsonString data ['s'] 16).getD [])).take 15)
  price := extractJsonDoubleString strtod data ['p']
  volume := extractJsonDoubleString strtod data ['q']
  tradeId := extractJsonUint data ['t']
  exchangeTsNs := extractJsonUint data ['T'] * 1000000
  ingestTsNs := now

/-- What the queue answers to the attempts to push one packet, and the `running` flag as
it is read after a failed one. -/
structure QueueAnswers where
  push : ℕ → Bool
  running : ℕ → Bool

inductive PushOutcome where
  | enqueued
  | dropped
  | abandoned
  deriving DecidableEq

def maxRetries : ℕ := 10000

/-- The retry loop, after `retryCount` failed attempts. -/
def pushLoop (answers : QueueAnswers) (retryCount : ℕ) : PushOutcome :=
  if answers.push retryCount then .enqueued
  else if ¬ answers.running retryCount then .abandoned
  else if maxRetries ≤ retryCount + 1 then .dropped
  else pushLoop answers (retryCount + 1)
termination_by maxRetries - retryCount

/-- The client's counters and the packets it has put into the trade queue. -/
structure FeedState where
  received : UInt64 := 0
  dropped : UInt64 := 0
  enqueued : List TradePacket := []

/-- The packets the handler refuses. -/
def Refused (packet : TradePacket) : Prop :=
  packet.price ≤ 0 ∨ packet.volume ≤ 0 ∨ packet.symbol = ""

instance (packet : TradePacket) : Decidable (Refused packet) :=
  inferInstanceAs (Decidable (_ ∨ _ ∨ _))

def FeedState.handleMessage (strtod : String → ℚ) (now : UInt64) (answers : QueueAnswers)
    (feed : FeedState) (data : List Char) : FeedState :=
  let packet := buildPacket strtod now data
  if Refused packet then { feed with dropped := feed.dropped + 1 }
  else
    match pushLoop answers 0 with
    | .enqueued =>
        { feed with received := feed.received + 1, enqueued := feed.enqueued ++ [packet] }
    | .dropped => { feed with dropped := feed.dropped + 1 }
    | .abandoned => feed

/-! ## The retry loop -/

namespace QueueAnswers

variable (answers : QueueAnswers)

/-- Before attempt `i` the queue was full and the program kept running. -/
def FullBefore (i : ℕ) : Prop := ∀ j < i, answers.push j = false ∧ answers.running j = true

/-- An attempt succeeds before the handler gives up. -/
def Accepts : Prop := ∃ i < maxRetries, answers.FullBefore i ∧ answers.push i = true

/-- The queue stays full for as long as the handler tries. -/
def StaysFull : Prop := answers.FullBefore maxRetries

/-- The program stops while the handler is still trying. -/
def StopsFirst : Prop :=
  ∃ i < maxRetries, answers.FullBefore i ∧ answers.push i = false ∧ answers.running i = false

variable {answers}

theorem FullBefore.succ {i : ℕ} (full : answers.FullBefore i) (push : answers.push i = false)
    (running : answers.running i = true) : answers.FullBefore (i + 1) := by
  intro j below
  rcases Nat.lt_succ_iff_lt_or_eq.mp below with earlier | rfl
  · exact full j earlier
  · exact ⟨push, running⟩

theorem Accepts.not_staysFull (accepts : answers.Accepts) : ¬ answers.StaysFull := by
  intro full
  obtain ⟨i, below, _, push⟩ := accepts
  exact Bool.false_ne_true ((full i below).1.symm.trans push)

theorem StopsFirst.not_staysFull (stops : answers.StopsFirst) : ¬ answers.StaysFull := by
  intro full
  obtain ⟨i, below, _, _, running⟩ := stops
  exact Bool.false_ne_true (running.symm.trans (full i below).2)

theorem StopsFirst.not_accepts (stops : answers.StopsFirst) : ¬ answers.Accepts := by
  rintro ⟨i, _, fullBefore, push⟩
  obtain ⟨j, _, fullBefore', push', running⟩ := stops
  rcases Nat.lt_trichotomy i j with less | rfl | more
  · exact Bool.false_ne_true ((fullBefore' i less).1.symm.trans push)
  · exact Bool.false_ne_true (push'.symm.trans push)
  · exact Bool.false_ne_true (running.symm.trans (fullBefore j more).2)

/-- What an outcome of the loop says about the answers. -/
def Explains (answers : QueueAnswers) : PushOutcome → Prop
  | .enqueued => answers.Accepts
  | .dropped => answers.StaysFull
  | .abandoned => answers.StopsFirst

theorem pushLoop_explains {retryCount : ℕ} (below : retryCount < maxRetries)
    (full : answers.FullBefore retryCount) :
    answers.Explains (pushLoop answers retryCount) := by
  fun_induction pushLoop answers retryCount with
  | case1 retryCount push => exact ⟨retryCount, below, full, push⟩
  | case2 retryCount push running =>
      exact ⟨retryCount, below, full, eq_false_of_ne_true push, eq_false_of_ne_true running⟩
  | case3 retryCount push running last =>
      have fullAfter := full.succ (eq_false_of_ne_true push) (not_not.mp running)
      intro j belowMax
      exact fullAfter j (lt_of_lt_of_le belowMax last)
  | case4 retryCount push running more ih =>
      exact ih (by omega) (full.succ (eq_false_of_ne_true push) (not_not.mp running))

theorem explains_pushLoop (answers : QueueAnswers) :
    answers.Explains (pushLoop answers 0) :=
  pushLoop_explains (by decide) fun j below => absurd below (Nat.not_lt_zero j)

/-- The answers allow one outcome only. -/
theorem Explains.unique {first second : PushOutcome} (one : answers.Explains first)
    (other : answers.Explains second) : first = second := by
  cases first with
  | enqueued =>
      cases second with
      | enqueued => rfl
      | dropped => exact absurd other one.not_staysFull
      | abandoned => exact absurd one other.not_accepts
  | dropped =>
      cases second with
      | enqueued => exact absurd one other.not_staysFull
      | dropped => rfl
      | abandoned => exact absurd one other.not_staysFull
  | abandoned =>
      cases second with
      | enqueued => exact absurd other one.not_accepts
      | dropped => exact absurd other one.not_staysFull
      | abandoned => rfl

/-- The loop ends the way the answers say. -/
theorem pushLoop_eq_iff {outcome : PushOutcome} :
    pushLoop answers 0 = outcome ↔ answers.Explains outcome := by
  have explains := explains_pushLoop answers
  constructor
  · intro same
    exact same ▸ explains
  · intro explained
    exact explains.unique explained

end QueueAnswers

end PrismPipeline.Feed
