import PrismPipeline.Program.LiveProgram

/-!
# The threads against the handler and the engine

In every interleaving the feed thread has done what `handle_message` does to the messages
one after the other, for some answers of the queue, and the engine thread has done what
the engine and the manager do to the packets one after the other.  Between the two every
packet is in exactly one place.
-/

namespace PrismPipeline.Program

open PrismPipeline.Machine PrismPipeline.Queue PrismPipeline.Live PrismPipeline.Feed

/-! ## Messages and arrivals -/

def Message.arrival (m : Message) (answers : QueueAnswers) : Arrival := ⟨m.now, answers, m.data⟩

/-- The message an arrival is about. -/
def messageOf (arrival : Arrival) : Message := ⟨arrival.now, arrival.data⟩

/-- The same answers at every attempt. -/
def sameAnswers (push running : Bool) : QueueAnswers := ⟨fun _ => push, fun _ => running⟩

theorem sameAnswers_accepts (running : Bool) : (sameAnswers true running).Accepts :=
  ⟨0, by decide, fun j below => absurd below (Nat.not_lt_zero j), rfl⟩

theorem sameAnswers_staysFull : (sameAnswers false true).StaysFull :=
  fun _ _ => ⟨rfl, rfl⟩

theorem sameAnswers_stopsFirst : (sameAnswers false false).StopsFirst :=
  ⟨0, by decide, fun j below => absurd below (Nat.not_lt_zero j), rfl, rfl⟩

section Message

variable {strtod : String → ℚ} (arrivals : List Arrival) (m : Message)

/-- The feed after a packet that the queue has taken. -/
theorem feedAfter_accepted (passed : ¬ Refused (m.packet strtod)) :
    feedAfter strtod (arrivals ++ [m.arrival (sameAnswers true true)]) =
      { feedAfter strtod arrivals with
        received := (feedAfter strtod arrivals).received + 1
        enqueued := (feedAfter strtod arrivals).enqueued ++ [m.packet strtod] } := by
  have taken : pushLoop (sameAnswers true true) 0 = .enqueued :=
    QueueAnswers.pushLoop_eq_iff.mpr (sameAnswers_accepts true)
  rw [feedAfter_snoc]
  refine (handleMessage_passed passed).trans ?_
  rw [show (m.arrival (sameAnswers true true)).answers = sameAnswers true true from rfl, taken]
  rfl

/-- The feed after a packet that was refused, by the handler or by a queue that stayed full. -/
theorem feedAfter_refused (strtod : String → ℚ) (arrivals : List Arrival) (m : Message) :
    feedAfter strtod (arrivals ++ [m.arrival (sameAnswers false true)]) =
      { feedAfter strtod arrivals with
        dropped := (feedAfter strtod arrivals).dropped + 1 } := by
  rw [feedAfter_snoc]
  by_cases refused : Refused (m.packet strtod)
  · exact handleMessage_refused refused
  · have full : pushLoop (sameAnswers false true) 0 = .dropped :=
      QueueAnswers.pushLoop_eq_iff.mpr sameAnswers_staysFull
    refine (handleMessage_passed refused).trans ?_
    rw [show (m.arrival (sameAnswers false true)).answers = sameAnswers false true from rfl, full]

/-- The feed after a packet that was given up because the program stops. -/
theorem feedAfter_abandoned (passed : ¬ Refused (m.packet strtod)) :
    feedAfter strtod (arrivals ++ [m.arrival (sameAnswers false false)]) =
      feedAfter strtod arrivals := by
  have stopped : pushLoop (sameAnswers false false) 0 = .abandoned :=
    QueueAnswers.pushLoop_eq_iff.mpr sameAnswers_stopsFirst
  rw [feedAfter_snoc]
  refine (handleMessage_passed passed).trans ?_
  rw [show (m.arrival (sameAnswers false false)).answers = sameAnswers false false from rfl,
    stopped]

theorem accepted_not_abandoned :
    ¬ (m.arrival (sameAnswers true true)).Abandoned strtod :=
  fun abandoned => abandoned.2.not_accepts (sameAnswers_accepts true)

theorem refused_not_abandoned :
    ¬ (m.arrival (sameAnswers false true)).Abandoned strtod :=
  fun abandoned => abandoned.2.not_staysFull sameAnswers_staysFull

end Message

/-! ## The feed side -/

namespace FeedPc

/-- The message the handler is at work on. -/
def message? : FeedPc → Option Message
  | .calling m _ | .pushing m _ | .failed m _ | .accepted m | .refused m => some m
  | .loop | .connecting | .service | .exited => none

variable (strtod : String → ℚ)

/-- The packet that is in the queue and not yet counted as received. -/
def uncounted : FeedPc → List TradePacket
  | .accepted m => [m.packet strtod]
  | .loop | .connecting | .service | .calling _ _ | .pushing _ _ | .failed _ _ | .refused _
  | .exited => []

/-- What the locals of the handler are worth. -/
def Ok : FeedPc → Prop
  | .calling m retryCount | .pushing m retryCount | .failed m retryCount =>
      ¬ Refused (m.packet strtod) ∧ retryCount < maxRetries
  | .accepted m => ¬ Refused (m.packet strtod)
  | .loop | .connecting | .service | .refused _ | .exited => True

/-- The producer's side of the queue is in a call exactly while the handler is in `push`. -/
def PushSide (pc : FeedPc) (push : PushState TradePacket) : Prop :=
  match pc with
  | .pushing m _ => push.item? = some (m.packet strtod)
  | .loop | .connecting | .service | .calling _ _ | .failed _ _ | .accepted _ | .refused _
  | .exited => push = .idle

variable {strtod} {pc : FeedPc}

theorem uncounted_quiet (quiet : pc.message? = none) : pc.uncounted strtod = [] := by
  cases pc with
  | accepted m => cases quiet
  | _ => rfl

theorem ok_quiet (quiet : pc.message? = none) : pc.Ok strtod := by
  cases pc with
  | loop | connecting | service | exited => trivial
  | _ => cases quiet

theorem pushSide_quiet (quiet : pc.message? = none) {push : PushState TradePacket} :
    pc.PushSide strtod push ↔ push = .idle := by
  cases pc with
  | loop | connecting | service | exited => exact Iff.rfl
  | _ => cases quiet

end FeedPc

/-- The thread has handled these arrivals one after the other, and is at work on the next
message. -/
structure FeedRefines (strtod : String → ℚ) (running : Bool) (pushed : List TradePacket)
    (f : FeedThread) (arrivals : List Arrival) : Prop where
  messages : f.messages = arrivals.map messageOf ++ f.pc.message?.toList
  received : f.received = (feedAfter strtod arrivals).received
  dropped : f.dropped = (feedAfter strtod arrivals).dropped
  pushed : pushed = (feedAfter strtod arrivals).enqueued ++ f.pc.uncounted strtod
  kept : running = true → ∀ arrival ∈ arrivals, ¬ arrival.Abandoned strtod

structure FeedSide (strtod : String → ℚ) (running : Bool) (channel : Channel TradePacket)
    (f : FeedThread) : Prop where
  side : f.pc.PushSide strtod channel.queue.push
  ok : f.pc.Ok strtod
  refines : ∃ arrivals, FeedRefines strtod running channel.pushed f arrivals

section FeedSide

variable {k : ℕ} {strtod : String → ℚ} {running : Bool} {channel : Channel TradePacket}
  {f : FeedThread}

/-- Clearing the flag takes nothing back. -/
theorem FeedSide.interrupt (feed : FeedSide strtod running channel f) :
    FeedSide strtod false channel f := by
  obtain ⟨arrivals, refines⟩ := feed.refines
  refine ⟨feed.side, feed.ok, arrivals, ?_⟩
  exact { refines with kept := fun stopped => absurd stopped Bool.false_ne_true }

/-- The other side of the queue moves neither this side nor what was pushed. -/
theorem FeedSide.congr (feed : FeedSide strtod running channel f) {other : Channel TradePacket}
    (side : other.queue.push = channel.queue.push) (pushed : other.pushed = channel.pushed) :
    FeedSide strtod running other f := by
  obtain ⟨arrivals, refines⟩ := feed.refines
  refine ⟨side ▸ feed.side, feed.ok, arrivals, ?_⟩
  rw [pushed]
  exact refines

/-- A step that counts nothing and keeps the message at work. -/
theorem FeedRefines.moved {pushed : List TradePacket} {arrivals : List Arrival}
    (refines : FeedRefines strtod running pushed f arrivals) {g : FeedThread}
    (traces : g.messages = f.messages ∧ g.received = f.received ∧ g.dropped = f.dropped)
    (atWork : g.pc.message? = f.pc.message?)
    (uncounted : g.pc.uncounted strtod = f.pc.uncounted strtod) :
    FeedRefines strtod running pushed g arrivals where
  messages := by rw [traces.1, atWork]; exact refines.messages
  received := traces.2.1.trans refines.received
  dropped := traces.2.2.trans refines.dropped
  pushed := by rw [uncounted]; exact refines.pushed
  kept := refines.kept

/-- A step between two states without a message at work. -/
theorem FeedSide.quietly (feed : FeedSide strtod running channel f)
    (quiet : f.pc.message? = none) {g : FeedThread}
    (traces : g.messages = f.messages ∧ g.received = f.received ∧ g.dropped = f.dropped)
    (still : g.pc.message? = none) : FeedSide strtod running channel g := by
  obtain ⟨side, _, arrivals, refines⟩ := feed
  have idle := (FeedPc.pushSide_quiet quiet).mp side
  refine ⟨(FeedPc.pushSide_quiet still).mpr idle, FeedPc.ok_quiet still, arrivals, ?_⟩
  apply refines.moved traces (still.trans quiet.symm)
  rw [FeedPc.uncounted_quiet still, FeedPc.uncounted_quiet quiet]

/-- The handler returns: the message at work becomes one more arrival. -/
theorem FeedRefines.returned {before after : List TradePacket} {arrivals : List Arrival}
    (refines : FeedRefines strtod running before f arrivals) {m : Message}
    (atWork : f.pc.message? = some m) (answers : QueueAnswers) {g : FeedThread}
    (messages : g.messages = f.messages) (quiet : g.pc.message? = none)
    (received : g.received = (feedAfter strtod (arrivals ++ [m.arrival answers])).received)
    (dropped : g.dropped = (feedAfter strtod (arrivals ++ [m.arrival answers])).dropped)
    (pushed : after = (feedAfter strtod (arrivals ++ [m.arrival answers])).enqueued)
    (kept : running = true → ¬ (m.arrival answers).Abandoned strtod) :
    FeedRefines strtod running after g (arrivals ++ [m.arrival answers]) where
  messages := by
    rw [messages, refines.messages, atWork, quiet, List.map_append]
    exact (List.append_nil _).symm
  received := received
  dropped := dropped
  pushed := by
    rw [FeedPc.uncounted_quiet quiet, List.append_nil]
    exact pushed
  kept up arrival member := by
    rcases List.mem_append.mp member with earlier | last
    · exact refines.kept up arrival earlier
    · rw [List.mem_singleton.mp last]
      exact kept up

theorem FeedSide.onCallback (feed : FeedSide strtod running channel f) (callback : Callback) :
    FeedSide strtod running channel (f.onCallback strtod callback) := by
  unfold FeedThread.onCallback
  cases pc : f.pc with
  | service =>
      have quiet : f.pc.message? = none := by rw [pc]; rfl
      cases callback with
      | established => exact feed
      | other => exact feed
      | closed => exact feed.quietly quiet ⟨rfl, rfl, rfl⟩ rfl
      | receive m =>
          dsimp only
          by_cases empty : m.data = []
          · rw [if_pos empty]
            exact feed
          · rw [if_neg empty]
            obtain ⟨side, _, arrivals, refines⟩ := feed
            have idle := (FeedPc.pushSide_quiet quiet).mp side
            have messages : f.messages ++ [m] = arrivals.map messageOf ++ [m] := by
              rw [refines.messages, quiet, Option.toList_none, List.append_nil]
            have pushed := refines.pushed
            rw [FeedPc.uncounted_quiet quiet] at pushed
            by_cases refused : Refused (m.packet strtod)
            · rw [if_pos refused]
              exact ⟨idle, trivial, arrivals, messages, refines.received, refines.dropped,
                pushed, refines.kept⟩
            · rw [if_neg refused]
              exact ⟨idle, ⟨refused, by decide⟩, arrivals, messages, refines.received,
                refines.dropped, pushed, refines.kept⟩
  | _ => exact feed

theorem FeedSide.step (feed : FeedSide strtod running channel f) (created connected : Bool) :
    FeedSide strtod running (f.step k strtod running channel created connected).1
      (f.step k strtod running channel created connected).2 := by
  have ⟨side, ok, arrivals, refines⟩ := feed
  unfold FeedThread.step
  cases pc : f.pc with
  | loop =>
      refine feed.quietly (by rw [pc]; rfl) ⟨rfl, rfl, rfl⟩ ?_
      dsimp only
      split_ifs <;> rfl
  | connecting =>
      refine feed.quietly (by rw [pc]; rfl) ?_ ?_
      all_goals
        unfold FeedThread.connect
        dsimp only
        split_ifs
      all_goals first | rfl | exact ⟨rfl, rfl, rfl⟩
  | service => exact feed.quietly (by rw [pc]; rfl) ⟨rfl, rfl, rfl⟩ rfl
  | calling m retryCount =>
      have idle : channel.queue.push = .idle := by rwa [pc] at side
      rw [pc] at ok
      refine ⟨(callPush_push idle _).1, ok, arrivals, ?_⟩
      rw [Channel.record_none_pushed]
      refine refines.moved ⟨rfl, rfl, rfl⟩ ?_ ?_ <;> rw [pc] <;> rfl
  | pushing m retryCount =>
      have busy : channel.queue.push.item? = some (m.packet strtod) := by rwa [pc] at side
      have noCount : f.pc.uncounted strtod = [] := by rw [pc]; rfl
      have message : f.pc.message? = some m := by rw [pc]; rfl
      have effect := producerAccess_effect (k := k) busy
      rw [pc] at ok
      dsimp only
      generalize producerAccess k channel.queue = result at *
      obtain ⟨queue, returned⟩ := result
      cases effect with
      | inside same nearer =>
          refine ⟨same, ok, arrivals, ?_⟩
          rw [Channel.record_none_pushed]
          exact refines.moved ⟨rfl, rfl, rfl⟩ message.symm noCount.symm
      | full left =>
          refine ⟨left, ok, arrivals, ?_⟩
          rw [Channel.record_pushFull_pushed]
          exact refines.moved ⟨rfl, rfl, rfl⟩ message.symm noCount.symm
      | pushed left =>
          refine ⟨left, ok.1, arrivals, ?_⟩
          have pushed := refines.pushed
          rw [noCount, List.append_nil] at pushed
          rw [Channel.record_pushed_pushed, pushed]
          refine ⟨?_, refines.received, refines.dropped, rfl, refines.kept⟩
          rw [refines.messages, message]
          rfl
  | failed m retryCount =>
      have idle : channel.queue.push = .idle := by rwa [pc] at side
      have noCount : f.pc.uncounted strtod = [] := by rw [pc]; rfl
      have message : f.pc.message? = some m := by rw [pc]; rfl
      rw [pc] at ok
      cases running with
      | false =>
          have abandoned := feedAfter_abandoned arrivals m ok.1
          have pushed := refines.pushed
          rw [noCount, List.append_nil] at pushed
          refine ⟨idle, trivial, _, refines.returned message (sameAnswers false false) rfl rfl
            ?_ ?_ ?_ fun up => absurd up Bool.false_ne_true⟩
          · rw [abandoned]; exact refines.received
          · rw [abandoned]; exact refines.dropped
          · rw [abandoned]; exact pushed
      | true =>
          by_cases last : maxRetries ≤ retryCount + 1
          · dsimp only
            rw [if_pos rfl, if_pos last]
            exact ⟨idle, trivial, arrivals,
              refines.moved ⟨rfl, rfl, rfl⟩ message.symm noCount.symm⟩
          · dsimp only
            rw [if_pos rfl, if_neg last]
            exact ⟨idle, ⟨ok.1, Nat.lt_of_not_le last⟩, arrivals,
              refines.moved ⟨rfl, rfl, rfl⟩ message.symm noCount.symm⟩
  | accepted m =>
      have idle : channel.queue.push = .idle := by rwa [pc] at side
      have message : f.pc.message? = some m := by rw [pc]; rfl
      have pushed := refines.pushed
      rw [pc] at ok pushed
      have accepted := feedAfter_accepted arrivals m ok
      refine ⟨idle, trivial, _, refines.returned message (sameAnswers true true) rfl rfl
        ?_ ?_ ?_ fun _ => accepted_not_abandoned m⟩
      · rw [accepted]; exact congrArg (· + 1) refines.received
      · rw [accepted]; exact refines.dropped
      · rw [accepted]; exact pushed
  | refused m =>
      have idle : channel.queue.push = .idle := by rwa [pc] at side
      have message : f.pc.message? = some m := by rw [pc]; rfl
      have pushed := refines.pushed
      rw [pc] at pushed
      have refused := feedAfter_refused strtod arrivals m
      refine ⟨idle, trivial, _, refines.returned message (sameAnswers false true) rfl rfl
        ?_ ?_ ?_ fun _ => refused_not_abandoned m⟩
      · rw [refused]; exact refines.received
      · rw [refused]; exact congrArg (· + 1) refines.dropped
      · rw [refused]; exact pushed.trans (List.append_nil _)
  | exited => exact feed

end FeedSide

/-! ## The engine side -/

namespace EnginePc

/-- The packet that is out of the queue and not yet handled. -/
def inHand : EnginePc → List TradePacket
  | .handling p => [p]
  | .loop | .calling | .popping | .storing _ | .exited => []

/-- The consumer's side of the queue is in a call exactly while the thread is in `pop`. -/
def PopSide (pc : EnginePc) (pop : PopState TradePacket) : Prop :=
  match pc with
  | .popping => 0 < pop.remaining
  | .loop | .calling | .handling _ | .storing _ | .exited => pop = .idle

end EnginePc

/-- The thread has handled packets one after the other, and has what else was popped in
hand. -/
structure EngineSide (length : BarLength) (opened : Bool) (channel : Channel TradePacket)
    (e : EngineThread) : Prop where
  side : e.pc.PopSide channel.queue.pop
  live : e.live = liveAfter length opened e.handled
  popped : channel.popped = e.handled ++ e.pc.inHand

section EngineSide

variable {k : ℕ} {length : BarLength} {opened : Bool} {channel : Channel TradePacket}
  {e : EngineThread}

/-- The other side of the queue moves neither this side nor what was popped. -/
theorem EngineSide.congr (engine : EngineSide length opened channel e)
    {other : Channel TradePacket} (side : other.queue.pop = channel.queue.pop)
    (popped : other.popped = channel.popped) : EngineSide length opened other e where
  side := side ▸ engine.side
  live := engine.live
  popped := popped.trans engine.popped

theorem EngineSide.step (engine : EngineSide length opened channel e) (sound : channel.Sound k)
    (running : Bool) :
    EngineSide length opened (e.step k running channel).1 (e.step k running channel).2 := by
  have ⟨side, live, popped⟩ := engine
  unfold EngineThread.step
  cases pc : e.pc with
  | loop =>
      rw [pc] at side popped
      cases running with
      | false => exact ⟨side, live, popped⟩
      | true => exact ⟨side, live, popped⟩
  | calling =>
      rw [pc] at side popped
      refine ⟨?_, live, ?_⟩
      · change 0 < (callPop channel.queue).pop.remaining
        rw [callPop_pop side]
        decide
      · rw [Channel.record_none_popped]
        exact popped
  | popping =>
      rw [pc] at side popped
      have effect := consumerAccess_effect sound.invariant side
      dsimp only
      generalize consumerAccess k channel.queue = result at *
      obtain ⟨queue, returned⟩ := result
      cases effect with
      | inside busy nearer =>
          refine ⟨busy, live, ?_⟩
          rw [Channel.record_none_popped]
          exact popped
      | empty nothing left =>
          refine ⟨left, live, ?_⟩
          rw [Channel.record_popEmpty_popped]
          exact popped
      | popped item last left =>
          refine ⟨left, live, ?_⟩
          rw [Channel.record_popped_popped, popped]
          exact congrArg (· ++ [item]) (List.append_nil _)
  | handling p =>
      rw [pc] at side popped
      refine ⟨side, ?_, popped.trans (List.append_nil _).symm⟩
      dsimp only
      rw [liveAfter_snoc, live]
  | storing p =>
      rw [pc] at side popped
      exact ⟨side, live, popped⟩
  | exited => exact engine

end EngineSide

/-! ## What one thread does to the queue -/

section Channel

variable (k : ℕ) {channel : Channel TradePacket}

theorem feedStep_channel (strtod : String → ℚ) (f : FeedThread)
    (running created connected : Bool) (sound : channel.Sound k) :
    let after := (f.step k strtod running channel created connected).1
    after.Sound k ∧ after.queue.pop = channel.queue.pop ∧ after.popped = channel.popped := by
  unfold FeedThread.step
  cases f.pc with
  | calling m retryCount =>
      exact ⟨sound.access (.callPush _), callPush_pop _, channel.record_none_popped _⟩
  | pushing m retryCount =>
      exact ⟨sound.access .producer, producerAccess_pop, channel.record_producer_popped⟩
  | _ => exact ⟨sound, rfl, rfl⟩

theorem engineStep_channel (e : EngineThread) (running : Bool) (sound : channel.Sound k) :
    let after := (e.step k running channel).1
    after.Sound k ∧ after.queue.push = channel.queue.push ∧ after.pushed = channel.pushed := by
  unfold EngineThread.step
  cases e.pc with
  | calling => exact ⟨sound.access .callPop, callPop_push, channel.record_none_pushed _⟩
  | popping =>
      exact ⟨sound.access .consumer, consumerAccess_push, channel.record_consumer_pushed⟩
  | _ => exact ⟨sound, rfl, rfl⟩

end Channel

/-! ## What only grows -/

section Grows

variable {k : ℕ} {strtod : String → ℚ} {s : ProgramState}

/-- What was pushed stays pushed. -/
theorem act_pushed_grows (action : Action) :
    s.channel.pushed <+: (s.act k strtod action).channel.pushed := by
  cases action with
  | feed created connected =>
      change _ <+: (s.feed.step k strtod s.running s.channel created connected).1.pushed
      unfold FeedThread.step
      cases s.feed.pc with
      | calling m retryCount => exact s.channel.pushed_prefix_record _
      | pushing m retryCount => exact s.channel.pushed_prefix_record _
      | _ => exact List.prefix_refl _
  | engine =>
      change _ <+: (s.engine.step k s.running s.channel).1.pushed
      unfold EngineThread.step
      cases s.engine.pc with
      | calling => exact s.channel.pushed_prefix_record _
      | popping => exact s.channel.pushed_prefix_record _
      | _ => exact List.prefix_refl _
  | _ => exact List.prefix_refl _

/-- What was handled stays handled. -/
theorem act_handled_grows (action : Action) :
    s.engine.handled <+: (s.act k strtod action).engine.handled := by
  cases action with
  | engine =>
      simp only [ProgramState.act, EngineThread.step]
      cases s.engine.pc with
      | handling p => exact List.prefix_append _ _
      | _ => exact List.prefix_refl _
  | _ => exact List.prefix_refl _

end Grows

/-! ## Every interleaving -/

/-- What holds in every state of the program. -/
structure ProgramState.Coherent (k : ℕ) (strtod : String → ℚ) (length : BarLength)
    (opened : Bool) (s : ProgramState) : Prop where
  sound : s.channel.Sound k
  feed : FeedSide strtod s.running s.channel s.feed
  engine : EngineSide length opened s.channel s.engine

section Program

variable {k : ℕ} {strtod : String → ℚ} {buffer : ℕ → TradePacket} {length : BarLength}
  {opened : Bool}

theorem coherent_fresh :
    (ProgramState.fresh buffer length opened).Coherent k strtod length opened where
  sound := Channel.fresh_sound k buffer
  feed := ⟨rfl, trivial, [], rfl, rfl, rfl, rfl, fun _ _ member => nomatch member⟩
  engine := ⟨rfl, rfl, rfl⟩

theorem ProgramState.Coherent.act {s : ProgramState}
    (coherent : s.Coherent k strtod length opened) (action : Action) :
    (s.act k strtod action).Coherent k strtod length opened := by
  obtain ⟨sound, feed, engine⟩ := coherent
  cases action with
  | interrupt => exact ⟨sound, feed.interrupt, engine⟩
  | callback callback => exact ⟨sound, feed.onCallback callback, engine⟩
  | feed created connected =>
      obtain ⟨soundAfter, side, popped⟩ :=
        feedStep_channel k strtod s.feed s.running created connected sound
      exact ⟨soundAfter, feed.step created connected, engine.congr side popped⟩
  | engine =>
      obtain ⟨soundAfter, side, pushed⟩ := engineStep_channel k s.engine s.running sound
      exact ⟨soundAfter, feed.congr side pushed, engine.step sound s.running⟩
  | main => exact ⟨sound, feed, engine⟩

theorem ProgramState.Coherent.handled_isPrefix {s : ProgramState}
    (coherent : s.Coherent k strtod length opened) :
    s.engine.handled <+: s.channel.pushed := by
  rw [coherent.sound.conserved, coherent.engine.popped, List.append_assoc]
  exact List.prefix_append _ _

theorem programAfter_coherent (schedule : List Action) :
    (programAfter k strtod buffer length opened schedule).Coherent k strtod length opened :=
  (liveProgram k strtod).after_invariant _ coherent_fresh
    (fun _ action coherent => coherent.act action) schedule

end Program

/-- The threads together do what the handler and the engine do one after the other.  In
every interleaving, whatever libwebsockets does and whenever the program is interrupted:
the counters of the feed are those of the handler run on the messages received so far but
for the one it is at work on, for some answers of the queue, and as long as the program
runs every one of these is counted; the manager and the engine are those of a run on the packets
handled; and the packets accepted by the queue are, in order, the ones handled, the one in
the engine's hand and the ones stored, so none is lost, duplicated or reordered. -/
theorem program_refines (k : ℕ) (strtod : String → ℚ) (buffer : ℕ → TradePacket)
    (length : BarLength) (opened : Bool) (schedule : List Action) :
    let s := programAfter k strtod buffer length opened schedule
    s.engine.live = liveAfter length opened s.engine.handled ∧
    (s.channel.stored k).length ≤ capacity k - 1 ∧
    ∃ arrivals : List Arrival,
      s.feed.messages = arrivals.map messageOf ++ s.feed.pc.message?.toList ∧
      s.feed.received = (feedAfter strtod arrivals).received ∧
      s.feed.dropped = (feedAfter strtod arrivals).dropped ∧
      (feedAfter strtod arrivals).enqueued ++ s.feed.pc.uncounted strtod =
        s.engine.handled ++ s.engine.pc.inHand ++ s.channel.stored k ∧
      (s.running = true → Accounted arrivals.length (feedAfter strtod arrivals)) := by
  intro s
  have coherent : s.Coherent k strtod length opened := programAfter_coherent schedule
  obtain ⟨arrivals, refines⟩ := coherent.feed.refines
  refine ⟨coherent.engine.live, coherent.sound.stored_length_le, arrivals, refines.messages,
    refines.received, refines.dropped, ?_, ?_⟩
  · rw [← refines.pushed, coherent.sound.conserved, coherent.engine.popped]
  · intro running
    exact feedAfter_accounted (refines.kept running)

end PrismPipeline.Program
