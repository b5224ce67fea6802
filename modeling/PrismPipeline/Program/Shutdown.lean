import PrismPipeline.Program.Liveness

/-!
# The end of the program

After the interrupt the engine thread finishes the packet it is at and exits, the feed
thread gives up the message it retries and exits, and the main thread joins both before it
writes the summary.  What is still in the queue then is lost.
-/

namespace PrismPipeline.Program

open PrismPipeline.Machine PrismPipeline.Queue PrismPipeline.Live PrismPipeline.Feed

/-! ## What is left to do -/

/-- The steps until the engine thread exits, with `inCall` accesses left in `pop`. -/
def EnginePc.left (inCall : ℕ) : EnginePc → ℕ
  | .exited => 0
  | .loop => 1
  | .storing _ => 2
  | .handling _ => 3
  | .popping => 3 + inCall
  | .calling => 7

/-- The steps until the feed thread exits, with `inCall` accesses left in `push`. -/
def FeedPc.left (inCall : ℕ) : FeedPc → ℕ
  | .exited => 0
  | .loop => 1
  | .service => 2
  | .connecting | .accepted _ | .refused _ | .failed _ _ => 3
  | .pushing _ _ => 3 + inCall
  | .calling _ _ => 7

/-- The steps of the engine thread until it exits, once the flag is cleared. -/
def engineLeft (s : ProgramState) : ℕ := s.engine.pc.left s.channel.queue.pop.remaining

/-- The steps of the feed thread until it exits, once the flag is cleared. -/
def feedLeft (s : ProgramState) : ℕ := s.feed.pc.left s.channel.queue.push.remaining

/-- The steps of the main thread until it is done, once the other threads have exited. -/
def mainLeft (s : ProgramState) : ℕ :=
  match s.main.pc with
  | .done => 0
  | .summarising => 1
  | .joiningEngine => 2
  | .joiningFeed => 3
  | .loop => 4
  | .readingDropped _ => 5
  | .readingReceived _ => 6
  | .readingPrice _ => 7
  | .readingSignals _ => 8
  | .sampling => 9

section Bounds

variable {k : ℕ} {strtod : String → ℚ} (s : ProgramState)

theorem engineLeft_le : engineLeft s ≤ 7 := by
  have short := s.channel.queue.pop.remaining_le
  unfold engineLeft EnginePc.left
  split <;> omega

theorem feedLeft_le : feedLeft s ≤ 7 := by
  have short := s.channel.queue.push.remaining_le
  unfold feedLeft FeedPc.left
  split <;> omega

theorem mainLeft_le : mainLeft s ≤ 9 := by
  unfold mainLeft
  split <;> omega

theorem engineLeft_eq_zero_iff : engineLeft s = 0 ↔ s.engine.pc = .exited := by
  unfold engineLeft EnginePc.left
  cases s.engine.pc <;> simp

theorem feedLeft_eq_zero_iff : feedLeft s = 0 ↔ s.feed.pc = .exited := by
  unfold feedLeft FeedPc.left
  cases s.feed.pc <;> simp

theorem mainLeft_eq_zero_iff : mainLeft s = 0 ↔ s.main.pc = .done := by
  unfold mainLeft
  cases s.main.pc <;> simp

end Bounds

/-! ## The engine thread and the feed thread come to an end -/

/-- The flag is cleared. -/
structure Stopping (k : ℕ) (strtod : String → ℚ) (length : BarLength) (opened : Bool)
    (s : ProgramState) : Prop where
  coherent : s.Coherent k strtod length opened
  stopped : s.running = false

section Stopping

variable {k : ℕ} {strtod : String → ℚ} {length : BarLength} {opened : Bool} {s : ProgramState}

theorem act_stopped (stopped : s.running = false) (action : Action) :
    (s.act k strtod action).running = false := by
  cases action with
  | interrupt => rfl
  | _ => exact stopped

theorem Stopping.act (stopping : Stopping k strtod length opened s) (action : Action) :
    Stopping k strtod length opened (s.act k strtod action) :=
  ⟨stopping.coherent.act action, act_stopped stopping.stopped action⟩

theorem act_engine_exited (exited : s.engine.pc = .exited) (action : Action) :
    (s.act k strtod action).engine = s.engine := by
  cases action with
  | engine =>
      change (s.engine.step k s.running s.channel).2 = s.engine
      unfold EngineThread.step
      rw [exited]
  | _ => rfl

theorem act_feed_exited (exited : s.feed.pc = .exited) (action : Action) :
    (s.act k strtod action).feed = s.feed := by
  cases action with
  | feed created connected =>
      change (s.feed.step k strtod s.running s.channel created connected).2 = s.feed
      unfold FeedThread.step
      rw [exited]
  | callback callback =>
      change s.feed.onCallback strtod callback = s.feed
      unfold FeedThread.onCallback
      rw [exited]
  | _ => rfl

theorem engineLeft_engine (stopping : Stopping k strtod length opened s)
    (left : engineLeft s ≠ 0) :
    engineLeft (s.act k strtod .engine) + 1 ≤ engineLeft s := by
  have side := stopping.coherent.engine.side
  cases pc : s.engine.pc with
  | loop =>
      simp only [engineLeft, ProgramState.act, EngineThread.step, pc, stopping.stopped]
      exact le_refl 1
  | calling =>
      rw [pc] at side
      simp only [engineLeft, ProgramState.act, EngineThread.step, pc, Channel.record_queue,
        callPop_pop side]
      exact le_refl 7
  | popping =>
      rw [pc] at side
      have effect := consumerAccess_effect stopping.coherent.sound.invariant side
      simp only [engineLeft, ProgramState.act, EngineThread.step, pc]
      generalize consumerAccess k s.channel.queue = result at *
      obtain ⟨queue, returned⟩ := result
      cases effect with
      | inside busy nearer => exact Nat.add_le_add_left nearer.le 3
      | empty nothing idle =>
          exact (Nat.add_le_add_left side 1).trans (Nat.add_le_add_right (by decide) _)
      | popped item last idle => exact Nat.add_le_add (le_refl 3) last.ge
  | handling p => simp [engineLeft, EnginePc.left, ProgramState.act, EngineThread.step, pc]
  | storing p => simp [engineLeft, EnginePc.left, ProgramState.act, EngineThread.step, pc]
  | exited => exact absurd ((engineLeft_eq_zero_iff s).mpr pc) left

theorem engineLeft_other (stopping : Stopping k strtod length opened s) {action : Action}
    (other : action.isEngine = false) :
    engineLeft (s.act k strtod action) = engineLeft s := by
  cases action with
  | engine => cases other
  | feed created connected =>
      have side := (feedStep_channel k strtod s.feed s.running created connected
        stopping.coherent.sound).2.1
      change s.engine.pc.left (s.feed.step k strtod s.running s.channel created
        connected).1.queue.pop.remaining = _
      rw [side]
      rfl
  | _ => rfl

theorem feedLeft_feed (stopping : Stopping k strtod length opened s) (left : feedLeft s ≠ 0)
    (created connected : Bool) :
    feedLeft (s.act k strtod (.feed created connected)) + 1 ≤ feedLeft s := by
  have side := stopping.coherent.feed.side
  cases pc : s.feed.pc with
  | loop =>
      simp only [feedLeft, ProgramState.act, FeedThread.step, pc, stopping.stopped]
      exact le_refl 1
  | connecting =>
      simp only [feedLeft, ProgramState.act, FeedThread.step, FeedThread.connect, pc]
      split_ifs <;> simp [FeedPc.left]
  | service => simp [feedLeft, FeedPc.left, ProgramState.act, FeedThread.step, pc]
  | calling m retryCount =>
      rw [pc] at side
      simp only [feedLeft, ProgramState.act, FeedThread.step, pc, Channel.record_queue,
        (callPush_push side _).2]
      exact le_refl 7
  | pushing m retryCount =>
      rw [pc] at side
      have effect := producerAccess_effect (k := k) side
      have busy := PushState.remaining_pos side
      simp only [feedLeft, ProgramState.act, FeedThread.step, pc]
      generalize producerAccess k s.channel.queue = result at *
      obtain ⟨queue, returned⟩ := result
      cases effect with
      | inside same nearer => exact Nat.add_le_add_left nearer.le 3
      | full idle => exact Nat.add_le_add (le_refl 3) busy
      | pushed idle => exact Nat.add_le_add (le_refl 3) busy
  | failed m retryCount =>
      simp only [feedLeft, ProgramState.act, FeedThread.step, pc, stopping.stopped]
      exact le_refl 3
  | accepted m => simp [feedLeft, FeedPc.left, ProgramState.act, FeedThread.step, pc]
  | refused m => simp [feedLeft, FeedPc.left, ProgramState.act, FeedThread.step, pc]
  | exited => exact absurd ((feedLeft_eq_zero_iff s).mpr pc) left

/-- A message that libwebsockets still delivers costs the thread another attempt. -/
theorem feedLeft_callback (callback : Callback) :
    feedLeft (s.act k strtod (.callback callback)) ≤ feedLeft s + 5 := by
  cases pc : s.feed.pc with
  | service =>
      cases callback with
      | receive m =>
          simp only [feedLeft, ProgramState.act, FeedThread.onCallback, pc]
          split_ifs <;> simp [FeedPc.left, pc]
      | _ => simp [feedLeft, FeedPc.left, ProgramState.act, FeedThread.onCallback, pc]
  | _ => simp [feedLeft, FeedPc.left, ProgramState.act, FeedThread.onCallback, pc]

theorem feedLeft_other (stopping : Stopping k strtod length opened s) {action : Action}
    (other : action.isFeed = false) (silent : action.isCallback = false) :
    feedLeft (s.act k strtod action) = feedLeft s := by
  cases action with
  | feed created connected => cases other
  | callback callback => cases silent
  | engine =>
      have side := (engineStep_channel k s.engine s.running stopping.coherent.sound).2.1
      change s.feed.pc.left (s.engine.step k s.running s.channel).1.queue.push.remaining = _
      rw [side]
      rfl
  | _ => rfl

theorem engineLeft_wears :
    (liveProgram k strtod).Wears (Stopping k strtod length opened) (fun _ => True)
      Action.isEngine (fun _ => 0) engineLeft where
  kept _ action stopping _ := stopping.act action
  rests s action _ _ none := by
    have exited := (engineLeft_eq_zero_iff s).mp none
    apply (engineLeft_eq_zero_iff _).mpr
    change (s.act k strtod action).engine.pc = .exited
    rw [act_engine_exited exited, exited]
  wears s action stopping _ left := by
    cases mine : action.isEngine with
    | false => exact (engineLeft_other stopping mine).le
    | true =>
        cases action with
        | engine => exact engineLeft_engine stopping left
        | _ => cases mine

theorem feedLeft_wears :
    (liveProgram k strtod).Wears (Stopping k strtod length opened) (fun _ => True)
      Action.isFeed (fun action => 5 * action.isCallback.toNat) feedLeft where
  kept _ action stopping _ := stopping.act action
  rests s action _ _ none := by
    have exited := (feedLeft_eq_zero_iff s).mp none
    apply (feedLeft_eq_zero_iff _).mpr
    change (s.act k strtod action).feed.pc = .exited
    rw [act_feed_exited exited, exited]
  wears s action stopping _ left := by
    cases action with
    | feed created connected => exact feedLeft_feed stopping left created connected
    | callback callback => exact feedLeft_callback (k := k) callback
    | interrupt => exact (feedLeft_other stopping rfl rfl).le
    | engine => exact (feedLeft_other stopping rfl rfl).le
    | main => exact (feedLeft_other stopping rfl rfl).le

end Stopping

/-! ## At most one more packet -/

/-- The packets the engine thread can still handle once the flag is cleared. -/
def EnginePc.room : EnginePc → ℕ
  | .calling | .popping | .handling _ => 1
  | .loop | .storing _ | .exited => 0

theorem EnginePc.room_le (pc : EnginePc) : pc.room ≤ 1 := by
  cases pc <;> simp [room]

section Room

variable {k : ℕ} {strtod : String → ℚ} {s : ProgramState}

theorem act_room (stopped : s.running = false) (action : Action) :
    (s.act k strtod action).engine.handled.length + (s.act k strtod action).engine.pc.room ≤
      s.engine.handled.length + s.engine.pc.room := by
  cases action with
  | engine =>
      simp only [ProgramState.act, EngineThread.step]
      cases pc : s.engine.pc with
      | loop => simp [EnginePc.room, stopped]
      | popping =>
          dsimp only
          exact Nat.add_le_add_left (EnginePc.room_le _) _
      | handling p => simp [EnginePc.room]
      | calling => simp [EnginePc.room]
      | storing p => simp [EnginePc.room]
      | exited => simp [EnginePc.room, pc]
  | _ => exact le_refl _

end Room

/-! ## The main thread waits for the others -/

/-- What the main thread knows at each point: who has exited, and what it has written. -/
def MainPc.Knows (feed : FeedPc) (engine : EngineThread) (summary : Option TradeManager) :
    MainPc → Prop
  | .joiningEngine => feed = .exited
  | .summarising => feed = .exited ∧ engine.pc = .exited
  | .done =>
      feed = .exited ∧ engine.pc = .exited ∧ summary = some engine.live.tradeManager
  | .loop | .sampling | .readingSignals _ | .readingPrice _ | .readingReceived _
  | .readingDropped _ | .joiningFeed => True

def ProgramState.Joined (s : ProgramState) : Prop :=
  s.main.pc.Knows s.feed.pc s.engine s.main.summary

section Joined

variable {k : ℕ} {strtod : String → ℚ} {s : ProgramState}

/-- Steps of the other threads leave the knowledge as it is, for what has exited stays so. -/
theorem ProgramState.Joined.other (joined : s.Joined) {t : ProgramState}
    (main : t.main = s.main) (feed : s.feed.pc = .exited → t.feed.pc = .exited)
    (engine : s.engine.pc = .exited → t.engine = s.engine) : t.Joined := by
  unfold ProgramState.Joined at joined ⊢
  rw [main]
  cases pc : s.main.pc with
  | joiningEngine =>
      rw [pc] at joined
      exact feed joined
  | summarising =>
      rw [pc] at joined
      exact ⟨feed joined.1, (engine joined.2) ▸ joined.2⟩
  | done =>
      rw [pc] at joined
      exact ⟨feed joined.1, (engine joined.2.1) ▸ joined.2⟩
  | _ => trivial

theorem ProgramState.Joined.act (joined : s.Joined) (action : Action) :
    (s.act k strtod action).Joined := by
  cases action with
  | main =>
      unfold ProgramState.Joined at joined ⊢
      simp only [ProgramState.act, MainThread.step]
      cases pc : s.main.pc with
      | loop => cases s.running <;> trivial
      | joiningFeed =>
          cases feed : s.feed.pc with
          | exited => rfl
          | _ => trivial
      | joiningEngine =>
          rw [pc] at joined
          cases engine : s.engine.pc with
          | exited => exact ⟨joined, engine⟩
          | _ => exact joined
      | summarising =>
          rw [pc] at joined
          exact ⟨joined.1, joined.2, rfl⟩
      | done =>
          rw [pc] at joined
          dsimp only
          rw [pc]
          exact joined
      | _ => trivial
  | _ =>
      refine joined.other rfl (fun exited => ?_) (fun exited => act_engine_exited exited _)
      rw [act_feed_exited exited, exited]

theorem mainLeft_main (stopped : s.running = false) (feed : s.feed.pc = .exited)
    (engine : s.engine.pc = .exited) (left : mainLeft s ≠ 0) :
    mainLeft (s.act k strtod .main) + 1 ≤ mainLeft s := by
  simp only [mainLeft, ProgramState.act, MainThread.step, stopped, feed, engine]
  cases pc : s.main.pc with
  | done => exact absurd ((mainLeft_eq_zero_iff s).mpr pc) left
  | _ => simp

/-- Everyone else has exited. -/
structure Alone (s : ProgramState) : Prop where
  stopped : s.running = false
  feed : s.feed.pc = .exited
  engine : s.engine.pc = .exited

theorem mainLeft_wears :
    (liveProgram k strtod).Wears Alone (fun _ => True) Action.isMain (fun _ => 0) mainLeft where
  kept s action alone _ := by
    refine ⟨act_stopped alone.stopped action, ?_, ?_⟩
    · change (s.act k strtod action).feed.pc = .exited
      rw [act_feed_exited alone.feed, alone.feed]
    · change (s.act k strtod action).engine.pc = .exited
      rw [act_engine_exited alone.engine, alone.engine]
  rests s action alone _ none := by
    have done := (mainLeft_eq_zero_iff s).mp none
    apply (mainLeft_eq_zero_iff _).mpr
    change (s.act k strtod action).main.pc = .done
    cases action with
    | main => simp only [ProgramState.act, MainThread.step, done]
    | _ => exact done
  wears s action alone _ left := by
    cases action with
    | main =>
        change mainLeft (s.act k strtod .main) + 1 ≤ mainLeft s
        exact mainLeft_main alone.stopped alone.feed alone.engine left
    | _ => exact le_refl _

end Joined

/-! ## The program ends -/

section Program

variable {k : ℕ} {strtod : String → ℚ} {buffer : ℕ → TradePacket} {length : BarLength}
  {opened : Bool}

/-- An interrupt has cleared the flag for good. -/
theorem stopping_programAfter {schedule : List Action} (interrupted : .interrupt ∈ schedule) :
    Stopping k strtod length opened (programAfter k strtod buffer length opened schedule) := by
  obtain ⟨earlier, later, rfl⟩ := List.append_of_mem interrupted
  refine ⟨programAfter_coherent _, ?_⟩
  unfold programAfter
  rw [Mealy.after_append, Mealy.after_cons]
  exact (liveProgram k strtod).after_invariant (fun t => t.running = false) rfl
    (fun _ action stopped => act_stopped stopped action) later

theorem joined_fresh : (ProgramState.fresh buffer length opened).Joined := trivial

theorem joined_programAfter (schedule : List Action) :
    (programAfter k strtod buffer length opened schedule).Joined :=
  (liveProgram k strtod).after_invariant ProgramState.Joined joined_fresh
    (fun _ action joined => joined.act action) schedule

/-- The one packet at most that is handled after the interrupt. -/
theorem handled_after_stop {s : ProgramState} (stopped : s.running = false)
    (later : List Action) :
    let t := (liveProgram k strtod).after s later
    s.engine.handled <+: t.engine.handled ∧
      t.engine.handled.length ≤ s.engine.handled.length + 1 := by
  have kept := (liveProgram k strtod).after_invariant
    (fun t => t.running = false ∧ s.engine.handled <+: t.engine.handled ∧
      t.engine.handled.length + t.engine.pc.room ≤
        s.engine.handled.length + s.engine.pc.room)
    ⟨stopped, List.prefix_refl _, le_refl _⟩
    (fun t action ⟨down, grown, room⟩ => ⟨act_stopped down action,
      grown.trans (act_handled_grows action), (act_room down action).trans room⟩) later
  obtain ⟨_, grown, room⟩ := kept
  refine ⟨grown, ?_⟩
  have atMost := s.engine.pc.room_le
  omega

/-- The program ends.  Once it is interrupted the engine thread and the feed thread exit after
seven steps of their own, five more of the feed thread for each callback that libwebsockets
still makes, and the main thread is done nine steps later, in whatever order the steps are
taken.  At most one packet is handled after the interrupt; the summary is that of the
manager after exactly the packets handled, and of the packets the queue took those still
stored are the only ones missing from it. -/
theorem program_ends (k : ℕ) (strtod : String → ℚ) (buffer : ℕ → TradePacket)
    (length : BarLength) (opened : Bool) (schedule later last : List Action)
    (interrupted : .interrupt ∈ schedule)
    (feedSteps : 7 + 5 * later.countP Action.isCallback ≤ later.countP Action.isFeed)
    (engineSteps : 7 ≤ later.countP Action.isEngine)
    (mainSteps : 9 ≤ last.countP Action.isMain) :
    let s := programAfter k strtod buffer length opened schedule
    let t := programAfter k strtod buffer length opened (schedule ++ later ++ last)
    (t.feed.pc = .exited ∧ t.engine.pc = .exited ∧ t.main.pc = .done) ∧
    t.main.summary = some (liveAfter length opened t.engine.handled).tradeManager ∧
    t.channel.pushed = t.engine.handled ++ t.channel.stored k ∧
    s.engine.handled <+: t.engine.handled ∧
    t.engine.handled.length ≤ s.engine.handled.length + 1 := by
  intro s t
  have split : t = (liveProgram k strtod).after s (later ++ last) := by
    change programAfter k strtod buffer length opened (schedule ++ later ++ last) = _
    rw [List.append_assoc]
    exact (liveProgram k strtod).after_append _ schedule (later ++ last)
  have stopping : Stopping k strtod length opened s := stopping_programAfter interrupted
  have feed : feedLeft ((liveProgram k strtod).after s later) = 0 := by
    apply feedLeft_wears.reaches_zero stopping fun _ _ => trivial
    rw [sum_charges]
    exact (Nat.add_le_add_right (feedLeft_le s) _).trans feedSteps
  have engine : engineLeft ((liveProgram k strtod).after s later) = 0 :=
    engineLeft_wears.reaches_zero_free stopping (fun _ _ => trivial)
      ((engineLeft_le s).trans engineSteps)
  have alone : Alone ((liveProgram k strtod).after s later) :=
    ⟨(engineLeft_wears.good_after stopping fun _ _ => trivial).stopped,
      (feedLeft_eq_zero_iff _).mp feed, (engineLeft_eq_zero_iff _).mp engine⟩
  have main : mainLeft t = 0 := by
    rw [split, Mealy.after_append]
    exact mainLeft_wears.reaches_zero_free alone (fun _ _ => trivial)
      ((mainLeft_le _).trans mainSteps)
  have done := (mainLeft_eq_zero_iff t).mp main
  have coherent : t.Coherent k strtod length opened := programAfter_coherent _
  have joined : t.Joined := joined_programAfter _
  unfold ProgramState.Joined at joined
  rw [done] at joined
  obtain ⟨feedExited, engineExited, summary⟩ := joined
  refine ⟨⟨feedExited, engineExited, done⟩, ?_, ?_, ?_⟩
  · rw [summary, coherent.engine.live]
  · have popped := coherent.engine.popped
    rw [engineExited] at popped
    rw [coherent.sound.conserved, popped]
    exact congrArg (· ++ _) (List.append_nil _)
  · rw [split]
    exact handled_after_stop stopping.stopped (later ++ last)

end Program

/-- The packet is in the queue when the interrupt comes, and it stays there. -/
theorem sampleDelivery_interrupted :
    let t := sampleProgram (sampleDelivery ++ [.interrupt] ++
      (List.replicate 7 (.feed false false) ++ List.replicate 7 .engine) ++
      List.replicate 9 .main)
    t.main.summary = some (liveAfter prismBarSeconds true t.engine.handled).tradeManager ∧
    t.channel.pushed = t.engine.handled ++ t.channel.stored 22 ∧ t.engine.handled.length ≤ 1 := by
  intro t
  have ends := program_ends 22 digitsToNumber (fun _ => {}) prismBarSeconds true
    (sampleDelivery ++ [.interrupt])
    (List.replicate 7 (.feed false false) ++ List.replicate 7 .engine) (List.replicate 9 .main)
    (by simp) (by decide) (by decide) (by decide)
  exact ⟨ends.2.1, ends.2.2.1, ends.2.2.2.2⟩

end PrismPipeline.Program
