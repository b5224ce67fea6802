import PrismPipeline.Machine.Progress
import PrismPipeline.Program.LiveRefinement

/-!
# What the threads get done

While the program runs every packet the queue has taken is handled after a bounded number
of steps of the engine thread, however the other threads are scheduled in between.  After
the interrupt each thread comes to its end in a bounded number of its own steps; the feed
thread is held up by the messages libwebsockets still delivers, and by nothing else.
-/

namespace PrismPipeline.Program

open PrismPipeline.Machine PrismPipeline.Queue PrismPipeline.Live PrismPipeline.Feed

/-! ## Who takes a step -/

namespace Action

def isFeed : Action → Bool
  | .feed _ _ => true
  | .interrupt | .callback _ | .engine | .main => false

def isEngine : Action → Bool
  | .engine => true
  | .interrupt | .callback _ | .feed _ _ | .main => false

def isMain : Action → Bool
  | .main => true
  | .interrupt | .callback _ | .feed _ _ | .engine => false

def isCallback : Action → Bool
  | .callback _ => true
  | .interrupt | .feed _ _ | .engine | .main => false

end Action

/-! ## Packets get handled -/

/-- The steps of the engine thread until the packet it comes to next is handled. -/
def EngineThread.untilHandled (e : EngineThread) (pop : PopState TradePacket) : ℕ :=
  match e.pc with
  | .handling _ => 1
  | .popping => 1 + pop.remaining
  | .calling => 5
  | .loop => 6
  | .storing _ | .exited => 7

/-- The steps of the engine thread until `n` packets are handled. -/
def stepsToHandle (n : ℕ) (s : ProgramState) : ℕ :=
  if n ≤ s.engine.handled.length then 0
  else 7 * (n - s.engine.handled.length - 1) + s.engine.untilHandled s.channel.queue.pop

/-- The program is up, and the queue has taken `n` packets. -/
structure Busy (k : ℕ) (strtod : String → ℚ) (length : BarLength) (opened : Bool) (n : ℕ)
    (s : ProgramState) : Prop where
  coherent : s.Coherent k strtod length opened
  running : s.running = true
  up : s.engine.pc ≠ .exited
  present : n ≤ s.channel.pushed.length

section Handled

variable {k : ℕ} {strtod : String → ℚ} {length : BarLength} {opened : Bool} {n : ℕ}
  {s : ProgramState}

/-- While the program runs the engine thread does not exit. -/
theorem engineStep_up (running : s.running = true) (up : s.engine.pc ≠ .exited) :
    (s.engine.step k s.running s.channel).2.pc ≠ .exited := by
  unfold EngineThread.step
  cases pc : s.engine.pc with
  | loop =>
      rw [running]
      exact fun same => nomatch same
  | popping =>
      dsimp only
      split <;> exact fun same => nomatch same
  | exited => exact absurd pc up
  | _ => exact fun same => nomatch same

theorem Busy.act (busy : Busy k strtod length opened n s) {action : Action}
    (quiet : action ≠ .interrupt) : Busy k strtod length opened n (s.act k strtod action) where
  coherent := busy.coherent.act action
  running := by
    cases action with
    | interrupt => exact absurd rfl quiet
    | _ => exact busy.running
  up := by
    cases action with
    | engine => exact engineStep_up busy.running busy.up
    | _ => exact busy.up
  present := busy.present.trans (act_pushed_grows action).length_le

theorem stepsToHandle_le :
    stepsToHandle n s ≤
      7 * (n - s.engine.handled.length - 1) + s.engine.untilHandled s.channel.queue.pop := by
  unfold stepsToHandle
  split
  · exact Nat.zero_le _
  · exact le_refl _

theorem untilHandled_le (e : EngineThread) (pop : PopState TradePacket) :
    e.untilHandled pop ≤ 7 := by
  have short := pop.remaining_le
  unfold EngineThread.untilHandled
  cases e.pc with
  | popping => exact (Nat.add_le_add_left short 1).trans (by decide)
  | _ => simp

/-- Seven steps for each packet that is still to be handled. -/
theorem stepsToHandle_le_seven : stepsToHandle n s ≤ 7 * (n - s.engine.handled.length) := by
  unfold stepsToHandle
  have next := untilHandled_le s.engine s.channel.queue.pop
  split <;> omega

theorem stepsToHandle_eq (missing : s.engine.handled.length < n) :
    stepsToHandle n s =
      7 * (n - s.engine.handled.length - 1) + s.engine.untilHandled s.channel.queue.pop :=
  if_neg (Nat.not_le.mpr missing)

theorem stepsToHandle_eq_zero_iff (up : s.engine.pc ≠ .exited) :
    stepsToHandle n s = 0 ↔ n ≤ s.engine.handled.length := by
  unfold stepsToHandle
  split
  case isTrue reached => exact iff_of_true rfl reached
  case isFalse missing =>
    have positive : s.engine.untilHandled s.channel.queue.pop ≠ 0 := by
      unfold EngineThread.untilHandled
      cases pc : s.engine.pc with
      | exited => exact absurd pc up
      | _ => simp
    exact iff_of_false (by omega) missing

/-- With a packet in the queue `pop` does not come back empty. -/
theorem Busy.stored_ne_nil (busy : Busy k strtod length opened n s)
    (missing : s.engine.handled.length < n) (empty : s.engine.pc.inHand = []) :
    s.channel.stored k ≠ [] := by
  intro nothing
  have present := busy.present
  rw [busy.coherent.sound.conserved, busy.coherent.engine.popped, empty, nothing,
    List.append_nil, List.append_nil] at present
  exact absurd present (Nat.not_le.mpr missing)

/-- The packet in hand gets handled. -/
theorem stepsToHandle_handling {p : TradePacket} (pc : s.engine.pc = .handling p)
    (missing : s.engine.handled.length < n) :
    stepsToHandle n (s.act k strtod .engine) + 1 ≤ stepsToHandle n s := by
  have handled : (s.act k strtod .engine).engine.handled.length =
      s.engine.handled.length + 1 := by
    change (s.engine.step k s.running s.channel).2.handled.length = _
    unfold EngineThread.step
    rw [pc]
    exact List.length_append
  have next : (s.act k strtod .engine).engine.untilHandled
      (s.act k strtod .engine).channel.queue.pop = 7 := by
    change (s.engine.step k s.running s.channel).2.untilHandled _ = 7
    unfold EngineThread.step EngineThread.untilHandled
    rw [pc]
  have now : s.engine.untilHandled s.channel.queue.pop = 1 := by
    unfold EngineThread.untilHandled
    rw [pc]
  rw [stepsToHandle_eq missing, now]
  unfold stepsToHandle
  rw [handled, next]
  split <;> omega

/-- A step towards the next packet. -/
theorem stepsToHandle_nearer {t : ProgramState} (missing : s.engine.handled.length < n)
    (same : t.engine.handled = s.engine.handled)
    (nearer : t.engine.untilHandled t.channel.queue.pop + 1 ≤
      s.engine.untilHandled s.channel.queue.pop) :
    stepsToHandle n t + 1 ≤ stepsToHandle n s := by
  have after : stepsToHandle n t ≤ _ := stepsToHandle_le
  rw [same] at after
  rw [stepsToHandle_eq missing]
  omega

theorem untilHandled_popping (busy : Busy k strtod length opened n s)
    (missing : s.engine.handled.length < n) (pc : s.engine.pc = .popping) :
    (s.act k strtod .engine).engine.untilHandled (s.act k strtod .engine).channel.queue.pop + 1 ≤
      s.engine.untilHandled s.channel.queue.pop := by
  have side := busy.coherent.engine.side
  rw [pc] at side
  have stored := busy.stored_ne_nil missing (by rw [pc]; rfl)
  have effect := consumerAccess_effect busy.coherent.sound.invariant side
  have now : s.engine.untilHandled s.channel.queue.pop = 1 + s.channel.queue.pop.remaining := by
    unfold EngineThread.untilHandled
    rw [pc]
  rw [now]
  change (s.engine.step k s.running s.channel).2.untilHandled
    (s.engine.step k s.running s.channel).1.queue.pop + 1 ≤ _
  unfold EngineThread.step
  rw [pc]
  dsimp only
  generalize consumerAccess k s.channel.queue = result at *
  obtain ⟨queue, returned⟩ := result
  cases effect with
  | inside busy nearer => exact Nat.add_le_add_left nearer.le 1
  | empty nothing left => exact absurd nothing stored
  | popped item last left => rw [last]; exact le_refl _

theorem stepsToHandle_engine (busy : Busy k strtod length opened n s)
    (missing : s.engine.handled.length < n) :
    stepsToHandle n (s.act k strtod .engine) + 1 ≤ stepsToHandle n s := by
  cases pc : s.engine.pc with
  | handling p => exact stepsToHandle_handling pc missing
  | exited => exact absurd pc busy.up
  | popping =>
      refine stepsToHandle_nearer missing ?_ (untilHandled_popping busy missing pc)
      simp only [ProgramState.act, EngineThread.step, pc]
  | loop =>
      apply stepsToHandle_nearer missing
      · simp only [ProgramState.act, EngineThread.step, pc]
      · simp only [ProgramState.act, EngineThread.step, EngineThread.untilHandled, pc,
          busy.running, if_true, le_refl]
  | calling =>
      have side := busy.coherent.engine.side
      rw [pc] at side
      apply stepsToHandle_nearer missing
      · simp only [ProgramState.act, EngineThread.step, pc]
      · simp only [ProgramState.act, EngineThread.step, EngineThread.untilHandled, pc,
          Channel.record_queue, callPop_pop side, Nat.reduceAdd, le_refl]
  | storing p =>
      apply stepsToHandle_nearer missing
      · simp only [ProgramState.act, EngineThread.step, pc]
      · simp only [ProgramState.act, EngineThread.step, EngineThread.untilHandled, pc,
          Nat.reduceAdd, le_refl]

/-- The other threads leave the engine thread and its side of the queue where they are. -/
theorem stepsToHandle_other (coherent : s.Coherent k strtod length opened) {action : Action}
    (other : action.isEngine = false) :
    stepsToHandle n (s.act k strtod action) = stepsToHandle n s := by
  cases action with
  | engine => cases other
  | feed created connected =>
      have side := (feedStep_channel k strtod s.feed s.running created connected
        coherent.sound).2.1
      unfold stepsToHandle
      change (if n ≤ s.engine.handled.length then 0 else
        7 * (n - s.engine.handled.length - 1) + s.engine.untilHandled
          (s.feed.step k strtod s.running s.channel created connected).1.queue.pop) = _
      rw [side]
  | _ => rfl

theorem stepsToHandle_wears :
    (liveProgram k strtod).Wears (Busy k strtod length opened n) (· ≠ .interrupt)
      Action.isEngine (fun _ => 0) (stepsToHandle n) where
  kept _ _ busy quiet := busy.act quiet
  rests s action busy quiet reached := by
    have handled := (stepsToHandle_eq_zero_iff busy.up).mp reached
    apply (stepsToHandle_eq_zero_iff (busy.act quiet).up).mpr
    refine handled.trans ?_
    change s.engine.handled.length ≤ (s.act k strtod action).engine.handled.length
    cases action with
    | engine =>
        simp only [ProgramState.act, EngineThread.step]
        cases s.engine.pc with
        | handling p => simp
        | _ => exact le_refl _
    | _ => exact le_refl _
  wears s action busy quiet open' := by
    have missing : s.engine.handled.length < n := by
      by_contra reached
      exact open' ((stepsToHandle_eq_zero_iff busy.up).mpr (Nat.not_lt.mp reached))
    cases mine : action.isEngine with
    | false => exact (stepsToHandle_other busy.coherent mine).le
    | true =>
        cases action with
        | engine => exact stepsToHandle_engine busy missing
        | _ => cases mine

end Handled

/-! ## Runs without an interrupt -/

section Running

variable {k : ℕ} {strtod : String → ℚ} {buffer : ℕ → TradePacket} {length : BarLength}
  {opened : Bool}

theorem busy_programAfter {schedule : List Action}
    (noInterrupt : ∀ action ∈ schedule, action ≠ .interrupt) :
    let s := programAfter k strtod buffer length opened schedule
    Busy k strtod length opened s.channel.pushed.length s := by
  have start : Busy k strtod length opened 0 (.fresh buffer length opened) :=
    ⟨coherent_fresh, rfl, fun same => (nomatch same), Nat.zero_le _⟩
  have busy := stepsToHandle_wears.good_after start noInterrupt
  exact { busy with present := le_refl _ }

/-- While the program runs, a packet the queue has taken is handled: seven steps of the engine
thread for each packet that is still to be handled are enough, whatever libwebsockets and the
other threads do in between. -/
theorem packets_get_handled {schedule later : List Action}
    (noInterrupt : ∀ action ∈ schedule ++ later, action ≠ .interrupt)
    (enough : 7 * ((programAfter k strtod buffer length opened schedule).channel.pushed.length -
        (programAfter k strtod buffer length opened schedule).engine.handled.length) ≤
      later.countP Action.isEngine) :
    (programAfter k strtod buffer length opened schedule).channel.pushed <+:
      (programAfter k strtod buffer length opened (schedule ++ later)).engine.handled := by
  obtain ⟨before, after⟩ := List.forall_mem_append.mp noInterrupt
  have split : programAfter k strtod buffer length opened (schedule ++ later) =
      (liveProgram k strtod).after (programAfter k strtod buffer length opened schedule) later :=
    (liveProgram k strtod).after_append _ schedule later
  have busy : Busy k strtod length opened
      (programAfter k strtod buffer length opened schedule).channel.pushed.length
      (programAfter k strtod buffer length opened schedule) := busy_programAfter before
  rw [split]
  generalize programAfter k strtod buffer length opened schedule = s at *
  have reached : stepsToHandle s.channel.pushed.length
      ((liveProgram k strtod).after s later) = 0 :=
    stepsToHandle_wears.reaches_zero_free busy after (stepsToHandle_le_seven.trans enough)
  have end' := stepsToHandle_wears.good_after busy after
  have handled := (stepsToHandle_eq_zero_iff end'.up).mp reached
  have grown : s.channel.pushed <+: ((liveProgram k strtod).after s later).channel.pushed :=
    (liveProgram k strtod).after_invariant (fun t => s.channel.pushed <+: t.channel.pushed)
      (List.prefix_refl _) (fun _ action grown => grown.trans (act_pushed_grows action)) later
  exact List.prefix_of_prefix_length_le grown end'.coherent.handled_isPrefix handled

end Running

/-- A connection, a message, and its packet put into the queue. -/
def sampleDelivery : List Action :=
  [.feed false false, .feed true true, .callback (.receive ⟨0, sampleMessage.text⟩),
    .feed false false, .feed false false, .feed false false, .feed false false]

/-- The live program with its own sizes. -/
def sampleProgram (schedule : List Action) : ProgramState :=
  programAfter 22 digitsToNumber (fun _ => {}) prismBarSeconds true schedule

/-- The packet of the message is handled within the seven steps. -/
theorem sampleDelivery_handled :
    (sampleProgram sampleDelivery).channel.pushed.length = 1 ∧
    (sampleProgram sampleDelivery).channel.pushed <+:
      (sampleProgram (sampleDelivery ++ List.replicate 7 .engine)).engine.handled := by
  refine ⟨by decide +kernel, packets_get_handled ?_ ?_⟩
  · simp [sampleDelivery]
  · decide +kernel

end PrismPipeline.Program
