import PrismPipeline.Program.Connection
import PrismPipeline.Program.Liveness

/-!
# Reconnecting

While the program runs, a connection that is down is attempted again.  The feed thread first
finishes the message it is at, which may take all its retries, and so may every message that
the library still delivers.
-/

namespace PrismPipeline.Program

open PrismPipeline.Machine PrismPipeline.Queue PrismPipeline.Live PrismPipeline.Feed

/-! ## The steps to the next attempt -/

/-- The steps of the feed thread until an attempt of `connect` is over, with `inCall` accesses
left in `push`. -/
def FeedPc.untilAttempt (inCall : ℕ) : FeedPc → ℕ
  | .exited => 0
  | .connecting => 1
  | .loop => 2
  | .service => 3
  | .accepted _ | .refused _ => 4
  | .failed _ retryCount => 5 * (maxRetries - (retryCount + 1)) + 5
  | .pushing _ retryCount => 5 * (maxRetries - (retryCount + 1)) + 5 + inCall
  | .calling _ retryCount => 5 * (maxRetries - retryCount) + 4

def untilAttempt (s : ProgramState) : ℕ :=
  s.feed.pc.untilAttempt s.channel.queue.push.remaining

/-- The program is up, and its connection is not. -/
structure Unlinked (k : ℕ) (strtod : String → ℚ) (length : BarLength) (opened : Bool)
    (s : ProgramState) : Prop where
  coherent : s.Coherent k strtod length opened
  running : s.running = true
  alive : s.feed.pc ≠ .exited
  down : s.feed.wsi = false

section Reconnect

variable {k : ℕ} {strtod : String → ℚ} {length : BarLength} {opened : Bool} {s : ProgramState}

theorem untilAttempt_pos (unlinked : Unlinked k strtod length opened s) :
    0 < untilAttempt s := by
  unfold untilAttempt FeedPc.untilAttempt
  have alive := unlinked.alive
  cases pc : s.feed.pc with
  | exited => exact absurd pc alive
  | pushing m retryCount => exact Nat.add_pos_left (Nat.succ_pos _) _
  | _ => exact Nat.succ_pos _

/-- While the program runs the feed thread does not exit. -/
theorem feedStep_alive {f : FeedThread} (alive : f.pc ≠ .exited)
    (channel : Channel TradePacket) (created connected : Bool) :
    (f.step k strtod true channel created connected).2.pc ≠ .exited := by
  unfold FeedThread.step
  cases pc : f.pc with
  | loop =>
      dsimp only
      cases f.wsi <;> cases f.context <;> exact fun same => FeedPc.noConfusion same
  | connecting =>
      dsimp only
      unfold FeedThread.connect
      split
      · cases connected <;> exact fun same => FeedPc.noConfusion same
      · exact fun same => FeedPc.noConfusion same
  | pushing m retryCount =>
      dsimp only
      split <;> exact fun same => FeedPc.noConfusion same
  | failed m retryCount =>
      dsimp only
      rw [if_pos rfl]
      split_ifs <;> exact fun same => FeedPc.noConfusion same
  | exited => exact absurd pc alive
  | _ => exact fun same => FeedPc.noConfusion same

theorem onCallback_alive {f : FeedThread} (alive : f.pc ≠ .exited) (callback : Callback) :
    (f.onCallback strtod callback).pc ≠ .exited := by
  unfold FeedThread.onCallback
  cases pc : f.pc with
  | service =>
      cases callback with
      | receive m =>
          dsimp only
          split_ifs
          · exact alive
          · exact fun same => FeedPc.noConfusion same
          · exact fun same => FeedPc.noConfusion same
      | closed => exact fun same => FeedPc.noConfusion same
      | established => exact alive
      | other => exact alive
  | _ => exact alive

/-- A callback does not bring a connection back. -/
theorem onCallback_down {f : FeedThread} (down : f.wsi = false) (callback : Callback) :
    (f.onCallback strtod callback).wsi = false := by
  unfold FeedThread.onCallback
  cases f.pc with
  | service =>
      cases callback with
      | receive m =>
          dsimp only
          split
          · exact down
          · exact down
      | closed => rfl
      | established => exact down
      | other => exact down
  | _ => exact down

theorem Unlinked.act (unlinked : Unlinked k strtod length opened s) {action : Action}
    (quiet : action ≠ .interrupt) (silent : action.isFeed = true → s.feed.pc ≠ .connecting) :
    Unlinked k strtod length opened (s.act k strtod action) := by
  have coherent := unlinked.coherent.act action
  cases action with
  | interrupt => exact absurd rfl quiet
  | callback callback =>
      exact ⟨coherent, unlinked.running, onCallback_alive unlinked.alive callback,
        onCallback_down unlinked.down callback⟩
  | feed created connected =>
      have alive := @feedStep_alive k strtod s.feed unlinked.alive s.channel created connected
      have kept := (@FeedThread.step_pointers k strtod s.feed (silent rfl) s.running s.channel
        created connected).2
      rw [← unlinked.running] at alive
      exact ⟨coherent, unlinked.running, alive, kept.trans unlinked.down⟩
  | engine => exact ⟨coherent, unlinked.running, unlinked.alive, unlinked.down⟩
  | main => exact ⟨coherent, unlinked.running, unlinked.alive, unlinked.down⟩

/-- A step of the feed thread, other than an attempt, brings it closer to one. -/
theorem untilAttempt_feed (unlinked : Unlinked k strtod length opened s)
    (elsewhere : s.feed.pc ≠ .connecting) (created connected : Bool) :
    untilAttempt (s.act k strtod (.feed created connected)) + 1 ≤ untilAttempt s := by
  have side := unlinked.coherent.feed.side
  have ok := unlinked.coherent.feed.ok
  cases pc : s.feed.pc with
  | loop =>
      simp only [untilAttempt, ProgramState.act, FeedThread.step, pc, unlinked.running,
        unlinked.down]
      exact le_refl 2
  | connecting => exact absurd pc elsewhere
  | service => simp [untilAttempt, FeedPc.untilAttempt, ProgramState.act, FeedThread.step, pc]
  | calling m retryCount =>
      rw [pc] at side ok
      obtain ⟨-, inside⟩ := ok
      simp only [untilAttempt, ProgramState.act, FeedThread.step, pc, Channel.record_queue,
        (callPush_push side _).2, FeedPc.untilAttempt]
      omega
  | pushing m retryCount =>
      rw [pc] at side
      have effect := producerAccess_effect (k := k) side
      have busy := PushState.remaining_pos side
      simp only [untilAttempt, ProgramState.act, FeedThread.step, pc]
      generalize producerAccess k s.channel.queue = result at *
      obtain ⟨queue, returned⟩ := result
      cases effect with
      | inside same nearer => exact Nat.add_le_add_left nearer.le _
      | full idle => exact Nat.add_le_add (le_refl _) busy
      | pushed idle =>
          -- the packet is in the queue, and no retry is left to do
          simp only [pushAnswer?, FeedPc.untilAttempt]
          omega
  | failed m retryCount =>
      rw [pc] at ok
      obtain ⟨-, inside⟩ := ok
      simp only [untilAttempt, ProgramState.act, FeedThread.step, pc, unlinked.running, if_true]
      split_ifs with last
      · simp only [FeedPc.untilAttempt]
        omega
      · simp only [FeedPc.untilAttempt]
        omega
  | accepted m => simp [untilAttempt, FeedPc.untilAttempt, ProgramState.act, FeedThread.step, pc]
  | refused m => simp [untilAttempt, FeedPc.untilAttempt, ProgramState.act, FeedThread.step, pc]
  | exited => exact absurd pc unlinked.alive

/-- A message that comes first may take all the retries there are. -/
theorem untilAttempt_callback (callback : Callback) :
    untilAttempt (s.act k strtod (.callback callback)) ≤
      untilAttempt s + (5 * maxRetries + 1) := by
  cases pc : s.feed.pc with
  | service =>
      cases callback with
      | receive m =>
          simp only [untilAttempt, ProgramState.act, FeedThread.onCallback, pc]
          split_ifs <;> simp [FeedPc.untilAttempt, pc]
          all_goals omega
      | _ => simp [untilAttempt, FeedPc.untilAttempt, ProgramState.act, FeedThread.onCallback, pc]
  | _ => simp [untilAttempt, FeedPc.untilAttempt, ProgramState.act, FeedThread.onCallback, pc]

theorem untilAttempt_other (unlinked : Unlinked k strtod length opened s) {action : Action}
    (other : action.isFeed = false) (silent : action.isCallback = false) :
    untilAttempt (s.act k strtod action) = untilAttempt s := by
  cases action with
  | feed created connected => cases other
  | callback callback => cases silent
  | engine =>
      have side := (engineStep_channel k s.engine s.running unlinked.coherent.sound).2.1
      change s.feed.pc.untilAttempt (s.engine.step k s.running
        s.channel).1.queue.push.remaining = _
      rw [side]
      rfl
  | interrupt => rfl
  | main => rfl

theorem untilAttempt_le (unlinked : Unlinked k strtod length opened s) :
    untilAttempt s ≤ 5 * maxRetries + 4 := by
  have short := s.channel.queue.push.remaining_le
  have ok := unlinked.coherent.feed.ok
  unfold untilAttempt
  cases pc : s.feed.pc with
  | calling m retryCount =>
      simp only [FeedPc.untilAttempt]
      omega
  | pushing m retryCount =>
      rw [pc] at ok
      obtain ⟨-, inside⟩ := ok
      simp only [FeedPc.untilAttempt]
      omega
  | failed m retryCount =>
      rw [pc] at ok
      obtain ⟨-, inside⟩ := ok
      simp only [FeedPc.untilAttempt]
      omega
  | _ => simp [FeedPc.untilAttempt]

/-- An attempt that is over has been shown. -/
theorem connectEvents_attempted (f : FeedThread) (created connected : Bool) :
    ∃ event ∈ f.connectEvents created connected, event.attempted = true := by
  unfold FeedThread.connectEvents
  split_ifs
  · exact ⟨_, List.mem_singleton_self _, rfl⟩
  · exact ⟨_, List.mem_singleton_self _, rfl⟩
  · exact ⟨_, List.mem_cons_of_mem _ (List.mem_singleton_self _), rfl⟩
  · exact ⟨_, List.mem_cons_of_mem _ (List.mem_singleton_self _), rfl⟩
  · exact ⟨_, List.mem_singleton_self _, rfl⟩

/-- Every input shows an attempt or leaves the program unlinked and, if it is a step of the
feed thread, closer to one. -/
theorem attempts_near (unlinked : Unlinked k strtod length opened s) {action : Action}
    (quiet : action ≠ .interrupt) :
    (∃ event ∈ s.connectionEvents action, event.attempted = true) ∨
      Unlinked k strtod length opened (s.act k strtod action) ∧
        untilAttempt (s.act k strtod action) + action.isFeed.toNat ≤
          untilAttempt s + (5 * maxRetries + 1) * action.isCallback.toNat := by
  cases action with
  | interrupt => exact absurd rfl quiet
  | feed created connected =>
      by_cases here : s.feed.pc.isConnecting = true
      · refine Or.inl ?_
        rw [ProgramState.connectionEvents, if_pos here]
        exact connectEvents_attempted s.feed created connected
      · have elsewhere : s.feed.pc ≠ .connecting :=
          fun connecting => here (FeedPc.isConnecting_iff.mpr connecting)
        exact Or.inr ⟨unlinked.act quiet fun _ => elsewhere,
          untilAttempt_feed unlinked elsewhere created connected⟩
  | callback callback =>
      refine Or.inr ⟨unlinked.act quiet fun feed => absurd feed Bool.false_ne_true, ?_⟩
      exact (untilAttempt_callback callback).trans_eq (by rw [Action.isCallback]; rfl)
  | engine =>
      exact Or.inr ⟨unlinked.act quiet fun feed => absurd feed Bool.false_ne_true,
        (untilAttempt_other unlinked rfl rfl).le⟩
  | main =>
      exact Or.inr ⟨unlinked.act quiet fun feed => absurd feed Bool.false_ne_true,
        (untilAttempt_other unlinked rfl rfl).le⟩

theorem unlinked_programAfter {buffer : ℕ → TradePacket} {schedule : List Action}
    (running : (programAfter k strtod buffer length opened schedule).running = true)
    (down : (programAfter k strtod buffer length opened schedule).feed.wsi = false) :
    Unlinked k strtod length opened (programAfter k strtod buffer length opened schedule) := by
  refine ⟨programAfter_coherent schedule, running, ?_, down⟩
  refine (liveProgram k strtod).after_invariant
    (fun state => state.running = true → state.feed.pc ≠ .exited)
    (fun _ exited => FeedPc.noConfusion exited) ?_ schedule running
  intro state action up stillUp
  cases action with
  | interrupt => exact absurd stillUp Bool.false_ne_true
  | callback callback => exact onCallback_alive (up stillUp) callback
  | feed created connected =>
      have alive := @feedStep_alive k strtod state.feed (up stillUp) state.channel created connected
      have flag : state.running = true := stillUp
      rw [← flag] at alive
      exact alive
  | engine => exact up stillUp
  | main => exact up stillUp

end Reconnect

/-- While the program runs, a connection that is down is attempted again, whatever the library
still delivers and whatever the other threads do: each of its callbacks costs the feed thread
the retries of one message at most. -/
theorem connection_retried (k : ℕ) (strtod : String → ℚ) (buffer : ℕ → TradePacket)
    (length : BarLength) (opened : Bool) {schedule later : List Action}
    (running : (programAfter k strtod buffer length opened schedule).running = true)
    (down : (programAfter k strtod buffer length opened schedule).feed.wsi = false)
    (noInterrupt : ∀ action ∈ later, action ≠ .interrupt)
    (enough : 5 * maxRetries + 4 + (5 * maxRetries + 1) * later.countP Action.isCallback ≤
      later.countP Action.isFeed) :
    ∃ event ∈ (connections k strtod).log
        (programAfter k strtod buffer length opened schedule) later,
      event.attempted = true := by
  have unlinked : Unlinked k strtod length opened
      (programAfter k strtod buffer length opened schedule) := unlinked_programAfter running down
  refine @Mealy.shows_event _ _ _ (connections k strtod) (Unlinked k strtod length opened)
    (· ≠ .interrupt) Action.isFeed (fun action => (5 * maxRetries + 1) * action.isCallback.toNat)
    untilAttempt (fun event => event.attempted = true) (fun _ good => untilAttempt_pos good)
    (fun _ _ good quiet => attempts_near good quiet) _ unlinked _ noInterrupt ?_
  rw [sum_charges]
  exact (Nat.add_le_add_right (untilAttempt_le unlinked) _).trans enough

/-- A connection that is lost right away is attempted again. -/
theorem lostConnection_retried :
    ∃ event ∈ (connections 22 digitsToNumber).log
        (sampleProgram [.feed false false, .feed true true, .callback .closed])
        (List.replicate (5 * maxRetries + 4) (.feed false false)),
      event.attempted = true := by
  refine connection_retried 22 digitsToNumber (fun _ => {}) prismBarSeconds true ?_ ?_ ?_ ?_
  · rfl
  · rfl
  · intro action member
    rw [List.eq_of_mem_replicate member]
    exact fun same => nomatch same
  · rw [List.countP_replicate, List.countP_replicate]
    exact Nat.le_refl _

end PrismPipeline.Program
