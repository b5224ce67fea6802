import PrismPipeline.Machine.Protocol
import PrismPipeline.Program.LiveProgram

/-!
# The connection of the client

The client keeps two pointers, one to the context of libwebsockets and one to the
connection.  As a protocol: a context is created once, a connection is opened only while none
is up, and a connection that is up stays so until the library reports its end.
-/

namespace PrismPipeline.Program

open PrismPipeline.Machine PrismPipeline.Queue PrismPipeline.Live PrismPipeline.Feed

/-! ## The protocol -/

inductive ConnectionEvent where
  | created
  /-- `lws_create_context` has failed -/
  | noContext
  | opened
  /-- `lws_client_connect_via_info` has failed -/
  | failed
  /-- the library reports the end of the connection, or that it came to nothing -/
  | lost

/-- Another attempt of `connect` is over. -/
def ConnectionEvent.attempted : ConnectionEvent → Bool
  | .noContext | .opened | .failed => true
  | .created | .lost => false

def ConnectionEvent.isCreated : ConnectionEvent → Bool
  | .created => true
  | .noContext | .opened | .failed | .lost => false

def ConnectionEvent.isOpened : ConnectionEvent → Bool
  | .opened => true
  | .created | .noContext | .failed | .lost => false

def ConnectionEvent.isLost : ConnectionEvent → Bool
  | .lost => true
  | .created | .noContext | .opened | .failed => false

/-- The link as the protocol sees it. -/
inductive Link where
  /-- there is no context yet -/
  | unready
  | down
  | up

/-- The events that are allowed, and where they lead.  The end of a connection may be reported
twice. -/
def Link.next : Link → ConnectionEvent → Option Link
  | .unready, .created => some .down
  | .unready, .noContext => some .unready
  | .down, .opened => some .up
  | .down, .failed => some .down
  | .down, .lost => some .down
  | .up, .lost => some .down
  | _, _ => none

/-- The connections that are up. -/
def Link.connections : Link → ℕ
  | .up => 1
  | .unready | .down => 0

/-- The contexts that have been created. -/
def Link.contexts : Link → ℕ
  | .unready => 0
  | .down | .up => 1

section Protocol

variable {last : Link} {events : List ConnectionEvent}

/-- No connection is opened over one that is up. -/
theorem opened_le_lost (follows : Follows Link.next .unready events last) :
    events.countP ConnectionEvent.isOpened ≤ events.countP ConnectionEvent.isLost + 1 := by
  have balance := follows.balance Link.connections ConnectionEvent.isOpened
    ConnectionEvent.isLost
    (fun link event other moved => by cases link <;> cases event <;> cases moved <;> decide)
  have one : last.connections ≤ 1 := by cases last <;> decide
  exact balance.trans (Nat.add_le_add_left one _)

/-- The context is created once. -/
theorem created_le_one (follows : Follows Link.next .unready events last) :
    events.countP ConnectionEvent.isCreated ≤ 1 := by
  have balance := follows.balance Link.contexts ConnectionEvent.isCreated (fun _ => false)
    (fun link event other moved => by cases link <;> cases event <;> cases moved <;> decide)
  have one : last.contexts ≤ 1 := by cases last <;> decide
  rw [List.countP_false] at balance
  exact balance.trans (Nat.add_le_add_left one 0)

end Protocol

/-! ## The events of the program -/

namespace FeedThread

/-- What a call of `connect` shows. -/
def connectEvents (f : FeedThread) (created connected : Bool) : List ConnectionEvent :=
  if f.context then [if connected then .opened else .failed]
  else if created then [.created, if connected then .opened else .failed]
  else [.noContext]

/-- What a callback shows. -/
def callbackEvents (f : FeedThread) (callback : Callback) : List ConnectionEvent :=
  match f.pc, callback with
  | .service, .closed => [.lost]
  | _, _ => []

/-- The pointers as a link. -/
def link (f : FeedThread) : Link :=
  if f.context then if f.wsi then .up else .down else .unready

end FeedThread

/-- Inside the loop of `run`, past `connect`. -/
def FeedPc.serving : FeedPc → Bool
  | .loop | .connecting | .exited => false
  | .service | .calling _ _ | .pushing _ _ | .failed _ _ | .accepted _ | .refused _ => true

def FeedPc.isConnecting : FeedPc → Bool
  | .connecting => true
  | .loop | .service | .calling _ _ | .pushing _ _ | .failed _ _ | .accepted _ | .refused _
  | .exited => false

theorem FeedPc.isConnecting_iff {pc : FeedPc} : pc.isConnecting = true ↔ pc = .connecting := by
  cases pc <;> simp [isConnecting]

def ProgramState.connectionEvents (s : ProgramState) : Action → List ConnectionEvent
  | .feed created connected =>
      if s.feed.pc.isConnecting then s.feed.connectEvents created connected else []
  | .callback callback => s.feed.callbackEvents callback
  | .interrupt | .engine | .main => []

section Runs

variable (k : ℕ) (strtod : String → ℚ)

/-- The live program with what it shows of its connection. -/
def connections : Mealy ProgramState Action (List ConnectionEvent) where
  step s action := s.act k strtod action
  output s action := s.connectionEvents action

theorem connections_after (s : ProgramState) (schedule : List Action) :
    (connections k strtod).after s schedule = (liveProgram k strtod).after s schedule := rfl

end Runs

/-! ## The program follows the protocol -/

/-- The pointers, as far as the position of the thread tells. -/
structure Wired (f : FeedThread) : Prop where
  unlinked : f.pc = .connecting → f.wsi = false
  linked : f.wsi = true → f.context = true
  served : f.pc.serving = true → f.context = true

section Wired

variable {k : ℕ} {strtod : String → ℚ} {f : FeedThread}

/-- A step that leaves the pointers alone and does not come to `connect`. -/
theorem Wired.keep (wired : Wired f) {g : FeedThread} (context : g.context = f.context)
    (wsi : g.wsi = f.wsi) (elsewhere : g.pc ≠ .connecting)
    (served : g.pc.serving = true → f.pc.serving = true) : Wired g where
  unlinked connecting := absurd connecting elsewhere
  linked up := by
    rw [context]
    exact wired.linked (wsi ▸ up)
  served serving := by
    rw [context]
    exact wired.served (served serving)

theorem Wired.onCallback (wired : Wired f) (callback : Callback) :
    Wired (f.onCallback strtod callback) := by
  unfold FeedThread.onCallback
  cases pc : f.pc with
  | service =>
      have serving : f.pc.serving = true := by rw [pc]; rfl
      cases callback with
      | receive m =>
          dsimp only
          split_ifs
          · exact wired
          · exact wired.keep rfl rfl (fun same => FeedPc.noConfusion same) fun _ => serving
          · exact wired.keep rfl rfl (fun same => FeedPc.noConfusion same) fun _ => serving
      | closed =>
          exact ⟨fun _ => rfl, fun up => absurd up Bool.false_ne_true,
            fun _ => wired.served serving⟩
      | established => exact wired
      | other => exact wired
  | _ => exact wired

/-- `connect` leaves the pointers in order. -/
theorem Wired.connect (wired : Wired f) (here : f.pc = .connecting) (created connected : Bool) :
    Wired (f.connect created connected) := by
  have down := wired.unlinked here
  unfold FeedThread.connect
  by_cases ready : f.context = true ∨ created = true
  · rw [if_pos ready]
    refine ⟨fun connecting => ?_, fun _ => rfl, fun _ => rfl⟩
    cases connected with
    | false => cases connecting
    | true => cases connecting
  · rw [if_neg ready]
    exact ⟨fun _ => down, wired.linked, fun serving => absurd serving Bool.false_ne_true⟩

theorem Wired.step (wired : Wired f) (running : Bool) (channel : Channel TradePacket)
    (created connected : Bool) :
    Wired (f.step k strtod running channel created connected).2 := by
  unfold FeedThread.step
  cases pc : f.pc with
  | loop =>
      refine ⟨fun connecting => ?_, wired.linked, fun serving => ?_⟩
      · by_contra up
        have linked : f.wsi = true := Bool.not_eq_false _ ▸ up
        cases running <;> simp [linked, wired.linked linked] at connecting
      · by_contra bare
        have down : f.wsi = false := Bool.eq_false_iff.mpr fun up => bare (wired.linked up)
        cases running <;> simp [down, FeedPc.serving] at serving
  | connecting => exact wired.connect pc created connected
  | service =>
      exact wired.keep rfl rfl (fun same => FeedPc.noConfusion same) fun _ => by rw [pc]; rfl
  | calling m retryCount =>
      exact wired.keep rfl rfl (fun same => FeedPc.noConfusion same) fun _ => by rw [pc]; rfl
  | pushing m retryCount =>
      refine wired.keep rfl rfl (fun same => ?_) fun _ => by rw [pc]; rfl
      dsimp only at same
      split at same <;> cases same
  | failed m retryCount =>
      refine wired.keep rfl rfl (fun same => ?_) fun _ => by rw [pc]; rfl
      dsimp only at same
      split_ifs at same
  | accepted m =>
      exact wired.keep rfl rfl (fun same => FeedPc.noConfusion same) fun _ => by rw [pc]; rfl
  | refused m =>
      exact wired.keep rfl rfl (fun same => FeedPc.noConfusion same) fun _ => by rw [pc]; rfl
  | exited => exact wired

theorem Wired.act {s : ProgramState} (wired : Wired s.feed) (action : Action) :
    Wired (s.act k strtod action).feed := by
  cases action with
  | callback callback => exact wired.onCallback callback
  | feed created connected => exact wired.step s.running s.channel created connected
  | interrupt => exact wired
  | engine => exact wired
  | main => exact wired

/-- A call of `connect` as events. -/
theorem FeedThread.connect_follows (down : f.wsi = false) (created connected : Bool) :
    Follows Link.next f.link (f.connectEvents created connected)
      (f.connect created connected).link := by
  unfold FeedThread.link FeedThread.connectEvents FeedThread.connect
  rw [down]
  cases ready : f.context with
  | true => cases connected <;> exact Follows.cons rfl Follows.nil
  | false =>
      cases created with
      | true => cases connected <;> exact Follows.cons rfl (Follows.cons rfl Follows.nil)
      | false =>
          have shown : Follows Link.next .unready [.noContext] .unready :=
            Follows.cons rfl Follows.nil
          simpa [ready] using shown

/-- Only `connect` sets the pointers. -/
theorem FeedThread.step_pointers (elsewhere : f.pc ≠ .connecting) (running : Bool)
    (channel : Channel TradePacket) (created connected : Bool) :
    (f.step k strtod running channel created connected).2.context = f.context ∧
      (f.step k strtod running channel created connected).2.wsi = f.wsi := by
  unfold FeedThread.step
  cases pc : f.pc with
  | connecting => exact absurd pc elsewhere
  | _ => exact ⟨rfl, rfl⟩

theorem FeedThread.step_connecting (here : f.pc = .connecting) (running : Bool)
    (channel : Channel TradePacket) (created connected : Bool) :
    (f.step k strtod running channel created connected).2 = f.connect created connected := by
  unfold FeedThread.step
  rw [here]

/-- A callback as events; only the end of a connection clears its pointer. -/
theorem FeedThread.onCallback_follows (wired : Wired f) (callback : Callback) :
    Follows Link.next f.link (f.callbackEvents callback) (f.onCallback strtod callback).link := by
  unfold FeedThread.callbackEvents FeedThread.onCallback
  cases pc : f.pc with
  | service =>
      have ready : f.context = true := wired.served (by rw [pc]; rfl)
      cases callback with
      | receive m =>
          dsimp only
          split
          · exact Follows.nil
          · exact Follows.nil
      | closed =>
          unfold FeedThread.link
          rw [ready]
          cases f.wsi <;> exact Follows.cons rfl Follows.nil
      | established => exact Follows.nil
      | other => exact Follows.nil
  | _ => exact Follows.nil

theorem ProgramState.events_follow {s : ProgramState} (wired : Wired s.feed) (action : Action) :
    Follows Link.next s.feed.link (s.connectionEvents action)
      (s.act k strtod action).feed.link := by
  cases action with
  | interrupt => exact Follows.nil
  | engine => exact Follows.nil
  | main => exact Follows.nil
  | callback callback => exact s.feed.onCallback_follows wired callback
  | feed created connected =>
      have after : (s.act k strtod (.feed created connected)).feed =
        (s.feed.step k strtod s.running s.channel created connected).2 := rfl
      rw [after, connectionEvents]
      by_cases here : s.feed.pc.isConnecting = true
      · have connecting := FeedPc.isConnecting_iff.mp here
        rw [FeedThread.step_connecting connecting, if_pos here]
        exact FeedThread.connect_follows (wired.unlinked connecting) created connected
      · have elsewhere : s.feed.pc ≠ .connecting :=
          fun connecting => here (FeedPc.isConnecting_iff.mpr connecting)
        obtain ⟨context, wsi⟩ := @FeedThread.step_pointers k strtod _ elsewhere
          s.running s.channel created connected
        rw [if_neg here, FeedThread.link, FeedThread.link, context, wsi]
        exact Follows.nil

end Wired

/-- The connection in every run, whatever libwebsockets does: one context is created at most,
no connection is opened while one is up, and the library is served only with a context. -/
theorem connection_protocol (k : ℕ) (strtod : String → ℚ) (buffer : ℕ → TradePacket)
    (length : BarLength) (opened : Bool) (schedule : List Action) :
    let s := programAfter k strtod buffer length opened schedule
    let events := (connections k strtod).log (.fresh buffer length opened) schedule
    Follows Link.next .unready events s.feed.link ∧
    events.countP ConnectionEvent.isCreated ≤ 1 ∧
    events.countP ConnectionEvent.isOpened ≤ events.countP ConnectionEvent.isLost + 1 ∧
    (s.feed.pc = .service → s.feed.context = true) := by
  intro s events
  have fresh : Wired (ProgramState.fresh buffer length opened).feed :=
    ⟨fun _ => rfl, fun up => absurd up Bool.false_ne_true,
      fun serving => absurd serving Bool.false_ne_true⟩
  have follows : Follows Link.next .unready events s.feed.link := by
    have shown := @Mealy.log_follows _ _ _ (connections k strtod) _ Link.next
      (fun state => state.feed.link) (fun state => Wired state.feed)
      (fun _ action wired => wired.act action)
      (fun _ action wired => ProgramState.events_follow wired action) _ fresh schedule
    rw [connections_after] at shown
    exact shown
  have wired : Wired s.feed := (liveProgram k strtod).after_invariant
    (fun state => Wired state.feed) fresh (fun state action wired => wired.act action) schedule
  refine ⟨follows, created_le_one follows, opened_le_lost follows, fun serving => ?_⟩
  exact wired.served (by rw [serving]; rfl)

end PrismPipeline.Program
