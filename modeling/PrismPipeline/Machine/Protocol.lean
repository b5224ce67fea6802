import PrismPipeline.Machine.Progress

/-!
# Events against a protocol

A protocol is a partial transition function on events.  A machine follows it if the events of
each of its steps lead from the view of one state to the view of the next; then so do the
events of every run, and what balances at every event balances over the whole run.  The last
rule is about progress: an event that own steps bring closer is shown after enough of them.
-/

namespace PrismPipeline.Machine

/-- The events are allowed one after the other, and lead to `last`. -/
def Follows {π ε : Type*} (next : π → ε → Option π) (start : π) (events : List ε) (last : π) :
    Prop :=
  events.foldlM next start = some last

section Follows

variable {π ε : Type*} {next : π → ε → Option π} {start middle last : π}

theorem Follows.nil : Follows next start [] start := rfl

theorem follows_nil : Follows next start [] last ↔ start = last :=
  Option.some_inj

theorem follows_cons {event : ε} {rest : List ε} :
    Follows next start (event :: rest) last ↔
      ∃ middle, next start event = some middle ∧ Follows next middle rest last :=
  Option.bind_eq_some_iff

theorem Follows.cons {event : ε} {rest : List ε} (first : next start event = some middle)
    (later : Follows next middle rest last) : Follows next start (event :: rest) last :=
  follows_cons.mpr ⟨middle, first, later⟩

theorem Follows.append {first second : List ε} (before : Follows next start first middle)
    (after : Follows next middle second last) : Follows next start (first ++ second) last := by
  induction first generalizing start with
  | nil => exact follows_nil.mp before ▸ after
  | cons event rest ih =>
      obtain ⟨between, now, later⟩ := follows_cons.mp before
      exact Follows.cons now (ih later)

/-- What every event pays for is paid for in the end. -/
theorem Follows.balance {events : List ε} (level : π → ℕ) (spent earned : ε → Bool)
    (pays : ∀ state event other, next state event = some other →
      (spent event).toNat + level state ≤ (earned event).toNat + level other)
    (follows : Follows next start events last) :
    events.countP spent + level start ≤ events.countP earned + level last := by
  induction events generalizing start with
  | nil =>
      rw [follows_nil.mp follows]
      exact Nat.le_refl _
  | cons event rest ih =>
      obtain ⟨middle, now, later⟩ := follows_cons.mp follows
      have first := pays start event middle now
      have others := ih later
      rw [countP_cons_toNat, countP_cons_toNat]
      omega

end Follows

namespace Mealy

variable {σ ι ε : Type*} {machine : Mealy σ ι (List ε)}

/-- The events of a run. -/
def log (machine : Mealy σ ι (List ε)) (start : σ) (inputs : List ι) : List ε :=
  (machine.outputs start inputs).flatten

theorem log_cons (start : σ) (input : ι) (rest : List ι) :
    machine.log start (input :: rest) =
      machine.output start input ++ machine.log (machine.step start input) rest := rfl

/-- A machine whose steps follow a protocol follows it in every run. -/
theorem log_follows {π : Type*} {next : π → ε → Option π} (view : σ → π) (Good : σ → Prop)
    (kept : ∀ state input, Good state → Good (machine.step state input))
    (moves : ∀ state input, Good state →
      Follows next (view state) (machine.output state input) (view (machine.step state input)))
    {start : σ} (good : Good start) (inputs : List ι) :
    Follows next (view start) (machine.log start inputs)
      (view (machine.after start inputs)) := by
  induction inputs generalizing start with
  | nil => exact Follows.nil
  | cons input rest ih =>
      exact (moves start input good).append (ih (kept start input good))

/-- An event that every own input brings closer, unless it is shown, is shown after enough own
inputs. -/
theorem shows_event {Good : σ → Prop} {Allowed : ι → Prop} {own : ι → Bool} {charge : ι → ℕ}
    {measure : σ → ℕ} {sought : ε → Prop}
    (ahead : ∀ state, Good state → 0 < measure state)
    (nears : ∀ state input, Good state → Allowed input →
      (∃ event ∈ machine.output state input, sought event) ∨
      Good (machine.step state input) ∧
        measure (machine.step state input) + (own input).toNat ≤ measure state + charge input)
    {start : σ} (good : Good start) {inputs : List ι} (allowed : ∀ input ∈ inputs, Allowed input)
    (enough : measure start + (inputs.map charge).sum ≤ inputs.countP own) :
    ∃ event ∈ machine.log start inputs, sought event := by
  induction inputs generalizing start with
  | nil =>
      have some := ahead start good
      rw [List.countP_nil] at enough
      exact absurd (Nat.le_of_add_right_le enough) (Nat.not_le.mpr some)
  | cons input rest ih =>
      obtain ⟨now, later⟩ := List.forall_mem_cons.mp allowed
      rw [log_cons]
      rcases nears start input good now with ⟨event, shown, found⟩ | ⟨goodNext, nearer⟩
      · exact ⟨event, List.mem_append_left _ shown, found⟩
      · have left : measure (machine.step start input) + (rest.map charge).sum ≤
            rest.countP own := by
          rw [List.map_cons, List.sum_cons, countP_cons_toNat] at enough
          omega
        obtain ⟨event, shown, found⟩ := ih goodNext later left
        exact ⟨event, List.mem_append_right _ shown, found⟩

end Mealy

end PrismPipeline.Machine
