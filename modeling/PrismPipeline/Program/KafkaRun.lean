import PrismPipeline.Program.KafkaProducer

/-!
# Runs of the Kafka producer

Every trade that is handed over carries the number of the trades taken before it, so a
refused trade is offered again under its number, and the trades taken are numbered without
gaps.  No trade is handed over before its time, which bounds the rate of every run.
-/

namespace PrismPipeline.Program

open PrismPipeline.Machine PrismPipeline.Series

namespace KafkaProducer

variable {ratePerSec : UInt64} {startNs : ℕ} {s : KafkaProducer}

/-! ## Numbers -/

/-- The trade of an offer is the one with a number. -/
def HasNumber (n : ℕ) (offer : Offer) : Prop :=
  offer.trade = simTrade (.ofNat n) offer.trade.timestampNs

/-- `sent` counts the trades taken, and the numbers follow it. -/
structure Counted (s : KafkaProducer) : Prop where
  sent_eq : s.sent = .ofNat s.count
  numbered : Numbered HasNumber Offer.taken s.offers
  built : ∀ trade, s.pc = .producing trade → trade = simTrade s.sent trade.timestampNs

theorem Counted.keep (counted : Counted s) {next : KafkaProducer} (sent : next.sent = s.sent)
    (offers : next.offers = s.offers) (idle : ∀ trade, next.pc ≠ .producing trade) :
    Counted next := by
  refine ⟨?_, ?_, fun trade building => absurd building (idle trade)⟩
  · rw [sent, count, offers]
    exact counted.sent_eq
  · rw [offers]
    exact counted.numbered

/-- The counter moves with the trades taken. -/
theorem count_snoc (offers : List Offer) (offer : Offer) :
    (offers ++ [offer]).countP Offer.taken = offers.countP Offer.taken + offer.taken.toNat := by
  rw [List.countP_append, countP_cons_toNat, List.countP_nil, Nat.zero_add]

theorem Counted.offered (counted : Counted s) {trade : Trade} (here : s.pc = .producing trade)
    (timestampNs : Int64) (answer : ProduceAnswer) :
    Counted (s.advance ratePerSec startNs timestampNs answer) := by
  have number : HasNumber s.count ⟨trade, s.clock, answer⟩ := by
    have built := counted.built trade here
    rw [counted.sent_eq] at built
    exact built
  unfold advance
  rw [here]
  refine ⟨?_, numbered_snoc.mpr ⟨counted.numbered, number⟩, ?_⟩
  · unfold count
    rw [count_snoc]
    cases answer with
    | noError => exact (congrArg (· + 1) counted.sent_eq).trans (UInt64.ofNat_add _ 1).symm
    | queueFull => exact counted.sent_eq
    | failed => exact counted.sent_eq
  · intro other building
    cases answer with
    | noError => cases building
    | queueFull => cases building
    | failed => cases building

theorem Counted.act (counted : Counted s) (action : KafkaAction) :
    Counted (s.act ratePerSec startNs action) := by
  cases action with
  | tick more => exact ⟨counted.sent_eq, counted.numbered, counted.built⟩
  | interrupt => exact ⟨counted.sent_eq, counted.numbered, counted.built⟩
  | producer timestampNs answer =>
      cases here : s.pc with
      | loop =>
          rw [KafkaProducer.act, advance, here]
          refine counted.keep rfl rfl fun trade building => ?_
          dsimp only at building
          split_ifs at building
      | waiting =>
          rw [KafkaProducer.act, advance, here]
          refine counted.keep rfl rfl fun trade building => ?_
          dsimp only at building
          split_ifs at building
      | building =>
          rw [KafkaProducer.act, advance, here]
          refine ⟨counted.sent_eq, counted.numbered, fun trade building => ?_⟩
          cases building
          rfl
      | producing trade => exact counted.offered here timestampNs answer
      | polling =>
          rw [KafkaProducer.act, advance, here]
          dsimp only
          split_ifs
          · exact counted.keep rfl rfl fun trade building => KafkaPc.noConfusion building
          · exact counted.keep rfl rfl fun trade building => KafkaPc.noConfusion building
      | flushed =>
          rw [KafkaProducer.act, advance, here]
          exact counted

/-! ## Times -/

/-- An offer is not made before its time. -/
def InItsTime (ratePerSec : UInt64) (startNs n : ℕ) (offer : Offer) : Prop :=
  startNs + n * (intervalNs ratePerSec).toNat ≤ offer.time

/-- The clock has reached the due time where it was compared, and is at most one interval
behind it anywhere else. -/
structure Paced (ratePerSec : UInt64) (startNs : ℕ) (s : KafkaProducer) : Prop where
  offered : Numbered (InItsTime ratePerSec startNs) Offer.taken s.offers
  behind : startNs + s.count * (intervalNs ratePerSec).toNat ≤
    s.clock + (intervalNs ratePerSec).toNat
  reached : s.pc = .building ∨ (∃ trade, s.pc = .producing trade) →
    startNs + s.count * (intervalNs ratePerSec).toNat ≤ s.clock

/-- An interval is a second at most. -/
theorem intervalNs_le (ratePerSec : UInt64) : (intervalNs ratePerSec).toNat ≤ 10 ^ 9 := by
  unfold intervalNs
  split_ifs
  · rw [UInt64.toNat_div]
    exact Nat.div_le_self _ _
  · exact Nat.zero_le _

/-- Where nothing wraps, the due time is the plain product away from the start. -/
theorem dueTime_eq {n : ℕ} (fits : n * (intervalNs ratePerSec).toNat < 2 ^ 63) :
    dueTime ratePerSec startNs (.ofNat n) =
      ((startNs + n * (intervalNs ratePerSec).toNat : ℕ) : ℤ) := by
  have product : UInt64.ofNat n * intervalNs ratePerSec =
      .ofNat (n * (intervalNs ratePerSec).toNat) := by
    rw [UInt64.ofNat_mul, UInt64.ofNat_toNat]
  rw [dueTime, product, UInt64.toInt64_ofNat', Int64.toInt_ofNat_of_lt fits]
  exact (Nat.cast_add _ _).symm

theorem Paced.later (paced : Paced ratePerSec startNs s) {next : KafkaProducer}
    (clock : s.clock ≤ next.clock) (offers : next.offers = s.offers)
    (idle : next.pc = .building ∨ (∃ trade, next.pc = .producing trade) →
      s.pc = .building ∨ ∃ trade, s.pc = .producing trade) :
    Paced ratePerSec startNs next := by
  have same : next.count = s.count := congrArg (List.countP Offer.taken) offers
  refine ⟨?_, ?_, fun here => ?_⟩
  · rw [offers]
    exact paced.offered
  · rw [same]
    exact paced.behind.trans (Nat.add_le_add_right clock _)
  · rw [same]
    exact (paced.reached (idle here)).trans clock

/-- The wait is over when the time of the next trade has come. -/
theorem Paced.due (paced : Paced ratePerSec startNs s) (counted : Counted s)
    (early : s.clock + 10 ^ 9 < 2 ^ 63) :
    dueTime ratePerSec startNs s.sent =
      ((startNs + s.count * (intervalNs ratePerSec).toNat : ℕ) : ℤ) := by
  rw [counted.sent_eq]
  apply dueTime_eq
  have behind := paced.behind
  have second := intervalNs_le ratePerSec
  omega

theorem Paced.offer (paced : Paced ratePerSec startNs s) {trade : Trade}
    (here : s.pc = .producing trade) (timestampNs : Int64) (answer : ProduceAnswer) :
    Paced ratePerSec startNs (s.advance ratePerSec startNs timestampNs answer) := by
  have reached := paced.reached (Or.inr ⟨trade, here⟩)
  unfold advance
  rw [here]
  refine ⟨numbered_snoc.mpr ⟨paced.offered, reached⟩, ?_, fun building => ?_⟩
  · unfold count at reached ⊢
    dsimp only
    rw [count_snoc, Nat.add_mul, ← Nat.add_assoc]
    refine Nat.add_le_add reached ?_
    exact (Nat.mul_le_mul_right _ (Bool.toNat_le _)).trans_eq (Nat.one_mul _)
  · cases answer with
    | noError => rcases building with now | ⟨_, now⟩ <;> cases now
    | queueFull => rcases building with now | ⟨_, now⟩ <;> cases now
    | failed => rcases building with now | ⟨_, now⟩ <;> cases now

theorem Paced.act (paced : Paced ratePerSec startNs s) (counted : Counted s)
    (early : s.clock + 10 ^ 9 < 2 ^ 63) (action : KafkaAction) :
    Paced ratePerSec startNs (s.act ratePerSec startNs action) := by
  cases action with
  | tick more => exact paced.later (Nat.le_add_right _ _) rfl id
  | interrupt => exact paced.later (Nat.le_refl _) rfl id
  | producer timestampNs answer =>
      cases here : s.pc with
      | loop =>
          rw [KafkaProducer.act, advance, here]
          refine ⟨paced.offered, paced.behind, fun building => ?_⟩
          dsimp only at building
          split_ifs at building with running positive
          · rcases building with now | ⟨_, now⟩ <;> cases now
          · -- no interval, no waiting
            have zero : (intervalNs ratePerSec).toNat = 0 := by
              rw [UInt64.lt_iff_toNat_lt] at positive
              exact Nat.eq_zero_of_not_pos positive
            have behind := paced.behind
            rw [zero] at behind ⊢
            exact behind
          · rcases building with now | ⟨_, now⟩ <;> cases now
      | waiting =>
          rw [KafkaProducer.act, advance, here]
          refine ⟨paced.offered, paced.behind, fun building => ?_⟩
          dsimp only at building
          split_ifs at building with ahead
          · rcases building with now | ⟨_, now⟩ <;> cases now
          · rw [paced.due counted early] at ahead
            exact_mod_cast not_lt.mp ahead
      | building =>
          rw [KafkaProducer.act, advance, here]
          exact paced.later (Nat.le_refl _) rfl fun _ => Or.inl here
      | producing trade => exact paced.offer here timestampNs answer
      | polling =>
          rw [KafkaProducer.act, advance, here]
          dsimp only
          split_ifs
          · refine paced.later (Nat.le_refl _) rfl ?_
            rintro (now | ⟨_, now⟩) <;> cases now
          · refine paced.later (Nat.le_refl _) rfl ?_
            rintro (now | ⟨_, now⟩) <;> cases now
      | flushed =>
          rw [KafkaProducer.act, advance, here]
          exact paced

/-! ## The counts printed -/

/-- The lines are the multiples of the rate, as far as the counter has come. -/
structure Printed (ratePerSec : UInt64) (s : KafkaProducer) : Prop where
  lines_eq : s.lines = (List.range s.lines.length).map fun i =>
    .ofNat ((i + 1) * ratePerSec.toNat)
  last_eq : s.lastPrint = .ofNat (s.lines.length * ratePerSec.toNat)
  printed_le : s.lines.length * ratePerSec.toNat ≤ s.count
  near : s.count ≤ s.lines.length * ratePerSec.toNat + ratePerSec.toNat
  compared : s.pc ≠ .polling → s.count < s.lines.length * ratePerSec.toNat + ratePerSec.toNat

theorem Printed.keep (printed : Printed ratePerSec s) {next : KafkaProducer}
    (lines : next.lines = s.lines) (last : next.lastPrint = s.lastPrint)
    (offers : next.offers = s.offers) (calm : next.pc ≠ .polling → s.pc ≠ .polling) :
    Printed ratePerSec next := by
  have same : next.count = s.count := congrArg (List.countP Offer.taken) offers
  refine ⟨?_, ?_, ?_, ?_, fun here => ?_⟩
  · rw [lines]
    exact printed.lines_eq
  · rw [lines, last]
    exact printed.last_eq
  · rw [lines, same]
    exact printed.printed_le
  · rw [lines, same]
    exact printed.near
  · rw [lines, same]
    exact printed.compared (calm here)

/-- The comparison before a line, as one of counts: the rate is reached exactly. -/
theorem Printed.test_iff (printed : Printed ratePerSec s) (counted : Counted s) :
    ratePerSec ≤ s.sent - s.lastPrint ↔
      s.count = s.lines.length * ratePerSec.toNat + ratePerSec.toNat := by
  have near := printed.near
  have below := printed.printed_le
  have word : s.count - s.lines.length * ratePerSec.toNat < UInt64.size :=
    lt_of_le_of_lt (Nat.sub_le_iff_le_add'.mpr near) ratePerSec.toNat_lt_size
  rw [counted.sent_eq, printed.last_eq, ← UInt64.ofNat_sub below, UInt64.le_iff_toNat_le,
    UInt64.toNat_ofNat_of_lt' word]
  omega

theorem Printed.print (printed : Printed ratePerSec s) (counted : Counted s)
    (positive : 0 < ratePerSec.toNat)
    (full : s.count = s.lines.length * ratePerSec.toNat + ratePerSec.toNat) {pc : KafkaPc} :
    Printed ratePerSec { s with lines := s.lines ++ [s.sent], lastPrint := s.sent, pc := pc } := by
  have next : (s.lines.length + 1) * ratePerSec.toNat = s.count := by
    rw [Nat.succ_mul, full]
  have length : (s.lines ++ [s.sent]).length = s.lines.length + 1 :=
    List.length_append
  refine ⟨?_, ?_, ?_, ?_, fun _ => ?_⟩
  · dsimp only
    rw [length, List.range_succ, List.map_append, ← printed.lines_eq, List.map_singleton, next,
      counted.sent_eq]
  · dsimp only
    rw [length, next, counted.sent_eq]
  · dsimp only
    rw [length, next]
    exact Nat.le_refl _
  · dsimp only
    rw [length, next]
    exact Nat.le_add_right _ _
  · dsimp only
    rw [length, next]
    exact Nat.lt_add_of_pos_right positive

/-- An offer brings the counter up to the rate at most, and then the counts are compared. -/
theorem Printed.offer (printed : Printed ratePerSec s) {trade : Trade}
    (here : s.pc = .producing trade) (timestampNs : Int64) (answer : ProduceAnswer) :
    Printed ratePerSec (s.advance ratePerSec startNs timestampNs answer) := by
  have room := printed.compared (by rw [here]; exact KafkaPc.noConfusion)
  have below := printed.printed_le
  have one := Bool.toNat_le (Offer.taken ⟨trade, s.clock, answer⟩)
  unfold advance
  rw [here]
  unfold count at room below
  refine ⟨printed.lines_eq, printed.last_eq, ?_, ?_, fun calm => ?_⟩
  · unfold count
    rw [count_snoc]
    exact below.trans (Nat.le_add_right _ _)
  · unfold count
    rw [count_snoc]
    exact (Nat.add_le_add_left one _).trans room
  · unfold count
    rw [count_snoc]
    cases answer with
    | noError => exact absurd rfl calm
    | queueFull => exact room
    | failed => exact absurd rfl calm

theorem Printed.act (printed : Printed ratePerSec s) (counted : Counted s)
    (positive : 0 < ratePerSec.toNat) (action : KafkaAction) :
    Printed ratePerSec (s.act ratePerSec startNs action) := by
  cases action with
  | tick more => exact printed.keep rfl rfl rfl id
  | interrupt => exact printed.keep rfl rfl rfl id
  | producer timestampNs answer =>
      cases here : s.pc with
      | loop =>
          rw [KafkaProducer.act, advance, here]
          exact printed.keep rfl rfl rfl fun _ => by simp [here]
      | waiting =>
          rw [KafkaProducer.act, advance, here]
          exact printed.keep rfl rfl rfl fun _ => by simp [here]
      | building =>
          rw [KafkaProducer.act, advance, here]
          exact printed.keep rfl rfl rfl fun _ => by simp [here]
      | producing trade => exact printed.offer here timestampNs answer
      | polling =>
          rw [KafkaProducer.act, advance, here]
          dsimp only
          split_ifs with test
          · exact printed.print counted positive ((printed.test_iff counted).mp test)
          · rw [printed.test_iff counted] at test
            exact ⟨printed.lines_eq, printed.last_eq, printed.printed_le, printed.near,
              fun _ => Nat.lt_of_le_of_ne printed.near test⟩
      | flushed =>
          rw [KafkaProducer.act, advance, here]
          exact printed

/-! ## Whole runs -/

section Runs

variable (ratePerSec : UInt64) (startNs : ℕ) (actions : List KafkaAction)

/-- The state after a schedule. -/
def afterRun : KafkaProducer :=
  (kafkaProducer ratePerSec startNs).after { clock := startNs } actions

theorem afterRun_snoc (action : KafkaAction) :
    afterRun ratePerSec startNs (actions ++ [action]) =
      (afterRun ratePerSec startNs actions).act ratePerSec startNs action :=
  Mealy.after_snoc _ _ _ _

theorem afterRun_counted : Counted (afterRun ratePerSec startNs actions) := by
  refine Mealy.after_invariant _ Counted ?_ (fun state action counted => counted.act action) actions
  exact ⟨rfl, Numbered.nil, fun trade building => KafkaPc.noConfusion building⟩

theorem afterRun_printed (positive : 0 < ratePerSec.toNat) :
    Printed ratePerSec (afterRun ratePerSec startNs actions) := by
  induction actions using List.reverseRecOn with
  | nil =>
      refine ⟨rfl, ?_, ?_, ?_, fun _ => ?_⟩
      all_goals simp [afterRun, count, positive]
  | append_singleton actions action ih =>
      rw [afterRun_snoc]
      exact ih.act (afterRun_counted ratePerSec startNs actions) positive action

theorem advance_clock (s : KafkaProducer) (timestampNs : Int64) (answer : ProduceAnswer) :
    (s.advance ratePerSec startNs timestampNs answer).clock = s.clock := by
  unfold advance
  cases s.pc with
  | polling =>
      dsimp only
      split_ifs
      · rfl
      · rfl
  | loop | waiting | building | producing | flushed => rfl

theorem clock_le_act (s : KafkaProducer) (action : KafkaAction) :
    s.clock ≤ (s.act ratePerSec startNs action).clock := by
  cases action with
  | tick more => exact Nat.le_add_right _ _
  | interrupt => exact Nat.le_refl _
  | producer timestampNs answer => exact (advance_clock ratePerSec startNs s _ _).ge

theorem afterRun_paced (early : (afterRun ratePerSec startNs actions).clock + 10 ^ 9 < 2 ^ 63) :
    Paced ratePerSec startNs (afterRun ratePerSec startNs actions) := by
  induction actions using List.reverseRecOn with
  | nil =>
      refine ⟨Numbered.nil, ?_, ?_⟩
      · simp [afterRun, count]
      · rintro (now | ⟨_, now⟩) <;> cases now
  | append_singleton actions action ih =>
      rw [afterRun_snoc] at early ⊢
      have before := clock_le_act ratePerSec startNs (afterRun ratePerSec startNs actions) action
      have still : (afterRun ratePerSec startNs actions).clock + 10 ^ 9 < 2 ^ 63 :=
        lt_of_le_of_lt (Nat.add_le_add_right before _) early
      exact (ih still).act (afterRun_counted ratePerSec startNs actions) still action

end Runs

/-- Messages taken in an interval: the first at once, the others an interval after it each. -/
theorem Paced.count_le (paced : Paced ratePerSec startNs s)
    (positive : 0 < (intervalNs ratePerSec).toNat) :
    s.count ≤ (s.clock - startNs) / (intervalNs ratePerSec).toNat + 1 := by
  have behind := paced.behind
  rw [← Nat.sub_le_iff_le_add, Nat.le_div_iff_mul_le positive, Nat.sub_mul, Nat.one_mul]
  omega

/-! ## After an interrupt -/

/-- An offer that is on its way and is made although the loop is to end. -/
def pending : KafkaPc → ℕ
  | .waiting | .building | .producing _ => 1
  | .loop | .polling | .flushed => 0

/-- The steps to the end of a loop that is to end. -/
def stepsLeft : KafkaPc → ℕ
  | .waiting => 5
  | .building => 4
  | .producing _ => 3
  | .polling => 2
  | .loop => 1
  | .flushed => 0

/-- The loop is to end, and no wait is left. -/
def Ending (ratePerSec : UInt64) (startNs : ℕ) (s : KafkaProducer) : Prop :=
  s.running = false ∧ (s.pc = .waiting → dueTime ratePerSec startNs s.sent ≤ s.clock)

/-- A loop that is to end stays so, and makes the offer on its way at most. -/
theorem act_pending (stopped : s.running = false) (action : KafkaAction) :
    (s.act ratePerSec startNs action).running = false ∧
      (s.act ratePerSec startNs action).offers.length +
          pending (s.act ratePerSec startNs action).pc ≤
        s.offers.length + pending s.pc := by
  cases action with
  | tick more => exact ⟨stopped, Nat.le_refl _⟩
  | interrupt => exact ⟨rfl, Nat.le_refl _⟩
  | producer timestampNs answer =>
      rw [KafkaProducer.act, advance]
      cases here : s.pc with
      | loop => exact ⟨stopped, by simp [stopped, pending]⟩
      | waiting =>
          refine ⟨stopped, ?_⟩
          dsimp only
          split_ifs <;> exact Nat.le_refl _
      | building => exact ⟨stopped, Nat.le_refl _⟩
      | producing trade =>
          refine ⟨stopped, ?_⟩
          rw [List.length_append, List.length_singleton]
          dsimp only
          split_ifs <;> exact Nat.le_refl _
      | polling =>
          dsimp only
          split_ifs
          · exact ⟨stopped, Nat.le_refl _⟩
          · exact ⟨stopped, Nat.le_refl _⟩
      | flushed => exact ⟨stopped, by simp [here]⟩

theorem after_pending (stopped : s.running = false) (later : List KafkaAction) :
    ((kafkaProducer ratePerSec startNs).after s later).running = false ∧
      ((kafkaProducer ratePerSec startNs).after s later).offers.length ≤ s.offers.length + 1 := by
  have kept := Mealy.after_invariant (kafkaProducer ratePerSec startNs)
    (fun next => next.running = false ∧
      next.offers.length + pending next.pc ≤ s.offers.length + pending s.pc)
    ⟨stopped, Nat.le_refl _⟩
    (fun next action good =>
      ⟨(act_pending good.1 action).1, (act_pending good.1 action).2.trans good.2⟩) later
  have one : pending s.pc ≤ 1 := by
    cases s.pc with
    | loop | polling | flushed => exact Nat.zero_le _
    | waiting | building | producing => exact Nat.le_refl _
  refine ⟨kept.1, ?_⟩
  exact (Nat.le_add_right _ _).trans (kept.2.trans (Nat.add_le_add_left one _))

/-- Every step of its own brings the loop closer to its end. -/
theorem advance_closer (ending : Ending ratePerSec startNs s) (timestampNs : Int64)
    (answer : ProduceAnswer) :
    (s.advance ratePerSec startNs timestampNs answer).pc ≠ .waiting ∧
      stepsLeft (s.advance ratePerSec startNs timestampNs answer).pc ≤ stepsLeft s.pc - 1 := by
  obtain ⟨stopped, waited⟩ := ending
  unfold advance
  cases here : s.pc with
  | loop => simp [stopped, stepsLeft]
  | waiting => simp [not_lt.mpr (waited here), stepsLeft]
  | building => exact ⟨KafkaPc.noConfusion, Nat.le_refl _⟩
  | producing trade =>
      dsimp only
      split_ifs
      · exact ⟨KafkaPc.noConfusion, Nat.le_succ 1⟩
      · exact ⟨KafkaPc.noConfusion, Nat.le_refl 2⟩
  | polling =>
      dsimp only
      split_ifs
      · exact ⟨KafkaPc.noConfusion, Nat.le_refl _⟩
      · exact ⟨KafkaPc.noConfusion, Nat.le_refl _⟩
  | flushed => simp [here, stepsLeft]

theorem Ending.act (ending : Ending ratePerSec startNs s) (action : KafkaAction) :
    Ending ratePerSec startNs (s.act ratePerSec startNs action) := by
  refine ⟨(act_pending ending.1 action).1, fun waiting => ?_⟩
  cases action with
  | tick more =>
      refine (ending.2 waiting).trans ?_
      exact_mod_cast Nat.le_add_right _ _
  | interrupt => exact ending.2 waiting
  | producer timestampNs answer =>
      exact absurd waiting (advance_closer ending timestampNs answer).1

theorem ending_wears :
    (kafkaProducer ratePerSec startNs).Wears (Ending ratePerSec startNs) (fun _ => True)
      KafkaAction.own (fun _ => 0) (fun s => stepsLeft s.pc) where
  kept _ action ending _ := ending.act action
  rests s action ending _ zero := by
    cases action with
    | tick more => exact zero
    | interrupt => exact zero
    | producer timestampNs answer =>
        have closer := (advance_closer ending timestampNs answer).2
        rw [zero] at closer
        exact Nat.le_zero.mp closer
  wears s action ending _ busy := by
    cases action with
    | tick more => exact Nat.le_refl _
    | interrupt => exact Nat.le_refl _
    | producer timestampNs answer =>
        have closer := (advance_closer ending timestampNs answer).2
        exact Nat.add_le_of_le_sub (Nat.one_le_iff_ne_zero.mpr busy) closer

theorem stepsLeft_eq_zero {pc : KafkaPc} (zero : stepsLeft pc = 0) : pc = .flushed := by
  cases pc with
  | flushed => rfl
  | loop | waiting | building | producing | polling => exact absurd zero (Nat.succ_ne_zero _)

theorem stepsLeft_le (pc : KafkaPc) : stepsLeft pc ≤ 5 := by
  cases pc <;> simp [stepsLeft]

/-- Five steps end the loop. -/
theorem after_flushed (ending : Ending ratePerSec startNs s) {later : List KafkaAction}
    (enough : 5 ≤ later.countP KafkaAction.own) :
    ((kafkaProducer ratePerSec startNs).after s later).pc = .flushed := by
  apply stepsLeft_eq_zero
  exact ending_wears.reaches_zero_free ending (fun _ _ => trivial)
    ((stepsLeft_le s.pc).trans enough)

end KafkaProducer

open KafkaProducer

/-- Every run of the Kafka producer, whatever librdkafka answers. -/
theorem producer_run (ratePerSec : UInt64) (startNs : ℕ) (actions : List KafkaAction) :
    let s := afterRun ratePerSec startNs actions
    -- an offer carries the number of the trades taken before it
    (∀ i offer, s.offers[i]? = some offer →
      offer.trade =
        simTrade (.ofNat ((s.offers.take i).countP Offer.taken)) offer.trade.timestampNs) ∧
    -- the trades taken are numbered without gaps
    (∀ i offer, s.takenOffers[i]? = some offer →
      offer.trade = simTrade (.ofNat i) offer.trade.timestampNs) ∧
    -- no offer comes before its time, so that there are not too many
    (s.clock + 10 ^ 9 < 2 ^ 63 →
      (∀ i offer, s.offers[i]? = some offer →
        startNs + (s.offers.take i).countP Offer.taken * (intervalNs ratePerSec).toNat ≤
          offer.time) ∧
      (∀ i offer, s.takenOffers[i]? = some offer →
        startNs + i * (intervalNs ratePerSec).toNat ≤ offer.time) ∧
      (0 < (intervalNs ratePerSec).toNat →
        s.takenOffers.length ≤ (s.clock - startNs) / (intervalNs ratePerSec).toNat + 1)) ∧
    -- the lines are the multiples of the rate, one by one
    (0 < ratePerSec.toNat → s.pc ≠ .polling →
      s.lines = (List.range (s.takenOffers.length / ratePerSec.toNat)).map fun i =>
        .ofNat ((i + 1) * ratePerSec.toNat)) := by
  intro s
  have counted : Counted s := afterRun_counted ratePerSec startNs actions
  have length : s.takenOffers.length = s.count := List.countP_eq_length_filter.symm
  refine ⟨counted.numbered, fun i offer => counted.numbered.successes, fun early => ?_,
    fun positive calm => ?_⟩
  · have paced : Paced ratePerSec startNs s := afterRun_paced ratePerSec startNs actions early
    rw [length]
    exact ⟨paced.offered, fun i offer => paced.offered.successes, paced.count_le⟩
  · have printed : Printed ratePerSec s := afterRun_printed ratePerSec startNs actions positive
    have lines : s.lines.length = s.count / ratePerSec.toNat := by
      refine (Nat.div_eq_of_lt_le printed.printed_le ?_).symm
      rw [Nat.succ_mul]
      exact printed.compared calm
    rw [length, ← lines]
    exact printed.lines_eq

/-- After an interrupt one more trade is offered at most, and as soon as the clock is past the
due time of the next trade five steps end the loop. -/
theorem producer_stops (ratePerSec : UInt64) (startNs : ℕ)
    (before between later : List KafkaAction) :
    let interrupted := before ++ .interrupt :: between
    let s := afterRun ratePerSec startNs interrupted
    let last := afterRun ratePerSec startNs (interrupted ++ later)
    last.offers.length ≤ (afterRun ratePerSec startNs before).offers.length + 1 ∧
    (dueTime ratePerSec startNs s.sent ≤ s.clock → 5 ≤ later.countP KafkaAction.own →
      last.pc = .flushed) := by
  intro interrupted s last
  have first : (afterRun ratePerSec startNs (before ++ [.interrupt])).running = false := by
    rw [afterRun_snoc]
    rfl
  have offers : (afterRun ratePerSec startNs (before ++ [.interrupt])).offers =
      (afterRun ratePerSec startNs before).offers := by
    rw [afterRun_snoc]
    rfl
  have stopped (rest : List KafkaAction) : afterRun ratePerSec startNs
      (before ++ .interrupt :: rest) = (kafkaProducer ratePerSec startNs).after
        (afterRun ratePerSec startNs (before ++ [.interrupt])) rest := by
    unfold afterRun
    rw [← Mealy.after_append, List.append_assoc, List.singleton_append]
  constructor
  · have whole : interrupted ++ later = before ++ .interrupt :: (between ++ later) :=
      List.append_assoc _ _ _
    have few := (@after_pending ratePerSec startNs _ first (between ++ later)).2
    rw [← stopped, offers, ← whole] at few
    exact few
  · intro due enough
    have running := (@after_pending ratePerSec startNs _ first between).1
    rw [← stopped] at running
    have ending : Ending ratePerSec startNs s := ⟨running, fun _ => due⟩
    have split : last = (kafkaProducer ratePerSec startNs).after s later :=
      Mealy.after_append _ _ _ _
    rw [split]
    exact after_flushed ending enough

end PrismPipeline.Program
