import Mathlib.Data.List.Induction

/-!
# The first event of a series

Whether an entry of a series is an event may depend on the entries before it.  A
machine that waits for the first event, and then stands still, is determined by two
functions: what it holds while nothing has happened, and what it holds afterwards.
-/

namespace PrismPipeline.Series

variable {α ρ σ : Type*}

/-- No entry of the series is an event of any kind after the entries before it. -/
def Quiet (event : List α → α → ρ → Prop) (series : List α) : Prop :=
  ∀ before x, before ++ [x] <+: series → ∀ kind, ¬ event before x kind

/-- The series starts with quiet entries, and `x` is an event after them. -/
structure FirstEvent (event : List α → α → ρ → Prop) (before : List α) (x : α) (kind : ρ) :
    Prop where
  quiet : Quiet event before
  occurs : event before x kind

section Quiet

variable {event : List α → α → ρ → Prop}

theorem quiet_nil : Quiet event [] := by
  intro before x start
  have empty := List.prefix_nil.mp start
  exact absurd empty (List.append_ne_nil_of_right_ne_nil before (List.cons_ne_nil x []))

theorem Quiet.of_prefix {start series : List α} (quiet : Quiet event series)
    (isPrefix : start <+: series) : Quiet event start := by
  intro before x earlier
  exact quiet before x (earlier.trans isPrefix)

theorem quiet_snoc {series : List α} {x : α} (quiet : Quiet event series)
    (still : ∀ kind, ¬ event series x kind) : Quiet event (series ++ [x]) := by
  intro before y start
  rcases List.prefix_concat_iff.mp start with same | earlier
  · obtain ⟨rfl, rest⟩ := List.append_inj' same rfl
    obtain rfl : y = x := List.singleton_inj.mp rest
    exact still
  · exact quiet before y earlier

end Quiet

/-! ## Machines that wait for it -/

/-- A machine that holds `wait` of the entries read until the first event, and
`rest` of that event from then on. -/
structure WaitsFor (event : List α → α → ρ → Prop) (step : σ → α → σ)
    (wait : List α → σ) (rest : List α → α → ρ → σ) : Prop where
  holds : ∀ read x, (∀ kind, ¬ event read x kind) → step (wait read) x = wait (read ++ [x])
  leaves : ∀ read x kind, event read x kind → step (wait read) x = rest read x kind
  stays : ∀ read x kind y, step (rest read x kind) y = rest read x kind

namespace WaitsFor

variable {event : List α → α → ρ → Prop} {step : σ → α → σ} {wait : List α → σ}
  {rest : List α → α → ρ → σ}

theorem of_quiet (machine : WaitsFor event step wait rest) {series : List α}
    (quiet : Quiet event series) : series.foldl step (wait []) = wait series := by
  induction series using List.reverseRecOn with
  | nil => rfl
  | append_singleton earlier last ih =>
      have before := ih (quiet.of_prefix (List.prefix_append earlier [last]))
      rw [List.foldl_append, before]
      exact machine.holds earlier last (quiet earlier last List.prefix_rfl)

theorem of_firstEvent (machine : WaitsFor event step wait rest) {before : List α} {x : α}
    {kind : ρ} (first : FirstEvent event before x kind) (later : List α) :
    (before ++ x :: later).foldl step (wait []) = rest before x kind := by
  rw [List.foldl_append, machine.of_quiet first.quiet, List.foldl_cons,
    machine.leaves before x kind first.occurs]
  induction later with
  | nil => rfl
  | cons y later ih => rw [List.foldl_cons, machine.stays, ih]

end WaitsFor

end PrismPipeline.Series
