import Mathlib.Data.List.SplitBy
import Mathlib.Data.List.Forall2
import Mathlib.Order.Lattice

/-!
# Runs of neighbours with the same key

Grouping a stream by key, neighbours only, is a batch operation.  The lemmas here
say how the groups change when one entry arrives, so that a component that keeps
the last group open can be compared with it, and when the keys of the groups
increase.
-/

namespace PrismPipeline.Series

variable {α κ : Type*}

/-- Every entry on the right has a partner on the left. -/
theorem forall₂_exists_left {β : Type*} {R : α → β → Prop} {left : List α} {right : List β}
    (related : List.Forall₂ R left right) {b : β} (member : b ∈ right) : ∃ a ∈ left, R a b := by
  induction related with
  | nil => exact absurd member List.not_mem_nil
  | cons holds _ ih =>
      rcases List.mem_cons.mp member with rfl | later
      · exact ⟨_, List.mem_cons_self, holds⟩
      · obtain ⟨a, inside, holds⟩ := ih later
        exact ⟨a, List.mem_cons_of_mem _ inside, holds⟩

/-- The groups behind a list that ends with `last`. -/
theorem forall₂_snoc_right {β : Type*} {R : α → β → Prop} {left : List α} {right : List β}
    {last : β} (related : List.Forall₂ R left (right ++ [last])) :
    ∃ before final, left = before ++ [final] ∧ List.Forall₂ R before right ∧ R final last := by
  have before := List.forall₂_take_append left right [last] related
  have after := List.forall₂_drop_append left right [last] related
  obtain ⟨final, _, holds, none, eq⟩ := List.forall₂_cons_right_iff.mp after
  rw [List.forall₂_nil_right_iff.mp none] at eq
  refine ⟨left.take right.length, final, ?_, before, holds⟩
  rw [← eq, List.take_append_drop]

section Runs

variable [DecidableEq κ] (key : α → κ)

/-- Maximal runs of consecutive entries with the same key. -/
def runs (stream : List α) : List (List α) := stream.splitBy fun a b => key a = key b

@[simp] theorem runs_nil : runs key [] = [] := rfl

@[simp] theorem runs_singleton (entry : α) : runs key [entry] = [[entry]] := rfl

@[simp] theorem flatten_runs (stream : List α) : (runs key stream).flatten = stream :=
  List.flatten_splitBy _ _

variable {key} {stream : List α}

theorem run_ne_nil {run : List α} (member : run ∈ runs key stream) : run ≠ [] :=
  List.ne_nil_of_mem_splitBy member

/-- Entries of one run share their key. -/
theorem key_eq_of_mem_run {run : List α} (member : run ∈ runs key stream) {a b : α}
    (left : a ∈ run) (right : b ∈ run) : key a = key b := by
  have chain := List.isChain_of_mem_splitBy member
  simp only [decide_eq_true_eq] at chain
  have alike : (run.map key).Pairwise (· = ·) := ((List.isChain_map key).mpr chain).pairwise
  exact alike.forall_of_forall (fun _ _ => rfl) (List.mem_map_of_mem left)
    (List.mem_map_of_mem right)

/-- Neighbouring runs have different keys. -/
theorem runs_boundary : (runs key stream).IsChain fun first second =>
    ∀ a ∈ first, ∀ b ∈ second, key a ≠ key b := by
  have boundary := List.isChain_getLast_head_splitBy (fun a b => decide (key a = key b)) stream
  refine boundary.imp_of_mem_imp fun first second firstMem secondMem differ => ?_
  obtain ⟨firstNe, secondNe, differ⟩ := differ
  intro a inFirst b inSecond
  rw [decide_eq_false_iff_not] at differ
  rwa [key_eq_of_mem_run firstMem inFirst (List.getLast_mem firstNe),
    key_eq_of_mem_run secondMem inSecond (List.head_mem secondNe)]

/-- The last entry of a stream is in its last run. -/
theorem getLast?_of_runs {closed : List (List α)} {current : List α}
    (eq : runs key stream = closed ++ [current]) : stream.getLast? = current.getLast? := by
  have nonempty : current ≠ [] := run_ne_nil (eq ▸ List.mem_append_right _ List.mem_cons_self)
  rw [← flatten_runs key stream, eq, List.flatten_append, List.flatten_singleton,
    List.getLast?_append_of_ne_nil _ nonempty]

/-- An entry with another key opens a run. -/
theorem runs_snoc_other {closed : List (List α)} {current : List α} {entry : α}
    (eq : runs key stream = closed ++ [current]) (other : ∀ a ∈ current, key a ≠ key entry) :
    runs key (stream ++ [entry]) = closed ++ [current] ++ [[entry]] := by
  have split : runs key (stream ++ [entry]) = runs key stream ++ runs key [entry] := by
    refine List.splitBy_append_cons [] fun a last => ?_
    rw [getLast?_of_runs eq] at last
    exact decide_eq_false (other a (List.mem_of_mem_getLast? last))
  rw [split, eq, runs_singleton]

/-- An entry with the key of the last run joins it. -/
theorem runs_snoc_same {closed : List (List α)} {current : List α} {entry : α}
    (eq : runs key stream = closed ++ [current]) (same : ∀ a ∈ current, key a = key entry) :
    runs key (stream ++ [entry]) = closed ++ [current ++ [entry]] := by
  obtain ⟨joined, nonempty, chains, boundary⟩ := List.splitBy_eq_iff.mp eq
  obtain ⟨before, _, last⟩ := List.isChain_append.mp boundary
  refine List.splitBy_eq_iff.mpr ⟨?_, ?_, ?_, ?_⟩
  · rw [joined]
    simp
  · intro empty
    rcases List.mem_append.mp empty with old | new
    · exact nonempty (List.mem_append_left _ old)
    · simp at new
  · intro run member
    rcases List.mem_append.mp member with old | new
    · exact chains run (List.mem_append_left _ old)
    · rw [List.mem_singleton.mp new]
      refine List.isChain_append.mpr ⟨chains current (by simp), List.isChain_singleton _, ?_⟩
      intro a atEnd b first
      rw [List.head?_singleton, Option.mem_some_iff] at first
      subst first
      exact decide_eq_true (same a (List.mem_of_mem_getLast? atEnd))
  · refine List.isChain_append.mpr ⟨before, List.isChain_singleton _, ?_⟩
    intro run atEnd grown first
    rw [List.head?_singleton, Option.mem_some_iff] at first
    subst first
    obtain ⟨runNe, currentNe, differ⟩ := last run atEnd current rfl
    exact ⟨runNe, List.append_ne_nil_of_left_ne_nil currentNe _, by
      rwa [List.head_append_of_ne_nil currentNe]⟩

end Runs

section Order

variable {key : α → κ}

/-- A group of entries with its key. -/
def HasKey (key : α → κ) (group : List α) (label : κ) : Prop :=
  group ≠ [] ∧ ∀ a ∈ group, key a = label

/-- What holds of the keys of all entries holds of the labels. -/
theorem forall_mem_flatten {groups : List (List α)} {labels : List κ}
    (keyed : List.Forall₂ (HasKey key) groups labels) (P : κ → Prop) :
    (∀ b ∈ groups.flatten, P (key b)) ↔ ∀ label ∈ labels, P label := by
  induction keyed with
  | nil => simp
  | @cons group label groups labels keyed _ ih =>
      obtain ⟨nonempty, same⟩ := keyed
      obtain ⟨entry, inGroup⟩ := List.exists_mem_of_ne_nil group nonempty
      rw [List.flatten_cons, List.forall_mem_append, List.forall_mem_cons, ih]
      refine and_congr_left fun _ => ?_
      constructor
      · intro all
        exact same entry inGroup ▸ all entry inGroup
      · intro holds b member
        rwa [same b member]

/-- Groups that differ from their neighbours have labels that do. -/
theorem labels_isChain {groups : List (List α)} {labels : List κ}
    (keyed : List.Forall₂ (HasKey key) groups labels)
    (boundary : groups.IsChain fun first second => ∀ a ∈ first, ∀ b ∈ second, key a ≠ key b) :
    labels.IsChain (· ≠ ·) := by
  induction keyed with
  | nil => exact List.isChain_nil
  | @cons group label groups labels first rest ih =>
      obtain ⟨next, later⟩ := List.isChain_cons.mp boundary
      refine List.isChain_cons.mpr ⟨?_, ih later⟩
      cases rest with
      | nil => simp
      | @cons second other _ _ secondKeyed _ =>
          intro y isOther
          rw [List.head?_cons, Option.mem_some_iff] at isOther
          obtain ⟨a, inFirst⟩ := List.exists_mem_of_ne_nil _ first.1
          obtain ⟨b, inSecond⟩ := List.exists_mem_of_ne_nil _ secondKeyed.1
          have differ := next second rfl a inFirst b inSecond
          rwa [first.2 a inFirst, secondKeyed.2 b inSecond, isOther] at differ

variable [LinearOrder κ]

/-- The keys along a grouped stream never go back exactly when the keys of the
groups never do. -/
theorem pairwise_flatten_iff {groups : List (List α)} {labels : List κ}
    (keyed : List.Forall₂ (HasKey key) groups labels) :
    (groups.flatten.Pairwise fun a b => key a ≤ key b) ↔ labels.Pairwise (· ≤ ·) := by
  induction keyed with
  | nil => simp
  | @cons group label groups labels first rest ih =>
      obtain ⟨nonempty, same⟩ := first
      obtain ⟨entry, inGroup⟩ := List.exists_mem_of_ne_nil group nonempty
      have inside : group.Pairwise fun a b => key a ≤ key b :=
        List.pairwise_of_forall_mem_list fun a left b right => by
          rw [same a left, same b right]
      rw [List.flatten_cons, List.pairwise_append, ih, List.pairwise_cons,
        ← forall_mem_flatten rest (label ≤ ·)]
      constructor
      · rintro ⟨_, later, across⟩
        refine ⟨fun b member => ?_, later⟩
        exact same entry inGroup ▸ across entry inGroup b member
      · rintro ⟨across, later⟩
        refine ⟨inside, later, fun a left b member => ?_⟩
        rw [same a left]
        exact across b member

/-- Labels whose neighbours differ increase as soon as they never go back. -/
theorem pairwise_le_iff_lt {labels : List κ} (differ : labels.IsChain (· ≠ ·)) :
    labels.Pairwise (· ≤ ·) ↔ labels.Pairwise (· < ·) := by
  refine ⟨fun ordered => ?_, fun increasing => increasing.imp le_of_lt⟩
  induction labels with
  | nil => exact List.Pairwise.nil
  | cons label rest ih =>
      obtain ⟨below, ordered⟩ := List.pairwise_cons.mp ordered
      obtain ⟨differs, differ⟩ := List.isChain_cons.mp differ
      have later := ih differ ordered
      refine List.pairwise_cons.mpr ⟨?_, later⟩
      cases rest with
      | nil => simp
      | cons next more =>
          have step : label < next := lt_of_le_of_ne (below next List.mem_cons_self) (differs next rfl)
          intro b member
          rcases List.mem_cons.mp member with rfl | further
          · exact step
          · exact step.trans ((List.pairwise_cons.mp later).1 b further)

end Order

end PrismPipeline.Series
