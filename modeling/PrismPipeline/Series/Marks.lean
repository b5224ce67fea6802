import Mathlib.Data.List.Basic

/-!
# Entries between marks

A stream of positioned entries is divided by a list of marks, each at a position of its
own: an entry belongs to the latest mark at or before it.  New marks and new entries
arrive at the end, and neither changes what the earlier entries belong to.
-/

namespace PrismPipeline.Series

variable {β : Type*}

/-- The latest mark at or before a position. -/
def latestMark (marks : List ℕ) (position : ℕ) : Option ℕ :=
  (marks.filter (· ≤ position)).getLast?

/-- The entries that belong to a mark, in order. -/
def entriesUnder (marks : List ℕ) (entries : List (ℕ × β)) (mark : ℕ) : List β :=
  (entries.filter fun entry => latestMark marks entry.1 = some mark).map Prod.snd

theorem latestMark_le {marks : List ℕ} {position mark : ℕ}
    (latest : latestMark marks position = some mark) : mark ≤ position := by
  have member := List.mem_of_getLast? latest
  exact of_decide_eq_true (List.mem_filter.mp member).2

theorem latestMark_snoc_later (marks : List ℕ) {mark position : ℕ} (later : position < mark) :
    latestMark (marks ++ [mark]) position = latestMark marks position := by
  unfold latestMark
  rw [List.filter_append, List.filter_singleton, decide_eq_false (Nat.not_le.mpr later)]
  exact congrArg _ (List.append_nil _)

/-- From the last mark on, the latest mark is the last one. -/
theorem latestMark_of_le {marks : List ℕ} {position : ℕ} (passed : ∀ mark ∈ marks, mark ≤ position) :
    latestMark marks position = marks.getLast? := by
  unfold latestMark
  rw [List.filter_eq_self.mpr fun mark member => decide_eq_true (passed mark member)]

/-- A mark behind all entries takes none of them. -/
theorem entriesUnder_snoc_mark {marks : List ℕ} {entries : List (ℕ × β)} {mark : ℕ}
    (later : ∀ entry ∈ entries, entry.1 < mark) (other : ℕ) :
    entriesUnder (marks ++ [mark]) entries other = entriesUnder marks entries other := by
  unfold entriesUnder
  congr 1
  refine List.filter_congr fun entry member => ?_
  rw [latestMark_snoc_later marks (later entry member)]

theorem entriesUnder_eq_nil {marks : List ℕ} {entries : List (ℕ × β)} {mark : ℕ}
    (later : ∀ entry ∈ entries, entry.1 < mark) : entriesUnder marks entries mark = [] := by
  unfold entriesUnder
  rw [List.map_eq_nil_iff, List.filter_eq_nil_iff]
  intro entry member latest
  have before := latestMark_le (of_decide_eq_true latest)
  exact absurd (later entry member) (Nat.not_lt.mpr before)

/-- A new entry goes to the mark it belongs to. -/
theorem entriesUnder_snoc {marks : List ℕ} (entries : List (ℕ × β)) {entry : ℕ × β} {mark : ℕ}
    (latest : latestMark marks entry.1 = some mark) (other : ℕ) :
    entriesUnder marks (entries ++ [entry]) other =
      entriesUnder marks entries other ++ if other = mark then [entry.2] else [] := by
  unfold entriesUnder
  rw [List.filter_append, List.map_append, List.filter_singleton, latest]
  by_cases same : other = mark
  · rw [if_pos same, same, decide_eq_true rfl]
    rfl
  · rw [if_neg same, decide_eq_false fun eq => same (Option.some.inj eq).symm]
    rfl

end PrismPipeline.Series
