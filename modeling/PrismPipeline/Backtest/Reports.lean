import PrismPipeline.Backtest.NumberValues
import PrismPipeline.Text.Report

/-!
# Entries of a report

What the programs stream into the members of their summaries, and what a reader of the
summary gets back: a count as it was, a flag as it was, a finite number to six digits.  An
infinity or a NaN among them leaves nothing that a reader of JSON would take.
-/

namespace PrismPipeline.Backtest

open PrismPipeline.Text PrismPipeline.Text.Json

/-- What is streamed behind a key: an integer, a `double` or a truth value. -/
inductive Entry where
  | count (n : ℤ)
  | number (x : Double)
  | flag (b : Bool)

namespace Entry

def text : Entry → List Char
  | count n => (toString n).toList
  | number x => x.ostream.toList
  | flag b => (if b then "true" else "false").toList

/-- It is no infinity and no NaN. -/
def Finite : Entry → Prop
  | number x => x.IsFinite
  | count _ | flag _ => True

/-- The value that stands in the object, where one does. -/
def value : Entry → Json.Value
  | count n => .number (toString n).toList
  | number x => .number x.ostream.toList
  | flag b => .boolean b

/-- A value that shows an entry to its reader. -/
inductive Shown : Entry → Json.Value → Prop
  | count {n : ℤ} {text : List Char} (same : readDecimal text = n) : Shown (.count n) (.number text)
  | number {x : ℚ} {text : List Char} (close : |readDecimal text - x| ≤ sixthDigit x / 2) :
      Shown (.number (.finite x)) (.number text)
  | flag (b : Bool) : Shown (.flag b) (.boolean b)

theorem text_spells {entry : Entry} (finite : entry.Finite) :
    Spells (.value entry.value) entry.text := by
  cases entry with
  | count n => exact .number (number_int n)
  | number x => exact .number ((ostream_number_iff x).mpr finite)
  | flag b =>
      cases b with
      | false => exact .false
      | true => exact .true

/-- A printed count is read back. -/
theorem readDecimal_int (n : ℤ) : readDecimal (toString n).toList = n := by
  have whole := wholeDigits_toDigits n.natAbs
  have writes := Writes.intro whole (fun c member => absurd member List.not_mem_nil) .none
    (.inl rfl)
  have reads := writes.reads (decide (n < 0))
  rw [pointValue_nil, digitsValue_toDigits, readExponent_nil, zpow_zero, mul_one] at reads
  rw [toString_int_toList]
  rcases lt_or_ge n 0 with below | above
  · have magnitude : (n.natAbs : ℚ) = -n := by
      rw [Nat.cast_natAbs, abs_of_neg below, Int.cast_neg]
    simpa [pointed, below, magnitude] using reads
  · have magnitude : (n.natAbs : ℚ) = n := by
      rw [Nat.cast_natAbs, abs_of_nonneg above]
    simpa [pointed, above.not_gt, magnitude] using reads

/-- The words for what is not finite stop a scan. -/
theorem text_scan (entry : Entry) : entry.Finite ∧ scan .outside entry.text = some .outside ∨
    ¬ entry.Finite ∧ scan .outside entry.text = none := by
  by_cases finite : entry.Finite
  · exact Or.inl ⟨finite, (text_spells finite).scan_eq⟩
  · refine Or.inr ⟨finite, ?_⟩
    cases entry with
    | count | flag => exact absurd trivial finite
    | number x =>
        cases x with
        | finite x => exact absurd ⟨x, rfl⟩ finite
        | infinite negative | nan negative => cases negative <;> decide

theorem value_shown {entry : Entry} (finite : entry.Finite) : entry.Shown entry.value := by
  cases entry with
  | count n => exact .count (readDecimal_int n)
  | number x =>
      obtain ⟨x, rfl⟩ := finite
      refine .number ?_
      change |readDecimal (ostreamDouble x).toList - x| ≤ _
      rw [readDecimal_ostreamDouble]
      exact shown_close x
  | flag b => exact .flag b

end Entry

/-- A file with a member for each entry. -/
def reportFile (fields : List (String × Entry)) : List Char :=
  reportText (fields.map fun field => (field.1, field.2.text))

/-- The text is one object, its keys are distinct, and each member shows its entry. -/
structure ShowsReport (fields : List (String × Entry)) (text : List Char)
    (members : List (List Char × Json.Value)) : Prop where
  json : Spells (.element (.object members)) text
  distinct : (members.map Prod.fst).Nodup
  shown : List.Forall₂ (fun field member => member.1 = field.1.toList ∧ field.2.Shown member.2)
    fields members

/-- Distinct keys without a letter that has to be escaped. -/
structure PlainKeys (keys : List String) : Prop where
  filled : keys ≠ []
  distinct : keys.Nodup
  plain : ∀ key ∈ keys, key.toList.all fun c => isControl c = false ∧ c ≠ '"' ∧ c ≠ '\\'

theorem PlainKeys.denotes {fields : List (String × Entry)}
    (keys : PlainKeys (fields.map Prod.fst)) {field : String × Entry} (member : field ∈ fields) :
    Denotes field.1.toList field.1.toList :=
  AuditEvent.denotes_self (keys.plain _ (List.mem_map_of_mem member))

section File

variable {fields : List (String × Entry)} (keys : PlainKeys (fields.map Prod.fst))
include keys

theorem reportFile_shows (finite : ∀ field ∈ fields, field.2.Finite) :
    ∃ members, ShowsReport fields (reportFile fields) members := by
  refine ⟨fields.map fun field => (field.1.toList, field.2.value), ?_, ?_, ?_⟩
  · refine reportText_spells ?_ ?_
    · intro empty
      exact keys.filled (by rw [List.map_eq_nil_iff.mp empty, List.map_nil])
    · rw [List.forall₂_map_left_iff, List.forall₂_map_right_iff, List.forall₂_same]
      intro field member
      exact ⟨keys.denotes member, Entry.text_spells (finite field member)⟩
  · have distinct := keys.distinct.map fun _ _ => String.toList_injective
    rw [List.map_map] at distinct ⊢
    exact distinct
  · rw [List.forall₂_map_right_iff, List.forall₂_same]
    exact fun field member => ⟨rfl, Entry.value_shown (finite field member)⟩

/-- A number that is not finite spoils the whole file. -/
theorem finite_of_spells {v : Json.Value} (spells : Spells (.element v) (reportFile fields)) :
    ∀ field ∈ fields, field.2.Finite := by
  intro field member
  by_contra infinite
  refine reportText_rejected ?_ ?_ ?_ v spells
  · rw [List.forall_mem_map]
    exact fun field member => ⟨_, keys.denotes member⟩
  · rw [List.forall_mem_map]
    exact fun field _ => field.2.text_scan.imp And.right And.right
  · refine ⟨_, List.mem_map_of_mem member, ?_⟩
    rcases field.2.text_scan with ⟨finite, _⟩ | ⟨_, stops⟩
    · exact absurd finite infinite
    · exact stops

/-- A file is a value of JSON, of whatever kind, exactly when all its numbers are finite. -/
theorem reportFile_value_iff :
    (∃ v, Spells (.element v) (reportFile fields)) ↔ ∀ field ∈ fields, field.2.Finite := by
  constructor
  · rintro ⟨_, spells⟩
    exact finite_of_spells keys spells
  · intro finite
    obtain ⟨_, shows⟩ := reportFile_shows keys finite
    exact ⟨_, shows.json⟩

/-- Then it shows them. -/
theorem reportFile_shows_iff :
    (∃ members, ShowsReport fields (reportFile fields) members) ↔
      ∀ field ∈ fields, field.2.Finite :=
  ⟨fun ⟨_, shows⟩ => finite_of_spells keys shows.json, reportFile_shows keys⟩

end File

end PrismPipeline.Backtest
