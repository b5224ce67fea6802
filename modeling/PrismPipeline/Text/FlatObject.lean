import Mathlib.Algebra.Group.Nat.Defs
import Mathlib.Data.List.TakeWhile
import PrismPipeline.Text.Find

/-!
# Flat objects written without spaces

The compact JSON text of an object whose values are strings, numbers and booleans.
When no string or key needs an escape, the text `"key":` stands in it at one place
only, in front of the value of that key.  A decimal number cut at the back has lost its
last digits.
-/

namespace PrismPipeline.Text

/-- A character that stands for itself between quotes. -/
def isPlain (c : Char) : Bool := c ≠ '"' ∧ c ≠ '\\' ∧ 32 ≤ c.toNat

@[ext] structure PlainText where
  letters : List Char
  plain : ∀ c ∈ letters, isPlain c = true
  deriving DecidableEq

namespace PlainText

def of (letters : List Char) (plain : letters.all isPlain = true) : PlainText :=
  ⟨letters, List.all_eq_true.mp plain⟩

variable (content : PlainText)

theorem quote_notMem : '"' ∉ content.letters := fun member =>
  absurd (content.plain '"' member) (by decide)

theorem nul_notMem : Char.ofNat 0 ∉ content.letters := fun member =>
  absurd (content.plain (Char.ofNat 0) member) (by decide)

end PlainText

/-- The characters numbers are written with. -/
def isNumeric (c : Char) : Bool := c.isDigit || c ∈ ['-', '+', '.', 'e', 'E']

structure Numeral where
  letters : List Char
  numeric : ∀ c ∈ letters, isNumeric c = true

inductive Value where
  | text (content : PlainText)
  | unsigned (n : ℕ)
  | number (numeral : Numeral)
  | boolean (flag : Bool)

def Value.render : Value → List Char
  | .text content => '"' :: (content.letters ++ ['"'])
  | .unsigned n => Nat.toDigits 10 n
  | .number numeral => numeral.letters
  | .boolean true => ['t', 'r', 'u', 'e']
  | .boolean false => ['f', 'a', 'l', 's', 'e']

structure Field where
  key : PlainText
  value : Value

/-- What stands in front of the value of a key. -/
def keyMark (key : List Char) : List Char := '"' :: (key ++ ['"', ':'])

def Field.render (field : Field) : List Char := keyMark field.key.letters ++ field.value.render

/-- The object with these fields, in this order. -/
def renderObject (fields : List Field) : List Char :=
  '{' :: ([','].intercalate (fields.map Field.render) ++ ['}'])

/-! ## One field among the others -/

/-- The fields that stand before another one. -/
def renderBefore (fields : List Field) : List Char :=
  fields.flatMap fun field => field.render ++ [',']

theorem members_split (before after : List Field) (field : Field) :
    ∃ stop rest, (stop = ',' ∨ stop = '}') ∧
      [','].intercalate ((before ++ field :: after).map Field.render) ++ ['}'] =
        renderBefore before ++ (field.render ++ stop :: rest) := by
  induction before with
  | nil =>
      cases after with
      | nil => exact ⟨'}', [], Or.inr rfl, by simp [renderBefore]⟩
      | cons next others =>
          exact ⟨',', [','].intercalate ((next :: others).map Field.render) ++ ['}'],
            Or.inl rfl, by simp [renderBefore]⟩
  | cons first others ih =>
      obtain ⟨stop, rest, stops, eq⟩ := ih
      refine ⟨stop, rest, stops, ?_⟩
      rw [List.cons_append, List.map_cons, List.intercalate_cons_of_ne_nil (by simp),
        List.append_assoc, eq]
      simp [renderBefore]

/-- With distinct keys a field has its key first. -/
theorem exists_split {fields : List Field} {field : Field}
    (distinct : (fields.map Field.key).Nodup) (member : field ∈ fields) :
    ∃ before after, fields = before ++ field :: after ∧
      ∀ other ∈ before, other.key ≠ field.key := by
  obtain ⟨before, after, rfl⟩ := List.append_of_mem member
  refine ⟨before, after, rfl, ?_⟩
  intro other earlier same
  rw [List.map_append, List.map_cons] at distinct
  exact (List.nodup_append.mp distinct).2.2 other.key (List.mem_map_of_mem earlier) field.key
    List.mem_cons_self same

/-- The text of the object around one of its fields. -/
theorem renderObject_split (before after : List Field) (field : Field) :
    ∃ stop rest, (stop = ',' ∨ stop = '}') ∧
      renderObject (before ++ field :: after) =
        '{' :: renderBefore before ++ (field.render ++ stop :: rest) := by
  obtain ⟨stop, rest, stops, eq⟩ := members_split before after field
  exact ⟨stop, rest, stops, congrArg ('{' :: ·) eq⟩

/-- The number of bytes of the members up to the end of the value of the key. -/
def bytesThrough (key : PlainText) : List Field → ℕ
  | [] => 0
  | first :: others =>
      first.render.length + if first.key = key then 0 else 1 + bytesThrough key others

/-- The number of bytes of the object up to the end of the value of the key. -/
def valueEnd (key : PlainText) (fields : List Field) : ℕ := 1 + bytesThrough key fields

theorem valueEnd_split {before after : List Field} {field : Field}
    (fresh : ∀ other ∈ before, other.key ≠ field.key) :
    valueEnd field.key (before ++ field :: after) =
      ('{' :: renderBefore before).length + field.render.length := by
  have members : bytesThrough field.key (before ++ field :: after) =
      (renderBefore before).length + field.render.length := by
    induction before with
    | nil => simp [bytesThrough, renderBefore]
    | cons first others ih =>
        obtain ⟨differs, later⟩ := List.forall_mem_cons.mp fresh
        rw [List.cons_append, bytesThrough, if_neg differs, ih later]
        simp only [renderBefore, List.flatMap_cons, List.length_append, List.length_singleton]
        omega
  rw [valueEnd, members, List.length_cons]
  omega

/-- Every value ends in front of the closing brace. -/
theorem valueEnd_lt {fields : List Field} {field : Field}
    (distinct : (fields.map Field.key).Nodup) (member : field ∈ fields) :
    valueEnd field.key fields < (renderObject fields).length := by
  obtain ⟨before, after, rfl, fresh⟩ := exists_split distinct member
  obtain ⟨stop, rest, -, text⟩ := renderObject_split before after field
  rw [valueEnd_split fresh, text]
  simp only [List.length_append, List.length_cons]
  omega

/-! ## The mark of a key -/

/-- A key that does not begin with what may stand behind a closing quote. -/
def ProperKey (key : PlainText) : Prop :=
  key.letters.head? ≠ some ':' ∧ key.letters.head? ≠ some ','

section Mark

variable {key body : PlainText} {more behind : List Char}

theorem keyMark_append (key more : List Char) :
    keyMark key ++ more = '"' :: (key ++ '"' :: ':' :: more) := by
  simp [keyMark]

/-- A quoted text is no place for the mark of a key, unless it is that key and a colon
follows. -/
theorem skips_quoted {next : Char} (quote : next ≠ '"') (head : key.letters.head? ≠ some next)
    (other : key = body → next ≠ ':') :
    Skips (keyMark key.letters ++ more) ('"' :: (body.letters ++ ['"'])) (next :: behind) := by
  rw [keyMark_append]
  constructor
  · intro found
    have inside := (List.cons_prefix_cons.mp found).2
    rw [List.append_assoc, List.singleton_append] at inside
    obtain ⟨same, colon⟩ := closed_prefix key.quote_notMem body.quote_notMem inside
    exact other (PlainText.ext same) (List.cons_prefix_cons.mp colon).1.symm
  · apply Skips.append (skips_of_notMem body.quote_notMem)
    constructor
    · intro found
      have inside := (List.cons_prefix_cons.mp found).2
      cases letters : key.letters with
      | nil =>
          rw [letters] at inside
          exact quote (List.cons_prefix_cons.mp inside).1.symm
      | cons first others =>
          rw [letters] at inside head
          exact head (congrArg some (List.cons_prefix_cons.mp inside).1)
    · trivial

/-- Only a string value has quotes in it. -/
theorem skips_value (proper : ProperKey key) (value : Value) :
    Skips (keyMark key.letters ++ more) (value.render ++ [',']) behind := by
  have comma : Skips (keyMark key.letters ++ more) [','] behind :=
    skips_of_notMem (by decide)
  cases value with
  | text content =>
      apply Skips.append _ comma
      exact skips_quoted (by decide) proper.2 fun _ => by decide
  | unsigned n =>
      apply Skips.append _ comma
      apply skips_of_notMem
      intro member
      exact absurd (Nat.isDigit_of_mem_toDigits (by decide) (by decide) member) (by decide)
  | number numeral =>
      apply Skips.append _ comma
      apply skips_of_notMem
      intro member
      exact absurd (numeral.numeric _ member) (by decide)
  | boolean flag =>
      apply Skips.append _ comma
      apply skips_of_notMem
      cases flag <;> decide

theorem skips_field (proper : ProperKey key) {field : Field} (other : field.key ≠ key) :
    Skips (keyMark key.letters ++ more) (field.render ++ [',']) behind := by
  have shape : field.render ++ [','] = ('"' :: (field.key.letters ++ ['"'])) ++
      ([':'] ++ (field.value.render ++ [','])) := by
    simp [Field.render, keyMark]
  rw [shape]
  apply Skips.append
  · exact skips_quoted (by decide) proper.1 fun same => absurd same.symm other
  · exact (skips_of_notMem (by decide)).append (skips_value proper field.value)

/-- The mark of a key is found in front of its value. -/
theorem find_keyMark (proper : ProperKey key) {before : List Field}
    (fresh : ∀ other ∈ before, other.key ≠ key) (rest : List Char) :
    find (keyMark key.letters ++ more)
        ('{' :: renderBefore before ++ (keyMark key.letters ++ more ++ rest)) =
      some ('{' :: renderBefore before).length := by
  have skips : Skips (keyMark key.letters ++ more) ('{' :: renderBefore before)
      (keyMark key.letters ++ more ++ rest) := by
    have brace : Skips (keyMark key.letters ++ more) ['{']
        (renderBefore before ++ (keyMark key.letters ++ more ++ rest)) :=
      skips_of_notMem (by decide)
    apply brace.append
    exact skips_flatMap fun other member behind => skips_field proper (fresh other member)
  rw [find_skip skips, find_append_self]
  rfl

end Mark

/-! ## Numbers cut at the back -/

/-- The digits that are left of a number are those of its quotient. -/
theorem ofDigitChars_take_toDigits (n lost : ℕ) :
    Nat.ofDigitChars 10 ((Nat.toDigits 10 n).take ((Nat.toDigits 10 n).length - lost)) 0 =
      n / 10 ^ lost := by
  induction lost generalizing n with
  | zero =>
      rw [Nat.sub_zero, List.take_length, Nat.ofDigitChars_ten_toDigits, Nat.pow_zero, Nat.div_one]
  | succ lost ih =>
      by_cases small : n < 10
      · have quotient : n / 10 ^ (lost + 1) = 0 := by
          apply Nat.div_eq_of_lt
          calc
            n < 10 := small
            _ = 10 ^ 1 := rfl
            _ ≤ 10 ^ (lost + 1) := Nat.pow_le_pow_right (by decide) (by omega)
        rw [Nat.toDigits_of_lt_base small, quotient]
        simp
      · have digits := Nat.toDigits_of_base_le (b := 10) (by decide) (not_lt.mp small)
        have kept : (Nat.toDigits 10 (n / 10) ++ [(n % 10).digitChar]).length - (lost + 1) =
            (Nat.toDigits 10 (n / 10)).length - lost := by
          rw [List.length_append, List.length_singleton]
          omega
        rw [digits, kept, List.take_append_of_le_length (Nat.sub_le _ _), ih, Nat.div_div_eq_div_mul,
          Nat.pow_succ']

end PrismPipeline.Text
