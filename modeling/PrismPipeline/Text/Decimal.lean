import Mathlib.Data.List.DropRight
import Mathlib.Data.Rat.Floor
import Mathlib.Tactic.FieldSimp
import Mathlib.Tactic.Ring

/-!
# Decimal numerals

The number that a decimal numeral stands for: a sign, digits with a point among them, and a
power of ten.  Zeros behind the last digit of the fraction do not change it.
-/

namespace PrismPipeline.Text

/-! ## Rows of digits -/

/-- The number of a row of digits. -/
def digitsValue (digits : List Char) : ℕ := Nat.ofDigitChars 10 digits 0

def AllDigits (text : List Char) : Prop := ∀ c ∈ text, c.isDigit = true

@[simp] theorem digitsValue_nil : digitsValue [] = 0 := rfl

theorem digitsValue_append (first second : List Char) :
    digitsValue (first ++ second) =
      digitsValue first * 10 ^ second.length + digitsValue second := by
  unfold digitsValue
  rw [Nat.ofDigitChars_append, Nat.ofDigitChars_eq_ofDigitChars_zero, Nat.mul_comm]

@[simp] theorem digitsValue_zeros (n : ℕ) : digitsValue (List.replicate n '0') = 0 := by
  unfold digitsValue
  rw [Nat.ofDigitChars_replicate_zero, Nat.mul_zero]

@[simp] theorem digitsValue_toDigits (n : ℕ) : digitsValue (Nat.toDigits 10 n) = n :=
  Nat.ofDigitChars_ten_toDigits

/-- Zeros in front do not count. -/
theorem digitsValue_leftpad (width : ℕ) (digits : List Char) :
    digitsValue (digits.leftpad width '0') = digitsValue digits := by
  rw [List.leftpad, digitsValue_append, digitsValue_zeros, Nat.zero_mul, Nat.zero_add]

/-! ## The fraction -/

/-- The value of digits with so many of them behind the point. -/
def pointValue (whole fraction : List Char) : ℚ :=
  digitsValue (whole ++ fraction) / 10 ^ fraction.length

theorem pointValue_nil (whole : List Char) : pointValue whole [] = digitsValue whole := by
  rw [pointValue, List.append_nil, List.length_nil, pow_zero, div_one]

/-- The zeros at the end of a fraction do not count. -/
theorem pointValue_zeros (whole fraction : List Char) (n : ℕ) :
    pointValue whole (fraction ++ List.replicate n '0') = pointValue whole fraction := by
  have ten : (10 : ℚ) ^ n ≠ 0 := pow_ne_zero n (by norm_num)
  unfold pointValue
  rw [← List.append_assoc, digitsValue_append, digitsValue_zeros, List.length_append,
    List.length_replicate, pow_add, Nat.add_zero, Nat.cast_mul, Nat.cast_pow, Nat.cast_ofNat,
    mul_div_mul_right _ _ ten]

/-- A row without the zeros at its end. -/
def trimmed (digits : List Char) : List Char := digits.rdropWhile fun c => c = '0'

theorem trimmed_append (digits : List Char) :
    ∃ n, digits = trimmed digits ++ List.replicate n '0' := by
  refine ⟨(digits.rtakeWhile fun c => c = '0').length, ?_⟩
  have zeros : digits.rtakeWhile (fun c => c = '0') =
      List.replicate (digits.rtakeWhile fun c => c = '0').length '0' := by
    refine List.eq_replicate_iff.mpr ⟨rfl, fun c member => ?_⟩
    have zero := List.mem_rtakeWhile_imp (p := fun c => decide (c = '0')) member
    exact of_decide_eq_true zero
  rw [← zeros]
  exact List.rdropWhile_append_rtakeWhile.symm

theorem pointValue_trimmed (whole fraction : List Char) :
    pointValue whole (trimmed fraction) = pointValue whole fraction := by
  obtain ⟨n, split⟩ := trimmed_append fraction
  conv_rhs => rw [split]
  exact (pointValue_zeros _ _ n).symm

/-! ## Reading a numeral -/

/-- The exponent, where there is one. -/
def readExponent : List Char → ℤ
  | 'e' :: '+' :: digits => digitsValue digits
  | 'e' :: '-' :: digits => -(digitsValue digits : ℤ)
  | _ => 0

@[simp] theorem readExponent_nil : readExponent [] = 0 := rfl

/-- The fraction and what is behind it. -/
def readFraction : List Char → List Char × List Char
  | '.' :: rest => (rest.takeWhile Char.isDigit, rest.dropWhile Char.isDigit)
  | rest => ([], rest)

/-- The value of a numeral without a sign. -/
def readUnsigned (text : List Char) : ℚ :=
  let whole := text.takeWhile Char.isDigit
  let (fraction, rest) := readFraction (text.dropWhile Char.isDigit)
  pointValue whole fraction * 10 ^ readExponent rest

/-- The value of a numeral. -/
def readDecimal : List Char → ℚ
  | '-' :: rest => -readUnsigned rest
  | text => readUnsigned text

/-- The point and the fraction, as they are written. -/
def pointed : List Char → List Char
  | [] => []
  | fraction => '.' :: fraction

/-- What may stand behind the digits. -/
def Ends (rest : List Char) : Prop := rest = [] ∨ ∃ digits, rest = 'e' :: digits

section Read

variable {whole fraction rest : List Char}

theorem takeWhile_digits (digits : AllDigits whole)
    (ends : rest.head?.all fun c => !c.isDigit) :
    (whole ++ rest).takeWhile Char.isDigit = whole ∧
      (whole ++ rest).dropWhile Char.isDigit = rest := by
  induction whole with
  | nil =>
      cases rest with
      | nil => exact ⟨rfl, rfl⟩
      | cons c rest =>
          have other : ¬ c.isDigit = true := by simpa using ends
          exact ⟨List.takeWhile_cons_of_neg other, List.dropWhile_cons_of_neg other⟩
  | cons c whole ih =>
      obtain ⟨first, later⟩ := List.forall_mem_cons.mp digits
      obtain ⟨taken, left⟩ := ih later
      rw [List.cons_append, List.takeWhile_cons_of_pos first, List.dropWhile_cons_of_pos first]
      exact ⟨congrArg _ taken, left⟩

theorem readFraction_pointed (digits : AllDigits fraction) (ends : Ends rest) :
    readFraction (pointed fraction ++ rest) = (fraction, rest) := by
  have stops : rest.head?.all fun c => !c.isDigit := by
    rcases ends with rfl | ⟨more, rfl⟩
    · rfl
    · rfl
  cases fraction with
  | nil =>
      rcases ends with rfl | ⟨more, rfl⟩
      · rfl
      · rfl
  | cons c fraction =>
      obtain ⟨taken, left⟩ := takeWhile_digits digits stops
      change ((c :: fraction ++ rest).takeWhile _, (c :: fraction ++ rest).dropWhile _) = _
      rw [taken, left]

theorem readUnsigned_pointed (whole' : AllDigits whole) (fraction' : AllDigits fraction)
    (ends : Ends rest) :
    readUnsigned (whole ++ (pointed fraction ++ rest)) =
      pointValue whole fraction * 10 ^ readExponent rest := by
  have stops : (pointed fraction ++ rest).head?.all fun c => !c.isDigit := by
    cases fraction with
    | nil =>
        rcases ends with rfl | ⟨more, rfl⟩
        · rfl
        · rfl
    | cons c fraction => rfl
  obtain ⟨taken, left⟩ := takeWhile_digits whole' stops
  unfold readUnsigned
  dsimp only
  rw [taken, left, readFraction_pointed fraction' ends]

/-- A sign in front. -/
theorem readDecimal_signed (negative : Bool) (some : whole ≠ []) (digits : AllDigits whole) :
    readDecimal ((if negative then ['-'] else []) ++ (whole ++ rest)) =
      if negative then -readUnsigned (whole ++ rest) else readUnsigned (whole ++ rest) := by
  cases negative with
  | true => rfl
  | false =>
      cases whole with
      | nil => exact absurd rfl some
      | cons c whole =>
          have first := (List.forall_mem_cons.mp digits).1
          have notMinus : c ≠ '-' := by
            rintro rfl
            exact absurd first (by decide)
          rw [if_neg Bool.false_ne_true, if_neg Bool.false_ne_true, List.nil_append,
            List.cons_append]
          unfold readDecimal
          split
          · next heq => exact absurd (List.cons.inj heq).1 notMinus
          · rfl

end Read

end PrismPipeline.Text
