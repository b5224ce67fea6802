import Mathlib.Tactic.Linarith
import PrismPipeline.Backtest.AuditJson
import PrismPipeline.Text.Decimal

/-!
# The value of a printed number

A `double` on a stream is a JSON number, and what it stands for differs from the number
printed by at most half a unit of its sixth digit.  A number of at most six digits comes
back as it was.
-/

namespace PrismPipeline.Backtest

open PrismPipeline.Text PrismPipeline.Text.Json

/-! ## Rounding -/

theorem roundHalfEven_bounds (x : ℚ) :
    x.floor ≤ roundHalfEven x ∧ roundHalfEven x ≤ x.floor + 1 ∧
      |(roundHalfEven x : ℚ) - x| ≤ 1 / 2 := by
  have low : (x.floor : ℚ) ≤ x := Int.floor_le x
  have high : x < x.floor + 1 := Int.lt_floor_add_one x
  unfold roundHalfEven
  dsimp only
  split_ifs with below above even
  · exact ⟨le_refl _, by omega, abs_le.mpr ⟨by linarith, by linarith⟩⟩
  · refine ⟨by omega, le_refl _, abs_le.mpr ⟨?_, ?_⟩⟩ <;> push_cast <;> linarith
  · exact ⟨le_refl _, by omega, abs_le.mpr ⟨by linarith, by linarith⟩⟩
  · refine ⟨by omega, le_refl _, abs_le.mpr ⟨?_, ?_⟩⟩ <;> push_cast <;> linarith

/-- An integer is not rounded. -/
theorem roundHalfEven_intCast (n : ℤ) : roundHalfEven n = n := by
  unfold roundHalfEven
  have whole : ((n : ℚ)).floor = n := Rat.floor_intCast n
  dsimp only
  rw [whole, sub_self, if_pos (by norm_num)]

/-- Rounding keeps the order. -/
theorem roundHalfEven_mono {x y : ℚ} (ordered : x ≤ y) : roundHalfEven x ≤ roundHalfEven y := by
  rcases (Rat.floor_monotone ordered).lt_or_eq with apart | same
  · exact le_trans (roundHalfEven_bounds x).2.1 (le_trans apart (roundHalfEven_bounds y).1)
  · unfold roundHalfEven
    dsimp only
    rw [same]
    -- between the same two integers the larger number is not below the smaller one's half
    split_ifs <;> first | omega | (exfalso; linarith)

/-! ## The six digits -/

theorem length_toDigits {n k : ℕ} (low : 10 ^ k ≤ n) (high : n < 10 ^ (k + 1)) :
    (Nat.toDigits 10 n).length = k + 1 := by
  induction k generalizing n with
  | zero =>
      rw [Nat.toDigits_of_lt_base (by simpa using high)]
      rfl
  | succ k ih =>
      have ten : 10 ≤ n := le_trans (Nat.le_self_pow (Nat.succ_ne_zero k) 10) low
      have shorter := ih (n := n / 10)
        ((Nat.le_div_iff_mul_le (by decide)).mpr (by rwa [← Nat.pow_succ]))
        ((Nat.div_lt_iff_lt_mul (by decide)).mpr (by rwa [← Nat.pow_succ]))
      rw [Nat.toDigits_of_base_le (by decide) ten, List.length_append, shorter]
      rfl

/-- The number in units of its sixth digit. -/
theorem scaled_bounds {x : ℚ} (nonzero : x ≠ 0) :
    100000 ≤ |x| * 10 ^ (5 - Int.log 10 (|x|)) ∧
      |x| * 10 ^ (5 - Int.log 10 (|x|)) < 1000000 := by
  have positive : 0 < |x| := abs_pos.mpr nonzero
  have ten : (10 : ℚ) ≠ 0 := by norm_num
  have low : ((10 : ℕ) : ℚ) ^ Int.log 10 (|x|) ≤ |x| := Int.zpow_log_le_self (by decide) positive
  have high : |x| < ((10 : ℕ) : ℚ) ^ (Int.log 10 (|x|) + 1) :=
    Int.lt_zpow_succ_log_self (by decide) (|x|)
  rw [Nat.cast_ofNat] at low high
  have scale : (0 : ℚ) < 10 ^ (5 - Int.log 10 (|x|)) := zpow_pos (by norm_num) _
  constructor
  · have grown := mul_le_mul_of_nonneg_right low scale.le
    rw [← zpow_add₀ ten, add_sub_cancel] at grown
    exact le_trans (by norm_num) grown
  · have grown := mul_lt_mul_of_pos_right high scale
    rw [← zpow_add₀ ten, show Int.log 10 (|x|) + 1 + (5 - Int.log 10 (|x|)) = 6 by ring] at grown
    exact lt_of_lt_of_le grown (by norm_num)

/-- The unit of the sixth digit. -/
def sixthDigit (x : ℚ) : ℚ := 10 ^ (Int.log 10 |x| - 5)

/-- So many of these units are shown. -/
def shownUnits (x : ℚ) : ℤ := roundHalfEven (|x| * 10 ^ (5 - Int.log 10 |x|))

/-- The number that is shown for a number. -/
def shown (x : ℚ) : ℚ := (if x < 0 then -1 else 1) * (shownUnits x * sixthDigit x)

theorem sixthDigit_pos (x : ℚ) : 0 < sixthDigit x := zpow_pos (by norm_num) _

theorem units_mul_sixthDigit (x : ℚ) :
    |x| * 10 ^ (5 - Int.log 10 |x|) * sixthDigit x = |x| := by
  have ten : (10 : ℚ) ≠ 0 := by norm_num
  rw [sixthDigit, mul_assoc, ← zpow_add₀ ten, show (5 : ℤ) - Int.log 10 |x| +
    (Int.log 10 |x| - 5) = 0 by ring, zpow_zero, mul_one]

theorem shownUnits_bounds {x : ℚ} (nonzero : x ≠ 0) :
    100000 ≤ shownUnits x ∧ shownUnits x ≤ 1000000 := by
  obtain ⟨low, high⟩ := scaled_bounds nonzero
  have first := roundHalfEven_mono (x := ((100000 : ℤ) : ℚ)) (by exact_mod_cast low)
  have last := roundHalfEven_mono (y := ((1000000 : ℤ) : ℚ)) (by exact_mod_cast high.le)
  rw [roundHalfEven_intCast] at first last
  exact ⟨first, last⟩

/-- The digits are six, the first is not a zero, and they are the units that are shown. -/
theorem sixDigits_spec {x : ℚ} (nonzero : x ≠ 0) :
    (sixDigits x).2.length = 6 ∧ WholeDigits (sixDigits x).2 ∧ (sixDigits x).2.head? ≠ some '0' ∧
      (digitsValue (sixDigits x).2 : ℚ) * 10 ^ ((sixDigits x).1 - 5) =
        shownUnits x * sixthDigit x := by
  obtain ⟨low, high⟩ := shownUnits_bounds nonzero
  have ten : (10 : ℚ) ≠ 0 := by norm_num
  have units : ((shownUnits x).toNat : ℤ) = shownUnits x := Int.toNat_of_nonneg (by omega)
  unfold sixDigits
  dsimp only
  rw [← shownUnits]
  split_ifs with full
  · -- the units carried into a seventh digit
    have digits : "100000".toList = Nat.toDigits 10 100000 := by decide
    have carried : shownUnits x = 1000000 := by omega
    dsimp only
    rw [digits, digitsValue_toDigits, carried, sixthDigit,
      show Int.log 10 |x| + 1 - 5 = 1 + (Int.log 10 |x| - 5) by ring, zpow_add₀ ten, zpow_one]
    refine ⟨by decide, wholeDigits_toDigits _, by decide, ?_⟩
    norm_num
    ring
  · dsimp only
    have six := length_toDigits (n := (shownUnits x).toNat) (k := 5) (by omega) (by omega)
    have value : (((shownUnits x).toNat : ℕ) : ℚ) = (shownUnits x : ℚ) := by exact_mod_cast units
    rw [toString_toList, digitsValue_toDigits, value]
    refine ⟨six, wholeDigits_toDigits _, fun zero => ?_, rfl⟩
    rw [(wholeDigits_toDigits _).2 zero] at six
    cases six

/-! ## The texts -/

/-- A text of JSON for a number without a sign, and the number. -/
inductive Writes : List Char → ℚ → Prop
  | intro {whole fraction exponent : List Char} (digits : WholeDigits whole)
      (decimals : AllDigits fraction) (scaled : Exponent exponent) (ends : Ends exponent) :
      Writes (whole ++ (pointed fraction ++ exponent))
        (pointValue whole fraction * 10 ^ readExponent exponent)

theorem fraction_pointed {fraction : List Char} (digits : AllDigits fraction) :
    Fraction (pointed fraction) := by
  cases fraction with
  | nil => exact .none
  | cons c fraction => exact .digits ⟨List.cons_ne_nil _ _, digits⟩

namespace Writes

variable {text : List Char} {value : ℚ}

/-- A number, whatever the sign in front. -/
theorem number (writes : Writes text value) (negative : Bool) :
    Number ((if negative then ['-'] else []) ++ text) := by
  obtain ⟨digits, decimals, scaled, -⟩ := writes
  refine .intro ?_ digits (fraction_pointed decimals) scaled
  split
  · exact .minus
  · exact .none

theorem reads (writes : Writes text value) (negative : Bool) :
    readDecimal ((if negative then ['-'] else []) ++ text) =
      (if negative then -1 else 1) * value := by
  obtain ⟨digits, decimals, -, ends⟩ := writes
  rw [readDecimal_signed negative digits.1.1 digits.1.2,
    readUnsigned_pointed digits.1.2 decimals ends]
  split
  · rw [neg_one_mul]
  · rw [one_mul]

end Writes

theorem withPoint_eq (decimals : List Char) : withPoint decimals = pointed (trimmed decimals) := by
  unfold withPoint trimmed pointed
  rfl

theorem trimmed_digits {digits : List Char} (all : AllDigits digits) :
    AllDigits (trimmed digits) := fun c member =>
  all c ((List.rdropWhile_prefix (fun c => c = '0') digits).subset member)

/-- The front of digits that do not begin with a zero. -/
theorem wholeDigits_take {digits : List Char} (all : AllDigits digits) (filled : digits ≠ [])
    (first : digits.head? ≠ some '0') (n : ℕ) : WholeDigits (digits.take (n + 1)) := by
  cases digits with
  | nil => exact absurd rfl filled
  | cons c digits =>
      refine ⟨⟨List.cons_ne_nil _ _, fun c member => all c (List.take_subset _ _ member)⟩, ?_⟩
      intro zero
      exact absurd zero first

theorem pointValue_take (digits : List Char) (n : ℕ) :
    pointValue (digits.take n) (trimmed (digits.drop n)) =
      digitsValue digits / 10 ^ (digits.length - n) := by
  rw [pointValue_trimmed, pointValue, List.take_append_drop, List.length_drop]

section Six

variable {digits : List Char}

theorem fixedText_writes (all : AllDigits digits) (six : digits.length = 6)
    (first : digits.head? ≠ some '0') {e : ℤ} (small : -4 ≤ e ∧ e < 6) :
    Writes (fixedText e digits) (digitsValue digits * 10 ^ (e - 5)) := by
  have ten : (10 : ℚ) ≠ 0 := by norm_num
  have filled : digits ≠ [] := List.ne_nil_of_length_eq_add_one six
  unfold fixedText
  split_ifs with whole
  · -- the point is behind or between the digits
    have front := wholeDigits_take all filled first e.toNat
    have back : AllDigits (digits.drop (e.toNat + 1)) := fun c member =>
      all c (List.drop_subset _ _ member)
    have writes := Writes.intro front (trimmed_digits back) .none (.inl rfl)
    have value : pointValue (digits.take (e.toNat + 1)) (trimmed (digits.drop (e.toNat + 1))) *
        10 ^ readExponent [] = digitsValue digits * 10 ^ (e - 5) := by
      have places : ((6 - (e.toNat + 1) : ℕ) : ℤ) = -(e - 5) := by omega
      rw [pointValue_take, six, readExponent_nil, zpow_zero, mul_one, div_eq_mul_inv,
        ← zpow_natCast, places, ← zpow_neg, neg_neg]
    rw [value, List.append_nil] at writes
    rw [withPoint_eq]
    exact writes
  · -- zeros stand between the point and the digits
    have zero : WholeDigits ['0'] := wholeDigits_toDigits 0
    have back : AllDigits (List.replicate ((-e).toNat - 1) '0' ++ digits) := by
      refine List.forall_mem_append.mpr ⟨fun c member => ?_, all⟩
      rw [List.eq_of_mem_replicate member]
      decide
    have writes := Writes.intro zero (trimmed_digits back) .none (.inl rfl)
    have value : pointValue ['0'] (trimmed (List.replicate ((-e).toNat - 1) '0' ++ digits)) *
        10 ^ readExponent [] = digitsValue digits * 10 ^ (e - 5) := by
      have zeros : ['0'] ++ (List.replicate ((-e).toNat - 1) '0' ++ digits) =
          List.replicate ((-e).toNat - 1 + 1) '0' ++ digits := by
        rw [List.replicate_succ, List.cons_append, List.cons_append, List.nil_append]
      have places : ((((-e).toNat - 1 + 6 : ℕ)) : ℤ) = -(e - 5) := by omega
      rw [pointValue_trimmed, pointValue, zeros, digitsValue_append, digitsValue_zeros,
        Nat.zero_mul, Nat.zero_add, List.length_append, List.length_replicate, six,
        readExponent_nil, zpow_zero, mul_one, div_eq_mul_inv, ← zpow_natCast, places,
        ← zpow_neg, neg_neg]
    rw [value, List.append_nil] at writes
    rw [withPoint_eq]
    exact writes

/-- What is printed behind the letter of the exponent. -/
theorem readExponent_printed (e : ℤ) :
    readExponent ('e' :: (if e < 0 then '-' else '+') ::
      (toString e.natAbs).toList.leftpad 2 '0') = e := by
  split_ifs with negative
  · rw [readExponent, digitsValue_leftpad, toString_toList, digitsValue_toDigits]
    omega
  · rw [readExponent, digitsValue_leftpad, toString_toList, digitsValue_toDigits]
    omega

theorem exponent_printed (e : ℤ) :
    Exponent ('e' :: (if e < 0 then '-' else '+') ::
      (toString e.natAbs).toList.leftpad 2 '0') := by
  have digits : Digits ((toString e.natAbs).toList.leftpad 2 '0') := by
    rw [toString_toList, List.leftpad]
    refine ⟨List.append_ne_nil_of_right_ne_nil _ Nat.toDigits_ne_nil, fun c member => ?_⟩
    rcases List.mem_append.mp member with zero | digit
    · rw [List.eq_of_mem_replicate zero]
      decide
    · exact (digits_toDigits _).2 c digit
  split_ifs
  · have exponent : Exponent ('e' :: (['-'] ++ (toString e.natAbs).toList.leftpad 2 '0')) :=
      .digits (.inl rfl) (.inr (.inr rfl)) digits
    exact exponent
  · have exponent : Exponent ('e' :: (['+'] ++ (toString e.natAbs).toList.leftpad 2 '0')) :=
      .digits (.inl rfl) (.inr (.inl rfl)) digits
    exact exponent

theorem scientificText_writes (all : AllDigits digits) (six : digits.length = 6)
    (first : digits.head? ≠ some '0') (e : ℤ) :
    Writes (scientificText e digits) (digitsValue digits * 10 ^ (e - 5)) := by
  have ten : (10 : ℚ) ≠ 0 := by norm_num
  have filled : digits ≠ [] := List.ne_nil_of_length_eq_add_one six
  have back : AllDigits (digits.drop 1) := fun c member => all c (List.drop_subset _ _ member)
  have writes := Writes.intro (wholeDigits_take all filled first 0) (trimmed_digits back)
    (exponent_printed e) (.inr ⟨_, rfl⟩)
  rw [readExponent_printed, pointValue_take, six] at writes
  unfold scientificText
  rw [withPoint_eq, List.append_assoc]
  have value : (digitsValue digits : ℚ) / 10 ^ (6 - (0 + 1)) * 10 ^ e =
      digitsValue digits * 10 ^ (e - 5) := by
    rw [zpow_sub₀ ten]
    norm_num
    ring
  rw [value] at writes
  exact writes

end Six

/-! ## Printing and reading -/

theorem ostreamDouble_zero : ostreamDouble 0 = "0" := rfl

theorem ostreamDouble_toList {x : ℚ} (nonzero : x ≠ 0) :
    ∃ text, (ostreamDouble x).toList = (if decide (x < 0) then ['-'] else []) ++ text ∧
      Writes text (shownUnits x * sixthDigit x) := by
  obtain ⟨six, whole, first, value⟩ := sixDigits_spec nonzero
  unfold ostreamDouble
  rw [if_neg nonzero, ← value, String.toList_ofList]
  simp only [decide_eq_true_eq]
  by_cases small : -4 ≤ (sixDigits x).1 ∧ (sixDigits x).1 < 6
  · rw [if_pos small]
    exact ⟨_, rfl, fixedText_writes whole.1.2 six first small⟩
  · rw [if_neg small]
    exact ⟨_, rfl, scientificText_writes whole.1.2 six first _⟩

/-- A number that is printed is a number of JSON. -/
theorem ostreamDouble_number (x : ℚ) : Number (ostreamDouble x).toList := by
  by_cases zero : x = 0
  · rw [zero, ostreamDouble_zero]
    exact number_int 0
  · obtain ⟨text, printed, writes⟩ := ostreamDouble_toList zero
    rw [printed]
    exact writes.number _

/-- What is read is the number that was shown. -/
theorem readDecimal_ostreamDouble (x : ℚ) : readDecimal (ostreamDouble x).toList = shown x := by
  by_cases zero : x = 0
  · rw [zero, ostreamDouble_zero, shown, shownUnits, abs_zero, zero_mul,
      show roundHalfEven (0 : ℚ) = 0 from roundHalfEven_intCast 0]
    rw [Int.cast_zero, zero_mul, mul_zero]
    decide +kernel
  · obtain ⟨text, printed, writes⟩ := ostreamDouble_toList zero
    rw [printed, writes.reads, shown]
    simp only [decide_eq_true_eq]

/-- What is shown is half a unit of the sixth digit away at most. -/
theorem shown_close (x : ℚ) : |shown x - x| ≤ sixthDigit x / 2 := by
  have rounded := (roundHalfEven_bounds (|x| * 10 ^ (5 - Int.log 10 |x|))).2.2
  have unit := sixthDigit_pos x
  have distance : |shownUnits x * sixthDigit x - (|x|)| ≤ sixthDigit x / 2 := by
    calc |shownUnits x * sixthDigit x - (|x|)|
        = |(shownUnits x - |x| * 10 ^ (5 - Int.log 10 |x|)) * sixthDigit x| := by
          rw [sub_mul, units_mul_sixthDigit]
      _ = |(shownUnits x : ℚ) - |x| * 10 ^ (5 - Int.log 10 |x|)| * sixthDigit x := by
          rw [abs_mul, abs_of_pos unit]
      _ ≤ 1 / 2 * sixthDigit x := mul_le_mul_of_nonneg_right rounded unit.le
      _ = sixthDigit x / 2 := by ring
  unfold shown
  split_ifs with negative
  · rw [neg_one_mul, ← abs_neg]
    rw [abs_of_neg negative] at distance
    convert distance using 2
    ring
  · rw [one_mul]
    rwa [abs_of_nonneg (not_lt.mp negative)] at distance

/-- A number of at most six digits is shown as it is. -/
theorem shown_exact {x : ℚ} {n : ℤ} (digits : x = n * sixthDigit x) : shown x = x := by
  have unit := sixthDigit_pos x
  have scaled : |x| * 10 ^ (5 - Int.log 10 |x|) = ((|n| : ℤ) : ℚ) := by
    refine mul_right_cancel₀ unit.ne' ?_
    rw [units_mul_sixthDigit]
    conv_lhs => rw [digits]
    rw [abs_mul, abs_of_pos unit, Int.cast_abs]
  have value : shownUnits x * sixthDigit x = |x| := by
    rw [shownUnits, scaled, roundHalfEven_intCast, ← scaled, units_mul_sixthDigit]
  unfold shown
  rw [value]
  split_ifs with negative
  · rw [abs_of_neg negative, neg_one_mul, neg_neg]
  · rw [abs_of_nonneg (not_lt.mp negative), one_mul]

theorem shown_zero : shown 0 = 0 := shown_exact (n := 0) (by rw [Int.cast_zero, zero_mul])

/-! ## Printing what was read -/

theorem log_eq {y : ℚ} {e : ℤ} (low : 10 ^ e ≤ y) (high : y < 10 ^ (e + 1)) :
    Int.log 10 y = e := by
  have positive : 0 < y := lt_of_lt_of_le (zpow_pos (by norm_num) e) low
  have ten : ((10 : ℕ) : ℚ) = 10 := Nat.cast_ofNat
  have least := (Int.zpow_le_iff_le_log (b := 10) (by decide) positive).mp (by rwa [ten])
  have most := (Int.lt_zpow_iff_log_lt (b := 10) (by decide) positive).mp (by rwa [ten])
  omega

/-- So many units of the fifth power below. -/
theorem log_units {k : ℚ} {e : ℤ} (low : 100000 ≤ k) (high : k < 1000000) :
    Int.log 10 (k * 10 ^ (e - 5)) = e := by
  have ten : (10 : ℚ) ≠ 0 := by norm_num
  have unit : (0 : ℚ) < 10 ^ (e - 5) := zpow_pos (by norm_num) _
  have lower : (10 : ℚ) ^ e = 100000 * 10 ^ (e - 5) := by
    rw [show e = 5 + (e - 5) by ring, zpow_add₀ ten]
    norm_num
  have upper : (10 : ℚ) ^ (e + 1) = 1000000 * 10 ^ (e - 5) := by
    rw [show e + 1 = 6 + (e - 5) by ring, zpow_add₀ ten]
    norm_num
  refine log_eq ?_ ?_
  · rw [lower]
    exact mul_le_mul_of_nonneg_right low unit.le
  · rw [upper]
    exact mul_lt_mul_of_pos_right high unit

theorem abs_shown {x : ℚ} (nonzero : x ≠ 0) : |shown x| = shownUnits x * sixthDigit x := by
  have units : (0 : ℚ) ≤ shownUnits x := by
    have low := (shownUnits_bounds nonzero).1
    exact_mod_cast le_trans (by decide) low
  have magnitude := abs_of_nonneg (mul_nonneg units (sixthDigit_pos x).le)
  unfold shown
  split_ifs
  · rw [neg_one_mul, abs_neg, magnitude]
  · rw [one_mul, magnitude]

theorem shown_sign {x : ℚ} (nonzero : x ≠ 0) : shown x ≠ 0 ∧ (shown x < 0 ↔ x < 0) := by
  have units : (0 : ℚ) < shownUnits x := by
    have low := (shownUnits_bounds nonzero).1
    exact_mod_cast lt_of_lt_of_le (by decide) low
  have magnitude := mul_pos units (sixthDigit_pos x)
  unfold shown
  split_ifs with negative
  · rw [neg_one_mul]
    exact ⟨(neg_neg_of_pos magnitude).ne, fun _ => negative, fun _ => neg_neg_of_pos magnitude⟩
  · rw [one_mul]
    exact ⟨magnitude.ne', fun below => absurd below (not_lt.mpr magnitude.le),
      fun below => absurd below negative⟩

theorem sixDigits_shown {x : ℚ} (nonzero : x ≠ 0) : sixDigits (shown x) = sixDigits x := by
  have ten : (10 : ℚ) ≠ 0 := by norm_num
  obtain ⟨low, high⟩ := shownUnits_bounds nonzero
  have least : (100000 : ℚ) ≤ shownUnits x := by exact_mod_cast low
  unfold sixDigits
  dsimp only
  rw [abs_shown nonzero, ← shownUnits]
  by_cases full : shownUnits x = 1000000
  · -- a number that was carried begins with a one
    have power : (shownUnits x : ℚ) * sixthDigit x = 100000 * 10 ^ (Int.log 10 |x| + 1 - 5) := by
      rw [full, sixthDigit, show Int.log 10 |x| + 1 - 5 = 1 + (Int.log 10 |x| - 5) by ring,
        zpow_add₀ ten]
      norm_num
      ring
    have scaled : (100000 : ℚ) * 10 ^ (Int.log 10 |x| + 1 - 5) *
        10 ^ (5 - (Int.log 10 |x| + 1)) = ((100000 : ℤ) : ℚ) := by
      rw [mul_assoc, ← zpow_add₀ ten, show Int.log 10 |x| + 1 - 5 + (5 - (Int.log 10 |x| + 1)) = 0
        by ring, zpow_zero]
      norm_num
    rw [power, log_units (by norm_num) (by norm_num), scaled, roundHalfEven_intCast, full]
    rfl
  · have most : (shownUnits x : ℚ) < 1000000 := by
      exact_mod_cast lt_of_le_of_ne high full
    have scaled : (shownUnits x : ℚ) * 10 ^ (Int.log 10 |x| - 5) * 10 ^ (5 - Int.log 10 |x|) =
        shownUnits x := by
      rw [mul_assoc, ← zpow_add₀ ten, show Int.log 10 |x| - 5 + (5 - Int.log 10 |x|) = 0 by ring,
        zpow_zero, mul_one]
    rw [sixthDigit, log_units least most, scaled, roundHalfEven_intCast]

/-- The number that was read is printed as the number before. -/
theorem ostreamDouble_shown (x : ℚ) : ostreamDouble (shown x) = ostreamDouble x := by
  by_cases zero : x = 0
  · rw [zero, shown_zero]
  · obtain ⟨nonzero, negative⟩ := shown_sign zero
    unfold ostreamDouble
    rw [if_neg zero, if_neg nonzero, sixDigits_shown zero]
    simp only [negative]

/-! ## The order -/

theorem magnitude_mono {x y : ℚ} (nonzero : x ≠ 0) (ordered : |x| ≤ |y|) :
    shownUnits x * sixthDigit x ≤ shownUnits y * sixthDigit y := by
  have positive : 0 < |x| := abs_pos.mpr nonzero
  have other : y ≠ 0 := abs_pos.mp (lt_of_lt_of_le positive ordered)
  have ten : (10 : ℚ) ≠ 0 := by norm_num
  have logs : Int.log 10 |x| ≤ Int.log 10 |y| := Int.log_mono_right positive ordered
  rcases logs.lt_or_eq with apart | same
  · -- a power of ten stands between the two
    have most : (shownUnits x : ℚ) ≤ 1000000 := by exact_mod_cast (shownUnits_bounds nonzero).2
    have least : (100000 : ℚ) ≤ shownUnits y := by exact_mod_cast (shownUnits_bounds other).1
    have power : (10 : ℚ) * sixthDigit x ≤ sixthDigit y := by
      have steps : Int.log 10 |x| - 5 + 1 ≤ Int.log 10 |y| - 5 := by omega
      have grown := zpow_le_zpow_right₀ (by norm_num : (1 : ℚ) ≤ 10) steps
      rw [zpow_add₀ ten, zpow_one, mul_comm] at grown
      exact grown
    calc (shownUnits x : ℚ) * sixthDigit x
        ≤ 1000000 * sixthDigit x := mul_le_mul_of_nonneg_right most (sixthDigit_pos x).le
      _ = 100000 * (10 * sixthDigit x) := by ring
      _ ≤ 100000 * sixthDigit y := mul_le_mul_of_nonneg_left power (by norm_num)
      _ ≤ shownUnits y * sixthDigit y := mul_le_mul_of_nonneg_right least (sixthDigit_pos y).le
  · have unit : sixthDigit x = sixthDigit y := by rw [sixthDigit, sixthDigit, same]
    have scale : (0 : ℚ) ≤ 10 ^ (5 - Int.log 10 |y|) := (zpow_pos (by norm_num) _).le
    have units : shownUnits x ≤ shownUnits y := by
      unfold shownUnits
      rw [same]
      exact roundHalfEven_mono (mul_le_mul_of_nonneg_right ordered scale)
    rw [unit]
    exact mul_le_mul_of_nonneg_right (by exact_mod_cast units) (sixthDigit_pos y).le

/-- What is shown for two numbers stands in their order. -/
theorem shown_mono : Monotone shown := by
  have nonneg {x : ℚ} (above : 0 ≤ x) : 0 ≤ shown x := by
    rcases above.eq_or_lt with rfl | positive
    · exact shown_zero.ge
    · exact not_lt.mp fun below => absurd ((shown_sign positive.ne').2.mp below) (not_lt.mpr above)
  intro x y ordered
  rcases lt_or_ge y 0 with below | above
  · -- the magnitudes of two negative numbers stand the other way round
    have first : x < 0 := lt_of_le_of_lt ordered below
    have nearer : |y| ≤ |x| := by
      rw [abs_of_neg below, abs_of_neg first]
      exact neg_le_neg ordered
    have magnitudes := magnitude_mono below.ne nearer
    unfold shown
    rw [if_pos first, if_pos below, neg_one_mul, neg_one_mul]
    exact neg_le_neg magnitudes
  · rcases lt_trichotomy x 0 with negative | rfl | positive
    · exact le_trans ((shown_sign negative.ne).2.mpr negative).le (nonneg above)
    · rw [shown_zero]
      exact nonneg above
    · have nearer : |x| ≤ |y| := by
        rw [abs_of_pos positive, abs_of_nonneg above]
        exact ordered
      have magnitudes := magnitude_mono positive.ne' nearer
      unfold shown
      rwa [if_neg (not_lt.mpr positive.le), if_neg (not_lt.mpr above), one_mul, one_mul]

/-- A text for a number: JSON takes it, it is near the number, at most six digits are kept as
they are, and the number that is read has the same text. -/
structure Readable (x : ℚ) : Prop where
  number : Number (ostreamDouble x).toList
  close : |readDecimal (ostreamDouble x).toList - x| ≤ sixthDigit x / 2
  exactly : ∀ n : ℤ, x = n * sixthDigit x → readDecimal (ostreamDouble x).toList = x
  again : ostreamDouble (readDecimal (ostreamDouble x).toList) = ostreamDouble x

/-- What is read for several numbers adds up to their sum but for the digits that were cut. -/
theorem abs_sum_read_sub_le (xs : List ℚ) :
    |(xs.map fun x => readDecimal (ostreamDouble x).toList).sum - xs.sum| ≤
      (xs.map fun x => sixthDigit x / 2).sum := by
  induction xs with
  | nil => simp
  | cons x xs ih =>
      have first : |readDecimal (ostreamDouble x).toList - x| ≤ sixthDigit x / 2 := by
        rw [readDecimal_ostreamDouble]
        exact shown_close x
      rw [List.map_cons, List.map_cons, List.sum_cons, List.sum_cons, List.sum_cons,
        add_sub_add_comm]
      exact (abs_add_le _ _).trans (add_le_add first ih)

/-- A number of JSON has a digit in it. -/
theorem number_digit {text : List Char} (number : Number text) : ∃ c ∈ text, c.isDigit = true := by
  obtain @⟨sign, whole, fraction, exponent, _, digits, _, _⟩ := number
  obtain ⟨c, member⟩ := List.exists_mem_of_ne_nil whole digits.1.1
  exact ⟨c, by simp [member], digits.1.2 c member⟩

/-- The finite ones alone are printed as numbers of JSON. -/
theorem ostream_number_iff (d : Double) : Number d.ostream.toList ↔ d.IsFinite := by
  have wordless {word : String} (letters : word.toList.any Char.isDigit = false) :
      ¬ Number word.toList := by
    intro number
    obtain ⟨c, member, digit⟩ := number_digit number
    rw [List.any_eq_false] at letters
    exact letters c member digit
  cases d with
  | finite x => exact iff_of_true (ostreamDouble_number x) ⟨x, rfl⟩
  | infinite negative =>
      refine iff_of_false (wordless ?_) fun ⟨_, same⟩ => Double.noConfusion same
      cases negative <;> rfl
  | nan negative =>
      refine iff_of_false (wordless ?_) fun ⟨_, same⟩ => Double.noConfusion same
      cases negative <;> rfl

/-- Every finite number is printed readably, the numbers that are read keep the order, and
nothing but a finite number is printed as a number. -/
theorem ostreamDouble_readable :
    (∀ x, Readable x) ∧ (Monotone fun x => readDecimal (ostreamDouble x).toList) ∧
      ∀ d : Double, Number d.ostream.toList ↔ d.IsFinite := by
  simp only [readDecimal_ostreamDouble]
  refine ⟨fun x => ⟨ostreamDouble_number x, ?_, fun n digits => ?_, ?_⟩, shown_mono,
    ostream_number_iff⟩
  · rw [readDecimal_ostreamDouble]
    exact shown_close x
  · rw [readDecimal_ostreamDouble]
    exact shown_exact digits
  · rw [readDecimal_ostreamDouble]
    exact ostreamDouble_shown x

end PrismPipeline.Backtest
