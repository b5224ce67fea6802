import Mathlib.Data.Int.Log
import Mathlib.Data.List.DropRight
import Mathlib.Data.Rat.Floor
import PrismPipeline.Backtest.Data

/-!
# Printed numbers

The ways the backtest prints a number: written to a stream, with at most six digits and an
exponent where it needs one, and by `std::to_string`.  None of them has a letter that means
something in a row of cells or in a quoted text.
-/

namespace PrismPipeline.Backtest

/-! ## Numbers on a stream -/

/-- The decimal exponent of a number and its six digits, rounded. -/
def sixDigits (x : ℚ) : ℤ × List Char :=
  let e := Int.log 10 |x|
  let units := (roundHalfEven (|x| * 10 ^ (5 - e))).toNat
  if units = 1000000 then (e + 1, "100000".toList) else (e, (toString units).toList)

/-- Decimals behind a point, without the zeros at their end. -/
def withPoint (decimals : List Char) : List Char :=
  match decimals.rdropWhile fun c => c = '0' with
  | [] => []
  | kept => '.' :: kept

def fixedText (e : ℤ) (digits : List Char) : List Char :=
  if 0 ≤ e then digits.take (e.toNat + 1) ++ withPoint (digits.drop (e.toNat + 1))
  else '0' :: withPoint (List.replicate ((-e).toNat - 1) '0' ++ digits)

def scientificText (e : ℤ) (digits : List Char) : List Char :=
  digits.take 1 ++ withPoint (digits.drop 1) ++
    'e' :: (if e < 0 then '-' else '+') :: (toString e.natAbs).toList.leftpad 2 '0'

/-- A finite `double` written to a stream: six digits, with an exponent where it is small or
large. -/
def ostreamDouble (x : ℚ) : String :=
  if x = 0 then "0"
  else
    let (e, digits) := sixDigits x
    String.ofList ((if x < 0 then ['-'] else []) ++
      if -4 ≤ e ∧ e < 6 then fixedText e digits else scientificText e digits)

/-- What a `double` can be: a number, an infinity, or no number at all. -/
inductive Double where
  | finite (x : ℚ)
  | infinite (negative : Bool)
  | nan (negative : Bool)
  deriving DecidableEq, Repr

def Double.IsFinite (d : Double) : Prop := ∃ x, d = .finite x

/-- A `double` written to a stream.  What is not finite is written as a word. -/
def Double.ostream : Double → String
  | .finite x => ostreamDouble x
  | .infinite negative => if negative then "-inf" else "inf"
  | .nan negative => if negative then "-nan" else "nan"

/-! ## Their letters -/

theorem toString_negSucc (n : ℕ) :
    (toString (Int.negSucc n)).toList = '-' :: (toString (n + 1)).toList := by
  simp [toString, Int.repr]

/-- The letters of a printed number. -/
def isNumberLetter (c : Char) : Bool := c.isDigit || c = '.' || c = '-' || c = '+' || c = 'e'

def NumberText (text : List Char) : Prop := ∀ c ∈ text, isNumberLetter c = true

instance (text : List Char) : Decidable (NumberText text) := List.decidableBAll _ text

namespace NumberText

theorem append {a b : List Char} (first : NumberText a) (second : NumberText b) :
    NumberText (a ++ b) := List.forall_mem_append.mpr ⟨first, second⟩

theorem cons {c : Char} {text : List Char} (first : isNumberLetter c = true)
    (later : NumberText text) : NumberText (c :: text) := List.forall_mem_cons.mpr ⟨first, later⟩

theorem nil : NumberText [] := by
  intro c member
  cases member

theorem replicate {c : Char} (letter : isNumberLetter c = true) (n : ℕ) :
    NumberText (List.replicate n c) := by
  intro other member
  rw [List.eq_of_mem_replicate member]
  exact letter

theorem of_subset {a b : List Char} (text : NumberText b) (subset : a ⊆ b) : NumberText a :=
  fun c member => text c (subset member)

theorem nat (n : ℕ) : NumberText (toString n).toList := by
  intro c member
  have digits : (toString n).toList = Nat.toDigits 10 n := by
    change n.repr.toList = _
    rw [Nat.repr_eq_ofList_toDigits, String.toList_ofList]
  rw [digits] at member
  have digit := Nat.isDigit_of_mem_toDigits (by decide) (by decide) member
  simp [isNumberLetter, digit]

theorem int (n : ℤ) : NumberText (toString n).toList := by
  cases n with
  | ofNat m => exact nat m
  | negSucc m =>
      rw [toString_negSucc]
      exact cons (by decide) (nat (m + 1))

theorem leftpad {text : List Char} (digits : NumberText text) (n : ℕ) :
    NumberText (text.leftpad n '0') := (replicate (by decide) _).append digits

theorem withPoint {decimals : List Char} (digits : NumberText decimals) :
    NumberText (withPoint decimals) := by
  unfold Backtest.withPoint
  have kept := digits.of_subset (List.rdropWhile_prefix (fun c => c = '0') decimals).subset
  split
  · exact nil
  · exact cons (by decide) kept

theorem sixDigits (x : ℚ) : NumberText (sixDigits x).2 := by
  unfold Backtest.sixDigits
  dsimp only
  split
  · change NumberText "100000".toList
    decide
  · exact nat _

theorem fixedText {digits : List Char} (text : NumberText digits) (e : ℤ) :
    NumberText (fixedText e digits) := by
  unfold Backtest.fixedText
  split
  · exact (text.of_subset (List.take_subset _ _)).append
      (text.of_subset (List.drop_subset _ _)).withPoint
  · exact cons (by decide) ((replicate (by decide) _).append text).withPoint

theorem scientificText {digits : List Char} (text : NumberText digits) (e : ℤ) :
    NumberText (scientificText e digits) := by
  have mantissa : NumberText (digits.take 1 ++ Backtest.withPoint (digits.drop 1)) :=
    (text.of_subset (List.take_subset _ _)).append
      (text.of_subset (List.drop_subset _ _)).withPoint
  refine mantissa.append (cons (by decide) (cons ?_ ((nat _).leftpad 2)))
  split <;> decide

theorem ostreamDouble (x : ℚ) : NumberText (ostreamDouble x).toList := by
  unfold Backtest.ostreamDouble
  split
  · decide
  · rw [String.toList_ofList]
    apply append
    · split
      · exact cons (by decide) nil
      · exact nil
    · split
      · exact (sixDigits x).fixedText _
      · exact (sixDigits x).scientificText _

/-- `std::to_string` has no other letters either. -/
theorem toStdString (x : ℚ) : NumberText (toStdString x).toList := by
  unfold Backtest.toStdString
  simp only [String.toList_append, String.toList_ofList]
  refine NumberText.append (append (append ?_ (nat _)) ?_) ((nat _).leftpad 6)
  · split
    · decide
    · exact nil
  · decide

/-- A letter that no number has. -/
theorem notMem {text : List Char} (number : NumberText text) {c : Char}
    (other : isNumberLetter c = false) : c ∉ text := by
  intro member
  have letter := number c member
  rw [other] at letter
  exact Bool.false_ne_true letter

end NumberText

example : ostreamDouble (1234567 / 1000) = "1234.57" := by decide +kernel
example : ostreamDouble (-1 / 100000) = "-1e-05" := by decide +kernel

end PrismPipeline.Backtest
