import Mathlib.Data.List.Basic

/-!
# The grammar of JSON

Which texts are JSON values and which values they are, as a relation between the two.  What
stands between two quotes denotes one text at most.  A text that is a value can be scanned
from left to right: no control character stands between its quotes, the quotes are closed at
its end, and outside them an `n` only ever begins `null` and there is no `i`.
-/

namespace PrismPipeline.Text.Json

/-! ## Strings -/

def isControl (c : Char) : Bool := c.toNat < 32

/-- The letters that may stand behind a backslash by themselves. -/
def shortEscape : Char → Option Char
  | '"' => some '"'
  | '\\' => some '\\'
  | '/' => some '/'
  | 'b' => some (Char.ofNat 8)
  | 'f' => some (Char.ofNat 12)
  | 'n' => some '\n'
  | 'r' => some '\r'
  | 't' => some '\t'
  | _ => none

def hexDigit (c : Char) : Option ℕ :=
  if c.isDigit then some (c.toNat - 48)
  else if 'a' ≤ c ∧ c ≤ 'f' then some (c.toNat - 87)
  else if 'A' ≤ c ∧ c ≤ 'F' then some (c.toNat - 55)
  else none

/-- The number of four hexadecimal digits. -/
def hexUnit (a b c d : Char) : Option ℕ :=
  match hexDigit a, hexDigit b, hexDigit c, hexDigit d with
  | some a, some b, some c, some d => some (((a * 16 + b) * 16 + c) * 16 + d)
  | _, _, _, _ => none

/-- The letters between two quotes, and the text they stand for. -/
inductive Denotes : List Char → List Char → Prop
  | done : Denotes [] []
  | plain {c : Char} {body text : List Char} (visible : isControl c = false)
      (notQuote : c ≠ '"') (notEscape : c ≠ '\\') (rest : Denotes body text) :
      Denotes (c :: body) (c :: text)
  | short {e c : Char} {body text : List Char} (known : shortEscape e = some c)
      (rest : Denotes body text) : Denotes ('\\' :: e :: body) (c :: text)
  | unit {a b c d : Char} {n : ℕ} {body text : List Char} (four : hexUnit a b c d = some n)
      (scalar : n.isValidChar) (rest : Denotes body text) :
      Denotes ('\\' :: 'u' :: a :: b :: c :: d :: body) (Char.ofNat n :: text)
  | pair {a b c d e f g h : Char} {high low : ℕ} {body text : List Char}
      (first : hexUnit a b c d = some high) (second : hexUnit e f g h = some low)
      (isHigh : 0xD800 ≤ high ∧ high < 0xDC00) (isLow : 0xDC00 ≤ low ∧ low < 0xE000)
      (rest : Denotes body text) :
      Denotes ('\\' :: 'u' :: a :: b :: c :: d :: '\\' :: 'u' :: e :: f :: g :: h :: body)
        (Char.ofNat (0x10000 + (high - 0xD800) * 0x400 + (low - 0xDC00)) :: text)

theorem high_not_scalar {n : ℕ} (isHigh : 0xD800 ≤ n ∧ n < 0xDC00) : ¬ n.isValidChar := by
  rintro (small | ⟨large, -⟩)
  · omega
  · omega

/-- The same letters stand for one text only. -/
theorem Denotes.unique {body first second : List Char} (left : Denotes body first)
    (right : Denotes body second) : first = second := by
  induction left generalizing second with
  | done =>
      cases right
      rfl
  | plain _ _ notEscape _ ih =>
      cases right with
      | plain _ _ _ rest => rw [ih rest]
      | short | unit | pair => exact absurd rfl notEscape
  | short known _ ih =>
      cases right with
      | plain _ _ notEscape => exact absurd rfl notEscape
      | short other rest =>
          rw [known] at other
          rw [Option.some.inj other, ih rest]
      | unit | pair => cases known
  | unit four scalar _ ih =>
      cases right with
      | plain _ _ notEscape => exact absurd rfl notEscape
      | short known => cases known
      | unit other _ rest =>
          rw [four] at other
          rw [Option.some.inj other, ih rest]
      | pair other _ isHigh =>
          rw [four] at other
          exact absurd (Option.some.inj other ▸ scalar) (high_not_scalar isHigh)
  | pair four low isHigh _ _ ih =>
      cases right with
      | plain _ _ notEscape => exact absurd rfl notEscape
      | short known => cases known
      | unit other scalar =>
          rw [four] at other
          exact absurd scalar (high_not_scalar (Option.some.inj other ▸ isHigh))
      | pair other otherLow _ _ rest =>
          rw [four] at other
          rw [low] at otherLow
          rw [Option.some.inj other, Option.some.inj otherLow, ih rest]

/-- Letters that need no escape stand for themselves. -/
theorem Denotes.self {text : List Char}
    (plain : ∀ c ∈ text, isControl c = false ∧ c ≠ '"' ∧ c ≠ '\\') : Denotes text text := by
  induction text with
  | nil => exact .done
  | cons c text ih =>
      obtain ⟨⟨visible, notQuote, notEscape⟩, later⟩ := List.forall_mem_cons.mp plain
      exact .plain visible notQuote notEscape (ih later)

/-! ## Numbers -/

def Digits (text : List Char) : Prop := text ≠ [] ∧ ∀ c ∈ text, c.isDigit = true

/-- Digits that begin with a zero only if they are nothing else. -/
def WholeDigits (text : List Char) : Prop := Digits text ∧ (text.head? = some '0' → text = ['0'])

inductive Sign : List Char → Prop
  | none : Sign []
  | minus : Sign ['-']

inductive Fraction : List Char → Prop
  | none : Fraction []
  | digits {text : List Char} (digits : Digits text) : Fraction ('.' :: text)

inductive Exponent : List Char → Prop
  | none : Exponent []
  | digits {mark : Char} {sign text : List Char} (isMark : mark = 'e' ∨ mark = 'E')
      (signed : sign = [] ∨ sign = ['+'] ∨ sign = ['-']) (digits : Digits text) :
      Exponent (mark :: (sign ++ text))

inductive Number : List Char → Prop
  | intro {sign whole fraction exponent : List Char} (signed : Sign sign)
      (digits : WholeDigits whole) (decimals : Fraction fraction) (scaled : Exponent exponent) :
      Number (sign ++ (whole ++ (fraction ++ exponent)))

/-! ## Values -/

inductive Value where
  | null
  | boolean (b : Bool)
  | number (text : List Char)
  | text (letters : List Char)
  | array (items : List Value)
  | object (members : List (List Char × Value))

/-- Letters between the parts of a value that mean nothing. -/
def Blank (gap : List Char) : Prop := ∀ c ∈ gap, c = ' ' ∨ c = '\t' ∨ c = '\n' ∨ c = '\r'

theorem blank_letters {gap : List Char} (letters : gap.all fun c => c = ' ' ∨ c = '\n') :
    Blank gap := by
  intro c member
  rcases of_decide_eq_true (List.all_eq_true.mp letters c member) with space | line
  · exact Or.inl space
  · exact Or.inr (Or.inr (Or.inl line))

/-- The parts of a value that the grammar names. -/
inductive Part where
  | value (v : Value)
  | element (v : Value)
  | items (vs : List Value)
  | member (key : List Char) (v : Value)
  | members (ms : List (List Char × Value))

/-- The texts of a part.  A whole file is an element. -/
inductive Spells : Part → List Char → Prop
  | null : Spells (.value .null) ['n', 'u', 'l', 'l']
  | true : Spells (.value (.boolean .true)) ['t', 'r', 'u', 'e']
  | false : Spells (.value (.boolean .false)) ['f', 'a', 'l', 's', 'e']
  | number {text : List Char} (number : Number text) : Spells (.value (.number text)) text
  | text {body letters : List Char} (denotes : Denotes body letters) :
      Spells (.value (.text letters)) ('"' :: (body ++ ['"']))
  | noItems {gap : List Char} (blank : Blank gap) :
      Spells (.value (.array [])) ('[' :: (gap ++ [']']))
  | array {vs : List Value} {text : List Char} (items : Spells (.items vs) text) :
      Spells (.value (.array vs)) ('[' :: (text ++ [']']))
  | noMembers {gap : List Char} (blank : Blank gap) :
      Spells (.value (.object [])) ('\x7b' :: (gap ++ ['\x7d']))
  | object {ms : List (List Char × Value)} {text : List Char}
      (members : Spells (.members ms) text) :
      Spells (.value (.object ms)) ('\x7b' :: (text ++ ['\x7d']))
  | element {v : Value} {left text right : List Char} (before : Blank left) (after : Blank right)
      (value : Spells (.value v) text) : Spells (.element v) (left ++ (text ++ right))
  | lastItem {v : Value} {text : List Char} (item : Spells (.element v) text) :
      Spells (.items [v]) text
  | moreItems {v : Value} {vs : List Value} {text rest : List Char}
      (item : Spells (.element v) text) (later : Spells (.items vs) rest) :
      Spells (.items (v :: vs)) (text ++ ',' :: rest)
  | member {body key : List Char} {v : Value} {left middle text : List Char}
      (before : Blank left) (between : Blank middle) (denotes : Denotes body key)
      (value : Spells (.element v) text) :
      Spells (.member key v) (left ++ ('"' :: (body ++ '"' :: (middle ++ ':' :: text))))
  | lastMember {key : List Char} {v : Value} {text : List Char}
      (member : Spells (.member key v) text) : Spells (.members [(key, v)]) text
  | moreMembers {key : List Char} {v : Value} {ms : List (List Char × Value)}
      {text rest : List Char} (member : Spells (.member key v) text)
      (later : Spells (.members ms) rest) :
      Spells (.members ((key, v) :: ms)) (text ++ ',' :: rest)

/-! ## Scanning -/

/-- Where a scan stands: outside all strings, behind an `n` there, inside a string, or behind
a backslash in one. -/
inductive Place where
  | outside
  | word
  | inside
  | escaped
  deriving DecidableEq

/-- A control character stops the scan of a string, and so do letters of words that are no
values outside of one. -/
def scanStep : Place → Char → Option Place
  | .outside, c =>
      if c = '"' then some .inside
      else if c = 'n' then some .word
      else if c = 'i' then none
      else some .outside
  | .word, c => if c = 'u' then some .outside else none
  | .inside, c =>
      if isControl c then none
      else if c = '"' then some .outside
      else if c = '\\' then some .escaped
      else some .inside
  | .escaped, c => if isControl c then none else some .inside

def scan : Place → List Char → Option Place
  | place, [] => some place
  | place, c :: rest => (scanStep place c).bind fun next => scan next rest

theorem scan_append (place : Place) (first second : List Char) :
    scan place (first ++ second) = (scan place first).bind fun next => scan next second := by
  induction first generalizing place with
  | nil => rfl
  | cons c first ih =>
      rw [List.cons_append, scan, scan, Option.bind_assoc]
      congr 1
      funext next
      exact ih next

/-- Two texts that leave strings closed do so together. -/
theorem scan_closed {first second : List Char} (left : scan .outside first = some .outside)
    (right : scan .outside second = some .outside) :
    scan .outside (first ++ second) = some .outside := by
  rw [scan_append, left, Option.bind_some, right]

/-- Letters that a scan outside all strings goes over. -/
def isPassed (c : Char) : Bool := c ≠ '"' && c ≠ 'n' && c ≠ 'i'

theorem scan_cons_outside {c : Char} (passed : isPassed c = true) (rest : List Char) :
    scan .outside (c :: rest) = scan .outside rest := by
  simp only [isPassed, Bool.and_eq_true, decide_eq_true_eq] at passed
  have stays : scanStep .outside c = some .outside := by
    simp [scanStep, passed]
  rw [scan, stays, Option.bind_some]

theorem scan_outside {text : List Char} (passed : ∀ c ∈ text, isPassed c = true) :
    scan .outside text = some .outside := by
  induction text with
  | nil => rfl
  | cons c text ih =>
      obtain ⟨first, later⟩ := List.forall_mem_cons.mp passed
      rw [scan_cons_outside first, ih later]

theorem scan_plain {c : Char} {rest : List Char} (visible : isControl c = false)
    (notQuote : c ≠ '"') (notEscape : c ≠ '\\') : scan .inside (c :: rest) = scan .inside rest := by
  have stays : scanStep .inside c = some .inside := by
    simp [scanStep, visible, notQuote, notEscape]
  rw [scan, stays, Option.bind_some]

theorem scan_escaped {e : Char} {rest : List Char} (visible : isControl e = false) :
    scan .inside ('\\' :: e :: rest) = scan .inside rest := by
  have opens : scanStep .inside '\\' = some .escaped := by decide
  have closes : scanStep .escaped e = some .inside := by
    simp [scanStep, visible]
  rw [scan, opens, Option.bind_some, scan, closes, Option.bind_some]

theorem scan_quoted {body : List Char} (kept : scan .inside body = some .inside) :
    scan .outside ('"' :: (body ++ ['"'])) = some .outside := by
  have opens : scanStep .outside '"' = some .inside := by decide
  rw [scan, opens, Option.bind_some, scan_append, kept]
  rfl

theorem shortEscape_visible {e c : Char} (known : shortEscape e = some c) :
    isControl e = false := by
  unfold shortEscape at known
  split at known
  all_goals first | decide | cases known

theorem hexDigit_plain {c : Char} {n : ℕ} (digit : hexDigit c = some n) :
    isControl c = false ∧ c ≠ '"' ∧ c ≠ '\\' := by
  have large : 48 ≤ c.toNat ∧ c ≠ '\\' := by
    unfold hexDigit at digit
    by_cases isDigit : c.isDigit = true
    · simp only [Char.isDigit, Bool.and_eq_true, decide_eq_true_eq, ge_iff_le,
        UInt32.le_iff_toNat_le] at isDigit
      refine ⟨isDigit.1, ?_⟩
      rintro rfl
      exact absurd isDigit.2 (by decide)
    rw [if_neg isDigit] at digit
    by_cases small : 'a' ≤ c ∧ c ≤ 'f'
    · have low : 97 ≤ c.toNat := small.1
      refine ⟨by omega, ?_⟩
      rintro rfl
      exact absurd low (by decide)
    rw [if_neg small] at digit
    by_cases capital : 'A' ≤ c ∧ c ≤ 'F'
    · have low : 65 ≤ c.toNat := capital.1
      refine ⟨by omega, ?_⟩
      rintro rfl
      exact absurd capital.2 (by decide)
    rw [if_neg capital] at digit
    cases digit
  refine ⟨decide_eq_false (by omega), ?_, large.2⟩
  rintro rfl
  exact absurd large.1 (by decide)

theorem scan_hexUnit {a b c d : Char} {n : ℕ} {rest : List Char}
    (four : hexUnit a b c d = some n) :
    scan .inside ('\\' :: 'u' :: a :: b :: c :: d :: rest) = scan .inside rest := by
  unfold hexUnit at four
  split at four
  · next p q r s digitA digitB digitC digitD =>
      obtain ⟨visibleA, quoteA, escapeA⟩ := hexDigit_plain digitA
      obtain ⟨visibleB, quoteB, escapeB⟩ := hexDigit_plain digitB
      obtain ⟨visibleC, quoteC, escapeC⟩ := hexDigit_plain digitC
      obtain ⟨visibleD, quoteD, escapeD⟩ := hexDigit_plain digitD
      rw [scan_escaped (by decide), scan_plain visibleA quoteA escapeA,
        scan_plain visibleB quoteB escapeB, scan_plain visibleC quoteC escapeC,
        scan_plain visibleD quoteD escapeD]
  · cases four

/-- What denotes a text neither ends its string nor has a control character. -/
theorem Denotes.scan_eq {body text : List Char} (denotes : Denotes body text) :
    scan .inside body = some .inside := by
  induction denotes with
  | done => rfl
  | plain visible notQuote notEscape _ ih => rw [scan_plain visible notQuote notEscape, ih]
  | short known _ ih => rw [scan_escaped (shortEscape_visible known), ih]
  | unit four _ _ ih => rw [scan_hexUnit four, ih]
  | pair first second _ _ _ ih => rw [scan_hexUnit first, scan_hexUnit second, ih]

theorem passed_digits {text : List Char} (digits : Digits text) :
    ∀ c ∈ text, isPassed c = true := by
  intro c member
  have digit := digits.2 c member
  have other {letter : Char} (isOther : letter.isDigit = false) : c ≠ letter := by
    rintro rfl
    exact Bool.false_ne_true (isOther.symm.trans digit)
  have quote : c ≠ '"' := other (by decide)
  have null : c ≠ 'n' := other (by decide)
  have infinite : c ≠ 'i' := other (by decide)
  simp [isPassed, quote, null, infinite]

theorem passed_number {text : List Char} (number : Number text) :
    ∀ c ∈ text, isPassed c = true := by
  cases number with
  | intro signed whole decimals scaled =>
      simp only [List.forall_mem_append]
      refine ⟨?_, passed_digits whole.1, ?_, ?_⟩
      · cases signed with
        | none => exact List.forall_mem_nil _
        | minus => exact List.forall_mem_singleton.mpr (by decide)
      · cases decimals with
        | none => exact List.forall_mem_nil _
        | digits digits => exact List.forall_mem_cons.mpr ⟨by decide, passed_digits digits⟩
      · cases scaled with
        | none => exact List.forall_mem_nil _
        | digits isMark signed digits =>
            rw [List.forall_mem_cons, List.forall_mem_append]
            refine ⟨?_, ?_, passed_digits digits⟩
            · rcases isMark with rfl | rfl
              · decide
              · decide
            · rcases signed with rfl | rfl | rfl
              · exact List.forall_mem_nil _
              · exact List.forall_mem_singleton.mpr (by decide)
              · exact List.forall_mem_singleton.mpr (by decide)

theorem passed_blank {gap : List Char} (blank : Blank gap) : ∀ c ∈ gap, isPassed c = true := by
  intro c member
  rcases blank c member with rfl | rfl | rfl | rfl
  · decide
  · decide
  · decide
  · decide

theorem scan_bracketed {first last : Char} {text : List Char} (opens : isPassed first = true)
    (closes : isPassed last = true) (kept : scan .outside text = some .outside) :
    scan .outside (first :: (text ++ [last])) = some .outside := by
  rw [scan_cons_outside opens, scan_append, kept, Option.bind_some, scan_cons_outside closes]
  rfl

/-- Every part of a value can be scanned. -/
theorem Spells.scan_eq {part : Part} {text : List Char} (spells : Spells part text) :
    scan .outside text = some .outside := by
  induction spells with
  | null | true | false => rfl
  | number number => exact scan_outside (passed_number number)
  | text denotes => exact scan_quoted denotes.scan_eq
  | noItems blank | noMembers blank =>
      exact scan_bracketed (by decide) (by decide) (scan_outside (passed_blank blank))
  | array _ ih | object _ ih => exact scan_bracketed (by decide) (by decide) ih
  | element before after _ ih =>
      exact scan_closed (scan_outside (passed_blank before))
        (scan_closed ih (scan_outside (passed_blank after)))
  | lastItem _ ih | lastMember _ ih => exact ih
  | moreItems _ _ first later | moreMembers _ _ first later =>
      apply scan_closed first
      rw [scan_cons_outside (by decide), later]
  | @member body key v left middle text before between denotes _ ih =>
      have split : left ++ ('"' :: (body ++ '"' :: (middle ++ ':' :: text))) =
          left ++ (('"' :: (body ++ ['"'])) ++ (middle ++ ':' :: text)) := by
        simp
      rw [split]
      apply scan_closed (scan_outside (passed_blank before))
      apply scan_closed (scan_quoted denotes.scan_eq)
      apply scan_closed (scan_outside (passed_blank between))
      rw [scan_cons_outside (by decide), ih]

/-! ## Lines -/

/-- Lines with a comma behind all but the last. -/
def commaLines : List (List Char) → List Char
  | [] => []
  | [line] => line ++ ['\n']
  | line :: next :: rest => line ++ ',' :: '\n' :: commaLines (next :: rest)

/-- One line that stops the scan stops it for all. -/
theorem commaLines_stop {lines : List (List Char)}
    (each : ∀ line ∈ lines, scan .outside line = some .outside ∨ scan .outside line = none)
    (stopped : ∃ line ∈ lines, scan .outside line = none) (rest : List Char) :
    scan .outside (commaLines lines ++ rest) = none := by
  induction lines with
  | nil =>
      obtain ⟨line, member, -⟩ := stopped
      cases member
  | cons line lines ih =>
      obtain ⟨first, each⟩ := List.forall_mem_cons.mp each
      have text : ∃ after, commaLines (line :: lines) ++ rest = line ++ after ∧
          (lines ≠ [] → after = ',' :: '\n' :: (commaLines lines ++ rest)) := by
        cases lines with
        | nil => exact ⟨'\n' :: rest, by simp [commaLines], fun some => absurd rfl some⟩
        | cons next others => exact ⟨_, by simp [commaLines], fun _ => rfl⟩
      obtain ⟨after, split, later⟩ := text
      rw [split, scan_append]
      rcases first with passes | stops
      · obtain ⟨other, member, isStopped⟩ := stopped
        rcases List.mem_cons.mp member with rfl | inside
        · rw [passes] at isStopped
          cases isStopped
        · rw [passes, Option.bind_some, later (List.ne_nil_of_mem inside),
            scan_cons_outside (by decide), scan_cons_outside (by decide)]
          exact ih each ⟨other, inside, isStopped⟩
      · rw [stops, Option.bind_none]

end PrismPipeline.Text.Json
