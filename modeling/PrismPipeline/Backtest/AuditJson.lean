import PrismPipeline.Backtest.LineEndings
import PrismPipeline.Backtest.PrintedNumbers
import PrismPipeline.Backtest.Provenance
import PrismPipeline.Text.Json

/-!
# The audit log as JSON

The lines of `audit_log.json` are objects written by hand.  The escaper takes care of quotes
and backslashes and of nothing else, so the file is JSON unless a timestamp has a control
character in it.
-/

namespace PrismPipeline.Backtest

open PrismPipeline.Text PrismPipeline.Text.Json

/-! ## The file -/

def auditLine (event : AuditEvent) : List Char := ' ' :: ' ' :: event.render.toList

/-- `audit_log.json` -/
def auditFile (events : List AuditEvent) : List Char :=
  '[' :: '\n' :: (commaLines (events.map auditLine) ++ [']', '\n'])

/-! ## Escaping -/

def escapeLetter (c : Char) : List Char :=
  if c = '"' then ['\\', '"'] else if c = '\\' then ['\\', '\\'] else [c]

theorem esc_toList (s : String) : (esc s).toList = s.toList.flatMap escapeLetter :=
  String.toList_ofList

/-- A text without control characters. -/
def Visible (s : String) : Prop := ∀ c ∈ s.toList, isControl c = false

instance (s : String) : Decidable (Visible s) := List.decidableBAll _ s.toList

/-- A visible text comes back from its escaped form. -/
theorem denotes_escaped {text : List Char} (visible : ∀ c ∈ text, isControl c = false) :
    Denotes (text.flatMap escapeLetter) text := by
  induction text with
  | nil => exact .done
  | cons c text ih =>
      obtain ⟨first, later⟩ := List.forall_mem_cons.mp visible
      rw [List.flatMap_cons, escapeLetter]
      by_cases quote : c = '"'
      · rw [if_pos quote, quote]
        exact .short rfl (ih later)
      rw [if_neg quote]
      by_cases backslash : c = '\\'
      · rw [if_pos backslash, backslash]
        exact .short rfl (ih later)
      · rw [if_neg backslash]
        exact .plain first quote backslash (ih later)

/-- A control character is written as it is, and stops the scan. -/
theorem scan_escaped_control {text : List Char} (hidden : ∃ c ∈ text, isControl c = true) :
    scan .inside (text.flatMap escapeLetter) = none := by
  induction text with
  | nil =>
      obtain ⟨c, member, -⟩ := hidden
      cases member
  | cons c text ih =>
      have here (control : isControl c = true) : scan .inside (escapeLetter c) = none := by
        have quote : c ≠ '"' := by
          rintro rfl
          exact absurd control (by decide)
        have backslash : c ≠ '\\' := by
          rintro rfl
          exact absurd control (by decide)
        rw [escapeLetter, if_neg quote, if_neg backslash]
        simp [scan, scanStep, control]
      rw [List.flatMap_cons, scan_append]
      cases control : isControl c with
      | true => rw [here control, Option.bind_none]
      | false =>
          have kept := (denotes_escaped (List.forall_mem_singleton.mpr control)).scan_eq
          rw [List.flatMap_singleton] at kept
          rw [kept, Option.bind_some]
          apply ih
          obtain ⟨other, member, isHidden⟩ := hidden
          rcases List.mem_cons.mp member with rfl | later
          · rw [control] at isHidden
            cases isHidden
          · exact ⟨other, later, isHidden⟩

theorem denotes_esc {s : String} (visible : Visible s) : Denotes (esc s).toList s.toList := by
  rw [esc_toList]
  exact denotes_escaped visible

theorem scan_esc {s : String} (hidden : ¬ Visible s) : scan .inside (esc s).toList = none := by
  rw [esc_toList]
  apply scan_escaped_control
  obtain ⟨c, present⟩ := not_forall.mp hidden
  obtain ⟨member, control⟩ := Classical.not_imp.mp present
  exact ⟨c, member, Bool.eq_true_of_not_eq_false control⟩

/-- The escaped text denotes the text and nothing else, if it denotes anything. -/
theorem denotes_esc_iff (s : String) :
    (∀ text, Denotes (esc s).toList text ↔ text = s.toList) ↔ Visible s := by
  constructor
  · intro decodes
    by_contra hidden
    have scanned := ((decodes s.toList).mpr rfl).scan_eq
    rw [scan_esc hidden] at scanned
    cases scanned
  · intro visible text
    constructor
    · intro other
      exact other.unique (denotes_esc visible)
    · rintro rfl
      exact denotes_esc visible

/-! ## Numbers -/

theorem digits_toDigits (n : ℕ) : Digits (Nat.toDigits 10 n) := by
  refine ⟨Nat.toDigits_ne_nil, fun c member => ?_⟩
  exact Nat.isDigit_of_mem_toDigits (by decide) (by decide) member

/-- Printed digits have no zero in front. -/
theorem wholeDigits_toDigits (n : ℕ) : WholeDigits (Nat.toDigits 10 n) := by
  refine ⟨digits_toDigits n, ?_⟩
  induction n using Nat.strongRecOn with
  | ind n ih =>
      intro zero
      by_cases small : n < 10
      · rw [Nat.toDigits_of_lt_base small] at zero ⊢
        rw [Option.some.inj zero]
      · have split := Nat.toDigits_of_base_le (by decide : 1 < 10) (not_lt.mp small)
        rw [split, List.head?_append_of_ne_nil _ Nat.toDigits_ne_nil] at zero
        have shorter : n / 10 < n := Nat.div_lt_self (by omega) (by decide)
        have front := ih (n / 10) shorter zero
        have value := congrArg (fun letters => Nat.ofDigitChars 10 letters 0) front
        rw [Nat.ofDigitChars_ten_toDigits] at value
        have none : n / 10 = 0 := value
        omega

theorem toString_toList (n : ℕ) : (toString n).toList = Nat.toDigits 10 n := by
  change n.repr.toList = _
  exact Nat.toList_repr

/-- An integer is printed as its sign and its digits. -/
theorem toString_int_toList (z : ℤ) :
    (toString z).toList = (if z < 0 then ['-'] else []) ++ Nat.toDigits 10 z.natAbs := by
  cases z with
  | ofNat n =>
      have sign : ¬ Int.ofNat n < 0 := (Int.natCast_nonneg n).not_gt
      rw [if_neg sign]
      exact toString_toList n
  | negSucc n =>
      rw [if_pos (Int.negSucc_lt_zero n), toString_negSucc, toString_toList]
      rfl

theorem number_int (z : ℤ) : Number (toString z).toList := by
  have sign : Sign (if z < 0 then ['-'] else []) := by
    split
    · exact .minus
    · exact .none
  have number : Number (_ ++ (Nat.toDigits 10 z.natAbs ++ ([] ++ []))) :=
    .intro sign (wholeDigits_toDigits z.natAbs) .none .none
  rw [toString_int_toList]
  simpa using number

/-- Six decimals, filled up with zeros. -/
theorem digits_leftpad (n : ℕ) : Digits ((toString n).toList.leftpad 6 '0') := by
  rw [toString_toList, List.leftpad]
  constructor
  · exact List.append_ne_nil_of_right_ne_nil _ Nat.toDigits_ne_nil
  · intro c member
    rcases List.mem_append.mp member with zero | digit
    · rw [List.eq_of_mem_replicate zero]
      decide
    · exact (digits_toDigits n).2 c digit

theorem number_toStdString (x : ℚ) : Number (toStdString x).toList := by
  have sign : Sign (if x < 0 then "-" else "").toList := by
    split
    · exact .minus
    · exact .none
  unfold toStdString
  dsimp only
  generalize (roundHalfEven (|x| * 1000000)).toNat = units
  have number : Number ((if x < 0 then "-" else "").toList ++
      (Nat.toDigits 10 (units / 1000000) ++
        ('.' :: (toString (units % 1000000)).toList.leftpad 6 '0' ++ []))) :=
    .intro sign (wholeDigits_toDigits _) (.digits (digits_leftpad _)) .none
  rw [List.append_nil, ← toString_toList] at number
  simp only [String.toList_append, String.toList_ofList, List.append_assoc]
  exact number

/-! ## Events -/

/-- The text of a flat object. -/
def fieldsText : List (String × List Char) → List Char
  | [] => []
  | [field] => '"' :: (field.1.toList ++ '"' :: ':' :: field.2)
  | field :: next :: rest =>
      '"' :: (field.1.toList ++ '"' :: ':' :: (field.2 ++ ',' :: fieldsText (next :: rest)))

/-- A key that stands for itself, and a text of its value. -/
def FieldSpells (field : String × List Char) (m : List Char × Json.Value) : Prop :=
  Denotes field.1.toList m.1 ∧ Spells (.value m.2) field.2

theorem spells_fields {fields : List (String × List Char)} {ms : List (List Char × Json.Value)}
    (some : fields ≠ []) (spelled : List.Forall₂ FieldSpells fields ms) :
    Spells (.members ms) (fieldsText fields) := by
  have blank : Blank [] := by
    intro c member
    cases member
  have one {field : String × List Char} {m : List Char × Json.Value}
      (field_m : FieldSpells field m) :
      Spells (.member m.1 m.2) ('"' :: (field.1.toList ++ '"' :: ':' :: field.2)) := by
    have value : Spells (.element m.2) ([] ++ (field.2 ++ [])) := .element blank blank field_m.2
    rw [List.nil_append, List.append_nil] at value
    exact .member blank blank field_m.1 value
  induction spelled with
  | nil => exact absurd rfl some
  | @cons field m fields ms first later ih =>
      cases later with
      | nil => exact .lastMember (one first)
      | @cons next m' rest ms second others =>
          have joined := Spells.moreMembers (one first) (ih (List.cons_ne_nil _ _))
          simpa [fieldsText] using joined

namespace AuditEvent

def timestamp : AuditEvent → String
  | tradeExit timestamp _ _ => timestamp
  | breakout timestamp _ => timestamp
  | entryExpired timestamp => timestamp
  | tradeAccepted timestamp _ => timestamp
  | tradeRejected timestamp _ => timestamp

/-- The reasons of a rejection have no control characters. -/
def CodesVisible : AuditEvent → Prop
  | tradeRejected _ reasonCodes => Visible reasonCodes
  | _ => True

/-- The members of the object behind the timestamp. -/
def details : AuditEvent → List (List Char × Json.Value)
  | tradeExit _ reason tradeId =>
      [("event".toList, .text "TRADE_EXIT".toList),
        ("reason_code".toList, .text reason.text.toList),
        ("trade_id".toList, .number (toString tradeId).toList)]
  | breakout _ level =>
      [("event".toList, .text "BREAKOUT".toList),
        ("breakout_level".toList, .number (toStdString level).toList)]
  | entryExpired _ =>
      [("event".toList, .text "ENTRY_EXPIRED".toList),
        ("reason_code".toList, .text "TTL_EXPIRED".toList)]
  | tradeAccepted _ tradeId =>
      [("event".toList, .text "TRADE_ACCEPTED".toList),
        ("reason_code".toList, .text "ACCEPTED".toList),
        ("trade_id".toList, .number (toString tradeId).toList)]
  | tradeRejected _ reasonCodes =>
      [("event".toList, .text "TRADE_REJECTED".toList),
        ("reason_code".toList, .text reasonCodes.toList)]

/-- The object an event is written as. -/
def json (event : AuditEvent) : Json.Value :=
  .object (("timestamp".toList, .text event.timestamp.toList) :: event.details)

def quoted (body : String) : List Char := '"' :: (body.toList ++ ['"'])

/-- The fields as they are written behind the timestamp. -/
def written : AuditEvent → List (String × List Char)
  | tradeExit _ reason tradeId =>
      [("event", quoted "TRADE_EXIT"), ("reason_code", quoted reason.text),
        ("trade_id", (toString tradeId).toList)]
  | breakout _ level =>
      [("event", quoted "BREAKOUT"), ("breakout_level", (toStdString level).toList)]
  | entryExpired _ => [("event", quoted "ENTRY_EXPIRED"), ("reason_code", quoted "TTL_EXPIRED")]
  | tradeAccepted _ tradeId =>
      [("event", quoted "TRADE_ACCEPTED"), ("reason_code", quoted "ACCEPTED"),
        ("trade_id", (toString tradeId).toList)]
  | tradeRejected _ reasonCodes =>
      [("event", quoted "TRADE_REJECTED"), ("reason_code", quoted (esc reasonCodes))]

theorem toList_append_eq {a b : String} {x y : List Char} (first : a.toList = x)
    (second : b.toList = y) : (a ++ b).toList = x ++ y := by
  rw [String.toList_append, first, second]

/-- What stands in front of the timestamp. -/
theorem opening_toList (time : String) :
    ("\x7b\"timestamp\":\"" ++ time).toList =
      ('\x7b' :: '"' :: ("timestamp".toList ++ ['"', ':', '"'])) ++ time.toList :=
  toList_append_eq (by decide +kernel) rfl

/-- The line of an event is an object, field by field. -/
theorem render_toList (event : AuditEvent) :
    event.render.toList =
      '\x7b' :: (fieldsText (("timestamp", quoted (esc event.timestamp)) :: event.written) ++
        ['\x7d']) := by
  have closing : "\x7d".toList = ['\x7d'] := by decide +kernel
  have tradeId : "\",\"trade_id\":".toList =
      '"' :: ',' :: '"' :: ("trade_id".toList ++ ['"', ':']) := by decide +kernel
  cases event with
  | tradeExit time reason id =>
      have middle : "\",\"event\":\"TRADE_EXIT\",\"reason_code\":\"".toList =
          '"' :: ',' :: '"' :: ("event".toList ++ '"' :: ':' :: '"' :: ("TRADE_EXIT".toList ++
            '"' :: ',' :: '"' :: ("reason_code".toList ++ ['"', ':', '"']))) := by
        decide +kernel
      refine (toList_append_eq (toList_append_eq (toList_append_eq (toList_append_eq
        (toList_append_eq (opening_toList _) middle) rfl) tradeId) rfl) closing).trans ?_
      simp only [fieldsText, written, quoted, timestamp, List.append_assoc, List.cons_append,
        List.nil_append]
  | breakout time level =>
      have middle : "\",\"event\":\"BREAKOUT\",\"breakout_level\":".toList =
          '"' :: ',' :: '"' :: ("event".toList ++ '"' :: ':' :: '"' :: ("BREAKOUT".toList ++
            '"' :: ',' :: '"' :: ("breakout_level".toList ++ ['"', ':']))) := by
        decide +kernel
      refine (toList_append_eq (toList_append_eq (toList_append_eq (opening_toList _) middle) rfl)
        closing).trans ?_
      simp only [fieldsText, written, quoted, timestamp, List.append_assoc, List.cons_append,
        List.nil_append]
  | entryExpired time =>
      have middle : "\",\"event\":\"ENTRY_EXPIRED\",\"reason_code\":\"TTL_EXPIRED\"\x7d".toList =
          '"' :: ',' :: '"' :: ("event".toList ++ '"' :: ':' :: '"' :: ("ENTRY_EXPIRED".toList ++
            '"' :: ',' :: '"' :: ("reason_code".toList ++ '"' :: ':' :: '"' ::
              ("TTL_EXPIRED".toList ++ ['"', '\x7d'])))) := by
        decide +kernel
      refine (toList_append_eq (opening_toList _) middle).trans ?_
      simp only [fieldsText, written, quoted, timestamp, List.append_assoc, List.cons_append,
        List.nil_append]
  | tradeAccepted time id =>
      have middle :
          "\",\"event\":\"TRADE_ACCEPTED\",\"reason_code\":\"ACCEPTED\",\"trade_id\":".toList =
          '"' :: ',' :: '"' :: ("event".toList ++ '"' :: ':' :: '"' :: ("TRADE_ACCEPTED".toList ++
            '"' :: ',' :: '"' :: ("reason_code".toList ++ '"' :: ':' :: '"' ::
              ("ACCEPTED".toList ++ '"' :: ',' :: '"' :: ("trade_id".toList ++ ['"', ':']))))) := by
        decide +kernel
      refine (toList_append_eq (toList_append_eq (toList_append_eq (opening_toList _) middle) rfl)
        closing).trans ?_
      simp only [fieldsText, written, quoted, timestamp, List.append_assoc, List.cons_append,
        List.nil_append]
  | tradeRejected time codes =>
      have middle : "\",\"event\":\"TRADE_REJECTED\",\"reason_code\":\"".toList =
          '"' :: ',' :: '"' :: ("event".toList ++ '"' :: ':' :: '"' :: ("TRADE_REJECTED".toList ++
            '"' :: ',' :: '"' :: ("reason_code".toList ++ ['"', ':', '"']))) := by
        decide +kernel
      have last : "\"\x7d".toList = ['"', '\x7d'] := by decide +kernel
      refine (toList_append_eq (toList_append_eq (toList_append_eq (opening_toList _) middle) rfl)
        last).trans ?_
      simp only [fieldsText, written, quoted, timestamp, List.append_assoc, List.cons_append,
        List.nil_append]

theorem spells_quoted {body : String} {letters : List Char}
    (denotes : Denotes body.toList letters) : Spells (.value (.text letters)) (quoted body) :=
  .text denotes

/-- The texts a program writes without looking at them. -/
theorem denotes_self {text : String}
    (plain : text.toList.all fun c => isControl c = false ∧ c ≠ '"' ∧ c ≠ '\\') :
    Denotes text.toList text.toList :=
  .self fun c member => of_decide_eq_true (List.all_eq_true.mp plain c member)

theorem denotes_exitReason (reason : ExitReason) :
    Denotes reason.text.toList reason.text.toList := by
  apply denotes_self
  cases reason with
  | stopHit | target2Hit | target1Hit | invalidCloseBelowBreakout | invalidRegimeShock
  | invalidMseTrendDown | invalidMpsBlock | timeExit | dataEndExit => decide

/-- Behind the timestamp every field spells its member. -/
theorem written_spells {event : AuditEvent} (codes : event.CodesVisible) :
    List.Forall₂ FieldSpells event.written event.details := by
  have name : Denotes "event".toList "event".toList := denotes_self (by decide)
  have reasonCode : Denotes "reason_code".toList "reason_code".toList := denotes_self (by decide)
  have tradeId : Denotes "trade_id".toList "trade_id".toList := denotes_self (by decide)
  have breakoutLevel : Denotes "breakout_level".toList "breakout_level".toList :=
    denotes_self (by decide)
  cases event with
  | tradeExit time reason id =>
      exact .cons ⟨name, spells_quoted (denotes_self (by decide))⟩
        (.cons ⟨reasonCode, spells_quoted (denotes_exitReason reason)⟩
          (.cons ⟨tradeId, .number (number_int id.toInt)⟩ .nil))
  | breakout time level =>
      exact .cons ⟨name, spells_quoted (denotes_self (by decide))⟩
        (.cons ⟨breakoutLevel, .number (number_toStdString level)⟩ .nil)
  | entryExpired time =>
      exact .cons ⟨name, spells_quoted (denotes_self (by decide))⟩
        (.cons ⟨reasonCode, spells_quoted (denotes_self (by decide))⟩ .nil)
  | tradeAccepted time id =>
      exact .cons ⟨name, spells_quoted (denotes_self (by decide))⟩
        (.cons ⟨reasonCode, spells_quoted (denotes_self (by decide))⟩
          (.cons ⟨tradeId, .number (number_int id.toInt)⟩ .nil))
  | tradeRejected time reasonCodes =>
      exact .cons ⟨name, spells_quoted (denotes_self (by decide))⟩
        (.cons ⟨reasonCode, spells_quoted (denotes_esc codes)⟩ .nil)

theorem render_spells {event : AuditEvent} (codes : event.CodesVisible)
    (time : Visible event.timestamp) : Spells (.value event.json) event.render.toList := by
  have key : Denotes "timestamp".toList "timestamp".toList := denotes_self (by decide)
  rw [render_toList]
  exact .object (spells_fields (List.cons_ne_nil _ _)
    (.cons ⟨key, spells_quoted (denotes_esc time)⟩ (written_spells codes)))

/-- A hidden character in the timestamp stops the scan of the line. -/
theorem render_stops {event : AuditEvent} (time : ¬ Visible event.timestamp) :
    scan .outside event.render.toList = none := by
  have opens : scan .outside ('\x7b' :: '"' :: ("timestamp".toList ++ ['"', ':', '"'])) =
      some .inside := by decide +kernel
  have front : ∃ rest, event.render.toList =
      ('\x7b' :: '"' :: ("timestamp".toList ++ ['"', ':', '"'])) ++
        ((esc event.timestamp).toList ++ rest) := by
    refine ⟨'"' :: ',' :: (fieldsText event.written ++ ['\x7d']), ?_⟩
    rw [render_toList]
    cases event with
    | tradeExit | breakout | entryExpired | tradeAccepted | tradeRejected =>
        simp only [fieldsText, written, quoted, List.append_assoc, List.cons_append,
          List.nil_append]
  obtain ⟨rest, text⟩ := front
  rw [text, scan_append, opens, Option.bind_some, scan_append, scan_esc time, Option.bind_none]

end AuditEvent

/-! ## The array -/

/-- One line, its indentation and what stands behind it. -/
theorem spells_line {event : AuditEvent} (codes : event.CodesVisible)
    (time : Visible event.timestamp) {before after : List Char} (left : Blank before)
    (right : Blank after) :
    Spells (.element event.json) (before ++ (event.render.toList ++ after)) :=
  .element left right (AuditEvent.render_spells codes time)

/-- The lines behind the line break that follows a bracket or a comma. -/
theorem auditLines_spells {events : List AuditEvent} (some : events ≠ [])
    (codes : ∀ event ∈ events, event.CodesVisible)
    (times : ∀ event ∈ events, Visible event.timestamp) :
    Spells (.items (events.map AuditEvent.json))
      ('\n' :: commaLines (events.map auditLine)) := by
  have left : Blank ['\n', ' ', ' '] := blank_letters (by decide)
  have right : Blank ['\n'] := blank_letters (by decide)
  have none : Blank [] := blank_letters (by decide)
  induction events with
  | nil => exact absurd rfl some
  | cons event events ih =>
      obtain ⟨code, codes⟩ := List.forall_mem_cons.mp codes
      obtain ⟨time, times⟩ := List.forall_mem_cons.mp times
      cases events with
      | nil => exact .lastItem (spells_line code time left right)
      | cons next rest =>
          have first := spells_line code time left none
          rw [List.append_nil] at first
          exact .moreItems first (ih (List.cons_ne_nil _ _) codes times)

/-- The file is the array of the events, also when there are none. -/
theorem auditFile_spells {events : List AuditEvent}
    (codes : ∀ event ∈ events, event.CodesVisible)
    (times : ∀ event ∈ events, Visible event.timestamp) :
    Spells (.element (.array (events.map AuditEvent.json))) (auditFile events) := by
  have line : Blank ['\n'] := blank_letters (by decide)
  have none : Blank [] := blank_letters (by decide)
  cases events with
  | nil =>
      have empty : Spells (.element (.array [])) ([] ++ (('[' :: (['\n'] ++ [']'])) ++ ['\n'])) :=
        .element none line (.noItems line)
      exact empty
  | cons event rest =>
      have items := auditLines_spells (List.cons_ne_nil event rest) codes times
      have file := Spells.element none line (.array items)
      simpa [auditFile] using file

/-- A line is scanned to its end, or stops at a hidden character in its timestamp. -/
theorem auditLine_scan {event : AuditEvent} (codes : event.CodesVisible) :
    scan .outside (auditLine event) = if Visible event.timestamp then some .outside else none := by
  rw [auditLine, scan_cons_outside (by decide), scan_cons_outside (by decide)]
  split_ifs with time
  · exact (AuditEvent.render_spells codes time).scan_eq
  · exact AuditEvent.render_stops time

/-- Every timestamp comes back from its quoted form, and the file is an array. -/
structure AuditIsJson (events : List AuditEvent) : Prop where
  timestamps : ∀ event ∈ events, ∀ text,
    Denotes (esc event.timestamp).toList text ↔ text = event.timestamp.toList
  file : ∃ vs, Spells (.element (.array vs)) (auditFile events)

section File

variable {events : List AuditEvent} (codes : ∀ event ∈ events, event.CodesVisible)

include codes

/-- A file with a hidden character in a timestamp is no JSON of any kind. -/
theorem visible_of_spells {v : Json.Value} (spells : Spells (.element v) (auditFile events)) :
    ∀ event ∈ events, Visible event.timestamp := by
  intro event member
  by_contra hidden
  have scanned := spells.scan_eq
  rw [auditFile, scan_cons_outside (by decide), scan_cons_outside (by decide),
    commaLines_stop] at scanned
  · cases scanned
  · rw [List.forall_mem_map]
    intro event member
    rw [auditLine_scan (codes event member)]
    split_ifs
    · exact Or.inl rfl
    · exact Or.inr rfl
  · refine ⟨_, List.mem_map_of_mem member, ?_⟩
    rw [auditLine_scan (codes event member), if_neg hidden]

/-- The file is a value of JSON, of whatever kind, exactly when every timestamp is visible. -/
theorem auditFile_value_iff :
    (∃ v, Spells (.element v) (auditFile events)) ↔ ∀ event ∈ events, Visible event.timestamp := by
  constructor
  · rintro ⟨_, spells⟩
    exact visible_of_spells codes spells
  · intro times
    exact ⟨_, auditFile_spells codes times⟩

theorem auditIsJson_iff : AuditIsJson events ↔ ∀ event ∈ events, Visible event.timestamp := by
  constructor
  · intro json event member
    exact (denotes_esc_iff event.timestamp).mp (json.timestamps event member)
  · intro times
    refine ⟨?_, _, auditFile_spells codes times⟩
    intro event member
    exact (denotes_esc_iff event.timestamp).mpr (times event member)

end File

/-! ## The log of a run -/

/-- The joined reasons have no control characters. -/
theorem reasonJoin_visible (reasons : List RejectReason) : Visible (reasonJoin reasons) := by
  apply reasonJoin_letters
  · intro reason
    change Visible reason.text
    cases reason with
    | closeBelowRetestMidpoint | closeBelowVwap | closePositionLt | setupScoreLt | liquidityLt
    | volumeRatioLt | spreadGt | mpsBlock | regimeShock | mseTrendDown | riskNotPositive => decide
  · decide
  · change Visible "ACCEPTED"
    decide

theorem auditBy_rows (bars : List Bar) :
    (auditBy bars bars.length).map Prod.snd = (runBacktest bars).logs.audit := by
  obtain ⟨moves, timeline⟩ := exists_timeline bars bars.length
  rw [(runBacktest_logs bars).2.2, runLoop, timeline.audit_eq, timeline.auditBy_eq,
    List.map_filterMap]
  refine List.filterMap_congr fun m _ => ?_
  cases m.2.audit? (barAt bars m.1) with
  | none => rfl
  | some event => rfl

/-- An event has the timestamp of its bar, and reasons the program made. -/
theorem auditBy_event {bars : List Bar} {entry : ℕ × AuditEvent}
    (member : entry ∈ auditBy bars bars.length) :
    entry.2.timestamp = (barAt bars entry.1).timestamp ∧ entry.2.CodesVisible := by
  obtain ⟨moves, timeline⟩ := exists_timeline bars bars.length
  rw [timeline.auditBy_eq] at member
  obtain ⟨m, inMoves, shown⟩ := List.mem_filterMap.mp member
  obtain ⟨event, logged, rfl⟩ := Option.map_eq_some_iff.mp shown
  obtain ⟨s, t, step⟩ := timeline.run.step_of_mem inMoves
  cases step with
  | score => cases logged
  | exit | breakout | expire | accept =>
      cases logged
      exact ⟨rfl, trivial⟩
  | reject =>
      cases logged
      exact ⟨rfl, reasonJoin_visible _⟩

theorem audit_codesVisible (bars : List Bar) :
    ∀ event ∈ (runBacktest bars).logs.audit, event.CodesVisible := by
  rw [← auditBy_rows, List.forall_mem_map]
  exact fun entry member => (auditBy_event member).2

theorem audit_visible_iff (bars : List Bar) :
    (∀ event ∈ (runBacktest bars).logs.audit, Visible event.timestamp) ↔
      ∀ entry ∈ auditBy bars bars.length, Visible (barAt bars entry.1).timestamp := by
  rw [← auditBy_rows, List.forall_mem_map]
  refine forall₂_congr fun entry member => ?_
  rw [(auditBy_event member).1]

/-- The audit log of a run is JSON exactly when no bar with an event has a control character
in its timestamp; without events it always is.  Otherwise it is no JSON value at all. -/
theorem auditLog_json_iff (bars : List Bar) :
    (AuditIsJson (runBacktest bars).logs.audit ↔
      ∀ entry ∈ auditBy bars bars.length, Visible (barAt bars entry.1).timestamp) ∧
    ((∃ v, Spells (.element v) (auditFile (runBacktest bars).logs.audit)) ↔
      ∀ entry ∈ auditBy bars bars.length, Visible (barAt bars entry.1).timestamp) := by
  have codes := audit_codesVisible bars
  rw [auditIsJson_iff codes, auditFile_value_iff codes]
  exact ⟨audit_visible_iff bars, audit_visible_iff bars⟩

/-! ## A tab in a timestamp -/

/-- Twenty quiet bars and a breakout. -/
def tabFile : List Char :=
  endedBy ['\n'] ("timestamp,high,low,close".toList ::
    (List.replicate 20 "09:00,100,99,99".toList ++ ["09:20\tEST,102,100,101".toList]))

def tabBars : List Bar :=
  List.replicate 20 { timestamp := "09:00", high := 100, low := 99, close := 99 } ++
    [{ timestamp := "09:20\tEST", high := 102, low := 100, close := 101 }]

theorem tabFile_notJson :
    readCsv leadingDigits "market.csv" (some tabFile) = .ok tabBars ∧
      ¬ AuditIsJson (runBacktest tabBars).logs.audit ∧
      ∀ v, ¬ Spells (.element v) (auditFile (runBacktest tabBars).logs.audit) := by
  have codes := audit_codesVisible tabBars
  have hidden : ¬ ∀ event ∈ (runBacktest tabBars).logs.audit, Visible event.timestamp := by
    decide +kernel
  refine ⟨by decide +kernel, ?_, fun v spells => hidden (visible_of_spells codes spells)⟩
  rw [auditIsJson_iff codes]
  exact hidden

end PrismPipeline.Backtest
