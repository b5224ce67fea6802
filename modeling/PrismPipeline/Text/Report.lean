import PrismPipeline.Text.Json

/-!
# Reports

A report is a JSON object written with one member a line.  A value that stops a scan stops
that of the whole report, which then is no JSON value of any kind.
-/

namespace PrismPipeline.Text

open Json

/-- The line of a member without its end. -/
def reportLine (field : String × List Char) : List Char :=
  ' ' :: ' ' :: '"' :: (field.1.toList ++ '"' :: ':' :: ' ' :: field.2)

def reportText (fields : List (String × List Char)) : List Char :=
  '\x7b' :: '\n' :: (commaLines (fields.map reportLine) ++ ['\x7d', '\n'])

/-- A key that stands for itself, and a text of its value. -/
structure ReportField (field : String × List Char) (member : List Char × Json.Value) : Prop where
  key : Denotes field.1.toList member.1
  value : Spells (.value member.2) field.2

section Spelling

variable {field : String × List Char} {member : List Char × Json.Value} {after : List Char}

/-- A line behind a line break, and what is left of the line. -/
theorem reportLine_spells (sound : ReportField field member) (blank : Blank after) :
    Spells (.member member.1 member.2) ('\n' :: (reportLine field ++ after)) := by
  have none : Blank [] := blank_letters (by decide)
  have space : Blank [' '] := blank_letters (by decide)
  have front : Blank ['\n', ' ', ' '] := blank_letters (by decide)
  have line := Spells.member front none sound.key (.element space blank sound.value)
  simpa [reportLine] using line

theorem reportLines_spells {fields : List (String × List Char)}
    {members : List (List Char × Json.Value)} (filled : fields ≠ [])
    (sound : List.Forall₂ ReportField fields members) :
    Spells (.members members) ('\n' :: commaLines (fields.map reportLine)) := by
  have none : Blank [] := blank_letters (by decide)
  have line : Blank ['\n'] := blank_letters (by decide)
  induction sound with
  | nil => exact absurd rfl filled
  | @cons field member fields members first later ih =>
      cases later with
      | nil => exact .lastMember (reportLine_spells first line)
      | @cons next other rest others second remaining =>
          have front := reportLine_spells first none
          have joined := Spells.moreMembers front (ih (List.cons_ne_nil _ _))
          simpa [commaLines] using joined

/-- A report is the object of its members. -/
theorem reportText_spells {fields : List (String × List Char)}
    {members : List (List Char × Json.Value)} (filled : fields ≠ [])
    (sound : List.Forall₂ ReportField fields members) :
    Spells (.element (.object members)) (reportText fields) := by
  have none : Blank [] := blank_letters (by decide)
  have line : Blank ['\n'] := blank_letters (by decide)
  have file := Spells.element none line (.object (reportLines_spells filled sound))
  simpa [reportText] using file

end Spelling

section Stopping

variable {fields : List (String × List Char)}

/-- A line is scanned like its value. -/
theorem reportLine_scan {field : String × List Char} {key : List Char}
    (denotes : Denotes field.1.toList key) :
    scan .outside (reportLine field) = scan .outside field.2 := by
  have quoted := scan_quoted denotes.scan_eq
  have line : reportLine field =
      ' ' :: ' ' :: (('"' :: (field.1.toList ++ ['"'])) ++ (':' :: ' ' :: field.2)) := by
    simp [reportLine]
  rw [line, scan_cons_outside (by decide), scan_cons_outside (by decide), scan_append, quoted,
    Option.bind_some, scan_cons_outside (by decide), scan_cons_outside (by decide)]

/-- A report with a value that cannot be scanned is no JSON at all. -/
theorem reportText_rejected (keys : ∀ field ∈ fields, ∃ key, Denotes field.1.toList key)
    (values : ∀ field ∈ fields, scan .outside field.2 = some .outside ∨
      scan .outside field.2 = none)
    (stopped : ∃ field ∈ fields, scan .outside field.2 = none) (v : Json.Value) :
    ¬ Spells (.element v) (reportText fields) := by
  intro spells
  have lines : ∀ field ∈ fields, scan .outside (reportLine field) = scan .outside field.2 := by
    intro field member
    obtain ⟨key, denotes⟩ := keys field member
    exact reportLine_scan denotes
  have scanned := spells.scan_eq
  rw [reportText, scan_cons_outside (by decide), scan_cons_outside (by decide),
    commaLines_stop] at scanned
  · cases scanned
  · rw [List.forall_mem_map]
    intro field member
    rw [lines field member]
    exact values field member
  · obtain ⟨field, member, stops⟩ := stopped
    exact ⟨_, List.mem_map_of_mem member, (lines field member).trans stops⟩

end Stopping

end PrismPipeline.Text
