import OxmlMcp.Tools.InspectText

/-!
# The validate tool

`validate` of `src/lib.rs`, and the text of its answer (`Display for ValidateOutput`). The library
`xmlschema`, which reads schemas and validates documents, is a parameter.

* `validate_ok_iff`: an answer is the report on a document and a schema that could both be read.
* `validate_text_inj`: the text says the whole answer, when its lines are what they seem.
-/

namespace OxmlMcp.Tools
open OxmlMcp.Lines

/-- `Violation`. -/
structure Violation where
  path : String
  message : String
  deriving DecidableEq

/-- `xmlschema::Report`, with what is read of it. -/
structure Report where
  isValid : Bool
  violations : List Violation

/-- What is called of `xmlschema`. The error of `parseSchema` is its display. -/
structure Xmlschema where
  Schema : Type
  parseSchema : String → Except String Schema
  validate : Document → Schema → Report

/-- `ValidateOutput`. -/
structure ValidateOutput where
  valid : Bool
  violations : List Violation
  deriving DecidableEq

/-- The line of a violation. -/
def Violation.line (v : Violation) : String :=
  s!"  {v.path} — {v.message}\n"

/-- `Display for ValidateOutput`. -/
def ValidateOutput.display (r : ValidateOutput) : String :=
  if r.valid then "The document is valid against the schema."
  else s!"{r.violations.length} violation(s):\n" ++ String.join (r.violations.map Violation.line)

/-- `validate`. -/
def validate (oxml : Oxml) (xmlschema : Xmlschema) (xml xsd : String) :
    Except String ValidateOutput := do
  if xsd.utf8ByteSize > 8 * 1024 * 1024 then
    throw "The schema exceeds the 8 MiB input limit"
  let schema ← (xmlschema.parseSchema xsd).mapError fun e => s!"The schema could not be read: {e}"
  let doc ← parseDoc oxml xml
  let report := xmlschema.validate doc schema
  .ok { valid := report.isValid, violations := report.violations }

variable {oxml : Oxml} {xmlschema : Xmlschema} {xml xsd : String} {r r' : ValidateOutput}

/-- An answer is the report on a document and a schema that could both be read. -/
theorem validate_ok_iff :
    validate oxml xmlschema xml xsd = .ok r ↔
      xsd.utf8ByteSize ≤ 8 * 1024 * 1024 ∧
      ∃ schema doc, xmlschema.parseSchema xsd = .ok schema ∧
        oxml.parseWith xml oxml.strict = .ok doc ∧
        r = ⟨(xmlschema.validate doc schema).isValid, (xmlschema.validate doc schema).violations⟩ := by
  unfold validate
  split
  · refine ⟨nofun, fun ⟨le, _⟩ => ?_⟩
    omega
  · simp only [parseDoc, bind_ok_iff, mapError_ok_iff]
    constructor
    · rintro ⟨schema, read, doc, parsed, h⟩
      exact ⟨by omega, schema, doc, read, parsed, (Except.ok.inj h).symm⟩
    · rintro ⟨-, schema, doc, read, parsed, rfl⟩
      exact ⟨schema, read, doc, parsed, rfl⟩

/-- A violation whose line is what it seems: its path has no blank and no newline, and its message no
newline. -/
structure Violation.Plain (v : Violation) : Prop where
  path : ' ' ∉ v.path.toList
  message : '\n' ∉ v.message.toList

lemma toList_line (v : Violation) :
    v.line.toList = ' ' :: ' ' :: (v.path.toList ++ ' ' :: '—' :: ' ' ::
      (v.message.toList ++ ['\n'])) := by
  show ("  " ++ v.path ++ " — " ++ v.message ++ "\n").toList = _
  simp

/-- The lines of plain violations can be told apart. -/
lemma lines_inj {vs ws : List Violation} (hv : ∀ v ∈ vs, v.Plain) (hw : ∀ w ∈ ws, w.Plain)
    (h : (String.join (vs.map Violation.line)).toList = (String.join (ws.map Violation.line)).toList) :
    vs = ws := by
  induction vs generalizing ws with
  | nil =>
    cases ws with
    | nil => rfl
    | cons w ws => simp [String.join_cons, toList_line] at h
  | cons v vs ih =>
    cases ws with
    | nil => simp [String.join_cons, toList_line] at h
    | cons w ws =>
      obtain ⟨pv, mv⟩ := hv v List.mem_cons_self
      obtain ⟨pw, mw⟩ := hw w List.mem_cons_self
      simp only [List.map_cons, String.join_cons, String.toList_append, toList_line,
        List.cons_append, List.append_assoc, List.nil_append] at h
      have body := (List.cons.inj (List.cons.inj h).2).2
      obtain ⟨path, rest⟩ := append_cons_inj_of_free pv pw body
      obtain ⟨message, rest⟩ :=
        append_cons_inj_of_free mv mw (List.cons.inj (List.cons.inj rest).2).2
      have first : v = w := by
        cases v
        cases w
        simp_all [String.toList_inj]
      rw [first, ih (fun v mem => hv v (.tail _ mem)) (fun w mem => hw w (.tail _ mem)) rest]

/-- An answer whose text is what it seems: it is valid exactly if it has no violations, and these are
plain. -/
structure ValidateOutput.Plain (r : ValidateOutput) : Prop where
  valid : r.valid = r.violations.isEmpty
  violations : ∀ v ∈ r.violations, v.Plain

lemma toList_invalid (n : Nat) (vs : List Violation) :
    (s!"{n} violation(s):\n" ++ String.join (vs.map Violation.line)).toList =
      Nat.toDigits 10 n ++ ' ' :: ("violation(s):\n".toList ++
        (String.join (vs.map Violation.line)).toList) := by
  show (Nat.repr n ++ " violation(s):\n" ++ String.join (vs.map Violation.line)).toList = _
  simp

/-- No number of violations begins like the text of a valid document. -/
lemma valid_ne_invalid (n : Nat) (rest : List Char) :
    "The document is valid against the schema.".toList ≠ Nat.toDigits 10 n ++ ' ' :: rest := by
  intro h
  obtain ⟨digits, -⟩ := append_cons_inj_of_free (a := ' ') (u := "The".toList)
    (x := "document is valid against the schema.".toList) (by decide) (digits_free rfl n) h
  have digit := Nat.isDigit_of_mem_toDigits (c := 'T') (b := 10) (n := n) (by decide) (by decide)
    (by rw [← digits]; decide)
  exact absurd digit (by decide)

/-- Two plain answers with the same text are the same. -/
theorem validate_text_inj (pr : r.Plain) (pr' : r'.Plain) (h : r.display = r'.display) : r = r' := by
  have h := congrArg String.toList h
  obtain ⟨valid, violations⟩ := r
  obtain ⟨valid', violations'⟩ := r'
  obtain rfl : valid = violations.isEmpty := pr.valid
  obtain rfl : valid' = violations'.isEmpty := pr'.valid
  cases violations with
  | nil =>
    cases violations' with
    | nil => rfl
    | cons w ws => exact absurd (h.trans (toList_invalid _ _)) (valid_ne_invalid _ _)
  | cons v vs =>
    cases violations' with
    | nil => exact absurd (h.symm.trans (toList_invalid _ _)) (valid_ne_invalid _ _)
    | cons w ws =>
      have texts := (toList_invalid _ _).symm.trans (h.trans (toList_invalid _ _))
      obtain ⟨-, rest⟩ := append_cons_inj_of_free (digits_free rfl _) (digits_free rfl _) texts
      have same : v :: vs = w :: ws :=
        lines_inj pr.violations pr'.violations (List.append_cancel_left rest)
      rw [same]

end OxmlMcp.Tools
