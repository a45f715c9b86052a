import OxmlMcp.Tools.InspectText

/-!
# The check and format tools

`check` and `format_xml` of `src/lib.rs`, and the texts of their answers (`Display for CheckOutput`,
`Display for FormatOutput`). What they call of a document besides what the other tools read is a
parameter, `Serialise`.

* `check_ok_iff_parsed`: a document that parses is reported with the number of its nodes.
* `checkText_inj`, `formatText_inj`: the texts say the whole answers.
-/

namespace OxmlMcp.Tools
open OxmlMcp.Lines

/-- `oxml::Indent`. -/
inductive Indent where
  | spaces (n : Fin 256)
  deriving DecidableEq

/-- `oxml::EmptyElement`. -/
inductive EmptyElement where
  | selfClosing
  | selfClosingSpaced
  | expanded
  deriving DecidableEq

/-- `oxml::Newline`, of which one is used. -/
inductive Newline where
  | lf
  deriving DecidableEq

/-- `oxml::SerialiseOptions`. -/
structure SerialiseOptions where
  indent : Option Indent
  emptyElements : EmptyElement
  newline : Newline
  deriving DecidableEq

/-- What is called of a document to measure it and to write it. -/
structure Serialise where
  /-- `Document::len`. -/
  len : Document → Nat
  /-- `Document::to_xml_with`. -/
  toXmlWith : Document → SerialiseOptions → String

/-- `CheckOutput`. -/
structure CheckOutput where
  wellFormed : Bool
  nodes : Nat
  deriving DecidableEq

/-- `Display for CheckOutput`. -/
def CheckOutput.display (r : CheckOutput) : String :=
  s!"The document is well-formed ({r.nodes} nodes)."

/-- `check`. -/
def check (oxml : Oxml) (serialise : Serialise) (xml : String) : Except String CheckOutput := do
  let doc ← parseDoc oxml xml
  .ok { wellFormed := true, nodes := serialise.len doc }

/-- `FormatOutput`. -/
@[ext]
structure FormatOutput where
  originalSize : Nat
  formattedSize : Nat
  xml : String
  deriving DecidableEq

/-- `Display for FormatOutput`. -/
def FormatOutput.display (r : FormatOutput) : String :=
  s!"Formatted document ({r.originalSize} bytes -> {r.formattedSize} bytes):\n{r.xml}"

/-- The options that a request to format selects. -/
def formatOptions (indent : Option (Fin 256)) (emptyElements : Option String) :
    SerialiseOptions where
  indent := indent.bind fun n => if 0 < n then some (.spaces n) else none
  emptyElements :=
    match emptyElements with
    | some "expanded" => .expanded
    | some "spaced" | some "self-closing-spaced" => .selfClosingSpaced
    | _ => .selfClosing
  newline := .lf

/-- `format_xml`. -/
def formatXml (oxml : Oxml) (serialise : Serialise) (xml : String) (indent : Option (Fin 256))
    (emptyElements : Option String) : Except String FormatOutput := do
  let doc ← parseDoc oxml xml
  let formatted := serialise.toXmlWith doc (formatOptions indent emptyElements)
  .ok {
    originalSize := xml.utf8ByteSize
    formattedSize := formatted.utf8ByteSize
    xml := formatted }

variable {oxml : Oxml} {serialise : Serialise} {xml : String}

theorem check_ok_iff_parsed {r : CheckOutput} :
    check oxml serialise xml = .ok r ↔
      ∃ doc, oxml.parseWith xml oxml.strict = .ok doc ∧ r = ⟨true, serialise.len doc⟩ := by
  simp only [check, parseDoc, bind_ok_iff, mapError_ok_iff]
  constructor
  · rintro ⟨doc, parsed, h⟩
    exact ⟨doc, parsed, (Except.ok.inj h).symm⟩
  · rintro ⟨doc, parsed, rfl⟩
    exact ⟨doc, parsed, rfl⟩

/-- The text says the number of nodes. -/
theorem checkText_inj {r r' : CheckOutput} (h : r.display = r'.display) : r.nodes = r'.nodes := by
  have text : ∀ r : CheckOutput, r.display.toList =
      "The document is well-formed (".toList ++ (Nat.toDigits 10 r.nodes ++ ' ' ::
        "nodes).".toList) := by
    intro r
    show ("The document is well-formed (" ++ Nat.repr r.nodes ++ " nodes).").toList = _
    simp
  have h := congrArg String.toList h
  rw [text, text] at h
  obtain ⟨digits, -⟩ := append_cons_inj_of_free (digits_free rfl _) (digits_free rfl _)
    (List.append_cancel_left h)
  exact toDigits_inj digits

/-- The text says the sizes and holds the document. -/
theorem formatText_inj {r r' : FormatOutput} (h : r.display = r'.display) : r = r' := by
  have text : ∀ r : FormatOutput, r.display.toList =
      "Formatted document (".toList ++ (Nat.toDigits 10 r.originalSize ++ ' ' ::
        ("bytes -> ".toList ++ (Nat.toDigits 10 r.formattedSize ++ ' ' ::
          ("bytes):\n".toList ++ r.xml.toList)))) := by
    intro r
    show ("Formatted document (" ++ Nat.repr r.originalSize ++ " bytes -> " ++
      Nat.repr r.formattedSize ++ " bytes):\n" ++ r.xml).toList = _
    simp
  have h := congrArg String.toList h
  rw [text, text] at h
  obtain ⟨original, rest⟩ := append_cons_inj_of_free (digits_free rfl _) (digits_free rfl _)
    (List.append_cancel_left h)
  obtain ⟨formatted, rest⟩ := append_cons_inj_of_free (digits_free rfl _) (digits_free rfl _)
    (List.append_cancel_left rest)
  have written := String.toList_inj.1 (List.append_cancel_left rest)
  exact FormatOutput.ext (toDigits_inj original) (toDigits_inj formatted) written

end OxmlMcp.Tools
