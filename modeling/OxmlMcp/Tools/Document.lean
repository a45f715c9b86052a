import OxmlMcp.Text.Utf8

/-!
# Documents

The library `oxml` parses documents and evaluates XPath expressions. It is not under `src/`: `Oxml`
carries what the tools call of it as parameters, and `Document` what they read of a document.

* `parseDoc`: `parse_doc` in `src/lib.rs`, which every tool begins with.
-/

namespace OxmlMcp.Tools

/-- `oxml::NodeId`. -/
abbrev NodeId := Nat

/-- The name of an element. -/
structure QName where
  localName : String
  namespaceUri : Option String
  deriving DecidableEq

/-- `oxml::NodeKind`, with what is read of each kind. -/
inductive NodeKind where
  | root
  | element (name : QName)
  | text (text : String)
  | attr (value : String)
  | namespaceNode (uri : String)
  | comment (content : String)
  | processingInstruction (data : String)
  deriving DecidableEq

/-- `oxml::Document`. Each node lies one level or more below its parent, so that the parents of a
node come to an end. -/
structure Document where
  kind : NodeId → Option NodeKind
  descendants : List NodeId
  descendantsOf : NodeId → List NodeId
  parent : NodeId → Option NodeId
  rootElement : Option NodeId
  level : NodeId → Nat
  parent_level : ∀ {id p}, parent id = some p → level p < level id

/-- `Document::element_name`. -/
def Document.elementName (doc : Document) (id : NodeId) : Option QName :=
  match doc.kind id with
  | some (.element name) => some name
  | _ => none

/-- `oxml::ParseError`: its display, and `line_column`. -/
structure ParseError where
  message : String
  lineColumn : String → Nat × Nat

/-- `oxml::XPathError`. -/
structure XPathError where
  message : String
  offset : Nat

/-- `oxml::xpath::EvalLimits`. -/
structure EvalLimits where
  maxStringBytes : Nat

/-- `oxml::xpath::Value`: a node-set has `nodes`, and a value of another kind has not. -/
structure Value where
  nodes : Option (List NodeId)
  toStr : Document → String

/-- What is called of `oxml`. The error of `evaluateWith` is its display. -/
structure Oxml where
  Limits : Type
  XPath : Type
  /-- `Limits::strict()`. -/
  strict : Limits
  /-- `EvalLimits::default()`. -/
  evalLimits : EvalLimits
  parseWith : String → Limits → Except ParseError Document
  compileWithNamespacesAndLimits :
    String → List (String × String) → Limits → Except XPathError XPath
  evaluateWith : XPath → Document → EvalLimits → Except String Value

/-- `parse_doc`. -/
def parseDoc (oxml : Oxml) (xml : String) : Except String Document :=
  (oxml.parseWith xml oxml.strict).mapError fun e =>
    let (line, col) := e.lineColumn xml
    s!"The document is not well-formed at line {line}, column {col}: {e.message}"

/-- A document in which every node but the first is a child of the one before it. -/
def Document.chain (kinds : List NodeKind) : Document where
  kind id := kinds[id]?
  descendants := List.range kinds.length
  descendantsOf id := (List.range kinds.length).drop (id + 1)
  parent
    | 0 => none
    | id + 1 => some id
  rootElement := if 1 < kinds.length then some 1 else none
  level id := id
  parent_level {id p} h := by
    cases id with
    | zero => cases h
    | succ id => cases h; exact Nat.lt_succ_self _

lemma elementName_chain {kinds : List NodeKind} {id : NodeId} {name : QName}
    (h : (Document.chain kinds).elementName id = some name) : .element name ∈ kinds := by
  rw [Document.elementName] at h
  split at h
  · next kind =>
    cases h
    exact List.mem_of_getElem? kind
  · cases h

/-- A library that knows the documents and the expressions it is given. -/
def Oxml.sample (documents : List (String × Document)) (values : List (String × Value)) : Oxml where
  Limits := Unit
  XPath := Value
  strict := ()
  evalLimits := { maxStringBytes := 1048576 }
  parseWith xml _ :=
    match documents.lookup xml with
    | some doc => .ok doc
    | none => .error { message := "unexpected end of document", lineColumn := fun _ => (1, 1) }
  compileWithNamespacesAndLimits xpath _ _ :=
    match values.lookup xpath with
    | some value => .ok value
    | none => .error { message := "expected an expression", offset := 0 }
  evaluateWith value _ _ := .ok value

lemma sample_parsed {documents : List (String × Document)} {values : List (String × Value)}
    {xml doc limits} (h : (Oxml.sample documents values).parseWith xml limits = .ok doc) :
    (xml, doc) ∈ documents := by
  simp only [Oxml.sample] at h
  split at h
  · next found =>
    cases h
    obtain ⟨before, after, rfl, _⟩ := List.lookup_eq_some_iff.1 found
    simp
  · cases h

end OxmlMcp.Tools
