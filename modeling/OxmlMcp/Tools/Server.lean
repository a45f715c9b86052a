import OxmlMcp.Json.Value
import OxmlMcp.Tools.Format
import OxmlMcp.Tools.Inspect
import OxmlMcp.Tools.Validate

/-!
# The tools as a server offers them

`reply`, the argument structures, the five tools of `XmlServer` and `call_tool` in `src/lib.rs`. A
tool is called by its name with an object of arguments; its answer is returned twice, as text and as a
structured value. What the SDK's router answers to arguments that cannot be read is not under `src/`:
`Router` carries it as a parameter, and `Router.Documented` what is documented of it.

* `Replied`: what every result of a tool is like.
* `parse_isSome`: the arguments of a tool can be read exactly when they have its fields.
* `toValue_inj`: the structured half of an answer determines the answer.
* `call_tool`: what comes of a call, whatever its name and arguments.
-/

namespace OxmlMcp.Tools
open OxmlMcp.Json

/-- `Serialize`: `serde_json::to_value`. -/
class Serialize (T : Type) where
  toValue : T → Except String Json.Value

/-- `Display`. -/
class Display (T : Type) where
  display : T → String

open Serialize Display

/-- The object of a map of counts. -/
def countsValue (m : Maps.Counts String) : Json.Value :=
  .object (m.entries.map fun e => (e.1, .int e.2))

/-- The structured half of a query, -/
instance : Serialize QueryOutput where
  toValue r := .ok (.object [("count", .int r.count), ("values", .array (r.values.map .string))])

/-- and its text. -/
instance : Display QueryOutput := ⟨QueryOutput.display⟩

/-- A violation as a value. -/
def Violation.toValue (v : Violation) : Json.Value :=
  .object [("message", .string v.message), ("path", .string v.path)]

/-- The structured half of a validation, -/
instance : Serialize ValidateOutput where
  toValue r := .ok (.object
    [("valid", .bool r.valid), ("violations", .array (r.violations.map Violation.toValue))])

/-- and its text. -/
instance : Display ValidateOutput := ⟨ValidateOutput.display⟩

/-- The structured half of a check, -/
instance : Serialize CheckOutput where
  toValue r := .ok (.object [("nodes", .int r.nodes), ("well_formed", .bool r.wellFormed)])

/-- and its text. -/
instance : Display CheckOutput := ⟨CheckOutput.display⟩

/-- The structured half of a summary, -/
instance : Serialize InspectOutput where
  toValue r := .ok (.object [("elements", countsValue r.elements), ("max_depth", .int r.maxDepth),
    ("namespaces", countsValue r.namespaces), ("root", .string r.root)])

/-- and its text. -/
instance : Display InspectOutput := ⟨InspectOutput.display⟩

/-- The structured half of a formatted document, -/
instance : Serialize FormatOutput where
  toValue r := .ok (.object [("formatted_size", .int r.formattedSize),
    ("original_size", .int r.originalSize), ("xml", .string r.xml)])

/-- and its text. -/
instance : Display FormatOutput := ⟨FormatOutput.display⟩

/-- `CallToolResult`: the texts of its content, its structured half and `isError`. -/
structure CallToolResult where
  content : List String
  structuredContent : Option Json.Value
  isError : Bool

/-- `ErrorData`: an error of the protocol. -/
structure ErrorData where
  code : Int
  message : String
deriving DecidableEq

/-- `ErrorData::internal_error`. -/
def ErrorData.internalError (message : String) : ErrorData :=
  ⟨-32603, message⟩

/-- `reply`. -/
def reply {T : Type} [Serialize T] [Display T] (outcome : Except String T) (isError : T → Bool) :
    Except ErrorData CallToolResult :=
  match outcome with
  | .ok value => do
    let structured ← (toValue value).mapError ErrorData.internalError
    .ok {
      content := [display value]
      structuredContent := some structured
      isError := isError value }
  -- a tool that could not do the job: a result that the model sees
  | .error message => .ok { content := [message], structuredContent := none, isError := true }

/-- `QueryArgs`. -/
structure QueryArgs where
  xml : String
  xpath : String
  namespaces : List (String × String)

/-- `ValidateArgs`. -/
structure ValidateArgs where
  xml : String
  xsd : String

/-- `DocumentArgs`. -/
structure DocumentArgs where
  xml : String

/-- `FormatArgs`. -/
structure FormatArgs where
  xml : String
  indent : Option (Fin 256)
  emptyElements : Option String

/-- `Deserialize for QueryArgs`. -/
def QueryArgs.parse (o : Json.Object) : Option QueryArgs := do
  let xml ← required Json.Value.asString "xml" o
  let xpath ← required Json.Value.asString "xpath" o
  let namespaces ← optional Json.Value.asStringMap [] "namespaces" o
  some { xml, xpath, namespaces }

/-- `Deserialize for ValidateArgs`. -/
def ValidateArgs.parse (o : Json.Object) : Option ValidateArgs := do
  let xml ← required Json.Value.asString "xml" o
  let xsd ← required Json.Value.asString "xsd" o
  some { xml, xsd }

/-- `Deserialize for DocumentArgs`. -/
def DocumentArgs.parse (o : Json.Object) : Option DocumentArgs := do
  let xml ← required Json.Value.asString "xml" o
  some { xml }

/-- `Deserialize for FormatArgs`. -/
def FormatArgs.parse (o : Json.Object) : Option FormatArgs := do
  let xml ← required Json.Value.asString "xml" o
  let indent ← optional (Json.Value.asOption Json.Value.asU8) none "indent" o
  let emptyElements ← optional (Json.Value.asOption Json.Value.asString) none "empty_elements" o
  some { xml, indent, emptyElements }

/-- The libraries that the tools call. -/
structure Libraries where
  oxml : Oxml
  serialise : Serialise
  xmlschema : Xmlschema

variable (lib : Libraries)

/-- `XmlServer::xml_query`. -/
def xmlQuery (args : QueryArgs) : Except ErrorData CallToolResult :=
  reply (query lib.oxml args.xml args.xpath args.namespaces) fun _ => false

/-- `XmlServer::xml_validate`: a violation is an error that the model must see. -/
def xmlValidate (args : ValidateArgs) : Except ErrorData CallToolResult :=
  reply (validate lib.oxml lib.xmlschema args.xml args.xsd) fun r => !r.valid

/-- `XmlServer::xml_check`. -/
def xmlCheck (args : DocumentArgs) : Except ErrorData CallToolResult :=
  reply (check lib.oxml lib.serialise args.xml) fun _ => false

/-- `XmlServer::xml_inspect`. -/
def xmlInspect (args : DocumentArgs) : Except ErrorData CallToolResult :=
  reply (inspect lib.oxml args.xml) fun _ => false

/-- `XmlServer::xml_format`. -/
def xmlFormat (args : FormatArgs) : Except ErrorData CallToolResult :=
  reply (formatXml lib.oxml lib.serialise args.xml args.indent args.emptyElements) fun _ => false

/-- The SDK's router, by what it answers to a call of a tool whose arguments cannot be read. -/
structure Router where
  malformed : String → Json.Object → Except ErrorData CallToolResult

/-- No answer of the router itself has a structured half. -/
def Router.Plain (router : Router) : Prop :=
  ∀ name o r, router.malformed name o = .ok r → r.structuredContent = none

/-- What is documented of the router: arguments that are missing or mistyped are answered with a
result that is flagged as an error, whose one text says what is wrong. -/
def Router.Documented (router : Router) : Prop :=
  ∀ name o, ∃ text, router.malformed name o = .ok ⟨[text], none, true⟩

/-- What is documented of the router leaves no structured half. -/
lemma Router.Documented.plain {router : Router} (docs : router.Documented) : router.Plain := by
  intro name o r h
  obtain ⟨text, e⟩ := docs name o
  cases h.symm.trans e
  rfl

variable (router : Router)

/-- A tool as the router calls it, with its arguments still to be read. -/
def route {A : Type} (name : String) (parse : Json.Object → Option A)
    (tool : A → Except ErrorData CallToolResult) (o : Json.Object) :
    Except ErrorData CallToolResult :=
  match parse o with
  | some args => tool args
  | none => router.malformed name o

/-- `XmlServer::tool_router`. -/
def toolRouter : List (String × (Json.Object → Except ErrorData CallToolResult)) :=
  [("xml_query", route router "xml_query" QueryArgs.parse (xmlQuery lib)),
    ("xml_validate", route router "xml_validate" ValidateArgs.parse (xmlValidate lib)),
    ("xml_check", route router "xml_check" DocumentArgs.parse (xmlCheck lib)),
    ("xml_inspect", route router "xml_inspect" DocumentArgs.parse (xmlInspect lib)),
    ("xml_format", route router "xml_format" FormatArgs.parse (xmlFormat lib))]

/-- The result of a call to a tool the server does not have. -/
def unknownTool (name : String) : CallToolResult where
  content := [s!"Unknown tool: {name}. The tools are xml_query, xml_validate, " ++
    "xml_check, xml_inspect and xml_format."]
  structuredContent := none
  isError := true

/-- `XmlServer::call_tool`. -/
def callTool (name : String) (arguments : Json.Object) : Except ErrorData CallToolResult :=
  match (toolRouter lib router).lookup name with
  | some tool => tool arguments
  | none => .ok (unknownTool name)

/-- The fields of the arguments of each tool. -/
def inputFields : List (String × List Field) :=
  [("xml_query",
      [⟨"xml", .string, true⟩, ⟨"xpath", .string, true⟩, ⟨"namespaces", .stringMap, false⟩]),
    ("xml_validate", [⟨"xml", .string, true⟩, ⟨"xsd", .string, true⟩]),
    ("xml_check", [⟨"xml", .string, true⟩]),
    ("xml_inspect", [⟨"xml", .string, true⟩]),
    ("xml_format",
      [⟨"xml", .string, true⟩, ⟨"indent", .optionU8, false⟩,
        ⟨"empty_elements", .optionString, false⟩])]

/-- An answer can be turned into a value, and read back from it. -/
class Faithful (T : Type) [Serialize T] : Prop where
  total : ∀ r : T, ∃ v, toValue r = .ok v
  inj : ∀ {r r' : T}, toValue r = toValue r' → r = r'

/-- Values that are objects are the same when their members are, -/
lemma object_inj {o o' : Json.Object}
    (h : (Except.ok (.object o) : Except String Json.Value) = .ok (.object o')) : o = o' := by
  cases h
  rfl

/-- arrays of strings when the strings are, -/
lemma strings_inj {l l' : List String} (h : l.map Json.Value.string = l'.map Json.Value.string) :
    l = l' :=
  List.map_injective_iff.2 (fun _ _ e => Json.Value.string.inj e) h

/-- and objects of counts when the counts are. -/
lemma countsValue_inj {m m' : Maps.Counts String} (h : countsValue m = countsValue m') : m = m' := by
  apply Maps.Counts.ext
  refine List.map_injective_iff.2 (fun e e' same => ?_) (Json.Value.object.inj h)
  obtain ⟨key, count⟩ := Prod.mk.inj same
  exact Prod.ext key (Int.ofNat.inj (Json.Value.int.inj count))

/-- A query is read back from its structured half, -/
instance : Faithful QueryOutput where
  total _ := ⟨_, rfl⟩
  inj {r r'} h := by
    obtain ⟨count, values⟩ := r
    obtain ⟨count', values'⟩ := r'
    have o := object_inj h
    simp only [List.cons.injEq, Prod.mk.injEq, Json.Value.int.injEq, Json.Value.array.injEq,
      Int.ofNat_inj, true_and, and_true] at o
    rw [o.1, strings_inj o.2]

/-- so is a validation, -/
instance : Faithful ValidateOutput where
  total _ := ⟨_, rfl⟩
  inj {r r'} h := by
    obtain ⟨valid, violations⟩ := r
    obtain ⟨valid', violations'⟩ := r'
    have o := object_inj h
    simp only [List.cons.injEq, Prod.mk.injEq, Json.Value.bool.injEq, Json.Value.array.injEq,
      true_and, and_true] at o
    have each : Function.Injective Violation.toValue := by
      rintro ⟨path, message⟩ ⟨path', message'⟩ e
      simpa [Violation.toValue, and_comm] using e
    rw [o.1, List.map_injective_iff.2 each o.2]

/-- a check, -/
instance : Faithful CheckOutput where
  total _ := ⟨_, rfl⟩
  inj {r r'} h := by
    obtain ⟨wellFormed, nodes⟩ := r
    obtain ⟨wellFormed', nodes'⟩ := r'
    have o := object_inj h
    simp only [List.cons.injEq, Prod.mk.injEq, Json.Value.int.injEq, Json.Value.bool.injEq,
      Int.ofNat_inj, true_and, and_true] at o
    rw [o.1, o.2]

/-- a summary, -/
instance : Faithful InspectOutput where
  total _ := ⟨_, rfl⟩
  inj {r r'} h := by
    have o := object_inj h
    simp only [List.cons.injEq, Prod.mk.injEq, Json.Value.int.injEq, Json.Value.string.injEq,
      Int.ofNat_inj, true_and, and_true] at o
    obtain ⟨elements, maxDepth, namespaces, root⟩ := o
    exact InspectOutput.ext root maxDepth (countsValue_inj elements) (countsValue_inj namespaces)

/-- and a formatted document. -/
instance : Faithful FormatOutput where
  total _ := ⟨_, rfl⟩
  inj {r r'} h := by
    have o := object_inj h
    simp only [List.cons.injEq, Prod.mk.injEq, Json.Value.int.injEq, Json.Value.string.injEq,
      Int.ofNat_inj, true_and, and_true] at o
    obtain ⟨formatted, original, xml⟩ := o
    exact FormatOutput.ext original formatted xml

section
variable {T : Type} [Serialize T] [Display T] [Faithful T] {outcome outcome' : Except String T}
  {isError : T → Bool}

/-- A reply is the text of a failure, or an answer twice. -/
lemma reply_cases (outcome : Except String T) (isError : T → Bool) :
    (∃ m, outcome = .error m ∧ reply outcome isError = .ok ⟨[m], none, true⟩) ∨
    ∃ a v, outcome = .ok a ∧ toValue a = .ok v ∧
      reply outcome isError = .ok ⟨[display a], some v, isError a⟩ := by
  cases outcome with
  | error m => exact .inl ⟨m, rfl, rfl⟩
  | ok a =>
    obtain ⟨v, e⟩ := Faithful.total a
    refine .inr ⟨a, v, rfl, e, ?_⟩
    rw [reply, e]
    rfl

/-- A reply with a structured half is that of an answer. -/
lemma reply_answer {r v} (h : reply outcome isError = .ok r) (hv : r.structuredContent = some v) :
    ∃ a, outcome = .ok a ∧ toValue a = .ok v ∧ r = ⟨[display a], some v, isError a⟩ := by
  rcases reply_cases outcome isError with ⟨m, _, e⟩ | ⟨a, w, ok, val, e⟩
  · cases h.symm.trans e
    cases hv
  · cases h.symm.trans e
    cases hv
    exact ⟨a, ok, val, rfl⟩

/-- The structured half of a reply determines the reply. -/
lemma reply_inj {r r' v} (h : reply outcome isError = .ok r) (h' : reply outcome' isError = .ok r')
    (hv : r.structuredContent = some v) (hv' : r'.structuredContent = some v) : r = r' := by
  obtain ⟨a, -, val, rfl⟩ := reply_answer h hv
  obtain ⟨a', -, val', rfl⟩ := reply_answer h' hv'
  rw [Faithful.inj (val.trans val'.symm)]

end

variable {lib router}

/-- The arguments of a query can be read exactly when they have its fields, -/
lemma QueryArgs.parse_isSome {o : Json.Object} :
    (QueryArgs.parse o).isSome ↔
      Conforms [⟨"xml", .string, true⟩, ⟨"xpath", .string, true⟩, ⟨"namespaces", .stringMap, false⟩]
        o := by
  rw [Conforms, List.forall_mem_cons, List.forall_mem_cons, List.forall_mem_singleton,
    ← required_isSome asString_isSome, ← required_isSome asString_isSome,
    ← optional_isSome [] asStringMap_isSome]
  unfold QueryArgs.parse
  cases required Json.Value.asString "xml" o <;>
    cases required Json.Value.asString "xpath" o <;>
    cases optional Json.Value.asStringMap [] "namespaces" o <;> simp

/-- so can those of a validation, -/
lemma ValidateArgs.parse_isSome {o : Json.Object} :
    (ValidateArgs.parse o).isSome ↔ Conforms [⟨"xml", .string, true⟩, ⟨"xsd", .string, true⟩] o := by
  rw [Conforms, List.forall_mem_cons, List.forall_mem_singleton,
    ← required_isSome asString_isSome, ← required_isSome asString_isSome]
  unfold ValidateArgs.parse
  cases required Json.Value.asString "xml" o <;>
    cases required Json.Value.asString "xsd" o <;> simp

/-- of a check or a summary, -/
lemma DocumentArgs.parse_isSome {o : Json.Object} :
    (DocumentArgs.parse o).isSome ↔ Conforms [⟨"xml", .string, true⟩] o := by
  rw [Conforms, List.forall_mem_singleton, ← required_isSome asString_isSome]
  unfold DocumentArgs.parse
  cases required Json.Value.asString "xml" o <;> simp

/-- and of a request to format. -/
lemma FormatArgs.parse_isSome {o : Json.Object} :
    (FormatArgs.parse o).isSome ↔
      Conforms [⟨"xml", .string, true⟩, ⟨"indent", .optionU8, false⟩,
        ⟨"empty_elements", .optionString, false⟩] o := by
  rw [Conforms, List.forall_mem_cons, List.forall_mem_cons, List.forall_mem_singleton,
    ← required_isSome asString_isSome, ← optional_isSome none optionU8_isSome,
    ← optional_isSome none optionString_isSome]
  unfold FormatArgs.parse
  cases required Json.Value.asString "xml" o <;>
    cases optional (Json.Value.asOption Json.Value.asU8) none "indent" o <;>
    cases optional (Json.Value.asOption Json.Value.asString) none "empty_elements" o <;> simp

/-- What a call comes to, by the tool that is called. -/
lemma callTool_cases {P : String → Option (List Field) →
      (Json.Object → Except ErrorData CallToolResult) → Prop}
    (query : P "xml_query" (inputFields.lookup "xml_query")
      (route router "xml_query" QueryArgs.parse (xmlQuery lib)))
    (validate : P "xml_validate" (inputFields.lookup "xml_validate")
      (route router "xml_validate" ValidateArgs.parse (xmlValidate lib)))
    (check : P "xml_check" (inputFields.lookup "xml_check")
      (route router "xml_check" DocumentArgs.parse (xmlCheck lib)))
    (inspect : P "xml_inspect" (inputFields.lookup "xml_inspect")
      (route router "xml_inspect" DocumentArgs.parse (xmlInspect lib)))
    (format : P "xml_format" (inputFields.lookup "xml_format")
      (route router "xml_format" FormatArgs.parse (xmlFormat lib)))
    (unknown : ∀ name, P name none fun _ => .ok (unknownTool name)) (name : String) :
    P name (inputFields.lookup name) (callTool lib router name) := by
  by_cases known : name ∈ inputFields.map Prod.fst
  · simp only [inputFields, List.map_cons, List.map_nil, List.mem_cons, List.not_mem_nil,
      or_false] at known
    rcases known with rfl | rfl | rfl | rfl | rfl
    · exact query
    · exact validate
    · exact check
    · exact inspect
    · exact format
  · have none' : ∀ {β : Type} (l : List (String × β)), l.map Prod.fst = inputFields.map Prod.fst →
        l.lookup name = none := by
      intro β l e
      refine List.lookup_eq_none_iff.2 fun f mem => ?_
      rw [bne_iff_ne]
      rintro rfl
      exact known (e ▸ List.mem_map_of_mem mem)
    have call : callTool lib router name = fun _ => .ok (unknownTool name) := by
      funext o
      rw [callTool, none' (toolRouter lib router) rfl]
    rw [none' inputFields rfl, call]
    exact unknown name

/-- What the result of a call to a tool is like. -/
structure Replied (name : String) (r : CallToolResult) : Prop where
  /-- It has one text. -/
  text : ∃ t, r.content = [t]
  /-- Without a structured half it is flagged as an error, -/
  failed : r.structuredContent = none → r.isError = true
  /-- and with one only as the validation of a document that is not valid. -/
  flagged : ∀ v, r.structuredContent = some v →
    (r.isError = true ↔ name = "xml_validate" ∧ v.get "valid" = some (.bool false))

/-- What is said of the calls to a tool. -/
structure Called (name : String) (fields : Option (List Field))
    (call : Json.Object → Except ErrorData CallToolResult) : Prop where
  /-- Every call yields a result, never an error of the protocol. -/
  replied : ∀ o, ∃ r, call o = .ok r ∧ Replied name r
  /-- Only a tool that there is, called with its fields, yields a structured half, -/
  answers : ∀ o r, call o = .ok r → r.structuredContent.isSome →
    ∃ fs, fields = some fs ∧ Conforms fs o
  /-- which determines the result. -/
  determined : ∀ o o' r r' v, call o = .ok r → call o' = .ok r' →
    r.structuredContent = some v → r'.structuredContent = some v → r = r'

section
variable {A T : Type} [Serialize T] [Display T] {name : String} {parse : Json.Object → Option A}
  {tool : A → Except String T} {isError : T → Bool}

/-- A result with a structured half is a tool's, whose arguments could be read. -/
lemma route_ok (plain : router.Plain) {o : Json.Object} {r}
    (h : route router name parse (fun a => reply (tool a) isError) o = .ok r)
    (done : r.structuredContent.isSome) : ∃ a, parse o = some a ∧ reply (tool a) isError = .ok r := by
  unfold route at h
  split at h
  · exact ⟨_, ‹_›, h⟩
  · rw [plain _ _ _ h] at done
    cases done

variable [Faithful T]

/-- A tool is called as `Called` says, if its arguments can be read when they have its fields and
its answers are flagged so. -/
lemma called (docs : router.Documented) {fields : List Field}
    (reads : ∀ {o}, (parse o).isSome ↔ Conforms fields o)
    (flags : ∀ a v, toValue (T := T) a = .ok v →
      (isError a = true ↔ name = "xml_validate" ∧ v.get "valid" = some (.bool false))) :
    Called name (some fields) (route router name parse fun a => reply (tool a) isError) where
  replied o := by
    unfold route
    split
    next a _ =>
      rcases reply_cases (tool a) isError with ⟨m, -, e⟩ | ⟨b, v, -, val, e⟩
      · exact ⟨_, e, ⟨m, rfl⟩, fun _ => rfl, nofun⟩
      · refine ⟨_, e, ⟨display b, rfl⟩, nofun, fun v' e' => ?_⟩
        cases e'
        exact flags b v val
    next =>
      obtain ⟨text, e⟩ := docs name o
      exact ⟨_, e, ⟨text, rfl⟩, fun _ => rfl, nofun⟩
  answers o r h done := by
    obtain ⟨a, args, -⟩ := route_ok docs.plain h done
    exact ⟨fields, rfl, reads.1 (Option.isSome_of_eq_some args)⟩
  determined o o' r r' v h h' hv hv' := by
    obtain ⟨a, -, h⟩ := route_ok docs.plain h (Option.isSome_of_eq_some hv)
    obtain ⟨a', -, h'⟩ := route_ok docs.plain h' (Option.isSome_of_eq_some hv')
    exact reply_inj h h' hv hv'

end

/-- An answer that is never flagged, of another tool than `xml_validate`. -/
lemma unflagged {T : Type} [Serialize T] {name : String} (other : name ≠ "xml_validate") (a : T)
    (v : Json.Value) (_ : toValue a = .ok v) :
    (false = true ↔ name = "xml_validate" ∧ v.get "valid" = some (.bool false)) :=
  ⟨nofun, fun ⟨e, _⟩ => absurd e other⟩

/-- Every call is answered as `Called` says, whatever tool it names and whatever its arguments. -/
theorem call_tool (lib : Libraries) (docs : router.Documented) (name : String) :
    Called name (inputFields.lookup name) (callTool lib router name) := by
  apply callTool_cases
  case query => exact called docs QueryArgs.parse_isSome (unflagged (by decide))
  case check => exact called docs DocumentArgs.parse_isSome (unflagged (by decide))
  case inspect => exact called docs DocumentArgs.parse_isSome (unflagged (by decide))
  case format => exact called docs FormatArgs.parse_isSome (unflagged (by decide))
  case validate =>
    refine called docs ValidateArgs.parse_isSome fun a v val => ?_
    cases val
    simp [Json.Value.get]
  case unknown =>
    intro name
    refine ⟨fun o => ⟨_, rfl, ⟨_, rfl⟩, fun _ => rfl, nofun⟩, fun o r h done => ?_,
      fun o o' r r' v h h' hv => ?_⟩
    · cases h
      cases done
    · cases h
      cases hv

/-- Libraries that know one document, and find one fault in it. -/
def Libraries.sample : Libraries where
  oxml := .sample [("<a/>", .chain [.root, .element ⟨"a", none⟩])] []
  serialise := { len := fun doc => doc.descendants.length, toXmlWith := fun _ _ => "<a/>" }
  xmlschema := {
    Schema := Unit
    parseSchema := fun _ => .ok ()
    validate := fun _ _ => ⟨false, [⟨"/a", "is not declared"⟩]⟩ }

/-- A router that names the first field that is missing. -/
def Router.sample : Router where
  malformed name o :=
    let missing := ((inputFields.lookup name).getD []).find? fun f =>
      f.required && (o.lookup f.key).isNone
    let text := missing.elim "invalid type" fun f => "missing field `" ++ f.key ++ "`"
    .ok { content := [text], structuredContent := none, isError := true }

/-- It is as documented. -/
lemma Router.sample_documented : Router.sample.Documented :=
  fun _ _ => ⟨_, rfl⟩

/-- A query without an expression is a result that names what is missing. -/
theorem call_tool_missing :
    Called "xml_query" (inputFields.lookup "xml_query") (callTool .sample .sample "xml_query") ∧
      callTool .sample .sample "xml_query" [("xml", .string "<a/>")] =
        .ok ⟨["missing field `xpath`"], none, true⟩ :=
  ⟨call_tool .sample Router.sample_documented "xml_query", rfl⟩

/-- Two results of a tool with the same text and a structured half have the same one, if the answers
they come from have the same text only when they are the same. -/
lemma same_halves {A T : Type} [Serialize T] [Display T] [Faithful T]
    (parse : Json.Object → Option A) {tool : A → Except String T} {isError : T → Bool}
    {o o' : Json.Object} {r r' : CallToolResult}
    (inj : ∀ a a' b b', parse o = some a → parse o' = some a' → tool a = .ok b → tool a' = .ok b' →
      display b = display b' → b = b')
    (plain : router.Plain) {name : String}
    (h : route router name parse (fun a => reply (tool a) isError) o = .ok r)
    (h' : route router name parse (fun a => reply (tool a) isError) o' = .ok r')
    (done : r.structuredContent.isSome) (done' : r'.structuredContent.isSome)
    (same : r.content = r'.content) : r = r' := by
  obtain ⟨a, args, h⟩ := route_ok plain h done
  obtain ⟨a', args', h'⟩ := route_ok plain h' done'
  obtain ⟨v, hv⟩ := Option.isSome_iff_exists.1 done
  obtain ⟨v', hv'⟩ := Option.isSome_iff_exists.1 done'
  obtain ⟨b, ok, val, rfl⟩ := reply_answer h hv
  obtain ⟨b', ok', val', rfl⟩ := reply_answer h' hv'
  obtain rfl := inj a a' b b' args args' ok ok' (List.singleton_inj.1 same)
  cases val.symm.trans val'
  rfl

/-- The validation that a call asks for has a plain answer. -/
def PlainValidation (lib : Libraries) (o : Json.Object) : Prop :=
  ∀ args answer, ValidateArgs.parse o = some args →
    validate lib.oxml lib.xmlschema args.xml args.xsd = .ok answer → answer.Plain

/-- What the model reads says all that the client gets: two results of `xml_check`, of `xml_format`,
or of `xml_validate` on plain reports, with a structured half, are the same as soon as their texts
are. -/
theorem texts_say_all {lib : Libraries} {router : Router} (half : router.Plain) {name : String}
    {o o' : Json.Object} {r r' : CallToolResult}
    (tool : name = "xml_check" ∨ name = "xml_format" ∨
      name = "xml_validate" ∧ PlainValidation lib o ∧ PlainValidation lib o')
    (h : callTool lib router name o = .ok r) (h' : callTool lib router name o' = .ok r')
    (done : r.structuredContent.isSome) (done' : r'.structuredContent.isSome)
    (same : r.content = r'.content) : r = r' := by
  rcases tool with rfl | rfl | ⟨rfl, plain, plain'⟩
  · refine same_halves DocumentArgs.parse ?_ half h h' done done' same
    intro a a' b b' _ _ ok ok' text
    obtain ⟨doc, -, rfl⟩ := check_ok_iff_parsed.1 ok
    obtain ⟨doc', -, rfl⟩ := check_ok_iff_parsed.1 ok'
    exact congrArg (CheckOutput.mk true) (checkText_inj text)
  · refine same_halves FormatArgs.parse ?_ half h h' done done' same
    intro a a' b b' _ _ _ _ text
    exact formatText_inj text
  · refine same_halves ValidateArgs.parse ?_ half h h' done done' same
    intro a a' b b' args args' ok ok' text
    exact validate_text_inj (plain a b args ok) (plain' a' b' args' ok') text

/-- A document that is not valid, against two schemas that find the same fault. -/
theorem texts_say_all_invalid :
    ∃ r r', callTool .sample .sample "xml_validate" [("xml", .string "<a/>"), ("xsd", .string "")] =
        .ok r ∧
      callTool .sample .sample "xml_validate" [("xml", .string "<a/>"), ("xsd", .string " ")] =
        .ok r' ∧
      r.isError = true ∧ r = r' := by
  have plain : ∀ o, PlainValidation .sample o := by
    intro o args answer _ ok
    obtain ⟨-, schema, doc, -, -, rfl⟩ := validate_ok_iff.1 ok
    refine ⟨rfl, fun v mem => ?_⟩
    cases List.mem_singleton.1 mem
    exact ⟨by decide, by decide⟩
  have result : ∀ xsd, xsd = "" ∨ xsd = " " → ∃ r,
      callTool .sample .sample "xml_validate" [("xml", .string "<a/>"), ("xsd", .string xsd)] = .ok r ∧
      r.isError = true ∧ r.structuredContent.isSome ∧
      r.content = ["1 violation(s):\n  /a — is not declared\n"] := by
    rintro xsd (rfl | rfl)
    · exact ⟨_, rfl, rfl, rfl, rfl⟩
    · exact ⟨_, rfl, rfl, rfl, rfl⟩
  obtain ⟨r, h, flagged, done, text⟩ := result "" (.inl rfl)
  obtain ⟨r', h', -, done', text'⟩ := result " " (.inr rfl)
  exact ⟨r, r', h, h', flagged, texts_say_all Router.sample_documented.plain
    (.inr (.inr ⟨rfl, plain _, plain _⟩)) h h' done done' (text.trans text'.symm)⟩

end OxmlMcp.Tools
