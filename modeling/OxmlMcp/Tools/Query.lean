import OxmlMcp.Tools.Output

/-!
# The query tool

`query` of `src/lib.rs`, with the texts of its errors, and the text of its answer
(`Display for QueryOutput`).

* `query_ok_iff`: a query answers with the values that its expression evaluates to.
* `one_value_per_line`: when the lines of the text are the values, and when the text says nothing.
-/

namespace OxmlMcp.Tools
open OxmlMcp.Text

/-- `xpath_line_column`. -/
def xpathLineColumn (input : String) (offset : Nat) : Nat × Nat :=
  let upto := sliceTo input (floorCharBoundary input (min offset input.utf8ByteSize))
  let line := upto.toList.count '\n' + 1
  let column := (rsplit '\n' upto).head?.elim 1 fun line => line.toList.length + 1
  (line, column)

/-- `explain_xpath_error`. -/
def explainXpathError (xpath : String) (error : XPathError) : String :=
  if contains error.message "unbound namespace prefix" then
    let unbound := (split (Char.ofNat 96) error.message)[1]?.getD "PREFIX"
    "The XPath expression uses the namespace prefix `" ++ unbound ++
      "`, which is not bound. Pass it in the `namespaces` argument, for example \x7b\"" ++ unbound ++
      "\": \"urn:example\"\x7d. Call `xml_inspect` to see which namespaces the document uses."
  else
    let (line, column) := xpathLineColumn xpath error.offset
    s!"The XPath expression is invalid at line {line}, column {column}: {error.message}"

/-- `QueryOutput`. -/
structure QueryOutput where
  count : Nat
  values : List String
  deriving DecidableEq

/-- `Display for QueryOutput`. -/
def QueryOutput.display (r : QueryOutput) : String :=
  if r.count = 0 then "No nodes matched."
  else if r.values.isEmpty then s!"{r.count} node(s) matched, all with empty text."
  else join '\n' r.values

/-- The bindings of a query but those of the prefix `xml`. -/
def bindings (namespaces : List (String × String)) : List (String × String) :=
  namespaces.filter fun (p, _) => p != "xml"

/-- `query`. -/
def query (oxml : Oxml) (xml xpath : String) (namespaces : List (String × String)) :
    Except String QueryOutput := do
  let doc ← parseDoc oxml xml
  let compiled ← (oxml.compileWithNamespacesAndLimits xpath (bindings namespaces)
    oxml.strict).mapError (explainXpathError xpath)
  let value ← oxml.evaluateWith compiled doc oxml.evalLimits
  match value.nodes with
  | none => .ok { count := 1, values := [value.toStr doc] }
  | some nodes =>
    let (values, _) ← texts doc nodes oxml.evalLimits.maxStringBytes
    .ok { count := nodes.length, values := values.filter fun t => !(trim t).isEmpty }

variable {oxml : Oxml} {xml xpath : String} {namespaces : List (String × String)}
  {doc : Document} {value : Value} {r : QueryOutput}

/-- The expression compiles, and evaluates to a value over the document. -/
structure Evaluates (oxml : Oxml) (xml xpath : String) (namespaces : List (String × String))
    (doc : Document) (value : Value) : Prop where
  parsed : oxml.parseWith xml oxml.strict = .ok doc
  evaluated : ∃ compiled,
    oxml.compileWithNamespacesAndLimits xpath (bindings namespaces) oxml.strict = .ok compiled ∧
      oxml.evaluateWith compiled doc oxml.evalLimits = .ok value

/-- The texts that are reported of the nodes of a node-set. -/
def reported (doc : Document) (ids : List NodeId) : List String :=
  (ids.map fun id => String.join (pieces doc id)).filter fun t => !(trim t).isEmpty

/-- The answer of a query whose expression evaluates to a value. -/
inductive Answers (oxml : Oxml) (doc : Document) (value : Value) : QueryOutput → Prop where
  | scalar :
    value.nodes = none →
    Answers oxml doc value { count := 1, values := [value.toStr doc] }
  | nodes {ids} :
    value.nodes = some ids →
    (ids.map fun id => bytes (pieces doc id)).sum ≤ oxml.evalLimits.maxStringBytes →
    Answers oxml doc value { count := ids.length, values := reported doc ids }

lemma mapError_ok_iff {ε ε' α : Type} {f : ε → ε'} {x : Except ε α} {a : α} :
    x.mapError f = .ok a ↔ x = .ok a := by
  cases x with
  | error e => exact ⟨nofun, nofun⟩
  | ok b => simp [Except.mapError]

lemma bind_ok_iff {ε α β : Type} {x : Except ε α} {f : α → Except ε β} {b : β} :
    (x >>= f) = .ok b ↔ ∃ a, x = .ok a ∧ f a = .ok b := by
  cases x with
  | error e => exact ⟨nofun, fun ⟨_, h, _⟩ => nomatch h⟩
  | ok a =>
    refine ⟨fun h => ⟨a, rfl, h⟩, fun ⟨a', h, h'⟩ => ?_⟩
    cases h
    exact h'

/-- A query answers with the values that its expression evaluates to. -/
theorem query_ok_iff :
    query oxml xml xpath namespaces = .ok r ↔
      ∃ doc value, Evaluates oxml xml xpath namespaces doc value ∧ Answers oxml doc value r := by
  simp only [query, parseDoc, bind_ok_iff, mapError_ok_iff]
  constructor
  · rintro ⟨doc, parsed, compiled, comp, value, eval, h⟩
    refine ⟨doc, value, ⟨parsed, compiled, comp, eval⟩, ?_⟩
    cases nodes : value.nodes with
    | none =>
      rw [nodes] at h
      cases h
      exact .scalar nodes
    | some ids =>
      rw [nodes] at h
      obtain ⟨⟨values, rest⟩, collected, e⟩ := bind_ok_iff.1 h
      rw [texts_eq, charge_ok] at collected
      obtain ⟨room, rfl, _⟩ := collected
      cases e
      exact .nodes nodes room
  · rintro ⟨doc, value, ⟨parsed, compiled, comp, eval⟩, answers⟩
    refine ⟨doc, parsed, compiled, comp, value, eval, ?_⟩
    cases answers with
    | scalar nodes => rw [nodes]
    | nodes nodes room =>
      rw [nodes]
      exact bind_ok_iff.2 ⟨_, (texts_eq _ _ _).trans (charge_ok.2 ⟨room, rfl, rfl⟩), rfl⟩

/-- The value has a text on one line: it is a text that is not empty and has no newline, or a
node-set in which no node with more than whitespace for its text has a newline in a piece of it. -/
def OneLine (doc : Document) (value : Value) : Prop :=
  match value.nodes with
  | none => value.toStr doc ≠ "" ∧ '\n' ∉ (value.toStr doc).toList
  | some ids => ∀ id ∈ ids, (∃ piece ∈ pieces doc id, ∃ c ∈ piece.toList, ¬ isWhitespace c) →
      ∀ piece ∈ pieces doc id, '\n' ∉ piece.toList

/-- The text of an answer says the values, one on a line. -/
def QueryOutput.Says (r : QueryOutput) : Prop :=
  r.display ≠ "" ∧ (r.values ≠ [] → split '\n' r.display = r.values)

lemma mem_join {c : Char} {values : List String} :
    c ∈ (String.join values).toList ↔ ∃ v ∈ values, c ∈ v.toList := by
  rw [String.toList_join, List.mem_flatMap]

/-- The text of a node is kept in an answer when it has more than whitespace. -/
lemma kept_iff {id : NodeId} :
    (!(trim (String.join (pieces doc id))).isEmpty) = true ↔
      ∃ piece ∈ pieces doc id, ∃ c ∈ piece.toList, ¬ isWhitespace c := by
  rw [Bool.not_eq_true', ← Bool.not_eq_true, String.isEmpty_iff, trim, trimMatches_eq_empty]
  push Not
  simp only [mem_join]
  constructor
  · rintro ⟨c, ⟨v, mem, h⟩, no⟩
    exact ⟨v, mem, c, h, no⟩
  · rintro ⟨v, mem, c, h, no⟩
    exact ⟨c, ⟨v, mem, h⟩, no⟩

lemma join_ne_empty {values : List String} (ne : values ≠ []) (each : ∀ v ∈ values, v ≠ "") :
    join '\n' values ≠ "" := by
  obtain ⟨v, vs, rfl⟩ := List.exists_cons_of_ne_nil ne
  have first := each v List.mem_cons_self
  intro e
  have h := congrArg String.toList e
  rw [toList_join] at h
  cases vs with
  | nil => simp_all
  | cons w vs => simp_all

lemma says_of_none (none' : r.values = []) : r.Says := by
  refine ⟨fun e => ?_, fun ne => absurd none' ne⟩
  rw [QueryOutput.display, none'] at e
  split at e
  · exact absurd e (by decide)
  · have h := congrArg String.toList e
    simp [String.toList_append] at h

/-- An answer with values says them when they are not one empty line, and none is cut in two. -/
lemma says_of_values (count : r.count ≠ 0) (ne : r.values ≠ []) :
    r.Says ↔ join '\n' r.values ≠ "" ∧ ∀ v ∈ r.values, '\n' ∉ v.toList := by
  have shown : r.display = join '\n' r.values := by
    rw [QueryOutput.display, if_neg count, if_neg (by simpa using ne)]
  rw [QueryOutput.Says, shown, ← split_join ne]
  exact and_congr_right fun _ => ⟨fun h => h ne, fun h _ => h⟩

lemma mem_reported {ids : List NodeId} {v : String} :
    v ∈ reported doc ids ↔ ∃ id ∈ ids, String.join (pieces doc id) = v ∧
      ∃ piece ∈ pieces doc id, ∃ c ∈ piece.toList, ¬ isWhitespace c := by
  rw [reported, List.mem_filter, List.mem_map]
  constructor
  · rintro ⟨⟨id, listed, rfl⟩, kept⟩
    exact ⟨id, listed, rfl, kept_iff.1 kept⟩
  · rintro ⟨id, listed, rfl, kept⟩
    exact ⟨⟨id, listed, rfl⟩, kept_iff.2 kept⟩

/-- The texts reported of a node-set are on one line each when its nodes are. -/
lemma oneLine_nodes {ids : List NodeId} (nodes : value.nodes = some ids) :
    OneLine doc value ↔ ∀ v ∈ reported doc ids, '\n' ∉ v.toList := by
  rw [OneLine, nodes]
  constructor
  · intro plain v mem
    obtain ⟨id, listed, rfl, kept⟩ := mem_reported.1 mem
    rw [mem_join]
    rintro ⟨piece, part, h⟩
    exact plain id listed kept piece part h
  · intro plain id listed kept piece part h
    exact plain _ (mem_reported.2 ⟨id, listed, rfl, kept⟩) (mem_join.2 ⟨piece, part, h⟩)

/-- No text that is reported is empty. -/
lemma ne_empty_of_reported {ids : List NodeId} {v : String} (mem : v ∈ reported doc ids) :
    v ≠ "" := by
  rintro rfl
  exact absurd (List.mem_filter.1 mem).2 (by decide)

/-- The nodes of a node-set are said one on a line when no text that is reported has a newline. -/
lemma nodes_says {ids : List NodeId} (nodes : value.nodes = some ids) :
    (QueryOutput.mk ids.length (reported doc ids)).Says ↔ OneLine doc value := by
  rw [oneLine_nodes nodes]
  by_cases none' : reported doc ids = []
  · refine ⟨fun _ v mem => ?_, fun _ => says_of_none none'⟩
    rw [none'] at mem
    cases mem
  · have count : ids.length ≠ 0 := by
      intro zero
      rw [List.length_eq_zero_iff.1 zero] at none'
      exact none' rfl
    rw [says_of_values count none']
    exact and_iff_right (join_ne_empty none' fun v mem => ne_empty_of_reported mem)

/-- When the lines of the text are the values of the answer, and the text is not empty. -/
theorem one_value_per_line (ok : query oxml xml xpath namespaces = .ok r) :
    ∃ doc value, Evaluates oxml xml xpath namespaces doc value ∧
      (r.Says ↔ OneLine doc value) := by
  obtain ⟨doc, value, eval, answers⟩ := query_ok_iff.1 ok
  refine ⟨doc, value, eval, ?_⟩
  cases answers with
  | scalar nodes =>
    rw [says_of_values (by simp) (by simp), OneLine, nodes]
    simp [join]
  | nodes nodes room => exact nodes_says nodes

/-- The document `<r><a>x</a><a> </a><a>y</a></r>`. -/
def Document.rows : Document where
  kind id := [.root, .element ⟨"r", none⟩, .element ⟨"a", none⟩, .text "x", .element ⟨"a", none⟩,
    .text " ", .element ⟨"a", none⟩, .text "y"][id]?
  descendants := [0, 1, 2, 3, 4, 5, 6, 7]
  descendantsOf
    | 0 => [1, 2, 3, 4, 5, 6, 7]
    | 1 => [2, 3, 4, 5, 6, 7]
    | 2 => [3]
    | 4 => [5]
    | 6 => [7]
    | _ => []
  parent
    | 1 => some 0
    | 2 | 4 | 6 => some 1
    | 3 => some 2
    | 5 => some 4
    | 7 => some 6
    | _ => none
  rootElement := some 1
  level id := id
  parent_level {id p} h := by
    match id with
    | 1 | 2 | 3 | 4 | 5 | 6 | 7 =>
      cases h
      decide
    | 0 | id + 8 => cases h

/-- A library that knows a document with a text on two lines, `<r>a` and `b</r>`, one with a text on
one line, and one of three rows, one of them blank. -/
def Oxml.lines : Oxml :=
  .sample [("<r>a\nb</r>", .chain [.root, .element ⟨"r", none⟩, .text "a\nb"]),
      ("<r>a</r>", .chain [.root, .element ⟨"r", none⟩, .text "a"]),
      ("<r><a>x</a><a> </a><a>y</a></r>", .rows)]
    [("/r", { nodes := some [1], toStr := fun _ => "" }),
      ("//a", { nodes := some [2, 4, 6], toStr := fun _ => "x" }),
      ("string(/none)", { nodes := none, toStr := fun _ => "" })]

/-- Of three nodes, the two that are not blank are said one on a line. -/
theorem one_value_per_line_rows :
    ∃ doc value, Evaluates .lines "<r><a>x</a><a> </a><a>y</a></r>" "//a" [] doc value ∧
      ((QueryOutput.mk 3 ["x", "y"]).Says ↔ OneLine doc value) :=
  one_value_per_line rfl

/-- The text of one value is read as two, and that of an empty text is empty. -/
theorem two_lines_of_one_value :
    (∃ r, query .lines "<r>a\nb</r>" "/r" [] = .ok r ∧ r.values = ["a\nb"] ∧
      split '\n' r.display ≠ r.values) ∧
    ∃ r, query .lines "<r>a</r>" "string(/none)" [] = .ok r ∧ r.display = "" :=
  ⟨⟨⟨1, ["a\nb"]⟩, rfl, rfl, by decide⟩, ⟨1, [""]⟩, rfl, rfl⟩

end OxmlMcp.Tools
