import OxmlMcp.Tools.Query
import OxmlMcp.Xpath.DataModel

/-!
# String-values

`text` of `src/output.rs` says the text of a node without the XPath engine. Here it is held against
the string-value that XPath 1.0 gives to the node.

* `text_of_node`: a node is reported by its string-value, but for comments and processing
  instructions, which are reported by nothing.
* `string_value_exact`: so the two agree, and a query of a node with a query of its string-value,
  exactly when the node is no comment and no processing instruction with content.
-/

namespace OxmlMcp.Tools
open OxmlMcp.Text OxmlMcp.Xpath

/-- The kind of a node of the data model. -/
def kindOf : Node NodeId QName → NodeKind
  | .root _ => .root
  | .content (.element _ name _ _) => .element name
  | .content (.text _ chars) => .text chars
  | .content (.comment _ chars) => .comment chars
  | .content (.processingInstruction _ _ data) => .processingInstruction data
  | .attached (.attr _ value) => .attr value
  | .attached (.namespaceNode _ uri) => .namespaceNode uri

/-- The document is that of a tree of the data model. -/
structure Document.Represents (doc : Document) (tree : Tree NodeId QName) : Prop where
  kind : ∀ n ∈ tree.nodes, doc.kind n.id = some (kindOf n)
  /-- `descendants_of` yields descendants in document order. -/
  descendantsOf : ∀ n ∈ tree.nodes, doc.descendantsOf n.id = n.descendants.map Content.id

/-- The kinds that `text` does not name. -/
def NodeKind.unnamed : NodeKind → Bool
  | .comment _ | .processingInstruction _ => true
  | _ => false

/-- The expression selects the node alone, and `string()` of it is the string-value of the node. -/
structure Selects (oxml : Oxml) (xml xpath : String) (namespaces : List (String × String))
    (doc : Document) (n : Node NodeId QName) : Prop where
  node : ∃ value, Evaluates oxml xml xpath namespaces doc value ∧ value.nodes = some [n.id]
  string : ∃ value, Evaluates oxml xml ("string(" ++ xpath ++ ")") namespaces doc value ∧
    value.nodes = none ∧ value.toStr doc = n.stringValue

variable {doc : Document} {tree : Tree NodeId QName} {n : Node NodeId QName}
  {oxml : Oxml} {xml xpath : String} {namespaces : List (String × String)}

lemma Document.Represents.charData (rep : doc.Represents tree) (mem : n ∈ tree.nodes) :
    (doc.descendantsOf n.id).filterMap (charData doc) = n.descendants.filterMap Content.chars := by
  rw [rep.descendantsOf n mem, List.filterMap_map]
  apply List.filterMap_congr
  intro c below
  have kind := rep.kind _ (tree.mem_nodes_of_descendant mem below)
  show Tools.charData doc (Node.content c).id = c.chars
  rw [Tools.charData, kind]
  cases c with
  | element => rfl
  | text => rfl
  | comment => rfl
  | processingInstruction => rfl

lemma join_singleton (s : String) : String.join [s] = s := by
  rw [String.join_cons, String.join_nil, String.append_empty]

/-- A node is reported by its string-value, or by nothing. -/
theorem text_of_node (rep : doc.Represents tree) (mem : n ∈ tree.nodes) :
    String.join (pieces doc n.id) = if (kindOf n).unnamed then "" else n.stringValue := by
  have below := rep.charData mem
  rw [pieces, rep.kind n mem]
  cases n with
  | root t => exact congrArg String.join below
  | attached a =>
    cases a with
    | attr id value => exact join_singleton value
    | namespaceNode id uri => exact join_singleton uri
  | content c =>
    cases c with
    | element => exact congrArg String.join below
    | text id chars => exact join_singleton chars
    | comment => rfl
    | processingInstruction => rfl

lemma bytes_pieces_le (rep : doc.Represents tree) (mem : n ∈ tree.nodes) :
    bytes (pieces doc n.id) ≤ n.stringValue.utf8ByteSize := by
  rw [← utf8ByteSize_join, text_of_node rep mem]
  split
  · exact Nat.zero_le _
  · exact Nat.le_refl _

/-- The text of a node is its string-value exactly when the node is no comment and no processing
instruction, or one without content. -/
lemma text_eq_stringValue (rep : doc.Represents tree) (mem : n ∈ tree.nodes) :
    String.join (pieces doc n.id) = n.stringValue ↔
      ¬ ((kindOf n).unnamed ∧ n.stringValue ≠ "") := by
  rw [text_of_node rep mem]
  cases (kindOf n).unnamed with
  | false => simp
  | true =>
    rw [if_pos rfl]
    constructor
    · rintro e ⟨_, ne⟩
      exact ne e.symm
    · intro h
      by_contra ne
      exact h ⟨rfl, fun e => ne e.symm⟩

/-- The two answers. -/
lemma query_node (sel : Selects oxml xml xpath namespaces doc n) (rep : doc.Represents tree)
    (mem : n ∈ tree.nodes) (room : n.stringValue.utf8ByteSize ≤ oxml.evalLimits.maxStringBytes) :
    query oxml xml xpath namespaces = .ok ⟨1, reported doc [n.id]⟩ := by
  obtain ⟨value, eval, nodes⟩ := sel.node
  have fits : ([n.id].map fun id => bytes (pieces doc id)).sum ≤ oxml.evalLimits.maxStringBytes := by
    simpa using (bytes_pieces_le rep mem).trans room
  exact query_ok_iff.2 ⟨doc, value, eval, .nodes nodes fits⟩

lemma query_string (sel : Selects oxml xml xpath namespaces doc n) :
    query oxml xml ("string(" ++ xpath ++ ")") namespaces = .ok ⟨1, [n.stringValue]⟩ := by
  obtain ⟨value, eval, nodes, same⟩ := sel.string
  rw [← same]
  exact query_ok_iff.2 ⟨doc, value, eval, .scalar nodes⟩

/-- A node is reported by its string-value exactly when it is no comment and no processing
instruction with content; and so a query of the node answers what a query of its string-value
does. -/
theorem string_value_exact (rep : doc.Represents tree) (mem : n ∈ tree.nodes) :
    (∀ remaining, n.stringValue.utf8ByteSize ≤ remaining →
      ((∃ rest, text doc n.id remaining = .ok (n.stringValue, rest)) ↔
        ¬ ((kindOf n).unnamed ∧ n.stringValue ≠ ""))) ∧
    ∀ oxml xml xpath namespaces, Selects oxml xml xpath namespaces doc n →
      n.stringValue.utf8ByteSize ≤ oxml.evalLimits.maxStringBytes → trim n.stringValue ≠ "" →
      ((query oxml xml xpath namespaces).map QueryOutput.values =
          (query oxml xml ("string(" ++ xpath ++ ")") namespaces).map QueryOutput.values ↔
        ¬ ((kindOf n).unnamed ∧ n.stringValue ≠ "")) := by
  refine ⟨fun remaining room => ?_, fun oxml xml xpath namespaces sel room notBlank => ?_⟩
  · rw [text_eq, ← text_eq_stringValue rep mem]
    have fits := (bytes_pieces_le rep mem).trans room
    constructor
    · rintro ⟨rest, h⟩
      exact (charge_ok.1 h).2.1.symm
    · intro same
      exact ⟨_, charge_ok.2 ⟨fits, same.symm, rfl⟩⟩
  · rw [query_node sel rep mem room, query_string sel, ← text_eq_stringValue rep mem]
    simp only [Except.map, Except.ok.injEq]
    constructor
    · intro kept
      have listed : n.stringValue ∈ reported doc [n.id] := by
        rw [kept]
        exact List.mem_singleton_self _
      obtain ⟨id, mem, same, _⟩ := mem_reported.1 listed
      rw [← List.mem_singleton.1 mem, same]
    · intro same
      rw [reported, List.map_singleton, same,
        List.filter_cons_of_pos (by simpa using notBlank), List.filter_nil]

/-- The document `<r>a<!--note-->b</r>`. -/
def Document.noted : Document where
  kind id := [.root, .element ⟨"r", none⟩, .text "a", .comment "note", .text "b"][id]?
  descendants := [0, 1, 2, 3, 4]
  descendantsOf
    | 0 => [1, 2, 3, 4]
    | 1 => [2, 3, 4]
    | _ => []
  parent
    | 0 => none
    | 1 => some 0
    | _ => some 1
  rootElement := some 1
  level
    | 0 => 0
    | 1 => 1
    | _ => 2
  parent_level {id p} h := by
    match id with
    | 0 => cases h
    | 1 => cases h; exact Nat.lt_succ_self _
    | id + 2 => cases h; exact Nat.lt_succ_self _

/-- The same in the data model. -/
def notedTree : Tree NodeId QName :=
  ⟨0, [.element 1 ⟨"r", none⟩ [] [.text 2 "a", .comment 3 "note", .text 4 "b"]]⟩

lemma noted_represents : Document.noted.Represents notedTree :=
  ⟨by decide, by decide⟩

/-- A library that selects the element and the comment, and says their string-values. -/
def Oxml.noted : Oxml :=
  .sample [("<r>a<!--note-->b</r>", .noted)]
    [("/r", ⟨some [1], fun _ => ""⟩), ("string(/r)", ⟨none, fun _ => "ab"⟩),
      ("//comment()", ⟨some [3], fun _ => ""⟩), ("string(//comment())", ⟨none, fun _ => "note"⟩)]

/-- The element of the document is reported by its string-value. -/
theorem string_value_exact_element :
    (∃ rest, text .noted 1 2 = .ok ("ab", rest)) ∧
    (query .noted "<r>a<!--note-->b</r>" "/r" []).map QueryOutput.values =
      (query .noted "<r>a<!--note-->b</r>" "string(/r)" []).map QueryOutput.values := by
  let r : Node NodeId QName :=
    .content (.element 1 ⟨"r", none⟩ [] [.text 2 "a", .comment 3 "note", .text 4 "b"])
  have exact := string_value_exact noted_represents (n := r) (.tail _ (.head _))
  have sel : Selects .noted "<r>a<!--note-->b</r>" "/r" [] .noted r :=
    ⟨⟨_, ⟨rfl, _, rfl, rfl⟩, rfl⟩, ⟨_, ⟨rfl, _, rfl, rfl⟩, rfl, rfl⟩⟩
  exact ⟨(exact.1 2 (by decide)).2 (by decide),
    (exact.2 .noted _ _ _ sel (by decide) (by decide)).2 (by decide)⟩

/-- The comment is not. -/
theorem comment_is_blank :
    Document.noted.Represents notedTree ∧ Node.content (.comment 3 "note") ∈ notedTree.nodes ∧
    text .noted 3 4 = .ok ("", 4) ∧
    query .noted "<r>a<!--note-->b</r>" "//comment()" [] = .ok ⟨1, []⟩ ∧
    query .noted "<r>a<!--note-->b</r>" "string(//comment())" [] = .ok ⟨1, ["note"]⟩ :=
  ⟨noted_represents, .tail _ (.tail _ (.tail _ (.head _))), rfl, rfl, rfl⟩

end OxmlMcp.Tools
