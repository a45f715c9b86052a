import OxmlMcp.Maps.Counts
import OxmlMcp.Tools.Query
import Mathlib.Data.String.Basic

/-!
# The inspect tool

`inspect` of `src/lib.rs`, and the text of its answer (`Display for InspectOutput`).

* `depthOf_eq`: the walk up from a node counts the node and those above it.
* `inspect_ok_iff`: the answer is the summary of the document.
-/

namespace OxmlMcp.Tools
open OxmlMcp.Maps

/-- `InspectOutput`. -/
@[ext]
structure InspectOutput where
  root : String
  maxDepth : Nat
  elements : Counts String
  namespaces : Counts String

/-- The part of the text about the namespaces. -/
def displayNamespaces (namespaces : Counts String) : String :=
  if namespaces.entries.isEmpty then "Namespaces: none\n"
  else "Namespaces (pass these to xml_query as `namespaces`):\n" ++
    String.join (namespaces.entries.map fun e => s!"  {e.1}: {e.2} element(s)\n")

/-- `Display for InspectOutput`. -/
def InspectOutput.display (r : InspectOutput) : String :=
  s!"Root element: {r.root}\n" ++ s!"Maximum depth: {r.maxDepth}\n" ++ "Elements:\n" ++
    String.join (r.elements.entries.map fun e => s!"  {e.1}: {e.2}\n") ++
    displayNamespaces r.namespaces

/-- The walk up from a node, `while let Some(n) = cur { cur = doc.parent(n); d += 1; }`, within a
number of steps. -/
def Document.climb (doc : Document) : Nat → Option NodeId → Nat → Nat
  | 0, _, d => d
  | _ + 1, none, d => d
  | steps + 1, some n, d => doc.climb steps (doc.parent n) (d + 1)

/-- The depth of a node. A walk up has a node of each level at most. -/
def Document.depthOf (doc : Document) (id : NodeId) : Nat :=
  doc.climb (doc.level id + 1) (some id) 0

/-- What the loop of `inspect` has seen. -/
structure Seen where
  elements : Counts String
  namespaces : Counts String
  maxDepth : Nat

/-- The body of the loop. -/
def Document.visit (doc : Document) (seen : Seen) (id : NodeId) : Seen :=
  match doc.elementName id with
  | none => seen
  | some name =>
    { elements := seen.elements.bump name.localName
      namespaces :=
        match name.namespaceUri with
        | some uri => seen.namespaces.bump uri
        | none => seen.namespaces
      maxDepth := max seen.maxDepth (doc.depthOf id) }

/-- `inspect`. -/
def inspect (oxml : Oxml) (xml : String) : Except String InspectOutput := do
  let doc ← parseDoc oxml xml
  let seen := doc.descendants.foldl doc.visit ⟨.new, .new, 0⟩
  let root := (doc.rootElement.bind doc.elementName).elim "none" QName.localName
  .ok ⟨root, seen.maxDepth, seen.elements, seen.namespaces⟩

variable {doc : Document} {id : NodeId} {oxml : Oxml} {xml : String} {r : InspectOutput}

@[simp] lemma climb_none (steps d : Nat) : doc.climb steps none d = d := by
  cases steps with
  | zero => rfl
  | succ steps => rfl

lemma climb_add (steps : Nat) (cur : Option NodeId) (d : Nat) :
    doc.climb steps cur d = doc.climb steps cur 0 + d := by
  induction steps generalizing cur d with
  | zero => exact (Nat.zero_add d).symm
  | succ steps ih =>
    cases cur with
    | none => exact (Nat.zero_add d).symm
    | some n =>
      rw [Document.climb, Document.climb, ih _ (d + 1), ih _ (0 + 1)]
      omega

/-- The walk ends before its steps do, so that their number does not matter. -/
lemma climb_steps {steps steps' d : Nat} (enough : doc.level id < steps)
    (enough' : doc.level id < steps') :
    doc.climb steps (some id) d = doc.climb steps' (some id) d := by
  induction steps generalizing id d steps' with
  | zero => cases enough
  | succ steps ih =>
    cases steps' with
    | zero => cases enough'
    | succ steps' =>
      rw [Document.climb, Document.climb]
      cases up : doc.parent id with
      | none => rw [climb_none, climb_none]
      | some p =>
        have below := doc.parent_level up
        exact ih (by omega) (by omega)

/-- The depth of a node is one more than that of its parent. -/
theorem depthOf_eq (id : NodeId) :
    doc.depthOf id = (doc.parent id).elim 1 fun p => doc.depthOf p + 1 := by
  rw [Document.depthOf, Document.climb]
  cases up : doc.parent id with
  | none => exact climb_none _ _
  | some p =>
    rw [climb_add]
    exact congrArg (· + 1) (climb_steps (doc.parent_level up) (Nat.lt_succ_self _))

/-- The names of the elements, in document order. -/
def Document.names (doc : Document) : List QName :=
  doc.descendants.filterMap doc.elementName

/-- The local name of the root element. -/
def Document.rootName (doc : Document) : String :=
  (doc.rootElement.bind doc.elementName).elim "none" QName.localName

/-- The greatest depth of an element. -/
def Document.maxDepth (doc : Document) : Nat :=
  ((doc.descendants.filter fun id => (doc.elementName id).isSome).map doc.depthOf).foldl max 0

/-- What is to be said of a document. -/
def Document.summary (doc : Document) : InspectOutput where
  root := doc.rootName
  maxDepth := doc.maxDepth
  elements := .ofList (doc.names.map QName.localName)
  namespaces := .ofList (doc.names.filterMap QName.namespaceUri)

/-- The loop counts the names of elements, and takes the maximum of their depths. -/
lemma foldl_visit (ids : List NodeId) (seen : Seen) :
    ids.foldl doc.visit seen =
      { elements := ((ids.filterMap doc.elementName).map QName.localName).foldl Counts.bump
          seen.elements
        namespaces := ((ids.filterMap doc.elementName).filterMap QName.namespaceUri).foldl
          Counts.bump seen.namespaces
        maxDepth := ((ids.filter fun id => (doc.elementName id).isSome).map doc.depthOf).foldl max
          seen.maxDepth } := by
  induction ids generalizing seen with
  | nil => rfl
  | cons id ids ih =>
    rw [List.foldl_cons, ih, Document.visit]
    cases name : doc.elementName id with
    | none => simp [name]
    | some q =>
      cases uri : q.namespaceUri with
      | none => simp [name, uri]
      | some u => simp [name, uri]

/-- The answer is the summary of the document. -/
theorem inspect_ok_iff :
    inspect oxml xml = .ok r ↔
      ∃ doc, oxml.parseWith xml oxml.strict = .ok doc ∧ r = doc.summary := by
  simp only [inspect, parseDoc, bind_ok_iff, mapError_ok_iff, foldl_visit]
  constructor
  · rintro ⟨doc, parsed, h⟩
    exact ⟨doc, parsed, (Except.ok.inj h).symm⟩
  · rintro ⟨doc, parsed, rfl⟩
    exact ⟨doc, parsed, rfl⟩

end OxmlMcp.Tools
