import Mathlib.Tactic.Common

/-!
# The data model of XPath

Section 5 of XPath 1.0 models a document as a tree with nodes of seven kinds. Nodes have an identity
`ι`, and elements a name `ν`. Elements, texts, comments and processing instructions have a place
among the children of the root or of an element (`Content`); attributes and namespaces belong to an
element without being its children (`Attached`).

* `Node.stringValue`: the string-value of a node, kind by kind.
* `Tree.mem_nodes_of_descendant`: the descendants of a node are nodes of its tree.
-/

namespace OxmlMcp.Xpath

/-- The nodes that belong to an element without being its children. -/
inductive Attached (ι : Type*) where
  | attr (id : ι) (value : String)
  | namespaceNode (id : ι) (uri : String)
  deriving DecidableEq

/-- The nodes that have a place among the children of a node, with what lies below them. -/
inductive Content (ι ν : Type*) where
  | element (id : ι) (name : ν) (attached : List (Attached ι)) (children : List (Content ι ν))
  | text (id : ι) (chars : String)
  | comment (id : ι) (chars : String)
  | processingInstruction (id : ι) (target data : String)

/-- A document: its root node. -/
structure Tree (ι ν : Type*) where
  id : ι
  children : List (Content ι ν)

/-- A node of any kind. -/
inductive Node (ι ν : Type*) where
  | root (tree : Tree ι ν)
  | content (c : Content ι ν)
  | attached (a : Attached ι)

variable {ι ν : Type*}

def Attached.id : Attached ι → ι
  | .attr id _ => id
  | .namespaceNode id _ => id

def Content.id : Content ι ν → ι
  | .element id _ _ _ => id
  | .text id _ => id
  | .comment id _ => id
  | .processingInstruction id _ _ => id

def Node.id : Node ι ν → ι
  | .root tree => tree.id
  | .content c => c.id
  | .attached a => a.id

/-- The attributes and namespaces of a node. -/
def Content.attached : Content ι ν → List (Attached ι)
  | .element _ _ attached _ => attached
  | _ => []

mutual

/-- A node and its descendants, in document order. -/
def Content.subtree : Content ι ν → List (Content ι ν)
  | .element id name attached children =>
    .element id name attached children :: descendants children
  | .text id chars => [.text id chars]
  | .comment id chars => [.comment id chars]
  | .processingInstruction id target data => [.processingInstruction id target data]

/-- Some children and their descendants, in document order. -/
def descendants : List (Content ι ν) → List (Content ι ν)
  | [] => []
  | c :: cs => c.subtree ++ descendants cs

end

/-- The descendants of a node, in document order. -/
def Node.descendants : Node ι ν → List (Content ι ν)
  | .root tree => Xpath.descendants tree.children
  | .content (.element _ _ _ children) => Xpath.descendants children
  | _ => []

/-- The characters of a text node. -/
def Content.chars : Content ι ν → Option String
  | .text _ chars => some chars
  | _ => none

/-- The string-value of a node. That of the root and of an element is the concatenation of the
string-values of all text node descendants in document order. -/
def Node.stringValue : Node ι ν → String
  | .root tree => String.join ((Xpath.descendants tree.children).filterMap Content.chars)
  | .content (.element _ _ _ children) =>
    String.join ((Xpath.descendants children).filterMap Content.chars)
  | .content (.text _ chars) => chars
  | .content (.comment _ chars) => chars
  | .content (.processingInstruction _ _ data) => data
  | .attached (.attr _ value) => value
  | .attached (.namespaceNode _ uri) => uri

/-- All nodes of a document, in document order. -/
def Tree.nodes (tree : Tree ι ν) : List (Node ι ν) :=
  .root tree :: (descendants tree.children).flatMap fun c => .content c :: c.attached.map .attached

mutual

lemma Content.subtree_trans {c d e : Content ι ν} (hd : d ∈ c.subtree) (he : e ∈ d.subtree) :
    e ∈ c.subtree := by
  cases c with
  | element id name attached children =>
    rw [Content.subtree, List.mem_cons] at hd
    rcases hd with rfl | below
    · exact he
    · rw [Content.subtree, List.mem_cons]
      exact .inr (descendants_trans below he)
  | text =>
    rw [Content.subtree, List.mem_singleton] at hd
    exact hd ▸ he
  | comment =>
    rw [Content.subtree, List.mem_singleton] at hd
    exact hd ▸ he
  | processingInstruction =>
    rw [Content.subtree, List.mem_singleton] at hd
    exact hd ▸ he

lemma descendants_trans {cs : List (Content ι ν)} {d e : Content ι ν} (hd : d ∈ descendants cs)
    (he : e ∈ d.subtree) : e ∈ descendants cs := by
  cases cs with
  | nil => cases hd
  | cons c cs =>
    rw [descendants, List.mem_append] at hd ⊢
    rcases hd with first | rest
    · exact .inl (Content.subtree_trans first he)
    · exact .inr (descendants_trans rest he)

end

lemma Tree.mem_nodes_content {tree : Tree ι ν} {c : Content ι ν} :
    .content c ∈ tree.nodes ↔ c ∈ descendants tree.children := by
  simp [nodes]

/-- The descendants of a node are nodes of its tree. -/
theorem Tree.mem_nodes_of_descendant {tree : Tree ι ν} {n : Node ι ν} (mem : n ∈ tree.nodes)
    {c : Content ι ν} (below : c ∈ n.descendants) : .content c ∈ tree.nodes := by
  rw [mem_nodes_content]
  cases n with
  | root t =>
    have e : t = tree := by simpa [nodes] using mem
    exact e ▸ below
  | attached a => cases below
  | content d =>
    rw [mem_nodes_content] at mem
    cases d with
    | element id name attached children =>
      refine descendants_trans mem ?_
      rw [Content.subtree, List.mem_cons]
      exact .inr below
    | text => cases below
    | comment => cases below
    | processingInstruction => cases below

end OxmlMcp.Xpath
