import OxmlMcp.Tools.Census
import Mathlib.Order.Bounds.Basic

/-!
# The depth that inspect reports

The walk up from an element does not stop at the root element: it counts the document node as well.
The library visits every element, and leads from each node to its parent, up to the document node.

* `ElementChain.depthOf_eq`: the walk counts one node more than there are elements above.
* `inspect_depth`: so the depth that is reported of a document is one more than its height.
-/

namespace OxmlMcp.Tools

/-- The parents of elements are elements, up to the document node, which has none. -/
structure Document.Parented (doc : Document) : Prop where
  top {id} : doc.kind id = some .root → doc.parent id = none
  element {id} : (doc.elementName id).isSome →
    ∃ p, doc.parent id = some p ∧ (doc.kind p = some .root ∨ (doc.elementName p).isSome)

/-- The elements on the way from the root element down to an element. -/
inductive Document.ElementChain (doc : Document) (root : NodeId) : NodeId → List NodeId → Prop where
  | root :
    ElementChain doc root root [root]
  | child {p c ids} :
    ElementChain doc root p ids →
    (doc.elementName c).isSome →
    doc.parent c = some p →
    ElementChain doc root c (ids ++ [c])

/-- The number of elements on the longest way from the root element down to any element. -/
def Document.IsHeight (doc : Document) (root : NodeId) (n : Nat) : Prop :=
  IsGreatest { n | ∃ id ids, doc.ElementChain root id ids ∧ ids.length = n } n

variable {doc : Document} {root id : NodeId} {ids : List NodeId} {oxml : Oxml} {xml : String}

lemma Document.ElementChain.element (one : doc.OneRoot root) (chain : doc.ElementChain root id ids) :
    (doc.elementName id).isSome := by
  induction chain with
  | root => exact (one.unique.2 rfl).1
  | child _ element _ _ => exact element

/-- The walk up from an element counts the elements above it, itself, and the document node. -/
theorem Document.ElementChain.depthOf_eq (one : doc.OneRoot root) (parented : doc.Parented)
    (chain : doc.ElementChain root id ids) : doc.depthOf id = ids.length + 1 := by
  induction chain with
  | root =>
    obtain ⟨_, top, up, kind⟩ := one.unique.2 rfl
    rw [Tools.depthOf_eq, up, Option.elim_some, Tools.depthOf_eq, parented.top kind]
    rfl
  | child _ _ up ih =>
    rw [Tools.depthOf_eq, up, Option.elim_some, ih, List.length_append, List.length_singleton]

/-- There is a way down to every element. -/
lemma Document.Parented.exists_chain (parented : doc.Parented) (one : doc.OneRoot root)
    (element : (doc.elementName id).isSome) : ∃ ids, doc.ElementChain root id ids := by
  induction h : doc.level id using Nat.strongRecOn generalizing id with
  | _ level ih =>
    obtain ⟨p, up, above⟩ := parented.element element
    cases above with
    | inl top =>
      obtain rfl := one.unique.1 ⟨element, p, up, top⟩
      exact ⟨[id], .root⟩
    | inr element' =>
      obtain ⟨ids, chain⟩ := ih (doc.level p) (h ▸ doc.parent_level up) element' rfl
      exact ⟨ids ++ [id], .child chain element up⟩

lemma isGreatest_foldl_max {l : List Nat} (ne : l ≠ []) :
    IsGreatest { n | n ∈ l } (l.foldl max 0) := by
  rw [List.foldl_max_eq_max ne, Nat.max_eq_right (Nat.zero_le _)]
  exact ⟨List.max_mem ne, fun n mem => List.le_max_of_mem mem⟩

lemma Document.VisitsElements.mem_depths (visits : doc.VisitsElements) (n : Nat) :
    n ∈ (doc.descendants.filter fun id => (doc.elementName id).isSome).map doc.depthOf ↔
      ∃ id, (doc.elementName id).isSome ∧ doc.depthOf id = n := by
  rw [List.mem_map]
  refine exists_congr fun id => and_congr_left' ?_
  rw [List.mem_filter]
  exact and_iff_right_of_imp (visits id)

/-- The greatest depth of an element is one more than the height of the document. -/
theorem exists_height (visits : doc.VisitsElements) (one : doc.OneRoot root)
    (parented : doc.Parented) : ∃ n, doc.IsHeight root n ∧ doc.maxDepth = n + 1 := by
  have mem := visits.mem_depths
  obtain ⟨element, _⟩ := one.unique.2 rfl
  have ne := List.ne_nil_of_mem ((mem _).2 ⟨root, element, rfl⟩)
  obtain ⟨attained, greatest⟩ := isGreatest_foldl_max ne
  obtain ⟨id, element, deepest⟩ := (mem _).1 attained
  obtain ⟨ids, chain⟩ := parented.exists_chain one element
  have counted := chain.depthOf_eq one parented
  refine ⟨ids.length, ⟨⟨id, ids, chain, rfl⟩, ?_⟩, deepest.symm.trans counted⟩
  rintro n ⟨id', ids', chain', rfl⟩
  have le := greatest ((mem _).2 ⟨id', chain'.element one, chain'.depthOf_eq one parented⟩)
  rw [← deepest, counted] at le
  exact Nat.le_of_succ_le_succ le

/-- The depth that is reported of a document is not its height but one more: the document node counts
as well. -/
theorem inspect_depth (parsed : oxml.parseWith xml oxml.strict = .ok doc)
    (visits : doc.VisitsElements) (one : doc.OneRoot root) (parented : doc.Parented) :
    ∃ r, inspect oxml xml = .ok r ∧ ¬ doc.IsHeight root r.maxDepth ∧
      ∃ n, doc.IsHeight root n ∧ r.maxDepth = n + 1 := by
  obtain ⟨n, height, counted⟩ := exists_height visits one parented
  refine ⟨doc.summary, inspect_ok_iff.2 ⟨doc, parsed, rfl⟩, fun height' => ?_, n, height, counted⟩
  have same : doc.maxDepth = n := IsGreatest.unique height' height
  omega

/-- The document `<r><t>x</t></r>`. -/
def Document.nested : Document :=
  .chain [.root, .element ⟨"r", none⟩, .element ⟨"t", none⟩, .text "x"]

lemma nested_oneRoot : Document.nested.OneRoot 1 :=
  chain_oneRoot (by decide)

lemma nested_parented : Document.nested.Parented where
  top {id} kind := by
    have plain : NodeKind.root ∉ [.element ⟨"t", none⟩, .text "x"] := by decide
    obtain rfl := chain_root plain kind
    rfl
  element {id} element := by
    match id with
    | 0 => cases element
    | 1 => exact ⟨0, rfl, .inl rfl⟩
    | 2 => exact ⟨1, rfl, .inr rfl⟩
    | 3 => cases element
    | id + 4 => cases element

/-- The library that parses it. -/
def Oxml.nested : Oxml :=
  .sample [("<r><t>x</t></r>", .nested)] []

theorem inspect_depth_nested :
    ∃ r, inspect .nested "<r><t>x</t></r>" = .ok r ∧ ¬ Document.nested.IsHeight 1 r.maxDepth ∧
      ∃ n, Document.nested.IsHeight 1 n ∧ r.maxDepth = n + 1 := by
  have parsed : Oxml.nested.parseWith "<r><t>x</t></r>" () = .ok .nested := rfl
  exact inspect_depth parsed (chain_visits _) nested_oneRoot nested_parented

/-- The longest way down has two elements, and the depth that is reported is 3. -/
theorem nested_height :
    Document.nested.VisitsElements ∧ Document.nested.OneRoot 1 ∧ Document.nested.Parented ∧
    Document.nested.IsHeight 1 2 ∧
    ∃ r, inspect .nested "<r><t>x</t></r>" = .ok r ∧ r.maxDepth = 3 := by
  have deep : Document.nested.maxDepth = 3 := by decide
  refine ⟨chain_visits _, nested_oneRoot, nested_parented, ?_, Document.nested.summary,
    inspect_ok_iff.2 ⟨.nested, rfl, rfl⟩, deep⟩
  obtain ⟨n, height, counted⟩ := exists_height (chain_visits _) nested_oneRoot nested_parented
  have same : n = 2 := Nat.succ.inj (counted.symm.trans deep)
  exact same ▸ height

end OxmlMcp.Tools
