import OxmlMcp.Maps.Census
import OxmlMcp.Tools.Inspect

/-!
# What inspect counts

The counts of `inspect` are those of the elements of the document. The library visits every element,
and none twice; and a document that parses has one root element.

* `inspect_census`: the names and the namespaces that elements have are listed, each with the number
  of its elements.
-/

namespace OxmlMcp.Tools
open OxmlMcp.Maps

/-- The local name of an element. -/
def Document.localName (doc : Document) (id : NodeId) : Option String :=
  (doc.elementName id).map QName.localName

/-- The namespace that an element is in. -/
def Document.namespaceOf (doc : Document) (id : NodeId) : Option String :=
  (doc.elementName id).bind QName.namespaceUri

/-- An element that lies below the document node itself. -/
def Document.IsRootElement (doc : Document) (id : NodeId) : Prop :=
  (doc.elementName id).isSome ∧ ∃ top, doc.parent id = some top ∧ doc.kind top = some .root

/-- A document has one root element, and the library returns it. -/
structure Document.OneRoot (doc : Document) (root : NodeId) : Prop where
  returned : doc.rootElement = some root
  unique {id} : doc.IsRootElement id ↔ id = root

/-- The library visits every element. -/
def Document.VisitsElements (doc : Document) : Prop :=
  ∀ id, (doc.elementName id).isSome → id ∈ doc.descendants

variable {doc : Document} {root : NodeId} {oxml : Oxml} {xml : String}

/-- The local names that `inspect` meets are those of the element names, -/
lemma Document.localNames_eq (doc : Document) :
    doc.names.map QName.localName = doc.descendants.filterMap doc.localName := by
  rw [names, List.map_filterMap]
  rfl

/-- and so are the namespaces. -/
lemma Document.namespaceUris_eq (doc : Document) :
    doc.names.filterMap QName.namespaceUri = doc.descendants.filterMap doc.namespaceOf := by
  rw [names, List.filterMap_filterMap]
  rfl

/-- What has a local name is an element, -/
lemma isSome_localName (doc : Document) (id : NodeId) :
    (doc.localName id).isSome = (doc.elementName id).isSome := by
  rw [Document.localName, Option.isSome_map]

/-- and what has a namespace too. -/
lemma isSome_of_namespaceOf {id : NodeId} (has : (doc.namespaceOf id).isSome) :
    (doc.elementName id).isSome := by
  rw [Document.namespaceOf] at has
  exact Option.isSome_of_isSome_bind has

/-- The root of the answer is the name of the root element. -/
lemma Document.OneRoot.rootName (one : doc.OneRoot root) :
    doc.localName root = some doc.rootName := by
  obtain ⟨element, _⟩ := one.unique.2 rfl
  obtain ⟨name, named⟩ := Option.isSome_iff_exists.1 element
  rw [Document.localName, Document.rootName, one.returned, Option.bind_some, named]
  rfl

/-- A local name is listed if an element has it, and a namespace if an element is in it, each with the
number of such elements; and the root of the answer is the name of the root element. -/
theorem inspect_census (parsed : oxml.parseWith xml oxml.strict = .ok doc)
    (once : doc.descendants.Nodup) (visits : doc.VisitsElements) (one : doc.OneRoot root) :
    ∃ r, inspect oxml xml = .ok r ∧
      (∀ name n, (name, n) ∈ r.elements.entries ↔
        (∃ id, doc.localName id = some name) ∧ n = { id | doc.localName id = some name }.ncard) ∧
      (∀ uri n, (uri, n) ∈ r.namespaces.entries ↔
        (∃ id, doc.namespaceOf id = some uri) ∧ n = { id | doc.namespaceOf id = some uri }.ncard) ∧
      (r.elements.entries.map Prod.snd).sum = { id | (doc.elementName id).isSome }.ncard ∧
      (r.namespaces.entries.map Prod.snd).sum = { id | (doc.namespaceOf id).isSome }.ncard ∧
      doc.localName root = some r.root ∧ r.root ∈ r.elements.entries.map Prod.fst := by
  have named : ∀ id, (doc.localName id).isSome → id ∈ doc.descendants := by
    intro id has
    apply visits
    rwa [isSome_localName] at has
  have spaced : ∀ id, (doc.namespaceOf id).isSome → id ∈ doc.descendants :=
    fun id has => visits id (isSome_of_namespaceOf has)
  refine ⟨doc.summary, inspect_ok_iff.2 ⟨doc, parsed, rfl⟩, ?_⟩
  rw [Document.summary, doc.localNames_eq, doc.namespaceUris_eq]
  refine ⟨fun name n => mem_census_iff once named, fun uri n => mem_census_iff once spaced, ?_,
    sum_census once spaced, one.rootName, ?_⟩
  · rw [sum_census once named]
    simp only [isSome_localName]
  · rw [mem_keys_ofList, List.mem_filterMap]
    refine ⟨root, named root ?_, one.rootName⟩
    rw [one.rootName]
    rfl

/-- A chain visits its elements. -/
lemma chain_visits (kinds : List NodeKind) : (Document.chain kinds).VisitsElements := by
  intro id has
  obtain ⟨name, named⟩ := Option.isSome_iff_exists.1 has
  rw [Document.elementName] at named
  split at named
  · next kind =>
    obtain ⟨lt, _⟩ := List.getElem?_eq_some_iff.1 kind
    exact List.mem_range.2 lt
  · cases named

/-- The root of a chain is its first node, -/
lemma chain_root {name : QName} {rest : List NodeKind} (plain : .root ∉ rest) {id : NodeId}
    (kind : (Document.chain (.root :: .element name :: rest)).kind id = some .root) : id = 0 := by
  match id with
  | 0 => rfl
  | 1 => cases kind
  | id + 2 =>
    have kind : rest[id]? = some .root := kind
    exact absurd (List.mem_of_getElem? kind) plain

/-- and its one root element the second. -/
lemma chain_oneRoot {name : QName} {rest : List NodeKind} (plain : .root ∉ rest) :
    (Document.chain (.root :: .element name :: rest)).OneRoot 1 where
  returned := rfl
  unique {id} := by
    constructor
    · rintro ⟨element, top, up, kind⟩
      obtain rfl := chain_root plain kind
      match id with
      | 0 => cases up
      | id + 1 => rw [Option.some.inj up]
    · rintro rfl
      exact ⟨rfl, 0, rfl, rfl⟩

/-- The document `<r xmlns:m="urn:u"><m:item>ns</m:item></r>`. -/
def Oxml.namespaced : Oxml :=
  .sample [("<r xmlns:m=\"urn:u\"><m:item>ns</m:item></r>",
    .chain [.root, .element ⟨"r", none⟩, .element ⟨"item", some "urn:u"⟩, .text "ns"])] []

theorem inspect_census_namespaced :
    ∃ r, inspect .namespaced "<r xmlns:m=\"urn:u\"><m:item>ns</m:item></r>" = .ok r ∧
      some "r" = some r.root := by
  have parsed : Oxml.namespaced.parseWith "<r xmlns:m=\"urn:u\"><m:item>ns</m:item></r>" () =
      .ok (.chain [.root, .element ⟨"r", none⟩, .element ⟨"item", some "urn:u"⟩, .text "ns"]) := rfl
  obtain ⟨r, ok, _, _, _, _, root, _⟩ :=
    inspect_census parsed List.nodup_range (chain_visits _) (chain_oneRoot (by decide))
  exact ⟨r, ok, root⟩

end OxmlMcp.Tools
