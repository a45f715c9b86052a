import OxmlMcp.Lines.Report
import OxmlMcp.Tools.Inspect

/-!
# The text of an inspect answer

The text reports names and namespace URIs as they are. A local name has no colon and can be read
back; a URI may be any text, and can imitate the line of another.

* `display_eq_iff`: two answers have the same text exactly when they agree but for namespaces that
  read the same.
* `inspect_text_exact`: so the text determines the answer exactly when two documents are not
  `Confusable`.
* `not_confusable_of_plain`: documents whose URIs imitate no line are not.
-/

namespace OxmlMcp.Tools
open OxmlMcp.Lines OxmlMcp.Maps

/-- A character that is no digit is in no number. -/
lemma digits_free {stop : Char} (digit : stop.isDigit = false) (n : Nat) :
    stop ∉ Nat.toDigits 10 n := by
  intro mem
  rw [Nat.isDigit_of_mem_toDigits (by decide) (by decide) mem] at digit
  cases digit

/-- Different numbers are written differently. -/
lemma toDigits_inj {m n : Nat} (h : Nat.toDigits 10 m = Nat.toDigits 10 n) : m = n := by
  rw [← Nat.ofDigitChars_ten_toDigits (n := m), h, Nat.ofDigitChars_ten_toDigits]

/-- Lines that say a count: two blanks, a label, a colon, the count, and a text that begins with
`stop`. -/
def countLine (stop : Char) (rest : List Char) (digit : stop.isDigit = false)
    (free : ':' ∉ stop :: rest) : Layout Char Nat where
  indent := [' ', ' ']
  term n := ':' :: ' ' :: (Nat.toDigits 10 n ++ stop :: rest)
  mark := ':'
  indent_ne_nil := nofun
  indent_free := by decide
  term_eq n := by
    refine ⟨_, rfl, fun mem => ?_⟩
    rcases List.mem_cons.1 mem with h | mem
    · cases h
    · rcases List.mem_append.1 mem with digits | tail
      · exact digits_free rfl n digits
      · exact free tail
  term_inj {b c x y} h := by
    simp only [List.cons_append, List.append_assoc] at h
    have counts := (List.cons.inj (List.cons.inj h).2).2
    obtain ⟨same, tail⟩ := append_cons_inj_of_free (digits_free digit b) (digits_free digit c) counts
    exact ⟨toDigits_inj same, List.append_cancel_left tail⟩

/-- The lines of the elements. -/
def elementLine : Layout Char Nat :=
  countLine '\n' [] rfl (by decide)

/-- The lines of the namespaces. -/
def namespaceLine : Layout Char Nat :=
  countLine ' ' "element(s)\n".toList rfl (by decide)

/-- The entries of a map, with the characters of the keys. -/
def labels (m : Counts String) : List (List Char × Nat) :=
  m.entries.map fun e => (e.1.toList, e.2)

/-- The text after the lines of the elements. -/
def namespacesText (m : Counts String) : List Char :=
  if m.entries.isEmpty then "Namespaces: none\n".toList
  else "Namespaces (pass these to xml_query as `namespaces`):\n".toList ++
    namespaceLine.report (labels m)

/-- The lines of the elements are the report of their names, -/
lemma toList_elements (m : Counts String) :
    (String.join (m.entries.map fun e => s!"  {e.1}: {e.2}\n")).toList =
      elementLine.report (labels m) := by
  rw [String.toList_join, List.flatMap_map, labels, Layout.report, List.flatMap_map]
  refine congrArg (m.entries.flatMap ·) (funext fun e => ?_)
  show ("  " ++ e.1 ++ ": " ++ Nat.repr e.2 ++ "\n").toList = _
  simp [Layout.entry, elementLine, countLine]

/-- those of the namespaces the report of their URIs, -/
lemma toList_namespaces (m : Counts String) :
    (String.join (m.entries.map fun e => s!"  {e.1}: {e.2} element(s)\n")).toList =
      namespaceLine.report (labels m) := by
  rw [String.toList_join, List.flatMap_map, labels, Layout.report, List.flatMap_map]
  refine congrArg (m.entries.flatMap ·) (funext fun e => ?_)
  show ("  " ++ e.1 ++ ": " ++ Nat.repr e.2 ++ " element(s)\n").toList = _
  simp [Layout.entry, namespaceLine, countLine]

/-- which may be missing. -/
lemma toList_displayNamespaces (m : Counts String) :
    (displayNamespaces m).toList = namespacesText m := by
  rw [displayNamespaces, namespacesText]
  split
  · rfl
  · rw [String.toList_append, toList_namespaces]

/-- The line of the root element, -/
lemma toList_root (root : String) :
    (s!"Root element: {root}\n").toList = "Root element: ".toList ++ (root.toList ++ ['\n']) := by
  show ("Root element: " ++ root ++ "\n").toList = _
  simp

/-- and that of the depth. -/
lemma toList_depth (n : Nat) :
    (s!"Maximum depth: {n}\n").toList =
      "Maximum depth: ".toList ++ (Nat.toDigits 10 n ++ ['\n']) := by
  show ("Maximum depth: " ++ Nat.repr n ++ "\n").toList = _
  simp

/-- The characters of five texts in a row. -/
lemma toList_append₅ (a b c d e : String) :
    (a ++ b ++ c ++ d ++ e).toList =
      a.toList ++ (b.toList ++ (c.toList ++ (d.toList ++ e.toList))) := by
  simp

/-- The text of a summary, character by character. -/
lemma toList_display (r : InspectOutput) :
    r.display.toList = ("Root element: ".toList ++ (r.root.toList ++ ['\n'])) ++
      (("Maximum depth: ".toList ++ (Nat.toDigits 10 r.maxDepth ++ ['\n'])) ++
        ("Elements:\n".toList ++ (elementLine.report (labels r.elements) ++
          namespacesText r.namespaces))) := by
  have body := congrArg₂ (· ++ ·) (toList_elements r.elements)
    (toList_displayNamespaces r.namespaces)
  have rest := congrArg₂ (· ++ ·) (toList_depth r.maxDepth)
    (congrArg ("Elements:\n".toList ++ ·) body)
  exact (toList_append₅ _ _ _ _ _).trans (congrArg₂ (· ++ ·) (toList_root r.root) rest)

/-- Two parts that end with a newline and have none, between parts that are the same. -/
lemma parts_inj {A B C u u' d d' x x' : List Char} (hu : '\n' ∉ u) (hu' : '\n' ∉ u')
    (hd : '\n' ∉ d) (hd' : '\n' ∉ d') :
    (A ++ (u ++ ['\n'])) ++ ((B ++ (d ++ ['\n'])) ++ (C ++ x)) =
      (A ++ (u' ++ ['\n'])) ++ ((B ++ (d' ++ ['\n'])) ++ (C ++ x')) ↔ u = u' ∧ d = d' ∧ x = x' := by
  constructor
  · intro h
    simp only [List.append_assoc] at h
    obtain ⟨same, h⟩ := append_cons_inj_of_free hu hu' (List.append_cancel_left h)
    obtain ⟨same', h⟩ := append_cons_inj_of_free hd hd' (List.append_cancel_left h)
    exact ⟨same, same', List.append_cancel_left h⟩
  · rintro ⟨rfl, rfl, rfl⟩
    rfl

/-- Censuses with the same labels are the same. -/
lemma labels_inj {m m' : Counts String} (h : labels m = labels m') : m = m' := by
  apply Counts.ext
  refine List.map_injective_iff.2 (fun e e' same => ?_) h
  obtain ⟨key, count⟩ := Prod.mk.inj same
  exact Prod.ext (String.toList_inj.1 key) count

/-- A census without labels is empty. -/
lemma labels_eq_nil {m : Counts String} : labels m = [] ↔ m.entries.isEmpty := by
  rw [labels, List.map_eq_nil_iff, List.isEmpty_iff]

/-- What is said of the namespaces is determined by their lines. -/
lemma namespacesText_eq_iff {m m' : Counts String} :
    namespacesText m = namespacesText m' ↔
      namespaceLine.report (labels m) = namespaceLine.report (labels m') := by
  constructor
  · intro h
    rw [namespacesText, namespacesText] at h
    split at h
    · split at h
      · rw [labels_eq_nil.2 ‹_›, labels_eq_nil.2 ‹_›]
      · simp at h
    · split at h
      · simp at h
      · exact List.append_cancel_left h
  · intro h
    have empty : m.entries.isEmpty = m'.entries.isEmpty := by
      rw [Bool.eq_iff_iff, ← labels_eq_nil, ← labels_eq_nil, ← namespaceLine.report_eq_nil, h,
        namespaceLine.report_eq_nil]
    rw [namespacesText, namespacesText, empty, h]

/-- What is said of the namespaces does not look like one more element. -/
lemma namespacesText_head (m : Counts String) :
    ¬ ∃ rest, namespacesText m = elementLine.indent ++ rest := by
  rintro ⟨rest, h⟩
  rw [namespacesText] at h
  split at h
  · simp [elementLine, countLine] at h
  · simp [elementLine, countLine] at h

/-- The names of an answer can be read back. -/
structure InspectOutput.Plain (r : InspectOutput) : Prop where
  root : '\n' ∉ r.root.toList
  elements : ∀ e ∈ labels r.elements, ':' ∉ e.1

/-- Two answers have the same text exactly when they agree but for namespaces that read the same. -/
theorem display_eq_iff {r r' : InspectOutput} (plain : r.Plain) (plain' : r'.Plain) :
    r.display = r'.display ↔
      r.root = r'.root ∧ r.maxDepth = r'.maxDepth ∧ r.elements = r'.elements ∧
        ∃ ls, namespaceLine.Cut (labels r.namespaces) ls ∧
          namespaceLine.Cut (labels r'.namespaces) ls := by
  rw [← String.toList_inj, toList_display, toList_display,
    parts_inj plain.root plain'.root (digits_free rfl _) (digits_free rfl _), String.toList_inj,
    ← Layout.report_eq_iff, ← namespacesText_eq_iff]
  refine and_congr_right fun _ => ?_
  constructor
  · rintro ⟨depth, body⟩
    obtain ⟨same, rest⟩ := elementLine.report_append_inj plain.elements plain'.elements
      (namespacesText_head _) (namespacesText_head _) body
    exact ⟨toDigits_inj depth, labels_inj same, rest⟩
  · rintro ⟨depth, elements, rest⟩
    rw [depth, elements, rest]
    exact ⟨rfl, rfl⟩

/-- The local names of elements are `NCName`s: they have no colon and no newline. -/
def Document.NCNames (doc : Document) : Prop :=
  ∀ {id name}, doc.elementName id = some name →
    ':' ∉ name.localName.toList ∧ '\n' ∉ name.localName.toList

/-- The URIs of a document, one for each element that is in a namespace. -/
def Document.uris (doc : Document) : List String :=
  doc.names.filterMap QName.namespaceUri

/-- Two documents differ in their namespaces only, and the lines of these read the same when each URI
is cut where it imitates a line. -/
structure Confusable (doc doc' : Document) : Prop where
  root : doc.rootName = doc'.rootName
  depth : doc.maxDepth = doc'.maxDepth
  elements : (doc.names.map QName.localName).Perm (doc'.names.map QName.localName)
  uris : ¬ doc.uris.Perm doc'.uris
  cut : ∃ ls, namespaceLine.Cut (labels (.ofList doc.uris)) ls ∧
    namespaceLine.Cut (labels (.ofList doc'.uris)) ls

variable {oxml : Oxml} {xml xml' : String} {doc doc' : Document}

/-- A label of a census is one of the keys that were counted. -/
lemma mem_labels_ofList {keys : List String} {e : List Char × Nat}
    (mem : e ∈ labels (.ofList keys)) : ∃ key ∈ keys, e.1 = key.toList := by
  obtain ⟨entry, listed, rfl⟩ := List.mem_map.1 mem
  exact ⟨entry.1, (mem_keys_ofList _).1 (List.mem_map.2 ⟨entry, listed, rfl⟩), rfl⟩

/-- The summary of a document whose names are names is plain. -/
lemma Document.NCNames.plain (nc : doc.NCNames) : doc.summary.Plain := by
  refine ⟨?_, fun e mem => ?_⟩
  · show '\n' ∉ ((doc.rootElement.bind doc.elementName).elim "none" QName.localName).toList
    cases root : doc.rootElement.bind doc.elementName with
    | none => decide
    | some name =>
      obtain ⟨id, _, named⟩ := Option.bind_eq_some_iff.1 root
      exact (nc named).2
  · obtain ⟨key, counted, e⟩ := mem_labels_ofList mem
    obtain ⟨name, listed, rfl⟩ := List.mem_map.1 counted
    obtain ⟨id, _, named⟩ := List.mem_filterMap.1 listed
    rw [e]
    exact (nc named).1

/-- The text of an answer determines the answer exactly when the documents are not confusable. -/
theorem inspect_text_exact (parsed : oxml.parseWith xml oxml.strict = .ok doc)
    (parsed' : oxml.parseWith xml' oxml.strict = .ok doc') (nc : doc.NCNames) (nc' : doc'.NCNames) :
    ∃ r r', inspect oxml xml = .ok r ∧ inspect oxml xml' = .ok r' ∧
      ((r ≠ r' → r.display ≠ r'.display) ↔ ¬ Confusable doc doc') := by
  refine ⟨doc.summary, doc'.summary, inspect_ok_iff.2 ⟨doc, parsed, rfl⟩,
    inspect_ok_iff.2 ⟨doc', parsed', rfl⟩, ?_⟩
  have text := display_eq_iff nc.plain nc'.plain
  constructor
  · intro distinct conf
    refine distinct (fun same => ?_) (text.2 ⟨conf.root, conf.depth, ?_, conf.cut⟩)
    · exact conf.uris (ofList_eq_iff.1 (congrArg InspectOutput.namespaces same))
    · exact ofList_eq_iff.2 conf.elements
  · intro clear ne same
    obtain ⟨root, depth, elements, cut⟩ := text.1 same
    refine clear ⟨root, depth, ofList_eq_iff.1 elements, fun uris => ?_, cut⟩
    exact ne (InspectOutput.ext root depth elements (ofList_eq_iff.2 uris))

/-- A URI has a line of its own in it: after it, the text goes on as after the URI of a line. -/
def ImitatesLine (uri : String) : Prop :=
  ∃ n, namespaceLine.term n ++ namespaceLine.indent <:+: uri.toList

/-- Labels that embed no line are not cut. -/
lemma eq_labels_of_cut {uris : List String} {ls : List (List Char × Nat)}
    (cut : namespaceLine.Cut (labels (.ofList uris)) ls) (plain : ∀ uri ∈ uris, ¬ ImitatesLine uri) :
    ls = labels (.ofList uris) := by
  refine cut.eq_of_plain fun e mem n part => ?_
  obtain ⟨uri, listed, same⟩ := mem_labels_ofList mem
  exact plain uri listed ⟨n, same ▸ part⟩

/-- Documents whose URIs imitate no line are not confusable. -/
theorem not_confusable_of_plain (plain : ∀ uri ∈ doc.uris, ¬ ImitatesLine uri)
    (plain' : ∀ uri ∈ doc'.uris, ¬ ImitatesLine uri) : ¬ Confusable doc doc' := by
  rintro ⟨_, _, _, uris, ls, cut, cut'⟩
  have same := (eq_labels_of_cut cut plain).symm.trans (eq_labels_of_cut cut' plain')
  exact uris (ofList_eq_iff.1 (labels_inj same))

/-- A namespace URI with a newline in it, and two documents with the namespaces `a` and `b`, and `a`
and `c`. -/
def Oxml.forged : Oxml :=
  .sample [
    ("<r xmlns='a: 1 element(s)&#10;  b'><s xmlns=''/></r>",
      .chain [.root, .element ⟨"r", some "a: 1 element(s)\n  b"⟩, .element ⟨"s", none⟩]),
    ("<r xmlns='a'><s xmlns='b'/></r>",
      .chain [.root, .element ⟨"r", some "a"⟩, .element ⟨"s", some "b"⟩]),
    ("<r xmlns='a'><s xmlns='c'/></r>",
      .chain [.root, .element ⟨"r", some "a"⟩, .element ⟨"s", some "c"⟩])] []

/-- The forged documents have names of that kind. -/
lemma forged_ncNames (parsed : Oxml.forged.parseWith xml () = .ok doc) : doc.NCNames := by
  intro id name named
  have known := sample_parsed parsed
  simp only [List.mem_cons, Prod.mk.injEq, List.not_mem_nil, or_false] at known
  have letter : name.localName = "r" ∨ name.localName = "s" := by
    rcases known with ⟨_, rfl⟩ | ⟨_, rfl⟩ | ⟨_, rfl⟩ <;>
    · have kind := elementName_chain named
      simp only [List.mem_cons, NodeKind.element.injEq, reduceCtorEq, false_or, List.not_mem_nil,
        or_false] at kind
      rcases kind with rfl | rfl
      · exact .inl rfl
      · exact .inr rfl
  rcases letter with h | h <;>
  · rw [h]
    decide

/-- A text without a colon embeds no line. -/
lemma not_imitatesLine {uri : String} (free : ':' ∉ uri.toList) : ¬ ImitatesLine uri := by
  rintro ⟨n, part⟩
  obtain ⟨rest, e, _⟩ := namespaceLine.term_eq n
  rw [e] at part
  exact free (part.subset List.mem_cons_self)

/-- The text tells apart documents with plain URIs. -/
theorem inspect_text_exact_plain :
    ∃ r r', inspect .forged "<r xmlns='a'><s xmlns='b'/></r>" = .ok r ∧
      inspect .forged "<r xmlns='a'><s xmlns='c'/></r>" = .ok r' ∧
      (r ≠ r' → r.display ≠ r'.display) := by
  have parsed : Oxml.forged.parseWith "<r xmlns='a'><s xmlns='b'/></r>" () =
      .ok (.chain [.root, .element ⟨"r", some "a"⟩, .element ⟨"s", some "b"⟩]) := rfl
  have parsed' : Oxml.forged.parseWith "<r xmlns='a'><s xmlns='c'/></r>" () =
      .ok (.chain [.root, .element ⟨"r", some "a"⟩, .element ⟨"s", some "c"⟩]) := rfl
  obtain ⟨r, r', ok, ok', text⟩ := inspect_text_exact parsed parsed' (forged_ncNames parsed)
    (forged_ncNames parsed')
  refine ⟨r, r', ok, ok', text.2 (not_confusable_of_plain (fun uri mem => ?_) fun uri mem => ?_)⟩
  · have free : ∀ uri ∈ ["a", "b"], ':' ∉ uri.toList := by decide
    exact not_imitatesLine (free uri mem)
  · have free : ∀ uri ∈ ["a", "c"], ':' ∉ uri.toList := by decide
    exact not_imitatesLine (free uri mem)

/-- A URI with a newline in it reads as two. -/
theorem inspect_text_forged :
    (∀ xml doc, Oxml.forged.parseWith xml () = .ok doc → doc.NCNames) ∧
    ∃ r r', inspect .forged "<r xmlns='a: 1 element(s)&#10;  b'><s xmlns=''/></r>" = .ok r ∧
      inspect .forged "<r xmlns='a'><s xmlns='b'/></r>" = .ok r' ∧
      r.namespaces ≠ r'.namespaces ∧ r.display = r'.display := by
  refine ⟨fun _ _ parsed => forged_ncNames parsed, _, _, rfl, rfl, fun h => ?_, ?_⟩
  · have entries := congrArg Counts.entries h
    revert entries
    decide
  · decide

end OxmlMcp.Tools
