import OxmlMcp.Tools.Query
import Mathlib.Logic.Relation

/-!
# The budget of a query

The texts of a node-set are collected from one budget of bytes. `Step` takes the loops of `query` and
of `text` apart into the single operations on the texts that are held and on what remains of the
budget, so that what is held can be said at every point of a run.

* `Account.step`: every byte is held, charged for, or remains.
* `collects_iff`: a run ends as `texts` says, with the texts or with a refusal.
* `query_budget`: a query succeeds when its budget has room for all texts, and never holds more.
-/

namespace OxmlMcp.Tools
open Relation OxmlMcp.Text

/-- Where the collection of texts stands. -/
inductive Phase where
  /-- Between two nodes. -/
  | idle
  /-- In the loop of `text`. -/
  | scan (out : String) (children : List NodeId)
  /-- At a call of `append`. -/
  | append (out text : String) (children : List NodeId)
  /-- In `append`, when the text is charged. -/
  | charged (out text : String) (children : List NodeId)
  /-- When `append` has failed. -/
  | refused (out text : String) (children : List NodeId)

/-- The texts of the nodes that are done with, the node at hand, and the nodes that are left. -/
structure Collecting where
  done : List String
  phase : Phase
  ids : List NodeId
  remaining : Nat

/-- The nodes that `text` loops over. -/
def scanned (doc : Document) (id : NodeId) : List NodeId :=
  match doc.kind id with
  | some .root | some (.element _) => doc.descendantsOf id
  | _ => []

/-- One operation of the collection. -/
inductive Step (doc : Document) : Collecting → Collecting → Prop where
  | direct {done id ids remaining t} :
    directText doc id = some t →
    Step doc ⟨done, .idle, id :: ids, remaining⟩ ⟨done, .append "" t [], ids, remaining⟩
  | enter {done id ids remaining} :
    directText doc id = none →
    Step doc ⟨done, .idle, id :: ids, remaining⟩ ⟨done, .scan "" (scanned doc id), ids, remaining⟩
  | child {done out child children ids remaining t} :
    charData doc child = some t →
    Step doc ⟨done, .scan out (child :: children), ids, remaining⟩
      ⟨done, .append out t children, ids, remaining⟩
  | skip {done out child children ids remaining} :
    charData doc child = none →
    Step doc ⟨done, .scan out (child :: children), ids, remaining⟩
      ⟨done, .scan out children, ids, remaining⟩
  | charge {done out t children ids remaining rest} :
    checkedSub remaining t.utf8ByteSize = some rest →
    Step doc ⟨done, .append out t children, ids, remaining⟩
      ⟨done, .charged out t children, ids, rest⟩
  | refuse {done out t children ids remaining} :
    checkedSub remaining t.utf8ByteSize = none →
    Step doc ⟨done, .append out t children, ids, remaining⟩
      ⟨done, .refused out t children, ids, remaining⟩
  | push {done out t children ids remaining} :
    Step doc ⟨done, .charged out t children, ids, remaining⟩
      ⟨done, .scan (out ++ t) children, ids, remaining⟩
  | finish {done out ids remaining} :
    Step doc ⟨done, .scan out [], ids, remaining⟩ ⟨done ++ [out], .idle, ids, remaining⟩

/-- What a run from a budget comes to. -/
def Collects (doc : Document) (ids : List NodeId) (limit : Nat) (s : Collecting) : Prop :=
  ReflTransGen (Step doc) ⟨[], .idle, ids, limit⟩ s

/-- The text that is held of the node at hand. -/
def Phase.out : Phase → String
  | idle => ""
  | scan out _ => out
  | append out _ _ => out
  | charged out _ _ => out
  | refused out _ _ => out

/-- The bytes that are charged but not yet held. -/
def Phase.pending : Phase → Nat
  | charged _ text _ => text.utf8ByteSize
  | _ => 0

/-- The pieces of the node at hand that are not yet held. -/
def Phase.rest (doc : Document) : Phase → List String
  | idle => []
  | scan _ children => children.filterMap (charData doc)
  | append _ text children => text :: children.filterMap (charData doc)
  | charged _ text children => text :: children.filterMap (charData doc)
  | refused _ text children => text :: children.filterMap (charData doc)

/-- The text of the node at hand. -/
def Phase.whole (doc : Document) : Phase → List String
  | idle => []
  | phase => [phase.out ++ String.join (phase.rest doc)]

/-- The bytes of all texts that are held. -/
def Collecting.held (s : Collecting) : Nat :=
  bytes s.done + s.phase.out.utf8ByteSize

/-- The texts of the nodes, those that are still to be collected included. -/
def Collecting.values (doc : Document) (s : Collecting) : List String :=
  s.done ++ s.phase.whole doc ++ s.ids.map fun id => String.join (pieces doc id)

/-- What a run keeps: no byte is lost from the budget, nor from the texts; and a text is refused when
there is no room for it. -/
structure Account (doc : Document) (ids : List NodeId) (limit : Nat) (s : Collecting) : Prop where
  budget : s.held + s.phase.pending + s.remaining = limit
  values : s.values doc = ids.map fun id => String.join (pieces doc id)
  refused {out t children} : s.phase = .refused out t children → s.remaining < t.utf8ByteSize

variable {doc : Document} {ids : List NodeId} {limit remaining : Nat} {s s' : Collecting}
  {oxml : Oxml} {xml xpath : String} {namespaces : List (String × String)} {value : Value}

lemma bytes_append (values values' : List String) :
    bytes (values ++ values') = bytes values + bytes values' := by
  rw [bytes, List.map_append, List.sum_append, bytes, bytes]

lemma checkedSub_some {a b c : Nat} : checkedSub a b = some c ↔ b ≤ a ∧ c = a - b := by
  rw [checkedSub]
  split
  · simp [‹b ≤ a›, eq_comm]
  · simp [‹¬ b ≤ a›]

lemma checkedSub_none {a b : Nat} : checkedSub a b = none ↔ a < b := by
  rw [checkedSub]
  split
  · simp [‹b ≤ a›]
  · simpa using ‹¬ b ≤ a›

/-- The pieces of a node are what it holds itself, or else what the loop finds. -/
lemma pieces_eq (id : NodeId) :
    pieces doc id =
      (directText doc id).elim ((scanned doc id).filterMap (charData doc)) fun t => [t] := by
  rw [directText, pieces, scanned]
  cases doc.kind id with
  | none => rfl
  | some k =>
    cases k with
    | root => rfl
    | element => rfl
    | text => rfl
    | attr => rfl
    | namespaceNode => rfl
    | comment => rfl
    | processingInstruction => rfl

lemma Account.start : Account doc ids limit ⟨[], .idle, ids, limit⟩ where
  budget := by simp [Collecting.held, Phase.out, Phase.pending]
  values := by simp [Collecting.values, Phase.whole]
  refused := nofun

/-- Every operation keeps the account. -/
lemma Account.step (acc : Account doc ids limit s) (st : Step doc s s') :
    Account doc ids limit s' := by
  obtain ⟨budget, values, refused⟩ := acc
  simp only [Collecting.held] at budget
  cases st with
  | direct held =>
    refine ⟨budget, ?_, nofun⟩
    rw [← values]
    simp [Collecting.values, Phase.whole, Phase.out, Phase.rest, pieces_eq, held]
  | enter free =>
    refine ⟨budget, ?_, nofun⟩
    rw [← values]
    simp [Collecting.values, Phase.whole, Phase.out, Phase.rest, pieces_eq, free]
  | child found =>
    refine ⟨budget, ?_, nofun⟩
    rw [← values]
    simp [Collecting.values, Phase.whole, Phase.out, Phase.rest, found]
  | skip none' =>
    refine ⟨budget, ?_, nofun⟩
    rw [← values]
    simp [Collecting.values, Phase.whole, Phase.out, Phase.rest, none']
  | charge sub =>
    obtain ⟨room, rfl⟩ := checkedSub_some.1 sub
    refine ⟨?_, values, nofun⟩
    simp only [Collecting.held, Phase.out, Phase.pending] at budget ⊢
    omega
  | refuse sub =>
    refine ⟨budget, values, ?_⟩
    rintro out t children ⟨⟩
    exact checkedSub_none.1 sub
  | push =>
    refine ⟨?_, ?_, nofun⟩
    · simp only [Collecting.held, Phase.out, Phase.pending, String.utf8ByteSize_append] at budget ⊢
      omega
    · rw [← values]
      simp [Collecting.values, Phase.whole, Phase.out, Phase.rest, String.append_assoc]
  | finish =>
    refine ⟨?_, ?_, nofun⟩
    · simp only [Collecting.held, Phase.out, Phase.pending, bytes_append, bytes_cons] at budget ⊢
      simpa using budget
    · rw [← values]
      simp [Collecting.values, Phase.whole, Phase.out, Phase.rest]

lemma Account.run (run : Collects doc ids limit s) : Account doc ids limit s := by
  induction run with
  | refl => exact .start
  | tail _ st ih => exact ih.step st

lemma bytes_texts (doc : Document) (ids : List NodeId) :
    bytes (ids.map fun id => String.join (pieces doc id)) =
      (ids.map fun id => bytes (pieces doc id)).sum := by
  rw [bytes, List.map_map]
  exact congrArg List.sum (List.map_congr_left fun id _ => utf8ByteSize_join _)

/-- A run that is refused has no room for all texts. -/
lemma Account.of_refused (acc : Account doc ids limit s) {out t : String} {children : List NodeId}
    (phase : s.phase = .refused out t children) :
    limit < (ids.map fun id => bytes (pieces doc id)).sum := by
  have small := acc.refused phase
  have budget := acc.budget
  rw [← bytes_texts, ← acc.values]
  simp only [Collecting.held, Collecting.values, phase, Phase.out, Phase.pending, Phase.whole,
    Phase.rest, bytes_append, bytes_cons, String.join_cons, String.utf8ByteSize_append] at budget ⊢
  omega

/-- A run that is not has collected all texts. -/
lemma Account.of_finished {values : List String} {rest : Nat}
    (acc : Account doc ids limit ⟨values, .idle, [], rest⟩) :
    texts doc ids limit = .ok (values, rest) := by
  have same : values = ids.map fun id => String.join (pieces doc id) := by
    rw [← acc.values]
    simp [Collecting.values, Phase.whole]
  have budget := acc.budget
  simp only [Collecting.held, Phase.out, Phase.pending, String.utf8ByteSize_empty] at budget
  rw [texts_eq, charge_ok, ← bytes_texts, ← same]
  exact ⟨by omega, rfl, by omega⟩

/-- A run has ended when all texts are collected, or one is refused. -/
inductive Collecting.Ended : Collecting → Prop where
  | finished {values rest} :
    Ended ⟨values, .idle, [], rest⟩
  | refused {done out t children ids remaining} :
    Ended ⟨done, .refused out t children, ids, remaining⟩

lemma append_ends {done : List String} {children : List NodeId}
    (scan : ∀ out remaining, ∃ s,
      ReflTransGen (Step doc) ⟨done, .scan out children, ids, remaining⟩ s ∧ s.Ended)
    (out t : String) (remaining : Nat) :
    ∃ s, ReflTransGen (Step doc) ⟨done, .append out t children, ids, remaining⟩ s ∧ s.Ended := by
  cases sub : checkedSub remaining t.utf8ByteSize with
  | none => exact ⟨_, .single (.refuse sub), .refused⟩
  | some rest =>
    obtain ⟨s, run, ended⟩ := scan (out ++ t) rest
    exact ⟨s, .head (.charge sub) (.head .push run), ended⟩

lemma scan_ends
    (ends : ∀ done remaining, ∃ s,
      ReflTransGen (Step doc) ⟨done, .idle, ids, remaining⟩ s ∧ s.Ended)
    (done : List String) (children : List NodeId) (out : String) (remaining : Nat) :
    ∃ s, ReflTransGen (Step doc) ⟨done, .scan out children, ids, remaining⟩ s ∧ s.Ended := by
  induction children generalizing out remaining with
  | nil =>
    obtain ⟨s, run, ended⟩ := ends (done ++ [out]) remaining
    exact ⟨s, .head .finish run, ended⟩
  | cons child children ih =>
    cases found : charData doc child with
    | none =>
      obtain ⟨s, run, ended⟩ := ih out remaining
      exact ⟨s, .head (.skip found) run, ended⟩
    | some t =>
      obtain ⟨s, run, ended⟩ := append_ends ih out t remaining
      exact ⟨s, .head (.child found) run, ended⟩

/-- Every run comes to an end. -/
lemma collects_ends (doc : Document) (ids : List NodeId) (done : List String) (remaining : Nat) :
    ∃ s, ReflTransGen (Step doc) ⟨done, .idle, ids, remaining⟩ s ∧ s.Ended := by
  induction ids generalizing done remaining with
  | nil => exact ⟨_, .refl, .finished⟩
  | cons id ids ih =>
    cases held : directText doc id with
    | none =>
      obtain ⟨s, run, ended⟩ := scan_ends ih done (scanned doc id) "" remaining
      exact ⟨s, .head (.enter held) run, ended⟩
    | some t =>
      obtain ⟨s, run, ended⟩ := append_ends (scan_ends ih done []) "" t remaining
      exact ⟨s, .head (.direct held) run, ended⟩

/-- A run comes to texts exactly when `texts` does. -/
theorem collects_iff {values : List String} {rest : Nat} :
    Collects doc ids limit ⟨values, .idle, [], rest⟩ ↔ texts doc ids limit = .ok (values, rest) := by
  refine ⟨fun run => (Account.run run).of_finished, fun ok => ?_⟩
  obtain ⟨s, run, ended⟩ := collects_ends doc ids [] limit
  have acc := Account.run run
  cases ended with
  | finished =>
    have same := ok.symm.trans acc.of_finished
    cases same
    exact run
  | refused =>
    rw [texts_eq, charge_ok] at ok
    exact absurd ok.1 (Nat.not_le.2 (acc.of_refused rfl))

/-- A text with whitespace only. -/
def Blank (t : String) : Prop :=
  ∀ c ∈ t.toList, isWhitespace c

instance : DecidablePred Blank :=
  fun t => inferInstanceAs (Decidable (∀ c ∈ t.toList, isWhitespace c))

/-- The texts that are reported are those that are not blank. -/
lemma reported_eq (doc : Document) (ids : List NodeId) :
    reported doc ids =
      (ids.map fun id => String.join (pieces doc id)).filter fun t => ¬ Blank t := by
  refine List.filter_congr fun t _ => ?_
  rw [Bool.eq_iff_iff, Bool.not_eq_true', ← Bool.not_eq_true, String.isEmpty_iff, trim,
    trimMatches_eq_empty, decide_eq_true_eq, Blank]

/-- The answer of a query that selects nodes. -/
lemma query_nodes (eval : Evaluates oxml xml xpath namespaces doc value)
    (nodes : value.nodes = some ids) :
    query oxml xml xpath namespaces =
      (texts doc ids oxml.evalLimits.maxStringBytes).map fun collected =>
        { count := ids.length, values := collected.1.filter fun t => !(trim t).isEmpty } := by
  obtain ⟨parsed, compiled, comp, evaluated⟩ := eval
  simp only [query, parseDoc, parsed, comp, evaluated, nodes, Except.mapError, bind, Except.bind]
  cases texts doc ids oxml.evalLimits.maxStringBytes with
  | error e => rfl
  | ok collected => rfl

/-- A query succeeds when its budget has room for the texts of its nodes. -/
lemma query_fits (eval : Evaluates oxml xml xpath namespaces doc value)
    (nodes : value.nodes = some ids) :
    (∃ r, query oxml xml xpath namespaces = .ok r) ↔
      (ids.map fun id => bytes (pieces doc id)).sum ≤ oxml.evalLimits.maxStringBytes := by
  rw [query_nodes eval nodes, texts_eq, charge]
  split
  · exact iff_of_true ⟨_, rfl⟩ ‹_›
  · refine iff_of_false ?_ ‹_›
    rintro ⟨r, ok⟩
    cases ok

/-- A query answers what a run comes to, but for the blank texts. -/
lemma query_collects (eval : Evaluates oxml xml xpath namespaces doc value)
    (nodes : value.nodes = some ids) (r : QueryOutput) :
    query oxml xml xpath namespaces = .ok r ↔
      ∃ values rest, Collects doc ids oxml.evalLimits.maxStringBytes ⟨values, .idle, [], rest⟩ ∧
        r = { count := ids.length, values := values.filter fun t => !(trim t).isEmpty } := by
  rw [query_nodes eval nodes]
  constructor
  · intro ok
    cases collected : texts doc ids oxml.evalLimits.maxStringBytes with
    | error e =>
      rw [collected] at ok
      cases ok
    | ok out =>
      rw [collected] at ok
      exact ⟨out.1, out.2, collects_iff.2 collected, (Except.ok.inj ok).symm⟩
  · rintro ⟨values, rest, run, rfl⟩
    rw [collects_iff.1 run]
    rfl

/-- A query fails where a run is refused a text. -/
lemma query_refused (eval : Evaluates oxml xml xpath namespaces doc value)
    (nodes : value.nodes = some ids) (e : String) :
    query oxml xml xpath namespaces = .error e ↔
      e = "query output exceeds the string byte limit" ∧
        ∃ s out t children, Collects doc ids oxml.evalLimits.maxStringBytes s ∧
          s.phase = .refused out t children := by
  constructor
  · intro failed
    obtain ⟨s, run, ended⟩ := collects_ends doc ids [] oxml.evalLimits.maxStringBytes
    cases ended with
    | finished =>
      rw [query_nodes eval nodes, (Account.run run).of_finished] at failed
      cases failed
    | @refused _ out t children =>
      have large := (Account.run run).of_refused rfl
      rw [query_nodes eval nodes, texts_eq, charge, if_neg (Nat.not_le.2 large)] at failed
      cases failed
      exact ⟨rfl, _, out, t, children, run, rfl⟩
  · rintro ⟨rfl, s, out, t, children, run, phase⟩
    have large := (Account.run run).of_refused phase
    rw [query_nodes eval nodes, texts_eq, charge, if_neg (Nat.not_le.2 large)]
    rfl

/-- A query succeeds exactly when its budget has room for the texts of all nodes, in whatever order
they come; it then answers with those that are not blank, and else fails where a text is refused. At
every point of the run that collects them, what is held, charged for and left is the budget. -/
theorem query_budget (eval : Evaluates oxml xml xpath namespaces doc value)
    (nodes : value.nodes = some ids) :
    ((∃ r, query oxml xml xpath namespaces = .ok r) ↔
      (ids.map fun id => bytes (pieces doc id)).sum ≤ oxml.evalLimits.maxStringBytes) ∧
    (∀ {oxml' xml' xpath' namespaces' value' ids'},
      Evaluates oxml' xml' xpath' namespaces' doc value' → value'.nodes = some ids' →
      oxml'.evalLimits = oxml.evalLimits → ids'.Perm ids →
      ((∃ r, query oxml' xml' xpath' namespaces' = .ok r) ↔
        ∃ r, query oxml xml xpath namespaces = .ok r)) ∧
    (∀ r, query oxml xml xpath namespaces = .ok r →
      r.count = ids.length ∧
      r.values = (ids.map fun id => String.join (pieces doc id)).filter fun t => ¬ Blank t) ∧
    (∀ r, query oxml xml xpath namespaces = .ok r ↔
      ∃ values rest, Collects doc ids oxml.evalLimits.maxStringBytes ⟨values, .idle, [], rest⟩ ∧
        r = { count := ids.length, values := values.filter fun t => !(trim t).isEmpty }) ∧
    (∀ e, query oxml xml xpath namespaces = .error e ↔
      e = "query output exceeds the string byte limit" ∧
        ∃ s out t children, Collects doc ids oxml.evalLimits.maxStringBytes s ∧
          s.phase = .refused out t children) ∧
    ∀ s, Collects doc ids oxml.evalLimits.maxStringBytes s →
      s.held ≤ oxml.evalLimits.maxStringBytes ∧
      s.held + s.phase.pending + s.remaining = oxml.evalLimits.maxStringBytes := by
  refine ⟨query_fits eval nodes, ?_, fun r ok => ?_, query_collects eval nodes,
    query_refused eval nodes, fun s run => ?_⟩
  · intro oxml' xml' xpath' namespaces' value' ids' eval' nodes' limits perm
    rw [query_fits eval' nodes', query_fits eval nodes, limits,
      (perm.map fun id => bytes (pieces doc id)).sum_eq]
  · obtain ⟨values, rest, run, rfl⟩ := (query_collects eval nodes r).1 ok
    obtain ⟨_, rfl, _⟩ := charge_ok.1 ((texts_eq _ _ _).symm.trans (collects_iff.1 run))
    exact ⟨rfl, reported_eq doc ids⟩
  · have budget := (Account.run run).budget
    exact ⟨by omega, budget⟩

/-- The document `<r><n>x</n></r>`, both elements of which are selected. -/
def Oxml.overlapping : Oxml :=
  .sample [("<r><n>x</n></r>", .chain [.root, .element ⟨"r", none⟩, .element ⟨"n", none⟩, .text "x"])]
    [("/r | /r/n", { nodes := some [1, 2], toStr := fun _ => "" })]

theorem query_budget_overlapping :
    ∃ r, query .overlapping "<r><n>x</n></r>" "/r | /r/n" [] = .ok r :=
  (query_budget ⟨rfl, _, rfl, rfl⟩ rfl).1.2 (by decide)

end OxmlMcp.Tools
